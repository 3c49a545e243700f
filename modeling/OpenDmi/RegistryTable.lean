import OpenDmi.RegistryRuns

namespace OpenDmi

open LinkedList

def registryPutAll : Registry → List Entity → List Bool × Registry
  | registry, [] => ([], registry)
  | registry, entity :: entities =>
    let put := registryPut registry entity
    let rest := registryPutAll put.2 entities
    (put.1 :: rest.1, rest.2)

def accepted (results : List Bool) (entities : List Entity) : List Entity :=
  ((results.zip entities).filter Prod.fst).map Prod.snd

variable {registry : Registry} {context : Context}

lemma registryPutAll_valid (h : registry.Valid) (entities : List Entity) :
    (registryPutAll registry entities).2.Valid ∧
      (registryPutAll registry entities).2.capacity = registry.capacity ∧
      (registryPutAll registry entities).2.table =
        registry.table ++ accepted (registryPutAll registry entities).1 entities := by
  induction entities generalizing registry with
  | nil => simp [registryPutAll, accepted, h]
  | cons entity entities ih =>
    rcases registryPut_cases entity h with ⟨_, hp⟩ | ⟨_, hp, hv, hc, ht⟩
    · obtain ⟨hv', hc', ht'⟩ := ih h
      simp only [registryPutAll, hp]
      exact ⟨hv', hc', by simpa [accepted] using ht'⟩
    · obtain ⟨hv', hc', ht'⟩ := ih hv
      refine ⟨hv', hc'.trans hc, ?_⟩
      simp only [registryPutAll, ht', ht, accepted, hp, List.zip_cons_cons, List.filter_cons,
        if_true, List.map_cons, List.append_assoc, List.singleton_append]

lemma registryPut_false (h : registry.Valid) {entity : Entity}
    (hp : (registryPut registry entity).1 = false) : (registryPut registry entity).2 = registry := by
  rcases registryPut_cases entity h with ⟨_, hp'⟩ | ⟨_, hp', _⟩
  · rw [hp']
  · rw [hp] at hp'
    cases hp'

lemma chain_find (h : registry.Valid) (handle : ℕ) :
    (find registry.next (fun i => (registry.entity i).handle == handle) (registry.allocated + 1)
      (registry.index (handle % registry.capacity))).map registry.entity =
        registry.table.find? fun entity => entity.handle == handle := by
  have hlen : (registry.slot (handle % registry.capacity)).length ≤ registry.allocated + 1 :=
    (List.length_filter_le _ _).trans (by simp)
  rw [(h.chain _).find_eq _ hlen, Registry.slot, List.find?_filter, Registry.table, List.find?_map]
  congr 2
  funext i
  by_cases hi : (registry.entity i).handle = handle <;> simp [hi]

def typeAllowed (context : Context) (type : Option ℕ) (entity : Entity) : Bool :=
  type.isNone || entityType context entity == type

def typesAllowed (context : Context) (types : Option (List ℕ)) (entity : Entity) : Bool :=
  match types with
  | none => true
  | some types => types.any fun type => entityType context entity == some type

lemma registryLookup_eq (h : registry.Valid) {handle : ℕ} (hi : handle ≠ handleInvalid)
    (hu : handle ≠ handleUnsupported) (type : Option ℕ) :
    registryLookup context registry handle type =
      (registry.table.find? fun entity => entity.handle == handle).filter
        (typeAllowed context type) := by
  rw [← chain_find h, registryLookup, if_neg (by tauto)]
  cases find registry.next (fun i => (registry.entity i).handle == handle)
      (registry.allocated + 1) (registry.index (handle % registry.capacity)) with
  | none => rfl
  | some i =>
    cases type with
    | none => simp [typeAllowed, Option.filter]
    | some type =>
      by_cases he : entityType context (registry.entity i) = some type <;>
        simp [typeAllowed, Option.filter, he]

lemma registryLookupAny_eq (h : registry.Valid) {handle : ℕ} (hi : handle ≠ handleInvalid)
    (hu : handle ≠ handleUnsupported) (types : Option (List ℕ)) :
    registryLookupAny context registry handle types =
      (registry.table.find? fun entity => entity.handle == handle).filter
        (typesAllowed context types) := by
  rw [registryLookupAny, registryLookup_eq h hi hu]
  cases registry.table.find? fun entity => entity.handle == handle with
  | none => rfl
  | some entity =>
    cases types with
    | none => simp [typeAllowed, typesAllowed, Option.filter]
    | some types => simp [typeAllowed, typesAllowed, Option.filter]

def filterAccepts (filter : Option Filter) (entity : Entity) : Bool :=
  match filter with
  | none => true
  | some filter => filterMatch filter entity

lemma iterMatch_eq (filter : Option Filter) :
    iterMatch registry filter = filterAccepts filter ∘ registry.entity := by
  funext i
  cases filter <;> rfl

def registryIterAt (registry : Registry) (filter : Option Filter) : ℕ → RegistryIter
  | 0 => registryIterInitialize filter
  | n + 1 => (registryIterNext registry (registryIterAt registry filter n)).2

def IterInv (registry : Registry) (filter : Option Filter) (n : ℕ) (iter : RegistryIter) : Prop :=
  iter.filter = filter ∧
    if iter.isDone then (registry.table.filter (filterAccepts filter)).length ≤ n
    else ∃ rest, Links registry.seqNext (iterStart registry iter) rest ∧
      rest.length ≤ registry.allocated ∧
      (rest.map registry.entity).filter (filterAccepts filter) =
        (registry.table.filter (filterAccepts filter)).drop n

lemma iterInv_initialize (h : registry.Valid) (filter : Option Filter) :
    IterInv registry filter 0 (registryIterInitialize filter) :=
  ⟨rfl, List.range registry.allocated, h.sequence, by simp, by simp [Registry.table]⟩

lemma registryIterNext_spec {filter : Option Filter} {n : ℕ} {iter : RegistryIter}
    (h : IterInv registry filter n iter) :
    (registryIterNext registry iter).1 = (registry.table.filter (filterAccepts filter))[n]? ∧
      registryIterHasNext registry iter = (registryIterNext registry iter).1.isSome ∧
      IterInv registry filter (n + 1) (registryIterNext registry iter).2 := by
  obtain ⟨hfilter, hrest⟩ := h
  by_cases hd : iter.isDone
  · rw [if_pos hd] at hrest
    simp only [registryIterNext, registryIterHasNext, hd, if_true, Bool.not_true, Bool.false_and,
      Option.isSome_none, true_and]
    exact ⟨(List.getElem?_eq_none hrest).symm, hfilter, by rw [if_pos hd]; omega⟩
  · rw [if_neg hd] at hrest
    obtain ⟨rest, hl, hlen, heq⟩ := hrest
    have hfind := hl.find_eq (iterMatch registry filter) (hlen.trans (Nat.le_succ _))
    simp only [registryIterNext, registryIterHasNext, hd, hfilter, hfind, Bool.false_eq_true,
      if_false, Bool.not_false, Bool.true_and]
    have hget : (registry.table.filter (filterAccepts filter))[n]? =
        ((rest.map registry.entity).filter (filterAccepts filter))[0]? := by
      rw [heq, List.getElem?_drop, Nat.add_zero]
    rw [hget, iterMatch_eq]
    cases hf : rest.find? (filterAccepts filter ∘ registry.entity) with
    | none =>
      have hnil : (rest.map registry.entity).filter (filterAccepts filter) = [] := by
        rw [List.filter_map, List.map_eq_nil_iff, List.filter_eq_nil_iff]
        simpa using hf
      rw [hnil] at heq ⊢
      refine ⟨rfl, rfl, rfl, ?_⟩
      have hle := List.drop_eq_nil_iff.mp heq.symm
      simp only [if_true]
      omega
    | some i =>
      obtain ⟨hi, before, after, rfl, hno⟩ := List.find?_eq_some_iff_append.mp hf
      have hskip : ((before ++ i :: after).map registry.entity).filter (filterAccepts filter) =
          registry.entity i :: (after.map registry.entity).filter (filterAccepts filter) := by
        have hb : (before.map registry.entity).filter (filterAccepts filter) = [] := by
          rw [List.filter_map, List.map_eq_nil_iff, List.filter_eq_nil_iff]
          intro j hj
          simpa using hno j hj
        have hi' : filterAccepts filter (registry.entity i) = true := hi
        simp [hb, hi']
      rw [hskip] at heq ⊢
      refine ⟨rfl, rfl, rfl, ?_⟩
      rw [if_neg (by simp)]
      refine ⟨after, hl.split, ?_, ?_⟩
      · simp only [List.length_append, List.length_cons] at hlen
        omega
      · rw [← List.drop_drop, ← heq]
        rfl

lemma registryIterAt_inv (h : registry.Valid) (filter : Option Filter) (n : ℕ) :
    IterInv registry filter n (registryIterAt registry filter n) := by
  induction n with
  | zero => exact iterInv_initialize h filter
  | succ n ih => exact (registryIterNext_spec ih).2.2

theorem registry_represents_table (context : Context) (capacity : ℕ) (entities : List Entity) :
    let run := registryPutAll (registryCreate capacity) entities
    let registry := run.2
    let table := accepted run.1 entities
    (∃ ids, Links registry.seqNext registry.head ids ∧ ids.Nodup ∧
      ids.map registry.entity = table) ∧
    (∀ hash, ∃ ids, Links registry.next (registry.index hash) ids ∧ ids.Nodup ∧
      ids.map registry.entity =
        table.filter fun entity => entity.handle % registry.capacity == hash) ∧
    (∀ entity, (registryPut registry entity).1 = false →
      (registryPut registry entity).2 = registry) ∧
    (∀ handle, handle ≠ handleInvalid → handle ≠ handleUnsupported →
      (∀ type, registryLookup context registry handle type =
        (table.find? fun entity => entity.handle == handle).filter (typeAllowed context type)) ∧
      ∀ types, registryLookupAny context registry handle types =
        (table.find? fun entity => entity.handle == handle).filter (typesAllowed context types)) ∧
    ∀ filter n,
      (registryIterNext registry (registryIterAt registry filter n)).1 =
        (table.filter (filterAccepts filter))[n]? ∧
      registryIterHasNext registry (registryIterAt registry filter n) =
        (registryIterNext registry (registryIterAt registry filter n)).1.isSome := by
  intro run registry table
  obtain ⟨hv, -, ht⟩ := registryPutAll_valid (registryCreate_valid capacity) entities
  have htable : registry.table = table := ht
  rw [← htable]
  refine ⟨⟨_, hv.sequence, List.nodup_range, rfl⟩, fun hash => ⟨_, hv.chain hash, slot_nodup hash,
    ?_⟩, fun entity hp => registryPut_false hv hp, fun handle hi hu =>
    ⟨registryLookup_eq hv hi hu, registryLookupAny_eq hv hi hu⟩, fun filter n => ?_⟩
  · simp only [Registry.slot, Registry.table, List.filter_map]
    rfl
  · have hspec := registryIterNext_spec (registryIterAt_inv hv filter n)
    exact ⟨hspec.1, hspec.2.1⟩

end OpenDmi

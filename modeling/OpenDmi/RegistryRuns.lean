import OpenDmi.Registry

namespace OpenDmi

open LinkedList

def Registry.slot (registry : Registry) (hash : ℕ) : List ℕ :=
  (List.range registry.allocated).filter
    fun i => (registry.entity i).handle % registry.capacity == hash

def Registry.table (registry : Registry) : List Entity :=
  (List.range registry.allocated).map registry.entity

structure Registry.Valid (registry : Registry) : Prop where
  capacity_pos : 0 < registry.capacity
  sequence : Links registry.seqNext registry.head (List.range registry.allocated)
  last : registry.tail = (List.range registry.allocated).getLast?
  chain : ∀ hash, Links registry.next (registry.index hash) (registry.slot hash)
  next_fresh : ∀ i, registry.allocated ≤ i → registry.next i = none
  seqNext_fresh : ∀ i, registry.allocated ≤ i → registry.seqNext i = none

lemma registryCreate_valid (capacity : ℕ) : (registryCreate capacity).Valid where
  capacity_pos := by simp only [registryCreate]; split_ifs <;> omega
  sequence := .nil
  last := rfl
  chain _ := .nil
  next_fresh _ _ := rfl
  seqNext_fresh _ _ := rfl

variable {registry : Registry} {entity : Entity} {index next : ℕ → Option ℕ}

lemma slot_nodup (hash : ℕ) : (registry.slot hash).Nodup := List.nodup_range.filter _

lemma mem_slot {hash i : ℕ} : i ∈ registry.slot hash ↔
    i < registry.allocated ∧ (registry.entity i).handle % registry.capacity = hash := by
  simp [Registry.slot]

lemma slot_append (hash : ℕ) :
    (registryAppend registry entity index next).slot hash = registry.slot hash ++
      if entity.handle % registry.capacity = hash then [registry.allocated] else [] := by
  have hold : ∀ i ∈ List.range registry.allocated,
      ((Function.update registry.entity registry.allocated entity i).handle %
        registry.capacity == hash) =
      ((registry.entity i).handle % registry.capacity == hash) := by
    intro i hi
    rw [Function.update_of_ne (List.mem_range.mp hi).ne]
  simp only [Registry.slot, registryAppend, List.range_succ, List.filter_append]
  rw [List.filter_congr hold]
  by_cases h : entity.handle % registry.capacity = hash <;> simp [h]

lemma table_append : (registryAppend registry entity index next).table =
    registry.table ++ [entity] := by
  simp only [Registry.table, registryAppend, List.range_succ, List.map_append, List.map_cons,
    List.map_nil, Function.update_self]
  congr 1
  exact List.map_congr_left fun i hi => by rw [Function.update_of_ne (List.mem_range.mp hi).ne]

lemma append_valid (h : registry.Valid)
    (hchain : ∀ hash, Links next (index hash)
      ((registryAppend registry entity index next).slot hash))
    (hfresh : ∀ i, registry.allocated + 1 ≤ i → next i = none) :
    (registryAppend registry entity index next).Valid where
  capacity_pos := h.capacity_pos
  sequence := by
    have hseq := h.sequence
    have hlast := h.last
    have hnew := h.seqNext_fresh registry.allocated le_rfl
    simp only [registryAppend]
    rcases Nat.eq_zero_or_pos registry.allocated with h0 | hpos
    · simp only [h0, List.range_zero, List.getLast?_nil] at hseq hlast hnew ⊢
      cases hh : registry.head with
      | some i => rw [hh] at hseq; cases hseq
      | none =>
        refine .cons ?_
        simp only [hlast, hnew]
        exact .nil
    · obtain ⟨n, hn⟩ : ∃ n, registry.allocated = n + 1 := ⟨registry.allocated - 1, by omega⟩
      have htail : registry.tail = some n := by simp [hlast, hn, List.range_succ]
      cases hh : registry.head with
      | none => rw [hh, hn, List.range_succ_eq_map] at hseq; cases hseq
      | some i =>
        simp only [htail]
        rw [hn, List.range_succ] at hseq ⊢
        rw [hn] at hnew
        rw [hh] at hseq
        rw [List.range_succ]
        refine hseq.append ?_ ?_ hnew
        · rw [← List.range_succ]; exact List.nodup_range
        · rw [← List.range_succ]; simp
  last := by simp [registryAppend, List.range_succ]
  chain := hchain
  next_fresh i hi := hfresh i hi
  seqNext_fresh i hi := by
    have hi' : registry.allocated + 1 ≤ i := hi
    simp only [registryAppend]
    cases ht : registry.tail with
    | none => exact h.seqNext_fresh i (by omega)
    | some t =>
      have hlt : t < registry.allocated := by
        have hmem := List.mem_of_getLast? (h.last.symm.trans ht)
        simpa using hmem
      change Function.update registry.seqNext t (some registry.allocated) i = none
      rw [Function.update_of_ne (by omega)]
      exact h.seqNext_fresh i (by omega)

lemma registryChainEnd_eq (entity : Entity) {ids : List ℕ} {first fuel : ℕ}
    (h : Links registry.next (some first) ids) (hf : ids.length ≤ fuel) :
    registryChainEnd registry entity fuel first =
      if ids.any fun i => sameBytes (registry.entity i) entity then none else ids.getLast? := by
  induction ids generalizing first fuel with
  | nil => cases h
  | cons i is ih =>
    obtain _ | h' := h
    obtain _ | fuel := fuel
    · simp at hf
    · have hf' : is.length ≤ fuel := by simpa using hf
      by_cases hs : sameBytes (registry.entity i) entity
      · simp [registryChainEnd, hs]
      · cases hn : registry.next i with
        | none =>
          rw [hn] at h'
          cases h'
          simp [registryChainEnd, hs, hn]
        | some second =>
          rw [hn] at h'
          have hne : is ≠ [] := by rintro rfl; cases h'
          obtain ⟨j, js, rfl⟩ := List.exists_cons_of_ne_nil hne
          simp [registryChainEnd, hs, hn, ih h' hf']

def tableHas (capacity : ℕ) (table : List Entity) (entity : Entity) : Bool :=
  table.any fun other => other.handle % capacity == entity.handle % capacity &&
    sameBytes other entity

lemma tableHas_slot : tableHas registry.capacity registry.table entity =
    (registry.slot (entity.handle % registry.capacity)).any
      fun i => sameBytes (registry.entity i) entity := by
  simp [tableHas, Registry.table, Registry.slot, List.any_map, List.any_filter, Function.comp_def]

lemma registryPut_cases (entity : Entity) (h : registry.Valid) :
    (tableHas registry.capacity registry.table entity = true ∧
      registryPut registry entity = (false, registry)) ∨
    (tableHas registry.capacity registry.table entity = false ∧
      (registryPut registry entity).1 = true ∧ (registryPut registry entity).2.Valid ∧
      (registryPut registry entity).2.capacity = registry.capacity ∧
      (registryPut registry entity).2.table = registry.table ++ [entity]) := by
  have hc := h.chain (entity.handle % registry.capacity)
  rw [tableHas_slot]
  cases hi : registry.index (entity.handle % registry.capacity) with
  | none =>
    rw [hi] at hc
    have hempty : registry.slot (entity.handle % registry.capacity) = [] := by
      cases hs : registry.slot (entity.handle % registry.capacity) with
      | nil => rfl
      | cons i is => rw [hs] at hc; cases hc
    right
    simp only [registryPut, hi, hempty, List.any_nil, true_and]
    refine ⟨append_valid h (fun hash => ?_) (fun i hlt => h.next_fresh i (by omega)), rfl,
      table_append⟩
    rw [slot_append]
    by_cases hh : entity.handle % registry.capacity = hash
    · subst hh
      simp only [hempty, if_true, List.nil_append, Function.update_self]
      refine .cons ?_
      rw [h.next_fresh _ le_rfl]
      exact .nil
    · rw [Function.update_of_ne (Ne.symm hh), if_neg hh, List.append_nil]
      exact h.chain hash
  | some first =>
    rw [hi] at hc
    have hlen : (registry.slot (entity.handle % registry.capacity)).length ≤ registry.allocated :=
      (List.length_filter_le _ _).trans (by simp)
    have hend := registryChainEnd_eq entity hc hlen
    cases hany : (registry.slot (entity.handle % registry.capacity)).any
        fun i => sameBytes (registry.entity i) entity with
    | true =>
      rw [hany] at hend
      left
      simp [registryPut, hi, hend]
    | false =>
      rw [hany] at hend
      right
      have hne : registry.slot (entity.handle % registry.capacity) ≠ [] := by
        intro he
        rw [he] at hc
        cases hc
      obtain ⟨is, last, hslot⟩ := (List.eq_nil_or_concat _).resolve_left hne
      rw [List.concat_eq_append] at hslot
      have hlast : registryChainEnd registry entity registry.allocated first = some last := by
        simpa [hslot] using hend
      have hmem := mem_slot.mp (hslot ▸ List.mem_append_right is (List.mem_singleton_self last))
      simp only [registryPut, hi, hlast, true_and]
      refine ⟨append_valid h (fun hash => ?_) (fun i hlt => ?_), rfl, table_append⟩
      · rw [slot_append]
        by_cases hh : entity.handle % registry.capacity = hash
        · subst hh
          have hc' := hc
          rw [hslot] at hc'
          rw [if_pos rfl, hi, hslot]
          refine hc'.append (hslot ▸ slot_nodup _) (fun hm => ?_) (h.next_fresh _ le_rfl)
          exact (mem_slot.mp (hslot ▸ hm)).1.false
        · rw [if_neg hh, List.append_nil]
          refine (h.chain hash).congr fun i hm => Function.update_of_ne ?_ _ _
          rintro rfl
          exact hh (hmem.2.symm.trans (mem_slot.mp hm).2)
      · rw [Function.update_of_ne (by omega)]
        exact h.next_fresh i (by omega)

end OpenDmi

import OpenDmi.Link
import OpenDmi.OverlayRuns

/-! What linking leaves in the members of the structures: the first structure of each handle they
declare, whichever order the structures are linked in. -/

namespace OpenDmi

structure Reference where
  attr : Attribute
  node : AttributeNode

variable {σ : Type} {memberStart : Attribute → AttributeNode → σ → Bool × σ}
  {visit : σ → Reference → σ} {context : Context} {registry : Registry} {attr : Attribute}

mutual

def references (info : Memory) (block : List ℕ) (base : ℕ) : List Attribute → List Reference
  | [] => []
  | attr :: rest =>
    (if attr.type = .variant then
      match attributeResolve (attributeReadInt attr.value
          (info.number (base + attr.value.offset))) attr.variants 0 none with
      | none => []
      | some i => referencesVariant info block base i attr
    else attributeReferences info block base attr) ++ references info block base rest

def referencesVariant (info : Memory) (block : List ℕ) (base i : ℕ) : Attribute → List Reference
  | ⟨_, _, _, _, _, _, _, _, _, _, _, _, _, variants⟩ => referencesAt info block base i variants

def referencesAt (info : Memory) (block : List ℕ) (base : ℕ) : ℕ → List Attribute → List Reference
  | _, [] => []
  | 0, attr :: _ => attributeReferences info block base attr
  | i + 1, _ :: rest => referencesAt info block base i rest

def attributeReferences (info : Memory) (block : List ℕ) (base : ℕ) : Attribute → List Reference
  | ⟨value, type, counter, count, unspec, unknown, isPrivate, isMac, targets, link, selector,
      isDefault, attrs, variants⟩ =>
    let attr : Attribute := ⟨value, type, counter, count, unspec, unknown, isPrivate, isMac,
      targets, link, selector, isDefault, attrs, variants⟩
    if type = .handle then [⟨attr, info, block, base⟩]
    else if type ≠ .struct then []
    else if attributeIsArray attr then
      if count ≠ 0 then
        (List.range count).flatMap fun i =>
          references info block (base + value.offset + i * value.size) attrs
      else match info.pointer (base + value.offset) with
        | .ref _ => []
        | .elements number pointer =>
          (List.range (info.load base counter)).flatMap fun i =>
            references ⟨number, pointer⟩ (block ++ [base + value.offset]) (i * value.size) attrs
    else references info block (base + value.offset) attrs

end

structure VisitsHandles (memberStart : Attribute → AttributeNode → σ → Bool × σ)
    (visit : σ → Reference → σ) : Prop where
  handle : ∀ attr node state, attr.type = .handle →
    memberStart attr node state = (false, visit state ⟨attr, node⟩)
  other : ∀ attr node state, attr.type ≠ .handle → memberStart attr node state = (true, state)

lemma attributeWalkMembers_eq (hv : VisitsHandles memberStart visit)
    (hattrs : ∀ info block base state,
      attributesWalkMembers memberStart info block base attr.attrs state =
        (references info block base attr.attrs).foldl visit state)
    (info : Memory) (block : List ℕ) (base : ℕ) (state : σ) :
    attributeWalkMembers memberStart info block base attr state =
      (attributeReferences info block base attr).foldl visit state := by
  cases attr with
  | mk value type counter count unspec unknown isPrivate isMac targets link selector isDefault attrs
      variants =>
    rw [attributeWalkMembers, attributeReferences]
    simp only
    by_cases hh : type = .handle
    · rw [if_pos hh, hv.handle _ _ _ hh]
      rfl
    rw [if_neg hh, hv.other _ _ _ hh]
    simp only [Bool.not_true, Bool.false_eq_true, if_false]
    by_cases hs : type = .struct
    · simp only [hs, ne_eq, not_true_eq_false, if_true, if_false] at hattrs ⊢
      by_cases harray : attributeIsArray ⟨value, .struct, counter, count, unspec, unknown, isPrivate,
        isMac, targets, link, selector, isDefault, attrs, variants⟩ = true
      · rw [if_pos harray, if_pos harray]
        by_cases hcount : count = 0
        · rw [if_neg (not_not.mpr hcount), if_neg (not_not.mpr hcount)]
          cases info.pointer (base + value.offset) with
          | ref r => rfl
          | elements number pointer => simp only [hattrs, List.foldl_flatMap]
        · rw [if_pos hcount, if_pos hcount]
          simp only [hattrs, List.foldl_flatMap]
      · rw [if_neg harray, if_neg harray]
        exact hattrs _ _ _ _
    · simp only [hs, ne_eq, not_false_eq_true, if_true, if_false, List.foldl_nil]
      split_ifs
      · cases info.pointer (base + value.offset) with
        | ref r => rfl
        | elements number pointer => exact List.foldl_fixed _
      · exact List.foldl_fixed _
      · rfl

mutual

theorem attributesWalkMembers_eq (hv : VisitsHandles memberStart visit) : ∀ (attrs : List Attribute)
    (info : Memory) (block : List ℕ) (base : ℕ) (state : σ),
    attributesWalkMembers memberStart info block base attrs state =
      (references info block base attrs).foldl visit state
  | [], info, block, base, state => rfl
  | attr :: rest, info, block, base, state => by
    rw [attributesWalkMembers, references, List.foldl_append]
    split_ifs
    · cases attributeResolve (attributeReadInt attr.value
          (info.number (base + attr.value.offset))) attr.variants 0 none with
      | none => exact attributesWalkMembers_eq hv rest info block base state
      | some i =>
        simp only
        rw [attributesWalkMembers_eq hv rest, attributeWalkMembersVariant_eq hv attr]
    · rw [attributesWalkMembers_eq hv rest, attributeWalkMembers_eq_references hv attr]

theorem attributeWalkMembersVariant_eq (hv : VisitsHandles memberStart visit) : ∀ (attr : Attribute)
    (info : Memory) (block : List ℕ) (base i : ℕ) (state : σ),
    attributeWalkMembersVariant memberStart info block base i attr state =
      (referencesVariant info block base i attr).foldl visit state
  | ⟨_, _, _, _, _, _, _, _, _, _, _, _, _, variants⟩, info, block, base, i, state => by
    rw [attributeWalkMembersVariant, referencesVariant]
    exact attributesWalkMembersAt_eq hv variants info block base i state

theorem attributesWalkMembersAt_eq (hv : VisitsHandles memberStart visit) : ∀ (attrs : List Attribute)
    (info : Memory) (block : List ℕ) (base i : ℕ) (state : σ),
    attributesWalkMembersAt memberStart info block base i attrs state =
      (referencesAt info block base i attrs).foldl visit state
  | [], info, block, base, i, state => by
    cases i <;> rfl
  | attr :: rest, info, block, base, 0, state => by
    rw [attributesWalkMembersAt, referencesAt]
    exact attributeWalkMembers_eq_references hv attr info block base state
  | attr :: rest, info, block, base, i + 1, state => by
    rw [attributesWalkMembersAt, referencesAt]
    exact attributesWalkMembersAt_eq hv rest info block base i state

theorem attributeWalkMembers_eq_references (hv : VisitsHandles memberStart visit) : ∀ (attr : Attribute)
    (info : Memory) (block : List ℕ) (base : ℕ) (state : σ),
    attributeWalkMembers memberStart info block base attr state =
      (attributeReferences info block base attr).foldl visit state
  | ⟨_, _, _, _, _, _, _, _, _, _, _, _, attrs, _⟩, info, block, base, state =>
    attributeWalkMembers_eq hv (attributesWalkMembers_eq hv attrs) info block base state

end

/-- The structure a handle stands for: the first one of the table with the handle, if it is of one of
the types. Reserved handles stand for none. -/
def handleTarget (context : Context) (table : List Entity) (types : Option (List ℕ)) (handle : ℕ) :
    Option ℕ :=
  if handle = handleInvalid ∨ handle = handleUnsupported then none
  else (table.findIdx? fun entity => entity.handle == handle).filter
    fun i => table[i]?.any (typesAllowed context types)

/-- The handle is unset, or one of a structure of the types. Zero may be of any other type where the
context is not strict. -/
def HandleOk (context : Context) (table : List Entity) (types : Option (List ℕ)) (handle : ℕ) :
    Prop :=
  handle = handleInvalid ∨ handle = handleUnsupported ∨
    types ≠ some [] ∧ ∃ entity, table.find? (fun entity => entity.handle == handle) = some entity ∧
      (typesAllowed context types entity = true ∨ handle = 0 ∧ context.strict = false)

lemma registryResolveAny_eq (h : registry.Valid) (types : Option (List ℕ)) (handle : ℕ) :
    ((registryResolveAny context registry handle types).1 = true ↔
      HandleOk context registry.table types handle) ∧
    (registryResolveAny context registry handle types).2 =
      handleTarget context registry.table types handle := by
  rw [registryResolveAny, HandleOk, handleTarget]
  by_cases hr : handle = handleInvalid ∨ handle = handleUnsupported
  · rw [if_pos hr, if_pos hr]
    exact ⟨⟨fun _ => by tauto, fun _ => rfl⟩, rfl⟩
  rw [if_neg hr, if_neg hr]
  obtain ⟨hi, hu⟩ := not_or.mp hr
  by_cases ht : types = some []
  · rw [if_pos ht]
    refine ⟨by simp [hi, hu, ht], ?_⟩
    cases hf : registry.table.findIdx? fun entity => entity.handle == handle with
    | none => rfl
    | some i => cases hg : registry.table[i]? <;> simp [Option.filter, hg, ht, typesAllowed]
  rw [if_neg ht, registryLookupEntry_eq h, if_neg hr]
  cases hf : registry.table.findIdx? fun entity => entity.handle == handle with
  | none =>
    have hnone : registry.table.find? (fun entity => entity.handle == handle) = none := by
      rw [List.find?_eq_none]
      rw [List.findIdx?_eq_none_iff] at hf
      intro entity hm
      simp [hf entity hm]
    simp [hnone, hi, hu]
  | some i =>
    obtain ⟨hlt, hp, hfirst⟩ := List.findIdx?_eq_some_iff_getElem.mp hf
    have hget : registry.table[i]? = some (registry.entity i) := by
      rw [Registry.table, List.length_map, List.length_range] at hlt
      exact getElem?_table hlt
    have hfind : registry.table.find? (fun entity => entity.handle == handle) =
        some (registry.entity i) := by
      rw [List.find?_eq_some_iff_getElem]
      obtain ⟨hlt', hvalue⟩ := List.getElem?_eq_some_iff.mp hget
      refine ⟨?_, i, hlt', hvalue, fun j hj => by simpa using hfirst j hj⟩
      rwa [← hvalue]
    simp only [hfind, Option.filter, hget, Option.any_some]
    cases types with
    | none => simp [typesAllowed]
    | some types =>
      have hsame : (types.any fun type => entityType context (registry.entity i) == some type) =
        typesAllowed context (some types) (registry.entity i) := rfl
      simp only [hsame]
      by_cases ha : typesAllowed context (some types) (registry.entity i) = true
      · simp [ha, ht]
      · simp [ha, ht, hi, hu]

namespace Reference

def handles (reference : Reference) : List ℕ :=
  if attributeIsArray reference.attr then attributeHandles reference.attr reference.node
  else [handleAt reference.node.info (reference.node.base + reference.attr.value.offset)]

def place (reference : Reference) : LinkPlace :=
  ⟨reference.node.block, reference.node.base + reference.attr.link.offset⟩

def linksInto (reference : Reference) (place : LinkPlace) : Bool :=
  memberIsPresent reference.attr.link && reference.place == place &&
    !(attributeIsArray reference.attr && reference.handles.isEmpty)

def linked (context : Context) (table : List Entity) (reference : Reference) : Linked :=
  if attributeIsArray reference.attr then
    .many (reference.handles.map (handleTarget context table reference.attr.targets))
  else .one (handleTarget context table reference.attr.targets
    (handleAt reference.node.info (reference.node.base + reference.attr.value.offset)))

def Ok (context : Context) (table : List Entity) (reference : Reference) : Prop :=
  memberIsPresent reference.attr.link = true →
    ∀ handle ∈ reference.handles, HandleOk context table reference.attr.targets handle

end Reference

def linkedMembers (context : Context) (table : List Entity) (refs : List Reference)
    (members : LinkMembers) : LinkMembers := fun place =>
  (refs.reverse.find? (·.linksInto place)).elim (members place) (·.linked context table)

lemma update_eq {table : List Entity} {reference : Reference} {linked : Linked}
    {members : LinkMembers} (hlinked : reference.linked context table = linked)
    (hplace : ∀ place, reference.linksInto place = (reference.place == place)) :
    Function.update members reference.place linked = fun place =>
      if reference.linksInto place then reference.linked context table else members place := by
  funext place
  rw [hlinked, hplace, Function.update_apply]
  by_cases hp : reference.place = place
  · simp [hp]
  · simp [hp, Ne.symm hp]

lemma attributesLinkHandle_eq (context : Context) (h : registry.Valid) (reference : Reference)
    (members : LinkMembers) :
    ((attributesLinkHandle context registry reference.attr reference.node members).1 = true ↔
      reference.Ok context registry.table) ∧
    (attributesLinkHandle context registry reference.attr reference.node members).2 = fun place =>
      if reference.linksInto place then reference.linked context registry.table else members place := by
  have hok (handle : ℕ) :
      (registryResolveAny context registry handle reference.attr.targets).1 = true ↔
        HandleOk context registry.table reference.attr.targets handle :=
    (registryResolveAny_eq h _ handle).1
  have htarget (handle : ℕ) :
      (registryResolveAny context registry handle reference.attr.targets).2 =
        handleTarget context registry.table reference.attr.targets handle :=
    (registryResolveAny_eq h _ handle).2
  rw [attributesLinkHandle, Reference.Ok]
  by_cases hp : memberIsPresent reference.attr.link = true
  swap
  · simp [hp, Reference.linksInto]
  simp only [hp, Bool.not_true, Bool.false_eq_true, if_false, forall_const]
  by_cases ha : attributeIsArray reference.attr = true
  · have hhandles : reference.handles = attributeHandles reference.attr reference.node := if_pos ha
    simp only [ha, Bool.not_true, Bool.false_eq_true, if_false, List.length_eq_zero_iff, hhandles,
      htarget]
    by_cases hnil : attributeHandles reference.attr reference.node = []
    · rw [if_pos hnil]
      refine ⟨by simp [hnil], ?_⟩
      funext place
      simp [Reference.linksInto, ha, hhandles, hnil]
    · rw [if_neg hnil]
      refine ⟨by simp [List.all_eq_true, hok], ?_⟩
      have hlinked : reference.linked context registry.table = .many
          ((attributeHandles reference.attr reference.node).map
            (handleTarget context registry.table reference.attr.targets)) := by
        rw [Reference.linked, if_pos ha, hhandles]
      exact update_eq hlinked fun place => by simp [Reference.linksInto, hp, hhandles, hnil]
  · have hhandles : reference.handles =
        [handleAt reference.node.info (reference.node.base + reference.attr.value.offset)] := if_neg ha
    simp only [ha, Bool.not_false, if_true, hhandles, htarget, List.mem_singleton, forall_eq, hok,
      true_and]
    exact update_eq (if_neg ha) fun place => by simp [Reference.linksInto, hp, ha]

def linkReference (context : Context) (registry : Registry) (walk : Bool × LinkMembers)
    (reference : Reference) : Bool × LinkMembers :=
  let result := attributesLinkHandle context registry reference.attr reference.node walk.2
  (walk.1 && result.1, result.2)

lemma linkReferences (context : Context) (h : registry.Valid) (refs : List Reference) (ok : Bool)
    (members : LinkMembers) :
    ((refs.foldl (linkReference context registry) (ok, members)).1 = true ↔
      ok = true ∧ ∀ reference ∈ refs, reference.Ok context registry.table) ∧
    (refs.foldl (linkReference context registry) (ok, members)).2 =
      linkedMembers context registry.table refs members := by
  induction refs generalizing ok members with
  | nil => exact ⟨by simp, rfl⟩
  | cons reference refs ih =>
    obtain ⟨hok, hmembers⟩ := attributesLinkHandle_eq context h reference members
    rw [List.foldl_cons, linkReference]
    obtain ⟨hall, hrest⟩ := ih (ok && (attributesLinkHandle context registry reference.attr
      reference.node members).1) (attributesLinkHandle context registry reference.attr
      reference.node members).2
    refine ⟨?_, ?_⟩
    · rw [hall, Bool.and_eq_true, hok, List.forall_mem_cons, and_assoc]
    · rw [hrest, hmembers]
      funext place
      rw [linkedMembers, linkedMembers, List.reverse_cons, List.find?_append]
      cases refs.reverse.find? (·.linksInto place) with
      | some last => rfl
      | none => cases hl : reference.linksInto place <;> simp [hl]

lemma attributesLink_eq (context : Context) (h : registry.Valid) {entity : Linkable} {info : Memory}
    (hinfo : entity.info = some info) (members : LinkMembers) :
    ((attributesLink context registry entity members).1 = true ↔
      ∀ reference ∈ references info [] 0 entity.attributes,
        reference.Ok context registry.table) ∧
    (attributesLink context registry entity members).2 =
      linkedMembers context registry.table (references info [] 0 entity.attributes) members := by
  have hv : VisitsHandles (attributesLinkMember context registry)
      (linkReference context registry) := by
    refine ⟨fun attr node state ht => ?_, fun attr node state ht => ?_⟩
    · rw [attributesLinkMember, if_neg (not_not.mpr ht)]
      rfl
    · rw [attributesLinkMember, if_pos ht]
  rw [attributesLink, hinfo]
  simp only
  rw [attributesWalkMembers_eq hv]
  obtain ⟨hok, hmembers⟩ := linkReferences context h
    (references info [] 0 entity.attributes) true members
  exact ⟨by simpa using hok, hmembers⟩

structure LinksReferences (context : Context) (table : List Entity) (entity : Linkable)
    (info : Memory) (i : ℕ) (state : LinkState) (result : Bool × LinkState) : Prop where
  members : result.2.members i = linkedMembers context table
    (references info [] 0 entity.attributes) (state.members i)
  others : ∀ j, j ≠ i →
    result.2.members j = state.members j ∧ result.2.linked j = state.linked j
  success : entity.link = none → (result.1 = true ↔
    ∀ reference ∈ references info [] 0 entity.attributes, reference.Ok context table)
  linked : result.2.linked i = result.1

lemma mark_linked {linked : ℕ → Bool} {i : ℕ} (h : linked i = false) (success : Bool) :
    (if success then Function.update linked i true else linked) i = success := by
  cases success <;> simp [h]

lemma entityLink_links (context : Context) (h : registry.Valid) {entity : Linkable} {info : Memory}
    {i : ℕ} {state : LinkState} (hinfo : entity.info = some info)
    (hlinkable : entityIsLinkable entity = true) (hunlinked : state.linked i = false) :
    LinksReferences context registry.table entity info i state
      (entityLink context registry entity i state) := by
  obtain ⟨hok, hmembers⟩ := attributesLink_eq context h hinfo (state.members i)
  rw [entityLink]
  simp only [hlinkable, hunlinked, Bool.not_true, Bool.false_eq_true, if_false]
  constructor
  · simp only [Function.update_self]
    exact hmembers
  · intro j hj
    refine ⟨Function.update_of_ne hj _ _, ?_⟩
    simp only
    split_ifs
    · exact Function.update_of_ne hj _ _
    · rfl
  · intro hnone
    simp only [hnone]
    exact hok
  · exact mark_linked hunlinked _

def entityMembers (context : Context) (table : List Entity) (entity : Linkable)
    (members : LinkMembers) : LinkMembers :=
  match entity.info with
  | none => members
  | some info =>
    if entityIsLinkable entity then
      linkedMembers context table (references info [] 0 entity.attributes) members
    else members

lemma linkedMembers_idem (context : Context) (table : List Entity) (refs : List Reference)
    (members : LinkMembers) : linkedMembers context table refs
      (linkedMembers context table refs members) = linkedMembers context table refs members := by
  funext place
  simp only [linkedMembers]
  cases refs.reverse.find? (·.linksInto place) <;> rfl

lemma entityMembers_idem (context : Context) (table : List Entity) (entity : Linkable)
    (members : LinkMembers) : entityMembers context table entity
      (entityMembers context table entity members) = entityMembers context table entity members := by
  cases hinfo : entity.info with
  | none => simp only [entityMembers, hinfo]
  | some info =>
    by_cases hl : entityIsLinkable entity = true
    · simp only [entityMembers, hinfo, hl, if_true, linkedMembers_idem]
    · simp only [entityMembers, hinfo, hl, Bool.false_eq_true, if_false]

structure LinkedSome (context : Context) (table : List Entity) (entities : ℕ → Linkable)
    (start : LinkState) (done : ℕ → Prop) (state : LinkState) : Prop where
  members : ∀ i, done i →
    state.members i = entityMembers context table (entities i) (start.members i)
  others : ∀ i, ¬ done i → state.members i = start.members i
  marked : ∀ i, state.linked i = true → done i

variable {entities : ℕ → Linkable} {start : LinkState} {done : ℕ → Prop} {state : LinkState}

lemma LinkedSome.final (h : LinkedSome context registry.table entities start done state) (j : ℕ) :
    entityMembers context registry.table (entities j) (state.members j) =
      entityMembers context registry.table (entities j) (start.members j) := by
  by_cases hd : done j
  · rw [h.members j hd, entityMembers_idem]
  · rw [h.others j hd]

lemma linkedSome_fresh (context : Context) (table : List Entity) (entities : ℕ → Linkable)
    (h : ∀ i, start.linked i = false) :
    LinkedSome context table entities start (fun _ => False) start where
  members _ hi := hi.elim
  others _ _ := rfl
  marked i hi := by simp [h i] at hi

lemma LinkedSome.set (h : LinkedSome context registry.table entities start done state) {j : ℕ}
    {next : LinkState}
    (hj : next.members j = entityMembers context registry.table (entities j) (state.members j))
    (hother : ∀ i, i ≠ j → next.members i = state.members i)
    (hmarked : ∀ i, i ≠ j → next.linked i = true → state.linked i = true) :
    LinkedSome context registry.table entities start (fun i => done i ∨ i = j) next where
  members i hi := by
    by_cases hij : i = j
    · rw [hij, hj, h.final]
    · rw [hother i hij, h.members i (hi.resolve_right hij)]
  others i hi := by
    obtain ⟨hd, hij⟩ := not_or.mp hi
    rw [hother i hij, h.others i hd]
  marked i hi := by
    by_cases hij : i = j
    · exact .inr hij
    · exact .inl (h.marked i (hmarked i hij hi))

lemma LinkedSome.step (hr : registry.Valid)
    (h : LinkedSome context registry.table entities start done state) (success : Bool) (j : ℕ) :
    LinkedSome context registry.table entities start (fun i => done i ∨ i = j)
      (registryLinkEntity context registry entities (success, state) j).2 := by
  rw [registryLinkEntity]
  cases hinfo : (entities j).info with
  | none =>
    simp only [Option.isNone_none, Bool.or_true, if_true]
    exact h.set (by rw [entityMembers, hinfo]) (fun _ _ => rfl) fun _ _ hi => hi
  | some info =>
    by_cases hl : entityIsLinkable (entities j) = true
    swap
    · simp only [hl, Bool.not_false, Bool.true_or, if_true]
      exact h.set (by simp only [entityMembers, hinfo, hl, Bool.false_eq_true, if_false])
        (fun _ _ => rfl) fun _ _ hi => hi
    simp only [hl, Bool.not_true, Option.isNone_some, Bool.or_self, Bool.false_eq_true, if_false]
    cases hm : state.linked j with
    | true =>
      have hkept : entityMembers context registry.table (entities j) (state.members j) =
          state.members j := by
        rw [h.members j (h.marked j hm), entityMembers_idem]
      rw [entityLink]
      simp only [hl, hm, Bool.not_true, Bool.false_eq_true, if_false, if_true]
      exact h.set hkept.symm (fun _ _ => rfl) fun _ _ hi => hi
    | false =>
      have hlinks := entityLink_links context hr hinfo hl hm
      refine h.set ?_ (fun i hij => (hlinks.others i hij).1) fun i hij hi => ?_
      · rw [hlinks.members]
        simp only [entityMembers, hinfo, hl, if_true]
      · rwa [(hlinks.others i hij).2] at hi

lemma LinkedSome.run (hr : registry.Valid) (order : List ℕ) (success : Bool)
    (h : LinkedSome context registry.table entities start done state) :
    LinkedSome context registry.table entities start (fun i => done i ∨ i ∈ order)
      (order.foldl (registryLinkEntity context registry entities) (success, state)).2 := by
  induction order generalizing success state done with
  | nil => simpa using h
  | cons j order ih =>
    have hnext := ih (registryLinkEntity context registry entities (success, state) j).1
      (h.step hr success j)
    rw [List.foldl_cons]
    simpa only [List.mem_cons, or_assoc] using hnext

def registryLinkAgain (context : Context) (registry : Registry) (entities : ℕ → Linkable)
    (start : LinkState) : ℕ → Bool × LinkState
  | 0 => (false, start)
  | n + 1 =>
    let last := registryLinkAgain context registry entities start n
    (registryLink context registry entities last.1 last.2).2

lemma registryLink_eq (h : registry.Valid) (state : LinkState) :
    (registryLink context registry entities false state).2.2 =
      ((List.range registry.allocated).foldl (registryLinkEntity context registry entities)
        (true, state)).2 := by
  rw [registryLink, registryNumbers_range h]
  simp only [Bool.false_eq_true, if_false]
  split_ifs <;> rfl

lemma registryLinkAgain_linked (hr : registry.Valid) (hfresh : ∀ i, start.linked i = false) (n : ℕ) :
    LinkedSome context registry.table entities start (fun i => i < registry.allocated)
      (registryLinkAgain context registry entities start (n + 1)).2 := by
  induction n with
  | zero =>
    have hrun := (linkedSome_fresh context registry.table entities hfresh).run hr
      (List.range registry.allocated) true
    rw [registryLinkAgain, registryLinkAgain, registryLink_eq hr]
    simpa only [false_or, List.mem_range] using hrun
  | succ n ih =>
    rw [registryLinkAgain]
    cases hstatus : (registryLinkAgain context registry entities start (n + 1)).1 with
    | true =>
      rw [registryLink]
      exact ih
    | false =>
      have hrun := ih.run hr (List.range registry.allocated) true
      simp only [registryLink_eq hr]
      simpa only [List.mem_range, or_self] using hrun

/-- Every reference of a decoded structure is linked, whatever becomes of the others, and neither
the order of linking nor its repetition changes what any of them is linked to. -/
theorem registry_links_references (context : Context) (capacity : ℕ) (structures : List Entity)
    (entities : ℕ → Linkable) :
    let registry := (registryPutAll (registryCreate capacity) structures).2
    (∀ i info state, (entities i).info = some info → entityIsLinkable (entities i) = true →
      state.linked i = false → LinksReferences context registry.table (entities i) info i state
        (entityLink context registry (entities i) i state)) ∧
    ∀ start : LinkState, (∀ i, start.linked i = false) →
      (∀ (order : List ℕ) i, (order.foldl (registryLinkEntity context registry entities)
          (true, start)).2.members i =
        if i ∈ order then entityMembers context registry.table (entities i) (start.members i)
        else start.members i) ∧
      ∀ n i, (registryLinkAgain context registry entities start (n + 1)).2.members i =
        if i < registry.table.length then
          entityMembers context registry.table (entities i) (start.members i)
        else start.members i := by
  intro registry
  have hr : registry.Valid := (registryPutAll_valid (registryCreate_valid capacity) structures).1
  refine ⟨fun i info state hinfo hl hn => entityLink_links context hr hinfo hl hn,
    fun start hfresh => ⟨fun order i => ?_, fun n i => ?_⟩⟩
  · have hrun := (linkedSome_fresh context registry.table entities hfresh).run hr order true
    simp only [false_or] at hrun
    split_ifs with hi
    · exact hrun.members i hi
    · exact hrun.others i hi
  · have hlinked : LinkedSome context registry.table entities start (fun i => i < registry.allocated)
        (registryLinkAgain context registry entities start (n + 1)).2 :=
      registryLinkAgain_linked hr hfresh n
    rw [Registry.table, List.length_map, List.length_range]
    split_ifs with hi
    · exact hlinked.members i hi
    · exact hlinked.others i hi

def sampleStructures (handle : ℕ) : List Entity :=
  [{ (default : Entity) with handle := 1 }, { (default : Entity) with handle := handle, offset := 6 }]

def sampleRegistry (handle : ℕ) : Registry :=
  (registryPutAll (registryCreate 0) (sampleStructures handle)).2

def sampleContext : Context := ⟨false, fun _ => ⟨none, []⟩, fun _ => ⟨0, 0, 0, none⟩⟩

def sampleReferrer (handle : ℕ) : Linkable :=
  ⟨some (Memory.zero.setNumber 0 (UInt64.ofNat handle)),
    [⟨⟨0, 2⟩, .handle, .null, 0, none, none, false, false, none, ⟨8, 8⟩, 0, false, [], []⟩], none⟩

def unlinked : LinkState := ⟨fun _ _ => .one none, fun _ => false⟩

theorem registry_links_sample :
    (entityLink sampleContext (sampleRegistry 2) (sampleReferrer 2) 0 unlinked).2.members 0 ⟨[], 8⟩ =
      .one (some 1) := by
  have hlinks := (registry_links_references sampleContext 0 (sampleStructures 2)
    fun _ => sampleReferrer 2).1 0 _ unlinked rfl rfl rfl
  exact (congrFun hlinks.members ⟨[], 8⟩).trans (by decide)

theorem unlinkable_not_linked :
    references Memory.zero [] 0 [] = [] ∧
      entityLink sampleContext (sampleRegistry 2) ⟨some Memory.zero, [], none⟩ 0 unlinked =
        (false, unlinked) ∧
      (sampleRegistry 0xFFFF).table.findIdx? (fun entity => entity.handle == 0xFFFF) = some 1 ∧
      (entityLink sampleContext (sampleRegistry 0xFFFF) (sampleReferrer 0xFFFF) 0
        unlinked).2.members 0 ⟨[], 8⟩ = .one none :=
  ⟨rfl, rfl, by decide, by decide⟩

end OpenDmi

import OpenDmi.Lint
import OpenDmi.Linkability

/-! The rules of the references, next to the linker which resolves them. -/

namespace OpenDmi

def lintLinkIsSet (handle : ℕ) : Bool := handle != handleInvalid && handle != handleUnsupported

variable (lint : Lint) (code : Attribute → String) (entity : Entity)

def lintLinkCheckType (attr : Attribute) (handle : ℕ) : List LintIssue :=
  if !lintLinkIsSet handle then []
  else match attr.targets with
  | none => []
  | some types => match registryLookup lint.context lint.registry handle none with
    | none => []
    | some target =>
      if types.any fun type => entityType lint.context target == some type then []
      else [lintIssue "link.wrong-type" (some entity) (some (code attr))
        (lintEntityOffset lint.table entity)
        "handle 0x%04X refers to a structure of type %d (%s)"
        [.number handle, .number target.typeId, .name target]]

def lintLinkCheckDangling (attr : Attribute) (handle : ℕ) : List LintIssue :=
  if !lintLinkIsSet handle then []
  else match registryLookup lint.context lint.registry handle none with
  | none => [lintIssue "link.dangling" (some entity) (some (code attr))
      (lintEntityOffset lint.table entity) "handle 0x%04X belongs to no structure of the table"
      [.number handle]]
  | some _ => []

def lintLinkVisit (check : Attribute → ℕ → List LintIssue) (attr : Attribute) (offset : ℕ)
    (walk : List LintIssue × Memory) : Option (List LintIssue × Memory) :=
  if attr.type = .handle then some (walk.1 ++ check attr (handleAt walk.2 offset), walk.2)
  else some walk

def lintLinkWalk (check : Attribute → ℕ → List LintIssue) (decoded : Linkable) :
    List LintIssue :=
  match decoded.info with
  | none => []
  | some info =>
    match attributesWalk (lintLinkVisit check) 0 decoded.attributes ([], info) with
    | none => []
    | some walk => walk.1

def lintLinkDangling (decoded : Linkable) : List LintIssue :=
  lintLinkWalk (lintLinkCheckDangling lint code entity) decoded

def lintLinkWrongType (decoded : Linkable) : List LintIssue :=
  lintLinkWalk (lintLinkCheckType lint code entity) decoded

variable {lint code entity} {check : Attribute → ℕ → List LintIssue} {attr : Attribute}

lemma walkElements_from {step : ℕ → List LintIssue × Memory → Option (List LintIssue × Memory)}
    {reported : ℕ → List LintIssue} {info : Memory} {count i : ℕ}
    (hstep : ∀ j < count, ∀ issues,
      step (i + j) (issues, info) = some (issues ++ reported (i + j), info))
    (issues : List LintIssue) :
    walkElements step count i (issues, info) =
      some (issues ++ (List.range count).flatMap fun j => reported (i + j), info) := by
  induction count generalizing i issues with
  | zero => simp [walkElements]
  | succ count ih =>
    have hfirst : step i (issues, info) = some (issues ++ reported i, info) :=
      hstep 0 (Nat.zero_lt_succ count) issues
    have hnext : ∀ j < count, ∀ issues,
        step (i + 1 + j) (issues, info) = some (issues ++ reported (i + 1 + j), info) := by
      intro j hj issues
      rw [Nat.add_assoc, Nat.add_comm 1 j]
      exact hstep (j + 1) (Nat.succ_lt_succ hj) issues
    rw [walkElements, hfirst, Option.bind_some, ih hnext, List.range_succ_eq_map,
      List.flatMap_cons, List.flatMap_map, List.append_assoc]
    simp only [Nat.add_zero, Nat.add_assoc, Nat.add_comm 1]

lemma walkElements_issues {step : ℕ → List LintIssue × Memory → Option (List LintIssue × Memory)}
    {reported : ℕ → List LintIssue} {info : Memory} {count : ℕ}
    (hstep : ∀ j < count, ∀ issues, step j (issues, info) = some (issues ++ reported j, info))
    (issues : List LintIssue) :
    walkElements step count 0 (issues, info) =
      some (issues ++ (List.range count).flatMap reported, info) := by
  have hall := walkElements_from (i := 0) (by simpa only [Nat.zero_add] using hstep) issues
  simpa only [Nat.zero_add] using hall

def Reference.reports (check : Attribute → ℕ → List LintIssue) (reference : Reference) :
    List LintIssue :=
  reference.handles.flatMap (check reference.attr)

def HandleSized (refs : List Reference) : Prop :=
  ∀ reference ∈ refs, reference.attr.value.size = handleSize

def WalkReports (check : Attribute → ℕ → List LintIssue) (attrs : List Attribute) : Prop :=
  ∀ info block base issues, HandleSized (references info block base attrs) →
    attributesWalk (lintLinkVisit check) base attrs (issues, info) =
      some (issues ++ (references info block base attrs).flatMap (Reference.reports check), info)

lemma setPointer_self {info : Memory} {offset : ℕ} {p : Pointer} (h : info.pointer offset = p) :
    info.setPointer offset p = info := by
  rw [Memory.setPointer, ← h, Function.update_eq_self]

lemma attributeWalk_handle (ht : attr.type = .handle) (hs : attr.value.size = handleSize)
    (info : Memory) (block : List ℕ) (base : ℕ) (issues : List LintIssue) :
    attributeWalk (lintLinkVisit check) base attr (issues, info) =
      some (issues ++ Reference.reports check ⟨attr, info, block, base⟩, info) := by
  cases attr with
  | mk value type counter count unspec unknown isPrivate isMac targets link selector isDefault attrs
      variants =>
    simp only at ht hs
    subst ht
    have hvisit : ∀ attr : Attribute, attr.type = .handle → ∀ info offset issues,
        lintLinkVisit check attr offset (issues, info) =
          some (issues ++ check attr (handleAt info offset), info) :=
      fun attr ht info offset issues => if_pos ht
    rw [attributeWalk, Reference.reports, Reference.handles]
    simp only [reduceCtorEq, if_false]
    by_cases harray : attributeIsArray ⟨value, .handle, counter, count, unspec, unknown, isPrivate,
      isMac, targets, link, selector, isDefault, attrs, variants⟩ = true
    · rw [if_pos harray, if_pos harray, attributeHandles]
      simp only
      by_cases hcount : count = 0
      · rw [if_neg (not_not.mpr hcount), if_neg (not_not.mpr hcount)]
        cases hp : info.pointer (base + value.offset) with
        | ref r => simp
        | elements number pointer =>
          simp only
          rw [walkElements_issues fun i _ issues => hvisit _ rfl _ _ issues]
          simp only [Option.map_some, setPointer_self hp, List.flatMap_map, hs]
      · rw [if_pos hcount, if_pos hcount,
          walkElements_issues fun i _ issues => hvisit _ rfl _ _ issues]
        simp only [List.flatMap_map, hs]
    · rw [if_neg harray, if_neg harray, lintLinkVisit, if_pos rfl]
      simp

lemma attributeWalk_struct (ht : attr.type = .struct) (hattrs : WalkReports check attr.attrs)
    (info : Memory) (block : List ℕ) (base : ℕ) (issues : List LintIssue)
    (hs : HandleSized (attributeReferences info block base attr)) :
    attributeWalk (lintLinkVisit check) base attr (issues, info) =
      some (issues ++ (attributeReferences info block base attr).flatMap
        (Reference.reports check), info) := by
  cases attr with
  | mk value type counter count unspec unknown isPrivate isMac targets link selector isDefault attrs
      variants =>
    simp only at ht hattrs
    subst ht
    rw [attributeReferences] at hs ⊢
    rw [attributeWalk]
    simp only [reduceCtorEq, if_false, ne_eq, not_true_eq_false, if_true] at hs ⊢
    by_cases harray : attributeIsArray ⟨value, .struct, counter, count, unspec, unknown, isPrivate,
      isMac, targets, link, selector, isDefault, attrs, variants⟩ = true
    · rw [if_pos harray] at hs ⊢
      rw [if_pos harray]
      by_cases hcount : count = 0
      · rw [if_neg (not_not.mpr hcount)] at hs ⊢
        rw [if_neg (not_not.mpr hcount)]
        cases hp : info.pointer (base + value.offset) with
        | ref r => simp
        | elements number pointer =>
          rw [hp] at hs
          simp only at hs ⊢
          have hitem : ∀ i < info.load base counter, ∀ issues,
              attributesWalk (lintLinkVisit check) (i * value.size) attrs
                  (issues, ⟨number, pointer⟩) =
                some (issues ++ (references ⟨number, pointer⟩ (block ++ [base + value.offset])
                  (i * value.size) attrs).flatMap (Reference.reports check),
                  ⟨number, pointer⟩) := by
            intro i hi issues
            refine hattrs _ _ _ _ fun reference hm => hs reference (List.mem_flatMap.mpr ⟨i, ?_, ?_⟩)
            · exact List.mem_range.mpr hi
            · exact hm
          rw [walkElements_issues hitem, Option.map_some, setPointer_self hp]
          rw [List.flatMap_assoc]
      · rw [if_pos hcount] at hs ⊢
        rw [if_pos hcount]
        have hitem : ∀ i < count, ∀ issues,
            attributesWalk (lintLinkVisit check) (base + value.offset + i * value.size) attrs
                (issues, info) =
              some (issues ++ (references info block (base + value.offset + i * value.size)
                attrs).flatMap (Reference.reports check), info) := by
          intro i hi issues
          refine hattrs _ _ _ _ fun reference hm => hs reference (List.mem_flatMap.mpr ⟨i, ?_, ?_⟩)
          · exact List.mem_range.mpr hi
          · exact hm
        rw [walkElements_issues hitem]
        rw [List.flatMap_assoc]
    · rw [if_neg harray] at hs ⊢
      rw [if_neg harray]
      exact hattrs _ _ _ _ hs

lemma attributeWalk_other (hh : attr.type ≠ .handle) (ht : attr.type ≠ .struct) (info : Memory)
    (base : ℕ) (issues : List LintIssue) :
    attributeWalk (lintLinkVisit check) base attr (issues, info) = some (issues, info) := by
  cases attr with
  | mk value type counter count unspec unknown isPrivate isMac targets link selector isDefault attrs
      variants =>
    simp only at hh ht
    have hvisit : ∀ attr : Attribute, attr.type ≠ .handle → ∀ info offset issues,
        lintLinkVisit check attr offset (issues, info) = some (issues ++ [], info) := by
      intro attr hh info offset issues
      rw [lintLinkVisit, if_neg hh, List.append_nil]
    rw [attributeWalk]
    simp only [if_neg ht]
    split_ifs
    · rw [walkElements_issues (fun i _ issues => hvisit _ hh _ _ issues)]
      simp
    · cases hp : info.pointer (base + value.offset) with
      | ref r => rfl
      | elements number pointer =>
        simp only
        rw [walkElements_issues (fun i _ issues => hvisit _ hh _ _ issues), Option.map_some,
          setPointer_self hp]
        simp
    · rw [hvisit _ hh, List.append_nil]

lemma attributeWalk_reports (hattrs : WalkReports check attr.attrs) (info : Memory)
    (block : List ℕ) (base : ℕ) (issues : List LintIssue)
    (hs : HandleSized (attributeReferences info block base attr)) :
    attributeWalk (lintLinkVisit check) base attr (issues, info) =
      some (issues ++ (attributeReferences info block base attr).flatMap
        (Reference.reports check), info) := by
  by_cases hh : attr.type = .handle
  · have hrefs : attributeReferences info block base attr = [⟨attr, info, block, base⟩] := by
      cases attr
      rw [attributeReferences, if_pos hh]
    rw [hrefs] at hs ⊢
    rw [attributeWalk_handle hh (hs _ List.mem_cons_self) info block, List.flatMap_singleton]
  by_cases ht : attr.type = .struct
  · exact attributeWalk_struct ht hattrs info block base issues hs
  · rw [attributeWalk_other hh ht, attributeReferences_other hh ht, List.flatMap_nil,
      List.append_nil]

mutual

theorem attributesWalk_reports : ∀ attrs : List Attribute, WalkReports check attrs
  | [], info, block, base, issues, _ => by
    rw [attributesWalk, references, List.flatMap_nil, List.append_nil]
  | attr :: rest, info, block, base, issues, hs => by
    rw [references] at hs ⊢
    have hrest := fun issues => attributesWalk_reports rest info block base issues
      fun reference hm => hs reference (List.mem_append_right _ hm)
    have hfirst := fun reference hm => hs reference (List.mem_append_left _ hm)
    rw [attributesWalk]
    by_cases hv : attr.type = .variant
    · rw [if_pos hv] at hfirst ⊢
      rw [if_pos hv]
      cases hr : attributeResolve (attributeReadInt attr.value
          (info.number (base + attr.value.offset))) attr.variants 0 none with
      | none =>
        simp only
        rw [hrest, List.nil_append]
      | some i =>
        rw [hr] at hfirst
        simp only
        rw [attributeWalkVariant_reports attr info block base i issues hfirst, Option.bind_some,
          hrest, List.flatMap_append, List.append_assoc]
    · rw [if_neg hv] at hfirst ⊢
      rw [if_neg hv, attributeWalk_reports' attr info block base issues hfirst, Option.bind_some,
        hrest, List.flatMap_append, List.append_assoc]

theorem attributeWalkVariant_reports : ∀ (attr : Attribute) (info : Memory) (block : List ℕ)
    (base i : ℕ) (issues : List LintIssue),
    HandleSized (referencesVariant info block base i attr) →
    attributeWalkVariant (lintLinkVisit check) base i attr (issues, info) =
      some (issues ++ (referencesVariant info block base i attr).flatMap
        (Reference.reports check), info)
  | ⟨_, _, _, _, _, _, _, _, _, _, _, _, _, variants⟩, info, block, base, i, issues, hs => by
    rw [attributeWalkVariant, referencesVariant]
    exact attributesWalkAt_reports variants info block base i issues hs

theorem attributesWalkAt_reports : ∀ (attrs : List Attribute) (info : Memory) (block : List ℕ)
    (base i : ℕ) (issues : List LintIssue), HandleSized (referencesAt info block base i attrs) →
    attributesWalkAt (lintLinkVisit check) base i attrs (issues, info) =
      some (issues ++ (referencesAt info block base i attrs).flatMap (Reference.reports check),
        info)
  | [], info, block, base, i, issues, _ => by
    cases i <;> simp [attributesWalkAt, referencesAt]
  | attr :: rest, info, block, base, 0, issues, hs => by
    rw [attributesWalkAt, referencesAt]
    exact attributeWalk_reports' attr info block base issues hs
  | attr :: rest, info, block, base, i + 1, issues, hs => by
    rw [attributesWalkAt, referencesAt]
    exact attributesWalkAt_reports rest info block base i issues hs

theorem attributeWalk_reports' : ∀ (attr : Attribute) (info : Memory) (block : List ℕ)
    (base : ℕ) (issues : List LintIssue),
    HandleSized (attributeReferences info block base attr) →
    attributeWalk (lintLinkVisit check) base attr (issues, info) =
      some (issues ++ (attributeReferences info block base attr).flatMap
        (Reference.reports check), info)
  | ⟨_, _, _, _, _, _, _, _, _, _, _, _, attrs, _⟩, info, block, base, issues, hs =>
    attributeWalk_reports (attributesWalk_reports attrs) info block base issues hs

end

lemma lintLinkWalk_eq (check : Attribute → ℕ → List LintIssue) {decoded : Linkable} {info : Memory}
    (hinfo : decoded.info = some info) (hs : HandleSized (references info [] 0 decoded.attributes)) :
    lintLinkWalk check decoded =
      (references info [] 0 decoded.attributes).flatMap (Reference.reports check) := by
  rw [lintLinkWalk, hinfo]
  simp only
  rw [attributesWalk_reports decoded.attributes info [] 0 [] hs]
  exact List.nil_append _

variable {handle : ℕ}

lemma lintLinkIsSet_iff : lintLinkIsSet handle = true ↔
    handle ≠ handleInvalid ∧ handle ≠ handleUnsupported := by
  simp [lintLinkIsSet]

lemma lookup_any (h : lint.registry.Valid) (hset : lintLinkIsSet handle = true) :
    registryLookup lint.context lint.registry handle none =
      lint.registry.table.find? fun entity => entity.handle == handle := by
  obtain ⟨hi, hu⟩ := lintLinkIsSet_iff.mp hset
  rw [registryLookup_eq h hi hu]
  cases lint.registry.table.find? fun entity => entity.handle == handle with
  | none => rfl
  | some entity => simp [Option.filter, typeAllowed]

lemma checkDangling_iff (h : lint.registry.Valid) :
    lintLinkCheckDangling lint code entity attr handle ≠ [] ↔ lintLinkIsSet handle = true ∧
      lint.registry.table.find? (fun entity => entity.handle == handle) = none := by
  rw [lintLinkCheckDangling]
  by_cases hset : lintLinkIsSet handle = true
  · rw [lookup_any h hset]
    cases lint.registry.table.find? fun entity => entity.handle == handle <;> simp [hset]
  · simp [hset]

lemma checkType_iff (h : lint.registry.Valid) {types : List ℕ} (ht : attr.targets = some types) :
    lintLinkCheckType lint code entity attr handle ≠ [] ↔ lintLinkIsSet handle = true ∧
      ∃ target, lint.registry.table.find? (fun entity => entity.handle == handle) = some target ∧
        typesAllowed lint.context (some types) target = false := by
  rw [lintLinkCheckType]
  by_cases hset : lintLinkIsSet handle = true
  · rw [lookup_any h hset, ht]
    cases lint.registry.table.find? fun entity => entity.handle == handle with
    | none => simp
    | some target =>
      have hsame : (types.any fun type => entityType lint.context target == some type) =
        typesAllowed lint.context (some types) target := rfl
      simp only [hsame, hset]
      cases hallowed : typesAllowed lint.context (some types) target <;> simp [hallowed]
  · simp [hset]

/-- Zero is no handle but the absence of one, outside the strict mode, where the structure which has
it is of another type. -/
def ZeroElsewhere (context : Context) (table : List Entity) (types : List ℕ) (handle : ℕ) : Prop :=
  handle = 0 ∧ context.strict = false ∧ types ≠ [] ∧
    ∃ entity, table.find? (fun entity => entity.handle == 0) = some entity ∧
      typesAllowed context (some types) entity = false

def LinkLintAgrees (lint : Lint) (code : Attribute → String) (entity : Entity) (attr : Attribute)
    (handle : ℕ) : Prop :=
  (lintLinkCheckDangling lint code entity attr handle ≠ [] ∨
      lintLinkCheckType lint code entity attr handle ≠ []) ↔
    (registryResolveAny lint.context lint.registry handle attr.targets).1 = false

lemma linkLintAgrees_iff (h : lint.registry.Valid) {types : List ℕ}
    (ht : attr.targets = some types) : LinkLintAgrees lint code entity attr handle ↔
      ¬ ZeroElsewhere lint.context lint.registry.table types handle := by
  rw [LinkLintAgrees, checkDangling_iff h, checkType_iff h ht, ← Bool.not_eq_true,
    (registryResolveAny_eq h attr.targets handle).1, HandleOk, ZeroElsewhere, ht, lintLinkIsSet_iff]
  by_cases hi : handle = handleInvalid
  · simp [hi, handleInvalid]
  by_cases hu : handle = handleUnsupported
  · simp [hu, handleUnsupported]
  by_cases hzero : handle = 0
  · subst hzero
    cases hf : lint.registry.table.find? (fun entity => entity.handle == 0) with
    | none => simp [handleInvalid, handleUnsupported]
    | some target =>
      cases hallowed : typesAllowed lint.context (some types) target with
      | true =>
        have hne : types ≠ [] := by
          rintro rfl
          cases hallowed
        simp [handleInvalid, handleUnsupported, hallowed, hne]
      | false =>
        cases hstrict : lint.context.strict <;>
          simp [handleInvalid, handleUnsupported, hallowed]
  · cases hf : lint.registry.table.find? (fun entity => entity.handle == handle) with
    | none => simp [hi, hu, hzero]
    | some target =>
      cases hallowed : typesAllowed lint.context (some types) target with
      | true =>
        have hne : types ≠ [] := by
          rintro rfl
          cases hallowed
        simp [hi, hu, hzero, hallowed, hne]
      | false => simp [hi, hu, hzero, hallowed]

theorem link_lint_agrees_iff (code : Attribute → String) (context : Context) (table : Buffer)
    (entityCount capacity : ℕ) (structures : List Entity) (entity : Entity) (decoded : Linkable)
    (info : Memory) (hinfo : decoded.info = some info)
    (hsized : HandleSized (references info [] 0 decoded.attributes)) :
    let registry := (registryPutAll (registryCreate capacity) structures).2
    let lint : Lint := ⟨context, table, entityCount, registry⟩
    (lintLinkDangling lint code entity decoded =
        (linkVisited info decoded.attributes).flatMap fun reference => reference.handles.flatMap
          (lintLinkCheckDangling lint code entity reference.attr)) ∧
      (lintLinkWrongType lint code entity decoded =
        (linkVisited info decoded.attributes).flatMap fun reference => reference.handles.flatMap
          (lintLinkCheckType lint code entity reference.attr)) ∧
      ∀ reference ∈ linkVisited info decoded.attributes, ∀ types,
        memberIsPresent reference.attr.link = true → reference.attr.targets = some types →
        ∀ handle ∈ reference.handles, (LinkLintAgrees lint code entity reference.attr handle ↔
          ¬ ZeroElsewhere context registry.table types handle) := by
  intro registry lint
  have h : lint.registry.Valid :=
    (registryPutAll_valid (registryCreate_valid capacity) structures).1
  rw [linkVisited_eq]
  refine ⟨lintLinkWalk_eq _ hinfo hsized, lintLinkWalk_eq _ hinfo hsized, ?_⟩
  intro reference _ types _ htypes handle _
  exact linkLintAgrees_iff h htypes

def typedHandle : Attribute :=
  ⟨⟨0, 2⟩, .handle, .null, 0, none, none, false, false, some [5], ⟨8, 8⟩, 0, false, [], []⟩

def typedReferrer (handle : ℕ) : Linkable :=
  ⟨some (Memory.zero.setNumber 0 (UInt64.ofNat handle)), [typedHandle], none⟩

lemma typedReferrer_sized (handle : ℕ) : HandleSized (references
    (Memory.zero.setNumber 0 (UInt64.ofNat handle)) [] 0 (typedReferrer handle).attributes) := by
  intro reference hm
  obtain rfl := List.mem_singleton.mp hm
  rfl

theorem link_lint_agrees_iff_typed :
    LinkLintAgrees ⟨sampleContext, ⟨0, []⟩, 0, sampleRegistry 2⟩ (fun _ => "handle") default
      typedHandle 1 := by
  have hagrees := (link_lint_agrees_iff (fun _ => "handle") sampleContext ⟨0, []⟩ 0 0
    (sampleStructures 2) default (typedReferrer 1) _ rfl (typedReferrer_sized 1)).2.2
    ⟨typedHandle, Memory.zero.setNumber 0 1, [], 0⟩ (List.mem_singleton.mpr rfl) [5] rfl rfl 1
    (List.mem_singleton.mpr (by decide))
  exact hagrees.mpr fun hzero => absurd hzero.1 (by decide)

def zeroStructures : List Entity :=
  [default, { (default : Entity) with handle := 1, offset := 6 }]

def zeroLint : Lint :=
  ⟨sampleContext, ⟨0, []⟩, 0, (registryPutAll (registryCreate 0) zeroStructures).2⟩

theorem zero_reported_as_wrong_type :
    (lintLinkWrongType zeroLint (fun _ => "handle") default (typedReferrer 0)).length = 1 ∧
      (registryResolveAny sampleContext zeroLint.registry 0 typedHandle.targets).1 = true ∧
      ¬ LinkLintAgrees zeroLint (fun _ => "handle") default typedHandle 0 := by
  have hresolved : (registryResolveAny sampleContext zeroLint.registry 0
      typedHandle.targets).1 = true := by decide
  have hreported : lintLinkCheckType zeroLint (fun _ => "handle") default typedHandle 0 ≠ [] := by
    decide
  refine ⟨by decide, hresolved, fun hagrees => ?_⟩
  have hfails : (registryResolveAny sampleContext zeroLint.registry 0 typedHandle.targets).1 =
      false := hagrees.mp (.inr hreported)
  rw [hresolved] at hfails
  cases hfails

end OpenDmi

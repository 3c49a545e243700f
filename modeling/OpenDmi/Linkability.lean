import OpenDmi.LinkRuns

/-! Which structures linking takes up: the ones declaring a link outside the variants, although the
walk reaches the handles of the variants too. -/

namespace OpenDmi

variable {context : Context} {registry : Registry} {attr : Attribute} {attrs : List Attribute}
  {info : Memory} {entity : Linkable}

def linkVisit (attr : Attribute) (node : AttributeNode) (seen : List Reference) :
    Bool × List Reference :=
  if attr.type ≠ .handle then (true, seen) else (false, seen ++ [⟨attr, node⟩])

def linkVisited (info : Memory) (attrs : List Attribute) : List Reference :=
  attributesWalkMembers linkVisit info [] 0 attrs []

lemma linkVisit_visits :
    VisitsHandles linkVisit fun seen reference => seen ++ [reference] :=
  ⟨fun _ _ _ h => if_neg (not_not.mpr h), fun _ _ _ h => if_pos h⟩

lemma linkVisited_eq (info : Memory) (attrs : List Attribute) :
    linkVisited info attrs = references info [] 0 attrs := by
  have happend (seen refs : List Reference) :
      refs.foldl (fun seen reference => seen ++ [reference]) seen = seen ++ refs := by
    induction refs generalizing seen with
    | nil => simp
    | cons reference refs ih => rw [List.foldl_cons, ih, List.append_assoc, List.singleton_append]
  rw [linkVisited, attributesWalkMembers_eq linkVisit_visits, happend, List.nil_append]

lemma attributesLink_visited (context : Context) (registry : Registry) (hinfo : entity.info = some info)
    (members : LinkMembers) : attributesLink context registry entity members =
      (linkVisited info entity.attributes).foldl (linkReference context registry)
        (true, members) := by
  have hv : VisitsHandles (attributesLinkMember context registry)
      (linkReference context registry) :=
    ⟨fun attr node state ht => by
      rw [attributesLinkMember, if_neg (not_not.mpr ht)]
      rfl, fun attr node state ht => if_pos ht⟩
  rw [attributesLink, hinfo, linkVisited_eq]
  exact attributesWalkMembers_eq hv entity.attributes info [] 0 (true, members)

/-- A handle of a list, or of a structure nested in it, which is not a variant. -/
inductive Declares : List Attribute → Attribute → Prop
  | handle {attrs : List Attribute} {attr : Attribute} : attr ∈ attrs → attr.type = .handle →
      Declares attrs attr
  | nested {attrs : List Attribute} {parent attr : Attribute} : parent ∈ attrs →
      parent.type = .struct → Declares parent.attrs attr → Declares attrs attr

lemma declares_cons {rest : List Attribute} {found : Attribute} :
    Declares (attr :: rest) found ↔ (attr.type = .handle ∧ found = attr) ∨
      (attr.type = .struct ∧ Declares attr.attrs found) ∨ Declares rest found := by
  constructor
  · intro h
    cases h with
    | handle hm ht =>
      rcases List.mem_cons.mp hm with rfl | hm
      · exact .inl ⟨ht, rfl⟩
      · exact .inr (.inr (.handle hm ht))
    | nested hm ht h =>
      rcases List.mem_cons.mp hm with rfl | hm
      · exact .inr (.inl ⟨ht, h⟩)
      · exact .inr (.inr (.nested hm ht h))
  · rintro (⟨ht, rfl⟩ | ⟨ht, h⟩ | h)
    · exact .handle List.mem_cons_self ht
    · exact .nested List.mem_cons_self ht h
    · cases h with
      | handle hm ht => exact .handle (List.mem_cons_of_mem _ hm) ht
      | nested hm ht h => exact .nested (List.mem_cons_of_mem _ hm) ht h

def DeclaresLink (attrs : List Attribute) : Prop :=
  ∃ attr, Declares attrs attr ∧ memberIsPresent attr.link = true

lemma declaresLink_cons {rest : List Attribute} : DeclaresLink (attr :: rest) ↔
    (attr.type = .handle ∧ memberIsPresent attr.link = true) ∨
      (attr.type = .struct ∧ DeclaresLink attr.attrs) ∨ DeclaresLink rest := by
  simp only [DeclaresLink, declares_cons]
  constructor
  · rintro ⟨found, ⟨ht, rfl⟩ | ⟨ht, h⟩ | h, hl⟩
    · exact .inl ⟨ht, hl⟩
    · exact .inr (.inl ⟨ht, found, h, hl⟩)
    · exact .inr (.inr ⟨found, h, hl⟩)
  · rintro (⟨ht, hl⟩ | ⟨ht, found, h, hl⟩ | ⟨found, h, hl⟩)
    · exact ⟨attr, .inl ⟨ht, rfl⟩, hl⟩
    · exact ⟨found, .inr (.inl ⟨ht, h⟩), hl⟩
    · exact ⟨found, .inr (.inr h), hl⟩

mutual

theorem attributesHaveLinks_iff : ∀ attrs : List Attribute,
    attributesHaveLinks attrs = true ↔ DeclaresLink attrs
  | [] => by
    constructor
    · intro h
      cases h
    · rintro ⟨attr, h, -⟩
      cases h with
      | handle hm _ => cases hm
      | nested hm _ _ => cases hm
  | attr :: rest => by
    rw [attributesHaveLinks, Bool.or_eq_true, attributeHasLinks_iff attr,
      attributesHaveLinks_iff rest, declaresLink_cons, or_assoc]

theorem attributeHasLinks_iff : ∀ attr : Attribute, attributeHasLinks attr = true ↔
    (attr.type = .handle ∧ memberIsPresent attr.link = true) ∨
      (attr.type = .struct ∧ DeclaresLink attr.attrs)
  | ⟨_, type, _, _, _, _, _, _, _, link, _, _, attrs, _⟩ => by
    rw [attributeHasLinks]
    by_cases hh : type = .handle
    · simp [hh]
    by_cases hs : type = .struct
    · simp [hs, attributesHaveLinks_iff attrs]
    · simp [hh, hs]

end

def structPlaces (attr : Attribute) (node : AttributeNode) : List AttributeNode :=
  let offset := node.base + attr.value.offset
  if attributeIsArray attr then
    if attr.count ≠ 0 then
      (List.range attr.count).map fun i => ⟨node.info, node.block, offset + i * attr.value.size⟩
    else match node.info.pointer offset with
      | .ref _ => []
      | .elements number pointer => (List.range (node.info.load node.base attr.counter)).map fun i =>
        ⟨⟨number, pointer⟩, node.block ++ [offset], i * attr.value.size⟩
  else [⟨node.info, node.block, offset⟩]

lemma attributeReferences_struct (h : attr.type = .struct) (info : Memory) (block : List ℕ)
    (base : ℕ) : attributeReferences info block base attr =
      (structPlaces attr ⟨info, block, base⟩).flatMap fun node =>
        references node.info node.block node.base attr.attrs := by
  cases attr with
  | mk value type counter count unspec unknown isPrivate isMac targets link selector isDefault attrs
      variants =>
    cases h
    rw [attributeReferences, structPlaces]
    simp only [reduceCtorEq, if_false, ne_eq, not_true_eq_false]
    by_cases harray : attributeIsArray ⟨value, .struct, counter, count, unspec, unknown, isPrivate,
      isMac, targets, link, selector, isDefault, attrs, variants⟩ = true
    · rw [if_pos harray, if_pos harray]
      by_cases hcount : count = 0
      · rw [if_neg (not_not.mpr hcount), if_neg (not_not.mpr hcount)]
        cases info.pointer (base + value.offset) with
        | ref r => rfl
        | elements number pointer => rw [List.flatMap_map]
      · rw [if_pos hcount, if_pos hcount, List.flatMap_map]
    · rw [if_neg harray, if_neg harray, List.flatMap_singleton]

lemma attributeReferences_other (hh : attr.type ≠ .handle) (hs : attr.type ≠ .struct) (info : Memory)
    (block : List ℕ) (base : ℕ) : attributeReferences info block base attr = [] := by
  cases attr with
  | mk value type counter count unspec unknown isPrivate isMac targets link selector isDefault attrs
      variants =>
    rw [attributeReferences, if_neg hh, if_pos hs]

mutual

def variantReferences (info : Memory) (block : List ℕ) (base : ℕ) :
    List Attribute → List Reference
  | [] => []
  | attr :: rest =>
    (if attr.type = .variant then
      match attributeResolve (attributeReadInt attr.value
          (info.number (base + attr.value.offset))) attr.variants 0 none with
      | none => []
      | some i => referencesVariant info block base i attr
    else attributeVariantReferences info block base attr) ++ variantReferences info block base rest

def attributeVariantReferences (info : Memory) (block : List ℕ) (base : ℕ) :
    Attribute → List Reference
  | ⟨value, type, counter, count, unspec, unknown, isPrivate, isMac, targets, link, selector,
      isDefault, attrs, variants⟩ =>
    if type ≠ .struct then []
    else (structPlaces ⟨value, type, counter, count, unspec, unknown, isPrivate, isMac, targets, link,
      selector, isDefault, attrs, variants⟩ ⟨info, block, base⟩).flatMap fun node =>
        variantReferences node.info node.block node.base attrs

end

mutual

theorem mem_references : ∀ (attrs : List Attribute) (info : Memory) (block : List ℕ) (base : ℕ)
    (reference : Reference), (reference ∈ variantReferences info block base attrs →
      reference ∈ references info block base attrs) ∧
    (reference ∈ references info block base attrs →
      reference ∈ variantReferences info block base attrs ∨ Declares attrs reference.attr)
  | [], info, block, base, reference => ⟨fun h => h, fun h => .inl h⟩
  | attr :: rest, info, block, base, reference => by
    obtain ⟨hin, hout⟩ := mem_references rest info block base reference
    rw [variantReferences, references, List.mem_append, List.mem_append, declares_cons]
    by_cases hv : attr.type = .variant
    · rw [if_pos hv, if_pos hv]
      exact ⟨Or.imp_right hin, fun h => h.elim (fun h => .inl (.inl h))
        fun h => (hout h).elim (fun h => .inl (.inr h)) fun h => .inr (.inr (.inr h))⟩
    · rw [if_neg hv, if_neg hv]
      obtain ⟨hin', hout'⟩ := mem_attributeReferences attr info block base reference
      exact ⟨Or.imp hin' hin, fun h => h.elim
        (fun h => (hout' h).elim (fun h => .inl (.inl h))
          fun h => h.elim (fun h => .inr (.inl h)) fun h => .inr (.inr (.inl h)))
        fun h => (hout h).elim (fun h => .inl (.inr h)) fun h => .inr (.inr (.inr h))⟩

theorem mem_attributeReferences : ∀ (attr : Attribute) (info : Memory) (block : List ℕ) (base : ℕ)
    (reference : Reference), (reference ∈ attributeVariantReferences info block base attr →
      reference ∈ attributeReferences info block base attr) ∧
    (reference ∈ attributeReferences info block base attr →
      reference ∈ attributeVariantReferences info block base attr ∨
        (attr.type = .handle ∧ reference.attr = attr) ∨
        (attr.type = .struct ∧ Declares attr.attrs reference.attr))
  | ⟨value, type, counter, count, unspec, unknown, isPrivate, isMac, targets, link, selector,
      isDefault, attrs, variants⟩, info, block, base, reference => by
    by_cases hs : type = .struct
    · have hattrs := fun node : AttributeNode =>
        mem_references attrs node.info node.block node.base reference
      rw [attributeReferences_struct hs, attributeVariantReferences, if_neg (not_not.mpr hs),
        List.mem_flatMap, List.mem_flatMap]
      refine ⟨fun ⟨node, hnode, h⟩ => ⟨node, hnode, (hattrs node).1 h⟩, fun ⟨node, hnode, h⟩ => ?_⟩
      rcases (hattrs node).2 h with h | h
      · exact .inl ⟨node, hnode, h⟩
      · exact .inr (.inr ⟨hs, h⟩)
    · rw [attributeVariantReferences, if_pos hs]
      refine ⟨fun h => (List.not_mem_nil h).elim, fun h => ?_⟩
      by_cases hh : type = .handle
      · rw [attributeReferences, if_pos hh, List.mem_singleton] at h
        exact .inr (.inl ⟨hh, congrArg Reference.attr h⟩)
      · rw [attributeReferences_other hh hs] at h
        cases h

end

def VisitsLink (entity : Linkable) (info : Memory) : Prop :=
  ∃ reference ∈ linkVisited info entity.attributes, memberIsPresent reference.attr.link = true

/-- Some handle which names a link member stands in no variant, or the variants have none, unless a
handler links the structure anyway. -/
def LinksKnown (entity : Linkable) (info : Memory) : Prop :=
  entity.link.isSome = true ∨ DeclaresLink entity.attributes ∨
    ∀ reference ∈ variantReferences info [] 0 entity.attributes,
      memberIsPresent reference.attr.link = false

lemma entityIsLinkable_iff (entity : Linkable) : entityIsLinkable entity = true ↔
    entity.link.isSome = true ∨ DeclaresLink entity.attributes := by
  rw [entityIsLinkable, Bool.or_eq_true, attributesHaveLinks_iff]

lemma linksKnown_iff : (VisitsLink entity info → entityIsLinkable entity = true) ↔
    LinksKnown entity info := by
  rw [entityIsLinkable_iff, LinksKnown, VisitsLink, linkVisited_eq]
  constructor
  · intro h
    by_cases hvisits : ∃ reference ∈ references info [] 0 entity.attributes,
        memberIsPresent reference.attr.link = true
    · exact (h hvisits).imp_right .inl
    · refine .inr (.inr fun reference hm => ?_)
      by_contra hp
      exact hvisits ⟨reference, (mem_references _ _ _ _ _).1 hm, by simpa using hp⟩
  · rintro (h | h | hnone) ⟨reference, hm, hp⟩
    · exact .inl h
    · exact .inr h
    · rcases (mem_references _ _ _ _ _).2 hm with hm | hd
      · rw [hnone reference hm] at hp
        cases hp
      · exact .inr ⟨reference.attr, hd, hp⟩

def LeftOut (context : Context) (registry : Registry) (entities : ℕ → Linkable) (i : ℕ)
    (state : LinkState) : Prop :=
  registryLinkEntity context registry entities (true, state) i = (true, state)

lemma leftOut_iff {entities : ℕ → Linkable} {i : ℕ} {state : LinkState}
    (hinfo : (entities i).info = some info) (hunlinked : state.linked i = false) :
    LeftOut context registry entities i state ↔ entityIsLinkable (entities i) = false := by
  rw [LeftOut, registryLinkEntity, hinfo]
  cases hl : entityIsLinkable (entities i) with
  | false => simp
  | true =>
    simp only [Bool.not_true, Option.isNone_some, Bool.or_self, Bool.false_eq_true, if_false,
      Bool.true_and, reduceCtorEq, iff_false]
    intro h
    have hlinked : (entityLink context registry (entities i) i state).2.linked i =
        (entityLink context registry (entities i) i state).1 := by
      rw [entityLink]
      simp only [hl, hunlinked, Bool.not_true, Bool.false_eq_true, if_false]
      exact mark_linked hunlinked _
    rw [congrArg (·.1) h, congrArg (·.2) h, hunlinked] at hlinked
    cases hlinked

/-- A structure the link walk finds a reference in is taken up, and not left out by linking the
registry, exactly when its references do not all stand in variants. -/
theorem linkable_iff_links_known (entity : Linkable) (info : Memory) (h : entity.info = some info) :
    ((VisitsLink entity info → entityIsLinkable entity = true) ↔ LinksKnown entity info) ∧
    ∀ (context : Context) (registry : Registry) (entities : ℕ → Linkable) (i : ℕ)
      (state : LinkState), entities i = entity → state.linked i = false →
      ((VisitsLink entity info → ¬ LeftOut context registry entities i state) ↔
        LinksKnown entity info) := by
  refine ⟨linksKnown_iff, fun context registry entities i state hi hunlinked => ?_⟩
  subst hi
  rw [leftOut_iff h hunlinked, Bool.not_eq_false]
  exact linksKnown_iff

theorem linkable_iff_links_known_sample :
    VisitsLink (sampleReferrer 2) (Memory.zero.setNumber 0 2) ∧
      ¬ LeftOut sampleContext (sampleRegistry 2) (fun _ => sampleReferrer 2) 0 unlinked := by
  have hvisits : VisitsLink (sampleReferrer 2) (Memory.zero.setNumber 0 2) :=
    ⟨_, List.mem_singleton.mpr rfl, rfl⟩
  exact ⟨hvisits, ((linkable_iff_links_known (sampleReferrer 2) _ rfl).2 sampleContext
    (sampleRegistry 2) _ 0 unlinked rfl rfl).mpr (.inr (.inl ⟨_, .handle List.mem_cons_self rfl, rfl⟩))
    hvisits⟩

def variantReferrer (handle : ℕ) : Linkable :=
  { sampleReferrer handle with
    attributes := [⟨⟨2, 1⟩, .variant, .null, 0, none, none, false, false, none, .null, 0, false, [],
      [⟨⟨0, 2⟩, .handle, .null, 0, none, none, false, false, none, ⟨8, 8⟩, 0, true, [], []⟩]⟩] }

theorem variant_left_out :
    ∃ info, (variantReferrer 2).info = some info ∧ VisitsLink (variantReferrer 2) info ∧
      entityIsLinkable (variantReferrer 2) = false ∧
      handleTarget sampleContext (sampleRegistry 2).table none 2 = some 1 ∧
      (registryLink sampleContext (sampleRegistry 2) (fun _ => variantReferrer 2) false
        unlinked).2.2.members 0 ⟨[], 8⟩ = .one none :=
  ⟨_, rfl, ⟨_, List.mem_singleton.mpr rfl, rfl⟩, rfl, by decide, by decide⟩

end OpenDmi

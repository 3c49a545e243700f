import OpenDmi.AttributeTree
import OpenDmi.Link

namespace OpenDmi

open AttributeVisitor

variable {σ : Type} (enter : WalkNode → σ → Bool × σ)

def memberVisitor : AttributeVisitor (StateM σ) where
  memberStart := some fun node s =>
    (if (enter node s).1 then .resume else .skip, (enter node s).2)
  memberEnd := none
  arrayStart := none
  arrayEnd := none
  itemStart := none
  itemEnd := none
  structStart := none
  structEnd := none
  value := none

mutual

def enterTree : ValueTree → σ → σ
  | .value _, s => s
  | .struct _ members, s => enterMembers members s
  | .array _ items, s => enterItems items s

def enterMembers : List (WalkNode × ValueTree) → σ → σ
  | [], s => s
  | (node, tree) :: rest, s =>
    enterMembers rest (if (enter node s).1 then enterTree tree (enter node s).2
      else (enter node s).2)

def enterItems : List (WalkNode × ValueTree) → σ → σ
  | [], s => s
  | (_, tree) :: rest, s => enterItems rest (enterTree tree s)

end

section Visitor

lemma andM_goes {first rest : StateM σ Bool} {s t : σ} (h : first s = (true, t)) :
    (first <&&> rest) s = rest t := by
  have hrun := Script.andM_run first rest s
  rw [StateT.run, StateT.run, StateT.run, h] at hrun
  exact hrun

lemma memberVisitor_enters (node : WalkNode) (body : StateM σ Bool) (s : σ) :
    enterThen (attributeEnter (memberVisitor enter).memberStart node) body s =
      if (enter node s).1 then body (enter node s).2 else (true, (enter node s).2) := by
  have hbind : enterThen (attributeEnter (memberVisitor enter).memberStart node) body s =
      enterThen (pure (if (enter node s).1 then .resume else .skip)) body (enter node s).2 := rfl
  rw [hbind]
  cases (enter node s).1 <;> rfl

mutual

lemma walkTree_enter : ∀ (tree : ValueTree) (s : σ),
    (memberVisitor enter).walkTree tree s = (true, enterTree enter tree s)
  | .value node, s => rfl
  | .struct node members, s => by
    rw [walkTree, enterTree]
    exact andM_goes (walkMembers_enter members s)
  | .array node items, s => by
    rw [walkTree, enterTree]
    exact andM_goes (walkItems_enter items s)

lemma walkMembers_enter : ∀ (members : List (WalkNode × ValueTree)) (s : σ),
    (memberVisitor enter).walkMembers members s = (true, enterMembers enter members s)
  | [], s => rfl
  | (node, tree) :: rest, s => by
    rw [walkMembers, enterMembers]
    refine (andM_goes ?_).trans (walkMembers_enter rest _)
    rw [memberVisitor_enters]
    split_ifs
    · exact andM_goes (walkTree_enter tree _)
    · rfl

lemma walkItems_enter : ∀ (items : List (WalkNode × ValueTree)) (s : σ),
    (memberVisitor enter).walkItems items s = (true, enterItems enter items s)
  | [], s => rfl
  | (node, tree) :: rest, s => by
    rw [walkItems, enterItems]
    refine (andM_goes ?_).trans (walkItems_enter rest _)
    exact andM_goes (walkTree_enter tree s)

end

end Visitor

section Link

variable (step : Attribute → Memory → ℕ → σ → Bool × σ)

/-- A visit of members which looks at the structure and not at where its block is known from. -/
def memberVisit (attr : Attribute) (node : AttributeNode) (s : σ) : Bool × σ :=
  step attr.plain node.info node.base s

def memberEnter (node : WalkNode) (s : σ) : Bool × σ :=
  step (node.attr.attribute [] []) node.info node.base s

def EntersMembers (attrs : List AttributeSpec) : Prop :=
  ∀ (info : Memory) (block : List ℕ) (base : ℕ) (s : σ),
    attributesWalkMembers (memberVisit step) info block base (attributesOf attrs) s =
      enterMembers (memberEnter step) (attributesTree attrs info base) s

variable {step} {desc : AttributeDesc} {attrs : List AttributeSpec}

lemma enterItems_map (node : ℕ → WalkNode) (tree : ℕ → ValueTree) (indices : List ℕ) (s : σ) :
    enterItems enter (indices.map fun i => (node i, tree i)) s =
      indices.foldl (fun s i => enterTree enter (tree i) s) s := by
  induction indices generalizing s with
  | nil => rfl
  | cons i indices ih => rw [List.map_cons, enterItems, List.foldl_cons, ih]

lemma enterMembers_append (members rest : List (WalkNode × ValueTree)) (s : σ) :
    enterMembers enter (members ++ rest) s =
      enterMembers enter rest (enterMembers enter members s) := by
  induction members generalizing s with
  | nil => rfl
  | cons member members ih =>
    obtain ⟨node, tree⟩ := member
    rw [List.cons_append, enterMembers, enterMembers, ih]

lemma enterValue (h : EntersMembers step attrs) {node : WalkNode} (hnode : node.attr = desc)
    (block : List ℕ) (s : σ) :
    (if desc.kind.type = .struct then
        attributesWalkMembers (memberVisit step) node.block block node.offset (attributesOf attrs) s
      else s) =
      enterTree (memberEnter step) (valueTree (attributesTree attrs) node) s := by
  rw [valueTree, hnode]
  by_cases hkind : desc.kind = .struct
  · rw [if_pos (kind_struct.mpr hkind), if_pos hkind, h, enterTree]
  · rw [if_neg (fun he => hkind (kind_struct.mp he)), if_neg hkind, enterTree]

lemma attributeWalkMembers_enter (h : EntersMembers step attrs) (variants : List Attribute)
    (member : AttributeDesc) (info : Memory) (block : List ℕ) (base : ℕ) (s : σ) :
    attributeWalkMembers (memberVisit step) info block base
        (desc.attribute (attributesOf attrs) variants) s =
      enterMembers (memberEnter step)
        [memberTree member desc (attributesTree attrs) info base] s := by
  have hattribute : desc.attribute (attributesOf attrs) variants =
      ⟨desc.value, desc.kind.type, desc.counter, desc.count, desc.params.unspec,
        desc.params.unknown, desc.params.flags.isPrivate, desc.params.flags.isMac,
        desc.params.targets, desc.params.link, desc.selector, desc.isDefault, attributesOf attrs,
        variants⟩ := rfl
  have hentered : memberVisit step (desc.attribute (attributesOf attrs) variants)
      ⟨info, block, base⟩ s = memberEnter step (memberNode member desc info base) s := rfl
  have hvalue := fun (node : WalkNode) (hnode : node.attr = desc) block s =>
    enterValue h hnode block s
  rw [hattribute, attributeWalkMembers, ← hattribute, memberTree, enterMembers, enterMembers]
  simp only [hentered]
  cases hgoes : (memberEnter step (memberNode member desc info base) s).1 with
  | false => rfl
  | true =>
    simp only [Bool.not_true, Bool.false_eq_true, if_false, if_true]
    generalize (memberEnter step (memberNode member desc info base) s).2 = s
    have harray : attributeIsArray (desc.attribute (attributesOf attrs) variants) = desc.isArray :=
      rfl
    rw [harray]
    by_cases hisArray : desc.isArray = true
    · rw [if_pos hisArray, if_pos hisArray, arrayTree, enterTree, enterItems_map]
      by_cases hcount : desc.count = 0
      · rw [if_neg (not_not.mpr hcount)]
        cases hp : info.pointer (base + desc.value.offset) with
        | ref r =>
          rw [array_none member hcount hp]
          rfl
        | elements number pointer =>
          obtain ⟨hnumber, hitem⟩ := array_elements member hcount hp
          rw [hnumber]
          refine List.foldl_ext _ _ s fun s i _ => ?_
          have hread := hvalue ((memberNode member desc info base).array.item i) rfl
            (block ++ [base + desc.value.offset]) s
          rwa [(hitem i).1, (hitem i).2] at hread
      · rw [if_pos hcount]
        obtain ⟨hnumber, hitem⟩ := array_inline member info base hcount
        rw [hnumber]
        refine List.foldl_ext _ _ s fun s i _ => ?_
        have hread := hvalue ((memberNode member desc info base).array.item i) rfl block s
        rwa [(hitem i).1, (hitem i).2] at hread
    · rw [if_neg hisArray, if_neg hisArray]
      exact hvalue (memberNode member desc info base) rfl block s

mutual

lemma attributesWalkMembers_enter : ∀ attrs : List AttributeSpec, EntersMembers step attrs
  | [], info, block, base, s => by
    rw [attributesOf, attributesWalkMembers, attributesTree, enterMembers]
  | ⟨desc, attrs, variants⟩ :: rest, info, block, base, s => by
    have hrest := fun s => attributesWalkMembers_enter rest info block base s
    have hattrs := attributesWalkMembers_enter attrs
    have htype : (desc.attribute (attributesOf attrs) (attributesOf variants)).type =
        desc.kind.type := rfl
    rw [attributesOf, AttributeSpec.attribute, attributesWalkMembers, attributesTree,
      enterMembers_append, htype]
    by_cases hkind : desc.kind = .variant
    · rw [if_pos (kind_variant.mpr hkind), if_pos hkind]
      have hresolve : attributeResolve (attributeReadInt
            (desc.attribute (attributesOf attrs) (attributesOf variants)).value
            (info.number (base + (desc.attribute (attributesOf attrs)
              (attributesOf variants)).value.offset)))
            (desc.attribute (attributesOf attrs) (attributesOf variants)).variants 0 none =
          variantFind (attributeSelector desc info base) variants 0 none :=
        variantFind_attributes _ _ _ _
      rw [hresolve]
      cases variantFind (attributeSelector desc info base) variants 0 none with
      | none => exact hrest s
      | some i =>
        have hat : attributeWalkMembersVariant (memberVisit step) info block base i
            (desc.attribute (attributesOf attrs) (attributesOf variants)) s =
            attributesWalkMembersAt (memberVisit step) info block base i (attributesOf variants) s :=
          rfl
        simp only [hat, variantWalkMembers_enter desc i variants info block base s, hrest]
    · rw [if_neg (fun he => hkind (kind_variant.mp he)), if_neg hkind,
        attributeWalkMembers_enter hattrs _ desc, hrest]

lemma variantWalkMembers_enter : ∀ (member : AttributeDesc) (i : ℕ) (variants : List AttributeSpec)
    (info : Memory) (block : List ℕ) (base : ℕ) (s : σ),
    attributesWalkMembersAt (memberVisit step) info block base i (attributesOf variants) s =
      enterMembers (memberEnter step) (variantTree member i variants info base) s
  | _, i, [], info, block, base, s => by
    cases i <;> rw [attributesOf, attributesWalkMembersAt, variantTree, enterMembers]
  | member, 0, ⟨desc, attrs, variants⟩ :: rest, info, block, base, s => by
    rw [attributesOf, AttributeSpec.attribute, attributesWalkMembersAt, variantTree,
      attributeWalkMembers_enter (attributesWalkMembers_enter attrs) _ member]
  | member, i + 1, _ :: rest, info, block, base, s => by
    rw [attributesOf, attributesWalkMembersAt, variantTree]
    exact variantWalkMembers_enter member i rest info block base s

end

end Link

/-- Whatever the callbacks do, stop or skip, a walk goes along the tree of the values. One which
only reads the plain values comes to its leaves in their order, as does the walk of a visit which
writes nothing; and the walk of linking is the one which enters members only. -/
theorem attributes_walk_tree {γ σ : Type} (visitor : AttributeVisitor (StateM γ))
    (value : WalkNode → StateM γ Bool) (read : Attribute → Memory → ℕ → σ → Option σ)
    (enter : Attribute → Memory → ℕ → σ → Bool × σ) (attrs : List AttributeSpec) (info : Memory)
    (block : List ℕ) (base : ℕ) (s : σ) :
    let tree := attributesTree attrs info base
    visitor.attributesWalk attrs info base = visitor.walkMembers tree ∧
      (valueVisitor value).attributesWalk attrs info base = (leavesOf tree).allM value ∧
      attributesWalk (readVisit read) base (attributesOf attrs) (s, info) =
        ((leavesOf tree).foldlM (readLeaf read) s).map (fun s => (s, info)) ∧
      (memberVisitor (memberEnter enter)).attributesWalk attrs info base s =
        (true, attributesWalkMembers (memberVisit enter) info block base (attributesOf attrs) s) := by
  intro tree
  refine ⟨attributesWalk_tree visitor attrs info base, ?_,
    attributesWalk_leaves read attrs info base s, ?_⟩
  · rw [attributesWalk_tree, walkMembers_values]
  · rw [attributesWalk_tree, walkMembers_enter, attributesWalkMembers_enter attrs]

end OpenDmi

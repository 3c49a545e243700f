import OpenDmi.AttributeVisit

/-! The values of a structure as a tree, which every walk over them goes along. -/

universe u

namespace OpenDmi

open AttributeVisitor

/-- What a structure holds where its attributes say: each member and each element of an array
has a place of its own. -/
inductive ValueTree
  | value (node : WalkNode)
  | struct (node : WalkNode) (members : List (WalkNode × ValueTree))
  | array (node : WalkNode) (items : List (WalkNode × ValueTree))

def valueTree (inner : Memory → ℕ → List (WalkNode × ValueTree)) (node : WalkNode) :
    ValueTree :=
  if node.attr.kind = .struct then .struct node (inner node.block node.offset) else .value node

def arrayTree (inner : Memory → ℕ → List (WalkNode × ValueTree)) (node : WalkNode) :
    ValueTree :=
  .array node.array ((List.range node.array.count).map fun i =>
    (node.array.item i, valueTree inner (node.array.item i)))

def memberTree (member attr : AttributeDesc) (inner : Memory → ℕ → List (WalkNode × ValueTree))
    (info : Memory) (base : ℕ) : WalkNode × ValueTree :=
  let node := memberNode member attr info base
  (node, if attr.isArray then arrayTree inner node else valueTree inner node)

mutual

def attributesTree : List AttributeSpec → Memory → ℕ → List (WalkNode × ValueTree)
  | [], _, _ => []
  | ⟨desc, attrs, variants⟩ :: rest, info, base =>
    (if desc.kind = .variant then
      match variantFind (attributeSelector desc info base) variants 0 none with
      | none => []
      | some i => variantTree desc i variants info base
    else [memberTree desc desc (attributesTree attrs) info base]) ++ attributesTree rest info base

def variantTree (member : AttributeDesc) :
    ℕ → List AttributeSpec → Memory → ℕ → List (WalkNode × ValueTree)
  | _, [], _, _ => []
  | 0, ⟨desc, attrs, _⟩ :: _, info, base => [memberTree member desc (attributesTree attrs) info base]
  | i + 1, _ :: rest, info, base => variantTree member i rest info base

end

section Walk

variable {m : Type → Type u} [Monad m]

namespace AttributeVisitor

variable (visitor : AttributeVisitor m)

mutual

def walkTree : ValueTree → m Bool
  | .value node => attributeLeave visitor.value node
  | .struct node members =>
    enterThen (attributeEnter visitor.structStart node)
      (walkMembers members <&&> attributeLeave visitor.structEnd node)
  | .array node items =>
    enterThen (attributeEnter visitor.arrayStart node)
      (walkItems items <&&> attributeLeave visitor.arrayEnd node)

def walkMembers : List (WalkNode × ValueTree) → m Bool
  | [] => pure true
  | (node, tree) :: rest =>
    enterThen (attributeEnter visitor.memberStart node)
      (walkTree tree <&&> attributeLeave visitor.memberEnd node) <&&> walkMembers rest

def walkItems : List (WalkNode × ValueTree) → m Bool
  | [] => pure true
  | (node, tree) :: rest =>
    enterThen (attributeEnter visitor.itemStart node)
      (walkTree tree <&&> attributeLeave visitor.itemEnd node) <&&> walkItems rest

end

variable [LawfulMonad m] {inner : Memory → ℕ → m Bool}
  {innerTree : Memory → ℕ → List (WalkNode × ValueTree)}

lemma walkMembers_append (members rest : List (WalkNode × ValueTree)) :
    visitor.walkMembers (members ++ rest) =
      (visitor.walkMembers members <&&> visitor.walkMembers rest) := by
  induction members with
  | nil => exact (Script.true_andM _).symm
  | cons member members ih =>
    obtain ⟨node, tree⟩ := member
    rw [List.cons_append, walkMembers, walkMembers, ih, Script.andM_assoc]

omit [LawfulMonad m] in
lemma walkItems_map (node : ℕ → WalkNode) (tree : ℕ → ValueTree) (indices : List ℕ) :
    visitor.walkItems (indices.map fun i => (node i, tree i)) =
      indices.allM fun i => enterThen (attributeEnter visitor.itemStart (node i))
        (visitor.walkTree (tree i) <&&> attributeLeave visitor.itemEnd (node i)) := by
  induction indices with
  | nil => rfl
  | cons i indices ih => rw [List.map_cons, walkItems, ih, Script.allM_cons]

section Inner

variable (h : ∀ info base, inner info base = visitor.walkMembers (innerTree info base))

omit [LawfulMonad m]

include h

lemma valueWalk_tree (node : WalkNode) :
    visitor.valueWalk inner node = visitor.walkTree (valueTree innerTree node) := by
  rw [valueWalk, valueTree]
  split_ifs
  · rw [structWalk, h, walkTree]
  · rw [walkTree]

lemma arrayWalk_tree (node : WalkNode) :
    visitor.arrayWalk inner node = visitor.walkTree (arrayTree innerTree node) := by
  rw [arrayWalk, arrayTree, walkTree, walkItems_map]
  simp only [visitor.valueWalk_tree h]

lemma memberWalk_tree (member attr : AttributeDesc) (info : Memory) (base : ℕ) :
    visitor.memberWalk member attr inner info base =
      enterThen (attributeEnter visitor.memberStart (memberTree member attr innerTree info base).1)
        (visitor.walkTree (memberTree member attr innerTree info base).2 <&&>
          attributeLeave visitor.memberEnd (memberTree member attr innerTree info base).1) := by
  rw [memberWalk, memberTree]
  split_ifs
  · rw [visitor.arrayWalk_tree h]
  · rw [visitor.valueWalk_tree h]

end Inner

lemma walkMembers_single (member : WalkNode × ValueTree) :
    visitor.walkMembers [member] =
      enterThen (attributeEnter visitor.memberStart member.1)
        (visitor.walkTree member.2 <&&> attributeLeave visitor.memberEnd member.1) := by
  obtain ⟨node, tree⟩ := member
  rw [walkMembers, walkMembers, Script.andM_true]

mutual

lemma attributesWalk_tree : ∀ (attrs : List AttributeSpec) (info : Memory) (base : ℕ),
    visitor.attributesWalk attrs info base = visitor.walkMembers (attributesTree attrs info base)
  | [], _, _ => by rw [attributesWalk, attributesTree, walkMembers]
  | ⟨desc, attrs, variants⟩ :: rest, info, base => by
    rw [attributesWalk, attributesTree, walkMembers_append, attributesWalk_tree rest info base]
    congr 1
    split_ifs
    · cases variantFind (attributeSelector desc info base) variants 0 none with
      | none => rfl
      | some i => exact variantWalk_tree desc i variants info base
    · rw [walkMembers_single, visitor.memberWalk_tree (attributesWalk_tree attrs)]

lemma variantWalk_tree : ∀ (member : AttributeDesc) (i : ℕ) (variants : List AttributeSpec)
    (info : Memory) (base : ℕ),
    visitor.variantWalk member i variants info base =
      visitor.walkMembers (variantTree member i variants info base)
  | _, _, [], _, _ => by rw [variantWalk, variantTree, walkMembers]
  | member, 0, ⟨desc, attrs, _⟩ :: _, info, base => by
    rw [variantWalk, variantTree, walkMembers_single,
      visitor.memberWalk_tree (attributesWalk_tree attrs)]
  | member, i + 1, _ :: rest, info, base => by
    rw [variantWalk, variantTree]
    exact variantWalk_tree member i rest info base

end

end AttributeVisitor

end Walk

section Leaves

mutual

def ValueTree.leaves : ValueTree → List WalkNode
  | .value node => [node]
  | .struct _ members => leavesOf members
  | .array _ items => leavesOf items

def leavesOf : List (WalkNode × ValueTree) → List WalkNode
  | [] => []
  | (_, tree) :: rest => tree.leaves ++ leavesOf rest

end

lemma leavesOf_append (members rest : List (WalkNode × ValueTree)) :
    leavesOf (members ++ rest) = leavesOf members ++ leavesOf rest := by
  induction members with
  | nil => rfl
  | cons member members ih =>
    obtain ⟨node, tree⟩ := member
    rw [List.cons_append, leavesOf, leavesOf, ih, List.append_assoc]

lemma leavesOf_map (node : ℕ → WalkNode) (tree : ℕ → ValueTree) (indices : List ℕ) :
    leavesOf (indices.map fun i => (node i, tree i)) = indices.flatMap fun i => (tree i).leaves := by
  induction indices with
  | nil => rfl
  | cons i indices ih => rw [List.map_cons, leavesOf, ih, List.flatMap_cons]

lemma leavesOf_single (member : WalkNode × ValueTree) :
    leavesOf [member] = member.2.leaves := by
  obtain ⟨node, tree⟩ := member
  rw [leavesOf, leavesOf, List.append_nil]

variable {σ : Type} (step : Attribute → Memory → ℕ → σ → Option σ)

def Attribute.plain (attr : Attribute) : Attribute := { attr with attrs := [], variants := [] }

def readVisit (attr : Attribute) (offset : ℕ) (state : σ × Memory) : Option (σ × Memory) :=
  (step attr.plain state.2 offset state.1).map fun s => (s, state.2)

def readLeaf (s : σ) (node : WalkNode) : Option σ :=
  step (node.attr.attribute [] []) node.block node.offset s

lemma variantFind_attributes (selector : ℤ) (variants : List AttributeSpec) (i : ℕ)
    (fallback : Option ℕ) :
    attributeResolve selector (attributesOf variants) i fallback =
      variantFind selector variants i fallback := by
  induction variants generalizing i fallback with
  | nil => rfl
  | cons variant variants ih =>
    obtain ⟨desc, attrs, inner⟩ := variant
    rw [attributesOf, attributeResolve, variantFind, ih, ih]
    rfl

lemma walkElements_read {info : Memory} {count : ℕ} {visit : ℕ → σ × Memory → Option (σ × Memory)}
    {leaves : ℕ → List WalkNode}
    (h : ∀ i s, visit i (s, info) = ((leaves i).foldlM (readLeaf step) s).map fun s => (s, info))
    (i : ℕ) (s : σ) :
    walkElements visit count i (s, info) =
      (((List.range' i count).flatMap leaves).foldlM (readLeaf step) s).map
        fun s => (s, info) := by
  induction count generalizing i s with
  | zero => rfl
  | succ count ih =>
    rw [walkElements, h, List.range'_succ, List.flatMap_cons, List.foldlM_append]
    cases (leaves i).foldlM (readLeaf step) s with
    | none => rfl
    | some s => exact ih (i + 1) s

lemma array_none (member : AttributeDesc) {desc : AttributeDesc} {info : Memory} {base : ℕ} {r : Ref}
    (h : desc.count = 0) (hp : info.pointer (base + desc.value.offset) = .ref r) :
    (memberNode member desc info base).array.count = 0 := by
  have helements : attributeElements (memberNode member desc info base) = none := by
    simp only [attributeElements, memberNode, h, hp, ne_eq, not_true_eq_false, if_false]
  rw [WalkNode.array, helements]

lemma array_elements (member : AttributeDesc) {desc : AttributeDesc} {info : Memory} {base : ℕ}
    {number : ℕ → UInt64} {pointer : ℕ → Pointer} (h : desc.count = 0)
    (hp : info.pointer (base + desc.value.offset) = .elements number pointer) :
    (memberNode member desc info base).array.count = info.load base desc.counter ∧
      ∀ i, ((memberNode member desc info base).array.item i).block = ⟨number, pointer⟩ ∧
        ((memberNode member desc info base).array.item i).offset = i * desc.value.size := by
  have helements : attributeElements (memberNode member desc info base) =
      some (⟨number, pointer⟩, 0) := by
    simp only [attributeElements, memberNode, h, hp, ne_eq, not_true_eq_false, if_false]
  constructor
  · rw [WalkNode.array, helements]
    exact if_neg (not_not.mpr h)
  · intro i
    have harray : attributeElements (memberNode member desc info base).array =
        some (⟨number, pointer⟩, 0) := helements
    rw [WalkNode.item, harray]
    exact ⟨rfl, Nat.zero_add _⟩

lemma array_inline (member : AttributeDesc) {desc : AttributeDesc} (info : Memory) (base : ℕ)
    (h : desc.count ≠ 0) : (memberNode member desc info base).array.count = desc.count ∧
      ∀ i, ((memberNode member desc info base).array.item i).block = info ∧
        ((memberNode member desc info base).array.item i).offset =
          base + desc.value.offset + i * desc.value.size := by
  have helements : attributeElements (memberNode member desc info base) =
      some (info, base + desc.value.offset) := if_pos h
  constructor
  · rw [WalkNode.array, helements]
    exact if_pos h
  · intro i
    have harray : attributeElements (memberNode member desc info base).array =
        some (info, base + desc.value.offset) := helements
    rw [WalkNode.item, harray]
    exact ⟨rfl, rfl⟩

lemma leaves_valueTree {desc : AttributeDesc} (h : desc.kind ≠ .struct)
    (inner : Memory → ℕ → List (WalkNode × ValueTree)) {node : WalkNode}
    (hnode : node.attr = desc) : (valueTree inner node).leaves = [node] := by
  rw [valueTree, hnode, if_neg h, ValueTree.leaves]

lemma leaves_structTree {desc : AttributeDesc} (h : desc.kind = .struct)
    (inner : Memory → ℕ → List (WalkNode × ValueTree)) {node : WalkNode}
    (hnode : node.attr = desc) :
    (valueTree inner node).leaves = leavesOf (inner node.block node.offset) := by
  rw [valueTree, hnode, if_pos h, ValueTree.leaves]

lemma kind_struct {kind : AttributeKind} : kind.type = .struct ↔ kind = .struct := by
  cases kind <;> simp [AttributeKind.type]

lemma kind_variant {kind : AttributeKind} : kind.type = .variant ↔ kind = .variant := by
  cases kind <;> simp [AttributeKind.type]

def ReadsLeaves (attrs : List AttributeSpec) : Prop :=
  ∀ (info : Memory) (base : ℕ) (s : σ),
    attributesWalk (readVisit step) base (attributesOf attrs) (s, info) =
      ((leavesOf (attributesTree attrs info base)).foldlM (readLeaf step) s).map fun s => (s, info)

section Member

variable {step} {desc : AttributeDesc} {attrs : List AttributeSpec} (h : ReadsLeaves step attrs)
  (variants : List Attribute)

include h

lemma walkValue_leaves {node : WalkNode} (hnode : node.attr = desc) (s : σ) :
    (if desc.kind.type = .struct then
        attributesWalk (readVisit step) node.offset (attributesOf attrs) (s, node.block)
      else readVisit step (desc.attribute (attributesOf attrs) variants) node.offset
        (s, node.block)) =
      ((valueTree (attributesTree attrs) node).leaves.foldlM (readLeaf step) s).map
        fun s => (s, node.block) := by
  by_cases hkind : desc.kind = .struct
  · rw [if_pos (kind_struct.mpr hkind), h, leaves_structTree hkind _ hnode]
  · rw [if_neg (fun he => hkind (kind_struct.mp he)), leaves_valueTree hkind _ hnode]
    have hleaf : readLeaf step s node =
        step (desc.attribute (attributesOf attrs) variants).plain node.block node.offset s := by
      rw [readLeaf, hnode]
      rfl
    rw [List.foldlM_cons, hleaf, readVisit]
    cases step (desc.attribute (attributesOf attrs) variants).plain node.block node.offset s <;> rfl

lemma attributeWalk_leaves (member : AttributeDesc) (info : Memory) (base : ℕ) (s : σ) :
    attributeWalk (readVisit step) base (desc.attribute (attributesOf attrs) variants) (s, info) =
      ((memberTree member desc (attributesTree attrs) info base).2.leaves.foldlM
        (readLeaf step) s).map fun s => (s, info) := by
  have hvalue := fun (node : WalkNode) (hnode : node.attr = desc) s =>
    walkValue_leaves h variants hnode s
  have hattribute : desc.attribute (attributesOf attrs) variants =
      ⟨desc.value, desc.kind.type, desc.counter, desc.count, desc.params.unspec,
        desc.params.unknown, desc.params.flags.isPrivate, desc.params.flags.isMac,
        desc.params.targets, desc.params.link, desc.selector, desc.isDefault, attributesOf attrs,
        variants⟩ := rfl
  rw [hattribute, attributeWalk, ← hattribute, memberTree]
  simp only
  have harray : attributeIsArray (desc.attribute (attributesOf attrs) variants) = desc.isArray := rfl
  rw [harray]
  by_cases hisArray : desc.isArray = true
  · rw [if_pos hisArray, if_pos hisArray, arrayTree, ValueTree.leaves, leavesOf_map,
      List.range_eq_range']
    by_cases hcount : desc.count = 0
    · rw [if_neg (not_not.mpr hcount)]
      cases hp : info.pointer (base + desc.value.offset) with
      | ref r =>
        have hnone : (memberNode member desc info base).array.count = 0 :=
          array_none member hcount hp
        rw [hnone]
        rfl
      | elements number pointer =>
        obtain ⟨hnumber, hitem⟩ := array_elements member hcount hp
        have hself : info.setPointer (base + desc.value.offset) (.elements number pointer) = info := by
          rw [Memory.setPointer, ← hp, Function.update_eq_self]
        simp only
        rw [hnumber]
        let visit : ℕ → σ × Memory → Option (σ × Memory) := fun i state =>
          if desc.kind.type = .struct then
            attributesWalk (readVisit step) (i * desc.value.size) (attributesOf attrs) state
          else readVisit step (desc.attribute (attributesOf attrs) variants)
            (i * desc.value.size) state
        let leaves : ℕ → List WalkNode := fun i =>
          (valueTree (attributesTree attrs) ((memberNode member desc info base).array.item i)).leaves
        have hvisit : ∀ i s, visit i (s, ⟨number, pointer⟩) =
            ((leaves i).foldlM (readLeaf step) s).map fun s => (s, ⟨number, pointer⟩) := by
          intro i s
          have hread := hvalue ((memberNode member desc info base).array.item i) rfl s
          rwa [(hitem i).1, (hitem i).2] at hread
        have hwalk : walkElements visit (info.load base desc.counter) 0 (s, ⟨number, pointer⟩) = _ :=
          walkElements_read step hvisit 0 s
        rw [hwalk, Option.map_map]
        refine Option.map_congr fun s _ => ?_
        exact congrArg (Prod.mk s) hself
    · rw [if_pos hcount]
      obtain ⟨hnumber, hitem⟩ := array_inline member info base hcount
      rw [hnumber]
      refine walkElements_read step (fun i s => ?_) 0 s
      have hread := hvalue ((memberNode member desc info base).array.item i) rfl s
      rwa [(hitem i).1, (hitem i).2] at hread
  · rw [if_neg hisArray, if_neg hisArray]
    exact hvalue (memberNode member desc info base) rfl s

end Member

mutual

lemma attributesWalk_leaves : ∀ attrs : List AttributeSpec, ReadsLeaves step attrs
  | [], info, base, s => by
    rw [attributesOf, attributesWalk, attributesTree, leavesOf]
    rfl
  | ⟨desc, attrs, variants⟩ :: rest, info, base, s => by
    have hrest := fun s => attributesWalk_leaves rest info base s
    have hattrs := attributesWalk_leaves attrs
    have htype : (desc.attribute (attributesOf attrs) (attributesOf variants)).type = desc.kind.type :=
      rfl
    rw [attributesOf, AttributeSpec.attribute, attributesWalk, attributesTree, leavesOf_append,
      List.foldlM_append, htype]
    by_cases hkind : desc.kind = .variant
    · rw [if_pos (kind_variant.mpr hkind), if_pos hkind]
      have hresolve : attributeResolve (attributeReadInt
            (desc.attribute (attributesOf attrs) (attributesOf variants)).value
            ((s, info).2.number (base + (desc.attribute (attributesOf attrs)
              (attributesOf variants)).value.offset)))
            (desc.attribute (attributesOf attrs) (attributesOf variants)).variants 0 none =
          variantFind (attributeSelector desc info base) variants 0 none :=
        variantFind_attributes _ _ _ _
      rw [hresolve]
      cases variantFind (attributeSelector desc info base) variants 0 none with
      | none => exact hrest s
      | some i =>
        have hvariant := variantWalk_leaves desc i variants info base s
        have hat : attributeWalkVariant (readVisit step) base i
            (desc.attribute (attributesOf attrs) (attributesOf variants)) (s, info) =
            attributesWalkAt (readVisit step) base i (attributesOf variants) (s, info) := rfl
        simp only [hat, hvariant]
        cases (leavesOf (variantTree desc i variants info base)).foldlM (readLeaf step) s with
        | none => rfl
        | some s => exact hrest s
    · rw [if_neg (fun he => hkind (kind_variant.mp he)), if_neg hkind, leavesOf_single,
        attributeWalk_leaves hattrs _ desc]
      cases (memberTree desc desc (attributesTree attrs) info base).2.leaves.foldlM
          (readLeaf step) s with
      | none => rfl
      | some s => exact hrest s

lemma variantWalk_leaves : ∀ (member : AttributeDesc) (i : ℕ) (variants : List AttributeSpec)
    (info : Memory) (base : ℕ) (s : σ),
    attributesWalkAt (readVisit step) base i (attributesOf variants) (s, info) =
      ((leavesOf (variantTree member i variants info base)).foldlM (readLeaf step) s).map
        fun s => (s, info)
  | _, i, [], info, base, s => by
    rw [attributesOf, attributesWalkAt, variantTree, leavesOf]
    rfl
  | member, 0, ⟨desc, attrs, variants⟩ :: rest, info, base, s => by
    have hattrs := attributesWalk_leaves attrs
    rw [attributesOf, AttributeSpec.attribute, attributesWalkAt, variantTree, leavesOf_single,
      attributeWalk_leaves hattrs _ member]
  | member, i + 1, _ :: rest, info, base, s => by
    rw [attributesOf, attributesWalkAt, variantTree]
    exact variantWalk_leaves member i rest info base s

end

end Leaves

section ValueVisitor

variable {m : Type → Type u} [Monad m] [LawfulMonad m] (value : WalkNode → m Bool)

def valueVisitor : AttributeVisitor m where
  memberStart := none
  memberEnd := none
  arrayStart := none
  arrayEnd := none
  itemStart := none
  itemEnd := none
  structStart := none
  structEnd := none
  value := some value

lemma enterThen_none (node : WalkNode) (body : m Bool) :
    enterThen (attributeEnter none node) body = body := by
  rw [enterThen, attributeEnter, pure_bind]

mutual

lemma walkTree_values : ∀ tree : ValueTree,
    (valueVisitor value).walkTree tree = tree.leaves.allM value
  | .value node => by
    rw [walkTree, ValueTree.leaves, Script.allM_cons]
    exact (Script.andM_true _).symm
  | .struct node members => by
    rw [walkTree, ValueTree.leaves, walkMembers_values members]
    exact (enterThen_none node _).trans (Script.andM_true _)
  | .array node items => by
    rw [walkTree, ValueTree.leaves, walkItems_values items]
    exact (enterThen_none node _).trans (Script.andM_true _)

lemma walkMembers_values : ∀ members : List (WalkNode × ValueTree),
    (valueVisitor value).walkMembers members = (leavesOf members).allM value
  | [] => rfl
  | (node, tree) :: rest => by
    rw [walkMembers, leavesOf, walkMembers_values rest, walkTree_values tree, Script.allM_append]
    exact congrArg (· <&&> _) ((enterThen_none node _).trans (Script.andM_true _))

lemma walkItems_values : ∀ items : List (WalkNode × ValueTree),
    (valueVisitor value).walkItems items = (leavesOf items).allM value
  | [] => rfl
  | (node, tree) :: rest => by
    rw [walkItems, leavesOf, walkItems_values rest, walkTree_values tree, Script.allM_append]
    exact congrArg (· <&&> _) ((enterThen_none node _).trans (Script.andM_true _))

end

end ValueVisitor

end OpenDmi

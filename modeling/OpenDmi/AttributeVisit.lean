import OpenDmi.Attribute
import OpenDmi.CallScript

universe u

namespace OpenDmi

open Bytes

inductive AttributeKind
  | struct | handle | string | bool | integer | decimal | size | address | enum | set | version
  | date | uuid | binary | variant
  deriving DecidableEq

structure NameEntry where
  id : ℤ
  code : List Byte
  name : List Byte

structure NameRange where
  startId : ℤ
  endId : ℤ
  code : List Byte
  name : List Byte

structure NameSet where
  code : Option (List Byte)
  names : List NameEntry
  ranges : List NameRange

structure AttributeFlags where
  isSigned : Bool
  isHex : Bool
  isMac : Bool
  isIp : Bool
  isPrivate : Bool
  isBcd : Bool
  isJep106 : Bool
  isOpen : Bool

structure AttributeParams where
  code : List Byte
  level : ℕ
  unit : ℕ
  scale : ℕ
  unspec : Option (List Byte)
  unknown : Option (List Byte)
  flags : AttributeFlags
  minimum : Option (List Byte)
  maximum : Option (List Byte)
  values : Option NameSet
  targets : Option (List ℕ)
  link : Member

structure AttributeDesc where
  params : AttributeParams
  value : Member
  kind : AttributeKind
  counter : Member
  count : ℕ
  selector : ℤ
  isDefault : Bool

structure AttributeSpec where
  desc : AttributeDesc
  attrs : List AttributeSpec
  variants : List AttributeSpec

def AttributeKind.type : AttributeKind → AttributeType
  | .struct => .struct
  | .handle => .handle
  | .string => .string
  | .binary => .binary
  | .uuid => .uuid
  | .integer => .integer
  | .variant => .variant
  | _ => .other

/-- The part of an attribute which replacing its values is about. -/
def AttributeDesc.attribute (desc : AttributeDesc) (attrs variants : List Attribute) : Attribute where
  value := desc.value
  type := desc.kind.type
  counter := desc.counter
  count := desc.count
  unspec := desc.params.unspec
  unknown := desc.params.unknown
  isPrivate := desc.params.flags.isPrivate
  isMac := desc.params.flags.isMac
  targets := desc.params.targets
  link := desc.params.link
  selector := desc.selector
  isDefault := desc.isDefault
  attrs := attrs
  variants := variants

mutual

def AttributeSpec.attribute : AttributeSpec → Attribute
  | ⟨desc, attrs, variants⟩ => desc.attribute (attributesOf attrs) (attributesOf variants)

def attributesOf : List AttributeSpec → List Attribute
  | [] => []
  | attr :: rest => attr.attribute :: attributesOf rest

end

def AttributeDesc.isArray (desc : AttributeDesc) : Bool :=
  memberIsPresent desc.counter || desc.count != 0

/-- The place of a value in the walk: the structure its member is in, and where the value is. -/
structure WalkNode where
  member : AttributeDesc
  attr : AttributeDesc
  info : Memory
  base : ℕ
  block : Memory
  offset : ℕ
  index : Option ℕ
  count : ℕ

inductive WalkStep
  | stop | resume | skip
  deriving DecidableEq

structure AttributeVisitor (m : Type → Type u) where
  memberStart : Option (WalkNode → m WalkStep)
  memberEnd : Option (WalkNode → m Bool)
  arrayStart : Option (WalkNode → m WalkStep)
  arrayEnd : Option (WalkNode → m Bool)
  itemStart : Option (WalkNode → m WalkStep)
  itemEnd : Option (WalkNode → m Bool)
  structStart : Option (WalkNode → m WalkStep)
  structEnd : Option (WalkNode → m Bool)
  value : Option (WalkNode → m Bool)

variable {m : Type → Type u} [Monad m]

def attributeEnter (enter : Option (WalkNode → m WalkStep)) (node : WalkNode) :
    m WalkStep :=
  match enter with
  | none => pure .resume
  | some enter => enter node

def attributeLeave (leave : Option (WalkNode → m Bool)) (node : WalkNode) : m Bool :=
  match leave with
  | none => pure true
  | some leave => leave node

def enterThen (step : m WalkStep) (body : m Bool) : m Bool := do
  match ← step with
  | .stop => pure false
  | .skip => pure true
  | .resume => body

def variantFind (selector : ℤ) : List AttributeSpec → ℕ → Option ℕ → Option ℕ
  | [], _, fallback => fallback
  | variant :: rest, i, fallback =>
    if variant.desc.isDefault then variantFind selector rest (i + 1) (some i)
    else if variant.desc.selector = selector then some i
    else variantFind selector rest (i + 1) fallback

def attributeSelector (desc : AttributeDesc) (info : Memory) (base : ℕ) : ℤ :=
  attributeReadInt desc.value (info.number (base + desc.value.offset))

def attributeElements (node : WalkNode) : Option (Memory × ℕ) :=
  if node.attr.count ≠ 0 then some (node.block, node.offset)
  else match node.block.pointer node.offset with
    | .ref _ => none
    | .elements number pointer => some (⟨number, pointer⟩, 0)

def attributeGetCount (attr : AttributeDesc) (info : Memory) (base : ℕ) : ℕ :=
  if attr.count ≠ 0 then attr.count else info.load base attr.counter

def WalkNode.array (node : WalkNode) : WalkNode :=
  { node with
    count := match attributeElements node with
      | none => 0
      | some _ => attributeGetCount node.attr node.info node.base }

def WalkNode.item (array : WalkNode) (i : ℕ) : WalkNode :=
  let (block, start) := (attributeElements array).getD (array.block, array.offset)
  { array with
    block := block
    offset := start + i * array.attr.value.size
    index := some i }

namespace AttributeVisitor

variable (visitor : AttributeVisitor m)

def structWalk (inner : Memory → ℕ → m Bool) (node : WalkNode) : m Bool :=
  enterThen (attributeEnter visitor.structStart node)
    (inner node.block node.offset <&&> attributeLeave visitor.structEnd node)

def valueWalk (inner : Memory → ℕ → m Bool) (node : WalkNode) : m Bool :=
  if node.attr.kind = .struct then visitor.structWalk inner node
  else attributeLeave visitor.value node

def arrayWalk (inner : Memory → ℕ → m Bool) (node : WalkNode) : m Bool :=
  let array := node.array
  enterThen (attributeEnter visitor.arrayStart array)
    (((List.range array.count).allM fun i =>
        let item := array.item i
        enterThen (attributeEnter visitor.itemStart item)
          (visitor.valueWalk inner item <&&> attributeLeave visitor.itemEnd item)) <&&>
      attributeLeave visitor.arrayEnd array)

def memberNode (member attr : AttributeDesc) (info : Memory) (base : ℕ) : WalkNode :=
  ⟨member, attr, info, base, info, base + attr.value.offset, none, 0⟩

def memberWalk (member attr : AttributeDesc) (inner : Memory → ℕ → m Bool) (info : Memory)
    (base : ℕ) : m Bool :=
  let node := memberNode member attr info base
  enterThen (attributeEnter visitor.memberStart node)
    ((if attr.isArray then visitor.arrayWalk inner node else visitor.valueWalk inner node) <&&>
      attributeLeave visitor.memberEnd node)

mutual

def attributesWalk : List AttributeSpec → Memory → ℕ → m Bool
  | [], _, _ => pure true
  | ⟨desc, attrs, variants⟩ :: rest, info, base =>
    (if desc.kind = .variant then
      match variantFind (attributeSelector desc info base) variants 0 none with
      | none => pure true
      | some i => variantWalk desc i variants info base
    else visitor.memberWalk desc desc (attributesWalk attrs) info base) <&&>
      attributesWalk rest info base

def variantWalk (member : AttributeDesc) : ℕ → List AttributeSpec → Memory → ℕ → m Bool
  | _, [], _, _ => pure true
  | 0, ⟨desc, attrs, _⟩ :: _, info, base =>
    visitor.memberWalk member desc (attributesWalk attrs) info base
  | i + 1, _ :: rest, info, base => variantWalk member i rest info base

end

def attributeWalk (attr : AttributeSpec) (info : Memory) (base : ℕ) : m Bool :=
  visitor.attributesWalk [attr] info base

end AttributeVisitor

end OpenDmi

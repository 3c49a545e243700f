import OpenDmi.Bytes

namespace OpenDmi

open Bytes

structure Member where
  offset : ℕ
  size : ℕ
  deriving DecidableEq

def Member.null : Member := ⟨0, 0⟩

def memberIsPresent (member : Member) : Bool := member.size != 0

/-- What a member points to: a string, known by its place in the string set unless a handler
has made it up, or bytes, known by their place in the structure. -/
inductive Ref
  | null
  | text (entry : Option ℕ) (bytes : List Byte)
  | data (position : Option ℕ) (bytes : List Byte)
  deriving DecidableEq

inductive Pointer
  | ref (r : Ref)
  | elements (number : ℕ → UInt64) (pointer : ℕ → Pointer)

/-- A block of memory: the numbers and the pointers it holds at its offsets. -/
structure Memory where
  number : ℕ → UInt64
  pointer : ℕ → Pointer

def Memory.zero : Memory := ⟨fun _ => 0, fun _ => .ref .null⟩

def Pointer.block : Pointer → Memory
  | .elements number pointer => ⟨number, pointer⟩
  | .ref _ => Memory.zero

def Pointer.toRef : Pointer → Ref
  | .ref r => r
  | .elements _ _ => .null

inductive Value
  | number (n : UInt64)
  | ref (r : Ref)
  deriving DecidableEq

abbrev Writes := List (ℕ × Value)

def Memory.setNumber (memory : Memory) (offset : ℕ) (n : UInt64) : Memory :=
  { memory with number := Function.update memory.number offset n }

def Memory.setPointer (memory : Memory) (offset : ℕ) (p : Pointer) : Memory :=
  { memory with pointer := Function.update memory.pointer offset p }

def Memory.write (memory : Memory) (offset : ℕ) : Value → Memory
  | .number n => memory.setNumber offset n
  | .ref r => memory.setPointer offset (.ref r)

def Memory.writes (memory : Memory) (base : ℕ) : Writes → Memory
  | [] => memory
  | (offset, value) :: rest => (memory.write (base + offset) value).writes base rest

def Memory.holds (memory : Memory) (offset : ℕ) : Value → Bool
  | .number n => memory.number offset == n
  | .ref r => match memory.pointer offset with
    | .ref r' => r' == r
    | .elements _ _ => false

def Memory.shift (memory : Memory) (base : ℕ) : Memory :=
  ⟨fun offset => memory.number (base + offset), fun offset => memory.pointer (base + offset)⟩

structure Binary where
  position : Option ℕ
  bytes : List Byte
  deriving DecidableEq

def binaryLengthOffset : ℕ := 8

structure FieldData where
  number : ℕ
  string : Ref
  binary : Binary
  deriving DecidableEq

def FieldData.empty : FieldData := ⟨0, .null, ⟨none, []⟩⟩

inductive FieldType
  | integer | string | bcd | binary | uuid | struct | array | vector
  | bits | pad | group | offset | preset | skip
  deriving DecidableEq

def lengthRest : ℕ := 2 ^ 64 - 1
def lengthMember : ℕ := 2 ^ 64 - 2

structure FieldParams where
  since : ℕ := 0
  present : Member := Member.null
  «from» : ℕ := 0
  before : ℕ := 0
  absent : Option Value := none
  offset : ℕ := 0
  unknownRaw : ℕ := 0
  whenRaw : ℕ := 0
  «when» : Member := Member.null
  bits : ℕ := 0
  length : ℕ := 0
  countLength : ℕ := 0
  countMember : Member := Member.null
  stride : ℕ := 0
  strideLength : ℕ := 0
  strideMinimum : ℕ := 0
  strideMember : Member := Member.null
  count : ℕ := 0
  counter : Member := Member.null
  decode : Option (FieldData → Option Writes) := none
  encode : Option (Memory → Option FieldData) := none
  extended : Bool := false

structure Field where
  member : Member
  type : FieldType
  params : FieldParams
  fields : List Field

def memberLoad (member : Member) (n : UInt64) : ℕ :=
  if member.size ∈ [1, 2, 4, 8] then n.toNat % 256 ^ member.size else 0

def memberStore (member : Member) (raw : ℕ) : Option UInt64 :=
  if member.size ∈ [1, 2, 4, 8] then some (UInt64.ofNat (raw % 256 ^ member.size)) else none

def memberMax (member : Member) : ℕ :=
  if member.size ≥ 8 then 2 ^ 64 - 1 else 256 ^ member.size - 1

def Memory.load (memory : Memory) (base : ℕ) (member : Member) : ℕ :=
  memberLoad member (memory.number (base + member.offset))

def Memory.loadBinary (memory : Memory) (base : ℕ) : Binary :=
  match (memory.pointer base).toRef with
  | .data position bytes =>
    ⟨position, bytes.take (memory.number (base + binaryLengthOffset)).toNat⟩
  | _ => ⟨none, []⟩

def fieldWhenOffset (field : Field) : ℕ :=
  if memberIsPresent field.params.when then field.params.when.offset else field.member.offset

def fieldIsDefined (field : Field) (version : ℕ) : Bool :=
  !(field.params.from != 0 && version < field.params.from) &&
    !(field.params.before != 0 && field.params.before ≤ version)

def fieldIsNumeric (field : Field) : Bool := field.type != .string && field.type != .binary

def fieldArrayIsSkipped (field : Field) (stride : ℕ) : Bool :=
  field.params.strideMinimum != 0 && stride < field.params.strideMinimum

def fieldIsFixed (field : Field) : Bool :=
  match field.type with
  | .uuid | .bcd => true
  | .binary => field.params.length == lengthRest || field.params.length == lengthMember
  | _ => false

def fieldApply (field : Field) (data : FieldData) : Option Writes :=
  let store (raw : ℕ) := (memberStore field.member raw).map fun n => [(0, Value.number n)]
  if field.params.unknownRaw ≠ 0 ∧ data.number = field.params.unknownRaw ∧
      fieldIsNumeric field = true then store (2 ^ 64 - 1)
  else match field.params.decode with
    | some decode => decode data
    | none => match field.type with
      | .string => some [(0, .ref data.string)]
      | .binary => some
        [(0, .ref (if data.binary.bytes = [] then .null
            else .data data.binary.position data.binary.bytes)),
          (binaryLengthOffset, .number (UInt64.ofNat data.binary.bytes.length))]
      | _ => store data.number

def fieldWidth (field : Field) : ℕ :=
  match field.type with
  | .integer | .bcd | .string | .uuid => field.params.length
  | .binary => if field.params.length = lengthRest ∨ field.params.length = lengthMember then 0
    else field.params.length
  | _ => 0

structure Choice where
  offset : ℕ
  whenRaw : ℕ
  raw : ℕ
  extended : Bool
  deriving DecidableEq

def choiceMax : ℕ := 8

def choiceFind (choices : List Choice) (offset : ℕ) : Option Choice :=
  choices.find? (·.offset == offset)

def choiceUpdate (choices : List Choice) (offset : ℕ) (f : Choice → Choice) : List Choice :=
  choices.map fun choice => if choice.offset = offset then f choice else choice

def choicesCollect : List Field → List Choice → List Choice
  | [], choices => choices
  | field :: rest, choices =>
    if field.params.extended = true ∧ choiceFind choices (fieldWhenOffset field) = none ∧
        choices.length < choiceMax then
      choicesCollect rest
        (choices ++ [⟨fieldWhenOffset field, field.params.whenRaw, 0, false⟩])
    else choicesCollect rest choices

def presetAll (base : ℕ) : List Field → Memory → Memory
  | [], memory => memory
  | field :: rest, memory =>
    match field.params.absent with
    | some value => if memberIsPresent field.member then
        presetAll base rest (memory.write (base + field.member.offset) value)
      else presetAll base rest memory
    | none => presetAll base rest memory

def groupIsAbsent (base : ℕ) (group : Field) (info : Memory) : Bool :=
  memberIsPresent group.params.present && info.load base group.params.present == 0

end OpenDmi

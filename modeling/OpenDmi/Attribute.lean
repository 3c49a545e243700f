import OpenDmi.Field

namespace OpenDmi

open Bytes

inductive AttributeType
  | struct | handle | string | binary | uuid | integer | variant | other
  deriving DecidableEq

/-- An attribute, along with the selector it is chosen by where it is a variant of another one. -/
structure Attribute where
  value : Member
  type : AttributeType
  counter : Member
  count : ℕ
  unspec : Option (List Byte)
  unknown : Option (List Byte)
  isPrivate : Bool
  isMac : Bool
  targets : Option (List ℕ)
  link : Member
  selector : ℤ
  isDefault : Bool
  attrs : List Attribute
  variants : List Attribute

def memberBytes (info : Memory) (offset size : ℕ) : List Byte :=
  leStore (min size 8) (info.number offset).toNat ++
    leStore (size - 8) (info.number (offset + 8)).toNat

def memberWrite (info : Memory) (offset : ℕ) (bytes : List Byte) : Memory :=
  let info := info.setNumber offset (UInt64.ofNat (leLoad (bytes.take 8)))
  if bytes.length ≤ 8 then info
  else info.setNumber (offset + 8) (UInt64.ofNat (leLoad (bytes.drop 8)))

def attributeReadInt (member : Member) (n : UInt64) : ℤ :=
  if member.size ∈ [1, 2, 4, 8] then
    let raw := n.toNat % 256 ^ member.size
    if 2 * raw < 256 ^ member.size then raw else raw - 256 ^ member.size
  else 0

def attributeIsUnspecified (attr : Attribute) (info : Memory) (offset : ℕ) : Bool :=
  match attr.unspec with
  | some unspec => memberBytes info offset attr.value.size == unspec
  | none => match attr.type with
    | .string => (info.pointer offset).toRef == .null
    | .handle => (info.number offset).toNat % 2 ^ 16 == 0xFFFF
    | .binary => info.number (offset + binaryLengthOffset) == 0
    | _ => false

def attributeIsUnknown (attr : Attribute) (info : Memory) (offset : ℕ) : Bool :=
  attr.unknown.any (memberBytes info offset attr.value.size == ·)

def attributeIsArray (attr : Attribute) : Bool := memberIsPresent attr.counter || attr.count != 0

/-- The variant whose selector matches, and the last default one where none does. -/
def attributeResolve (selector : ℤ) : List Attribute → ℕ → Option ℕ → Option ℕ
  | [], _, fallback => fallback
  | variant :: rest, i, fallback =>
    if variant.isDefault then attributeResolve selector rest (i + 1) (some i)
    else if variant.selector = selector then some i
    else attributeResolve selector rest (i + 1) fallback

def walkElements {σ : Type} (step : ℕ → σ → Option σ) : ℕ → ℕ → σ → Option σ
  | 0, _, state => some state
  | count + 1, i, state => (step i state).bind (walkElements step count (i + 1))

variable {σ : Type} (visit : Attribute → ℕ → σ × Memory → Option (σ × Memory))

mutual

def attributesWalk (base : ℕ) : List Attribute → σ × Memory → Option (σ × Memory)
  | [], state => some state
  | attr :: rest, state =>
    if attr.type = .variant then
      match attributeResolve (attributeReadInt attr.value
          (state.2.number (base + attr.value.offset))) attr.variants 0 none with
      | none => attributesWalk base rest state
      | some i => (attributeWalkVariant base i attr state).bind (attributesWalk base rest)
    else (attributeWalk base attr state).bind (attributesWalk base rest)

def attributeWalkVariant (base i : ℕ) : Attribute → σ × Memory → Option (σ × Memory)
  | ⟨_, _, _, _, _, _, _, _, _, _, _, _, _, variants⟩, state => attributesWalkAt base i variants state

def attributesWalkAt (base : ℕ) : ℕ → List Attribute → σ × Memory → Option (σ × Memory)
  | _, [], state => some state
  | 0, attr :: _, state => attributeWalk base attr state
  | i + 1, _ :: rest, state => attributesWalkAt base i rest state

def attributeWalk (base : ℕ) : Attribute → σ × Memory → Option (σ × Memory)
  | ⟨value, type, counter, count, unspec, unknown, isPrivate, isMac, targets, link, selector,
      isDefault, attrs, variants⟩, state =>
    let attr : Attribute := ⟨value, type, counter, count, unspec, unknown, isPrivate, isMac,
      targets, link, selector, isDefault, attrs, variants⟩
    let walkValue (offset : ℕ) (state : σ × Memory) :=
      if type = .struct then attributesWalk offset attrs state else visit attr offset state
    if attributeIsArray attr then
      if count ≠ 0 then
        walkElements (fun i => walkValue (base + value.offset + i * value.size)) count 0 state
      else match state.2.pointer (base + value.offset) with
        | .ref _ => some state
        | .elements number pointer =>
          -- Elements stand in a block of their own, and a structure which holds none points nowhere
          (walkElements (fun i => walkValue (i * value.size)) (state.2.load base counter) 0
            (state.1, ⟨number, pointer⟩)).map fun result =>
              (result.1, state.2.setPointer (base + value.offset)
                (.elements result.2.number result.2.pointer))
    else walkValue (base + value.offset) state

end

end OpenDmi

import OpenDmi.FieldDecode

namespace OpenDmi

open Bytes

inductive EncodeMode
  | preserve
  | canonical
  deriving DecidableEq

structure Encoder where
  source : Source
  mode : EncodeMode
  version : ℕ

structure EncodeState where
  written : List Byte
  position : ℕ
  strings : List (Option (List Byte))
  bitsValue : ℕ
  bitsCount : ℕ
  bitsTaken : ℕ
  stopped : Bool
  deriving DecidableEq

variable (encoder : Encoder)

def encoderRemaining (state : EncodeState) : ℕ :=
  match encoder.mode with
  | .preserve => encoder.source.body.length - state.position
  | .canonical => 0

def encoderPeek (length : ℕ) (state : EncodeState) : Option (List Byte) :=
  match encoder.mode with
  | .preserve => if state.position + length ≤ encoder.source.body.length then
      some (window encoder.source.body state.position length) else none
  | .canonical => none

def putBytes (bytes : List Byte) (state : EncodeState) : EncodeState :=
  { state with
    written := state.written ++ bytes
    position := state.position + min bytes.length (encoderRemaining encoder state) }

def encoderCopy : ℕ → EncodeState → EncodeState
  | 0, state => state
  | length + 1, state =>
    encoderCopy length (putBytes encoder [((encoderPeek encoder 1 state).getD [0]).headD 0] state)

def addString (value : Option (List Byte)) (state : EncodeState) : ℕ × EncodeState :=
  let shared := if encoder.mode = .canonical ∧ value ≠ none then
    state.strings.findIdx? (· == value) else none
  match shared with
  | some i => (i + 1, state)
  | none => (state.strings.length + 1, { state with strings := state.strings ++ [value] })

def hasString (state : EncodeState) (index : ℕ) : Bool :=
  0 < index && (state.strings[index - 1]?.bind id).isSome

def putString (value : Ref) (state : EncodeState) : Option EncodeState :=
  match value with
  | .null =>
    let number := match encoderPeek encoder 1 state with
      | some [original] =>
        if original ≠ 0 ∧ hasString state original.toNat = false then original else 0
      | _ => 0
    some (putBytes encoder [number] state)
  | .text entry bytes =>
    let found := entry.bind fun i => encoder.source.strings[i]?.map fun string => (i, string.raw)
    let (index, state) := match found, encoder.mode with
      | some (i, _), .preserve => (i + 1, state)
      | some (_, raw), .canonical => addString encoder (some raw) state
      | none, _ => addString encoder (some bytes) state
    if index > 255 then none else some (putBytes encoder [UInt8.ofNat index] state)
  | .data _ _ => none

def header (typeId length handle : ℕ) : List Byte :=
  [UInt8.ofNat typeId, UInt8.ofNat length] ++ leStore 2 handle

def encoderInitialize : EncodeState :=
  putBytes encoder (header encoder.source.typeId 0 encoder.source.handle)
    ⟨[], 0, match encoder.mode with
      | .preserve => encoder.source.strings.map fun string => some string.raw
      | .canonical => [], 0, 0, 0, false⟩

/-- The header of the source stays whenever it reads as the one written. -/
def encoderHeader (length : ℕ) : List Byte :=
  let source := encoder.source
  let original := source.body.take headerSize
  let same := window original 2 2 = leStore 2 source.handle ∧
    if original.getD 1 0 = 0 then source.typeId % 256 = typeEndOfTable ∧ length = headerSize
    else original.getD 0 0 = UInt8.ofNat source.typeId ∧ (original.getD 1 0).toNat = length
  if encoder.mode = .preserve ∧ headerSize ≤ source.body.length ∧ same then original
  else header source.typeId length source.handle

def encoderFinish (state : EncodeState) : Option (List Byte) :=
  let length := state.written.length
  if length < headerSize then none
  else if length > 255 then none
  else some (patch state.written 0 (encoderHeader encoder length))

end OpenDmi

import OpenDmi.Entity
import OpenDmi.Field

namespace OpenDmi

open Bytes

/-- The structure a decoder reads, or the part of it narrowed to the end of the body here. -/
structure Source where
  typeId : ℕ
  handle : ℕ
  body : List Byte
  strings : List StringEntry
  version : ℕ
  isPart : Bool

def entitySource (entity : Entity) (version : ℕ) : Source :=
  ⟨entity.typeId, entity.handle,
    window (entityBuffer entity).data (entityOffset entity) entity.bodyLength, entity.strings,
    version, false⟩

def entityString (source : Source) (number : ℕ) : Ref :=
  if number = 0 then .null
  else match source.strings[number - 1]? with
    | some entry => .text (some (number - 1)) entry.pretty
    | none => .null

structure DecodeState where
  position : ℕ
  bitsValue : ℕ
  bitsCount : ℕ
  bitsTaken : ℕ
  optional : Bool
  incomplete : Bool
  defined : ℕ
  level : ℕ
  isPartial : Bool
  isIncomplete : Bool
  memory : Memory

variable (source : Source)

def readerRemaining (state : DecodeState) : ℕ := source.body.length - state.position

def readerIsDone (state : DecodeState) : Bool := source.body.length ≤ state.position

def readerGet (length : ℕ) (state : DecodeState) : Option (List Byte × DecodeState) :=
  if state.position + length ≤ source.body.length then
    some (window source.body state.position length,
      { state with position := state.position + length })
  else none

def readerSkip (length : ℕ) (state : DecodeState) : Bool × DecodeState :=
  match readerGet source length state with
  | some (_, state) => (true, state)
  | none => (false, state)

def decoderIncomplete (state : DecodeState) : Bool × DecodeState :=
  if source.isPart then (true, state) else (true, { state with isIncomplete := true })

def decoderStop (state : DecodeState) : Bool × DecodeState :=
  if source.isPart then (true, state)
  else if readerIsDone source state then (true, { state with isPartial := true })
  else decoderIncomplete source state

def applyTo (field : Field) (data : FieldData) (value : Option ℕ) (state : DecodeState) :
    Bool × DecodeState :=
  match value with
  | none => (true, state)
  | some base => match fieldApply field data with
    | none => (false, state)
    | some writes => (true, { state with memory := state.memory.writes base writes })

def storeTo (base : ℕ) (member : Member) (raw : ℕ) (state : DecodeState) : Bool × DecodeState :=
  match memberStore member raw with
  | none => (false, state)
  | some n =>
    (true, { state with memory := state.memory.setNumber (base + member.offset) n })

def fieldValue (base : ℕ) (field : Field) : Option ℕ :=
  if memberIsPresent field.member then some (base + field.member.offset) else none

def readNumber (length : ℕ) (state : DecodeState) : Option (ℕ × DecodeState) :=
  if length = 0 ∨ length > 8 then none
  else (readerGet source length state).map fun (bytes, state) => (leLoad bytes, state)

def bcdDigits : ℕ → ℕ → ℕ
  | 0, _ => 0
  | n + 1, raw => raw % 16 + raw / 16 % 16 * 10 + 100 * bcdDigits n (raw / 256)

def readBcd (field : Field) (state : DecodeState) : Option (ℕ × DecodeState) :=
  if field.params.length > 8 then none
  else (readNumber source field.params.length state).map fun (raw, state) =>
    (if field.params.unknownRaw ≠ 0 ∧ raw = field.params.unknownRaw then raw
      else bcdDigits field.params.length raw, state)

def decoderGetBinary (length : ℕ) (state : DecodeState) : Option (Binary × DecodeState) :=
  (readerGet source length state).map fun (bytes, next) =>
    (⟨if length = 0 then none else some state.position, bytes⟩, next)

def binaryLength (field : Field) (value : Option ℕ) (state : DecodeState) : ℕ :=
  if field.params.length = lengthRest then readerRemaining source state
  else if field.params.length = lengthMember then
    (state.memory.number (value.getD 0 + binaryLengthOffset)).toNat
  else field.params.length

def readBinary (field : Field) (value : Option ℕ) (state : DecodeState) :
    Option Binary × DecodeState :=
  let length := binaryLength source field value state
  if field.params.length = lengthMember ∧ length > readerRemaining source state then
    -- Bytes a field before declares the number of are kept as far as they are there
    match decoderGetBinary source (readerRemaining source state) state with
    | some (binary, state) =>
      let (_, state) := applyTo field { FieldData.empty with binary := binary } value state
      (none, { state with incomplete := true })
    | none => (none, { state with incomplete := true })
  else match decoderGetBinary source length state with
    | some (binary, state) => (some binary, state)
    | none => (none, state)

def uuidSwap (bytes : List Byte) : List Byte :=
  (bytes.take 4).reverse ++ ((bytes.drop 4).take 2).reverse ++ ((bytes.drop 6).take 2).reverse ++
    bytes.drop 8

def Memory.storeUuid (memory : Memory) (base : ℕ) (bytes : List Byte) : Memory :=
  (memory.setNumber base (UInt64.ofNat (leLoad (bytes.take 8)))).setNumber (base + 8)
    (UInt64.ofNat (leLoad (bytes.drop 8)))

def decodeValue (field : Field) (value : Option ℕ) (state : DecodeState) :
    Bool × Option ℕ × DecodeState :=
  match field.type with
  | .skip =>
    let (ok, state) := readerSkip source field.params.length state
    (ok, none, state)
  | .uuid =>
    match readerGet source 16 state with
    | none => (false, none, state)
    | some (bytes, state) => match value with
      | none => (true, none, state)
      | some base =>
        (true, none, { state with memory := state.memory.storeUuid base (uuidSwap bytes) })
  | .string => match readerGet source 1 state with
    | none => (false, none, state)
    | some (bytes, state) =>
      let number := leLoad bytes
      let data := { FieldData.empty with number := number, string := entityString source number }
      let (ok, state) := applyTo field data value state
      (ok, some number, state)
  | .bcd => match readBcd source field state with
    | none => (false, none, state)
    | some (number, state) =>
      let (ok, state) := applyTo field { FieldData.empty with number := number } value state
      (ok, some number, state)
  | .binary => match readBinary source field value state with
    | (none, state) => (false, none, state)
    | (some binary, state) =>
      let (ok, state) := applyTo field { FieldData.empty with binary := binary } value state
      (ok, some 0, state)
  | .integer => match readNumber source field.params.length state with
    | none => (false, none, state)
    | some (number, state) =>
      let (ok, state) := applyTo field { FieldData.empty with number := number } value state
      (ok, some number, state)
  | _ => (false, none, state)

def decodeExtended (field : Field) (value : Option ℕ) (choice : Option Choice)
    (state : DecodeState) : Bool × DecodeState :=
  match decodeValue source field none state with
  | (false, _, state) => (false, state)
  | (true, raw, state) => match choice with
    | none => (true, state)
    | some choice =>
      if choice.raw ≠ field.params.whenRaw then (true, state)
      else applyTo field { FieldData.empty with number := raw.getD 0 } value state

def fillBits (bits : ℕ) : ℕ → DecodeState → Bool × DecodeState
  | 0, state => (true, state)
  | fuel + 1, state =>
    if state.bitsCount < bits then
      match readerGet source 1 state with
      | none => (false, state)
      | some (bytes, state) => fillBits bits fuel
        { state with
          bitsValue := state.bitsValue + leLoad bytes * 2 ^ state.bitsCount
          bitsCount := state.bitsCount + 8 }
    else (true, state)

def takeBits (bits : ℕ) (state : DecodeState) : Bool × ℕ × DecodeState :=
  match fillBits source bits bits state with
  | (false, state) => (false, 0, state)
  | (true, state) =>
    (true, state.bitsValue % 2 ^ bits,
      { state with
        bitsValue := state.bitsValue / 2 ^ bits
        bitsCount := state.bitsCount - bits
        bitsTaken := state.bitsTaken + bits })

def decodeBits (field : Field) (value : Option ℕ) (state : DecodeState) : Bool × DecodeState :=
  match takeBits source field.params.bits state with
  | (false, _, state) => (false, state)
  | (true, number, state) => applyTo field { FieldData.empty with number := number } value state

def decodePad (field : Field) (state : DecodeState) : Bool × DecodeState :=
  let taken := state.bitsTaken % field.params.bits
  if taken = 0 then (true, { state with bitsTaken := 0 })
  else match takeBits source (field.params.bits - taken) state with
    | (false, _, state) => (false, state)
    | (true, _, state) => (true, { state with bitsTaken := 0 })

structure ArrayHeader where
  count : ℕ
  stride : ℕ
  leftover : ℕ

def storePresent (base : ℕ) (member : Member) (raw : ℕ) (state : DecodeState) :
    Bool × DecodeState :=
  if memberIsPresent member then storeTo base member raw state else (true, state)

def decodeArrayCount (field : Field) (state : DecodeState) : Option (ArrayHeader × DecodeState) :=
  if field.params.countLength = 0 then
    let remaining := readerRemaining source state
    some (⟨remaining / field.params.stride, field.params.stride,
      remaining % field.params.stride⟩, state)
  else (readNumber source field.params.countLength state).map fun (count, state) =>
    (⟨count, field.params.stride, 0⟩, state)

def storeArrayHeader (base : ℕ) (field : Field) (header : ArrayHeader) (state : DecodeState) :
    Option ArrayHeader × DecodeState :=
  match storePresent base field.params.countMember header.count state with
  | (false, state) => (none, state)
  | (true, state) =>
    match storePresent base field.params.strideMember header.stride state with
    | (false, state) => (none, state)
    | (true, state) => (some header, state)

def decodeArrayHeader (base : ℕ) (field : Field) (state : DecodeState) :
    Option ArrayHeader × DecodeState :=
  match decodeArrayCount source field state with
  | none => (none, state)
  | some (header, state) =>
    let strided : Option (ArrayHeader × DecodeState) :=
      if field.params.strideLength = 0 then some (header, state)
      else (readNumber source field.params.strideLength state).map fun (stride, state) =>
        ({ header with stride := stride }, state)
    match strided with
    | none => (none, state)
    | some (header, state) => storeArrayHeader base field header state

def groupRead (group : Option Field) (base : ℕ) (state : DecodeState) : Bool × DecodeState :=
  match group with
  | none => (true, state)
  | some group => storePresent base group.params.present 1 state

def repeatWhile {σ : Type} (step : ℕ → σ → Bool × σ) : ℕ → ℕ → σ → Bool × σ
  | 0, _, state => (true, state)
  | count + 1, i, state => match step i state with
    | (false, state) => (false, state)
    | (true, state) => repeatWhile step count (i + 1) state

def nested (decode : DecodeState → Bool × DecodeState) (state : DecodeState) :
    Bool × DecodeState :=
  match decode { state with optional := false } with
  | (ok, next) => (ok, { next with optional := state.optional })

def decodeElement (decode : DecodeState → Bool × DecodeState) (stride : ℕ) (state : DecodeState) :
    Bool × DecodeState :=
  if stride ≠ 0 ∧ readerRemaining source state < stride then
    (false, { state with incomplete := true })
  else match nested decode state with
    | (false, next) => (false, { next with incomplete := readerIsDone source next })
    | (true, next) =>
      if stride = 0 then (true, next)
      else if state.position + stride ≤ source.body.length then
        (true, { next with position := state.position + stride })
      else (false, { next with incomplete := true })

def decodeElements (decode : ℕ → DecodeState → Bool × DecodeState) (stride count : ℕ)
    (state : DecodeState) : Bool × ℕ × DecodeState :=
  match repeatWhile (fun i (counter, state) =>
      match decodeElement source (decode i) stride state with
      | (true, state) => (true, counter + 1, state)
      | (false, state) => (false, counter, state))
    count 0 (0, { state with memory := Memory.zero }) with
  | (ok, counter, state) => (ok, counter, state)

def decodeArray (base : ℕ) (field : Field) (decode : ℕ → DecodeState → Bool × DecodeState)
    (state : DecodeState) : Bool × DecodeState :=
  match decodeArrayHeader source base field state with
  | (none, state) => (false, state)
  | (some header, state) =>
    let counter := base + field.params.counter.offset
    let state := { state with memory := state.memory.setNumber counter 0 }
    let finish (state : DecodeState) :=
      if header.leftover = 0 then (true, state) else decoderIncomplete source state
    if header.count = 0 then finish state
    else if fieldArrayIsSkipped field header.stride then
      readerSkip source (min (header.count * header.stride % 2 ^ 64)
        (readerRemaining source state)) state
    else match decodeElements source decode header.stride header.count state with
      | (ok, decoded, next) =>
        let block := Pointer.elements next.memory.number next.memory.pointer
        let next := { next with
          memory := (state.memory.setPointer (base + field.member.offset) block).setNumber counter
            (UInt64.ofNat decoded) }
        if ok then finish next else (false, next)

mutual

def decodeFields (base : ℕ) : List Field → List Choice → Option Field → DecodeState →
    Bool × DecodeState
  | [], _, group, state => groupRead group base state
  | field :: rest, choices, group, state =>
    match field.type with
    | .offset =>
      if state.position = field.params.offset then decodeFields base rest choices group state
      else (false, state)
    | .preset => decodeFields base rest choices group state
    | .group =>
      match groupRead group base state with
      | (false, state) => (false, state)
      | (true, state) =>
        if readerIsDone source state then decoderStop source state
        else decodeFields base rest choices (some field)
          { state with
            level := if field.params.since ≠ 0 then field.params.since else state.level
            optional := true }
    | _ =>
      if fieldIsDefined field source.version = false then
        decodeFields base rest choices group state
      else match decodeOne base field choices state with
        | (false, _, state) =>
          if state.optional || state.incomplete then decoderIncomplete source state
          else (false, state)
        | (true, choices, state) =>
          decodeFields base rest choices group
            { state with defined := max state.defined field.params.from }

def decodeOne (base : ℕ) : Field → List Choice → DecodeState → Bool × List Choice × DecodeState
  | ⟨member, type, params, fields⟩, choices, state =>
    let field : Field := ⟨member, type, params, fields⟩
    let value := fieldValue base field
    let decodeList (base : ℕ) (state : DecodeState) :=
      decodeFields base fields (choicesCollect fields []) none
        { state with memory := presetAll base fields state.memory }
    match type with
    | .bits =>
      let (ok, state) := decodeBits source field value state
      (ok, choices, state)
    | .pad =>
      let (ok, state) := decodePad source field state
      (ok, choices, state)
    | .array =>
      let (ok, state) := decodeArray source base field
        (fun i => decodeList (i * member.size)) state
      (ok, choices, state)
    | .vector =>
      let (ok, state) := repeatWhile
        (fun i => nested (decodeList (base + member.offset + i * member.size)))
        params.count 0 state
      (ok, choices, state)
    | .struct =>
      let (ok, state) := nested (decodeList (base + member.offset)) state
      (ok, choices, state)
    | _ =>
      let kept := choiceFind choices (fieldWhenOffset field)
      if params.extended then
        let (ok, state) := decodeExtended source field value kept state
        (ok, choices, state)
      else match decodeValue source field value state with
        | (ok, some raw, state) =>
          (ok, choiceUpdate choices (fieldWhenOffset field) fun c => { c with raw := raw }, state)
        | (ok, none, state) => (ok, choices, state)

end

def decodeList (base : ℕ) (fields : List Field) (state : DecodeState) : Bool × DecodeState :=
  decodeFields source base fields (choicesCollect fields []) none
    { state with memory := presetAll base fields state.memory }

def decoderInitialize (level : ℕ) : DecodeState :=
  ⟨headerSize, 0, 0, 0, false, false, 0, level, false, false, Memory.zero⟩

def fieldsDecode (fields : List Field) (level : ℕ) : Bool × DecodeState :=
  let (ok, state) := decodeList source 0 fields (decoderInitialize level)
  (ok, { state with level := max state.level state.defined })

end OpenDmi

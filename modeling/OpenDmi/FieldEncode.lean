import OpenDmi.Encoder

namespace OpenDmi

open Bytes

variable (encoder : Encoder)

def encodeVersion : ℕ :=
  match encoder.mode with
  | .preserve => encoder.source.version
  | .canonical => encoder.version

def putRaw (width raw : ℕ) (state : EncodeState) : Option EncodeState :=
  if width = 0 ∨ width > 8 then none else some (putBytes encoder (leStore width raw) state)

def peekRaw (width : ℕ) (state : EncodeState) : Option ℕ :=
  if width > 8 then none else (encoderPeek encoder width state).map leLoad

def flushBits : ℕ → EncodeState → EncodeState
  | 0, state => state
  | fuel + 1, state =>
    if 8 ≤ state.bitsCount then
      flushBits fuel { putBytes encoder [UInt8.ofNat state.bitsValue] state with
        bitsValue := state.bitsValue / 256
        bitsCount := state.bitsCount - 8 }
    else state

def putBits (raw bits : ℕ) (state : EncodeState) : EncodeState :=
  flushBits encoder (state.bitsCount + bits)
    { state with
      bitsValue := state.bitsValue + raw % 2 ^ bits * 2 ^ state.bitsCount
      bitsCount := state.bitsCount + bits
      bitsTaken := state.bitsTaken + bits }

def bitsLength (bits : ℕ) (state : EncodeState) : ℕ := (state.bitsCount + bits + 7) / 8

def sourceBits (bits : ℕ) (state : EncodeState) : ℕ :=
  if bitsLength bits state > 8 then 0
  else match encoderPeek encoder (bitsLength bits state) state with
    | none => 0
    | some bytes => leLoad bytes / 2 ^ state.bitsCount % 2 ^ bits

def decodesInto (field : Field) (data : FieldData) (info : Memory) (value : ℕ) : Bool :=
  match fieldApply field data with
  | none => false
  | some writes => writes.all fun (offset, written) => info.holds (value + offset) written

def modelData (field : Field) (info : Memory) (value : ℕ) : Option FieldData :=
  let loaded := memberLoad field.member (info.number value)
  if fieldIsNumeric field ∧ field.member.size ∈ [1, 2, 4, 8] ∧ field.params.unknownRaw ≠ 0 ∧
      loaded = memberMax field.member then
    some { FieldData.empty with number := field.params.unknownRaw }
  else match field.params.encode with
    | some encode => encode (info.shift value)
    | none => match field.type with
      | .string => some { FieldData.empty with string := (info.pointer value).toRef }
      | .binary => some { FieldData.empty with binary := info.loadBinary value }
      | _ => some { FieldData.empty with number := loaded }

def dataBits (field : Field) : ℕ :=
  if field.type = .bits then field.params.bits else fieldWidth field * 8

def dataFits (field : Field) (data : FieldData) : Bool :=
  !(fieldIsNumeric field && 0 < dataBits field && dataBits field < 64 &&
    data.number / 2 ^ dataBits field != 0)

def valueData (field : Field) (info : Memory) (value : ℕ) (original : Option FieldData) :
    Option (FieldData × Bool) :=
  if field.params.decode.isSome ∧ field.params.encode.isNone then none
  else
    let model := (modelData field info value).map fun data =>
      (data, decodesInto field data info value && dataFits field data)
    match original with
    | none => model
    | some original => if decodesInto field original info value then some (original, true) else model

def sourceData (field : Field) (state : EncodeState) : Option FieldData :=
  if encoder.mode ≠ .preserve then none
  else match field.type with
    | .bits =>
      if encoderRemaining encoder state < bitsLength field.params.bits state then none
      else some { FieldData.empty with number := sourceBits encoder field.params.bits state }
    | .string => (encoderPeek encoder 1 state).map fun bytes =>
      { FieldData.empty with
        number := leLoad bytes
        string := entityString encoder.source (leLoad bytes) }
    | .binary => (encoderPeek encoder field.params.length state).map fun bytes =>
      { FieldData.empty with binary := ⟨some state.position, bytes⟩ }
    | _ => (peekRaw encoder (fieldWidth field) state).map fun number =>
      { FieldData.empty with number := number }

def putData (field : Field) (data : FieldData) (state : EncodeState) : Option EncodeState :=
  match field.type with
  | .string =>
    if data.number ≠ 0 ∨ data.string = .null then
      some (putBytes encoder [UInt8.ofNat data.number] state)
    else putString encoder data.string state
  | .binary =>
    if data.binary.bytes = [] then some (encoderCopy encoder field.params.length state)
    else if data.binary.bytes.length < field.params.length then none
    else some (putBytes encoder (data.binary.bytes.take field.params.length) state)
  | _ => putRaw encoder (fieldWidth field) data.number state

def encodeBits (field : Field) (info : Memory) (value : Option ℕ) (state : EncodeState) :
    Option EncodeState :=
  let bits := field.params.bits
  match value with
  | none =>
    let raw := if encoder.mode = .preserve then sourceBits encoder bits state else 0
    some (putBits encoder raw bits state)
  | some value =>
    (valueData field info value (sourceData encoder field state)).map fun (data, _) =>
      putBits encoder data.number bits state

def encodePad (field : Field) (state : EncodeState) : EncodeState :=
  let taken := state.bitsTaken % field.params.bits
  if taken = 0 then { state with bitsTaken := 0 }
  else
    let bits := field.params.bits - taken
    let raw := if encoder.mode = .preserve then sourceBits encoder bits state else 0
    { putBits encoder raw bits state with bitsTaken := 0 }

def loadUuid (info : Memory) (value : ℕ) : List Byte :=
  leStore 8 (info.number value).toNat ++ leStore 8 (info.number (value + 8)).toNat

def bcdSpell : ℕ → ℕ → ℕ × ℕ
  | 0, number => (0, number)
  | nibbles + 1, number =>
    let (digits, left) := bcdSpell nibbles (number / 10)
    (number % 10 + 16 * digits, left)

def encodeBcd (field : Field) (info : Memory) (value width : ℕ) (state : EncodeState) :
    Option EncodeState :=
  let number := memberLoad field.member (info.number value)
  if width > 8 then none
  else if field.params.unknownRaw ≠ 0 ∧ number = memberMax field.member then
    putRaw encoder width field.params.unknownRaw state
  else
    let (digits, left) := bcdSpell (2 * width) number
    if left ≠ 0 then none else putRaw encoder width digits state

def encodeFixed (field : Field) (info : Memory) (value width : ℕ) (state : EncodeState) :
    Option EncodeState :=
  match field.type with
  | .uuid => some (putBytes encoder (uuidSwap (loadUuid info value)) state)
  | .binary => some (putBytes encoder (info.loadBinary value).bytes state)
  | .bcd => encodeBcd encoder field info value width state
  | _ => none

def fieldGoverns (fields : List Field) (field : Field) (offset : ℕ) : Bool :=
  field.member.offset != offset && fields.any fun other => other.params.extended &&
    other.member.offset == field.member.offset && fieldWhenOffset other == offset

def governedFit (all : List Field) (governing : ℕ) (info : Memory) (base offset : ℕ) :
    List (Field × ℕ) → Bool → Option Bool
  | [], fits => some fits
  | (other, i) :: rest, fits =>
    if fits = false then some false
    else if i = governing ∨ other.params.extended = true ∨
        fieldGoverns all other offset = false then
      governedFit all governing info base offset rest fits
    else match valueData other info (base + other.member.offset) none with
      | none => none
      | some (_, exact) => governedFit all governing info base offset rest exact

def encodeGoverning (all : List Field) (index : ℕ) (field : Field) (info : Memory) (base : ℕ)
    (choice : Choice) (original : Option FieldData) (data : FieldData) (exact : Bool)
    (choices : List Choice) (state : EncodeState) : Option (List Choice × EncodeState) := do
  let fits := exact && data.number != choice.whenRaw
  let fits ← if fits then governedFit all index info base choice.offset all.zipIdx true
    else some false
  let extended := !fits || original.any (·.number == choice.whenRaw)
  let data := if extended then { data with number := choice.whenRaw } else data
  let state ← putData encoder field data state
  return (choiceUpdate choices choice.offset fun c => { c with extended := extended }, state)

def encodePlain (all : List Field) (field : Field) (choices : List Choice) (width : ℕ)
    (data : FieldData) (state : EncodeState) : Option EncodeState :=
  let other := all.find? fun other =>
    other.params.extended && other.member.offset == field.member.offset
  match other.bind fun other => choiceFind choices (fieldWhenOffset other) with
  | some governing =>
    if governing.extended then
      if encoder.mode = .preserve then some (encoderCopy encoder width state)
      else putData encoder field { data with number := governing.whenRaw } state
    else putData encoder field data state
  | none => putData encoder field data state

def encodeValue (all : List Field) (index : ℕ) (base : ℕ) (field : Field) (info : Memory)
    (choices : List Choice) (state : EncodeState) : Option (List Choice × EncodeState) :=
  let width := fieldWidth field
  let value := base + field.member.offset
  let remaining := encoderRemaining encoder state
  if encoder.mode = .preserve ∧ remaining < width then
    some (choices, encoderCopy encoder remaining { state with stopped := true })
  else if fieldIsFixed field then
    (encodeFixed encoder field info value width state).map fun state => (choices, state)
  else
    let source := sourceData encoder field state
    let choice := choiceFind choices (fieldWhenOffset field)
    if field.params.extended = true ∧ choice.all (·.extended == false) then
      some (choices, encoderCopy encoder width state)
    else match valueData field info value source with
      | none => none
      | some (data, exact) =>
        if field.params.extended then
          (putData encoder field data state).map fun state => (choices, state)
        else match choice with
          | some choice =>
            encodeGoverning encoder all index field info base choice source data exact choices state
          | none =>
            (encodePlain encoder all field choices width data state).map fun state =>
              (choices, state)

mutual

def fieldsSize : List Field → ℕ → ℕ → ℕ
  | [], size, _ => size
  | field :: rest, size, bits =>
    match field.type with
    | .group | .offset | .preset => fieldsSize rest size bits
    | .bits => fieldsSize rest size (bits + field.params.bits)
    | .pad =>
      let unit := field.params.bits
      fieldsSize rest (size + (bits + unit - 1) / unit * (unit / 8)) 0
    | .skip => fieldsSize rest (size + field.params.length) bits
    | .struct | .vector =>
      let nested := fieldSize field
      if nested = 0 then 0
      else fieldsSize rest
        (size + nested * if field.type = .vector then field.params.count else 1) bits
    | _ => if fieldWidth field = 0 then 0 else fieldsSize rest (size + fieldWidth field) bits

def fieldSize : Field → ℕ
  | ⟨_, _, _, fields⟩ => fieldsSize fields 0 0

end

def encodeArrayCount (base : ℕ) (field : Field) (info : Memory) (counter : ℕ)
    (state : EncodeState) : Option (ℕ × EncodeState) :=
  if field.params.countLength = 0 then some (counter, state)
  else
    let original := if encoder.mode = .preserve then peekRaw encoder field.params.countLength state
      else none
    let count := if memberIsPresent field.params.countMember then
        info.load base field.params.countMember
      else match original with
        | some original => if original > counter then original else counter
        | none => counter
    (putRaw encoder field.params.countLength count state).map fun state => (count, state)

def encodeArrayStride (base : ℕ) (field : Field) (info : Memory) (state : EncodeState) :
    Option (ℕ × EncodeState) :=
  if field.params.strideLength = 0 then some (field.params.stride, state)
  else
    let original := if encoder.mode = .preserve then peekRaw encoder field.params.strideLength state
      else none
    let length := if memberIsPresent field.params.strideMember then
        info.load base field.params.strideMember
      else original.getD (fieldSize field)
    (putRaw encoder field.params.strideLength length state).map fun state => (length, state)

def repeatUntilStopped (step : ℕ → EncodeState → Option EncodeState) :
    ℕ → ℕ → EncodeState → Option EncodeState
  | 0, _, state => some state
  | count + 1, i, state =>
    if state.stopped then some state
    else (step i state).bind (repeatUntilStopped step count (i + 1))

def encodeElement (encode : EncodeState → Option EncodeState) (stride : ℕ) (state : EncodeState) :
    Option EncodeState :=
  (encode state).map fun next =>
    let written := next.written.length - state.written.length
    if next.stopped then next
    else if stride > written then encoderCopy encoder (stride - written) next
    else next

def encodeArray (base : ℕ) (field : Field) (info : Memory)
    (encode : Memory → ℕ → EncodeState → Option EncodeState) (state : EncodeState) :
    Option EncodeState :=
  let counter := (info.number (base + field.params.counter.offset)).toNat
  let elements := (info.pointer (base + field.member.offset)).block
  let remaining := encoderRemaining encoder state
  if encoder.mode = .preserve ∧ remaining < field.params.countLength + field.params.strideLength then
    some (encoderCopy encoder remaining { state with stopped := true })
  else do
    let (count, state) ← encodeArrayCount encoder base field info counter state
    let (stride, state) ← encodeArrayStride encoder base field info state
    if fieldArrayIsSkipped field stride then
      let remaining := encoderRemaining encoder state
      let length := if stride ≠ 0 ∧ count > remaining / stride then remaining
        else count * stride % 2 ^ 64
      return encoderCopy encoder length state
    else
      repeatUntilStopped (fun i => encodeElement encoder (encode elements i) stride) counter 0 state

def groupEnds (base : ℕ) (group : Field) (info : Memory) (state : EncodeState) : Bool :=
  groupIsAbsent base group info ||
    match encoder.mode with
    | .preserve => encoderRemaining encoder state == 0
    | .canonical => group.params.since != 0 && encoder.version < group.params.since

mutual

def encodeFields (base : ℕ) (info : Memory) (all : List Field) : List Field → List Choice →
    EncodeState → Option EncodeState
  | [], _, state => some state
  | field :: rest, choices, state =>
    if state.stopped then some state
    else match field.type with
    | .offset =>
      if state.written.length = field.params.offset then
        encodeFields base info all rest choices state
      else none
    | .preset => encodeFields base info all rest choices state
    | .group => encodeFields base info all rest choices
      { state with stopped := groupEnds encoder base field info state }
    | _ =>
      if fieldIsDefined field (encodeVersion encoder) = false then
        encodeFields base info all rest choices state
      else
        (encodeOne base info all (all.length - rest.length - 1) field choices state).bind
          fun (choices, state) => encodeFields base info all rest choices state

def encodeOne (base : ℕ) (info : Memory) (all : List Field) (index : ℕ) :
    Field → List Choice → EncodeState → Option (List Choice × EncodeState)
  | ⟨member, type, params, fields⟩, choices, state =>
    let field : Field := ⟨member, type, params, fields⟩
    let encodeList (info : Memory) (base : ℕ) :=
      encodeFields base info fields fields (choicesCollect fields [])
    match type with
    | .bits => (encodeBits encoder field info (fieldValue base field) state).map (choices, ·)
    | .pad => some (choices, encodePad encoder field state)
    | .array =>
      (encodeArray encoder base field info
        (fun elements i => encodeList elements (i * member.size)) state).map (choices, ·)
    | .vector =>
      (repeatUntilStopped (fun i => encodeList info (base + member.offset + i * member.size))
        params.count 0 state).map (choices, ·)
    | .struct => (encodeList info (base + member.offset) state).map (choices, ·)
    | .skip => some (choices, encoderCopy encoder params.length state)
    | _ => encodeValue encoder all index base field info choices state

end

def encodeList (base : ℕ) (info : Memory) (fields : List Field) (state : EncodeState) :
    Option EncodeState :=
  encodeFields encoder base info fields fields (choicesCollect fields []) state

def fieldsEncode (fields : List Field) (info : Memory) : Option (List Byte) := do
  let state ← encodeList encoder 0 info fields (encoderInitialize encoder)
  encoderFinish encoder (encoderCopy encoder (encoderRemaining encoder state) state)

end OpenDmi

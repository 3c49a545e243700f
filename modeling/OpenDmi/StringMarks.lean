import OpenDmi.DecodeAttempt
import OpenDmi.DecodeArrays
import OpenDmi.StringSet

/-! The marks of the strings which have been read, and all that reads the strings of a structure. -/

namespace OpenDmi

open Bytes

def stringMark (count num : ℕ) (used : List ℕ) : List ℕ :=
  if num = 0 ∨ num > count then used else num :: used

def entityStringRead (entity : Entity) (num : ℕ) (raw : Bool) (used : List ℕ) :
    Option (List Byte) × List ℕ :=
  (entityStringEx entity num raw, stringMark entity.strings.length num used)

section Signatures

def signatureFits (entity : Entity) (signature : Signature) : Bool :=
  (signature.length == 0 || entity.bodyLength == signature.length) &&
  match signature.bytes with
  | none => true
  | some bytes =>
    signature.offset + bytes.length ≤ entity.bodyLength &&
      window (entityBuffer entity).data (entityOffset entity + signature.offset) bytes.length
        == bytes

/-- A signature is compared in order: the string is read only when the bytes are the ones of it. -/
def entitySignatureTry (entity : Entity) (signature : Option Signature) (used : List ℕ) :
    Bool × List ℕ :=
  match signature with
  | none => (false, used)
  | some signature =>
    let countFits := !(signature.noStrings && entity.strings.length != 0)
    if signatureFits entity signature = false then (false, used)
    else if signature.string = 0 then (countFits, used)
    else match entityStringRead entity signature.string true used with
      | (text, used) => match text, signature.text with
        | some text, some expected => (text == expected && countFits, used)
        | _, _ => (false, used)

variable (context : Context) (entity : Entity)

def candidatesTry : List ℕ → List ℕ → Option ℕ × List ℕ
  | [], used => (none, used)
  | spec :: rest, used =>
    match entitySignatureTry entity (context.specParams spec).signature used with
    | (true, used) => (some spec, used)
    | (false, used) => candidatesTry rest used

def entitySpecTry (used : List ℕ) : Option ℕ × List ℕ :=
  if entity.typeId > typeIdMax then (none, used)
  else match candidatesTry context entity (context.typeMap entity.typeId).signed used with
    | (some spec, used) => (some spec, used)
    | (none, used) => ((context.typeMap entity.typeId).plain, used)

end Signatures

section Fields

variable (source : Source)

def valueMark (field : Field) (state : DecodeState) (used : List ℕ) : List ℕ :=
  match field.type with
  | .string => match readerGet source 1 state with
    | none => used
    | some (bytes, _) => stringMark source.strings.length (leLoad bytes) used
  | _ => used

def repeatMark {σ : Type} (step : ℕ → σ → Bool × σ) (mark : ℕ → σ → List ℕ → List ℕ) :
    ℕ → ℕ → σ → List ℕ → List ℕ
  | 0, _, _, used => used
  | count + 1, i, state, used => match step i state with
    | (false, _) => mark i state used
    | (true, next) => repeatMark step mark count (i + 1) next (mark i state used)

def elementMark (mark : DecodeState → List ℕ → List ℕ) (stride : ℕ) (state : DecodeState)
    (used : List ℕ) : List ℕ :=
  if stride ≠ 0 ∧ readerRemaining source state < stride then used
  else mark { state with optional := false } used

def arrayMark (base : ℕ) (field : Field) (decode : ℕ → DecodeState → Bool × DecodeState)
    (mark : ℕ → DecodeState → List ℕ → List ℕ) (state : DecodeState) (used : List ℕ) : List ℕ :=
  match decodeArrayHeader source base field state with
  | (none, _) => used
  | (some header, state) =>
    if header.count = 0 ∨ fieldArrayIsSkipped field header.stride = true then used
    else repeatMark (elementStep source decode header.stride)
      (fun i s => elementMark source (mark i) header.stride s.2) header.count 0
      (0, { state with memory := Memory.zero }) used

mutual

def fieldsMark (base : ℕ) : List Field → List Choice → Option Field → DecodeState → List ℕ →
    List ℕ
  | [], _, _, _, used => used
  | field :: rest, choices, group, state, used =>
    match field.type with
    | .offset =>
      if state.position = field.params.offset then fieldsMark base rest choices group state used
      else used
    | .preset => fieldsMark base rest choices group state used
    | .group =>
      match groupRead group base state with
      | (false, _) => used
      | (true, state) =>
        if readerIsDone source state then used
        else fieldsMark base rest choices (some field)
          { state with
            level := if field.params.since ≠ 0 then field.params.since else state.level
            optional := true } used
    | _ =>
      if fieldIsDefined field source.version = false then
        fieldsMark base rest choices group state used
      else match decodeOne source base field choices state with
        | (false, _, _) => oneMark base field state used
        | (true, choices, next) =>
          fieldsMark base rest choices group
            { next with defined := max next.defined field.params.from }
            (oneMark base field state used)

def oneMark (base : ℕ) : Field → DecodeState → List ℕ → List ℕ
  | ⟨member, type, params, fields⟩, state, used =>
    let field : Field := ⟨member, type, params, fields⟩
    let listMark (base : ℕ) (state : DecodeState) (used : List ℕ) :=
      fieldsMark base fields (choicesCollect fields []) none
        { state with memory := presetAll base fields state.memory } used
    match type with
    | .bits => used
    | .pad => used
    | .array => arrayMark source base field
        (fun i => decodeList source (i * member.size) fields)
        (fun i => listMark (i * member.size)) state used
    | .vector => repeatMark
        (fun i => nested (decodeList source (base + member.offset + i * member.size) fields))
        (fun i state => listMark (base + member.offset + i * member.size)
          { state with optional := false })
        params.count 0 state used
    | .struct => listMark (base + member.offset) { state with optional := false } used
    | _ => valueMark source field state used

end

def listMark (base : ℕ) (fields : List Field) (state : DecodeState) (used : List ℕ) : List ℕ :=
  fieldsMark source base fields (choicesCollect fields []) none
    { state with memory := presetAll base fields state.memory } used

def fieldsDecodeMark (fields : List Field) (level : ℕ) (used : List ℕ) : List ℕ :=
  listMark source 0 fields (decoderInitialize level) used

end Fields

section Calls

/-- What a derivation reads of the strings: nothing, as many of them as a member counts, or the one
the eighth byte of the structure names. -/
inductive DeriveStrings
  | nothing
  | counted (counter : ℕ)
  | romFileName
  deriving DecidableEq

def deriveStrings (entity : Entity) (memory : Memory) : DeriveStrings → List ℕ
  | .nothing => []
  | .counted counter =>
    (List.range (memory.number counter).toNat).map fun i => (i + 1) % 256
  | .romFileName =>
    -- The name is read of the bytes as they have come, without additional information
    if entity.bodyLength > 7 then [(entity.buffer.data.getD (entity.offset + 7) 0).toNat] else []

structure StringReaders where
  decode : ℕ → Source → ℕ → List ℕ
  derive : ℕ → DeriveStrings

def stringMarks (count : ℕ) (numbers used : List ℕ) : List ℕ :=
  numbers.foldl (fun used num => stringMark count num used) used

variable (setting : DecodeSetting) (readers : StringReaders)

def decoderMark (n : ℕ) (entity : Entity) (used : List ℕ) : List ℕ :=
  let spec := setting.specs n
  let source := entitySource entity setting.version
  match spec.decode, spec.fields with
  | none, some fields => fieldsDecodeMark source fields spec.params.minimumVersion used
  | _, _ => stringMarks entity.strings.length
      (readers.decode n source spec.params.minimumVersion) used

def decodeReadMark (n : ℕ) (decode : Source → ℕ → Bool × DecodeState) (entity : Entity)
    (used : List ℕ) : List ℕ :=
  let spec := setting.specs n
  let used := decoderMark setting readers n entity used
  match decode (entitySource entity setting.version) spec.params.minimumVersion, spec.derive with
  | (true, state), some derive =>
    if (derive entity state.memory).1 then
      stringMarks entity.strings.length
        (deriveStrings entity state.memory (readers.derive n)) used
    else used
  | _, _ => used

def entityDecodeMark (resources : Resources) (attempt : Attempt) (used : List ℕ) : List ℕ :=
  if attempt.isDecoded then used
  else match entitySpecTry setting.context attempt.entity used with
    | (none, used) => used
    | (some n, used) =>
      let spec := setting.specs n
      let entity := { attempt.entity with spec := some n }
      if isShort spec entity then used
      else match specDecode spec with
        | none => used
        | some decode =>
          if needsCopy setting entity && !resources.copies then used
          else if !resources.allocates then used
          else decodeReadMark setting readers n decode (withCopy setting entity) used

structure StringUse where
  attempt : Attempt
  used : List ℕ

inductive EntityCall
  | name
  | type
  | decode (resources : Resources)
  | encode
  | link

/-- The specifications are tried as long as none is bound. Encoding goes by the entries of the
strings themselves, and linking by the members which have been decoded. -/
def entityCall (use : StringUse) : EntityCall → StringUse
  | .name | .type => match use.attempt.entity.spec with
    | some _ => use
    | none => { use with used := (entitySpecTry setting.context use.attempt.entity use.used).2 }
  | .decode resources =>
    ⟨(use.attempt.entityDecode setting resources).2,
      entityDecodeMark setting readers resources use.attempt use.used⟩
  | .encode | .link => use

def entityCalls (use : StringUse) (calls : List EntityCall) : StringUse :=
  calls.foldl (entityCall setting readers) use

def untouched (entity : Entity) : StringUse :=
  ⟨⟨{ entity with spec := none, overlay := none }, none, 0, false, false, false⟩, []⟩

end Calls

end OpenDmi

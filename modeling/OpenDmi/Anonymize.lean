import OpenDmi.Attribute
import OpenDmi.FieldEncode
import OpenDmi.Occurrences
import OpenDmi.Patches
import OpenDmi.Registry
import OpenDmi.Replacement

/-! Anonymization of a table: private values are replaced where they are, and then wherever the
strings and the bodies of the structures hold them. -/

namespace OpenDmi

open Bytes Occurrences

structure AnonymizeValue where
  data : List Byte
  replacement : List Byte
  propagate : Bool
  deriving DecidableEq

/-- The copy of the table, told by what has been written over the source. -/
structure Anonymizer where
  patches : List (Patch Byte)
  values : List AnonymizeValue
  deriving DecidableEq

inductive Coding
  | fields (fields : List Field)
  | handler (encode : Encoder → Memory → Option EncodeState)

structure Decoded where
  info : Memory
  attributes : List Attribute
  coding : Coding

structure AnonymizeContext where
  source : Buffer
  registry : Registry
  overlaid : Bool
  version : ℕ
  decoded : Entity → Option Decoded
  key : AnonymizeKey

def substringMin : ℕ := 4
def patternMin : ℕ := 6
def anonymizeMemberMax : ℕ := 16

variable (cx : AnonymizeContext)

def anonymizeTable (anon : Anonymizer) : List Byte := Patch.applyAll cx.source.data anon.patches

def anonymizeAdd (data replacement : List Byte) (propagate : Bool) (anon : Anonymizer) :
    Anonymizer :=
  if data = [] ∨ anonymizeIsBlank data then anon
  else if anon.values.any (·.data == data) then
    { anon with values := anon.values.map fun value =>
        if value.data = data then { value with propagate := value.propagate || propagate }
        else value }
  else { anon with values := anon.values ++ [⟨data, replacement, propagate⟩] }

def strstr (raw text : List Byte) : Option ℕ :=
  (List.range (raw.length + 1)).find? fun i => OccursAt raw text i

def anonymizeRawString (entity : Entity) (entry : Option ℕ) (text replacement : List Byte)
    (anon : Anonymizer) : Anonymizer :=
  match entry.bind fun i => entity.strings[i]? with
  | none => anon
  | some string => match strstr string.raw text with
    | none => anon
    | some found => { anon with patches := anon.patches ++ [⟨string.offset + found, replacement⟩] }

def anonymizeMemberString (entity : Entity) (text : Ref) (anon : Anonymizer) : Anonymizer :=
  match text with
  | .text entry text =>
    if stringIsPlaceholder text then anon
    else if text = [] ∨ anonymizeIsBlank text then anon
    else
      let replacement := anonymizeText cx.key text
      anonymizeAdd text replacement (anonymizeIsIdentifier text)
        (anonymizeRawString entity entry text replacement anon)
  | _ => anon

def anonymizeMemberBinary (entity : Entity) (attr : Attribute) (binary : Binary)
    (anon : Anonymizer) : Anonymizer :=
  if binary.bytes = [] ∨ anonymizeIsBlank binary.bytes then anon
  else match binary.position with
    | none => anon
    | some position =>
      let offset := entity.offset + position
      if offset + binary.bytes.length > cx.source.length then anon
      else
        let keep := if attr.isMac then 3 else 0
        let keep := if keep ≥ binary.bytes.length then 0 else keep
        let replacement := anonymizeBytes cx.key binary.bytes keep
        anonymizeAdd binary.bytes replacement true
          { anon with patches := anon.patches ++ [⟨offset, replacement⟩] }

def anonymizeScalar (attr : Attribute) (bytes : List Byte) : List Byte :=
  let replaced := anonymizeBytes cx.key bytes 0
  let replaced := if attr.type = .uuid then anonymizeUuidKeep bytes replaced else replaced
  -- A replacement must not stand for "unspecified" itself
  if anonymizeIsBlank replaced then replaced.set 0 (replaced.getD 0 0 ^^^ 1) else replaced

structure AnonymizeWalk where
  anon : Anonymizer
  saved : List (List Byte)
  changed : Bool

def anonymizeMemberScalar (attr : Attribute) (offset : ℕ) (state : AnonymizeWalk × Memory) :
    AnonymizeWalk × Memory :=
  let (walk, info) := state
  let size := attr.value.size
  if size = 0 ∨ size > anonymizeMemberMax then state
  else
    let bytes := memberBytes info offset size
    if anonymizeIsBlank bytes then state
    else ({ walk with saved := walk.saved ++ [bytes], changed := true },
      memberWrite info offset (anonymizeScalar cx attr bytes))

def anonymizeVisit (entity : Entity) (attr : Attribute) (offset : ℕ)
    (state : AnonymizeWalk × Memory) : Option (AnonymizeWalk × Memory) :=
  let (walk, info) := state
  if attr.isPrivate = false then some state
  else if attributeIsUnspecified attr info offset || attributeIsUnknown attr info offset then
    some state
  else match attr.type with
    | .string => some ({ walk with
        anon := anonymizeMemberString cx entity (info.pointer offset).toRef walk.anon }, info)
    | .binary => some ({ walk with
        anon := anonymizeMemberBinary cx entity attr (info.loadBinary offset) walk.anon }, info)
    | .uuid | .integer => some (anonymizeMemberScalar cx attr offset state)
    | _ => some state

def entityEncode (encoder : Encoder) (coding : Coding) (info : Memory) : Option (List Byte) :=
  match coding with
  | .fields fields => fieldsEncode encoder fields info
  | .handler encode => (encode encoder info).bind fun state =>
    encoderFinish encoder (encoderCopy encoder (encoderRemaining encoder state) state)

def anonymizeWrite (entity : Entity) (coding : Coding) (info : Memory) (anon : Anonymizer) :
    Option Anonymizer :=
  match entityEncode ⟨entitySource entity cx.version, .preserve, 0⟩ coding info with
  | none => none
  | some body =>
    if body.length ≠ entity.bodyLength ∨ entity.offset + entity.bodyLength > cx.source.length then
      none
    else some { anon with patches := anon.patches ++ [⟨entity.offset, body⟩] }

def anonymizeFind (source result saved : List Byte) (length : ℕ) : Option ℕ :=
  (List.range (length + 1)).find? fun pos =>
    pos + saved.length ≤ length && window source pos saved.length == saved &&
      window result pos saved.length != saved

def anonymizeCollect (entity : Entity) (saved : List (List Byte)) (anon : Anonymizer) :
    Anonymizer :=
  let source := cx.source.data.drop entity.offset
  let result := (anonymizeTable cx anon).drop entity.offset
  saved.foldl (fun anon saved =>
    if saved.length < patternMin then anon
    else match anonymizeFind source result saved entity.bodyLength with
      | none => anon
      | some pos => anonymizeAdd saved (window result pos saved.length) true anon) anon

def anonymizeEncode (entity : Entity) (coding : Coding) (info : Memory) (saved : List (List Byte))
    (anon : Anonymizer) : Option Anonymizer :=
  if entity.buffer ≠ cx.source then some anon
  else (anonymizeWrite cx entity coding info anon).map (anonymizeCollect cx entity saved)

def anonymizeEntity (anon : Anonymizer) (entity : Entity) : Option Anonymizer :=
  match cx.decoded entity with
  | none => some anon
  | some decoded =>
    (attributesWalk (anonymizeVisit cx entity) 0 decoded.attributes
      (⟨anon, [], false⟩, decoded.info)).bind fun (walk, info) =>
        if walk.changed then anonymizeEncode cx entity decoded.coding info walk.saved walk.anon
        else some walk.anon

def registryVisit (registry : Registry) : ℕ → RegistryIter → List Entity
  | 0, _ => []
  | fuel + 1, iter =>
    if registryIterHasNext registry iter then
      (registryIterNext registry iter).1.toList ++
        registryVisit registry fuel (registryIterNext registry iter).2
    else []

def anonymizeVisited : List Entity :=
  registryVisit cx.registry (cx.registry.allocated + 1) (registryIterInitialize none)

def anonymizeEntities : Option Anonymizer :=
  (anonymizeVisited cx).foldlM (anonymizeEntity cx) ⟨[], []⟩

def anonymizeLongest (values : List AnonymizeValue) (previous : Option ℕ) : ℕ :=
  values.foldl (fun longest value =>
    if previous.all (value.data.length < ·) ∧ value.data.length > longest then value.data.length
    else longest) 0

def anonymizeReplaceValue (start finish : ℕ) (value : AnonymizeValue) : List (Patch Byte) :=
  (taken cx.source.data value.data finish (finish - start + 1) start).map (⟨·, value.replacement⟩)

/-- The values are looked for in the source, whatever has been written, the longest ones first. No
value is as long as `SIZE_MAX`, which is no limit here. -/
def anonymizeReplace (values : List AnonymizeValue) (start finish minimum : ℕ) :
    ℕ → Option ℕ → List (Patch Byte)
  | 0, _ => []
  | fuel + 1, previous =>
    let longest := anonymizeLongest values previous
    if longest = 0 ∨ longest < minimum then []
    else
      values.flatMap (fun value =>
        if value.propagate = false ∨ value.data.length ≠ longest ∨
            finish - start < value.data.length then []
        else anonymizeReplaceValue cx start finish value) ++
        anonymizeReplace values start finish minimum fuel (some longest)

def anonymizeStrings (values : List AnonymizeValue) (entity : Entity) : List (Patch Byte) :=
  if entity.buffer ≠ cx.source then []
  else entity.strings.flatMap fun string =>
    anonymizeReplace cx values string.offset (string.offset + string.raw.length) substringMin
      (values.length + 1) none

def anonymizeBody (values : List AnonymizeValue) (entity : Entity) : List (Patch Byte) :=
  if entity.buffer ≠ cx.source then []
  else
    let start := entity.offset + headerSize
    let finish := entity.offset + entity.bodyLength
    if finish ≤ start ∨ finish > cx.source.length then []
    else anonymizeReplace cx values start finish patternMin (values.length + 1) none

def anonymizeElsewhere (values : List AnonymizeValue) : List (Patch Byte) :=
  (anonymizeVisited cx).flatMap fun entity =>
    anonymizeStrings cx values entity ++ anonymizeBody cx values entity

def anonymize : Option Anonymizer :=
  if cx.overlaid then none
  else (anonymizeEntities cx).map fun anon =>
    { anon with patches := anon.patches ++ anonymizeElsewhere cx anon.values }

end OpenDmi

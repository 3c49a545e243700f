import OpenDmi.ExportDocument
import OpenDmi.Utf8Repair

universe u

namespace OpenDmi

open Bytes Numeral

inductive JsonScalar
  | string (text : List Byte)
  | integer (n : ℤ)
  | number (text : List Byte)
  | bool (value : Bool)
  | null
  deriving DecidableEq

inductive JsonCall
  | event (event : DocEvent JsonScalar Unit)
  | write

variable {m : Type → Type u} [Monad m] (call : JsonCall → m Bool)

section Helpers

/-- Bytes which are not UTF-8 are replaced. -/
def jsonText (value : List Byte) : List Byte :=
  if utf8IsValidEx none value then value else (utf8RepairEx none value).2

def jsonScalarStr (value : List Byte) : m Bool :=
  call (.event (.scalar (.string (jsonText value))))

def jsonLabel (value : List Byte) : m Bool := jsonScalarStr call value

def jsonScalarInt (value : ℤ) : m Bool := call (.event (.scalar (.integer value)))

def strtoumaxHex (text : List Byte) : ℕ × Bool :=
  let number := value 16 ((text.takeWhile isXdigit).filterMap digitOf)
  if number > uintmaxMax then (uintmaxMax, true) else (number, false)

def jsonScalarNumber (text : List Byte) : m Bool :=
  if text.take 2 = hexPrefix then
    let (number, isOutOfRange) := strtoumaxHex (text.drop 2)
    if isOutOfRange then jsonScalarStr call text
    else call (.event (.scalar (.number (decimalText number))))
  else call (.event (.scalar (.number text)))

def jsonScalarBool (value : Bool) : m Bool := call (.event (.scalar (.bool value)))

def jsonScalarNull : m Bool := call (.event (.scalar .null))

def jsonSequenceStart : m Bool := call (.event (.seqStart ()))

def jsonSequenceEnd : m Bool := call (.event .seqEnd)

def jsonMappingStart : m Bool := call (.event (.mapStart ()))

def jsonMappingEnd : m Bool := call (.event .mapEnd)

def intmaxOf (n : ℕ) : ℤ := (n : ℤ).bmod (2 ^ 64)

end Helpers

section Handlers

variable (session : ExportSession)

def jsonDumpStart : m Bool := jsonMappingStart call

def jsonEntry : m Bool :=
  jsonLabel call (stringBytes "entry") <&&>
  jsonMappingStart call <&&>
  jsonLabel call (stringBytes "smbios-version") <&&>
  jsonScalarStr call (versionFormat session.smbiosVersion) <&&>
  jsonMappingEnd call

def jsonTableStart : m Bool := jsonLabel call (stringBytes "table") <&&> jsonSequenceStart call

def jsonEntityStart (record : EntityRecord) : m Bool :=
  (jsonMappingStart call <&&>
    jsonLabel call (stringBytes "handle") <&&>
    jsonScalarInt call record.entity.handle <&&>
    jsonLabel call (stringBytes "type") <&&>
    jsonScalarInt call record.entity.typeId <&&>
    jsonLabel call (stringBytes "length") <&&>
    jsonScalarInt call (intmaxOf record.entity.totalLength) <&&>
    jsonLabel call (stringBytes "level") <&&>
    (if record.level ≠ versionNoLevel then jsonScalarStr call (versionFormat record.level)
      else jsonScalarNull call) <&&>
    jsonLabel call (stringBytes "state") <&&>
    jsonSequenceStart call) <&&>
  ((entityStateFlags record).allM fun flag =>
    if flag.value then jsonScalarStr call flag.code else pure true) <&&>
  (jsonSequenceEnd call <&&>
    jsonLabel call (stringBytes "description") <&&>
    jsonScalarStr call record.name)

def jsonEntityAttrsStart (_ : EntityRecord) : m Bool :=
  jsonLabel call (stringBytes "attributes") <&&> jsonMappingStart call

def jsonEntityAttrSet (attr : AttributeDesc) (block : Memory) (offset : ℕ) : m Bool :=
  jsonMappingStart call <&&>
  ((formatSetFlags attr block offset).allM fun flag =>
    jsonLabel call flag.code <&&> jsonScalarBool call flag.value) <&&>
  jsonMappingEnd call

def jsonEntityAttrValue (node : WalkNode) : m Bool :=
  if valueIsUnspecified node then jsonScalarNull call
  else if valueIsUnknown node then jsonScalarStr call (stringBytes "unknown")
  else if node.attr.kind = .set then jsonEntityAttrSet call node.attr node.block node.offset
  else match formatAttributeValue session.context node.attr node.block node.offset
      session.pretty with
    | none => pure false
    | some text =>
      match (if session.pretty then .string else formatScalarClassify node.attr.kind text) with
      | .bool => jsonScalarBool call (text = stringBytes "true")
      | .number => jsonScalarNumber call text
      | .string => jsonScalarStr call text

def jsonAttrVisitor : AttributeVisitor m where
  memberStart := some fun node => formatWalk <$> jsonLabel call node.member.params.code
  memberEnd := none
  arrayStart := some fun _ => formatWalk <$> jsonSequenceStart call
  arrayEnd := some fun _ => jsonSequenceEnd call
  itemStart := none
  itemEnd := none
  structStart := some fun _ => formatWalk <$> jsonMappingStart call
  structEnd := some fun _ => jsonMappingEnd call
  value := some (jsonEntityAttrValue call session)

def jsonEntityAttr (_ : EntityRecord) (info : Memory) (attr : AttributeSpec) : m Bool :=
  (jsonAttrVisitor call session).attributeWalk attr info 0

def jsonEntityAttrsEnd (_ : EntityRecord) : m Bool := jsonMappingEnd call

def jsonString (text : Option (List Byte)) : m Bool :=
  match text with
  | none => jsonScalarNull call
  | some text => jsonScalarStr call text

def jsonEntityProperties (record : EntityRecord) : m Bool :=
  (jsonLabel call (stringBytes "properties") <&&> jsonSequenceStart call) <&&>
  (record.properties.allM fun property =>
    jsonMappingStart call <&&>
    jsonLabel call (stringBytes "id") <&&>
    jsonScalarInt call property.ident <&&>
    jsonLabel call (stringBytes "code") <&&>
    jsonString call (codeLookup propertyNames property.ident) <&&>
    jsonLabel call (stringBytes "value") <&&>
    jsonString call property.value <&&>
    jsonMappingEnd call) <&&>
  jsonSequenceEnd call

def jsonEntityOverlays (record : EntityRecord) : m Bool :=
  (jsonLabel call (stringBytes "overlays") <&&> jsonSequenceStart call) <&&>
  (record.overlays.allM fun overlay =>
    match formatOverlayValue overlay session.pretty with
    | none => pure false
    | some value =>
      jsonMappingStart call <&&>
      jsonLabel call (stringBytes "source") <&&>
      jsonScalarInt call overlay.source <&&>
      jsonLabel call (stringBytes "index") <&&>
      jsonScalarInt call (intmaxOf overlay.index) <&&>
      jsonLabel call (stringBytes "offset") <&&>
      jsonScalarInt call overlay.entry.referencedOffset <&&>
      jsonLabel call (stringBytes "value") <&&>
      jsonScalarStr call value <&&>
      jsonLabel call (stringBytes "string") <&&>
      jsonString call (refString overlay.entry.string) <&&>
      jsonMappingEnd call) <&&>
  jsonSequenceEnd call

def jsonEntityData (record : EntityRecord) : m Bool :=
  match base64Encode (entityDataBytes record) with
  | none => pure false
  | some data => jsonLabel call (stringBytes "data") <&&> jsonScalarStr call data

def jsonEntityStrings (record : EntityRecord) : m Bool :=
  if record.entity.strings.isEmpty then pure true
  else
    (jsonLabel call (stringBytes "strings") <&&> jsonSequenceStart call) <&&>
    ((entityStringList record).allM fun text => jsonScalarStr call text) <&&>
    jsonSequenceEnd call

def jsonEntityEnd (_ : EntityRecord) : m Bool := jsonMappingEnd call

def jsonTableEnd : m Bool := jsonSequenceEnd call

def jsonDumpEnd : m Bool := jsonMappingEnd call <&&> call .write

def jsonFormat : Format m where
  dumpStart := some (jsonDumpStart call)
  entry := jsonEntry call session
  tableStart := some (jsonTableStart call)
  entityStart := jsonEntityStart call
  entityAttrsStart := some (jsonEntityAttrsStart call)
  entityAttr := jsonEntityAttr call session
  entityAttrsEnd := some (jsonEntityAttrsEnd call)
  entityProperties := jsonEntityProperties call
  entityOverlays := some (jsonEntityOverlays call session)
  entityData := jsonEntityData call
  entityStrings := jsonEntityStrings call
  entityEnd := jsonEntityEnd call
  tableEnd := some (jsonTableEnd call)
  dumpEnd := some (jsonDumpEnd call)

end Handlers

section Calls

def jsonNumber (text : List Byte) : JsonScalar :=
  if text.take 2 = hexPrefix then
    if (strtoumaxHex (text.drop 2)).2 then .string (jsonText text)
    else .number (decimalText (strtoumaxHex (text.drop 2)).1)
  else .number text

def jsonInteger : ExportInteger → ℕ → ℤ
  | .length, n | .index, n => intmaxOf n
  | .handle, n | .type, n | .property, n | .source, n | .offset, n => n

def jsonScalar : ExportScalar → JsonScalar
  | .null => .null
  | .word text | .string text | .version text | .data text => .string (jsonText text)
  | .flag value | .truth value => .bool value
  | .number text => jsonNumber text
  | .integer kind n => .integer (jsonInteger kind n)

def jsonEvent (event : DocEvent ExportScalar CollectionStyle) : DocEvent JsonScalar Unit :=
  event.relabel jsonScalar fun _ => ()

def jsonEmit : ExportCall → m Bool
  | .start => pure true
  | .event event => call (.event (jsonEvent event))
  | .finish => call .write

omit [Monad m] in
lemma jsonScalarNumber_emit (text : List Byte) :
    jsonScalarNumber call text = call (.event (.scalar (jsonNumber text))) := by
  rw [jsonScalarNumber, jsonNumber]
  split_ifs with hprefix hrange
  · simp only [hrange, if_true]
    rfl
  · simp only [hrange, Bool.false_eq_true, if_false]
  · rfl

lemma jsonString_emit (text : Option (List Byte)) :
    jsonString call text = jsonEmit call (.event (.scalar (stringScalar text))) := by
  cases text <;> rfl

variable [LawfulMonad m] (session : ExportSession)

lemma jsonValue_emit (node : WalkNode) :
    jsonEntityAttrValue call session node =
      plays (jsonEmit call) (docCallsOf (valueDoc session node)) := by
  rw [jsonEntityAttrValue, valueDoc]
  by_cases hunspec : valueIsUnspecified node = true
  · rw [if_pos hunspec, if_pos hunspec, plays_scalar]
    rfl
  rw [if_neg hunspec, if_neg hunspec]
  by_cases hunknown : valueIsUnknown node = true
  · rw [if_pos hunknown, if_pos hunknown, plays_scalar]
    rfl
  rw [if_neg hunknown, if_neg hunknown]
  by_cases hset : node.attr.kind = .set
  · rw [if_pos hset, if_pos hset, jsonEntityAttrSet, plays_flags]
    rfl
  rw [if_neg hset, if_neg hset]
  cases formatAttributeValue session.context node.attr node.block node.offset session.pretty with
  | none => exact (plays_missing (jsonEmit call) []).symm
  | some text =>
    simp only
    rw [plays_scalar, textScalar]
    cases session.pretty with
    | true => rfl
    | false =>
      simp only [Bool.false_eq_true, if_false]
      cases formatScalarClassify node.attr.kind text with
      | string => rfl
      | number => exact jsonScalarNumber_emit call text
      | bool => rfl

lemma jsonVisitor_writes : WritesDoc session (jsonAttrVisitor call session) (jsonEmit call) where
  memberStart _ body := enterThen_format _ body
  memberEnd _ := rfl
  arrayStart _ body := enterThen_format _ body
  arrayEnd _ := rfl
  itemStart _ body := enterThen_resume body
  itemEnd _ := rfl
  structStart _ body := enterThen_format _ body
  structEnd _ := rfl
  value node := jsonValue_emit call session node

lemma jsonEntityStart_emit (record : EntityRecord) :
    jsonEntityStart call record = plays (jsonEmit call) ((docCalls session).entityStart record) := by
  have hlevel : (if record.level ≠ versionNoLevel then jsonScalarStr call (versionFormat record.level)
        else jsonScalarNull call) =
      jsonEmit call (.event (.scalar (if record.level ≠ versionNoLevel
        then versionScalar record.level else .null))) := by
    split_ifs <;> rfl
  have hflags : (entityStateFlags record).allM (fun flag =>
        if flag.value then jsonScalarStr call flag.code else pure true) =
      ((entityStateFlags record).filter FormatFlag.value).allM fun flag =>
        jsonEmit call (.event (.scalar (.word flag.code))) := by
    rw [allM_filter]
    rfl
  simp only [jsonEntityStart, docCalls, headMembers, plays_cons, plays_members_cons,
    plays_members_nil, plays_scalar, plays_seq, hlevel, hflags, Script.andM_assoc,
    Script.andM_true]
  rfl

lemma jsonEntityProperties_emit (record : EntityRecord) :
    jsonEntityProperties call record =
      plays (jsonEmit call) ((docCalls session).entityProperties record) := by
  simp only [jsonEntityProperties, docCalls, propertyDoc, plays_members_cons, plays_members_nil,
    plays_scalar, plays_seq, plays_map, jsonString_emit, Script.andM_assoc, Script.andM_true]
  rfl

lemma jsonEntityOverlays_emit (record : EntityRecord) :
    jsonEntityOverlays call session record =
      plays (jsonEmit call) ((docCalls session).entityOverlays record) := by
  simp only [jsonEntityOverlays, docCalls, plays_members_cons, plays_members_nil, plays_seq,
    Script.andM_assoc, Script.andM_true]
  refine congrArg _ (congrArg _ (congrArg (· <&&> _) (allM_congr fun overlay _ => ?_)))
  obtain ⟨text, htext⟩ := formatOverlayValue_some overlay session.pretty
  simp only [htext, overlayDoc, overlayText, Option.getD_some, plays_map, plays_members_cons,
    plays_members_nil, plays_scalar, jsonString_emit, Script.andM_assoc, Script.andM_true]
  rfl

lemma jsonEntityData_emit (record : EntityRecord) :
    jsonEntityData call record = plays (jsonEmit call) ((docCalls session).entityData record) := by
  obtain ⟨text, htext⟩ := base64Encode_some record
  simp only [jsonEntityData, docCalls, dataText, htext, Option.getD_some, plays_members_cons,
    plays_members_nil, plays_scalar, Script.andM_true]
  rfl

lemma jsonEntityStrings_emit (record : EntityRecord) :
    jsonEntityStrings call record =
      plays (jsonEmit call) ((docCalls session).entityStrings record) := by
  simp only [jsonEntityStrings, docCalls]
  split_ifs
  · rw [plays_nil]
  · simp only [plays_members_cons, plays_members_nil, plays_seq, plays_scalar, Script.andM_assoc,
      Script.andM_true]
    rfl

lemma jsonFormat_plays :
    (jsonFormat call session).Plays (jsonEmit call) (docCalls session) where
  dumpStart := by
    simp only [docCalls, plays_cons, plays_nil, Script.andM_true]
    exact (Script.true_andM _).symm
  entry := by
    simp only [docCalls, plays_members_cons, plays_members_nil, plays_map, plays_scalar,
      Script.andM_true, Script.andM_assoc]
    rfl
  tableStart := by
    simp only [docCalls, plays_cons, plays_nil, scalarCall, Script.andM_true]
    rfl
  entityStart record := jsonEntityStart_emit call session record
  entityAttrsStart record := by
    simp only [docCalls, plays_cons, plays_nil, scalarCall, Script.andM_true]
    rfl
  entityAttr record info attr _ := attributeWalk_doc (jsonVisitor_writes call session) attr info
  entityAttrsEnd record := (plays_single (jsonEmit call) (.event .mapEnd)).symm
  entityProperties record := jsonEntityProperties_emit call session record
  entityOverlays record := jsonEntityOverlays_emit call session record
  entityData record := jsonEntityData_emit call session record
  entityStrings record := jsonEntityStrings_emit call session record
  entityEnd record := (plays_single (jsonEmit call) (.event .mapEnd)).symm
  tableEnd := (plays_single (jsonEmit call) (.event .seqEnd)).symm
  dumpEnd := by
    simp only [docCalls, plays_cons, plays_nil, Script.andM_true]
    rfl

end Calls

def jsonCalls (d : Doc JsonScalar Unit) : List (Option JsonCall) :=
  d.events.map (Option.map .event) ++ [some .write]

def jsonDoc (d : ExportDoc) : Doc JsonScalar Unit := d.relabel jsonScalar fun _ => ()

def registryOf (capacity : ℕ) (entities : List Entity) : Registry :=
  (registryPutAll (registryCreate capacity) entities).2

lemma registryOf_valid (capacity : ℕ) (entities : List Entity) :
    (registryOf capacity entities).Valid :=
  (registryPutAll_valid (registryCreate_valid capacity) entities).1

lemma plays_jsonDoc [LawfulMonad m] (d : ExportDoc) :
    plays (jsonEmit call) (some .start :: (docCallsOf d ++ [some .finish])) =
      plays call (jsonCalls (jsonDoc d)) := by
  have hevents : plays (jsonEmit call) (docCallsOf d) =
      plays call ((jsonDoc d).events.map (Option.map .event)) :=
    plays_relabel jsonScalar (fun _ => ()) JsonCall.event (fun _ => rfl) d
  rw [plays_cons, plays_append, hevents, jsonCalls, plays_append]
  exact (Script.true_andM _).trans (congrArg _ ((plays_single _ _).trans (plays_single _ _).symm))

/-- Exporting a table as JSON makes the calls for one document and nothing else: it goes on until
a call is refused or a value has no text, and what has been written reads back as the document. -/
theorem json_export {γ : Type} (call : JsonCall → StateM γ Bool) (session : ExportSession)
    (dump : Bool) (filter : Filter) (capacity : ℕ) (entities : List Entity)
    (record : ℕ → EntityRecord) :
    let registry := registryOf capacity entities
    let doc := jsonDoc (exportDoc session dump filter registry record)
    printBody (jsonFormat call session) dump filter registry record =
        plays call (jsonCalls doc) ∧
      (doc.complete = true →
        jsonCalls doc = (doc.calls.map JsonCall.event ++ [JsonCall.write]).map some ∧
          Doc.readAll doc.calls = some [doc]) := by
  intro registry doc
  constructor
  · rw [printBody_plays (jsonFormat_plays call session) (registryOf_valid capacity entities),
      bodyCalls_doc, plays_jsonDoc]
  · intro hcomplete
    refine ⟨?_, Doc.readAll_calls hcomplete⟩
    rw [jsonCalls, Doc.events_calls hcomplete, List.map_append, List.map_map, List.map_map]
    rfl

end OpenDmi

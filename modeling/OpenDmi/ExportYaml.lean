import OpenDmi.ExportJson

universe u

namespace OpenDmi

open Bytes Numeral

inductive YamlTag
  | str | int | null | bool | binary
  deriving DecidableEq

inductive YamlStyle
  | plain | singleQuoted | doubleQuoted | literal
  deriving DecidableEq

structure YamlScalar where
  tag : Option YamlTag
  value : List Byte
  style : YamlStyle
  implicit : Bool
  deriving DecidableEq

inductive YamlCall
  | documentStart
  | event (event : DocEvent YamlScalar CollectionStyle)
  | documentEnd
  | flush

variable {m : Type → Type u} [Monad m] (call : YamlCall → m Bool)

section Helpers

def yamlSpecial : List (List Byte) :=
  ["y", "Y", "yes", "Yes", "YES", "n", "N", "no", "No", "NO", "true", "True", "TRUE", "false",
    "False", "FALSE", "on", "On", "ON", "off", "Off", "OFF", "null", "Null", "NULL", "~", "<<",
    "="].map stringBytes

def yamlNumberStart : List Byte := stringBytes "0123456789+-."

def yamlNumberChars : List Byte := stringBytes "0123456789abcdefABCDEF_.:+-xobeEtTzZ iInNaA"

def yamlIsPlainString (value : List Byte) : Bool :=
  match value with
  | [] => false
  | c :: _ =>
    if yamlSpecial.contains value then false
    else if c ∉ yamlNumberStart then true
    else (value.takeWhile (· ∈ yamlNumberChars)).length != value.length

def yamlScalar (value : List Byte) (tag : Option YamlTag) (style : YamlStyle) : m Bool :=
  if style = .doubleQuoted ∧ utf8IsValidEx none value = false then
    match base64Encode value with
    | none => pure false
    | some binary => call (.event (.scalar ⟨some .binary, binary, .literal, false⟩))
  else
    let style :=
      if style = .plain ∧ tag = some .str ∧ yamlIsPlainString value = false then .doubleQuoted
      else style
    call (.event (.scalar ⟨tag, value, style, style ≠ .literal⟩))

def yamlLabel (value : List Byte) : m Bool := yamlScalar call value (some .str) .plain

def yamlNull : m Bool := yamlScalar call (stringBytes "null") (some .null) .plain

def yamlSequenceStart (style : CollectionStyle) : m Bool := call (.event (.seqStart style))

def yamlSequenceEnd : m Bool := call (.event .seqEnd)

def yamlMappingStart (style : CollectionStyle) : m Bool := call (.event (.mapStart style))

def yamlMappingEnd : m Bool := call (.event .mapEnd)

def snprintf (size : ℕ) (text : List Byte) : List Byte := text.take (size - 1)

def hexLower (width n : ℕ) : List Byte := hexPrefix ++ (pad width (numeral 16 n)).map lower

end Helpers

section Handlers

variable (session : ExportSession)

def yamlDumpStart : m Bool := call .documentStart <&&> yamlMappingStart call .block

def yamlEntry : m Bool :=
  yamlLabel call (stringBytes "entry") <&&>
  yamlMappingStart call .block <&&>
  yamlLabel call (stringBytes "smbios-version") <&&>
  yamlScalar call (versionFormat session.smbiosVersion) (some .str) .singleQuoted <&&>
  yamlMappingEnd call

def yamlTableStart : m Bool :=
  yamlLabel call (stringBytes "table") <&&> yamlSequenceStart call .block

def yamlEntityStart (record : EntityRecord) : m Bool :=
  let handle := snprintf 8 (hexLower 4 (record.entity.handle % 2 ^ 16))
  let type := snprintf 8 (decimalText record.entity.typeId)
  let length := snprintf 8 (decimalText record.entity.totalLength)
  (yamlMappingStart call .block <&&>
    yamlLabel call (stringBytes "handle") <&&>
    yamlScalar call handle (some .int) .plain <&&>
    yamlLabel call (stringBytes "type") <&&>
    yamlScalar call type (some .int) .plain <&&>
    yamlLabel call (stringBytes "length") <&&>
    yamlScalar call length (some .int) .plain <&&>
    yamlLabel call (stringBytes "level") <&&>
    (if record.level ≠ versionNoLevel then
      yamlScalar call (versionFormat record.level) (some .str) .singleQuoted
      else yamlNull call) <&&>
    yamlLabel call (stringBytes "state") <&&>
    yamlSequenceStart call .flow) <&&>
  ((entityStateFlags record).allM fun flag =>
    if flag.value then yamlScalar call flag.code (some .str) .plain else pure true) <&&>
  (yamlSequenceEnd call <&&>
    yamlLabel call (stringBytes "description") <&&>
    yamlScalar call record.name (some .str) .plain)

def yamlEntityAttrsStart (_ : EntityRecord) : m Bool :=
  yamlLabel call (stringBytes "attributes") <&&> yamlMappingStart call .block

def yamlBool (value : Bool) : List Byte := stringBytes (if value then "true" else "false")

def yamlEntityAttrSet (attr : AttributeDesc) (block : Memory) (offset : ℕ) : m Bool :=
  yamlMappingStart call .block <&&>
  ((formatSetFlags attr block offset).allM fun flag =>
    yamlLabel call flag.code <&&> yamlScalar call (yamlBool flag.value) (some .bool) .plain) <&&>
  yamlMappingEnd call

def yamlEntityAttrValue (node : WalkNode) : m Bool :=
  if valueIsUnspecified node then yamlNull call
  else if valueIsUnknown node then yamlScalar call (stringBytes "unknown") (some .str) .plain
  else if node.attr.kind = .set then yamlEntityAttrSet call node.attr node.block node.offset
  else match formatAttributeValue session.context node.attr node.block node.offset
      session.pretty with
    | none => pure false
    | some text =>
      if session.pretty then yamlScalar call text (some .str) .doubleQuoted
      else if formatScalarClassify node.attr.kind text ≠ .string then
        yamlScalar call text none .plain
      else yamlScalar call text (some .str) .doubleQuoted

def yamlAttrVisitor : AttributeVisitor m where
  memberStart := some fun node => formatWalk <$> yamlLabel call node.member.params.code
  memberEnd := none
  arrayStart := some fun _ => formatWalk <$> yamlSequenceStart call .block
  arrayEnd := some fun _ => yamlSequenceEnd call
  itemStart := none
  itemEnd := none
  structStart := some fun _ => formatWalk <$> yamlMappingStart call .block
  structEnd := some fun _ => yamlMappingEnd call
  value := some (yamlEntityAttrValue call session)

def yamlEntityAttr (_ : EntityRecord) (info : Memory) (attr : AttributeSpec) : m Bool :=
  (yamlAttrVisitor call session).attributeWalk attr info 0

def yamlEntityAttrsEnd (_ : EntityRecord) : m Bool := yamlMappingEnd call

def yamlString (text : Option (List Byte)) : m Bool :=
  match text with
  | none => yamlNull call
  | some text => yamlScalar call text (some .str) .doubleQuoted

def yamlEntityProperties (record : EntityRecord) : m Bool :=
  (yamlLabel call (stringBytes "properties") <&&> yamlSequenceStart call .block) <&&>
  (record.properties.allM fun property =>
    let id := snprintf 8 (hexLower 4 property.ident)
    yamlMappingStart call .block <&&>
    yamlLabel call (stringBytes "id") <&&>
    yamlScalar call id none .plain <&&>
    yamlLabel call (stringBytes "code") <&&>
    yamlString call (codeLookup propertyNames property.ident) <&&>
    yamlLabel call (stringBytes "value") <&&>
    yamlString call property.value <&&>
    yamlMappingEnd call) <&&>
  yamlSequenceEnd call

def yamlEntityOverlays (record : EntityRecord) : m Bool :=
  (yamlLabel call (stringBytes "overlays") <&&> yamlSequenceStart call .block) <&&>
  (record.overlays.allM fun overlay =>
    let source := snprintf 8 (hexLower 4 (overlay.source % 2 ^ 16))
    let index := snprintf 24 (decimalText overlay.index)
    let offset := snprintf 8 (hexLower 2 overlay.entry.referencedOffset)
    match formatOverlayValue overlay session.pretty with
    | none => pure false
    | some value =>
      yamlMappingStart call .block <&&>
      yamlLabel call (stringBytes "source") <&&>
      yamlScalar call source none .plain <&&>
      yamlLabel call (stringBytes "index") <&&>
      yamlScalar call index none .plain <&&>
      yamlLabel call (stringBytes "offset") <&&>
      yamlScalar call offset none .plain <&&>
      yamlLabel call (stringBytes "value") <&&>
      yamlScalar call value (some .str) .doubleQuoted <&&>
      yamlLabel call (stringBytes "string") <&&>
      yamlString call (refString overlay.entry.string) <&&>
      yamlMappingEnd call) <&&>
  yamlSequenceEnd call

def yamlEntityData (record : EntityRecord) : m Bool :=
  match base64Encode (entityDataBytes record) with
  | none => pure false
  | some data =>
    yamlLabel call (stringBytes "data") <&&> yamlScalar call data (some .binary) .literal

def yamlEntityStrings (record : EntityRecord) : m Bool :=
  if record.entity.strings.isEmpty then pure true
  else
    (yamlLabel call (stringBytes "strings") <&&> yamlSequenceStart call .block) <&&>
    ((entityStringList record).allM fun text =>
      yamlScalar call text (some .str) .doubleQuoted) <&&>
    yamlSequenceEnd call

def yamlEntityEnd (_ : EntityRecord) : m Bool := yamlMappingEnd call

def yamlTableEnd : m Bool := yamlSequenceEnd call

def yamlDumpEnd : m Bool := yamlMappingEnd call <&&> call .documentEnd <&&> call .flush

def yamlFormat : Format m where
  dumpStart := some (yamlDumpStart call)
  entry := yamlEntry call session
  tableStart := some (yamlTableStart call)
  entityStart := yamlEntityStart call
  entityAttrsStart := some (yamlEntityAttrsStart call)
  entityAttr := yamlEntityAttr call session
  entityAttrsEnd := some (yamlEntityAttrsEnd call)
  entityProperties := yamlEntityProperties call
  entityOverlays := some (yamlEntityOverlays call session)
  entityData := yamlEntityData call
  entityStrings := yamlEntityStrings call
  entityEnd := yamlEntityEnd call
  tableEnd := some (yamlTableEnd call)
  dumpEnd := some (yamlDumpEnd call)

end Handlers

section Calls

def yamlInteger : ExportInteger → ℕ → YamlScalar
  | .handle, n => ⟨some .int, snprintf 8 (hexLower 4 (n % 2 ^ 16)), .plain, true⟩
  | .type, n | .length, n => ⟨some .int, snprintf 8 (decimalText n), .plain, true⟩
  | .property, n => ⟨none, snprintf 8 (hexLower 4 n), .plain, true⟩
  | .source, n => ⟨none, snprintf 8 (hexLower 4 (n % 2 ^ 16)), .plain, true⟩
  | .index, n => ⟨none, snprintf 24 (decimalText n), .plain, true⟩
  | .offset, n => ⟨none, snprintf 8 (hexLower 2 n), .plain, true⟩

def yamlScalarOf : ExportScalar → YamlScalar
  | .null => ⟨some .null, stringBytes "null", .plain, true⟩
  | .word text =>
    ⟨some .str, text, if yamlIsPlainString text then .plain else .doubleQuoted, true⟩
  | .string text =>
    if utf8IsValidEx none text then ⟨some .str, text, .doubleQuoted, true⟩
    else ⟨some .binary, (base64Encode text).getD [], .literal, false⟩
  | .version text => ⟨some .str, text, .singleQuoted, true⟩
  | .flag value => ⟨some .bool, yamlBool value, .plain, true⟩
  | .truth value => ⟨none, yamlBool value, .plain, true⟩
  | .number text => ⟨none, text, .plain, true⟩
  | .integer kind n => yamlInteger kind n
  | .data text => ⟨some .binary, text, .literal, false⟩

def yamlEvent (event : DocEvent ExportScalar CollectionStyle) :
    DocEvent YamlScalar CollectionStyle := event.relabel yamlScalarOf id

def yamlEmit : ExportCall → m Bool
  | .start => call .documentStart
  | .event event => call (.event (yamlEvent event))
  | .finish => call .documentEnd <&&> call .flush

omit [Monad m]

lemma yamlWord_emit [Monad m] (text : List Byte) :
    yamlScalar call text (some .str) .plain = yamlEmit call (.event (.scalar (.word text))) := by
  rw [yamlScalar, if_neg (by simp)]
  cases hplain : yamlIsPlainString text <;>
    simp [yamlEmit, yamlEvent, DocEvent.relabel, yamlScalarOf, hplain]

lemma base64Encode_invalid {text : List Byte} (h : utf8IsValidEx none text = false) :
    ∃ binary, base64Encode text = some binary := by
  have hne : text ≠ [] := by
    rintro rfl
    rw [utf8IsValidEx] at h
    simp at h
  rw [base64Encode, if_neg (by rw [List.length_eq_zero_iff]; exact hne)]
  exact ⟨_, rfl⟩

lemma yamlQuoted_emit [Monad m] (text : List Byte) :
    yamlScalar call text (some .str) .doubleQuoted =
      yamlEmit call (.event (.scalar (.string text))) := by
  rw [yamlScalar]
  cases hvalid : utf8IsValidEx none text with
  | false =>
    obtain ⟨binary, hbinary⟩ := base64Encode_invalid hvalid
    simp [yamlEmit, yamlEvent, DocEvent.relabel, yamlScalarOf, hvalid, hbinary]
  | true => simp [yamlEmit, yamlEvent, DocEvent.relabel, yamlScalarOf, hvalid]

lemma yamlScalar_asIs [Monad m] (value : List Byte) {tag : Option YamlTag} {style : YamlStyle}
    (hquoted : style ≠ .doubleQuoted) (hplain : style = .plain → tag ≠ some .str) :
    yamlScalar call value tag style =
      call (.event (.scalar ⟨tag, value, style, style ≠ .literal⟩)) := by
  rw [yamlScalar, if_neg (fun h => hquoted h.1)]
  simp only
  rw [if_neg (fun h => hplain h.1 h.2.1)]

lemma yamlBool_classify {kind : AttributeKind} {text : List Byte}
    (h : formatScalarClassify kind text = .bool) :
    yamlBool (decide (text = stringBytes "true")) = text := by
  have htext : text = stringBytes "true" ∨ text = stringBytes "false" := by
    by_contra hnot
    cases kind <;> simp only [formatScalarClassify, if_neg hnot, reduceCtorEq] at h <;>
      split_ifs at h
  obtain rfl | rfl := htext <;> rfl

lemma yamlNull_emit [Monad m] : yamlNull call = yamlEmit call (.event (.scalar .null)) :=
  yamlScalar_asIs call _ (by simp) (by simp)

lemma yamlString_emit [Monad m] (text : Option (List Byte)) :
    yamlString call text = yamlEmit call (.event (.scalar (stringScalar text))) := by
  cases text with
  | none => exact yamlNull_emit call
  | some text => exact yamlQuoted_emit call text

lemma yamlVersion_emit [Monad m] (text : List Byte) :
    yamlScalar call text (some .str) .singleQuoted =
      yamlEmit call (.event (.scalar (.version text))) :=
  yamlScalar_asIs call _ (by simp) (by simp)

lemma yamlFlag_emit [Monad m] (value : Bool) :
    yamlScalar call (yamlBool value) (some .bool) .plain =
      yamlEmit call (.event (.scalar (.flag value))) :=
  yamlScalar_asIs call _ (by simp) (by simp)

lemma yamlBare_emit [Monad m] (text : List Byte) :
    yamlScalar call text none .plain = call (.event (.scalar ⟨none, text, .plain, true⟩)) :=
  yamlScalar_asIs call _ (by simp) (by simp)

lemma yamlTagged_emit [Monad m] (text : List Byte) :
    yamlScalar call text (some .int) .plain =
      call (.event (.scalar ⟨some .int, text, .plain, true⟩)) :=
  yamlScalar_asIs call _ (by simp) (by simp)

lemma yamlData_emit [Monad m] (text : List Byte) :
    yamlScalar call text (some .binary) .literal = yamlEmit call (.event (.scalar (.data text))) :=
  yamlScalar_asIs call _ (by simp) (by simp)

variable [Monad m] [LawfulMonad m] (session : ExportSession)

lemma yamlValue_emit (node : WalkNode) :
    yamlEntityAttrValue call session node =
      plays (yamlEmit call) (docCallsOf (valueDoc session node)) := by
  rw [yamlEntityAttrValue, valueDoc]
  by_cases hunspec : valueIsUnspecified node = true
  · rw [if_pos hunspec, if_pos hunspec, plays_scalar, yamlNull_emit]
  rw [if_neg hunspec, if_neg hunspec]
  by_cases hunknown : valueIsUnknown node = true
  · rw [if_pos hunknown, if_pos hunknown, plays_scalar, yamlWord_emit]
    rfl
  rw [if_neg hunknown, if_neg hunknown]
  by_cases hset : node.attr.kind = .set
  · rw [if_pos hset, if_pos hset, yamlEntityAttrSet, plays_flags]
    simp only [yamlLabel, yamlWord_emit, yamlFlag_emit]
    rfl
  rw [if_neg hset, if_neg hset]
  cases formatAttributeValue session.context node.attr node.block node.offset session.pretty with
  | none => exact (plays_missing (yamlEmit call) []).symm
  | some text =>
    simp only
    rw [plays_scalar, textScalar]
    cases session.pretty with
    | true => exact yamlQuoted_emit call text
    | false =>
      simp only [Bool.false_eq_true, if_false]
      cases hkind : formatScalarClassify node.attr.kind text with
      | string => exact yamlQuoted_emit call text
      | number => exact yamlBare_emit call text
      | bool =>
        have htext := yamlBool_classify hkind
        rw [if_pos (by simp), yamlBare_emit]
        simp only [yamlEmit, yamlEvent, DocEvent.relabel, yamlScalarOf, htext]

lemma yamlVisitor_writes : WritesDoc session (yamlAttrVisitor call session) (yamlEmit call) where
  memberStart node body := by
    rw [← yamlWord_emit]
    exact enterThen_format _ body
  memberEnd _ := rfl
  arrayStart _ body := enterThen_format _ body
  arrayEnd _ := rfl
  itemStart _ body := enterThen_resume body
  itemEnd _ := rfl
  structStart _ body := enterThen_format _ body
  structEnd _ := rfl
  value node := yamlValue_emit call session node

lemma yamlEntityStart_emit (record : EntityRecord) :
    yamlEntityStart call record = plays (yamlEmit call) ((docCalls session).entityStart record) := by
  have hlevel : (if record.level ≠ versionNoLevel
        then yamlScalar call (versionFormat record.level) (some .str) .singleQuoted
        else yamlNull call) =
      yamlEmit call (.event (.scalar (if record.level ≠ versionNoLevel
        then versionScalar record.level else .null))) := by
    split_ifs
    · exact yamlVersion_emit call _
    · exact yamlNull_emit call
  have hflags : (entityStateFlags record).allM (fun flag =>
        if flag.value then yamlEmit call (.event (.scalar (.word flag.code))) else pure true) =
      ((entityStateFlags record).filter FormatFlag.value).allM fun flag =>
        yamlEmit call (.event (.scalar (.word flag.code))) := by
    rw [allM_filter]
  simp only [yamlEntityStart, docCalls, headMembers, plays_cons, plays_members_cons,
    plays_members_nil, plays_scalar, plays_seq, hlevel, yamlLabel, yamlWord_emit, yamlTagged_emit,
    hflags, Script.andM_assoc, Script.andM_true]
  rfl

lemma yamlEntityProperties_emit (record : EntityRecord) :
    yamlEntityProperties call record =
      plays (yamlEmit call) ((docCalls session).entityProperties record) := by
  simp only [yamlEntityProperties, docCalls, propertyDoc, plays_members_cons, plays_members_nil,
    plays_scalar, plays_seq, plays_map, yamlString_emit, yamlLabel, yamlWord_emit, yamlBare_emit,
    Script.andM_assoc, Script.andM_true]
  rfl

lemma yamlEntityOverlays_emit (record : EntityRecord) :
    yamlEntityOverlays call session record =
      plays (yamlEmit call) ((docCalls session).entityOverlays record) := by
  simp only [yamlEntityOverlays, docCalls, plays_members_cons, plays_members_nil, plays_seq,
    yamlLabel, yamlWord_emit, yamlBare_emit, yamlQuoted_emit, yamlString_emit, Script.andM_assoc,
    Script.andM_true]
  refine congrArg _ (congrArg _ (congrArg (· <&&> _) (allM_congr fun overlay _ => ?_)))
  obtain ⟨text, htext⟩ := formatOverlayValue_some overlay session.pretty
  simp only [htext, overlayDoc, overlayText, Option.getD_some, plays_map, plays_members_cons,
    plays_members_nil, plays_scalar, Script.andM_assoc, Script.andM_true]
  rfl

lemma yamlEntityData_emit (record : EntityRecord) :
    yamlEntityData call record = plays (yamlEmit call) ((docCalls session).entityData record) := by
  obtain ⟨text, htext⟩ := base64Encode_some record
  simp only [yamlEntityData, docCalls, dataText, htext, Option.getD_some, plays_members_cons,
    plays_members_nil, plays_scalar, yamlLabel, yamlWord_emit, yamlData_emit, Script.andM_true]
  rfl

lemma yamlEntityStrings_emit (record : EntityRecord) :
    yamlEntityStrings call record =
      plays (yamlEmit call) ((docCalls session).entityStrings record) := by
  simp only [yamlEntityStrings, docCalls]
  split_ifs
  · rw [plays_nil]
  · simp only [plays_members_cons, plays_members_nil, plays_seq, plays_scalar, yamlLabel,
      yamlWord_emit, yamlQuoted_emit, Script.andM_assoc, Script.andM_true]
    rfl

lemma yamlFormat_plays :
    (yamlFormat call session).Plays (yamlEmit call) (docCalls session) where
  dumpStart := by
    simp only [docCalls, plays_cons, plays_nil, Script.andM_true]
    rfl
  entry := by
    simp only [docCalls, plays_members_cons, plays_members_nil, plays_map, plays_scalar,
      Script.andM_true, Script.andM_assoc]
    simp only [yamlFormat, yamlEntry, yamlLabel, yamlWord_emit, yamlVersion_emit]
    rfl
  tableStart := by
    simp only [docCalls, plays_cons, plays_nil, scalarCall, Script.andM_true, word, ← yamlWord_emit]
    rfl
  entityStart record := yamlEntityStart_emit call session record
  entityAttrsStart record := by
    simp only [docCalls, plays_cons, plays_nil, scalarCall, Script.andM_true, word, ← yamlWord_emit]
    rfl
  entityAttr record info attr _ := attributeWalk_doc (yamlVisitor_writes call session) attr info
  entityAttrsEnd record := (plays_single (yamlEmit call) (.event .mapEnd)).symm
  entityProperties record := yamlEntityProperties_emit call session record
  entityOverlays record := yamlEntityOverlays_emit call session record
  entityData record := yamlEntityData_emit call session record
  entityStrings record := yamlEntityStrings_emit call session record
  entityEnd record := (plays_single (yamlEmit call) (.event .mapEnd)).symm
  tableEnd := (plays_single (yamlEmit call) (.event .seqEnd)).symm
  dumpEnd := by
    simp only [docCalls, plays_cons, plays_nil, Script.andM_true]
    rfl

end Calls

def yamlCalls (d : Doc YamlScalar CollectionStyle) : List (Option YamlCall) :=
  some .documentStart :: (d.events.map (Option.map .event) ++ [some .documentEnd, some .flush])

def yamlDoc (d : ExportDoc) : Doc YamlScalar CollectionStyle := d.relabel yamlScalarOf id

lemma plays_yamlDoc [LawfulMonad m] (d : ExportDoc) :
    plays (yamlEmit call) (some .start :: (docCallsOf d ++ [some .finish])) =
      plays call (yamlCalls (yamlDoc d)) := by
  have hevents : plays (yamlEmit call) (docCallsOf d) =
      plays call ((yamlDoc d).events.map (Option.map .event)) :=
    plays_relabel yamlScalarOf id YamlCall.event (fun _ => rfl) d
  rw [plays_cons, plays_append, hevents, plays_single, yamlCalls, plays_cons, plays_append,
    plays_cons, plays_single]
  rfl

theorem yaml_export {γ : Type} (call : YamlCall → StateM γ Bool) (session : ExportSession)
    (dump : Bool) (filter : Filter) (capacity : ℕ) (entities : List Entity)
    (record : ℕ → EntityRecord) :
    let registry := registryOf capacity entities
    let doc := yamlDoc (exportDoc session dump filter registry record)
    printBody (yamlFormat call session) dump filter registry record =
        plays call (yamlCalls doc) ∧
      (doc.complete = true →
        yamlCalls doc = (YamlCall.documentStart :: (doc.calls.map YamlCall.event ++
            [YamlCall.documentEnd, YamlCall.flush])).map some ∧
          Doc.readAll doc.calls = some [doc]) := by
  intro registry doc
  constructor
  · rw [printBody_plays (yamlFormat_plays call session) (registryOf_valid capacity entities),
      bodyCalls_doc, plays_yamlDoc]
  · intro hcomplete
    refine ⟨?_, Doc.readAll_calls hcomplete⟩
    rw [yamlCalls, Doc.events_calls hcomplete, List.map_cons, List.map_append, List.map_map,
      List.map_map]
    rfl

end OpenDmi

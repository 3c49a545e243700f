import OpenDmi.ExportYaml
import OpenDmi.MarkupTree

universe u

namespace OpenDmi

open Bytes Numeral

/-- Names of a prefix are in the namespace which the outermost element declares. -/
inductive XmlSpace
  | plain | prefixed | declared
  deriving DecidableEq

structure XmlTag where
  space : XmlSpace
  name : List Byte
  deriving DecidableEq

/-- A content which is none is a null pointer. -/
inductive XmlAttr
  | whole (name : List Byte) (content : Option (List Byte))
  | located (name content : List Byte)
  | pieces (name : List Byte) (texts : List (List Byte))
  deriving DecidableEq

inductive XmlContent
  | text (text : List Byte)
  | data (bytes : List Byte)
  deriving DecidableEq

/-- The end of the document closes the elements which are open. -/
inductive XmlClosing
  | short | full | document
  deriving DecidableEq

inductive XmlCall
  | startDocument
  | startElement (tag : XmlTag)
  | writeAttribute (name : List Byte) (content : Option (List Byte))
  | writeAttributeNs (name content : List Byte)
  | startAttribute (name : List Byte)
  | endAttribute
  | writeString (text : List Byte)
  | startCdata
  | writeBase64 (bytes : List Byte)
  | endCdata
  | endElement
  | fullEndElement
  | endDocument
  | flush

abbrev XmlDoc := Markup XmlTag XmlAttr XmlContent XmlClosing

abbrev XmlEvent := MarkupEvent XmlTag XmlAttr XmlContent XmlClosing

structure BrokenTime where
  year : ℕ
  month : ℕ
  day : ℕ
  hour : ℕ
  minute : ℕ
  second : ℕ

structure XmlSession extends ExportSession where
  now : Option BrokenTime

variable {m : Type → Type u} [Monad m] (call : XmlCall → m Bool)

section Helpers

def xmlIsChar (code : ℕ) : Bool :=
  if code < 0x20 then code = 0x09 || code = 0x0A || code = 0x0D
  else code ≠ 0xFFFE && code ≠ 0xFFFF

def xmlRepaired (str : List Byte) : List Byte :=
  if utf8IsValidEx (some xmlIsChar) str then str else (utf8RepairEx (some xmlIsChar) str).2

def xmlText (str : List Byte) : m Bool := call (.writeString (xmlRepaired str))

def xmlData (data : List Byte) : m Bool :=
  call .startCdata <&&> call (.writeBase64 data) <&&> call .endCdata

def xmlStart (space : XmlSpace) (name : List Byte) : m Bool := call (.startElement ⟨space, name⟩)

def xmlAttribute (name : String) (content : List Byte) : m Bool :=
  call (.writeAttribute (stringBytes name) (some content))

def createdAt (time : BrokenTime) : List Byte :=
  decimalTextPadded 4 time.year ++ stringBytes "-" ++ decimalTextPadded 2 time.month ++
    stringBytes "-" ++ decimalTextPadded 2 time.day ++ stringBytes "T" ++
    decimalTextPadded 2 time.hour ++ stringBytes ":" ++ decimalTextPadded 2 time.minute ++
    stringBytes ":" ++ decimalTextPadded 2 time.second ++ stringBytes "Z"

def xmlSchemaLocation : List Byte :=
  stringBytes "https://opendmi.org/schemas/opendmi.xsd https://opendmi.org/schemas/opendmi.xsd"

end Helpers

section Handlers

variable (session : XmlSession)

def xmlDumpStart : m Bool :=
  match session.now with
  | none => pure false
  | some time =>
    call .startDocument <&&>
    xmlStart call .declared (stringBytes "dump") <&&>
    xmlAttribute call "created-at" (createdAt time) <&&>
    call (.writeAttributeNs (stringBytes "schemaLocation") xmlSchemaLocation)

def xmlEntry : m Bool :=
  xmlStart call .prefixed (stringBytes "entry") <&&>
  xmlAttribute call "smbios-version" (versionFormat session.smbiosVersion) <&&>
  xmlAttribute call "table-area-address" (hexLower 1 session.tableAreaAddress) <&&>
  xmlAttribute call "table-area-size" (decimalText session.tableLength) <&&>
  call .endElement

def xmlStateFlags : List FormatFlag → List Byte → m Bool
  | [], _ => pure true
  | flag :: rest, separator =>
    if flag.value then
      call (.writeString (separator ++ flag.code)) <&&> xmlStateFlags rest [0x20]
    else xmlStateFlags rest separator

def xmlEntityStart (record : EntityRecord) : m Bool :=
  (xmlStart call .prefixed (stringBytes "entity") <&&>
    xmlAttribute call "handle" (hexLower 4 (record.entity.handle % 2 ^ 16)) <&&>
    xmlAttribute call "type" (decimalText record.entity.typeId) <&&>
    xmlAttribute call "length" (decimalText record.entity.totalLength) <&&>
    call (.startAttribute (stringBytes "state"))) <&&>
  xmlStateFlags call (entityStateFlags record) [] <&&>
  call .endAttribute

def xmlEntityAttrsStart (record : EntityRecord) : m Bool := xmlStart call .prefixed record.code

def xmlEntityAttrSet (attr : AttributeDesc) (block : Memory) (offset : ℕ) : m Bool :=
  xmlAttribute call "value" (hexLower 1 (valueUint attr block offset)) <&&>
  (formatSetFlags attr block offset).allM fun flag =>
    xmlStart call .plain (stringBytes "flag") <&&>
    xmlAttribute call "name" flag.code <&&>
    call (.writeString (stringBytes (if flag.value then "true" else "false"))) <&&>
    call .endElement

def xmlUnit (session : ExportSession) (unit : ℕ) : Option (List Byte) :=
  if session.pretty then nameLookup session.context unitNames unit
  else codeLookup unitNames unit

def xmlEntityAttrValue (node : WalkNode) : m Bool :=
  if valueIsUnspecified node then pure true
  else if valueIsUnknown node then call (.writeString (stringBytes "unknown"))
  else if node.attr.kind = .set then xmlEntityAttrSet call node.attr node.block node.offset
  else match attributeFormat session.context node.attr node.block node.offset session.pretty with
    | none => pure false
    | some text =>
      (if node.attr.params.unit ≠ unitNone then
        call (.writeAttribute (stringBytes "units")
          (xmlUnit session.toExportSession node.attr.params.unit))
        else pure true) <&&>
      xmlText call text

def xmlAttrVisitor : AttributeVisitor m where
  memberStart := some fun node => formatWalk <$> xmlStart call .plain node.member.params.code
  memberEnd := some fun _ => call .fullEndElement
  arrayStart := none
  arrayEnd := none
  itemStart := some fun _ => formatWalk <$> xmlStart call .plain (stringBytes "item")
  itemEnd := some fun _ => call .fullEndElement
  structStart := none
  structEnd := none
  value := some (xmlEntityAttrValue call session)

def xmlEntityAttr (_ : EntityRecord) (info : Memory) (attr : AttributeSpec) : m Bool :=
  (xmlAttrVisitor call session).attributeWalk attr info 0

def xmlEntityAttrsEnd (_ : EntityRecord) : m Bool := call .fullEndElement

def xmlEntityProperties (record : EntityRecord) : m Bool :=
  xmlStart call .prefixed (stringBytes "properties") <&&>
  (record.properties.allM fun property =>
    xmlStart call .prefixed (stringBytes "property") <&&>
    xmlAttribute call "id" (hexLower 4 property.ident) <&&>
    (match codeLookup propertyNames property.ident with
      | some code => xmlAttribute call "code" code
      | none => pure true) <&&>
    (match property.value with
      | some value => xmlText call value
      | none => pure true) <&&>
    call .fullEndElement) <&&>
  call .fullEndElement

def xmlEntityOverlay (overlay : EntityOverlay) : m Bool :=
  match formatOverlayValue overlay session.pretty with
  | none => pure false
  | some value =>
    xmlStart call .prefixed (stringBytes "overlay") <&&>
    xmlAttribute call "source" (hexLower 4 (overlay.source % 2 ^ 16)) <&&>
    xmlAttribute call "index" (decimalText overlay.index) <&&>
    xmlAttribute call "offset" (hexLower 2 overlay.entry.referencedOffset) <&&>
    xmlStart call .prefixed (stringBytes "value") <&&>
    xmlText call value <&&>
    call .fullEndElement <&&>
    (match refString overlay.entry.string with
      | some text =>
        xmlStart call .prefixed (stringBytes "string") <&&> xmlText call text <&&>
          call .fullEndElement
      | none => pure true) <&&>
    call .fullEndElement

def xmlEntityOverlays (record : EntityRecord) : m Bool :=
  xmlStart call .prefixed (stringBytes "overlays") <&&>
  (record.overlays.allM fun overlay => xmlEntityOverlay call session overlay) <&&>
  call .fullEndElement

def xmlEntityData (record : EntityRecord) : m Bool :=
  xmlStart call .prefixed (stringBytes "data") <&&> xmlData call (entityDataBytes record) <&&>
  call .fullEndElement

def xmlEntityStrings (record : EntityRecord) : m Bool :=
  if record.entity.strings.isEmpty then pure true
  else
    xmlStart call .prefixed (stringBytes "strings") <&&>
    (((entityStringList record).zipIdx 1).allM fun item =>
      xmlStart call .prefixed (stringBytes "string") <&&>
      xmlAttribute call "index" (decimalText item.2) <&&>
      xmlText call item.1 <&&>
      call .fullEndElement) <&&>
    call .fullEndElement

def xmlEntityEnd (_ : EntityRecord) : m Bool := call .fullEndElement

def xmlDumpEnd : m Bool := call .endDocument <&&> call .flush

/-- There is no element for the table. -/
def xmlFormat : Format m where
  dumpStart := some (xmlDumpStart call session)
  entry := xmlEntry call session
  tableStart := none
  entityStart := xmlEntityStart call
  entityAttrsStart := some (xmlEntityAttrsStart call)
  entityAttr := xmlEntityAttr call session
  entityAttrsEnd := some (xmlEntityAttrsEnd call)
  entityProperties := xmlEntityProperties call
  entityOverlays := some (xmlEntityOverlays call session)
  entityData := xmlEntityData call
  entityStrings := xmlEntityStrings call
  entityEnd := xmlEntityEnd call
  tableEnd := none
  dumpEnd := some (xmlDumpEnd call)

end Handlers

section Document

variable (session : XmlSession)

def xmlPrefixed (name : String) (attributes : List XmlAttr) (children : List XmlDoc) : XmlDoc :=
  .element ⟨.prefixed, stringBytes name⟩ attributes children .full

def xmlWhole (name : String) (content : List Byte) : XmlAttr :=
  .whole (stringBytes name) (some content)

def xmlContent (text : List Byte) : XmlDoc := .content (.text (xmlRepaired text))

def xmlValue (node : WalkNode) : List XmlAttr × List XmlDoc :=
  if valueIsUnspecified node then ([], [])
  else if valueIsUnknown node then ([], [.content (.text (stringBytes "unknown"))])
  else if node.attr.kind = .set then
    ([xmlWhole "value" (hexLower 1 (valueUint node.attr node.block node.offset))],
      (formatSetFlags node.attr node.block node.offset).map fun flag =>
        .element ⟨.plain, stringBytes "flag"⟩ [xmlWhole "name" flag.code]
          [.content (.text (stringBytes (if flag.value then "true" else "false")))] .short)
  else match attributeFormat session.context node.attr node.block node.offset session.pretty with
    | none => ([], [.missing])
    | some text =>
      (if node.attr.params.unit ≠ unitNone then
        [.whole (stringBytes "units") (xmlUnit session.toExportSession node.attr.params.unit)]
        else [],
        [xmlContent text])

mutual

def xmlTree : ValueTree → List XmlAttr × List XmlDoc
  | .value node => xmlValue session node
  | .struct _ members => ([], xmlMembers members)
  | .array _ items => ([], xmlItems items)

def xmlMembers : List (WalkNode × ValueTree) → List XmlDoc
  | [] => []
  | (node, tree) :: rest =>
    .element ⟨.plain, node.member.params.code⟩ (xmlTree tree).1 (xmlTree tree).2 .full ::
      xmlMembers rest

def xmlItems : List (WalkNode × ValueTree) → List XmlDoc
  | [] => []
  | (_, tree) :: rest =>
    .element ⟨.plain, stringBytes "item"⟩ (xmlTree tree).1 (xmlTree tree).2 .full ::
      xmlItems rest

end

def xmlStateTexts : List FormatFlag → List Byte → List (List Byte)
  | [], _ => []
  | flag :: rest, separator =>
    if flag.value then (separator ++ flag.code) :: xmlStateTexts rest [0x20]
    else xmlStateTexts rest separator

def xmlHead (record : EntityRecord) : List XmlAttr :=
  [xmlWhole "handle" (hexLower 4 (record.entity.handle % 2 ^ 16)),
    xmlWhole "type" (decimalText record.entity.typeId),
    xmlWhole "length" (decimalText record.entity.totalLength),
    .pieces (stringBytes "state") (xmlStateTexts (entityStateFlags record) [])]

def xmlProperty (property : StringProperty) : XmlDoc :=
  xmlPrefixed "property"
    (xmlWhole "id" (hexLower 4 property.ident) ::
      ((codeLookup propertyNames property.ident).map (xmlWhole "code")).toList)
    (property.value.map xmlContent).toList

def xmlOverlay (overlay : EntityOverlay) : XmlDoc :=
  xmlPrefixed "overlay"
    [xmlWhole "source" (hexLower 4 (overlay.source % 2 ^ 16)),
      xmlWhole "index" (decimalText overlay.index),
      xmlWhole "offset" (hexLower 2 overlay.entry.referencedOffset)]
    (xmlPrefixed "value" [] [xmlContent (overlayText session.toExportSession overlay)] ::
      ((refString overlay.entry.string).map fun text =>
        xmlPrefixed "string" [] [xmlContent text]).toList)

def xmlProperties (record : EntityRecord) : XmlDoc :=
  xmlPrefixed "properties" [] (record.properties.map xmlProperty)

def xmlOverlays (record : EntityRecord) : XmlDoc :=
  xmlPrefixed "overlays" [] (record.overlays.map (xmlOverlay session))

def xmlDataElement (record : EntityRecord) : XmlDoc :=
  xmlPrefixed "data" [] [.content (.data (entityDataBytes record))]

def xmlStrings (record : EntityRecord) : XmlDoc :=
  xmlPrefixed "strings" [] (((entityStringList record).zipIdx 1).map fun item =>
    xmlPrefixed "string" [xmlWhole "index" (decimalText item.2)] [xmlContent item.1])

def xmlBody (dump : Bool) (record : EntityRecord) : List XmlDoc :=
  match shownInfo dump record with
  | some info =>
    .element ⟨.prefixed, record.code⟩ []
      (xmlMembers session (attributesTree (record.attributes.filter (attributeIsPrinted record info))
        info 0)) .full ::
      ((if record.properties.isEmpty then [] else [xmlProperties record]) ++
        (if record.overlays.isEmpty then [] else [xmlOverlays session record]))
  | none =>
    if record.entity.typeId ≠ typeEndOfTable then
      xmlDataElement record ::
        (if record.entity.strings.isEmpty then [] else [xmlStrings record])
    else []

def xmlEntity (dump : Bool) (record : EntityRecord) : XmlDoc :=
  xmlPrefixed "entity" (xmlHead record) (xmlBody session dump record)

def xmlEntryElement : XmlDoc :=
  .element ⟨.prefixed, stringBytes "entry"⟩
    [xmlWhole "smbios-version" (versionFormat session.smbiosVersion),
      xmlWhole "table-area-address" (hexLower 1 session.tableAreaAddress),
      xmlWhole "table-area-size" (decimalText session.tableLength)] [] .short

def xmlDumpAttrs : List XmlAttr :=
  [xmlWhole "created-at" ((session.now.map createdAt).getD []),
    .located (stringBytes "schemaLocation") xmlSchemaLocation]

def xmlDumpTag : XmlTag := ⟨.declared, stringBytes "dump"⟩

def xmlDoc (dump : Bool) (filter : Filter) (registry : Registry) (record : ℕ → EntityRecord) :
    XmlDoc :=
  .element xmlDumpTag (xmlDumpAttrs session)
    (xmlEntryElement session ::
      (printedNumbers filter registry).map fun i => xmlEntity session dump (record i)) .document

end Document

section Steps

inductive XmlStep
  | start
  | event (event : XmlEvent)
  | flush

def xmlEmit : XmlStep → m Bool
  | .start => call .startDocument
  | .event (.start tag) => call (.startElement tag)
  | .event (.attr (.whole name content)) => call (.writeAttribute name content)
  | .event (.attr (.located name content)) => call (.writeAttributeNs name content)
  | .event (.attr (.pieces name texts)) =>
    call (.startAttribute name) <&&> (texts.allM fun text => call (.writeString text)) <&&>
      call .endAttribute
  | .event (.content (.text text)) => call (.writeString text)
  | .event (.content (.data bytes)) =>
    call .startCdata <&&> call (.writeBase64 bytes) <&&> call .endCdata
  | .event (.finish .short) => call .endElement
  | .event (.finish .full) => call .fullEndElement
  | .event (.finish .document) => call .endDocument
  | .flush => call .flush

def xmlSteps (d : XmlDoc) : List (Option XmlStep) := d.events.map (Option.map .event)

def xmlStepsAll (items : List XmlDoc) : List (Option XmlStep) :=
  (Markup.eventsAll items).map (Option.map .event)

def xmlAttrSteps (attributes : List XmlAttr) : List (Option XmlStep) :=
  attributes.map fun a => some (.event (.attr a))

def xmlStarted (tag : XmlTag) : Option XmlStep := some (.event (.start tag))

def xmlFinished (closing : XmlClosing) : Option XmlStep := some (.event (.finish closing))

lemma xmlSteps_element (tag : XmlTag) (attributes : List XmlAttr) (children : List XmlDoc)
    (closing : XmlClosing) :
    xmlSteps (.element tag attributes children closing) = xmlStarted tag ::
      (xmlAttrSteps attributes ++ (xmlStepsAll children ++ [xmlFinished closing])) := by
  rw [xmlSteps, Markup.events, List.map_cons, List.map_append, List.map_append, List.map_map]
  rfl

lemma xmlStepsAll_cons (item : XmlDoc) (rest : List XmlDoc) :
    xmlStepsAll (item :: rest) = xmlSteps item ++ xmlStepsAll rest := by
  rw [xmlStepsAll, Markup.eventsAll, List.map_append]
  rfl

@[simp] lemma xmlStepsAll_nil : xmlStepsAll [] = [] := rfl

lemma xmlStepsAll_append (items rest : List XmlDoc) :
    xmlStepsAll (items ++ rest) = xmlStepsAll items ++ xmlStepsAll rest := by
  rw [xmlStepsAll, Markup.eventsAll_append, List.map_append]
  rfl

lemma xmlStepsAll_map {α : Type} (f : α → XmlDoc) (items : List α) :
    xmlStepsAll (items.map f) = items.flatMap fun a => xmlSteps (f a) := by
  rw [xmlStepsAll, Markup.eventsAll_map, List.map_flatMap]
  rfl

lemma xmlMembers_append (session : XmlSession) (members rest : List (WalkNode × ValueTree)) :
    xmlMembers session (members ++ rest) = xmlMembers session members ++ xmlMembers session rest := by
  induction members with
  | nil => rfl
  | cons member members ih =>
    obtain ⟨node, tree⟩ := member
    rw [List.cons_append, xmlMembers, xmlMembers, ih, List.cons_append]

variable (session : XmlSession)

lemma xmlSteps_attributes (attrs : List AttributeSpec) (info : Memory) :
    xmlStepsAll (xmlMembers session (attributesTree attrs info 0)) =
      attrs.flatMap fun attr => xmlStepsAll (xmlMembers session (attributesTree [attr] info 0)) := by
  induction attrs with
  | nil =>
    rw [attributesTree]
    rfl
  | cons attr attrs ih =>
    rw [attributesTree_cons, xmlMembers_append, xmlStepsAll_append, ih, List.flatMap_cons]

def xmlCallSteps : FormatCalls XmlStep where
  dumpStart := (session.now.map fun _ => .start) :: xmlStarted xmlDumpTag ::
    xmlAttrSteps (xmlDumpAttrs session)
  entry := xmlSteps (xmlEntryElement session)
  tableStart := []
  entityStart record := xmlStarted ⟨.prefixed, stringBytes "entity"⟩ :: xmlAttrSteps (xmlHead record)
  entityAttrsStart record := [xmlStarted ⟨.prefixed, record.code⟩]
  entityAttr _ info attr := xmlStepsAll (xmlMembers session (attributesTree [attr] info 0))
  entityAttrsEnd _ := [xmlFinished .full]
  entityProperties record := xmlSteps (xmlProperties record)
  entityOverlays record := xmlSteps (xmlOverlays session record)
  entityData record := xmlSteps (xmlDataElement record)
  entityStrings record :=
    if record.entity.strings.isEmpty then [] else xmlSteps (xmlStrings record)
  entityEnd _ := [xmlFinished .full]
  tableEnd := []
  dumpEnd := [xmlFinished .document, some .flush]

lemma contentCalls_xml (dump : Bool) (record : EntityRecord) :
    contentCalls (xmlCallSteps session) dump record =
      xmlStepsAll (xmlBody session dump record) := by
  rw [contentCalls, xmlBody]
  cases shownInfo dump record with
  | some info =>
    simp only [xmlCallSteps]
    rw [xmlStepsAll_cons, xmlStepsAll_append, xmlSteps_element, xmlSteps_attributes]
    by_cases hproperties : record.properties.isEmpty = true <;>
      by_cases hoverlays : record.overlays.isEmpty = true <;>
      simp only [hproperties, hoverlays, if_true, if_false, Bool.false_eq_true, xmlStepsAll_nil,
        xmlStepsAll_cons, xmlAttrSteps, List.map_nil, List.append_nil, List.nil_append,
        List.append_assoc, List.cons_append]
  | none =>
    by_cases hend : record.entity.typeId ≠ typeEndOfTable
    · simp only [if_pos hend, xmlCallSteps]
      rw [xmlStepsAll_cons]
      by_cases hstrings : record.entity.strings.isEmpty = true
      · rw [if_pos hstrings, if_pos hstrings, xmlStepsAll_nil]
      · rw [if_neg hstrings, if_neg hstrings, xmlStepsAll_cons, xmlStepsAll_nil, List.append_nil]
    · simp only [if_neg hend, xmlStepsAll_nil]

lemma recordCalls_xml (dump : Bool) (record : EntityRecord) :
    recordCalls (xmlCallSteps session) dump record = xmlSteps (xmlEntity session dump record) := by
  rw [recordCalls, contentCalls_xml, xmlEntity, xmlPrefixed, xmlSteps_element]
  simp only [xmlCallSteps, List.cons_append]

lemma bodyCalls_xml (dump : Bool) (filter : Filter) (registry : Registry)
    (record : ℕ → EntityRecord) :
    bodyCalls (xmlCallSteps session) dump filter registry record =
      (session.now.map fun _ => .start) ::
        (xmlSteps (xmlDoc session dump filter registry record) ++ [some .flush]) := by
  rw [bodyCalls, xmlDoc, xmlSteps_element, xmlStepsAll_cons, xmlStepsAll_map]
  simp only [recordCalls_xml]
  simp only [xmlCallSteps, List.nil_append, List.cons_append, List.append_assoc]

end Steps

section PlayedSteps

variable [LawfulMonad m]

lemma plays_attrs_nil : plays (xmlEmit call) (xmlAttrSteps []) = pure true := plays_nil _

lemma plays_attrs_cons (a : XmlAttr) (rest : List XmlAttr) :
    plays (xmlEmit call) (xmlAttrSteps (a :: rest)) =
      (xmlEmit call (.event (.attr a)) <&&> plays (xmlEmit call) (xmlAttrSteps rest)) :=
  plays_cons _ _ _

lemma plays_items_nil : plays (xmlEmit call) (xmlStepsAll []) = pure true := plays_nil _

lemma plays_items_cons (item : XmlDoc) (rest : List XmlDoc) :
    plays (xmlEmit call) (xmlStepsAll (item :: rest)) =
      (plays (xmlEmit call) (xmlSteps item) <&&> plays (xmlEmit call) (xmlStepsAll rest)) := by
  rw [xmlStepsAll_cons, plays_append]

lemma plays_items_map {α : Type} (f : α → XmlDoc) (items : List α) :
    plays (xmlEmit call) (xmlStepsAll (items.map f)) =
      items.allM fun a => plays (xmlEmit call) (xmlSteps (f a)) := by
  rw [xmlStepsAll_map, plays_flatMap]

lemma plays_element (tag : XmlTag) (attributes : List XmlAttr) (children : List XmlDoc)
    (closing : XmlClosing) :
    plays (xmlEmit call) (xmlSteps (.element tag attributes children closing)) =
      (call (.startElement tag) <&&> plays (xmlEmit call) (xmlAttrSteps attributes) <&&>
        plays (xmlEmit call) (xmlStepsAll children) <&&>
        xmlEmit call (.event (.finish closing))) := by
  rw [xmlSteps_element, xmlStarted, plays_cons, plays_append, plays_append, xmlFinished,
    plays_single]
  rfl

lemma plays_content (content : XmlContent) :
    plays (xmlEmit call) (xmlSteps (.content content)) =
      xmlEmit call (.event (.content content)) := plays_single _ _

lemma plays_prefixed (name : String) (attributes : List XmlAttr) (children : List XmlDoc) :
    plays (xmlEmit call) (xmlSteps (xmlPrefixed name attributes children)) =
      (xmlStart call .prefixed (stringBytes name) <&&>
        plays (xmlEmit call) (xmlAttrSteps attributes) <&&>
        plays (xmlEmit call) (xmlStepsAll children) <&&> call .fullEndElement) :=
  plays_element call _ _ _ _

omit [LawfulMonad m] in
lemma xmlWhole_emit (name : String) (content : List Byte) :
    xmlEmit call (.event (.attr (xmlWhole name content))) = xmlAttribute call name content := rfl

lemma plays_text (text : List Byte) :
    plays (xmlEmit call) (xmlSteps (xmlContent text)) = xmlText call text := plays_single _ _

variable (session : XmlSession)

lemma xmlValue_emit (node : WalkNode) :
    xmlEntityAttrValue call session node =
      (plays (xmlEmit call) (xmlAttrSteps (xmlValue session node).1) <&&>
        plays (xmlEmit call) (xmlStepsAll (xmlValue session node).2)) := by
  rw [xmlEntityAttrValue, xmlValue]
  by_cases hunspec : valueIsUnspecified node = true
  · rw [if_pos hunspec, if_pos hunspec, plays_attrs_nil, plays_items_nil, Script.andM_true]
  rw [if_neg hunspec, if_neg hunspec]
  by_cases hunknown : valueIsUnknown node = true
  · rw [if_pos hunknown, if_pos hunknown, plays_attrs_nil, plays_items_cons, plays_items_nil,
      Script.true_andM, Script.andM_true, plays_content]
    rfl
  rw [if_neg hunknown, if_neg hunknown]
  by_cases hset : node.attr.kind = .set
  · simp only [if_pos hset, xmlEntityAttrSet, plays_attrs_cons, plays_attrs_nil, plays_items_map,
      plays_element, plays_items_cons, plays_items_nil, plays_content, Script.andM_true]
    rfl
  rw [if_neg hset, if_neg hset]
  cases attributeFormat session.context node.attr node.block node.offset session.pretty with
  | none =>
    simp only
    rw [plays_attrs_nil, Script.true_andM]
    exact (plays_missing (xmlEmit call) []).symm
  | some text =>
    simp only
    rw [plays_items_cons, plays_items_nil, Script.andM_true, plays_text]
    split_ifs
    · rw [plays_attrs_cons, plays_attrs_nil, Script.andM_true]
      rfl
    · rw [plays_attrs_nil]

section Visitor

mutual

lemma walkTree_xml : ∀ tree : ValueTree,
    (xmlAttrVisitor call session).walkTree tree =
      (plays (xmlEmit call) (xmlAttrSteps (xmlTree session tree).1) <&&>
        plays (xmlEmit call) (xmlStepsAll (xmlTree session tree).2))
  | .value node => by
    rw [AttributeVisitor.walkTree, xmlTree]
    exact xmlValue_emit call session node
  | .struct node members => by
    rw [AttributeVisitor.walkTree, xmlTree, plays_attrs_nil, walkMembers_xml members,
      Script.true_andM]
    exact (enterThen_none node _).trans (Script.andM_true _)
  | .array node items => by
    rw [AttributeVisitor.walkTree, xmlTree, plays_attrs_nil, walkItems_xml items,
      Script.true_andM]
    exact (enterThen_none node _).trans (Script.andM_true _)

lemma walkMembers_xml : ∀ members : List (WalkNode × ValueTree),
    (xmlAttrVisitor call session).walkMembers members =
      plays (xmlEmit call) (xmlStepsAll (xmlMembers session members))
  | [] => by rw [AttributeVisitor.walkMembers, xmlMembers, plays_items_nil]
  | (node, tree) :: rest => by
    rw [AttributeVisitor.walkMembers, walkTree_xml tree, walkMembers_xml rest, xmlMembers,
      plays_items_cons, plays_element]
    refine (congrArg (· <&&> _) (enterThen_format _ _)).trans ?_
    simp only [Script.andM_assoc]
    rfl

lemma walkItems_xml : ∀ items : List (WalkNode × ValueTree),
    (xmlAttrVisitor call session).walkItems items =
      plays (xmlEmit call) (xmlStepsAll (xmlItems session items))
  | [] => by rw [AttributeVisitor.walkItems, xmlItems, plays_items_nil]
  | (node, tree) :: rest => by
    rw [AttributeVisitor.walkItems, walkTree_xml tree, walkItems_xml rest, xmlItems,
      plays_items_cons, plays_element]
    refine (congrArg (· <&&> _) (enterThen_format _ _)).trans ?_
    simp only [Script.andM_assoc]
    rfl

end

end Visitor

section Handlers

omit [LawfulMonad m] in
lemma xmlStateFlags_emit (flags : List FormatFlag) (separator : List Byte) :
    xmlStateFlags call flags separator =
      (xmlStateTexts flags separator).allM fun text => call (.writeString text) := by
  induction flags generalizing separator with
  | nil => rfl
  | cons flag flags ih =>
    rw [xmlStateFlags, xmlStateTexts, ih, ih]
    split_ifs
    · rw [Script.allM_cons]
    · rfl

lemma xmlEntityStart_emit (record : EntityRecord) :
    xmlEntityStart call record =
      plays (xmlEmit call) ((xmlCallSteps session).entityStart record) := by
  simp only [xmlEntityStart, xmlCallSteps, xmlHead, xmlStarted, plays_cons, plays_attrs_cons,
    plays_attrs_nil, xmlStateFlags_emit, Script.andM_assoc, Script.andM_true]
  rfl

lemma xmlEntityProperties_emit (record : EntityRecord) :
    xmlEntityProperties call record = plays (xmlEmit call) (xmlSteps (xmlProperties record)) := by
  simp only [xmlEntityProperties, xmlProperties, plays_prefixed, plays_attrs_nil, plays_items_map,
    Script.true_andM]
  refine congrArg _ (congrArg (· <&&> _) (allM_congr fun property _ => ?_))
  rw [xmlProperty, plays_prefixed, plays_attrs_cons, xmlWhole_emit]
  cases codeLookup propertyNames property.ident <;> cases property.value <;>
    simp only [Option.map_some, Option.map_none, Option.toList_some, Option.toList_none,
      plays_attrs_cons, plays_attrs_nil, plays_items_cons, plays_items_nil, plays_text,
      xmlWhole_emit, Script.andM_assoc, Script.true_andM, Script.andM_true]

lemma xmlEntityOverlays_emit (record : EntityRecord) :
    xmlEntityOverlays call session record =
      plays (xmlEmit call) (xmlSteps (xmlOverlays session record)) := by
  simp only [xmlEntityOverlays, xmlOverlays, plays_prefixed, plays_attrs_nil, plays_items_map,
    Script.true_andM]
  refine congrArg _ (congrArg (· <&&> _) (allM_congr fun overlay _ => ?_))
  obtain ⟨text, htext⟩ := formatOverlayValue_some overlay session.pretty
  simp only [xmlEntityOverlay, htext, xmlOverlay, overlayText, Option.getD_some, plays_prefixed,
    plays_attrs_cons, plays_attrs_nil, plays_items_cons, plays_items_nil, plays_text,
    xmlWhole_emit, Script.andM_assoc, Script.true_andM, Script.andM_true]
  cases refString overlay.entry.string <;>
    simp only [Option.map_some, Option.map_none, Option.toList_some, Option.toList_none,
      plays_items_cons, plays_items_nil, plays_prefixed, plays_attrs_nil, plays_text,
      Script.andM_assoc, Script.true_andM, Script.andM_true]

lemma xmlEntityData_emit (record : EntityRecord) :
    xmlEntityData call record = plays (xmlEmit call) (xmlSteps (xmlDataElement record)) := by
  simp only [xmlEntityData, xmlDataElement, plays_prefixed, plays_attrs_nil, plays_items_cons,
    plays_items_nil, plays_content, Script.true_andM, Script.andM_true]
  rfl

lemma xmlEntityStrings_emit (record : EntityRecord) :
    xmlEntityStrings call record =
      plays (xmlEmit call) ((xmlCallSteps session).entityStrings record) := by
  simp only [xmlEntityStrings, xmlCallSteps]
  split_ifs
  · rw [plays_nil]
  · simp only [xmlStrings, plays_prefixed, plays_attrs_nil, plays_items_map, plays_attrs_cons,
      plays_items_cons, plays_items_nil, plays_text, xmlWhole_emit, Script.true_andM,
      Script.andM_true]

lemma xmlFormat_plays :
    (xmlFormat call session).Plays (xmlEmit call) (xmlCallSteps session) where
  dumpStart := by
    simp only [xmlCallSteps, xmlDumpAttrs]
    cases hnow : session.now with
    | none =>
      rw [Option.map_none, plays_missing]
      simp only [xmlFormat, handle, xmlDumpStart, hnow]
    | some time =>
      simp only [xmlFormat, handle, xmlDumpStart, hnow, Option.map_some, Option.getD_some,
        xmlStarted, plays_cons, plays_attrs_cons, plays_attrs_nil, Script.andM_true]
      rfl
  entry := by
    simp only [xmlCallSteps, xmlEntryElement, plays_element, plays_attrs_cons, plays_attrs_nil,
      plays_items_nil, Script.andM_assoc, Script.andM_true, Script.true_andM]
    rfl
  tableStart := (plays_nil _).symm
  entityStart record := xmlEntityStart_emit call session record
  entityAttrsStart record := (plays_single _ _).symm
  entityAttr record info attr _ := by
    have htree := AttributeVisitor.attributesWalk_tree (xmlAttrVisitor call session) [attr] info 0
    exact htree.trans (walkMembers_xml call session _)
  entityAttrsEnd record := (plays_single _ _).symm
  entityProperties record := xmlEntityProperties_emit call record
  entityOverlays record := xmlEntityOverlays_emit call session record
  entityData record := xmlEntityData_emit call record
  entityStrings record := xmlEntityStrings_emit call session record
  entityEnd record := (plays_single _ _).symm
  tableEnd := (plays_nil _).symm
  dumpEnd := by
    simp only [xmlCallSteps, xmlFinished, plays_cons, plays_nil, Script.andM_true]
    rfl

end Handlers

end PlayedSteps

def xmlEventCalls : XmlEvent → List XmlCall
  | .start tag => [.startElement tag]
  | .attr (.whole name content) => [.writeAttribute name content]
  | .attr (.located name content) => [.writeAttributeNs name content]
  | .attr (.pieces name texts) =>
    .startAttribute name :: (texts.map .writeString ++ [.endAttribute])
  | .content (.text text) => [.writeString text]
  | .content (.data bytes) => [.startCdata, .writeBase64 bytes, .endCdata]
  | .finish .short => [.endElement]
  | .finish .full => [.fullEndElement]
  | .finish .document => [.endDocument]

def xmlExpand (event : Option XmlEvent) : List (Option XmlCall) :=
  match event with
  | none => [none]
  | some event => (xmlEventCalls event).map some

def xmlCalls (session : XmlSession) (d : XmlDoc) : List (Option XmlCall) :=
  (session.now.map fun _ => .startDocument) :: (d.events.flatMap xmlExpand ++ [some .flush])

section Expanded

variable [LawfulMonad m]

lemma plays_map_some (calls : List XmlCall) : plays call (calls.map some) = calls.allM call := by
  induction calls with
  | nil => exact plays_nil call
  | cons c calls ih => rw [List.map_cons, plays_cons, ih, Script.allM_cons]

omit [LawfulMonad m] in
lemma allM_map {α β : Type} (f : α → β) (g : β → m Bool) (items : List α) :
    (items.map f).allM g = items.allM fun a => g (f a) := by
  induction items with
  | nil => rfl
  | cons a items ih => rw [List.map_cons, Script.allM_cons, Script.allM_cons, ih]

lemma xmlEmit_event (event : XmlEvent) :
    xmlEmit call (.event event) = plays call (xmlExpand (some event)) := by
  rw [xmlExpand, plays_map_some]
  rcases event with tag | ⟨name, content⟩ | ⟨name, content⟩ | ⟨name, texts⟩ | ⟨text⟩ | ⟨bytes⟩ |
    ⟨_ | _ | _⟩
  case attr.pieces =>
    rw [xmlEventCalls, Script.allM_cons, Script.allM_append, allM_map, Script.allM_cons]
    simp only [xmlEmit]
    exact congrArg _ (congrArg _ (Script.andM_true _).symm)
  case content.data =>
    rw [xmlEventCalls, Script.allM_cons, Script.allM_cons, Script.allM_cons]
    simp only [xmlEmit]
    exact congrArg _ (congrArg _ (Script.andM_true _).symm)
  all_goals
    rw [xmlEventCalls, Script.allM_cons]
    exact (Script.andM_true _).symm

lemma plays_xmlEvents (events : List (Option XmlEvent)) :
    plays (xmlEmit call) (events.map (Option.map .event)) =
      plays call (events.flatMap xmlExpand) := by
  induction events with
  | nil => exact (plays_nil (xmlEmit call)).trans (plays_nil call).symm
  | cons event events ih =>
    cases event with
    | none => exact (plays_missing _ _).trans (plays_missing _ _).symm
    | some event =>
      rw [List.map_cons, Option.map_some, plays_cons, ih, xmlEmit_event, List.flatMap_cons,
        plays_append]

lemma plays_xmlDoc (session : XmlSession) (d : XmlDoc) :
    plays (xmlEmit call) ((session.now.map fun _ => .start) :: (xmlSteps d ++ [some .flush])) =
      plays call (xmlCalls session d) := by
  rw [xmlCalls]
  cases session.now with
  | none => exact (plays_missing _ _).trans (plays_missing _ _).symm
  | some time =>
    rw [Option.map_some, Option.map_some, plays_cons, plays_cons, plays_append, plays_append,
      xmlSteps, plays_xmlEvents, plays_single, plays_single]
    rfl

end Expanded

/-- Exporting a table as XML makes the calls for one document: it goes on until a call is refused
or a value has no text, and what has been written reads back as the document, where attributes are
read only before what is in their elements. -/
theorem xml_export {γ : Type} (call : XmlCall → StateM γ Bool) (session : XmlSession)
    (dump : Bool) (filter : Filter) (capacity : ℕ) (entities : List Entity)
    (record : ℕ → EntityRecord) :
    let registry := registryOf capacity entities
    let doc := xmlDoc session dump filter registry record
    printBody (xmlFormat call session) dump filter registry record =
        plays call (xmlCalls session doc) ∧
      (session.now.isSome = true → doc.complete = true →
        xmlCalls session doc = (XmlCall.startDocument :: (doc.calls.flatMap xmlEventCalls ++
            [XmlCall.flush])).map some ∧
          Markup.readAll doc.calls = some [doc]) := by
  intro registry doc
  constructor
  · rw [printBody_plays (xmlFormat_plays call session) (registryOf_valid capacity entities),
      bodyCalls_xml, plays_xmlDoc]
  · intro hnow hcomplete
    refine ⟨?_, Markup.readAll_calls hcomplete rfl⟩
    obtain ⟨time, htime⟩ := Option.isSome_iff_exists.mp hnow
    rw [xmlCalls, htime, Markup.events_calls hcomplete, List.map_cons, List.map_append,
      List.map_flatMap, List.flatMap_map]
    rfl

end OpenDmi

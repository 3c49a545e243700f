import OpenDmi.Base64
import OpenDmi.DocumentTree
import OpenDmi.Export
import OpenDmi.FormatNumber

/-! What is exported of a table, whatever the format: a document of labels and values. -/

universe u

namespace OpenDmi

open Bytes Numeral

structure ExportSession where
  context : FormatContext
  pretty : Bool
  smbiosVersion : ℕ
  tableAreaAddress : ℕ
  tableLength : ℕ

inductive ExportInteger
  | handle | type | length | property | source | index | offset
  deriving DecidableEq

inductive ExportScalar
  | null
  | word (text : List Byte)
  | string (text : List Byte)
  | version (text : List Byte)
  | flag (value : Bool)
  | truth (value : Bool)
  | number (text : List Byte)
  | integer (kind : ExportInteger) (n : ℕ)
  | data (text : List Byte)
  deriving DecidableEq

inductive CollectionStyle
  | block | flow
  deriving DecidableEq

abbrev ExportDoc := Doc ExportScalar CollectionStyle

def entityStateNames : NameSet := nameSetOf "entity-state"
  [(0, "decoded", "decoded"), (1, "linked", "linked"), (2, "valid", "valid"),
    (3, "incomplete", "incomplete"), (4, "partial", "partial")]

def entityStateWidth : ℕ := 32

def entityStateFlags (record : EntityRecord) : List FormatFlag :=
  formatMaskFlags (some entityStateNames) record.state entityStateWidth

def propertyNames : NameSet :=
  { nameSetOf "property-name" [(0, "reserved", "Reserved"),
      (1, "uefi-device-path", "UEFI device path")] with
    ranges := [⟨0x0002, 0x7FFF, stringBytes "reserved", stringBytes "Reserved"⟩,
      ⟨0x8000, 0xBFFF, stringBytes "vendor-specific", stringBytes "Firmware vendor specific"⟩,
      ⟨0xC000, 0xFFFF, stringBytes "oem-specific", stringBytes "OEM specific"⟩] }

/-- An additional entry is printed as binary data of no flags. -/
def overlayAttribute : AttributeDesc where
  params :=
    { code := [], level := versionNoLevel, unit := unitNone, scale := 0, unspec := none,
      unknown := none, flags := ⟨false, false, false, false, false, false, false, false⟩,
      minimum := none, maximum := none, values := none, targets := none, link := Member.null }
  value := ⟨0, 16⟩
  kind := .binary
  counter := Member.null
  count := 0
  selector := 0
  isDefault := false

def formatOverlayValue (overlay : EntityOverlay) (pretty : Bool) : Option (List Byte) :=
  attributeFormatBinary overlayAttribute overlay.entry.value.bytes pretty

def refString : Ref → Option (List Byte)
  | .text _ text => some text
  | _ => none

def formatAttributeValue (context : FormatContext) (attr : AttributeDesc) (block : Memory)
    (offset : ℕ) (pretty : Bool) : Option (List Byte) :=
  (attributeFormat context attr block offset pretty).bind fun text =>
    if !pretty ∨ attr.params.unit = unitNone then some text
    else (nameLookup context unitNames attr.params.unit).map fun name => text ++ [0x20] ++ name

def entityDataBytes (record : EntityRecord) : List Byte :=
  window record.entity.buffer.data record.entity.offset record.entity.bodyLength

def entityStringList (record : EntityRecord) : List (List Byte) :=
  record.entity.strings.map StringEntry.raw

def valueIsUnspecified (node : WalkNode) : Bool :=
  attributeIsUnspecified (node.attr.attribute [] []) node.block node.offset

def valueIsUnknown (node : WalkNode) : Bool :=
  attributeIsUnknown (node.attr.attribute [] []) node.block node.offset

section Document

variable (session : ExportSession)

def word (text : String) : ExportScalar := .word (stringBytes text)

def stringScalar : Option (List Byte) → ExportScalar
  | none => .null
  | some text => .string text

def textScalar (kind : AttributeKind) (text : List Byte) : ExportScalar :=
  if session.pretty then .string text
  else match formatScalarClassify kind text with
    | .bool => .truth (text = stringBytes "true")
    | .number => .number text
    | .string => .string text

def valueDoc (node : WalkNode) : ExportDoc :=
  if valueIsUnspecified node then .scalar .null
  else if valueIsUnknown node then .scalar (word "unknown")
  else if node.attr.kind = .set then
    .map .block ((formatSetFlags node.attr node.block node.offset).map fun flag =>
      (.word flag.code, .scalar (.flag flag.value)))
  else match formatAttributeValue session.context node.attr node.block node.offset
      session.pretty with
    | none => .missing
    | some text => .scalar (textScalar session node.attr.kind text)

mutual

def treeDoc : ValueTree → ExportDoc
  | .value node => valueDoc session node
  | .struct _ members => .map .block (membersDoc members)
  | .array _ items => .seq .block (itemsDoc items)

def membersDoc : List (WalkNode × ValueTree) → List (ExportScalar × ExportDoc)
  | [] => []
  | (node, tree) :: rest => (.word node.member.params.code, treeDoc tree) :: membersDoc rest

def itemsDoc : List (WalkNode × ValueTree) → List ExportDoc
  | [] => []
  | (_, tree) :: rest => treeDoc tree :: itemsDoc rest

end

def versionScalar (version : ℕ) : ExportScalar := .version (versionFormat version)

def headMembers (record : EntityRecord) : List (ExportScalar × ExportDoc) :=
  [(word "handle", .scalar (.integer .handle record.entity.handle)),
    (word "type", .scalar (.integer .type record.entity.typeId)),
    (word "length", .scalar (.integer .length record.entity.totalLength)),
    (word "level", .scalar (if record.level ≠ versionNoLevel then versionScalar record.level
      else .null)),
    (word "state", .seq .flow (((entityStateFlags record).filter FormatFlag.value).map fun flag =>
      .scalar (.word flag.code))),
    (word "description", .scalar (.word record.name))]

def propertyDoc (property : StringProperty) : ExportDoc :=
  .map .block [(word "id", .scalar (.integer .property property.ident)),
    (word "code", .scalar (stringScalar (codeLookup propertyNames property.ident))),
    (word "value", .scalar (stringScalar property.value))]

def overlayText (overlay : EntityOverlay) : List Byte :=
  (formatOverlayValue overlay session.pretty).getD []

def overlayDoc (overlay : EntityOverlay) : ExportDoc :=
  .map .block [(word "source", .scalar (.integer .source overlay.source)),
    (word "index", .scalar (.integer .index overlay.index)),
    (word "offset", .scalar (.integer .offset overlay.entry.referencedOffset)),
    (word "value", .scalar (.string (overlayText session overlay))),
    (word "string", .scalar (stringScalar (refString overlay.entry.string)))]

def dataText (record : EntityRecord) : List Byte :=
  (base64Encode (entityDataBytes record)).getD []

def attributeMembers (record : EntityRecord) (info : Memory) : List (ExportScalar × ExportDoc) :=
  membersDoc session (attributesTree (record.attributes.filter (attributeIsPrinted record info))
    info 0)

def contentMembers (dump : Bool) (record : EntityRecord) : List (ExportScalar × ExportDoc) :=
  match shownInfo dump record with
  | some info =>
    (word "attributes", .map .block (attributeMembers session record info)) ::
      ((if record.properties.isEmpty then []
        else [(word "properties", .seq .block (record.properties.map propertyDoc))]) ++
      (if record.overlays.isEmpty then []
        else [(word "overlays", .seq .block (record.overlays.map (overlayDoc session)))]))
  | none =>
    if record.entity.typeId ≠ typeEndOfTable then
      (word "data", .scalar (.data (dataText record))) ::
        (if record.entity.strings.isEmpty then []
          else [(word "strings", .seq .block ((entityStringList record).map fun text =>
            .scalar (.string text)))])
    else []

def entityDoc (dump : Bool) (record : EntityRecord) : ExportDoc :=
  .map .block (headMembers record ++ contentMembers session dump record)

def exportDoc (dump : Bool) (filter : Filter) (registry : Registry) (record : ℕ → EntityRecord) :
    ExportDoc :=
  .map .block
    [(word "entry", .map .block [(word "smbios-version",
        .scalar (versionScalar session.smbiosVersion))]),
      (word "table", .seq .block ((printedNumbers filter registry).map fun i =>
        entityDoc session dump (record i)))]

end Document

lemma formatOverlayValue_some (overlay : EntityOverlay) (pretty : Bool) :
    ∃ text, formatOverlayValue overlay pretty = some text := by
  rw [formatOverlayValue, attributeFormatBinary]
  simp [overlayAttribute]

lemma base64Encode_some (record : EntityRecord) :
    ∃ text, base64Encode (entityDataBytes record) = some text := by
  obtain ⟨hpos, hin⟩ := record.inside
  have hlength : (entityDataBytes record).length = record.entity.bodyLength := window_length hin
  rw [base64Encode, if_neg (by omega)]
  exact ⟨_, rfl⟩

lemma membersDoc_append (session : ExportSession) (members rest : List (WalkNode × ValueTree)) :
    membersDoc session (members ++ rest) = membersDoc session members ++ membersDoc session rest := by
  induction members with
  | nil => rfl
  | cons member members ih =>
    obtain ⟨node, tree⟩ := member
    rw [List.cons_append, membersDoc, membersDoc, ih, List.cons_append]

lemma attributesTree_cons (attr : AttributeSpec) (rest : List AttributeSpec) (info : Memory)
    (base : ℕ) :
    attributesTree (attr :: rest) info base =
      attributesTree [attr] info base ++ attributesTree rest info base := by
  obtain ⟨desc, attrs, variants⟩ := attr
  rw [attributesTree, attributesTree, attributesTree, List.append_nil]

section Calls

inductive ExportCall
  | start
  | event (event : DocEvent ExportScalar CollectionStyle)
  | finish

def docCall (event : Option (DocEvent ExportScalar CollectionStyle)) : Option ExportCall :=
  event.map .event

def scalarCall (s : ExportScalar) : Option ExportCall := some (.event (.scalar s))

def docCallsOf (d : ExportDoc) : List (Option ExportCall) := d.events.map docCall

def memberCalls (members : List (ExportScalar × ExportDoc)) : List (Option ExportCall) :=
  (Doc.eventsMembers members).map docCall

variable (session : ExportSession)

def docCalls : FormatCalls ExportCall where
  dumpStart := [some .start, some (.event (.mapStart .block))]
  entry := memberCalls [(word "entry", .map .block [(word "smbios-version",
    .scalar (versionScalar session.smbiosVersion))])]
  tableStart := [scalarCall (word "table"), some (.event (.seqStart .block))]
  entityStart record := some (.event (.mapStart .block)) :: memberCalls (headMembers record)
  entityAttrsStart _ := [scalarCall (word "attributes"), some (.event (.mapStart .block))]
  entityAttr _ info attr := memberCalls (membersDoc session (attributesTree [attr] info 0))
  entityAttrsEnd _ := [some (.event .mapEnd)]
  entityProperties record :=
    memberCalls [(word "properties", .seq .block (record.properties.map propertyDoc))]
  entityOverlays record :=
    memberCalls [(word "overlays", .seq .block (record.overlays.map (overlayDoc session)))]
  entityData record := memberCalls [(word "data", .scalar (.data (dataText record)))]
  entityStrings record :=
    if record.entity.strings.isEmpty then []
    else memberCalls [(word "strings", .seq .block ((entityStringList record).map fun text =>
      .scalar (.string text)))]
  entityEnd _ := [some (.event .mapEnd)]
  tableEnd := [some (.event .seqEnd)]
  dumpEnd := [some (.event .mapEnd), some .finish]

lemma memberCalls_append (members rest : List (ExportScalar × ExportDoc)) :
    memberCalls (members ++ rest) = memberCalls members ++ memberCalls rest := by
  rw [memberCalls, Doc.eventsMembers_append, List.map_append, memberCalls, memberCalls]

lemma memberCalls_cons (key : ExportScalar) (value : ExportDoc)
    (rest : List (ExportScalar × ExportDoc)) :
    memberCalls ((key, value) :: rest) =
      scalarCall key :: (docCallsOf value ++ memberCalls rest) := by
  rw [memberCalls, Doc.eventsMembers, List.map_cons, List.map_append]
  rfl

@[simp] lemma memberCalls_nil : memberCalls [] = [] := rfl

lemma docCallsOf_map (style : CollectionStyle) (members : List (ExportScalar × ExportDoc)) :
    docCallsOf (.map style members) =
      some (.event (.mapStart style)) :: (memberCalls members ++ [some (.event .mapEnd)]) := by
  rw [docCallsOf, Doc.events, List.map_cons, List.map_append]
  rfl

lemma docCallsOf_seq {α : Type} (style : CollectionStyle) (f : α → ExportDoc) (items : List α) :
    docCallsOf (.seq style (items.map f)) = some (.event (.seqStart style)) ::
      (items.flatMap (fun a => docCallsOf (f a)) ++ [some (.event .seqEnd)]) := by
  rw [docCallsOf, Doc.events, List.map_cons, List.map_append, Doc.eventsItems_map,
    List.map_flatMap]
  rfl

lemma memberCalls_attributes (attrs : List AttributeSpec) (info : Memory) :
    memberCalls (membersDoc session (attributesTree attrs info 0)) =
      attrs.flatMap fun attr => memberCalls (membersDoc session (attributesTree [attr] info 0)) := by
  induction attrs with
  | nil =>
    rw [attributesTree]
    rfl
  | cons attr attrs ih =>
    rw [attributesTree_cons, membersDoc_append, memberCalls_append, ih, List.flatMap_cons]

lemma contentCalls_doc (dump : Bool) (record : EntityRecord) :
    contentCalls (docCalls session) dump record =
      memberCalls (contentMembers session dump record) := by
  rw [contentCalls, contentMembers]
  cases shownInfo dump record with
  | some info =>
    simp only [docCalls]
    rw [memberCalls_cons (word "attributes"), memberCalls_append, docCallsOf_map, attributeMembers,
      memberCalls_attributes]
    by_cases hproperties : record.properties.isEmpty = true <;>
      by_cases hoverlays : record.overlays.isEmpty = true <;>
      simp only [hproperties, hoverlays, if_true, if_false, Bool.false_eq_true, memberCalls_nil,
        List.append_nil, List.nil_append, List.append_assoc, List.cons_append]
  | none =>
    by_cases hend : record.entity.typeId ≠ typeEndOfTable
    · simp only [if_pos hend, docCalls]
      rw [memberCalls_cons (word "data"), memberCalls_cons (word "data"), memberCalls_nil,
        List.append_nil, List.cons_append]
      by_cases hstrings : record.entity.strings.isEmpty = true
      · rw [if_pos hstrings, if_pos hstrings, memberCalls_nil]
      · rw [if_neg hstrings, if_neg hstrings]
    · simp only [if_neg hend, memberCalls_nil]

lemma recordCalls_doc (dump : Bool) (record : EntityRecord) :
    recordCalls (docCalls session) dump record = docCallsOf (entityDoc session dump record) := by
  rw [recordCalls, contentCalls_doc, entityDoc, docCallsOf_map, memberCalls_append]
  simp only [docCalls, List.cons_append, List.append_assoc]

lemma bodyCalls_doc (dump : Bool) (filter : Filter) (registry : Registry)
    (record : ℕ → EntityRecord) :
    bodyCalls (docCalls session) dump filter registry record =
      some .start :: (docCallsOf (exportDoc session dump filter registry record) ++
        [some .finish]) := by
  rw [bodyCalls, exportDoc, docCallsOf_map, memberCalls_cons, memberCalls_cons, docCallsOf_seq]
  simp only [recordCalls_doc]
  simp only [docCalls, memberCalls_cons, memberCalls_nil, List.append_nil, List.cons_append,
    List.nil_append, List.append_assoc]

end Calls

section PlayedDocs

variable {m : Type → Type u} [Monad m] [LawfulMonad m] (call : ExportCall → m Bool)

lemma plays_scalar (s : ExportScalar) :
    plays call (docCallsOf (.scalar s)) = call (.event (.scalar s)) := plays_single call _

lemma plays_members_nil : plays call (memberCalls []) = pure true := plays_nil call

lemma plays_members_cons (key : ExportScalar) (value : ExportDoc)
    (rest : List (ExportScalar × ExportDoc)) :
    plays call (memberCalls ((key, value) :: rest)) =
      (call (.event (.scalar key)) <&&> plays call (docCallsOf value) <&&>
        plays call (memberCalls rest)) := by
  rw [memberCalls_cons, scalarCall, plays_cons, plays_append]

lemma plays_map (style : CollectionStyle) (members : List (ExportScalar × ExportDoc)) :
    plays call (docCallsOf (.map style members)) =
      (call (.event (.mapStart style)) <&&> plays call (memberCalls members) <&&>
        call (.event .mapEnd)) := by
  rw [docCallsOf_map, plays_cons, plays_append, plays_single]

lemma plays_seq {α : Type} (style : CollectionStyle) (f : α → ExportDoc) (items : List α) :
    plays call (docCallsOf (.seq style (items.map f))) =
      (call (.event (.seqStart style)) <&&> items.allM (fun a => plays call (docCallsOf (f a))) <&&>
        call (.event .seqEnd)) := by
  rw [docCallsOf_seq, plays_cons, plays_append, plays_single, plays_flatMap]

lemma plays_flags (flags : List FormatFlag) :
    plays call (docCallsOf (.map .block (flags.map fun flag =>
        (.word flag.code, .scalar (.flag flag.value))))) =
      (call (.event (.mapStart .block)) <&&>
        (flags.allM fun flag => call (.event (.scalar (.word flag.code))) <&&>
          call (.event (.scalar (.flag flag.value)))) <&&>
        call (.event .mapEnd)) := by
  rw [plays_map]
  refine congrArg _ (congrArg (· <&&> _) ?_)
  induction flags with
  | nil => exact plays_members_nil call
  | cons flag flags ih =>
    rw [List.map_cons, plays_members_cons, plays_scalar, ih, Script.allM_cons, Script.andM_assoc]

lemma plays_docCallsOf (d : ExportDoc) :
    plays call (docCallsOf d) = plays (fun event => call (.event event)) d.events :=
  Script.play_upTo_map ExportCall.event d.events

lemma plays_relabel {ε σ τ : Type} {call : ε → m Bool} {emit : ExportCall → m Bool}
    (f : ExportScalar → σ) (g : CollectionStyle → τ) (write : DocEvent σ τ → ε)
    (h : ∀ event, emit (.event event) = call (write (event.relabel f g))) (d : ExportDoc) :
    plays emit (docCallsOf d) = plays call ((d.relabel f g).events.map (Option.map write)) := by
  rw [plays_docCallsOf, Doc.events_relabel, List.map_map, Option.map_comp_map]
  simp only [h]
  exact Eq.symm (Script.play_upTo_map (write ∘ DocEvent.relabel f g) d.events)

end PlayedDocs

section Visitor

variable {m : Type → Type u} [Monad m]

def formatWalk (result : Bool) : WalkStep := if result then .resume else .stop

structure WritesDoc (session : ExportSession) (visitor : AttributeVisitor m)
    (call : ExportCall → m Bool) : Prop where
  memberStart node body : enterThen (attributeEnter visitor.memberStart node) body =
    (call (.event (.scalar (.word node.member.params.code))) <&&> body)
  memberEnd node : attributeLeave visitor.memberEnd node = pure true
  arrayStart node body : enterThen (attributeEnter visitor.arrayStart node) body =
    (call (.event (.seqStart .block)) <&&> body)
  arrayEnd node : attributeLeave visitor.arrayEnd node = call (.event .seqEnd)
  itemStart node body : enterThen (attributeEnter visitor.itemStart node) body = body
  itemEnd node : attributeLeave visitor.itemEnd node = pure true
  structStart node body : enterThen (attributeEnter visitor.structStart node) body =
    (call (.event (.mapStart .block)) <&&> body)
  structEnd node : attributeLeave visitor.structEnd node = call (.event .mapEnd)
  value node : attributeLeave visitor.value node =
    plays call (docCallsOf (valueDoc session node))

variable [LawfulMonad m]

lemma enterThen_format (p body : m Bool) : enterThen (formatWalk <$> p) body = (p <&&> body) := by
  rw [enterThen, andM, bind_map_left]
  refine bind_congr fun b => ?_
  cases b <;> rfl

lemma enterThen_resume (body : m Bool) : enterThen (pure .resume) body = body := by
  rw [enterThen, pure_bind]

variable {session : ExportSession} {visitor : AttributeVisitor m} {call : ExportCall → m Bool}
  (h : WritesDoc session visitor call)

include h

mutual

lemma walkTree_doc : ∀ tree : ValueTree,
    visitor.walkTree tree = plays call (docCallsOf (treeDoc session tree))
  | .value node => by rw [AttributeVisitor.walkTree, h.value, treeDoc]
  | .struct node members => by
    rw [AttributeVisitor.walkTree, h.structStart, h.structEnd, walkMembers_doc members, treeDoc,
      docCallsOf_map, plays_cons, plays_append, plays_single]
  | .array node items => by
    rw [AttributeVisitor.walkTree, h.arrayStart, h.arrayEnd, walkItems_doc items, treeDoc,
      docCallsOf, Doc.events, List.map_cons, List.map_append]
    refine ((plays_cons call _ _).trans (congrArg _ ?_)).symm
    exact (plays_append call _ _).trans (congrArg _ (plays_single call _))

lemma walkMembers_doc : ∀ members : List (WalkNode × ValueTree),
    visitor.walkMembers members = plays call (memberCalls (membersDoc session members))
  | [] => by rw [AttributeVisitor.walkMembers, membersDoc, memberCalls_nil, plays_nil]
  | (node, tree) :: rest => by
    rw [AttributeVisitor.walkMembers, h.memberStart, h.memberEnd, Script.andM_true, walkTree_doc tree,
      walkMembers_doc rest, membersDoc, memberCalls_cons, scalarCall, plays_cons, plays_append,
      Script.andM_assoc]

lemma walkItems_doc : ∀ items : List (WalkNode × ValueTree),
    visitor.walkItems items =
      plays call ((Doc.eventsItems (itemsDoc session items)).map docCall)
  | [] => by rw [AttributeVisitor.walkItems, itemsDoc, Doc.eventsItems, List.map_nil, plays_nil]
  | (node, tree) :: rest => by
    rw [AttributeVisitor.walkItems, h.itemStart, h.itemEnd, Script.andM_true, walkTree_doc tree,
      walkItems_doc rest, itemsDoc, Doc.eventsItems, List.map_append, plays_append, docCallsOf]

end

lemma attributeWalk_doc (attr : AttributeSpec) (info : Memory) :
    visitor.attributeWalk attr info 0 =
      plays call (memberCalls (membersDoc session (attributesTree [attr] info 0))) := by
  rw [AttributeVisitor.attributeWalk, AttributeVisitor.attributesWalk_tree, walkMembers_doc h]

end Visitor

end OpenDmi

import OpenDmi.AttributeTree
import OpenDmi.ExportDocument
import OpenDmi.StringSet

namespace OpenDmi

open Bytes Numeral

inductive LintSeverity
  | none | note | warning | error
  deriving DecidableEq

inductive LintProfile
  | reader | producer
  deriving DecidableEq

structure LintRuleParams where
  name : List Byte
  readerSeverity : LintSeverity
  producerSeverity : LintSeverity
  isOptional : Bool

structure LintValueRule where
  code : List Byte
  params : LintRuleParams
  handler : WalkNode → Option (List Byte)

structure LintOptions where
  profile : LintProfile
  all : Bool
  ruleFilter : Option (LintValueRule → Bool)

structure LintReport where
  rule : List Byte
  severity : LintSeverity
  handle : ℕ
  type : ℕ
  attr : List Byte
  offset : Option ℕ
  message : List Byte
  deriving DecidableEq

def lintRuleSeverity (rule : LintValueRule) : LintProfile → LintSeverity
  | .producer => rule.params.producerSeverity
  | .reader => rule.params.readerSeverity

def lintEnabled (options : LintOptions) (rule : LintValueRule) : Bool :=
  if rule.params.isOptional ∧ !options.all then false
  else if lintRuleSeverity rule options.profile = .none then false
  else match options.ruleFilter with
    | some ruleFilter => ruleFilter rule
    | none => true

section Checks

variable (node : WalkNode)

def hexUpper (n : ℕ) : List Byte := hexTextPadded 1 n

def signedText (n : ℤ) : List Byte := signText (decide (n < 0)) ++ decimalText n.natAbs

def valueInt (value : List Byte) : ℤ := attributeGetInt node.attr.number value

def valueNatural (value : List Byte) : ℕ := attributeGetUint node.attr.number value

def valueNumber (value : List Byte) : ℤ :=
  if node.attr.params.flags.isSigned then valueInt node value else valueNatural node value

def nodeBytes : List Byte := valueBytes node.attr node.block node.offset

def valueId : ℤ := (valueInt node (nodeBytes node)).bmod (2 ^ 32)

def lintValueIsSpecial : Bool := valueIsUnknown node || valueIsUnspecified node

def reservedCode : List Byte := stringBytes "reserved"

def lintCheckEnum : Option (List Byte) :=
  match node.attr.params.values with
  | none => none
  | some values =>
    if node.attr.kind ≠ .enum ∨ node.attr.params.flags.isOpen ∨ lintValueIsSpecial node then none
    else if codeLookup values (valueId node) = none then
      some (stringBytes "value 0x" ++ hexUpper (valueId node % 2 ^ 32).toNat ++
        stringBytes " is defined by no version of the specification")
    else none

def lintCheckReserved : Option (List Byte) :=
  match node.attr.params.values with
  | none => none
  | some values =>
    if node.attr.kind ≠ .enum ∨ lintValueIsSpecial node then none
    else if codeLookup values (valueId node) = some reservedCode then
      some (stringBytes "value 0x" ++ hexUpper (valueId node % 2 ^ 32).toNat ++
        stringBytes " is reserved by the specification")
    else none

def lintKnownBit (bits : ℕ × ℤ) (entry : NameEntry) : ℕ × ℤ :=
  if 0 ≤ entry.id ∧ entry.id < 64 then
    (bits.1 ||| 1 <<< entry.id.toNat, if bits.2 < entry.id then entry.id else bits.2)
  else bits

def lintKnownBits (names : List NameEntry) : ℕ × ℤ := names.foldl lintKnownBit (0, -1)

def lintReservedBits (names : List NameEntry) (bits : ℕ) : ℕ :=
  let (known, last) := lintKnownBits names
  if last < 0 then 0
  else
    let described := if last + 1 < 64 then 1 <<< (last + 1).toNat - 1 else uintmaxMax
    bits &&& described &&& (known ^^^ uintmaxMax)

def lintCheckBits : Option (List Byte) :=
  match node.attr.params.values with
  | none => none
  | some values =>
    if node.attr.kind ≠ .set then none
    else
      let reserved := lintReservedBits values.names (valueNatural node (nodeBytes node))
      if reserved ≠ 0 then
        some (stringBytes "reserved bits 0x" ++ hexUpper reserved ++ stringBytes " are set")
      else none

def lintIsBcd (rest : ℕ) : Bool :=
  if rest = 0 then true
  else if rest &&& 0x0F ≤ 9 then lintIsBcd (rest >>> 4) else false
termination_by rest
decreasing_by
  rw [Nat.shiftRight_eq_div_pow]
  exact Nat.div_lt_self (Nat.pos_of_ne_zero ‹_›) (by decide)

def lintCheckBcd : Option (List Byte) :=
  if !node.attr.params.flags.isBcd ∨ lintValueIsSpecial node then none
  else
    let bcd := valueNatural node (nodeBytes node)
    if lintIsBcd bcd then none
    else some (stringBytes "value 0x" ++ hexUpper bcd ++ stringBytes " is not a binary-coded decimal")

def lintCheckUuid : Option (List Byte) :=
  if node.attr.kind ≠ .uuid then none
  else
    let bytes := (valueUuid node.block node.offset).bytes
    if bytes.countP (· == 0) = bytes.length then some (stringBytes "UUID is not set")
    else if bytes.countP (· == 0xFF) = bytes.length then some (stringBytes "UUID is not present")
    else none

/-- Limits are values of the field itself, so they are read the way it is. -/
def lintCheckRange : Option (List Byte) :=
  let params := node.attr.params
  if params.minimum = none ∧ params.maximum = none ∨ lintValueIsSpecial node then none
  else
    let actual := valueNumber node (nodeBytes node)
    let below := match params.minimum with
      | none => none
      | some minimum =>
        if actual < valueNumber node minimum then
          some (stringBytes "value " ++ signedText actual ++
            stringBytes " is below the minimum of " ++ signedText (valueNumber node minimum))
        else none
    let above := match params.maximum with
      | none => none
      | some maximum =>
        if valueNumber node maximum < actual then
          some (stringBytes "value " ++ signedText actual ++
            stringBytes " is above the maximum of " ++ signedText (valueNumber node maximum))
        else none
    below.or above

def jep106Banks : ℕ := 8

def lintBitCount (rest : ℕ) : ℕ :=
  if rest = 0 then 0 else (rest &&& 1) + lintBitCount (rest >>> 1)
termination_by rest
decreasing_by
  rw [Nat.shiftRight_eq_div_pow]
  exact Nat.div_lt_self (Nat.pos_of_ne_zero ‹_›) (by decide)

def lintCheckJep106 : Option (List Byte) :=
  if !node.attr.params.flags.isJep106 ∨ lintValueIsSpecial node then none
  else
    let code := valueNatural node (nodeBytes node)
    let continuations := code &&& 0x7F
    if code = 0 then none
    else if continuations > jep106Banks then
      some (stringBytes "code 0x" ++ hexTextPadded 4 code ++ stringBytes " leads to bank " ++
        decimalText (continuations + 1) ++ stringBytes ", while JEDEC has published " ++
        decimalText (jep106Banks + 1) ++ stringBytes " of them")
    else if lintBitCount ((code >>> 8) &&& 0xFF) % 2 ≠ 0 then none
    else some (stringBytes "code 0x" ++ hexTextPadded 4 code ++
      stringBytes " has an even number of bits set in its identifier, which is no JEP106 code")

end Checks

def lintValueRule (code name : String) (reader producer : LintSeverity) (isOptional : Bool)
    (handler : WalkNode → Option (List Byte)) : LintValueRule where
  code := stringBytes code
  params := ⟨stringBytes name, reader, producer, isOptional⟩
  handler := handler

def lintValueInvalidEnumRule : LintValueRule :=
  lintValueRule "value.invalid-enum" "Values of enumerated fields are defined by the specification"
    .warning .error false lintCheckEnum

def lintValueReservedRule : LintValueRule :=
  lintValueRule "value.reserved" "Fields hold no values reserved by the specification"
    .note .error false lintCheckReserved

def lintValueReservedBitsRule : LintValueRule :=
  lintValueRule "value.reserved-bits" "Bit fields have no bits reserved by the specification set"
    .note .error false lintCheckBits

def lintValueBcdRule : LintValueRule :=
  lintValueRule "value.bcd" "Fields encoded as binary-coded decimals hold decimal digits"
    .warning .error false lintCheckBcd

def lintValueRangeRule : LintValueRule :=
  lintValueRule "value.range" "Fields hold the values the specification allows them"
    .warning .error false lintCheckRange

def lintValueJep106Rule : LintValueRule :=
  lintValueRule "value.jep106" "Identification codes of JEDEC manufacturers carry their parity bit"
    .warning .error false lintCheckJep106

def lintValueUuidRule : LintValueRule :=
  lintValueRule "value.uuid" "UUIDs are set" .note .warning true lintCheckUuid

def lintValueRules : List LintValueRule :=
  [lintValueInvalidEnumRule, lintValueReservedRule, lintValueReservedBitsRule, lintValueBcdRule,
    lintValueRangeRule, lintValueJep106Rule, lintValueUuidRule]

section Run

variable (options : LintOptions) (table : Buffer) (entity : Entity)

def lintDetailsSize : ℕ := 192
def lintMessageMax : ℕ := 256

def textCut (size : ℕ) (text : List Byte) : List Byte := text.take (size - 1)

def lintValueReport (rule : LintValueRule) (node : WalkNode) (details : List Byte) :
    LintReport where
  rule := rule.code
  severity := lintRuleSeverity rule options.profile
  handle := entity.handle
  type := entity.typeId
  attr := node.attr.params.code
  offset := lintEntityOffset table entity
  message := textCut lintMessageMax <| match node.index with
    | none => textCut lintDetailsSize details
    | some index => stringBytes "item " ++ decimalText index ++ stringBytes ": " ++
      textCut lintDetailsSize details

def lintValueVisit (rule : LintValueRule) (node : WalkNode) : StateM (List LintReport) Bool := do
  match rule.handler node with
  | some details => modify (· ++ [lintValueReport options table entity rule node details])
  | none => pure ()
  pure true

/-- A structure without a specification, or which has not been decoded, has no values. -/
def lintValueWalk (spec : Option (List AttributeSpec)) (info : Option Memory)
    (rule : LintValueRule) : StateM (List LintReport) Unit := do
  if let (some attrs, some info) := (spec, info) then
    let _ ← (valueVisitor (lintValueVisit options table entity rule)).attributesWalk attrs info 0

def lintCheckValues (rules : List LintValueRule) (spec : Option (List AttributeSpec))
    (info : Option Memory) : StateM (List LintReport) Unit :=
  rules.forM fun rule =>
    if lintEnabled options rule then lintValueWalk options table entity spec info rule
    else pure ()

end Run

end OpenDmi

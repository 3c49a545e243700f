import OpenDmi.AttributeVisit
import OpenDmi.FirmwareInventory
import OpenDmi.Handlers
import OpenDmi.Ipv6Text
import OpenDmi.Replacement
import OpenDmi.ScaledDecimal

namespace OpenDmi

open Bytes Numeral

/-- What the texts depend on besides the values. A text of the locale is looked up by a table and
a key. -/
structure FormatContext where
  addressSize : ℕ
  localeString : List Byte → List Byte → Option (List Byte)

section Names

/-- An entry of its own comes before the ranges, and the first one of several comes first. -/
def nameFind (dict : NameSet) (id : ℤ) : Option (List Byte × List Byte) :=
  if id < 0 then none
  else match dict.names.find? (·.id == id) with
    | some entry => some (entry.code, entry.name)
    | none => (dict.ranges.find? fun range => range.startId ≤ id ∧ id ≤ range.endId).map
        fun range => (range.code, range.name)

def codeLookup (dict : NameSet) (id : ℤ) : Option (List Byte) := (nameFind dict id).map Prod.fst

def nameLookup (context : FormatContext) (dict : NameSet) (id : ℤ) : Option (List Byte) :=
  (nameFind dict id).map fun (code, name) =>
    ((dict.code.bind fun table => context.localeString table code).getD name)

def valueText (context : FormatContext) (key fallback : List Byte) : List Byte :=
  (context.localeString (stringBytes "value") key).getD fallback

def nameSetOf (code : String) (names : List (ℤ × String × String)) : NameSet where
  code := some (stringBytes code)
  names := names.map fun (id, code, name) => ⟨id, stringBytes code, stringBytes name⟩
  ranges := []

def boolNames : NameSet := nameSetOf "bool" [(0, "false", "no"), (1, "true", "yes")]

def unitNone : ℕ := 0
def unitByte : ℕ := 16
def unitKibibyte : ℕ := 20

def unitNames : NameSet :=
  let dict := nameSetOf "unit"
    [(1, "hour", "h"), (2, "minute", "m"), (3, "second", "s"), (4, "millisecond", "ms"),
      (5, "microsecond", "us"), (6, "nanosecond", "ns"), (7, "ampere", "A"),
      (8, "milliampere", "mA"), (9, "volt", "V"), (10, "millivolt", "mV"), (11, "watt", "W"),
      (12, "milliwatt", "mW"), (13, "watt-hour", "W*h"), (15, "bit", "bits"), (16, "byte", "bytes"),
      (17, "kilobyte", "KB"), (18, "megabyte", "MB"), (19, "gigabyte", "GB"),
      (20, "kibibyte", "KiB"), (21, "mebibyte", "MiB"), (22, "gibibyte", "GiB"),
      (23, "tebibyte", "TiB"), (24, "pebibyte", "PiB"), (25, "exbibyte", "EiB"),
      (26, "zebibyte", "ZiB"), (27, "yobibyte", "YiB"), (28, "robibyte", "RiB"),
      (29, "quebibyte", "QiB"), (30, "baud", "baud"), (31, "megaxa-second", "MT/s"),
      (32, "kilobit-second", "Kbps"), (33, "megabit-second", "Mbps"), (34, "gigabit-second", "Gbps"),
      (35, "percent", "%"), (36, "revolution", "rpm"), (37, "rack", "U"), (38, "mhz", "MHz"),
      (39, "millimeter", "mm")]
  -- The sign of degrees takes two bytes
  { dict with names := ⟨14, stringBytes "celsius", [0xC2, 0xB0, 0x43]⟩ :: dict.names }

end Names

section Values

variable (context : FormatContext) (attr : AttributeDesc) (block : Memory) (offset : ℕ)

def valueBytes : List Byte := memberBytes block offset attr.value.size

def AttributeDesc.number (attr : AttributeDesc) : NumberAttribute where
  valueSize := attr.value.size
  isSigned := attr.params.flags.isSigned
  isHex := attr.params.flags.isHex
  scale := attr.params.scale

def valueUint : ℕ := attributeGetUint attr.number (valueBytes attr block offset)

def derefNumber (size : ℕ) : ℕ := (block.number offset).toNat % 256 ^ size

def hexPrefix : List Byte := [0x30, 0x78]

def attributeFormatHandle : Option (List Byte) :=
  some (hexPrefix ++ hexTextPadded 4 (derefNumber block offset 2))

def attributeFormatString : Option (List Byte) :=
  match (block.pointer offset).toRef with
  | .text _ text => some text
  | _ => none

def boolCode (flag : Bool) : List Byte := (codeLookup boolNames (if flag then 1 else 0)).getD []

def boolName (flag : Bool) : List Byte :=
  (nameLookup context boolNames (if flag then 1 else 0)).getD []

def attributeFormatBool (pretty : Bool) : Option (List Byte) :=
  let flag := derefNumber block offset 1 != 0
  let named := attr.params.values.bind fun values =>
    if pretty then nameLookup context values (if flag then 1 else 0)
    else codeLookup values (if flag then 1 else 0)
  some (named.getD (if pretty then boolName context flag else boolCode flag))

def sizeScale (size : ℕ) : List ℕ → ℕ × ℕ
  | [] => (size, unitNone)
  | unit :: units =>
    if size < 1024 ∨ size % 1024 ≠ 0 then (size, unit) else sizeScale (size / 1024) units

def sizeUnits : List ℕ := unitByte :: List.range' unitKibibyte 10

def attributeFormatSize (pretty : Bool) : Option (List Byte) :=
  let size := valueUint attr block offset
  if pretty then
    let (size, unit) := sizeScale size sizeUnits
    (nameLookup context unitNames unit).map fun name => decimalText size ++ [0x20] ++ name
  else some (decimalText size)

def attributeFormatAddr : Option (List Byte) :=
  let addr := valueUint attr block offset
  some (hexPrefix ++ hexTextPadded (if context.addressSize = 4 then 8 else 16) addr)

def attributeFormatEnum (pretty : Bool) : Option (List Byte) :=
  attr.params.values.map fun values =>
    let value := derefInt 4 (memberBytes block offset 4)
    let number := hexPrefix ++ hexText (value % 2 ^ 32).toNat
    if pretty then
      (nameLookup context values value).getD
        (valueText context (stringBytes "invalid") (stringBytes "<invalid>") ++ stringBytes " (" ++
          number ++ stringBytes ")")
    else (codeLookup values value).getD number

def attributeFormatSet : Option (List Byte) :=
  some (hexPrefix ++ hexTextPadded (attr.value.size * 2) (valueUint attr block offset))

def dotted (numbers : List ℕ) : List Byte := [0x2E].intercalate (numbers.map decimalText)

def attributeFormatVersion : Option (List Byte) :=
  let version := derefNumber block offset 4
  let major := versionMajor version
  let minor := versionMinor version
  if attr.params.scale = 1 then some (dotted [major])
  else if attr.params.scale = 2 then some (dotted [major, minor])
  else some (dotted [major, minor, versionRevision version])

def versionFormat (version : ℕ) : List Byte :=
  if versionRevision version = 0 then dotted [versionMajor version, versionMinor version]
  else dotted [versionMajor version, versionMinor version, versionRevision version]

def dateFormat (date : ℕ) : List Byte :=
  decimalTextPadded 4 (dateYear date) ++ [0x2D] ++ decimalTextPadded 2 (dateMonth date) ++
    [0x2D] ++ decimalTextPadded 2 (dateDay date)

def attributeFormatDate : Option (List Byte) := some (dateFormat (derefNumber block offset 4))

def valueUuid : Uuid where
  bytes := memberBytes block offset 16
  size := by simp [memberBytes]

def attributeFormatIpv4 (data : List Byte) : Option (List Byte) :=
  if data.length ≠ 4 then none else some (dotted (data.map UInt8.toNat))

def macAddrLength : ℕ := 6

def macLength (data : List Byte) : ℕ → ℕ
  | 0 => 0
  | length + 1 =>
    if length + 1 > macAddrLength ∧ data.getD length 0 = 0 then macLength data length else length + 1

def byteText (pretty : Bool) (b : Byte) : List Byte :=
  let digit := if pretty then upper else lower
  [digit (b.toNat / 16), digit (b.toNat % 16)]

def bytesText (separator : List Byte) (pretty : Bool) (data : List Byte) : List Byte :=
  separator.intercalate (data.map (byteText pretty))

def attributeFormatBinary (data : List Byte) (pretty : Bool) : Option (List Byte) :=
  if attr.params.flags.isIp ∧ data.length = 4 then attributeFormatIpv4 data
  else if attr.params.flags.isIp ∧ data.length = 16 then attributeFormatIpv6 data
  else if attr.params.flags.isMac then
    some (bytesText [0x3A] pretty (data.take (macLength data data.length)))
  else some (bytesText (if pretty then [0x20] else []) pretty data)

def attributeFormat (pretty : Bool) : Option (List Byte) :=
  match attr.kind with
  | .handle => attributeFormatHandle block offset
  | .string => attributeFormatString block offset
  | .bool => attributeFormatBool context attr block offset pretty
  | .integer => attributeFormatInteger attr.number (valueBytes attr block offset)
  | .decimal => attributeFormatDecimal attr.number (valueBytes attr block offset)
  | .size => attributeFormatSize context attr block offset pretty
  | .address => attributeFormatAddr context attr block offset
  | .enum => attributeFormatEnum context attr block offset pretty
  | .set => attributeFormatSet attr block offset
  | .version => attributeFormatVersion attr block offset
  | .date => attributeFormatDate block offset
  | .uuid => some (attributeFormatUuid (valueUuid block offset))
  | .binary => attributeFormatBinary attr (block.loadBinary offset).bytes pretty
  | .struct | .variant => none

end Values

section Flags

structure FormatFlag where
  id : ℕ
  code : List Byte
  value : Bool
  deriving DecidableEq

structure FormatSetIter where
  values : Option NameSet
  width : ℕ
  mask : ℕ
  next : ℕ

def formatMaskIterInitialize (values : Option NameSet) (mask width : ℕ) : FormatSetIter :=
  ⟨values, min width 64, mask, 0⟩

/-- Bits which the names do not know of are passed by. -/
def formatSetIterNext (iter : FormatSetIter) : Option (FormatFlag × FormatSetIter) :=
  if iter.next < iter.width then
    match iter.values.bind fun dict => codeLookup dict iter.next with
    | none => formatSetIterNext { iter with next := iter.next + 1 }
    | some code => some
      (⟨iter.next, code, iter.mask &&& 1 <<< iter.next != 0⟩, { iter with next := iter.next + 1 })
  else none
termination_by iter.width - iter.next

def formatFlags : ℕ → FormatSetIter → List FormatFlag
  | 0, _ => []
  | fuel + 1, iter => match formatSetIterNext iter with
    | none => []
    | some (flag, iter) => flag :: formatFlags fuel iter

def formatMaskFlags (values : Option NameSet) (mask width : ℕ) : List FormatFlag :=
  let iter := formatMaskIterInitialize values mask width
  formatFlags (iter.width + 1) iter

def formatSetFlags (attr : AttributeDesc) (block : Memory) (offset : ℕ) : List FormatFlag :=
  formatMaskFlags attr.params.values (valueUint attr block offset) (attr.value.size * 8)

end Flags

end OpenDmi

import OpenDmi.Entry
import OpenDmi.FieldEncode

/-! Handlers of the fields whose values are not spelled as they are kept: sizes in granules,
versions, and dates. -/

namespace OpenDmi

open Bytes

def fieldGet (member : Member) (info : Memory) : ℕ := memberLoad member (info.number 0)

def fieldSet (member : Member) (number : ℕ) : Option Writes :=
  (memberStore member number).map fun n => [(0, .number n)]

def numberData (number : ℕ) : FieldData := { FieldData.empty with number := number }

def decodeNumber (member : Member) (value : ℕ → ℕ) (data : FieldData) : Option Writes :=
  fieldSet member (value data.number)

def encodeNumber (member : Member) (raw : ℕ → ℕ) (info : Memory) : Option FieldData :=
  some (numberData (raw (fieldGet member info)))

def sizeMax : ℕ := 2 ^ 64 - 1

section MemoryDevice

def memoryDeviceSize (value : ℕ) : ℕ :=
  let size := value &&& 0x7fff
  if value &&& 0x8000 ≠ 0 then size <<< 10 else size <<< 20

def memoryDeviceSizeEx (value : ℕ) : ℕ :=
  if value &&& 0x80000000 ≠ 0 then sizeMax else (value &&& 0x7fffffff) <<< 20

def memoryDeviceEncodedSize (size : ℕ) : ℕ :=
  if size &&& 0xfffff = 0 ∧ size >>> 20 < 0x7fff then size >>> 20
  else 0x8000 ||| (size >>> 10 &&& 0x7fff)

def memoryDeviceEncodedSizeEx (size : ℕ) : ℕ :=
  if size = sizeMax then 0x80000000 else size >>> 20 &&& 0x7fffffff

/-- The word 0x7FFF points at the extended size instead of being one. -/
def memoryDeviceSizeField (offset : ℕ) : Field :=
  ⟨⟨offset, 8⟩, .integer,
    { length := 2
      unknownRaw := 0xffff
      decode := some (decodeNumber ⟨offset, 8⟩ fun raw => memoryDeviceSize (raw % 2 ^ 16))
      encode := some (encodeNumber ⟨offset, 8⟩ memoryDeviceEncodedSize) }, []⟩

def memoryDeviceSizeExField (offset : ℕ) : Field :=
  ⟨⟨offset, 8⟩, .integer,
    { length := 4
      extended := true
      whenRaw := 0x7fff
      decode := some (decodeNumber ⟨offset, 8⟩ fun raw => memoryDeviceSizeEx (raw % 2 ^ 32))
      encode := some (encodeNumber ⟨offset, 8⟩ memoryDeviceEncodedSizeEx) }, []⟩

end MemoryDevice

section Cache

/-- Sizes in granules of 1K, or of 64K when the highest of the bits of the field is set. -/
def cacheSizeOf (bits value : ℕ) : ℕ :=
  let size := value &&& (2 ^ (bits - 1) - 1)
  if value &&& 2 ^ (bits - 1) ≠ 0 then size <<< 16 else size <<< 10

def cacheEncodedSizeOf (bits size : ℕ) : ℕ :=
  if size &&& 0x3ff = 0 ∧ size >>> 10 ≤ 2 ^ (bits - 1) - 1 then size >>> 10
  else 2 ^ (bits - 1) ||| (size >>> 16 &&& (2 ^ (bits - 1) - 1))

def cacheSize (value : ℕ) : ℕ := cacheSizeOf 16 value

def cacheSizeEx (value : ℕ) : ℕ := cacheSizeOf 32 value

def cacheEncodedSize (size : ℕ) : ℕ := cacheEncodedSizeOf 16 size

def cacheEncodedSizeEx (size : ℕ) : ℕ := cacheEncodedSizeOf 32 size

def cacheLevelField (offset : ℕ) : Field :=
  ⟨⟨offset, 2⟩, .bits,
    { bits := 3
      decode := some (decodeNumber ⟨offset, 2⟩ fun raw => raw + 1)
      encode := some (encodeNumber ⟨offset, 2⟩ fun level => if level > 0 then level - 1 else 0) },
    []⟩

def cacheSizeField (offset : ℕ) : Field :=
  ⟨⟨offset, 8⟩, .integer,
    { length := 2
      decode := some (decodeNumber ⟨offset, 8⟩ fun raw => cacheSize (raw % 2 ^ 16))
      encode := some (encodeNumber ⟨offset, 8⟩ cacheEncodedSize) }, []⟩

def cacheSizeExField (offset : ℕ) : Field :=
  ⟨⟨offset, 8⟩, .integer,
    { length := 4
      extended := true
      whenRaw := 0xffff
      decode := some (decodeNumber ⟨offset, 8⟩ fun raw => cacheSizeEx (raw % 2 ^ 32))
      encode := some (encodeNumber ⟨offset, 8⟩ cacheEncodedSizeEx) }, []⟩

end Cache

section Firmware

def firmwareRomSize (value : ℕ) : ℕ := (value + 1) <<< 16

def firmwareRomSizeEx (value : ℕ) : ℕ :=
  let size := value &&& 0x3fff
  let scale := (value &&& 0xc000) >>> 14
  if scale = 0 then size <<< 20 else if scale = 1 then size <<< 30 else 0

def firmwareEncodedRomSize (size : ℕ) : ℕ := if size ≥ 1 <<< 16 then size >>> 16 - 1 else 0

def firmwareEncodedRomSizeEx (size : ℕ) : ℕ :=
  if size &&& 0xfffff = 0 ∧ size >>> 20 ≤ 0x3fff then size >>> 20
  else 0x4000 ||| (size >>> 30 &&& 0x3fff)

def versionNone : ℕ := dmiVersion 0 0 0

def firmwareVersion (raw : ℕ) : ℕ :=
  if raw &&& 0xff = 0xff then versionNone else dmiVersion (raw &&& 0xff) (raw >>> 8 &&& 0xff) 0

def firmwareEncodedVersion (value : ℕ) : ℕ :=
  let value := value % 2 ^ 32
  if value = versionNone then 0xffff else versionMajor value ||| versionMinor value <<< 8

def firmwareRomSizeField (offset : ℕ) : Field :=
  ⟨⟨offset, 8⟩, .integer,
    { length := 1
      decode := some (decodeNumber ⟨offset, 8⟩ fun raw => firmwareRomSize (raw % 2 ^ 8))
      encode := some (encodeNumber ⟨offset, 8⟩ firmwareEncodedRomSize) }, []⟩

def firmwareRomSizeExField (offset : ℕ) : Field :=
  ⟨⟨offset, 8⟩, .integer,
    { length := 2
      extended := true
      whenRaw := 0xff
      decode := some (decodeNumber ⟨offset, 8⟩ fun raw => firmwareRomSizeEx (raw % 2 ^ 16))
      encode := some (encodeNumber ⟨offset, 8⟩ firmwareEncodedRomSizeEx) }, []⟩

def firmwareVersionField (offset : ℕ) : Field :=
  ⟨⟨offset, 4⟩, .integer,
    { length := 2
      decode := some (decodeNumber ⟨offset, 4⟩ firmwareVersion)
      encode := some (encodeNumber ⟨offset, 4⟩ firmwareEncodedVersion) }, []⟩

def date (year month day : ℕ) : ℕ :=
  (year &&& 0xffff) <<< 16 ||| (month &&& 0xff) <<< 8 ||| (day &&& 0xff)

def dateNone : ℕ := date 0 0 0

def dateYear (date : ℕ) : ℕ := (date &&& 0xffff0000) >>> 16

def dateMonth (date : ℕ) : ℕ := (date &&& 0x00ff00) >>> 8

def dateDay (date : ℕ) : ℕ := date &&& 0x0000ff

def dateTokens : List Byte → List (List Byte)
  | [] => [[]]
  | b :: rest =>
    if b = 0x2f then [] :: dateTokens rest
    else match dateTokens rest with
      | [] => [[b]]
      | token :: tokens => (b :: token) :: tokens

def isDigit (b : Byte) : Bool := 0x30 ≤ b.toNat && b.toNat ≤ 0x39

def decimalValue (token : List Byte) : ℕ := token.foldl (fun n b => 10 * n + (b.toNat - 0x30)) 0

/-- The tokens left of a date, whose month and day are known once the ones before are read. -/
def dateRead : ℕ → ℕ → ℕ → ℕ → List (List Byte) → Option ℕ
  | i, year, month, day, [] => if i < 3 then none else some (date year month day)
  | i, year, month, day, token :: rest =>
    let value := decimalValue token
    if token = [] ∨ token.all isDigit = false then none
    else match i with
      | 0 => if value < 1 ∨ value > 12 then none else dateRead 1 year value day rest
      | 1 => if value < 1 ∨ value > 31 then none else dateRead 2 year month value rest
      | 2 => if token.length = 2 then dateRead 3 (value + 1900) month day rest
          else if token.length = 4 then dateRead 3 value month day rest
          else none
      | _ => none

def dateParse (text : List Byte) : ℕ :=
  if text.length ≥ 11 then dateNone else (dateRead 0 0 0 0 (dateTokens text)).getD dateNone

def firmwareDecodeDate (data : FieldData) : Option Writes :=
  some [(0, .number (UInt64.ofNat (match data.string with
    | .text _ bytes => dateParse bytes
    | _ => dateNone)))]

def decimalDigit (n : ℕ) : Byte := UInt8.ofNat (0x30 + n % 10)

def twoDigits (n : ℕ) : List Byte := [decimalDigit (n / 10), decimalDigit n]

def fourDigits (n : ℕ) : List Byte := twoDigits (n / 100) ++ twoDigits n

def dateSpell (value : ℕ) : List Byte :=
  twoDigits (dateMonth value % 100) ++ [0x2f] ++ twoDigits (dateDay value % 100) ++ [0x2f] ++
    fourDigits (dateYear value % 10000)

def firmwareEncodeDate (info : Memory) : Option FieldData :=
  let value := (info.number 0).toNat % 2 ^ 32
  if value = dateNone then some FieldData.empty
  else some { FieldData.empty with string := .text none (dateSpell value) }

def firmwareReleaseDateField (offset : ℕ) : Field :=
  ⟨⟨offset, 4⟩, .string,
    { length := 1, decode := some firmwareDecodeDate, encode := some firmwareEncodeDate }, []⟩

end Firmware

section MemoryModule

inductive SizeStatus
  | present | invalid | notDeterminable | notEnabled | notInstalled
  deriving DecidableEq

def SizeStatus.number : SizeStatus → ℕ
  | .present => 0
  | .invalid => 1
  | .notDeterminable => 2
  | .notEnabled => 3
  | .notInstalled => 4

structure ModuleSize where
  value : ℕ
  bankCount : ℕ
  status : ℕ
  deriving DecidableEq

def memoryModuleSize (value : ℕ) : ModuleSize :=
  let banks := if value &&& 0x80 ≠ 0 then 2 else 1
  let power := value &&& 0x7f
  if power = 0x7f then ⟨0, banks, SizeStatus.notInstalled.number⟩
  else if power = 0x7e then ⟨0, banks, SizeStatus.notEnabled.number⟩
  else if power = 0x7d then ⟨0, banks, SizeStatus.notDeterminable.number⟩
  else if power < 64 - 20 then ⟨1 <<< power <<< 20, banks, SizeStatus.present.number⟩
  else ⟨0, banks, SizeStatus.invalid.number⟩

def modulePower (size : ℕ) : ℕ → ℕ → ℕ
  | 0, power => power
  | fuel + 1, power =>
    if power < 43 ∧ 1 <<< power <<< 20 < size then modulePower size fuel (power + 1) else power

def memoryModuleEncodedSize (size : ModuleSize) : ℕ :=
  let power :=
    if size.status = SizeStatus.notInstalled.number then 0x7f
    else if size.status = SizeStatus.notEnabled.number then 0x7e
    else if size.status = SizeStatus.notDeterminable.number then 0x7d
    else if size.status = SizeStatus.present.number then modulePower size.value 43 0
    else 0x7c
  power ||| (if size.bankCount > 1 then 0x80 else 0x00)

def ModuleSize.writes (size : ModuleSize) : Writes :=
  [(0, .number (UInt64.ofNat size.value)), (8, .number (UInt64.ofNat size.bankCount)),
    (12, .number (UInt64.ofNat size.status))]

def ModuleSize.load (info : Memory) : ModuleSize :=
  ⟨(info.number 0).toNat, (info.number 8).toNat % 2 ^ 32, (info.number 12).toNat % 2 ^ 32⟩

def memoryModuleDecodeSize (data : FieldData) : Option Writes :=
  some (memoryModuleSize (data.number % 2 ^ 8)).writes

def memoryModuleEncodeSize (info : Memory) : Option FieldData :=
  some (numberData (memoryModuleEncodedSize (ModuleSize.load info)))

def memoryModuleSizeField (offset : ℕ) : Field :=
  ⟨⟨offset, 16⟩, .integer,
    { length := 1
      decode := some memoryModuleDecodeSize
      encode := some memoryModuleEncodeSize }, []⟩

end MemoryModule

end OpenDmi

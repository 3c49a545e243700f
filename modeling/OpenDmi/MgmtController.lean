import OpenDmi.Parts
import OpenDmi.Anonymize

/-! The management controller, whose interface data and protocol records are read by hand. -/

namespace OpenDmi

open Bytes

def mgmtFieldWord (offset : ℕ) : Field := ⟨⟨offset, 2⟩, .integer, { length := 2 }, []⟩

def mgmtFieldByte (offset size : ℕ) : Field := ⟨⟨offset, size⟩, .integer, { length := 1 }, []⟩

def mgmtFieldBits (offset bits : ℕ) : Field := ⟨⟨offset, 1⟩, .bits, { bits := bits }, []⟩

def mgmtFieldString (offset : ℕ) : Field := ⟨⟨offset, 8⟩, .string, { length := 1 }, []⟩

def mgmtFieldBinary (offset length : ℕ) : Field :=
  ⟨⟨offset, 16⟩, .binary, { length := length }, []⟩

def mgmtFieldHandle (offset : ℕ) : Field :=
  ⟨⟨offset, 2⟩, .integer, { length := 2, absent := some (.number 0xFFFF) }, []⟩

def mgmtNhiPciFields : List Field :=
  [mgmtFieldWord 0, mgmtFieldWord 2, mgmtFieldWord 4, mgmtFieldWord 6]

def mgmtNhiUsbV2Fields : List Field :=
  [mgmtFieldWord 0, mgmtFieldWord 2, mgmtFieldString 8, mgmtFieldBinary 16 6,
    ⟨.null, .group, {}, []⟩, mgmtFieldWord 32, mgmtFieldHandle 34]

def mgmtNhiPciV2Fields : List Field :=
  [mgmtFieldWord 0, mgmtFieldWord 2, mgmtFieldWord 4, mgmtFieldWord 6, mgmtFieldBinary 8 6,
    mgmtFieldWord 24, mgmtFieldByte 26 1, mgmtFieldBits 28 3, mgmtFieldBits 27 5,
    ⟨.null, .pad, { bits := 8 }, []⟩, ⟨.null, .group, {}, []⟩, mgmtFieldWord 30, mgmtFieldHandle 32]

def mgmtRedfishFieldsLength : ℕ := 0x5A

def hostIpFormat : Member := ⟨20, 4⟩
def hostIpAddress : ℕ := 24
def hostIpMask : ℕ := 40
def serviceIpFormat : Member := ⟨60, 4⟩
def serviceIpAddress : ℕ := 64
def serviceIpMask : ℕ := 80

def mgmtRedfishFields : List Field :=
  [⟨⟨0, 16⟩, .uuid, { length := 16 }, []⟩, mgmtFieldByte 16 4,
    mgmtFieldByte hostIpFormat.offset hostIpFormat.size, mgmtFieldBinary hostIpAddress 16,
    mgmtFieldBinary hostIpMask 16, mgmtFieldByte 56 4,
    mgmtFieldByte serviceIpFormat.offset serviceIpFormat.size, mgmtFieldBinary serviceIpAddress 16,
    mgmtFieldBinary serviceIpMask 16, mgmtFieldWord 96, ⟨⟨100, 4⟩, .integer, { length := 4 }, []⟩]

inductive MgmtNhiFormat
  | raw | usb | pci | usbV2 | pciV2 | oem
  deriving DecidableEq

structure MgmtNhiUsb where
  vendorId : ℕ
  productId : ℕ
  serialNumber : Option (List Byte)

structure MgmtNhiOem where
  vendorIana : ℕ
  vendorData : Binary

structure MgmtNhi where
  deviceType : ℕ
  format : MgmtNhiFormat
  descriptor : Binary
  usb : MgmtNhiUsb
  pci : Memory
  usbV2 : Memory
  pciV2 : Memory
  oem : MgmtNhiOem

structure MgmtProtoRecord where
  type : ℕ
  data : Binary
  hasRedfish : Bool
  redfish : Memory
  serviceHostname : Option (List Byte)

structure MgmtController where
  interfaceType : ℕ
  interfaceData : Binary
  hasNhi : Bool
  nhi : MgmtNhi
  protoRecords : List MgmtProtoRecord

def Binary.null : Binary := ⟨none, []⟩

def MgmtNhi.zero : MgmtNhi :=
  ⟨0, .raw, .null, ⟨0, 0, none⟩, Memory.zero, Memory.zero, Memory.zero, ⟨0, .null⟩⟩

def MgmtProtoRecord.zero : MgmtProtoRecord := ⟨0, .null, false, Memory.zero, none⟩

def MgmtController.zero : MgmtController := ⟨0, .null, false, .zero, []⟩

def mgmtIfaceTypeNetworkHost : ℕ := 0x40
def mgmtProtoRedfishOverIp : ℕ := 0x04
def mgmtNhiDeviceTypeUsb : ℕ := 0x02
def mgmtNhiDeviceTypePci : ℕ := 0x03
def mgmtNhiDeviceTypeUsbV2 : ℕ := 0x04
def mgmtNhiDeviceTypePciV2 : ℕ := 0x05
def mgmtNhiDeviceTypeOemStart : ℕ := 0x80
def mgmtRedfishIpFormatIpv4 : ℕ := 0x01

def utf16Units : List Byte → List ℕ
  | low :: high :: rest => (low.toNat + 256 * high.toNat) :: utf16Units rest
  | _ => []

def utf8Encode (code : ℕ) : List Byte :=
  if code < 0x80 then [UInt8.ofNat code]
  else if code < 0x800 then [UInt8.ofNat (0xC0 + code / 64), UInt8.ofNat (0x80 + code % 64)]
  else if code < 0x10000 then
    [UInt8.ofNat (0xE0 + code / 4096), UInt8.ofNat (0x80 + code / 64 % 64),
      UInt8.ofNat (0x80 + code % 64)]
  else
    [UInt8.ofNat (0xF0 + code / 262144), UInt8.ofNat (0x80 + code / 4096 % 64),
      UInt8.ofNat (0x80 + code / 64 % 64), UInt8.ofNat (0x80 + code % 64)]

def isSurrogate (code : ℕ) : Bool := 0xD800 ≤ code && code ≤ 0xDFFF

def utf16Replace (code : ℕ) : ℕ := if isSurrogate code then 0xFFFD else code

def utf16Decode : List ℕ → List Byte
  | [] => []
  | [code] => utf8Encode (utf16Replace code)
  | high :: low :: rest =>
    if 0xD800 ≤ high ∧ high ≤ 0xDBFF ∧ 0xDC00 ≤ low ∧ low ≤ 0xDFFF then
      utf8Encode (0x10000 + (high - 0xD800) * 1024 + (low - 0xDC00)) ++ utf16Decode rest
    else utf8Encode (utf16Replace high) ++ utf16Decode (low :: rest)

/-- The text of UTF-16 data, which is no string at all when the data holds no code unit. -/
def mgmtUtf16Decode (data : List Byte) : Option (List Byte) :=
  if data.length / 2 = 0 then none else some (utf16Decode (utf16Units data))

variable (source : Source)

def decoderGet (length : ℕ) (state : DecodeState) : Option (ℕ × DecodeState) :=
  (readerGet source length state).map fun (bytes, state) => (leLoad bytes, state)

def mgmtNhiDecodeUsb (nhi : MgmtNhi) (size : ℕ) (state : DecodeState) :
    Bool × MgmtNhi × DecodeState :=
  if size < 6 then (true, nhi, state)
  else match decoderGet source 2 state with
  | none => (true, nhi, state)
  | some (vendorId, state) =>
    let nhi := { nhi with usb := { nhi.usb with vendorId := vendorId } }
    match decoderGet source 2 state with
    | none => (true, nhi, state)
    | some (productId, state) =>
      let nhi := { nhi with usb := { nhi.usb with productId := productId } }
      match decoderGet source 1 state with
      | none => (true, nhi, state)
      | some (serialLength, state) =>
        if serialLength < 2 ∨ serialLength > size - 4 then (true, nhi, state)
        else if serialLength > 2 then
          match mgmtUtf16Decode (window nhi.descriptor.bytes 6 (serialLength - 2)) with
          | none => (false, nhi, state)
          | some text => (true,
            { nhi with usb := { nhi.usb with serialNumber := some text }, format := .usb }, state)
        else (true, { nhi with format := .usb }, state)

def mgmtNhiDecodeV2 (fields : List Field) (size : ℕ) (info : Memory) (state : DecodeState) :
    Bool × Memory × DecodeState :=
  match decoderGet source 1 state with
  | none => (false, info, state)
  | some (length, state) =>
    if length < 2 ∨ length > size + 1 then (false, info, state)
    else fieldsDecodeInto source fields (length - 2) info state

def mgmtNhiDecodeOem (nhi : MgmtNhi) (size : ℕ) (state : DecodeState) : MgmtNhi × DecodeState :=
  if nhi.deviceType < mgmtNhiDeviceTypeOemStart ∨ size < 4 then (nhi, state)
  else match readerGet source 4 state with
  | none => (nhi, state)
  | some (vendorIana, state) => match decoderGetBinary source (size - 4) state with
    | none => (nhi, state)
    | some (vendorData, state) =>
      ({ nhi with oem := ⟨leLoad vendorIana.reverse, vendorData⟩, format := .oem }, state)

def mgmtNhiDecode (length : ℕ) (state : DecodeState) : Bool × MgmtNhi × DecodeState :=
  match decoderGet source 1 state with
  | none => (true, .zero, state)
  | some (deviceType, start) =>
    let nhi : MgmtNhi := { MgmtNhi.zero with deviceType := deviceType }
    let size := length - 1
    match decoderGetBinary source size start with
    | none => (true, nhi, start)
    | some (descriptor, _) =>
      let nhi := { nhi with descriptor := descriptor }
      if deviceType = mgmtNhiDeviceTypeUsb then mgmtNhiDecodeUsb source nhi size start
      else if deviceType = mgmtNhiDeviceTypePci then
        let (ok, pci, state) := fieldsDecodeInto source mgmtNhiPciFields size nhi.pci start
        (true, { nhi with pci := pci, format := if ok then .pci else .raw }, state)
      else if deviceType = mgmtNhiDeviceTypeUsbV2 then
        let (ok, usbV2, state) := mgmtNhiDecodeV2 source mgmtNhiUsbV2Fields size nhi.usbV2 start
        (true, { nhi with usbV2 := usbV2, format := if ok then .usbV2 else .raw }, state)
      else if deviceType = mgmtNhiDeviceTypePciV2 then
        let (ok, pciV2, state) := mgmtNhiDecodeV2 source mgmtNhiPciV2Fields size nhi.pciV2 start
        (true, { nhi with pciV2 := pciV2, format := if ok then .pciV2 else .raw }, state)
      else
        let (nhi, state) := mgmtNhiDecodeOem source nhi size start
        (true, nhi, state)

def mgmtIfDecode (info : MgmtController) (state : DecodeState) :
    Bool × MgmtController × DecodeState :=
  match decoderGet source 1 state with
  | none => (false, info, state)
  | some (ifaceType, state) => match decoderGet source 1 state with
    | none => (false, info, state)
    | some (ifaceDataLength, start) =>
      let info := { info with interfaceType := ifaceType }
      if readerRemaining source start < ifaceDataLength then
        let (ok, state) := decoderIncomplete source start
        (ok, info, state)
      else match decoderGetBinary source ifaceDataLength start with
      | none => (false, info, start)
      | some (ifaceData, state) =>
        let info := { info with interfaceData := ifaceData }
        if ifaceType = mgmtIfaceTypeNetworkHost ∧ 0 < ifaceDataLength then
          match mgmtNhiDecode source ifaceDataLength start with
          | (false, nhi, state) => (false, { info with nhi := nhi }, state)
          | (true, nhi, state) =>
            (true, { info with nhi := nhi, hasNhi := true },
              { state with position := start.position + ifaceDataLength })
        else (true, info, state)

def ipv4Lengths (format : Member) (address mask : ℕ) (redfish : Memory) : Memory :=
  if redfish.load 0 format = mgmtRedfishIpFormatIpv4 then
    (redfish.setNumber (address + binaryLengthOffset) 4).setNumber (mask + binaryLengthOffset) 4
  else redfish

def mgmtRedfishDecode (record : MgmtProtoRecord) (state : DecodeState) :
    MgmtProtoRecord × DecodeState :=
  let length := record.data.bytes.length
  if length < mgmtRedfishFieldsLength + 1 then (record, state)
  else match fieldsDecodeInto source mgmtRedfishFields mgmtRedfishFieldsLength record.redfish
      state with
  | (false, redfish, state) => ({ record with redfish := redfish }, state)
  | (true, redfish, state) =>
    let record := { record with redfish := redfish }
    match decoderGet source 1 state with
    | none => (record, state)
    | some (hostnameLength, state) =>
      if hostnameLength > length - mgmtRedfishFieldsLength - 1 then (record, state)
      else
        let redfish := ipv4Lengths serviceIpFormat serviceIpAddress serviceIpMask
          (ipv4Lengths hostIpFormat hostIpAddress hostIpMask redfish)
        let hostname := (window record.data.bytes (mgmtRedfishFieldsLength + 1)
          hostnameLength).takeWhile (· != 0)
        ({ record with
          redfish := redfish
          serviceHostname := if hostname = [] then none else some hostname
          hasRedfish := true }, state)

/-- A protocol record, which marks the structure incomplete when it is not there as a whole. -/
def mgmtProtoRecordDecode (state : DecodeState) : Bool × MgmtProtoRecord × DecodeState :=
  let incomplete (state : DecodeState) :=
    let (ok, state) := decoderIncomplete source state
    (ok, MgmtProtoRecord.zero, state)
  match decoderGet source 1 state with
  | none => incomplete state
  | some (type, state) => match decoderGet source 1 state with
    | none => incomplete state
    | some (length, start) =>
      if readerRemaining source start < length then incomplete start
      else
        let record := { MgmtProtoRecord.zero with type := type }
        match decoderGetBinary source length start with
        | none => (false, record, start)
        | some (data, state) =>
          let record := { record with data := data }
          let (record, state) := if type = mgmtProtoRedfishOverIp then
            mgmtRedfishDecode source record start else (record, state)
          (true, record, { state with position := start.position + length })

def mgmtProtoRecordsFrom : ℕ → DecodeState → Bool × List MgmtProtoRecord × DecodeState
  | 0, state => (true, [], state)
  | count + 1, state => match mgmtProtoRecordDecode source state with
    | (false, _, state) => (false, [], state)
    | (true, record, state) =>
      if state.isIncomplete then (true, [], state)
      else
        let (ok, records, state) := mgmtProtoRecordsFrom count state
        (ok, record :: records, state)

def mgmtProtoRecordsDecode (info : MgmtController) (state : DecodeState) :
    Bool × MgmtController × DecodeState :=
  match decoderGet source 1 state with
  | none =>
    let (ok, state) := decoderIncomplete source state
    (ok, info, state)
  | some (count, state) =>
    let (ok, records, state) := mgmtProtoRecordsFrom source count { state with level := 0x030200 }
    (ok, { info with protoRecords := records }, state)

def mgmtControllerDecode (level : ℕ) : Bool × MgmtController × DecodeState :=
  match mgmtIfDecode source .zero (decoderInitialize level) with
  | (false, info, state) => (false, info, state)
  | (true, info, state) =>
    if state.isIncomplete then (true, info, state)
    else if readerIsDone source state then
      let (ok, state) := decoderStop source state
      (ok, info, state)
    else mgmtProtoRecordsDecode source info state

variable (encoder : Encoder)

def putByte (number : ℕ) (state : EncodeState) : EncodeState :=
  putBytes encoder [UInt8.ofNat number] state

def mgmtProtoRecordEncode (record : MgmtProtoRecord) (state : EncodeState) : EncodeState :=
  putBytes encoder record.data.bytes
    (putByte encoder record.data.bytes.length (putByte encoder record.type state))

def mgmtControllerEncode (info : MgmtController) (state : EncodeState) : EncodeState :=
  let state := putByte encoder info.interfaceType state
  let original := ((encoderPeek encoder 1 state).getD [0]).headD 0
  if info.interfaceData.bytes = [] ∧ (encoderPeek encoder 1 state).isSome ∧
      encoderRemaining encoder state - 1 < original.toNat then
    putByte encoder original.toNat state
  else
    let state := putBytes encoder info.interfaceData.bytes
      (putByte encoder info.interfaceData.bytes.length state)
    let hasRecords := match encoder.mode with
      | .preserve => decide (0 < encoderRemaining encoder state)
      | .canonical => decide (0x030200 ≤ encoder.version)
    if hasRecords then
      info.protoRecords.foldl (fun state record => mgmtProtoRecordEncode encoder record state)
        (putByte encoder info.protoRecords.length state)
    else state

def mgmtEntityEncode (info : MgmtController) : Option (List Byte) :=
  entityEncode encoder
    (.handler fun encoder _ => some (mgmtControllerEncode encoder info (encoderInitialize encoder)))
    Memory.zero

end OpenDmi

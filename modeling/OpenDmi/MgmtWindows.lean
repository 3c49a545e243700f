import OpenDmi.EntryAccept
import OpenDmi.LintRecords
import OpenDmi.Truncation

/-! The windows a management controller is read through: its interface data, and the data of each
of its protocol records. A read which leaves its window stops the decoder here. -/

namespace OpenDmi

open Bytes

section Windowed

variable (source : Source) (start stop : ℕ)

def inWindow {α : Type} (position length : ℕ) (read : Option α) : Option (Option α) :=
  if read.isSome ∧ ¬ (start ≤ position ∧ position + length ≤ stop) then none else some read

def fieldsDecodeIntoWithin (fields : List Field) (length : ℕ) (info : Memory)
    (state : DecodeState) : Option (Bool × Memory × DecodeState) :=
  if length ≤ readerRemaining source state ∧
      ¬ (start ≤ state.position ∧ state.position + length ≤ stop) then none
  else some (fieldsDecodeInto source fields length info state)

def mgmtNhiDecodeUsbWithin (nhi : MgmtNhi) (size : ℕ) (state : DecodeState) :
    Option (Bool × MgmtNhi × DecodeState) :=
  if size < 6 then some (true, nhi, state)
  else (inWindow start stop state.position 2 (decoderGet source 2 state)).bind fun
  | none => some (true, nhi, state)
  | some (vendorId, state) =>
    let nhi := { nhi with usb := { nhi.usb with vendorId := vendorId } }
    (inWindow start stop state.position 2 (decoderGet source 2 state)).bind fun
    | none => some (true, nhi, state)
    | some (productId, state) =>
      let nhi := { nhi with usb := { nhi.usb with productId := productId } }
      (inWindow start stop state.position 1 (decoderGet source 1 state)).bind fun
      | none => some (true, nhi, state)
      | some (serialLength, state) =>
        if serialLength < 2 ∨ serialLength > size - 4 then some (true, nhi, state)
        else if serialLength > 2 then
          (readWithin nhi.descriptor.bytes 6 (serialLength - 2)).map fun data =>
            match mgmtUtf16Decode data with
            | none => (false, nhi, state)
            | some text => (true,
              { nhi with usb := { nhi.usb with serialNumber := some text }, format := .usb }, state)
        else some (true, { nhi with format := .usb }, state)

def mgmtNhiDecodeV2Within (fields : List Field) (size : ℕ) (info : Memory) (state : DecodeState) :
    Option (Bool × Memory × DecodeState) :=
  (inWindow start stop state.position 1 (decoderGet source 1 state)).bind fun
  | none => some (false, info, state)
  | some (length, state) =>
    if length < 2 ∨ length > size + 1 then some (false, info, state)
    else fieldsDecodeIntoWithin source start stop fields (length - 2) info state

def mgmtNhiDecodeOemWithin (nhi : MgmtNhi) (size : ℕ) (state : DecodeState) :
    Option (MgmtNhi × DecodeState) :=
  if nhi.deviceType < mgmtNhiDeviceTypeOemStart ∨ size < 4 then some (nhi, state)
  else (inWindow start stop state.position 4 (readerGet source 4 state)).bind fun
  | none => some (nhi, state)
  | some (vendorIana, state) =>
    (inWindow start stop state.position (size - 4)
      (decoderGetBinary source (size - 4) state)).map fun
    | none => (nhi, state)
    | some (vendorData, state) =>
      ({ nhi with oem := ⟨leLoad vendorIana.reverse, vendorData⟩, format := .oem }, state)

def mgmtNhiDecodeWithin (length : ℕ) (state : DecodeState) :
    Option (Bool × MgmtNhi × DecodeState) :=
  (inWindow start stop state.position 1 (decoderGet source 1 state)).bind fun
  | none => some (true, .zero, state)
  | some (deviceType, begin) =>
    let nhi : MgmtNhi := { MgmtNhi.zero with deviceType := deviceType }
    let size := length - 1
    (inWindow start stop begin.position size (decoderGetBinary source size begin)).bind fun
    | none => some (true, nhi, begin)
    | some (descriptor, _) =>
      let nhi := { nhi with descriptor := descriptor }
      if deviceType = mgmtNhiDeviceTypeUsb then
        mgmtNhiDecodeUsbWithin source start stop nhi size begin
      else if deviceType = mgmtNhiDeviceTypePci then
        (fieldsDecodeIntoWithin source start stop mgmtNhiPciFields size nhi.pci begin).map
          fun (ok, pci, state) =>
            (true, { nhi with pci := pci, format := if ok then .pci else .raw }, state)
      else if deviceType = mgmtNhiDeviceTypeUsbV2 then
        (mgmtNhiDecodeV2Within source start stop mgmtNhiUsbV2Fields size nhi.usbV2 begin).map
          fun (ok, usbV2, state) =>
            (true, { nhi with usbV2 := usbV2, format := if ok then .usbV2 else .raw }, state)
      else if deviceType = mgmtNhiDeviceTypePciV2 then
        (mgmtNhiDecodeV2Within source start stop mgmtNhiPciV2Fields size nhi.pciV2 begin).map
          fun (ok, pciV2, state) =>
            (true, { nhi with pciV2 := pciV2, format := if ok then .pciV2 else .raw }, state)
      else (mgmtNhiDecodeOemWithin source start stop nhi size begin).map
        fun (nhi, state) => (true, nhi, state)

def mgmtRedfishDecodeWithin (record : MgmtProtoRecord) (state : DecodeState) :
    Option (MgmtProtoRecord × DecodeState) :=
  let length := record.data.bytes.length
  if length < mgmtRedfishFieldsLength + 1 then some (record, state)
  else (fieldsDecodeIntoWithin source start stop mgmtRedfishFields mgmtRedfishFieldsLength
      record.redfish state).bind fun
  | (false, redfish, state) => some ({ record with redfish := redfish }, state)
  | (true, redfish, state) =>
    let record := { record with redfish := redfish }
    (inWindow start stop state.position 1 (decoderGet source 1 state)).bind fun
    | none => some (record, state)
    | some (hostnameLength, state) =>
      if hostnameLength > length - mgmtRedfishFieldsLength - 1 then some (record, state)
      else
        let redfish := ipv4Lengths serviceIpFormat serviceIpAddress serviceIpMask
          (ipv4Lengths hostIpFormat hostIpAddress hostIpMask redfish)
        (readWithin record.data.bytes (mgmtRedfishFieldsLength + 1) hostnameLength).map
          fun data =>
            let hostname := data.takeWhile (· != 0)
            ({ record with
              redfish := redfish
              serviceHostname := if hostname = [] then none else some hostname
              hasRedfish := true }, state)

end Windowed

section Controller

variable (source : Source)

/-- The window is the interface data, which follows its type and its length. -/
def mgmtIfDecodeWithin (info : MgmtController) (state : DecodeState) :
    Option (Bool × MgmtController × DecodeState) :=
  match decoderGet source 1 state with
  | none => some (false, info, state)
  | some (ifaceType, state) => match decoderGet source 1 state with
    | none => some (false, info, state)
    | some (ifaceDataLength, start) =>
      let info := { info with interfaceType := ifaceType }
      if readerRemaining source start < ifaceDataLength then
        let (ok, state) := decoderIncomplete source start
        some (ok, info, state)
      else match decoderGetBinary source ifaceDataLength start with
      | none => some (false, info, start)
      | some (ifaceData, state) =>
        let info := { info with interfaceData := ifaceData }
        if ifaceType = mgmtIfaceTypeNetworkHost ∧ 0 < ifaceDataLength then
          (mgmtNhiDecodeWithin source start.position (start.position + ifaceDataLength)
            ifaceDataLength start).map fun
          | (false, nhi, state) => (false, { info with nhi := nhi }, state)
          | (true, nhi, state) =>
            (true, { info with nhi := nhi, hasNhi := true },
              { state with position := start.position + ifaceDataLength })
        else some (true, info, state)

def mgmtProtoRecordDecodeWithin (state : DecodeState) :
    Option (Bool × MgmtProtoRecord × DecodeState) :=
  let incomplete (state : DecodeState) :=
    let (ok, state) := decoderIncomplete source state
    some (ok, MgmtProtoRecord.zero, state)
  match decoderGet source 1 state with
  | none => incomplete state
  | some (type, state) => match decoderGet source 1 state with
    | none => incomplete state
    | some (length, start) =>
      if readerRemaining source start < length then incomplete start
      else
        let record := { MgmtProtoRecord.zero with type := type }
        match decoderGetBinary source length start with
        | none => some (false, record, start)
        | some (data, state) =>
          let record := { record with data := data }
          (if type = mgmtProtoRedfishOverIp then
            mgmtRedfishDecodeWithin source start.position (start.position + length) record start
          else some (record, state)).map fun (record, state) =>
            (true, record, { state with position := start.position + length })

def mgmtProtoRecordsFromWithin :
    ℕ → DecodeState → Option (Bool × List MgmtProtoRecord × DecodeState)
  | 0, state => some (true, [], state)
  | count + 1, state => (mgmtProtoRecordDecodeWithin source state).bind fun
    | (false, _, state) => some (false, [], state)
    | (true, record, state) =>
      if state.isIncomplete then some (true, [], state)
      else (mgmtProtoRecordsFromWithin count state).map fun (ok, records, state) =>
        (ok, record :: records, state)

def mgmtProtoRecordsDecodeWithin (info : MgmtController) (state : DecodeState) :
    Option (Bool × MgmtController × DecodeState) :=
  match decoderGet source 1 state with
  | none =>
    let (ok, state) := decoderIncomplete source state
    some (ok, info, state)
  | some (count, state) =>
    (mgmtProtoRecordsFromWithin source count { state with level := 0x030200 }).map
      fun (ok, records, state) => (ok, { info with protoRecords := records }, state)

def mgmtControllerDecodeWithin (level : ℕ) : Option (Bool × MgmtController × DecodeState) :=
  (mgmtIfDecodeWithin source .zero (decoderInitialize level)).bind fun
  | (false, info, state) => some (false, info, state)
  | (true, info, state) =>
    if state.isIncomplete then some (true, info, state)
    else if readerIsDone source state then
      let (ok, state) := decoderStop source state
      some (ok, info, state)
    else mgmtProtoRecordsDecodeWithin source info state

end Controller

variable {source source' : Source} {start stop length size : ℕ} {fields : List Field}
  {info : Memory} {state : DecodeState} {nhi : MgmtNhi} {record : MgmtProtoRecord}

lemma inWindow_eq {α : Type} {position : ℕ} {read : Option α} (h : start ≤ position)
    (h' : position + length ≤ stop) : inWindow start stop position length read = some read :=
  if_neg fun hout => hout.2 ⟨h, h'⟩

lemma fieldsDecodeIntoWithin_eq (h : start ≤ state.position)
    (h' : state.position + length ≤ stop) :
    fieldsDecodeIntoWithin source start stop fields length info state =
      some (fieldsDecodeInto source fields length info state) :=
  if_neg fun hout => hout.2 ⟨h, h'⟩

lemma mgmtNhiDecodeUsbWithin_eq (hstart : start ≤ state.position)
    (hstop : state.position + size ≤ stop) (hdescriptor : nhi.descriptor.bytes.length = size) :
    mgmtNhiDecodeUsbWithin source start stop nhi size state =
      some (mgmtNhiDecodeUsb source nhi size state) := by
  rw [mgmtNhiDecodeUsbWithin, mgmtNhiDecodeUsb]
  by_cases hshort : size < 6
  · rw [if_pos hshort, if_pos hshort]
  rw [if_neg hshort, if_neg hshort, inWindow_eq hstart (by omega), Option.bind_some]
  cases hvendor : decoderGet source 2 state with
  | none => rfl
  | some vendor =>
    obtain ⟨vendorId, middle⟩ := vendor
    obtain ⟨-, -, rfl⟩ := decoderGet_some hvendor
    simp only
    rw [inWindow_eq (by omega) (by omega), Option.bind_some]
    cases hproduct : decoderGet source 2 { state with position := state.position + 2 } with
    | none => rfl
    | some product =>
      obtain ⟨productId, middle⟩ := product
      obtain ⟨-, -, rfl⟩ := decoderGet_some hproduct
      simp only
      rw [inWindow_eq (by omega) (by omega), Option.bind_some]
      cases hserial : decoderGet source 1 { state with position := state.position + 2 + 2 } with
      | none => rfl
      | some serial =>
        simp only
        by_cases hout : serial.1 < 2 ∨ serial.1 > size - 4
        · rw [if_pos hout, if_pos hout]
        rw [if_neg hout, if_neg hout]
        by_cases hlong : serial.1 > 2
        · rewrite [if_pos hlong, if_pos hlong, readWithin_eq (by omega), Option.map_some]
          cases mgmtUtf16Decode (window nhi.descriptor.bytes 6 (serial.1 - 2)) <;> rfl
        · rw [if_neg hlong, if_neg hlong]

lemma mgmtNhiDecodeV2Within_eq (hstart : start ≤ state.position)
    (hstop : state.position + size ≤ stop) (hsize : 0 < size) :
    mgmtNhiDecodeV2Within source start stop fields size info state =
      some (mgmtNhiDecodeV2 source fields size info state) := by
  rw [mgmtNhiDecodeV2Within, mgmtNhiDecodeV2, inWindow_eq hstart (by omega), Option.bind_some]
  cases hlength : decoderGet source 1 state with
  | none => rfl
  | some result =>
    obtain ⟨length, next⟩ := result
    obtain ⟨-, -, rfl⟩ := decoderGet_some hlength
    simp only
    by_cases hout : length < 2 ∨ length > size + 1
    · rw [if_pos hout, if_pos hout]
    · rw [if_neg hout, if_neg hout]
      exact fieldsDecodeIntoWithin_eq (by simp only; omega) (by simp only; omega)

lemma mgmtNhiDecodeOemWithin_eq (hstart : start ≤ state.position)
    (hstop : state.position + size ≤ stop) :
    mgmtNhiDecodeOemWithin source start stop nhi size state =
      some (mgmtNhiDecodeOem source nhi size state) := by
  rw [mgmtNhiDecodeOemWithin, mgmtNhiDecodeOem]
  by_cases hout : nhi.deviceType < mgmtNhiDeviceTypeOemStart ∨ size < 4
  · rw [if_pos hout, if_pos hout]
  rw [if_neg hout, if_neg hout, inWindow_eq hstart (by omega), Option.bind_some]
  cases hiana : readerGet source 4 state with
  | none => rfl
  | some result =>
    obtain ⟨iana, next⟩ := result
    obtain ⟨-, -, rfl⟩ := readerGet_some hiana
    simp only
    rewrite [inWindow_eq (by omega) (by omega), Option.map_some]
    cases decoderGetBinary source (size - 4) { state with position := state.position + 4 } <;> rfl

/-- The length of a v2 descriptor is read right behind interface data of the device type alone. -/
structure LoneV2 (source : Source) (length : ℕ) (state : DecodeState) : Prop where
  alone : length = 1
  v2 : (source.body.getD state.position 0).toNat = mgmtNhiDeviceTypeUsbV2 ∨
    (source.body.getD state.position 0).toNat = mgmtNhiDeviceTypePciV2
  followed : state.position + 1 < source.body.length

lemma mgmtNhiDecodeV2Within_alone (hstop : state.position = stop) :
    mgmtNhiDecodeV2Within source start stop fields 0 info state =
      if state.position < source.body.length then none
      else some (mgmtNhiDecodeV2 source fields 0 info state) := by
  rw [mgmtNhiDecodeV2Within, mgmtNhiDecodeV2]
  by_cases hmore : state.position < source.body.length
  · rw [decoderGet_fits hmore, if_pos hmore, inWindow, if_pos ⟨rfl, by omega⟩, Option.bind_none]
  · have hnone : decoderGet source 1 state = none := by
      rw [decoderGet, readerGet, if_neg (by omega)]
      rfl
    rw [hnone, if_neg hmore]
    rfl

lemma mgmtNhiDecodeV2Within_kept (hpos : 0 < length)
    (h : length = 1 → source.body.length ≤ state.position + 1) :
    mgmtNhiDecodeV2Within source state.position (state.position + length) fields (length - 1) info
        { state with position := state.position + 1 } =
      some (mgmtNhiDecodeV2 source fields (length - 1) info
        { state with position := state.position + 1 }) := by
  by_cases hone : length = 1
  · have hend := h hone
    subst hone
    exact (mgmtNhiDecodeV2Within_alone rfl).trans (if_neg (by simp only; omega))
  · exact mgmtNhiDecodeV2Within_eq (by simp only; omega) (by simp only; omega) (by omega)

lemma mgmtNhiDecodeV2Within_lost (h : state.position + 1 < source.body.length) :
    mgmtNhiDecodeV2Within source state.position (state.position + 1) fields (1 - 1) info
      { state with position := state.position + 1 } = none :=
  (mgmtNhiDecodeV2Within_alone rfl).trans (if_pos h)

lemma mgmtNhiDecodeWithin_cases (hpos : 0 < length)
    (hfits : state.position + length ≤ source.body.length) :
    LoneV2 source length state ∧
        mgmtNhiDecodeWithin source state.position (state.position + length) length state = none ∨
      ¬ LoneV2 source length state ∧
        mgmtNhiDecodeWithin source state.position (state.position + length) length state =
          some (mgmtNhiDecode source length state) := by
  have hdescriptor : (binaryAt source (state.position + 1) (length - 1)).bytes.length =
      length - 1 := window_length (by omega)
  rw [mgmtNhiDecodeWithin, mgmtNhiDecode, inWindow_eq le_rfl (by omega), Option.bind_some,
    decoderGet_byteAt (by omega)]
  simp only
  rw [inWindow_eq (by omega) (by omega), Option.bind_some,
    decoderGetBinary_fits (by simp only; omega)]
  simp only
  by_cases husb : (source.body.getD state.position 0).toNat = mgmtNhiDeviceTypeUsb
  · rw [if_pos husb, if_pos husb]
    refine .inr ⟨fun hlone => ?_, mgmtNhiDecodeUsbWithin_eq (by simp only; omega)
      (by simp only; omega) hdescriptor⟩
    exact (hlone.v2.elim (fun hv2 => absurd (husb.symm.trans hv2) (by decide))
      fun hv2 => absurd (husb.symm.trans hv2) (by decide))
  rw [if_neg husb, if_neg husb]
  by_cases hpci : (source.body.getD state.position 0).toNat = mgmtNhiDeviceTypePci
  · rw [if_pos hpci, if_pos hpci, fieldsDecodeIntoWithin_eq (by simp only; omega)
      (by simp only; omega), Option.map_some]
    refine .inr ⟨fun hlone => ?_, rfl⟩
    exact (hlone.v2.elim (fun hv2 => absurd (hpci.symm.trans hv2) (by decide))
      fun hv2 => absurd (hpci.symm.trans hv2) (by decide))
  rw [if_neg hpci, if_neg hpci]
  by_cases hlone : LoneV2 source length state
  · obtain ⟨rfl, hv2, hmore⟩ := hlone
    refine .inl ⟨⟨rfl, hv2, hmore⟩, ?_⟩
    simp only [mgmtNhiDecodeV2Within_lost hmore, Option.map_none]
    rcases hv2 with hv2 | hv2
    · rw [if_pos hv2]
    · rw [if_neg (by rw [hv2]; decide), if_pos hv2]
  refine .inr ⟨hlone, ?_⟩
  by_cases hv2 : (source.body.getD state.position 0).toNat = mgmtNhiDeviceTypeUsbV2 ∨
      (source.body.getD state.position 0).toNat = mgmtNhiDeviceTypePciV2
  · have hend : length = 1 → source.body.length ≤ state.position + 1 := by
      intro hone
      by_contra hmore
      exact hlone ⟨hone, hv2, by omega⟩
    simp only [mgmtNhiDecodeV2Within_kept hpos hend, Option.map_some]
    rcases hv2 with hv2 | hv2
    · rw [if_pos hv2, if_pos hv2]
    · have husbV2 : (source.body.getD state.position 0).toNat ≠ mgmtNhiDeviceTypeUsbV2 := by
        rw [hv2]
        decide
      rw [if_neg husbV2, if_neg husbV2, if_pos hv2, if_pos hv2]
  · obtain ⟨husbV2, hpciV2⟩ := not_or.mp hv2
    rw [if_neg husbV2, if_neg husbV2, if_neg hpciV2, if_neg hpciV2,
      mgmtNhiDecodeOemWithin_eq (by simp only; omega) (by simp only; omega), Option.map_some]

lemma fieldsDecodeInto_position {ok : Bool} {memory : Memory} {next : DecodeState}
    (hfits : state.position + length ≤ source.body.length)
    (h : fieldsDecodeInto source fields length info state = (ok, memory, next)) :
    next.position = state.position + length := by
  rw [fieldsDecodeInto, if_neg (by rw [readerRemaining]; omega)] at h
  cases h
  rfl

lemma mgmtRedfishDecodeWithin_eq
    (hfits : state.position + record.data.bytes.length ≤ source.body.length) :
    mgmtRedfishDecodeWithin source state.position
        (state.position + record.data.bytes.length) record state =
      some (mgmtRedfishDecode source record state) := by
  rw [mgmtRedfishDecodeWithin, mgmtRedfishDecode]
  simp only
  by_cases hshort : record.data.bytes.length < mgmtRedfishFieldsLength + 1
  · rw [if_pos hshort, if_pos hshort]
  rw [if_neg hshort, if_neg hshort, fieldsDecodeIntoWithin_eq le_rfl (by omega),
    Option.bind_some]
  cases hfields : fieldsDecodeInto source mgmtRedfishFields mgmtRedfishFieldsLength
      record.redfish state with
  | mk ok result =>
    obtain ⟨redfish, next⟩ := result
    have hposition := fieldsDecodeInto_position (by omega) hfields
    cases ok with
    | false => rfl
    | true =>
      simp only
      rw [inWindow_eq (by omega) (by omega), Option.bind_some]
      cases hname : decoderGet source 1 next with
      | none => rfl
      | some name =>
        simp only
        by_cases hlong : name.1 > record.data.bytes.length - mgmtRedfishFieldsLength - 1
        · rw [if_pos hlong, if_pos hlong]
        · rw [if_neg hlong, if_neg hlong, readWithin_eq (by omega), Option.map_some]

lemma mgmtProtoRecordDecodeWithin_eq (source : Source) (state : DecodeState) :
    mgmtProtoRecordDecodeWithin source state = some (mgmtProtoRecordDecode source state) := by
  rw [mgmtProtoRecordDecodeWithin, mgmtProtoRecordDecode]
  simp only
  cases htype : decoderGet source 1 state with
  | none => rfl
  | some type =>
    simp only
    cases hlength : decoderGet source 1 type.2 with
    | none => rfl
    | some length =>
      simp only
      by_cases hshort : readerRemaining source length.2 < length.1
      · rw [if_pos hshort, if_pos hshort]
      rw [if_neg hshort, if_neg hshort]
      cases hdata : decoderGetBinary source length.1 length.2 with
      | none => rfl
      | some data =>
        obtain ⟨data, next⟩ := data
        obtain ⟨hfits, rfl, rfl⟩ := decoderGetBinary_some hdata
        simp only
        by_cases hredfish : type.1 = mgmtProtoRedfishOverIp
        · have hwindow : (binaryAt source length.2.position length.1).bytes.length = length.1 :=
            window_length hfits
          have hwithin : mgmtRedfishDecodeWithin source length.2.position
              (length.2.position + length.1) { MgmtProtoRecord.zero with
                type := type.1, data := binaryAt source length.2.position length.1 } length.2 =
              some (mgmtRedfishDecode source { MgmtProtoRecord.zero with
                type := type.1, data := binaryAt source length.2.position length.1 } length.2) := by
            have hin := @mgmtRedfishDecodeWithin_eq source length.2 { MgmtProtoRecord.zero with
              type := type.1, data := binaryAt source length.2.position length.1 }
              (by simp only; omega)
            simpa only [hwindow] using hin
          rw [if_pos hredfish, if_pos hredfish, hwithin, Option.map_some]
        · rw [if_neg hredfish, if_neg hredfish, Option.map_some]

lemma mgmtProtoRecordsFromWithin_eq (source : Source) (count : ℕ) (state : DecodeState) :
    mgmtProtoRecordsFromWithin source count state =
      some (mgmtProtoRecordsFrom source count state) := by
  induction count generalizing state with
  | zero => rfl
  | succ count ih =>
    rw [mgmtProtoRecordsFromWithin, mgmtProtoRecordsFrom, mgmtProtoRecordDecodeWithin_eq,
      Option.bind_some]
    cases mgmtProtoRecordDecode source state with
    | mk ok result =>
      cases ok with
      | false => rfl
      | true =>
        simp only
        by_cases hflag : result.2.isIncomplete = true
        · rw [if_pos hflag, if_pos hflag]
        · rw [if_neg hflag, if_neg hflag, ih, Option.map_some]

lemma mgmtProtoRecordsDecodeWithin_eq (source : Source) (info : MgmtController)
    (state : DecodeState) :
    mgmtProtoRecordsDecodeWithin source info state =
      some (mgmtProtoRecordsDecode source info state) := by
  rw [mgmtProtoRecordsDecodeWithin, mgmtProtoRecordsDecode]
  cases decoderGet source 1 state with
  | none => rfl
  | some count =>
    simp only
    rw [mgmtProtoRecordsFromWithin_eq, Option.map_some]

structure LoneV2Interface (body : List Byte) : Prop where
  network : (body.getD 4 0).toNat = mgmtIfaceTypeNetworkHost
  length : (body.getD 5 0).toNat = 1
  v2 : (body.getD 6 0).toNat = mgmtNhiDeviceTypeUsbV2 ∨
    (body.getD 6 0).toNat = mgmtNhiDeviceTypePciV2
  followed : 8 ≤ body.length

lemma mgmtIfDecodeWithin_cases (info : MgmtController) (hat : state.position = headerSize) :
    LoneV2Interface source.body ∧ mgmtIfDecodeWithin source info state = none ∨
      ¬ LoneV2Interface source.body ∧
        mgmtIfDecodeWithin source info state = some (mgmtIfDecode source info state) := by
  have h4 : source.body.getD state.position 0 = source.body.getD 4 0 := by rw [hat, headerSize]
  have h5 : source.body.getD (state.position + 1) 0 = source.body.getD 5 0 := by
    rw [hat, headerSize]
  rw [headerSize] at hat
  rw [mgmtIfDecodeWithin, mgmtIfDecode]
  cases htype : decoderGet source 1 state with
  | none =>
    have hend := decoderGet_none htype
    exact .inr ⟨fun hlone => by have := hlone.followed; omega, rfl⟩
  | some type =>
    obtain ⟨type, middle⟩ := type
    obtain ⟨htypeFits, rfl, rfl⟩ := decoderGet_byte htype
    simp only
    cases hlength : decoderGet source 1 { state with position := state.position + 1 } with
    | none =>
      have hend := decoderGet_none hlength
      exact .inr ⟨fun hlone => by have := hlone.followed; simp only at hend; omega, rfl⟩
    | some length =>
      obtain ⟨length, start⟩ := length
      obtain ⟨hlengthFits, rfl, rfl⟩ := decoderGet_byte hlength
      simp only [readerRemaining] at hlengthFits ⊢
      by_cases hshort : source.body.length - (state.position + 1 + 1) <
          (source.body.getD (state.position + 1) 0).toNat
      · rw [if_pos hshort, if_pos hshort]
        refine .inr ⟨fun hlone => ?_, rfl⟩
        have hone := hlone.length
        have hmore := hlone.followed
        rw [h5] at hshort
        omega
      rw [if_neg hshort, if_neg hshort]
      rw [decoderGetBinary_fits (by simp only; omega)]
      simp only
      by_cases hnetwork : (source.body.getD state.position 0).toNat = mgmtIfaceTypeNetworkHost ∧
          0 < (source.body.getD (state.position + 1) 0).toNat
      · rw [if_pos hnetwork, if_pos hnetwork]
        have hcases := @mgmtNhiDecodeWithin_cases source _
          { state with position := state.position + 1 + 1 } hnetwork.2 (by simp only; omega)
        have hlone : LoneV2 source (source.body.getD (state.position + 1) 0).toNat
            { state with position := state.position + 1 + 1 } ↔ LoneV2Interface source.body := by
          rw [h4, h5] at hnetwork
          constructor
          · intro h
            have hv2 := h.v2
            have hmore := h.followed
            have halone := h.alone
            simp only [hat] at hv2 hmore halone
            exact ⟨hnetwork.1, halone, hv2, hmore⟩
          · intro h
            have hmore := h.followed
            refine ⟨by rw [h5]; exact h.length, ?_, by simp only; omega⟩
            simp only [hat]
            exact h.v2
        rw [hlone] at hcases
        rcases hcases with ⟨hbad, hnone⟩ | ⟨hgood, hsome⟩
        · exact .inl ⟨hbad, by rw [hnone, Option.map_none]⟩
        · refine .inr ⟨hgood, ?_⟩
          rewrite [hsome, Option.map_some]
          cases mgmtNhiDecode source (source.body.getD (state.position + 1) 0).toNat
            { state with position := state.position + 1 + 1 } with
          | mk ok result => cases ok <;> rfl
      · rw [if_neg hnetwork, if_neg hnetwork]
        refine .inr ⟨fun hlone => ?_, rfl⟩
        rw [h4, h5] at hnetwork
        exact hnetwork ⟨hlone.network, by rw [hlone.length]; exact Nat.one_pos⟩

lemma mgmtControllerDecodeWithin_iff (source : Source) (level : ℕ) :
    mgmtControllerDecodeWithin source level = some (mgmtControllerDecode source level) ↔
      ¬ LoneV2Interface source.body := by
  rw [mgmtControllerDecodeWithin, mgmtControllerDecode]
  rcases @mgmtIfDecodeWithin_cases source (decoderInitialize level) .zero rfl with
    ⟨hlone, hnone⟩ | ⟨hlone, hsome⟩
  · rw [hnone, Option.bind_none]
    exact iff_of_false (fun heq => by cases heq) (not_not.mpr hlone)
  · refine iff_of_true ?_ hlone
    rw [hsome, Option.bind_some]
    cases mgmtIfDecode source .zero (decoderInitialize level) with
    | mk ok result =>
      cases ok with
      | false => rfl
      | true =>
        simp only
        split_ifs
        · rfl
        · rfl
        · exact mgmtProtoRecordsDecodeWithin_eq _ _ _

structure FixedField (field : Field) : Prop where
  kind : field.type = .integer ∨ field.type = .string ∨ field.type = .binary
  plain : field.params.extended = false
  known : field.params.length ≠ lengthRest ∧ field.params.length ≠ lengthMember
  always : field.params.from = 0 ∧ field.params.before = 0

instance (field : Field) : Decidable (FixedField field) :=
  decidable_of_iff ((field.type = .integer ∨ field.type = .string ∨ field.type = .binary) ∧
    field.params.extended = false ∧
    (field.params.length ≠ lengthRest ∧ field.params.length ≠ lengthMember) ∧
    field.params.from = 0 ∧ field.params.before = 0)
    ⟨fun h => ⟨h.1, h.2.1, h.2.2.1, h.2.2.2⟩, fun h => ⟨h.1, h.2, h.3, h.4⟩⟩

def fixedBytes (field : Field) : ℕ := if field.type = .string then 1 else field.params.length

structure InRequired (source : Source) (state : DecodeState) : Prop where
  strict : state.optional = false
  whole : state.incomplete = false
  aligned : state.bitsCount = 0
  inside : state.position ≤ source.body.length

variable {field : Field} {value : Option ℕ} {base : ℕ} {choices : List Choice}
  {group : Option Field}

lemma InRequired.applyTo (h : InRequired source state) (field : Field) (data : FieldData)
    (value : Option ℕ) : InRequired source (applyTo field data value state).2 := by
  cases value with
  | none => exact h
  | some base =>
    rw [OpenDmi.applyTo]
    cases fieldApply field data with
    | none => exact h
    | some writes => exact ⟨h.strict, h.whole, h.aligned, h.inside⟩

lemma InRequired.advance (h : InRequired source state)
    (hfits : state.position + length ≤ source.body.length) :
    InRequired source { state with position := state.position + length } :=
  ⟨h.strict, h.whole, h.aligned, hfits⟩

lemma FixedField.binaryLength (h : FixedField field) :
    binaryLength source field value state = field.params.length := by
  rw [OpenDmi.binaryLength, if_neg h.known.1, if_neg h.known.2]

lemma FixedField.hasData (h : FixedField field) : HasData field := by
  rcases h.kind with ht | ht | ht <;> simp [HasData, ht]

lemma FixedField.isDefined (h : FixedField field) (version : ℕ) :
    fieldIsDefined field version = true := by
  simp [fieldIsDefined, h.always.1, h.always.2]

lemma applyTo_kept (field : Field) (data : FieldData) (value : Option ℕ) (state : DecodeState) :
    (applyTo field data value state).2.position = state.position := by
  cases value with
  | none => rfl
  | some base =>
    rw [applyTo]
    cases fieldApply field data <;> rfl

lemma FixedField.decodeValue (h : FixedField field) (hs : InRequired source state) :
    InRequired source (decodeValue source field value state).2.2 ∧
      ((decodeValue source field value state).1 = true →
        state.position + fixedBytes field ≤
          (decodeValue source field value state).2.2.position) := by
  rcases h.kind with ht | ht | ht
  · have hbytes : fixedBytes field = field.params.length := if_neg (by rw [ht]; decide)
    simp only [OpenDmi.decodeValue, ht]
    cases hread : readNumber source field.params.length state with
    | none => exact ⟨hs, fun hok => by cases hok⟩
    | some result =>
      obtain ⟨number, next⟩ := result
      obtain ⟨-, -, hfits, -, rfl⟩ := readNumber_some hread
      refine ⟨(hs.advance hfits).applyTo _ _ _, fun _ => ?_⟩
      simp only [hbytes, applyTo_kept, le_refl]
  · have hbytes : fixedBytes field = 1 := if_pos ht
    simp only [OpenDmi.decodeValue, ht]
    cases hread : readerGet source 1 state with
    | none => exact ⟨hs, fun hok => by cases hok⟩
    | some result =>
      obtain ⟨bytes, next⟩ := result
      obtain ⟨hfits, -, rfl⟩ := readerGet_some hread
      refine ⟨(hs.advance hfits).applyTo _ _ _, fun _ => ?_⟩
      simp only [hbytes, applyTo_kept, le_refl]
  · have hbytes : fixedBytes field = field.params.length := if_neg (by rw [ht]; decide)
    simp only [OpenDmi.decodeValue, ht, readBinary, h.binaryLength, h.known.2, false_and,
      if_false]
    cases hread : decoderGetBinary source field.params.length state with
    | none => exact ⟨hs, fun hok => by cases hok⟩
    | some result =>
      obtain ⟨binary, next⟩ := result
      obtain ⟨hfits, -, rfl⟩ := decoderGetBinary_some hread
      refine ⟨(hs.advance hfits).applyTo _ _ _, fun _ => ?_⟩
      simp only [hbytes, applyTo_kept, le_refl]

lemma FixedField.decodeOne (h : FixedField field) (hs : InRequired source state) :
    InRequired source (decodeOne source base field choices state).2.2 ∧
      ((decodeOne source base field choices state).1 = true →
        state.position + fixedBytes field ≤
          (decodeOne source base field choices state).2.2.position) := by
  have hplain : OpenDmi.decodeOne source base field choices state =
      decodePlain source base field choices state := by
    rw [decodeOne_eq]
    rcases h.kind with ht | ht | ht <;> simp only [ht]
  have hvalue := @FixedField.decodeValue source state field (fieldValue base field) h hs
  rw [hplain, decodePlain, if_neg (by simp [h.plain])]
  cases hr : OpenDmi.decodeValue source field (fieldValue base field) state with
  | mk ok result =>
    obtain ⟨raw, next⟩ := result
    rw [hr] at hvalue
    cases raw <;> exact hvalue

lemma decodeFields_fixed {plain rest : List Field} (hplain : ∀ f ∈ plain, FixedField f)
    (hs : InRequired source state)
    (hok : (decodeFields source base (plain ++ rest) choices group state).1 = true) :
    ∃ choices' next, InRequired source next ∧
      state.position + (plain.map fixedBytes).sum ≤ next.position ∧
      (decodeFields source base rest choices' group next).1 = true := by
  induction plain generalizing choices state with
  | nil => exact ⟨choices, state, hs, by simp, hok⟩
  | cons field plain ih =>
    obtain ⟨hfield, hplain⟩ := List.forall_mem_cons.mp hplain
    obtain ⟨hnext, hread⟩ := @FixedField.decodeOne source state field base choices hfield hs
    rw [List.cons_append, decodeFields_data hfield.hasData,
      if_neg (by simp [hfield.isDefined])] at hok
    cases hone : OpenDmi.decodeOne source base field choices state with
    | mk ok result =>
      obtain ⟨choices', next⟩ := result
      rw [hone] at hok hnext hread
      cases ok with
      | false =>
        have hstrict : next.optional = false := hnext.strict
        have hwhole : next.incomplete = false := hnext.whole
        simp [hstrict, hwhole] at hok
      | true =>
        simp only at hok
        have hdefined : InRequired source
            { next with defined := max next.defined field.params.from } :=
          ⟨hnext.strict, hnext.whole, hnext.aligned, hnext.inside⟩
        obtain ⟨choices'', last, hlast, hsum, hrest⟩ := ih hplain hdefined hok
        refine ⟨choices'', last, hlast, ?_, hrest⟩
        have hfirst := hread rfl
        simp only at hfirst hsum
        rw [List.map_cons, List.sum_cons]
        omega

lemma fieldsDecodeInto_fixed {plain rest : List Field} (hplain : ∀ f ∈ plain, FixedField f)
    (hat : state.position ≤ source.body.length)
    (hok : (fieldsDecodeInto source (plain ++ rest) length info state).1 = true) :
    ∃ choices next, InRequired (partSource source (state.position + length)) next ∧
      state.position + (plain.map fixedBytes).sum ≤ next.position ∧
      next.position ≤ state.position + length ∧
      (decodeFields (partSource source (state.position + length)) 0 rest choices none next).1 =
        true := by
  rw [fieldsDecodeInto] at hok
  by_cases hshort : readerRemaining source state < length
  · rw [if_pos hshort] at hok
    cases hok
  rw [if_neg hshort] at hok
  rw [readerRemaining] at hshort
  have hbody : (partSource source (state.position + length)).body.length =
      state.position + length := by
    rw [partSource, List.length_take]
    omega
  have hstart : InRequired (partSource source (state.position + length))
      { partState info state with
        memory := presetAll 0 (plain ++ rest) (partState info state).memory } :=
    ⟨rfl, rfl, rfl, by rw [hbody]; exact Nat.le_add_right _ _⟩
  obtain ⟨choices, next, hnext, hsum, hrest⟩ := decodeFields_fixed hplain hstart hok
  exact ⟨choices, next, hnext, hsum, hbody ▸ hnext.inside, hrest⟩

lemma bits_followed {rest : List Field} (ht : field.type = .bits) (hbits : 0 < field.params.bits)
    (hdefined : fieldIsDefined field source.version = true) (hs : InRequired source state)
    (hok : (decodeFields source base (field :: rest) choices group state).1 = true) :
    state.position < source.body.length := by
  by_contra hend
  have hnone : readerGet source 1 state = none := if_neg (by omega)
  have htake : takeBits source field.params.bits state = (false, 0, state) := by
    obtain ⟨bits, heq⟩ := Nat.exists_eq_succ_of_ne_zero hbits.ne'
    rw [takeBits, heq, fillBits, if_pos (by rw [hs.aligned]; exact Nat.succ_pos bits), hnone]
  have hone : decodeOne source base field choices state = (false, choices, state) := by
    rw [decodeOne_eq]
    simp only [ht]
    rw [decodeBits, htake]
  rw [decodeFields_data (by simp [HasData, ht]), if_neg (by simp [hdefined]), hone] at hok
  simp [hs.strict, hs.whole] at hok

/-- The descriptors which fit the interface data, with the device type before them. The serial
number and the v2 forms count their own length, and the v2 forms the device type. -/
inductive DescriptorFits (data : List Byte) : MgmtNhiFormat → Prop
  | usb (device : (data.getD 0 0).toNat = mgmtNhiDeviceTypeUsb)
      (serial : 2 ≤ (data.getD 5 0).toNat)
      (fits : 5 + (data.getD 5 0).toNat ≤ data.length) : DescriptorFits data .usb
  | pci (device : (data.getD 0 0).toNat = mgmtNhiDeviceTypePci)
      (fits : 1 + 8 ≤ data.length) : DescriptorFits data .pci
  | usbV2 (device : (data.getD 0 0).toNat = mgmtNhiDeviceTypeUsbV2)
      (fields : 2 + 11 ≤ (data.getD 1 0).toNat)
      (fits : (data.getD 1 0).toNat ≤ data.length) : DescriptorFits data .usbV2
  | pciV2 (device : (data.getD 0 0).toNat = mgmtNhiDeviceTypePciV2)
      (fields : 2 + 18 ≤ (data.getD 1 0).toNat)
      (fits : (data.getD 1 0).toNat ≤ data.length) : DescriptorFits data .pciV2
  | oem (device : mgmtNhiDeviceTypeOemStart ≤ (data.getD 0 0).toNat)
      (fits : 1 + 4 ≤ data.length) : DescriptorFits data .oem

lemma mgmtNhiDecodeV2_fixed {plain rest : List Field} (hplain : ∀ f ∈ plain, FixedField f)
    (hok : (mgmtNhiDecodeV2 source (plain ++ rest) size info state).1 = true) :
    (source.body.getD state.position 0).toNat ≤ size + 1 ∧
      ∃ part choices next, InRequired part next ∧
        2 + (plain.map fixedBytes).sum ≤ next.position + 1 - state.position ∧
        part.body.length + 1 ≤ state.position + (source.body.getD state.position 0).toNat ∧
        (decodeFields part 0 rest choices none next).1 = true := by
  rw [mgmtNhiDecodeV2] at hok
  cases hlength : decoderGet source 1 state with
  | none =>
    rw [hlength] at hok
    cases hok
  | some result =>
    obtain ⟨length, next⟩ := result
    obtain ⟨hmore, rfl, rfl⟩ := decoderGet_byte hlength
    rw [hlength] at hok
    simp only at hok
    by_cases hout : (source.body.getD state.position 0).toNat < 2 ∨
        (source.body.getD state.position 0).toNat > size + 1
    · rw [if_pos hout] at hok
      cases hok
    rw [if_neg hout] at hok
    obtain ⟨choices, last, hlast, hsum, hend, hrest⟩ :=
      fieldsDecodeInto_fixed hplain (by simp only; omega) hok
    simp only at hsum hend
    refine ⟨by omega, _, choices, last, hlast, by omega, ?_, hrest⟩
    rw [partSource, List.length_take]
    simp only
    omega

lemma mgmtNhiDecodeUsb_cases :
    ((mgmtNhiDecodeUsb source nhi size state).1 = false →
        (mgmtNhiDecodeUsb source nhi size state).2.2.position = state.position + 5) ∧
      ((mgmtNhiDecodeUsb source nhi size state).2.1.format = nhi.format ∨
        (mgmtNhiDecodeUsb source nhi size state).2.1.format = .usb ∧
          2 ≤ (source.body.getD (state.position + 4) 0).toNat ∧
          4 + (source.body.getD (state.position + 4) 0).toNat ≤ size) := by
  rw [mgmtNhiDecodeUsb]
  by_cases hshort : size < 6
  · rw [if_pos hshort]
    exact ⟨fun h => Bool.noConfusion h, .inl rfl⟩
  rw [if_neg hshort]
  cases hvendor : decoderGet source 2 state with
  | none => exact ⟨fun h => Bool.noConfusion h, .inl rfl⟩
  | some vendor =>
    obtain ⟨vendorId, middle⟩ := vendor
    obtain ⟨-, -, rfl⟩ := decoderGet_some hvendor
    simp only
    cases hproduct : decoderGet source 2 { state with position := state.position + 2 } with
    | none => exact ⟨fun h => Bool.noConfusion h, .inl rfl⟩
    | some product =>
      obtain ⟨productId, middle⟩ := product
      obtain ⟨-, -, rfl⟩ := decoderGet_some hproduct
      simp only
      cases hserial : decoderGet source 1 { state with position := state.position + 2 + 2 } with
      | none => exact ⟨fun h => Bool.noConfusion h, .inl rfl⟩
      | some serial =>
        obtain ⟨serialLength, middle⟩ := serial
        obtain ⟨-, rfl, rfl⟩ := decoderGet_byte hserial
        simp only [Nat.add_assoc, Nat.reduceAdd]
        by_cases hout : (source.body.getD (state.position + 4) 0).toNat < 2 ∨
            (source.body.getD (state.position + 4) 0).toNat > size - 4
        · rw [if_pos hout]
          exact ⟨fun h => Bool.noConfusion h, .inl rfl⟩
        rw [if_neg hout]
        by_cases hlong : (source.body.getD (state.position + 4) 0).toNat > 2
        · rw [if_pos hlong]
          cases mgmtUtf16Decode (window nhi.descriptor.bytes 6
              ((source.body.getD (state.position + 4) 0).toNat - 2)) with
          | none => exact ⟨fun _ => rfl, .inl rfl⟩
          | some text => exact ⟨fun h => Bool.noConfusion h, .inr ⟨rfl, by omega, by omega⟩⟩
        · rw [if_neg hlong]
          exact ⟨fun h => Bool.noConfusion h, .inr ⟨rfl, by omega, by omega⟩⟩

lemma mgmtNhiDecodeOem_format :
    (mgmtNhiDecodeOem source nhi size state).1.format = nhi.format ∨
      (mgmtNhiDecodeOem source nhi size state).1.format = .oem ∧
        mgmtNhiDeviceTypeOemStart ≤ nhi.deviceType ∧ 4 ≤ size := by
  rw [mgmtNhiDecodeOem]
  by_cases hout : nhi.deviceType < mgmtNhiDeviceTypeOemStart ∨ size < 4
  · rw [if_pos hout]
    exact .inl rfl
  rw [if_neg hout]
  cases readerGet source 4 state with
  | none => exact .inl rfl
  | some iana =>
    simp only
    cases decoderGetBinary source (size - 4) iana.2 with
    | none => exact .inl rfl
    | some vendorData => exact .inr ⟨rfl, by omega, by omega⟩

lemma mgmtNhiDecode_fits (hpos : 0 < length)
    (hfits : state.position + length ≤ source.body.length)
    (h : (mgmtNhiDecode source length state).2.1.format ≠ .raw) :
    DescriptorFits (window source.body state.position length)
      (mgmtNhiDecode source length state).2.1.format := by
  have hlength : (window source.body state.position length).length = length := window_length hfits
  have hat : ∀ i < length, (window source.body state.position length).getD i 0 =
      source.body.getD (state.position + i) 0 := fun i hi => getD_window hi 0
  have hdevice := hat 0 hpos
  rw [Nat.add_zero] at hdevice
  rw [mgmtNhiDecode, decoderGet_byteAt (by omega)] at h ⊢
  simp only at h ⊢
  rw [decoderGetBinary_fits (by simp only; omega)] at h ⊢
  simp only at h ⊢
  by_cases husb : (source.body.getD state.position 0).toNat = mgmtNhiDeviceTypeUsb
  · rw [if_pos husb] at h ⊢
    rcases (@mgmtNhiDecodeUsb_cases source (length - 1)
      { state with position := state.position + 1 }
      { MgmtNhi.zero with
        deviceType := (source.body.getD state.position 0).toNat
        descriptor := binaryAt source (state.position + 1) (length - 1) }).2 with
      hraw | ⟨husbFormat, hserial, hend⟩
    · exact absurd hraw h
    · rw [husbFormat]
      simp only [Nat.add_assoc, Nat.reduceAdd] at hserial hend
      have h5 := hat 5 (by omega)
      exact .usb (by rw [hdevice, husb]) (by rw [h5]; exact hserial)
        (by rw [h5, hlength]; omega)
  rw [if_neg husb] at h ⊢
  by_cases hpci : (source.body.getD state.position 0).toNat = mgmtNhiDeviceTypePci
  · rw [if_pos hpci] at h ⊢
    cases hok : (fieldsDecodeInto source mgmtNhiPciFields (length - 1) Memory.zero
        { state with position := state.position + 1 }).1 with
    | false => exact absurd (if_neg (by rw [MgmtNhi.zero, hok]; exact Bool.false_ne_true)) h
    | true =>
      have hplain : ∀ f ∈ mgmtNhiPciFields, FixedField f := by decide
      obtain ⟨-, next, -, hsum, hend, -⟩ :=
        @fieldsDecodeInto_fixed _ _ _ _ _ [] hplain (by simp only; omega) hok
      have hbytes : (mgmtNhiPciFields.map fixedBytes).sum = 8 := rfl
      simp only at hsum hend
      simp only [MgmtNhi.zero, hok, if_true]
      exact .pci (by rw [hdevice, hpci]) (by rw [hlength]; omega)
  rw [if_neg hpci] at h ⊢
  by_cases husbV2 : (source.body.getD state.position 0).toNat = mgmtNhiDeviceTypeUsbV2
  · rw [if_pos husbV2] at h ⊢
    cases hok : (mgmtNhiDecodeV2 source mgmtNhiUsbV2Fields (length - 1) Memory.zero
        { state with position := state.position + 1 }).1 with
    | false => exact absurd (if_neg (by rw [MgmtNhi.zero, hok]; exact Bool.false_ne_true)) h
    | true =>
      have hplain : ∀ f ∈ mgmtNhiUsbV2Fields.take 4, FixedField f := by decide
      obtain ⟨hfit, part, -, next, hnext, hsum, hend, -⟩ :=
        @mgmtNhiDecodeV2_fixed _ _ _ _ _ (mgmtNhiUsbV2Fields.drop 4) hplain hok
      have hbytes : ((mgmtNhiUsbV2Fields.take 4).map fixedBytes).sum = 11 := rfl
      have hinside := hnext.inside
      simp only at hfit hsum hend
      have h1 := hat 1 (by omega)
      simp only [MgmtNhi.zero, hok, if_true]
      exact .usbV2 (by rw [hdevice, husbV2]) (by rw [h1]; omega) (by rw [h1, hlength]; omega)
  rw [if_neg husbV2] at h ⊢
  by_cases hpciV2 : (source.body.getD state.position 0).toNat = mgmtNhiDeviceTypePciV2
  · rw [if_pos hpciV2] at h ⊢
    cases hok : (mgmtNhiDecodeV2 source mgmtNhiPciV2Fields (length - 1) Memory.zero
        { state with position := state.position + 1 }).1 with
    | false => exact absurd (if_neg (by rw [MgmtNhi.zero, hok]; exact Bool.false_ne_true)) h
    | true =>
      have hplain : ∀ f ∈ mgmtNhiPciV2Fields.take 7, FixedField f := by decide
      obtain ⟨hfit, part, choices, next, hnext, hsum, hend, hrest⟩ :=
        @mgmtNhiDecodeV2_fixed _ _ _ _ _ (mgmtNhiPciV2Fields.drop 7) hplain hok
      have hbytes : ((mgmtNhiPciV2Fields.take 7).map fixedBytes).sum = 17 := rfl
      have hinside : next.position < part.body.length :=
        @bits_followed _ _ (mgmtFieldBits 28 3) _ _ _ _ rfl (by decide) rfl hnext hrest
      simp only at hfit hsum hend
      have h1 := hat 1 (by omega)
      simp only [MgmtNhi.zero, hok, if_true]
      exact .pciV2 (by rw [hdevice, hpciV2]) (by rw [h1]; omega) (by rw [h1, hlength]; omega)
  rw [if_neg hpciV2] at h ⊢
  rcases @mgmtNhiDecodeOem_format source (length - 1) { state with position := state.position + 1 }
    { MgmtNhi.zero with
      deviceType := (source.body.getD state.position 0).toNat
      descriptor := binaryAt source (state.position + 1) (length - 1) } with
    hraw | ⟨hoem, htype, hvendor⟩
  · exact absurd hraw h
  · simp only [hoem]
    exact .oem (by rw [hdevice]; exact htype) (by rw [hlength]; omega)

lemma mgmtNhiDecode_stops (h : (mgmtNhiDecode source length state).1 = false) :
    (mgmtNhiDecode source length state).2.2.position = state.position + 6 := by
  rw [mgmtNhiDecode] at h ⊢
  cases hdevice : decoderGet source 1 state with
  | none =>
    rw [hdevice] at h
    cases h
  | some device =>
    obtain ⟨deviceType, begin⟩ := device
    obtain ⟨-, -, rfl⟩ := decoderGet_some hdevice
    rw [hdevice] at h
    simp only at h ⊢
    cases hbinary : decoderGetBinary source (length - 1)
        { state with position := state.position + 1 } with
    | none =>
      rw [hbinary] at h
      cases h
    | some result =>
      rw [hbinary] at h
      simp only at h ⊢
      by_cases husb : deviceType = mgmtNhiDeviceTypeUsb
      · rw [if_pos husb] at h ⊢
        exact mgmtNhiDecodeUsb_cases.1 h
      · rw [if_neg husb] at h
        split_ifs at h

lemma mgmtControllerDecode_nhi (source : Source) (level : ℕ) :
    (mgmtControllerDecode source level).2.1.nhi =
      (mgmtIfDecode source .zero (decoderInitialize level)).2.1.nhi := by
  rw [mgmtControllerDecode]
  rcases mgmtIfDecode source .zero (decoderInitialize level) with ⟨ok, info, state⟩
  cases ok with
  | false => rfl
  | true =>
    simp only
    split_ifs
    · rfl
    · rfl
    · rw [mgmtProtoRecordsDecode]
      cases decoderGet source 1 state <;> rfl

/-- What reading a host interface promises: no byte is read outside of the window it belongs to, a
descriptor has a format only when it fits, and the reader is behind the data of the interface and
of each record which is there as a whole. -/
structure InterfaceInStep (source : Source) (level : ℕ) : Prop where
  reads : mgmtControllerDecodeWithin source level = some (mgmtControllerDecode source level)
  fits : (mgmtControllerDecode source level).2.1.nhi.format ≠ .raw →
    DescriptorFits (window source.body 6 (source.body.getD 5 0).toNat)
      (mgmtControllerDecode source level).2.1.nhi.format
  interface : 6 ≤ source.body.length → 6 + (source.body.getD 5 0).toNat ≤ source.body.length →
    (mgmtIfDecode source .zero (decoderInitialize level)).2.2.position =
      6 + (source.body.getD 5 0).toNat
  records : ∀ state : DecodeState, state.isIncomplete = false →
    state.position + 2 + (source.body.getD (state.position + 1) 0).toNat ≤ source.body.length →
    (mgmtProtoRecordDecode source state).2.2.position =
      state.position + 2 + (source.body.getD (state.position + 1) 0).toNat

lemma mgmtControllerDecode_fits (hp : source.isPart = false) (level : ℕ)
    (h : (mgmtControllerDecode source level).2.1.nhi.format ≠ .raw) :
    DescriptorFits (window source.body 6 (source.body.getD 5 0).toNat)
      (mgmtControllerDecode source level).2.1.nhi.format := by
  have hat : (decoderInitialize level).position = 4 := rfl
  rw [mgmtControllerDecode_nhi] at h ⊢
  by_cases hwhole : 6 + (source.body.getD 5 0).toNat ≤ source.body.length
  · rw [@mgmtIfDecode_whole source (decoderInitialize level) .zero hwhole] at h ⊢
    simp only [hat, Nat.reduceAdd] at h ⊢
    by_cases hnetwork : (source.body.getD 4 0).toNat = mgmtIfaceTypeNetworkHost ∧
        0 < (source.body.getD 5 0).toNat
    · rw [if_pos hnetwork] at h ⊢
      have hfits := @mgmtNhiDecode_fits source _ { decoderInitialize level with position := 6 }
        hnetwork.2 hwhole
      simp only at hfits
      generalize mgmtNhiDecode source _ _ = result at h hfits ⊢
      obtain ⟨ok, nhi, next⟩ := result
      cases ok <;> exact hfits h
    · rw [if_neg hnetwork] at h
      exact absurd rfl h
  · by_cases hlong : 6 ≤ source.body.length
    · rw [@mgmtIfDecode_cut source (decoderInitialize level) .zero hp hlong (not_le.mp hwhole)] at h
      exact absurd rfl h
    · obtain ⟨next, habsent⟩ := @mgmtIfDecode_absent source (decoderInitialize level) .zero
        (not_le.mp hlong)
      rw [habsent] at h
      exact absurd rfl h

lemma mgmtIfDecode_position (hp : source.isPart = false) (level : ℕ)
    (hlong : 6 ≤ source.body.length)
    (hwhole : 6 + (source.body.getD 5 0).toNat ≤ source.body.length) :
    (mgmtIfDecode source .zero (decoderInitialize level)).2.2.position =
        6 + (source.body.getD 5 0).toNat ↔ ¬ SerialOfOneByte source.body := by
  have hfails := mgmtIfDecode_fails (decoderInitialize level) hp rfl hlong .zero
  have hat : (decoderInitialize level).position = 4 := rfl
  rw [← hfails, @mgmtIfDecode_whole source (decoderInitialize level) .zero hwhole]
  simp only [hat, Nat.reduceAdd]
  by_cases hnetwork : (source.body.getD 4 0).toNat = mgmtIfaceTypeNetworkHost ∧
      0 < (source.body.getD 5 0).toNat
  · rw [if_pos hnetwork]
    have hrefused := mgmtNhiDecode_fails source { decoderInitialize level with position := 6 } _
      hnetwork.2 hwhole
    have hstops := @mgmtNhiDecode_stops source (source.body.getD 5 0).toNat
      { decoderInitialize level with position := 6 }
    simp only at hrefused hstops
    generalize mgmtNhiDecode source _ _ = result at hrefused hstops ⊢
    obtain ⟨ok, nhi, next⟩ := result
    cases ok with
    | false =>
      have hend : next.position = 6 + 6 := hstops rfl
      have hlength := (hrefused.mp rfl).2.1
      exact iff_of_false (by simp only; omega) (not_not.mpr rfl)
    | true => exact iff_of_true rfl Bool.true_eq_false.mp
  · rw [if_neg hnetwork]
    exact iff_of_true rfl Bool.true_eq_false.mp

/-- A host interface is read in bounds and in step exactly when it neither has the device type of a
v2 descriptor alone, with another byte behind it, nor a serial number of one byte. -/
theorem mgmtControllerDecode_inStep (entity : Entity) (version level : ℕ) :
    InterfaceInStep (entitySource entity version) level ↔
      ¬ SerialOfOneByte (entitySource entity version).body ∧
        ¬ LoneV2Interface (entitySource entity version).body := by
  constructor
  · intro h
    refine ⟨fun hserial => ?_, (mgmtControllerDecodeWithin_iff _ level).mp h.reads⟩
    have hlength := hserial.length
    have hfits := hserial.fits
    have hposition := h.interface (by omega) hfits
    exact (mgmtIfDecode_position rfl level (by omega) hfits).mp hposition hserial
  · intro ⟨hserial, hlone⟩
    refine ⟨(mgmtControllerDecodeWithin_iff _ level).mpr hlone, mgmtControllerDecode_fits rfl level,
      fun hlong hwhole => (mgmtIfDecode_position rfl level hlong hwhole).mpr hserial,
      fun state hflag hwhole => ?_⟩
    cases hrecord : mgmtProtoRecordDecode (entitySource entity version) state with
    | mk ok result =>
      obtain ⟨-, hspec⟩ := mgmtProtoRecordDecode_spec rfl hflag hrecord
      rw [if_pos hwhole] at hspec
      exact hspec.2.1

def loneV2 : Entity :=
  { (default : Entity) with
    typeId := 42, totalLength := 10, bodyLength := 8,
    buffer := ⟨0, [42, 8, 0, 0, 0x40, 1, 4, 0, 0, 0]⟩ }

theorem lone_v2_and_short_serial_out_of_step :
    ¬ InterfaceInStep (entitySource loneV2 0) (dmiVersion 3 2 0) ∧
      ¬ InterfaceInStep (entitySource shortSerial 0) (dmiVersion 3 2 0) := by
  constructor
  · intro h
    exact (mgmtControllerDecodeWithin_iff _ _).mp h.reads
      ⟨by decide, by decide, by decide, by decide⟩
  · intro h
    exact (mgmtIfDecode_position rfl _ (by decide) (by decide)).mp
      (h.interface (by decide) (by decide)) ⟨by decide, by decide, by decide, by decide, by decide⟩

end OpenDmi

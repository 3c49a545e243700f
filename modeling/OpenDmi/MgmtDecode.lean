import OpenDmi.MgmtController
import OpenDmi.PartFlags

namespace OpenDmi

open Bytes

variable {source : Source} {state next : DecodeState} {length size number : ℕ}
  {nhi : MgmtNhi} {record : MgmtProtoRecord} {info : MgmtController}

lemma SameFlags.trans {a b c : DecodeState} (h : SameFlags a b) (h' : SameFlags b c) :
    SameFlags a c := ⟨h'.1.trans h.1, h'.2.trans h.2⟩

lemma decoderGet_some (h : decoderGet source length state = some (number, next)) :
    state.position + length ≤ source.body.length ∧
      number = leLoad (window source.body state.position length) ∧
      next = { state with position := state.position + length } := by
  obtain ⟨⟨bytes, middle⟩, hget, heq⟩ := Option.map_eq_some_iff.mp h
  obtain ⟨hfits, rfl, rfl⟩ := readerGet_some hget
  cases heq
  exact ⟨hfits, rfl, rfl⟩

lemma readerGet_fits (h : state.position + length ≤ source.body.length) :
    readerGet source length state = some (window source.body state.position length,
      { state with position := state.position + length }) := if_pos h

lemma decoderGet_fits (h : state.position + length ≤ source.body.length) :
    decoderGet source length state = some (leLoad (window source.body state.position length),
      { state with position := state.position + length }) := by
  rw [decoderGet, readerGet_fits h]
  rfl

lemma decoderGet_none (h : decoderGet source length state = none) :
    source.body.length < state.position + length := by
  by_contra hfits
  rw [decoderGet, readerGet_fits (by omega)] at h
  cases h

lemma window_byte {data : List Byte} {offset : ℕ} (h : offset < data.length) :
    window data offset 1 = [data.getD offset 0] := by
  rw [window, List.drop_eq_getElem_cons h, List.take_succ_cons, List.take_zero]
  simp [h]

lemma decoderGet_byte (h : decoderGet source 1 state = some (number, next)) :
    state.position < source.body.length ∧
      number = (source.body.getD state.position 0).toNat ∧
      next = { state with position := state.position + 1 } := by
  obtain ⟨hfits, rfl, rfl⟩ := decoderGet_some h
  refine ⟨by omega, ?_, rfl⟩
  rw [window_byte (by omega)]
  simp only [leLoad, Nat.mul_zero, Nat.add_zero]

lemma decoderGet_byteAt (h : state.position < source.body.length) :
    decoderGet source 1 state = some ((source.body.getD state.position 0).toNat,
      { state with position := state.position + 1 }) := by
  rw [decoderGet_fits (by omega), window_byte h]
  simp only [leLoad, Nat.mul_zero, Nat.add_zero]

lemma decoderGetBinary_fits (h : state.position + length ≤ source.body.length) :
    decoderGetBinary source length state = some (binaryAt source state.position length,
      { state with position := state.position + length }) := by
  rw [decoderGetBinary, readerGet_fits h]
  rfl

lemma decoderGet_sameFlags (h : decoderGet source length state = some (number, next)) :
    SameFlags state next := by
  obtain ⟨-, -, rfl⟩ := decoderGet_some h
  exact ⟨rfl, rfl⟩

lemma mgmtNhiDecodeUsb_sameFlags (nhi : MgmtNhi) (size : ℕ) (state : DecodeState) :
    SameFlags state (mgmtNhiDecodeUsb source nhi size state).2.2 := by
  rw [mgmtNhiDecodeUsb]
  split_ifs
  · exact ⟨rfl, rfl⟩
  cases hvendor : decoderGet source 2 state with
  | none => exact ⟨rfl, rfl⟩
  | some vendor =>
    have hv := decoderGet_sameFlags hvendor
    simp only
    cases hproduct : decoderGet source 2 vendor.2 with
    | none => exact hv
    | some product =>
      have hp := hv.trans (decoderGet_sameFlags hproduct)
      simp only
      cases hserial : decoderGet source 1 product.2 with
      | none => exact hp
      | some serial =>
        have hs := hp.trans (decoderGet_sameFlags hserial)
        simp only
        split_ifs
        · exact hs
        · cases mgmtUtf16Decode (window nhi.descriptor.bytes 6 (serial.1 - 2)) <;> exact hs
        · exact hs

lemma mgmtNhiDecodeV2_sameFlags (fields : List Field) (size : ℕ) (info : Memory)
    (state : DecodeState) :
    SameFlags state (mgmtNhiDecodeV2 source fields size info state).2.2 := by
  rw [mgmtNhiDecodeV2]
  cases hlength : decoderGet source 1 state with
  | none => exact ⟨rfl, rfl⟩
  | some length =>
    have hl := decoderGet_sameFlags hlength
    simp only
    split_ifs
    · exact hl
    · exact hl.trans (fieldsDecodeInto_sameFlags source fields (length.1 - 2) info length.2)

lemma mgmtNhiDecodeOem_sameFlags (nhi : MgmtNhi) (size : ℕ) (state : DecodeState) :
    SameFlags state (mgmtNhiDecodeOem source nhi size state).2 := by
  rw [mgmtNhiDecodeOem]
  split_ifs
  · exact ⟨rfl, rfl⟩
  cases hiana : readerGet source 4 state with
  | none => exact ⟨rfl, rfl⟩
  | some iana =>
    obtain ⟨bytes, middle⟩ := iana
    obtain ⟨-, -, rfl⟩ := readerGet_some hiana
    simp only
    cases hdata : decoderGetBinary source (size - 4)
      { state with position := state.position + 4 } with
    | none => exact ⟨rfl, rfl⟩
    | some data =>
      obtain ⟨binary, final⟩ := data
      obtain ⟨-, -, rfl⟩ := decoderGetBinary_some hdata
      exact ⟨rfl, rfl⟩

lemma mgmtNhiDecode_sameFlags (source : Source) (length : ℕ) (state : DecodeState) :
    SameFlags state (mgmtNhiDecode source length state).2.2 := by
  rw [mgmtNhiDecode]
  cases hdevice : decoderGet source 1 state with
  | none => exact ⟨rfl, rfl⟩
  | some device =>
    have hd := decoderGet_sameFlags hdevice
    simp only
    cases hdescriptor : decoderGetBinary source (length - 1) device.2 with
    | none => exact hd
    | some descriptor =>
      simp only
      by_cases husb : device.1 = mgmtNhiDeviceTypeUsb
      · rw [if_pos husb]
        exact hd.trans (mgmtNhiDecodeUsb_sameFlags _ _ _)
      rw [if_neg husb]
      by_cases hpci : device.1 = mgmtNhiDeviceTypePci
      · rw [if_pos hpci]
        exact hd.trans (fieldsDecodeInto_sameFlags _ _ _ _ _)
      rw [if_neg hpci]
      by_cases husbV2 : device.1 = mgmtNhiDeviceTypeUsbV2
      · rw [if_pos husbV2]
        exact hd.trans (mgmtNhiDecodeV2_sameFlags _ _ _ _)
      rw [if_neg husbV2]
      by_cases hpciV2 : device.1 = mgmtNhiDeviceTypePciV2
      · rw [if_pos hpciV2]
        exact hd.trans (mgmtNhiDecodeV2_sameFlags _ _ _ _)
      rw [if_neg hpciV2]
      exact hd.trans (mgmtNhiDecodeOem_sameFlags _ _ _)

lemma mgmtRedfishDecode_kept (source : Source) (record : MgmtProtoRecord) (state : DecodeState) :
    (mgmtRedfishDecode source record state).1.type = record.type ∧
      (mgmtRedfishDecode source record state).1.data = record.data ∧
      SameFlags state (mgmtRedfishDecode source record state).2 := by
  rw [mgmtRedfishDecode]
  simp only
  split_ifs with hshort
  · exact ⟨rfl, rfl, rfl, rfl⟩
  have hpart := fieldsDecodeInto_sameFlags source mgmtRedfishFields mgmtRedfishFieldsLength
    record.redfish state
  cases hresult : fieldsDecodeInto source mgmtRedfishFields mgmtRedfishFieldsLength
      record.redfish state with
  | mk ok result =>
    rw [hresult] at hpart
    cases ok with
    | false => exact ⟨rfl, rfl, hpart⟩
    | true =>
      simp only
      cases hname : decoderGet source 1 result.2 with
      | none => exact ⟨rfl, rfl, hpart⟩
      | some name =>
        have hn := hpart.trans (decoderGet_sameFlags hname)
        simp only
        by_cases hlong : name.1 > record.data.bytes.length - mgmtRedfishFieldsLength - 1
        · rw [if_pos hlong]
          exact ⟨rfl, rfl, hn⟩
        · rw [if_neg hlong]
          exact ⟨rfl, rfl, hn⟩

def recordsHeld : ℕ → List Byte → Bool
  | 0, _ => true
  | count + 1, _ :: length :: rest =>
    decide (length.toNat ≤ rest.length) && recordsHeld count (rest.drop length.toNat)
  | _ + 1, _ => false

def holdsRecords (body : List Byte) : Bool :=
  match (body.drop (headerSize + 2)).drop (body.getD (headerSize + 1) 0).toNat with
  | [] => true
  | count :: records => recordsHeld count.toNat records

inductive Records (body : List Byte) : ℕ → List MgmtProtoRecord → ℕ → Prop
  | nil {p : ℕ} : Records body p [] p
  | cons {p q : ℕ} {record : MgmtProtoRecord} {records : List MgmtProtoRecord}
      (fits : p + 2 + (body.getD (p + 1) 0).toNat ≤ body.length)
      (type : record.type = (body.getD p 0).toNat)
      (data : record.data.bytes = window body (p + 2) (body.getD (p + 1) 0).toNat)
      (rest : Records body (p + 2 + (body.getD (p + 1) 0).toNat) records q) :
      Records body p (record :: records) q

lemma recordsHeld_drop {body : List Byte} {p count : ℕ} :
    recordsHeld (count + 1) (body.drop p) = true ↔
      p + 2 + (body.getD (p + 1) 0).toNat ≤ body.length ∧
        recordsHeld count (body.drop (p + 2 + (body.getD (p + 1) 0).toNat)) = true := by
  by_cases hp : p + 2 ≤ body.length
  · have h0 : p < body.length := by omega
    have h1 : p + 1 < body.length := by omega
    have hget : body.getD (p + 1) 0 = body[p + 1] := by simp [h1]
    rw [List.drop_eq_getElem_cons h0, List.drop_eq_getElem_cons h1, recordsHeld, hget,
      List.drop_drop, List.length_drop, Bool.and_eq_true, decide_eq_true_eq]
    exact and_congr_left fun _ => by omega
  · have hlen : (body.drop p).length < 2 := by rw [List.length_drop]; omega
    constructor
    · intro h
      cases hd : body.drop p with
      | nil => simp [hd, recordsHeld] at h
      | cons a rest =>
        cases rest with
        | nil => simp [hd, recordsHeld] at h
        | cons b rest => simp [hd] at hlen
    · intro h
      omega

lemma decoderIncomplete_eq (hp : source.isPart = false) (state : DecodeState) :
    decoderIncomplete source state = (true, { state with isIncomplete := true }) := by
  rw [decoderIncomplete, hp]
  rfl

lemma mgmtProtoRecordDecode_spec (hp : source.isPart = false) {ok : Bool}
    (hc : state.isIncomplete = false)
    (h : mgmtProtoRecordDecode source state = (ok, record, next)) :
    ok = true ∧
      if state.position + 2 + (source.body.getD (state.position + 1) 0).toNat ≤ source.body.length
      then next.isIncomplete = false ∧
        next.position =
          state.position + 2 + (source.body.getD (state.position + 1) 0).toNat ∧
        record.type = (source.body.getD state.position 0).toNat ∧
        record.data.bytes = window source.body (state.position + 2)
          (source.body.getD (state.position + 1) 0).toNat
      else next.isIncomplete = true := by
  rw [mgmtProtoRecordDecode] at h
  simp only [decoderIncomplete_eq hp] at h
  cases htype : decoderGet source 1 state with
  | none =>
    have hend := decoderGet_none htype
    rw [htype] at h
    cases h
    exact ⟨rfl, by rw [if_neg (by omega)]⟩
  | some type =>
    obtain ⟨type, middle⟩ := type
    obtain ⟨htypeFits, rfl, rfl⟩ := decoderGet_byte htype
    rw [htype] at h
    simp only at h
    cases hlength : decoderGet source 1 { state with position := state.position + 1 } with
    | none =>
      have hend := decoderGet_none hlength
      rw [hlength] at h
      cases h
      exact ⟨rfl, by rw [if_neg (by simp only at hend; omega)]⟩
    | some length =>
      obtain ⟨length, start⟩ := length
      obtain ⟨hlengthFits, rfl, rfl⟩ := decoderGet_byte hlength
      rw [hlength] at h
      simp only [readerRemaining] at h hlengthFits
      by_cases hshort : source.body.length - (state.position + 1 + 1) <
          (source.body.getD (state.position + 1) 0).toNat
      · rw [if_pos hshort] at h
        cases h
        exact ⟨rfl, by rw [if_neg (by omega)]⟩
      rw [if_neg hshort] at h
      rw [decoderGetBinary_fits (by simp only; omega)] at h
      simp only at h
      rw [if_pos (by omega)]
      by_cases hredfish : (source.body.getD state.position 0).toNat = mgmtProtoRedfishOverIp
      · rw [if_pos hredfish] at h
        obtain ⟨hkeptType, hkeptData, -, hflag⟩ := mgmtRedfishDecode_kept
          source { MgmtProtoRecord.zero with
            type := (source.body.getD state.position 0).toNat
            data := binaryAt source (state.position + 2)
              (source.body.getD (state.position + 1) 0).toNat }
          { state with position := state.position + 1 + 1 }
        cases h
        exact ⟨rfl, hflag.trans hc, rfl, hkeptType, congrArg Binary.bytes hkeptData⟩
      · rw [if_neg hredfish] at h
        cases h
        exact ⟨rfl, hc, rfl, rfl, rfl⟩

lemma mgmtProtoRecordsFrom_spec (hp : source.isPart = false) {count : ℕ} {ok : Bool}
    {records : List MgmtProtoRecord} (hc : state.isIncomplete = false)
    (h : mgmtProtoRecordsFrom source count state = (ok, records, next)) :
    ok = true ∧ (∃ q, Records source.body state.position records q) ∧ records.length ≤ count ∧
      (records.length = count ↔ recordsHeld count (source.body.drop state.position) = true) := by
  induction count generalizing state records ok next with
  | zero =>
    cases h
    exact ⟨rfl, ⟨_, .nil⟩, le_rfl, by simp [recordsHeld]⟩
  | succ count ih =>
    rw [mgmtProtoRecordsFrom] at h
    cases hone : mgmtProtoRecordDecode source state with
    | mk ok' result =>
      obtain ⟨record, middle⟩ := result
      obtain ⟨rfl, hspec⟩ := mgmtProtoRecordDecode_spec hp hc hone
      rw [hone] at h
      simp only at h
      rw [recordsHeld_drop]
      by_cases hfits : state.position + 2 + (source.body.getD (state.position + 1) 0).toNat ≤
          source.body.length
      · rw [if_pos hfits] at hspec
        obtain ⟨hflag, hposition, htype, hdata⟩ := hspec
        rw [hflag, if_neg Bool.false_ne_true] at h
        cases hrest : mgmtProtoRecordsFrom source count middle with
        | mk ok' result =>
          obtain ⟨rest, last⟩ := result
          obtain ⟨rfl, ⟨q, hrecords⟩, hle, hiff⟩ := ih hflag hrest
          rw [hrest] at h
          cases h
          rw [hposition] at hrecords hiff
          exact ⟨rfl, ⟨q, .cons hfits htype hdata hrecords⟩, Nat.succ_le_succ hle, by
            rw [List.length_cons, Nat.succ_inj, hiff]
            exact ⟨fun h => ⟨hfits, h⟩, And.right⟩⟩
      · rw [if_neg hfits] at hspec
        rw [hspec, if_pos rfl] at h
        cases h
        exact ⟨rfl, ⟨_, .nil⟩, Nat.zero_le _, fun h => by simp at h, fun h => absurd h.1 hfits⟩

lemma mgmtIfDecode_absent (info : MgmtController)
    (h : source.body.length < state.position + 2) :
    ∃ next, mgmtIfDecode source info state = (false, info, next) := by
  rw [mgmtIfDecode]
  cases htype : decoderGet source 1 state with
  | none => exact ⟨state, rfl⟩
  | some type =>
    obtain ⟨type, middle⟩ := type
    obtain ⟨-, -, rfl⟩ := decoderGet_byte htype
    simp only
    cases hlength : decoderGet source 1 { state with position := state.position + 1 } with
    | none => exact ⟨_, rfl⟩
    | some length =>
      have hfits := (decoderGet_byte hlength).1
      simp only at hfits
      omega

lemma mgmtIfDecode_cut (info : MgmtController) (hp : source.isPart = false)
    (hlong : state.position + 2 ≤ source.body.length)
    (hcut : source.body.length <
      state.position + 2 + (source.body.getD (state.position + 1) 0).toNat) :
    mgmtIfDecode source info state =
      (true, { info with interfaceType := (source.body.getD state.position 0).toNat },
        { state with position := state.position + 2, isIncomplete := true }) := by
  rw [mgmtIfDecode, decoderGet_byteAt (by omega)]
  simp only
  rw [decoderGet_byteAt (by simp only; omega)]
  simp only [readerRemaining, decoderIncomplete_eq hp]
  rw [if_pos (by omega)]

lemma mgmtIfDecode_whole (info : MgmtController)
    (hwhole : state.position + 2 + (source.body.getD (state.position + 1) 0).toNat ≤
      source.body.length) :
    mgmtIfDecode source info state =
      let length := (source.body.getD (state.position + 1) 0).toNat
      let info := { info with
        interfaceType := (source.body.getD state.position 0).toNat
        interfaceData := binaryAt source (state.position + 2) length }
      let behind (next : DecodeState) := { next with position := state.position + 2 + length }
      if (source.body.getD state.position 0).toNat = mgmtIfaceTypeNetworkHost ∧ 0 < length then
        match mgmtNhiDecode source length { state with position := state.position + 2 } with
        | (false, nhi, next) => (false, { info with nhi := nhi }, next)
        | (true, nhi, next) => (true, { info with nhi := nhi, hasNhi := true }, behind next)
      else (true, info, behind state) := by
  rw [mgmtIfDecode, decoderGet_byteAt (by omega)]
  simp only
  rw [decoderGet_byteAt (by simp only; omega)]
  simp only [readerRemaining]
  rewrite [if_neg (by omega), decoderGetBinary_fits (by simp only; omega)]
  rfl

lemma mgmtIfDecode_spec (hp : source.isPart = false) (hc : state.isIncomplete = false)
    (h : mgmtIfDecode source .zero state = (true, info, next)) :
    state.position + 2 ≤ source.body.length ∧ info.protoRecords = [] ∧
      info.interfaceType = (source.body.getD state.position 0).toNat ∧
      if state.position + 2 + (source.body.getD (state.position + 1) 0).toNat ≤ source.body.length
      then next.isIncomplete = false ∧
        next.position =
          state.position + 2 + (source.body.getD (state.position + 1) 0).toNat ∧
        info.interfaceData.bytes = window source.body (state.position + 2)
          (source.body.getD (state.position + 1) 0).toNat
      else next.isIncomplete = true ∧ info.interfaceData.bytes = [] := by
  by_cases hlong : state.position + 2 ≤ source.body.length
  · refine ⟨hlong, ?_⟩
    by_cases hwhole : state.position + 2 + (source.body.getD (state.position + 1) 0).toNat ≤
        source.body.length
    · rw [if_pos hwhole]
      rw [mgmtIfDecode_whole _ hwhole] at h
      simp only at h
      by_cases hnetwork : (source.body.getD state.position 0).toNat = mgmtIfaceTypeNetworkHost ∧
          0 < (source.body.getD (state.position + 1) 0).toNat
      · rw [if_pos hnetwork] at h
        have hflag := mgmtNhiDecode_sameFlags source
          (source.body.getD (state.position + 1) 0).toNat
          { state with position := state.position + 2 }
        cases hnhi : mgmtNhiDecode source (source.body.getD (state.position + 1) 0).toNat
            { state with position := state.position + 2 } with
        | mk ok result =>
          rw [hnhi] at h hflag
          cases ok with
          | false => cases h
          | true =>
            cases h
            exact ⟨rfl, rfl, hflag.2.trans hc, rfl, rfl⟩
      · rw [if_neg hnetwork] at h
        cases h
        exact ⟨rfl, rfl, hc, rfl, rfl⟩
    · rw [if_neg hwhole]
      rw [mgmtIfDecode_cut _ hp hlong (not_le.mp hwhole)] at h
      cases h
      exact ⟨rfl, rfl, rfl, rfl⟩
  · obtain ⟨next', hfalse⟩ := mgmtIfDecode_absent .zero (not_le.mp hlong)
    cases hfalse.symm.trans h

end OpenDmi

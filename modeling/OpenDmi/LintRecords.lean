import OpenDmi.Lint
import OpenDmi.MappedRange
import OpenDmi.MgmtDecode

/-! The rule of the protocol records of a management controller, next to the decoder of them. -/

namespace OpenDmi

open Bytes

def mgmtMinimumLength : ℕ := 0x06

def mgmtIfLengthOffset : ℕ := 0x05

def mgmtRecordOverrun (source : Source) : ℕ → ℕ → ℕ → Option ℕ
  | 0, _, _ => none
  | left + 1, i, offset => match decoderGetAt source offset 2 with
    | none => some i
    | some _ =>
      let next := offset + 2 + (source.body.getD (offset + 1) 0).toNat
      if next ≤ source.body.length then mgmtRecordOverrun source left (i + 1) next else some i

def mgmtControllerLintRecords (lint : Lint) (entity : Entity) (source : Source) : List LintIssue :=
  match decoderGetAt source mgmtIfLengthOffset 1 with
  | none => []
  | some length =>
    let offset := mgmtIfLengthOffset + 1 + length
    match decoderGetAt source offset 1 with
    | none => [lintIssue "mgmt-controller.records" (some entity) (some "interface-data")
        ((lintEntityOffset lint.table entity).map (· + mgmtIfLengthOffset))
        "interface data of %u bytes leaves no room for the protocol records" [.number length]]
    | some count => match mgmtRecordOverrun source count 0 (offset + 1) with
      | none => []
      | some i => [lintIssue "mgmt-controller.records" (some entity) (some "protocol-records")
          (lintEntityOffset lint.table entity)
          "record %u of %u does not fit the structure of %zu bytes"
          [.number (i + 1), .number count, .number source.body.length]]

def mgmtEntityDecode (source : Source) : Option (MgmtController × DecodeState) :=
  if source.body.length < mgmtMinimumLength then none
  else match mgmtControllerDecode source (dmiVersion 2 7 0) with
    | (false, _, _) => none
    | (true, info, state) => some (info, state)

variable {source : Source} {state next : DecodeState} {record : MgmtProtoRecord}
  {records : List MgmtProtoRecord} {count : ℕ}

lemma mgmtRecordsFrom_overrun (hp : source.isPart = false) {ok : Bool}
    (hc : state.isIncomplete = false)
    (h : mgmtProtoRecordsFrom source count state = (ok, records, next)) (i : ℕ) :
    ok = true ∧ mgmtRecordOverrun source count i state.position =
        (if next.isIncomplete = true then some (i + records.length) else none) ∧
      (next.isIncomplete = false → records.length = count) ∧
      (next.isIncomplete = true → records.length < count) := by
  induction count generalizing state records ok next i with
  | zero =>
    cases h
    simp [mgmtRecordOverrun, hc]
  | succ count ih =>
    rw [mgmtProtoRecordsFrom] at h
    cases hone : mgmtProtoRecordDecode source state with
    | mk ok' result =>
      obtain ⟨record, middle⟩ := result
      obtain ⟨rfl, hspec⟩ := mgmtProtoRecordDecode_spec hp hc hone
      rw [hone] at h
      simp only at h
      by_cases hfits : state.position + 2 + (source.body.getD (state.position + 1) 0).toNat ≤
          source.body.length
      · have hhead : state.position + 2 ≤ source.body.length := by omega
        rw [if_pos hfits] at hspec
        obtain ⟨hflag, hposition, -, -⟩ := hspec
        rw [hflag, if_neg Bool.false_ne_true] at h
        cases hrest : mgmtProtoRecordsFrom source count middle with
        | mk ok' result =>
          obtain ⟨rest, last⟩ := result
          obtain ⟨rfl, hwalk, hfull, hcut⟩ := ih hflag hrest (i + 1)
          rw [hrest] at h
          cases h
          rw [hposition] at hwalk
          refine ⟨rfl, ?_, fun hflag => ?_, fun hflag => ?_⟩
          · simp only [mgmtRecordOverrun, decoderGetAt, if_pos hhead, if_pos hfits, hwalk,
              List.length_cons]
            rw [show i + 1 + rest.length = i + (rest.length + 1) by omega]
          · rw [List.length_cons, hfull hflag]
          · rw [List.length_cons]
            exact Nat.succ_lt_succ (hcut hflag)
      · rw [if_neg hfits] at hspec
        rw [hspec, if_pos rfl] at h
        cases h
        refine ⟨rfl, ?_, fun hflag => ?_, fun _ => Nat.succ_pos count⟩
        · rw [mgmtRecordOverrun, hspec, if_pos rfl]
          cases decoderGetAt source state.position 2 with
          | none => rfl
          | some _ => simp only [if_neg hfits]; rfl
        · rw [hspec] at hflag
          cases hflag

lemma byte_eq {position : ℕ} (h : position < source.body.length) :
    leLoad (window source.body position 1) = (source.body.getD position 0).toNat := by
  rw [window_byte h]
  simp only [leLoad, Nat.mul_zero, Nat.add_zero]

structure SerialOfOneByte (body : List Byte) : Prop where
  network : (body.getD 4 0).toNat = mgmtIfaceTypeNetworkHost
  length : 8 ≤ (body.getD 5 0).toNat
  fits : 6 + (body.getD 5 0).toNat ≤ body.length
  usb : (body.getD 6 0).toNat = mgmtNhiDeviceTypeUsb
  serial : (body.getD 11 0).toNat = 3

lemma mgmtUtf16Decode_none {data : List Byte} : mgmtUtf16Decode data = none ↔ data.length < 2 := by
  rw [mgmtUtf16Decode]
  split_ifs with hcount
  · simp only [true_iff]
    omega
  · simp only [false_iff]
    omega

lemma mgmtNhiDecodeUsb_fails {nhi : MgmtNhi} {size : ℕ}
    (hfits : state.position + size ≤ source.body.length) (hdescriptor : nhi.descriptor.bytes.length = size) :
    (mgmtNhiDecodeUsb source nhi size state).1 = false ↔
      7 ≤ size ∧ (source.body.getD (state.position + 4) 0).toNat = 3 := by
  rw [mgmtNhiDecodeUsb]
  by_cases hshort : size < 6
  · rw [if_pos hshort]
    simp only [Bool.true_eq_false, false_iff]
    omega
  rw [if_neg hshort, decoderGet_fits (by omega)]
  simp only
  rw [decoderGet_fits (by simp only; omega)]
  simp only
  rw [decoderGet_byteAt (by simp only; omega)]
  simp only [Nat.add_assoc, Nat.reduceAdd]
  generalize (source.body.getD (state.position + 4) 0).toNat = serial
  by_cases hout : serial < 2 ∨ serial > size - 4
  · rw [if_pos hout]
    simp only [Bool.true_eq_false, false_iff]
    omega
  rw [if_neg hout]
  by_cases hlong : serial > 2
  · have hwindow : (window nhi.descriptor.bytes 6 (serial - 2)).length = serial - 2 :=
      window_length (by omega)
    rw [if_pos hlong]
    cases htext : mgmtUtf16Decode (window nhi.descriptor.bytes 6 (serial - 2)) with
    | none =>
      have hone := mgmtUtf16Decode_none.mp htext
      simp only [true_iff]
      omega
    | some text =>
      have hmore : ¬ (window nhi.descriptor.bytes 6 (serial - 2)).length < 2 := fun h => by
        cases htext.symm.trans (mgmtUtf16Decode_none.mpr h)
      simp only [Bool.true_eq_false, false_iff]
      omega
  · rw [if_neg hlong]
    simp only [Bool.true_eq_false, false_iff]
    omega

variable (source state) in
lemma mgmtNhiDecode_fails (length : ℕ) (hpos : 0 < length)
    (hfits : state.position + length ≤ source.body.length) :
    (mgmtNhiDecode source length state).1 = false ↔
      (source.body.getD state.position 0).toNat = mgmtNhiDeviceTypeUsb ∧ 8 ≤ length ∧
        (source.body.getD (state.position + 5) 0).toNat = 3 := by
  rw [mgmtNhiDecode, decoderGet_byteAt (by omega)]
  simp only
  rw [decoderGetBinary_fits (by simp only; omega)]
  simp only
  by_cases husb : (source.body.getD state.position 0).toNat = mgmtNhiDeviceTypeUsb
  · have hdescriptor : (binaryAt source (state.position + 1) (length - 1)).bytes.length =
        length - 1 := window_length (by omega)
    rw [if_pos husb, mgmtNhiDecodeUsb_fails (by simp only; omega) hdescriptor]
    simp only [husb, true_and, Nat.add_assoc, Nat.reduceAdd]
    exact and_congr_left fun _ => by omega
  · rw [if_neg husb]
    simp only [husb, false_and, iff_false, Bool.not_eq_false]
    split_ifs <;> rfl

variable (state) in
lemma mgmtIfDecode_fails (hp : source.isPart = false) (hat : state.position = headerSize)
    (hlong : 6 ≤ source.body.length) (info : MgmtController) :
    (mgmtIfDecode source info state).1 = false ↔ SerialOfOneByte source.body := by
  have hat : state.position = 4 := hat
  by_cases hwhole : state.position + 2 + (source.body.getD (state.position + 1) 0).toNat ≤
      source.body.length
  · rw [mgmtIfDecode_whole _ hwhole]
    simp only [hat, Nat.reduceAdd] at hwhole ⊢
    by_cases hnetwork : (source.body.getD 4 0).toNat = mgmtIfaceTypeNetworkHost ∧
        0 < (source.body.getD 5 0).toNat
    · rw [if_pos hnetwork]
      have hfails := mgmtNhiDecode_fails source { state with position := 6 } _ hnetwork.2 hwhole
      have hserial : SerialOfOneByte source.body ↔
          (source.body.getD 6 0).toNat = mgmtNhiDeviceTypeUsb ∧
            8 ≤ (source.body.getD 5 0).toNat ∧ (source.body.getD 11 0).toNat = 3 :=
        ⟨fun h => ⟨h.usb, h.length, h.serial⟩,
          fun h => ⟨hnetwork.1, h.2.1, hwhole, h.1, h.2.2⟩⟩
      rw [hserial, ← hfails]
      split <;> rename_i heq <;> rw [heq]
    · rw [if_neg hnetwork]
      simp only [Bool.true_eq_false, false_iff]
      intro hserial
      have hlength := hserial.length
      exact hnetwork ⟨hserial.network, by omega⟩
  · rw [mgmtIfDecode_cut info hp (by omega) (not_le.mp hwhole)]
    simp only [hat, Nat.reduceAdd] at hwhole
    exact iff_of_false Bool.noConfusion fun hserial => hwhole hserial.fits

lemma mgmtIfDecode_reads (hp : source.isPart = false) (hlong : 6 ≤ source.body.length)
    (hserial : ¬ SerialOfOneByte source.body) : ∃ info state,
    mgmtIfDecode source .zero (decoderInitialize (dmiVersion 2 7 0)) = (true, info, state) := by
  have hread := mt (mgmtIfDecode_fails (decoderInitialize (dmiVersion 2 7 0)) hp rfl
    hlong .zero).mp hserial
  exact ⟨_, _, Prod.ext (Bool.not_eq_false _ ▸ hread) rfl⟩

def declaredRecords (body : List Byte) : Option ℕ :=
  (body[5]?).bind fun length => (body[6 + length.toNat]?).map UInt8.toNat

def IncompleteAfter (source : Source) (decoded : ℕ) : Prop :=
  (∃ info state, mgmtIfDecode source .zero (decoderInitialize (dmiVersion 2 7 0)) =
      (true, info, state) ∧ state.isIncomplete = false) ∧
    ∃ info state, mgmtEntityDecode source = some (info, state) ∧ state.isIncomplete = true ∧
      info.protoRecords.length = decoded

structure RecordLintAgrees (issues : List LintIssue) (source : Source) : Prop where
  record : ∀ i n, (∃ issue ∈ issues, issue.attr = some "protocol-records" ∧
      issue.arguments = [.number i, .number n, .number source.body.length]) ↔
    declaredRecords source.body = some n ∧ ∃ decoded, i = decoded + 1 ∧ IncompleteAfter source decoded
  interfaceData : (∃ issue ∈ issues, issue.attr = some "interface-data") ↔
    ∃ length, source.body[5]? = some length ∧ source.body.length ≤ 6 + length.toNat
  silent : issues = [] ↔ ∃ info state n, mgmtEntityDecode source = some (info, state) ∧
    declaredRecords source.body = some n ∧ info.protoRecords.length = n

structure RecordsRead (source : Source) (info : MgmtController) (state : DecodeState) : Prop where
  decoded : mgmtEntityDecode source = some (info, state)
  interface : ∃ info state, mgmtIfDecode source .zero (decoderInitialize (dmiVersion 2 7 0)) =
    (true, info, state) ∧ state.isIncomplete = false
  overrun : mgmtRecordOverrun source
      (source.body.getD (6 + (source.body.getD 5 0).toNat) 0).toNat 0
      (7 + (source.body.getD 5 0).toNat) =
    if state.isIncomplete = true then some info.protoRecords.length else none
  full : state.isIncomplete = false → info.protoRecords.length =
    (source.body.getD (6 + (source.body.getD 5 0).toNat) 0).toNat
  cut : state.isIncomplete = true → info.protoRecords.length <
    (source.body.getD (6 + (source.body.getD 5 0).toNat) 0).toNat

lemma recordsRead (hp : source.isPart = false) (hserial : ¬ SerialOfOneByte source.body)
    (hroom : 6 + (source.body.getD 5 0).toNat < source.body.length) :
    ∃ info state, RecordsRead source info state := by
  obtain ⟨started, before, hif⟩ := mgmtIfDecode_reads hp (by omega) hserial
  obtain ⟨-, hnone, -, hspec⟩ := mgmtIfDecode_spec hp rfl hif
  have hfits : (decoderInitialize (dmiVersion 2 7 0)).position + 2 + (source.body.getD
      ((decoderInitialize (dmiVersion 2 7 0)).position + 1) 0).toNat ≤ source.body.length := hroom.le
  rw [if_pos hfits] at hspec
  obtain ⟨hflag, hposition, -⟩ := hspec
  have hat : before.position = 6 + (source.body.getD 5 0).toNat := hposition
  cases hrecords : mgmtProtoRecordsFrom source (source.body.getD before.position 0).toNat
      { before with position := before.position + 1, level := 0x030200 } with
  | mk ok result =>
    obtain ⟨records, final⟩ := result
    obtain ⟨rfl, hoverrun, hfull, hcut⟩ := mgmtRecordsFrom_overrun hp
      (show ({ before with position := before.position + 1, level := 0x030200 } :
        DecodeState).isIncomplete = false from hflag) hrecords 0
    have hcontroller : mgmtControllerDecode source (dmiVersion 2 7 0) =
        (true, { started with protoRecords := records }, final) := by
      rw [mgmtControllerDecode, hif]
      simp only [hflag, Bool.false_eq_true, if_false]
      rw [if_neg (by simp only [readerIsDone, decide_eq_true_eq]; omega), mgmtProtoRecordsDecode,
        decoderGet_byteAt (by omega)]
      simp only [hrecords]
    have hdecoded : mgmtEntityDecode source =
        some ({ started with protoRecords := records }, final) := by
      rw [mgmtEntityDecode, mgmtMinimumLength, if_neg (by omega), hcontroller]
    simp only [hat, Nat.zero_add] at hoverrun hfull hcut
    rw [show 6 + (source.body.getD 5 0).toNat + 1 = 7 + (source.body.getD 5 0).toNat by omega]
      at hoverrun
    exact ⟨_, final, hdecoded, ⟨started, before, hif, hflag⟩, hoverrun, hfull, hcut⟩

lemma getElem?_byte {body : List Byte} {i : ℕ} (h : i < body.length) :
    body[i]? = some (body.getD i 0) := by
  rw [List.getD_eq_getElem?_getD, List.getElem?_eq_getElem h, Option.getD_some]

lemma declaredRecords_some {body : List Byte} (hroom : 6 + (body.getD 5 0).toNat < body.length) :
    declaredRecords body = some (body.getD (6 + (body.getD 5 0).toNat) 0).toNat := by
  rw [declaredRecords, getElem?_byte (by omega), Option.bind_some, getElem?_byte hroom,
    Option.map_some]

lemma declaredRecords_none {body : List Byte}
    (hroom : body.length ≤ 6 + (body.getD 5 0).toNat) : declaredRecords body = none := by
  rw [declaredRecords]
  by_cases hlong : 5 < body.length
  · rw [getElem?_byte hlong, Option.bind_some, List.getElem?_eq_none hroom, Option.map_none]
  · rw [List.getElem?_eq_none (by omega), Option.bind_none]

lemma interfaceData_iff {body : List Byte} :
    (∃ length, body[5]? = some length ∧ body.length ≤ 6 + length.toNat) ↔
      6 ≤ body.length ∧ body.length ≤ 6 + (body.getD 5 0).toNat := by
  constructor
  · rintro ⟨length, hlength, hroom⟩
    obtain ⟨hlong, -⟩ := List.getElem?_eq_some_iff.mp hlength
    rw [getElem?_byte hlong] at hlength
    cases hlength
    exact ⟨hlong, hroom⟩
  · rintro ⟨hlong, hroom⟩
    exact ⟨_, getElem?_byte hlong, hroom⟩

variable {lint : Lint} {entity : Entity}

lemma decoderGetAt_byte {position : ℕ} (h : position < source.body.length) :
    decoderGetAt source position 1 = some (source.body.getD position 0).toNat := by
  rw [decoderGetAt, if_pos (by omega), byte_eq h]

lemma decoderGetAt_past {position : ℕ} (h : source.body.length ≤ position) :
    decoderGetAt source position 1 = none := by
  rw [decoderGetAt, if_neg (by omega)]

lemma lintRecords_short (h : source.body.length < 6) :
    mgmtControllerLintRecords lint entity source = [] := by
  rw [mgmtControllerLintRecords, mgmtIfLengthOffset, decoderGetAt_past (by omega)]

def interfaceDataIssue (lint : Lint) (entity : Entity) (source : Source) : LintIssue :=
  lintIssue "mgmt-controller.records" (some entity) (some "interface-data")
    ((lintEntityOffset lint.table entity).map (· + mgmtIfLengthOffset))
    "interface data of %u bytes leaves no room for the protocol records"
    [.number (source.body.getD 5 0).toNat]

lemma lintRecords_interface (hlong : 6 ≤ source.body.length)
    (hroom : source.body.length ≤ 6 + (source.body.getD 5 0).toNat) :
    mgmtControllerLintRecords lint entity source = [interfaceDataIssue lint entity source] := by
  rw [mgmtControllerLintRecords, decoderGetAt_byte (show mgmtIfLengthOffset < _ from hlong)]
  simp only
  rw [decoderGetAt_past (by rwa [mgmtIfLengthOffset])]
  rfl

def recordIssue (lint : Lint) (entity : Entity) (source : Source) (i : ℕ) : LintIssue :=
  lintIssue "mgmt-controller.records" (some entity) (some "protocol-records")
    (lintEntityOffset lint.table entity) "record %u of %u does not fit the structure of %zu bytes"
    [.number (i + 1),
      .number (source.body.getD (6 + (source.body.getD 5 0).toNat) 0).toNat,
      .number source.body.length]

lemma lintRecords_records (hroom : 6 + (source.body.getD 5 0).toNat < source.body.length) :
    mgmtControllerLintRecords lint entity source =
      ((mgmtRecordOverrun source
        (source.body.getD (6 + (source.body.getD 5 0).toNat) 0).toNat 0
        (7 + (source.body.getD 5 0).toNat)).map (recordIssue lint entity source)).toList := by
  rw [mgmtControllerLintRecords, mgmtIfLengthOffset, decoderGetAt_byte (by omega)]
  simp only [Nat.reduceAdd]
  rw [decoderGetAt_byte hroom]
  simp only
  rw [show 6 + (source.body.getD 5 0).toNat + 1 = 7 + (source.body.getD 5 0).toNat by omega]
  cases mgmtRecordOverrun source (source.body.getD (6 + (source.body.getD 5 0).toNat) 0).toNat 0
    (7 + (source.body.getD 5 0).toNat) <;> rfl

lemma lintAgrees_interface (hlong : 6 ≤ source.body.length)
    (hroom : source.body.length ≤ 6 + (source.body.getD 5 0).toNat) :
    RecordLintAgrees (mgmtControllerLintRecords lint entity source) source := by
  rw [lintRecords_interface hlong hroom]
  have hnone : declaredRecords source.body = none := declaredRecords_none hroom
  constructor
  · intro i n
    rw [hnone]
    constructor
    · rintro ⟨issue, hm, hattr, -⟩
      obtain rfl := List.mem_singleton.mp hm
      exact absurd (show some "interface-data" = some "protocol-records" from hattr) (by decide)
    · rintro ⟨hdeclared, -⟩
      cases hdeclared
  · rw [interfaceData_iff]
    exact iff_of_true ⟨_, List.mem_singleton.mpr rfl, rfl⟩ ⟨hlong, hroom⟩
  · rw [hnone]
    constructor
    · intro hsilent
      cases hsilent
    · rintro ⟨info, state, n, -, hdeclared, -⟩
      cases hdeclared

lemma lintAgrees_records (hp : source.isPart = false) (hserial : ¬ SerialOfOneByte source.body)
    (hroom : 6 + (source.body.getD 5 0).toNat < source.body.length) :
    RecordLintAgrees (mgmtControllerLintRecords lint entity source) source := by
  obtain ⟨info, state, hread⟩ := recordsRead hp hserial hroom
  rw [lintRecords_records hroom, hread.overrun]
  have hsome := declaredRecords_some hroom
  have hafter : ∀ decoded, IncompleteAfter source decoded ↔
      state.isIncomplete = true ∧ info.protoRecords.length = decoded := by
    intro decoded
    constructor
    · rintro ⟨-, info', state', hdecoded, hflag, hlength⟩
      cases hread.decoded.symm.trans hdecoded
      exact ⟨hflag, hlength⟩
    · rintro ⟨hflag, hlength⟩
      exact ⟨hread.interface, info, state, hread.decoded, hflag, hlength⟩
  constructor
  · intro i n
    rw [hsome, Option.some.injEq]
    simp only [hafter]
    by_cases hflag : state.isIncomplete = true
    · rw [if_pos hflag, Option.map_some, Option.toList_some]
      constructor
      · rintro ⟨issue, hm, -, harguments⟩
        obtain rfl := List.mem_singleton.mp hm
        rw [recordIssue, lintIssue] at harguments
        simp only [List.cons.injEq, LintArgument.number.injEq] at harguments
        exact ⟨harguments.2.1, _, harguments.1.symm, hflag, rfl⟩
      · rintro ⟨rfl, decoded, rfl, -, rfl⟩
        exact ⟨_, List.mem_singleton.mpr rfl, rfl, rfl⟩
    · rw [if_neg hflag, Option.map_none, Option.toList_none]
      constructor
      · rintro ⟨issue, hm, -⟩
        cases hm
      · rintro ⟨-, decoded, -, habsent, -⟩
        exact absurd habsent hflag
  · rw [interfaceData_iff]
    refine iff_of_false ?_ (by omega)
    rintro ⟨issue, hm, hattr⟩
    obtain ⟨i, -, rfl⟩ := Option.map_eq_some_iff.mp (Option.mem_toList.mp hm)
    exact absurd (show some "protocol-records" = some "interface-data" from hattr) (by decide)
  · rw [hsome]
    by_cases hflag : state.isIncomplete = true
    · rw [if_pos hflag]
      refine iff_of_false (List.cons_ne_nil _ _) ?_
      rintro ⟨info', state', n, hdecoded, hdeclared, hlength⟩
      cases hread.decoded.symm.trans hdecoded
      cases hdeclared
      exact absurd hlength (hread.cut hflag).ne
    · rw [if_neg hflag]
      exact iff_of_true rfl
        ⟨info, state, _, hread.decoded, rfl, hread.full (Bool.eq_false_iff.mpr hflag)⟩

lemma mgmtEntityDecode_fails (hp : source.isPart = false) (hlong : 6 ≤ source.body.length)
    (hserial : SerialOfOneByte source.body) : mgmtEntityDecode source = none := by
  have hread := (mgmtIfDecode_fails (decoderInitialize (dmiVersion 2 7 0)) hp rfl
    hlong .zero).mpr hserial
  rw [mgmtEntityDecode, mgmtMinimumLength, if_neg (by omega), mgmtControllerDecode]
  cases hif : mgmtIfDecode source .zero (decoderInitialize (dmiVersion 2 7 0)) with
  | mk ok result =>
    rw [hif] at hread
    simp only at hread
    subst hread
    rfl

/-- The rule agrees with the decoder of every structure, unless the decoder gives up on one whose
records the rule walks or which is too short for the rule to start. -/
theorem record_lint_agrees_iff (lint : Lint) (entity : Entity) (version : ℕ) :
    let source := entitySource entity version
    RecordLintAgrees (mgmtControllerLintRecords lint entity source) source ↔
      6 ≤ source.body.length ∧ ¬ (SerialOfOneByte source.body ∧
        6 + (source.body.getD 5 0).toNat < source.body.length) := by
  intro source
  have hp : source.isPart = false := rfl
  by_cases hlong : 6 ≤ source.body.length
  · by_cases hroom : 6 + (source.body.getD 5 0).toNat < source.body.length
    · by_cases hserial : SerialOfOneByte source.body
      · refine iff_of_false (fun hagrees => ?_) (fun h => h.2 ⟨hserial, hroom⟩)
        have hnone := mgmtEntityDecode_fails hp hlong hserial
        have hsilent := hagrees.silent
        rw [lintRecords_records hroom] at hagrees hsilent
        cases hover : mgmtRecordOverrun source
            (source.body.getD (6 + (source.body.getD 5 0).toNat) 0).toNat 0
            (7 + (source.body.getD 5 0).toNat) with
        | none =>
          rw [hover] at hsilent
          obtain ⟨info, state, n, hdecoded, -⟩ := hsilent.mp rfl
          cases hnone.symm.trans hdecoded
        | some i =>
          rw [hover] at hagrees
          obtain ⟨-, decoded, -, -, info, state, hdecoded, -⟩ :=
            (hagrees.record _ _).mp ⟨_, List.mem_singleton.mpr rfl, rfl, rfl⟩
          cases hnone.symm.trans hdecoded
      · exact iff_of_true (lintAgrees_records hp hserial hroom) ⟨hlong, fun h => hserial h.1⟩
    · exact iff_of_true (lintAgrees_interface hlong (by omega)) ⟨hlong, fun h => hroom h.2⟩
  · refine iff_of_false (fun hagrees => ?_) (fun h => hlong h.1)
    obtain ⟨info, state, n, hdecoded, -⟩ := hagrees.silent.mp (lintRecords_short (by omega))
    rw [mgmtEntityDecode, mgmtMinimumLength, if_pos (by omega)] at hdecoded
    cases hdecoded

def shortSerial : Entity :=
  { (default : Entity) with
    typeId := 42, totalLength := 19, bodyLength := 17,
    buffer := ⟨0, [42, 17, 0, 0, 0x40, 8, 2, 1, 0, 2, 0, 3, 3, 0x41, 1, 4, 0, 0, 0]⟩ }

theorem short_serial_not_decoded :
    mgmtControllerLintRecords ⟨sampleContext, ⟨0, []⟩, 0, registryCreate 0⟩ shortSerial
        (entitySource shortSerial 0) = [] ∧
      declaredRecords (entitySource shortSerial 0).body = some 1 ∧
      ¬ RecordLintAgrees (mgmtControllerLintRecords ⟨sampleContext, ⟨0, []⟩, 0, registryCreate 0⟩
        shortSerial (entitySource shortSerial 0)) (entitySource shortSerial 0) := by
  have hsilent : mgmtControllerLintRecords ⟨sampleContext, ⟨0, []⟩, 0, registryCreate 0⟩ shortSerial
      (entitySource shortSerial 0) = [] := by decide
  have hnone : mgmtEntityDecode (entitySource shortSerial 0) = none := by rfl
  refine ⟨hsilent, by decide, fun hagrees => ?_⟩
  obtain ⟨info, state, n, hdecoded, -⟩ := hagrees.silent.mp hsilent
  cases hnone.symm.trans hdecoded

end OpenDmi

import OpenDmi.MgmtDecode
import OpenDmi.FieldRoundTrip

namespace OpenDmi

open Bytes

variable {source : Source} {version p q : ℕ} {out : EncodeState} {info : MgmtController}
  {records : List MgmtProtoRecord}

structure AtByte (source : Source) (p : ℕ) (out : EncodeState) : Prop extends
    OnSource source out where
  count : out.bitsCount = 0
  position : out.position = p

lemma AtByte.upTo (h : AtByte source p out) (hon : p ≤ q) (hbound : q ≤ source.body.length) :
    AtByte source q (out.upTo source q) := by
  have hvalue : out.bitsValue = 0 := by rw [h.value, h.count, bitsAt_zero]
  exact ⟨h.toOnSource.upTo h.count hvalue (h.position.trans_le hon) hbound, h.count, rfl⟩

lemma AtByte.written_length (h : AtByte source p out) : out.written.length = p := by
  have hlen := congrArg List.length h.written
  have hbound := h.bound
  have hheader := h.header
  have hbegun := h.begun
  rw [List.length_drop, window_length (by omega)] at hlen
  have hposition := h.position
  omega

lemma AtByte.putBytes (version : ℕ) {length : ℕ} {bytes : List Byte} (h : AtByte source p out)
    (hbytes : bytes = window source.body p length) (hfits : p + length ≤ source.body.length) :
    AtByte source (p + length) (putBytes (preserving source version) bytes out) := by
  have hposition := h.position
  subst hposition
  rw [hbytes, putBytes_window h.toOnSource hfits]
  exact h.upTo (by omega) hfits

lemma AtByte.putByte (version : ℕ) {number : ℕ} (h : AtByte source p out)
    (hfits : p < source.body.length) (hnumber : number = (source.body.getD p 0).toNat) :
    AtByte source (p + 1) (putByte (preserving source version) number out) := by
  rw [OpenDmi.putByte, hnumber, UInt8.ofNat_toNat, ← window_byte hfits]
  exact h.putBytes version rfl hfits

lemma AtByte.putRecord (version : ℕ) {record : MgmtProtoRecord} (h : AtByte source p out)
    (hfits : p + 2 + (source.body.getD (p + 1) 0).toNat ≤ source.body.length)
    (htype : record.type = (source.body.getD p 0).toNat)
    (hdata : record.data.bytes =
      window source.body (p + 2) (source.body.getD (p + 1) 0).toNat) :
    AtByte source (p + 2 + (source.body.getD (p + 1) 0).toNat)
      (mgmtProtoRecordEncode (preserving source version) record out) := by
  have hlength : record.data.bytes.length = (source.body.getD (p + 1) 0).toNat := by
    rw [hdata, window_length hfits]
  rw [mgmtProtoRecordEncode]
  exact ((h.putByte version (by omega) htype).putByte version (by omega) hlength).putBytes version
    hdata hfits

lemma Records.encode (version : ℕ) (hrecords : Records source.body p records q)
    (h : AtByte source p out) :
    AtByte source q (records.foldl
      (fun state record => mgmtProtoRecordEncode (preserving source version) record state) out) := by
  induction hrecords generalizing out with
  | nil => exact h
  | cons fits type data rest ih => exact ih (h.putRecord version fits type data)

lemma AtByte.finish (version : ℕ) (hs : SourceOk source) (h : AtByte source p out) :
    encoderFinish (preserving source version) (encoderCopy (preserving source version)
      (encoderRemaining (preserving source version) out) out) = some source.body :=
  encoderFinish_source hs h.toOnSource h.count

def Extends (before after : EncodeState) : Prop := before.written <+: after.written

lemma Extends.trans {a b c : EncodeState} (h : Extends a b) (h' : Extends b c) : Extends a c :=
  List.IsPrefix.trans h h'

lemma putBytes_extends (encoder : Encoder) (bytes : List Byte) (out : EncodeState) :
    Extends out (putBytes encoder bytes out) := ⟨bytes, rfl⟩

lemma encoderCopy_extends (encoder : Encoder) (length : ℕ) (out : EncodeState) :
    Extends out (encoderCopy encoder length out) := by
  induction length generalizing out with
  | zero => exact List.prefix_refl _
  | succ length ih => exact (putBytes_extends encoder _ out).trans (ih _)

lemma recordsEncode_extends (encoder : Encoder) (records : List MgmtProtoRecord)
    (out : EncodeState) :
    Extends out (records.foldl
      (fun state record => mgmtProtoRecordEncode encoder record state) out) := by
  induction records generalizing out with
  | nil => exact List.prefix_refl _
  | cons record records ih =>
    have hrecord : Extends out (mgmtProtoRecordEncode encoder record out) :=
      ((putBytes_extends encoder _ out).trans (putBytes_extends encoder _ _)).trans
        (putBytes_extends encoder _ _)
    exact hrecord.trans (ih _)

lemma Extends.finish_ne {encoder : Encoder} {before after : EncodeState} {byte : Byte}
    {body : List Byte} (h : Extends before after) (hheader : headerSize ≤ p)
    (hbyte : before.written[p]? = some byte) (hne : body.getD p 0 ≠ byte) :
    encoderFinish encoder after ≠ some body := by
  intro hfinish
  obtain ⟨rest, hrest⟩ := h
  rw [encoderFinish] at hfinish
  split_ifs at hfinish with hshort hlong
  have hlength := encoderHeader_length encoder after.written.length
  have hbody := (Option.some.inj hfinish).symm
  have hget : body[p]? = some byte := by
    rw [hbody, getElem?_patch_outside (by omega) (.inr (by omega)), ← hrest,
      List.getElem?_append_left (List.getElem?_eq_some_iff.mp hbyte).1, hbyte]
  exact hne (by simp [List.getD_eq_getElem?_getD, hget])

lemma holdsRecords_eq (body : List Byte) :
    holdsRecords body = if headerSize + 2 + (body.getD (headerSize + 1) 0).toNat < body.length then
      recordsHeld (body.getD (headerSize + 2 + (body.getD (headerSize + 1) 0).toNat) 0).toNat
        (body.drop (headerSize + 2 + (body.getD (headerSize + 1) 0).toNat + 1))
      else true := by
  rw [holdsRecords, List.drop_drop]
  by_cases h : headerSize + 2 + (body.getD (headerSize + 1) 0).toNat < body.length
  · have hget : body.getD (headerSize + 2 + (body.getD (headerSize + 1) 0).toNat) 0 =
        body[headerSize + 2 + (body.getD (headerSize + 1) 0).toNat] := by
      rw [List.getD_eq_getElem?_getD, List.getElem?_eq_getElem h, Option.getD_some]
    rw [if_pos h, List.drop_eq_getElem_cons h, hget]
  · rw [if_neg h, List.drop_of_length_le (by omega)]

lemma encoderInitialize_atByte (version : ℕ) (hlong : headerSize ≤ source.body.length) :
    AtByte source headerSize (encoderInitialize (preserving source version)) := by
  have hin : InStep source 0 (decoderInitialize 0) (encoderInitialize (preserving source version)) :=
    encoderInitialize_inStep hlong
  exact ⟨hin.toOnSource, hin.aligned.2.1, hin.aligned.1⟩

lemma mgmtEntityEncode_eq (encoder : Encoder) (info : MgmtController) :
    mgmtEntityEncode encoder info =
      let state := mgmtControllerEncode encoder info (encoderInitialize encoder)
      encoderFinish encoder (encoderCopy encoder (encoderRemaining encoder state) state) := rfl

lemma interface_written (version : ℕ) (h : AtByte source headerSize out)
    (hlong : headerSize + 2 ≤ source.body.length)
    (htype : info.interfaceType = (source.body.getD headerSize 0).toNat) :
    AtByte source (headerSize + 1)
        (putByte (preserving source version) info.interfaceType out) ∧
      encoderPeek (preserving source version) 1
        (putByte (preserving source version) info.interfaceType out) =
        some [source.body.getD (headerSize + 1) 0] := by
  have hnext := h.putByte version (by omega) htype
  refine ⟨hnext, ?_⟩
  rw [encoderPeek_some version (by rw [hnext.position]; omega), hnext.position,
    window_byte (by omega)]

lemma getD_toNat_ne {byte : Byte} {number : ℕ} (h : number < byte.toNat) :
    byte ≠ UInt8.ofNat number := by
  have hlt := byte.toNat_lt
  intro heq
  have hnumber := congrArg UInt8.toNat heq
  rw [UInt8.toNat_ofNat'] at hnumber
  omega

lemma interface_encodes (version : ℕ) (hs : SourceOk source) {length : ℕ}
    (hlength : length = (source.body.getD (headerSize + 1) 0).toNat)
    (hlong : headerSize + 2 ≤ source.body.length)
    (htype : info.interfaceType = (source.body.getD headerSize 0).toNat) :
    (source.body.length < headerSize + 2 + length → info.interfaceData.bytes = [] →
      mgmtEntityEncode (preserving source version) info = some source.body) ∧
    (headerSize + 2 + length ≤ source.body.length →
      info.interfaceData.bytes = window source.body (headerSize + 2) length →
      ∃ out, AtByte source (headerSize + 2 + length) out ∧
        mgmtControllerEncode (preserving source version) info
            (encoderInitialize (preserving source version)) =
          if headerSize + 2 + length < source.body.length then
            info.protoRecords.foldl (fun state record =>
                mgmtProtoRecordEncode (preserving source version) record state)
              (putByte (preserving source version) info.protoRecords.length out)
          else out) := by
  obtain ⟨htyped, hpeek⟩ := interface_written version
    (encoderInitialize_atByte version hs.long) hlong htype
  have hremaining : encoderRemaining (preserving source version) (putByte (preserving source version)
      info.interfaceType (encoderInitialize (preserving source version))) =
      source.body.length - (headerSize + 1) := by
    rw [← htyped.position]
    rfl
  constructor
  · intro hshort hnone
    have hoverrun : info.interfaceData.bytes = [] ∧
        (some [source.body.getD (headerSize + 1) 0]).isSome ∧
        source.body.length - (headerSize + 1) - 1 < length :=
      ⟨hnone, rfl, by omega⟩
    have hwritten := htyped.putByte version (by omega) hlength
    rw [mgmtEntityEncode_eq, mgmtControllerEncode]
    simp only [hpeek, hremaining, Option.getD_some, List.headD_cons, ← hlength]
    rw [if_pos hoverrun]
    exact hwritten.finish version hs
  · intro hwhole hdata
    have hbytes : info.interfaceData.bytes.length = length := by
      rw [hdata, window_length hwhole]
    have hfits : ¬ (info.interfaceData.bytes = [] ∧
        (some [source.body.getD (headerSize + 1) 0]).isSome ∧
        source.body.length - (headerSize + 1) - 1 < length) := by omega
    have hout := (htyped.putByte version (by omega) hlength).putBytes version hdata hwhole
    refine ⟨_, hout, ?_⟩
    have hrest : encoderRemaining (preserving source version) (putBytes (preserving source version)
        info.interfaceData.bytes (putByte (preserving source version) length
          (putByte (preserving source version) info.interfaceType
            (encoderInitialize (preserving source version))))) =
        source.body.length - (headerSize + 2 + length) := by
      rw [← hout.position]
      rfl
    rw [mgmtControllerEncode]
    simp only [hpeek, hremaining, Option.getD_some, List.headD_cons, ← hlength]
    rw [if_neg hfits]
    simp only [hbytes, hrest, decide_eq_true_eq, Nat.sub_pos_iff_lt]

lemma records_encode_iff (hs : SourceOk source) (h : AtByte source p out)
    (hfits : p < source.body.length) (hrecords : Records source.body (p + 1) records q)
    (hle : records.length ≤ (source.body.getD p 0).toNat) :
    (let state := records.foldl (fun state record =>
        mgmtProtoRecordEncode (preserving source version) record state)
      (putByte (preserving source version) records.length out)
    encoderFinish (preserving source version) (encoderCopy (preserving source version)
      (encoderRemaining (preserving source version) state) state) = some source.body) ↔
      records.length = (source.body.getD p 0).toNat := by
  have hbegun := h.begun
  have hposition := h.position
  constructor
  · intro hwritten
    by_contra hne
    have hbyte : (putByte (preserving source version) records.length out).written[p]? =
        some (UInt8.ofNat records.length) := by
      have hlength := h.written_length
      rw [putByte, putBytes]
      simp [← hlength]
    exact ((recordsEncode_extends (preserving source version) records _).trans
      (encoderCopy_extends (preserving source version) _ _)).finish_ne (by omega) hbyte
      (getD_toNat_ne (by omega)) hwritten
  · intro hcount
    exact (hrecords.encode version (h.putByte version hfits hcount)).finish version hs

lemma afterInterface_encode_iff (hs : SourceOk source) (length : ℕ)
    (hlength : length = (source.body.getD (headerSize + 1) 0).toNat)
    (hlong : headerSize + 2 + length ≤ source.body.length)
    (htype : info.interfaceType = (source.body.getD headerSize 0).toNat)
    (hdata : info.interfaceData.bytes = window source.body (headerSize + 2) length)
    (hrecords : headerSize + 2 + length < source.body.length →
      (∃ q, Records source.body (headerSize + 2 + length + 1) info.protoRecords q) ∧
        info.protoRecords.length ≤ (source.body.getD (headerSize + 2 + length) 0).toNat) :
    mgmtEntityEncode (preserving source version) info = some source.body ↔
      (headerSize + 2 + length < source.body.length →
        info.protoRecords.length = (source.body.getD (headerSize + 2 + length) 0).toNat) := by
  obtain ⟨out, hout, hencode⟩ :=
    (interface_encodes version hs hlength (by omega) htype).2 hlong hdata
  rw [mgmtEntityEncode_eq, hencode]
  by_cases hend : headerSize + 2 + length < source.body.length
  · obtain ⟨⟨q, hq⟩, hle⟩ := hrecords hend
    rw [if_pos hend]
    simp only [hend, true_imp_iff]
    exact records_encode_iff hs hout hend hq hle
  · rw [if_neg hend]
    simp only [hend, false_imp_iff, iff_true]
    exact hout.finish version hs

/-- A management controller is written back as its source exactly when the source ends no later
than its interface data, or holds all of the protocol records it declares. -/
theorem mgmtController_encode_iff {buffer : Buffer} {offset level tableVersion : ℕ}
    {entity : Entity} {state : DecodeState} (hcreate : entityCreate buffer offset = .ok entity)
    (hdecode : mgmtControllerDecode (entitySource entity tableVersion) level =
      (true, info, state)) :
    mgmtEntityEncode (preserving (entitySource entity tableVersion) version) info =
        some (entitySource entity tableVersion).body ↔
      holdsRecords (entitySource entity tableVersion).body = true := by
  have hs : SourceOk (entitySource entity tableVersion) := entitySource_ok hcreate
  revert hdecode hs
  generalize entitySource entity tableVersion = source
  intro hdecode hs
  rw [mgmtControllerDecode] at hdecode
  cases hif : mgmtIfDecode source .zero (decoderInitialize level) with
  | mk ok result =>
    obtain ⟨interface, middle⟩ := result
    rw [hif] at hdecode
    cases ok with
    | false => cases hdecode
    | true =>
      simp only at hdecode
      obtain ⟨hlong, hnone, htype, hspec⟩ := mgmtIfDecode_spec hs.whole rfl hif
      have hstart : (decoderInitialize level).position = headerSize := rfl
      rw [hstart] at hlong htype hspec
      rw [holdsRecords_eq]
      by_cases hwhole : headerSize + 2 + (source.body.getD (headerSize + 1) 0).toNat ≤
          source.body.length
      · rw [if_pos hwhole] at hspec
        obtain ⟨hflag, hposition, hdata⟩ := hspec
        rw [hflag, if_neg Bool.false_ne_true] at hdecode
        by_cases hend : headerSize + 2 + (source.body.getD (headerSize + 1) 0).toNat <
            source.body.length
        · have hgoing : readerIsDone source middle = false := by
            simpa [readerIsDone, hposition] using hend
          rw [hgoing, if_neg Bool.false_ne_true, mgmtProtoRecordsDecode] at hdecode
          cases hcount : decoderGet source 1 middle with
          | none =>
            have hover := decoderGet_none hcount
            omega
          | some count =>
            obtain ⟨count, start⟩ := count
            obtain ⟨-, rfl, rfl⟩ := decoderGet_byte hcount
            rw [hcount] at hdecode
            simp only at hdecode
            cases hfrom : mgmtProtoRecordsFrom source
                (source.body.getD middle.position 0).toNat
                { middle with position := middle.position + 1, level := 0x030200 } with
            | mk ok result =>
              obtain ⟨records, last⟩ := result
              have hstill : DecodeState.isIncomplete
                  { middle with position := middle.position + 1, level := 0x030200 } = false := hflag
              obtain ⟨rfl, hrecords, hle, hheld⟩ := mgmtProtoRecordsFrom_spec hs.whole hstill hfrom
              rw [hfrom] at hdecode
              cases hdecode
              simp only [hposition] at hrecords hle hheld
              have hafter := @afterInterface_encode_iff source version
                { interface with protoRecords := records } hs _ rfl hwhole htype hdata
                fun _ => ⟨hrecords, hle⟩
              rw [if_pos hend, ← hheld, hafter]
              simp only [hend, true_imp_iff]
        · have hdone : readerIsDone source middle = true := by
            simpa [readerIsDone, hposition] using hend
          rw [hdone, if_pos rfl] at hdecode
          obtain rfl : interface = info := (Prod.mk.inj (Prod.mk.inj hdecode).2).1
          rw [if_neg hend, afterInterface_encode_iff hs _ rfl hwhole htype hdata
            fun h => absurd h hend]
          simp only [hend, false_imp_iff]
      · rw [if_neg hwhole] at hspec
        rw [hspec.1, if_pos rfl] at hdecode
        cases hdecode
        rw [if_neg (by omega)]
        simp only [iff_true]
        exact (interface_encodes version hs rfl hlong htype).1 (by omega) hspec.2

def controllerBuffer (body : List Byte) : Buffer :=
  ⟨0, [42, UInt8.ofNat (headerSize + body.length), 0x34, 0x12] ++ body ++ [0, 0]⟩

def controllerEntity (body : List Byte) : Entity :=
  ⟨42, headerSize + body.length, 0x1234, controllerBuffer body, 0, 2, headerSize + body.length + 2,
    [], none, none⟩

def controllerSource (body : List Byte) : Source := entitySource (controllerEntity body) 0x030200

def controllerDecoded (body : List Byte) : Bool × MgmtController × DecodeState :=
  mgmtControllerDecode (controllerSource body) 0x030000

def wholeRecords : List Byte := [0x40, 2, 0x11, 0x22, 2, 4, 3, 1, 2, 3, 0xF0, 0]

def cutRecord : List Byte := [0x40, 0, 1, 4]

lemma decoded_eq {body : List Byte} (h : (controllerDecoded body).1 = true) :
    mgmtControllerDecode (controllerSource body) 0x030000 =
      (true, (controllerDecoded body).2.1, (controllerDecoded body).2.2) := by
  rw [← h]
  rfl

theorem mgmtController_encode_sample :
    mgmtEntityEncode (preserving (controllerSource wholeRecords) 0)
        (controllerDecoded wholeRecords).2.1 = some (controllerSource wholeRecords).body ↔
      holdsRecords (controllerSource wholeRecords).body = true :=
  have hcreate : entityCreate (controllerBuffer wholeRecords) 0 =
      .ok (controllerEntity wholeRecords) := by decide
  mgmtController_encode_iff hcreate (decoded_eq (by decide))

theorem cut_record_is_not_declared :
    entityCreate (controllerBuffer cutRecord) 0 = .ok (controllerEntity cutRecord) ∧
      (controllerDecoded cutRecord).1 = true ∧
      (controllerDecoded cutRecord).2.2.isIncomplete = true ∧
      mgmtEntityEncode (preserving (controllerSource cutRecord) 0) (controllerDecoded cutRecord).2.1 =
        some [42, 8, 0x34, 0x12, 0x40, 0, 0, 4] ∧
      (controllerSource cutRecord).body = [42, 8, 0x34, 0x12, 0x40, 0, 1, 4] := by
  refine ⟨by decide, ?_, ?_, ?_, ?_⟩ <;> decide

end OpenDmi

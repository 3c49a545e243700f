import OpenDmi.DecodeFrame
import OpenDmi.Lockstep

namespace OpenDmi

open Bytes

variable {source : Source} {version base value : ℕ} {field : Field} {fields : List Field}
  {index : ℕ} {choices : List Choice} {info before after : Memory} {data : FieldData}
  {raw : Option ℕ} {out : EncodeState} {state next : DecodeState}

lemma uuidSwap_uuidSwap {bytes : List Byte} (h : 8 ≤ bytes.length) :
    uuidSwap (uuidSwap bytes) = bytes := by
  rcases bytes with _ | ⟨b0, _ | ⟨b1, _ | ⟨b2, _ | ⟨b3, _ | ⟨b4, _ | ⟨b5, _ | ⟨b6, _ | ⟨b7, rest⟩⟩⟩⟩⟩⟩⟩⟩ <;>
    simp only [List.length_cons, List.length_nil] at h <;> first | omega | rfl

lemma uuidSwap_length {bytes : List Byte} (h : bytes.length = 16) :
    (uuidSwap bytes).length = 16 := by
  simp [uuidSwap, h]

lemma leStore_ofNat {bytes : List Byte} (h : bytes.length = 8) :
    leStore 8 (UInt64.ofNat (leLoad bytes)).toNat = bytes := by
  have hlt := leLoad_lt bytes
  rw [h] at hlt
  rw [UInt64.toNat_ofNat_of_lt' (by simpa using hlt), ← h, leStore_leLoad]

lemma loadUuid_storeUuid {bytes : List Byte} (h : bytes.length = 16)
    (h0 : SameAt info (before.storeUuid value bytes) value)
    (h8 : SameAt info (before.storeUuid value bytes) (value + 8)) : loadUuid info value = bytes := by
  have hlo : info.number value = UInt64.ofNat (leLoad (bytes.take 8)) := by
    rw [h0.1]
    simp [Memory.storeUuid, Memory.setNumber]
  have hhi : info.number (value + 8) = UInt64.ofNat (leLoad (bytes.drop 8)) := by
    rw [h8.1]
    simp [Memory.storeUuid, Memory.setNumber]
  rw [loadUuid, hlo, hhi, leStore_ofNat (by simp [h]), leStore_ofNat (by simp [h]),
    List.take_append_drop]

lemma applied_decodesInto (hh : HandlersOk field)
    (h : Applied field data (some value) before after) (hsame : SameAt info after value)
    (hlength : field.type = .binary → field.params.decode = none → SameAt info after (value + 8)) :
    decodesInto field data info value = true := by
  obtain ⟨writes, happly, rfl⟩ := h
  rw [decodesInto, happly]
  by_cases hb : field.type = .binary ∧ field.params.decode = none
  · rw [fieldApply_binary hb.1 hb.2, Option.some.injEq] at happly
    subst happly
    have h8 := hlength hb.1 hb.2
    simp only [Memory.writes, List.all_cons, List.all_nil, Bool.and_true, Bool.and_eq_true,
      Nat.add_zero] at hsame h8 ⊢
    rw [hsame.holds, binaryLengthOffset] at *
    exact ⟨by simp [Memory.write, Memory.holds, Memory.setNumber, Memory.setPointer],
      by rw [h8.holds]; exact holds_write _ _ _⟩
  · obtain ⟨v, rfl⟩ := fieldApply_single hh.single (fun hd ht => hb ⟨ht, hd⟩) happly
    simp only [Memory.writes, List.all_cons, List.all_nil, Bool.and_true, Nat.add_zero] at hsame ⊢
    rw [hsame.holds]
    exact holds_write _ _ _

lemma valueData_original (hh : HandlersOk field) (h : decodesInto field data info value = true) :
    valueData field info value (some data) = some (data, true) := by
  have hpaired : ¬ (field.params.decode.isSome = true ∧ field.params.encode.isNone = true) := by
    rintro ⟨hd, he⟩
    have hp := hh.paired hd
    rw [Option.isNone_iff_eq_none] at he
    simp [he] at hp
  rw [valueData, if_neg hpaired]
  simp [h]

structure Carried (source : Source) (version : ℕ) (field : Field) (data : FieldData)
    (state : DecodeState) (out : EncodeState) : Prop where
  fits : state.position + fieldWidth field ≤ source.body.length
  original : sourceData (preserving source version) field out = some data
  put : putData (preserving source version) field data out =
    some (out.upTo source (state.position + fieldWidth field))

lemma integer_carried (version : ℕ) (hin : InStep source 0 state out) (ht : field.type = .integer)
    (h0 : 0 < field.params.length) (h8 : field.params.length ≤ 8)
    (hfits : state.position + field.params.length ≤ source.body.length) :
    Carried source version field { FieldData.empty with
      number := leLoad (window source.body state.position field.params.length) } state out := by
  obtain ⟨hpos, -⟩ := hin.aligned
  have hwidth : fieldWidth field = field.params.length := by simp [fieldWidth, ht]
  refine ⟨by rw [hwidth]; exact hfits, ?_, ?_⟩
  · simp only [sourceData, ht, ne_eq, not_true_eq_false, if_false, peekRaw, hwidth]
    rw [if_neg (by omega), encoderPeek_some _ (by omega), hpos]
    rfl
  · simp only [putData, ht, hwidth]
    rw [← hpos]
    exact putRaw_source hin.toOnSource h0 h8 (by omega)

lemma carried_integer (hin : InStep source 0 state out) (ht : field.type = .integer)
    (h : decodeValue source field (some value) state = (true, raw, next)) :
    ∃ data, raw = some data.number ∧ Carried source version field data state out ∧
      applyTo field data (some value)
        { state with position := state.position + fieldWidth field } = (true, next) := by
  obtain ⟨number, h0, h8, hfits, rfl, rfl, happly⟩ := decodeValue_integer ht h
  have hwidth : fieldWidth field = field.params.length := by simp [fieldWidth, ht]
  exact ⟨_, rfl, integer_carried version hin ht h0 h8 hfits, by rw [hwidth]; exact happly⟩

lemma carried_string (hin : InStep source 0 state out) (hok : FieldOk field)
    (ht : field.type = .string)
    (h : decodeValue source field (some value) state = (true, raw, next)) :
    ∃ data, raw = some data.number ∧ Carried source version field data state out ∧
      applyTo field data (some value)
        { state with position := state.position + fieldWidth field } = (true, next) := by
  obtain ⟨hpos, -⟩ := hin.aligned
  obtain ⟨number, hfits, rfl, rfl, happly⟩ := decodeValue_string ht h
  have hm := hok.2
  simp only [ht] at hm
  have hwidth : fieldWidth field = 1 := by simp [fieldWidth, ht, hm.2.1]
  have hwindow := window_one (show state.position < source.body.length by omega)
  refine ⟨_, rfl, ⟨by rw [hwidth]; exact hfits, ?_, ?_⟩, by rw [hwidth]; exact happly⟩
  · simp only [sourceData, ht, ne_eq, not_true_eq_false, if_false]
    rw [encoderPeek_some _ (by omega), hpos]
    rfl
  · simp only [putData, ht, hwidth]
    have hzero : leLoad (window source.body state.position 1) ≠ 0 ∨
        entityString source (leLoad (window source.body state.position 1)) = .null := by
      by_cases hz : leLoad (window source.body state.position 1) = 0
      · exact .inr (by rw [hz, entityString, if_pos rfl])
      · exact .inl hz
    have hbyte : [UInt8.ofNat (leLoad (window source.body state.position 1))] =
        window source.body out.position 1 := by
      rw [hpos, leLoad_window_bitsAt, hwindow]
    rw [if_pos hzero, hbyte, putBytes_window hin.toOnSource (by omega), hpos]

lemma putData_binary {encoder : Encoder} (ht : field.type = .binary)
    (h0 : data.binary.bytes.length ≠ 0) (h : data.binary.bytes.length = field.params.length) :
    putData encoder field data out = some (putBytes encoder data.binary.bytes out) := by
  have hne : data.binary.bytes ≠ [] := by
    rw [← List.length_pos_iff]
    omega
  simp only [putData, ht]
  rw [if_neg hne, if_neg (by omega), List.take_of_length_le (by omega)]

lemma carried_binary (hin : InStep source 0 state out) (hok : FieldOk field)
    (ht : field.type = .binary) (hf : fieldIsFixed field = false)
    (h : decodeValue source field (some value) state = (true, raw, next)) :
    ∃ data, raw = some data.number ∧ Carried source version field data state out ∧
      applyTo field data (some value)
        { state with position := state.position + fieldWidth field } = (true, next) := by
  obtain ⟨hpos, -⟩ := hin.aligned
  obtain ⟨length, hlen, hfits, rfl, happly⟩ := decodeValue_binary ht h
  simp only [fieldIsFixed, ht, Bool.or_eq_false_iff, beq_eq_false_iff_ne] at hf
  have hm := hok.2
  simp only [ht] at hm
  have hlength : length = field.params.length := by
    rw [hlen, binaryLength, if_neg hf.1, if_neg hf.2]
  subst hlength
  have hwidth : fieldWidth field = field.params.length := by simp [fieldWidth, ht, hf]
  have hwindow := window_length hfits
  refine ⟨_, rfl, ⟨by rw [hwidth]; exact hfits, ?_, ?_⟩, by rw [hwidth]; exact happly⟩
  · simp only [sourceData, ht, ne_eq, not_true_eq_false, if_false]
    rw [encoderPeek_some _ (by omega), hpos, binaryAt, if_neg hm.2.1]
    rfl
  · rw [putData_binary ht (by simp [binaryAt, hwindow, hm.2.1]) hwindow, binaryAt, ← hpos,
      putBytes_window hin.toOnSource (by omega), hwidth]

lemma carried (version : ℕ) (hin : InStep source 0 state out) (hok : FieldOk field) (hv : IsValue field)
    (hs : field.type ≠ .skip) (hf : fieldIsFixed field = false)
    (h : decodeValue source field (some value) state = (true, raw, next)) :
    ∃ data, raw = some data.number ∧ Carried source version field data state out ∧
      applyTo field data (some value)
        { state with position := state.position + fieldWidth field } = (true, next) := by
  rcases hv with ht | ht | ht | ht | ht | ht
  · exact carried_integer hin ht h
  · exact carried_string hin hok ht h
  · simp [fieldIsFixed, ht] at hf
  · exact carried_binary hin hok ht hf h
  · simp [fieldIsFixed, ht] at hf
  · exact absurd ht hs

lemma encoderRemaining_le (hin : InStep source 0 state out) :
    encoderRemaining (preserving source version) out = source.body.length - state.position := by
  rw [← hin.aligned.1]
  rfl

lemma encodeValue_fixed (hin : InStep source 0 state out) (hf : fieldIsFixed field = true)
    (hfits : state.position + fieldWidth field ≤ source.body.length) :
    encodeValue (preserving source version) fields index base field info choices out =
      (encodeFixed (preserving source version) field info (base + field.member.offset)
        (fieldWidth field) out).map fun state => (choices, state) := by
  rw [encodeValue, if_neg (by rw [encoderRemaining_le hin]; omega), if_pos hf]

lemma encodeUuid_source (hin : InStep source 0 state out) (hok : FieldOk field)
    (ht : field.type = .uuid)
    (h : decodeValue source field (fieldValue base field) state = (true, raw, next))
    (h0 : SameAt info next.memory (base + field.member.offset))
    (h8 : SameAt info next.memory (base + field.member.offset + 8)) :
    encodeValue (preserving source version) fields index base field info choices out =
      some (choices, out.upTo source next.position) := by
  have hm := hok.2
  simp only [ht] at hm
  obtain ⟨hpos, -⟩ := hin.aligned
  rw [fieldValue, if_pos (by simp [memberIsPresent, hm.1])] at h
  obtain ⟨hfits, -, rfl⟩ := decodeValue_uuid ht h
  have hwidth : fieldWidth field = 16 := by simp [fieldWidth, ht, hm.2]
  have hlen : (window source.body state.position 16).length = 16 := window_length hfits
  rw [encodeValue_fixed hin (by simp [fieldIsFixed, ht]) (by omega)]
  simp only [encodeFixed, ht]
  rw [loadUuid_storeUuid (uuidSwap_length hlen) h0 h8, uuidSwap_uuidSwap (by omega), ← hpos,
    putBytes_window hin.toOnSource (by omega)]
  rfl

lemma loadBinary_applied (ht : field.type = .binary) (hd : field.params.decode = none)
    (hlt : data.binary.bytes.length < 2 ^ 64) (h : Applied field data (some value) before after)
    (h0 : SameAt info after value) (h8 : SameAt info after (value + 8)) :
    (info.loadBinary value).bytes = data.binary.bytes := by
  obtain ⟨writes, hwrites, rfl⟩ := h
  rw [fieldApply_binary ht hd, Option.some.injEq] at hwrites
  subst hwrites
  have hpointer : info.pointer value = .ref (if data.binary.bytes = [] then .null
      else .data data.binary.position data.binary.bytes) := by
    rw [h0.2]
    simp [Memory.writes, Memory.write, Memory.setNumber, Memory.setPointer]
  have hnumber : info.number (value + binaryLengthOffset) =
      UInt64.ofNat data.binary.bytes.length := by
    rw [binaryLengthOffset, h8.1]
    simp [Memory.writes, Memory.write, Memory.setNumber, binaryLengthOffset]
  rw [Memory.loadBinary, hpointer, hnumber]
  by_cases hempty : data.binary.bytes = []
  · rw [if_pos hempty, hempty]
    rfl
  · rw [if_neg hempty]
    simp only [Pointer.toRef]
    rw [UInt64.toNat_ofNat_of_lt' hlt, List.take_length]

lemma encodeRest_source (hsize : source.body.length < 2 ^ 64) (hin : InStep source 0 state out)
    (hok : FieldOk field) (ht : field.type = .binary) (hf : fieldIsFixed field = true)
    (h : decodeValue source field (fieldValue base field) state = (true, raw, next))
    (h0 : SameAt info next.memory (base + field.member.offset))
    (h8 : SameAt info next.memory (base + field.member.offset + 8)) :
    encodeValue (preserving source version) fields index base field info choices out =
      some (choices, out.upTo source next.position) := by
  have hm := hok.2
  simp only [ht] at hm
  obtain ⟨hpos, -⟩ := hin.aligned
  have hlength := hf
  simp only [fieldIsFixed, ht, Bool.or_eq_true, beq_iff_eq] at hlength
  rw [fieldValue, if_pos hm.1] at h
  obtain ⟨length, -, hfits, -, happly⟩ := decodeValue_binary ht h
  obtain ⟨memory, happlied, rfl⟩ := applyTo_true happly
  have hlen : (window source.body state.position length).length = length := window_length hfits
  have hbytes := loadBinary_applied ht (hm.2.2.2.2 hlength)
    (by simp only [binaryAt, hlen]; omega) happlied h0 h8
  have hwidth : fieldWidth field = 0 := by simp [fieldWidth, ht, hlength]
  rw [encodeValue_fixed hin hf (by omega)]
  simp only [encodeFixed, ht]
  rw [hbytes, binaryAt, ← hpos, putBytes_window hin.toOnSource (by omega), hpos]
  rfl

end OpenDmi

import OpenDmi.DecodeKeeps
import OpenDmi.EncodeValue

namespace OpenDmi

open Bytes

variable {source : Source} {version base taken : ℕ} {field : Field} {info : Memory}
  {out : EncodeState} {state next : DecodeState}

lemma InStep.bits (version : ℕ) {bits number : ℕ} (hin : InStep source taken state out)
    (h : takeBits source bits state = (true, number, next)) :
    number = bitsAt source.body (8 * out.position + out.bitsCount) bits ∧
      8 * out.position + out.bitsCount + bits ≤ 8 * source.body.length ∧
      8 * next.position - next.bitsCount = 8 * state.position - state.bitsCount + bits ∧
      InStep source (taken + bits) next (putBits (preserving source version) number bits out) := by
  obtain ⟨hheld, hnumber, hcursor, hfew, p, v, c, rfl⟩ := takeBits_true hin.held h
  have hbound := hheld.bound
  have hcount := hheld.count
  have hstart := hin.cursor
  simp only at hcursor hbound hcount hfew
  rw [← hstart] at hnumber
  have hfits : 8 * out.position + out.bitsCount + bits ≤ 8 * source.body.length := by omega
  obtain ⟨hon, hput, hleft, htaken, hstopped⟩ :=
    putBits_source version hin.toOnSource hnumber hfits
  refine ⟨hnumber, hfits, hcursor, hon, hstopped.trans hin.going, hheld, ?_, ?_, ?_, ?_, hfew hin.few⟩
  · rw [hput]
    simp only
    omega
  · rw [htaken, hin.takenOut]
  · simp only [hin.takenState]
  · rw [hleft, hin.left]
    omega

lemma InStep.fewOut (hin : InStep source taken state out) : out.bitsCount < 8 := by
  have hleft := hin.left
  omega

lemma encodeBits_source (version : ℕ) (info : Memory) (hin : InStep source taken state out)
    (hok : FieldOk field) (ht : field.type = .bits)
    (h : decodeBits source field (fieldValue base field) state = (true, next))
    (hsame : memberIsPresent field.member = true →
      SameAt info next.memory (base + field.member.offset)) :
    ∃ after, encodeBits (preserving source version) field info (fieldValue base field) out =
      some after ∧ InStep source (taken + field.params.bits) next after ∧
      8 * next.position - next.bitsCount =
        8 * state.position - state.bitsCount + field.params.bits := by
  have hm := hok.2
  simp only [ht] at hm
  simp only [decodeBits] at h
  cases hb : takeBits source field.params.bits state with
  | mk ok result =>
    obtain ⟨number, middle⟩ := result
    cases ok with
    | false => simp [hb] at h
    | true =>
      simp only [hb] at h
      obtain ⟨hnumber, hfits, hcursor, hstep⟩ := hin.bits version hb
      obtain ⟨memory, happlied, rfl⟩ := applyTo_true h
      have hsource := sourceBits_source version hm.2.1 hin.fewOut hfits
      rw [← hnumber] at hsource
      refine ⟨_, ?_, hstep.congr rfl rfl rfl rfl, hcursor⟩
      by_cases hp : memberIsPresent field.member = true
      · rw [fieldValue, if_pos hp] at happlied ⊢
        have hinto := applied_decodesInto hm.2.2 happlied (hsame hp) (by simp [ht])
        have hleft : encoderRemaining (preserving source version) out =
            source.body.length - out.position := rfl
        have hlength : bitsLength field.params.bits out ≤ source.body.length - out.position := by
          rw [bitsLength]
          omega
        have hdata : sourceData (preserving source version) field out =
            some { FieldData.empty with number := number } := by
          simp only [sourceData, ht, ne_eq, not_true_eq_false, if_false, hsource]
          rw [if_neg (by omega)]
        simp only [encodeBits, hdata]
        rw [valueData_original hm.2.2 hinto]
        rfl
      · rw [fieldValue, if_neg hp]
        simp only [encodeBits, if_true, hsource]

lemma encodePad_source (version : ℕ) (hin : InStep source taken state out) (h0 : 0 < field.params.bits)
    (h8 : field.params.bits % 8 = 0)
    (h56 : taken % field.params.bits ≠ 0 → field.params.bits - taken % field.params.bits ≤ 56)
    (h : decodePad source field state = (true, next)) :
    InStep source 0 next (encodePad (preserving source version) field out) ∧
      8 * next.position - next.bitsCount = 8 * state.position - state.bitsCount +
        if taken % field.params.bits = 0 then 0
        else field.params.bits - taken % field.params.bits := by
  have hdvd : 8 ∣ field.params.bits := Nat.dvd_of_mod_eq_zero h8
  have hmod : taken % field.params.bits % 8 = taken % 8 := Nat.mod_mod_of_dvd _ hdvd
  simp only [decodePad, encodePad] at h ⊢
  rw [hin.takenState] at h
  rw [hin.takenOut]
  split_ifs at h ⊢ with hz
  · cases h
    have hleft := hin.left
    exact ⟨⟨⟨hin.header, hin.begun, hin.written, hin.value, hin.bound⟩, hin.going,
      ⟨hin.held.count, hin.held.value, hin.held.bound⟩, hin.cursor, rfl, rfl,
      by simp only; omega, hin.few⟩, rfl⟩
  · cases hb : takeBits source (field.params.bits - taken % field.params.bits) state with
    | mk ok result =>
      obtain ⟨number, middle⟩ := result
      cases ok with
      | false => simp [hb] at h
      | true =>
        simp only [hb] at h
        obtain ⟨hnumber, hfits, hcursor, hstep⟩ := hin.bits version hb
        have hsource := sourceBits_source version (h56 hz) hin.fewOut hfits
        rw [← hnumber] at hsource
        cases h
        simp only [hsource]
        have hleft := hstep.left
        have hle := Nat.mod_lt taken h0
        exact ⟨⟨⟨hstep.header, hstep.begun, hstep.written, hstep.value, hstep.bound⟩, hstep.going,
          ⟨hstep.held.count, hstep.held.value, hstep.held.bound⟩, hstep.cursor, rfl, rfl,
          by simp only; omega, hstep.few⟩, hcursor⟩

end OpenDmi

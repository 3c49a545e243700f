import OpenDmi.BitStream
import OpenDmi.FieldMemory

namespace OpenDmi

open Bytes

variable {source : Source} {field : Field} {data : FieldData} {value : Option ℕ}
  {state next : DecodeState} {length base : ℕ}

lemma readerGet_some {bytes : List Byte}
    (h : readerGet source length state = some (bytes, next)) :
    state.position + length ≤ source.body.length ∧
      bytes = window source.body state.position length ∧
      next = { state with position := state.position + length } := by
  obtain ⟨hfits, heq⟩ := Option.ite_none_right_eq_some.mp h
  cases heq
  exact ⟨hfits, rfl, rfl⟩

lemma number_lt {body : List Byte} {position length : ℕ} (h : position + length ≤ body.length) :
    leLoad (window body position length) < 256 ^ length := by
  have hlt := leLoad_lt (window body position length)
  rwa [window_length h] at hlt

lemma readNumber_some {number : ℕ} (h : readNumber source length state = some (number, next)) :
    0 < length ∧ length ≤ 8 ∧ state.position + length ≤ source.body.length ∧
      number = leLoad (window source.body state.position length) ∧
      next = { state with position := state.position + length } := by
  obtain ⟨hlen, hmap⟩ := Option.ite_none_left_eq_some.mp h
  obtain ⟨⟨bytes, middle⟩, hget, heq⟩ := Option.map_eq_some_iff.mp hmap
  obtain ⟨hfits, rfl, rfl⟩ := readerGet_some hget
  cases heq
  exact ⟨by omega, by omega, hfits, rfl, rfl⟩

def Applied (field : Field) (data : FieldData) (value : Option ℕ) (before after : Memory) : Prop :=
  match value with
  | none => after = before
  | some base => ∃ writes, fieldApply field data = some writes ∧ after = before.writes base writes

lemma applyTo_true (h : applyTo field data value state = (true, next)) :
    ∃ memory, Applied field data value state.memory memory ∧
      next = { state with memory := memory } := by
  cases value with
  | none =>
    cases h
    exact ⟨_, rfl, rfl⟩
  | some base =>
    simp only [applyTo] at h
    cases hw : fieldApply field data with
    | none => simp [hw] at h
    | some writes =>
      simp only [hw, Prod.mk.injEq, true_and] at h
      exact ⟨_, ⟨writes, hw, rfl⟩, h.symm⟩

lemma storeTo_true {member : Member} {raw : ℕ} (h : storeTo base member raw state = (true, next)) :
    ∃ n, memberStore member raw = some n ∧
      next = { state with memory := state.memory.setNumber (base + member.offset) n } := by
  simp only [storeTo] at h
  cases hs : memberStore member raw with
  | none => simp [hs] at h
  | some n =>
    simp only [hs, Prod.mk.injEq, true_and] at h
    exact ⟨n, rfl, h.symm⟩

lemma storePresent_true {member : Member} {raw : ℕ}
    (h : storePresent base member raw state = (true, next)) :
    ∃ memory, next = { state with memory := memory } ∧
      (memberIsPresent member = false → memory = state.memory) ∧
      (memberIsPresent member = true → ∃ n, memberStore member raw = some n ∧
        memory = state.memory.setNumber (base + member.offset) n) := by
  simp only [storePresent] at h
  split_ifs at h with hp
  · obtain ⟨n, hn, rfl⟩ := storeTo_true h
    exact ⟨_, rfl, by simp [hp], fun _ => ⟨n, hn, rfl⟩⟩
  · simp only [Prod.mk.injEq, true_and] at h
    exact ⟨state.memory, h.symm, fun _ => rfl, fun hp' => absurd hp' hp⟩

lemma groupRead_true {group : Option Field} (h : groupRead group base state = (true, next)) :
    ∃ memory, next = { state with memory := memory } ∧
      (∀ g, group = some g → memberIsPresent g.params.present = true →
        ∃ n, memberStore g.params.present 1 = some n ∧
          memory = state.memory.setNumber (base + g.params.present.offset) n) ∧
      ((∀ g, group = some g → memberIsPresent g.params.present = false) →
        memory = state.memory) := by
  cases group with
  | none =>
    cases h
    exact ⟨_, rfl, by simp, fun _ => rfl⟩
  | some g =>
    obtain ⟨memory, hnext, habsent, hpresent⟩ := storePresent_true h
    refine ⟨memory, hnext, ?_, fun hnone => habsent (hnone g rfl)⟩
    rintro _ ⟨⟩ hp
    exact hpresent hp

lemma decodeValue_integer {raw : Option ℕ} (ht : field.type = .integer)
    (h : decodeValue source field value state = (true, raw, next)) :
    ∃ number, 0 < field.params.length ∧ field.params.length ≤ 8 ∧
      state.position + field.params.length ≤ source.body.length ∧
      number = leLoad (window source.body state.position field.params.length) ∧
      raw = some number ∧
      applyTo field { FieldData.empty with number := number } value
        { state with position := state.position + field.params.length } = (true, next) := by
  simp only [decodeValue, ht] at h
  cases hr : readNumber source field.params.length state with
  | none => simp [hr] at h
  | some result =>
    obtain ⟨number, middle⟩ := result
    obtain ⟨h1, h2, h3, h4, rfl⟩ := readNumber_some hr
    simp only [hr, Prod.mk.injEq] at h
    exact ⟨number, h1, h2, h3, h4, h.2.1.symm, Prod.ext h.1 h.2.2⟩

lemma decodeValue_string {raw : Option ℕ} (ht : field.type = .string)
    (h : decodeValue source field value state = (true, raw, next)) :
    ∃ number, state.position + 1 ≤ source.body.length ∧
      number = leLoad (window source.body state.position 1) ∧ raw = some number ∧
      applyTo field { FieldData.empty with number := number, string := entityString source number }
        value { state with position := state.position + 1 } = (true, next) := by
  simp only [decodeValue, ht] at h
  cases hr : readerGet source 1 state with
  | none => simp [hr] at h
  | some result =>
    obtain ⟨bytes, middle⟩ := result
    obtain ⟨h1, rfl, rfl⟩ := readerGet_some hr
    simp only [hr, Prod.mk.injEq] at h
    exact ⟨_, h1, rfl, h.2.1.symm, Prod.ext h.1 h.2.2⟩

lemma decodeValue_uuid {raw : Option ℕ} (ht : field.type = .uuid)
    (h : decodeValue source field (some base) state = (true, raw, next)) :
    state.position + 16 ≤ source.body.length ∧ raw = none ∧
      next = { state with
        position := state.position + 16
        memory := state.memory.storeUuid base
          (uuidSwap (window source.body state.position 16)) } := by
  simp only [decodeValue, ht] at h
  cases hr : readerGet source 16 state with
  | none => simp [hr] at h
  | some result =>
    obtain ⟨bytes, middle⟩ := result
    obtain ⟨h1, rfl, rfl⟩ := readerGet_some hr
    simp only [hr, Prod.mk.injEq, true_and] at h
    exact ⟨h1, h.1.symm, h.2.symm⟩

lemma decodeValue_skip {raw : Option ℕ} (ht : field.type = .skip)
    (h : decodeValue source field value state = (true, raw, next)) :
    state.position + field.params.length ≤ source.body.length ∧ raw = none ∧
      next = { state with position := state.position + field.params.length } := by
  simp only [decodeValue, ht, readerSkip] at h
  cases hr : readerGet source field.params.length state with
  | none => simp [hr] at h
  | some result =>
    obtain ⟨bytes, middle⟩ := result
    obtain ⟨h1, -, rfl⟩ := readerGet_some hr
    simp only [hr, Prod.mk.injEq, true_and] at h
    exact ⟨h1, h.1.symm, h.2.symm⟩

def binaryAt (source : Source) (position length : ℕ) : Binary :=
  ⟨if length = 0 then none else some position, window source.body position length⟩

lemma decoderGetBinary_some {binary : Binary}
    (h : decoderGetBinary source length state = some (binary, next)) :
    state.position + length ≤ source.body.length ∧
      binary = binaryAt source state.position length ∧
      next = { state with position := state.position + length } := by
  obtain ⟨⟨bytes, middle⟩, hget, heq⟩ := Option.map_eq_some_iff.mp h
  obtain ⟨hfits, rfl, rfl⟩ := readerGet_some hget
  cases heq
  exact ⟨hfits, rfl, rfl⟩

lemma readBinary_some {binary : Binary}
    (h : readBinary source field value state = (some binary, next)) :
    ∃ length, length = binaryLength source field value state ∧
      state.position + length ≤ source.body.length ∧
      binary = binaryAt source state.position length ∧
      next = { state with position := state.position + length } := by
  refine ⟨_, rfl, ?_⟩
  simp only [readBinary] at h
  split_ifs at h
  · split at h <;> simp at h
  · cases hg : decoderGetBinary source (binaryLength source field value state) state with
    | none => simp [hg] at h
    | some result =>
      obtain ⟨found, middle⟩ := result
      simp only [hg, Prod.mk.injEq, Option.some.injEq] at h
      obtain ⟨rfl, rfl⟩ := h
      exact decoderGetBinary_some hg

lemma decodeValue_binary {raw : Option ℕ} (ht : field.type = .binary)
    (h : decodeValue source field value state = (true, raw, next)) :
    ∃ length, length = binaryLength source field value state ∧
      state.position + length ≤ source.body.length ∧ raw = some 0 ∧
      applyTo field { FieldData.empty with binary := binaryAt source state.position length } value
        { state with position := state.position + length } = (true, next) := by
  simp only [decodeValue, ht] at h
  cases hr : readBinary source field value state with
  | mk binary middle =>
    cases binary with
    | none => simp [hr] at h
    | some binary =>
      obtain ⟨length, hlen, hfits, rfl, rfl⟩ := readBinary_some hr
      simp only [hr, Prod.mk.injEq] at h
      exact ⟨length, hlen, hfits, h.2.1.symm, Prod.ext h.1 h.2.2⟩

structure BitsHeld (source : Source) (state : DecodeState) : Prop where
  count : state.bitsCount ≤ 8 * state.position
  value : state.bitsValue =
    bitsAt source.body (8 * state.position - state.bitsCount) state.bitsCount
  bound : state.position ≤ source.body.length

lemma fillBits_true {bits fuel : ℕ} (hs : BitsHeld source state)
    (h : fillBits source bits fuel state = (true, next)) :
    BitsHeld source next ∧ (bits ≤ state.bitsCount + fuel → bits ≤ next.bitsCount) ∧
      8 * next.position - next.bitsCount = 8 * state.position - state.bitsCount ∧
      next.bitsCount < max (state.bitsCount + 1) (bits + 8) ∧
      ∃ position bitsValue bitsCount, next = { state with
        position := position, bitsValue := bitsValue, bitsCount := bitsCount } := by
  induction fuel generalizing state with
  | zero =>
    cases h
    exact ⟨hs, by omega, rfl, by omega, _, _, _, rfl⟩
  | succ fuel ih =>
    rw [fillBits] at h
    split_ifs at h with hlt
    · cases hg : readerGet source 1 state with
      | none => simp [hg] at h
      | some result =>
        obtain ⟨bytes, middle⟩ := result
        obtain ⟨hfits, rfl, rfl⟩ := readerGet_some hg
        simp only [hg] at h
        have hcount := hs.count
        have hstart : 8 * (state.position + 1) - (state.bitsCount + 8) =
            8 * state.position - state.bitsCount := by omega
        have hend : 8 * state.position - state.bitsCount + state.bitsCount =
            8 * state.position := by omega
        obtain ⟨h1, h2, h3, h4, p, v, c, h5⟩ := ih
          ⟨by simp only; omega, by
            simp only
            rw [hstart, bitsAt_append, hend, hs.value, leLoad_window_bitsAt], hfits⟩ h
        simp only at h2 h3 h4 h5
        exact ⟨h1, fun hb => h2 (by omega), by omega, by omega, p, v, c, h5⟩
    · cases h
      exact ⟨hs, by omega, rfl, by omega, _, _, _, rfl⟩

lemma takeBits_true {bits number : ℕ} (hs : BitsHeld source state)
    (h : takeBits source bits state = (true, number, next)) :
    BitsHeld source next ∧
      number = bitsAt source.body (8 * state.position - state.bitsCount) bits ∧
      8 * next.position - next.bitsCount = 8 * state.position - state.bitsCount + bits ∧
      (state.bitsCount < 8 → next.bitsCount < 8) ∧
      ∃ position bitsValue bitsCount, next = { state with
        position := position, bitsValue := bitsValue, bitsCount := bitsCount
        bitsTaken := state.bitsTaken + bits } := by
  simp only [takeBits] at h
  cases hf : fillBits source bits bits state with
  | mk ok filled =>
    cases ok with
    | false => simp [hf] at h
    | true =>
      obtain ⟨hheld, hge, hpos, hlt, p, v, c, rfl⟩ := fillBits_true hs hf
      simp only [hf, Prod.mk.injEq, true_and] at h
      obtain ⟨rfl, rfl⟩ := h
      simp only at hge hpos hlt
      have hbits : bits ≤ c := hge (by omega)
      have hcount := hheld.count
      have hvalue := hheld.value
      simp only at hcount hvalue
      obtain ⟨left, rfl⟩ := Nat.exists_eq_add_of_le hbits
      have hstart : 8 * p - (bits + left) + bits = 8 * p - left := by omega
      refine ⟨⟨by simp only; omega, ?_, hheld.bound⟩, ?_, by simp only; omega,
        fun _ => by simp only; omega, p, _, _, rfl⟩
      · simp only
        rw [hvalue, bitsAt_div, hstart, Nat.add_sub_cancel_left]
      · rw [hvalue, bitsAt_mod, hpos]

end OpenDmi

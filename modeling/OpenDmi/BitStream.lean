import OpenDmi.Bytes

/-! Byte strings as streams of bits, the least significant one first. -/

namespace OpenDmi

namespace Bytes

lemma leLoad_append (as bs : List Byte) :
    leLoad (as ++ bs) = leLoad as + 256 ^ as.length * leLoad bs := by
  induction as with
  | nil => simp [leLoad]
  | cons a as ih =>
    simp only [List.cons_append, leLoad, ih, List.length_cons, pow_succ]
    ring

lemma leLoad_take_drop (data : List Byte) (n : ℕ) :
    leLoad (data.take n) = leLoad data % 256 ^ n ∧ leLoad (data.drop n) = leLoad data / 256 ^ n := by
  rcases le_or_gt data.length n with hn | hn
  · have hlt : leLoad data < 256 ^ n := (leLoad_lt data).trans_le (Nat.pow_le_pow_right (by omega) hn)
    rw [List.take_of_length_le hn, List.drop_of_length_le hn, Nat.mod_eq_of_lt hlt,
      Nat.div_eq_of_lt hlt]
    exact ⟨rfl, rfl⟩
  · have hlen : (data.take n).length = n := by simp; omega
    have hsplit := leLoad_append (data.take n) (data.drop n)
    rw [List.take_append_drop, hlen] at hsplit
    have hlt := leLoad_lt (data.take n)
    rw [hlen] at hlt
    rw [hsplit, Nat.add_mul_mod_self_left, Nat.mod_eq_of_lt hlt,
      Nat.add_mul_div_left _ _ (by positivity), Nat.div_eq_of_lt hlt, Nat.zero_add]
    exact ⟨rfl, rfl⟩

lemma leLoad_window (data : List Byte) (offset length : ℕ) :
    leLoad (window data offset length) = leLoad data / 256 ^ offset % 256 ^ length := by
  rw [window, (leLoad_take_drop _ _).1, (leLoad_take_drop _ _).2]

def bitsAt (data : List Byte) (start count : ℕ) : ℕ := leLoad data / 2 ^ start % 2 ^ count

lemma bitsAt_lt (data : List Byte) (start count : ℕ) : bitsAt data start count < 2 ^ count :=
  Nat.mod_lt _ (by positivity)

lemma leLoad_window_bitsAt (data : List Byte) (offset length : ℕ) :
    leLoad (window data offset length) = bitsAt data (8 * offset) (8 * length) := by
  rw [leLoad_window, bitsAt, pow_mul, pow_mul]
  norm_num

lemma bitsAt_append (data : List Byte) (start m n : ℕ) :
    bitsAt data start (m + n) = bitsAt data start m + bitsAt data (start + m) n * 2 ^ m := by
  rw [bitsAt, bitsAt, bitsAt, pow_add 2 start m, ← Nat.div_div_eq_div_mul, pow_add,
    Nat.mod_mul, Nat.mul_comm]

lemma bitsAt_mod (data : List Byte) (start m n : ℕ) :
    bitsAt data start (m + n) % 2 ^ m = bitsAt data start m := by
  rw [bitsAt_append, Nat.add_mul_mod_self_right, Nat.mod_eq_of_lt (bitsAt_lt _ _ _)]

lemma bitsAt_div (data : List Byte) (start m n : ℕ) :
    bitsAt data start (m + n) / 2 ^ m = bitsAt data (start + m) n := by
  rw [bitsAt_append, Nat.add_mul_div_right _ _ (by positivity),
    Nat.div_eq_of_lt (bitsAt_lt _ _ _), Nat.zero_add]

@[simp] lemma bitsAt_zero (data : List Byte) (start : ℕ) : bitsAt data start 0 = 0 := by
  simp [bitsAt, Nat.mod_one]

lemma window_one {data : List Byte} {offset : ℕ} (h : offset < data.length) :
    window data offset 1 = [UInt8.ofNat (bitsAt data (8 * offset) 8)] := by
  have hlen : (window data offset 1).length = 1 := window_length h
  obtain ⟨b, hb⟩ := List.length_eq_one_iff.mp hlen
  have hload := leLoad_window_bitsAt data offset 1
  rw [hb] at hload ⊢
  simp only [leLoad, Nat.mul_zero, Nat.add_zero, Nat.mul_one] at hload
  rw [← hload, UInt8.ofNat_toNat]

end Bytes

end OpenDmi

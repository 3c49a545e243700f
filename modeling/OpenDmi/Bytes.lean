import Mathlib.Data.List.Basic
import Mathlib.Tactic

namespace OpenDmi

abbrev Byte := UInt8

structure CString where
  bytes : List Byte
  noZero : 0 ∉ bytes

namespace Bytes

def leLoad : List Byte → ℕ
  | [] => 0
  | b :: bs => b.toNat + 256 * leLoad bs

def leStore : ℕ → ℕ → List Byte
  | 0, _ => []
  | n + 1, x => UInt8.ofNat x :: leStore n (x / 256)

@[simp] lemma leStore_length (n x : ℕ) : (leStore n x).length = n := by
  induction n generalizing x with
  | zero => rfl
  | succ n ih => simp [leStore, ih]

lemma leLoad_lt (bs : List Byte) : leLoad bs < 256 ^ bs.length := by
  induction bs with
  | nil => simp [leLoad]
  | cons b bs ih =>
    have hb : b.toNat < 256 := b.toNat_lt
    simp only [leLoad, List.length_cons, pow_succ]
    omega

@[simp] lemma leStore_leLoad (bs : List Byte) : leStore bs.length (leLoad bs) = bs := by
  induction bs with
  | nil => rfl
  | cons b bs ih =>
    have hb : b.toNat < 256 := b.toNat_lt
    have hdiv : (b.toNat + 256 * leLoad bs) / 256 = leLoad bs := by omega
    have hbyte : UInt8.ofNat (b.toNat + 256 * leLoad bs) = b := by
      apply UInt8.toNat_inj.mp
      simp only [UInt8.toNat_ofNat']
      omega
    simp only [List.length_cons, leLoad, leStore, hdiv, ih, hbyte]

lemma leLoad_leStore (n x : ℕ) : leLoad (leStore n x) = x % 256 ^ n := by
  induction n generalizing x with
  | zero => simp [leLoad, leStore, Nat.mod_one]
  | succ n ih =>
    have hp : 256 ^ (n + 1) = 256 * 256 ^ n := pow_succ' 256 n
    rw [leStore, leLoad, ih, UInt8.toNat_ofNat', hp, Nat.mod_mul (a := 256)]

lemma leStore_mod (n x : ℕ) : leStore n (x % 256 ^ n) = leStore n x := by
  have h := leStore_leLoad (leStore n x)
  rwa [leStore_length, leLoad_leStore] at h

lemma forall_byte {P : Byte → Prop} (h : ∀ n < 256, P (UInt8.ofNat n)) (b : Byte) : P b := by
  have hb := h b.toNat b.toNat_lt
  rwa [UInt8.ofNat_toNat] at hb

def window (data : List Byte) (offset length : ℕ) : List Byte :=
  (data.drop offset).take length

lemma window_length {data : List Byte} {offset length : ℕ} (h : offset + length ≤ data.length) :
    (window data offset length).length = length := by
  simp only [window, List.length_take, List.length_drop]
  omega

lemma window_append (data : List Byte) (offset m n : ℕ) :
    window data offset (m + n) = window data offset m ++ window data (offset + m) n := by
  simp only [window, List.take_add, List.drop_drop]

@[simp] lemma window_zero (data : List Byte) (offset : ℕ) : window data offset 0 = [] := by
  simp [window]

lemma getD_window {data : List Byte} {offset length i : ℕ} (hi : i < length) (d : Byte) :
    (window data offset length).getD i d = data.getD (offset + i) d := by
  simp [window, List.getD_eq_getElem?_getD, hi, List.getElem?_drop]

def patch (data : List Byte) (offset : ℕ) (bytes : List Byte) : List Byte :=
  data.take offset ++ bytes ++ data.drop (offset + bytes.length)

@[simp] lemma patch_length {data bytes : List Byte} {offset : ℕ}
    (h : offset + bytes.length ≤ data.length) : (patch data offset bytes).length = data.length := by
  simp only [patch, List.length_append, List.length_take, List.length_drop]
  omega

lemma getElem?_patch_inside {data bytes : List Byte} {offset i : ℕ} (ho : offset ≤ data.length)
    (h1 : offset ≤ i) (h2 : i < offset + bytes.length) :
    (patch data offset bytes)[i]? = bytes[i - offset]? := by
  have ht : (data.take offset).length = offset := by simp [ho]
  rw [patch, List.append_assoc, List.getElem?_append_right (by omega), ht,
    List.getElem?_append_left (by omega)]

lemma getElem?_patch_outside {data bytes : List Byte} {offset i : ℕ}
    (h : offset + bytes.length ≤ data.length) (hi : i < offset ∨ offset + bytes.length ≤ i) :
    (patch data offset bytes)[i]? = data[i]? := by
  have ht : (data.take offset).length = offset := by simp; omega
  rcases hi with hi | hi
  · rw [patch, List.append_assoc, List.getElem?_append_left (by omega), List.getElem?_take,
      if_pos hi]
  · rw [patch, List.append_assoc, List.getElem?_append_right (by omega), ht,
      List.getElem?_append_right (by omega), List.getElem?_drop]
    congr 1
    omega

lemma getElem?_window (data : List Byte) (offset length i : ℕ) :
    (window data offset length)[i]? = if i < length then data[offset + i]? else none := by
  simp [window, List.getElem?_take, List.getElem?_drop]

lemma window_congr {xs ys : List Byte} {offset length : ℕ}
    (h : ∀ i, offset ≤ i → i < offset + length → xs[i]? = ys[i]?) :
    window xs offset length = window ys offset length := by
  apply List.ext_getElem?
  intro i
  simp only [getElem?_window]
  split_ifs with hi
  · exact h _ (by omega) (by omega)
  · rfl

lemma window_patch_outside {data bytes : List Byte} {offset start length : ℕ}
    (h : offset + bytes.length ≤ data.length)
    (hd : start + length ≤ offset ∨ offset + bytes.length ≤ start) :
    window (patch data offset bytes) start length = window data start length :=
  window_congr fun i h1 h2 => getElem?_patch_outside h (by omega)

lemma window_patch {data bytes : List Byte} {offset : ℕ}
    (h : offset + bytes.length ≤ data.length) :
    window (patch data offset bytes) offset bytes.length = bytes := by
  apply List.ext_getElem?
  intro i
  rw [getElem?_window]
  split_ifs with hi
  · rw [getElem?_patch_inside (by omega) (by omega) (by omega)]
    congr 1
    omega
  · exact (List.getElem?_eq_none (by omega)).symm

lemma take_eq_window (data : List Byte) (n : ℕ) : data.take n = window data 0 n := by
  simp [window]

def byteSum : List Byte → Byte
  | [] => 0
  | b :: bs => b + byteSum bs

@[simp] lemma byteSum_nil : byteSum [] = 0 := rfl

@[simp] lemma byteSum_append (as bs : List Byte) :
    byteSum (as ++ bs) = byteSum as + byteSum bs := by
  induction as with
  | nil => simp [byteSum]
  | cons a as ih => simp only [List.cons_append, byteSum, ih]; grind

lemma window_window {data : List Byte} {a m b n : ℕ} (h : b + n ≤ m) :
    window (window data a m) b n = window data (a + b) n := by
  apply List.ext_getElem?
  intro i
  simp only [getElem?_window, Nat.add_assoc]
  split_ifs <;> first | rfl | omega

lemma window_append_left {xs ys : List Byte} {offset length : ℕ}
    (h : offset + length ≤ xs.length) : window (xs ++ ys) offset length = window xs offset length :=
  window_congr fun i _ _ => List.getElem?_append_left (by omega)

lemma window_take {data : List Byte} {offset length n : ℕ} (h : offset + length ≤ n) :
    window (data.take n) offset length = window data offset length :=
  window_congr fun i _ _ => by rw [List.getElem?_take, if_pos (by omega)]

end Bytes

end OpenDmi

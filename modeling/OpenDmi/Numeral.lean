import Mathlib.Data.Nat.Digits.Lemmas
import Mathlib.Tactic

namespace Numeral

variable {base n width d : ℕ} {digits other : List ℕ}

def value (base : ℕ) (digits : List ℕ) : ℕ := digits.foldl (fun v d => v * base + d) 0

def numeral (base n : ℕ) : List ℕ := if n = 0 then [0] else (Nat.digits base n).reverse

def pad (width : ℕ) (digits : List ℕ) : List ℕ :=
  List.replicate (width - digits.length) 0 ++ digits

lemma value_eq (base : ℕ) (digits : List ℕ) :
    value base digits = Nat.ofDigits base digits.reverse := by
  rw [value, ← List.foldr_reverse, Nat.ofDigits_eq_foldr]
  congr 1
  funext d v
  simp only [Nat.cast_id]
  ring

@[simp] lemma value_nil (base : ℕ) : value base [] = 0 := rfl

@[simp] lemma value_singleton (base d : ℕ) : value base [d] = d := by simp [value]

lemma value_append (base : ℕ) (digits other : List ℕ) :
    value base (digits ++ other) = value base digits * base ^ other.length + value base other := by
  rw [value_eq, value_eq, value_eq, List.reverse_append, Nat.ofDigits_append, List.length_reverse]
  ring

lemma value_pad (base width : ℕ) (digits : List ℕ) :
    value base (pad width digits) = value base digits := by
  rw [pad, value_append]
  have hzero : value base (List.replicate (width - digits.length) 0) = 0 := by
    rw [value_eq, List.reverse_replicate, Nat.ofDigits_replicate_zero]
  rw [hzero, Nat.zero_mul, Nat.zero_add]

lemma value_lt (hbase : 1 < base) (hdigits : ∀ d ∈ digits, d < base) :
    value base digits < base ^ digits.length := by
  rw [value_eq, ← List.length_reverse]
  apply Nat.ofDigits_lt_base_pow_length hbase
  intro d hd
  exact hdigits d (List.mem_reverse.mp hd)

lemma value_inj (hbase : 1 < base) (hlength : digits.length = other.length)
    (hdigits : ∀ d ∈ digits, d < base) (hother : ∀ d ∈ other, d < base)
    (h : value base digits = value base other) : digits = other := by
  rw [value_eq, value_eq] at h
  apply List.reverse_injective
  apply Nat.ofDigits_inj_of_len_eq hbase _ _ _ h
  · rw [List.length_reverse, List.length_reverse, hlength]
  · exact fun d hd => hdigits d (List.mem_reverse.mp hd)
  · exact fun d hd => hother d (List.mem_reverse.mp hd)

lemma value_numeral (base n : ℕ) : value base (numeral base n) = n := by
  rw [numeral]
  split_ifs with hn
  · rw [hn, value_singleton]
  · rw [value_eq, List.reverse_reverse, Nat.ofDigits_digits]

lemma numeral_lt (hbase : 1 < base) : ∀ d ∈ numeral base n, d < base := by
  intro d hd
  rw [numeral] at hd
  split_ifs at hd with hn
  · obtain rfl := List.mem_singleton.mp hd
    omega
  · exact Nat.digits_lt_base hbase (List.mem_reverse.mp hd)

lemma numeral_ne_nil (base n : ℕ) : numeral base n ≠ [] := by
  rw [numeral]
  split_ifs with hn
  · exact List.cons_ne_nil _ _
  · exact fun h => hn (Nat.digits_eq_nil_iff_eq_zero.mp (List.reverse_eq_nil_iff.mp h))

lemma numeral_length_le (hbase : 1 < base) (hwidth : 0 < width) (hn : n < base ^ width) :
    (numeral base n).length ≤ width := by
  rw [numeral]
  split_ifs
  · exact hwidth
  · rw [List.length_reverse]
    exact (Nat.digits_length_le_iff hbase n).mpr hn

lemma numeral_getLast? (hbase : 1 < base) : (numeral base n).getLast? = some (n % base) := by
  rw [numeral]
  split_ifs with hn
  · rw [hn, Nat.zero_mod]
    rfl
  · rw [List.getLast?_reverse, Nat.digits_def' hbase (Nat.pos_of_ne_zero hn)]
    rfl

lemma pad_length (h : digits.length ≤ width) : (pad width digits).length = width := by
  rw [pad, List.length_append, List.length_replicate]
  omega

lemma pad_lt (hbase : 1 < base) (hdigits : ∀ d ∈ digits, d < base) :
    ∀ d ∈ pad width digits, d < base := by
  rw [pad, List.forall_mem_append]
  refine ⟨?_, hdigits⟩
  intro d hd
  rw [List.eq_of_mem_replicate hd]
  omega

lemma pad_numeral_value (hbase : 1 < base) (hdigits : ∀ d ∈ digits, d < base) (hne : digits ≠ []) :
    pad digits.length (numeral base (value base digits)) = digits := by
  have hlength : (numeral base (value base digits)).length ≤ digits.length :=
    numeral_length_le hbase (List.length_pos_iff.mpr hne) (value_lt hbase hdigits)
  apply value_inj hbase (pad_length hlength) (pad_lt hbase (numeral_lt hbase)) hdigits
  rw [value_pad, value_numeral]

section Characters

def lower (d : ℕ) : UInt8 := UInt8.ofNat (if d < 10 then 0x30 + d else 0x61 + (d - 10))

def upper (d : ℕ) : UInt8 := UInt8.ofNat (if d < 10 then 0x30 + d else 0x41 + (d - 10))

def digitOf (c : UInt8) : Option ℕ :=
  if 0x30 ≤ c ∧ c ≤ 0x39 then some (c.toNat - 0x30)
  else if 0x61 ≤ c ∧ c ≤ 0x66 then some (c.toNat - 0x61 + 10)
  else if 0x41 ≤ c ∧ c ≤ 0x46 then some (c.toNat - 0x41 + 10)
  else none

lemma digitOf_lower (h : d < 16) : digitOf (lower d) = some d := by
  have hall : ∀ d < 16, digitOf (lower d) = some d := by decide
  exact hall d h

lemma mapM_digitOf_map {spell : ℕ → UInt8} {digits : List ℕ}
    (h : ∀ d ∈ digits, digitOf (spell d) = some d) : (digits.map spell).mapM digitOf = some digits := by
  induction digits with
  | nil => rfl
  | cons d digits ih =>
    rw [List.forall_mem_cons] at h
    rw [List.map_cons, List.mapM_cons, h.1, ih h.2]
    rfl

lemma digitOf_lt {c : UInt8} (h : digitOf c = some d) : d < 16 := by
  have hall : ∀ n < 256, ∀ e ∈ digitOf (UInt8.ofNat n), e < 16 := by decide +kernel
  have hc := hall c.toNat c.toNat_lt d
  rw [UInt8.ofNat_toNat] at hc
  exact hc h

end Characters

end Numeral

import OpenDmi.Bytes
import OpenDmi.Numeral

namespace OpenDmi

open Bytes Numeral

structure NumberAttribute where
  valueSize : ℕ
  isSigned : Bool
  isHex : Bool
  scale : ℕ

def derefInt (size : ℕ) (value : List Byte) : ℤ :=
  (leLoad (value.take size) : ℤ).bmod (256 ^ size)

def derefUint (size : ℕ) (value : List Byte) : ℕ := leLoad (value.take size)

def intmaxMax : ℤ := 2 ^ 63 - 1
def uintmaxMax : ℕ := 2 ^ 64 - 1

def attributeGetInt (attr : NumberAttribute) (value : List Byte) : ℤ :=
  if attr.valueSize = 1 then derefInt 1 value
  else if attr.valueSize = 2 then derefInt 2 value
  else if attr.valueSize = 4 then derefInt 4 value
  else if attr.valueSize = 8 then derefInt 8 value
  else intmaxMax

def attributeGetUint (attr : NumberAttribute) (value : List Byte) : ℕ :=
  if attr.valueSize = 1 then derefUint 1 value
  else if attr.valueSize = 2 then derefUint 2 value
  else if attr.valueSize = 4 then derefUint 4 value
  else if attr.valueSize = 8 then derefUint 8 value
  else uintmaxMax

def ipow32Loop (value result factor : ℕ) : ℕ × ℕ :=
  if factor > 1 then
    if factor % 2 ≠ 0 then
      ipow32Loop (value * value % 2 ^ 32) (result * value % 2 ^ 32) ((factor - 1) / 2)
    else ipow32Loop (value * value % 2 ^ 32) result (factor / 2)
  else (value, result)
termination_by factor

def ipow32 (value factor : ℕ) : ℕ :=
  if factor = 0 then 1
  else
    let (value, result) := ipow32Loop value 1 factor
    value * result % 2 ^ 32

def decimalText (n : ℕ) : List Byte := (numeral 10 n).map lower

def decimalTextPadded (width n : ℕ) : List Byte := (pad width (numeral 10 n)).map lower

def signText (negative : Bool) : List Byte := if negative then [0x2D] else []

def attributeFormatInteger (attr : NumberAttribute) (value : List Byte) : Option (List Byte) :=
  if attr.valueSize ∈ [1, 2, 4, 8] then
    if attr.isSigned then
      let src := derefInt attr.valueSize value
      some (signText (decide (src < 0)) ++ decimalText src.natAbs)
    else if attr.isHex then
      some ([0x30, 0x78] ++ (numeral 16 (derefUint attr.valueSize value)).map upper)
    else some (decimalText (derefUint attr.valueSize value))
  else none

def toUintmax (n : ℤ) : ℕ := (n % 2 ^ 64).toNat

def decimalAdjust : ℕ → ℕ → ℕ → ℕ × ℕ × ℕ
  | scale + 2, magnitude, factor =>
    if magnitude % 10 ≠ 0 then (scale + 2, magnitude, factor)
    else decimalAdjust (scale + 1) (magnitude / 10) (factor / 10)
  | scale, magnitude, factor => (scale, magnitude, factor)

def attributeFormatDecimal (attr : NumberAttribute) (value : List Byte) : Option (List Byte) :=
  if attr.scale = 0 then attributeFormatInteger attr value
  else
    let src := attributeGetInt attr value
    let negative := attr.isSigned && decide (src < 0)
    let magnitude :=
      if attr.isSigned then
        if negative then toUintmax (-(toUintmax src : ℤ)) else toUintmax src
      else attributeGetUint attr value
    let (scale, magnitude, factor) :=
      decimalAdjust attr.scale magnitude (ipow32 10 attr.scale)
    some (signText negative ++ decimalText (magnitude / factor) ++ [0x2E] ++
      decimalTextPadded scale (magnitude % factor))

def MemberHolds (size : ℕ) (isSigned : Bool) (v : ℤ) : Prop :=
  if isSigned then -(256 ^ size : ℤ) ≤ 2 * v ∧ 2 * v < 256 ^ size else 0 ≤ v ∧ v < 256 ^ size

def memberOfInt (size : ℕ) (v : ℤ) : List Byte := leStore size (v % 256 ^ size).toNat

def decimalDenotes (negative : Bool) (whole fraction : List ℕ) : ℚ :=
  (if negative then -1 else 1) *
    (value 10 whole + value 10 fraction / 10 ^ fraction.length)

variable {attr : NumberAttribute} {size : ℕ} {v : ℤ}

lemma leLoad_memberOfInt (size : ℕ) (v : ℤ) :
    (leLoad ((memberOfInt size v).take size) : ℤ) = v % 256 ^ size := by
  have hpos : (0 : ℤ) < 256 ^ size := by positivity
  have hnonneg := Int.emod_nonneg v hpos.ne'
  have hlt := Int.emod_lt_of_pos v hpos
  have htake : (memberOfInt size v).take size = memberOfInt size v :=
    List.take_of_length_le (by rw [memberOfInt, leStore_length])
  have hbound : (v % 256 ^ size).toNat < 256 ^ size := by
    zify
    omega
  rw [htake, memberOfInt, leLoad_leStore, Nat.mod_eq_of_lt hbound, Int.toNat_of_nonneg hnonneg]

lemma derefInt_memberOfInt (h : MemberHolds size true v) :
    derefInt size (memberOfInt size v) = v := by
  obtain ⟨hlow, hhigh⟩ := h
  rw [derefInt, leLoad_memberOfInt]
  have hcast : ((256 ^ size : ℕ) : ℤ) = 256 ^ size := by push_cast; rfl
  rw [← hcast, Int.emod_bmod]
  apply Int.bmod_eq_of_le_mul_two
  · rw [hcast]
    omega
  · rw [hcast]
    omega

lemma derefUint_memberOfInt (h : MemberHolds size false v) :
    (derefUint size (memberOfInt size v) : ℤ) = v := by
  obtain ⟨hlow, hhigh⟩ := h
  rw [derefUint, leLoad_memberOfInt, Int.emod_eq_of_lt hlow hhigh]

lemma attributeGetInt_eq (hsize : attr.valueSize ∈ [1, 2, 4, 8]) (value : List Byte) :
    attributeGetInt attr value = derefInt attr.valueSize value := by
  simp only [List.mem_cons, List.not_mem_nil, or_false] at hsize
  rw [attributeGetInt]
  obtain h | h | h | h := hsize <;> simp [h]

lemma attributeGetUint_eq (hsize : attr.valueSize ∈ [1, 2, 4, 8]) (value : List Byte) :
    attributeGetUint attr value = derefUint attr.valueSize value := by
  simp only [List.mem_cons, List.not_mem_nil, or_false] at hsize
  rw [attributeGetUint]
  obtain h | h | h | h := hsize <;> simp [h]

lemma memberHolds_natAbs (hsize : size ∈ [1, 2, 4, 8]) (h : MemberHolds size true v) :
    v.natAbs ≤ 2 ^ 63 := by
  obtain ⟨hlow, hhigh⟩ := h
  simp only [List.mem_cons, List.not_mem_nil, or_false] at hsize
  obtain rfl | rfl | rfl | rfl := hsize <;> norm_num at hlow hhigh <;> omega

lemma magnitude_eq (h : v.natAbs ≤ 2 ^ 63) :
    (if v < 0 then toUintmax (-(toUintmax v : ℤ)) else toUintmax v) = v.natAbs := by
  rw [toUintmax, toUintmax]
  split_ifs with hneg <;> omega

lemma ipow32Loop_spec (value result factor : ℕ) (hfactor : 0 < factor) :
    (ipow32Loop value result factor).1 * (ipow32Loop value result factor).2 ≡
      value ^ factor * result [MOD 2 ^ 32] := by
  induction value, result, factor using ipow32Loop.induct with
  | case1 value result factor hgt hodd ih =>
    have hhalf : factor = 2 * ((factor - 1) / 2) + 1 := by omega
    rw [ipow32Loop, if_pos hgt, if_pos hodd]
    refine (ih (by omega)).trans ?_
    calc (value * value % 2 ^ 32) ^ ((factor - 1) / 2) * (result * value % 2 ^ 32)
        ≡ (value * value) ^ ((factor - 1) / 2) * (result * value) [MOD 2 ^ 32] :=
          ((Nat.mod_modEq _ _).pow _).mul (Nat.mod_modEq _ _)
      _ = value ^ (2 * ((factor - 1) / 2) + 1) * result := by ring
      _ = value ^ factor * result := by rw [← hhalf]
  | case2 value result factor hgt heven ih =>
    have hhalf : factor = 2 * (factor / 2) := by omega
    rw [ipow32Loop, if_pos hgt, if_neg heven]
    refine (ih (by omega)).trans ?_
    calc (value * value % 2 ^ 32) ^ (factor / 2) * result
        ≡ (value * value) ^ (factor / 2) * result [MOD 2 ^ 32] :=
          ((Nat.mod_modEq _ _).pow _).mul_right _
      _ = value ^ (2 * (factor / 2)) * result := by ring
      _ = value ^ factor * result := by rw [← hhalf]
  | case3 value result factor hle =>
    obtain rfl : factor = 1 := by omega
    rw [ipow32Loop, if_neg hle, pow_one]

lemma ipow32_eq (value factor : ℕ) : ipow32 value factor = value ^ factor % 2 ^ 32 := by
  rw [ipow32]
  split_ifs with hzero
  · rw [hzero]
    rfl
  · have hloop := ipow32Loop_spec value 1 factor (Nat.pos_of_ne_zero hzero)
    rw [Nat.mul_one] at hloop
    exact hloop

lemma ipow32_ten {scale : ℕ} (h : scale ≤ 9) : ipow32 10 scale = 10 ^ scale := by
  rw [ipow32_eq]
  apply Nat.mod_eq_of_lt
  calc 10 ^ scale ≤ 10 ^ 9 := Nat.pow_le_pow_right (by omega) h
    _ < 2 ^ 32 := by norm_num

lemma decimalAdjust_spec (scale magnitude : ℕ) (hscale : 0 < scale) :
    ∃ scale' magnitude' k, decimalAdjust scale magnitude (10 ^ scale) =
        (scale', magnitude', 10 ^ scale') ∧
      scale = scale' + k ∧ magnitude = magnitude' * 10 ^ k ∧ 0 < scale' ∧
      (scale' = 1 ∨ magnitude' % 10 ≠ 0) := by
  obtain ⟨n, rfl⟩ : ∃ n, scale = n + 1 := ⟨scale - 1, by omega⟩
  induction n generalizing magnitude with
  | zero => exact ⟨1, magnitude, 0, rfl, rfl, by rw [pow_zero, Nat.mul_one], Nat.one_pos, .inl rfl⟩
  | succ n ih =>
    rw [decimalAdjust]
    split_ifs with hdigit
    · exact ⟨n + 2, magnitude, 0, rfl, rfl, by rw [pow_zero, Nat.mul_one], by omega, .inr hdigit⟩
    · have hfactor : 10 ^ (n + 1 + 1) / 10 = 10 ^ (n + 1) := by
        rw [pow_succ, Nat.mul_div_cancel _ (by omega)]
      obtain ⟨scale', magnitude', k, heq, hscale', hmagnitude, hpos, hend⟩ :=
        ih (magnitude / 10) (by omega)
      refine ⟨scale', magnitude', k + 1, ?_, by omega, ?_, hpos, hend⟩
      · rw [hfactor, heq]
      · calc magnitude = magnitude / 10 * 10 := by omega
          _ = magnitude' * 10 ^ (k + 1) := by rw [hmagnitude, pow_succ, Nat.mul_assoc]

lemma attributeFormatDecimal_eq (hsize : attr.valueSize ∈ [1, 2, 4, 8])
    (hscale : 1 ≤ attr.scale ∧ attr.scale ≤ 9)
    (hv : MemberHolds attr.valueSize attr.isSigned v) :
    attributeFormatDecimal attr (memberOfInt attr.valueSize v) =
      let (scale, magnitude, factor) := decimalAdjust attr.scale v.natAbs (10 ^ attr.scale)
      some (signText (decide (v < 0)) ++ decimalText (magnitude / factor) ++ [0x2E] ++
        decimalTextPadded scale (magnitude % factor)) := by
  have hpos : attr.scale ≠ 0 := by omega
  rw [attributeFormatDecimal, if_neg hpos, ipow32_ten hscale.2]
  cases hsigned : attr.isSigned with
  | true =>
    rw [hsigned] at hv
    have hint : attributeGetInt attr (memberOfInt attr.valueSize v) = v := by
      rw [attributeGetInt_eq hsize, derefInt_memberOfInt hv]
    have hmagnitude := magnitude_eq (memberHolds_natAbs hsize hv)
    simp only [hint, Bool.true_and, decide_eq_true_eq, if_true, hmagnitude]
  | false =>
    rw [hsigned] at hv
    have huint : attributeGetUint attr (memberOfInt attr.valueSize v) = v.natAbs := by
      rw [attributeGetUint_eq hsize]
      have hcast := derefUint_memberOfInt hv
      omega
    have hnonneg : ¬v < 0 := by
      have hlow := hv.1
      omega
    simp only [huint, Bool.false_and, Bool.false_eq_true, if_false, hnonneg, decide_false]

lemma decimalDenotes_eq (negative : Bool) {scale magnitude : ℕ} (hscale : 0 < scale) :
    decimalDenotes negative (numeral 10 (magnitude / 10 ^ scale))
        (pad scale (numeral 10 (magnitude % 10 ^ scale))) =
      (if negative then -1 else 1) * (magnitude / 10 ^ scale) := by
  have hlt : magnitude % 10 ^ scale < 10 ^ scale := Nat.mod_lt _ (by positivity)
  have hlength := numeral_length_le (by omega) hscale hlt
  have hsplit : (magnitude : ℚ) = (magnitude / 10 ^ scale : ℕ) * 10 ^ scale +
      (magnitude % 10 ^ scale : ℕ) := by
    exact_mod_cast (Nat.div_add_mod' magnitude (10 ^ scale)).symm
  rw [decimalDenotes, value_numeral, value_pad, value_numeral, pad_length hlength]
  congr 1
  rw [eq_div_iff (by positivity), add_mul, div_mul_cancel₀ _ (by positivity), ← hsplit]

/-- The text of an integer with a scale denotes the integer over the power of ten, with its sign
and no trailing zero past the first digit of the fraction. -/
theorem formatDecimal_exact (attr : NumberAttribute) (v : ℤ)
    (hsize : attr.valueSize ∈ [1, 2, 4, 8]) (hscale : 1 ≤ attr.scale ∧ attr.scale ≤ 9)
    (hv : MemberHolds attr.valueSize attr.isSigned v) :
    ∃ whole fraction : List ℕ,
      attributeFormatDecimal attr (memberOfInt attr.valueSize v) =
        some (signText (decide (v < 0)) ++ whole.map lower ++ [0x2E] ++ fraction.map lower) ∧
      (∀ d ∈ whole ++ fraction, d < 10) ∧ whole ≠ [] ∧ fraction ≠ [] ∧
      (fraction.length = 1 ∨ fraction.getLast? ≠ some 0) ∧
      decimalDenotes (decide (v < 0)) whole fraction = v / 10 ^ attr.scale := by
  obtain ⟨scale, magnitude, k, hadjust, hsum, hmagnitude, hpos, hend⟩ :=
    decimalAdjust_spec attr.scale v.natAbs hscale.1
  have hlt : magnitude % 10 ^ scale < 10 ^ scale := Nat.mod_lt _ (by positivity)
  have hlength := pad_length (numeral_length_le (by omega) hpos hlt)
  have hten : 1 < 10 := by omega
  refine ⟨numeral 10 (magnitude / 10 ^ scale), pad scale (numeral 10 (magnitude % 10 ^ scale)),
    ?_, ?_, numeral_ne_nil 10 _, ?_, ?_, ?_⟩
  · rw [attributeFormatDecimal_eq hsize hscale hv, hadjust]
    rfl
  · rw [List.forall_mem_append]
    exact ⟨numeral_lt hten, pad_lt hten (numeral_lt hten)⟩
  · intro hnil
    rw [hnil, List.length_nil] at hlength
    omega
  · refine hend.imp (fun h => by rw [hlength, h]) ?_
    intro hdigit hlast
    have hmod : magnitude % 10 ^ scale % 10 = magnitude % 10 :=
      Nat.mod_mod_of_dvd _ (dvd_pow_self 10 hpos.ne')
    rw [pad, List.getLast?_append_of_ne_nil _ (numeral_ne_nil 10 _), numeral_getLast? hten, hmod,
      Option.some.injEq] at hlast
    exact hdigit hlast
  · have hpow : (10 : ℚ) ^ attr.scale = 10 ^ scale * 10 ^ k := by rw [hsum, pow_add]
    have hcast : (v.natAbs : ℚ) = magnitude * 10 ^ k := by exact_mod_cast hmagnitude
    have hvalue : (magnitude : ℚ) / 10 ^ scale = v.natAbs / 10 ^ attr.scale := by
      rw [hcast, hpow, mul_div_mul_right _ _ (by positivity)]
    rw [decimalDenotes_eq _ hpos, hvalue, ← mul_div_assoc]
    congr 1
    by_cases hneg : v < 0
    · have habs : (v.natAbs : ℤ) = -v := by omega
      have hrat : (v.natAbs : ℚ) = -v := by rw [← Int.cast_natCast, habs, Int.cast_neg]
      simp [hneg, hrat]
    · have habs : (v.natAbs : ℤ) = v := by omega
      have hrat : (v.natAbs : ℚ) = v := by rw [← Int.cast_natCast, habs]
      simp [hneg, hrat]

theorem formatDecimal_exact_lowest :
    ∃ whole fraction : List ℕ,
      attributeFormatDecimal ⟨1, true, false, 3⟩ (memberOfInt 1 (-128)) =
        some (signText (decide ((-128 : ℤ) < 0)) ++ whole.map lower ++ [0x2E] ++
          fraction.map lower) ∧
      (∀ d ∈ whole ++ fraction, d < 10) ∧ whole ≠ [] ∧ fraction ≠ [] ∧
      (fraction.length = 1 ∨ fraction.getLast? ≠ some 0) ∧
      decimalDenotes (decide ((-128 : ℤ) < 0)) whole fraction = ((-128 : ℤ) : ℚ) / 10 ^ 3 :=
  formatDecimal_exact ⟨1, true, false, 3⟩ (-128) (by decide) (by decide)
    (by simp only [MemberHolds, if_true]; omega)

end OpenDmi

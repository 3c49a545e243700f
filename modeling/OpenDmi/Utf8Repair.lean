import OpenDmi.Bytes
import OpenDmi.Numeral
import OpenDmi.Utf8
import Mathlib.Data.List.GetD

namespace OpenDmi

open Bytes Numeral Utf8
open String (utf8EncodeChar)

def utf8Replacement : List Byte := [0xEF, 0xBF, 0xBD]

def utf8DecodeTail (str : List Byte) : ℕ → ℕ → ℕ → Option ℕ
  | 0, _, value => some value
  | count + 1, i, value =>
    if str.getD i 0 &&& 0xC0 ≠ 0x80 then none
    else utf8DecodeTail str count (i + 1) ((value <<< 6) ||| (str.getD i 0 &&& 0x3F).toNat)

/-- The length of a sequence, the bits of its first byte and the least code point it may have. -/
def utf8Lead (b : Byte) : Option (ℕ × ℕ × ℕ) :=
  if b &&& 0xE0 = 0xC0 then some (2, (b &&& 0x1F).toNat, 0x80)
  else if b &&& 0xF0 = 0xE0 then some (3, (b &&& 0x0F).toNat, 0x800)
  else if b &&& 0xF8 = 0xF0 then some (4, (b &&& 0x07).toNat, 0x10000)
  else none

/-- The length of the sequence at the beginning of a string, and its code point. -/
def utf8Decode (str : List Byte) : Option (ℕ × ℕ) :=
  if str.getD 0 0 < 0x80 then some (1, (str.getD 0 0).toNat)
  else match utf8Lead (str.getD 0 0) with
    | none => none
    | some (length, value, minimum) => match utf8DecodeTail str (length - 1) 1 value with
      | none => none
      | some value =>
        if value < minimum ∨ value > 0x10FFFF then none
        else if value ≥ 0xD800 ∧ value ≤ 0xDFFF then none
        else some (length, value)

def utf8Passes (filter : Option (ℕ → Bool)) (code : ℕ) : Bool := filter.all (· code)

/-- The length of an accepted character, which is zero for one to be replaced, and then the number
of bytes to be replaced. -/
def utf8Accept (filter : Option (ℕ → Bool)) (str : List Byte) : ℕ × ℕ :=
  match utf8Decode str with
  | none => (0, 1)
  | some (length, code) => if utf8Passes filter code then (length, 0) else (0, length)

lemma utf8Lead_length {b : Byte} {length value minimum : ℕ}
    (h : utf8Lead b = some (length, value, minimum)) : 2 ≤ length := by
  rw [utf8Lead] at h
  split_ifs at h <;> cases h <;> omega

lemma utf8Decode_pos {str : List Byte} {length code : ℕ}
    (h : utf8Decode str = some (length, code)) : 1 ≤ length := by
  rw [utf8Decode] at h
  split_ifs at h
  · cases h
    rfl
  · cases hlead : utf8Lead (str.getD 0 0) with
    | none =>
      rw [hlead] at h
      cases h
    | some lead =>
      obtain ⟨length', value, minimum⟩ := lead
      have hlength := utf8Lead_length hlead
      rw [hlead] at h
      simp only at h
      cases htail : utf8DecodeTail str (length' - 1) 1 value with
      | none =>
        rw [htail] at h
        cases h
      | some value' =>
        rw [htail] at h
        simp only at h
        split_ifs at h
        cases h
        omega

lemma utf8Accept_pos {filter : Option (ℕ → Bool)} {str : List Byte}
    (h : (utf8Accept filter str).1 = 0) : 1 ≤ (utf8Accept filter str).2 := by
  rw [utf8Accept] at h ⊢
  cases hdecode : utf8Decode str with
  | none => exact le_rfl
  | some decoded =>
    obtain ⟨length, code⟩ := decoded
    have hpos := utf8Decode_pos hdecode
    rw [hdecode] at h
    simp only at h ⊢
    split_ifs at h ⊢
    · simp only at h
      omega
    · exact hpos

lemma length_drop_lt {str : List Byte} {n : ℕ} (h : str.getD 0 0 ≠ 0) (hn : 1 ≤ n) :
    (str.drop n).length < str.length := by
  cases str with
  | nil => exact (h rfl).elim
  | cons b str =>
    rw [List.length_drop, List.length_cons]
    omega

def utf8IsValidEx (filter : Option (ℕ → Bool)) (str : List Byte) : Bool :=
  if str.getD 0 0 = 0 then true
  else if (utf8Accept filter str).1 = 0 then false
  else utf8IsValidEx filter (str.drop (utf8Accept filter str).1)
termination_by str.length
decreasing_by exact length_drop_lt ‹_› (Nat.pos_of_ne_zero ‹_›)

def utf8RepairSize (filter : Option (ℕ → Bool)) (str : List Byte) (size : ℕ) : ℕ :=
  if str.getD 0 0 = 0 then size
  else if (utf8Accept filter str).1 ≠ 0 then
    utf8RepairSize filter (str.drop (utf8Accept filter str).1) (size + (utf8Accept filter str).1)
  else
    utf8RepairSize filter (str.drop (utf8Accept filter str).2) (size + utf8Replacement.length)
termination_by str.length
decreasing_by
  · exact length_drop_lt ‹_› (Nat.pos_of_ne_zero ‹_›)
  · exact length_drop_lt ‹_› (utf8Accept_pos (not_not.mp ‹_›))

def utf8RepairWrite (filter : Option (ℕ → Bool)) (str : List Byte) : List Byte :=
  if str.getD 0 0 = 0 then []
  else if (utf8Accept filter str).1 ≠ 0 then
    str.take (utf8Accept filter str).1 ++
      utf8RepairWrite filter (str.drop (utf8Accept filter str).1)
  else utf8Replacement ++ utf8RepairWrite filter (str.drop (utf8Accept filter str).2)
termination_by str.length
decreasing_by
  · exact length_drop_lt ‹_› (Nat.pos_of_ne_zero ‹_›)
  · exact length_drop_lt ‹_› (utf8Accept_pos (not_not.mp ‹_›))

def utf8RepairEx (filter : Option (ℕ → Bool)) (str : List Byte) : ℕ × List Byte :=
  (utf8RepairSize filter str 1, utf8RepairWrite filter str)

def utf8IsControl (code : ℕ) : Bool := code < 0x20 || (0x7F ≤ code && code ≤ 0x9F)

def utf8Digits (value : ℕ) : List Byte :=
  [upper ((value >>> 4) &&& 0x0F), upper (value &&& 0x0F)]

def utf8EscapeCode (code : ℕ) : List Byte :=
  (if code < 0x80 then [0x5C, 0x78] else [0x5C, 0x75, 0x30, 0x30]) ++ utf8Digits code

def utf8EscapeByte (b : Byte) : List Byte := [0x5C, 0x78] ++ utf8Digits b.toNat

def utf8EscapeSize (str : List Byte) (size : ℕ) : ℕ :=
  if str.getD 0 0 = 0 then size
  else match _h : utf8Decode str with
    | none => utf8EscapeSize (str.drop 1) (size + 4)
    | some (length, code) =>
      if utf8IsControl code then
        utf8EscapeSize (str.drop length) (size + if code < 0x80 then 4 else 6)
      else utf8EscapeSize (str.drop length) (size + length)
termination_by str.length
decreasing_by
  · exact length_drop_lt ‹_› le_rfl
  · exact length_drop_lt ‹_› (utf8Decode_pos _h)
  · exact length_drop_lt ‹_› (utf8Decode_pos _h)

def utf8EscapeWrite (str : List Byte) : List Byte :=
  if str.getD 0 0 = 0 then []
  else match _h : utf8Decode str with
    | none => utf8EscapeByte (str.getD 0 0) ++ utf8EscapeWrite (str.drop 1)
    | some (length, code) =>
      if utf8IsControl code then utf8EscapeCode code ++ utf8EscapeWrite (str.drop length)
      else str.take length ++ utf8EscapeWrite (str.drop length)
termination_by str.length
decreasing_by
  · exact length_drop_lt ‹_› le_rfl
  · exact length_drop_lt ‹_› (utf8Decode_pos _h)
  · exact length_drop_lt ‹_› (utf8Decode_pos _h)

def utf8Escape (str : List Byte) : ℕ × List Byte := (utf8EscapeSize str 1, utf8EscapeWrite str)

section Decoding

variable {str rest : List Byte} {c : Char} {n : ℕ}

lemma continuation_byte (h : n < 64) : UInt8.ofNat (0x80 + n) &&& 0xC0 = 0x80 ∧
    (UInt8.ofNat (0x80 + n) &&& 0x3F).toNat = n := by
  have hall : ∀ n < 64, UInt8.ofNat (0x80 + n) &&& 0xC0 = 0x80 ∧
      (UInt8.ofNat (0x80 + n) &&& 0x3F).toNat = n := by decide
  exact hall n h

set_option maxRecDepth 2000 in
lemma continuation_inv (b : Byte) : b &&& 0xC0 = 0x80 → ∃ n < 64, b = UInt8.ofNat (0x80 + n) := by
  intro h
  have hall : ∀ b : Byte, b &&& 0xC0 = 0x80 →
      b.toNat - 0x80 < 64 ∧ b = UInt8.ofNat (0x80 + (b.toNat - 0x80)) := by
    apply forall_byte (P := fun b => b &&& 0xC0 = 0x80 →
      b.toNat - 0x80 < 64 ∧ b = UInt8.ofNat (0x80 + (b.toNat - 0x80)))
    decide
  exact ⟨_, hall b h⟩

lemma utf8Lead_two (h : n < 32) : ¬UInt8.ofNat (0xC0 + n) < 0x80 ∧
    utf8Lead (UInt8.ofNat (0xC0 + n)) = some (2, n, 0x80) := by
  have hall : ∀ n < 32, ¬UInt8.ofNat (0xC0 + n) < 0x80 ∧
      utf8Lead (UInt8.ofNat (0xC0 + n)) = some (2, n, 0x80) := by decide
  exact hall n h

lemma utf8Lead_three (h : n < 16) : ¬UInt8.ofNat (0xE0 + n) < 0x80 ∧
    utf8Lead (UInt8.ofNat (0xE0 + n)) = some (3, n, 0x800) := by
  have hall : ∀ n < 16, ¬UInt8.ofNat (0xE0 + n) < 0x80 ∧
      utf8Lead (UInt8.ofNat (0xE0 + n)) = some (3, n, 0x800) := by decide
  exact hall n h

lemma utf8Lead_four (h : n < 8) : ¬UInt8.ofNat (0xF0 + n) < 0x80 ∧
    utf8Lead (UInt8.ofNat (0xF0 + n)) = some (4, n, 0x10000) := by
  have hall : ∀ n < 8, ¬UInt8.ofNat (0xF0 + n) < 0x80 ∧
      utf8Lead (UInt8.ofNat (0xF0 + n)) = some (4, n, 0x10000) := by decide
  exact hall n h

set_option maxRecDepth 2000 in
lemma utf8Lead_inv (b : Byte) : ∀ lead ∈ utf8Lead b,
    (∃ n < 32, b = UInt8.ofNat (0xC0 + n) ∧ lead = (2, n, 0x80)) ∨
    (∃ n < 16, b = UInt8.ofNat (0xE0 + n) ∧ lead = (3, n, 0x800)) ∨
    ∃ n < 8, b = UInt8.ofNat (0xF0 + n) ∧ lead = (4, n, 0x10000) := by
  intro lead hlead
  have hall : ∀ b : Byte, ∀ lead ∈ utf8Lead b,
      (lead.2.1 < 32 ∧ b = UInt8.ofNat (0xC0 + lead.2.1) ∧ lead = (2, lead.2.1, 0x80)) ∨
      (lead.2.1 < 16 ∧ b = UInt8.ofNat (0xE0 + lead.2.1) ∧ lead = (3, lead.2.1, 0x800)) ∨
      lead.2.1 < 8 ∧ b = UInt8.ofNat (0xF0 + lead.2.1) ∧ lead = (4, lead.2.1, 0x10000) := by
    apply forall_byte (P := fun b => ∀ lead ∈ utf8Lead b,
      (lead.2.1 < 32 ∧ b = UInt8.ofNat (0xC0 + lead.2.1) ∧ lead = (2, lead.2.1, 0x80)) ∨
      (lead.2.1 < 16 ∧ b = UInt8.ofNat (0xE0 + lead.2.1) ∧ lead = (3, lead.2.1, 0x800)) ∨
      lead.2.1 < 8 ∧ b = UInt8.ofNat (0xF0 + lead.2.1) ∧ lead = (4, lead.2.1, 0x10000))
    decide
  exact (hall b lead hlead).imp (fun h => ⟨_, h⟩) (Or.imp (fun h => ⟨_, h⟩) fun h => ⟨_, h⟩)

lemma shiftLeft_six_add {value : ℕ} (h : n < 64) : value <<< 6 ||| n = value * 64 + n := by
  rw [← Nat.shiftLeft_add_eq_or_of_lt h, Nat.shiftLeft_eq]

lemma utf8DecodeTail_step {count i value : ℕ} (hn : n < 64)
    (hget : str.getD i 0 = UInt8.ofNat (0x80 + n)) :
    utf8DecodeTail str (count + 1) i value =
      utf8DecodeTail str count (i + 1) (value * 64 + n) := by
  obtain ⟨hbits, hvalue⟩ := continuation_byte hn
  rw [utf8DecodeTail, hget, if_neg (not_not.mpr hbits), hvalue, shiftLeft_six_add hn]

lemma utf8DecodeTail_some {count i value result : ℕ}
    (h : utf8DecodeTail str (count + 1) i value = some result) :
    ∃ n < 64, str.getD i 0 = UInt8.ofNat (0x80 + n) ∧
      utf8DecodeTail str count (i + 1) (value * 64 + n) = some result := by
  rw [utf8DecodeTail] at h
  split_ifs at h with hbits
  obtain ⟨n, hn, hget⟩ := continuation_inv _ (not_not.mp hbits)
  rw [hget, (continuation_byte hn).2, shiftLeft_six_add hn] at h
  exact ⟨n, hn, hget, h⟩

lemma utf8Decode_char (c : Char) (rest : List Byte) :
    utf8Decode (utf8EncodeChar c ++ rest) = some ((utf8EncodeChar c).length, c.toNat) := by
  have hvalid := isValidChar_toNat c
  rw [utf8EncodeChar_eq, encodeNat]
  generalize c.toNat = v at hvalid
  rw [Nat.isValidChar] at hvalid
  by_cases h₁ : v < 0x80
  · have hsmall : ∀ n < 0x80, UInt8.ofNat n < 0x80 ∧ (UInt8.ofNat n).toNat = n := by decide
    obtain ⟨hlt, hvalue⟩ := hsmall v h₁
    rw [if_pos h₁, utf8Decode, List.cons_append, List.getD_cons_zero, if_pos hlt, hvalue]
    rfl
  rw [if_neg h₁]
  by_cases h₂ : v < 0x800
  · obtain ⟨hhigh, hlead⟩ := utf8Lead_two (by omega : v / 64 < 32)
    have htotal : v / 64 * 64 + v % 64 = v := by omega
    rw [if_pos h₂, utf8Decode, List.cons_append, List.getD_cons_zero, if_neg hhigh, hlead]
    simp only
    rw [utf8DecodeTail_step (Nat.mod_lt v (by omega)) rfl, htotal, utf8DecodeTail]
    simp only
    rw [if_neg (by omega), if_neg (by omega)]
    rfl
  rw [if_neg h₂]
  by_cases h₃ : v < 0x10000
  · obtain ⟨hhigh, hlead⟩ := utf8Lead_three (by omega : v / 4096 < 16)
    have htotal : (v / 4096 * 64 + v / 64 % 64) * 64 + v % 64 = v := by omega
    rw [if_pos h₃, utf8Decode, List.cons_append, List.getD_cons_zero, if_neg hhigh, hlead]
    simp only
    rw [utf8DecodeTail_step (Nat.mod_lt (v / 64) (by omega)) rfl,
      utf8DecodeTail_step (Nat.mod_lt v (by omega)) rfl, htotal, utf8DecodeTail]
    simp only
    rw [if_neg (by omega), if_neg (by omega)]
    rfl
  · obtain ⟨hhigh, hlead⟩ := utf8Lead_four (by omega : v / 262144 < 8)
    have htotal : ((v / 262144 * 64 + v / 4096 % 64) * 64 + v / 64 % 64) * 64 + v % 64 = v := by
      omega
    rw [if_neg h₃, utf8Decode, List.cons_append, List.getD_cons_zero, if_neg hhigh, hlead]
    simp only
    rw [utf8DecodeTail_step (Nat.mod_lt (v / 4096) (by omega)) rfl,
      utf8DecodeTail_step (Nat.mod_lt (v / 64) (by omega)) rfl,
      utf8DecodeTail_step (Nat.mod_lt v (by omega)) rfl, htotal, utf8DecodeTail]
    simp only
    rw [if_neg (by omega), if_neg (by omega)]
    rfl

lemma exists_drop_cons {i : ℕ} (hn : n < 64) (hget : str.getD i 0 = UInt8.ofNat (0x80 + n)) :
    ∃ rest, str.drop i = UInt8.ofNat (0x80 + n) :: rest := by
  have hne : UInt8.ofNat (0x80 + n) ≠ 0 := by
    have hall : ∀ n < 64, UInt8.ofNat (0x80 + n) ≠ 0 := by decide
    exact hall n hn
  have hi : i < str.length := by
    by_contra hge
    rw [List.getD_eq_default _ _ (by omega)] at hget
    exact hne hget.symm
  refine ⟨str.drop (i + 1), ?_⟩
  rw [List.drop_eq_getElem_cons hi, ← hget, List.getD_eq_getElem _ _ hi]

lemma utf8DecodeTail_cons {count i value result : ℕ}
    (h : utf8DecodeTail str (count + 1) i value = some result) :
    ∃ n < 64, ∃ rest, str.drop i = UInt8.ofNat (0x80 + n) :: rest ∧ str.drop (i + 1) = rest ∧
      utf8DecodeTail str count (i + 1) (value * 64 + n) = some result := by
  obtain ⟨n, hn, hget, hrest⟩ := utf8DecodeTail_some h
  obtain ⟨rest, hdrop⟩ := exists_drop_cons hn hget
  refine ⟨n, hn, rest, hdrop, ?_, hrest⟩
  rw [← List.drop_drop, hdrop, List.drop_succ_cons, List.drop_zero]

lemma utf8DecodeTail_encode {b : Byte} {tail : List Byte} {length value minimum v : ℕ}
    (hlead : utf8Lead b = some (length, value, minimum))
    (htail : utf8DecodeTail (b :: tail) (length - 1) 1 value = some v)
    (hrange : minimum ≤ v ∧ v ≤ 0x10FFFF) : ∃ rest, b :: tail = encodeNat v ++ rest := by
  obtain ⟨n, hn, rfl, heq⟩ | ⟨n, hn, rfl, heq⟩ | ⟨n, hn, rfl, heq⟩ := utf8Lead_inv b _ hlead
  all_goals
    have hsymm := heq.symm
    rw [Prod.mk.injEq, Prod.mk.injEq] at hsymm
    obtain ⟨rfl, rfl, rfl⟩ := hsymm
  · obtain ⟨m, hm, rest, hfirst, -, hend⟩ := utf8DecodeTail_cons htail
    obtain rfl := Option.some.inj hend
    have hhigh : (n * 64 + m) / 64 = n := by omega
    have hlow : (n * 64 + m) % 64 = m := by omega
    rw [List.drop_succ_cons, List.drop_zero] at hfirst
    refine ⟨rest, ?_⟩
    rw [encodeNat, if_neg (by omega), if_pos (by omega), hhigh, hlow, hfirst]
    rfl
  · obtain ⟨m, hm, rest, hfirst, hdrop, htail⟩ := utf8DecodeTail_cons htail
    obtain ⟨k, hk, rest', hsecond, -, hend⟩ := utf8DecodeTail_cons htail
    obtain rfl := Option.some.inj hend
    have hhigh : ((n * 64 + m) * 64 + k) / 4096 = n := by omega
    have hmiddle : ((n * 64 + m) * 64 + k) / 64 % 64 = m := by omega
    have hlow : ((n * 64 + m) * 64 + k) % 64 = k := by omega
    rw [List.drop_succ_cons, List.drop_zero] at hfirst
    refine ⟨rest', ?_⟩
    rw [encodeNat, if_neg (by omega), if_neg (by omega), if_pos (by omega), hhigh, hmiddle, hlow,
      hfirst, ← hdrop, hsecond]
    rfl
  · obtain ⟨m, hm, rest, hfirst, hdrop, htail⟩ := utf8DecodeTail_cons htail
    obtain ⟨k, hk, rest', hsecond, hdrop', htail⟩ := utf8DecodeTail_cons htail
    obtain ⟨l, hl, rest'', hthird, -, hend⟩ := utf8DecodeTail_cons htail
    obtain rfl := Option.some.inj hend
    have hhigh : (((n * 64 + m) * 64 + k) * 64 + l) / 262144 = n := by omega
    have hsixth : (((n * 64 + m) * 64 + k) * 64 + l) / 4096 % 64 = m := by omega
    have hmiddle : (((n * 64 + m) * 64 + k) * 64 + l) / 64 % 64 = k := by omega
    have hlow : (((n * 64 + m) * 64 + k) * 64 + l) % 64 = l := by omega
    rw [List.drop_succ_cons, List.drop_zero] at hfirst
    refine ⟨rest'', ?_⟩
    rw [encodeNat, if_neg (by omega), if_neg (by omega), if_neg (by omega), hhigh, hsixth, hmiddle,
      hlow, hfirst, ← hdrop, hsecond, ← hdrop', hthird]
    rfl

lemma utf8Decode_inv {length code : ℕ} (hne : str ≠ [])
    (h : utf8Decode str = some (length, code)) : ∃ c rest, str = utf8EncodeChar c ++ rest := by
  obtain ⟨b, tail, rfl⟩ := List.exists_cons_of_ne_nil hne
  rw [utf8Decode, List.getD_cons_zero] at h
  split_ifs at h with hsmall
  · have hlt : b.toNat < 0x80 := UInt8.lt_iff_toNat_lt.mp hsmall
    have hvalid : b.toNat.isValidChar := by
      rw [Nat.isValidChar]
      omega
    obtain ⟨c, hc⟩ := exists_char hvalid
    refine ⟨c, tail, ?_⟩
    rw [utf8EncodeChar_eq, hc, encodeNat, if_pos hlt, UInt8.ofNat_toNat]
    rfl
  cases hlead : utf8Lead b with
  | none =>
    rw [hlead] at h
    cases h
  | some lead =>
    obtain ⟨length', value, minimum⟩ := lead
    rw [hlead] at h
    simp only at h
    cases htail : utf8DecodeTail (b :: tail) (length' - 1) 1 value with
    | none =>
      rw [htail] at h
      cases h
    | some v =>
      rw [htail] at h
      simp only at h
      split_ifs at h with hrange hsurrogate
      have hvalid : v.isValidChar := by
        rw [Nat.isValidChar]
        omega
      obtain ⟨c, hc⟩ := exists_char hvalid
      obtain ⟨rest, hrest⟩ := utf8DecodeTail_encode hlead htail (by omega)
      exact ⟨c, rest, by rw [utf8EncodeChar_eq, hc, hrest]⟩

lemma utf8Decode_none {b : Byte} {bytes : List Byte}
    (h : ∀ c rest, b :: bytes ≠ utf8EncodeChar c ++ rest) : utf8Decode (b :: bytes) = none := by
  cases hdecode : utf8Decode (b :: bytes) with
  | none => rfl
  | some decoded =>
    obtain ⟨length, code⟩ := decoded
    obtain ⟨c, rest, heq⟩ := utf8Decode_inv (List.cons_ne_nil b bytes) hdecode
    exact (h c rest heq).elim

end Decoding

section Repairing

variable {filter : Option (ℕ → Bool)} {str : List Byte} {items : List (Char ⊕ Byte)}

def repairItem (filter : Option (ℕ → Bool)) : Char ⊕ Byte → Char
  | .inl c => if utf8Passes filter c.toNat then c else '\uFFFD'
  | .inr _ => '\uFFFD'

lemma getD_char_ne_zero {c : Char} {bytes : List Byte} (h : 0 ∉ utf8EncodeChar c ++ bytes) :
    (utf8EncodeChar c ++ bytes).getD 0 0 ≠ 0 := by
  obtain ⟨b, tail, hb, -⟩ := utf8EncodeChar_bytes c
  rw [hb, List.cons_append, List.mem_cons, not_or] at h
  rw [hb, List.cons_append, List.getD_cons_zero]
  exact Ne.symm h.1

lemma getD_byte_ne_zero {b : Byte} {bytes : List Byte} (h : 0 ∉ b :: bytes) :
    (b :: bytes).getD 0 0 ≠ 0 := by
  rw [List.mem_cons, not_or] at h
  exact Ne.symm h.1

lemma getD_nil_zero : ([] : List Byte).getD 0 0 = 0 := rfl

lemma utf8Accept_char {c : Char} (bytes : List Byte) (h : utf8Passes filter c.toNat = true) :
    utf8Accept filter (utf8EncodeChar c ++ bytes) = ((utf8EncodeChar c).length, 0) := by
  rw [utf8Accept, utf8Decode_char]
  exact if_pos h

lemma utf8Accept_rejected {c : Char} (bytes : List Byte)
    (h : ¬utf8Passes filter c.toNat = true) :
    utf8Accept filter (utf8EncodeChar c ++ bytes) = (0, (utf8EncodeChar c).length) := by
  rw [utf8Accept, utf8Decode_char]
  exact if_neg h

lemma utf8EncodeChar_length_ne_zero (c : Char) : (utf8EncodeChar c).length ≠ 0 :=
  fun h => utf8EncodeChar_ne_nil c (List.eq_nil_of_length_eq_zero h)

lemma utf8Accept_byte {b : Byte} {bytes : List Byte}
    (h : ∀ c rest, b :: bytes ≠ utf8EncodeChar c ++ rest) :
    utf8Accept filter (b :: bytes) = (0, 1) := by
  rw [utf8Accept, utf8Decode_none h]

lemma utf8RepairWrite_items (h : Items str items) (hzero : 0 ∉ str) :
    utf8RepairWrite filter str = encode (items.map (repairItem filter)) := by
  induction h with
  | nil =>
    rw [utf8RepairWrite, if_pos getD_nil_zero]
    rfl
  | @char bytes items c _ ih =>
    have hrest : 0 ∉ bytes := fun hmem => hzero (List.mem_append_right _ hmem)
    rw [utf8RepairWrite, if_neg (getD_char_ne_zero hzero), List.map_cons, encode_cons, repairItem]
    by_cases hpass : utf8Passes filter c.toNat = true
    · rw [utf8Accept_char bytes hpass, if_pos hpass, if_pos (utf8EncodeChar_length_ne_zero c),
        List.take_left, List.drop_left, ih hrest]
    · rw [utf8Accept_rejected bytes hpass, if_neg hpass, if_neg (fun hne => hne rfl),
        List.drop_left, ih hrest]
      rfl
  | @byte b bytes items none _ ih =>
    have hrest : 0 ∉ bytes := fun hmem => hzero (List.mem_cons_of_mem _ hmem)
    rw [utf8RepairWrite, if_neg (getD_byte_ne_zero hzero), utf8Accept_byte none,
      if_neg (fun hne => hne rfl), List.drop_succ_cons, List.drop_zero, ih hrest, List.map_cons,
      encode_cons, repairItem]
    rfl

lemma utf8RepairSize_items (h : Items str items) (hzero : 0 ∉ str) (size : ℕ) :
    utf8RepairSize filter str size = size + (encode (items.map (repairItem filter))).length := by
  induction h generalizing size with
  | nil =>
    rw [utf8RepairSize, if_pos getD_nil_zero]
    rfl
  | @char bytes items c _ ih =>
    have hrest : 0 ∉ bytes := fun hmem => hzero (List.mem_append_right _ hmem)
    rw [utf8RepairSize, if_neg (getD_char_ne_zero hzero), List.map_cons, encode_cons, repairItem,
      List.length_append]
    by_cases hpass : utf8Passes filter c.toNat = true
    · rw [utf8Accept_char bytes hpass, if_pos hpass, if_pos (utf8EncodeChar_length_ne_zero c),
        List.drop_left, ih hrest, Nat.add_assoc]
    · rw [utf8Accept_rejected bytes hpass, if_neg hpass, if_neg (fun hne => hne rfl),
        List.drop_left, ih hrest, Nat.add_assoc]
      rfl
  | @byte b bytes items none _ ih =>
    have hrest : 0 ∉ bytes := fun hmem => hzero (List.mem_cons_of_mem _ hmem)
    rw [utf8RepairSize, if_neg (getD_byte_ne_zero hzero), utf8Accept_byte none,
      if_neg (fun hne => hne rfl), List.drop_succ_cons, List.drop_zero, ih hrest, List.map_cons,
      encode_cons, repairItem, List.length_append, Nat.add_assoc]
    rfl

lemma repairItem_passes (hfilter : utf8Passes filter 0xFFFD = true) (item : Char ⊕ Byte) :
    utf8Passes filter (repairItem filter item).toNat = true := by
  cases item with
  | inl c =>
    rw [repairItem]
    split_ifs with hpass
    · exact hpass
    · exact hfilter
  | inr b => exact hfilter

lemma utf8RepairWrite_encode {chars : List Char} (hzero : 0 ∉ encode chars)
    (hpass : ∀ c ∈ chars, utf8Passes filter c.toNat = true) :
    utf8RepairWrite filter (encode chars) = encode chars := by
  have hkept : (chars.map Sum.inl).map (repairItem filter) = chars := by
    rw [List.map_map]
    calc chars.map (repairItem filter ∘ Sum.inl)
        = chars.map id := List.map_congr_left fun c hc => if_pos (hpass c hc)
      _ = chars := List.map_id chars
  rw [utf8RepairWrite_items (items_encode chars) hzero, hkept]

lemma zero_not_mem_repaired (h : Items str items) (hzero : 0 ∉ str) :
    0 ∉ encode (items.map (repairItem filter)) := by
  intro hmem
  obtain ⟨c, hc, hbyte⟩ := List.mem_flatMap.mp hmem
  obtain ⟨item, hitem, rfl⟩ := List.mem_map.mp hc
  have hreplacement : 0 ∉ utf8EncodeChar '\uFFFD' := by decide
  cases item with
  | inl c =>
    rw [repairItem] at hbyte
    split_ifs at hbyte
    · exact hzero (h.mem_of_mem.1 c hitem 0 hbyte)
    · exact hreplacement hbyte
  | inr b => exact hreplacement hbyte

lemma utf8RepairWrite_append {before after : List Byte} {c : Char}
    (hzero : 0 ∉ before ++ (utf8EncodeChar c ++ after))
    (hpass : utf8Passes filter c.toNat = true) :
    utf8RepairWrite filter (before ++ (utf8EncodeChar c ++ after)) =
      utf8RepairWrite filter before ++ (utf8EncodeChar c ++ utf8RepairWrite filter after) := by
  obtain ⟨left, hleft⟩ := exists_items before
  obtain ⟨right, hright⟩ := exists_items after
  have hall := hleft.append (.char c hright)
  rw [List.mem_append, List.mem_append, not_or, not_or] at hzero
  rw [utf8RepairWrite_items hall (by simpa using hzero), utf8RepairWrite_items hleft hzero.1,
    utf8RepairWrite_items hright hzero.2.2, List.map_append, List.map_cons, encode_append,
    encode_cons, repairItem, if_pos hpass]

lemma utf8IsValidEx_items (h : Items str items) (hzero : 0 ∉ str) :
    utf8IsValidEx filter str = true ↔
      ∃ chars : List Char, items = chars.map .inl ∧ ∀ c ∈ chars, utf8Passes filter c.toNat = true := by
  induction h with
  | nil =>
    rw [utf8IsValidEx, if_pos getD_nil_zero]
    exact iff_of_true rfl ⟨[], rfl, by simp⟩
  | @char bytes items c _ ih =>
    have hrest : 0 ∉ bytes := fun hmem => hzero (List.mem_append_right _ hmem)
    rw [utf8IsValidEx, if_neg (getD_char_ne_zero hzero)]
    by_cases hpass : utf8Passes filter c.toNat = true
    · rw [utf8Accept_char bytes hpass, if_neg (utf8EncodeChar_length_ne_zero c), List.drop_left,
        ih hrest]
      constructor
      · rintro ⟨chars, rfl, hchars⟩
        exact ⟨c :: chars, rfl, List.forall_mem_cons.mpr ⟨hpass, hchars⟩⟩
      · rintro ⟨chars, hitems, hchars⟩
        obtain ⟨d, rest, rfl, -, hmap⟩ := List.map_eq_cons_iff.mp hitems.symm
        exact ⟨rest, hmap.symm, (List.forall_mem_cons.mp hchars).2⟩
    · rw [utf8Accept_rejected bytes hpass, if_pos rfl]
      constructor
      · intro hfalse
        cases hfalse
      · rintro ⟨chars, hitems, hchars⟩
        obtain ⟨d, rest, rfl, hd, -⟩ := List.map_eq_cons_iff.mp hitems.symm
        obtain rfl := Sum.inl.inj hd
        exact (hpass (hchars d List.mem_cons_self)).elim
  | @byte b bytes items none _ _ =>
    rw [utf8IsValidEx, if_neg (getD_byte_ne_zero hzero), utf8Accept_byte none, if_pos rfl]
    constructor
    · intro hfalse
      cases hfalse
    · rintro ⟨chars, hitems, -⟩
      obtain ⟨d, rest, rfl, hd, -⟩ := List.map_eq_cons_iff.mp hitems.symm
      cases hd

lemma utf8IsValidEx_iff (hzero : 0 ∉ str) : utf8IsValidEx filter str = true ↔
    ∃ chars, str = encode chars ∧ ∀ c ∈ chars, utf8Passes filter c.toNat = true := by
  obtain ⟨items, hitems⟩ := exists_items str
  rw [utf8IsValidEx_items hitems hzero]
  exact exists_congr fun chars => and_congr_left fun _ => (hitems.encode_iff chars).symm

end Repairing

section Escaping

variable {str : List Byte} {items : List (Char ⊕ Byte)}

def escapeItem : Char ⊕ Byte → List Byte
  | .inl c => if utf8IsControl c.toNat then utf8EscapeCode c.toNat else utf8EncodeChar c
  | .inr b => utf8EscapeByte b

lemma utf8EscapeWrite_char {c : Char} {bytes : List Byte} (hzero : 0 ∉ utf8EncodeChar c ++ bytes) :
    utf8EscapeWrite (utf8EncodeChar c ++ bytes) =
      escapeItem (.inl c) ++ utf8EscapeWrite bytes := by
  rw [utf8EscapeWrite, if_neg (getD_char_ne_zero hzero), escapeItem]
  split
  · next hdecode =>
    rw [utf8Decode_char] at hdecode
    cases hdecode
  · next length code hdecode =>
    rw [utf8Decode_char] at hdecode
    cases hdecode
    rw [List.drop_left, List.take_left]
    split_ifs <;> rfl

lemma utf8EscapeWrite_byte {b : Byte} {bytes : List Byte} (hzero : 0 ∉ b :: bytes)
    (h : ∀ c rest, b :: bytes ≠ utf8EncodeChar c ++ rest) :
    utf8EscapeWrite (b :: bytes) = escapeItem (.inr b) ++ utf8EscapeWrite bytes := by
  rw [utf8EscapeWrite, if_neg (getD_byte_ne_zero hzero), escapeItem]
  split
  · rfl
  · next length code hdecode =>
    rw [utf8Decode_none h] at hdecode
    cases hdecode

lemma utf8EscapeWrite_items (h : Items str items) (hzero : 0 ∉ str) :
    utf8EscapeWrite str = items.flatMap escapeItem := by
  induction h with
  | nil =>
    rw [utf8EscapeWrite, if_pos getD_nil_zero]
    rfl
  | char c _ ih =>
    rw [utf8EscapeWrite_char hzero, ih fun hmem => hzero (List.mem_append_right _ hmem),
      List.flatMap_cons]
  | byte none _ ih =>
    rw [utf8EscapeWrite_byte hzero none, ih fun hmem => hzero (List.mem_cons_of_mem _ hmem),
      List.flatMap_cons]

lemma utf8EscapeCode_length (code : ℕ) :
    (utf8EscapeCode code).length = if code < 0x80 then 4 else 6 := by
  rw [utf8EscapeCode]
  split_ifs <;> rfl

lemma utf8EscapeSize_items (h : Items str items) (hzero : 0 ∉ str) (size : ℕ) :
    utf8EscapeSize str size = size + (items.flatMap escapeItem).length := by
  induction h generalizing size with
  | nil =>
    rw [utf8EscapeSize, if_pos getD_nil_zero]
    rfl
  | @char bytes items c _ ih =>
    have hrest : 0 ∉ bytes := fun hmem => hzero (List.mem_append_right _ hmem)
    rw [utf8EscapeSize, if_neg (getD_char_ne_zero hzero), List.flatMap_cons, List.length_append,
      escapeItem]
    split
    · next hdecode =>
      rw [utf8Decode_char] at hdecode
      cases hdecode
    · next length code hdecode =>
      rw [utf8Decode_char] at hdecode
      cases hdecode
      rw [List.drop_left, ih hrest, ih hrest]
      by_cases hcontrol : utf8IsControl c.toNat = true
      · rw [if_pos hcontrol, if_pos hcontrol, utf8EscapeCode_length, Nat.add_assoc]
      · rw [if_neg hcontrol, if_neg hcontrol, Nat.add_assoc]
  | @byte b bytes items none _ ih =>
    have hrest : 0 ∉ bytes := fun hmem => hzero (List.mem_cons_of_mem _ hmem)
    rw [utf8EscapeSize, if_neg (getD_byte_ne_zero hzero), List.flatMap_cons, List.length_append,
      escapeItem]
    split
    · rw [List.drop_succ_cons, List.drop_zero, ih hrest, Nat.add_assoc]
      rfl
    · next length code hdecode =>
      rw [utf8Decode_none none] at hdecode
      cases hdecode

def Visible (text : List Byte) : Prop :=
  ∃ chars, text = encode chars ∧ ∀ c ∈ chars, utf8IsControl c.toNat = false

lemma Visible.append {text text' : List Byte} (h : Visible text) (h' : Visible text') :
    Visible (text ++ text') := by
  obtain ⟨chars, rfl, hchars⟩ := h
  obtain ⟨chars', rfl, hchars'⟩ := h'
  exact ⟨chars ++ chars', (encode_append chars chars').symm,
    List.forall_mem_append.mpr ⟨hchars, hchars'⟩⟩

lemma visible_cons {b : Byte} {text : List Byte} (hb : 0x20 ≤ b.toNat ∧ b.toNat ≤ 0x7E)
    (h : Visible text) : Visible (b :: text) := by
  have hvalid : b.toNat.isValidChar := by
    rw [Nat.isValidChar]
    omega
  obtain ⟨c, hc⟩ := exists_char hvalid
  have hencode : utf8EncodeChar c = [b] := by
    rw [utf8EncodeChar_eq, hc, encodeNat, if_pos (by omega), UInt8.ofNat_toNat]
  have hvisible : Visible [b] := by
    refine ⟨[c], by rw [encode_cons, hencode]; rfl, ?_⟩
    intro d hd
    rw [List.mem_singleton.mp hd, hc]
    simp only [utf8IsControl, Bool.or_eq_false_iff, Bool.and_eq_false_iff, decide_eq_false_iff_not]
    omega
  exact hvisible.append h

lemma visible_nil : Visible [] := ⟨[], rfl, by simp⟩

lemma visible_digits (value : ℕ) : Visible (utf8Digits value) := by
  have hdigit : ∀ d < 16, 0x20 ≤ (upper d).toNat ∧ (upper d).toNat ≤ 0x7E := by decide
  have hlow : ∀ n : ℕ, n &&& 0x0F < 16 := by
    intro n
    have hmod : n &&& 0x0F = n % 16 := Nat.and_two_pow_sub_one_eq_mod n 4
    omega
  exact visible_cons (hdigit _ (hlow _)) (visible_cons (hdigit _ (hlow _)) visible_nil)

lemma visible_escapeItem (item : Char ⊕ Byte) : Visible (escapeItem item) := by
  have hshort : Visible [0x5C, 0x78] :=
    visible_cons (by decide) (visible_cons (by decide) visible_nil)
  have hlong : Visible [0x5C, 0x75, 0x30, 0x30] :=
    visible_cons (by decide) (visible_cons (by decide) (visible_cons (by decide)
      (visible_cons (by decide) visible_nil)))
  cases item with
  | inl c =>
    rw [escapeItem]
    split_ifs with hcontrol
    · rw [utf8EscapeCode]
      split_ifs
      · exact hshort.append (visible_digits _)
      · exact hlong.append (visible_digits _)
    · refine ⟨[c], by rw [encode_cons, encode_nil, List.append_nil], ?_⟩
      intro d hd
      rw [List.mem_singleton.mp hd]
      exact Bool.eq_false_of_not_eq_true hcontrol
  | inr b => exact hshort.append (visible_digits _)

lemma visible_escape (items : List (Char ⊕ Byte)) : Visible (items.flatMap escapeItem) := by
  induction items with
  | nil => exact visible_nil
  | cons item items ih =>
    rw [List.flatMap_cons]
    exact (visible_escapeItem item).append ih

lemma escape_kept {chars : List Char} (h : ∀ c ∈ chars, utf8IsControl c.toNat = false) :
    (chars.map Sum.inl).flatMap escapeItem = encode chars := by
  rw [List.flatMap_map, encode]
  apply List.flatMap_congr
  intro c hc
  rw [escapeItem, h c hc]
  rfl

end Escaping

structure Repaired (filter : Option (ℕ → Bool)) (str repaired : List Byte) : Prop where
  wellFormed : ∃ chars, repaired = encode chars ∧
    ∀ c ∈ chars, utf8Passes filter c.toNat = true
  unchanged : ∀ chars, str = encode chars →
    (∀ c ∈ chars, utf8Passes filter c.toNat = true) → repaired = str
  again : (utf8RepairEx filter repaired).2 = repaired
  kept : ∀ before c after, str = before ++ (utf8EncodeChar c ++ after) →
    utf8Passes filter c.toNat = true → repaired = (utf8RepairEx filter before).2 ++
      (utf8EncodeChar c ++ (utf8RepairEx filter after).2)

structure Escaped (str escaped : List Byte) : Prop where
  visible : Visible escaped
  unchanged : ∀ chars, str = encode chars →
    (∀ c ∈ chars, utf8IsControl c.toNat = false) → escaped = str

/-- Repairing gives accepted characters, of which those of the string are kept where they are, and
escaping gives no control characters. Each writes as much as it has measured. -/
theorem utf8Repair_exact (str : CString) (filter : Option (ℕ → Bool))
    (hfilter : utf8Passes filter 0xFFFD = true) :
    Repaired filter str.bytes (utf8RepairEx filter str.bytes).2 ∧
      (utf8RepairEx filter str.bytes).1 = (utf8RepairEx filter str.bytes).2.length + 1 ∧
      Escaped str.bytes (utf8Escape str.bytes).2 ∧
      (utf8Escape str.bytes).1 = (utf8Escape str.bytes).2.length + 1 := by
  obtain ⟨items, hitems⟩ := exists_items str.bytes
  have hrepaired : utf8RepairWrite filter str.bytes = encode (items.map (repairItem filter)) :=
    utf8RepairWrite_items hitems str.noZero
  have hpass : ∀ c ∈ items.map (repairItem filter), utf8Passes filter c.toNat = true := by
    intro c hc
    obtain ⟨item, -, rfl⟩ := List.mem_map.mp hc
    exact repairItem_passes hfilter item
  have hescaped := utf8EscapeWrite_items hitems str.noZero
  refine ⟨⟨⟨_, hrepaired, hpass⟩, ?_, ?_, ?_⟩, ?_, ⟨?_, ?_⟩, ?_⟩
  · intro chars hstr hchars
    have hzero := str.noZero
    rw [hstr] at hzero ⊢
    exact utf8RepairWrite_encode hzero hchars
  · rw [utf8RepairEx, utf8RepairEx, hrepaired]
    exact utf8RepairWrite_encode (zero_not_mem_repaired hitems str.noZero) hpass
  · intro before c after hstr hc
    have hzero := str.noZero
    rw [hstr] at hzero ⊢
    exact utf8RepairWrite_append hzero hc
  · rw [utf8RepairEx, utf8RepairSize_items hitems str.noZero, hrepaired, Nat.add_comm]
  · rw [utf8Escape, hescaped]
    exact visible_escape items
  · intro chars hstr hchars
    have hkept := (hitems.encode_iff chars).mp hstr
    rw [utf8Escape, hescaped, hkept, escape_kept hchars, hstr]
  · rw [utf8Escape, utf8EscapeSize_items hitems str.noZero, hescaped, Nat.add_comm]

theorem utf8Repair_exact_cut :
    Repaired (some fun code => !utf8IsControl code) [0xE2, 0x82, 0x41]
        (utf8RepairEx (some fun code => !utf8IsControl code) [0xE2, 0x82, 0x41]).2 ∧
      (utf8RepairEx (some fun code => !utf8IsControl code) [0xE2, 0x82, 0x41]).1 =
        (utf8RepairEx (some fun code => !utf8IsControl code) [0xE2, 0x82, 0x41]).2.length + 1 ∧
      Escaped [0xE2, 0x82, 0x41] (utf8Escape [0xE2, 0x82, 0x41]).2 ∧
      (utf8Escape [0xE2, 0x82, 0x41]).1 = (utf8Escape [0xE2, 0x82, 0x41]).2.length + 1 :=
  utf8Repair_exact ⟨[0xE2, 0x82, 0x41], by decide⟩ (some fun code => !utf8IsControl code)
    (by decide)

end OpenDmi

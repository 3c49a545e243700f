import Mathlib.Data.List.Basic
import Mathlib.Tactic

/-! UTF-8 texts, and byte strings taken apart into characters and the bytes of none. -/

namespace Utf8

open String (utf8EncodeChar)

variable {c d : Char} {b : UInt8} {bytes rest : List UInt8}

def encode (chars : List Char) : List UInt8 := chars.flatMap utf8EncodeChar

def encodeNat (v : ℕ) : List UInt8 :=
  if v < 0x80 then [UInt8.ofNat v]
  else if v < 0x800 then [UInt8.ofNat (0xC0 + v / 64), UInt8.ofNat (0x80 + v % 64)]
  else if v < 0x10000 then
    [UInt8.ofNat (0xE0 + v / 4096), UInt8.ofNat (0x80 + v / 64 % 64), UInt8.ofNat (0x80 + v % 64)]
  else
    [UInt8.ofNat (0xF0 + v / 262144), UInt8.ofNat (0x80 + v / 4096 % 64),
      UInt8.ofNat (0x80 + v / 64 % 64), UInt8.ofNat (0x80 + v % 64)]

def IsContinuation (b : UInt8) : Prop := 0x80 ≤ b.toNat ∧ b.toNat ≤ 0xBF

lemma isValidChar_toNat (c : Char) : c.toNat.isValidChar := c.valid

lemma exists_char {v : ℕ} (h : v.isValidChar) : ∃ c : Char, c.toNat = v := by
  refine ⟨Char.ofNat v, ?_⟩
  rw [Char.ofNat, dif_pos h]
  rfl

@[simp] lemma encode_nil : encode [] = [] := rfl

lemma encode_cons (c : Char) (chars : List Char) :
    encode (c :: chars) = utf8EncodeChar c ++ encode chars := List.flatMap_cons

lemma encode_append (chars chars' : List Char) :
    encode (chars ++ chars') = encode chars ++ encode chars' := List.flatMap_append

lemma utf8EncodeChar_eq (c : Char) : utf8EncodeChar c = encodeNat c.toNat := by
  have hvalid := isValidChar_toNat c
  have hval : c.val.toNat = c.toNat := rfl
  rw [utf8EncodeChar, encodeNat]
  simp only [hval]
  generalize c.toNat = v at hvalid
  rw [Nat.isValidChar] at hvalid
  by_cases h₁ : v < 0x80
  · rw [if_pos (by omega), if_pos h₁]
  rw [if_neg (by omega), if_neg h₁]
  by_cases h₂ : v < 0x800
  · have hlead : v / 64 % 0x20 + 0xc0 = 0xC0 + v / 64 := by omega
    rw [if_pos (by omega), if_pos h₂, hlead, Nat.add_comm (v % 0x40)]
  rw [if_neg (by omega), if_neg h₂]
  by_cases h₃ : v < 0x10000
  · have hlead : v / 4096 % 0x10 + 0xe0 = 0xE0 + v / 4096 := by omega
    rw [if_pos (by omega), if_pos h₃, hlead, Nat.add_comm (v / 64 % 0x40),
      Nat.add_comm (v % 0x40)]
  · have hlead : v / 262144 % 0x08 + 0xf0 = 0xF0 + v / 262144 := by omega
    rw [if_neg (by omega), if_neg h₃, hlead, Nat.add_comm (v / 4096 % 0x40),
      Nat.add_comm (v / 64 % 0x40), Nat.add_comm (v % 0x40)]

lemma utf8EncodeChar_append_inj (h : utf8EncodeChar c ++ bytes = utf8EncodeChar d ++ rest) :
    c = d := by
  have harray := congrArg List.toByteArray h
  rw [List.toByteArray_append, List.toByteArray_append] at harray
  have hdecode := @ByteArray.utf8DecodeChar?_utf8EncodeChar_append bytes.toByteArray c
  rw [harray, ByteArray.utf8DecodeChar?_utf8EncodeChar_append] at hdecode
  exact (Option.some.inj hdecode).symm

lemma isContinuation_ofNat {v : ℕ} : IsContinuation (UInt8.ofNat (0x80 + v % 64)) := by
  rw [IsContinuation, UInt8.toNat_ofNat']
  omega

lemma utf8EncodeChar_bytes (c : Char) : ∃ b rest, utf8EncodeChar c = b :: rest ∧
    ¬IsContinuation b ∧ (∀ x ∈ rest, IsContinuation x) := by
  have hvalid := isValidChar_toNat c
  rw [utf8EncodeChar_eq, encodeNat]
  generalize c.toNat = v at hvalid
  rw [Nat.isValidChar] at hvalid
  have hlead : ∀ n, n < 0x80 ∨ 0xC0 ≤ n ∧ n < 0x100 → ¬IsContinuation (UInt8.ofNat n) := by
    intro n hn
    rw [IsContinuation, UInt8.toNat_ofNat']
    omega
  split_ifs with h₁ h₂ h₃
  · exact ⟨_, _, rfl, hlead _ (by omega), by simp⟩
  · refine ⟨_, _, rfl, hlead _ (by omega), ?_⟩
    simp only [List.forall_mem_cons, isContinuation_ofNat, true_and]
    simp
  · refine ⟨_, _, rfl, hlead _ (by omega), ?_⟩
    simp only [List.forall_mem_cons, isContinuation_ofNat, true_and]
    simp
  · refine ⟨_, _, rfl, hlead _ (by omega), ?_⟩
    simp only [List.forall_mem_cons, isContinuation_ofNat, true_and]
    simp

lemma utf8EncodeChar_ne_nil (c : Char) : utf8EncodeChar c ≠ [] := by
  obtain ⟨b, rest, h, -⟩ := utf8EncodeChar_bytes c
  rw [h]
  exact List.cons_ne_nil b rest

/-- The characters of a byte string and the bytes which no character begins with, in order. -/
inductive Items : List UInt8 → List (Char ⊕ UInt8) → Prop
  | nil : Items [] []
  | char {bytes : List UInt8} {items : List (Char ⊕ UInt8)} (c : Char) (rest : Items bytes items) :
      Items (utf8EncodeChar c ++ bytes) (.inl c :: items)
  | byte {b : UInt8} {bytes : List UInt8} {items : List (Char ⊕ UInt8)}
      (none : ∀ c rest, b :: bytes ≠ utf8EncodeChar c ++ rest) (rest : Items bytes items) :
      Items (b :: bytes) (.inr b :: items)

lemma exists_items (bytes : List UInt8) : ∃ items, Items bytes items := by
  induction hn : bytes.length using Nat.strong_induction_on generalizing bytes with
  | _ n ih =>
    cases bytes with
    | nil => exact ⟨[], .nil⟩
    | cons b bytes =>
      by_cases h : ∃ c rest, b :: bytes = utf8EncodeChar c ++ rest
      · obtain ⟨c, rest, heq⟩ := h
        have hpos := List.length_pos_iff.mpr (utf8EncodeChar_ne_nil c)
        have hlength := congrArg List.length heq
        rw [List.length_append] at hlength
        obtain ⟨items, hitems⟩ := ih rest.length (by omega) rest rfl
        exact ⟨.inl c :: items, heq ▸ .char c hitems⟩
      · rw [List.length_cons] at hn
        obtain ⟨items, hitems⟩ := ih bytes.length (by omega) bytes rfl
        exact ⟨.inr b :: items, .byte (fun c rest heq => h ⟨c, rest, heq⟩) hitems⟩

lemma items_encode (chars : List Char) : Items (encode chars) (chars.map .inl) := by
  induction chars with
  | nil => exact .nil
  | cons c chars ih =>
    rw [encode_cons]
    exact .char c ih

lemma Items.unique {items other : List (Char ⊕ UInt8)} (h : Items bytes items)
    (h' : Items bytes other) : items = other := by
  induction h generalizing other with
  | nil =>
    generalize hb : ([] : List UInt8) = bytes at h'
    cases h' with
    | nil => rfl
    | char c _ =>
      exact (utf8EncodeChar_ne_nil c (List.append_eq_nil_iff.mp hb.symm).1).elim
    | byte => cases hb
  | @char bytes items c rest ih =>
    generalize hb : utf8EncodeChar c ++ bytes = whole at h'
    cases h' with
    | nil => exact (utf8EncodeChar_ne_nil c (List.append_eq_nil_iff.mp hb).1).elim
    | char d rest' =>
      obtain rfl := utf8EncodeChar_append_inj hb
      rw [ih (List.append_cancel_left hb ▸ rest')]
    | byte none _ => exact (none c bytes hb.symm).elim
  | @byte b bytes items none rest ih =>
    generalize hb : b :: bytes = whole at h'
    cases h' with
    | nil => cases hb
    | char d _ => exact (none d _ hb).elim
    | byte _ rest' =>
      obtain ⟨rfl, rfl⟩ := List.cons.inj hb
      rw [ih rest']

lemma Items.append {items other : List (Char ⊕ UInt8)} (h : Items bytes items)
    (h' : Items (utf8EncodeChar c ++ rest) other) :
    Items (bytes ++ (utf8EncodeChar c ++ rest)) (items ++ other) := by
  induction h with
  | nil => exact h'
  | char d _ ih =>
    rw [List.append_assoc]
    exact .char d ih
  | @byte b bytes items none _ ih =>
    refine .byte ?_ ih
    intro d tail heq
    obtain ⟨lead, more, hlead, hnot, -⟩ := utf8EncodeChar_bytes c
    obtain ⟨first, others, hfirst, -, hothers⟩ := utf8EncodeChar_bytes d
    rw [hlead, hfirst, List.cons_append, List.cons_append, List.cons.injEq] at heq
    obtain ⟨rfl, heq⟩ := heq
    obtain ⟨cut, hcut, htail⟩ | ⟨cut, hcut, -⟩ := List.append_eq_append_iff.mp heq
    · -- The character ends past the byte string, of which the next byte is then a continuation
      cases cut with
      | nil =>
        apply none d []
        rw [hfirst, hcut, List.append_nil, List.append_nil]
      | cons x cut =>
        obtain ⟨rfl, -⟩ := List.cons.inj htail
        exact hnot (hothers lead (by rw [hcut]; simp))
    · apply none d cut
      rw [hfirst, hcut]
      rfl

lemma Items.encode_iff {items : List (Char ⊕ UInt8)} (h : Items bytes items) (chars : List Char) :
    bytes = encode chars ↔ items = chars.map .inl := by
  constructor
  · rintro rfl
    exact h.unique (items_encode chars)
  · rintro rfl
    generalize hitems : chars.map Sum.inl = items at h
    induction h generalizing chars with
    | nil =>
      rw [List.map_eq_nil_iff.mp hitems, encode_nil]
    | char c _ ih =>
      obtain ⟨d, rest, rfl, hd, hrest⟩ := List.map_eq_cons_iff.mp hitems
      obtain rfl := Sum.inl.inj hd
      rw [encode_cons, ih rest hrest]
    | byte _ _ _ =>
      obtain ⟨d, rest, rfl, hd, -⟩ := List.map_eq_cons_iff.mp hitems
      cases hd

lemma Items.mem_of_mem {items : List (Char ⊕ UInt8)} (h : Items bytes items) :
    (∀ c, .inl c ∈ items → ∀ x ∈ utf8EncodeChar c, x ∈ bytes) ∧ ∀ x, .inr x ∈ items → x ∈ bytes := by
  induction h with
  | nil => simp
  | char c _ ih =>
    refine ⟨fun d hd x hx => ?_, fun x hx => ?_⟩
    · rw [List.mem_append]
      obtain heq | hd := List.mem_cons.mp hd
      · exact .inl (Sum.inl.inj heq ▸ hx)
      · exact .inr (ih.1 d hd x hx)
    · obtain heq | hx := List.mem_cons.mp hx
      · cases heq
      · exact List.mem_append_right _ (ih.2 x hx)
  | byte _ _ ih =>
    refine ⟨fun d hd x hx => ?_, fun x hx => ?_⟩
    · obtain heq | hd := List.mem_cons.mp hd
      · cases heq
      · exact List.mem_cons_of_mem _ (ih.1 d hd x hx)
    · obtain heq | hx := List.mem_cons.mp hx
      · rw [Sum.inr.inj heq]
        exact List.mem_cons_self
      · exact List.mem_cons_of_mem _ (ih.2 x hx)

end Utf8

import OpenDmi.MgmtController
import OpenDmi.Utf8

namespace OpenDmi

open Bytes

def IsHighSurrogate (unit : ℕ) : Prop := 0xD800 ≤ unit ∧ unit ≤ 0xDBFF

def IsLowSurrogate (unit : ℕ) : Prop := 0xDC00 ≤ unit ∧ unit ≤ 0xDFFF

inductive Utf16 : List ℕ → List Char → Prop
  | nil : Utf16 [] []
  | unit {units : List ℕ} {chars : List Char} (c : Char) (basic : c.toNat < 0x10000)
      (rest : Utf16 units chars) : Utf16 (c.toNat :: units) (c :: chars)
  | pair {high low : ℕ} {units : List ℕ} {chars : List Char} (c : Char)
      (first : IsHighSurrogate high) (second : IsLowSurrogate low)
      (value : c.toNat = 0x10000 + (high - 0xD800) * 0x400 + (low - 0xDC00))
      (rest : Utf16 units chars) : Utf16 (high :: low :: units) (c :: chars)
  | unpaired {unit : ℕ} {units : List ℕ} {chars : List Char}
      (surrogate : IsHighSurrogate unit ∨ IsLowSurrogate unit)
      (alone : IsHighSurrogate unit → ∀ low ∈ units.head?, ¬IsLowSurrogate low)
      (rest : Utf16 units chars) : Utf16 (unit :: units) ('\uFFFD' :: chars)

variable {units : List ℕ} {chars : List Char} {data : List Byte}

lemma utf8Encode_char (c : Char) : utf8Encode c.toNat = String.utf8EncodeChar c := by
  rw [Utf8.utf8EncodeChar_eq]
  rfl

lemma utf16Units_lt (data : List Byte) : ∀ unit ∈ utf16Units data, unit < 0x10000 := by
  induction data using utf16Units.induct with
  | case1 low high rest ih =>
    have hlow := low.toNat_lt
    have hhigh := high.toNat_lt
    rw [utf16Units, List.forall_mem_cons]
    exact ⟨by omega, ih⟩
  | case2 data hshort =>
    rw [utf16Units]
    · simp
    · exact hshort

lemma utf16Units_length (data : List Byte) : (utf16Units data).length = data.length / 2 := by
  induction data using utf16Units.induct with
  | case1 low high rest ih =>
    rw [utf16Units, List.length_cons, ih, List.length_cons, List.length_cons]
    omega
  | case2 data hshort =>
    have hlt : data.length < 2 := by
      rcases data with _ | ⟨a, _ | ⟨b, rest⟩⟩
      case cons.cons => exact (hshort a b rest rfl).elim
      all_goals simp
    rw [utf16Units, List.length_nil]
    · omega
    · exact hshort

lemma utf16_single {unit : ℕ} (hunit : unit < 0x10000)
    (halone : IsHighSurrogate unit → ∀ low ∈ units.head?, ¬IsLowSurrogate low)
    (rest : Utf16 units chars) :
    ∃ c, Utf16 (unit :: units) (c :: chars) ∧
      utf8Encode (utf16Replace unit) = String.utf8EncodeChar c := by
  rw [utf16Replace]
  by_cases hsurrogate : isSurrogate unit = true
  · have hkind : IsHighSurrogate unit ∨ IsLowSurrogate unit := by
      simp only [isSurrogate, Bool.and_eq_true, decide_eq_true_eq] at hsurrogate
      rw [IsHighSurrogate, IsLowSurrogate]
      omega
    rw [if_pos hsurrogate]
    exact ⟨'\uFFFD', .unpaired hkind halone rest, utf8Encode_char '\uFFFD'⟩
  · have hvalid : unit.isValidChar := by
      simp only [isSurrogate, Bool.and_eq_true, decide_eq_true_eq] at hsurrogate
      rw [Nat.isValidChar]
      omega
    obtain ⟨c, rfl⟩ := Utf8.exists_char hvalid
    rw [if_neg hsurrogate]
    exact ⟨c, .unit c hunit rest, utf8Encode_char c⟩

lemma utf16Decode_chars (units : List ℕ) (hunits : ∀ unit ∈ units, unit < 0x10000) :
    ∃ chars, Utf16 units chars ∧ utf16Decode units = Utf8.encode chars := by
  induction units using utf16Decode.induct with
  | case1 => exact ⟨[], .nil, rfl⟩
  | case2 unit =>
    obtain ⟨c, hc, hcode⟩ := utf16_single (hunits unit List.mem_cons_self) (by simp) .nil
    refine ⟨[c], hc, ?_⟩
    rw [utf16Decode, hcode, Utf8.encode_cons, Utf8.encode_nil, List.append_nil]
  | case3 high low rest hpair ih =>
    rw [List.forall_mem_cons, List.forall_mem_cons] at hunits
    obtain ⟨chars, hchars, hrest⟩ := ih hunits.2.2
    obtain ⟨hhigh, hhigh', hlow, hlow'⟩ := hpair
    have hvalid : (0x10000 + (high - 0xD800) * 1024 + (low - 0xDC00)).isValidChar := by
      rw [Nat.isValidChar]
      omega
    obtain ⟨c, hc⟩ := Utf8.exists_char hvalid
    refine ⟨c :: chars, .pair c ⟨hhigh, hhigh'⟩ ⟨hlow, hlow'⟩ hc hchars, ?_⟩
    rw [utf16Decode, if_pos ⟨hhigh, hhigh', hlow, hlow'⟩, hrest, ← hc, utf8Encode_char,
      Utf8.encode_cons]
  | case4 high low rest hpair ih =>
    rw [List.forall_mem_cons] at hunits
    obtain ⟨chars, hchars, hrest⟩ := ih hunits.2
    have halone : IsHighSurrogate high → ∀ next ∈ (low :: rest).head?, ¬IsLowSurrogate next := by
      intro hhigh next hnext hlow
      obtain rfl := Option.some.inj hnext
      exact hpair ⟨hhigh.1, hhigh.2, hlow.1, hlow.2⟩
    obtain ⟨c, hc, hcode⟩ := utf16_single hunits.1 halone hchars
    refine ⟨c :: chars, hc, ?_⟩
    rw [utf16Decode, if_neg hpair, hrest, hcode, Utf8.encode_cons]

lemma utf8EncodeChar_length_le (c : Char) :
    (String.utf8EncodeChar c).length ≤ 4 ∧
      (c.toNat < 0x10000 → (String.utf8EncodeChar c).length ≤ 3) := by
  rw [Utf8.utf8EncodeChar_eq, Utf8.encodeNat]
  split_ifs
  all_goals simp
  all_goals omega

lemma Utf16.length_le (h : Utf16 units chars) : (Utf8.encode chars).length ≤ 3 * units.length := by
  induction h with
  | nil => simp
  | unit c basic _ ih =>
    have hlength := (utf8EncodeChar_length_le c).2 basic
    rw [Utf8.encode_cons, List.length_append, List.length_cons]
    omega
  | pair c _ _ _ _ ih =>
    have hlength := (utf8EncodeChar_length_le c).1
    rw [Utf8.encode_cons, List.length_append, List.length_cons, List.length_cons]
    omega
  | unpaired _ _ _ ih =>
    have hlength : (String.utf8EncodeChar '\uFFFD').length = 3 := rfl
    rw [Utf8.encode_cons, List.length_append, List.length_cons]
    omega

theorem mgmtUtf16Decode_spec (data : List Byte) :
    (data = [] → mgmtUtf16Decode data = none) ∧
      (2 ≤ data.length → ∃ text chars, mgmtUtf16Decode data = some text ∧
        Utf16 (utf16Units data) chars ∧ text = Utf8.encode chars ∧
        text.length + 1 ≤ 3 * (data.length / 2) + 1) := by
  constructor
  · rintro rfl
    rfl
  · intro hlong
    obtain ⟨chars, hchars, htext⟩ := utf16Decode_chars _ (utf16Units_lt data)
    have hlength := hchars.length_le
    rw [utf16Units_length] at hlength
    refine ⟨Utf8.encode chars, chars, ?_, hchars, rfl, by omega⟩
    rw [mgmtUtf16Decode, if_neg (by omega), htext]

theorem mgmtUtf16Decode_spec_pair :
    mgmtUtf16Decode [] = none ∧ ∃ text chars,
      mgmtUtf16Decode [0x3D, 0xD8, 0x00, 0xDE, 0x00, 0xD8] = some text ∧
      Utf16 (utf16Units [0x3D, 0xD8, 0x00, 0xDE, 0x00, 0xD8]) chars ∧ text = Utf8.encode chars ∧
      text.length + 1 ≤ 3 * 3 + 1 :=
  ⟨(mgmtUtf16Decode_spec []).1 rfl,
    (mgmtUtf16Decode_spec [0x3D, 0xD8, 0x00, 0xDE, 0x00, 0xD8]).2 (by decide)⟩

theorem mgmtUtf16Decode_empty :
    Utf16 (utf16Units []) [] ∧ ¬∃ text chars, mgmtUtf16Decode [] = some text ∧
      Utf16 (utf16Units []) chars ∧ text = Utf8.encode chars := by
  refine ⟨.nil, ?_⟩
  rintro ⟨text, chars, htext, -, -⟩
  cases htext

end OpenDmi

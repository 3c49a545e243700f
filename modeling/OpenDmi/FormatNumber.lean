import OpenDmi.AttributeFormat

namespace OpenDmi

open Bytes Numeral

inductive FormatScalar
  | string | number | bool
  deriving DecidableEq

def isXdigit (c : Byte) : Bool := (digitOf c).isSome

def formatIsNumber (text : List Byte) : Bool :=
  if text.take 2 = hexPrefix then
    (text.drop 2 != []) && ((text.drop 2).dropWhile isXdigit).isEmpty
  else
    let ptr := if text.head? = some 0x2D then text.drop 1 else text
    let digits := ptr.takeWhile isDigit
    let rest := ptr.dropWhile isDigit
    if digits = [] ∨ digits.head? = some 0x30 ∧ digits.length > 1 then false
    else if rest.head? = some 0x2E then
      ((rest.drop 1).takeWhile isDigit != []) && ((rest.drop 1).dropWhile isDigit).isEmpty
    else rest.isEmpty

def formatScalarClassify (kind : AttributeKind) (text : List Byte) : FormatScalar :=
  match kind with
  | .bool =>
    if text = stringBytes "true" ∨ text = stringBytes "false" then .bool else .string
  | .handle | .integer | .decimal | .size | .address =>
    if formatIsNumber text then .number else .string
  | _ => .string

def HexNumber (text : List Byte) (n : ℕ) : Prop :=
  ∃ chars digits, text = hexPrefix ++ chars ∧ chars.mapM digitOf = some digits ∧ digits ≠ [] ∧
    n = value 16 digits

def WholeDigits (digits : List ℕ) : Prop :=
  digits ≠ [] ∧ (∀ d ∈ digits, d < 10) ∧ (digits.head? = some 0 → digits = [0])

/-- The numbers of JSON which have no exponent: digits with a sign before them, and with a point
and more digits after them or neither. -/
inductive PlainNumber : List Byte → ℚ → Prop
  | whole (negative : Bool) (digits : List ℕ) (h : WholeDigits digits) :
    PlainNumber (signText negative ++ digits.map lower) (decimalDenotes negative digits [])
  | fixed (negative : Bool) (digits fraction : List ℕ) (h : WholeDigits digits)
    (hne : fraction ≠ []) (hlt : ∀ d ∈ fraction, d < 10) :
    PlainNumber (signText negative ++ (digits.map lower ++ 0x2E :: fraction.map lower))
      (decimalDenotes negative digits fraction)

def NumberText (text : List Byte) (q : ℚ) : Prop :=
  (∃ n : ℕ, HexNumber text n ∧ q = n) ∨ PlainNumber text q

variable {text : List Byte} {digits : List ℕ} {d : ℕ} {c : Byte}

section Digits

lemma isDigit_lower (h : d < 10) : isDigit (lower d) = true := by
  have hall : ∀ d < 10, isDigit (lower d) = true := by decide
  exact hall d h

lemma isDigit_inv : isDigit c = true → ∃ d < 10, c = lower d := by
  apply forall_byte (P := fun c => isDigit c = true → ∃ d < 10, c = lower d)
  decide +kernel

lemma takeWhile_digits (h : ∀ d ∈ digits, d < 10) {rest : List Byte}
    (hrest : ∀ c ∈ rest.head?, isDigit c = false) :
    (digits.map lower ++ rest).takeWhile isDigit = digits.map lower ∧
      (digits.map lower ++ rest).dropWhile isDigit = rest := by
  induction digits with
  | nil =>
    cases rest with
    | nil => exact ⟨rfl, rfl⟩
    | cons c rest =>
      have hc := hrest c rfl
      simp [hc]
  | cons d digits ih =>
    rw [List.forall_mem_cons] at h
    have hd := isDigit_lower h.1
    obtain ⟨htake, hdrop⟩ := ih h.2
    simp [hd, htake, hdrop]

lemma exists_digits (text : List Byte) :
    ∃ (digits : List ℕ) (rest : List Byte), text = digits.map lower ++ rest ∧
      (∀ d ∈ digits, d < 10) ∧ ∀ c ∈ rest.head?, isDigit c = false := by
  induction text with
  | nil => exact ⟨[], [], rfl, fun _ hd => absurd hd List.not_mem_nil, fun _ hc => by cases hc⟩
  | cons c text ih =>
    cases hc : isDigit c with
    | false =>
      refine ⟨[], c :: text, rfl, fun _ hd => absurd hd List.not_mem_nil, fun c' hc' => ?_⟩
      obtain rfl : c = c' := by simpa using hc'
      exact hc
    | true =>
      obtain ⟨d, hd, rfl⟩ := isDigit_inv hc
      obtain ⟨digits, rest, rfl, hdigits, hrest⟩ := ih
      exact ⟨d :: digits, rest, rfl, List.forall_mem_cons.mpr ⟨hd, hdigits⟩, hrest⟩

lemma lower_zero : lower 0 = 0x30 := by decide

lemma lower_eq_zero : lower d = 0x30 → d < 10 → d = 0 := by
  intro h hd
  have hall : ∀ d < 10, lower d = 0x30 → d = 0 := by decide
  exact hall d hd h

lemma mapM_digitOf (chars : List Byte) :
    (chars.dropWhile isXdigit).isEmpty = true ↔ ∃ digits, chars.mapM digitOf = some digits := by
  induction chars with
  | nil => simp
  | cons c chars ih =>
    rw [List.dropWhile_cons, List.mapM_cons]
    cases hc : digitOf c with
    | none =>
      have hx : isXdigit c = false := by rw [isXdigit, hc]; rfl
      simp [hx]
    | some d =>
      have hx : isXdigit c = true := by rw [isXdigit, hc]; rfl
      rw [if_pos hx, ih]
      cases chars.mapM digitOf <;> simp

lemma mapM_digitOf_nil {chars : List Byte} (h : chars.mapM digitOf = some digits) :
    digits = [] ↔ chars = [] := by
  cases chars with
  | nil =>
    obtain rfl : [] = digits := by simpa using h
    simp
  | cons c chars =>
    rw [List.mapM_cons] at h
    cases hc : digitOf c with
    | none => simp [hc] at h
    | some d =>
      cases hrest : chars.mapM digitOf with
      | none => simp [hc, hrest] at h
      | some rest =>
        obtain rfl : d :: rest = digits := by simpa [hc, hrest] using h
        simp

end Digits

section Grammar

def unsignedText (text : List Byte) : List Byte :=
  if text.head? = some 0x2D then text.drop 1 else text

lemma unsignedText_spec (text : List Byte) :
    text = signText (decide (text.head? = some 0x2D)) ++ unsignedText text := by
  rw [unsignedText]
  split_ifs with h
  · rw [decide_eq_true h]
    cases text with
    | nil => cases h
    | cons c text =>
      obtain rfl : c = 0x2D := by simpa using h
      rfl
  · rw [decide_eq_false h]
    rfl

lemma unsignedText_sign (negative : Bool) (h : text.head? ≠ some 0x2D) :
    unsignedText (signText negative ++ text) = text := by
  cases negative with
  | true => rfl
  | false =>
    rw [signText, if_neg Bool.false_ne_true, List.nil_append, unsignedText, if_neg h]

lemma head_digits (h : WholeDigits digits) (rest : List Byte) :
    (digits.map lower ++ rest).head? ≠ some 0x2D := by
  obtain ⟨hne, hlt, -⟩ := h
  cases digits with
  | nil => exact absurd rfl hne
  | cons d digits =>
    have hall : ∀ d < 10, lower d ≠ 0x2D := by decide
    simpa using hall d (hlt d List.mem_cons_self)

lemma wholeDigits_iff (h : ∀ d ∈ digits, d < 10) :
    ¬(digits.map lower = [] ∨ (digits.map lower).head? = some 0x30 ∧ (digits.map lower).length > 1) ↔
      WholeDigits digits := by
  cases digits with
  | nil => simp [WholeDigits]
  | cons d digits =>
    have hzero : lower d = 0x30 ↔ d = 0 :=
      ⟨fun hd => lower_eq_zero hd (h d List.mem_cons_self), fun hd => by rw [hd, lower_zero]⟩
    have hnil : digits.length + 1 > 1 ↔ digits ≠ [] := by
      rw [← List.length_pos_iff]
      omega
    simp only [WholeDigits, List.map_cons, List.head?_cons, Option.some.injEq, hzero,
      List.length_cons, List.length_map, hnil, List.cons.injEq, reduceCtorEq, false_or, ne_eq,
      not_false_eq_true, true_and, not_and, not_not]
    exact ⟨fun hd => ⟨h, fun he => ⟨he, hd he⟩⟩, fun hd he => (hd.2 he).2⟩

lemma formatIsNumber_plain (h : text.take 2 ≠ hexPrefix) :
    formatIsNumber text = true ↔ ∃ q, PlainNumber text q := by
  have hscan : ∀ digits rest, unsignedText text = digits.map lower ++ rest →
      (∀ d ∈ digits, d < 10) → (∀ c ∈ rest.head?, isDigit c = false) →
      (formatIsNumber text = true ↔ WholeDigits digits ∧
        if rest.head? = some 0x2E then
          (rest.drop 1).takeWhile isDigit ≠ [] ∧ (rest.drop 1).dropWhile isDigit = []
        else rest = []) := by
    intro digits rest htext hdigits hrest
    obtain ⟨htake, hdrop⟩ := takeWhile_digits hdigits hrest
    have hunsigned : (if text.head? = some 0x2D then text.drop 1 else text) =
        digits.map lower ++ rest := htext
    rw [formatIsNumber, if_neg h]
    simp only [hunsigned, htake, hdrop]
    rw [← wholeDigits_iff hdigits]
    split_ifs with hbad hpoint <;> simp_all
  constructor
  · intro hnumber
    obtain ⟨digits, rest, htext, hdigits, hrest⟩ := exists_digits (unsignedText text)
    obtain ⟨hwhole, hend⟩ := (hscan digits rest htext hdigits hrest).mp hnumber
    rw [unsignedText_spec text, htext]
    split_ifs at hend with hpoint
    · obtain ⟨c, fractionText, rfl⟩ : ∃ c r, rest = c :: r := by
        cases rest with
        | nil => cases hpoint
        | cons c r => exact ⟨c, r, rfl⟩
      obtain rfl : c = 0x2E := by simpa using hpoint
      obtain ⟨fraction, tail, hfraction, hlt, htail⟩ := exists_digits fractionText
      obtain ⟨htake, hdrop⟩ := takeWhile_digits hlt htail
      rw [List.drop_succ_cons, List.drop_zero, hfraction, htake, hdrop] at hend
      obtain ⟨hne, rfl⟩ := hend
      rw [hfraction, List.append_nil]
      exact ⟨_, .fixed _ digits fraction hwhole (fun he => hne (by rw [he]; rfl)) hlt⟩
    · rw [hend, List.append_nil]
      exact ⟨_, .whole _ digits hwhole⟩
  · rintro ⟨q, hq⟩
    cases hq with
    | whole negative digits hwhole =>
      have hsign := unsignedText_sign negative (head_digits hwhole [])
      rw [List.append_nil] at hsign
      exact (hscan digits [] (by rw [hsign, List.append_nil]) hwhole.2.1
        (fun _ hc => by cases hc)).mpr ⟨hwhole, by simp⟩
    | fixed negative digits fraction hwhole hne hlt =>
      have hsign := unsignedText_sign negative (head_digits hwhole (0x2E :: fraction.map lower))
      obtain ⟨htake, hdrop⟩ :
          (fraction.map lower ++ []).takeWhile isDigit = fraction.map lower ∧
            (fraction.map lower ++ []).dropWhile isDigit = [] :=
        takeWhile_digits hlt (fun _ hc => by cases hc)
      rw [List.append_nil] at htake hdrop
      refine (hscan digits (0x2E :: fraction.map lower) hsign hwhole.2.1 (fun c hc => ?_)).mpr
        ⟨hwhole, ?_⟩
      · obtain rfl : 0x2E = c := by simpa using hc
        rfl
      · simp [htake, hdrop, hne]

lemma formatIsNumber_hex (h : text.take 2 = hexPrefix) :
    formatIsNumber text = true ↔ ∃ n, HexNumber text n := by
  have hsplit : hexPrefix ++ text.drop 2 = text := by rw [← h, List.take_append_drop]
  rw [formatIsNumber, if_pos h, Bool.and_eq_true, mapM_digitOf, bne_iff_ne]
  constructor
  · rintro ⟨hne, digits, hdigits⟩
    have hnil := mapM_digitOf_nil hdigits
    exact ⟨_, text.drop 2, digits, hsplit.symm, hdigits, fun he => hne (hnil.mp he), rfl⟩
  · rintro ⟨n, chars, digits, rfl, hdigits, hne, -⟩
    have hdrop : (hexPrefix ++ chars).drop 2 = chars := rfl
    rw [hdrop]
    exact ⟨fun he => hne ((mapM_digitOf_nil hdigits).mpr he), digits, hdigits⟩

lemma plainNumber_ne_hex {q : ℚ} (h : PlainNumber text q) : text.take 2 ≠ hexPrefix := by
  have hzero : ∀ (digits : List ℕ) (rest : List Byte), WholeDigits digits →
      (∀ c ∈ rest.head?, c ≠ 0x78) → (digits.map lower ++ rest).take 2 ≠ hexPrefix := by
    intro digits rest hwhole hrest htake
    obtain ⟨hne, hlt, hlead⟩ := hwhole
    cases digits with
    | nil => exact hne rfl
    | cons d digits =>
      have hhead := congrArg List.head? htake
      have hd : d = 0 := by
        apply lower_eq_zero _ (hlt d List.mem_cons_self)
        simpa [hexPrefix] using hhead
      have hone := hlead (by rw [hd]; rfl)
      obtain rfl : digits = [] := by simpa using (List.cons.inj hone).2
      cases rest with
      | nil => simp [hexPrefix] at htake
      | cons c rest =>
        have hc := hrest c rfl
        simp [hexPrefix, hc] at htake
  have hsigned : ∀ rest : List Byte, ((0x2D :: rest).take 2) ≠ hexPrefix := by
    intro rest htake
    have hhead := congrArg List.head? htake
    simp [hexPrefix] at hhead
  cases h with
  | whole negative digits hwhole =>
    cases negative with
    | true => exact hsigned _
    | false =>
      have hnone := hzero digits [] hwhole (fun _ hc => by cases hc)
      rwa [List.append_nil] at hnone
  | fixed negative digits fraction hwhole hne hlt =>
    cases negative with
    | true => exact hsigned _
    | false =>
      refine hzero digits (0x2E :: fraction.map lower) hwhole (fun c hc => ?_)
      obtain rfl : 0x2E = c := by simpa using hc
      decide

lemma formatIsNumber_iff : formatIsNumber text = true ↔ ∃ q, NumberText text q := by
  by_cases h : text.take 2 = hexPrefix
  · rw [formatIsNumber_hex h]
    constructor
    · rintro ⟨n, hn⟩
      exact ⟨n, .inl ⟨n, hn, rfl⟩⟩
    · rintro ⟨q, ⟨n, hn, -⟩ | hq⟩
      · exact ⟨n, hn⟩
      · exact absurd h (plainNumber_ne_hex hq)
  · rw [formatIsNumber_plain h]
    constructor
    · rintro ⟨q, hq⟩
      exact ⟨q, .inr hq⟩
    · rintro ⟨q, ⟨n, ⟨chars, digits, rfl, -⟩, -⟩ | hq⟩
      · exact absurd rfl h
      · exact ⟨q, hq⟩

end Grammar

section Values

def storedNumber (attr : AttributeDesc) (block : Memory) (offset : ℕ) : ℚ :=
  let bytes := valueBytes attr block offset
  let integer : ℤ :=
    if attr.params.flags.isSigned then derefInt attr.value.size bytes
    else derefUint attr.value.size bytes
  match attr.kind with
  | .handle => derefNumber block offset 2
  | .integer => integer
  | .decimal => integer / 10 ^ attr.params.scale
  | _ => valueUint attr block offset

lemma numeral_whole (n : ℕ) : WholeDigits (numeral 10 n) := by
  refine ⟨numeral_ne_nil 10 n, numeral_lt (by omega), fun h => ?_⟩
  rw [numeral] at h ⊢
  split_ifs at h ⊢ with hn
  · rfl
  · rw [List.head?_reverse] at h
    have hne := Nat.getLast_digit_ne_zero 10 hn
    rw [List.getLast?_eq_some_getLast (Nat.digits_ne_nil_iff_ne_zero.mpr hn),
      Option.some.injEq] at h
    exact (hne h).elim

lemma decimalDenotes_whole (negative : Bool) (n : ℕ) :
    decimalDenotes negative (numeral 10 n) [] = (if negative then -1 else 1) * n := by
  rw [decimalDenotes, value_numeral, value_nil, List.length_nil, pow_zero, Nat.cast_zero, zero_div,
    add_zero]

lemma sign_natAbs (v : ℤ) : (if decide (v < 0) = true then -1 else 1 : ℚ) * v.natAbs = v := by
  by_cases hneg : v < 0
  · have habs : (v.natAbs : ℤ) = -v := by omega
    have hrat : (v.natAbs : ℚ) = -v := by rw [← Int.cast_natCast, habs, Int.cast_neg]
    simp [hneg, hrat]
  · have habs : (v.natAbs : ℤ) = v := by omega
    have hrat : (v.natAbs : ℚ) = v := by rw [← Int.cast_natCast, habs]
    simp [hneg, hrat]

lemma integerText (v : ℤ) :
    NumberText (signText (decide (v < 0)) ++ decimalText v.natAbs) v := by
  have hnumber := PlainNumber.whole (decide (v < 0)) _ (numeral_whole v.natAbs)
  have hvalue : decimalDenotes (decide (v < 0)) (numeral 10 v.natAbs) [] = v := by
    rw [decimalDenotes_whole, sign_natAbs]
  rw [hvalue] at hnumber
  exact .inr hnumber

lemma naturalText (n : ℕ) : NumberText (decimalText n) n := by
  have hnumber := integerText n
  rwa [Int.natAbs_natCast, decide_eq_false (by omega), Int.cast_natCast] at hnumber

lemma digitOf_upper (h : d < 16) : digitOf (upper d) = some d := by
  have hall : ∀ d < 16, digitOf (upper d) = some d := by decide
  exact hall d h

lemma hexNumber_numeral (n : ℕ) : HexNumber (hexPrefix ++ (numeral 16 n).map upper) n :=
  ⟨_, numeral 16 n, rfl,
    mapM_digitOf_map fun d hd => digitOf_upper (numeral_lt (by omega) d hd), numeral_ne_nil 16 n,
    (value_numeral 16 n).symm⟩

lemma hexNumber_padded (width n : ℕ) : HexNumber (hexPrefix ++ hexTextPadded width n) n := by
  refine ⟨_, pad width (numeral 16 n), rfl,
    mapM_digitOf_map fun d hd => digitOf_upper (pad_lt (by omega) (numeral_lt (by omega)) d hd), ?_, ?_⟩
  · rw [pad]
    exact List.append_ne_nil_of_right_ne_nil _ (numeral_ne_nil 16 n)
  · rw [value_pad, value_numeral]

variable {attr : AttributeDesc} {block : Memory} {offset : ℕ}

lemma formatInteger_number (hsize : attr.value.size ∈ [1, 2, 4, 8]) :
    ∃ text, attributeFormatInteger attr.number (valueBytes attr block offset) = some text ∧
      NumberText text ((if attr.params.flags.isSigned then
        derefInt attr.value.size (valueBytes attr block offset)
        else derefUint attr.value.size (valueBytes attr block offset) : ℤ) : ℚ) := by
  rw [attributeFormatInteger, if_pos (show attr.number.valueSize ∈ [1, 2, 4, 8] from hsize)]
  have hsigned : attr.number.isSigned = attr.params.flags.isSigned := rfl
  rw [hsigned]
  split_ifs with hs hx
  · exact ⟨_, rfl, integerText _⟩
  · rw [Int.cast_natCast]
    exact ⟨_, rfl, .inl ⟨_, hexNumber_numeral _, rfl⟩⟩
  · rw [Int.cast_natCast]
    exact ⟨_, rfl, naturalText _⟩

lemma valueBytes_length : (valueBytes attr block offset).length = attr.value.size := by
  rw [valueBytes, memberBytes, List.length_append, leStore_length, leStore_length]
  omega

lemma derefUint_lt (size : ℕ) (bytes : List Byte) : derefUint size bytes < 256 ^ size :=
  (leLoad_lt _).trans_le (Nat.pow_le_pow_right (by omega) (List.length_take_le _ _))

lemma derefInt_lt (size : ℕ) (bytes : List Byte) : derefInt size bytes < 256 ^ size := by
  rw [derefInt]
  have hpos : (0 : ℤ) < 256 ^ size := by positivity
  have hlt := Int.bmod_lt (x := (leLoad (bytes.take size) : ℤ)) (m := 256 ^ size) (by positivity)
  push_cast at hlt ⊢
  omega

lemma memberOfInt_bytes {bytes : List Byte} {size : ℕ} (hlength : bytes.length = size)
    (isSigned : Bool) :
    let v : ℤ := if isSigned then derefInt size bytes else derefUint size bytes
    memberOfInt size v = bytes ∧ MemberHolds size isSigned v := by
  subst hlength
  have htake : bytes.take bytes.length = bytes := List.take_length
  have hlt := leLoad_lt bytes
  have hcast : ((256 ^ bytes.length : ℕ) : ℤ) = 256 ^ bytes.length := by push_cast; rfl
  have hpos : (0 : ℤ) < 256 ^ bytes.length := by positivity
  cases isSigned with
  | true =>
    simp only [if_true, derefInt, htake, MemberHolds]
    constructor
    · have hmod : ((leLoad bytes : ℤ).bmod (256 ^ bytes.length)) % (256 ^ bytes.length : ℤ) =
          leLoad bytes := by
        rw [← hcast, Int.bmod_emod, Int.emod_eq_of_lt (by omega) (by exact_mod_cast hlt)]
      rw [memberOfInt, hmod, Int.toNat_natCast, leStore_leLoad]
    · have hlow := Int.le_bmod (x := leLoad bytes) (m := 256 ^ bytes.length) (by positivity)
      have hhigh := Int.bmod_lt (x := leLoad bytes) (m := 256 ^ bytes.length) (by positivity)
      omega
  | false =>
    simp only [Bool.false_eq_true, if_false, derefUint, htake, MemberHolds]
    constructor
    · have hmod : (leLoad bytes : ℤ) % (256 ^ bytes.length : ℤ) = leLoad bytes :=
        Int.emod_eq_of_lt (by omega) (by exact_mod_cast hlt)
      rw [memberOfInt, hmod, Int.toNat_natCast, leStore_leLoad]
    · exact ⟨by omega, by exact_mod_cast hlt⟩

lemma formatDecimal_number (hsize : attr.value.size ∈ [1, 2, 4, 8])
    (hscale : attr.params.scale ≤ 9) :
    ∃ text, attributeFormatDecimal attr.number (valueBytes attr block offset) = some text ∧
      NumberText text (((if attr.params.flags.isSigned then
        derefInt attr.value.size (valueBytes attr block offset)
        else derefUint attr.value.size (valueBytes attr block offset) : ℤ) : ℚ) /
          10 ^ attr.params.scale) := by
  have hscaleEq : attr.number.scale = attr.params.scale := rfl
  by_cases hzero : attr.params.scale = 0
  · rw [attributeFormatDecimal, if_pos (hscaleEq.trans hzero), hzero, pow_zero, div_one]
    exact formatInteger_number hsize
  have hlength : (valueBytes attr block offset).length = attr.value.size := valueBytes_length
  obtain ⟨hbytes, hholds⟩ := memberOfInt_bytes hlength attr.params.flags.isSigned
  set v : ℤ := if attr.params.flags.isSigned then
    derefInt attr.value.size (valueBytes attr block offset)
    else derefUint attr.value.size (valueBytes attr block offset)
  obtain ⟨scale, magnitude, k, hadjust, hsum, hmagnitude, hpos, -⟩ :=
    decimalAdjust_spec attr.params.scale v.natAbs (by omega)
  have hformat := @attributeFormatDecimal_eq attr.number _ hsize ⟨by omega, by omega⟩ hholds
  have hsizeEq : attr.number.valueSize = attr.value.size := rfl
  rw [hsizeEq, hbytes, hscaleEq, hadjust] at hformat
  have hlt : magnitude % 10 ^ scale < 10 ^ scale := Nat.mod_lt _ (by positivity)
  have hlength := pad_length (numeral_length_le (by omega) hpos hlt)
  have hnumber := PlainNumber.fixed (decide (v < 0)) (numeral 10 (magnitude / 10 ^ scale))
    (pad scale (numeral 10 (magnitude % 10 ^ scale))) (numeral_whole _)
    (fun hnil => by rw [hnil, List.length_nil] at hlength; omega)
    (pad_lt (by omega) (numeral_lt (by omega)))
  refine ⟨_, hformat, .inr ?_⟩
  have htext : signText (decide (v < 0)) ++ decimalText (magnitude / 10 ^ scale) ++ [0x2E] ++
      decimalTextPadded scale (magnitude % 10 ^ scale) =
      signText (decide (v < 0)) ++ ((numeral 10 (magnitude / 10 ^ scale)).map lower ++
        0x2E :: (pad scale (numeral 10 (magnitude % 10 ^ scale))).map lower) := by
    simp only [decimalText, decimalTextPadded, List.append_assoc, List.singleton_append]
  have hvalue : decimalDenotes (decide (v < 0)) (numeral 10 (magnitude / 10 ^ scale))
      (pad scale (numeral 10 (magnitude % 10 ^ scale))) = v / 10 ^ attr.params.scale := by
    have hpow : (10 : ℚ) ^ attr.params.scale = 10 ^ scale * 10 ^ k := by rw [hsum, pow_add]
    have hcast : (v.natAbs : ℚ) = magnitude * 10 ^ k := by exact_mod_cast hmagnitude
    have hquotient : (magnitude : ℚ) / 10 ^ scale = v.natAbs / 10 ^ attr.params.scale := by
      rw [hcast, hpow, mul_div_mul_right _ _ (by positivity)]
    rw [decimalDenotes_eq _ hpos, hquotient, ← mul_div_assoc, sign_natAbs]
  rw [htext, ← hvalue]
  exact hnumber

lemma attributeFormat_number (context : FormatContext)
    (hkind : attr.kind ∈ [.handle, .integer, .decimal, .size, .address])
    (hsize : attr.value.size ∈ [1, 2, 4, 8]) (hscale : attr.params.scale ≤ 9) :
    ∃ text, attributeFormat context attr block offset false = some text ∧
      NumberText text (storedNumber attr block offset) := by
  simp only [List.mem_cons, List.not_mem_nil, or_false] at hkind
  rw [storedNumber, attributeFormat]
  obtain hk | hk | hk | hk | hk := hkind <;> rw [hk]
  · exact ⟨_, rfl, .inl ⟨_, hexNumber_padded 4 _, rfl⟩⟩
  · exact formatInteger_number hsize
  · exact formatDecimal_number hsize hscale
  · exact ⟨_, rfl, naturalText _⟩
  · exact ⟨_, rfl, .inl ⟨_, hexNumber_padded _ _, rfl⟩⟩

end Values

end OpenDmi

import OpenDmi.FormatNumber
import OpenDmi.YamlTypes

namespace OpenDmi

open Bytes Numeral Pattern RegularExpression

variable {kind : YamlKind} {text chars : List Byte} {digits fraction : List ℕ} {negative : Bool}
  {c : Byte} {d : ℕ}

section Symbols

def yamlSymbols (kind : YamlKind) : List Byte := symbols (yamlPattern kind)

lemma yamlIs_symbols (h : yamlIs kind text) (hc : c ∈ text) : c ∈ yamlSymbols kind :=
  mem_symbols h hc

lemma yamlIs_first (h : yamlIs kind (c :: text)) : c ∈ firsts (yamlPattern kind) :=
  head_mem_firsts h

lemma yamlIs_needs (h : yamlIs kind text) (hneeds : needs c (yamlPattern kind) = true) :
    c ∈ text := mem_of_needs h hneeds

lemma yamlIs_second {b : Byte} (h : yamlIs kind (b :: c :: text)) :
    c ∈ firsts ((yamlPattern kind).deriv b) := head_mem_firsts (mem_deriv.mp h)

lemma yamlIs_third {a b : Byte} (h : yamlIs kind (a :: b :: c :: text)) :
    c ∈ firsts (((yamlPattern kind).deriv a).deriv b) :=
  head_mem_firsts (mem_deriv.mp (mem_deriv.mp h))

end Symbols

section Hex

lemma digitOf_hexChars (h : (digitOf c).isSome) : c ∈ stringBytes "0123456789abcdefABCDEF_" := by
  revert h
  apply forall_byte (P := fun c => (digitOf c).isSome → c ∈ stringBytes "0123456789abcdefABCDEF_")
  decide +kernel

lemma mapM_digitOf_isSome (h : chars.mapM digitOf = some digits) (hc : c ∈ chars) :
    (digitOf c).isSome := by
  induction chars generalizing digits with
  | nil => exact absurd hc List.not_mem_nil
  | cons b chars ih =>
    rw [List.mapM_cons] at h
    cases hb : digitOf b with
    | none => simp [hb] at h
    | some d =>
      cases hrest : chars.mapM digitOf with
      | none => simp [hb, hrest] at h
      | some rest =>
        obtain rfl | hc := List.mem_cons.mp hc
        · rw [hb, Option.isSome_some]
        · exact ih hrest hc

lemma yamlIs_hex (hne : chars ≠ []) (hall : ∀ c ∈ chars, (digitOf c).isSome) :
    yamlIs kind (hexPrefix ++ chars) ↔ kind = .intHex := by
  constructor
  · intro h
    obtain ⟨c, chars, rfl⟩ := List.exists_cons_of_ne_nil hne
    have hfirst : c ∈ firsts (((yamlPattern kind).deriv 0x30).deriv 0x78) := yamlIs_third h
    by_contra hkind
    have hnone : ∀ kind ≠ YamlKind.intHex,
        firsts (((yamlPattern kind).deriv 0x30).deriv 0x78) = [] := by
      intro kind hkind
      cases kind <;> first | exact absurd rfl hkind | decide
    rw [hnone kind hkind] at hfirst
    exact absurd hfirst List.not_mem_nil
  · rintro rfl
    refine Language.mem_mul.mpr ⟨[], mem_optional.mpr (.inl rfl), _, ?_, List.nil_append _⟩
    refine Language.mem_mul.mpr ⟨hexPrefix, mem_word.mpr rfl, chars, ?_, rfl⟩
    exact mem_many1_oneOf.mpr ⟨hne, fun c hc => digitOf_hexChars (hall c hc)⟩

end Hex

section Decimal

lemma lower_decimal (h : d < 10) : lower d ∈ stringBytes "0123456789" := by
  have hall : ∀ d < 10, lower d ∈ stringBytes "0123456789" := by decide
  exact hall d h

lemma map_lower_decimal (h : ∀ d ∈ digits, d < 10) (hc : c ∈ digits.map lower) :
    c ∈ stringBytes "0123456789" := by
  obtain ⟨d, hd, rfl⟩ := List.mem_map.mp hc
  exact lower_decimal (h d hd)

lemma yamlSign_text (negative : Bool) : signText negative ∈ yamlSign.matches' := by
  cases negative <;> decide

lemma yamlIs_other (h : yamlIs kind text) (hchars : ∀ c ∈ text, c ∈ stringBytes "-.0123456789") :
    kind ∉ [.intBinary, .intHex, .intBase60, .floatBase60] := by
  intro hkind
  have hneeds : ∃ c ∉ stringBytes "-.0123456789", needs c (yamlPattern kind) = true := by
    simp only [List.mem_cons, List.not_mem_nil, or_false] at hkind
    obtain rfl | rfl | rfl | rfl := hkind
    · exact ⟨0x62, by decide, by decide⟩
    · exact ⟨0x78, by decide, by decide⟩
    · exact ⟨0x3A, by decide, by decide⟩
    · exact ⟨0x3A, by decide, by decide⟩
  obtain ⟨c, hc, hneeds⟩ := hneeds
  exact hc (hchars c (yamlIs_needs h hneeds))

lemma yamlIs_word (h : yamlIs kind text) (hd : ∃ c ∈ text, c ∈ stringBytes "0123456789") :
    kind ∉ [.null, .bool, .merge, .value, .infinity, .nan] := by
  intro hkind
  obtain ⟨c, hc, hdigit⟩ := hd
  have hsymbols : ∀ kind ∈ [YamlKind.null, .bool, .merge, .value, .infinity, .nan],
      (stringBytes "0123456789").all (· ∉ yamlSymbols kind) = true := by decide
  exact of_decide_eq_true (List.all_eq_true.mp (hsymbols kind hkind) c hdigit)
    (yamlIs_symbols h hc)

lemma yamlIs_timestamp (h : yamlIs .timestamp (signText negative ++ text))
    (htext : 0x2D ∉ text) : False := by
  have hneeds : needs 0x2D (yamlPattern .timestamp) = true := by decide
  have hmem := yamlIs_needs h hneeds
  cases negative with
  | false => exact htext hmem
  | true =>
    have hfirst : 0x2D ∉ firsts (yamlPattern .timestamp) := by decide
    exact hfirst (yamlIs_first h)

lemma signText_chars (hc : c ∈ signText negative) : c ∈ stringBytes "-.0123456789" := by
  cases negative with
  | false => exact absurd hc List.not_mem_nil
  | true =>
    obtain rfl : c = 0x2D := List.mem_singleton.mp hc
    decide

lemma decimal_chars (hc : c ∈ stringBytes "0123456789") : c ∈ stringBytes "-.0123456789" :=
  List.mem_append_right (stringBytes "-.") hc

lemma yamlIs_whole (h : WholeDigits digits) :
    yamlIs kind (signText negative ++ digits.map lower) ↔ kind = .intDecimal := by
  obtain ⟨hne, hlt, hzero⟩ := h
  obtain ⟨d, rest, rfl⟩ := List.exists_cons_of_ne_nil hne
  have hd := hlt d List.mem_cons_self
  have hdigits := fun c => map_lower_decimal (c := c) hlt
  constructor
  · intro h
    have hother := yamlIs_other h fun c hc => (List.mem_append.mp hc).elim signText_chars
      fun hc => decimal_chars (hdigits c hc)
    have hword := yamlIs_word h ⟨lower d, List.mem_append_right _ List.mem_cons_self,
      lower_decimal hd⟩
    have hpoint : 0x2E ∉ signText negative ++ (d :: rest).map lower := by
      intro hc
      obtain hc | hc := List.mem_append.mp hc
      · cases negative <;> revert hc <;> decide
      · exact absurd (hdigits _ hc) (by decide)
    have hminus : (0x2D : Byte) ∉ (d :: rest).map lower :=
      fun hc => absurd (hdigits _ hc) (by decide)
    cases kind with
    | intDecimal => rfl
    | intOctal =>
      exfalso
      by_cases hd0 : d = 0
      · subst hd0
        obtain rfl : rest = [] := (List.cons.inj (hzero rfl)).2
        cases negative <;> revert h <;> decide
      · have hnot : ∀ d < 10, d ≠ 0 → lower d ∉ firsts (yamlPattern .intOctal) ∧
            lower d ∉ firsts ((yamlPattern .intOctal).deriv 0x2D) := by decide
        cases negative with
        | false => exact (hnot d hd hd0).1 (yamlIs_first h)
        | true => exact (hnot d hd hd0).2 (yamlIs_second h)
    | floatDecimal =>
      have hneeds : needs 0x2E (yamlPattern .floatDecimal) = true := by decide
      exact absurd (yamlIs_needs h hneeds) hpoint
    | timestamp => exact (yamlIs_timestamp h hminus).elim
    | _ => simp at hword hother
  · rintro rfl
    refine Language.mem_mul.mpr ⟨_, yamlSign_text negative, _, ?_, rfl⟩
    by_cases hd0 : d = 0
    · subst hd0
      obtain rfl : rest = [] := (List.cons.inj (hzero rfl)).2
      exact .inl (mem_word.mpr rfl)
    · refine .inr (Language.mem_mul.mpr ⟨[lower d], mem_oneOf.mpr ⟨lower d, ?_, rfl⟩,
        rest.map lower, mem_star_oneOf.mpr fun c hc => ?_, rfl⟩)
      · have hall : ∀ d < 10, d ≠ 0 → lower d ∈ stringBytes "123456789" := by decide
        exact hall d hd hd0
      · have hall : ∀ c ∈ stringBytes "0123456789", c ∈ stringBytes "0123456789_" :=
          fun c hc => List.mem_append_left [0x5F] hc
        exact hall c (hdigits c (List.mem_cons_of_mem _ hc))

lemma yamlIs_fixed (h : WholeDigits digits) (hfraction : ∀ d ∈ fraction, d < 10) :
    yamlIs kind (signText negative ++ (digits.map lower ++ 0x2E :: fraction.map lower)) ↔
      kind = .floatDecimal := by
  obtain ⟨hne, hlt, -⟩ := h
  obtain ⟨d, rest, rfl⟩ := List.exists_cons_of_ne_nil hne
  have hd := hlt d List.mem_cons_self
  have hdigits := fun c => map_lower_decimal (c := c) hlt
  have hfractions := fun c => map_lower_decimal (c := c) hfraction
  constructor
  · intro h
    have hother := yamlIs_other h fun c hc => by
      simp only [List.mem_append, List.mem_cons] at hc
      obtain hc | hc | rfl | hc := hc
      · exact signText_chars hc
      · exact decimal_chars (hdigits c hc)
      · decide
      · exact decimal_chars (hfractions c hc)
    have hword := yamlIs_word h ⟨lower d, List.mem_append_right _ List.mem_cons_self,
      lower_decimal hd⟩
    have hpoint : 0x2E ∈ signText negative ++ ((d :: rest).map lower ++ 0x2E :: fraction.map lower) :=
      List.mem_append_right _ (List.mem_append_right _ List.mem_cons_self)
    have hminus : (0x2D : Byte) ∉ (d :: rest).map lower ++ 0x2E :: fraction.map lower := by
      intro hc
      obtain hc | hc := List.mem_append.mp hc
      · exact absurd (hdigits _ hc) (by decide)
      · obtain hc | hc := List.mem_cons.mp hc
        · exact absurd hc (by decide)
        · exact absurd (hfractions _ hc) (by decide)
    have hsymbols : ∀ kind ∈ [YamlKind.intOctal, .intDecimal], 0x2E ∉ yamlSymbols kind := by
      decide
    cases kind with
    | floatDecimal => rfl
    | intOctal => exact absurd (yamlIs_symbols h hpoint) (hsymbols _ (by decide))
    | intDecimal => exact absurd (yamlIs_symbols h hpoint) (hsymbols _ (by decide))
    | timestamp => exact (yamlIs_timestamp h hminus).elim
    | _ => simp at hword hother
  · rintro rfl
    have hunderscore : ∀ c ∈ stringBytes "0123456789", c ∈ stringBytes "0123456789_" :=
      fun c hc => List.mem_append_left [0x5F] hc
    have hdot : ∀ c ∈ stringBytes "0123456789", c ∈ stringBytes "0123456789." :=
      fun c hc => List.mem_append_left [0x2E] hc
    refine Language.mem_mul.mpr ⟨_, yamlSign_text negative, _, ?_, rfl⟩
    refine Language.mem_mul.mpr ⟨(d :: rest).map lower, mem_optional.mpr (.inr ?_),
      0x2E :: fraction.map lower, ?_, rfl⟩
    · exact Language.mem_mul.mpr ⟨[lower d], mem_oneOf.mpr ⟨lower d, lower_decimal hd, rfl⟩,
        rest.map lower, mem_star_oneOf.mpr fun c hc =>
          hunderscore c (hdigits c (List.mem_cons_of_mem _ hc)), rfl⟩
    · refine Language.mem_mul.mpr ⟨[0x2E], mem_word.mpr rfl, fraction.map lower, ?_, rfl⟩
      exact Language.mem_mul.mpr ⟨fraction.map lower, mem_star_oneOf.mpr fun c hc =>
        hdot c (hfractions c hc), [], mem_optional.mpr (.inl rfl), List.append_nil _⟩

end Decimal

def yamlNumberKind (text : List Byte) : YamlKind :=
  if text.take 2 = hexPrefix then .intHex else if 0x2E ∈ text then .floatDecimal else .intDecimal

lemma yamlIs_number {q : ℚ} (h : NumberText text q) : yamlIs kind text ↔ kind = yamlNumberKind text := by
  obtain ⟨n, ⟨chars, digits, rfl, hdigits, hne, -⟩, -⟩ | h := h
  · have hchars : chars ≠ [] := fun he => hne ((mapM_digitOf_nil hdigits).mpr he)
    have hkind : yamlNumberKind (hexPrefix ++ chars) = .intHex := if_pos rfl
    rw [yamlIs_hex hchars fun c => mapM_digitOf_isSome hdigits, hkind]
  · have hprefix := plainNumber_ne_hex h
    rw [yamlNumberKind, if_neg hprefix]
    cases h with
    | whole negative digits h =>
      have hpoint : 0x2E ∉ signText negative ++ digits.map lower := by
        intro hc
        obtain hc | hc := List.mem_append.mp hc
        · cases negative <;> revert hc <;> decide
        · exact absurd (map_lower_decimal h.2.1 hc) (by decide)
      rw [if_neg hpoint, yamlIs_whole h]
    | fixed negative digits fraction h _ hlt =>
      rw [if_pos (by simp), yamlIs_fixed h hlt]

end OpenDmi

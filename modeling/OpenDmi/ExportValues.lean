import Mathlib.Data.List.TakeWhile
import OpenDmi.ExportYaml
import OpenDmi.YamlNumbers

namespace OpenDmi

open Bytes Numeral Pattern

section Words

variable {kind : YamlKind} {text : List Byte}

/-- The library which writes the scalars: it may quote one for which the plain style is asked, and
keeps every other style from being plain. -/
structure YamlEmitter where
  written : YamlScalar → YamlStyle
  quoted : ∀ scalar, scalar.style ≠ .plain → written scalar ≠ .plain

def YamlEmitter.reads (emitter : YamlEmitter) (scalar : YamlScalar) (kind : YamlKind) : Prop :=
  emitter.written scalar = .plain ∧ yamlIs kind scalar.value

lemma yamlIsPlainString_number {c : Byte} {rest : List Byte} (hstart : c ∈ yamlNumberStart)
    (hchars : ∀ b ∈ c :: rest, b ∈ yamlNumberChars) : yamlIsPlainString (c :: rest) = false := by
  rw [yamlIsPlainString]
  split_ifs
  · rfl
  · rw [List.takeWhile_eq_self_iff.mpr fun b hb => decide_eq_true (hchars b hb)]
    simp

lemma yamlIsPlainString_special (h : text ∈ yamlSpecial) : yamlIsPlainString text = false := by
  cases text with
  | nil => rfl
  | cons c rest => rw [yamlIsPlainString, if_pos (List.contains_iff_mem.mpr h)]

/-- The types whose words are listed, and the only word of them which is not special. -/
def yamlWordKinds : List YamlKind := [.null, .bool, .merge, .value]

lemma yamlIs_special (hkind : kind ∈ yamlWordKinds) (h : yamlIs kind text) :
    text = [] ∨ text ∈ yamlSpecial := by
  simp only [yamlWordKinds, List.mem_cons, List.not_mem_nil, or_false] at hkind
  obtain rfl | rfl | rfl | rfl := hkind
  all_goals
    have hmem := mem_anyOf.mp h
    clear h
    revert text
    decide

lemma yamlIs_chars (hkind : kind ∉ yamlWordKinds) (h : yamlIs kind text) :
    (∃ c rest, text = c :: rest ∧ c ∈ yamlNumberStart) ∧
      ∀ c ∈ text, c ∈ yamlNumberChars ∨ c = 0x09 ∧ kind = .timestamp := by
  -- The lists are gone through, not all bytes
  have hfirsts : ∀ kind ∉ yamlWordKinds,
      (firsts (yamlPattern kind)).all (· ∈ yamlNumberStart) = true := by
    intro kind hkind
    cases kind <;> first | exact absurd (by decide) hkind | decide +kernel
  have hsymbols : ∀ kind ∉ yamlWordKinds, (yamlSymbols kind).all
      (fun c => c ∈ yamlNumberChars ∨ c = 0x09 ∧ kind = .timestamp) = true := by
    intro kind hkind
    cases kind <;> first | exact absurd (by decide) hkind | decide +kernel
  have hempty : ∀ kind ∉ yamlWordKinds, ¬ yamlIs kind [] := by
    intro kind hkind
    cases kind <;> first | exact absurd (by decide) hkind | decide +kernel
  refine ⟨?_, fun c hc => of_decide_eq_true
    (List.all_eq_true.mp (hsymbols kind hkind) c (yamlIs_symbols h hc))⟩
  cases text with
  | nil => exact absurd h (hempty kind hkind)
  | cons c rest => exact ⟨c, rest, rfl, of_decide_eq_true
      (List.all_eq_true.mp (hfirsts kind hkind) c (yamlIs_first h))⟩

end Words

section Numbers

variable {attr : AttributeDesc} {block : Memory} {offset : ℕ} {text : List Byte}

lemma storedNumber_le (hkind : attr.kind ∈ [.handle, .integer, .decimal, .size, .address])
    (hsize : attr.value.size ∈ [1, 2, 4, 8]) : storedNumber attr block offset ≤ uintmaxMax := by
  have hpow : 256 ^ attr.value.size ≤ 2 ^ 64 := by
    simp only [List.mem_cons, List.not_mem_nil, or_false] at hsize
    obtain h | h | h | h := hsize <;> rw [h] <;> norm_num
  have hinteger : (if attr.params.flags.isSigned then
        derefInt attr.value.size (valueBytes attr block offset)
        else derefUint attr.value.size (valueBytes attr block offset) : ℤ) ≤ uintmaxMax := by
    have hint := derefInt_lt attr.value.size (valueBytes attr block offset)
    have huint := derefUint_lt attr.value.size (valueBytes attr block offset)
    have hcast : ((256 ^ attr.value.size : ℕ) : ℤ) ≤ 2 ^ 64 := by exact_mod_cast hpow
    push_cast at hcast
    rw [uintmaxMax]
    split_ifs <;> omega
  have hrat : ((if attr.params.flags.isSigned then
        derefInt attr.value.size (valueBytes attr block offset)
        else derefUint attr.value.size (valueBytes attr block offset) : ℤ) : ℚ) ≤ uintmaxMax := by
    exact_mod_cast hinteger
  have huint : (valueUint attr block offset : ℚ) ≤ uintmaxMax := by
    have hle : valueUint attr block offset ≤ uintmaxMax := by
      rw [valueUint, attributeGetUint]
      have h1 := derefUint_lt 1 (valueBytes attr block offset)
      have h2 := derefUint_lt 2 (valueBytes attr block offset)
      have h4 := derefUint_lt 4 (valueBytes attr block offset)
      have h8 := derefUint_lt 8 (valueBytes attr block offset)
      rw [uintmaxMax]
      split_ifs <;> omega
    exact_mod_cast hle
  simp only [List.mem_cons, List.not_mem_nil, or_false] at hkind
  rw [storedNumber]
  obtain hk | hk | hk | hk | hk := hkind <;> rw [hk]
  · have hlt : derefNumber block offset 2 ≤ uintmaxMax := by
      have hmod := Nat.mod_lt (block.number offset).toNat (show 0 < 256 ^ 2 by norm_num)
      rw [derefNumber, uintmaxMax]
      omega
    exact Nat.cast_le.mpr hlt
  · exact hrat
  · have hscale : (1 : ℚ) ≤ 10 ^ attr.params.scale := one_le_pow₀ (by norm_num)
    rw [div_le_iff₀ (by positivity)]
    calc _ ≤ (uintmaxMax : ℚ) := hrat
      _ ≤ uintmaxMax * 10 ^ attr.params.scale := le_mul_of_one_le_right (by positivity) hscale
  · exact huint
  · exact huint

lemma strtoumaxHex_number {chars : List Byte} {digits : List ℕ}
    (h : chars.mapM digitOf = some digits) (hle : value 16 digits ≤ uintmaxMax) :
    strtoumaxHex chars = (value 16 digits, false) := by
  have htake : chars.takeWhile isXdigit = chars :=
    List.takeWhile_eq_self_iff.mpr fun c hc => mapM_digitOf_isSome h hc
  have hfilter : ∀ {chars : List Byte} {digits : List ℕ}, chars.mapM digitOf = some digits →
      chars.filterMap digitOf = digits := by
    intro chars
    induction chars with
    | nil =>
      intro digits h
      simpa using h
    | cons c chars ih =>
      intro digits h
      rw [List.mapM_cons] at h
      cases hc : digitOf c with
      | none => simp [hc] at h
      | some d =>
        cases hrest : chars.mapM digitOf with
        | none => simp [hc, hrest] at h
        | some rest =>
          obtain rfl : d :: rest = digits := by simpa [hc, hrest] using h
          rw [List.filterMap_cons, hc, ih hrest]
  rw [strtoumaxHex, htake, hfilter h]
  exact if_neg (by omega)

lemma jsonNumber_plain {q : ℚ} (h : NumberText text q) (hle : q ≤ uintmaxMax) :
    ∃ body, jsonNumber text = .number body ∧ PlainNumber body q := by
  obtain ⟨n, ⟨chars, digits, rfl, hdigits, hne, rfl⟩, rfl⟩ | h := h
  · have hn : value 16 digits ≤ uintmaxMax := by exact_mod_cast hle
    have hread := strtoumaxHex_number hdigits hn
    refine ⟨decimalText (value 16 digits), ?_, ?_⟩
    · have hdrop : (hexPrefix ++ chars).drop 2 = chars := rfl
      have htake : (hexPrefix ++ chars).take 2 = hexPrefix := rfl
      rw [jsonNumber, if_pos htake, hdrop, hread]
      rfl
    · have hnumber := PlainNumber.whole false _ (numeral_whole (value 16 digits))
      rw [decimalDenotes_whole, if_neg Bool.false_ne_true, one_mul] at hnumber
      exact hnumber
  · exact ⟨text, if_neg (plainNumber_ne_hex h), h⟩

/-- A value of a kind which is a number is exported as that number, to JSON and to YAML: readers
of the one find its decimal digits, and those of the other a text of one numeric type where it is
written plain. -/
theorem export_number (session : ExportSession) (node : WalkNode)
    (hpretty : session.pretty = false)
    (hkind : node.attr.kind ∈ [.handle, .integer, .decimal, .size, .address])
    (hsize : node.attr.value.size ∈ [1, 2, 4, 8]) (hscale : node.attr.params.scale ≤ 9)
    (hunspec : valueIsUnspecified node = false) (hunknown : valueIsUnknown node = false) :
    let stored := storedNumber node.attr node.block node.offset
    ∃ text, valueDoc session node = .scalar (.number text) ∧ NumberText text stored ∧
      (∃ body, jsonScalar (.number text) = .number body ∧ PlainNumber body stored) ∧
      ∀ (emitter : YamlEmitter) kind, emitter.reads (yamlScalarOf (.number text)) kind ↔
        emitter.written (yamlScalarOf (.number text)) = .plain ∧ kind = yamlNumberKind text := by
  intro stored
  obtain ⟨text, hformat, hnumber⟩ :=
    @attributeFormat_number node.attr node.block node.offset session.context hkind hsize hscale
  have hclassify : formatScalarClassify node.attr.kind text = .number := by
    have hnumeric : formatIsNumber text = true := formatIsNumber_iff.mpr ⟨_, hnumber⟩
    simp only [List.mem_cons, List.not_mem_nil, or_false] at hkind
    obtain hk | hk | hk | hk | hk := hkind <;> rw [hk, formatScalarClassify, if_pos hnumeric]
  have hset : node.attr.kind ≠ .set := by
    intro hset
    rw [hset] at hkind
    exact absurd hkind (by decide)
  refine ⟨text, ?_, hnumber, jsonNumber_plain hnumber (storedNumber_le hkind hsize),
    fun emitter kind => ?_⟩
  · rw [valueDoc, hunspec, hunknown, if_neg Bool.false_ne_true, if_neg Bool.false_ne_true,
      if_neg hset, formatAttributeValue, hpretty, hformat]
    simp only [Option.bind_some, Bool.not_false, true_or, if_true, textScalar, hpretty,
      Bool.false_eq_true, if_false, hclassify]
  · rw [← yamlIs_number hnumber]
    exact Iff.rfl

def speedNode : WalkNode :=
  let attr := { overlayAttribute with value := ⟨0, 2⟩, kind := .integer }
  let info := Memory.zero.setNumber 0 2400
  ⟨attr, attr, info, 0, info, 0, none, 0⟩

def plainSession : ExportSession := ⟨⟨8, fun _ _ => none⟩, false, 0x30700, 0, 0⟩

theorem export_number_speed :
    let stored := storedNumber speedNode.attr speedNode.block speedNode.offset
    ∃ text, valueDoc plainSession speedNode = .scalar (.number text) ∧ NumberText text stored ∧
      (∃ body, jsonScalar (.number text) = .number body ∧ PlainNumber body stored) ∧
      ∀ (emitter : YamlEmitter) kind, emitter.reads (yamlScalarOf (.number text)) kind ↔
        emitter.written (yamlScalarOf (.number text)) = .plain ∧ kind = yamlNumberKind text :=
  export_number plainSession speedNode rfl (by decide) (by decide) (by decide) (by decide)
    (by decide)

end Numbers

end OpenDmi

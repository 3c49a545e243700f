import Mathlib.Data.List.TakeWhile
import OpenDmi.CommandOptions
import OpenDmi.Registry
import OpenDmi.FormatNumber
import OpenDmi.TypeMap

namespace OpenDmi

open Bytes Numeral

section Span

def isDigitOf (base : ℕ) (c : Byte) : Bool := (digitOf c).any (· < base)

def isSign (c : Byte) : Bool := c == 0x2B || c == 0x2D

/-- A prefix is only taken with a digit behind it. -/
def isPrefixed (base : ℕ) : List Byte → Bool
  | 0x30 :: x :: c :: _ => base == 16 && (x == 0x78 || x == 0x58) && isDigitOf base c
  | _ => false

structure NumberSpan where
  isNegative : Bool
  number : ℕ
  rest : List Byte
  deriving DecidableEq

def numberSpan (base : ℕ) (text : List Byte) : Option NumberSpan :=
  let text := text.dropWhile isSpace
  let isNegative := text.head? == some 0x2D
  let text := if text.head?.any isSign then text.drop 1 else text
  let text := if isPrefixed base text then text.drop 2 else text
  let digits := text.takeWhile (isDigitOf base)
  if digits = [] then none
  else some ⟨isNegative, value base (digits.filterMap digitOf), text.dropWhile (isDigitOf base)⟩

def ulongMax : ℕ := 2 ^ 64 - 1
def longMax : ℕ := 2 ^ 63 - 1

structure Parsed (α : Type) where
  number : α
  isOutOfRange : Bool
  rest : List Byte
  deriving DecidableEq

/-- A number below zero goes around, where its digits are in range. -/
def strtoul (base : ℕ) (text : List Byte) : Parsed ℕ :=
  match numberSpan base text with
  | none => ⟨0, false, text⟩
  | some span =>
    if ulongMax < span.number then ⟨ulongMax, true, span.rest⟩
    else ⟨if span.isNegative then (2 ^ 64 - span.number) % 2 ^ 64 else span.number, false, span.rest⟩

def strtol (base : ℕ) (text : List Byte) : Parsed ℤ :=
  match numberSpan base text with
  | none => ⟨0, false, text⟩
  | some span =>
    if span.isNegative then
      if longMax + 1 < span.number then ⟨-(longMax + 1), true, span.rest⟩
      else ⟨-span.number, false, span.rest⟩
    else if longMax < span.number then ⟨longMax, true, span.rest⟩
    else ⟨span.number, false, span.rest⟩

structure NumberParts (base : ℕ) where
  lead : List Byte
  sign : List Byte
  mark : List Byte
  digits : List Byte
  space : ∀ c ∈ lead, isSpace c = true
  signed : sign = [] ∨ sign = [0x2B] ∨ sign = [0x2D]
  marked : mark = [] ∨ base = 16 ∧ (mark = [0x30, 0x78] ∨ mark = [0x30, 0x58])
  nonempty : digits ≠ []
  known : ∀ c ∈ digits, isDigitOf base c = true

namespace NumberParts

variable {base : ℕ} (parts : NumberParts base)

def text : List Byte := parts.lead ++ (parts.sign ++ (parts.mark ++ parts.digits))

def isNegative : Bool := parts.sign == [0x2D]

def number : ℕ := value base (parts.digits.filterMap digitOf)

end NumberParts

end Span

section Spelled

variable {base : ℕ} {text digits : List Byte}

lemma isDigitOf_other {c : Byte} (h : isDigitOf base c = true) :
    isSpace c = false ∧ isSign c = false ∧ c ≠ 0x78 ∧ c ≠ 0x58 := by
  have hall : ∀ n < 256, (digitOf (UInt8.ofNat n)).isSome →
      isSpace (UInt8.ofNat n) = false ∧ isSign (UInt8.ofNat n) = false ∧
        UInt8.ofNat n ≠ 0x78 ∧ UInt8.ofNat n ≠ 0x58 := by decide +kernel
  have hsome : (digitOf c).isSome := by
    cases hc : digitOf c with
    | none => simp [isDigitOf, hc] at h
    | some d => rfl
  have hc := hall c.toNat c.toNat_lt
  rw [UInt8.ofNat_toNat] at hc
  exact hc hsome

lemma dropWhile_lead {p : Byte → Bool} {lead rest : List Byte} (hlead : ∀ c ∈ lead, p c = true)
    (hrest : ∀ c ∈ rest.head?, p c = false) : (lead ++ rest).dropWhile p = rest := by
  rw [List.dropWhile_append_of_pos hlead]
  cases rest with
  | nil => rfl
  | cons c rest => rw [List.dropWhile_cons_of_neg (by rw [hrest c rfl]; exact Bool.false_ne_true)]

namespace NumberParts

variable (parts : NumberParts base)

lemma body_head : ∀ c ∈ (parts.mark ++ parts.digits).head?,
    isSpace c = false ∧ isSign c = false := by
  intro c hc
  obtain hmark | ⟨-, hmark | hmark⟩ := parts.marked
  · rw [hmark, List.nil_append] at hc
    obtain ⟨hspace, hsign, -⟩ := isDigitOf_other (parts.known c (List.mem_of_mem_head? hc))
    exact ⟨hspace, hsign⟩
  all_goals
    rw [hmark] at hc
    obtain rfl : 0x30 = c := Option.some.inj hc
    exact ⟨rfl, rfl⟩

lemma dropSpace : parts.text.dropWhile isSpace = parts.sign ++ (parts.mark ++ parts.digits) := by
  refine dropWhile_lead parts.space fun c hc => ?_
  obtain hsign | hsign | hsign := parts.signed
  · rw [hsign, List.nil_append] at hc
    exact (parts.body_head c hc).1
  all_goals
    rw [hsign] at hc
    obtain rfl := Option.some.inj hc
    rfl

lemma not_prefixed : isPrefixed base parts.digits = false := by
  have hknown := parts.known
  unfold isPrefixed
  split
  · next x c rest heq =>
    obtain ⟨-, -, hlow, hup⟩ := isDigitOf_other (hknown x (by rw [heq]; simp))
    simp [hlow, hup]
  · rfl

end NumberParts

lemma numberSpan_parts (parts : NumberParts base) :
    numberSpan base parts.text = some ⟨parts.isNegative, parts.number, []⟩ := by
  have hneg : ((parts.sign ++ (parts.mark ++ parts.digits)).head? == some 0x2D) =
      parts.isNegative := by
    rw [NumberParts.isNegative]
    obtain hsign | hsign | hsign := parts.signed
    · rw [hsign, List.nil_append]
      cases hhead : (parts.mark ++ parts.digits).head? with
      | none => rfl
      | some c =>
        obtain ⟨-, hc⟩ := parts.body_head c hhead
        have hne : c ≠ 0x2D := by rintro rfl; exact absurd hc (by decide)
        simp [hne]
    · rw [hsign]; rfl
    · rw [hsign]; rfl
  have hbody : (if (parts.sign ++ (parts.mark ++ parts.digits)).head?.any isSign then
      (parts.sign ++ (parts.mark ++ parts.digits)).drop 1 else
        parts.sign ++ (parts.mark ++ parts.digits)) = parts.mark ++ parts.digits := by
    obtain hsign | hsign | hsign := parts.signed
    · rw [hsign, List.nil_append, if_neg]
      cases hhead : (parts.mark ++ parts.digits).head? with
      | none => exact Bool.false_ne_true
      | some c => simp [(parts.body_head c hhead).2]
    · rw [hsign]; rfl
    · rw [hsign]; rfl
  have hdigits : (if isPrefixed base (parts.mark ++ parts.digits) then
      (parts.mark ++ parts.digits).drop 2 else parts.mark ++ parts.digits) = parts.digits := by
    obtain hmark | ⟨rfl, hmark⟩ := parts.marked
    · rw [hmark, List.nil_append, parts.not_prefixed]
      rfl
    · obtain ⟨c, rest, hcons⟩ := List.exists_cons_of_ne_nil parts.nonempty
      have hc : isDigitOf 16 c = true := parts.known c (by rw [hcons]; exact List.mem_cons_self)
      rw [if_pos]
      · obtain hmark | hmark := hmark <;> rw [hmark] <;> rfl
      · obtain hmark | hmark := hmark <;> rw [hmark, hcons] <;> simp [isPrefixed, hc]
  have htake : parts.digits.takeWhile (isDigitOf base) = parts.digits :=
    List.takeWhile_eq_self_iff.mpr parts.known
  have hdrop : parts.digits.dropWhile (isDigitOf base) = [] :=
    List.dropWhile_eq_nil_iff.mpr parts.known
  rw [numberSpan, parts.dropSpace, hneg]
  simp only [hbody, hdigits, htake, hdrop]
  rw [if_neg parts.nonempty, NumberParts.number]

lemma numberSpan_whole {span : NumberSpan} (h : numberSpan base text = some span)
    (hrest : span.rest = []) :
    ∃ parts : NumberParts base, parts.text = text ∧ parts.isNegative = span.isNegative ∧
      parts.number = span.number := by
  obtain ⟨sign, body, hsplit, hsigned, hneg, hbody⟩ : ∃ sign body : List Byte,
      text.dropWhile isSpace = sign ++ body ∧ (sign = [] ∨ sign = [0x2B] ∨ sign = [0x2D]) ∧
      ((text.dropWhile isSpace).head? == some 0x2D) = (sign == [0x2D]) ∧
      (if (text.dropWhile isSpace).head?.any isSign then (text.dropWhile isSpace).drop 1
        else text.dropWhile isSpace) = body := by
    cases hdrop : text.dropWhile isSpace with
    | nil => exact ⟨[], [], rfl, .inl rfl, rfl, rfl⟩
    | cons c body =>
      by_cases hc : isSign c = true
      · refine ⟨[c], body, rfl, ?_, by simp, by simp [hc]⟩
        simpa [isSign] using hc
      · refine ⟨[], c :: body, rfl, .inl rfl, ?_, by simp [hc]⟩
        have hne : c ≠ 0x2D := by rintro rfl; exact hc rfl
        simp [hne]
  obtain ⟨mark, digits, rfl, hmarked, hdigits⟩ : ∃ mark digits : List Byte, body = mark ++ digits ∧
      (mark = [] ∨ base = 16 ∧ (mark = [0x30, 0x78] ∨ mark = [0x30, 0x58])) ∧
      (if isPrefixed base body then body.drop 2 else body) = digits := by
    by_cases hprefixed : isPrefixed base body = true
    · rw [if_pos hprefixed]
      refine ⟨body.take 2, body.drop 2, (List.take_append_drop 2 body).symm, .inr ?_, rfl⟩
      unfold isPrefixed at hprefixed
      split at hprefixed
      · next x c rest =>
        rw [Bool.and_eq_true, Bool.and_eq_true, Bool.or_eq_true, beq_iff_eq, beq_iff_eq,
          beq_iff_eq] at hprefixed
        obtain ⟨⟨hbase, rfl | rfl⟩, -⟩ := hprefixed
        · exact ⟨hbase, .inl rfl⟩
        · exact ⟨hbase, .inr rfl⟩
      · exact absurd hprefixed Bool.false_ne_true
    · rw [if_neg hprefixed]
      exact ⟨[], body, rfl, .inl rfl, rfl⟩
  rw [numberSpan] at h
  simp only [hneg, hbody, hdigits] at h
  by_cases hempty : digits.takeWhile (isDigitOf base) = []
  · rw [if_pos hempty] at h
    exact nomatch h
  rw [if_neg hempty] at h
  obtain rfl := Option.some.inj h
  have hknown := List.dropWhile_eq_nil_iff.mp hrest
  rw [List.takeWhile_eq_self_iff.mpr hknown] at hempty ⊢
  refine ⟨⟨text.takeWhile isSpace, sign, mark, digits, fun c hc => List.mem_takeWhile_imp hc,
    hsigned, hmarked, hempty, hknown⟩, ?_, rfl, rfl⟩
  rw [NumberParts.text, ← hsplit]
  exact List.takeWhile_append_dropWhile

end Spelled

section Told

def typeMax : ℕ := 255

def hasCode (code : ℕ → List Byte) (text : List Byte) (candidates : TypeCandidates) : Bool :=
  candidates.plain.any (code · == text) || candidates.signed.any (code · == text)

def typeFind (map : TypeMap) (code : ℕ → List Byte) (text : List Byte) : Option ℕ :=
  (List.range (typeMax + 1)).find? fun type => hasCode code text (map type)

/-- What a text is refused with is the format of the message, which is given the text. -/
def parseHandle (text : List Byte) : Except (List Byte) ℕ :=
  let parsed := strtoul 16 text
  if text = [] ∨ parsed.rest ≠ [] then .error (stringBytes "Invalid handle value: %s")
  else if (parsed.isOutOfRange = true ∧ parsed.number = ulongMax) ∨ handleInvalid ≤ parsed.number then
    .error (stringBytes "Handle is out of range: %s")
  else .ok parsed.number

def parseType (map : TypeMap) (code : ℕ → List Byte) (text : List Byte) :
    Except (List Byte) ℕ :=
  if text = [] then .error (stringBytes "Empty type value")
  else if text.head?.any isSign then .error (stringBytes "Invalid type value: %s")
  else
    let parsed := strtol 10 text
    if parsed.rest ≠ [] then match typeFind map code text with
      | none => .error (stringBytes "Unknown type code: %s")
      | some type => .ok type
    else if (parsed.isOutOfRange = true ∧
        (parsed.number = -(longMax + 1) ∨ parsed.number = longMax)) ∨
        parsed.number < 0 ∨ typeMax < parsed.number then
      .error (stringBytes "Type is out of range: %s")
    else .ok parsed.number.toNat

def HandleText (text : List Byte) (handle : ℕ) : Prop :=
  ∃ parts : NumberParts 16, parts.text = text ∧ parts.number ≤ ulongMax ∧
    handle = (if parts.isNegative then (2 ^ 64 - parts.number) % 2 ^ 64 else parts.number) ∧
      handle < handleInvalid

/-- A type is told by its number, or else by the code of a specification, which may be found at
several numbers. -/
inductive TypeText (map : TypeMap) (code : ℕ → List Byte) (text : List Byte) : ℕ → Prop
  | number (parts : NumberParts 10) (htext : parts.text = text)
    (hsign : text.head?.any isSign = false) (hnegative : parts.isNegative = true → parts.number = 0)
    (hle : parts.number ≤ typeMax) : TypeText map code text parts.number
  | code {type : ℕ} (hne : text ≠ []) (hsign : text.head?.any isSign = false)
    (hnumber : ∀ parts : NumberParts 10, parts.text ≠ text) (hle : type ≤ typeMax)
    (hcode : hasCode code text (map type) = true)
    (hfirst : ∀ other < type, hasCode code text (map other) = false) :
    TypeText map code text type

variable {map : TypeMap} {code : ℕ → List Byte} {text : List Byte} {handle type : ℕ}

lemma strtoul_rest {base : ℕ} (hne : text ≠ []) (h : (strtoul base text).rest = []) :
    ∃ parts : NumberParts base, parts.text = text ∧
      strtoul base text = if ulongMax < parts.number then ⟨ulongMax, true, []⟩
        else ⟨if parts.isNegative then (2 ^ 64 - parts.number) % 2 ^ 64 else parts.number, false,
          []⟩ := by
  cases hspan : numberSpan base text with
  | none =>
    simp only [strtoul, hspan] at h
    exact absurd h hne
  | some span =>
    have hrest : span.rest = [] := by
      simp only [strtoul, hspan] at h
      split_ifs at h <;> exact h
    obtain ⟨parts, htext, hneg, hnumber⟩ := numberSpan_whole hspan hrest
    refine ⟨parts, htext, ?_⟩
    rw [strtoul, hspan, hneg, hnumber]
    simp only [hrest]

lemma strtol_rest {base : ℕ} (hne : text ≠ []) (h : (strtol base text).rest = []) :
    ∃ parts : NumberParts base, parts.text = text := by
  cases hspan : numberSpan base text with
  | none =>
    simp only [strtol, hspan] at h
    exact absurd h hne
  | some span =>
    have hrest : span.rest = [] := by
      simp only [strtol, hspan] at h
      split_ifs at h <;> exact h
    obtain ⟨parts, htext, -⟩ := numberSpan_whole hspan hrest
    exact ⟨parts, htext⟩

lemma NumberParts.text_ne_nil {base : ℕ} (parts : NumberParts base) : parts.text ≠ [] := by
  simp [NumberParts.text, parts.nonempty]

lemma parseHandle_iff : parseHandle text = .ok handle ↔ HandleText text handle := by
  constructor
  · intro h
    rw [parseHandle] at h
    split_ifs at h with hbad hrange
    rw [not_or, not_not] at hbad
    obtain ⟨parts, htext, hparsed⟩ := strtoul_rest hbad.1 hbad.2
    obtain rfl := Except.ok.inj h
    rw [hparsed] at hrange ⊢
    by_cases hlarge : ulongMax < parts.number
    · rw [if_pos hlarge] at hrange
      exact absurd (.inl ⟨rfl, rfl⟩) hrange
    · rw [if_neg hlarge] at hrange ⊢
      exact ⟨parts, htext, by omega, rfl, by omega⟩
  · rintro ⟨parts, rfl, hle, rfl, hlt⟩
    have hparsed : strtoul 16 parts.text =
        ⟨if parts.isNegative then (2 ^ 64 - parts.number) % 2 ^ 64 else parts.number, false,
          []⟩ := by
      rw [strtoul, numberSpan_parts]
      exact if_neg (by simpa using hle)
    rw [parseHandle, hparsed]
    rw [if_neg (by simp [parts.text_ne_nil]), if_neg (by simp; exact hlt)]

lemma strtol_parts {base : ℕ} (parts : NumberParts base) :
    strtol base parts.text =
      if parts.isNegative then
        if longMax + 1 < parts.number then ⟨-(longMax + 1), true, []⟩
        else ⟨-parts.number, false, []⟩
      else if longMax < parts.number then ⟨longMax, true, []⟩ else ⟨parts.number, false, []⟩ := by
  rw [strtol, numberSpan_parts]

lemma strtol_parts_rest {base : ℕ} (parts : NumberParts base) :
    (strtol base parts.text).rest = [] := by
  rw [strtol_parts]
  split_ifs <;> rfl

lemma typeFind_iff : typeFind map code text = some type ↔
    type ≤ typeMax ∧ hasCode code text (map type) = true ∧
      ∀ other < type, hasCode code text (map other) = false := by
  rw [typeFind, List.find?_range_eq_some]
  simp only [List.mem_range, Nat.lt_succ_iff, Bool.not_eq_true']
  tauto

lemma strtol_inRange {parts : NumberParts 10} (hrange : ¬ (((strtol 10 parts.text).isOutOfRange =
      true ∧ ((strtol 10 parts.text).number = -(longMax + 1) ∨
        (strtol 10 parts.text).number = longMax)) ∨
      (strtol 10 parts.text).number < 0 ∨ typeMax < (strtol 10 parts.text).number)) :
    (parts.isNegative = true → parts.number = 0) ∧ parts.number ≤ typeMax ∧
      (strtol 10 parts.text).number.toNat = parts.number := by
  have hmax : (typeMax : ℤ) = 255 := rfl
  have hlong : (longMax : ℤ) = 2 ^ 63 - 1 := by rw [longMax]; norm_num
  rw [strtol_parts] at hrange ⊢
  by_cases hneg : parts.isNegative = true
  · rw [if_pos hneg] at hrange ⊢
    split_ifs at hrange ⊢ with hlarge
    · exact absurd (.inl ⟨rfl, .inl rfl⟩) hrange
    · have hzero : parts.number = 0 := by
        rw [not_or, not_or] at hrange
        have h := hrange.2.1
        simp only at h
        omega
      simp [hzero]
  · rw [if_neg hneg] at hrange ⊢
    split_ifs at hrange ⊢ with hlarge
    · exact absurd (.inl ⟨rfl, .inr rfl⟩) hrange
    · rw [not_or, not_or] at hrange
      have h := hrange.2.2
      simp only at h
      exact ⟨fun h => absurd h hneg, by omega, Int.toNat_natCast _⟩

lemma parseType_iff : parseType map code text = .ok type ↔ TypeText map code text type := by
  constructor
  · intro h
    simp only [parseType] at h
    by_cases hne : text = []
    · rw [if_pos hne] at h
      cases h
    by_cases hsign : text.head?.any isSign = true
    · rw [if_neg hne, if_pos hsign] at h
      cases h
    rw [if_neg hne, if_neg hsign] at h
    split_ifs at h with hrest hrange
    · cases hfind : typeFind map code text with
      | none => simp [hfind] at h
      | some found =>
        rw [hfind] at h
        obtain rfl := Except.ok.inj h
        obtain ⟨hle, hcode, hfirst⟩ := typeFind_iff.mp hfind
        refine .code hne (Bool.eq_false_iff.mpr hsign) (fun parts htext => hrest ?_) hle hcode
          hfirst
        rw [← htext]
        exact strtol_parts_rest parts
    · obtain ⟨parts, rfl⟩ := strtol_rest hne (not_not.mp hrest)
      obtain ⟨hnegative, hle, hnumber⟩ := strtol_inRange hrange
      obtain rfl := Except.ok.inj h
      rw [hnumber]
      exact .number parts rfl (Bool.eq_false_iff.mpr hsign) hnegative hle
  · intro h
    cases h with
    | number parts htext hsign hnegative hle =>
      subst htext
      have hmax : typeMax = 255 := rfl
      have hlong : longMax = 9223372036854775807 := rfl
      have hparsed : strtol 10 parts.text = ⟨parts.number, false, []⟩ := by
        rw [strtol_parts]
        by_cases hneg : parts.isNegative = true
        · rw [if_pos hneg, hnegative hneg]
          rfl
        · rw [if_neg hneg, if_neg (by omega)]
      rw [parseType, if_neg parts.text_ne_nil, if_neg (Bool.eq_false_iff.mp hsign), hparsed]
      simp only [ne_eq, not_true_eq_false, if_false, Bool.false_eq_true, false_and, false_or]
      rw [if_neg (by omega), Int.toNat_natCast]
    | code hne hsign hnumber hle hcode hfirst =>
      have hrest : (strtol 10 text).rest ≠ [] := by
        intro hrest
        obtain ⟨parts, htext⟩ := strtol_rest hne hrest
        exact hnumber parts htext
      rw [parseType, if_neg hne, if_neg (Bool.eq_false_iff.mp hsign), if_pos hrest,
        typeFind_iff.mpr ⟨hle, hcode, hfirst⟩]

end Told

end OpenDmi

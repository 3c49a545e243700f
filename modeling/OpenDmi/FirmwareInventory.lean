import OpenDmi.BitStream
import OpenDmi.Numeral

namespace OpenDmi

open Bytes Numeral

/-- What is left to read from the beginning of a string, of which the terminator is the last. -/
def CString.pointer (str : CString) : List Byte := str.bytes ++ [0]

inductive FirmwareVersionFormat
  | free | semantic | hex32 | hex64 | other
  deriving DecidableEq

inductive FirmwareIdentFormat
  | free | guid | other
  deriving DecidableEq

structure FirmwareVersion where
  format : FirmwareVersionFormat
  major : ℕ
  minor : ℕ
  value : ℕ

structure Uuid where
  bytes : List Byte
  size : bytes.length = 16

structure FirmwareIdent where
  format : FirmwareIdentFormat
  guid : Uuid

def firmwareHexDigit (c : Byte) : Option ℕ :=
  if 0x30 ≤ c ∧ c ≤ 0x39 then some (c.toNat - 0x30)
  else if 0x61 ≤ c ∧ c ≤ 0x66 then some (c.toNat - 0x61 + 10)
  else if 0x41 ≤ c ∧ c ≤ 0x46 then some (c.toNat - 0x41 + 10)
  else none

def IsDecimalDigit (c : Byte) : Prop := 0x30 ≤ c ∧ c ≤ 0x39

instance (c : Byte) : Decidable (IsDecimalDigit c) := inferInstanceAs (Decidable (_ ∧ _))

def firmwareParseDigits : List Byte → ℕ → Option (Option (List Byte × ℕ))
  | [], _ => none
  | c :: str, rv =>
    if IsDecimalDigit c then
      let rv := rv * 10 + (c.toNat - 0x30)
      if rv > 2 ^ 32 - 1 then some none else firmwareParseDigits str rv
    else some (some (c :: str, rv))

def firmwareParseDecimal : List Byte → Option (Option (List Byte × ℕ))
  | [] => none
  | c :: str => if c < 0x30 ∨ c > 0x39 then some none else firmwareParseDigits (c :: str) 0

def firmwareParseHexDigits (maxDigits : ℕ) : List Byte → ℕ → ℕ → Option (Option (ℕ × ℕ))
  | [], _, _ => none
  | c :: str, count, rv =>
    if c = 0 then some (some (count, rv))
    else match firmwareHexDigit c with
      | none => some none
      | some digit =>
        if count ≥ maxDigits then some none
        else firmwareParseHexDigits maxDigits str (count + 1) (((rv <<< 4) ||| digit) % 2 ^ 64)

def firmwareParseHex (maxDigits : ℕ) : List Byte → Option (Option ℕ)
  | [] => none
  | c :: str =>
    if c ≠ 0x30 then some none
    else match str with
      | [] => none
      | x :: str =>
        if x ≠ 0x78 ∧ x ≠ 0x58 then some none
        else match firmwareParseHexDigits maxDigits str 0 0 with
          | none => none
          | some none => some none
          | some (some (count, rv)) => some (if count = 0 then none else some rv)

def firmwareParseSemantic (version : FirmwareVersion) (str : List Byte) : Option FirmwareVersion :=
  match firmwareParseDecimal str with
  | none => none
  | some none => some version
  | some (some (str, major)) =>
    let version := { version with major := major }
    match str with
    | [] => none
    | c :: str =>
      if c ≠ 0x2E then some version
      else match firmwareParseDecimal str with
        | none => none
        | some none => some version
        | some (some (str, minor)) =>
          let version := { version with minor := minor }
          match str with
          | [] => none
          | c :: _ => some (if c = 0 then { version with format := .semantic } else version)

def firmwareParseHexVersion (format : FirmwareVersionFormat) (maxDigits : ℕ)
    (version : FirmwareVersion) (str : List Byte) : Option FirmwareVersion :=
  match firmwareParseHex maxDigits str with
  | none => none
  | some none => some version
  | some (some value) => some { version with value := value, format := format }

def firmwareVersionParse (str : Option CString) (format : FirmwareVersionFormat)
    (version : FirmwareVersion) : Option FirmwareVersion :=
  let version := { version with format := .free }
  match str with
  | none => some version
  | some str => match format with
    | .semantic => firmwareParseSemantic version str.pointer
    | .hex32 => firmwareParseHexVersion .hex32 8 version str.pointer
    | .hex64 => firmwareParseHexVersion .hex64 16 version str.pointer
    | _ => some version

def guidPut (guid : List Byte) (count digit : ℕ) : List Byte :=
  if count % 2 = 0 then guid.set (count / 2) (UInt8.ofNat (digit <<< 4))
  else guid.set (count / 2) (guid.getD (count / 2) 0 ||| UInt8.ofNat digit)

def guidHyphen (i : ℕ) : Bool := i == 8 || i == 13 || i == 18 || i == 23

def firmwareParseGuid : List Byte → ℕ → ℕ → List Byte → Option (Option ℕ × List Byte)
  | [], _, _, _ => none
  | c :: str, i, count, guid =>
    if c = 0 then some (some count, guid)
    else if guidHyphen i then
      if c ≠ 0x2D then some (none, guid) else firmwareParseGuid str (i + 1) count guid
    else match firmwareHexDigit c with
      | none => some (none, guid)
      | some digit =>
        if count ≥ 32 then some (none, guid)
        else firmwareParseGuid str (i + 1) (count + 1) (guidPut guid count digit)

lemma guidPut_length (guid : List Byte) (count digit : ℕ) :
    (guidPut guid count digit).length = guid.length := by
  rw [guidPut]
  split_ifs <;> rw [List.length_set]

lemma firmwareParseGuid_length {str guid guid' : List Byte} {i count : ℕ} {result : Option ℕ}
    (h : firmwareParseGuid str i count guid = some (result, guid')) :
    guid'.length = guid.length := by
  induction str, i, count, guid using firmwareParseGuid.induct with
  | case1 i count guid => cases h
  | case2 str i count guid =>
    rw [firmwareParseGuid, if_pos rfl] at h
    cases h
    rfl
  | case3 c str i count guid hzero hhyphen hother =>
    rw [firmwareParseGuid, if_neg hzero, if_pos hhyphen, if_pos hother] at h
    cases h
    rfl
  | case4 c str i count guid hzero hhyphen hother ih =>
    rw [firmwareParseGuid, if_neg hzero, if_pos hhyphen, if_neg hother] at h
    exact ih h
  | case5 c str i count guid hzero hhyphen hdigit =>
    rw [firmwareParseGuid, if_neg hzero, if_neg hhyphen, hdigit] at h
    cases h
    rfl
  | case6 c str i count guid hzero hhyphen digit hdigit hfull =>
    rw [firmwareParseGuid, if_neg hzero, if_neg hhyphen, hdigit] at h
    simp only [if_pos hfull, Option.some.injEq, Prod.mk.injEq] at h
    rw [← h.2]
  | case7 c str i count guid hzero hhyphen digit hdigit hroom ih =>
    rw [firmwareParseGuid, if_neg hzero, if_neg hhyphen, hdigit] at h
    simp only [if_neg hroom] at h
    rw [ih h, guidPut_length]

def firmwareIdentParse (str : Option CString) (format : FirmwareIdentFormat)
    (ident : FirmwareIdent) : Option FirmwareIdent :=
  let ident := { ident with format := .free }
  match str with
  | none => some ident
  | some str =>
    if format ≠ .guid then some ident
    else match h : firmwareParseGuid str.pointer 0 0 ident.guid.bytes with
      | none => none
      | some (count, guid) => some
        { format := if count = some 32 then .guid else .free
          guid := ⟨guid, (firmwareParseGuid_length h).trans ident.guid.size⟩ }

def dmiNtoh (size n : ℕ) : ℕ := leLoad (leStore size n).reverse

def hexTextPadded (width n : ℕ) : List Byte := (pad width (numeral 16 n)).map upper

def attributeFormatUuid (uuid : Uuid) : List Byte :=
  let field (offset size : ℕ) := dmiNtoh size (leLoad (window uuid.bytes offset size))
  let byte (offset : ℕ) := hexTextPadded 2 (uuid.bytes.getD offset 0).toNat
  hexTextPadded 8 (field 0 4) ++ [0x2D] ++ hexTextPadded 4 (field 4 2) ++ [0x2D] ++
    hexTextPadded 4 (field 6 2) ++ [0x2D] ++ (byte 8 ++ byte 9) ++ [0x2D] ++
    (byte 10 ++ byte 11 ++ byte 12 ++ byte 13 ++ byte 14 ++ byte 15)

def DecimalText (text : List Byte) (n : ℕ) : Prop :=
  ∃ digits, digits ≠ [] ∧ (∀ d ∈ digits, d < 10) ∧ text = digits.map lower ∧ n = value 10 digits

def SemanticText (text : List Byte) (major minor : ℕ) : Prop :=
  ∃ left right, text = left ++ 0x2E :: right ∧ DecimalText left major ∧ DecimalText right minor ∧
    major < 2 ^ 32 ∧ minor < 2 ^ 32

def HexText (maxDigits : ℕ) (text : List Byte) (n : ℕ) : Prop :=
  ∃ x chars digits, text = 0x30 :: x :: chars ∧ (x = 0x78 ∨ x = 0x58) ∧
    chars.mapM digitOf = some digits ∧ 1 ≤ digits.length ∧ digits.length ≤ maxDigits ∧
    n = value 16 digits

def guidLayout (chars : List Byte) : List Byte :=
  window chars 0 8 ++ [0x2D] ++ window chars 8 4 ++ [0x2D] ++ window chars 12 4 ++ [0x2D] ++
    window chars 16 4 ++ [0x2D] ++ window chars 20 12

def GuidText (text : List Byte) (digits : List ℕ) : Prop :=
  ∃ chars, chars.map digitOf = digits.map some ∧ digits.length = 32 ∧ text = guidLayout chars

def digitBytes : List ℕ → List Byte
  | high :: low :: digits => UInt8.ofNat (high * 16 + low) :: digitBytes digits
  | _ => []

lemma firmwareHexDigit_eq (c : Byte) : firmwareHexDigit c = digitOf c := rfl

lemma CString.zero_mem (str : CString) : 0 ∈ str.pointer := by simp [CString.pointer]

lemma append_zero_inj {bytes text rest : List Byte} (h : 0 ∉ bytes) (htext : 0 ∉ text)
    (heq : bytes ++ [0] = text ++ 0 :: rest) : bytes = text := by
  induction bytes generalizing text with
  | nil =>
    cases text with
    | nil => rfl
    | cons c text =>
      rw [List.nil_append, List.cons_append, List.cons.injEq] at heq
      exact (htext (by rw [← heq.1]; exact List.mem_cons_self)).elim
  | cons b bytes ih =>
    rw [List.mem_cons, not_or] at h
    cases text with
    | nil =>
      rw [List.nil_append, List.cons_append, List.cons.injEq] at heq
      exact (h.1 heq.1.symm).elim
    | cons c text =>
      rw [List.mem_cons, not_or] at htext
      rw [List.cons_append, List.cons_append, List.cons.injEq] at heq
      rw [heq.1, ih h.2 htext.2 heq.2]

section Decimal

lemma lower_isDecimalDigit {d : ℕ} (h : d < 10) :
    IsDecimalDigit (lower d) ∧ (lower d).toNat - 0x30 = d := by
  have hall : ∀ d < 10, IsDecimalDigit (lower d) ∧ (lower d).toNat - 0x30 = d := by decide
  exact hall d h

lemma IsDecimalDigit.eq_lower {c : Byte} : IsDecimalDigit c → ∃ d < 10, c = lower d := by
  apply forall_byte (P := fun c => IsDecimalDigit c → ∃ d < 10, c = lower d)
  decide +kernel

lemma exists_decimalDigits {str : List Byte} (h : 0 ∈ str) :
    ∃ (digits : List ℕ) (c : Byte) (rest : List Byte), (∀ d ∈ digits, d < 10) ∧ ¬IsDecimalDigit c ∧
      str = digits.map lower ++ c :: rest := by
  induction str with
  | nil => cases h
  | cons b str ih =>
    by_cases hb : IsDecimalDigit b
    · have hzero : 0 ∈ str := by
        rcases List.mem_cons.mp h with rfl | hmem
        · exact absurd hb (by decide)
        · exact hmem
      obtain ⟨d, hd, rfl⟩ := hb.eq_lower
      obtain ⟨digits, c, rest, hdigits, hc, rfl⟩ := ih hzero
      exact ⟨d :: digits, c, rest, List.forall_mem_cons.mpr ⟨hd, hdigits⟩, hc, rfl⟩
    · refine ⟨[], b, str, ?_, hb, rfl⟩
      intro d hmem
      cases hmem

lemma firmwareParseDigits_eq (digits : List ℕ) (rv : ℕ) {c : Byte} (rest : List Byte)
    (hdigits : ∀ d ∈ digits, d < 10) (hc : ¬IsDecimalDigit c) (hrv : rv < 2 ^ 32) :
    firmwareParseDigits (digits.map lower ++ c :: rest) rv =
      some (if rv * 10 ^ digits.length + value 10 digits < 2 ^ 32 then
        some (c :: rest, rv * 10 ^ digits.length + value 10 digits) else none) := by
  induction digits generalizing rv with
  | nil =>
    rw [List.map_nil, List.nil_append, firmwareParseDigits, if_neg hc]
    simp only [List.length_nil, pow_zero, Nat.mul_one, value_nil, Nat.add_zero, if_pos hrv]
  | cons d digits ih =>
    rw [List.forall_mem_cons] at hdigits
    obtain ⟨hdecimal, hvalue⟩ := lower_isDecimalDigit hdigits.1
    have htotal : rv * 10 ^ (d :: digits).length + value 10 (d :: digits) =
        (rv * 10 + d) * 10 ^ digits.length + value 10 digits := by
      rw [← List.singleton_append, value_append, value_singleton, List.length_append,
        List.length_singleton, pow_add, pow_one]
      ring
    rw [List.map_cons, List.cons_append, firmwareParseDigits, if_pos hdecimal, hvalue, htotal]
    simp only
    split_ifs with hbig hfits hfits
    · have hle : rv * 10 + d ≤ (rv * 10 + d) * 10 ^ digits.length :=
        Nat.le_mul_of_pos_right _ (by positivity)
      omega
    · rfl
    · rw [ih (rv * 10 + d) hdigits.2 (by omega), if_pos hfits]
    · rw [ih (rv * 10 + d) hdigits.2 (by omega), if_neg hfits]

lemma firmwareParseDecimal_eq (digits : List ℕ) {c : Byte} (rest : List Byte)
    (hdigits : ∀ d ∈ digits, d < 10) (hc : ¬IsDecimalDigit c) :
    firmwareParseDecimal (digits.map lower ++ c :: rest) =
      some (if digits ≠ [] ∧ value 10 digits < 2 ^ 32 then some (c :: rest, value 10 digits)
        else none) := by
  have hnot : ∀ b : Byte, (b < 0x30 ∨ b > 0x39) ↔ ¬IsDecimalDigit b := by
    intro b
    rw [IsDecimalDigit, not_and_or, UInt8.not_le, UInt8.not_le]
  cases digits with
  | nil =>
    rw [List.map_nil, List.nil_append, firmwareParseDecimal, if_pos ((hnot c).mpr hc), if_neg]
    exact fun h => h.1 rfl
  | cons d digits =>
    have hdecimal := (lower_isDecimalDigit (hdigits d List.mem_cons_self)).1
    have hscan := firmwareParseDigits_eq (d :: digits) 0 rest hdigits hc (by omega)
    rw [Nat.zero_mul, Nat.zero_add, List.map_cons, List.cons_append] at hscan
    rw [List.map_cons, List.cons_append, firmwareParseDecimal,
      if_neg (fun h => (hnot _).mp h hdecimal), hscan]
    simp

end Decimal

section Semantic

variable {version : FirmwareVersion} {str : CString} {major minor : ℕ}

lemma firmwareParseSemantic_text (h : SemanticText str.bytes major minor) :
    firmwareParseSemantic version str.pointer =
      some { version with major := major, minor := minor, format := .semantic } := by
  obtain ⟨_, _, htext, ⟨left, hleft, hleftDigits, rfl, rfl⟩, ⟨right, hright, hrightDigits, rfl, rfl⟩,
    hmajor, hminor⟩ := h
  have hpointer : str.pointer = left.map lower ++ 0x2E :: (right.map lower ++ 0 :: []) := by
    rw [CString.pointer, htext, List.append_assoc, List.cons_append]
  rw [firmwareParseSemantic, hpointer,
    firmwareParseDecimal_eq left _ hleftDigits (by decide), if_pos ⟨hleft, hmajor⟩]
  simp only [ne_eq, not_true_eq_false, if_false]
  rw [firmwareParseDecimal_eq right _ hrightDigits (by decide), if_pos ⟨hright, hminor⟩]
  simp only [if_true]

lemma zero_not_mem_lower {digits : List ℕ} (h : ∀ d ∈ digits, d < 10) : 0 ∉ digits.map lower := by
  intro hmem
  obtain ⟨d, hd, hzero⟩ := List.mem_map.mp hmem
  have hdecimal := (lower_isDecimalDigit (h d hd)).1
  rw [hzero] at hdecimal
  exact absurd hdecimal (by decide)

lemma firmwareParseSemantic_total (hfree : version.format = .free) (str : CString) :
    ∃ parsed, firmwareParseSemantic version str.pointer = some parsed ∧
      (parsed.format = .semantic → ∃ major minor, SemanticText str.bytes major minor) := by
  have hnot : version.format = .semantic → ∃ major minor, SemanticText str.bytes major minor := by
    intro hsemantic
    rw [hfree] at hsemantic
    cases hsemantic
  obtain ⟨left, c, rest, hleft, hc, hpointer⟩ := exists_decimalDigits str.zero_mem
  rw [firmwareParseSemantic, hpointer, firmwareParseDecimal_eq left rest hleft hc]
  split_ifs with hmajor
  · by_cases hdot : c = 0x2E
    · have hzero : 0 ∈ rest := by
        have hmem := str.zero_mem
        rw [hpointer, List.mem_append, List.mem_cons] at hmem
        obtain hmem | rfl | hmem := hmem
        · exact absurd hmem (zero_not_mem_lower hleft)
        · cases hdot
        · exact hmem
      obtain ⟨right, d, tail, hright, hd, rfl⟩ := exists_decimalDigits hzero
      simp only [hdot, ne_eq, not_true_eq_false, if_false]
      rw [firmwareParseDecimal_eq right tail hright hd]
      split_ifs with hminor
      · by_cases hend : d = 0
        · simp only [hend, if_true]
          refine ⟨_, rfl, fun _ => ⟨value 10 left, value 10 right, left.map lower,
            right.map lower, ?_, ⟨left, hmajor.1, hleft, rfl, rfl⟩,
            ⟨right, hminor.1, hright, rfl, rfl⟩, hmajor.2, hminor.2⟩⟩
          have htext : str.bytes ++ [0] = (left.map lower ++ 0x2E :: right.map lower) ++
              0 :: tail := by
            rw [hdot, hend] at hpointer
            rw [List.append_assoc, List.cons_append]
            exact hpointer
          apply append_zero_inj str.noZero _ htext
          rw [List.mem_append, List.mem_cons, not_or, not_or]
          exact ⟨zero_not_mem_lower hleft, by decide, zero_not_mem_lower hright⟩
        · simp only [hend, if_false]
          exact ⟨_, rfl, hnot⟩
      · exact ⟨_, rfl, hnot⟩
    · simp only [ne_eq, hdot, not_false_eq_true, if_true]
      exact ⟨_, rfl, hnot⟩
  · exact ⟨_, rfl, hnot⟩

end Semantic

section Hexadecimal

variable {maxDigits : ℕ} {str : CString}

lemma digitOf_ne_zero {c : Byte} {d : ℕ} (h : digitOf c = some d) : c ≠ 0 := by
  rintro rfl
  cases h

lemma zero_not_mem_of_mapM {chars : List Byte} {digits : List ℕ}
    (h : chars.mapM digitOf = some digits) : 0 ∉ chars := by
  induction chars generalizing digits with
  | nil => exact List.not_mem_nil
  | cons c chars ih =>
    rw [List.mapM_cons] at h
    obtain ⟨d, hd, hrest⟩ := Option.bind_eq_some_iff.mp h
    obtain ⟨rest, hchars, -⟩ := Option.bind_eq_some_iff.mp hrest
    rw [List.mem_cons, not_or]
    exact ⟨(digitOf_ne_zero hd).symm, ih hchars⟩

lemma shiftLeft_four_or {rv d n : ℕ} (hrv : rv < 16 ^ n) (hn : n < 16) (hd : d < 16) :
    ((rv <<< 4) ||| d) % 2 ^ 64 = rv * 16 + d ∧ rv * 16 + d < 16 ^ (n + 1) := by
  have hpow : 16 ^ (n + 1) ≤ 16 ^ 16 := Nat.pow_le_pow_right (by omega) hn
  have hlt : rv * 16 + d < 16 ^ (n + 1) := by
    rw [pow_succ]
    omega
  have hor : rv <<< 4 ||| d = rv * 16 + d := by
    rw [← Nat.shiftLeft_add_eq_or_of_lt hd, Nat.shiftLeft_eq]
  have hsize : 16 ^ 16 = 2 ^ 64 := by norm_num
  rw [hor, Nat.mod_eq_of_lt (by omega)]
  exact ⟨rfl, hlt⟩

lemma firmwareParseHexDigits_eq {chars rest : List Byte} {digits : List ℕ} {count rv : ℕ}
    (hmax : maxDigits ≤ 16) (hdigits : chars.mapM digitOf = some digits)
    (hcount : count + digits.length ≤ maxDigits) (hrv : rv < 16 ^ count) :
    firmwareParseHexDigits maxDigits (chars ++ 0 :: rest) count rv =
      some (some (count + digits.length, rv * 16 ^ digits.length + value 16 digits)) := by
  induction chars generalizing digits count rv with
  | nil =>
    obtain rfl := Option.some.inj hdigits
    rw [List.nil_append, firmwareParseHexDigits, if_pos rfl]
    simp
  | cons c chars ih =>
    rw [List.mapM_cons] at hdigits
    obtain ⟨d, hd, hrest⟩ := Option.bind_eq_some_iff.mp hdigits
    obtain ⟨tail, htail, heq⟩ := Option.bind_eq_some_iff.mp hrest
    obtain rfl := Option.some.inj heq
    rw [List.length_cons] at hcount
    obtain ⟨hpush, hlt⟩ := shiftLeft_four_or hrv (by omega) (digitOf_lt hd)
    have htotal : (rv * 16 + d) * 16 ^ tail.length + value 16 tail =
        rv * 16 ^ (d :: tail).length + value 16 (d :: tail) := by
      rw [← List.singleton_append, value_append, value_singleton, List.length_append,
        List.length_singleton, pow_add, pow_one]
      ring
    have hlength : count + 1 + tail.length = count + (d :: tail).length := by
      rw [List.length_cons]
      omega
    rw [List.cons_append, firmwareParseHexDigits, if_neg (digitOf_ne_zero hd), firmwareHexDigit_eq,
      hd]
    simp only
    rw [if_neg (by omega), hpush, ih htail (by omega) hlt, htotal, hlength]

lemma firmwareParseHexDigits_total {chars : List Byte} (count rv : ℕ) (h : 0 ∈ chars)
    (hcount : count ≤ maxDigits) :
    ∃ result, firmwareParseHexDigits maxDigits chars count rv = some result ∧
      ∀ n v, result = some (n, v) → ∃ text digits rest, chars = text ++ 0 :: rest ∧
        text.mapM digitOf = some digits ∧ n = count + digits.length ∧ n ≤ maxDigits := by
  induction chars generalizing count rv with
  | nil => cases h
  | cons c chars ih =>
    rw [firmwareParseHexDigits]
    by_cases hzero : c = 0
    · rw [if_pos hzero]
      refine ⟨_, rfl, fun n v heq => ?_⟩
      obtain ⟨rfl, rfl⟩ := Prod.mk.inj (Option.some.inj heq)
      exact ⟨[], [], chars, by rw [hzero]; rfl, rfl, rfl, hcount⟩
    · have hmem : 0 ∈ chars := (List.mem_cons.mp h).resolve_left (Ne.symm hzero)
      rw [if_neg hzero, firmwareHexDigit_eq]
      cases hd : digitOf c with
      | none => exact ⟨none, rfl, fun n v heq => by cases heq⟩
      | some d =>
        simp only
        by_cases hfull : count ≥ maxDigits
        · rw [if_pos hfull]
          exact ⟨none, rfl, fun n v heq => by cases heq⟩
        · rw [if_neg hfull]
          obtain ⟨result, hresult, hspec⟩ :=
            ih (count + 1) (((rv <<< 4) ||| d) % 2 ^ 64) hmem (by omega)
          refine ⟨result, hresult, fun n v heq => ?_⟩
          obtain ⟨text, digits, rest, rfl, hdigits, hn, hle⟩ := hspec n v heq
          refine ⟨c :: text, d :: digits, rest, rfl, ?_, ?_, hle⟩
          · rw [List.mapM_cons, hd, hdigits]
            rfl
          · rw [hn, List.length_cons]
            omega

lemma firmwareParseHex_text {n : ℕ} (hmax : maxDigits ≤ 16) (h : HexText maxDigits str.bytes n) :
    firmwareParseHex maxDigits str.pointer = some (some n) := by
  obtain ⟨x, chars, digits, htext, hx, hdigits, hpos, hle, rfl⟩ := h
  have hpointer : str.pointer = 0x30 :: x :: (chars ++ 0 :: []) := by
    rw [CString.pointer, htext]
    rfl
  have hprefixed : ¬(x ≠ 0x78 ∧ x ≠ 0x58) := by
    rintro ⟨hsmall, hcapital⟩
    exact hx.elim hsmall hcapital
  have hscan : firmwareParseHexDigits maxDigits (chars ++ 0 :: []) 0 0 =
      some (some (0 + digits.length, 0 * 16 ^ digits.length + value 16 digits)) :=
    firmwareParseHexDigits_eq hmax hdigits (by omega) (by omega)
  rw [hpointer, firmwareParseHex, if_neg (fun hne => hne rfl), if_neg hprefixed, hscan]
  simp only
  rw [if_neg (by omega), Nat.zero_mul, Nat.zero_add]

lemma firmwareParseHex_total (maxDigits : ℕ) (str : CString) :
    ∃ result, firmwareParseHex maxDigits str.pointer = some result ∧
      (result.isSome = true → ∃ n, HexText maxDigits str.bytes n) := by
  have hmem := str.zero_mem
  cases hpointer : str.pointer with
  | nil =>
    rw [hpointer] at hmem
    cases hmem
  | cons c rest =>
    rw [hpointer] at hmem
    by_cases hc : c = 0x30
    · subst hc
      have hrest : 0 ∈ rest := (List.mem_cons.mp hmem).resolve_left (by decide)
      cases rest with
      | nil => cases hrest
      | cons x chars =>
        rw [firmwareParseHex, if_neg (fun hne => hne rfl)]
        by_cases hx : x ≠ 0x78 ∧ x ≠ 0x58
        · rw [if_pos hx]
          exact ⟨none, rfl, fun h => by cases h⟩
        · have hxne : x ≠ 0 := by
            rintro rfl
            exact hx ⟨by decide, by decide⟩
          have hchars : 0 ∈ chars := (List.mem_cons.mp hrest).resolve_left (Ne.symm hxne)
          obtain ⟨result, hresult, hspec⟩ :=
            firmwareParseHexDigits_total 0 0 hchars (Nat.zero_le maxDigits)
          rw [if_neg hx, hresult]
          cases result with
          | none => exact ⟨none, rfl, fun h => by cases h⟩
          | some result =>
            obtain ⟨count, rv⟩ := result
            refine ⟨_, rfl, fun hsome => ?_⟩
            obtain ⟨text, digits, tail, hsplit, hdigits, hcount, hle⟩ := hspec count rv rfl
            have hpos : count ≠ 0 := by
              intro hzero
              rw [if_pos hzero] at hsome
              cases hsome
            refine ⟨value 16 digits, x, text, digits, ?_, ?_, hdigits, by omega, by omega, rfl⟩
            · have htext : str.bytes ++ [0] = (0x30 :: x :: text) ++ 0 :: tail := by
                rw [List.cons_append, List.cons_append, ← hsplit]
                exact hpointer
              apply append_zero_inj str.noZero _ htext
              rw [List.mem_cons, List.mem_cons, not_or, not_or]
              exact ⟨by decide, hxne.symm, zero_not_mem_of_mapM hdigits⟩
            · by_contra hneither
              exact hx (not_or.mp hneither)
    · cases rest <;>
      · rw [firmwareParseHex, if_pos hc]
        exact ⟨none, rfl, fun h => by cases h⟩

lemma firmwareParseHexVersion_exact {format : FirmwareVersionFormat} {version : FirmwareVersion}
    (hmax : maxDigits ≤ 16) (hformat : version.format ≠ format) (str : CString) :
    ∃ parsed, firmwareParseHexVersion format maxDigits version str.pointer = some parsed ∧
      (parsed.format = format ↔ ∃ n, HexText maxDigits str.bytes n) ∧
      ∀ n, HexText maxDigits str.bytes n → parsed.value = n := by
  obtain ⟨result, hresult, hspec⟩ := firmwareParseHex_total maxDigits str
  have htext : ∀ n, HexText maxDigits str.bytes n → result = some n := by
    intro n h
    rw [firmwareParseHex_text hmax h] at hresult
    exact (Option.some.inj hresult).symm
  rw [firmwareParseHexVersion, hresult]
  cases result with
  | none =>
    refine ⟨version, rfl, ⟨fun h => (hformat h).elim, ?_⟩, ?_⟩
    · rintro ⟨n, h⟩
      cases htext n h
    · intro n h
      cases htext n h
  | some value =>
    refine ⟨_, rfl, ⟨fun _ => hspec rfl, fun _ => rfl⟩, ?_⟩
    intro n h
    exact Option.some.inj (htext n h)

end Hexadecimal

section Guid

variable {i count : ℕ} {text guid : List Byte} {digits : List ℕ}

inductive GuidSpelled : ℕ → List Byte → List ℕ → Prop
  | nil {i : ℕ} : GuidSpelled i [] []
  | hyphen {i : ℕ} {text : List Byte} {digits : List ℕ} (here : guidHyphen i = true)
      (rest : GuidSpelled (i + 1) text digits) : GuidSpelled i (0x2D :: text) digits
  | digit {i : ℕ} {c : Byte} {d : ℕ} {text : List Byte} {digits : List ℕ}
      (here : guidHyphen i = false) (value : digitOf c = some d)
      (rest : GuidSpelled (i + 1) text digits) : GuidSpelled i (c :: text) (d :: digits)

def guidPuts (guid : List Byte) : ℕ → List ℕ → List Byte
  | _, [] => guid
  | count, d :: digits => guidPuts (guidPut guid count d) (count + 1) digits

lemma GuidSpelled.zero_not_mem (h : GuidSpelled i text digits) : 0 ∉ text := by
  induction h with
  | nil => exact List.not_mem_nil
  | hyphen _ _ ih =>
    rw [List.mem_cons, not_or]
    exact ⟨by decide, ih⟩
  | digit _ hvalue _ ih =>
    rw [List.mem_cons, not_or]
    exact ⟨(digitOf_ne_zero hvalue).symm, ih⟩

lemma firmwareParseGuid_spelled (h : GuidSpelled i text digits)
    (hcount : count + digits.length ≤ 32) (rest : List Byte) :
    firmwareParseGuid (text ++ 0 :: rest) i count guid =
      some (some (count + digits.length), guidPuts guid count digits) := by
  induction h generalizing count guid with
  | nil =>
    rw [List.nil_append, firmwareParseGuid, if_pos rfl]
    rfl
  | hyphen here _ ih =>
    rw [List.cons_append, firmwareParseGuid, if_neg (by decide), if_pos here,
      if_neg (fun hne => hne rfl), ih hcount]
  | @digit i c d text digits here hvalue _ ih =>
    rw [List.length_cons] at hcount
    have hlength : count + 1 + digits.length = count + (d :: digits).length := by
      rw [List.length_cons]
      omega
    rw [List.cons_append, firmwareParseGuid, if_neg (digitOf_ne_zero hvalue), if_neg (by simp [here]),
      firmwareHexDigit_eq, hvalue]
    simp only
    rw [if_neg (by omega), ih (by omega), hlength]
    rfl

lemma firmwareParseGuid_total {str : List Byte} (h : 0 ∈ str) (i count : ℕ) (guid : List Byte) :
    ∃ result guid', firmwareParseGuid str i count guid = some (result, guid') ∧
      ∀ n, result = some n → ∃ text digits rest, str = text ++ 0 :: rest ∧
        GuidSpelled i text digits ∧ n = count + digits.length := by
  induction str generalizing i count guid with
  | nil => cases h
  | cons c str ih =>
    rw [firmwareParseGuid]
    by_cases hzero : c = 0
    · rw [if_pos hzero]
      refine ⟨_, _, rfl, fun n heq => ⟨[], [], str, by rw [hzero]; rfl, .nil, ?_⟩⟩
      rw [List.length_nil]
      exact (Option.some.inj heq).symm
    · have hmem : 0 ∈ str := (List.mem_cons.mp h).resolve_left (Ne.symm hzero)
      rw [if_neg hzero]
      cases hhere : guidHyphen i with
      | true =>
        simp only [if_true]
        by_cases hc : c = 0x2D
        · subst hc
          obtain ⟨result, guid', hresult, hspec⟩ := ih hmem (i + 1) count guid
          rw [if_neg (fun hne => hne rfl)]
          refine ⟨result, guid', hresult, fun n heq => ?_⟩
          obtain ⟨text, digits, rest, rfl, hspelled, hn⟩ := hspec n heq
          exact ⟨0x2D :: text, digits, rest, rfl, .hyphen hhere hspelled, hn⟩
        · rw [if_pos hc]
          exact ⟨none, guid, rfl, fun n heq => by cases heq⟩
      | false =>
        simp only [Bool.false_eq_true, if_false, firmwareHexDigit_eq]
        cases hvalue : digitOf c with
        | none => exact ⟨none, guid, rfl, fun n heq => by cases heq⟩
        | some d =>
          simp only
          by_cases hfull : count ≥ 32
          · rw [if_pos hfull]
            exact ⟨none, guid, rfl, fun n heq => by cases heq⟩
          · obtain ⟨result, guid', hresult, hspec⟩ := ih hmem (i + 1) (count + 1) (guidPut guid count d)
            rw [if_neg hfull]
            refine ⟨result, guid', hresult, fun n heq => ?_⟩
            obtain ⟨text, digits, rest, rfl, hspelled, hn⟩ := hspec n heq
            refine ⟨c :: text, d :: digits, rest, rfl, .digit hhere hvalue hspelled, ?_⟩
            rw [hn, List.length_cons]
            omega

def hyphensBelow (n : ℕ) : ℕ :=
  (if 8 < n then 1 else 0) + (if 13 < n then 1 else 0) + (if 18 < n then 1 else 0) +
    (if 23 < n then 1 else 0)

lemma below_succ (k n : ℕ) : (if k < n + 1 then 1 else 0) =
    (if k < n then 1 else 0) + if n = k then 1 else 0 := by
  split_ifs <;> omega

lemma guidHyphen_count (n : ℕ) : (if guidHyphen n = true then 1 else 0) =
    (if n = 8 then 1 else 0) + (if n = 13 then 1 else 0) + (if n = 18 then 1 else 0) +
      if n = 23 then 1 else 0 := by
  by_cases hhyphen : n ∈ [8, 13, 18, 23]
  · revert n
    decide
  · simp only [List.mem_cons, List.not_mem_nil, or_false, not_or] at hhyphen
    obtain ⟨h8, h13, h18, h23⟩ := hhyphen
    simp [guidHyphen, h8, h13, h18, h23]

lemma hyphensBelow_succ (n : ℕ) :
    hyphensBelow (n + 1) = hyphensBelow n + if guidHyphen n = true then 1 else 0 := by
  rw [guidHyphen_count]
  simp only [hyphensBelow, below_succ]
  ring

lemma hyphensBelow_all {n : ℕ} (h : 23 < n) : hyphensBelow n = 4 := by
  rw [hyphensBelow, if_pos (by omega), if_pos (by omega), if_pos (by omega), if_pos h]

lemma GuidSpelled.length_eq (h : GuidSpelled i text digits) :
    digits.length + hyphensBelow (i + text.length) = text.length + hyphensBelow i := by
  induction h with
  | nil => rfl
  | @hyphen i text digits here _ ih =>
    have hstep := hyphensBelow_succ i
    rw [if_pos here] at hstep
    have hindex : i + (0x2D :: text).length = i + 1 + text.length := by
      rw [List.length_cons]
      omega
    rw [hindex, List.length_cons]
    omega
  | @digit i c d text digits here _ _ ih =>
    have hstep := hyphensBelow_succ i
    rw [if_neg (by simp [here])] at hstep
    have hindex : i + (c :: text).length = i + 1 + text.length := by
      rw [List.length_cons]
      omega
    rw [hindex, List.length_cons, List.length_cons]
    omega

lemma GuidSpelled.length_text (h : GuidSpelled 0 text digits) (hdigits : digits.length = 32) :
    text.length = 36 := by
  have hlength := h.length_eq
  have hzero : hyphensBelow 0 = 0 := rfl
  rw [Nat.zero_add, hdigits, hzero] at hlength
  have hall := hyphensBelow_all (show 23 < text.length by omega)
  omega

lemma GuidSpelled.group (n : ℕ) (h : GuidSpelled i text digits) (hn : n ≤ text.length)
    (hhyphen : ∀ k < n, guidHyphen (i + k) = false) :
    ∃ chars rest ds tail, text = chars ++ rest ∧ chars.length = n ∧
      chars.map digitOf = ds.map some ∧ digits = ds ++ tail ∧ GuidSpelled (i + n) rest tail := by
  induction n generalizing i text digits with
  | zero => exact ⟨[], text, [], digits, rfl, rfl, rfl, rfl, h⟩
  | succ n ih =>
    cases h with
    | nil => cases hn
    | hyphen here _ =>
      rw [← Nat.add_zero i, hhyphen 0 (by omega)] at here
      cases here
    | @digit _ c d text digits here hvalue rest =>
      obtain ⟨chars, tail, ds, more, rfl, hlength, hvalues, rfl, hspelled⟩ :=
        ih rest (Nat.le_of_succ_le_succ hn) (fun k hk => by
          have hnext := hhyphen (k + 1) (by omega)
          rwa [← Nat.add_assoc, Nat.add_right_comm] at hnext)
      refine ⟨c :: chars, tail, d :: ds, more, rfl, by rw [List.length_cons, hlength], ?_, rfl, ?_⟩
      · rw [List.map_cons, List.map_cons, hvalue, hvalues]
      · rwa [Nat.add_right_comm] at hspelled

lemma GuidSpelled.hyphen_inv (h : GuidSpelled i text digits) (hne : text ≠ [])
    (hhyphen : guidHyphen i = true) : ∃ rest, text = 0x2D :: rest ∧ GuidSpelled (i + 1) rest digits := by
  cases h with
  | nil => exact (hne rfl).elim
  | hyphen _ rest => exact ⟨_, rfl, rest⟩
  | digit here =>
    rw [hhyphen] at here
    cases here

lemma GuidSpelled.append {chars : List Byte} {ds : List ℕ}
    (hvalues : chars.map digitOf = ds.map some)
    (hhyphen : ∀ k < chars.length, guidHyphen (i + k) = false)
    (h : GuidSpelled (i + chars.length) text digits) :
    GuidSpelled i (chars ++ text) (ds ++ digits) := by
  induction chars generalizing i ds with
  | nil =>
    obtain rfl := List.map_eq_nil_iff.mp hvalues.symm
    exact h
  | cons c chars ih =>
    cases ds with
    | nil => cases hvalues
    | cons d ds =>
      rw [List.map_cons, List.map_cons, List.cons.injEq] at hvalues
      apply GuidSpelled.digit (hhyphen 0 (by simp)) hvalues.1
      apply ih hvalues.2
      · intro k hk
        have hnext := hhyphen (k + 1) (by rw [List.length_cons]; omega)
        rwa [← Nat.add_assoc, Nat.add_right_comm] at hnext
      · rwa [List.length_cons, ← Nat.add_assoc, Nat.add_right_comm] at h

lemma guidLayout_append {a b c d e : List Byte} (ha : a.length = 8) (hb : b.length = 4)
    (hc : c.length = 4) (hd : d.length = 4) (he : e.length = 12) :
    guidLayout (a ++ (b ++ (c ++ (d ++ e)))) =
      a ++ 0x2D :: (b ++ 0x2D :: (c ++ 0x2D :: (d ++ 0x2D :: e))) := by
  have hskip : ∀ {x t : List Byte} {m : ℕ} (k n : ℕ), x.length = m →
      window (x ++ t) (m + k) n = window t k n := by
    rintro x t m k n rfl
    rw [window, window, List.drop_length_add_append]
  have hhead : ∀ {x t : List Byte} {n : ℕ}, x.length = n → window (x ++ t) 0 n = x := by
    intro x t n hx
    rw [window, List.drop_zero, List.take_left' hx]
  have hfirst : window (a ++ (b ++ (c ++ (d ++ e)))) 0 8 = a := hhead ha
  have hsecond : window (a ++ (b ++ (c ++ (d ++ e)))) 8 4 = b :=
    (hskip 0 4 ha).trans (hhead hb)
  have hthird : window (a ++ (b ++ (c ++ (d ++ e)))) 12 4 = c :=
    (hskip 4 4 ha).trans ((hskip 0 4 hb).trans (hhead hc))
  have hfourth : window (a ++ (b ++ (c ++ (d ++ e)))) 16 4 = d :=
    (hskip 8 4 ha).trans ((hskip 4 4 hb).trans ((hskip 0 4 hc).trans (hhead hd)))
  have hfifth : window (a ++ (b ++ (c ++ (d ++ e)))) 20 12 = e := by
    refine (hskip 12 12 ha).trans ((hskip 8 12 hb).trans ((hskip 4 12 hc).trans
      ((hskip 0 12 hd).trans ?_)))
    rw [window, List.drop_zero, List.take_of_length_le he.le]
  rw [guidLayout, hfirst, hsecond, hthird, hfourth, hfifth]
  simp only [List.append_assoc, List.cons_append, List.nil_append]

lemma guidHyphen_false {n : ℕ} (h : i = 0 ∧ n = 8 ∨ i = 9 ∧ n = 4 ∨ i = 14 ∧ n = 4 ∨ i = 19 ∧ n = 4 ∨
    i = 24 ∧ n = 12) : ∀ k < n, guidHyphen (i + k) = false := by
  intro k hk
  simp only [guidHyphen, Bool.or_eq_false_iff, beq_eq_false_iff_ne]
  omega

lemma GuidSpelled.groupHyphen (n : ℕ) (h : GuidSpelled i text digits) (hn : n < text.length)
    (hhyphen : ∀ k < n, guidHyphen (i + k) = false) (hend : guidHyphen (i + n) = true) :
    ∃ chars rest ds tail, text = chars ++ 0x2D :: rest ∧ chars.length = n ∧
      chars.map digitOf = ds.map some ∧ digits = ds ++ tail ∧
      GuidSpelled (i + n + 1) rest tail := by
  obtain ⟨chars, rest, ds, tail, rfl, hlength, hvalues, rfl, hspelled⟩ := h.group n hn.le hhyphen
  have hne : rest ≠ [] := by
    rintro rfl
    rw [List.append_nil] at hn
    omega
  obtain ⟨after, rfl, hafter⟩ := hspelled.hyphen_inv hne hend
  exact ⟨chars, after, ds, tail, rfl, hlength, hvalues, rfl, hafter⟩

lemma GuidSpelled.guidText (h : GuidSpelled 0 text digits) (hdigits : digits.length = 32) :
    GuidText text digits := by
  have htext := h.length_text hdigits
  obtain ⟨a, r₁, da, t₁, rfl, ha, hva, rfl, h₁⟩ :=
    h.groupHyphen 8 (by omega) (guidHyphen_false (by omega)) rfl
  rw [List.length_append, List.length_cons] at htext
  obtain ⟨b, r₂, db, t₂, rfl, hb, hvb, rfl, h₂⟩ :=
    h₁.groupHyphen 4 (by omega) (guidHyphen_false (by omega)) rfl
  rw [List.length_append, List.length_cons] at htext
  obtain ⟨c, r₃, dc, t₃, rfl, hc, hvc, rfl, h₃⟩ :=
    h₂.groupHyphen 4 (by omega) (guidHyphen_false (by omega)) rfl
  rw [List.length_append, List.length_cons] at htext
  obtain ⟨d, r₄, dd, t₄, rfl, hd, hvd, rfl, h₄⟩ :=
    h₃.groupHyphen 4 (by omega) (guidHyphen_false (by omega)) rfl
  rw [List.length_append, List.length_cons] at htext
  obtain ⟨e, r₅, de, t₅, rfl, he, hve, rfl, h₅⟩ :=
    h₄.group 12 (by omega) (guidHyphen_false (by omega))
  rw [List.length_append] at htext
  obtain rfl : r₅ = [] := List.eq_nil_of_length_eq_zero (by omega)
  obtain rfl : t₅ = [] := by
    cases h₅
    rfl
  refine ⟨a ++ (b ++ (c ++ (d ++ e))), ?_, hdigits, ?_⟩
  · simp only [List.map_append, hva, hvb, hvc, hvd, hve, List.append_nil]
  · rw [guidLayout_append ha hb hc hd he, List.append_nil]

lemma window_map {α β : Type} (f : α → β) (l : List α) (offset n : ℕ) :
    ((l.drop offset).take n).map f = ((l.map f).drop offset).take n := by
  rw [List.map_take, List.map_drop]

lemma append_windows {α : Type} {l : List α} (h : l.length = 32) :
    ((l.drop 0).take 8) ++ ((l.drop 8).take 4 ++ ((l.drop 12).take 4 ++ ((l.drop 16).take 4 ++
      (l.drop 20).take 12))) = l := by
  have hend : (l.drop 20).take 12 = l.drop 20 :=
    List.take_of_length_le (by rw [List.length_drop]; omega)
  have hstep : ∀ offset n : ℕ, (l.drop offset).take n ++ l.drop (offset + n) = l.drop offset := by
    intro offset n
    rw [← List.drop_drop, List.take_append_drop]
  rw [hend, hstep 16 4, hstep 12 4, hstep 8 4, hstep 0 8, List.drop_zero]

lemma GuidText.spelled (h : GuidText text digits) : GuidSpelled 0 text digits := by
  obtain ⟨chars, hvalues, hdigits, rfl⟩ := h
  have hlength : chars.length = 32 := by
    rw [← hdigits, ← List.length_map digitOf, hvalues, List.length_map]
  have hgroup : ∀ offset n : ℕ, ((chars.drop offset).take n).map digitOf =
      ((digits.drop offset).take n).map some := by
    intro offset n
    rw [window_map, window_map, hvalues]
  have hsize : ∀ offset n : ℕ, offset + n ≤ 32 → ((chars.drop offset).take n).length = n := by
    intro offset n hle
    rw [List.length_take, List.length_drop]
    omega
  have hlayout := guidLayout_append (hsize 0 8 (by omega)) (hsize 8 4 (by omega))
    (hsize 12 4 (by omega)) (hsize 16 4 (by omega)) (hsize 20 12 (by omega))
  rw [append_windows hlength] at hlayout
  have hplace : ∀ i offset n : ℕ, offset + n ≤ 32 →
      (∀ k < n, guidHyphen (i + k) = false) →
      ∀ (text : List Byte) (rest : List ℕ), GuidSpelled (i + n) text rest →
        GuidSpelled i ((chars.drop offset).take n ++ text)
          ((digits.drop offset).take n ++ rest) := by
    intro i offset n hle hhyphen text rest hrest
    apply GuidSpelled.append (hgroup offset n)
    · rw [hsize offset n hle]
      exact hhyphen
    · rwa [hsize offset n hle]
  rw [hlayout, ← append_windows hdigits]
  apply hplace 0 0 8 (by omega) (guidHyphen_false (by omega))
  apply GuidSpelled.hyphen rfl
  apply hplace 9 8 4 (by omega) (guidHyphen_false (by omega))
  apply GuidSpelled.hyphen rfl
  apply hplace 14 12 4 (by omega) (guidHyphen_false (by omega))
  apply GuidSpelled.hyphen rfl
  apply hplace 19 16 4 (by omega) (guidHyphen_false (by omega))
  apply GuidSpelled.hyphen rfl
  have hlast := hplace 24 20 12 (by omega) (guidHyphen_false (by omega)) [] [] .nil
  rwa [List.append_nil, List.append_nil] at hlast

lemma guidPut_pair {high low k : ℕ} (hhigh : high < 16) (hlow : low < 16) (hk : k < guid.length) :
    guidPut (guidPut guid (2 * k) high) (2 * k + 1) low =
      guid.set k (UInt8.ofNat (high * 16 + low)) := by
  have hbyte : ∀ a < 16, ∀ b < 16,
      UInt8.ofNat (a <<< 4) ||| UInt8.ofNat b = UInt8.ofNat (a * 16 + b) := by decide
  have heven : 2 * k / 2 = k := by omega
  have hodd : (2 * k + 1) / 2 = k := by omega
  have hget : (guid.set k (UInt8.ofNat (high <<< 4))).getD k 0 = UInt8.ofNat (high <<< 4) := by
    rw [List.getD_eq_getElem?_getD, List.getElem?_set_self hk]
    rfl
  rw [guidPut, guidPut, if_neg (by omega), if_pos (by omega), heven, hodd, List.set_set, hget,
    hbyte high hhigh low hlow]

lemma exists_pair {n : ℕ} (h : digits.length = 2 * (n + 1)) :
    ∃ high low rest, digits = high :: low :: rest ∧ rest.length = 2 * n := by
  rcases digits with _ | ⟨high, _ | ⟨low, rest⟩⟩
  · simp at h
  · simp at h
    omega
  · refine ⟨high, low, rest, rfl, ?_⟩
    simp only [List.length_cons] at h
    omega

lemma guidPuts_eq (n k : ℕ) (hdigits : digits.length = 2 * n) (hlt : ∀ d ∈ digits, d < 16)
    (hguid : guid.length = k + n) :
    guidPuts guid (2 * k) digits = guid.take k ++ digitBytes digits := by
  induction n generalizing k guid digits with
  | zero =>
    obtain rfl := List.eq_nil_of_length_eq_zero hdigits
    rw [guidPuts, digitBytes, List.append_nil, List.take_of_length_le (by omega)]
    · rintro high low rest h
      cases h
  | succ n ih =>
    obtain ⟨high, low, rest, rfl, hrest⟩ := exists_pair hdigits
    rw [List.forall_mem_cons, List.forall_mem_cons] at hlt
    have hnext : 2 * k + 1 + 1 = 2 * (k + 1) := by omega
    have htake : (guid.set k (UInt8.ofNat (high * 16 + low))).take (k + 1) =
        guid.take k ++ [UInt8.ofNat (high * 16 + low)] := by
      rw [List.take_add_one, List.take_set_of_le le_rfl, List.getElem?_set_self (by omega)]
      rfl
    rw [guidPuts, guidPuts, guidPut_pair hlt.1 hlt.2.1 (by omega), hnext,
      ih (k + 1) hrest hlt.2.2 (by rw [List.length_set]; omega), htake, digitBytes,
      List.append_assoc, List.singleton_append]

end Guid

section Uuid

variable {digits : List ℕ} {n : ℕ}

lemma digitBytes_length (hdigits : digits.length = 2 * n) : (digitBytes digits).length = n := by
  induction n generalizing digits with
  | zero =>
    obtain rfl := List.eq_nil_of_length_eq_zero hdigits
    rfl
  | succ n ih =>
    obtain ⟨high, low, rest, rfl, hrest⟩ := exists_pair hdigits
    rw [digitBytes, List.length_cons, ih hrest]

lemma digitBytes_append (rest : List ℕ) (hdigits : digits.length = 2 * n) :
    digitBytes (digits ++ rest) = digitBytes digits ++ digitBytes rest := by
  induction n generalizing digits with
  | zero =>
    obtain rfl := List.eq_nil_of_length_eq_zero hdigits
    rfl
  | succ n ih =>
    obtain ⟨high, low, digits, rfl, hrest⟩ := exists_pair hdigits
    rw [List.cons_append, List.cons_append, digitBytes, digitBytes, ih hrest, List.cons_append]

lemma digitBytes_window (offset size : ℕ) (hdigits : 2 * (offset + size) ≤ digits.length) :
    window (digitBytes digits) offset size =
      digitBytes ((digits.drop (2 * offset)).take (2 * size)) := by
  have hbefore : (digits.take (2 * offset)).length = 2 * offset := by
    rw [List.length_take]
    omega
  have hinside : ((digits.drop (2 * offset)).take (2 * size)).length = 2 * size := by
    rw [List.length_take, List.length_drop]
    omega
  have hbytes := digitBytes_append (digits.drop (2 * offset)) hbefore
  have hrest := digitBytes_append ((digits.drop (2 * offset)).drop (2 * size)) hinside
  rw [List.take_append_drop] at hbytes hrest
  rw [window, hbytes, List.drop_left' (digitBytes_length hbefore), hrest,
    List.take_left' (digitBytes_length hinside)]

lemma leLoad_reverse_digitBytes (hdigits : digits.length = 2 * n) (hlt : ∀ d ∈ digits, d < 16) :
    leLoad (digitBytes digits).reverse = value 16 digits := by
  induction n generalizing digits with
  | zero =>
    obtain rfl := List.eq_nil_of_length_eq_zero hdigits
    rfl
  | succ n ih =>
    obtain ⟨high, low, rest, rfl, hrest⟩ := exists_pair hdigits
    rw [List.forall_mem_cons, List.forall_mem_cons] at hlt
    obtain ⟨hhigh, hlow, hothers⟩ := hlt
    have hsplit : high :: low :: rest = [high, low] ++ rest := rfl
    have hpair : value 16 [high, low] = high * 16 + low := by simp [value]
    have hbyte : (UInt8.ofNat (high * 16 + low)).toNat = high * 16 + low := by
      rw [UInt8.toNat_ofNat']
      omega
    have hpow : 256 ^ n = 16 ^ rest.length := by
      rw [hrest, pow_mul]
      norm_num
    rw [digitBytes, List.reverse_cons, leLoad_append, ih hrest hothers, List.length_reverse,
      digitBytes_length hrest, hsplit, value_append, hpair, leLoad, leLoad, hbyte, hpow]
    ring

lemma dmiNtoh_leLoad {bytes : List Byte} (h : bytes.length = n) :
    dmiNtoh n (leLoad bytes) = leLoad bytes.reverse := by
  rw [dmiNtoh, ← h, leStore_leLoad]

lemma hexTextPadded_value (hne : digits ≠ []) (hlt : ∀ d ∈ digits, d < 16) :
    hexTextPadded digits.length (value 16 digits) = digits.map upper := by
  rw [hexTextPadded, pad_numeral_value (by omega) hlt hne]

lemma digits_printed (offset size : ℕ) (hdigits : digits.length = 32) (hlt : ∀ d ∈ digits, d < 16)
    (hsize : 0 < size) (hfits : offset + size ≤ 16) :
    hexTextPadded (2 * size) (leLoad (window (digitBytes digits) offset size).reverse) =
      window (digits.map upper) (2 * offset) (2 * size) := by
  have hlength : ((digits.drop (2 * offset)).take (2 * size)).length = 2 * size := by
    rw [List.length_take, List.length_drop, hdigits]
    omega
  have hne : (digits.drop (2 * offset)).take (2 * size) ≠ [] := by
    rw [← List.length_pos_iff, hlength]
    omega
  have hmem : ∀ d ∈ (digits.drop (2 * offset)).take (2 * size), d < 16 :=
    fun d hd => hlt d (List.mem_of_mem_drop (List.mem_of_mem_take hd))
  have hprinted := hexTextPadded_value hne hmem
  rw [hlength] at hprinted
  rw [digitBytes_window offset size (by omega), leLoad_reverse_digitBytes hlength hmem, hprinted,
    window, List.map_take, List.map_drop]

lemma field_printed (offset size : ℕ) (hdigits : digits.length = 32) (hlt : ∀ d ∈ digits, d < 16)
    (hsize : 0 < size) (hfits : offset + size ≤ 16) :
    hexTextPadded (2 * size) (dmiNtoh size (leLoad (window (digitBytes digits) offset size))) =
      window (digits.map upper) (2 * offset) (2 * size) := by
  have hbytes : (digitBytes digits).length = 16 := digitBytes_length (by omega)
  rw [dmiNtoh_leLoad (window_length (by omega)), digits_printed offset size hdigits hlt hsize hfits]

lemma byte_printed (offset : ℕ) (hdigits : digits.length = 32) (hlt : ∀ d ∈ digits, d < 16)
    (hfits : offset < 16) :
    hexTextPadded 2 ((digitBytes digits).getD offset 0).toNat =
      window (digits.map upper) (2 * offset) 2 := by
  have hbytes : offset < (digitBytes digits).length := by
    rw [digitBytes_length (n := 16) (by omega)]
    exact hfits
  have hwindow : window (digitBytes digits) offset 1 = [(digitBytes digits).getD offset 0] := by
    rw [window, List.drop_eq_getElem_cons hbytes, List.take_succ_cons, List.take_zero]
    simp [hbytes]
  have hprinted := digits_printed offset 1 hdigits hlt Nat.one_pos (by omega)
  rw [hwindow] at hprinted
  simpa [leLoad] using hprinted

lemma attributeFormatUuid_digits {uuid : Uuid} (huuid : uuid.bytes = digitBytes digits)
    (hdigits : digits.length = 32) (hlt : ∀ d ∈ digits, d < 16) :
    attributeFormatUuid uuid = guidLayout (digits.map upper) := by
  have hpair : ∀ offset m n : ℕ, window (digits.map upper) offset m ++
      window (digits.map upper) (offset + m) n = window (digits.map upper) offset (m + n) := by
    intro offset m n
    rw [window, window, window, List.take_add, List.drop_drop]
  have h4 := field_printed 0 4 hdigits hlt (by omega) (by omega)
  have h4' := field_printed 4 2 hdigits hlt (by omega) (by omega)
  have h6 := field_printed 6 2 hdigits hlt (by omega) (by omega)
  have hbyte : ∀ offset < 16, hexTextPadded 2 ((digitBytes digits).getD offset 0).toNat =
      window (digits.map upper) (2 * offset) 2 := fun offset h => byte_printed offset hdigits hlt h
  simp only [attributeFormatUuid, huuid]
  rw [hbyte 8 (by omega), hbyte 9 (by omega), hbyte 10 (by omega), hbyte 11 (by omega),
    hbyte 12 (by omega), hbyte 13 (by omega), hbyte 14 (by omega), hbyte 15 (by omega),
    hpair 16 2 2, hpair 20 2 2, hpair 20 4 2, hpair 20 6 2, hpair 20 8 2, hpair 20 10 2]
  rw [h4, h4', h6]
  rfl

end Uuid

lemma digits_lt {chars : List Byte} {digits : List ℕ} (h : chars.map digitOf = digits.map some) :
    ∀ d ∈ digits, d < 16 := by
  intro d hd
  have hmem : some d ∈ chars.map digitOf := by
    rw [h]
    exact List.mem_map_of_mem hd
  obtain ⟨c, -, hc⟩ := List.mem_map.mp hmem
  exact digitOf_lt hc

section Parsing

variable {str : CString} {digits : List ℕ}

lemma firmwareIdentParse_text (ident : FirmwareIdent) (h : GuidText str.bytes digits) :
    ∃ guid : Uuid, firmwareIdentParse (some str) .guid ident = some ⟨.guid, guid⟩ ∧
      guid.bytes = digitBytes digits := by
  obtain ⟨chars, hvalues, hdigits, -⟩ := id h
  have hscan : firmwareParseGuid str.pointer 0 0 ident.guid.bytes =
      some (some 32, digitBytes digits) := by
    have hparse : firmwareParseGuid (str.bytes ++ 0 :: []) 0 0 ident.guid.bytes =
        some (some (0 + digits.length), guidPuts ident.guid.bytes 0 digits) :=
      firmwareParseGuid_spelled h.spelled (by omega) []
    have hputs := guidPuts_eq 16 0 hdigits (digits_lt hvalues) ident.guid.size
    rw [Nat.mul_zero, List.take_zero, List.nil_append] at hputs
    rw [Nat.zero_add, hdigits, hputs] at hparse
    exact hparse
  refine ⟨⟨digitBytes digits, digitBytes_length hdigits⟩, ?_, rfl⟩
  rw [firmwareIdentParse]
  simp only [ne_eq, not_true_eq_false, if_false]
  split
  · next heq =>
    rw [hscan] at heq
    cases heq
  · next count guid heq =>
    rw [hscan] at heq
    cases heq
    rfl

lemma firmwareIdentParse_total (str : CString) (ident : FirmwareIdent) :
    ∃ parsed, firmwareIdentParse (some str) .guid ident = some parsed ∧
      (parsed.format = .guid → ∃ digits, GuidText str.bytes digits) := by
  obtain ⟨result, guid, hresult, hspec⟩ :=
    firmwareParseGuid_total str.zero_mem 0 0 ident.guid.bytes
  rw [firmwareIdentParse]
  simp only [ne_eq, not_true_eq_false, if_false]
  split
  · next heq =>
    rw [hresult] at heq
    cases heq
  · next count guid' heq =>
    rw [hresult] at heq
    cases heq
    refine ⟨_, rfl, fun hguid => ?_⟩
    by_cases hcount : result = some 32
    · obtain ⟨text, digits, rest, hpointer, hspelled, hdigits⟩ := hspec 32 hcount
      have htext : str.bytes = text := append_zero_inj str.noZero hspelled.zero_not_mem hpointer
      exact ⟨digits, htext ▸ hspelled.guidText (by omega)⟩
    · simp [hcount] at hguid

end Parsing

/-- The parsers take exactly their grammar and never read past the terminator, the value parsed is
the one spelled, and a GUID is printed as its digits in upper case. -/
theorem firmwareInventory_exact (str : CString) (version : FirmwareVersion)
    (ident : FirmwareIdent) :
    (∃ parsed, firmwareVersionParse (some str) .semantic version = some parsed ∧
      (parsed.format = .semantic ↔ ∃ major minor, SemanticText str.bytes major minor) ∧
      ∀ major minor, SemanticText str.bytes major minor →
        parsed.major = major ∧ parsed.minor = minor) ∧
    (∃ parsed, firmwareVersionParse (some str) .hex32 version = some parsed ∧
      (parsed.format = .hex32 ↔ ∃ n, HexText 8 str.bytes n) ∧
      ∀ n, HexText 8 str.bytes n → parsed.value = n) ∧
    (∃ parsed, firmwareVersionParse (some str) .hex64 version = some parsed ∧
      (parsed.format = .hex64 ↔ ∃ n, HexText 16 str.bytes n) ∧
      ∀ n, HexText 16 str.bytes n → parsed.value = n) ∧
    ∃ parsed, firmwareIdentParse (some str) .guid ident = some parsed ∧
      (parsed.format = .guid ↔ ∃ digits, GuidText str.bytes digits) ∧
      ∀ digits, GuidText str.bytes digits → parsed.guid.bytes = digitBytes digits ∧
        attributeFormatUuid parsed.guid = guidLayout (digits.map upper) := by
  refine ⟨?_, ?_, ?_, ?_⟩
  · have hfree : ({ version with format := .free } : FirmwareVersion).format = .free := rfl
    obtain ⟨parsed, hparsed, hspec⟩ := firmwareParseSemantic_total hfree str
    refine ⟨parsed, hparsed, ⟨hspec, ?_⟩, ?_⟩
    · rintro ⟨major, minor, htext⟩
      rw [firmwareParseSemantic_text htext] at hparsed
      rw [← Option.some.inj hparsed]
    · intro major minor htext
      rw [firmwareParseSemantic_text htext] at hparsed
      rw [← Option.some.inj hparsed]
      exact ⟨rfl, rfl⟩
  · exact firmwareParseHexVersion_exact (by omega)
      (by exact fun h => FirmwareVersionFormat.noConfusion h) str
  · exact firmwareParseHexVersion_exact le_rfl
      (by exact fun h => FirmwareVersionFormat.noConfusion h) str
  · obtain ⟨parsed, hparsed, hspec⟩ := firmwareIdentParse_total str ident
    refine ⟨parsed, hparsed, ⟨hspec, ?_⟩, ?_⟩
    · rintro ⟨digits, htext⟩
      obtain ⟨guid, hguid, -⟩ := firmwareIdentParse_text ident htext
      rw [hparsed] at hguid
      rw [Option.some.inj hguid]
    · intro digits htext
      obtain ⟨guid, hguid, hbytes⟩ := firmwareIdentParse_text ident htext
      obtain ⟨chars, hvalues, hdigits, -⟩ := htext
      rw [hparsed] at hguid
      rw [Option.some.inj hguid]
      exact ⟨hbytes, attributeFormatUuid_digits hbytes hdigits (digits_lt hvalues)⟩

end OpenDmi

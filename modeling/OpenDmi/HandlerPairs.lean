import OpenDmi.EncodeArrays
import OpenDmi.Handlers

/-! The handlers of a field agree: what is decoded is encoded as data which fits the field, and
which decodes into the same member again. -/

namespace OpenDmi

open Bytes

variable {offset raw number : ℕ} {field : Field} {data : FieldData} {f g : ℕ → ℕ}

def HandlersAgree (field : Field) (data : FieldData) : Prop :=
  ∃ decode encode writes, field.params.decode = some decode ∧ field.params.encode = some encode ∧
    decode data = some writes ∧ ∀ (memory : Memory) (base : ℕ), ∃ again,
      encode ((memory.writes base writes).shift base) = some again ∧ dataFits field again = true ∧
        decode again = some writes

lemma fieldSet_some {member : Member} (hsize : member.size ∈ [1, 2, 4, 8])
    (hfits : number < 256 ^ member.size) :
    fieldSet member number = some [(0, .number (UInt64.ofNat number))] := by
  rw [fieldSet, memberStore, if_pos hsize, Nat.mod_eq_of_lt hfits]
  rfl

lemma fieldGet_written {member : Member} (hsize : member.size ∈ [1, 2, 4, 8])
    (hfits : number < 256 ^ member.size) (memory : Memory) (base : ℕ) :
    fieldGet member ((memory.writes base [(0, .number (UInt64.ofNat number))]).shift base) =
      number := by
  have hstore : memberStore member number = some (UInt64.ofNat number) := by
    rw [memberStore, if_pos hsize, Nat.mod_eq_of_lt hfits]
  simp only [fieldGet, Memory.writes, Memory.write, Memory.shift, Memory.setNumber, Nat.add_zero,
    Function.update_self]
  rw [memberLoad_store hstore, Nat.mod_eq_of_lt hfits]

lemma dataFits_number (hbits : number < 2 ^ dataBits field) :
    dataFits field (numberData number) = true := by
  have hdiv : number / 2 ^ dataBits field = 0 := Nat.div_eq_of_lt hbits
  simp [dataFits, numberData, hdiv]

lemma numbers_agree (hdecode : field.params.decode = some (decodeNumber field.member f))
    (hencode : field.params.encode = some (encodeNumber field.member g))
    (hsize : field.member.size ∈ [1, 2, 4, 8]) (hfits : f raw < 256 ^ field.member.size)
    (hbits : g (f raw) < 2 ^ dataBits field) (hagree : f (g (f raw)) = f raw) :
    HandlersAgree field (numberData raw) := by
  refine ⟨_, _, _, hdecode, hencode, fieldSet_some hsize hfits, fun memory base =>
    ⟨numberData (g (f raw)), ?_, dataFits_number hbits, ?_⟩⟩
  · rw [encodeNumber, show (numberData raw).number = raw from rfl, fieldGet_written hsize hfits]
  · rw [decodeNumber]
    simp only [numberData, hagree]
    exact fieldSet_some hsize hfits

section bits

variable {i n low : ℕ}

lemma and_low (n i : ℕ) : n &&& (2 ^ i - 1) = n % 2 ^ i := Nat.and_two_pow_sub_one_eq_mod n i

lemma and_high (hn : n < 2 ^ (i + 1)) : n &&& 2 ^ i ≠ 0 ↔ 2 ^ i ≤ n := by
  have hbit : ∀ j, (n &&& 2 ^ i).testBit j = (n.testBit i && decide (i = j)) := by
    intro j
    rw [Nat.testBit_and, Nat.testBit_two_pow]
    by_cases h : i = j <;> simp [h]
  constructor
  · intro h
    by_contra hlt
    refine h (Nat.eq_of_testBit_eq fun j => ?_)
    rw [hbit, Nat.testBit_lt_two_pow (not_le.mp hlt), Nat.zero_testBit, Bool.false_and]
  · intro hle hzero
    have hself := hbit i
    rw [hzero, Nat.zero_testBit, Nat.testBit_of_two_pow_le_and_two_pow_add_one_gt hle hn] at hself
    simp at hself

lemma or_high (hlow : low < 2 ^ i) : 2 ^ i ||| low = 2 ^ i + low := by
  have h := Nat.two_pow_add_eq_or_of_lt hlow 1
  rw [Nat.mul_one] at h
  exact h.symm

lemma or_shift (a : ℕ) (hlow : low < 2 ^ i) : a <<< i ||| low = a * 2 ^ i + low := by
  rw [← Nat.shiftLeft_add_eq_or_of_lt hlow, Nat.shiftLeft_eq]

end bits

section sizes

variable {value size bits : ℕ}

lemma memoryDeviceSize_eq (h : value < 2 ^ 16) : memoryDeviceSize value =
    if value < 2 ^ 15 then value * 2 ^ 20 else (value - 2 ^ 15) * 2 ^ 10 := by
  have hlow : value &&& 0x7fff = value % 2 ^ 15 := and_low value 15
  have hhigh : value &&& 0x8000 ≠ 0 ↔ 2 ^ 15 ≤ value := and_high h
  simp only [memoryDeviceSize, hlow, hhigh, Nat.shiftLeft_eq]
  split_ifs <;> omega

lemma memoryDeviceEncodedSize_eq (size : ℕ) : memoryDeviceEncodedSize size =
    if size % 2 ^ 20 = 0 ∧ size / 2 ^ 20 < 0x7fff then size / 2 ^ 20
    else 2 ^ 15 + size / 2 ^ 10 % 2 ^ 15 := by
  have hlow : size &&& 0xfffff = size % 2 ^ 20 := and_low size 20
  have hrest : size >>> 10 &&& 0x7fff = size / 2 ^ 10 % 2 ^ 15 := by
    rw [← Nat.shiftRight_eq_div_pow]
    exact and_low _ 15
  have hlt : size / 2 ^ 10 % 2 ^ 15 < 2 ^ 15 := Nat.mod_lt _ (by norm_num)
  have hor : 0x8000 ||| size / 2 ^ 10 % 2 ^ 15 = 2 ^ 15 + size / 2 ^ 10 % 2 ^ 15 := or_high hlt
  rw [memoryDeviceEncodedSize, hlow, hrest, hor, Nat.shiftRight_eq_div_pow]

lemma memoryDeviceSizeEx_eq (h : value < 2 ^ 32) : memoryDeviceSizeEx value =
    if value < 2 ^ 31 then value * 2 ^ 20 else 2 ^ 64 - 1 := by
  have hlow : value &&& 0x7fffffff = value % 2 ^ 31 := and_low value 31
  have hhigh : value &&& 0x80000000 ≠ 0 ↔ 2 ^ 31 ≤ value := and_high h
  rw [memoryDeviceSizeEx, hlow, Nat.shiftLeft_eq, sizeMax]
  simp only [hhigh]
  split_ifs <;> omega

lemma memoryDeviceEncodedSizeEx_eq (size : ℕ) : memoryDeviceEncodedSizeEx size =
    if size = 2 ^ 64 - 1 then 2 ^ 31 else size / 2 ^ 20 % 2 ^ 31 := by
  have hrest : size >>> 20 &&& 0x7fffffff = size / 2 ^ 20 % 2 ^ 31 := by
    rw [← Nat.shiftRight_eq_div_pow]
    exact and_low _ 31
  rw [memoryDeviceEncodedSizeEx, hrest, sizeMax]
  rfl

lemma memoryDeviceSize_agree (h : value < 2 ^ 16) (hescape : value ≠ 0x7fff) :
    memoryDeviceSize value < 2 ^ 64 ∧ memoryDeviceEncodedSize (memoryDeviceSize value) < 2 ^ 16 ∧
      memoryDeviceSize (memoryDeviceEncodedSize (memoryDeviceSize value)) =
        memoryDeviceSize value := by
  have hencoded := memoryDeviceEncodedSize_eq (memoryDeviceSize value)
  have hvalue := memoryDeviceSize_eq h
  have hbound : memoryDeviceEncodedSize (memoryDeviceSize value) < 2 ^ 16 := by
    rw [hencoded]
    split_ifs <;> omega
  refine ⟨by rw [hvalue]; split_ifs <;> omega, hbound, ?_⟩
  rw [memoryDeviceSize_eq hbound, hencoded, hvalue]
  split_ifs <;> omega

lemma memoryDeviceSizeEx_agree (h : value < 2 ^ 32) :
    memoryDeviceSizeEx value < 2 ^ 64 ∧
      memoryDeviceEncodedSizeEx (memoryDeviceSizeEx value) < 2 ^ 32 ∧
      memoryDeviceSizeEx (memoryDeviceEncodedSizeEx (memoryDeviceSizeEx value)) =
        memoryDeviceSizeEx value := by
  have hencoded := memoryDeviceEncodedSizeEx_eq (memoryDeviceSizeEx value)
  have hvalue := memoryDeviceSizeEx_eq h
  have hbound : memoryDeviceEncodedSizeEx (memoryDeviceSizeEx value) < 2 ^ 32 := by
    rw [hencoded]
    split_ifs <;> omega
  refine ⟨by rw [hvalue]; split_ifs <;> omega, hbound, ?_⟩
  by_cases hlow : value < 2 ^ 31
  · rw [if_pos hlow] at hvalue
    have hdiv : value * 2 ^ 20 / 2 ^ 20 % 2 ^ 31 = value := by omega
    rw [hencoded, hvalue, if_neg (by omega), hdiv, hvalue]
  · rw [if_neg hlow] at hvalue
    rw [hencoded, hvalue, if_pos rfl, memoryDeviceSizeEx_eq (by norm_num), if_neg (by omega)]

lemma cacheSizeOf_eq (h0 : 0 < bits) (h : value < 2 ^ bits) : cacheSizeOf bits value =
    if value < 2 ^ (bits - 1) then value * 2 ^ 10 else (value - 2 ^ (bits - 1)) * 2 ^ 16 := by
  have hpow : 2 ^ bits = 2 * 2 ^ (bits - 1) := by
    rw [← pow_succ', Nat.sub_add_cancel h0]
  have hhigh : value &&& 2 ^ (bits - 1) ≠ 0 ↔ 2 ^ (bits - 1) ≤ value :=
    and_high (by rwa [Nat.sub_add_cancel h0])
  simp only [cacheSizeOf, and_low, hhigh, Nat.shiftLeft_eq]
  by_cases hlow : value < 2 ^ (bits - 1)
  · rw [if_neg (not_le.mpr hlow), if_pos hlow, Nat.mod_eq_of_lt hlow]
  · rw [if_pos (not_lt.mp hlow), if_neg hlow, Nat.mod_eq_sub_mod (not_lt.mp hlow),
      Nat.mod_eq_of_lt (by omega)]

lemma cacheEncodedSizeOf_eq (bits size : ℕ) : cacheEncodedSizeOf bits size =
    if size % 2 ^ 10 = 0 ∧ size / 2 ^ 10 ≤ 2 ^ (bits - 1) - 1 then size / 2 ^ 10
    else 2 ^ (bits - 1) + size / 2 ^ 16 % 2 ^ (bits - 1) := by
  have hlow : size &&& 0x3ff = size % 2 ^ 10 := and_low size 10
  rw [cacheEncodedSizeOf, hlow, and_low, or_high (Nat.mod_lt _ (by positivity)),
    Nat.shiftRight_eq_div_pow, Nat.shiftRight_eq_div_pow]

lemma cacheSizeOf_agree (h0 : 0 < bits) (h : value < 2 ^ bits) :
    cacheSizeOf bits value < 2 ^ bits * 2 ^ 16 ∧
      cacheEncodedSizeOf bits (cacheSizeOf bits value) < 2 ^ bits ∧
      cacheSizeOf bits (cacheEncodedSizeOf bits (cacheSizeOf bits value)) =
        cacheSizeOf bits value := by
  have hpow : 2 ^ bits = 2 * 2 ^ (bits - 1) := by
    rw [← pow_succ', Nat.sub_add_cancel h0]
  have hhalf : 0 < 2 ^ (bits - 1) := by positivity
  have hencoded := cacheEncodedSizeOf_eq bits (cacheSizeOf bits value)
  have hvalue := cacheSizeOf_eq h0 h
  have hrest := Nat.mod_lt (cacheSizeOf bits value / 2 ^ 16) hhalf
  have hbound : cacheEncodedSizeOf bits (cacheSizeOf bits value) < 2 ^ bits := by
    rw [hencoded, hpow]
    split_ifs <;> omega
  refine ⟨by rw [hvalue]; split_ifs <;> omega, hbound, ?_⟩
  rw [cacheSizeOf_eq h0 hbound, hencoded]
  generalize 2 ^ (bits - 1) = half at hvalue hrest hpow hhalf
  rw [hpow] at h
  by_cases hlow : value < half
  · rw [if_pos hlow] at hvalue
    have hdiv : value * 2 ^ 10 % 2 ^ 10 = 0 ∧ value * 2 ^ 10 / 2 ^ 10 ≤ half - 1 := by omega
    rw [hvalue, if_pos hdiv, if_pos (by omega)]
    omega
  · rw [if_neg hlow] at hvalue
    have hmod : cacheSizeOf bits value / 2 ^ 16 % half = value - half := by
      rw [hvalue, Nat.mul_div_cancel _ (by norm_num), Nat.mod_eq_of_lt (by omega)]
    rw [hmod]
    split_ifs <;> omega

lemma firmwareRomSize_agree (h : value < 2 ^ 8) :
    firmwareRomSize value < 2 ^ 64 ∧ firmwareEncodedRomSize (firmwareRomSize value) = value := by
  have hvalue : firmwareRomSize value = (value + 1) * 2 ^ 16 := Nat.shiftLeft_eq _ _
  have hdiv : (value + 1) * 2 ^ 16 / 2 ^ 16 - 1 = value := by omega
  refine ⟨by omega, ?_⟩
  rw [hvalue, firmwareEncodedRomSize, Nat.shiftRight_eq_div_pow, hdiv, Nat.shiftLeft_eq,
    if_pos (by omega)]

lemma firmwareRomSizeEx_eq (h : value < 2 ^ 16) : firmwareRomSizeEx value =
    if value < 2 ^ 14 then value * 2 ^ 20
    else if value < 2 ^ 15 then (value - 2 ^ 14) * 2 ^ 30 else 0 := by
  have hlow : value &&& 0x3fff = value % 2 ^ 14 := and_low value 14
  have hscale : (value &&& 0xc000) >>> 14 = value / 2 ^ 14 % 2 ^ 2 := by
    rw [Nat.shiftRight_and_distrib, ← Nat.shiftRight_eq_div_pow]
    exact and_low _ 2
  simp only [firmwareRomSizeEx, hlow, hscale, Nat.shiftLeft_eq]
  by_cases h14 : value < 2 ^ 14
  · rw [if_pos h14, if_pos (by omega), Nat.mod_eq_of_lt h14]
  · rw [if_neg h14, if_neg (by omega)]
    by_cases h15 : value < 2 ^ 15
    · rw [if_pos h15, if_pos (by omega), Nat.mod_eq_sub_mod (by omega), Nat.mod_eq_of_lt (by omega)]
    · rw [if_neg h15, if_neg (by omega)]

lemma firmwareEncodedRomSizeEx_eq (size : ℕ) : firmwareEncodedRomSizeEx size =
    if size % 2 ^ 20 = 0 ∧ size / 2 ^ 20 ≤ 0x3fff then size / 2 ^ 20
    else 2 ^ 14 + size / 2 ^ 30 % 2 ^ 14 := by
  have hlow : size &&& 0xfffff = size % 2 ^ 20 := and_low size 20
  have hrest : size >>> 30 &&& 0x3fff = size / 2 ^ 30 % 2 ^ 14 := by
    rw [← Nat.shiftRight_eq_div_pow]
    exact and_low _ 14
  have hlt : size / 2 ^ 30 % 2 ^ 14 < 2 ^ 14 := Nat.mod_lt _ (by norm_num)
  have hor : 0x4000 ||| size / 2 ^ 30 % 2 ^ 14 = 2 ^ 14 + size / 2 ^ 30 % 2 ^ 14 := or_high hlt
  rw [firmwareEncodedRomSizeEx, hlow, hrest, hor, Nat.shiftRight_eq_div_pow]

lemma firmwareRomSizeEx_agree (h : value < 2 ^ 16) :
    firmwareRomSizeEx value < 2 ^ 64 ∧
      firmwareEncodedRomSizeEx (firmwareRomSizeEx value) < 2 ^ 16 ∧
      firmwareRomSizeEx (firmwareEncodedRomSizeEx (firmwareRomSizeEx value)) =
        firmwareRomSizeEx value := by
  have hencoded := firmwareEncodedRomSizeEx_eq (firmwareRomSizeEx value)
  have hvalue := firmwareRomSizeEx_eq h
  have hbound : firmwareEncodedRomSizeEx (firmwareRomSizeEx value) < 2 ^ 16 := by
    rw [hencoded]
    split_ifs <;> omega
  refine ⟨by rw [hvalue]; split_ifs <;> omega, hbound, ?_⟩
  rw [firmwareRomSizeEx_eq hbound, hencoded]
  by_cases hmega : firmwareRomSizeEx value % 2 ^ 20 = 0 ∧ firmwareRomSizeEx value / 2 ^ 20 ≤ 0x3fff
  · rw [if_pos hmega, if_pos (by omega)]
    omega
  · have hgiga : firmwareRomSizeEx value = (value - 2 ^ 14) * 2 ^ 30 ∧ value < 2 ^ 15 := by
      by_cases h14 : value < 2 ^ 14
      · rw [if_pos h14] at hvalue
        exact absurd (by omega) hmega
      · rw [if_neg h14] at hvalue
        by_cases h15 : value < 2 ^ 15
        · rw [if_pos h15] at hvalue
          exact ⟨hvalue, h15⟩
        · rw [if_neg h15] at hvalue
          exact absurd (by omega) hmega
    rw [if_neg hmega, if_neg (by omega), if_pos (by omega)]
    omega

end sizes

section packed

variable {a b c : ℕ}

lemma packed_eq (hb : b < 2 ^ 8) (hc : c < 2 ^ 8) :
    a <<< 16 ||| b <<< 8 ||| c = a * 2 ^ 16 + b * 2 ^ 8 + c := by
  have hshift : b <<< 8 < 2 ^ 16 := by
    rw [Nat.shiftLeft_eq]
    omega
  have hhigh : a <<< 16 ||| b <<< 8 = (a * 2 ^ 8 + b) <<< 8 := by
    rw [or_shift a hshift, Nat.shiftLeft_eq, Nat.shiftLeft_eq]
    ring
  rw [hhigh, or_shift _ hc]
  ring

lemma version_eq (a b c : ℕ) :
    dmiVersion a b c = a % 2 ^ 8 * 2 ^ 16 + b % 2 ^ 8 * 2 ^ 8 + c % 2 ^ 8 := by
  norm_num [dmiVersion]

lemma versionMajor_eq (n : ℕ) : versionMajor n = n / 2 ^ 16 % 2 ^ 8 := by norm_num [versionMajor]

lemma versionMinor_eq (n : ℕ) : versionMinor n = n / 2 ^ 8 % 2 ^ 8 := by norm_num [versionMinor]

lemma firmwareVersion_eq (raw : ℕ) : firmwareVersion raw =
    if raw % 2 ^ 8 = 0xff then 0 else raw % 2 ^ 8 * 2 ^ 16 + raw / 2 ^ 8 % 2 ^ 8 * 2 ^ 8 := by
  have hlow : ∀ n : ℕ, n &&& 0xff = n % 2 ^ 8 := fun n => and_low n 8
  rw [firmwareVersion, hlow, hlow, version_eq, Nat.shiftRight_eq_div_pow, Nat.mod_mod, Nat.mod_mod,
    Nat.zero_mod, Nat.add_zero, show versionNone = 0 from rfl]

lemma firmwareVersion_agree :
    firmwareVersion raw < 2 ^ 32 ∧ firmwareEncodedVersion (firmwareVersion raw) < 2 ^ 16 ∧
      firmwareVersion (firmwareEncodedVersion (firmwareVersion raw)) = firmwareVersion raw := by
  have hvalue := firmwareVersion_eq raw
  have hbound : firmwareVersion raw < 2 ^ 24 := by
    rw [hvalue]
    split_ifs <;> omega
  have hencoded : firmwareEncodedVersion (firmwareVersion raw) =
      if firmwareVersion raw = 0 then 0xffff
      else firmwareVersion raw / 2 ^ 8 % 2 ^ 8 * 2 ^ 8 + firmwareVersion raw / 2 ^ 16 % 2 ^ 8 := by
    have hlt : firmwareVersion raw / 2 ^ 16 % 2 ^ 8 < 2 ^ 8 := Nat.mod_lt _ (by norm_num)
    simp only [firmwareEncodedVersion, versionMajor_eq, versionMinor_eq]
    rw [Nat.mod_eq_of_lt (by omega), Nat.or_comm, or_shift _ hlt]
    rfl
  by_cases hzero : firmwareVersion raw = 0
  · rw [if_pos hzero] at hencoded
    rw [hencoded, hzero]
    decide
  · rw [if_neg hzero] at hencoded
    have hmajor : raw % 2 ^ 8 ≠ 0xff := fun h' => hzero (by rw [hvalue, if_pos h'])
    rw [if_neg hmajor] at hvalue
    have hlow : raw % 2 ^ 8 < 2 ^ 8 := Nat.mod_lt _ (by norm_num)
    have hhigh : raw / 2 ^ 8 % 2 ^ 8 < 2 ^ 8 := Nat.mod_lt _ (by norm_num)
    generalize raw % 2 ^ 8 = major at hvalue hmajor hlow
    generalize raw / 2 ^ 8 % 2 ^ 8 = minor at hvalue hhigh
    have hparts : firmwareVersion raw / 2 ^ 8 % 2 ^ 8 = minor ∧
        firmwareVersion raw / 2 ^ 16 % 2 ^ 8 = major := by omega
    rw [hparts.1, hparts.2] at hencoded
    have hagain : (minor * 2 ^ 8 + major) % 2 ^ 8 = major ∧
        (minor * 2 ^ 8 + major) / 2 ^ 8 = minor := by omega
    refine ⟨by omega, by omega, ?_⟩
    rw [firmwareVersion_eq, hencoded, hagain.1, hagain.2, if_neg hmajor, Nat.mod_eq_of_lt hhigh,
      hvalue]

end packed

section dates

variable {year month day i n : ℕ} {value : ℕ} {token : List Byte} {rest : List (List Byte)}
  {text : List Byte}

lemma date_eq (hmonth : month < 2 ^ 8) (hday : day < 2 ^ 8) (hyear : year < 2 ^ 16) :
    date year month day = year * 2 ^ 16 + month * 2 ^ 8 + day := by
  have hlow : ∀ n < 2 ^ 8, n &&& 0xff = n := fun n hn => (and_low n 8).trans (Nat.mod_eq_of_lt hn)
  have hhigh : year &&& 0xffff = year := (and_low year 16).trans (Nat.mod_eq_of_lt hyear)
  rw [date, hhigh, hlow month hmonth, hlow day hday, packed_eq hmonth hday]

lemma dateYear_eq (n : ℕ) : dateYear n = n / 2 ^ 16 % 2 ^ 16 := by
  rw [dateYear, Nat.shiftRight_and_distrib, ← Nat.shiftRight_eq_div_pow]
  exact and_low _ 16

lemma dateMonth_eq (n : ℕ) : dateMonth n = n / 2 ^ 8 % 2 ^ 8 := by
  rw [dateMonth, Nat.shiftRight_and_distrib, ← Nat.shiftRight_eq_div_pow]
  exact and_low _ 8

lemma dateDay_eq (n : ℕ) : dateDay n = n % 2 ^ 8 := and_low n 8

lemma decimalValue_lt (h : token.all isDigit = true) : decimalValue token < 10 ^ token.length := by
  induction token using List.reverseRecOn with
  | nil => simp [decimalValue]
  | append_singleton token b ih =>
    simp only [List.all_append, List.all_cons, List.all_nil, Bool.and_true, Bool.and_eq_true] at h
    have hrest := ih h.1
    have hb := h.2
    simp only [isDigit, Bool.and_eq_true, decide_eq_true_eq] at hb
    rw [decimalValue] at hrest ⊢
    rw [List.foldl_append, List.length_append, List.length_singleton, pow_succ]
    simp only [List.foldl_cons, List.foldl_nil]
    omega

def IsDate (value : ℕ) : Prop := ∃ year month day, value = date year month day ∧ year < 10000 ∧
  0 < month ∧ month ≤ 12 ∧ 0 < day ∧ day ≤ 31

lemma dateRead_cons (h : dateRead i year month day (token :: rest) = some value) :
    token.all isDigit = true ∧
    (i = 0 → (0 < decimalValue token ∧ decimalValue token ≤ 12) ∧
      dateRead 1 year (decimalValue token) day rest = some value) ∧
    (i = 1 → (0 < decimalValue token ∧ decimalValue token ≤ 31) ∧
      dateRead 2 year month (decimalValue token) rest = some value) ∧
    (i = 2 → ∃ y < 10000, dateRead 3 y month day rest = some value) ∧ i < 3 := by
  have hlt : ¬ (token = [] ∨ token.all isDigit = false) →
      token.all isDigit = true ∧ decimalValue token < 10 ^ token.length := by
    intro hbad
    rw [not_or, Bool.not_eq_false] at hbad
    exact ⟨hbad.2, decimalValue_lt hbad.2⟩
  rcases i with _ | _ | _ | i <;> rw [dateRead] at h <;> try simp only at h
  · split_ifs at h with hbad hrange
    exact ⟨(hlt hbad).1, fun _ => ⟨by omega, h⟩, by simp, by simp, by simp⟩
  · split_ifs at h with hbad hrange
    exact ⟨(hlt hbad).1, by simp, fun _ => ⟨by omega, h⟩, by simp, by simp⟩
  · split_ifs at h with hbad htwo hfour
    · obtain ⟨hall, hvalue⟩ := hlt hbad
      rw [htwo] at hvalue
      exact ⟨hall, by simp, by simp, fun _ => ⟨_, by omega, h⟩, by simp⟩
    · obtain ⟨hall, hvalue⟩ := hlt hbad
      rw [hfour] at hvalue
      exact ⟨hall, by simp, by simp, fun _ => ⟨_, by omega, h⟩, by simp⟩
  · split_ifs at h
  all_goals omega

lemma dateRead_isDate {tokens : List (List Byte)} (h : dateRead 0 0 0 0 tokens = some value) :
    IsDate value := by
  have hnil : ∀ {i y m d : ℕ}, dateRead i y m d [] = some value → ¬ i < 3 ∧ value = date y m d := by
    intro i y m d h
    rw [dateRead] at h
    split_ifs at h with hi
    exact ⟨hi, (Option.some.inj h).symm⟩
  obtain _ | ⟨first, tokens⟩ := tokens
  · exact absurd (hnil h).1 (by decide)
  obtain ⟨hmonth, h⟩ := (dateRead_cons h).2.1 rfl
  obtain _ | ⟨second, tokens⟩ := tokens
  · exact absurd (hnil h).1 (by decide)
  obtain ⟨hday, h⟩ := (dateRead_cons h).2.2.1 rfl
  obtain _ | ⟨third, tokens⟩ := tokens
  · exact absurd (hnil h).1 (by decide)
  obtain ⟨y, hy, h⟩ := (dateRead_cons h).2.2.2.1 rfl
  obtain _ | ⟨fourth, tokens⟩ := tokens
  · exact ⟨y, _, _, (hnil h).2, hy, hmonth.1, hmonth.2, hday.1, hday.2⟩
  · exact absurd (dateRead_cons h).2.2.2.2 (by decide)

lemma dateParse_isDate (text : List Byte) : dateParse text = dateNone ∨ IsDate (dateParse text) := by
  rw [dateParse]
  split_ifs with hlong
  · exact .inl rfl
  · cases h : dateRead 0 0 0 0 (dateTokens text) with
    | none => exact .inl rfl
    | some value => exact .inr (dateRead_isDate h)

lemma decimalDigit_toNat (n : ℕ) : (decimalDigit n).toNat = 0x30 + n % 10 := by
  rw [decimalDigit, UInt8.toNat_ofNat']
  omega

lemma decimalDigit_isDigit (n : ℕ) : isDigit (decimalDigit n) = true := by
  simp only [isDigit, decimalDigit_toNat, Bool.and_eq_true, decide_eq_true_eq]
  omega

lemma twoDigits_value (h : n < 100) : decimalValue (twoDigits n) = n := by
  simp only [decimalValue, twoDigits, List.foldl_cons, List.foldl_nil, decimalDigit_toNat]
  omega

lemma fourDigits_value (h : n < 10000) : decimalValue (fourDigits n) = n := by
  simp only [decimalValue, fourDigits, twoDigits, List.cons_append, List.nil_append,
    List.foldl_cons, List.foldl_nil, decimalDigit_toNat]
  omega

lemma isDigit_ne {b : Byte} (h : isDigit b = true) : b ≠ 0x2f := by
  rintro rfl
  exact absurd h (by decide)

lemma dateTokens_last (h : token.all isDigit = true) : dateTokens token = [token] := by
  induction token with
  | nil => rfl
  | cons b token ih =>
    simp only [List.all_cons, Bool.and_eq_true] at h
    rw [dateTokens, if_neg (isDigit_ne h.1), ih h.2]

lemma dateTokens_append (h : token.all isDigit = true) (text : List Byte) :
    dateTokens (token ++ 0x2f :: text) = token :: dateTokens text := by
  induction token with
  | nil => rfl
  | cons b token ih =>
    simp only [List.all_cons, Bool.and_eq_true] at h
    rw [List.cons_append, dateTokens, if_neg (isDigit_ne h.1), ih h.2]

lemma IsDate.digits (h : IsDate value) : dateMonth value % 100 = dateMonth value ∧
    dateDay value % 100 = dateDay value ∧ dateYear value % 10000 = dateYear value ∧
    value = date (dateYear value) (dateMonth value) (dateDay value) ∧
    0 < dateMonth value ∧ dateMonth value ≤ 12 ∧ 0 < dateDay value ∧ dateDay value ≤ 31 := by
  obtain ⟨year, month, day, rfl, hyear, hmonth0, hmonth, hday0, hday⟩ := h
  have hvalue := date_eq (show month < 2 ^ 8 by omega) (show day < 2 ^ 8 by omega)
    (show year < 2 ^ 16 by omega)
  have hy : dateYear (date year month day) = year := by
    rw [dateYear_eq, hvalue]
    omega
  have hm : dateMonth (date year month day) = month := by
    rw [dateMonth_eq, hvalue, show (year * 2 ^ 16 + month * 2 ^ 8 + day) / 2 ^ 8 =
      year * 2 ^ 8 + month by omega]
    omega
  have hd : dateDay (date year month day) = day := by
    rw [dateDay_eq, hvalue]
    omega
  rw [hy, hm, hd]
  refine ⟨by omega, by omega, by omega, rfl, hmonth0, hmonth, hday0, hday⟩

lemma dateParse_spell (h : IsDate value) : dateParse (dateSpell value) = value := by
  obtain ⟨hm, hd, hy, hvalue, hm0, hm12, hd0, hd31⟩ := h.digits
  have htwo : ∀ n, (twoDigits n).all isDigit = true := fun n => by
    simp [twoDigits, decimalDigit_isDigit]
  have hfour : ∀ n, (fourDigits n).all isDigit = true := fun n => by
    simp [fourDigits, twoDigits, decimalDigit_isDigit]
  have hspell : dateSpell value = twoDigits (dateMonth value) ++ 0x2f ::
      (twoDigits (dateDay value) ++ 0x2f :: fourDigits (dateYear value)) := by
    rw [dateSpell, hm, hd, hy]
    simp
  have htokens : dateTokens (dateSpell value) =
      [twoDigits (dateMonth value), twoDigits (dateDay value), fourDigits (dateYear value)] := by
    rw [hspell, dateTokens_append (htwo _), dateTokens_append (htwo _), dateTokens_last (hfour _)]
  have hlength : ¬ (dateSpell value).length ≥ 11 := by
    rw [hspell]
    simp [twoDigits, fourDigits]
  rw [dateParse, if_neg hlength, htokens, dateRead, if_neg (by simp [twoDigits, decimalDigit_isDigit]),
    twoDigits_value (by omega), if_neg (by omega), dateRead,
    if_neg (by simp [twoDigits, decimalDigit_isDigit]), twoDigits_value (by omega),
    if_neg (by omega), dateRead, if_neg (by simp [fourDigits, twoDigits, decimalDigit_isDigit]),
    fourDigits_value (by omega), if_neg (by simp [fourDigits, twoDigits]),
    if_pos (by simp [fourDigits, twoDigits]), dateRead]
  exact hvalue.symm

end dates

section pairs

variable (offset : ℕ)

lemma memoryDeviceSize_handlers (h : raw < 2 ^ 16) (hescape : raw ≠ 0x7fff) :
    HandlersAgree (memoryDeviceSizeField offset) (numberData raw) := by
  obtain ⟨hvalue, hencoded, hagree⟩ := memoryDeviceSize_agree h hescape
  refine numbers_agree rfl rfl (show 8 ∈ [1, 2, 4, 8] by decide) ?_ ?_ ?_ <;> simp only [Nat.mod_eq_of_lt h]
  · exact hvalue
  · exact hencoded
  · rw [Nat.mod_eq_of_lt hencoded, hagree]

lemma memoryDeviceSizeEx_handlers (h : raw < 2 ^ 32) :
    HandlersAgree (memoryDeviceSizeExField offset) (numberData raw) := by
  obtain ⟨hvalue, hencoded, hagree⟩ := memoryDeviceSizeEx_agree h
  refine numbers_agree rfl rfl (show 8 ∈ [1, 2, 4, 8] by decide) ?_ ?_ ?_ <;> simp only [Nat.mod_eq_of_lt h]
  · exact hvalue
  · exact hencoded
  · rw [Nat.mod_eq_of_lt hencoded, hagree]

lemma cacheLevel_handlers (h : raw < 2 ^ 3) :
    HandlersAgree (cacheLevelField offset) (numberData raw) := by
  refine numbers_agree rfl rfl (show 2 ∈ [1, 2, 4, 8] by decide) ?_ ?_ ?_
  · exact (show raw + 1 < 256 ^ 2 by omega)
  · exact (show (if raw + 1 > 0 then raw + 1 - 1 else 0) < 2 ^ 3 by simpa using h)
  · simp

lemma cacheSize_handlers (h : raw < 2 ^ 16) :
    HandlersAgree (cacheSizeField offset) (numberData raw) := by
  obtain ⟨hvalue, hencoded, hagree⟩ := cacheSizeOf_agree (show 0 < 16 by decide) h
  refine numbers_agree rfl rfl (show 8 ∈ [1, 2, 4, 8] by decide) ?_ ?_ ?_ <;> simp only [Nat.mod_eq_of_lt h]
  · exact hvalue.trans_le (show 2 ^ 16 * 2 ^ 16 ≤ 256 ^ 8 by norm_num)
  · exact hencoded
  · rw [cacheSize, cacheSize, cacheEncodedSize, Nat.mod_eq_of_lt hencoded]
    exact hagree

lemma cacheSizeEx_handlers (h : raw < 2 ^ 32) :
    HandlersAgree (cacheSizeExField offset) (numberData raw) := by
  obtain ⟨hvalue, hencoded, hagree⟩ := cacheSizeOf_agree (show 0 < 32 by decide) h
  refine numbers_agree rfl rfl (show 8 ∈ [1, 2, 4, 8] by decide) ?_ ?_ ?_ <;> simp only [Nat.mod_eq_of_lt h]
  · exact hvalue.trans_le (show 2 ^ 32 * 2 ^ 16 ≤ 256 ^ 8 by norm_num)
  · exact hencoded
  · rw [cacheSizeEx, cacheSizeEx, cacheEncodedSizeEx, Nat.mod_eq_of_lt hencoded]
    exact hagree

lemma firmwareRomSize_handlers (h : raw < 2 ^ 8) :
    HandlersAgree (firmwareRomSizeField offset) (numberData raw) := by
  obtain ⟨hvalue, hencoded⟩ := firmwareRomSize_agree h
  refine numbers_agree rfl rfl (show 8 ∈ [1, 2, 4, 8] by decide) ?_ ?_ ?_ <;>
    simp only [Nat.mod_eq_of_lt h, hencoded]
  · exact hvalue
  · exact h

lemma firmwareRomSizeEx_handlers (h : raw < 2 ^ 16) :
    HandlersAgree (firmwareRomSizeExField offset) (numberData raw) := by
  obtain ⟨hvalue, hencoded, hagree⟩ := firmwareRomSizeEx_agree h
  refine numbers_agree rfl rfl (show 8 ∈ [1, 2, 4, 8] by decide) ?_ ?_ ?_ <;> simp only [Nat.mod_eq_of_lt h]
  · exact hvalue
  · exact hencoded
  · rw [Nat.mod_eq_of_lt hencoded, hagree]

lemma firmwareVersion_handlers : HandlersAgree (firmwareVersionField offset) (numberData raw) := by
  obtain ⟨hvalue, hencoded, hagree⟩ := firmwareVersion_agree
  exact numbers_agree rfl rfl (show 4 ∈ [1, 2, 4, 8] by decide) hvalue hencoded hagree

lemma firmwareReleaseDate_handlers (data : FieldData) :
    HandlersAgree (firmwareReleaseDateField offset) data := by
  obtain ⟨value, hwrites, hvalue⟩ : ∃ value, firmwareDecodeDate data =
      some [(0, .number (UInt64.ofNat value))] ∧ (value = dateNone ∨ IsDate value) := by
    refine ⟨_, rfl, ?_⟩
    cases data.string with
    | text entry bytes => exact dateParse_isDate bytes
    | null => exact .inl rfl
    | data position bytes => exact .inl rfl
  have hlt : value < 2 ^ 32 := by
    rcases hvalue with rfl | ⟨year, month, day, rfl, hyear, -, hmonth, -, hday⟩
    · decide
    · rw [date_eq (by omega) (by omega) (by omega)]
      omega
  refine ⟨_, _, _, rfl, rfl, hwrites, fun memory base => ?_⟩
  have hload : (((memory.writes base [(0, .number (UInt64.ofNat value))]).shift base).number 0).toNat
      % 2 ^ 32 = value := by
    simp only [Memory.writes, Memory.write, Memory.shift, Memory.setNumber, Nat.add_zero,
      Function.update_self]
    rw [UInt64.toNat_ofNat_of_lt' (hlt.trans (by decide)), Nat.mod_eq_of_lt hlt]
  rw [firmwareEncodeDate, hload]
  by_cases hnone : value = dateNone
  · exact ⟨FieldData.empty, if_pos hnone, rfl, by rw [hnone]; rfl⟩
  · refine ⟨_, if_neg hnone, rfl, ?_⟩
    rw [firmwareDecodeDate]
    simp only
    rw [dateParse_spell (hvalue.resolve_left hnone)]

lemma memoryModuleSize_agree : ∀ raw < 2 ^ 8,
    (memoryModuleSize raw).value < 2 ^ 64 ∧ (memoryModuleSize raw).bankCount < 2 ^ 32 ∧
      (memoryModuleSize raw).status < 2 ^ 32 ∧
      memoryModuleEncodedSize (memoryModuleSize raw) < 2 ^ 8 ∧
      memoryModuleSize (memoryModuleEncodedSize (memoryModuleSize raw)) = memoryModuleSize raw := by
  decide +kernel

lemma moduleSize_loaded {size : ModuleSize} (hvalue : size.value < 2 ^ 64)
    (hbanks : size.bankCount < 2 ^ 32) (hstatus : size.status < 2 ^ 32) (memory : Memory) (base : ℕ) :
    ModuleSize.load ((memory.writes base size.writes).shift base) = size := by
  have hlast : base + 8 ≠ base + 12 ∧ base ≠ base + 12 ∧ base ≠ base + 8 := by omega
  simp only [ModuleSize.load, ModuleSize.writes, Memory.writes, Memory.write, Memory.shift,
    Memory.setNumber, Nat.add_zero, Function.update_self, Function.update_of_ne hlast.1,
    Function.update_of_ne hlast.2.1, Function.update_of_ne hlast.2.2]
  rw [UInt64.toNat_ofNat_of_lt' hvalue, UInt64.toNat_ofNat_of_lt' (hbanks.trans (by decide)),
    UInt64.toNat_ofNat_of_lt' (hstatus.trans (by decide)), Nat.mod_eq_of_lt hbanks,
    Nat.mod_eq_of_lt hstatus]

lemma memoryModuleSize_handlers (h : raw < 2 ^ 8) :
    HandlersAgree (memoryModuleSizeField offset) (numberData raw) := by
  obtain ⟨hvalue, hbanks, hstatus, hencoded, hagree⟩ := memoryModuleSize_agree raw h
  have hraw : (numberData raw).number % 2 ^ 8 = raw := Nat.mod_eq_of_lt h
  refine ⟨_, _, (memoryModuleSize raw).writes, rfl, rfl, ?_, fun memory base =>
    ⟨numberData (memoryModuleEncodedSize (memoryModuleSize raw)), ?_, dataFits_number hencoded, ?_⟩⟩
  · rw [memoryModuleDecodeSize, hraw]
  · rw [memoryModuleEncodeSize, moduleSize_loaded hvalue hbanks hstatus]
  · rw [memoryModuleDecodeSize, numberData, Nat.mod_eq_of_lt hencoded, hagree]

end pairs

/-- What the handlers decode is encoded as data of the field which decodes into it again, whatever
the field carries; the word which points at the extended size carries no size. -/
theorem handlers_agree (offset : ℕ) :
    (∀ raw < 2 ^ 16, raw ≠ 0x7fff →
      HandlersAgree (memoryDeviceSizeField offset) (numberData raw)) ∧
    (∀ raw < 2 ^ 32, HandlersAgree (memoryDeviceSizeExField offset) (numberData raw)) ∧
    (∀ raw < 2 ^ 3, HandlersAgree (cacheLevelField offset) (numberData raw)) ∧
    (∀ raw < 2 ^ 16, HandlersAgree (cacheSizeField offset) (numberData raw)) ∧
    (∀ raw < 2 ^ 32, HandlersAgree (cacheSizeExField offset) (numberData raw)) ∧
    (∀ raw < 2 ^ 8, HandlersAgree (firmwareRomSizeField offset) (numberData raw)) ∧
    (∀ raw < 2 ^ 16, HandlersAgree (firmwareRomSizeExField offset) (numberData raw)) ∧
    (∀ raw < 2 ^ 16, HandlersAgree (firmwareVersionField offset) (numberData raw)) ∧
    (∀ data, HandlersAgree (firmwareReleaseDateField offset) data) ∧
    (∀ raw < 2 ^ 8, HandlersAgree (memoryModuleSizeField offset) (numberData raw)) :=
  ⟨fun _ => memoryDeviceSize_handlers offset, fun _ => memoryDeviceSizeEx_handlers offset,
    fun _ => cacheLevel_handlers offset, fun _ => cacheSize_handlers offset,
    fun _ => cacheSizeEx_handlers offset, fun _ => firmwareRomSize_handlers offset,
    fun _ => firmwareRomSizeEx_handlers offset, fun _ _ => firmwareVersion_handlers offset,
    firmwareReleaseDate_handlers offset, fun _ => memoryModuleSize_handlers offset⟩

theorem handlers_agree_kilobytes : HandlersAgree (memoryDeviceSizeField 0) (numberData 0x8401) :=
  (handlers_agree 0).1 0x8401 (by decide) (by decide)

theorem escape_disagrees : ¬ HandlersAgree (memoryDeviceSizeField 0) (numberData 0x7fff) := by
  rintro ⟨decode, encode, writes, hdecode, hencode, hwrites, hagree⟩
  obtain ⟨again, hagain, -, hsame⟩ := hagree Memory.zero 0
  cases hdecode
  cases hencode
  have hvalue : writes = [(0, .number (UInt64.ofNat (0x7fff * 2 ^ 20)))] := by
    rw [← Option.some.injEq, ← hwrites]
    decide
  subst hvalue
  have hraw : again.number = 0xfc00 := by
    rw [← Option.some.inj hagain]
    decide
  rw [decodeNumber, hraw] at hsame
  exact absurd hsame (by decide)

end OpenDmi

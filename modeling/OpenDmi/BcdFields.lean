import OpenDmi.EncodeOne

namespace OpenDmi

open Bytes

variable {source : Source} {encoder : Encoder} {version base index n number raw : ℕ} {field : Field}
  {all : List Field} {choices : List Choice} {info : Memory} {state : DecodeState}
  {out : EncodeState}

def IsDecimal : ℕ → ℕ → Prop
  | 0, _ => True
  | n + 1, raw => raw % 16 ≤ 9 ∧ IsDecimal n (raw / 16)

instance decidableIsDecimal : ∀ n raw, Decidable (IsDecimal n raw)
  | 0, _ => .isTrue trivial
  | n + 1, raw =>
    have := decidableIsDecimal n (raw / 16)
    inferInstanceAs (Decidable (_ ∧ _))

def nibblesValue : ℕ → ℕ → ℕ
  | 0, _ => 0
  | n + 1, raw => raw % 16 + 10 * nibblesValue n (raw / 16)

lemma bcdDigits_nibbles (n raw : ℕ) : bcdDigits n raw = nibblesValue (2 * n) raw := by
  induction n generalizing raw with
  | zero => rfl
  | succ n ih =>
    have hdiv : raw / 16 / 16 = raw / 256 := by omega
    rw [bcdDigits, ih, show 2 * (n + 1) = 2 * n + 1 + 1 by ring, nibblesValue, nibblesValue, hdiv]
    ring

lemma bcdSpell_nibbles (h : IsDecimal n raw) (hraw : raw < 16 ^ n) :
    bcdSpell n (nibblesValue n raw) = (raw, 0) := by
  induction n generalizing raw with
  | zero =>
    have hzero : raw = 0 := by simpa using hraw
    simp [bcdSpell, nibblesValue, hzero]
  | succ n ih =>
    have hdiv : raw / 16 < 16 ^ n := Nat.div_lt_of_lt_mul (by rwa [pow_succ'] at hraw)
    have hlow := h.1
    have hrest : (raw % 16 + 10 * nibblesValue n (raw / 16)) / 10 = nibblesValue n (raw / 16) := by
      omega
    rw [bcdSpell, nibblesValue, hrest, ih h.2 hdiv]
    simp only [Prod.mk.injEq, and_true]
    omega

lemma bcdSpell_left (n number : ℕ) : (bcdSpell n number).2 = number / 10 ^ n := by
  induction n generalizing number with
  | zero => simp [bcdSpell]
  | succ n ih =>
    rw [bcdSpell]
    simp only
    rw [ih, Nat.div_div_eq_div_mul, pow_succ']

lemma bcdSpell_digits (n number : ℕ) : IsDecimal n (bcdSpell n number).1 ∧
    (bcdSpell n number).1 < 16 ^ n ∧ nibblesValue n (bcdSpell n number).1 = number % 10 ^ n := by
  induction n generalizing number with
  | zero => simp [bcdSpell, IsDecimal, nibblesValue, Nat.mod_one]
  | succ n ih =>
    obtain ⟨hdecimal, hlt, hvalue⟩ := ih (number / 10)
    have hlow : (bcdSpell (n + 1) number).1 % 16 = number % 10 := by
      simp only [bcdSpell]
      omega
    have hhigh : (bcdSpell (n + 1) number).1 / 16 = (bcdSpell n (number / 10)).1 := by
      simp only [bcdSpell]
      omega
    refine ⟨⟨by omega, by rwa [hhigh]⟩, ?_, ?_⟩
    · simp only [bcdSpell]
      rw [pow_succ']
      omega
    · rw [nibblesValue, hlow, hhigh, hvalue, pow_succ', Nat.mod_mul]

lemma bcdSpell_iff (hraw : raw < 256 ^ n) : bcdSpell (2 * n) number = (raw, 0) ↔
    IsDecimal (2 * n) raw ∧ bcdDigits n raw = number := by
  have hpow : 256 ^ n = 16 ^ (2 * n) := by
    rw [pow_mul]
    norm_num
  rw [bcdDigits_nibbles]
  constructor
  · intro h
    obtain ⟨hdecimal, -, hvalue⟩ := bcdSpell_digits (2 * n) number
    have hleft := bcdSpell_left (2 * n) number
    rw [h] at hdecimal hvalue hleft
    have hlt : number < 10 ^ (2 * n) := (Nat.div_eq_zero_iff_lt (by positivity)).mp hleft.symm
    exact ⟨hdecimal, by rw [hvalue, Nat.mod_eq_of_lt hlt]⟩
  · rintro ⟨hdecimal, rfl⟩
    exact bcdSpell_nibbles hdecimal (hpow ▸ hraw)

lemma leStore_inj (ha : raw < 256 ^ n) (hb : number < 256 ^ n) :
    leStore n raw = leStore n number ↔ raw = number := by
  refine ⟨fun h => ?_, fun h => by rw [h]⟩
  have hload := congrArg leLoad h
  rwa [leLoad_leStore, leLoad_leStore, Nat.mod_eq_of_lt ha, Nat.mod_eq_of_lt hb] at hload

lemma putBytes_inj {bytes bytes' : List Byte} :
    putBytes encoder bytes out = putBytes encoder bytes' out ↔ bytes = bytes' := by
  refine ⟨fun h => ?_, fun h => by rw [h]⟩
  have hwritten := congrArg EncodeState.written h
  exact List.append_cancel_left hwritten

def bcdNumber (field : Field) (raw : ℕ) : ℕ :=
  if field.params.unknownRaw ≠ 0 ∧ raw = field.params.unknownRaw then raw
  else bcdDigits field.params.length raw

structure BcdField (field : Field) : Prop where
  type : field.type = .bcd
  plain : field.params.decode = none
  positive : 0 < field.params.length
  bounded : field.params.length ≤ 8
  size : field.member.size ∈ [1, 2, 4, 8]

lemma memberLoad_all {member : Member} (hsize : member.size ∈ [1, 2, 4, 8]) :
    memberLoad member (UInt64.ofNat ((2 ^ 64 - 1) % 256 ^ member.size)) = memberMax member := by
  rw [memberLoad_store (show memberStore member (2 ^ 64 - 1) = some _ from if_pos hsize)]
  simp only [List.mem_cons, List.not_mem_nil, or_false] at hsize
  rcases hsize with h | h | h | h <;> simp [memberMax, h]

lemma BcdField.loaded (hf : BcdField field) {value : ℕ}
    (hfits : state.position + field.params.length ≤ source.body.length)
    (hraw : raw = leLoad (window source.body state.position field.params.length)) :
    memberLoad field.member ((decodeValue source field (some value) state).2.2.memory.number value) =
      if field.params.unknownRaw ≠ 0 ∧ bcdNumber field raw = field.params.unknownRaw then
        memberMax field.member
      else bcdNumber field raw % 256 ^ field.member.size := by
  have hnumber : readNumber source field.params.length state =
      some (raw, { state with position := state.position + field.params.length }) := by
    have hlength : ¬ (field.params.length = 0 ∨ field.params.length > 8) := by
      have h0 := hf.positive
      have h8 := hf.bounded
      omega
    rw [readNumber, if_neg hlength, readerGet, if_pos hfits, hraw]
    rfl
  have hread : readBcd source field state = some (bcdNumber field raw,
      { state with position := state.position + field.params.length }) := by
    rw [readBcd, if_neg (by have h8 := hf.bounded; omega), hnumber]
    rfl
  obtain ⟨n, hn⟩ : ∃ n, memberStore field.member (bcdNumber field raw) = some n := by
    rw [memberStore, if_pos hf.size]
    exact ⟨_, rfl⟩
  simp only [decodeValue, hf.type, hread, applyTo, fieldApply, fieldIsNumeric, hf.plain]
  by_cases hu : field.params.unknownRaw ≠ 0 ∧ bcdNumber field raw = field.params.unknownRaw
  · rw [if_pos hu, if_pos ⟨hu.1, hu.2, rfl⟩, memberStore, if_pos hf.size]
    simp only [Option.map_some, Memory.writes, Memory.write, Memory.setNumber, Nat.add_zero,
      Function.update_self]
    exact memberLoad_all hf.size
  · rw [if_neg hu, if_neg fun h => hu ⟨h.1, h.2.1⟩, hn]
    simp only [Option.map_some, Memory.writes, Memory.write, Memory.setNumber, Nat.add_zero,
      Function.update_self]
    exact memberLoad_store hn

lemma BcdField.put (hf : BcdField field) (raw : ℕ) :
    putRaw encoder field.params.length raw out =
      some (putBytes encoder (leStore field.params.length raw) out) := by
  have h0 := hf.positive
  have h8 := hf.bounded
  rw [putRaw, if_neg (by omega)]

lemma BcdField.encodes (hf : BcdField field) (encoder : Encoder) (value : ℕ) (out : EncodeState)
    (hload : memberLoad field.member (info.number value) = number) :
    encodeBcd encoder field info value field.params.length out =
      if field.params.unknownRaw ≠ 0 ∧ number = memberMax field.member then
        some (putBytes encoder (leStore field.params.length field.params.unknownRaw) out)
      else if number / 10 ^ (2 * field.params.length) ≠ 0 then none
      else some (putBytes encoder (leStore field.params.length
        (bcdSpell (2 * field.params.length) number).1) out) := by
  have h8 := hf.bounded
  simp only [encodeBcd, hload]
  rw [if_neg (by omega), hf.put, bcdSpell_left, hf.put]

lemma BcdField.encodeValue_eq (hf : BcdField field) (version index : ℕ) (all : List Field)
    (hfits : out.position + field.params.length ≤ source.body.length) :
    encodeValue (preserving source version) all index base field info choices out =
      (encodeBcd (preserving source version) field info (base + field.member.offset)
        field.params.length out).map fun state => (choices, state) := by
  have hroom : ¬ source.body.length - out.position < fieldWidth field := by
    simp only [fieldWidth, hf.type]
    omega
  rw [encodeValue]
  simp only [encoderRemaining, fieldIsFixed, hf.type, encodeFixed]
  rw [if_neg fun h => hroom h.2, if_pos trivial]
  simp only [fieldWidth, hf.type]

def BcdKept (field : Field) (raw : ℕ) : Prop :=
  let number := bcdDigits field.params.length raw
  if field.params.unknownRaw ≠ 0 ∧ (raw = field.params.unknownRaw ∨
      number = field.params.unknownRaw ∨ number = memberMax field.member) then
    field.params.unknownRaw % 256 ^ field.params.length = raw
  else IsDecimal (2 * field.params.length) raw

def BcdReadBack (field : Field) (number : ℕ) : Prop :=
  ¬ (field.params.unknownRaw ≠ 0 ∧ (number = field.params.unknownRaw ∨
    field.params.unknownRaw < 256 ^ field.params.length ∧
    IsDecimal (2 * field.params.length) field.params.unknownRaw ∧
    bcdDigits field.params.length field.params.unknownRaw = number))

lemma bcdNumber_stored (hwide : bcdDigits field.params.length raw < 256 ^ field.member.size) :
    (if field.params.unknownRaw ≠ 0 ∧ bcdNumber field raw = field.params.unknownRaw then
      memberMax field.member else bcdNumber field raw % 256 ^ field.member.size) =
    if field.params.unknownRaw ≠ 0 ∧ (raw = field.params.unknownRaw ∨
        bcdDigits field.params.length raw = field.params.unknownRaw) then memberMax field.member
    else bcdDigits field.params.length raw := by
  by_cases hraw : field.params.unknownRaw ≠ 0 ∧ raw = field.params.unknownRaw
  · rw [bcdNumber, if_pos hraw, if_pos hraw, if_pos ⟨hraw.1, .inl hraw.2⟩]
  · rw [bcdNumber, if_neg hraw, Nat.mod_eq_of_lt hwide]
    refine if_congr ⟨fun h => ⟨h.1, .inr h.2⟩, fun h => ⟨h.1, h.2.resolve_left fun h' => ?_⟩⟩ rfl rfl
    exact hraw ⟨h.1, h'⟩

lemma BcdField.kept_iff (hf : BcdField field) {value : ℕ} (hraw : raw < 256 ^ field.params.length)
    (hload : memberLoad field.member (info.number value) =
      if field.params.unknownRaw ≠ 0 ∧ (raw = field.params.unknownRaw ∨
        bcdDigits field.params.length raw = field.params.unknownRaw) then memberMax field.member
      else bcdDigits field.params.length raw) :
    encodeBcd encoder field info value field.params.length out =
      some (putBytes encoder (leStore field.params.length raw) out) ↔ BcdKept field raw := by
  have hunknown : leStore field.params.length field.params.unknownRaw =
      leStore field.params.length raw ↔
        field.params.unknownRaw % 256 ^ field.params.length = raw := by
    rw [← leStore_mod, leStore_inj (Nat.mod_lt _ (by positivity)) hraw]
  have hpow : 256 ^ field.params.length = 16 ^ (2 * field.params.length) := by
    rw [pow_mul]
    norm_num
  rw [hf.encodes encoder value out hload, BcdKept]
  by_cases hshown : field.params.unknownRaw ≠ 0 ∧ (raw = field.params.unknownRaw ∨
      bcdDigits field.params.length raw = field.params.unknownRaw ∨
      bcdDigits field.params.length raw = memberMax field.member)
  · have hmax : (if field.params.unknownRaw ≠ 0 ∧ (raw = field.params.unknownRaw ∨
        bcdDigits field.params.length raw = field.params.unknownRaw) then memberMax field.member
        else bcdDigits field.params.length raw) = memberMax field.member := by
      split_ifs with h
      · rfl
      · exact (hshown.2.resolve_left fun h' => h ⟨hshown.1, .inl h'⟩).resolve_left
          fun h' => h ⟨hshown.1, .inr h'⟩
    rw [if_pos ⟨hshown.1, hmax⟩, if_pos hshown, Option.some.injEq, putBytes_inj, hunknown]
  · have hnumber : ¬ (field.params.unknownRaw ≠ 0 ∧ (raw = field.params.unknownRaw ∨
        bcdDigits field.params.length raw = field.params.unknownRaw)) := fun h =>
      hshown ⟨h.1, h.2.imp_right .inl⟩
    rw [if_neg hnumber, if_neg fun h => hshown ⟨h.1, .inr (.inr h.2)⟩, if_neg hshown]
    have hspell : bcdSpell (2 * field.params.length) (bcdDigits field.params.length raw) = (raw, 0) ↔
        IsDecimal (2 * field.params.length) raw ∧ _ := bcdSpell_iff hraw
    have hleft := bcdSpell_left (2 * field.params.length) (bcdDigits field.params.length raw)
    obtain ⟨-, hlt, -⟩ := bcdSpell_digits (2 * field.params.length)
      (bcdDigits field.params.length raw)
    by_cases hover : bcdDigits field.params.length raw / 10 ^ (2 * field.params.length) ≠ 0
    · rw [if_pos hover]
      refine ⟨fun h => absurd h (by simp), fun h => ?_⟩
      rw [hspell.mpr ⟨h, rfl⟩] at hleft
      exact absurd hleft.symm hover
    · rw [if_neg hover, Option.some.injEq, putBytes_inj, leStore_inj (hpow ▸ hlt) hraw]
      refine ⟨fun h => (hspell.mp (Prod.ext h ?_)).1, fun h => by rw [hspell.mpr ⟨h, rfl⟩]⟩
      rw [hleft]
      exact not_ne_iff.mp hover

lemma BcdField.readBack_iff (hf : BcdField field) {value : ℕ} (hsize : number < 256 ^ field.member.size)
    (hlt : number < 10 ^ (2 * field.params.length))
    (hknown : ¬ (field.params.unknownRaw ≠ 0 ∧ number = memberMax field.member))
    (hfits : state.position + field.params.length ≤ source.body.length)
    (hbytes : window source.body state.position field.params.length =
      leStore field.params.length (bcdSpell (2 * field.params.length) number).1) :
    memberLoad field.member ((decodeValue source field (some value) state).2.2.memory.number value) =
      number ↔ BcdReadBack field number := by
  obtain ⟨hdecimal, hspelled, hvalue⟩ := bcdSpell_digits (2 * field.params.length) number
  have hpow : 256 ^ field.params.length = 16 ^ (2 * field.params.length) := by
    rw [pow_mul]
    norm_num
  rw [Nat.mod_eq_of_lt hlt, ← bcdDigits_nibbles] at hvalue
  rw [← hpow] at hspelled
  have hraw : (bcdSpell (2 * field.params.length) number).1 =
      leLoad (window source.body state.position field.params.length) := by
    rw [hbytes, leLoad_leStore, Nat.mod_eq_of_lt hspelled]
  have hunknown : (bcdSpell (2 * field.params.length) number).1 = field.params.unknownRaw ↔
      field.params.unknownRaw < 256 ^ field.params.length ∧
      IsDecimal (2 * field.params.length) field.params.unknownRaw ∧
      bcdDigits field.params.length field.params.unknownRaw = number := by
    constructor
    · intro h
      rw [← h]
      exact ⟨hspelled, hdecimal, hvalue⟩
    · rintro ⟨hlt', hspells⟩
      rw [(bcdSpell_iff hlt').mpr hspells]
  rw [hf.loaded hfits hraw, bcdNumber_stored (by rwa [hvalue]), hvalue, BcdReadBack, ← hunknown]
  split_ifs with h
  · exact ⟨fun hmax => absurd ⟨h.1, hmax.symm⟩ hknown, fun hnot => absurd ⟨h.1, h.2.symm⟩ hnot⟩
  · exact ⟨fun _ hnot => h ⟨hnot.1, hnot.2.symm⟩, fun _ => rfl⟩

/-- Source bytes are written back exactly when they spell what they are read as; of the values
which the field has room for, the ones which do not stand for the unknown one are read back, and
the others are refused. -/
theorem bcdField_round_trips (hf : BcdField field) :
    (∀ (source : Source) (version base index raw : ℕ) (all : List Field) (choices : List Choice)
        (info : Memory) (state : DecodeState) (out : EncodeState),
      state.position + field.params.length ≤ source.body.length → out.position = state.position →
      raw = leLoad (window source.body state.position field.params.length) →
      bcdDigits field.params.length raw < 256 ^ field.member.size →
      info.number (base + field.member.offset) =
        (decodeValue source field (some (base + field.member.offset)) state).2.2.memory.number
          (base + field.member.offset) →
      (encodeValue (preserving source version) all index base field info choices out =
          some (choices, putBytes (preserving source version)
            (window source.body state.position field.params.length) out) ↔
        BcdKept field raw)) ∧
    (∀ (encoder : Encoder) (info : Memory) (value number : ℕ) (out : EncodeState),
      memberLoad field.member (info.number value) = number →
      number < 10 ^ (2 * field.params.length) →
      ¬ (field.params.unknownRaw ≠ 0 ∧ number = memberMax field.member) →
      ∃ bytes, bytes.length = field.params.length ∧
        encodeBcd encoder field info value field.params.length out =
          some (putBytes encoder bytes out) ∧
        ∀ (source : Source) (state : DecodeState),
          state.position + field.params.length ≤ source.body.length →
          window source.body state.position field.params.length = bytes →
          (memberLoad field.member
            ((decodeValue source field (some value) state).2.2.memory.number value) = number ↔
              BcdReadBack field number)) ∧
    ∀ (encoder : Encoder) (info : Memory) (value : ℕ) (out : EncodeState),
      10 ^ (2 * field.params.length) ≤ memberLoad field.member (info.number value) →
      ¬ (field.params.unknownRaw ≠ 0 ∧
        memberLoad field.member (info.number value) = memberMax field.member) →
      encodeBcd encoder field info value field.params.length out = none := by
  refine ⟨fun source version base index raw all choices info state out hfits hpos hraw hwide hinfo =>
    ?_, fun encoder info value number out hload hlt hknown => ?_,
    fun encoder info value out hover hknown => ?_⟩
  · have hlength := window_length hfits
    have hbytes : leStore field.params.length raw =
        window source.body state.position field.params.length := by
      have hstore := leStore_leLoad (window source.body state.position field.params.length)
      rwa [hlength, ← hraw] at hstore
    have hloaded := @BcdField.loaded source raw field state hf (base + field.member.offset) hfits hraw
    rw [bcdNumber_stored hwide, ← hinfo] at hloaded
    rw [hf.encodeValue_eq version index all (by rw [hpos]; exact hfits),
      ← hf.kept_iff (hraw ▸ number_lt hfits) hloaded, hbytes]
    cases encodeBcd (preserving source version) field info (base + field.member.offset)
      field.params.length out <;> simp
  · have hsize : number < 256 ^ field.member.size := by
      rw [← hload, memberLoad, if_pos hf.size]
      exact Nat.mod_lt _ (by positivity)
    refine ⟨leStore field.params.length (bcdSpell (2 * field.params.length) number).1,
      leStore_length _ _, ?_, fun source state hin hbytes => ?_⟩
    · rw [hf.encodes encoder value out hload, if_neg hknown, if_neg (by simp [Nat.div_eq_of_lt hlt])]
    · exact hf.readBack_iff hsize hlt hknown hin hbytes
  · have hdiv : memberLoad field.member (info.number value) / 10 ^ (2 * field.params.length) ≠ 0 := by
      rw [Ne, Nat.div_eq_zero_iff_lt (by positivity)]
      omega
    rw [hf.encodes encoder value out rfl, if_neg hknown, if_pos hdiv]

def monthField : Field := ⟨⟨0, 1⟩, .bcd, { length := 1, unknownRaw := 0xff }, []⟩

def monthSource : Source := ⟨200, 0, [200, 5, 0, 0, 0x1a], [], 0x030900, false⟩

lemma monthField_decimal : BcdField monthField := ⟨rfl, rfl, by decide, by decide, by decide⟩

theorem bcdField_round_trips_month :
    encodeValue (preserving { monthSource with body := [200, 5, 0, 0, 0x12] } 0) [monthField] 0 0
        monthField (fieldsDecode { monthSource with body := [200, 5, 0, 0, 0x12] } [monthField]
          0).2.memory [] (encoderInitialize (preserving
          { monthSource with body := [200, 5, 0, 0, 0x12] } 0)) =
      some ([], putBytes (preserving { monthSource with body := [200, 5, 0, 0, 0x12] } 0) [0x12]
        (encoderInitialize (preserving { monthSource with body := [200, 5, 0, 0, 0x12] } 0))) :=
  ((bcdField_round_trips monthField_decimal).1 { monthSource with body := [200, 5, 0, 0, 0x12] } 0 0
    0 0x12 [monthField] [] _ (decoderInitialize 0) _ (by decide) (by decide) (by decide)
    (by decide) (by decide)).mpr (by rw [BcdKept]; decide)

theorem month_rewritten : (fieldsDecode monthSource [monthField] 0).1 = true ∧
    fieldsEncode (preserving monthSource 0) [monthField]
      (fieldsDecode monthSource [monthField] 0).2.memory = some [200, 5, 0, 0, 0x20] := by
  decide +kernel

end OpenDmi

import OpenDmi.Lockstep
import Mathlib.Data.Nat.Bitwise

/-! Words which hold the bits of the bytes read and not taken yet, or of the ranges put and not
written yet. -/

namespace OpenDmi

open Bytes

def uintmax (value : ℕ) : ℕ := value % 2 ^ 64

section Functions

variable (word : ℕ → ℕ)

def bitsMask (bits : ℕ) : ℕ := word (1 <<< bits) - 1

def fillWord (source : Source) (bits : ℕ) : ℕ → DecodeState → Bool × DecodeState
  | 0, state => (true, state)
  | fuel + 1, state =>
    if state.bitsCount < bits then
      match readerGet source 1 state with
      | none => (false, state)
      | some (bytes, state) => fillWord source bits fuel
        { state with
          bitsValue := state.bitsValue ||| word (leLoad bytes <<< state.bitsCount)
          bitsCount := state.bitsCount + 8 }
    else (true, state)

/-- No more bits are taken at once than a word holds beside the ones of a byte. -/
def takeWord (source : Source) (bits : ℕ) (state : DecodeState) :
    Option (Bool × ℕ × DecodeState) :=
  if 0 < bits ∧ bits ≤ 64 - 8 then
    match fillWord word source bits bits state with
    | (false, state) => some (false, 0, state)
    | (true, state) =>
      some (true, state.bitsValue &&& bitsMask word bits,
        { state with
          bitsValue := state.bitsValue >>> bits
          bitsCount := state.bitsCount - bits
          bitsTaken := state.bitsTaken + bits })
  else none

def decodePadWord (source : Source) (unit : ℕ) (state : DecodeState) :
    Option (Bool × DecodeState) :=
  if unit = 0 then none
  else
    let taken := state.bitsTaken % unit
    let closed :=
      if taken ≠ 0 then
        (takeWord word source (unit - taken) state).map fun (ok, _, state) => (ok, state)
      else some (true, state)
    match closed with
    | none => none
    | some (false, state) => some (false, state)
    | some (true, state) =>
      if state.bitsCount = 0 then some (true, { state with bitsTaken := 0 }) else none

def flushWord (encoder : Encoder) : ℕ → EncodeState → EncodeState
  | 0, state => state
  | fuel + 1, state =>
    if 8 ≤ state.bitsCount then
      flushWord encoder fuel
        { putBytes encoder [UInt8.ofNat (state.bitsValue &&& 0xFF)] state with
          bitsValue := state.bitsValue >>> 8
          bitsCount := state.bitsCount - 8 }
    else state

def putWord (encoder : Encoder) (raw bits : ℕ) (state : EncodeState) : Option EncodeState :=
  if 0 < bits ∧ bits ≤ 64 - 8 then
    some (flushWord encoder (state.bitsCount + bits)
      { state with
        bitsValue := state.bitsValue ||| word ((raw &&& bitsMask word bits) <<< state.bitsCount)
        bitsCount := state.bitsCount + bits
        bitsTaken := state.bitsTaken + bits })
  else none

def sourceWord (encoder : Encoder) (bits : ℕ) (state : EncodeState) : ℕ :=
  if bitsLength bits state > 8 then 0
  else match encoderPeek encoder (bitsLength bits state) state with
    | none => 0
    | some bytes => leLoad bytes >>> state.bitsCount &&& bitsMask word bits

def encodePadWord (encoder : Encoder) (unit : ℕ) (state : EncodeState) : Option EncodeState :=
  if unit = 0 then none
  else
    let taken := state.bitsTaken % unit
    let closed :=
      if taken ≠ 0 then
        let raw := if encoder.mode = .preserve then sourceWord word encoder (unit - taken) state
          else 0
        putWord word encoder raw (unit - taken) state
      else some state
    match closed with
    | none => none
    | some state => if state.bitsCount = 0 then some { state with bitsTaken := 0 } else none

end Functions

def Words (word : ℕ → ℕ) : Prop := ∀ value < 2 ^ 64, word value = value

lemma words_uintmax : Words uintmax := fun _ h => Nat.mod_eq_of_lt h

lemma words_id : Words id := fun _ _ => rfl

variable {word : ℕ → ℕ} {source : Source} {encoder : Encoder} {bits raw count value data : ℕ}
  {state next : DecodeState} {out : EncodeState}

lemma Words.mask (hword : Words word) (hbits : bits ≤ 56) : bitsMask word bits = 2 ^ bits - 1 := by
  have hlt : 2 ^ bits < 2 ^ 64 := Nat.pow_lt_pow_right (by omega) (by omega)
  rw [bitsMask, Nat.one_shiftLeft, hword _ hlt]

lemma Words.or_shift (hword : Words word) (hvalue : value < 2 ^ count) (hdata : data < 2 ^ bits)
    (hroom : count + bits ≤ 64) :
    value ||| word (data <<< count) = value + data * 2 ^ count ∧
      value + data * 2 ^ count < 2 ^ (count + bits) := by
  have hlt : value + data * 2 ^ count < 2 ^ (count + bits) := by
    calc value + data * 2 ^ count < (data + 1) * 2 ^ count := by
          rw [Nat.add_mul, Nat.one_mul]
          omega
      _ ≤ 2 ^ bits * 2 ^ count := Nat.mul_le_mul_right _ hdata
      _ = 2 ^ (count + bits) := by rw [Nat.mul_comm, ← pow_add]
  refine ⟨?_, hlt⟩
  have hword64 : data <<< count < 2 ^ 64 := by
    rw [Nat.shiftLeft_eq]
    have hpow : 2 ^ (count + bits) ≤ 2 ^ 64 := Nat.pow_le_pow_right (by omega) hroom
    omega
  rw [hword _ hword64, Nat.lor_comm, ← Nat.shiftLeft_add_eq_or_of_lt hvalue, Nat.shiftLeft_eq,
    Nat.add_comm]

lemma fillWord_eq (hword : Words word) (hbits : bits ≤ 56) (fuel : ℕ)
    (hvalue : state.bitsValue < 2 ^ state.bitsCount) :
    fillWord word source bits fuel state = fillBits source bits fuel state := by
  induction fuel generalizing state with
  | zero => rfl
  | succ fuel ih =>
    rw [fillWord, fillBits]
    split_ifs with hless
    · cases hget : readerGet source 1 state with
      | none => rfl
      | some result =>
        obtain ⟨bytes, after⟩ := result
        obtain ⟨hfits, rfl, rfl⟩ := readerGet_some hget
        have hbyte : leLoad (window source.body state.position 1) < 2 ^ 8 := by
          rw [leLoad_window_bitsAt]
          exact bitsAt_lt _ _ _
        obtain ⟨hput, hlt⟩ := hword.or_shift hvalue hbyte (by omega)
        simp only [hput]
        exact ih hlt
    · rfl

lemma takeWord_eq (hword : Words word) (hbits : 0 < bits ∧ bits ≤ 56)
    (hvalue : state.bitsValue < 2 ^ state.bitsCount) :
    takeWord word source bits state = some (takeBits source bits state) := by
  rw [takeWord, if_pos hbits, takeBits, fillWord_eq hword hbits.2 bits hvalue,
    hword.mask hbits.2]
  cases fillBits source bits bits state with
  | mk ok filled =>
    cases ok with
    | false => rfl
    | true =>
      simp only
      rw [Nat.and_two_pow_sub_one_eq_mod, Nat.shiftRight_eq_div_pow]

lemma flushWord_eq (encoder : Encoder) (fuel : ℕ) (out : EncodeState) :
    flushWord encoder fuel out = flushBits encoder fuel out := by
  induction fuel generalizing out with
  | zero => rfl
  | succ fuel ih =>
    have hbyte : UInt8.ofNat (out.bitsValue &&& 0xFF) = UInt8.ofNat out.bitsValue := by
      rw [show 0xFF = 2 ^ 8 - 1 from rfl, Nat.and_two_pow_sub_one_eq_mod]
      exact UInt8.ofNat_mod_size
    rw [flushWord, flushBits, hbyte, Nat.shiftRight_eq_div_pow, ih]

lemma putWord_eq (hword : Words word) (hbits : 0 < bits ∧ bits ≤ 56)
    (hvalue : out.bitsValue < 2 ^ out.bitsCount) (hfew : out.bitsCount < 8) (raw : ℕ) :
    putWord word encoder raw bits out = some (putBits encoder raw bits out) := by
  have hraw : raw % 2 ^ bits < 2 ^ bits := Nat.mod_lt _ (by positivity)
  obtain ⟨hput, -⟩ := hword.or_shift hvalue hraw (by omega)
  rw [putWord, if_pos hbits, flushWord_eq, hword.mask hbits.2, Nat.and_two_pow_sub_one_eq_mod, hput,
    putBits]

lemma sourceWord_eq (hword : Words word) (hbits : bits ≤ 56) :
    sourceWord word encoder bits out = sourceBits encoder bits out := by
  rw [sourceWord, sourceBits, hword.mask hbits]
  split_ifs
  · rfl
  cases encoderPeek encoder (bitsLength bits out) out with
  | none => rfl
  | some bytes =>
    simp only
    rw [Nat.and_two_pow_sub_one_eq_mod, Nat.shiftRight_eq_div_pow]

end OpenDmi

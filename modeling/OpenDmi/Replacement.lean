import OpenDmi.Entity

namespace OpenDmi

open Bytes

structure AnonymizeKey where
  low : UInt64
  high : UInt64
  deriving DecidableEq

def anonymizeRotl (value bits : UInt64) : UInt64 := value <<< bits ||| value >>> (64 - bits)

structure SipState where
  v0 : UInt64
  v1 : UInt64
  v2 : UInt64
  v3 : UInt64

def sipRound (s : SipState) : SipState :=
  let v0 := s.v0 + s.v1
  let v1 := anonymizeRotl s.v1 13 ^^^ v0
  let v0 := anonymizeRotl v0 32
  let v2 := s.v2 + s.v3
  let v3 := anonymizeRotl s.v3 16 ^^^ v2
  let v0 := v0 + v3
  let v3 := anonymizeRotl v3 21 ^^^ v0
  let v2 := v2 + v1
  let v1 := anonymizeRotl v1 17 ^^^ v2
  let v2 := anonymizeRotl v2 32
  ⟨v0, v1, v2, v3⟩

def sipBlock (m : UInt64) (s : SipState) : SipState :=
  let s := sipRound (sipRound { s with v3 := s.v3 ^^^ m })
  { s with v0 := s.v0 ^^^ m }

def sipBlocks : ℕ → List Byte → SipState → SipState
  | 0, _, s => s
  | n + 1, data, s => sipBlocks n (data.drop 8) (sipBlock (UInt64.ofNat (leLoad (data.take 8))) s)

def anonymizeHash (key : AnonymizeKey) (data : List Byte) : UInt64 :=
  let s : SipState := ⟨key.low ^^^ 0x736F6D6570736575, key.high ^^^ 0x646F72616E646F6D,
    key.low ^^^ 0x6C7967656E657261, key.high ^^^ 0x7465646279746573⟩
  let s := sipBlocks (data.length / 8) data s
  let tail := data.drop (data.length / 8 * 8)
  let s := sipBlock (UInt64.ofNat data.length <<< 56 ||| UInt64.ofNat (leLoad tail)) s
  let s := sipRound (sipRound (sipRound (sipRound { s with v2 := s.v2 ^^^ 0xFF })))
  s.v0 ^^^ s.v1 ^^^ s.v2 ^^^ s.v3

def anonymizeNext (state : UInt64) : UInt64 × UInt64 :=
  let state := state + 0x9E3779B97F4A7C15
  let z := state
  let z := (z ^^^ z >>> 30) * 0xBF58476D1CE4E5B9
  let z := (z ^^^ z >>> 27) * 0x94D049BB133111EB
  (z ^^^ z >>> 31, state)

def anonymizeChar (r : ℕ) (c : Byte) : Byte :=
  if 48 ≤ c ∧ c ≤ 57 then UInt8.ofNat (48 + r % 10)
  else if 65 ≤ c ∧ c ≤ 90 then UInt8.ofNat (65 + r % 26)
  else if 97 ≤ c ∧ c ≤ 122 then UInt8.ofNat (97 + r % 26)
  else c

def anonymizeChars : UInt64 → List Byte → List Byte
  | _, [] => []
  | state, c :: rest =>
    anonymizeChar ((anonymizeNext state).1 >>> 32).toNat c ::
      anonymizeChars (anonymizeNext state).2 rest

def anonymizeText (key : AnonymizeKey) (data : List Byte) : List Byte :=
  anonymizeChars (anonymizeHash key data) data

def anonymizeBytesFrom : ℕ → UInt64 → List Byte → List Byte
  | _, _, [] => []
  | 0, state, _ :: rest =>
    UInt8.ofNat ((anonymizeNext state).1 >>> 56).toNat ::
      anonymizeBytesFrom 0 (anonymizeNext state).2 rest
  | keep + 1, state, b :: rest => b :: anonymizeBytesFrom keep state rest

def anonymizeBytes (key : AnonymizeKey) (data : List Byte) (keep : ℕ) : List Byte :=
  anonymizeBytesFrom keep (anonymizeHash key data) data

def anonymizeIsBlank (data : List Byte) : Bool := data.all (some · == data.head?)

def anonymizeSeen : List Byte → List Byte → List Byte
  | seen, [] => seen
  | seen, c :: rest =>
    anonymizeSeen (if seen.length < 3 ∧ c ∉ seen then seen ++ [c] else seen) rest

def anonymizeIsIdentifier (text : List Byte) : Bool :=
  !text.any isSpace && text.any (fun c => 48 ≤ c && c ≤ 57) &&
    (anonymizeSeen [] text).length ≥ 3

/-- The version and the variant of a UUID, its fields being numbers of a little-endian host. -/
def anonymizeUuidKeep (uuid replacement : List Byte) : List Byte :=
  let kept := replacement.set 7 ((replacement.getD 7 0 &&& 0x0F) ||| (uuid.getD 7 0 &&& 0xF0))
  kept.set 8 ((kept.getD 8 0 &&& 0x3F) ||| (uuid.getD 8 0 &&& 0xC0))

def lowerChar (c : Byte) : Byte := if 65 ≤ c ∧ c ≤ 90 then c + 32 else c

def stringPlaceholders : List String :=
  ["To Be Filled By O.E.M.", "Filled By OEM", "Default string", "Default", "System manufacturer",
    "System Product Name", "System Version", "System Serial Number", "System SKU Number",
    "Chassis Manufacture", "Chassis Version", "Chassis Serial Number", "Not Specified",
    "Not Applicable", "Not Available", "None", "Unknown", "N/A", "NA", "TBD", "OEM", "0123456789",
    "123456789", "XXXXXXXX", "Fill By OEM", "No Asset Tag", "Empty", "[Empty]", "NULL", "INVALID",
    "NO DIMM"]

def stringBytes (text : String) : List Byte := text.toList.map fun c => UInt8.ofNat c.toNat

def stringIsPlaceholder (text : List Byte) : Bool :=
  stringPlaceholders.any fun item => (stringBytes item).map lowerChar == text.map lowerChar

lemma anonymizeChars_length (state : UInt64) (data : List Byte) :
    (anonymizeChars state data).length = data.length := by
  induction data generalizing state with
  | nil => rfl
  | cons c rest ih => rw [anonymizeChars, List.length_cons, List.length_cons, ih]

@[simp] lemma anonymizeText_length (key : AnonymizeKey) (data : List Byte) :
    (anonymizeText key data).length = data.length := anonymizeChars_length _ data

lemma anonymizeBytesFrom_length (keep : ℕ) (state : UInt64) (data : List Byte) :
    (anonymizeBytesFrom keep state data).length = data.length := by
  induction data generalizing keep state with
  | nil => cases keep <;> rfl
  | cons b rest ih =>
    cases keep with
    | zero => rw [anonymizeBytesFrom, List.length_cons, List.length_cons, ih]
    | succ keep => rw [anonymizeBytesFrom, List.length_cons, List.length_cons, ih]

@[simp] lemma anonymizeBytes_length (key : AnonymizeKey) (data : List Byte) (keep : ℕ) :
    (anonymizeBytes key data keep).length = data.length := anonymizeBytesFrom_length keep _ data

@[simp] lemma anonymizeUuidKeep_length (uuid replacement : List Byte) :
    (anonymizeUuidKeep uuid replacement).length = replacement.length := by
  simp [anonymizeUuidKeep]

lemma anonymizeChar_ne_zero (r : ℕ) {c : Byte} (h : c ≠ 0) : anonymizeChar r c ≠ 0 := by
  have hmod : ∀ base k, 0 < base → base + k < 256 → UInt8.ofNat (base + r % (k + 1)) ≠ 0 := by
    intro base k hb hk hz
    have hval := congrArg UInt8.toNat hz
    have hlt := Nat.mod_lt r (show 0 < k + 1 by omega)
    rw [UInt8.toNat_ofNat', UInt8.toNat_zero, Nat.mod_eq_of_lt (by omega)] at hval
    omega
  rw [anonymizeChar]
  split_ifs
  · exact hmod 48 9 (by omega) (by omega)
  · exact hmod 65 25 (by omega) (by omega)
  · exact hmod 97 25 (by omega) (by omega)
  · exact h

lemma anonymizeChars_ne_zero (state : UInt64) {data : List Byte} (h : ∀ b ∈ data, b ≠ 0) :
    ∀ b ∈ anonymizeChars state data, b ≠ 0 := by
  induction data generalizing state with
  | nil => simp [anonymizeChars]
  | cons c rest ih =>
    intro b hb
    rcases List.mem_cons.mp hb with rfl | hb
    · exact anonymizeChar_ne_zero _ (h c List.mem_cons_self)
    · exact ih _ (fun b hb => h b (List.mem_cons_of_mem _ hb)) b hb

end OpenDmi

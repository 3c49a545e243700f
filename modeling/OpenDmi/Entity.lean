import OpenDmi.Bytes

/-! Structures of a table as the scan finds them: a header, a formatted area and a string set. -/

namespace OpenDmi

open Bytes

structure Buffer where
  address : ℕ
  data : List Byte
  deriving DecidableEq

def Buffer.length (buffer : Buffer) : ℕ := buffer.data.length

structure StringEntry where
  raw : List Byte
  offset : ℕ
  pretty : List Byte
  deriving DecidableEq

structure Entity where
  typeId : ℕ
  bodyLength : ℕ
  handle : ℕ
  buffer : Buffer
  offset : ℕ
  extraLength : ℕ
  totalLength : ℕ
  strings : List StringEntry
  spec : Option ℕ
  overlay : Option Buffer
  deriving DecidableEq

instance : Inhabited Entity := ⟨⟨0, 0, 0, ⟨0, []⟩, 0, 0, 0, [], none, none⟩⟩

/-- The copy with additional information applied is read whenever there is one. -/
def entityBuffer (entity : Entity) : Buffer := entity.overlay.getD entity.buffer

def entityOffset (entity : Entity) : ℕ := if entity.overlay.isSome then 0 else entity.offset

inductive EntityError
  | truncated
  | lengthInvalid
  deriving DecidableEq

def headerSize : ℕ := 4

def typeEndOfTable : ℕ := 127

def isSpace (b : Byte) : Bool := b == 9 || b == 10 || b == 11 || b == 12 || b == 13 || b == 32

def entityStringTrim (text : List Byte) : List Byte :=
  ((text.dropWhile isSpace).reverse.dropWhile isSpace).reverse

def cString (data : List Byte) : List Byte := data.takeWhile (· != 0)

def stringSetEnd (hasStrings : Bool) : List Byte → ℕ → ℕ → Option (ℕ × ℕ)
  | a :: b :: rest, pos, count =>
    if a = 0 ∧ b = 0 then some (pos, count)
    else stringSetEnd hasStrings (b :: rest) (pos + 1)
      (if a = 0 ∧ hasStrings then count + 1 else count)
  | _, _, _ => none

def entityDecodeLength (area : List Byte) : Option (ℕ × ℕ) :=
  let hasStrings := area.head? != some 0
  (stringSetEnd hasStrings area 0 0).map fun (pos, count) =>
    (pos + 2, if hasStrings then count + 1 else count)

def entityDecodeStrings : ℕ → List Byte → ℕ → List StringEntry
  | 0, _, _ => []
  | count + 1, area, offset =>
    let raw := cString area
    ⟨raw, offset, entityStringTrim raw⟩ ::
      entityDecodeStrings count (area.drop (raw.length + 1)) (offset + raw.length + 1)

def entityCreate (buffer : Buffer) (offset : ℕ) : Except EntityError Entity :=
  let data := buffer.data.drop offset
  if data.length < headerSize + 2 then .error .truncated
  else
    let length := (data.getD 1 0).toNat
    let handle := leLoad (window data 2 2)
    let type := if length = 0 then typeEndOfTable else (data.getD 0 0).toNat
    let body := if length = 0 then headerSize else length
    if body < headerSize then .error .lengthInvalid
    else if body > data.length then .error .truncated
    else match entityDecodeLength (data.drop body) with
      | none => .error .truncated
      | some (extra, count) => .ok {
          typeId := type
          bodyLength := body
          handle := handle
          buffer := buffer
          offset := offset
          extraLength := extra
          totalLength := body + extra
          strings := entityDecodeStrings count (data.drop body) (offset + body)
          spec := none
          overlay := none }

def DoubleNul (area : List Byte) (pos : ℕ) : Prop :=
  (area[pos]? = some 0 ∧ area[pos + 1]? = some 0) ∧
    ∀ j < pos, ¬ (area[j]? = some 0 ∧ area[j + 1]? = some 0)

lemma DoubleNul.unique {area : List Byte} {p q : ℕ} (hp : DoubleNul area p)
    (hq : DoubleNul area q) : p = q := by
  rcases lt_trichotomy p q with h | h | h
  · exact (hq.2 p h hp.1).elim
  · exact h
  · exact (hp.2 q h hq.1).elim

lemma DoubleNul.lt_length {area : List Byte} {p : ℕ} (h : DoubleNul area p) :
    p + 2 ≤ area.length := by
  obtain ⟨hlt, _⟩ := List.getElem?_eq_some_iff.mp h.1.2
  omega

lemma doubleNul_cons {a : Byte} {area : List Byte} {p : ℕ}
    (ha : ¬ (a = 0 ∧ area[0]? = some 0)) : DoubleNul (a :: area) (p + 1) ↔ DoubleNul area p := by
  constructor
  · rintro ⟨h, hmin⟩
    refine ⟨by simpa using h, fun j hj hz => hmin (j + 1) (by omega) (by simpa using hz)⟩
  · rintro ⟨h, hmin⟩
    refine ⟨by simpa using h, fun j hj hz => ?_⟩
    obtain _ | j := j
    · exact ha (by simpa using hz)
    · exact hmin j (by omega) (by simpa using hz)

def nulCount (area : List Byte) (pos : ℕ) : ℕ := (area.take pos).count 0

@[simp] lemma nulCount_succ (a : Byte) (area : List Byte) (k : ℕ) :
    nulCount (a :: area) (k + 1) = nulCount area k + if a = 0 then 1 else 0 := by
  simp [nulCount, List.count_cons]

lemma stringSetEnd_eq (hasStrings : Bool) (area : List Byte) (pos count p c : ℕ) :
    stringSetEnd hasStrings area pos count = some (p, c) ↔
      ∃ k, p = pos + k ∧ DoubleNul area k ∧
        c = count + if hasStrings then nulCount area k else 0 := by
  fun_induction stringSetEnd hasStrings area pos count with
  | case1 a b rest pos count h =>
    obtain ⟨rfl, rfl⟩ := h
    have h0 : DoubleNul (0 :: 0 :: rest) 0 := ⟨by simp, by simp⟩
    constructor
    · intro he
      obtain ⟨rfl, rfl⟩ : pos = p ∧ count = c := by simpa using he
      exact ⟨0, rfl, h0, by simp [nulCount]⟩
    · rintro ⟨k, rfl, hk, rfl⟩
      obtain rfl := hk.unique h0
      simp [nulCount]
  | case2 a b rest pos count h ih =>
    have ha : ¬ (a = 0 ∧ (b :: rest)[0]? = some 0) := by simpa using h
    rw [ih]
    constructor
    · rintro ⟨k, rfl, hk, rfl⟩
      refine ⟨k + 1, by omega, (doubleNul_cons ha).mpr hk, ?_⟩
      cases hasStrings with
      | false => simp
      | true => simp only [nulCount_succ, and_true, if_true]; split_ifs <;> omega
    · rintro ⟨k, rfl, hk, rfl⟩
      obtain _ | k := k
      · exact (h (by simpa using hk.1)).elim
      · refine ⟨k, by omega, (doubleNul_cons ha).mp hk, ?_⟩
        cases hasStrings with
        | false => simp
        | true => simp only [nulCount_succ, and_true, if_true]; split_ifs <;> omega
  | case3 area pos count h =>
    constructor
    · intro he
      cases he
    · rintro ⟨k, -, hk, -⟩
      have hl := hk.lt_length
      obtain _ | ⟨a, _ | ⟨b, rest⟩⟩ := area
      · simp at hl
      · simp at hl
      · exact (h a b rest rfl).elim

lemma entityDecodeLength_eq {area : List Byte} {extra count : ℕ} :
    entityDecodeLength area = some (extra, count) ↔
      ∃ k, DoubleNul area k ∧ extra = k + 2 ∧
        count = if area.head? = some 0 then 0 else nulCount area k + 1 := by
  simp only [entityDecodeLength, Option.map_eq_some_iff, Prod.exists, Prod.mk.injEq,
    stringSetEnd_eq]
  by_cases h : area.head? = some 0
  · simp only [h, bne_self_eq_false, Bool.false_eq_true, if_false, if_true, add_zero, zero_add]
    constructor
    · rintro ⟨_, _, ⟨k, rfl, hk, rfl⟩, rfl, rfl⟩
      exact ⟨_, hk, rfl, rfl⟩
    · rintro ⟨k, hk, rfl, rfl⟩
      exact ⟨_, _, ⟨k, rfl, hk, rfl⟩, rfl, rfl⟩
  · have hb : (area.head? != some 0) = true := by simpa using h
    simp only [hb, if_true, h, if_false, zero_add]
    constructor
    · rintro ⟨_, _, ⟨k, rfl, hk, rfl⟩, rfl, rfl⟩
      exact ⟨_, hk, rfl, rfl⟩
    · rintro ⟨k, hk, rfl, rfl⟩
      exact ⟨_, _, ⟨k, rfl, hk, rfl⟩, rfl, rfl⟩

end OpenDmi

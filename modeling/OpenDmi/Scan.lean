import OpenDmi.RegistryRuns

namespace OpenDmi

open Bytes LinkedList

def registryFinish (registry : Registry) (count : ℕ) (truncated : Bool) : Registry :=
  { registry with count := count, status := ⟨true, truncated⟩ }

/-- The rounds of the scan, each of which moves past a structure. The fuel bounds their number. -/
def registryScanLoop (strict : Bool) (table : Buffer) (entityCount : ℕ) :
    ℕ → ℕ → ℕ → Registry → Option (Bool × Registry)
  | 0, _, _, _ => none
  | fuel + 1, offset, index, registry =>
    if entityCount ≠ 0 ∧ entityCount ≤ index then some (true, registryFinish registry index false)
    else if table.length - offset < headerSize + 2 then
      some (true, registryFinish registry index true)
    else match entityCreate table offset with
      | .error .truncated => some (true, registryFinish registry index true)
      | .error .lengthInvalid =>
        if strict then some (false, registry) else some (true, registryFinish registry index true)
      | .ok entity =>
        let put := registryPut registry entity
        if put.1 = false then some (false, put.2)
        else if entity.typeId = typeEndOfTable then
          some (true, registryFinish put.2 (index + 1) false)
        else registryScanLoop strict table entityCount fuel (offset + entity.totalLength) (index + 1)
          put.2

def registryScan (strict : Bool) (table : Buffer) (entityCount : ℕ) (registry : Registry) :
    Option (Bool × Registry) :=
  if registry.status.scanned then some (true, registry)
  else registryScanLoop strict table entityCount (table.length + 1) 0 0 registry

def byteAt (data : List Byte) (i : ℕ) : ℕ := (data.getD i 0).toNat

def bodyAt (data : List Byte) (offset : ℕ) : ℕ :=
  if byteAt data (offset + 1) = 0 then headerSize else byteAt data (offset + 1)

def typeAt (data : List Byte) (offset : ℕ) : ℕ :=
  if byteAt data (offset + 1) = 0 then typeEndOfTable else byteAt data offset

structure Whole (data : List Byte) (offset total : ℕ) : Prop where
  header : offset + headerSize + 2 ≤ data.length
  body : headerSize ≤ bodyAt data offset
  inside : offset + bodyAt data offset ≤ data.length
  strings : ∃ k, DoubleNul (data.drop (offset + bodyAt data offset)) k ∧
    total = bodyAt data offset + (k + 2)

def NoStructure (data : List Byte) (offset : ℕ) : Prop :=
  data.length - offset < headerSize + 2 ∨
  (1 ≤ byteAt data (offset + 1) ∧ byteAt data (offset + 1) ≤ 3) ∨
  data.length < offset + bodyAt data offset ∨
  ∀ k, ¬ DoubleNul (data.drop (offset + bodyAt data offset)) k

lemma Whole.total_le {data : List Byte} {offset total : ℕ} (h : Whole data offset total) :
    headerSize + 2 ≤ total ∧ offset + total ≤ data.length := by
  obtain ⟨k, hk, rfl⟩ := h.strings
  have hl := hk.lt_length
  have hb := h.body
  have hi := h.inside
  simp only [List.length_drop] at hl
  omega

lemma noStructure_iff {data : List Byte} {offset : ℕ} :
    NoStructure data offset ↔ ∀ total, ¬ Whole data offset total := by
  constructor
  · rintro hn total ⟨hh, hb, hi, k, hk, -⟩
    rcases hn with hn | ⟨h1, h3⟩ | hn | hn
    · simp only [headerSize] at hh hn
      omega
    · have hne : byteAt data (offset + 1) ≠ 0 := by omega
      simp only [bodyAt, if_neg hne, headerSize] at hb
      omega
    · omega
    · exact hn k hk
  · intro hw
    by_contra hn
    simp only [NoStructure, not_or, not_forall, not_not, not_lt] at hn
    obtain ⟨hh, hb, hi, k, hk⟩ := hn
    refine hw _ ⟨?_, ?_, hi, k, hk, rfl⟩
    · simp only [headerSize] at hh ⊢
      omega
    · simp only [bodyAt, headerSize]
      split_ifs with h0 <;> omega

structure EntityOf (table : Buffer) (entity : Entity) : Prop where
  buffer : entity.buffer = table
  whole : Whole table.data entity.offset entity.totalLength
  type : entity.typeId = typeAt table.data entity.offset
  body : entity.bodyLength = bodyAt table.data entity.offset
  total : entity.totalLength = entity.bodyLength + entity.extraLength
  strings : ∃ count, entityDecodeLength
      (table.data.drop (entity.offset + entity.bodyLength)) = some (entity.extraLength, count) ∧
    entity.strings = entityDecodeStrings count
      (table.data.drop (entity.offset + entity.bodyLength)) (entity.offset + entity.bodyLength)
  handle : entity.handle = leLoad (window table.data (entity.offset + 2) 2)

lemma entityDecodeLength_none {area : List Byte} (h : entityDecodeLength area = none) (k : ℕ) :
    ¬ DoubleNul area k := by
  intro hk
  have hs := entityDecodeLength_eq.mpr ⟨k, hk, rfl, rfl⟩
  rw [h] at hs
  cases hs

lemma entityCreate_cases (table : Buffer) (offset : ℕ) :
    (∃ entity, entityCreate table offset = .ok entity ∧ entity.offset = offset ∧
      EntityOf table entity) ∨
    (entityCreate table offset = .error .truncated ∧ NoStructure table.data offset) ∨
    (entityCreate table offset = .error .lengthInvalid ∧ NoStructure table.data offset ∧
      1 ≤ byteAt table.data (offset + 1) ∧ byteAt table.data (offset + 1) ≤ 3) := by
  have h0 : (table.data.drop offset).getD 0 0 = table.data.getD offset 0 := by
    simp [List.getD_eq_getElem?_getD]
  have h1 : (table.data.drop offset).getD 1 0 = table.data.getD (offset + 1) 0 := by
    simp [List.getD_eq_getElem?_getD]
  have hbody : (if ((table.data.drop offset).getD 1 0).toNat = 0 then headerSize
      else ((table.data.drop offset).getD 1 0).toNat) = bodyAt table.data offset := by
    rw [h1]; rfl
  have htype : (if ((table.data.drop offset).getD 1 0).toNat = 0 then typeEndOfTable
      else ((table.data.drop offset).getD 0 0).toNat) = typeAt table.data offset := by
    rw [h1, h0]; rfl
  have hwin : window (table.data.drop offset) 2 2 = window table.data (offset + 2) 2 := by
    simp [window, List.drop_drop]
  unfold entityCreate
  simp only [hbody, htype, hwin, List.drop_drop]
  by_cases hlen : (table.data.drop offset).length < headerSize + 2
  · rw [if_pos hlen]
    exact .inr (.inl ⟨rfl, .inl (by simpa using hlen)⟩)
  rw [if_neg hlen]
  have hroom : offset + headerSize + 2 ≤ table.data.length := by
    simp only [List.length_drop, headerSize] at hlen ⊢
    omega
  by_cases hsmall : bodyAt table.data offset < headerSize
  · rw [if_pos hsmall]
    have hbad : 1 ≤ byteAt table.data (offset + 1) ∧ byteAt table.data (offset + 1) ≤ 3 := by
      simp only [bodyAt, headerSize] at hsmall
      split_ifs at hsmall with hz <;> omega
    exact .inr (.inr ⟨rfl, .inr (.inl hbad), hbad⟩)
  rw [if_neg hsmall]
  by_cases hpast : bodyAt table.data offset > (table.data.drop offset).length
  · rw [if_pos hpast]
    refine .inr (.inl ⟨rfl, .inr (.inr (.inl ?_))⟩)
    simp only [List.length_drop] at hpast
    omega
  rw [if_neg hpast]
  have hinside : offset + bodyAt table.data offset ≤ table.data.length := by
    simp only [List.length_drop, headerSize] at hpast hroom
    omega
  cases hd : entityDecodeLength (table.data.drop (offset + bodyAt table.data offset)) with
  | none =>
    exact .inr (.inl ⟨rfl, .inr (.inr (.inr (entityDecodeLength_none hd)))⟩)
  | some found =>
    obtain ⟨extra, count⟩ := found
    obtain ⟨k, hk, hextra, -⟩ := entityDecodeLength_eq.mp hd
    refine .inl ⟨_, rfl, rfl, ⟨rfl, ⟨hroom, not_lt.mp hsmall, hinside, k, hk, ?_⟩, rfl, rfl, rfl,
      ⟨count, hd, rfl⟩, rfl⟩⟩
    rw [hextra]

end OpenDmi

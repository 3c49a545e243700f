import OpenDmi.FieldRoundTrip
import OpenDmi.Leak
import OpenDmi.ScanLayout
import OpenDmi.Within

/-! The layout of an anonymized table: it is the one of the source unless a NUL byte of a replacement
is written into a string. -/

namespace OpenDmi

open Bytes Occurrences

variable {cx : AnonymizeContext} {first anon : Anonymizer} {table copy : Buffer}
  {entity other : Entity} {entities : List Entity} {start stop x k : ℕ}

lemma nulCount_take_succ (area : List Byte) (k : ℕ) :
    nulCount area (k + 1) = nulCount area k + if area[k]? = some 0 then 1 else 0 := by
  rw [nulCount, List.take_add_one, List.count_append]
  cases area[k]? with
  | none => rfl
  | some b => simp [nulCount, List.count_singleton]

lemma nulCount_congr {a b : List Byte} (h : ∀ i < k, a[i]? = some 0 ↔ b[i]? = some 0) :
    nulCount a k = nulCount b k := by
  induction k with
  | zero => rfl
  | succ k ih =>
    rw [nulCount_take_succ, nulCount_take_succ, ih fun i hi => h i (by omega)]
    simp only [h k (by omega)]

lemma nulCount_le {a b : List Byte} (h : ∀ i < k, a[i]? = some 0 → b[i]? = some 0) :
    nulCount a k ≤ nulCount b k := by
  induction k with
  | zero => exact le_rfl
  | succ k ih =>
    have hrest := ih fun i hi => h i (by omega)
    have hlast := h k (by omega)
    rw [nulCount_take_succ, nulCount_take_succ]
    split_ifs with ha hb
    · omega
    · exact absurd (hlast ha) hb
    · omega
    · omega

lemma nulCount_lt {a b : List Byte} {i : ℕ} (hi : i < k)
    (h : ∀ i < k, a[i]? = some 0 → b[i]? = some 0) (hb : b[i]? = some 0) (ha : a[i]? ≠ some 0) :
    nulCount a k < nulCount b k := by
  induction k with
  | zero => omega
  | succ k ih =>
    rw [nulCount_take_succ, nulCount_take_succ]
    by_cases hik : i = k
    · subst hik
      rw [if_neg ha, if_pos hb]
      have := nulCount_le fun j hj => h j (Nat.lt_succ_of_lt hj)
      omega
    · have hrest := ih (by omega) fun j hj => h j (by omega)
      have hlast := h k (by omega)
      split_ifs with ha' hb'
      · omega
      · exact absurd (hlast ha') hb'
      · omega
      · omega

lemma EntityOf.area (h : EntityOf table entity) :
    ∃ k, DoubleNul (table.data.drop (entity.offset + entity.bodyLength)) k ∧
      entity.extraLength = k + 2 ∧ entity.totalLength = entity.bodyLength + (k + 2) ∧
      entity.strings.length =
        if (table.data.drop (entity.offset + entity.bodyLength)).head? = some 0 then 0
        else nulCount (table.data.drop (entity.offset + entity.bodyLength)) k + 1 := by
  obtain ⟨count, hlength, hstrings⟩ := h.strings
  obtain ⟨k, hk, hextra, hcount⟩ := entityDecodeLength_eq.mp hlength
  exact ⟨k, hk, hextra, by rw [h.total, hextra], by rw [hstrings, decodeStrings_length, hcount]⟩

structure SameNuls (table copy : Buffer) (entity : Entity) : Prop where
  length : copy.data.length = table.data.length
  header : ∀ i < headerSize, copy.data[entity.offset + i]? = table.data[entity.offset + i]?
  nuls : ∀ i, entity.offset + entity.bodyLength ≤ i → i < entity.offset + entity.totalLength →
    (copy.data[i]? = some 0 ↔ table.data[i]? = some 0)

lemma byteAt_congr {a b : List Byte} {i : ℕ} (h : a[i]? = b[i]?) : byteAt a i = byteAt b i := by
  rw [byteAt, byteAt, List.getD_eq_getElem?_getD, List.getD_eq_getElem?_getD, h]

lemma entityShape_eq (h : EntityOf table entity) (h' : EntityOf copy other)
    (ho : other.offset = entity.offset)
    (hheader : ∀ i < headerSize, copy.data[entity.offset + i]? = table.data[entity.offset + i]?)
    (htotal : other.totalLength = entity.totalLength)
    (hcount : other.strings.length = entity.strings.length) :
    entityShape other = entityShape entity := by
  have h0 := byteAt_congr (hheader 0 (by decide))
  have h1 := byteAt_congr (hheader 1 (by decide))
  have htype : other.typeId = entity.typeId := by
    rw [h'.type, h.type, ho]
    simp only [typeAt, h1, Nat.add_zero] at h0 ⊢
    rw [h0]
  have hbody : other.bodyLength = entity.bodyLength := by
    rw [h'.body, h.body, ho]
    simp only [bodyAt, h1]
  have hhandle : other.handle = entity.handle := by
    rw [h'.handle, h.handle, ho]
    congr 1
    refine window_congr fun i hlo hhi => ?_
    obtain ⟨j, rfl⟩ := Nat.exists_eq_add_of_le (show entity.offset ≤ i by omega)
    exact hheader j (by simp only [headerSize]; omega)
  rw [entityShape, entityShape, ho, htype, hbody, hhandle, htotal, hcount]

lemma SameNuls.created (hs : SameNuls table copy entity) (h : EntityOf table entity) :
    ∃ other, entityCreate copy entity.offset = .ok other ∧
      entityShape other = entityShape entity := by
  obtain ⟨k, hk, -, htotal, hcount⟩ := h.area
  have h1 := byteAt_congr (hs.header 1 (by decide))
  have hbody : bodyAt copy.data entity.offset = entity.bodyLength := by
    rw [h.body]
    simp only [bodyAt, h1]
  have hnul : ∀ j, j < k + 2 →
      ((copy.data.drop (entity.offset + entity.bodyLength))[j]? = some 0 ↔
        (table.data.drop (entity.offset + entity.bodyLength))[j]? = some 0) := by
    intro j hj
    rw [List.getElem?_drop, List.getElem?_drop]
    exact hs.nuls _ (by omega) (by omega)
  have hk' : DoubleNul (copy.data.drop (entity.offset + entity.bodyLength)) k := by
    refine ⟨⟨(hnul k (by omega)).mpr hk.1.1, (hnul (k + 1) (by omega)).mpr hk.1.2⟩, ?_⟩
    rintro j hj ⟨hj0, hj1⟩
    exact hk.2 j hj ⟨(hnul j (by omega)).mp hj0, (hnul (j + 1) (by omega)).mp hj1⟩
  have hwhole : Whole copy.data entity.offset entity.totalLength := by
    refine ⟨hs.length ▸ h.whole.header, ?_, ?_, k, ?_, ?_⟩
    · rw [hbody, h.body]
      exact h.whole.body
    · rw [hbody, hs.length, h.body]
      exact h.whole.inside
    · rwa [hbody]
    · rw [hbody, htotal]
  rcases entityCreate_cases copy entity.offset with ⟨other, hc, ho, hof⟩ | ⟨-, hn⟩ | ⟨-, hn, -⟩
  · refine ⟨other, hc, entityShape_eq h hof ho hs.header ?_ ?_⟩
    · obtain ⟨j, hj, -, hother, -⟩ := hof.area
      have hsame : other.bodyLength = entity.bodyLength := by rw [hof.body, ho, hbody]
      rw [ho, hsame] at hj
      rw [hother, hsame, hj.unique hk', htotal]
    · obtain ⟨j, hj, -, -, hother⟩ := hof.area
      have hsame : other.bodyLength = entity.bodyLength := by rw [hof.body, ho, hbody]
      rw [ho, hsame] at hj hother
      have hhead := hnul 0 (by omega)
      rw [← List.head?_eq_getElem?, ← List.head?_eq_getElem?] at hhead
      rw [hother, hcount, hj.unique hk', nulCount_congr fun i hi => hnul i (by omega)]
      simp only [hhead]
  · exact absurd hwhole (noStructure_iff.mp hn _)
  · exact absurd hwhole (noStructure_iff.mp hn _)

end OpenDmi

import OpenDmi.RegistryTable
import OpenDmi.ScanTiles
import OpenDmi.SearchOrder

/-! Regions of a table which values are looked for in, the strings and the bodies of the structures:
no two of them meet, and a byte is written by what is found in its own region only. -/

namespace OpenDmi

open Bytes Occurrences

structure Region where
  start : ℕ
  finish : ℕ
  minimum : ℕ
  deriving DecidableEq

def stringRegion (string : StringEntry) : Region :=
  ⟨string.offset, string.offset + string.raw.length, substringMin⟩

def bodyRegion (entity : Entity) : Region :=
  ⟨entity.offset + headerSize, entity.offset + entity.bodyLength, patternMin⟩

def entityRegions (entity : Entity) : List Region :=
  entity.strings.map stringRegion ++ [bodyRegion entity]

def Apart (a b : Region) : Prop := a.finish ≤ b.start ∨ b.finish ≤ a.start

instance : Std.Symm Apart := ⟨fun _ _ => Or.symm⟩

structure StringIn (area : List Byte) (base k : ℕ) (string : StringEntry) : Prop where
  start : base ≤ string.offset
  inside : string.offset + string.raw.length ≤ base + k
  raw : ∀ i, i < string.raw.length → string.raw[i]? = area[string.offset - base + i]?
  nonzero : ∀ b ∈ string.raw, b ≠ 0

lemma cString_ne_zero {area : List Byte} : ∀ b ∈ cString area, b ≠ 0 := by
  intro b hb
  simpa using List.all_eq_true.mp (List.all_takeWhile ) b hb

lemma cString_length_le {area : List Byte} {k : ℕ} (h : area[k]? = some 0) :
    (cString area).length ≤ k := by
  induction area generalizing k with
  | nil => cases h
  | cons a area ih =>
    rw [cString, List.takeWhile_cons]
    cases k with
    | zero =>
      have ha : a = 0 := by simpa using h
      simp [ha]
    | succ k =>
      split_ifs
      · exact Nat.succ_le_succ (ih (by simpa using h))
      · exact Nat.zero_le _

lemma getElem?_cString {area : List Byte} {i : ℕ} (h : i < (cString area).length) :
    (cString area)[i]? = area[i]? := by
  obtain ⟨rest, hrest⟩ := List.takeWhile_prefix (p := (· != (0 : Byte))) (l := area)
  conv_rhs => rw [← hrest]
  exact (List.getElem?_append_left h).symm

lemma cString_end {area : List Byte} (h : (cString area).length < area.length) :
    area[(cString area).length]? = some 0 := by
  induction area with
  | nil => simp at h
  | cons a area ih =>
    by_cases ha : a = 0
    · simp [cString, ha]
    · have hcons : cString (a :: area) = a :: cString area := by simp [cString, ha]
      rw [hcons] at h ⊢
      simpa using ih (by simpa using h)

lemma cString_split {area : List Byte} (h : (cString area).length < area.length) :
    area = cString area ++ 0 :: area.drop ((cString area).length + 1) := by
  have htake : area.take (cString area).length = cString area := by
    obtain ⟨rest, hrest⟩ := List.takeWhile_prefix (· != (0 : Byte)) (l := area)
    have hleft : (cString area ++ rest).take (cString area).length = cString area := List.take_left
    rwa [show cString area ++ rest = area from hrest] at hleft
  have hget : area[(cString area).length] = 0 := by
    simpa [List.getElem?_eq_getElem h] using cString_end h
  conv_lhs => rw [← List.take_append_drop (cString area).length area, htake,
    List.drop_eq_getElem_cons h, hget]

lemma nulCount_split {text rest : List Byte} (h : ∀ b ∈ text, b ≠ 0) (k : ℕ) :
    nulCount (text ++ 0 :: rest) (text.length + 1 + k) = nulCount rest k + 1 := by
  have hnone : text.count 0 = 0 := List.count_eq_zero.mpr fun h0 => h 0 h0 rfl
  rw [nulCount, List.take_append, List.count_append, List.take_of_length_le (by omega), hnone,
    show text.length + 1 + k - text.length = k + 1 by omega, zero_add]
  exact nulCount_succ 0 rest k

lemma nulCount_text {text rest : List Byte} (h : ∀ b ∈ text, b ≠ 0) {k : ℕ} (hk : k ≤ text.length) :
    nulCount (text ++ rest) k = 0 := by
  rw [nulCount, List.take_append_of_le_length hk]
  exact List.count_eq_zero.mpr fun h0 => h 0 (List.mem_of_mem_take h0) rfl

lemma decodeStrings_in {count k base : ℕ} {area : List Byte} (hk : area[k]? = some 0)
    (hcount : count ≤ nulCount area k + 1) :
    ∀ string ∈ entityDecodeStrings count area base, StringIn area base k string := by
  induction count generalizing area base k with
  | zero => simp [entityDecodeStrings]
  | succ count ih =>
    have hle := cString_length_le hk
    obtain ⟨hkl, -⟩ := List.getElem?_eq_some_iff.mp hk
    have hsplit := cString_split (show (cString area).length < area.length by omega)
    intro string hm
    rw [entityDecodeStrings] at hm
    rcases List.mem_cons.mp hm with rfl | hm
    · exact ⟨le_rfl, by simpa using hle, fun i hi => by simpa using getElem?_cString hi,
        cString_ne_zero⟩
    · -- A string which is not the last one ends before the double NUL
      have hlt : (cString area).length < k := by
        by_contra hge
        rw [hsplit, nulCount_text cString_ne_zero (by omega)] at hcount
        obtain rfl : count = 0 := by omega
        simp [entityDecodeStrings] at hm
      obtain ⟨j, rfl⟩ := Nat.exists_eq_add_of_le (show (cString area).length + 1 ≤ k by omega)
      have hrest : (area.drop ((cString area).length + 1))[j]? = some 0 := by
        rwa [List.getElem?_drop]
      have hfewer : count ≤ nulCount (area.drop ((cString area).length + 1)) j + 1 := by
        have hsum : nulCount (cString area ++ 0 :: area.drop ((cString area).length + 1))
            ((cString area).length + 1 + j) =
            nulCount (area.drop ((cString area).length + 1)) j + 1 :=
          nulCount_split cString_ne_zero j
        rw [← hsplit] at hsum
        omega
      have hin := ih hrest hfewer string hm
      refine ⟨by have := hin.start; omega, by have := hin.inside; omega, fun i hi => ?_,
        hin.nonzero⟩
      rw [hin.raw i hi, List.getElem?_drop]
      congr 1
      have := hin.start
      omega

lemma decodeStrings_start {count base : ℕ} {area : List Byte} :
    ∀ string ∈ entityDecodeStrings count area base, base ≤ string.offset := by
  induction count generalizing area base with
  | zero => simp [entityDecodeStrings]
  | succ count ih =>
    intro string hm
    rw [entityDecodeStrings] at hm
    rcases List.mem_cons.mp hm with rfl | hm
    · exact le_rfl
    · have := ih string hm
      omega

lemma decodeStrings_apart {count base : ℕ} {area : List Byte} :
    (entityDecodeStrings count area base).Pairwise
      fun a b => a.offset + a.raw.length ≤ b.offset := by
  induction count generalizing area base with
  | zero => exact .nil
  | succ count ih =>
    refine .cons (fun string hm => ?_) ih
    have hstart := decodeStrings_start string hm
    simp only
    omega

lemma decodeStrings_length (count base : ℕ) (area : List Byte) :
    (entityDecodeStrings count area base).length = count := by
  induction count generalizing area base with
  | zero => rfl
  | succ count ih => rw [entityDecodeStrings, List.length_cons, ih]

variable {table : Buffer} {entity : Entity} {entities : List Entity} {start stop : ℕ}

lemma EntityOf.string_in (h : EntityOf table entity) {string : StringEntry}
    (hm : string ∈ entity.strings) :
    StringIn (table.data.drop (entity.offset + entity.bodyLength))
      (entity.offset + entity.bodyLength) (entity.extraLength - 2) string := by
  obtain ⟨count, hlength, hstrings⟩ := h.strings
  obtain ⟨k, hk, hextra, hcount⟩ := entityDecodeLength_eq.mp hlength
  rw [hextra, Nat.add_sub_cancel]
  refine decodeStrings_in hk.1.1 ?_ string (hstrings ▸ hm)
  rw [hcount]
  split_ifs <;> omega

lemma EntityOf.regions (h : EntityOf table entity) {region : Region}
    (hm : region ∈ entityRegions entity) :
    entity.offset + headerSize ≤ region.start ∧
      region.finish ≤ entity.offset + entity.totalLength := by
  obtain ⟨hle, -⟩ := h.whole.total_le
  have hbody := h.whole.body
  rw [← h.body] at hbody
  have htotal := h.total
  rcases List.mem_append.mp hm with hm | hm
  · obtain ⟨string, hs, rfl⟩ := List.mem_map.mp hm
    have hin := h.string_in hs
    have h1 := hin.start
    have h2 := hin.inside
    obtain ⟨count, hlength, -⟩ := h.strings
    obtain ⟨k, -, hextra, -⟩ := entityDecodeLength_eq.mp hlength
    simp only [stringRegion, headerSize] at *
    omega
  · rw [List.mem_singleton.mp hm]
    simp only [bodyRegion, headerSize] at *
    omega

lemma EntityOf.regions_apart (h : EntityOf table entity) :
    (entityRegions entity).Pairwise Apart := by
  refine List.pairwise_append.mpr ⟨List.pairwise_map.mpr ?_, List.pairwise_singleton _ _, ?_⟩
  · obtain ⟨count, -, hstrings⟩ := h.strings
    rw [hstrings]
    exact decodeStrings_apart.imp fun hab => .inl hab
  · intro a ha b hb
    obtain ⟨string, hs, rfl⟩ := List.mem_map.mp ha
    rw [List.mem_singleton.mp hb]
    exact .inr (h.string_in hs).start

lemma Tiles.apart (h : Tiles table start entities stop) :
    entities.Pairwise fun a b => a.offset + a.totalLength ≤ b.offset := by
  induction h with
  | nil => exact .nil
  | cons ho _ ht ih => exact .cons (fun b hb => ho.symm ▸ (ht.entity hb).2.1) ih

lemma Tiles.regions_apart (h : Tiles table start entities stop) :
    (entities.flatMap entityRegions).Pairwise Apart := by
  rw [List.pairwise_flatMap]
  refine ⟨fun entity hm => (h.entity hm).1.regions_apart, ?_⟩
  refine h.apart.imp_of_mem fun {a b} ha hb hab x hx y hy => .inl ?_
  have hx := ((h.entity ha).1.regions hx).2
  have hy := ((h.entity hb).1.regions hy).1
  omega

def Entity.Apart (a b : Entity) : Prop :=
  a.offset + a.totalLength ≤ b.offset ∨ b.offset + b.totalLength ≤ a.offset

instance : Std.Symm Entity.Apart := ⟨fun _ _ => Or.symm⟩

lemma Tiles.region_offset (h : Tiles table start entities stop) {region : Region}
    (hp : region ∈ entities.flatMap entityRegions) (he : entity ∈ entities) :
    entity.offset < region.start ∨ region.finish ≤ entity.offset := by
  obtain ⟨owner, ho, hp⟩ := List.mem_flatMap.mp hp
  obtain ⟨hstart, hfinish⟩ := (h.entity ho).1.regions hp
  simp only [headerSize] at hstart
  by_cases heq : owner = entity
  · subst heq
    exact .inl (by omega)
  · have hapart : entities.Pairwise Entity.Apart := h.apart.imp .inl
    rcases hapart.forall ho he heq with hab | hab
    · exact .inr (by omega)
    · have htotal := (h.entity he).1.whole.total_le.1
      simp only [headerSize] at htotal
      exact .inl (by omega)

end OpenDmi

import OpenDmi.EntryAccept

/-! The scan of the memory of firmware for an entry point, and what is then decoded of it. -/

namespace OpenDmi

open Bytes

variable {area data : List Byte} {format : EntryFormat} {state : EntryState}

/-- Whether the data at an anchor, which go to the end of the area, are an entry point. Reads past
the area stop it. -/
def genericEntryValid (data : List Byte) : EntryFormat → Option Bool
  | .v30 => do
    let length ← loadWithin data 6 1
    if length < v30Size ∨ data.length < length then some false
    else checksumTestWithin data length
  | .v21 => do
    let length ← loadWithin data 5 1
    if length < v21Size - 1 ∨ data.length < length then some false
    else
      let valid ← checksumTestWithin data length
      if valid = false then some false
      else
        let anchor ← readWithin data iepsOffset EntryFormat.legacy.spec.anchor.length
        if anchor ≠ EntryFormat.legacy.spec.anchor then some false
        else if length < v21Size then some true
        else
          let ieps ← readWithin data iepsOffset legacySize
          checksumTestWithin ieps legacySize
  | .legacy => if data.length < legacySize then some false else checksumTestWithin data legacySize

def findAnchorFrom (area : List Byte) (last : ℕ) (format : EntryFormat) :
    ℕ → ℕ → Option (Option ℕ)
  | 0, _ => some none
  | steps + 1, offset =>
    if last < offset then some none
    else do
      let anchor ← readWithin area offset format.spec.anchor.length
      if anchor ≠ format.spec.anchor then findAnchorFrom area last format steps (offset + 16)
      else
        let valid ← genericEntryValid (area.drop offset) format
        if valid then some (some offset)
        else findAnchorFrom area last format steps (offset + 16)

/-- The last offset is a difference of sizes, which goes around for an area of 16 bytes. -/
def lastOffset (size : ℕ) : ℕ := (size + 2 ^ 64 - entryMaxSize) % 2 ^ 64

def genericFindAnchor (base : ℕ) (area : List Byte) (format : EntryFormat) :
    Option (Option ℕ) :=
  if base % 16 ≠ 0 then some none
  else if area.length < 16 ∨ area.length % 16 ≠ 0 then some none
  else
    (findAnchorFrom area (lastOffset area.length) format (lastOffset area.length / 16 + 1) 0).map
      fun found => found.map fun offset => (base + offset) % 2 ^ 64

def memoryBytes (memory : ℕ → Byte) (addr size : ℕ) : List Byte :=
  (List.range size).map fun i => memory (addr + i)

def memoryLoad (memory : ℕ → Byte) (granted : ℕ → ℕ → Bool) (addr size : ℕ) :
    Option (List Byte) :=
  if granted addr size then some (memoryBytes memory addr size) else none

def firmwareBase : ℕ := 0xF0000
def firmwareSize : ℕ := 0x10000

def findAnchors (base : ℕ) (area : List Byte) : List EntryFormat → Option (Option ℕ)
  | [] => some none
  | format :: formats => do
    match ← genericFindAnchor base area format with
    | some addr => some (some addr)
    | none => findAnchors base area formats

def genericFindEntryAddr (memory : ℕ → Byte) (granted : ℕ → ℕ → Bool) : Option (Option ℕ) :=
  match memoryLoad memory granted firmwareBase firmwareSize with
  | none => some none
  | some area => findAnchors firmwareBase area [.v30, .v21, .legacy]

/-- The address the firmware gives in its tables comes first, where there is one. -/
def kernelReadEntry (given : Option ℕ) (memory : ℕ → Byte) (granted : ℕ → ℕ → Bool) :
    Option (Option (List Byte)) := do
  let found ← match given with
    | some addr => some (some addr)
    | none => genericFindEntryAddr memory granted
  match found with
  | none => some none
  | some addr => some (memoryLoad memory granted addr entryMaxSize)

structure EntryFound (format : EntryFormat) (data : List Byte) : Prop where
  anchor : format.spec.anchor <+: data
  covered : ∀ offset ∈ format.lengthOffset,
    format.spec.minLength ≤ loadAt data offset 1 ∧ loadAt data offset 1 ≤ data.length ∧
      byteSum (data.take (loadAt data offset 1)) = 0
  ieps : format = .v21 →
    window data iepsOffset EntryFormat.legacy.spec.anchor.length = EntryFormat.legacy.spec.anchor
  summed : ∀ offset ∈ format.legacyOffset,
    (format = .v21 → v21Size ≤ loadAt data 5 1) → byteSum (window data offset legacySize) = 0

structure EntryPlaced (memory : ℕ → Byte) (format : EntryFormat) (addr : ℕ) : Prop where
  aligned : addr % 16 = 0
  low : firmwareBase ≤ addr
  high : addr + entryMaxSize ≤ firmwareBase + firmwareSize
  found : EntryFound format (memoryBytes memory addr (firmwareBase + firmwareSize - addr))

def FirstStep (stride : ℕ) (P : ℕ → Prop) (start steps place : ℕ) : Prop :=
  ∃ k < steps, place = start + stride * k ∧ P place ∧ ∀ j < k, ¬ P (start + stride * j)

section FirstStep

variable {P : ℕ → Prop} {stride start steps place : ℕ}

lemma firstStep_zero : ¬ FirstStep stride P start 0 place := by
  rintro ⟨k, hk, -⟩
  omega

lemma firstStep_here (h : P start) :
    FirstStep stride P start (steps + 1) place ↔ place = start := by
  constructor
  · rintro ⟨k, -, rfl, -, hbefore⟩
    rcases Nat.eq_zero_or_pos k with rfl | hk
    · rw [Nat.mul_zero, Nat.add_zero]
    · exact absurd (by simpa using h) (hbefore 0 hk)
  · rintro rfl
    exact ⟨0, Nat.succ_pos _, by simp, h, fun j hj => absurd hj (Nat.not_lt_zero j)⟩

lemma firstStep_next (h : ¬ P start) :
    FirstStep stride P start (steps + 1) place ↔
      FirstStep stride P (start + stride) steps place := by
  have hshift : ∀ k, start + stride * (k + 1) = start + stride + stride * k := fun k => by ring
  constructor
  · rintro ⟨k, hk, rfl, hplace, hbefore⟩
    cases k with
    | zero => exact absurd (by simpa using hplace) h
    | succ k =>
      refine ⟨k, by omega, hshift k, hplace, fun j hj => ?_⟩
      rw [← hshift]
      exact hbefore (j + 1) (by omega)
  · rintro ⟨k, hk, rfl, hplace, hbefore⟩
    refine ⟨k + 1, by omega, (hshift k).symm, hplace, fun j hj => ?_⟩
    cases j with
    | zero => simpa using h
    | succ j =>
      rw [hshift]
      exact hbefore j (by omega)

end FirstStep

section Found

lemma anchor_window_iff :
    window data 0 format.spec.anchor.length = format.spec.anchor ↔ format.spec.anchor <+: data := by
  rw [← take_eq_window, List.prefix_iff_eq_take]
  exact eq_comm

lemma entryFound_v30 :
    EntryFound .v30 data ↔ EntryFormat.v30.spec.anchor <+: data ∧
      v30Size ≤ loadAt data 6 1 ∧ loadAt data 6 1 ≤ data.length ∧
        byteSum (data.take (loadAt data 6 1)) = 0 :=
  ⟨fun h => ⟨h.anchor, h.covered 6 rfl⟩, fun h =>
    ⟨h.1, by rintro _ ⟨⟩; exact h.2, (nomatch ·), by rintro _ ⟨⟩⟩⟩

lemma entryFound_v21 :
    EntryFound .v21 data ↔ EntryFormat.v21.spec.anchor <+: data ∧
      (v21Size - 1 ≤ loadAt data 5 1 ∧ loadAt data 5 1 ≤ data.length ∧
        byteSum (data.take (loadAt data 5 1)) = 0) ∧
      window data iepsOffset EntryFormat.legacy.spec.anchor.length =
        EntryFormat.legacy.spec.anchor ∧
      (v21Size ≤ loadAt data 5 1 → byteSum (window data iepsOffset legacySize) = 0) :=
  ⟨fun h => ⟨h.anchor, h.covered 5 rfl, h.ieps rfl, fun hl => h.summed iepsOffset rfl fun _ => hl⟩,
    fun h => ⟨h.1, by rintro _ ⟨⟩; exact h.2.1, fun _ => h.2.2.1, by
      rintro _ ⟨⟩ hl
      exact h.2.2.2 (hl rfl)⟩⟩

lemma entryFound_legacy :
    EntryFound .legacy data ↔ EntryFormat.legacy.spec.anchor <+: data ∧
      byteSum (data.take legacySize) = 0 := by
  rw [take_eq_window]
  exact ⟨fun h => ⟨h.anchor, h.summed 0 rfl (nomatch ·)⟩, fun h =>
    ⟨h.1, by rintro _ ⟨⟩, (nomatch ·), by rintro _ ⟨⟩ -; exact h.2⟩⟩

lemma genericEntryValid_v30 (hanchor : EntryFormat.v30.spec.anchor <+: data)
    (hlong : legacySize ≤ data.length) :
    ∃ valid, genericEntryValid data .v30 = some valid ∧
      (valid = true ↔ EntryFound .v30 data) := by
  rw [legacySize] at hlong
  rw [entryFound_v30]
  simp only [genericEntryValid, loadWithin_eq (by omega : 6 + 1 ≤ data.length),
    Option.bind_eq_bind, Option.bind_some]
  split_ifs with hlength
  · refine ⟨false, rfl, ?_⟩
    simp only [Bool.false_eq_true, false_iff]
    omega
  · refine ⟨_, checksumTestWithin_eq (by omega), ?_⟩
    rw [checksumTest, beq_iff_eq]
    exact ⟨fun hsum => ⟨hanchor, by omega, by omega, hsum⟩, fun h => h.2.2.2⟩

lemma genericEntryValid_v21 (hanchor : EntryFormat.v21.spec.anchor <+: data)
    (hlong : legacySize ≤ data.length) :
    ∃ valid, genericEntryValid data .v21 = some valid ∧
      (valid = true ↔ EntryFound .v21 data) := by
  rw [legacySize] at hlong
  rw [entryFound_v21]
  simp only [genericEntryValid, loadWithin_eq (by omega : 5 + 1 ≤ data.length),
    Option.bind_eq_bind, Option.bind_some]
  by_cases hlength : loadAt data 5 1 < v21Size - 1 ∨ data.length < loadAt data 5 1
  · rw [if_pos hlength]
    refine ⟨false, rfl, ?_⟩
    simp only [Bool.false_eq_true, false_iff]
    omega
  rw [if_neg hlength]
  have hl : v21Size - 1 ≤ loadAt data 5 1 ∧ loadAt data 5 1 ≤ data.length := by omega
  have hsize : iepsOffset + legacySize = v21Size := rfl
  rw [checksumTestWithin_eq hl.2, Option.bind_some, checksumTest]
  by_cases hsum : byteSum (data.take (loadAt data 5 1)) = 0
  swap
  · rw [if_pos (by simpa using hsum)]
    exact ⟨false, rfl, by simp [hsum]⟩
  rw [if_neg (by simpa using hsum), readWithin_eq (by
    have : iepsOffset + EntryFormat.legacy.spec.anchor.length ≤ v21Size - 1 := by decide
    omega), Option.bind_some]
  by_cases hieps : window data iepsOffset EntryFormat.legacy.spec.anchor.length =
      EntryFormat.legacy.spec.anchor
  swap
  · rw [if_pos hieps]
    exact ⟨false, rfl, by simp [hieps]⟩
  rw [if_neg (not_not.mpr hieps)]
  split_ifs with hshort
  · exact ⟨true, rfl, by simp only [true_iff]; exact ⟨hanchor, ⟨hl.1, hl.2, hsum⟩, hieps,
      fun h => absurd h (by omega)⟩⟩
  · have hin : iepsOffset + legacySize ≤ data.length := by omega
    rw [readWithin_eq hin, Option.bind_some,
      checksumTestWithin_eq (window_length hin).ge]
    refine ⟨_, rfl, ?_⟩
    rw [checksumTest, beq_iff_eq, List.take_of_length_le (window_length hin).le]
    exact ⟨fun h => ⟨hanchor, ⟨hl.1, hl.2, hsum⟩, hieps, fun _ => h⟩, fun h => h.2.2.2 (by omega)⟩

lemma genericEntryValid_spec (hanchor : format.spec.anchor <+: data)
    (hlong : legacySize ≤ data.length) :
    ∃ valid, genericEntryValid data format = some valid ∧
      (valid = true ↔ EntryFound format data) := by
  cases format with
  | v30 => exact genericEntryValid_v30 hanchor hlong
  | v21 => exact genericEntryValid_v21 hanchor hlong
  | legacy =>
    refine ⟨_, (if_neg (by omega)).trans (checksumTestWithin_eq hlong), ?_⟩
    rw [checksumTest, beq_iff_eq, entryFound_legacy]
    exact (and_iff_right hanchor).symm

lemma genericEntryValid_area {offset : ℕ} (hin : offset + entryMaxSize ≤ area.length)
    (hanchor : window area offset format.spec.anchor.length = format.spec.anchor) :
    ∃ valid, genericEntryValid (area.drop offset) format = some valid ∧
      (valid = true ↔ EntryFound format (area.drop offset)) := by
  refine genericEntryValid_spec (anchor_window_iff.mp ?_) ?_
  · rw [window, List.drop_drop, Nat.add_zero]
    exact hanchor
  · rw [List.length_drop, legacySize]
    rw [entryMaxSize] at hin
    omega

lemma findAnchorFrom_spec {last : ℕ} (hlast : last + entryMaxSize ≤ area.length)
    (steps start : ℕ) :
    ∃ found, findAnchorFrom area last format steps start = some found ∧
      ∀ offset, found = some offset ↔
        FirstStep 16 (fun offset => offset ≤ last ∧ EntryFound format (area.drop offset))
          start steps offset := by
  induction steps generalizing start with
  | zero => exact ⟨none, rfl, fun offset => ⟨nofun, fun h => (firstStep_zero h).elim⟩⟩
  | succ steps ih =>
    rw [findAnchorFrom]
    by_cases hpast : last < start
    · rw [if_pos hpast]
      refine ⟨none, rfl, fun offset => ⟨nofun, ?_⟩⟩
      rintro ⟨k, -, rfl, ⟨hle, -⟩, -⟩
      omega
    have hanchor := anchor_length_le format
    have hmax : entryMaxSize = 32 := rfl
    rw [if_neg hpast, readWithin_eq (by omega), Option.bind_eq_bind, Option.bind_some]
    by_cases hne : window area start format.spec.anchor.length = format.spec.anchor
    swap
    · rw [if_pos hne]
      obtain ⟨found, hfound, hspec⟩ := ih (start + 16)
      refine ⟨found, hfound, fun offset => (hspec offset).trans (firstStep_next ?_).symm⟩
      rintro ⟨-, hentry⟩
      refine hne ?_
      have h := anchor_window_iff.mpr hentry.anchor
      rwa [window, List.drop_drop, Nat.add_zero] at h
    rw [if_neg (not_not.mpr hne)]
    obtain ⟨valid, hvalid, hiff⟩ := genericEntryValid_area (by omega) hne
    rw [hvalid, Option.bind_eq_bind, Option.bind_some]
    cases valid with
    | true =>
      refine ⟨some start, rfl, fun offset => ?_⟩
      rw [firstStep_here ⟨by omega, hiff.mp rfl⟩, Option.some.injEq]
      exact eq_comm
    | false =>
      obtain ⟨found, hfound, hspec⟩ := ih (start + 16)
      refine ⟨found, hfound, fun offset => (hspec offset).trans (firstStep_next ?_).symm⟩
      exact fun h => Bool.false_ne_true (hiff.mpr h.2)

lemma genericFindAnchor_spec {base : ℕ} (hbase : base % 16 = 0) (hsize : area.length % 16 = 0)
    (hlong : entryMaxSize ≤ area.length) (hlt : area.length < 2 ^ 64) :
    ∃ found, genericFindAnchor base area format = some (found.map fun offset =>
        (base + offset) % 2 ^ 64) ∧
      ∀ offset, found = some offset ↔ FirstStep 16
        (fun offset => offset + entryMaxSize ≤ area.length ∧ EntryFound format (area.drop offset))
        0 (area.length / 16 - 1) offset := by
  have hmax : entryMaxSize = 32 := rfl
  have hlast : lastOffset area.length = area.length - entryMaxSize := by
    rw [lastOffset, hmax]
    omega
  obtain ⟨found, hfound, hspec⟩ := @findAnchorFrom_spec area format _
    (by omega : area.length - entryMaxSize + entryMaxSize ≤ area.length)
    ((area.length - entryMaxSize) / 16 + 1) 0
  refine ⟨found, ?_, fun offset => ?_⟩
  · rw [genericFindAnchor, if_neg (by omega), if_neg (by omega), hlast, hfound, Option.map_some]
  · have hsteps : (area.length - entryMaxSize) / 16 + 1 = area.length / 16 - 1 := by omega
    have hinside : ∀ offset, offset ≤ area.length - entryMaxSize ↔
        offset + entryMaxSize ≤ area.length := by omega
    rw [hspec, hsteps]
    simp only [hinside]

lemma genericFindAnchor_small {base : ℕ} (hbase : base % 16 = 0) (hsize : area.length = 16) :
    genericFindAnchor base area format = none ↔
      ¬ (format = .legacy ∧ EntryFound .legacy area) := by
  have hlast : lastOffset area.length = 2 ^ 64 - 16 := by rw [hsize]; rfl
  have hanchor := anchor_length_le format
  have hpast : ∀ steps, findAnchorFrom area (2 ^ 64 - 16) format (steps + 1) 16 = none := by
    intro steps
    have hpos : 0 < format.spec.anchor.length := by cases format <;> decide
    rw [findAnchorFrom, if_neg (by omega), readWithin, if_neg (by omega)]
    rfl
  have hsteps : (2 ^ 64 - 16) / 16 + 1 = (2 ^ 60 - 2) + 1 + 1 := by norm_num
  rw [genericFindAnchor, if_neg (by omega), if_neg (by omega), hlast, hsteps,
    Option.map_eq_none_iff, findAnchorFrom, if_neg (by omega), readWithin_eq (by omega),
    Option.bind_eq_bind, Option.bind_some]
  by_cases hne : window area 0 format.spec.anchor.length = format.spec.anchor
  swap
  · rw [if_pos hne, hpast]
    refine iff_of_true rfl ?_
    rintro ⟨rfl, hfound⟩
    exact hne (anchor_window_iff.mpr hfound.anchor)
  rw [if_neg (not_not.mpr hne), List.drop_zero]
  obtain ⟨valid, hvalid, hiff⟩ := genericEntryValid_spec (anchor_window_iff.mp hne)
    (by rw [legacySize]; omega)
  have hlegacy : EntryFound format area → format = .legacy := by
    intro hfound
    cases format with
    | legacy => rfl
    | v30 =>
      obtain ⟨-, hshort, hin, -⟩ := entryFound_v30.mp hfound
      rw [v30Size] at hshort
      omega
    | v21 =>
      obtain ⟨-, ⟨hshort, hin, -⟩, -⟩ := entryFound_v21.mp hfound
      rw [v21Size] at hshort
      omega
  rw [hvalid, Option.bind_eq_bind, Option.bind_some]
  cases valid with
  | true =>
    have hfound := hiff.mp rfl
    obtain rfl := hlegacy hfound
    exact iff_of_false (Option.some_ne_none _) (not_not.mpr ⟨rfl, hfound⟩)
  | false =>
    rw [if_neg Bool.false_ne_true, hpast]
    refine iff_of_true rfl ?_
    rintro ⟨rfl, hfound⟩
    exact Bool.false_ne_true (hiff.mpr hfound)

lemma accepted_iff (hlong : entryMaxSize ≤ data.length) :
    EntryAccepted format (data.take entryMaxSize) ↔ format.spec.anchor <+: data ∧
      (∀ offset ∈ format.lengthOffset, format.spec.minLength ≤ loadAt data offset 1 ∧
        loadAt data offset 1 ≤ entryMaxSize ∧ byteSum (data.take (loadAt data offset 1)) = 0) ∧
      ∀ offset ∈ format.legacyOffset, byteSum (window data offset legacySize) = 0 := by
  have hmax : entryMaxSize = 32 := rfl
  have hlength : (data.take entryMaxSize).length = entryMaxSize := by
    rw [List.length_take, Nat.min_eq_left hlong]
  have hload : ∀ offset ∈ format.lengthOffset,
      loadAt (data.take entryMaxSize) offset 1 = loadAt data offset 1 := by
    intro offset hoffset
    rw [loadAt, window_take, loadAt]
    cases format <;> cases hoffset <;> decide
  have hlegacy : ∀ offset ∈ format.legacyOffset, offset + legacySize ≤ entryMaxSize := by
    intro offset hoffset
    cases format <;> cases hoffset <;> decide
  have hanchor : format.spec.anchor <+: data.take entryMaxSize ↔ format.spec.anchor <+: data := by
    have hl := anchor_length_le format
    rw [← anchor_window_iff, ← @anchor_window_iff data, window_take (by omega)]
  constructor
  · rintro ⟨hanchored, -, hcovered, hsummed⟩
    refine ⟨hanchor.mp hanchored, fun offset hoffset => ?_, fun offset hoffset => ?_⟩
    · obtain ⟨hmin, hle, hsum⟩ := hcovered offset hoffset
      rw [hload offset hoffset] at hmin hle hsum
      rw [hlength] at hle
      rw [List.take_take, Nat.min_eq_left hle] at hsum
      exact ⟨hmin, hle, hsum⟩
    · have h := hsummed offset hoffset (by rw [hlength]; exact hlegacy offset hoffset)
      rwa [window_take (hlegacy offset hoffset)] at h
  · rintro ⟨hanchored, hcovered, hsummed⟩
    refine ⟨hanchor.mpr hanchored, ?_, fun offset hoffset => ?_, fun offset hoffset _ => ?_⟩
    · rw [hlength]
      cases format <;> decide
    · obtain ⟨hmin, hle, hsum⟩ := hcovered offset hoffset
      rw [hload offset hoffset, hlength, List.take_take, Nat.min_eq_left hle]
      exact ⟨hmin, hle, hsum⟩
    · rw [window_take (hlegacy offset hoffset)]
      exact hsummed offset hoffset

lemma accepted_of_found (hlong : entryMaxSize ≤ data.length) (hfound : EntryFound format data) :
    EntryAccepted format (data.take entryMaxSize) ↔
      (∀ offset ∈ format.lengthOffset, loadAt data offset 1 ≤ entryMaxSize) ∧
        ∀ offset ∈ format.legacyOffset, byteSum (window data offset legacySize) = 0 := by
  rw [accepted_iff hlong]
  constructor
  · exact fun h => ⟨fun offset hoffset => (h.2.1 offset hoffset).2.1, h.2.2⟩
  · refine fun h => ⟨hfound.anchor, fun offset hoffset => ?_, h.2⟩
    obtain ⟨hmin, -, hsum⟩ := hfound.covered offset hoffset
    exact ⟨hmin, h.1 offset hoffset, hsum⟩

lemma found_of_accepted (hlong : entryMaxSize ≤ data.length)
    (haccepted : EntryAccepted format (data.take entryMaxSize))
    (hieps : format = .v21 → window data iepsOffset EntryFormat.legacy.spec.anchor.length =
      EntryFormat.legacy.spec.anchor) : EntryFound format data := by
  obtain ⟨hanchor, hcovered, hsummed⟩ := (accepted_iff hlong).mp haccepted
  refine ⟨hanchor, fun offset hoffset => ?_, hieps, fun offset hoffset _ => hsummed offset hoffset⟩
  obtain ⟨hmin, hle, hsum⟩ := hcovered offset hoffset
  exact ⟨hmin, hle.trans hlong, hsum⟩

end Found

section Firmware

variable {memory : ℕ → Byte} {granted : ℕ → ℕ → Bool} {addr size : ℕ}

@[simp] lemma memoryBytes_length : (memoryBytes memory addr size).length = size := by
  rw [memoryBytes, List.length_map, List.length_range]

lemma memoryBytes_take {n : ℕ} (h : n ≤ size) :
    (memoryBytes memory addr size).take n = memoryBytes memory addr n := by
  rw [memoryBytes, ← List.map_take, List.take_range, Nat.min_eq_left h, memoryBytes]

lemma memoryBytes_drop (n : ℕ) :
    (memoryBytes memory addr size).drop n = memoryBytes memory (addr + n) (size - n) := by
  apply List.ext_getElem
  · simp
  · intro i hi _
    simp only [memoryBytes, List.getElem_drop, List.getElem_map, List.getElem_range, Nat.add_assoc]

lemma entryPlaced_offset {offset : ℕ} :
    EntryPlaced memory format (firmwareBase + offset) ↔ offset % 16 = 0 ∧
      offset + entryMaxSize ≤ firmwareSize ∧
        EntryFound format ((memoryBytes memory firmwareBase firmwareSize).drop offset) := by
  have hbase : firmwareBase % 16 = 0 := rfl
  have hsize : firmwareBase + firmwareSize - (firmwareBase + offset) = firmwareSize - offset := by
    omega
  constructor
  · rintro ⟨haligned, -, hhigh, hfound⟩
    rw [hsize] at hfound
    rw [memoryBytes_drop]
    exact ⟨by omega, by omega, hfound⟩
  · rintro ⟨haligned, hhigh, hfound⟩
    rw [memoryBytes_drop, ← hsize] at hfound
    exact ⟨by omega, by omega, by omega, hfound⟩

def FirstEntry (memory : ℕ → Byte) (format : EntryFormat) (addr : ℕ) : Prop :=
  EntryPlaced memory format addr ∧ ∀ before < addr, ¬ EntryPlaced memory format before

lemma firstStep_iff {offset : ℕ} :
    FirstStep 16 (fun offset => offset + entryMaxSize ≤ firmwareSize ∧
        EntryFound format ((memoryBytes memory firmwareBase firmwareSize).drop offset))
      0 (firmwareSize / 16 - 1) offset ↔ FirstEntry memory format (firmwareBase + offset) := by
  have hmax : entryMaxSize = 32 := rfl
  have hsize : firmwareSize = 65536 := rfl
  constructor
  · rintro ⟨k, -, rfl, ⟨hhigh, hfound⟩, hbefore⟩
    refine ⟨entryPlaced_offset.mpr ⟨by omega, hhigh, hfound⟩, fun before hlt hentry => ?_⟩
    obtain ⟨other, rfl⟩ := Nat.exists_eq_add_of_le hentry.low
    obtain ⟨haligned, hrest⟩ := entryPlaced_offset.mp hentry
    refine hbefore (other / 16) (by omega) ?_
    rw [show 0 + 16 * (other / 16) = other by omega]
    exact hrest
  · rintro ⟨hentry, hbefore⟩
    obtain ⟨haligned, hhigh, hfound⟩ := entryPlaced_offset.mp hentry
    refine ⟨offset / 16, by omega, by omega, ⟨hhigh, hfound⟩, fun j hj h => ?_⟩
    exact hbefore (firmwareBase + (0 + 16 * j)) (by omega)
      (entryPlaced_offset.mpr ⟨by omega, h⟩)

lemma firmwareFindAnchor_spec :
    ∃ found, genericFindAnchor firmwareBase (memoryBytes memory firmwareBase firmwareSize) format =
        some found ∧ ∀ addr, found = some addr ↔ FirstEntry memory format addr := by
  have hmax : entryMaxSize = 32 := rfl
  have hsize : firmwareSize = 65536 := rfl
  have hbase : firmwareBase = 983040 := rfl
  obtain ⟨found, hfound, hspec⟩ := @genericFindAnchor_spec
    (memoryBytes memory firmwareBase firmwareSize) format firmwareBase rfl
    (by rw [memoryBytes_length]; rfl) (by rw [memoryBytes_length]; decide)
    (by rw [memoryBytes_length]; decide)
  rw [memoryBytes_length] at hspec
  refine ⟨_, hfound, fun addr => ?_⟩
  rw [Option.map_eq_some_iff]
  constructor
  · rintro ⟨offset, hoffset, rfl⟩
    have hfirst := firstStep_iff.mp ((hspec offset).mp hoffset)
    have hhigh := hfirst.1.high
    rwa [Nat.mod_eq_of_lt (by omega)]
  · intro hfirst
    obtain ⟨offset, rfl⟩ := Nat.exists_eq_add_of_le hfirst.1.low
    have hhigh := hfirst.1.high
    exact ⟨offset, (hspec offset).mpr (firstStep_iff.mpr hfirst), Nat.mod_eq_of_lt (by omega)⟩

lemma firstEntry_exists (h : EntryPlaced memory format addr) :
    ∃ first, FirstEntry memory format first := by
  classical
  exact ⟨Nat.find ⟨addr, h⟩, Nat.find_spec ⟨addr, h⟩, fun _ hlt => Nat.find_min ⟨addr, h⟩ hlt⟩

lemma findAnchors_spec (formats : List EntryFormat) :
    ∃ found, findAnchors firmwareBase (memoryBytes memory firmwareBase firmwareSize) formats =
        some found ∧ ∀ addr, found = some addr ↔
          ∃ earlier format later, formats = earlier ++ format :: later ∧
            FirstEntry memory format addr ∧
              ∀ other ∈ earlier, ∀ addr, ¬ EntryPlaced memory other addr := by
  induction formats with
  | nil =>
    refine ⟨none, rfl, fun addr => ⟨nofun, ?_⟩⟩
    rintro ⟨earlier, format, later, h, -⟩
    simp at h
  | cons format formats ih =>
    obtain ⟨found, hfound, hspec⟩ := @firmwareFindAnchor_spec format memory
    rw [findAnchors, hfound, Option.bind_eq_bind, Option.bind_some]
    cases found with
    | some first =>
      have hfirst := (hspec first).mp rfl
      refine ⟨some first, rfl, fun addr => ?_⟩
      rw [hspec]
      constructor
      · exact fun h => ⟨[], format, formats, rfl, h, nofun⟩
      · rintro ⟨earlier, other, later, hformats, h, hnone⟩
        cases earlier with
        | nil =>
          obtain ⟨rfl, -⟩ := List.cons.inj hformats
          exact h
        | cons head earlier =>
          obtain ⟨rfl, -⟩ := List.cons.inj hformats
          exact absurd hfirst.1 (hnone _ List.mem_cons_self _)
    | none =>
      have hnone : ∀ addr, ¬ EntryPlaced memory format addr := by
        intro addr h
        obtain ⟨first, hfirst⟩ := firstEntry_exists h
        exact nomatch (hspec first).mpr hfirst
      obtain ⟨found, hrest, hrestSpec⟩ := ih
      refine ⟨found, hrest, fun addr => (hrestSpec addr).trans ⟨?_, ?_⟩⟩
      · rintro ⟨earlier, other, later, rfl, h, hearlier⟩
        refine ⟨format :: earlier, other, later, rfl, h, fun head hhead => ?_⟩
        rcases List.mem_cons.mp hhead with rfl | hhead
        · exact hnone
        · exact hearlier head hhead
      · rintro ⟨earlier, other, later, hformats, h, hearlier⟩
        cases earlier with
        | nil =>
          obtain ⟨rfl, -⟩ := List.cons.inj hformats
          exact absurd h.1 (hnone addr)
        | cons head earlier =>
          obtain ⟨rfl, rfl⟩ := List.cons.inj hformats
          exact ⟨earlier, other, later, rfl, h, fun other hother =>
            hearlier other (List.mem_cons_of_mem _ hother)⟩

lemma entryPlaced_data (h : EntryPlaced memory format addr) :
    ∃ data, EntryFound format data ∧ entryMaxSize ≤ data.length ∧
      memoryBytes memory addr entryMaxSize = data.take entryMaxSize := by
  have hhigh := h.high
  refine ⟨_, h.found, by rw [memoryBytes_length]; omega, ?_⟩
  rw [memoryBytes_take (by omega)]

lemma loadAt_take {offset : ℕ} (h : offset ∈ format.lengthOffset) :
    loadAt (data.take entryMaxSize) offset 1 = loadAt data offset 1 := by
  rw [loadAt, window_take, loadAt]
  cases format <;> cases h <;> decide

lemma legacy_take {offset : ℕ} (h : offset ∈ format.legacyOffset) :
    window (data.take entryMaxSize) offset legacySize = window data offset legacySize := by
  apply window_take
  cases format <;> cases h <;> decide

lemma entryPlaced_decode (h : EntryPlaced memory format addr) :
    entryDecode state (memoryBytes memory addr entryMaxSize) ≠ none ↔
      (∀ offset ∈ format.lengthOffset,
        loadAt (memoryBytes memory addr entryMaxSize) offset 1 ≤ entryMaxSize) ∧
      ∀ offset ∈ format.legacyOffset,
        byteSum (window (memoryBytes memory addr entryMaxSize) offset legacySize) = 0 := by
  obtain ⟨data, hfound, hlong, hbytes⟩ := entryPlaced_data h
  have hsame : (∃ other, EntryAccepted other (data.take entryMaxSize)) ↔
      EntryAccepted format (data.take entryMaxSize) := by
    refine ⟨?_, fun haccepted => ⟨format, haccepted⟩⟩
    rintro ⟨other, haccepted⟩
    have hanchor := ((accepted_iff hlong).mp haccepted).1
    rwa [anchor_unique hanchor hfound.anchor] at haccepted
  rw [hbytes, ← Option.isSome_iff_ne_none, entryDecode_isSome, hsame,
    accepted_of_found hlong hfound]
  refine and_congr (forall₂_congr fun offset hoffset => ?_) (forall₂_congr fun offset hoffset => ?_)
  · rw [loadAt_take hoffset]
  · rw [legacy_take hoffset]

lemma entryPlaced_of_accepted (haligned : addr % 16 = 0) (hlow : firmwareBase ≤ addr)
    (hhigh : addr + entryMaxSize ≤ firmwareBase + firmwareSize)
    (haccepted : EntryAccepted format (memoryBytes memory addr entryMaxSize))
    (hieps : format = .v21 → memoryBytes memory (addr + iepsOffset) 5 =
      EntryFormat.legacy.spec.anchor) : EntryPlaced memory format addr := by
  refine ⟨haligned, hlow, hhigh, ?_⟩
  rw [← memoryBytes_take (by omega : entryMaxSize ≤ firmwareBase + firmwareSize - addr)]
    at haccepted
  refine found_of_accepted (by rw [memoryBytes_length]; omega) haccepted fun h => ?_
  have hmax : entryMaxSize = 32 := rfl
  rw [window, memoryBytes_drop, memoryBytes_take (by
    have : iepsOffset + EntryFormat.legacy.spec.anchor.length ≤ 32 := by decide
    omega)]
  exact hieps h

/-- The scan of the firmware never reads past its area. It finds the lowest entry point of the
first format which has any, on a boundary of 16 bytes. What is found is then decoded unless it is
longer than the 32 bytes read, or has an intermediate entry point whose 15 bytes do not sum up to
zero, which only that of 30 bytes may have. Nothing which would be decoded is passed over where it
begins on a boundary of 16 bytes with 32 bytes left in the area, but for an entry point of version
2.1 without an intermediate one. -/
theorem entry_scan_exact (memory : ℕ → Byte) (granted : ℕ → ℕ → Bool) (state : EntryState) :
    (∃ found, genericFindEntryAddr memory granted = some found ∧
        kernelReadEntry none memory granted =
          some (found.bind fun addr => memoryLoad memory granted addr entryMaxSize) ∧
        ∀ addr, found = some addr ↔ granted firmwareBase firmwareSize = true ∧
          ∃ earlier format later, [EntryFormat.v30, .v21, .legacy] = earlier ++ format :: later ∧
            FirstEntry memory format addr ∧
              ∀ other ∈ earlier, ∀ addr, ¬ EntryPlaced memory other addr) ∧
      ∀ format addr,
        (EntryPlaced memory format addr →
          (entryDecode state (memoryBytes memory addr entryMaxSize) ≠ none ↔
            (∀ offset ∈ format.lengthOffset,
              loadAt (memoryBytes memory addr entryMaxSize) offset 1 ≤ entryMaxSize) ∧
            ∀ offset ∈ format.legacyOffset,
              byteSum (window (memoryBytes memory addr entryMaxSize) offset legacySize) = 0)) ∧
        (addr % 16 = 0 → firmwareBase ≤ addr →
          addr + entryMaxSize ≤ firmwareBase + firmwareSize →
          EntryAccepted format (memoryBytes memory addr entryMaxSize) →
          (format = .v21 →
            memoryBytes memory (addr + iepsOffset) 5 = EntryFormat.legacy.spec.anchor) →
          EntryPlaced memory format addr) := by
  refine ⟨?_, fun format addr => ⟨entryPlaced_decode, entryPlaced_of_accepted⟩⟩
  by_cases hgranted : granted firmwareBase firmwareSize = true
  · obtain ⟨found, hfound, hspec⟩ :=
      @findAnchors_spec memory [EntryFormat.v30, .v21, .legacy]
    have hscan : genericFindEntryAddr memory granted = some found := by
      rw [genericFindEntryAddr, memoryLoad, if_pos hgranted]
      exact hfound
    refine ⟨found, hscan, ?_, fun addr => (hspec addr).trans (and_iff_right hgranted).symm⟩
    rw [kernelReadEntry, hscan]
    cases found <;> rfl
  · have hscan : genericFindEntryAddr memory granted = some none := by
      rw [genericFindEntryAddr, memoryLoad, if_neg hgranted]
    refine ⟨none, hscan, ?_, fun addr => iff_of_false nofun fun h => hgranted h.1⟩
    rw [kernelReadEntry, hscan]
    rfl

/-- The scan for an anchor in a given area reads past it only where the area is of 16 bytes, where
the last offset goes around, unless the legacy anchor is scanned for and found there. -/
theorem find_anchor_past_iff (base : ℕ) (area : List Byte) (format : EntryFormat)
    (hlt : area.length < 2 ^ 64) :
    genericFindAnchor base area format = none ↔
      base % 16 = 0 ∧ area.length = 16 ∧ ¬ (format = .legacy ∧ EntryFound .legacy area) := by
  by_cases hbase : base % 16 = 0
  swap
  · rw [genericFindAnchor, if_pos hbase]
    exact iff_of_false nofun fun h => hbase h.1
  by_cases hsize : area.length < 16 ∨ area.length % 16 ≠ 0
  · rw [genericFindAnchor, if_neg (not_not.mpr hbase), if_pos hsize]
    exact iff_of_false nofun fun h => by omega
  rw [and_iff_right hbase]
  by_cases hsmall : area.length = 16
  · rw [genericFindAnchor_small hbase hsmall, and_iff_right hsmall]
  · obtain ⟨found, hfound, -⟩ := @genericFindAnchor_spec area format base hbase (by omega)
      (by rw [entryMaxSize]; omega) hlt
    rw [hfound]
    exact iff_of_false nofun fun h => hsmall h.1

theorem find_anchor_past_iff_zeros : genericFindAnchor 0 (zeros 16) .legacy = none :=
  (find_anchor_past_iff 0 (zeros 16) .legacy (by decide)).mpr
    ⟨rfl, rfl, fun h => by
      have hanchor := h.2.anchor
      revert hanchor
      decide⟩

end Firmware

end OpenDmi

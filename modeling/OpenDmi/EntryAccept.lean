import OpenDmi.SaveEntry

namespace OpenDmi

open Bytes

variable {data : List Byte} {state : EntryState} {format : EntryFormat}

def EntryFormat.lengthOffset : EntryFormat → Option ℕ
  | .v30 => some 6
  | .v21 => some 5
  | .legacy => none

/-- Where the entry point of the older format begins, which may be the intermediate one. -/
def EntryFormat.legacyOffset : EntryFormat → Option ℕ
  | .v30 => none
  | .v21 => some iepsOffset
  | .legacy => some 0

structure EntryAccepted (format : EntryFormat) (data : List Byte) : Prop where
  anchor : format.spec.anchor <+: data
  long : format.spec.minLength ≤ data.length
  covered : ∀ offset ∈ format.lengthOffset,
    format.spec.minLength ≤ loadAt data offset 1 ∧ loadAt data offset 1 ≤ data.length ∧
      byteSum (data.take (loadAt data offset 1)) = 0
  legacy : ∀ offset ∈ format.legacyOffset, offset + legacySize ≤ data.length →
    byteSum (window data offset legacySize) = 0

lemma checksumTest_eq_false {length : ℕ} :
    checksumTest data length = false ↔ byteSum (data.take length) ≠ 0 := by
  simp [checksumTest]

lemma entryDecodeLegacy_isSome :
    (entryDecodeLegacy state data).isSome ↔
      (legacySize ≤ data.length → byteSum (data.take legacySize) = 0) := by
  simp only [entryDecodeLegacy, checksumTest_eq_false]
  by_cases hbad : legacySize ≤ data.length ∧ byteSum (data.take legacySize) ≠ 0
  · rw [if_pos hbad]
    simpa using hbad
  · rw [if_neg hbad, Option.isSome_some]
    simpa using hbad

lemma entryDecodeV30_isSome :
    (entryDecodeV30 state data).isSome ↔ v30Size ≤ loadAt data 6 1 ∧
      loadAt data 6 1 ≤ data.length ∧ byteSum (data.take (loadAt data 6 1)) = 0 := by
  simp only [entryDecodeV30, checksumTest_eq_false]
  split_ifs with hlong hshort hsum
  · simp only [Option.isSome_none, Bool.false_eq_true, false_iff]
    omega
  · simp only [Option.isSome_none, Bool.false_eq_true, false_iff]
    omega
  · simpa using fun _ _ => hsum
  · simp only [Option.isSome_some, true_iff]
    exact ⟨by omega, by omega, not_not.mp hsum⟩

lemma entryDecodeV21_isSome (hl : v21Size - 1 ≤ data.length) :
    (entryDecodeV21 state data).isSome ↔ (v21Size - 1 ≤ loadAt data 5 1 ∧
      loadAt data 5 1 ≤ data.length ∧ byteSum (data.take (loadAt data 5 1)) = 0) ∧
      (iepsOffset + legacySize ≤ data.length →
        byteSum (window data iepsOffset legacySize) = 0) := by
  have hieps : legacySize ≤ (window data iepsOffset
      (min (data.length - iepsOffset) legacySize)).length ↔
      iepsOffset + legacySize ≤ data.length := by
    simp only [v21Size, iepsOffset, legacySize, window, List.length_take,
      List.length_drop] at hl ⊢
    omega
  have hwhole : iepsOffset + legacySize ≤ data.length → (window data iepsOffset
      (min (data.length - iepsOffset) legacySize)).take legacySize =
      window data iepsOffset legacySize := by
    intro hin
    have hmin : min (data.length - iepsOffset) legacySize = legacySize := by omega
    rw [hmin, window, List.take_take, min_self]
  have hlegacy : ∀ state, (entryDecodeLegacy state (window data iepsOffset
      (min (data.length - iepsOffset) legacySize))).isSome ↔
      (iepsOffset + legacySize ≤ data.length →
        byteSum (window data iepsOffset legacySize) = 0) := by
    intro state
    rw [entryDecodeLegacy_isSome, hieps]
    exact forall_congr' fun hin => by rw [hwhole hin]
  simp only [entryDecodeV21, checksumTest_eq_false]
  split_ifs with hlong hshort hsum
  · simp only [Option.isSome_none, Bool.false_eq_true, false_iff]
    omega
  · simp only [Option.isSome_none, Bool.false_eq_true, false_iff]
    omega
  · simp only [Option.isSome_none, Bool.false_eq_true, false_iff]
    exact fun hall => hsum hall.1.2.2
  · rw [Option.isSome_map, hlegacy]
    have hfirst : v21Size - 1 ≤ loadAt data 5 1 ∧ loadAt data 5 1 ≤ data.length ∧
        byteSum (data.take (loadAt data 5 1)) = 0 := ⟨by omega, by omega, not_not.mp hsum⟩
    exact (and_iff_right hfirst).symm

lemma format_accepts_iff :
    format.accepts data = true ↔
      format.spec.anchor <+: data ∧ format.spec.minLength ≤ data.length := by
  simp only [EntryFormat.accepts, Bool.and_eq_true, decide_eq_true_eq,
    List.isPrefixOf_iff_prefix]
  exact and_comm

lemma entryAccepted_iff :
    EntryAccepted format data ↔
      format.accepts data = true ∧ (format.decode state data).isSome := by
  have hsplit : EntryAccepted format data ↔ format.accepts data = true ∧
      (∀ offset ∈ format.lengthOffset, format.spec.minLength ≤ loadAt data offset 1 ∧
        loadAt data offset 1 ≤ data.length ∧
          byteSum (data.take (loadAt data offset 1)) = 0) ∧
      (∀ offset ∈ format.legacyOffset, offset + legacySize ≤ data.length →
        byteSum (window data offset legacySize) = 0) := by
    rw [format_accepts_iff]
    exact ⟨fun h => ⟨⟨h.anchor, h.long⟩, h.covered, h.legacy⟩,
      fun h => ⟨h.1.1, h.1.2, h.2.1, h.2.2⟩⟩
  rw [hsplit]
  refine and_congr_right fun haccepts => ?_
  have hl := accepts_length haccepts
  cases format with
  | v30 =>
    rw [EntryFormat.decode, entryDecodeV30_isSome]
    simp [EntryFormat.lengthOffset, EntryFormat.legacyOffset, EntryFormat.spec]
  | v21 =>
    rw [EntryFormat.decode, entryDecodeV21_isSome hl]
    simp [EntryFormat.lengthOffset, EntryFormat.legacyOffset, EntryFormat.spec]
  | legacy =>
    rw [EntryFormat.decode, entryDecodeLegacy_isSome, take_eq_window]
    simp [EntryFormat.lengthOffset, EntryFormat.legacyOffset]

lemma entryDecode_isSome :
    (entryDecode state data).isSome ↔ ∃ format, EntryAccepted format data := by
  constructor
  · intro hsome
    obtain ⟨result, hresult⟩ := Option.isSome_iff_exists.mp hsome
    obtain ⟨format, haccepts, hdecode⟩ := entryDecode_some hresult
    exact ⟨format, entryAccepted_iff.mpr ⟨haccepts, by rw [hdecode]; rfl⟩⟩
  · rintro ⟨format, haccepted⟩
    obtain ⟨haccepts, hdecode⟩ := entryAccepted_iff.mp haccepted
    rw [entryDecode_of_accepts haccepts]
    exact hdecode

def readWithin (data : List Byte) (offset length : ℕ) : Option (List Byte) :=
  if offset + length ≤ data.length then some (window data offset length) else none

def loadWithin (data : List Byte) (offset length : ℕ) : Option ℕ :=
  (readWithin data offset length).map leLoad

def checksumTestWithin (data : List Byte) (length : ℕ) : Option Bool :=
  (readWithin data 0 length).map fun bytes => byteSum bytes == 0

lemma readWithin_eq {offset length : ℕ} (h : offset + length ≤ data.length) :
    readWithin data offset length = some (window data offset length) := if_pos h

lemma loadWithin_eq {offset length : ℕ} (h : offset + length ≤ data.length) :
    loadWithin data offset length = some (loadAt data offset length) := by
  rw [loadWithin, readWithin_eq h]
  rfl

lemma checksumTestWithin_eq {length : ℕ} (h : length ≤ data.length) :
    checksumTestWithin data length = some (checksumTest data length) := by
  rw [checksumTestWithin, readWithin_eq (by simpa using h), checksumTest, take_eq_window]
  rfl

def entryDecodeLegacyWithin (state : EntryState) (data : List Byte) :
    Option (Option EntryState) := do
  let complete := legacySize ≤ data.length
  let valid ← if complete then checksumTestWithin data legacySize else some true
  if valid = false then some none
  else
    let entryVersion ← if complete then loadWithin data 14 1 else some 0
    let entityCount ← loadWithin data 12 2
    let tableAreaAddress ← loadWithin data 8 4
    let tableAreaSize ← loadWithin data 6 2
    some (some { state with
      smbiosVersion := if entryVersion ≠ 0 ∧ state.smbiosVersion = 0
        then dmiVersion (entryVersion / 16) (entryVersion % 16) 0 else state.smbiosVersion
      addressSize := if state.addressSize = 0 then 4 else state.addressSize
      entryLength := legacySize
      entityCount := entityCount
      tableAreaAddress := tableAreaAddress
      tableAreaMaxSize := tableAreaSize
      tableAreaSize := tableAreaSize })

def entryDecodeV21Within (state : EntryState) (data : List Byte) :
    Option (Option EntryState) := do
  let entryLength ← loadWithin data 5 1
  if entryLength > data.length then some none
  else if entryLength < v21Size - 1 then some none
  else
    let valid ← checksumTestWithin data entryLength
    if valid = false then some none
    else
      let entryRevision ← loadWithin data 10 1
      let versionMajor ← loadWithin data 6 1
      let versionMinor ← loadWithin data 7 1
      let entityMaxSize ← loadWithin data 8 2
      let iepsLength := min (data.length - iepsOffset) legacySize
      let ieps ← readWithin data iepsOffset iepsLength
      let result ← entryDecodeLegacyWithin
        { state with
          entryRevision := entryRevision
          smbiosVersion := dmiVersion versionMajor versionMinor 0
          addressSize := 4
          entityMaxSize := entityMaxSize }
        ieps
      some (result.map fun state => { state with entryLength := entryLength })

def entryDecodeV30Within (state : EntryState) (data : List Byte) :
    Option (Option EntryState) := do
  let entryLength ← loadWithin data 6 1
  if entryLength > data.length then some none
  else if entryLength < v30Size then some none
  else
    let valid ← checksumTestWithin data entryLength
    if valid = false then some none
    else
      let entryRevision ← loadWithin data 10 1
      let versionMajor ← loadWithin data 7 1
      let versionMinor ← loadWithin data 8 1
      let versionRev ← loadWithin data 9 1
      let tableAreaAddress ← loadWithin data 16 8
      let tableAreaMaxSize ← loadWithin data 12 4
      some (some { state with
        entryRevision := entryRevision
        smbiosVersion := dmiVersion versionMajor versionMinor versionRev
        addressSize := 8
        entryLength := entryLength
        tableAreaAddress := tableAreaAddress
        tableAreaMaxSize := tableAreaMaxSize })

def EntryFormat.decodeWithin : EntryFormat → EntryState → List Byte → Option (Option EntryState)
  | .v30 => entryDecodeV30Within
  | .v21 => entryDecodeV21Within
  | .legacy => entryDecodeLegacyWithin

def entryFindWithin (data : List Byte) : List EntryFormat → Option (Option EntryFormat)
  | [] => some none
  | format :: formats =>
    if data.length < format.spec.minLength then entryFindWithin data formats
    else do
      let bytes ← readWithin data 0 format.spec.anchor.length
      if bytes = format.spec.anchor then some (some format) else entryFindWithin data formats

def entryDecodeWithin (state : EntryState) (data : List Byte) : Option (Option EntryState) :=
  if data.length = 0 then some none
  else do
    match ← entryFindWithin data [.v30, .v21, .legacy] with
    | none => some none
    | some format => format.decodeWithin { state with format := some format } data

lemma entryDecodeLegacyWithin_eq (hl : legacySize - 1 ≤ data.length) :
    entryDecodeLegacyWithin state data = some (entryDecodeLegacy state data) := by
  have hin : ∀ offset length, offset + length ≤ legacySize - 1 →
      loadWithin data offset length = some (loadAt data offset length) :=
    fun offset length h => loadWithin_eq (h.trans hl)
  simp only [entryDecodeLegacyWithin, entryDecodeLegacy, hin 12 2 (by decide),
    hin 8 4 (by decide), hin 6 2 (by decide), Option.bind_eq_bind, Option.bind_some]
  by_cases hcomplete : legacySize ≤ data.length
  · have hversion : loadWithin data 14 1 = some (loadAt data 14 1) := loadWithin_eq hcomplete
    simp only [hcomplete, if_true, checksumTestWithin_eq, hversion, Option.bind_some, true_and]
    split_ifs <;> rfl
  · simp only [hcomplete, if_false, false_and]
    rfl

lemma entryDecodeV30Within_eq (hl : v30Size ≤ data.length) :
    entryDecodeV30Within state data = some (entryDecodeV30 state data) := by
  have hin : ∀ offset length, offset + length ≤ v30Size →
      loadWithin data offset length = some (loadAt data offset length) :=
    fun offset length h => loadWithin_eq (h.trans hl)
  simp only [entryDecodeV30Within, entryDecodeV30, hin 6 1 (by decide), hin 10 1 (by decide),
    hin 7 1 (by decide), hin 8 1 (by decide), hin 9 1 (by decide), hin 16 8 (by decide),
    hin 12 4 (by decide), Option.bind_eq_bind, Option.bind_some]
  by_cases hlong : loadAt data 6 1 > data.length
  · rw [if_pos hlong, if_pos hlong]
  · rw [if_neg hlong, if_neg hlong, checksumTestWithin_eq (not_lt.mp hlong)]
    simp only [Option.bind_some]
    split_ifs <;> rfl

lemma entryDecodeV21Within_eq (hl : v21Size - 1 ≤ data.length) :
    entryDecodeV21Within state data = some (entryDecodeV21 state data) := by
  have hin : ∀ offset length, offset + length ≤ v21Size - 1 →
      loadWithin data offset length = some (loadAt data offset length) :=
    fun offset length h => loadWithin_eq (h.trans hl)
  simp only [v21Size] at hl
  have hieps : iepsOffset + min (data.length - iepsOffset) legacySize ≤ data.length := by
    simp only [iepsOffset, legacySize]
    omega
  -- The intermediate entry point lacks at most its last byte
  have hcut : legacySize - 1 ≤
      (window data iepsOffset (min (data.length - iepsOffset) legacySize)).length := by
    rw [window_length hieps]
    simp only [iepsOffset, legacySize]
    omega
  simp only [entryDecodeV21Within, entryDecodeV21, hin 5 1 (by decide), hin 10 1 (by decide),
    hin 6 1 (by decide), hin 7 1 (by decide), hin 8 2 (by decide), readWithin_eq hieps,
    entryDecodeLegacyWithin_eq hcut, Option.bind_eq_bind, Option.bind_some]
  by_cases hlong : loadAt data 5 1 > data.length
  · rw [if_pos hlong, if_pos hlong]
  · rw [if_neg hlong, if_neg hlong, checksumTestWithin_eq (not_lt.mp hlong)]
    simp only [Option.bind_some]
    split_ifs <;> rfl

lemma entryFindWithin_eq (formats : List EntryFormat) :
    entryFindWithin data formats = some (formats.find? (·.accepts data)) := by
  induction formats with
  | nil => rfl
  | cons format formats ih =>
    rw [entryFindWithin, List.find?_cons, ih]
    by_cases hshort : data.length < format.spec.minLength
    · have hno : format.accepts data = false := by
        rw [Bool.eq_false_iff, ne_eq, format_accepts_iff]
        omega
      rw [if_pos hshort, hno]
    · have hanchor : format.spec.anchor.length ≤ format.spec.minLength := by
        cases format <;> decide
      have hread : readWithin data 0 format.spec.anchor.length =
          some (window data 0 format.spec.anchor.length) := readWithin_eq (by omega)
      have hsame : window data 0 format.spec.anchor.length = format.spec.anchor ↔
          format.accepts data = true := by
        rw [format_accepts_iff, ← take_eq_window, List.prefix_iff_eq_take, eq_comm]
        exact (and_iff_left (not_lt.mp hshort)).symm
      rw [if_neg hshort, hread]
      by_cases haccepts : format.accepts data = true
      · simp [haccepts, hsame.mpr haccepts]
      · simp [haccepts, mt hsame.mp haccepts]

lemma decodeWithin_eq (h : format.accepts data = true) :
    format.decodeWithin state data = some (format.decode state data) := by
  have hl := accepts_length h
  cases format with
  | v30 => exact entryDecodeV30Within_eq hl
  | v21 => exact entryDecodeV21Within_eq hl
  | legacy => exact entryDecodeLegacyWithin_eq ((Nat.sub_le _ _).trans hl)

lemma entryDecodeWithin_eq :
    entryDecodeWithin state data = some (entryDecode state data) := by
  rw [entryDecodeWithin, entryDecode, entryFindWithin_eq]
  split_ifs with hempty
  · rfl
  · simp only [Option.bind_eq_bind, Option.bind_some]
    cases hf : [EntryFormat.v30, .v21, .legacy].find? (·.accepts data) with
    | none => rfl
    | some format =>
      have haccepts : format.accepts data = true := by simpa using List.find?_some hf
      exact decodeWithin_eq haccepts

theorem entryDecode_exact (state : EntryState) (data : List Byte) :
    ((entryDecode state data).isSome ↔ ∃ format, EntryAccepted format data) ∧
      entryDecodeWithin state data = some (entryDecode state data) :=
  ⟨entryDecode_isSome, entryDecodeWithin_eq⟩

end OpenDmi

import OpenDmi.SaveLoad

namespace OpenDmi

open Bytes

variable {state result : EntryState} {data : List Byte} {format : EntryFormat}

lemma entryDecodeV30_length (h : entryDecodeV30 state data = some result) :
    24 ≤ loadAt data 6 1 ∧ loadAt data 6 1 ≤ data.length := by
  simp only [entryDecodeV30] at h
  split_ifs at h with hmax hmin hcheck
  simp only [v30Size] at hmin
  omega

lemma dumpEntryRelocate_v30 (h : 7 ≤ data.length) :
    dumpEntryRelocate .v30 data = relocateWith data 16 (leStore 8 entryMaxSize) 0 5
      (loadAt data 6 1) (loadAt data 6 1) := by
  rw [← loadAt_entryPad (a := 6) (n := 1) h]
  rfl

lemma decode_relocate_v30 (h : entryDecodeV30 state data = some result)
    (hmax : data.length ≤ entryMaxSize) :
    ∃ loaded, entryDecodeV30 state (dumpEntryRelocate .v30 data) = some loaded ∧
      SameEffect loaded result := by
  obtain ⟨hmin, hle⟩ := entryDecodeV30_length h
  have hm : entryMaxSize = 32 := rfl
  rw [dumpEntryRelocate_v30 (by omega)]
  have hfield : 16 + (leStore 8 entryMaxSize).length ≤ entryMaxSize := by simp [entryMaxSize]
  refine entryDecodeV30_congr h ?_ ?_ ?_
  · rw [relocateWith_length hmax hfield (by decide) (by omega)]
    exact hmax
  · intro a n h6 h16
    rw [window_relocateWith hmax hfield (by decide) (by omega) (by omega) (.inl h16) (by omega),
      window_entryPad (by omega)]
  · rw [take_eq_window]
    exact byteSum_relocateWith _ _ hmax hfield (by omega) (by omega) (by omega)

lemma decode_relocate_legacy (h : entryDecodeLegacy state data = some result)
    (hmin : legacySize ≤ data.length) (hmax : data.length ≤ entryMaxSize) :
    ∃ loaded, entryDecodeLegacy state (dumpEntryRelocate .legacy data) = some loaded ∧
      SameEffect loaded result := by
  have hm : entryMaxSize = 32 := rfl
  have hl : legacySize = 15 := rfl
  have hrelocate : dumpEntryRelocate .legacy data =
      relocateWith data 8 (leStore 4 entryMaxSize) 0 5 legacySize legacySize := rfl
  have hfield : 8 + (leStore 4 entryMaxSize).length ≤ entryMaxSize := by simp [entryMaxSize]
  have hload : ∀ a n, 12 ≤ a → a + n ≤ legacySize →
      loadAt (dumpEntryRelocate .legacy data) a n = loadAt data a n := by
    intro a n h1 h2
    rw [hrelocate, loadAt, window_relocateWith hmax hfield (by decide) (by decide) h2
      (.inr (by simpa using h1)) (.inr (by omega)), window_entryPad (by omega), loadAt]
  refine entryDecodeLegacy_congr h ?_ ?_ ?_ (hload 12 2 (by omega) (by decide))
  · rw [hrelocate, relocateWith_length hmax hfield (by decide) (by decide)]
    decide
  · rw [hrelocate, take_eq_window]
    exact byteSum_relocateWith _ _ hmax hfield (by decide) (by decide) (by decide)
  · rw [if_pos hmin, hload 14 1 (by omega) (by decide)]

lemma decode_relocate (haccepts : format.accepts data = true)
    (h : format.decode state data = some result) (hmax : data.length ≤ entryMaxSize)
    (hcut : ¬ CutEntry format data) :
    ∃ loaded, format.decode state (dumpEntryRelocate format data) = some loaded ∧
      SameEffect loaded result := by
  have hmin := accepts_length haccepts
  cases format with
  | v30 => exact decode_relocate_v30 h hmax
  | v21 =>
    rw [dumpEntryRelocate_v21 (le_trans (by decide) hmin)]
    exact decode_relocate_v21 h hmax hcut
  | legacy => exact decode_relocate_legacy h hmin hmax

lemma relocate_frame (haccepts : format.accepts data = true)
    (h : format.decode state data = some result) (hmax : data.length ≤ entryMaxSize) :
    (dumpEntryRelocate format data).length = entryMaxSize ∧
      window (dumpEntryRelocate format data) 0 5 = window data 0 5 := by
  have hmin := accepts_length haccepts
  have hm : entryMaxSize = 32 := rfl
  cases format with
  | v30 =>
    obtain ⟨h24, hle⟩ := entryDecodeV30_length h
    have hfield : 16 + (leStore 8 entryMaxSize).length ≤ entryMaxSize := by simp [entryMaxSize]
    rw [dumpEntryRelocate_v30 (by omega), relocateWith_length hmax hfield (by decide) (by omega),
      window_relocateWith hmax hfield (by decide) (by omega) (by omega) (by simp) (by omega),
      window_entryPad (by omega)]
    exact ⟨rfl, rfl⟩
  | v21 =>
    obtain ⟨h30, hle, -⟩ := entryDecodeV21_length h
    rw [dumpEntryRelocate_v21 (by omega), relocateV21_length hmax (by omega),
      window_relocateV21 hmax (by omega) (by omega) (by omega), window_entryPad (by omega)]
    exact ⟨rfl, rfl⟩
  | legacy =>
    have hfield : 8 + (leStore 4 entryMaxSize).length ≤ entryMaxSize := by simp [entryMaxSize]
    have hl : 15 ≤ data.length := hmin
    have hrelocate : dumpEntryRelocate .legacy data =
      relocateWith data 8 (leStore 4 entryMaxSize) 0 5 legacySize legacySize := rfl
    rw [hrelocate, relocateWith_length hmax hfield (by decide) (by decide),
      window_relocateWith hmax hfield (by decide) (by decide) (by decide) (by simp) (by omega),
      window_entryPad (by omega)]
    exact ⟨rfl, rfl⟩

lemma decode_generate (state : EntryState) {version tableLength : ℕ} {entry : List Byte}
    (h : dumpEntryGenerate version tableLength = some entry) (hversion : version < 2 ^ 24) :
    entry.length = entryMaxSize ∧ EntryFormat.v30.accepts entry = true ∧
      ∃ loaded, entryDecodeV30 state entry = some loaded ∧ loaded.smbiosVersion = version ∧
        loaded.entityCount = state.entityCount := by
  obtain ⟨-, hentry⟩ := Option.ite_none_left_eq_some.mp h
  generalize hbytes : EntryFormat.v30.spec.anchor ++ [0] ++ leStore 1 v30Size ++
      leStore 1 (versionMajor version) ++ leStore 1 (versionMinor version) ++
      leStore 1 (versionRevision version) ++ leStore 1 1 ++ [0] ++ leStore 4 tableLength ++
      leStore 8 entryMaxSize ++ zeros (entryMaxSize - v30Size) = bytes at hentry
  have hlen : bytes.length = 32 := by
    rw [← hbytes]
    simp [EntryFormat.spec, zeros, entryMaxSize, v30Size]
  cases hentry
  have hlength : (entrySetChecksum bytes 0 5 v30Size).length = entryMaxSize := by
    rw [entrySetChecksum_length (by omega), hlen]
    rfl
  have hwin : ∀ a n, a + n ≤ 5 ∨ 5 < a →
      window (entrySetChecksum bytes 0 5 v30Size) a n = window bytes a n :=
    fun a n hd => window_entrySetChecksum (by omega) (by omega)
  have hload : ∀ a n, 5 < a →
      loadAt (entrySetChecksum bytes 0 5 v30Size) a n = loadAt bytes a n :=
    fun a n hd => by rw [loadAt, hwin a n (.inr hd), loadAt]
  have h6 : loadAt bytes 6 1 = v30Size := by
    rw [← hbytes]
    rfl
  have hbyte : ∀ x : ℕ, leLoad [UInt8.ofNat x] = x % 256 := fun x => by simp [leLoad]
  have h7 : loadAt bytes 7 1 = versionMajor version := by
    rw [← hbytes, show loadAt _ 7 1 = leLoad [UInt8.ofNat (versionMajor version)] from rfl, hbyte]
    simp only [versionMajor]
    omega
  have h8 : loadAt bytes 8 1 = versionMinor version := by
    rw [← hbytes, show loadAt _ 8 1 = leLoad [UInt8.ofNat (versionMinor version)] from rfl, hbyte]
    simp only [versionMinor]
    omega
  have h9 : loadAt bytes 9 1 = versionRevision version := by
    rw [← hbytes, show loadAt _ 9 1 = leLoad [UInt8.ofNat (versionRevision version)] from rfl,
      hbyte]
    simp only [versionRevision]
    omega
  have hsum : byteSum ((entrySetChecksum bytes 0 5 v30Size).take v30Size) = 0 := by
    rw [take_eq_window]
    exact byteSum_entrySetChecksum (by rw [hlen]; decide) (by decide)
  refine ⟨hlength, ?_, ?_⟩
  · have hanchor : (entrySetChecksum bytes 0 5 v30Size).take 5 = EntryFormat.v30.spec.anchor := by
      rw [take_eq_window, hwin 0 5 (.inl (by omega)), ← hbytes]
      rfl
    simp only [EntryFormat.accepts, hlength, Bool.and_eq_true, decide_eq_true_eq]
    refine ⟨by decide, List.isPrefixOf_iff_prefix.mpr ?_⟩
    rw [← hanchor]
    exact List.take_prefix 5 _
  · simp only [entryDecodeV30, hload 6 1 (by omega), hload 7 1 (by omega), hload 8 1 (by omega),
      hload 9 1 (by omega), h6, h7, h8, h9]
    rw [if_neg (by rw [hlength]; decide), if_neg (by decide),
      if_neg (by simp [checksumTest, hsum])]
    exact ⟨_, rfl, dmiVersion_parts hversion, rfl⟩

end OpenDmi

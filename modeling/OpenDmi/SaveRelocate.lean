import OpenDmi.SaveEntry

namespace OpenDmi

open Bytes

variable {state result : EntryState} {data entry : List Byte}

def SameEffect (a b : EntryState) : Prop :=
  a.smbiosVersion = b.smbiosVersion ∧ a.entityCount = b.entityCount

lemma loadAt_congr {a n : ℕ} (h : window entry a n = window data a n) :
    loadAt entry a n = loadAt data a n := by rw [loadAt, loadAt, h]

lemma entryDecodeLegacy_congr (h : entryDecodeLegacy state data = some result)
    (hl : legacySize ≤ entry.length) (hsum : byteSum (entry.take legacySize) = 0)
    (hversion : loadAt entry 14 1 = if legacySize ≤ data.length then loadAt data 14 1 else 0)
    (hcount : loadAt entry 12 2 = loadAt data 12 2) :
    ∃ loaded, entryDecodeLegacy state entry = some loaded ∧ SameEffect loaded result := by
  simp only [entryDecodeLegacy] at h ⊢
  obtain ⟨-, hresult⟩ := Option.ite_none_left_eq_some.mp h
  rw [if_neg (by simp [checksumTest, hsum])]
  refine ⟨_, rfl, ?_⟩
  cases hresult
  simp only [SameEffect, if_pos hl, hversion, hcount, and_self]

lemma entryDecodeV21_congr (h : entryDecodeV21 state data = some result)
    (hl : entry.length = entryMaxSize) (hlen : data.length ≤ entryMaxSize)
    (hw : ∀ a n, 5 ≤ a → a + n ≤ iepsOffset → window entry a n = window data a n)
    (hsum : byteSum (entry.take (loadAt data 5 1)) = 0)
    (hieps : byteSum (window entry iepsOffset legacySize) = 0)
    (hversion : loadAt entry 30 1 = if v21Size ≤ data.length then loadAt data 30 1 else 0)
    (hcount : window entry 28 2 = window data 28 2) :
    ∃ loaded, entryDecodeV21 state entry = some loaded ∧ SameEffect loaded result := by
  have hload : ∀ a n, 5 ≤ a → a + n ≤ 16 → loadAt entry a n = loadAt data a n :=
    fun a n h1 h2 => loadAt_congr (hw a n h1 h2)
  simp only [entryDecodeV21] at h
  split_ifs at h with hmax hmin hcheck
  obtain ⟨inner, hinner, hresult⟩ := Option.map_eq_some_iff.mp h
  have hmin' : 30 ≤ data.length := by simp only [v21Size] at hmin; omega
  simp only [entryDecodeV21, hl]
  rw [hload 5 1 (by omega) (by omega), hload 6 1 (by omega) (by omega),
    hload 7 1 (by omega) (by omega), hload 8 2 (by omega) (by omega),
    hload 10 1 (by omega) (by omega)]
  rw [if_neg (by omega), if_neg hmin, if_neg (by simp [checksumTest, hsum]),
    show min (entryMaxSize - iepsOffset) legacySize = legacySize from rfl]
  have hwl : (window entry iepsOffset legacySize).length = legacySize :=
    window_length (by rw [hl]; decide)
  have hdl : (window data iepsOffset (min (data.length - iepsOffset) legacySize)).length =
      min (data.length - iepsOffset) legacySize :=
    window_length (by simp only [iepsOffset, legacySize]; omega)
  obtain ⟨loaded, hloaded, hsame⟩ := entryDecodeLegacy_congr hinner hwl.ge
    (by rw [List.take_of_length_le hwl.le, hieps])
    (by
      have h1 : window (window entry iepsOffset legacySize) 14 1 = window entry 30 1 :=
        window_window (by decide)
      rw [hdl, loadAt, h1]
      by_cases hcut : v21Size ≤ data.length
      · have hm : min (data.length - iepsOffset) legacySize = legacySize := by
          simp only [v21Size, iepsOffset, legacySize] at *
          omega
        have h2 : window (window data iepsOffset legacySize) 14 1 = window data 30 1 :=
          window_window (by decide)
        rw [if_pos hcut] at hversion
        rw [hm, if_pos le_rfl, loadAt, h2]
        exact hversion
      · rw [if_neg hcut] at hversion
        rw [if_neg (by simp only [v21Size, iepsOffset, legacySize] at *; omega)]
        exact hversion)
    (by
      have h1 : window (window entry iepsOffset legacySize) 12 2 = window entry 28 2 :=
        window_window (by decide)
      have h2 : window (window data iepsOffset (min (data.length - iepsOffset) legacySize)) 12 2 =
          window data 28 2 := window_window (by simp only [iepsOffset, legacySize]; omega)
      rw [loadAt, loadAt, h1, h2, hcount])
  rw [hloaded, Option.map_some]
  refine ⟨_, rfl, ?_⟩
  cases hresult
  exact hsame

lemma entryDecodeV30_congr (h : entryDecodeV30 state data = some result)
    (hlen : data.length ≤ entry.length)
    (hw : ∀ a n, 6 ≤ a → a + n ≤ 16 → window entry a n = window data a n)
    (hsum : byteSum (entry.take (loadAt data 6 1)) = 0) :
    ∃ loaded, entryDecodeV30 state entry = some loaded ∧ SameEffect loaded result := by
  have hload : ∀ a n, 6 ≤ a → a + n ≤ 16 → loadAt entry a n = loadAt data a n :=
    fun a n h1 h2 => loadAt_congr (hw a n h1 h2)
  simp only [entryDecodeV30] at h ⊢
  split_ifs at h with hmax hmin hcheck
  rw [hload 6 1 (by omega) (by omega), hload 7 1 (by omega) (by omega),
    hload 8 1 (by omega) (by omega), hload 9 1 (by omega) (by omega)]
  rw [if_neg (by omega), if_neg hmin, if_neg (by simp [checksumTest, hsum])]
  refine ⟨_, rfl, ?_⟩
  cases h
  exact ⟨rfl, rfl⟩

end OpenDmi

import OpenDmi.SaveRelocate

namespace OpenDmi

open Bytes

variable {data bytes : List Byte} {field offset checksum covered length a n : ℕ}

def relocateWith (data : List Byte) (field : ℕ) (bytes : List Byte)
    (offset checksum covered length : ℕ) : List Byte :=
  (entrySetChecksum (patch (entryPad data) field bytes) offset checksum covered).take length ++
    zeros (entryMaxSize - length)

lemma patched_length (hmax : data.length ≤ entryMaxSize)
    (hfield : field + bytes.length ≤ entryMaxSize) :
    (patch (entryPad data) field bytes).length = entryMaxSize := by
  rw [patch_length (by rw [entryPad_length hmax]; exact hfield), entryPad_length hmax]

lemma checked_length (hmax : data.length ≤ entryMaxSize)
    (hfield : field + bytes.length ≤ entryMaxSize) (hc : offset + checksum < entryMaxSize) :
    (entrySetChecksum (patch (entryPad data) field bytes) offset checksum covered).length =
      entryMaxSize := by
  have hp := patched_length hmax hfield
  rw [entrySetChecksum_length (by rw [hp]; exact hc), hp]

lemma relocateWith_length (hmax : data.length ≤ entryMaxSize)
    (hfield : field + bytes.length ≤ entryMaxSize) (hc : offset + checksum < entryMaxSize)
    (hl : length ≤ entryMaxSize) :
    (relocateWith data field bytes offset checksum covered length).length = entryMaxSize :=
  finish_length (checked_length hmax hfield hc) hl

lemma window_relocateWith (hmax : data.length ≤ entryMaxSize)
    (hfield : field + bytes.length ≤ entryMaxSize) (hc : offset + checksum < entryMaxSize)
    (hl : length ≤ entryMaxSize) (hn : a + n ≤ length)
    (hf : a + n ≤ field ∨ field + bytes.length ≤ a)
    (hs : a + n ≤ offset + checksum ∨ offset + checksum < a) :
    window (relocateWith data field bytes offset checksum covered length) a n =
      window (entryPad data) a n := by
  have hp := patched_length hmax hfield
  rw [relocateWith, window_finish (checked_length hmax hfield hc) hl hn,
    window_entrySetChecksum (by rw [hp]; exact hc) hs,
    window_patch_outside (by rw [entryPad_length hmax]; exact hfield) hf]

lemma byteSum_relocateWith (offset covered : ℕ) (hmax : data.length ≤ entryMaxSize)
    (hfield : field + bytes.length ≤ entryMaxSize) (hl : length ≤ entryMaxSize)
    (hcovered : offset + covered ≤ length) (hc : checksum < covered) :
    byteSum (window (relocateWith data field bytes offset checksum covered length)
      offset covered) = 0 := by
  have hp := patched_length hmax hfield
  rw [relocateWith, window_finish (checked_length hmax hfield (by omega)) hl hcovered]
  exact byteSum_entrySetChecksum (by rw [hp]; omega) hc

def iepsBytes (data : List Byte) : List Byte := window (entryPad data) iepsOffset legacySize

def relocateV21 (data : List Byte) : List Byte :=
  relocateWith data 24 (leStore 4 entryMaxSize) iepsOffset 5 legacySize
    (max (loadAt data 5 1) v21Size)

lemma take_entryPad (h : n ≤ data.length) : (entryPad data).take n = data.take n := by
  rw [take_eq_window, take_eq_window, window_entryPad (by omega)]

lemma byteSum_take_split (data : List Byte) (h : 30 ≤ n) :
    byteSum (data.take n) = byteSum (window data 0 16) +
      (byteSum (window data 16 14) + byteSum (window data 30 (n - 30))) := by
  have hn : n = 16 + (14 + (n - 30)) := by omega
  rw [take_eq_window, hn, window_append, window_append, byteSum_append, byteSum_append,
    show 16 + (14 + (n - 30)) - 30 = n - 30 by omega]

lemma byteSum_relocateV21 (hmax : data.length ≤ entryMaxSize) (h30 : 30 ≤ loadAt data 5 1)
    (hle : loadAt data 5 1 ≤ data.length) (hsum : byteSum (data.take (loadAt data 5 1)) = 0) :
    byteSum ((relocateV21 data).take (loadAt data 5 1)) = 0 ↔ byteSum (iepsBytes data) = 0 := by
  generalize hL : loadAt data 5 1 = L at *
  have hmax' : data.length ≤ 32 := hmax
  have hwin : ∀ a n, a + n ≤ max L 31 → a + n ≤ 21 ∨ 28 ≤ a →
      window (relocateV21 data) a n = window (entryPad data) a n := by
    intro a n hn hd
    rw [relocateV21, hL]
    exact window_relocateWith hmax (by simp [entryMaxSize]) (by decide)
      (by simp only [v21Size, entryMaxSize]; omega) hn (by simp; omega)
      (by simp only [iepsOffset]; omega)
  have hieps : byteSum (window (relocateV21 data) 16 14) +
      byteSum (window (entryPad data) 30 1) = 0 := by
    rw [← hwin 30 1 (by omega) (by omega), ← byteSum_append, ← window_append]
    rw [relocateV21, hL]
    exact byteSum_relocateWith iepsOffset legacySize hmax
      (by simp [entryMaxSize]) (by simp only [v21Size, entryMaxSize]; omega)
      (by simp only [v21Size, iepsOffset, legacySize]; omega) (by decide)
  have hbytes : byteSum (iepsBytes data) = byteSum (window (entryPad data) 16 14) +
      byteSum (window (entryPad data) 30 1) := by
    rw [← byteSum_append, ← window_append]
    rfl
  rw [← take_entryPad hle, byteSum_take_split _ h30] at hsum
  rw [byteSum_take_split _ h30, hwin 0 16 (by omega) (by omega),
    hwin 30 (L - 30) (by omega) (by omega), hbytes]
  constructor
  · intro h
    grind
  · intro h
    grind

variable {state result : EntryState}

lemma entryDecodeV21_length (h : entryDecodeV21 state data = some result) :
    30 ≤ loadAt data 5 1 ∧ loadAt data 5 1 ≤ data.length ∧
      byteSum (data.take (loadAt data 5 1)) = 0 := by
  simp only [entryDecodeV21] at h
  split_ifs at h with hmax hmin hcheck
  simp only [v21Size] at hmin
  exact ⟨by omega, by omega, by simpa [checksumTest] using hcheck⟩

/-- The entry point of 0x1E bytes whose intermediate one does not sum to zero without its last
byte: the sum of the whole relies on the byte which is missing. -/
def CutEntry (format : EntryFormat) (data : List Byte) : Prop :=
  format = .v21 ∧ data.length = 0x1E ∧ byteSum (data.drop iepsOffset) ≠ 0

instance (format : EntryFormat) (data : List Byte) : Decidable (CutEntry format data) :=
  inferInstanceAs (Decidable (_ ∧ _ ∧ _))

lemma byteSum_iepsBytes (h : entryDecodeV21 state data = some result) :
    byteSum (iepsBytes data) = 0 ↔ ¬ CutEntry .v21 data := by
  obtain ⟨hmin, hle, -⟩ := entryDecodeV21_length h
  by_cases hcut : data.length = 30
  · have hpad : iepsBytes data = data.drop iepsOffset ++ [0] := by
      have htake : data.drop 16 = window (entryPad data) 16 14 := by
        rw [window_entryPad (by omega), window, List.take_of_length_le (by simp; omega)]
      have hlast : window (entryPad data) 30 1 = [0] := by
        simp only [window, entryPad, List.drop_left' hcut, hcut]
        rfl
      rw [iepsBytes, show legacySize = 14 + 1 from rfl, window_append, iepsOffset, hlast, htake]
    simp [hpad, byteSum, CutEntry, hcut]
  · simp only [CutEntry, hcut, false_and, and_false, not_false_iff, iff_true]
    simp only [entryDecodeV21] at h
    split_ifs at h
    obtain ⟨inner, hinner, -⟩ := Option.map_eq_some_iff.mp h
    have hfull : min (data.length - iepsOffset) legacySize = legacySize := by
      simp only [iepsOffset, legacySize]
      omega
    have hlen : (window data iepsOffset legacySize).length = legacySize :=
      window_length (by simp only [iepsOffset, legacySize]; omega)
    rw [hfull, entryDecodeLegacy] at hinner
    obtain ⟨hcheck, -⟩ := Option.ite_none_left_eq_some.mp hinner
    rw [iepsBytes, window_entryPad (by simp only [iepsOffset, legacySize]; omega)]
    simpa [hlen, checksumTest, List.take_of_length_le] using hcheck

lemma loadAt_entryPad (h : a + n ≤ data.length) : loadAt (entryPad data) a n = loadAt data a n :=
  loadAt_congr (window_entryPad h)

lemma dumpEntryRelocate_v21 (h : 6 ≤ data.length) :
    dumpEntryRelocate .v21 data = relocateV21 data := by
  rw [relocateV21, ← loadAt_entryPad (a := 5) (n := 1) h]
  rfl

lemma window_relocateV21 (hmax : data.length ≤ entryMaxSize)
    (hL : loadAt data 5 1 ≤ entryMaxSize) (hn : a + n ≤ max (loadAt data 5 1) v21Size)
    (hd : a + n ≤ 21 ∨ 28 ≤ a) :
    window (relocateV21 data) a n = window (entryPad data) a n :=
  window_relocateWith hmax (by simp [entryMaxSize]) (by decide)
    (by simp only [v21Size, entryMaxSize] at *; omega) hn (by simp; omega)
    (by simp only [iepsOffset]; omega)

lemma relocateV21_length (hmax : data.length ≤ entryMaxSize)
    (hL : loadAt data 5 1 ≤ entryMaxSize) : (relocateV21 data).length = entryMaxSize :=
  relocateWith_length hmax (by simp [entryMaxSize]) (by decide)
    (by simp only [v21Size, entryMaxSize] at *; omega)

lemma decode_relocate_v21 (h : entryDecodeV21 state data = some result)
    (hmax : data.length ≤ entryMaxSize) (hcut : ¬ CutEntry .v21 data) :
    ∃ loaded, entryDecodeV21 state (relocateV21 data) = some loaded ∧
      SameEffect loaded result := by
  obtain ⟨hmin, hle, hsum⟩ := entryDecodeV21_length h
  have hieps := (byteSum_iepsBytes h).mpr hcut
  have hL := hle.trans hmax
  have hv : v21Size = 31 := rfl
  have hm : entryMaxSize = 32 := rfl
  refine entryDecodeV21_congr h (relocateV21_length hmax hL) hmax ?_
    ((byteSum_relocateV21 hmax hmin hle hsum).mpr hieps) ?_ ?_ ?_
  · intro a n h5 h16
    simp only [iepsOffset] at h16
    rw [window_relocateV21 hmax hL (by omega) (by omega), window_entryPad (by omega)]
  · exact byteSum_relocateWith _ _ hmax (by simp [entryMaxSize]) (by omega)
      (by simp only [iepsOffset, legacySize]; omega) (by decide)
  · rw [loadAt, window_relocateV21 hmax hL (by omega) (by omega)]
    split_ifs with hfull
    · rw [window_entryPad (by omega), loadAt]
    · have hlen : data.length = 30 := by omega
      simp only [window, entryPad, List.drop_left' hlen, hlen]
      rfl
  · rw [window_relocateV21 hmax hL (by omega) (by omega), window_entryPad (by omega)]

lemma decode_relocate_cut (h : entryDecodeV21 state data = some result)
    (hmax : data.length ≤ entryMaxSize) (hcut : CutEntry .v21 data) (state' : EntryState) :
    entryDecodeV21 state' (relocateV21 data) = none := by
  obtain ⟨hmin, hle, hsum⟩ := entryDecodeV21_length h
  have hL := hle.trans hmax
  have hm : entryMaxSize = 32 := rfl
  have hload : loadAt (relocateV21 data) 5 1 = loadAt data 5 1 := by
    rw [loadAt, window_relocateV21 hmax hL (by omega) (by omega), window_entryPad (by omega), loadAt]
  have hbad : byteSum ((relocateV21 data).take (loadAt data 5 1)) ≠ 0 := by
    rw [ne_eq, byteSum_relocateV21 hmax hmin hle hsum, byteSum_iepsBytes h]
    exact not_not.mpr hcut
  simp only [entryDecodeV21, hload, relocateV21_length hmax hL]
  rw [if_neg (by omega), if_neg (by simp only [v21Size]; omega),
    if_pos (by simpa [checksumTest] using hbad)]

end OpenDmi

import OpenDmi.Save

namespace OpenDmi

open Bytes

@[simp] lemma entrySetChecksum_length {entry : List Byte} {offset checksum length : ℕ}
    (h : offset + checksum < entry.length) :
    (entrySetChecksum entry offset checksum length).length = entry.length := by
  have hz : (patch entry (offset + checksum) [0]).length = entry.length := patch_length h
  rw [entrySetChecksum, patch_length (by simpa [hz] using h), hz]

lemma window_entrySetChecksum {entry : List Byte} {offset checksum length a n : ℕ}
    (h : offset + checksum < entry.length)
    (hd : a + n ≤ offset + checksum ∨ offset + checksum < a) :
    window (entrySetChecksum entry offset checksum length) a n = window entry a n := by
  have hz : (patch entry (offset + checksum) [0]).length = entry.length := patch_length h
  rw [entrySetChecksum, window_patch_outside (by simpa [hz] using h) hd,
    window_patch_outside h hd]

lemma byteSum_entrySetChecksum {entry : List Byte} {offset checksum length : ℕ}
    (h : offset + length ≤ entry.length) (hc : checksum < length) :
    byteSum (window (entrySetChecksum entry offset checksum length) offset length) = 0 := by
  have hz : (patch entry (offset + checksum) [0]).length = entry.length :=
    patch_length (by simp only [List.length_singleton]; omega)
  have hsplit : ∀ data : List Byte, window data offset length =
      window data offset checksum ++ (window data (offset + checksum) 1 ++
        window data (offset + checksum + 1) (length - checksum - 1)) := by
    intro data
    rw [← window_append, ← window_append]
    congr 1
    omega
  have hat : ∀ (data : List Byte) (b : Byte), data.length = entry.length →
      window (patch data (offset + checksum) [b]) (offset + checksum) 1 = [b] := by
    intro data b hl
    have hfits : offset + checksum + [b].length ≤ data.length := by
      simp only [List.length_singleton]
      omega
    exact window_patch hfits
  have hout : ∀ (data : List Byte) (b : Byte) (a n : ℕ), data.length = entry.length →
      a + n ≤ offset + checksum ∨ offset + checksum < a →
      window (patch data (offset + checksum) [b]) a n = window data a n := by
    intro data b a n hl hd
    exact window_patch_outside (by simp only [List.length_singleton]; omega) (by simpa using hd)
  have hzero : byteSum (window (patch entry (offset + checksum) [0]) offset length) =
      byteSum (window entry offset checksum) +
        byteSum (window entry (offset + checksum + 1) (length - checksum - 1)) := by
    rw [hsplit, byteSum_append, byteSum_append, hat _ _ rfl, hout _ _ _ _ rfl (.inl le_rfl),
      hout _ _ _ _ rfl (.inr (by omega))]
    simp [byteSum]
  simp only [entrySetChecksum, hzero]
  rw [hsplit, byteSum_append, byteSum_append, hat _ _ hz, hout _ _ _ _ hz (.inl le_rfl),
    hout _ _ _ _ hz (.inr (by omega)), hout _ _ _ _ rfl (.inl le_rfl),
    hout _ _ _ _ rfl (.inr (by omega))]
  simp only [byteSum]
  grind

def entryPad (data : List Byte) : List Byte := data ++ zeros (entryMaxSize - data.length)

lemma entryPad_length {data : List Byte} (h : data.length ≤ entryMaxSize) :
    (entryPad data).length = entryMaxSize := by
  simp only [entryPad, zeros, List.length_append, List.length_replicate]
  omega

lemma window_entryPad {data : List Byte} {a n : ℕ} (h : a + n ≤ data.length) :
    window (entryPad data) a n = window data a n := window_append_left h

lemma finish_length {entry : List Byte} {length : ℕ} (h : entry.length = entryMaxSize)
    (hl : length ≤ entryMaxSize) :
    (entry.take length ++ zeros (entryMaxSize - length)).length = entryMaxSize := by
  simp only [zeros, List.length_append, List.length_take, List.length_replicate]
  omega

lemma window_finish {entry : List Byte} {length a n : ℕ} (h : entry.length = entryMaxSize)
    (hl : length ≤ entryMaxSize) (hn : a + n ≤ length) :
    window (entry.take length ++ zeros (entryMaxSize - length)) a n = window entry a n := by
  rw [window_append_left (by simp only [List.length_take]; omega), window_take hn]

lemma entryDecode_some {state result : EntryState} {data : List Byte}
    (h : entryDecode state data = some result) :
    ∃ format : EntryFormat, format.accepts data = true ∧
      format.decode { state with format := some format } data = some result := by
  simp only [entryDecode] at h
  split_ifs at h
  cases hf : [EntryFormat.v30, .v21, .legacy].find? (·.accepts data) with
  | none => simp [hf] at h
  | some format =>
    rw [hf] at h
    have haccepts := List.find?_some hf
    exact ⟨format, by simpa using haccepts, h⟩

lemma accepts_anchor {format : EntryFormat} {data : List Byte} (h : format.accepts data = true) :
    format.spec.anchor <+: data := by
  simp only [EntryFormat.accepts, Bool.and_eq_true] at h
  exact List.isPrefixOf_iff_prefix.mp h.2

lemma accepts_length {format : EntryFormat} {data : List Byte} (h : format.accepts data = true) :
    format.spec.minLength ≤ data.length := by
  simp only [EntryFormat.accepts, Bool.and_eq_true, decide_eq_true_eq] at h
  exact h.1

lemma anchor_unique {f g : EntryFormat} {data : List Byte} (hf : f.spec.anchor <+: data)
    (hg : g.spec.anchor <+: data) : f = g := by
  rcases le_total f.spec.anchor.length g.spec.anchor.length with hl | hl
  · have hp := List.prefix_of_prefix_length_le hf hg hl
    revert hp
    cases f <;> cases g <;> decide
  · have hp := List.prefix_of_prefix_length_le hg hf hl
    revert hp
    cases f <;> cases g <;> decide

lemma entryDecode_of_accepts {state : EntryState} {data : List Byte} {format : EntryFormat}
    (h : format.accepts data = true) :
    entryDecode state data = format.decode { state with format := some format } data := by
  have hpos : data.length ≠ 0 := by
    have hl := accepts_length h
    have hmin : 0 < format.spec.minLength := by cases format <;> decide
    omega
  have hfind : [EntryFormat.v30, .v21, .legacy].find? (·.accepts data) = some format := by
    cases hf : [EntryFormat.v30, .v21, .legacy].find? (·.accepts data) with
    | none =>
      have hno := List.find?_eq_none.mp hf format (by cases format <;> simp)
      exact (hno h).elim
    | some other =>
      have haccepts : other.accepts data = true := by simpa using List.find?_some hf
      rw [anchor_unique (accepts_anchor haccepts) (accepts_anchor h)]
  rw [entryDecode, if_neg hpos, hfind]

lemma anchor_length_le (format : EntryFormat) : format.spec.anchor.length ≤ 5 := by
  cases format <;> decide

lemma accepts_of_prefix {format : EntryFormat} {data entry : List Byte}
    (h : format.accepts data = true) (hl : entry.length = entryMaxSize)
    (hw : window entry 0 5 = window data 0 5) : format.accepts entry = true := by
  have ha := accepts_anchor h
  have hmin : format.spec.minLength ≤ entryMaxSize := by cases format <;> decide
  have hlen := anchor_length_le format
  simp only [EntryFormat.accepts, hl, hmin, decide_true, Bool.true_and]
  have htake : entry.take 5 = data.take 5 := by rw [take_eq_window, take_eq_window, hw]
  rw [List.isPrefixOf_iff_prefix]
  have hdata : format.spec.anchor <+: data.take 5 := by
    rw [List.prefix_take_iff]
    exact ⟨ha, hlen⟩
  exact (htake ▸ hdata).trans (List.take_prefix 5 entry)

end OpenDmi

import OpenDmi.DellTokens

namespace OpenDmi

open Bytes

variable {T : Type} {codec : TokenCodec T} {source : Source} {state : DecodeState} {size : ℕ}
  {data rest record : List Byte} {records : List (List Byte)}

lemma tokenRun_exists (hsize : 2 ≤ size) (data : List Byte) :
    ∃ records rest, TokenRun size data records rest := by
  induction hn : data.length using Nat.strong_induction_on generalizing data with
  | _ n ih =>
    by_cases hends : (2 ≤ data.length ∧ tokenId data = dellTokenEot) ∨ data.length < size
    · exact ⟨[], data, rfl, fun _ hm => absurd hm List.not_mem_nil, hends⟩
    · obtain ⟨hmarker, hlong⟩ := not_or.mp hends
      obtain ⟨records, rest, hrun⟩ := ih (data.drop size).length
        (by rw [List.length_drop]; omega) (data.drop size) rfl
      have hid : tokenId (data.take size) = tokenId data := by
        rw [tokenId, tokenId, List.take_take, min_eq_left hsize]
      refine ⟨data.take size :: records, rest, ?_, ?_, hrun.ends⟩
      · rw [List.flatten_cons, List.append_assoc, ← hrun.data, List.take_append_drop]
      · intro record hm
        rcases List.mem_cons.mp hm with rfl | hm
        · exact ⟨by rw [List.length_take]; omega, fun heot =>
            hmarker ⟨by omega, hid.symm.trans heot⟩⟩
        · exact hrun.whole record hm

lemma TokenRun.cons (h : TokenRun size data (record :: records) rest) :
    record.length = size ∧ tokenId record ≠ dellTokenEot ∧
      data = record ++ (records.flatten ++ rest) ∧
      TokenRun size (records.flatten ++ rest) records rest := by
  obtain ⟨hlength, hid⟩ := h.whole record List.mem_cons_self
  refine ⟨hlength, hid, ?_, rfl, fun record hm => h.whole record (List.mem_cons_of_mem _ hm),
    h.ends⟩
  rw [h.data, List.flatten_cons, List.append_assoc]

lemma TokenRun.length (h : TokenRun size data records rest) : records.length * size ≤ data.length := by
  induction records generalizing data with
  | nil => simp
  | cons record records ih =>
    obtain ⟨hlength, -, hdata, hrest⟩ := h.cons
    have hle := ih hrest
    rw [hdata, List.length_cons, List.length_append, Nat.succ_mul]
    omega

lemma usedTokens_cons (codec : TokenCodec T) (record : List Byte) (records : List (List Byte)) :
    usedTokens codec (record :: records) = if tokenId record = dellTokenUnused then
      usedTokens codec records
    else codec.read (tokenId record) (record.drop 2) :: usedTokens codec records := by
  rw [usedTokens, List.filter_cons]
  by_cases hunused : tokenId record = dellTokenUnused
  · rw [if_pos hunused, if_neg (by simp [hunused])]
    rfl
  · rw [if_neg hunused, if_pos (by simp [hunused])]
    rfl

lemma usedTokens_length (codec : TokenCodec T) (records : List (List Byte)) :
    (usedTokens codec records).length ≤ records.length := by
  rw [usedTokens, List.length_map]
  exact List.length_filter_le _ _

lemma decoderIncomplete_true (source : Source) (state : DecodeState) :
    (decoderIncomplete source state).1 = true := by
  rw [decoderIncomplete]
  split_ifs <;> rfl

lemma tokenId_here (hdata : source.body.drop state.position = data) (hlong : 2 ≤ data.length) :
    decoderGet source 2 state =
      some (tokenId data, { state with position := state.position + 2 }) := by
  have hlength := congrArg List.length hdata
  rw [List.length_drop] at hlength
  rw [decoderGet_fits (by omega), window, hdata, tokenId]

lemma tokensLoop_end {fuel : ℕ} (hdata : source.body.drop state.position = rest)
    (hends : (2 ≤ rest.length ∧ tokenId rest = dellTokenEot) ∨ rest.length < codec.recordSize) :
    ∃ next, dellTokensLoop codec source (fuel + 1) state = some (true, [], next) := by
  have hlength := congrArg List.length hdata
  have hlarge := codec.large
  rw [List.length_drop] at hlength
  rw [dellTokensLoop]
  by_cases hlong : 2 ≤ rest.length
  · rw [tokenId_here hdata hlong]
    by_cases hmarker : tokenId rest = dellTokenEot
    · simp only [hmarker, if_true]
      exact ⟨_, rfl⟩
    · have hcut : ¬ state.position + 2 + (codec.recordSize - 2) ≤ source.body.length := by
        rcases hends with hends | hends
        · exact absurd hends.2 hmarker
        · omega
      have hnone : codec.decode source (tokenId rest)
          { state with position := state.position + 2 } = none := by
        rw [codec.decode_eq, readerGet_short hcut]
        rfl
      simp only [hmarker, if_false, hnone, decoderIncomplete_true]
      exact ⟨_, rfl⟩
  · rw [decoderGet_short (by omega)]
    simp only [decoderIncomplete_true]
    exact ⟨_, rfl⟩

lemma tokensLoop_run {fuel : ℕ} (hfuel : records.length < fuel)
    (hrun : TokenRun codec.recordSize (source.body.drop state.position) records rest) :
    ∃ next, dellTokensLoop codec source fuel state =
      some (true, usedTokens codec records, next) := by
  induction records generalizing fuel state with
  | nil =>
    obtain ⟨fuel, rfl⟩ := Nat.exists_eq_add_of_lt hfuel
    rw [List.length_nil, Nat.zero_add]
    exact tokensLoop_end hrun.data hrun.ends
  | cons record records ih =>
    obtain ⟨fuel, rfl⟩ : ∃ n, fuel = n + 1 := ⟨fuel - 1, by omega⟩
    have hlarge := codec.large
    obtain ⟨hlength, hid, hdata, hrest⟩ := hrun.cons
    have hne : record ≠ [] := by
      rw [← List.length_pos_iff]
      omega
    obtain ⟨hfits, hwindow, hnext⟩ := window_chunk hdata hne
    have hget := tokenId_here hdata (by rw [List.length_append]; omega)
    have htoken : tokenId (record ++ (records.flatten ++ rest)) = tokenId record := by
      rw [tokenId, tokenId, List.take_append_of_le_length (by omega)]
    have hsize : 2 + (codec.recordSize - 2) = record.length := by omega
    have hread : window source.body (state.position + 2) (codec.recordSize - 2) = record.drop 2 := by
      rw [← hwindow, ← hsize, window_append, List.drop_left' (window_length (by omega))]
    have hdecode : codec.decode source (tokenId record)
        { state with position := state.position + 2 } =
        some (codec.read (tokenId record) (record.drop 2),
          { state with position := state.position + 2 + (codec.recordSize - 2) }) := by
      rw [codec.decode_eq, readerGet_fits (by simp only; omega)]
      simp only [hread, Option.map_some]
    rw [Nat.add_assoc] at hdecode
    rw [hsize] at hdecode
    rw [htoken] at hget
    rw [← hnext] at hrest
    obtain ⟨next, hloop⟩ := @ih { state with position := state.position + record.length } fuel
      (by rw [List.length_cons] at hfuel; omega) hrest
    rw [dellTokensLoop, hget, usedTokens_cons]
    simp only [hid, if_false, hdecode, hloop]
    split_ifs
    · exact ⟨next, rfl⟩
    · exact ⟨next, rfl⟩

lemma tokensDecode_run
    (hrun : TokenRun codec.recordSize (source.body.drop state.position) records rest) :
    (∃ next, dellTokensDecode codec source state = some (true, usedTokens codec records, next)) ∧
      (usedTokens codec records).length ≤ dellTokensCapacity codec source state := by
  have hlarge := codec.large
  have hlength := hrun.length
  rw [List.length_drop] at hlength
  have hfew : records.length ≤ records.length * codec.recordSize :=
    Nat.le_mul_of_pos_right _ (by omega)
  refine ⟨tokensLoop_run (by rw [readerRemaining]; omega) hrun, ?_⟩
  rw [dellTokensCapacity, readerRemaining, Nat.le_div_iff_mul_le (by omega)]
  exact (Nat.mul_le_mul_right _ (usedTokens_length codec records)).trans hlength

end OpenDmi

import OpenDmi.Bytes
import Mathlib.Data.List.GetD

namespace OpenDmi

open Bytes

def base64EncodeTable : List Byte :=
  ['A', 'B', 'C', 'D', 'E', 'F', 'G', 'H', 'I', 'J', 'K', 'L', 'M', 'N', 'O', 'P',
    'Q', 'R', 'S', 'T', 'U', 'V', 'W', 'X', 'Y', 'Z', 'a', 'b', 'c', 'd', 'e', 'f',
    'g', 'h', 'i', 'j', 'k', 'l', 'm', 'n', 'o', 'p', 'q', 'r', 's', 't', 'u', 'v',
    'w', 'x', 'y', 'z', '0', '1', '2', '3', '4', '5', '6', '7', '8', '9', '+', '/'].map
      fun c => UInt8.ofNat c.toNat

def base64ModTable : List ℕ := [0, 2, 1]

def base64Pad : Byte := 0x3D

def base64EncodeTriple (triple : ℕ) : List Byte :=
  [base64EncodeTable.getD ((triple >>> (3 * 6)) &&& 0x3F) 0,
    base64EncodeTable.getD ((triple >>> (2 * 6)) &&& 0x3F) 0,
    base64EncodeTable.getD ((triple >>> (1 * 6)) &&& 0x3F) 0,
    base64EncodeTable.getD ((triple >>> (0 * 6)) &&& 0x3F) 0]

def base64Triple (a b c : Byte) : ℕ := (a.toNat <<< 0x10) + (b.toNat <<< 0x08) + c.toNat

def base64EncodeGroups : List Byte → List Byte
  | [] => []
  | [a] => base64EncodeTriple (base64Triple a 0 0)
  | [a, b] => base64EncodeTriple (base64Triple a b 0)
  | a :: b :: c :: rest => base64EncodeTriple (base64Triple a b c) ++ base64EncodeGroups rest

def base64Encode (data : List Byte) : Option (List Byte) :=
  if data.length = 0 then none
  else
    let outputLength := 4 * ((data.length + 2) / 3)
    some ((List.range (base64ModTable.getD (data.length % 3) 0)).foldl
      (fun output i => output.set (outputLength - 1 - i) base64Pad) (base64EncodeGroups data))

def base64Sextet (c : Byte) : Option ℕ :=
  if 0x41 ≤ c ∧ c ≤ 0x5A then some (c.toNat - 0x41)
  else if 0x61 ≤ c ∧ c ≤ 0x7A then some (c.toNat - 0x61 + 26)
  else if 0x30 ≤ c ∧ c ≤ 0x39 then some (c.toNat - 0x30 + 52)
  else if c = 0x2B then some 62
  else if c = 0x2F then some 63
  else none

def base64Padding (data : List Byte) : ℕ :=
  let padding := if data.getD (data.length - 1) 0 = base64Pad then 1 else 0
  if padding > 0 ∧ data.getD (data.length - 2) 0 = base64Pad then padding + 1 else padding

def base64DecodeTriple (limit : ℕ) : List Byte → ℕ → ℕ → Option ℕ
  | [], _, triple => some triple
  | c :: group, i, triple =>
    match if i < limit then base64Sextet c else some 0 with
    | none => none
    | some sextet => base64DecodeTriple limit group (i + 1) ((triple <<< 6) ||| sextet)

def base64Put (triple outputLength : ℕ) : List ℕ → ℕ → List (ℕ × Byte)
  | [], _ => []
  | shift :: shifts, j =>
    if j < outputLength then
      (j, UInt8.ofNat ((triple >>> shift) &&& 0xFF)) ::
        base64Put triple outputLength shifts (j + 1)
    else []

def base64DecodeGroups (limit outputLength : ℕ) :
    List Byte → ℕ → ℕ → Option (List (ℕ × Byte))
  | a :: b :: c :: d :: rest, i, j =>
    match base64DecodeTriple limit [a, b, c, d] i 0 with
    | none => none
    | some triple =>
      let writes := base64Put triple outputLength [2 * 8, 8, 0] j
      (base64DecodeGroups limit outputLength rest (i + 4) (j + writes.length)).map (writes ++ ·)
  | _, _, _ => some []

structure Base64Data where
  outputLength : ℕ
  writes : List (ℕ × Byte)

def Base64Data.bytes (data : Base64Data) : List Byte := data.writes.map Prod.snd

def base64Decode (data : List Byte) : Option Base64Data :=
  if data.length = 0 ∨ data.length % 4 ≠ 0 then none
  else
    let padding := base64Padding data
    let outputLength := data.length / 4 * 3 - padding
    (base64DecodeGroups (data.length - padding) outputLength data 0 0).map fun writes =>
      ⟨outputLength, writes⟩

def Base64Text (text : List Byte) : Prop :=
  text ≠ [] ∧ text.length % 4 = 0 ∧ ∃ chars padding,
    text = chars ++ List.replicate padding base64Pad ∧ padding ≤ 2 ∧
      ∀ c ∈ chars, c ∈ base64EncodeTable

lemma base64Sextet_table {n : ℕ} (h : n < 64) :
    base64Sextet (base64EncodeTable.getD n 0) = some n := by
  have hall : ∀ n < 64, base64Sextet (base64EncodeTable.getD n 0) = some n := by decide
  exact hall n h

set_option maxRecDepth 2000 in
lemma base64Sextet_inv (c : Byte) :
    ∀ n ∈ base64Sextet c, n < 64 ∧ base64EncodeTable.getD n 0 = c := by
  apply forall_byte (P := fun c => ∀ n ∈ base64Sextet c, n < 64 ∧ base64EncodeTable.getD n 0 = c)
  decide

lemma base64Sextet_isSome (c : Byte) : (base64Sextet c).isSome = true ↔ c ∈ base64EncodeTable := by
  constructor
  · intro h
    obtain ⟨n, hn⟩ := Option.isSome_iff_exists.mp h
    obtain ⟨hlt, rfl⟩ := base64Sextet_inv c n hn
    rw [List.getD_eq_getElem _ _ (show n < base64EncodeTable.length from hlt)]
    exact List.getElem_mem _
  · intro h
    obtain ⟨n, hn, rfl⟩ := List.mem_iff_getElem.mp h
    rw [← List.getD_eq_getElem _ 0 hn, base64Sextet_table hn]
    rfl

lemma base64Pad_not_mem : base64Pad ∉ base64EncodeTable := by decide

lemma base64EncodeTable_get_mem {n : ℕ} (h : n < 64) :
    base64EncodeTable.getD n 0 ∈ base64EncodeTable :=
  (base64Sextet_isSome _).mp (by rw [base64Sextet_table h]; rfl)

lemma base64Padding_le (data : List Byte) : base64Padding data ≤ 2 := by
  rw [base64Padding]
  split_ifs <;> omega

lemma length_lt_four {text : List Byte}
    (h : ∀ a b c d rest, text = a :: b :: c :: d :: rest → False) : text.length < 4 := by
  rcases text with _ | ⟨a, _ | ⟨b, _ | ⟨c, _ | ⟨d, rest⟩⟩⟩⟩
  case cons.cons.cons.cons => exact (h a b c d rest rfl).elim
  all_goals simp

section Accepting

variable {limit outputLength : ℕ}

variable (limit) in
lemma base64DecodeTriple_isSome (group : List Byte) (i triple : ℕ) :
    (base64DecodeTriple limit group i triple).isSome = true ↔
      ∀ c ∈ group.take (limit - i), c ∈ base64EncodeTable := by
  induction group generalizing i triple with
  | nil => simp [base64DecodeTriple]
  | cons c group ih =>
    rw [base64DecodeTriple]
    by_cases hi : i < limit
    · obtain ⟨n, hn⟩ : ∃ n, limit - i = n + 1 := ⟨limit - i - 1, by omega⟩
      have hrest : limit - (i + 1) = n := by omega
      rw [if_pos hi, hn, List.take_succ_cons, List.forall_mem_cons, ← base64Sextet_isSome c]
      cases hc : base64Sextet c with
      | none => simp
      | some sextet =>
        simp only [ih, hrest, Option.isSome_some, true_and]
    · have hi' : limit - i = 0 := by omega
      have hrest : limit - (i + 1) = 0 := by omega
      simp only [if_neg hi, ih, hi', hrest, List.take_zero]

lemma base64DecodeGroups_isSome (text : List Byte) (i j : ℕ) (hlength : text.length % 4 = 0) :
    (base64DecodeGroups limit outputLength text i j).isSome = true ↔
      ∀ c ∈ text.take (limit - i), c ∈ base64EncodeTable := by
  induction text, i, j using base64DecodeGroups.induct limit outputLength with
  | case1 a b c d rest i j htriple =>
    have hnone := base64DecodeTriple_isSome limit [a, b, c, d] i 0
    rw [htriple] at hnone
    simp only [Option.isSome_none, Bool.false_eq_true, false_iff] at hnone
    rw [base64DecodeGroups, htriple]
    simp only [Option.isSome_none, Bool.false_eq_true, false_iff]
    intro hall
    apply hnone
    intro x hx
    apply hall x
    have happ : a :: b :: c :: d :: rest = [a, b, c, d] ++ rest := rfl
    rw [happ, List.take_append]
    exact List.mem_append_left _ hx
  | case2 a b c d rest i j triple htriple writes ih =>
    have hsome := base64DecodeTriple_isSome limit [a, b, c, d] i 0
    rw [htriple] at hsome
    simp only [Option.isSome_some, true_iff] at hsome
    have hrest : limit - i - 4 = limit - (i + 4) := by omega
    have happ : a :: b :: c :: d :: rest = [a, b, c, d] ++ rest := rfl
    rw [base64DecodeGroups, htriple]
    simp only [Option.isSome_map]
    rw [ih (by simp only [List.length_cons] at hlength; omega), happ, List.take_append]
    simp only [List.length_cons, List.length_nil, hrest, Nat.zero_add, List.forall_mem_append]
    exact (and_iff_right hsome).symm
  | case3 text i j hshort =>
    have hlt := length_lt_four hshort
    obtain rfl : text = [] := List.eq_nil_of_length_eq_zero (by omega)
    simp [base64DecodeGroups]

lemma base64Put_places (triple : ℕ) (shifts : List ℕ) (j : ℕ) :
    (base64Put triple outputLength shifts j).map Prod.fst =
      List.range' j (min shifts.length (outputLength - j)) := by
  induction shifts generalizing j with
  | nil => simp [base64Put]
  | cons shift shifts ih =>
    rw [base64Put]
    split_ifs with hj
    · have hmin : min (shift :: shifts).length (outputLength - j) =
          min shifts.length (outputLength - (j + 1)) + 1 := by
        rw [List.length_cons]
        omega
      rw [List.map_cons, ih, hmin, List.range'_succ]
    · have hmin : min (shift :: shifts).length (outputLength - j) = 0 := by omega
      rw [hmin]
      rfl

lemma base64Put_length (triple : ℕ) (shifts : List ℕ) (j : ℕ) :
    (base64Put triple outputLength shifts j).length =
      min shifts.length (outputLength - j) := by
  rw [← List.length_map Prod.fst, base64Put_places, List.length_range']

lemma base64DecodeGroups_places (text : List Byte) (i j : ℕ) (writes : List (ℕ × Byte))
    (h : base64DecodeGroups limit outputLength text i j = some writes) :
    writes.map Prod.fst =
      List.range' j (min (3 * (text.length / 4)) (outputLength - j)) := by
  induction text, i, j using base64DecodeGroups.induct limit outputLength
    generalizing writes with
  | case1 a b c d rest i j htriple =>
    rw [base64DecodeGroups, htriple] at h
    cases h
  | case2 a b c d rest i j triple htriple head ih =>
    rw [base64DecodeGroups, htriple] at h
    obtain ⟨tail, htail, rfl⟩ := Option.map_eq_some_iff.mp h
    have hhead : head.length = min 3 (outputLength - j) := base64Put_length _ _ _
    have hplaces : head.map Prod.fst = List.range' j head.length := by
      rw [hhead]
      exact base64Put_places _ _ _
    have hlen : (a :: b :: c :: d :: rest).length / 4 = rest.length / 4 + 1 := by
      simp only [List.length_cons]
      omega
    have htotal : min (3 * ((a :: b :: c :: d :: rest).length / 4)) (outputLength - j) =
        head.length + min (3 * (rest.length / 4)) (outputLength - (j + head.length)) := by
      rw [hlen, hhead]
      omega
    rw [List.map_append, hplaces, ih tail htail, htotal, List.range'_append_1]
  | case3 text i j hshort =>
    have hlen : text.length / 4 = 0 := Nat.div_eq_of_lt (length_lt_four hshort)
    rw [base64DecodeGroups] at h
    · cases h
      simp [hlen]
    · exact hshort

end Accepting

lemma getD_append_replicate_last (chars : List Byte) (n k : ℕ) (hk : k < n) :
    (chars ++ List.replicate n base64Pad).getD (chars.length + n - 1 - k) 0 = base64Pad := by
  rw [List.getD_append_right _ _ _ _ (by omega), List.getD_eq_getElem?_getD,
    List.getElem?_replicate_of_lt (by omega)]
  rfl

lemma getD_ne_base64Pad {chars : List Byte} (n k : ℕ) (hk : k < chars.length)
    (hchars : ∀ c ∈ chars, c ∈ base64EncodeTable) :
    (chars ++ List.replicate n base64Pad).getD k 0 ≠ base64Pad := by
  rw [List.getD_append _ _ _ _ hk, List.getD_eq_getElem _ _ hk]
  intro heq
  exact base64Pad_not_mem (heq ▸ hchars _ (List.getElem_mem hk))

lemma base64Padding_append {chars : List Byte} {padding : ℕ} (hpadding : padding ≤ 2)
    (hlength : 4 ≤ chars.length + padding) (hchars : ∀ c ∈ chars, c ∈ base64EncodeTable) :
    base64Padding (chars ++ List.replicate padding base64Pad) = padding := by
  have hlen : (chars ++ List.replicate padding base64Pad).length = chars.length + padding := by
    simp
  have hsub : chars.length + padding - 1 - 1 = chars.length + padding - 2 := by omega
  rw [base64Padding, hlen]
  obtain rfl | rfl | rfl : padding = 0 ∨ padding = 1 ∨ padding = 2 := by omega
  · have hlast := getD_ne_base64Pad 0 (chars.length + 0 - 1) (by omega) hchars
    simp only [if_neg hlast, gt_iff_lt, lt_irrefl, false_and, if_false]
  · have hlast := getD_append_replicate_last chars 1 0 (by omega)
    have hprev := getD_ne_base64Pad 1 (chars.length + 1 - 2) (by omega) hchars
    rw [Nat.sub_zero] at hlast
    rw [if_pos hlast, if_neg (fun h => hprev h.2)]
  · have hlast := getD_append_replicate_last chars 2 0 (by omega)
    have hprev := getD_append_replicate_last chars 2 1 (by omega)
    rw [Nat.sub_zero] at hlast
    rw [hsub] at hprev
    rw [if_pos hlast, if_pos ⟨Nat.one_pos, hprev⟩]

lemma drop_base64Padding {text : List Byte} (hlength : 2 ≤ text.length) :
    text.drop (text.length - base64Padding text) =
      List.replicate (base64Padding text) base64Pad := by
  have hdrop : ∀ k, k < text.length → text.getD k 0 = base64Pad →
      text.drop k = base64Pad :: text.drop (k + 1) := by
    intro k hk heq
    rw [List.drop_eq_getElem_cons hk]
    rw [List.getD_eq_getElem _ _ hk] at heq
    rw [heq]
  rw [base64Padding]
  by_cases hlast : text.getD (text.length - 1) 0 = base64Pad
  · have hone : text.drop (text.length - 1) = [base64Pad] := by
      rw [hdrop _ (by omega) hlast]
      simp only [List.cons.injEq, List.drop_eq_nil_iff, true_and]
      omega
    by_cases hprev : text.getD (text.length - 2) 0 = base64Pad
    · have hnext : text.length - 2 + 1 = text.length - 1 := by omega
      simp only [if_pos hlast, hprev, Nat.one_pos, gt_iff_lt, and_self, if_true]
      rw [hdrop _ (by omega) hprev, hnext, hone]
      rfl
    · simp only [if_pos hlast, hprev, and_false, if_false]
      exact hone
  · simp only [if_neg hlast, gt_iff_lt, lt_irrefl, false_and, if_false, Nat.sub_zero,
      List.drop_length, List.replicate_zero]

lemma base64Text_iff {text : List Byte} (hlength : text.length % 4 = 0) (hne : text ≠ []) :
    Base64Text text ↔
      ∀ c ∈ text.take (text.length - base64Padding text), c ∈ base64EncodeTable := by
  have hpos := List.length_pos_iff.mpr hne
  constructor
  · rintro ⟨-, -, chars, padding, rfl, hpadding, hchars⟩
    have hlen : (chars ++ List.replicate padding base64Pad).length = chars.length + padding := by
      simp
    rw [hlen] at hlength hpos
    rw [base64Padding_append hpadding (by omega) hchars, hlen, Nat.add_sub_cancel,
      List.take_left]
    exact hchars
  · intro hall
    refine ⟨hne, hlength, text.take (text.length - base64Padding text), base64Padding text, ?_,
      base64Padding_le text, hall⟩
    rw [← drop_base64Padding (by omega), List.take_append_drop]

lemma base64Decode_isSome (text : List Byte) :
    (base64Decode text).isSome = true ↔ Base64Text text := by
  rw [base64Decode]
  by_cases hlength : text.length % 4 = 0
  · by_cases hne : text = []
    · subst hne
      simp [Base64Text]
    · rw [if_neg (by simp [hne, hlength]), base64Text_iff hlength hne]
      simp only [Option.isSome_map]
      exact base64DecodeGroups_isSome text 0 0 hlength
  · rw [if_pos (Or.inr hlength)]
    simp [Base64Text, hlength]

lemma base64Decode_places {text : List Byte} {decoded : Base64Data}
    (h : base64Decode text = some decoded) :
    decoded.outputLength = text.length / 4 * 3 - base64Padding text ∧
      decoded.writes.map Prod.fst = List.range decoded.outputLength := by
  rw [base64Decode] at h
  split_ifs at h with hlength
  obtain ⟨writes, hwrites, rfl⟩ := Option.map_eq_some_iff.mp h
  refine ⟨rfl, ?_⟩
  have hplaces := base64DecodeGroups_places text 0 0 writes hwrites
  have hmin : min (3 * (text.length / 4)) (text.length / 4 * 3 - base64Padding text - 0) =
      text.length / 4 * 3 - base64Padding text := by omega
  rw [hplaces, hmin, List.range_eq_range']

lemma and_63 (n : ℕ) : n &&& 0x3F = n % 64 := Nat.and_two_pow_sub_one_eq_mod n 6

lemma and_255 (n : ℕ) : n &&& 0xFF = n % 256 := Nat.and_two_pow_sub_one_eq_mod n 8

lemma shiftLeft_six_or {a b : ℕ} (h : b < 64) : a <<< 6 ||| b = a * 64 + b := by
  rw [← Nat.shiftLeft_add_eq_or_of_lt h, Nat.shiftLeft_eq]

lemma base64Triple_eq (a b c : Byte) :
    base64Triple a b c = a.toNat * 65536 + b.toNat * 256 + c.toNat := by
  rw [base64Triple, Nat.shiftLeft_eq, Nat.shiftLeft_eq]

lemma base64Triple_lt (a b c : Byte) : base64Triple a b c < 2 ^ 24 := by
  have ha := a.toNat_lt
  have hb := b.toNat_lt
  have hc := c.toNat_lt
  rw [base64Triple_eq]
  omega

section Decoding

variable {limit outputLength i j triple : ℕ}

lemma base64DecodeTriple_encode (htriple : triple < 2 ^ 24) (hi : i + 2 ≤ limit)
    (htwo : limit = i + 2 → triple % 4096 = 0) (hthree : limit = i + 3 → triple % 64 = 0) :
    base64DecodeTriple limit (base64EncodeTriple triple) i 0 = some triple := by
  have hsextet : ∀ k : ℕ, base64Sextet (base64EncodeTable.getD ((triple >>> k) &&& 0x3F) 0) =
      some (triple / 2 ^ k % 64) := by
    intro k
    rw [and_63, Nat.shiftRight_eq_div_pow, base64Sextet_table (Nat.mod_lt _ (by omega))]
  have hpush : ∀ a k : ℕ, a <<< 6 ||| (triple / 2 ^ k % 64) = a * 64 + triple / 2 ^ k % 64 :=
    fun a k => shiftLeft_six_or (Nat.mod_lt _ (by omega))
  have hzero : ∀ a : ℕ, a <<< 6 ||| 0 = a * 64 := fun a => shiftLeft_six_or (by omega)
  simp only [base64EncodeTriple, base64DecodeTriple, hsextet]
  rw [if_pos (by omega), if_pos (by omega)]
  by_cases h2 : i + 1 + 1 < limit
  · rw [if_pos h2]
    by_cases h3 : i + 1 + 1 + 1 < limit
    · rw [if_pos h3]
      simp only [hpush, Option.some.injEq]
      omega
    · rw [if_neg h3]
      have hlow := hthree (by omega)
      simp only [hpush, hzero, Option.some.injEq]
      omega
  · rw [if_neg h2, if_neg (by omega)]
    have hlow := htwo (by omega)
    simp only [hpush, hzero, Option.some.injEq]
    omega

lemma base64DecodeTriple_congr {group group' : List Byte} (i triple : ℕ)
    (hlength : group.length = group'.length)
    (htake : group.take (limit - i) = group'.take (limit - i)) :
    base64DecodeTriple limit group i triple = base64DecodeTriple limit group' i triple := by
  induction group generalizing group' i triple with
  | nil =>
    obtain rfl := List.eq_nil_of_length_eq_zero hlength.symm
    rfl
  | cons c group ih =>
    cases group' with
    | nil => cases hlength
    | cons c' group' =>
      have hrest : group.length = group'.length := Nat.succ.inj hlength
      rw [base64DecodeTriple, base64DecodeTriple]
      by_cases hi : i < limit
      · obtain ⟨n, hn⟩ : ∃ n, limit - i = n + 1 := ⟨limit - i - 1, by omega⟩
        have hn' : limit - (i + 1) = n := by omega
        rw [hn, List.take_succ_cons, List.take_succ_cons, List.cons.injEq, ← hn'] at htake
        obtain ⟨rfl, htail⟩ := htake
        simp only [fun triple => ih (i + 1) triple hrest htail]
      · have hn' : limit - (i + 1) = 0 := by omega
        have htail : group.take (limit - (i + 1)) = group'.take (limit - (i + 1)) := by
          rw [hn', List.take_zero, List.take_zero]
        simp only [if_neg hi, fun triple => ih (i + 1) triple hrest htail]

lemma take_append_inj {a b c d : List Byte} {n : ℕ} (hlength : a.length = b.length)
    (h : (a ++ c).take n = (b ++ d).take n) :
    a.take n = b.take n ∧ c.take (n - a.length) = d.take (n - a.length) := by
  rw [List.take_append, List.take_append, ← hlength] at h
  exact List.append_inj h (by rw [List.length_take, List.length_take, hlength])

lemma exists_group {text : List Byte} {n : ℕ} (h : text.length = 4 * (n + 1)) :
    ∃ a b c d rest, text = a :: b :: c :: d :: rest ∧ rest.length = 4 * n := by
  rcases text with _ | ⟨a, _ | ⟨b, _ | ⟨c, _ | ⟨d, rest⟩⟩⟩⟩
  case cons.cons.cons.cons =>
    refine ⟨a, b, c, d, rest, rfl, ?_⟩
    simp only [List.length_cons] at h
    omega
  all_goals
    simp only [List.length_cons, List.length_nil] at h
    omega

lemma base64DecodeGroups_congr {n : ℕ} {text text' : List Byte} (i j : ℕ)
    (hlength : text.length = 4 * n) (hlength' : text'.length = 4 * n)
    (htake : text.take (limit - i) = text'.take (limit - i)) :
    base64DecodeGroups limit outputLength text i j =
      base64DecodeGroups limit outputLength text' i j := by
  induction n generalizing text text' i j with
  | zero =>
    obtain rfl := List.eq_nil_of_length_eq_zero hlength
    obtain rfl := List.eq_nil_of_length_eq_zero hlength'
    rfl
  | succ n ih =>
    obtain ⟨a, b, c, d, rest, rfl, hrest⟩ := exists_group hlength
    obtain ⟨a', b', c', d', rest', rfl, hrest'⟩ := exists_group hlength'
    have hparts : ([a, b, c, d] ++ rest).take (limit - i) =
        ([a', b', c', d'] ++ rest').take (limit - i) := htake
    obtain ⟨hgroup, htail⟩ := take_append_inj (by rfl) hparts
    have hsub : limit - i - [a, b, c, d].length = limit - (i + 4) := by
      simp only [List.length_cons, List.length_nil]
      omega
    rw [hsub] at htail
    have htriple := base64DecodeTriple_congr i 0 (by rfl) hgroup
    rw [base64DecodeGroups, base64DecodeGroups, htriple]
    cases base64DecodeTriple limit [a', b', c', d'] i 0 with
    | none => rfl
    | some triple => simp only [ih (i + 4) _ hrest hrest' htail]

lemma base64EncodeGroups_length (data : List Byte) :
    (base64EncodeGroups data).length = 4 * ((data.length + 2) / 3) := by
  induction data using base64EncodeGroups.induct with
  | case1 => rfl
  | case2 a => simp [base64EncodeGroups, base64EncodeTriple]
  | case3 a b => simp [base64EncodeGroups, base64EncodeTriple]
  | case4 a b c rest ih =>
    rw [base64EncodeGroups, List.length_append, ih]
    simp only [base64EncodeTriple, List.length_cons, List.length_nil]
    omega

lemma base64EncodeTriple_mem (triple : ℕ) :
    ∀ c ∈ base64EncodeTriple triple, c ∈ base64EncodeTable := by
  have hmem : ∀ n : ℕ, base64EncodeTable.getD (n &&& 0x3F) 0 ∈ base64EncodeTable := by
    intro n
    rw [and_63]
    exact base64EncodeTable_get_mem (Nat.mod_lt _ (by omega))
  simp only [base64EncodeTriple, List.forall_mem_cons, hmem, true_and, List.not_mem_nil,
    false_imp_iff, implies_true]

lemma base64EncodeGroups_mem (data : List Byte) :
    ∀ c ∈ base64EncodeGroups data, c ∈ base64EncodeTable := by
  induction data using base64EncodeGroups.induct with
  | case1 => simp [base64EncodeGroups]
  | case2 a => exact base64EncodeTriple_mem _
  | case3 a b => exact base64EncodeTriple_mem _
  | case4 a b c rest ih =>
    rw [base64EncodeGroups, List.forall_mem_append]
    exact ⟨base64EncodeTriple_mem _, ih⟩

lemma base64Put_snd (triple : ℕ) (shifts : List ℕ) (j : ℕ) :
    (base64Put triple outputLength shifts j).map Prod.snd =
      (shifts.take (outputLength - j)).map fun shift =>
        UInt8.ofNat (triple / 2 ^ shift % 256) := by
  induction shifts generalizing j with
  | nil => simp [base64Put]
  | cons shift shifts ih =>
    rw [base64Put]
    split_ifs with hj
    · obtain ⟨n, hn⟩ : ∃ n, outputLength - j = n + 1 := ⟨outputLength - j - 1, by omega⟩
      have hrest : outputLength - (j + 1) = n := by omega
      rw [List.map_cons, ih, hn, hrest, List.take_succ_cons, List.map_cons, and_255,
        Nat.shiftRight_eq_div_pow]
    · have hzero : outputLength - j = 0 := by omega
      rw [hzero]
      rfl

lemma base64Triple_bytes (a b c : Byte) :
    [2 * 8, 8, 0].map (fun shift => UInt8.ofNat (base64Triple a b c / 2 ^ shift % 256)) =
      [a, b, c] := by
  have ha := a.toNat_lt
  have hb := b.toNat_lt
  have hc := c.toNat_lt
  have h16 : base64Triple a b c / 2 ^ (2 * 8) % 256 = a.toNat := by
    rw [base64Triple_eq]
    omega
  have h8 : base64Triple a b c / 2 ^ 8 % 256 = b.toNat := by
    rw [base64Triple_eq]
    omega
  have h0 : base64Triple a b c / 2 ^ 0 % 256 = c.toNat := by
    rw [base64Triple_eq]
    omega
  simp only [List.map_cons, List.map_nil, h16, h8, h0, UInt8.ofNat_toNat]

lemma base64DecodeGroups_cons {rest : List Byte} {writes : List (ℕ × Byte)}
    (htriple : base64DecodeTriple limit (base64EncodeTriple triple) i 0 = some triple)
    (hrest : base64DecodeGroups limit outputLength rest (i + 4)
      (j + (base64Put triple outputLength [2 * 8, 8, 0] j).length) = some writes) :
    base64DecodeGroups limit outputLength (base64EncodeTriple triple ++ rest) i j =
      some (base64Put triple outputLength [2 * 8, 8, 0] j ++ writes) := by
  have hgroup : base64EncodeTriple triple ++ rest =
      base64EncodeTable.getD ((triple >>> (3 * 6)) &&& 0x3F) 0 ::
        base64EncodeTable.getD ((triple >>> (2 * 6)) &&& 0x3F) 0 ::
          base64EncodeTable.getD ((triple >>> (1 * 6)) &&& 0x3F) 0 ::
            base64EncodeTable.getD ((triple >>> (0 * 6)) &&& 0x3F) 0 :: rest := rfl
  rw [base64EncodeTriple] at htriple
  rw [hgroup, base64DecodeGroups, htriple]
  simp only [hrest, Option.map_some]

lemma base64DecodeGroups_encode (data : List Byte) (i j : ℕ)
    (hlimit : limit = i + (4 * data.length + 2) / 3) (hout : outputLength = j + data.length) :
    ∃ writes, base64DecodeGroups limit outputLength (base64EncodeGroups data) i j = some writes ∧
      writes.map Prod.snd = data := by
  induction data using base64EncodeGroups.induct generalizing i j with
  | case1 => exact ⟨[], rfl, rfl⟩
  | case2 a =>
    have htriple : base64DecodeTriple limit (base64EncodeTriple (base64Triple a 0 0)) i 0 =
        some (base64Triple a 0 0) := by
      have hlength : limit = i + 2 := by
        rw [List.length_singleton] at hlimit
        exact hlimit
      apply base64DecodeTriple_encode (base64Triple_lt a 0 0)
      · omega
      · intro _
        rw [base64Triple_eq, UInt8.toNat_zero]
        omega
      · omega
    refine ⟨base64Put (base64Triple a 0 0) outputLength [2 * 8, 8, 0] j ++ [], ?_, ?_⟩
    · rw [base64EncodeGroups, ← List.append_nil (base64EncodeTriple _)]
      exact base64DecodeGroups_cons htriple rfl
    · have htake : outputLength - j = 1 := by
        rw [hout, Nat.add_sub_cancel_left]
        rfl
      rw [List.append_nil, base64Put_snd, htake, List.map_take, base64Triple_bytes]
      rfl
  | case3 a b =>
    have htriple : base64DecodeTriple limit (base64EncodeTriple (base64Triple a b 0)) i 0 =
        some (base64Triple a b 0) := by
      have hlength : limit = i + 3 := by
        rw [List.length_cons, List.length_singleton] at hlimit
        exact hlimit
      apply base64DecodeTriple_encode (base64Triple_lt a b 0)
      · omega
      · omega
      · intro _
        rw [base64Triple_eq, UInt8.toNat_zero]
        omega
    refine ⟨base64Put (base64Triple a b 0) outputLength [2 * 8, 8, 0] j ++ [], ?_, ?_⟩
    · rw [base64EncodeGroups, ← List.append_nil (base64EncodeTriple _)]
      exact base64DecodeGroups_cons htriple rfl
    · have htake : outputLength - j = 2 := by
        rw [hout, Nat.add_sub_cancel_left]
        rfl
      rw [List.append_nil, base64Put_snd, htake, List.map_take, base64Triple_bytes]
      rfl
  | case4 a b c rest ih =>
    have hlen : (a :: b :: c :: rest).length = rest.length + 3 := rfl
    rw [hlen] at hlimit hout
    have htriple : base64DecodeTriple limit (base64EncodeTriple (base64Triple a b c)) i 0 =
        some (base64Triple a b c) := by
      apply base64DecodeTriple_encode (base64Triple_lt a b c) <;> omega
    have hput : (base64Put (base64Triple a b c) outputLength [2 * 8, 8, 0] j).length = 3 := by
      rw [base64Put_length, List.length_cons, List.length_cons, List.length_cons, List.length_nil]
      omega
    obtain ⟨writes, hwrites, hbytes⟩ := ih (i + 4) (j + 3) (by omega) (by omega)
    refine ⟨base64Put (base64Triple a b c) outputLength [2 * 8, 8, 0] j ++ writes, ?_, ?_⟩
    · rw [base64EncodeGroups]
      apply base64DecodeGroups_cons htriple
      rw [hput]
      exact hwrites
    · have htake : [2 * 8, 8, 0].take (outputLength - j) = [2 * 8, 8, 0] :=
        List.take_of_length_le (by simp only [List.length_cons, List.length_nil]; omega)
      rw [List.map_append, base64Put_snd, htake, base64Triple_bytes, hbytes]
      rfl

end Decoding

lemma foldl_set_last (groups : List Byte) (n : ℕ) (hn : n ≤ groups.length) :
    (List.range n).foldl (fun output i => output.set (groups.length - 1 - i) base64Pad) groups =
      groups.take (groups.length - n) ++ List.replicate n base64Pad := by
  induction n with
  | zero => simp
  | succ n ih =>
    have hlt : groups.length - (n + 1) < groups.length := by omega
    have hsub : groups.length - 1 - n = groups.length - (n + 1) := by omega
    have hstep : groups.take (groups.length - n) =
        groups.take (groups.length - (n + 1)) ++ [groups[groups.length - (n + 1)]] := by
      rw [List.take_append_getElem, Nat.sub_add_eq, Nat.sub_add_cancel (by omega)]
    have hlen : (groups.take (groups.length - (n + 1))).length = groups.length - (n + 1) := by
      rw [List.length_take, Nat.min_eq_left hlt.le]
    rw [List.range_succ, List.foldl_append, ih (by omega), List.foldl_cons, List.foldl_nil, hsub,
      hstep, List.append_assoc, List.set_append_right _ _ hlen.le, hlen, Nat.sub_self,
      List.singleton_append, List.set_cons_zero, List.replicate_succ]

lemma base64ModTable_eq (n : ℕ) :
    base64ModTable.getD (n % 3) 0 = 4 * ((n + 2) / 3) - (4 * n + 2) / 3 := by
  obtain h | h | h : n % 3 = 0 ∨ n % 3 = 1 ∨ n % 3 = 2 := by omega
  · have hget : base64ModTable.getD (n % 3) 0 = 0 := by rw [h]; rfl
    omega
  · have hget : base64ModTable.getD (n % 3) 0 = 2 := by rw [h]; rfl
    omega
  · have hget : base64ModTable.getD (n % 3) 0 = 1 := by rw [h]; rfl
    omega

lemma base64Encode_eq {data : List Byte} (hne : data ≠ []) :
    base64Encode data = some
      ((base64EncodeGroups data).take ((4 * data.length + 2) / 3) ++
        List.replicate (4 * ((data.length + 2) / 3) - (4 * data.length + 2) / 3) base64Pad) := by
  have hpos := List.length_pos_iff.mpr hne
  have hlen := base64EncodeGroups_length data
  have hsub : 4 * ((data.length + 2) / 3) -
      (4 * ((data.length + 2) / 3) - (4 * data.length + 2) / 3) = (4 * data.length + 2) / 3 := by
    omega
  rw [base64Encode, if_neg (by omega)]
  simp only
  rw [base64ModTable_eq, ← hlen, foldl_set_last _ _ (by omega), hlen, hsub]

lemma base64Encode_decode {data : List Byte} (hne : data ≠ []) :
    ∃ text decoded, base64Encode data = some text ∧
      text.length = 4 * ((data.length + 2) / 3) ∧
      base64Decode text = some decoded ∧ decoded.bytes = data := by
  have hpos := List.length_pos_iff.mpr hne
  have hgroups := base64EncodeGroups_length data
  let count := (4 * data.length + 2) / 3
  let padding := 4 * ((data.length + 2) / 3) - count
  let text := (base64EncodeGroups data).take count ++ List.replicate padding base64Pad
  have hcount : ((base64EncodeGroups data).take count).length = count := by
    rw [List.length_take, hgroups]
    omega
  have hlength : text.length = 4 * ((data.length + 2) / 3) := by
    rw [List.length_append, hcount, List.length_replicate]
    omega
  have hpadding : base64Padding text = padding := by
    apply base64Padding_append
    · omega
    · rw [hcount]
      omega
    · intro c hc
      exact base64EncodeGroups_mem data c (List.mem_of_mem_take hc)
  have hlimit : text.length - padding = 0 + (4 * data.length + 2) / 3 := by omega
  have hout : text.length / 4 * 3 - padding = 0 + data.length := by omega
  obtain ⟨writes, hwrites, hbytes⟩ := base64DecodeGroups_encode data 0 0 hlimit hout
  refine ⟨text, ⟨text.length / 4 * 3 - padding, writes⟩, base64Encode_eq hne, hlength, ?_, hbytes⟩
  have hread : text.take (text.length - padding - 0) =
      (base64EncodeGroups data).take (text.length - padding - 0) := by
    have hcut : text.length - padding - 0 = count := by omega
    rw [hcut]
    exact List.take_left' hcount
  rw [base64Decode, if_neg (by omega)]
  simp only
  rw [hpadding, base64DecodeGroups_congr 0 0 hlength hgroups hread, hwrites]
  rfl

/-- Decoding gives back what was encoded, and takes whole groups of characters of the alphabet and
at most two of padding, of which every byte computed beforehand is written once. -/
theorem base64_exact :
    (∀ data : List Byte, data ≠ [] → ∃ text decoded, base64Encode data = some text ∧
      base64Decode text = some decoded ∧ decoded.bytes = data) ∧
    ∀ text : List Byte, ((base64Decode text).isSome = true ↔ Base64Text text) ∧
      ∀ decoded, base64Decode text = some decoded →
        decoded.outputLength = text.length / 4 * 3 - base64Padding text ∧
        decoded.writes.map Prod.fst = List.range decoded.outputLength := by
  refine ⟨?_, ?_⟩
  · intro data hne
    obtain ⟨text, decoded, hencode, -, hdecode, hbytes⟩ := base64Encode_decode hne
    exact ⟨text, decoded, hencode, hdecode, hbytes⟩
  · intro text
    exact ⟨base64Decode_isSome text, fun decoded => base64Decode_places⟩

theorem base64_exact_two :
    (∃ text decoded, base64Encode [0xFF, 0xFE] = some text ∧
      base64Decode text = some decoded ∧ decoded.bytes = [0xFF, 0xFE]) ∧
    ∃ decoded, base64Decode [0x2F, 0x2F, 0x34, 0x3D] = some decoded ∧
      decoded.outputLength = 2 ∧ decoded.writes.map Prod.fst = List.range 2 := by
  refine ⟨base64_exact.1 [0xFF, 0xFE] (by decide), ⟨2, [(0, 0xFF), (1, 0xFE)]⟩, ?_⟩
  have hdecode : base64Decode [0x2F, 0x2F, 0x34, 0x3D] = some ⟨2, [(0, 0xFF), (1, 0xFE)]⟩ := by
    rfl
  exact ⟨hdecode, rfl, ((base64_exact.2 _).2 _ hdecode).2⟩

end OpenDmi

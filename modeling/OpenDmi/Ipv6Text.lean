import OpenDmi.Bytes
import OpenDmi.Numeral
import Mathlib.Data.List.GetD

namespace OpenDmi

open Bytes Numeral

def ipv6GroupCount : ℕ := 8

def ipv6Groups (data : List Byte) : List ℕ :=
  (List.range ipv6GroupCount).map fun i =>
    ((data.getD (i * 2) 0).toNat <<< 8) ||| (data.getD (i * 2 + 1) 0).toNat

def zeroRunEnd (groups : List ℕ) (j : ℕ) : ℕ :=
  if j < groups.length ∧ groups.getD j 0 = 0 then zeroRunEnd groups (j + 1) else j
termination_by groups.length - j

def zeroRunNext (groups : List ℕ) (i : ℕ) : ℕ :=
  if zeroRunEnd groups i > i then zeroRunEnd groups i else i + 1

def longestZeroRun (groups : List ℕ) (i zeroStart zeroLength : ℕ) : ℕ × ℕ :=
  if i < groups.length then
    if zeroRunEnd groups i - i > zeroLength then
      longestZeroRun groups (zeroRunNext groups i) i (zeroRunEnd groups i - i)
    else longestZeroRun groups (zeroRunNext groups i) zeroStart zeroLength
  else (zeroStart, zeroLength)
termination_by groups.length - i
decreasing_by all_goals rw [zeroRunNext]; split_ifs <;> omega

def hexText (n : ℕ) : List Byte := (numeral 16 n).map lower

def ipv6Separator : Byte := 0x3A

def ipv6TextSize : ℕ := 40

/-- A text put after another, in a buffer which has to have room for the terminator as well. -/
def textPut (size : ℕ) (text str : List Byte) : Option (List Byte) :=
  if str.length + text.length < size then some (str ++ text) else none

def ipv6Print (groups : List ℕ) (zeroStart zeroLength i : ℕ) (str : List Byte) :
    Option (List Byte) :=
  if i < groups.length then
    if i = zeroStart then
      (textPut ipv6TextSize [ipv6Separator, ipv6Separator] str).bind
        (ipv6Print groups zeroStart zeroLength (i + (zeroLength - 1) + 1))
    else
      (if i > 0 ∧ i ≠ zeroStart + zeroLength then textPut ipv6TextSize [ipv6Separator] str
        else some str).bind fun str =>
      (textPut ipv6TextSize (hexText (groups.getD i 0)) str).bind
        (ipv6Print groups zeroStart zeroLength (i + 1))
  else some str
termination_by groups.length - i

def attributeFormatIpv6 (data : List Byte) : Option (List Byte) :=
  if data.length ≠ 16 then none
  else
    let groups := ipv6Groups data
    let (zeroStart, zeroLength) := longestZeroRun groups 0 ipv6GroupCount 1
    ipv6Print groups zeroStart zeroLength 0 []

def ipv6Joined (groups : List ℕ) : List Byte := [ipv6Separator].intercalate (groups.map hexText)

def ZeroRun (groups : List ℕ) (start length : ℕ) : Prop :=
  start + length ≤ groups.length ∧ ∀ k, start ≤ k → k < start + length → groups.getD k 0 = 0

def FirstLongestRun (groups : List ℕ) (start length : ℕ) : Prop :=
  2 ≤ length ∧ ZeroRun groups start length ∧
    ∀ s l, ZeroRun groups s l → l ≤ length ∧ (l = length → start ≤ s)

def Ipv6Canonical (groups : List ℕ) (text : List Byte) : Prop :=
  ((∀ s l, ZeroRun groups s l → l ≤ 1) ∧ text = ipv6Joined groups) ∨
    ∃ start length, FirstLongestRun groups start length ∧
      text = ipv6Joined (groups.take start) ++ [ipv6Separator, ipv6Separator] ++
        ipv6Joined (groups.drop (start + length))

def splitDouble : List Byte → Option (List Byte × List Byte)
  | [] => none
  | c :: rest =>
    if c = ipv6Separator ∧ rest.head? = some ipv6Separator then some ([], rest.tail)
    else (splitDouble rest).map fun (left, right) => (c :: left, right)

def ipv6Group (field : List Byte) : Option ℕ :=
  if 1 ≤ field.length ∧ field.length ≤ 4 then (field.mapM digitOf).map (value 16) else none

def ipv6Fields (text : List Byte) : Option (List ℕ) :=
  if text = [] then some [] else (text.splitOn ipv6Separator).mapM ipv6Group

def ipv6ParseGroups (text : List Byte) : Option (List ℕ) :=
  match splitDouble text with
  | none => (ipv6Fields text).filter fun groups => groups.length = ipv6GroupCount
  | some (left, right) =>
    (ipv6Fields left).bind fun left => (ipv6Fields right).bind fun right =>
      if left.length + right.length < ipv6GroupCount then
        some (left ++ List.replicate (ipv6GroupCount - left.length - right.length) 0 ++ right)
      else none

def ipv6Bytes (groups : List ℕ) : List Byte :=
  groups.flatMap fun group => [UInt8.ofNat (group / 256), UInt8.ofNat group]

def ipv6Parse (text : List Byte) : Option (List Byte) := (ipv6ParseGroups text).map ipv6Bytes

section Runs

variable {groups : List ℕ} {s l : ℕ}

lemma zeroRunEnd_spec (groups : List ℕ) (j : ℕ) :
    j ≤ zeroRunEnd groups j ∧ (∀ k, j ≤ k → k < zeroRunEnd groups j → groups.getD k 0 = 0) ∧
      (zeroRunEnd groups j < groups.length → groups.getD (zeroRunEnd groups j) 0 ≠ 0) ∧
      (j ≤ groups.length → zeroRunEnd groups j ≤ groups.length) := by
  induction j using zeroRunEnd.induct groups with
  | case1 j h ih =>
    obtain ⟨hle, hzero, hend, hlength⟩ := ih
    rw [zeroRunEnd, if_pos h]
    refine ⟨by omega, ?_, hend, fun _ => hlength (by omega)⟩
    intro k hjk hk
    obtain rfl | hlt : k = j ∨ j + 1 ≤ k := by omega
    · exact h.2
    · exact hzero k hlt hk
  | case2 j h =>
    rw [zeroRunEnd, if_neg h]
    exact ⟨le_rfl, fun k _ _ => by omega, fun hlt heq => h ⟨hlt, heq⟩, id⟩

lemma ZeroRun.le_zeroRunEnd {i : ℕ} (h : ZeroRun groups s l) (hs : s ≤ zeroRunEnd groups i) :
    s + l ≤ zeroRunEnd groups i := by
  obtain ⟨hfits, hzero⟩ := h
  obtain ⟨-, -, hend, -⟩ := zeroRunEnd_spec groups i
  by_contra hpast
  exact hend (by omega) (hzero _ hs (by omega))

structure LongestBefore (groups : List ℕ) (i start length : ℕ) : Prop where
  found : start = groups.length ∧ length = 1 ∨ 2 ≤ length ∧ ZeroRun groups start length ∧ start < i
  longest : ∀ s l, s < i → ZeroRun groups s l → l ≤ length ∧ (2 ≤ l → l = length → start ≤ s)

lemma LongestBefore.pos {i start length : ℕ} (h : LongestBefore groups i start length) :
    1 ≤ length := by
  have hfound := h.found
  omega

lemma longestBefore_next {i start length : ℕ} (hi : i < groups.length)
    (h : LongestBefore groups i start length) :
    LongestBefore groups (zeroRunNext groups i)
      (if zeroRunEnd groups i - i > length then i else start)
      (if zeroRunEnd groups i - i > length then zeroRunEnd groups i - i else length) := by
  obtain ⟨hle, hzero, hend, hlength⟩ := zeroRunEnd_spec groups i
  have hpos := h.pos
  have hrun : ∀ s l, s ≤ zeroRunEnd groups i → ZeroRun groups s l →
      s + l ≤ zeroRunEnd groups i := fun s l hs hl => hl.le_zeroRunEnd hs
  rw [zeroRunNext]
  split_ifs with hnonempty hlonger hlonger
  · refine ⟨.inr ⟨by omega, ⟨by have := hlength hi.le; omega, ?_⟩, by omega⟩, ?_⟩
    · intro k hk hk'
      exact hzero k hk (by omega)
    · intro s l hs hl
      by_cases hsi : s < i
      · have hold := (h.longest s l hsi hl).1
        exact ⟨by omega, fun _ _ => by omega⟩
      · have hnew := hrun s l (by omega) hl
        exact ⟨by omega, fun _ _ => by omega⟩
  · refine ⟨h.found.imp id fun hfound => ⟨hfound.1, hfound.2.1, by omega⟩, ?_⟩
    intro s l hs hl
    by_cases hsi : s < i
    · exact h.longest s l hsi hl
    · have hnew := hrun s l (by omega) hl
      refine ⟨by omega, fun htwo heq => ?_⟩
      have hfound := h.found
      omega
  · omega
  · refine ⟨h.found.imp id fun hfound => ⟨hfound.1, hfound.2.1, by omega⟩, ?_⟩
    intro s l hs hl
    by_cases hsi : s < i
    · exact h.longest s l hsi hl
    · have hnew := hrun s l (by omega) hl
      exact ⟨by omega, fun _ _ => by omega⟩

lemma zeroRunNext_le {i : ℕ} (hi : i < groups.length) : zeroRunNext groups i ≤ groups.length := by
  obtain ⟨-, -, -, hlength⟩ := zeroRunEnd_spec groups i
  have hend := hlength hi.le
  rw [zeroRunNext]
  split_ifs <;> omega

lemma longestZeroRun_spec (i start length : ℕ) (h : LongestBefore groups i start length)
    (hi : i ≤ groups.length) :
    LongestBefore groups groups.length (longestZeroRun groups i start length).1
      (longestZeroRun groups i start length).2 := by
  induction i, start, length using longestZeroRun.induct groups with
  | case1 i start length hlt hlonger ih =>
    have hnext := longestBefore_next hlt h
    rw [if_pos hlonger, if_pos hlonger] at hnext
    rw [longestZeroRun, if_pos hlt, if_pos hlonger]
    exact ih hnext (zeroRunNext_le hlt)
  | case2 i start length hlt hshort ih =>
    have hnext := longestBefore_next hlt h
    rw [if_neg hshort, if_neg hshort] at hnext
    rw [longestZeroRun, if_pos hlt, if_neg hshort]
    exact ih hnext (zeroRunNext_le hlt)
  | case3 i start length hge =>
    obtain rfl : i = groups.length := by omega
    rw [longestZeroRun, if_neg hge]
    exact h

lemma longestZeroRun_cases (hlength : groups.length = ipv6GroupCount) :
    (longestZeroRun groups 0 ipv6GroupCount 1 = (groups.length, 1) ∧
        ∀ s l, ZeroRun groups s l → l ≤ 1) ∨
      ∃ start length, longestZeroRun groups 0 ipv6GroupCount 1 = (start, length) ∧
        FirstLongestRun groups start length := by
  have hinitial : LongestBefore groups 0 ipv6GroupCount 1 :=
    ⟨.inl ⟨hlength.symm, rfl⟩, fun s l hs => by omega⟩
  have hspec := longestZeroRun_spec 0 ipv6GroupCount 1 hinitial (Nat.zero_le _)
  cases hresult : longestZeroRun groups 0 ipv6GroupCount 1 with | mk start length
  rw [hresult] at hspec
  have hempty : ∀ s l, ZeroRun groups s l → ¬s < groups.length → l = 0 := by
    intro s l hl hs
    have hfits := hl.1
    omega
  obtain ⟨hfound | ⟨htwo, hrun, -⟩, hlongest⟩ := hspec
  · obtain ⟨hstart, hone⟩ := hfound
    simp only at hstart hone hlongest
    subst hstart hone
    refine .inl ⟨rfl, fun s l hl => ?_⟩
    by_cases hs : s < groups.length
    · exact (hlongest s l hs hl).1
    · rw [hempty s l hl hs]
      omega
  · refine .inr ⟨start, length, rfl, htwo, hrun, fun s l hl => ?_⟩
    simp only at htwo hlongest
    by_cases hs : s < groups.length
    · obtain ⟨hle, hfirst⟩ := hlongest s l hs hl
      exact ⟨hle, fun heq => hfirst (by omega) heq⟩
    · have hzero := hempty s l hl hs
      exact ⟨by omega, fun heq => by omega⟩

end Runs

section Printing

variable {groups : List ℕ} {start length i : ℕ} {str : List Byte}

def ipv6Tail (groups : List ℕ) : List Byte :=
  groups.flatMap fun group => ipv6Separator :: hexText group

lemma ipv6Joined_cons (group : ℕ) (groups : List ℕ) :
    ipv6Joined (group :: groups) = hexText group ++ ipv6Tail groups := by
  induction groups generalizing group with
  | nil => simp [ipv6Joined, ipv6Tail]
  | cons next groups ih =>
    have hnext := ih next
    rw [ipv6Joined] at hnext ⊢
    simp only [List.map_cons] at hnext ⊢
    rw [List.intercalate_cons_cons, hnext, ipv6Tail, ipv6Tail, List.flatMap_cons,
      List.append_assoc]
    rfl

lemma hexText_length {n : ℕ} (h : n < 65536) : (hexText n).length ≤ 4 := by
  rw [hexText, List.length_map]
  exact numeral_length_le (by omega) (by omega) h

lemma textPut_fits {size : ℕ} {text str : List Byte} (h : str.length + text.length < size) :
    textPut size text str = some (str ++ text) := if_pos h

lemma ipv6Tail_length (hgroups : ∀ group ∈ groups, group < 65536) :
    (ipv6Tail groups).length ≤ 5 * groups.length := by
  induction groups with
  | nil => simp [ipv6Tail]
  | cons group groups ih =>
    rw [List.forall_mem_cons] at hgroups
    have htail := ih hgroups.2
    have hhex := hexText_length hgroups.1
    rw [ipv6Tail] at htail ⊢
    rw [List.flatMap_cons, List.length_append, List.length_cons, List.length_cons]
    omega

lemma ipv6Joined_length (hgroups : ∀ group ∈ groups, group < 65536) :
    (ipv6Joined groups).length ≤ 5 * groups.length := by
  cases groups with
  | nil => simp [ipv6Joined]
  | cons group groups =>
    rw [List.forall_mem_cons] at hgroups
    have htail := ipv6Tail_length hgroups.2
    have hhex := hexText_length hgroups.1
    rw [ipv6Joined_cons, List.length_append, List.length_cons]
    omega

variable (hgroups : ∀ group ∈ groups, group < 65536)
include hgroups

lemma ipv6Print_group (hi : i < groups.length) (hne : i ≠ start) (hfits : str.length ≤ 35)
    (hfirst : i > 0 ∧ i ≠ start + length → str.length ≤ 34) :
    ipv6Print groups start length i str = ipv6Print groups start length (i + 1)
      (str ++ (if i > 0 ∧ i ≠ start + length then [ipv6Separator] else []) ++
        hexText (groups.getD i 0)) := by
  have hhex : (hexText (groups.getD i 0)).length ≤ 4 := by
    rw [List.getD_eq_getElem _ _ hi]
    exact hexText_length (hgroups _ (List.getElem_mem hi))
  have hsize : ipv6TextSize = 40 := rfl
  rw [ipv6Print, if_pos hi, if_neg hne]
  split_ifs with hseparator
  · have hshort := hfirst hseparator
    rw [textPut_fits (by rw [List.length_singleton]; omega), Option.bind_some, textPut_fits
      (by rw [List.length_append, List.length_singleton]; omega), Option.bind_some]
  · rw [Option.bind_some, textPut_fits (by omega), Option.bind_some, List.append_nil]

omit hgroups in
lemma ipv6Print_double (hi : start < groups.length) (hfits : str.length ≤ 37)
    (hlength : 1 ≤ length) :
    ipv6Print groups start length start str = ipv6Print groups start length (start + length)
      (str ++ [ipv6Separator, ipv6Separator]) := by
  have hsize : ipv6TextSize = 40 := rfl
  have hnext : start + (length - 1) + 1 = start + length := by omega
  rw [ipv6Print, if_pos hi, if_pos rfl, textPut_fits
    (by rw [List.length_cons, List.length_singleton]; omega), Option.bind_some, hnext]

lemma ipv6Print_rest (rest : List ℕ) (hlength : 1 ≤ length) (hrest : groups.drop i = rest)
    (hrun : start < i ∧ start + length ≤ i ∨ groups.length ≤ start)
    (hfits : str.length + 5 * rest.length ≤ 40)
    (hfirst : i > 0 ∧ i ≠ start + length → str.length + 5 * rest.length ≤ 39) :
    ipv6Print groups start length i str = some (str ++
      if i > 0 ∧ i ≠ start + length then ipv6Tail rest else ipv6Joined rest) := by
  induction rest generalizing i str with
  | nil =>
    have hend : ¬i < groups.length := by
      have hle := List.drop_eq_nil_iff.mp hrest
      omega
    rw [ipv6Print, if_neg hend]
    simp [ipv6Tail, ipv6Joined]
  | cons group rest ih =>
    have hi : i < groups.length := by
      by_contra hend
      rw [List.drop_eq_nil_iff.mpr (by omega)] at hrest
      cases hrest
    rw [List.drop_eq_getElem_cons hi, List.cons.injEq] at hrest
    obtain ⟨hgroup, hdrop⟩ := hrest
    have hget : groups.getD i 0 = group := by rw [List.getD_eq_getElem _ _ hi, hgroup]
    have hhex : (hexText group).length ≤ 4 := by
      rw [← hgroup]
      exact hexText_length (hgroups _ (List.getElem_mem hi))
    have hnext : i + 1 > 0 ∧ i + 1 ≠ start + length := by omega
    rw [List.length_cons] at hfits hfirst
    rw [ipv6Print_group hgroups hi (by omega) (by omega) (by omega), hget]
    split_ifs with hseparator
    · have hshort := hfirst hseparator
      have hlen : (str ++ [ipv6Separator] ++ hexText group).length + 5 * rest.length ≤ 39 := by
        simp only [List.length_append, List.length_singleton]
        omega
      rw [ih hdrop (by omega) (by omega) (fun _ => hlen), if_pos hnext, ipv6Tail, ipv6Tail,
        List.flatMap_cons]
      simp only [List.append_assoc, List.cons_append, List.nil_append]
    · have hlen : (str ++ [] ++ hexText group).length + 5 * rest.length ≤ 39 := by
        simp only [List.length_append, List.length_nil]
        omega
      rw [ih hdrop (by omega) (by omega) (fun _ => hlen), if_pos hnext, ipv6Joined_cons]
      simp only [List.append_assoc, List.nil_append]

lemma ipv6Print_before (rest : List ℕ) (hstart : start < groups.length) (hi : i ≤ start)
    (hlength : 1 ≤ length) (hrest : (groups.drop i).take (start - i) = rest)
    (hfits : str.length + 5 * rest.length ≤ 37) :
    ipv6Print groups start length i str = ipv6Print groups start length (start + length)
      (str ++ (if i > 0 then ipv6Tail rest else ipv6Joined rest) ++
        [ipv6Separator, ipv6Separator]) := by
  induction rest generalizing i str with
  | nil =>
    obtain rfl : i = start := by
      have hlen : ((groups.drop i).take (start - i)).length = 0 := by rw [hrest]; rfl
      rw [List.length_take, List.length_drop] at hlen
      omega
    rw [List.length_nil] at hfits
    rw [ipv6Print_double hstart (by omega) hlength]
    simp [ipv6Tail, ipv6Joined]
  | cons group rest ih =>
    have hlt : i < start := by
      by_contra hge
      rw [show start - i = 0 by omega, List.take_zero] at hrest
      cases hrest
    have hcount : start - i = start - (i + 1) + 1 := by omega
    rw [List.drop_eq_getElem_cons (by omega), hcount, List.take_succ_cons, List.cons.injEq] at hrest
    obtain ⟨hgroup, htake⟩ := hrest
    have hget : groups.getD i 0 = group := by rw [List.getD_eq_getElem _ _ (by omega), hgroup]
    have hhex : (hexText group).length ≤ 4 := by
      rw [← hgroup]
      exact hexText_length (hgroups _ (List.getElem_mem _))
    rw [List.length_cons] at hfits
    rw [ipv6Print_group hgroups (by omega) (by omega) (by omega) (by omega), hget]
    have hseparators : i ≠ start + length := by omega
    by_cases hi : i > 0
    · have hlen : (str ++ [ipv6Separator] ++ hexText group).length + 5 * rest.length ≤ 37 := by
        simp only [List.length_append, List.length_singleton]
        omega
      rw [if_pos ⟨hi, hseparators⟩, ih (by omega) htake hlen, if_pos hi, if_pos (by omega),
        ipv6Tail, ipv6Tail, List.flatMap_cons]
      simp only [List.append_assoc, List.cons_append, List.nil_append]
    · have hlen : (str ++ [] ++ hexText group).length + 5 * rest.length ≤ 37 := by
        simp only [List.length_append, List.length_nil]
        omega
      rw [if_neg (fun h => hi h.1), ih (by omega) htake hlen, if_neg hi, if_pos (by omega),
        ipv6Joined_cons]
      simp only [List.append_assoc, List.nil_append]

lemma ipv6Print_canonical (hcount : groups.length = ipv6GroupCount) :
    ∃ text, ipv6Print groups (longestZeroRun groups 0 ipv6GroupCount 1).1
        (longestZeroRun groups 0 ipv6GroupCount 1).2 0 [] = some text ∧
      Ipv6Canonical groups text := by
  have hsize : ipv6GroupCount = 8 := rfl
  obtain ⟨hscan, hnone⟩ | ⟨start, length, hscan, hrun⟩ := longestZeroRun_cases hcount
  · refine ⟨ipv6Joined groups, ?_, .inl ⟨hnone, rfl⟩⟩
    rw [hscan, ipv6Print_rest hgroups (groups.drop 0) le_rfl rfl (.inr le_rfl), if_neg (by omega)]
    · rfl
    · rw [List.drop_zero, List.length_nil]
      omega
    · omega
  · obtain ⟨htwo, hzero, hlongest⟩ := hrun
    have hfits := hzero.1
    have hleft : ((groups.drop 0).take (start - 0)).length = start := by
      rw [List.length_take, List.length_drop]
      omega
    let left := ipv6Joined (groups.take start) ++ [ipv6Separator, ipv6Separator]
    have hbefore : ipv6Print groups start length 0 [] =
        ipv6Print groups start length (start + length) left := by
      rw [ipv6Print_before hgroups _ (by omega) (Nat.zero_le _) (by omega) rfl
        (by rw [hleft, List.length_nil]; omega), if_neg (by omega)]
      rfl
    have hshort : left.length + 5 * (groups.drop (start + length)).length ≤ 40 := by
      have hjoined : (ipv6Joined (groups.take start)).length ≤ 5 * (groups.take start).length :=
        ipv6Joined_length fun group h => hgroups group (List.mem_of_mem_take h)
      rw [List.length_take] at hjoined
      rw [List.length_append, List.length_drop, List.length_cons, List.length_singleton]
      omega
    refine ⟨left ++ ipv6Joined (groups.drop (start + length)), ?_,
      .inr ⟨start, length, ⟨htwo, hzero, hlongest⟩, rfl⟩⟩
    rw [hscan, hbefore, ipv6Print_rest hgroups _ (by omega) rfl (.inl ⟨by omega, le_rfl⟩) hshort
      (fun h => (h.2 rfl).elim), if_neg (fun h => h.2 rfl)]

omit hgroups in
lemma textPut_length {size : ℕ} {text out : List Byte} (h : textPut size text str = some out) :
    out.length < size := by
  rw [textPut] at h
  split_ifs at h with hfits
  obtain rfl := Option.some.inj h
  rwa [List.length_append]

omit hgroups in
lemma ipv6Print_length {text : List Byte} (hstr : str.length < ipv6TextSize)
    (h : ipv6Print groups start length i str = some text) : text.length < ipv6TextSize := by
  induction hn : groups.length - i using Nat.strong_induction_on generalizing i str with
  | _ n ih =>
    rw [ipv6Print] at h
    split_ifs at h with hi hstart hseparator
    · obtain ⟨next, hput, hrest⟩ := Option.bind_eq_some_iff.mp h
      exact ih _ (by omega) (textPut_length hput) hrest rfl
    · obtain ⟨separated, -, hnext⟩ := Option.bind_eq_some_iff.mp h
      obtain ⟨next, hput, hrest⟩ := Option.bind_eq_some_iff.mp hnext
      exact ih _ (by omega) (textPut_length hput) hrest rfl
    · obtain ⟨separated, -, hnext⟩ := Option.bind_eq_some_iff.mp h
      obtain ⟨next, hput, hrest⟩ := Option.bind_eq_some_iff.mp hnext
      exact ih _ (by omega) (textPut_length hput) hrest rfl
    · obtain rfl := Option.some.inj h
      exact hstr

end Printing

section Parsing

variable {groups left right : List ℕ}

lemma lower_ne_separator {d : ℕ} (h : d < 16) : lower d ≠ ipv6Separator := by
  have hall : ∀ d < 16, lower d ≠ ipv6Separator := by decide
  exact hall d h

lemma separator_not_mem_hexText (n : ℕ) : ipv6Separator ∉ hexText n := by
  intro hmem
  obtain ⟨d, hd, heq⟩ := List.mem_map.mp hmem
  exact lower_ne_separator (numeral_lt (by omega) d hd) heq

lemma hexText_ne_nil (n : ℕ) : hexText n ≠ [] := by
  rw [hexText, ne_eq, List.map_eq_nil_iff]
  exact numeral_ne_nil 16 n

lemma ipv6Group_hexText {n : ℕ} (h : n < 65536) : ipv6Group (hexText n) = some n := by
  have hpos := List.length_pos_iff.mpr (hexText_ne_nil n)
  rw [ipv6Group, if_pos ⟨hpos, hexText_length h⟩, hexText,
    mapM_digitOf_map fun d hd => digitOf_lower (numeral_lt (by omega) d hd), Option.map_some,
    value_numeral]

lemma mapM_ipv6Group_hexText (hgroups : ∀ group ∈ groups, group < 65536) :
    (groups.map hexText).mapM ipv6Group = some groups := by
  induction groups with
  | nil => rfl
  | cons group groups ih =>
    rw [List.forall_mem_cons] at hgroups
    rw [List.map_cons, List.mapM_cons, ipv6Group_hexText hgroups.1, ih hgroups.2]
    rfl

lemma ipv6Fields_joined (hgroups : ∀ group ∈ groups, group < 65536) :
    ipv6Fields (ipv6Joined groups) = some groups := by
  cases groups with
  | nil => rfl
  | cons group rest =>
    have hne : ipv6Joined (group :: rest) ≠ [] := by
      rw [ipv6Joined_cons]
      exact List.append_ne_nil_of_left_ne_nil (hexText_ne_nil group) _
    have hfields : ∀ field ∈ (group :: rest).map hexText, ipv6Separator ∉ field := by
      intro field hfield
      obtain ⟨n, -, rfl⟩ := List.mem_map.mp hfield
      exact separator_not_mem_hexText n
    rw [ipv6Fields, if_neg hne, ipv6Joined,
      List.splitOn_intercalate _ hfields (by simp)]
    exact mapM_ipv6Group_hexText hgroups

lemma splitDouble_field {field text : List Byte} (h : ipv6Separator ∉ field) :
    splitDouble (field ++ text) =
      (splitDouble text).map fun (left, right) => (field ++ left, right) := by
  induction field with
  | nil => simp
  | cons c field ih =>
    rw [List.mem_cons, not_or] at h
    rw [List.cons_append, splitDouble, if_neg (fun hc => h.1 hc.1.symm), ih h.2, Option.map_map]
    rfl

lemma splitDouble_separator {c : Byte} {text : List Byte} (h : c ≠ ipv6Separator) :
    splitDouble (ipv6Separator :: c :: text) =
      (splitDouble (c :: text)).map fun (left, right) => (ipv6Separator :: left, right) := by
  rw [splitDouble, if_neg]
  rintro ⟨-, hhead⟩
  exact h (Option.some.inj hhead)

lemma splitDouble_tail (groups : List ℕ) (text : List Byte) :
    splitDouble (ipv6Tail groups ++ text) =
      (splitDouble text).map fun (left, right) => (ipv6Tail groups ++ left, right) := by
  induction groups with
  | nil => simp [ipv6Tail]
  | cons group groups ih =>
    obtain ⟨c, field, hfield⟩ := List.exists_cons_of_ne_nil (hexText_ne_nil group)
    have hmem := separator_not_mem_hexText group
    have hc : c ≠ ipv6Separator := fun heq => hmem (by rw [hfield, heq]; exact List.mem_cons_self)
    have hsplit : ipv6Tail (group :: groups) ++ text =
        ipv6Separator :: c :: (field ++ (ipv6Tail groups ++ text)) := by
      simp [ipv6Tail, hfield]
    have hrest : c :: (field ++ (ipv6Tail groups ++ text)) =
        hexText group ++ (ipv6Tail groups ++ text) := by rw [hfield]; rfl
    rw [hsplit, splitDouble_separator hc, hrest, splitDouble_field hmem, ih, Option.map_map,
      Option.map_map]
    congr 1
    funext ⟨left, right⟩
    simp [ipv6Tail]

lemma splitDouble_joined (groups : List ℕ) (text : List Byte) :
    splitDouble (ipv6Joined groups ++ text) =
      (splitDouble text).map fun (left, right) => (ipv6Joined groups ++ left, right) := by
  cases groups with
  | nil => simp [ipv6Joined]
  | cons group groups =>
    rw [ipv6Joined_cons, List.append_assoc, splitDouble_field (separator_not_mem_hexText group),
      splitDouble_tail, Option.map_map]
    congr 1
    funext ⟨left, right⟩
    simp

lemma ZeroRun.replicate {start length : ℕ} (h : ZeroRun groups start length) :
    groups.take start ++ List.replicate length 0 ++ groups.drop (start + length) = groups := by
  obtain ⟨hfits, hzero⟩ := h
  have hrun : List.replicate length 0 = (groups.drop start).take length := by
    apply List.ext_getElem
    · rw [List.length_replicate, List.length_take, List.length_drop]
      omega
    · intro k hk hk'
      rw [List.length_replicate] at hk
      have hget := hzero (start + k) (by omega) (by omega)
      rw [List.getD_eq_getElem _ _ (by omega)] at hget
      rw [List.getElem_replicate, List.getElem_take, List.getElem_drop, hget]
  rw [hrun, List.append_assoc, ← List.drop_drop, List.take_append_drop, List.take_append_drop]

lemma ipv6ParseGroups_canonical {text : List Byte} (hcount : groups.length = ipv6GroupCount)
    (hgroups : ∀ group ∈ groups, group < 65536) (h : Ipv6Canonical groups text) :
    ipv6ParseGroups text = some groups := by
  obtain ⟨-, rfl⟩ | ⟨start, length, ⟨htwo, hzero, -⟩, rfl⟩ := h
  · have hsplit : splitDouble (ipv6Joined groups) = none := by
      rw [← List.append_nil (ipv6Joined groups), splitDouble_joined]
      rfl
    rw [ipv6ParseGroups, hsplit]
    simp only [ipv6Fields_joined hgroups, Option.filter_some, hcount, decide_true, if_true]
  · have hfits := hzero.1
    have hsplit : splitDouble (ipv6Joined (groups.take start) ++ [ipv6Separator, ipv6Separator] ++
        ipv6Joined (groups.drop (start + length))) =
        some (ipv6Joined (groups.take start), ipv6Joined (groups.drop (start + length))) := by
      rw [List.append_assoc, splitDouble_joined]
      simp [splitDouble]
    have hleft : ipv6Fields (ipv6Joined (groups.take start)) = some (groups.take start) :=
      ipv6Fields_joined fun group h => hgroups group (List.mem_of_mem_take h)
    have hright : ipv6Fields (ipv6Joined (groups.drop (start + length))) =
        some (groups.drop (start + length)) :=
      ipv6Fields_joined fun group h => hgroups group (List.mem_of_mem_drop h)
    have hlengths : (groups.take start).length = start ∧
        (groups.drop (start + length)).length = ipv6GroupCount - (start + length) := by
      rw [List.length_take, List.length_drop]
      omega
    have hrun : ipv6GroupCount - start - (ipv6GroupCount - (start + length)) = length := by omega
    rw [ipv6ParseGroups, hsplit]
    simp only [hleft, hright, Option.bind_some, hlengths, hrun]
    rw [if_pos (by omega), hzero.replicate]

lemma pair_lt (a b : Byte) : (a.toNat <<< 8 ||| b.toNat) < 65536 := by
  have ha := a.toNat_lt
  have hb := b.toNat_lt
  rw [← Nat.shiftLeft_add_eq_or_of_lt hb, Nat.shiftLeft_eq]
  omega

lemma pair_bytes (a b : Byte) :
    [UInt8.ofNat ((a.toNat <<< 8 ||| b.toNat) / 256), UInt8.ofNat (a.toNat <<< 8 ||| b.toNat)] =
      [a, b] := by
  have ha := a.toNat_lt
  have hb := b.toNat_lt
  have hhigh : (a.toNat * 2 ^ 8 + b.toNat) / 256 = a.toNat := by omega
  have hlow : UInt8.ofNat (a.toNat * 2 ^ 8 + b.toNat) = b := by
    apply UInt8.toNat_inj.mp
    rw [UInt8.toNat_ofNat']
    omega
  rw [← Nat.shiftLeft_add_eq_or_of_lt hb, Nat.shiftLeft_eq, hhigh, hlow, UInt8.ofNat_toNat]

lemma ipv6Bytes_pairs (n : ℕ) (data : List Byte) (h : data.length = 2 * n) :
    ipv6Bytes ((List.range n).map fun i =>
      (data.getD (i * 2) 0).toNat <<< 8 ||| (data.getD (i * 2 + 1) 0).toNat) = data := by
  induction n generalizing data with
  | zero =>
    rw [List.eq_nil_of_length_eq_zero h]
    rfl
  | succ n ih =>
    rcases data with _ | ⟨a, _ | ⟨b, rest⟩⟩
    · simp at h
    · simp at h
      omega
    · have hrest : rest.length = 2 * n := by
        simp only [List.length_cons] at h
        omega
      have hpairs := ih rest hrest
      rw [ipv6Bytes, List.flatMap_map] at hpairs ⊢
      rw [List.range_succ_eq_map, List.flatMap_cons, List.flatMap_map]
      have hshift : ∀ i : ℕ, (a :: b :: rest).getD (i.succ * 2) 0 = rest.getD (i * 2) 0 ∧
          (a :: b :: rest).getD (i.succ * 2 + 1) 0 = rest.getD (i * 2 + 1) 0 := by
        intro i
        rw [Nat.succ_mul]
        exact ⟨rfl, rfl⟩
      simp only [hshift, hpairs]
      exact congrArg (· ++ rest) (pair_bytes a b)

end Parsing

theorem formatIpv6_exact (data : List Byte) (h : data.length = 16) :
    ∃ text, attributeFormatIpv6 data = some text ∧ Ipv6Canonical (ipv6Groups data) text ∧
      ipv6Parse text = some data ∧ text.length ≤ 39 := by
  have hcount : (ipv6Groups data).length = ipv6GroupCount := by
    rw [ipv6Groups, List.length_map, List.length_range]
  have hgroups : ∀ group ∈ ipv6Groups data, group < 65536 := by
    intro group hgroup
    obtain ⟨i, -, rfl⟩ := List.mem_map.mp hgroup
    exact pair_lt _ _
  obtain ⟨text, hprint, hcanonical⟩ := ipv6Print_canonical hgroups hcount
  refine ⟨text, ?_, hcanonical, ?_, ?_⟩
  · rw [attributeFormatIpv6, if_neg (fun hne => hne h)]
    exact hprint
  · rw [ipv6Parse, ipv6ParseGroups_canonical hcount hgroups hcanonical, Option.map_some, ipv6Groups,
      ipv6Bytes_pairs ipv6GroupCount data h]
  · have hlt := ipv6Print_length (by decide) hprint
    exact Nat.le_of_lt_succ hlt

theorem formatIpv6_exact_loopback :
    ∃ text, attributeFormatIpv6 (List.replicate 15 0 ++ [1]) = some text ∧
      Ipv6Canonical (ipv6Groups (List.replicate 15 0 ++ [1])) text ∧
      ipv6Parse text = some (List.replicate 15 0 ++ [1]) ∧ text.length ≤ 39 :=
  formatIpv6_exact (List.replicate 15 0 ++ [1]) rfl

end OpenDmi

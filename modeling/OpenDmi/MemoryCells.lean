import OpenDmi.Patches
import Mathlib.Data.List.GetD
import Mathlib.Tactic

/-! Sizes of 64 bits, blocks of memory whose cells may not have been written yet, and lists told by
what they have at each place. -/

namespace OpenDmi

abbrev Size := UInt64

namespace Size

variable {offset length limit a b : Size}

lemma fits_iff : (length ≤ limit ∧ offset ≤ limit - length) ↔
    offset.toNat + length.toNat ≤ limit.toNat := by
  rw [UInt64.le_iff_toNat_le, UInt64.le_iff_toNat_le]
  constructor
  · rintro ⟨hlength, hoffset⟩
    rw [UInt64.toNat_sub_of_le _ _ (UInt64.le_iff_toNat_le.mpr hlength)] at hoffset
    omega
  · intro h
    have hlength : length.toNat ≤ limit.toNat := by omega
    rw [UInt64.toNat_sub_of_le _ _ (UInt64.le_iff_toNat_le.mpr hlength)]
    omega

lemma past_iff : (limit < length ∨ limit - length < offset) ↔
    limit.toNat < offset.toNat + length.toNat := by
  rw [← UInt64.not_le, ← UInt64.not_le, ← not_and_or, fits_iff, not_le]

lemma toNat_add_of_lt (h : a.toNat + b.toNat < 2 ^ 64) : (a + b).toNat = a.toNat + b.toNat := by
  rw [UInt64.toNat_add, Nat.mod_eq_of_lt h]

end Size

namespace Cells

variable {α : Type} {cells cells' : List (Option α)} {values contents : List α} {base offset n : ℕ}

def load (cells : List (Option α)) (offset : ℕ) : ℕ → Option (List α)
  | 0 => some []
  | length + 1 =>
    cells[offset]?.join.bind fun value => (load cells (offset + 1) length).map (value :: ·)

def store (cells : List (Option α)) (offset : ℕ) (values : List α) : Option (List (Option α)) :=
  if offset + values.length ≤ cells.length then
    some (Patch.apply cells ⟨offset, values.map some⟩)
  else none

lemma load_eq (h : values.map some <+: cells.drop offset) :
    load cells offset values.length = some values := by
  induction values generalizing offset with
  | nil => rfl
  | cons value values ih =>
    rw [List.map_cons] at h
    obtain ⟨rest, hrest⟩ := h
    have hcell : cells[offset]? = some (some value) := by
      rw [← Nat.add_zero offset, ← List.getElem?_drop, ← hrest]
      rfl
    have hnext : values.map some <+: cells.drop (offset + 1) := by
      rw [← List.drop_drop, ← hrest]
      exact List.prefix_append _ _
    rw [List.length_cons, load, hcell, ih hnext]
    rfl

lemma load_span (h : contents.map some <+: cells.drop base) (hspan : offset + n ≤ contents.length) :
    load cells (base + offset) n = some ((contents.drop offset).take n) := by
  have hlength : ((contents.drop offset).take n).length = n := by
    rw [List.length_take, List.length_drop]
    omega
  have hbegins : ((contents.drop offset).take n).map some <+: cells.drop (base + offset) := by
    obtain ⟨rest, hrest⟩ := h
    rw [← List.drop_drop, ← hrest, List.drop_append_of_le_length (by rw [List.length_map]; omega),
      ← List.map_drop]
    exact ((List.take_prefix _ _).map _).trans (List.prefix_append _ _)
  have hload := load_eq hbegins
  rwa [hlength] at hload

lemma store_spec (h : contents.map some <+: cells) (hoffset : offset ≤ contents.length)
    (hroom : offset + values.length ≤ cells.length) :
    ∃ next, store cells offset values = some next ∧ next.length = cells.length ∧
      (Patch.apply contents ⟨offset, values⟩).map some <+: next := by
  have hpatch : offset + (values.map some).length ≤ cells.length := by rwa [List.length_map]
  refine ⟨_, if_pos hroom, Patch.apply_length hpatch, ?_⟩
  obtain ⟨rest, rfl⟩ := h
  have htake : (contents.map some ++ rest).take offset = (contents.take offset).map some := by
    rw [List.take_append_of_le_length (by rwa [List.length_map]), List.map_take]
  simp only [Patch.apply, List.map_append, htake, List.length_map]
  refine List.prefix_append_right_inj _ |>.mpr ?_
  rw [List.map_drop]
  exact (List.prefix_append _ _).drop _

end Cells

namespace Patch

variable {α : Type} {d : α} {values : ℕ → α} {contents : List α} {patch : Patch α}
  {patches : List (Patch α)} {i n : ℕ}

def tape (d : α) (contents : List α) : ℕ → α := fun i => contents.getD i d

def overlay (d : α) (values : ℕ → α) (patch : Patch α) : ℕ → α := fun i =>
  if patch.covers i then patch.bytes.getD (i - patch.offset) d else values i

lemma overlay_foldl : patches.foldl (overlay d) values i =
    (last patches i).elim (values i) fun patch => patch.bytes.getD (i - patch.offset) d := by
  induction patches using List.reverseRecOn with
  | nil => rfl
  | append_singleton patches patch ih =>
    rw [List.foldl_append, List.foldl_cons, List.foldl_nil, overlay, ih, last_append]
    cases hcovers : patch.covers i <;> simp [last, hcovers]

lemma overlay_nil (d : α) (values : ℕ → α) (n : ℕ) : overlay d values ⟨n, []⟩ = values := by
  funext i
  refine if_neg fun h => ?_
  obtain ⟨hle, hlt⟩ := covers_iff.mp h
  exact (hle.trans_lt hlt).ne rfl

lemma tape_apply (h : patch.offset ≤ contents.length) :
    tape d (apply contents patch) = overlay d (tape d contents) patch := by
  funext i
  have htake : (contents.take patch.offset).length = patch.offset := by
    rw [List.length_take, min_eq_left h]
  rw [tape, apply, List.append_assoc, overlay]
  split_ifs with hcovers
  · obtain ⟨hle, hlt⟩ := covers_iff.mp hcovers
    rw [List.getD_append_right _ _ _ _ (by rwa [htake]), htake,
      List.getD_append _ _ _ _ (by omega)]
  · rw [covers_iff] at hcovers
    by_cases hle : patch.offset ≤ i
    · have hpast : patch.offset + patch.bytes.length ≤ i := by omega
      rw [List.getD_append_right _ _ _ _ (by rwa [htake]), htake,
        List.getD_append_right _ _ _ _ (by omega), List.getD_eq_getElem?_getD,
        List.getElem?_drop, tape, List.getD_eq_getElem?_getD]
      congr 2
      omega
    · rw [List.getD_append _ _ _ _ (by omega), List.getD_eq_getElem?_getD,
        List.getElem?_take_of_lt (by omega), tape, List.getD_eq_getElem?_getD]

lemma tape_grown (contents : List α) (d : α) (n : ℕ) :
    tape d (contents ++ List.replicate n d) = tape d contents := by
  funext i
  rw [tape, tape]
  by_cases h : i < contents.length
  · rw [List.getD_append _ _ _ _ h]
  · rw [List.getD_append_right _ _ _ _ (by omega), List.getD_eq_getElem?_getD,
      List.getElem?_getD_replicate_default_eq, List.getD_eq_default _ _ (by omega)]

lemma tape_cut (contents : List α) (d : α) (n : ℕ) :
    tape d (contents.take n) =
      overlay d (tape d contents) ⟨n, List.replicate (contents.length - n) d⟩ := by
  funext i
  rw [overlay, tape, tape]
  split_ifs with hcovers
  · have hle : n ≤ i := (covers_iff.mp hcovers).1
    rw [List.getD_eq_default _ _ (by rw [List.length_take]; omega), List.getD_eq_getElem?_getD,
      List.getElem?_getD_replicate_default_eq]
  · simp only [covers_iff, List.length_replicate] at hcovers
    by_cases hlt : i < n
    · rw [List.getD_eq_getElem?_getD, List.getElem?_take_of_lt hlt, List.getD_eq_getElem?_getD]
    · rw [List.getD_eq_default _ _ (by rw [List.length_take]; omega),
        List.getD_eq_default _ _ (by omega)]

lemma tape_replaced (contents values : List α) (d : α) :
    tape d values = overlay d (tape d contents)
      ⟨0, values ++ List.replicate (contents.length - values.length) d⟩ := by
  have hall : contents.length ≤
      (values ++ List.replicate (contents.length - values.length) d).length := by
    rw [List.length_append, List.length_replicate]
    omega
  rw [← tape_apply (Nat.zero_le _), apply, List.take_zero, List.nil_append,
    List.drop_eq_nil_of_le (by rwa [Nat.zero_add]), List.append_nil, tape_grown]

lemma apply_end (contents values : List α) :
    apply contents ⟨contents.length, values⟩ = contents ++ values := by
  rw [apply, List.take_length, List.drop_eq_nil_of_le (Nat.le_add_right _ _), List.append_nil]

end Patch

end OpenDmi

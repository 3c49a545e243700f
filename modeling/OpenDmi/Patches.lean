import Mathlib.Data.List.Basic
import Mathlib.Tactic

/-! Lists written over in place, one patch after another: each element is the one of the last patch
which covers it. -/

namespace OpenDmi

structure Patch (α : Type) where
  offset : ℕ
  bytes : List α
  deriving DecidableEq

namespace Patch

variable {α : Type} {data : List α} {patch : Patch α} {patches rest : List (Patch α)} {i n : ℕ}

def covers (patch : Patch α) (i : ℕ) : Bool :=
  patch.offset ≤ i && i < patch.offset + patch.bytes.length

def apply (data : List α) (patch : Patch α) : List α :=
  data.take patch.offset ++ patch.bytes ++ data.drop (patch.offset + patch.bytes.length)

def applyAll (data : List α) (patches : List (Patch α)) : List α := patches.foldl apply data

def last (patches : List (Patch α)) (i : ℕ) : Option (Patch α) :=
  patches.reverse.find? (·.covers i)

def Inside (n : ℕ) (patches : List (Patch α)) : Prop :=
  ∀ patch ∈ patches, patch.offset + patch.bytes.length ≤ n

lemma covers_iff : patch.covers i = true ↔
    patch.offset ≤ i ∧ i < patch.offset + patch.bytes.length := by
  simp [covers]

lemma apply_length (h : patch.offset + patch.bytes.length ≤ data.length) :
    (apply data patch).length = data.length := by
  simp only [apply, List.length_append, List.length_take, List.length_drop]
  omega

lemma getElem?_apply (h : patch.offset + patch.bytes.length ≤ data.length) :
    (apply data patch)[i]? =
      if patch.covers i then patch.bytes[i - patch.offset]? else data[i]? := by
  have htake : (data.take patch.offset).length = patch.offset := by
    rw [List.length_take]
    omega
  rw [apply, List.append_assoc]
  split_ifs with hcovers
  · obtain ⟨hle, hlt⟩ := covers_iff.mp hcovers
    rw [List.getElem?_append_right (by omega), htake, List.getElem?_append_left (by omega)]
  · rw [covers_iff] at hcovers
    by_cases hle : patch.offset ≤ i
    · rw [List.getElem?_append_right (by omega), htake, List.getElem?_append_right (by omega),
        List.getElem?_drop]
      congr 1
      omega
    · rw [List.getElem?_append_left (by omega), List.getElem?_take, if_pos (by omega)]

@[simp] lemma applyAll_nil (data : List α) : applyAll data [] = data := rfl

lemma applyAll_append (data : List α) (patches rest : List (Patch α)) :
    applyAll data (patches ++ rest) = applyAll (applyAll data patches) rest := by
  rw [applyAll, List.foldl_append]
  rfl

lemma inside_append : Inside n (patches ++ rest) ↔ Inside n patches ∧ Inside n rest := by
  constructor
  · intro h
    exact ⟨fun p hp => h p (List.mem_append_left _ hp), fun p hp => h p (List.mem_append_right _ hp)⟩
  · rintro ⟨h, h'⟩ p hp
    rcases List.mem_append.mp hp with hp | hp
    · exact h p hp
    · exact h' p hp

lemma applyAll_length (h : Inside data.length patches) :
    (applyAll data patches).length = data.length := by
  induction patches generalizing data with
  | nil => rfl
  | cons patch patches ih =>
    have hlen := apply_length (h patch List.mem_cons_self)
    rw [applyAll, List.foldl_cons]
    refine (ih fun p hp => ?_).trans hlen
    rw [hlen]
    exact h p (List.mem_cons_of_mem _ hp)

lemma last_append : last (patches ++ rest) i = (last rest i).or (last patches i) := by
  rw [last, List.reverse_append, List.find?_append]
  rfl

lemma last_some (h : last patches i = some patch) : patch ∈ patches ∧ patch.covers i = true :=
  ⟨List.mem_reverse.mp (List.mem_of_find?_eq_some h), by simpa using List.find?_some h⟩

lemma last_eq_some (hm : patch ∈ patches) (hc : patch.covers i = true)
    (h : ∀ other ∈ patches, other.covers i = true → other = patch) :
    last patches i = some patch := by
  have hsome : (last patches i).isSome := by
    rw [last, List.find?_isSome]
    exact ⟨patch, List.mem_reverse.mpr hm, hc⟩
  obtain ⟨other, hother⟩ := Option.isSome_iff_exists.mp hsome
  obtain ⟨ho, hcovers⟩ := last_some hother
  rw [hother, h other ho hcovers]

lemma last_eq_none : last patches i = none ↔ ∀ patch ∈ patches, patch.covers i = false := by
  simp [last]

lemma getElem?_applyAll (h : Inside data.length patches) :
    (applyAll data patches)[i]? =
      (last patches i).elim data[i]? fun patch => patch.bytes[i - patch.offset]? := by
  induction patches using List.reverseRecOn with
  | nil => rfl
  | append_singleton patches patch ih =>
    obtain ⟨hbefore, hpatch⟩ := inside_append.mp h
    have hfits : patch.offset + patch.bytes.length ≤ (applyAll data patches).length := by
      rw [applyAll_length hbefore]
      exact hpatch patch List.mem_cons_self
    rw [applyAll_append, last_append]
    change (apply (applyAll data patches) patch)[i]? = _
    rw [getElem?_apply hfits, ih hbefore]
    cases hcovers : patch.covers i <;> simp [last, hcovers]

end Patch

end OpenDmi

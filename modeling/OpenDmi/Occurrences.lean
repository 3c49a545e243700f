import Mathlib.Data.List.Basic
import Mathlib.Tactic

/-! Occurrences of a pattern in a list, and the ones a search from the left takes, each past the
end of the one before. -/

namespace OpenDmi

namespace Occurrences

variable {α : Type} {text pattern : List α} {start finish fuel p q : ℕ}

def OccursAt (text pattern : List α) (p : ℕ) : Prop := (text.drop p).take pattern.length = pattern

lemma OccursAt.getElem? (h : OccursAt text pattern p) {i : ℕ} (hi : i < pattern.length) :
    text[p + i]? = pattern[i]? := by
  have hget := congrArg (·[i]?) h
  simpa [List.getElem?_take, hi] using hget

lemma occursAt_iff :
    OccursAt text pattern p ↔ ∀ i < pattern.length, text[p + i]? = pattern[i]? := by
  refine ⟨fun h i hi => h.getElem? hi, fun h => List.ext_getElem? fun i => ?_⟩
  rw [List.getElem?_take, List.getElem?_drop]
  split_ifs with hi
  · exact h i hi
  · exact (List.getElem?_eq_none (not_lt.mp hi)).symm

variable [DecidableEq α]

instance (text pattern : List α) (p : ℕ) : Decidable (OccursAt text pattern p) :=
  inferInstanceAs (Decidable (_ = _))

def taken (text pattern : List α) (finish : ℕ) : ℕ → ℕ → List ℕ
  | 0, _ => []
  | fuel + 1, p =>
    if p + pattern.length ≤ finish then
      if OccursAt text pattern p then p :: taken text pattern finish fuel (p + pattern.length)
      else taken text pattern finish fuel (p + 1)
    else []

lemma mem_taken (h : q ∈ taken text pattern finish fuel start) :
    start ≤ q ∧ q + pattern.length ≤ finish ∧ OccursAt text pattern q := by
  induction fuel generalizing start with
  | zero => simp [taken] at h
  | succ fuel ih =>
    rw [taken] at h
    split_ifs at h with hfits hoccurs
    · rcases List.mem_cons.mp h with rfl | h
      · exact ⟨le_rfl, hfits, hoccurs⟩
      · obtain ⟨hle, hrest⟩ := ih h
        exact ⟨by omega, hrest⟩
    · obtain ⟨hle, hrest⟩ := ih h
      exact ⟨by omega, hrest⟩
    · simp at h

lemma taken_covers (hp : OccursAt text pattern p) (hstart : start ≤ p)
    (hfits : p + pattern.length ≤ finish) (hfuel : p < start + fuel) (h0 : pattern ≠ []) :
    ∃ q ∈ taken text pattern finish fuel start, q ≤ p ∧ p < q + pattern.length := by
  have hlen : 0 < pattern.length := List.length_pos_iff.mpr h0
  induction fuel generalizing start with
  | zero => omega
  | succ fuel ih =>
    rw [taken, if_pos (by omega)]
    split_ifs with hoccurs
    · by_cases hnear : p < start + pattern.length
      · exact ⟨start, List.mem_cons_self, hstart, hnear⟩
      · obtain ⟨q, hq, hbounds⟩ := ih (show start + pattern.length ≤ p by omega) (by omega)
        exact ⟨q, List.mem_cons_of_mem _ hq, hbounds⟩
    · have hne : p ≠ start := by
        rintro rfl
        exact hoccurs hp
      exact ih (show start + 1 ≤ p by omega) (by omega)

lemma mem_taken_of_alone (hp : OccursAt text pattern p) (hstart : start ≤ p)
    (hfits : p + pattern.length ≤ finish) (hfuel : p < start + fuel) (h0 : pattern ≠ [])
    (halone : ∀ q, start ≤ q → OccursAt text pattern q → q ≤ p → p < q + pattern.length → q = p) :
    p ∈ taken text pattern finish fuel start := by
  obtain ⟨q, hq, hle, hlt⟩ := taken_covers hp hstart hfits hfuel h0
  obtain ⟨hq0, -, hqo⟩ := mem_taken hq
  exact halone q hq0 hqo hle hlt ▸ hq

end Occurrences

end OpenDmi

import Mathlib.Data.Set.Subsingleton
import Mathlib.Tactic

/-! What the values seen so far agree on: nothing yet, one value, or no value at all. -/

namespace OpenDmi

inductive Agreed (α : Type)
  | unset
  | one (a : α)
  | differing
  deriving DecidableEq

namespace Agreed

variable {α : Type} [DecidableEq α] {s : Set α} {x y : Agreed α} {a b : α}

def add (x : Agreed α) (a : α) : Agreed α :=
  match x with
  | unset => one a
  | one b => if b = a then one b else differing
  | differing => differing

end Agreed

inductive Agrees {α : Type} : Set α → Agreed α → Prop
  | unset : Agrees ∅ .unset
  | one (a : α) : Agrees {a} (.one a)
  | differing {s : Set α} (h : s.Nontrivial) : Agrees s .differing

namespace Agrees

variable {α : Type} {s : Set α} {x : Agreed α} {a : α}

lemma insert [DecidableEq α] (h : Agrees s x) (a : α) : Agrees (insert a s) (x.add a) := by
  cases h with
  | unset =>
    rw [insert_empty_eq]
    exact .one a
  | one b =>
    rw [Agreed.add]
    by_cases hab : b = a
    · rw [if_pos hab, hab, Set.pair_eq_singleton]
      exact .one a
    · rw [if_neg hab]
      exact .differing ⟨a, by simp, b, by simp, Ne.symm hab⟩
  | differing hs => exact .differing (hs.mono (Set.subset_insert a s))

lemma unset_iff (h : Agrees s x) : x = .unset ↔ s = ∅ := by
  cases h with
  | unset => simp
  | one a => simp
  | differing hs => simp [hs.nonempty.ne_empty]

lemma one_iff (h : Agrees s x) : x = .one a ↔ s = {a} := by
  cases h with
  | unset => simp
  | one b => simp
  | differing hs => simp [hs.ne_singleton]

lemma differing_iff (h : Agrees s x) : x = .differing ↔ s.Nontrivial := by
  cases h with
  | unset => simp
  | one a => simp
  | differing hs => simp [hs]

end Agrees

end OpenDmi

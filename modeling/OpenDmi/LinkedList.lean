import Mathlib.Data.List.Basic
import Mathlib.Logic.Function.Basic
import Mathlib.Tactic

/-! Singly linked lists in an arena: nodes are numbers, and a partial map gives the next one. -/

namespace OpenDmi.LinkedList

variable {next : ℕ → Option ℕ} {start : Option ℕ} {ids : List ℕ}

inductive Links (next : ℕ → Option ℕ) : Option ℕ → List ℕ → Prop
  | nil : Links next none []
  | cons {i : ℕ} {is : List ℕ} : Links next (next i) is → Links next (some i) (i :: is)

lemma Links.congr {next' : ℕ → Option ℕ} (h : Links next start ids)
    (he : ∀ i ∈ ids, next' i = next i) : Links next' start ids := by
  induction h with
  | nil => exact .nil
  | @cons i is _ ih =>
    refine .cons ?_
    rw [he i (by simp)]
    exact ih fun j hj => he j (by simp [hj])

lemma Links.append {i n : ℕ} {is : List ℕ} (h : Links next start (is ++ [i]))
    (hd : (is ++ [i]).Nodup) (hn : n ∉ is ++ [i]) (hfresh : next n = none) :
    Links (Function.update next i (some n)) start (is ++ [i] ++ [n]) := by
  induction is generalizing start with
  | nil =>
    obtain _ | h' := h
    have hne : n ≠ i := by simpa using hn
    refine .cons ?_
    simp only [Function.update_self]
    refine .cons ?_
    rw [Function.update_of_ne hne, hfresh]
    exact .nil
  | cons j js ih =>
    obtain _ | h' := h
    have hji : j ≠ i := by
      simp only [List.cons_append, List.nodup_cons, List.mem_append, List.mem_singleton] at hd
      tauto
    refine .cons ?_
    rw [Function.update_of_ne hji]
    exact ih h' (List.nodup_cons.mp hd).2 fun hm => hn (List.mem_cons_of_mem j hm)

def find (next : ℕ → Option ℕ) (p : ℕ → Bool) : ℕ → Option ℕ → Option ℕ
  | 0, _ => none
  | _ + 1, none => none
  | fuel + 1, some i => if p i then some i else find next p fuel (next i)

lemma Links.find_eq (h : Links next start ids) (p : ℕ → Bool) {fuel : ℕ}
    (hf : ids.length ≤ fuel) : find next p fuel start = ids.find? p := by
  induction h generalizing fuel with
  | nil => cases fuel <;> rfl
  | @cons i is _ ih =>
    obtain _ | fuel := fuel
    · simp at hf
    · have hf' : is.length ≤ fuel := by simpa using hf
      by_cases hp : p i
      · simp [find, hp]
      · simp [find, hp, ih hf']

lemma Links.split {is js : List ℕ} {i : ℕ} (h : Links next start (is ++ i :: js)) :
    Links next (next i) js := by
  induction is generalizing start with
  | nil =>
    obtain _ | h' := h
    exact h'
  | cons k ks ih =>
    obtain _ | h' := h
    exact ih h'

end OpenDmi.LinkedList

import Mathlib.Data.List.Basic
import Mathlib.Logic.Function.Basic
import Mathlib.Tactic

/-! Queues of a bounded length in a ring of slots, where the last slot is followed by the first. -/

namespace RingQueue

variable {α : Type} {depth first count i j : ℕ} {slots slots' : ℕ → α} {a : α}

def elements (depth : ℕ) (slots : ℕ → α) (first count : ℕ) : List α :=
  (List.range count).map fun i => slots ((first + i) % depth)

def push (depth : ℕ) (queue : List α) (a : α) : List α :=
  if queue.length = depth then queue.tail ++ [a] else queue ++ [a]

@[simp] lemma elements_length (depth : ℕ) (slots : ℕ → α) (first count : ℕ) :
    (elements depth slots first count).length = count := by
  rw [elements, List.length_map, List.length_range]

lemma elements_congr (h : ∀ i < count, slots ((first + i) % depth) = slots' ((first + i) % depth)) :
    elements depth slots first count = elements depth slots' first count :=
  List.map_congr_left fun i hi => h i (List.mem_range.mp hi)

lemma elements_concat (depth : ℕ) (slots : ℕ → α) (first count : ℕ) :
    elements depth slots first (count + 1) =
      elements depth slots first count ++ [slots ((first + count) % depth)] := by
  rw [elements, List.range_succ, List.map_append, List.map_singleton]
  rfl

lemma elements_cons (depth : ℕ) (slots : ℕ → α) (first count : ℕ) :
    elements depth slots first (count + 1) =
      slots (first % depth) :: elements depth slots ((first + 1) % depth) count := by
  rw [elements, List.range_succ_eq_map, List.map_cons, List.map_map, Nat.add_zero]
  refine congrArg _ (List.map_congr_left fun i _ => ?_)
  rw [Function.comp_apply, Nat.mod_add_mod]
  congr 2
  omega

lemma slot_inj (hi : i < depth) (hj : j < depth) (h : (first + i) % depth = (first + j) % depth) :
    i = j := by
  have hmod : i ≡ j [MOD depth] := Nat.ModEq.add_left_cancel' first h
  rwa [Nat.ModEq, Nat.mod_eq_of_lt hi, Nat.mod_eq_of_lt hj] at hmod

lemma elements_push (hcount : count < depth)
    (hkept : ∀ slot ≠ (first + count) % depth, slots' slot = slots slot) :
    elements depth slots' first (count + 1) =
      elements depth slots first count ++ [slots' ((first + count) % depth)] := by
  rw [elements_concat]
  refine congrArg (· ++ _) (elements_congr fun i hi => hkept _ fun heq => ?_)
  exact hi.ne (slot_inj (hi.trans hcount) hcount heq)

lemma elements_evict (hdepth : 0 < depth)
    (hkept : ∀ slot ≠ first % depth, slots' slot = slots slot) :
    elements depth slots' ((first + 1) % depth) depth =
      (elements depth slots first depth).tail ++ [slots' (first % depth)] := by
  obtain ⟨rest, rfl⟩ := Nat.exists_eq_succ_of_ne_zero hdepth.ne'
  have hlast : ((first + 1) % (rest + 1) + rest) % (rest + 1) = first % (rest + 1) := by
    rw [Nat.mod_add_mod, show first + 1 + rest = first + (rest + 1) by omega, Nat.add_mod_right]
  rw [elements_concat, hlast, elements_cons, List.tail_cons]
  refine congrArg (· ++ _) (elements_congr fun i hi => hkept _ fun heq => ?_)
  rw [Nat.mod_add_mod, add_assoc] at heq
  have hzero : 1 + i = 0 :=
    @slot_inj (rest + 1) first _ _ (by omega) (Nat.succ_pos rest) (by rwa [Nat.add_zero])
  omega

end RingQueue

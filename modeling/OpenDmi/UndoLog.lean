import Mathlib.Data.List.Basic

/-! A memory which is written over and put back: what a place has held is kept on a stack, with the
latest on top. -/

namespace UndoLog

variable {β : Type*} {original memory : ℕ → β} {start : ℕ} {values : List β}

def load (memory : ℕ → β) (start length : ℕ) : List β :=
  (List.range length).map fun i => memory (start + i)

def store (memory : ℕ → β) (start : ℕ) (values : List β) : ℕ → β := fun i =>
  if start ≤ i then (values[i - start]?).getD (memory i) else memory i

@[simp] lemma load_length (memory : ℕ → β) (start length : ℕ) :
    (load memory start length).length = length := by simp [load]

lemma store_load (memory : ℕ → β) (start : ℕ) (values : List β) :
    store (store memory start values) start (load memory start values.length) = memory := by
  funext i
  rw [store]
  by_cases hstart : start ≤ i
  · rw [if_pos hstart]
    by_cases hinside : i - start < values.length
    · have hplace : start + (i - start) = i := by omega
      simp [load, hinside, hplace]
    · have hvalue : values[i - start]? = none := List.getElem?_eq_none (by omega)
      have hloaded : (load memory start values.length)[i - start]? = none :=
        List.getElem?_eq_none (by rw [load_length]; omega)
      rw [hloaded, store, if_pos hstart, hvalue]
      rfl
  · rw [if_neg hstart, store, if_neg hstart]

structure Entry (β : Type*) where
  start : ℕ
  values : List β

def undo (entries : List (Entry β)) (memory : ℕ → β) : ℕ → β :=
  entries.foldl (fun memory entry => store memory entry.start entry.values) memory

def Restores (original : ℕ → β) (entries : List (Entry β)) (memory : ℕ → β) : Prop :=
  undo entries memory = original

lemma Restores.nil (memory : ℕ → β) : Restores memory [] memory := rfl

lemma Restores.push {entries : List (Entry β)} (h : Restores original entries memory)
    {length : ℕ} (hlength : values.length = length) :
    Restores original (⟨start, load memory start length⟩ :: entries)
      (store memory start values) := by
  subst hlength
  rw [Restores, undo, List.foldl_cons, store_load]
  exact h

end UndoLog

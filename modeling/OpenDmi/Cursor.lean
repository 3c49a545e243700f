import Mathlib.Data.List.Basic
import Mathlib.Tactic

structure Cursor (α : Type) where
  values : List α
  position : ℕ
  inside : position ≤ values.length

namespace Cursor

variable {α : Type} {cursor next : Cursor α} {target : ℕ}

def moveTo (target : ℕ) (cursor : Cursor α) : Option (Cursor α) :=
  if h : target ≤ cursor.values.length then some ⟨cursor.values, target, h⟩ else none

def spanAt (offset length : ℕ) (cursor : Cursor α) : Option (List α) :=
  if offset + length ≤ cursor.values.length then
    some ((cursor.values.drop offset).take length)
  else none

def take (length : ℕ) (cursor : Cursor α) : Option (List α × Cursor α) :=
  (cursor.spanAt cursor.position length).bind fun span =>
    (cursor.moveTo (cursor.position + length)).map fun next => (span, next)

lemma moveTo_some (h : cursor.moveTo target = some next) :
    next.values = cursor.values ∧ next.position = target := by
  rw [moveTo] at h
  split_ifs at h
  cases h
  exact ⟨rfl, rfl⟩

lemma spanAt_eq (cursor : Cursor α) (offset length : ℕ) :
    cursor.spanAt offset length = (cursor.moveTo (offset + length)).map fun _ =>
      (cursor.values.drop offset).take length := by
  rw [spanAt, moveTo]
  split_ifs <;> rfl

lemma take_eq (cursor : Cursor α) (length : ℕ) :
    cursor.take length = (cursor.moveTo (cursor.position + length)).map fun next =>
      ((cursor.values.drop cursor.position).take length, next) := by
  rw [take, spanAt_eq]
  cases cursor.moveTo (cursor.position + length) <;> rfl

end Cursor

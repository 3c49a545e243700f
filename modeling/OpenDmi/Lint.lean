import OpenDmi.LinkRuns
import OpenDmi.StringSet

namespace OpenDmi

open Bytes LinkedList

inductive LintArgument
  | number (n : ℕ)
  | name (entity : Entity)
  deriving DecidableEq

structure LintIssue where
  rule : String
  handle : ℕ
  type : Option ℕ
  attr : Option String
  offset : Option ℕ
  format : String
  arguments : List LintArgument
  deriving DecidableEq

structure Lint where
  context : Context
  table : Buffer
  entityCount : ℕ
  registry : Registry

def lintIssue (rule : String) (entity : Option Entity) (attr : Option String)
    (offset : Option ℕ) (format : String) (arguments : List LintArgument) : LintIssue where
  rule := rule
  handle := entity.elim handleInvalid Entity.handle
  type := entity.map Entity.typeId
  attr := attr
  offset := offset
  format := format
  arguments := arguments

structure LintTotals where
  entityCount : ℕ
  typeCounts : ℕ → ℕ
  entityMaxSize : ℕ
  terminator : Option Entity

def registryEntities (registry : Registry) : List Entity :=
  (registryNumbers registry (registry.allocated + 1) (registryIterInitialize none)).map
    registry.entity

def lintCollectEntity (totals : LintTotals) (entity : Entity) : LintTotals where
  entityCount := totals.entityCount + 1
  typeCounts := Function.update totals.typeCounts entity.typeId
    (totals.typeCounts entity.typeId + 1)
  entityMaxSize := max totals.entityMaxSize entity.totalLength
  terminator := if entity.typeId = typeEndOfTable ∧ totals.terminator = none then some entity
    else totals.terminator

def lintCollect (registry : Registry) : LintTotals :=
  (registryEntities registry).foldl lintCollectEntity ⟨0, fun _ => 0, 0, none⟩

def lintTotals (lint : Lint) : LintTotals := lintCollect lint.registry

variable {registry : Registry}

lemma registryEntities_eq (h : registry.Valid) : registryEntities registry = registry.table := by
  rw [registryEntities, registryNumbers_range h, Registry.table]

lemma collect_count (entities : List Entity) (totals : LintTotals) :
    (entities.foldl lintCollectEntity totals).entityCount =
      totals.entityCount + entities.length := by
  induction entities generalizing totals with
  | nil => rfl
  | cons entity entities ih =>
    rw [List.foldl_cons, ih, List.length_cons]
    have hone : (lintCollectEntity totals entity).entityCount = totals.entityCount + 1 := rfl
    omega

lemma collect_terminator (entities : List Entity) (totals : LintTotals) :
    (entities.foldl lintCollectEntity totals).terminator =
      totals.terminator.or (entities.find? fun entity => entity.typeId == typeEndOfTable) := by
  induction entities generalizing totals with
  | nil => simp
  | cons entity entities ih =>
    rw [List.foldl_cons, ih, lintCollectEntity]
    cases ht : totals.terminator with
    | some terminator => simp
    | none =>
      by_cases hend : entity.typeId = typeEndOfTable
      · simp [hend]
      · simp [hend]

lemma lintCollect_count (h : registry.Valid) :
    (lintCollect registry).entityCount = registry.table.length := by
  rw [lintCollect, collect_count, registryEntities_eq h, Nat.zero_add]

lemma lintCollect_terminator (h : registry.Valid) :
    (lintCollect registry).terminator =
      registry.table.find? fun entity => entity.typeId == typeEndOfTable := by
  rw [lintCollect, collect_terminator, registryEntities_eq h, Option.none_or]

end OpenDmi

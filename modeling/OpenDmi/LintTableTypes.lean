import OpenDmi.LintTable

namespace OpenDmi

open Bytes

/-- The versions from which on a type is mandatory, and till which, or expected only. -/
structure TypeParams where
  requiredFrom : ℕ
  requiredTill : ℕ
  recommendedFrom : ℕ
  unique : Bool

structure TypeLint extends Lint where
  version : ℕ
  typeParams : ℕ → TypeParams
  typeName : ℕ → String

/-- Types told by signatures only are represented by the first of them. -/
def typeSpec (context : Context) (type : ℕ) : Option ℕ :=
  if typeIdMax < type then none
  else (context.typeMap type).plain.or (context.typeMap type).signed.head?

def missingIssue (check : TypeLint) (rule : String) (type : ℕ) : LintIssue :=
  -- The name stands in the format here, as only numbers are filled in
  lintIssue rule none none none
    ("table has no structure of type %d (" ++ check.typeName type ++ ")") [.number type]

def repeatedIssue (check : TypeLint) (count type : ℕ) : LintIssue :=
  lintIssue "table.duplicate-singleton" none none none
    ("table has %zu structures of type %d (" ++ check.typeName type ++ "), expected one")
    [.number count, .number type]

def lintTypes (check : TypeLint) (rule : ℕ → TypeParams → Option LintIssue) : List LintIssue :=
  (List.range (typeIdMax + 1)).filterMap fun type =>
    (typeSpec check.context type).bind fun spec => rule type (check.typeParams spec)

def lintTableRequired (check : TypeLint) : List LintIssue :=
  lintTypes check fun type params =>
    if params.requiredFrom = 0 then none
    else if check.version < params.requiredFrom then none
    else if params.requiredTill ≠ 0 ∧ params.requiredTill < check.version then none
    else if (lintTotals check.toLint).typeCounts type = 0 then
      some (missingIssue check "table.missing-required" type)
    else none

def lintTableRecommended (check : TypeLint) : List LintIssue :=
  lintTypes check fun type params =>
    if params.recommendedFrom = 0 then none
    else if check.version < params.recommendedFrom then none
    else if (lintTotals check.toLint).typeCounts type = 0 then
      some (missingIssue check "table.missing-recommended" type)
    else none

def lintTableSingleton (check : TypeLint) : List LintIssue :=
  lintTypes check fun type params =>
    if params.unique = false then none
    else if 1 < (lintTotals check.toLint).typeCounts type then
      some (repeatedIssue check ((lintTotals check.toLint).typeCounts type) type)
    else none

def TypeParams.Required (params : TypeParams) (version : ℕ) : Prop :=
  0 < params.requiredFrom ∧ params.requiredFrom ≤ version ∧
    (params.requiredTill = 0 ∨ version ≤ params.requiredTill)

def TypeParams.Recommended (params : TypeParams) (version : ℕ) : Prop :=
  0 < params.recommendedFrom ∧ params.recommendedFrom ≤ version

def structuresOf (entities : List Entity) (type : ℕ) : ℕ :=
  entities.countP fun entity => entity.typeId == type

structure TypeLintAgrees (check : TypeLint) (entities : List Entity) : Prop where
  required : ∀ issue, issue ∈ lintTableRequired check ↔
    ∃ type spec, typeSpec check.context type = some spec ∧
      (check.typeParams spec).Required check.version ∧
      (∀ entity ∈ entities, entity.typeId ≠ type) ∧
      issue = missingIssue check "table.missing-required" type
  recommended : ∀ issue, issue ∈ lintTableRecommended check ↔
    ∃ type spec, typeSpec check.context type = some spec ∧
      (check.typeParams spec).Recommended check.version ∧
      (∀ entity ∈ entities, entity.typeId ≠ type) ∧
      issue = missingIssue check "table.missing-recommended" type
  singleton : ∀ issue, issue ∈ lintTableSingleton check ↔
    ∃ type spec, typeSpec check.context type = some spec ∧
      (check.typeParams spec).unique = true ∧ 1 < structuresOf entities type ∧
      issue = repeatedIssue check (structuresOf entities type) type

section Types

variable {check : TypeLint} {entities : List Entity} {issue : LintIssue} {type : ℕ}
  {rule : ℕ → TypeParams → Option LintIssue}

lemma collect_typeCounts (entities : List Entity) (totals : LintTotals) (type : ℕ) :
    (entities.foldl lintCollectEntity totals).typeCounts type =
      totals.typeCounts type + structuresOf entities type := by
  induction entities generalizing totals with
  | nil => rfl
  | cons entity entities ih =>
    rw [List.foldl_cons, ih, structuresOf, structuresOf, List.countP_cons]
    simp only [lintCollectEntity, Function.update_apply, beq_iff_eq]
    by_cases htype : entity.typeId = type
    · rw [if_pos htype.symm, if_pos htype, htype]
      omega
    · rw [if_neg (Ne.symm htype), if_neg htype, Nat.add_zero]

lemma structuresOf_eq_zero :
    structuresOf entities type = 0 ↔ ∀ entity ∈ entities, entity.typeId ≠ type := by
  simp [structuresOf, List.countP_eq_zero]

lemma typeSpec_le {context : Context} {spec : ℕ} (h : typeSpec context type = some spec) :
    type ≤ typeIdMax := by
  obtain ⟨hle, -⟩ := Option.ite_none_left_eq_some.mp h
  exact not_lt.mp hle

lemma mem_lintTypes : issue ∈ lintTypes check rule ↔
    ∃ type spec, typeSpec check.context type = some spec ∧
      rule type (check.typeParams spec) = some issue := by
  simp only [lintTypes, List.mem_filterMap, List.mem_range, Option.bind_eq_some_iff]
  constructor
  · rintro ⟨type, -, spec, hspec, htold⟩
    exact ⟨type, spec, hspec, htold⟩
  · rintro ⟨type, spec, hspec, htold⟩
    exact ⟨type, Nat.lt_succ_of_le (typeSpec_le hspec), spec, hspec, htold⟩

lemma typeLintAgrees (htotals : ∀ type,
    (lintTotals check.toLint).typeCounts type = structuresOf entities type) :
    TypeLintAgrees check entities := by
  refine ⟨fun issue => ?_, fun issue => ?_, fun issue => ?_⟩
  · rw [lintTableRequired, mem_lintTypes]
    refine exists_congr fun type => exists_congr fun spec => and_congr_right fun _ => ?_
    rw [htotals, TypeParams.Required, ← structuresOf_eq_zero]
    split_ifs with hnever hearly hlate hnone
    · simp [hnever]
    · simp [hearly.not_ge]
    · simp [hlate.1, hlate.2.not_ge]
    · have htill : (check.typeParams spec).requiredTill = 0 ∨
          check.version ≤ (check.typeParams spec).requiredTill := by omega
      constructor
      · intro h
        exact ⟨⟨Nat.pos_of_ne_zero hnever, not_lt.mp hearly, htill⟩, hnone,
          (Option.some.inj h).symm⟩
      · rintro ⟨-, -, rfl⟩
        rfl
    · simp [hnone]
  · rw [lintTableRecommended, mem_lintTypes]
    refine exists_congr fun type => exists_congr fun spec => and_congr_right fun _ => ?_
    rw [htotals, TypeParams.Recommended, ← structuresOf_eq_zero]
    split_ifs with hnever hearly hnone
    · simp [hnever]
    · simp [hearly.not_ge]
    · simp [hnone, Nat.pos_of_ne_zero hnever, not_lt.mp hearly, eq_comm]
    · simp [hnone]
  · rw [lintTableSingleton, mem_lintTypes]
    refine exists_congr fun type => exists_congr fun spec => and_congr_right fun _ => ?_
    rw [htotals]
    split_ifs with hfree hmany
    · simp [hfree]
    · have hunique : (check.typeParams spec).unique = true := by simpa using hfree
      simp [hmany, hunique, eq_comm]
    · simp [hmany]

end Types

/-- The rules of types report just the mandatory and the expected types which no structure read is
of, and the unique ones which more than one is of. Structures past the declared count are not
read, so their types are missing. -/
theorem table_types_lint_exact (check : TypeLint) (strict : Bool) (capacity : ℕ) :
    ∃ success registry,
      registryScan strict check.table check.entityCount (registryCreate capacity) =
        some (success, registry) ∧
      (success = true → TypeLintAgrees { check with registry := registry }
        (tableWalk check.table check.entityCount).entities) := by
  obtain ⟨success, registry, hscan, -⟩ :=
    registryScan_spec strict check.table check.entityCount capacity
  refine ⟨success, registry, hscan, ?_⟩
  rintro rfl
  obtain ⟨hvalid, hentities, -⟩ := registryScan_walk hscan
  refine typeLintAgrees fun type => ?_
  rw [lintTotals, lintCollect, registryEntities_eq hvalid, hentities, collect_typeCounts,
    Nat.zero_add]

end OpenDmi

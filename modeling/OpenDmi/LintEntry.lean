import OpenDmi.EntryAccept
import OpenDmi.LintTable
import OpenDmi.SaveClaim

namespace OpenDmi

open Bytes

structure EntryLint extends ContextState where
  context : Context

def EntryLint.lint (check : EntryLint) : Lint where
  context := check.context
  table := check.table
  entityCount := check.entryState.entityCount
  registry := check.registry

def EntryFormat.name : EntryFormat → String
  | .v30 => "SMBIOS 3.0+ (64-bit)"
  | .v21 => "SMBIOS 2.1+ (32-bit)"
  | .legacy => "Legacy (32-bit)"

def entryIssue (rule : String) (attr : Option String) (offset : ℕ) (format : String)
    (numbers : List ℕ) : LintIssue :=
  lintIssue rule none attr (some offset) format (numbers.map .number)

def lintEntryVerify (data : List Byte) : Bool := byteSum data == 0

section Rules

variable (check : EntryLint)

def lintEntryChecksum : List LintIssue :=
  match check.entry, check.entryState.format with
  | some data, some format =>
    let length := min check.entryState.entryLength data.length
    (if 0 < length ∧ lintEntryVerify (data.take length) = false then
      [entryIssue "entry.checksum" none 0
        "checksum of the entry point does not match its %zu bytes" [length]]
    else []) ++
    (if format.spec.anchor = EntryFormat.v21.spec.anchor ∧ v21Size ≤ data.length ∧
        lintEntryVerify (window data iepsOffset legacySize) = false then
      [entryIssue "entry.checksum" none iepsOffset
        "checksum of the intermediate anchor does not match its data" []]
    else [])
  | _, _ => []

def lintEntryLength : List LintIssue :=
  match check.entryState.format with
  | none => []
  | some format =>
    if check.entryState.entryLength < format.spec.minLength then
      -- The name stands in the format here, as only numbers are filled in
      [entryIssue "entry.length" (some "length") 0
        ("entry point of format \"" ++ format.name ++
          "\" is %zu bytes long, expected at least %zu")
        [check.entryState.entryLength, format.spec.minLength]]
    else match check.entry with
      -- A format is only known of an entry point which is held
      | none => []
      | some data =>
        if data.length < check.entryState.entryLength then
          [entryIssue "entry.length" (some "length") 0
            "entry point declares %zu bytes, but only %zu are available"
            [check.entryState.entryLength, data.length]]
        else []

def tableAddrIssue : LintIssue :=
  entryIssue "entry.table-address" (some "table-area-address") 0
    "entry point declares no address of the table" []

def lintEntryTableAddr : List LintIssue :=
  if check.entryState.tableAreaAddress = 0 then [tableAddrIssue] else []

def tableSizeIssue (declared size : ℕ) : LintIssue :=
  entryIssue "entry.table-size" (some "table-area-size") 0
    "entry point declares a table of %zu bytes, but it is %zu bytes long" [declared, size]

def tableMaxSizeIssue (size declared : ℕ) : LintIssue :=
  entryIssue "entry.table-size" (some "table-area-max-size") 0
    "table of %zu bytes is longer than the maximum of %zu bytes" [size, declared]

def lintEntryTableSize : List LintIssue :=
  if 0 < check.entryState.tableAreaSize ∧ check.entryState.tableAreaSize ≠ check.table.length then
    [tableSizeIssue check.entryState.tableAreaSize check.table.length]
  else if 0 < check.entryState.tableAreaMaxSize ∧ check.entryState.tableAreaMaxSize < check.table.length then
    [tableMaxSizeIssue check.table.length check.entryState.tableAreaMaxSize]
  else []

def entityCountIssue (declared counted : ℕ) : LintIssue :=
  entryIssue "entry.entity-count" (some "entity-count") 0
    "entry point declares %zu structures, but the table has %zu" [declared, counted]

def entityMaxSizeIssue (size declared : ℕ) : LintIssue :=
  entryIssue "entry.entity-max-size" (some "entity-max-size") 0
    "table has a structure of %zu bytes, but the entry point declares a maximum of %zu bytes"
    [size, declared]

def lintEntryEntityMaxSize : List LintIssue :=
  let totals := lintTotals check.lint
  if 0 < check.entryState.entityMaxSize ∧ check.entryState.entityMaxSize < totals.entityMaxSize then
    [entityMaxSizeIssue totals.entityMaxSize check.entryState.entityMaxSize]
  else []

end Rules

structure LintEntryRule where
  code : String
  check : EntryLint → List LintIssue

def lintEntryRules : List LintEntryRule := [
  ⟨"entry.checksum", lintEntryChecksum⟩,
  ⟨"entry.length", lintEntryLength⟩,
  ⟨"entry.table-address", lintEntryTableAddr⟩,
  ⟨"entry.table-size", lintEntryTableSize⟩,
  ⟨"entry.entity-count", fun check => lintEntryEntityCount check.lint⟩,
  ⟨"entry.entity-max-size", lintEntryEntityMaxSize⟩]

def lintCheckEntry (enabled : String → Bool) (check : EntryLint) : List LintIssue :=
  lintEntryRules.flatMap fun rule => if enabled rule.code then rule.check check else []

structure EntryFields where
  address : ℕ
  size : Option ℕ
  maxSize : Option ℕ
  entityCount : Option ℕ
  entityMaxSize : Option ℕ

def EntryFormat.fields : EntryFormat → List Byte → EntryFields
  | .v30, data => ⟨loadAt data 16 8, none, some (loadAt data 12 4), none, none⟩
  | .v21, data => ⟨loadAt data 24 4, some (loadAt data 22 2), none, some (loadAt data 28 2),
    some (loadAt data 8 2)⟩
  | .legacy, data => ⟨loadAt data 8 4, some (loadAt data 6 2), none, some (loadAt data 12 2), none⟩

/-- A backend which has no entry point to read tells nothing but the version. -/
inductive EntryOpened : EntrySource → EntryFields → Prop
  | version {major minor revision : ℕ} :
      EntryOpened (.version major minor revision) ⟨0, none, none, none, none⟩
  | data {format : EntryFormat} {bytes : List Byte} : EntryAccepted format bytes →
      EntryOpened (.data bytes) (format.fields bytes)

/-- Where the table is not what is told of it. A number of zero tells nothing. -/
inductive EntryFault (fields : EntryFields) (size : ℕ) (entities : List Entity) : LintIssue → Prop
  | address : fields.address = 0 → EntryFault fields size entities tableAddrIssue
  | size {declared : ℕ} : fields.size = some declared → 0 < declared → declared ≠ size →
      EntryFault fields size entities (tableSizeIssue declared size)
  | maxSize {declared : ℕ} : fields.maxSize = some declared → 0 < declared → declared < size →
      EntryFault fields size entities (tableMaxSizeIssue size declared)
  | entityCount {declared : ℕ} : fields.entityCount = some declared → 0 < declared →
      declared ≠ entities.length →
      EntryFault fields size entities (entityCountIssue declared entities.length)
  | entityMaxSize {declared : ℕ} {entity : Entity} : fields.entityMaxSize = some declared →
      0 < declared → entity ∈ entities →
      (∀ other ∈ entities, other.totalLength ≤ entity.totalLength) →
      declared < entity.totalLength →
      EntryFault fields size entities (entityMaxSizeIssue entity.totalLength declared)

section Fields

variable {format : EntryFormat} {data : List Byte} {state result : EntryState} {version : ℕ}

structure FieldsKept (fields : EntryFields) (state : EntryState) : Prop where
  address : state.tableAreaAddress = fields.address
  size : state.tableAreaSize = fields.size.getD 0
  maxSize : state.tableAreaMaxSize = (fields.maxSize.or fields.size).getD 0
  entityCount : state.entityCount = fields.entityCount.getD 0
  entityMaxSize : state.entityMaxSize = fields.entityMaxSize.getD 0

def EntryFormat.sumLength (format : EntryFormat) (data : List Byte) : ℕ :=
  format.lengthOffset.elim legacySize fun offset => loadAt data offset 1

structure EntryKept (format : EntryFormat) (data : List Byte) (state : EntryState) : Prop where
  known : state.format = some format
  length : state.entryLength = format.sumLength data
  kept : FieldsKept (format.fields data) state

lemma loadAt_window {start size offset length : ℕ} (h : offset + length ≤ size) :
    loadAt (window data start size) offset length = loadAt data (start + offset) length := by
  rw [loadAt, loadAt, window_window h]

lemma entryDecodeLegacy_some (h : entryDecodeLegacy state data = some result) :
    result = { state with
      smbiosVersion := result.smbiosVersion
      addressSize := result.addressSize
      entryLength := legacySize
      entityCount := loadAt data 12 2
      tableAreaAddress := loadAt data 8 4
      tableAreaMaxSize := loadAt data 6 2
      tableAreaSize := loadAt data 6 2 } := by
  rw [entryDecodeLegacy] at h
  obtain ⟨-, hstate⟩ := Option.ite_none_left_eq_some.mp h
  rw [← Option.some.inj hstate]

lemma decode_kept (haccepts : format.accepts data = true)
    (h : format.decode { EntryState.initial version with format := some format } data =
      some state) : EntryKept format data state := by
  have hlength := accepts_length haccepts
  cases format with
  | v30 =>
    simp only [EntryFormat.decode, entryDecodeV30] at h
    split_ifs at h
    obtain rfl := Option.some.inj h
    exact ⟨rfl, rfl, rfl, rfl, rfl, rfl, rfl⟩
  | v21 =>
    simp only [EntryFormat.decode, entryDecodeV21] at h
    split_ifs at h
    obtain ⟨inner, hinner, rfl⟩ := Option.map_eq_some_iff.mp h
    have hsize : 14 ≤ min (data.length - iepsOffset) legacySize := by
      simp only [EntryFormat.spec, v21Size, iepsOffset, legacySize] at hlength ⊢
      omega
    rw [entryDecodeLegacy_some hinner, loadAt_window (by omega), loadAt_window (by omega),
      loadAt_window (by omega)]
    exact ⟨rfl, rfl, rfl, rfl, rfl, rfl, rfl⟩
  | legacy =>
    rw [EntryFormat.decode] at h
    rw [entryDecodeLegacy_some h]
    exact ⟨rfl, rfl, rfl, rfl, rfl, rfl, rfl⟩

lemma accepted_sum (h : EntryAccepted format data) :
    format.spec.minLength ≤ format.sumLength data ∧ format.sumLength data ≤ data.length ∧
      byteSum (data.take (format.sumLength data)) = 0 := by
  cases format with
  | v30 => exact h.covered 6 rfl
  | v21 => exact h.covered 5 rfl
  | legacy =>
    have hlong : legacySize ≤ data.length := h.long
    refine ⟨le_rfl, hlong, ?_⟩
    have hsum := h.legacy 0 rfl (by rwa [Nat.zero_add])
    rwa [← take_eq_window] at hsum

lemma openReadEntry_kept {entry : Option (List Byte)}
    (h : openReadEntry (.data data) = some (entry, state)) :
    entry = some data ∧ ∃ format, EntryAccepted format data ∧ ∀ version,
      EntryKept format data { state with smbiosVersion := version } := by
  obtain ⟨decoded, hdecode, hfound⟩ := Option.map_eq_some_iff.mp h
  obtain ⟨rfl, rfl⟩ := Prod.mk.inj hfound
  obtain ⟨format, haccepts, hstate⟩ := entryDecode_some hdecode
  obtain ⟨hformat, hlength, hkept⟩ := decode_kept haccepts hstate
  refine ⟨rfl, format, entryAccepted_iff.mpr ⟨haccepts, by rw [hstate]; rfl⟩, fun _ =>
    ⟨hformat, hlength, ?_⟩⟩
  exact ⟨hkept.address, hkept.size, hkept.maxSize, hkept.entityCount, hkept.entityMaxSize⟩

end Fields

section Exact

variable {check : EntryLint} {format : EntryFormat} {data : List Byte} {fields : EntryFields}
  {entities : List Entity} {issue : LintIssue}

lemma accepted_silent (hentry : check.entry = some data) (h : EntryAccepted format data)
    (hkept : EntryKept format data check.entryState) :
    lintEntryChecksum check = [] ∧ lintEntryLength check = [] := by
  obtain ⟨hmin, hmax, hsum⟩ := accepted_sum h
  have hinner : format.spec.anchor = EntryFormat.v21.spec.anchor → v21Size ≤ data.length →
      lintEntryVerify (window data iepsOffset legacySize) = true := by
    intro hanchor hlong
    have hformat : format = .v21 := by
      revert hanchor
      cases format <;> decide
    subst hformat
    rw [lintEntryVerify, h.legacy iepsOffset rfl hlong]
    rfl
  have hverify : lintEntryVerify (data.take (format.sumLength data)) = true := by
    rw [lintEntryVerify, hsum]
    rfl
  constructor
  · simp only [lintEntryChecksum, hentry, hkept.known, hkept.length, min_eq_left hmax, hverify]
    rw [if_neg (by simp), if_neg fun hbad => by simp [hinner hbad.1 hbad.2.1] at hbad]
    rfl
  · simp only [lintEntryLength, hentry, hkept.known, hkept.length]
    rw [if_neg hmin.not_gt, if_neg hmax.not_gt]

lemma without_silent (hentry : check.entry = none) (hformat : check.entryState.format = none) :
    lintEntryChecksum check = [] ∧ lintEntryLength check = [] := by
  rw [lintEntryChecksum, lintEntryLength, hentry, hformat]
  exact ⟨rfl, rfl⟩

lemma collect_largest (entities : List Entity) (totals : LintTotals) :
    let largest := (entities.foldl lintCollectEntity totals).entityMaxSize
    totals.entityMaxSize ≤ largest ∧ (∀ entity ∈ entities, entity.totalLength ≤ largest) ∧
      (largest = totals.entityMaxSize ∨ ∃ entity ∈ entities, entity.totalLength = largest) := by
  induction entities generalizing totals with
  | nil => exact ⟨le_rfl, by simp, .inl rfl⟩
  | cons entity entities ih =>
    obtain ⟨hle, hall, hlargest⟩ := ih (lintCollectEntity totals entity)
    have hnext : (lintCollectEntity totals entity).entityMaxSize =
        max totals.entityMaxSize entity.totalLength := rfl
    rw [hnext] at hle hlargest
    refine ⟨(le_max_left _ _).trans hle, ?_, ?_⟩
    · rintro other hother
      obtain rfl | hother := List.mem_cons.mp hother
      · exact (le_max_right _ _).trans hle
      · exact hall other hother
    · obtain hlargest | ⟨other, hother, hlargest⟩ := hlargest
      · obtain hfirst | hfirst := max_choice totals.entityMaxSize entity.totalLength
        · exact .inl (hlargest.trans hfirst)
        · exact .inr ⟨entity, List.mem_cons_self, (hlargest.trans hfirst).symm⟩
      · exact .inr ⟨other, List.mem_cons_of_mem _ hother, hlargest⟩

lemma mem_tableAddr (hkept : FieldsKept fields check.entryState) :
    issue ∈ lintEntryTableAddr check ↔ fields.address = 0 ∧ issue = tableAddrIssue := by
  rw [lintEntryTableAddr, hkept.address]
  split_ifs with haddress <;> simp [haddress]

lemma mem_tableSize (hkept : FieldsKept fields check.entryState)
    (hone : fields.size = none ∨ fields.maxSize = none) :
    issue ∈ lintEntryTableSize check ↔
      (∃ declared, fields.size = some declared ∧ 0 < declared ∧ declared ≠ check.table.length ∧
        issue = tableSizeIssue declared check.table.length) ∨
      ∃ declared, fields.maxSize = some declared ∧ 0 < declared ∧ declared < check.table.length ∧
        issue = tableMaxSizeIssue check.table.length declared := by
  rw [lintEntryTableSize, hkept.size, hkept.maxSize]
  obtain hnone | hnone := hone
  · cases hmax : fields.maxSize with
    | none => simp [hnone]
    | some declared =>
      -- there is no size, so only the largest one is told of
      rw [hnone, Option.getD_none, if_neg fun h => absurd h.1 (lt_irrefl 0), Option.or_none,
        Option.getD_some]
      split_ifs with hless
      · simp [hless.1, hless.2]
      · simp only [List.not_mem_nil, false_and, exists_false, false_or,
          Option.some.injEq, exists_eq_left', false_iff]
        exact fun h => hless ⟨h.1, h.2.1⟩
  · cases hsize : fields.size with
    | none => simp [hnone]
    | some declared =>
      -- the size is the largest one as well, so a table longer than it is of another size
      rw [hnone, Option.none_or, Option.getD_some]
      split_ifs with hother hless
      · simp [hother.1, hother.2]
      · exact absurd ⟨hless.1, hless.2.ne⟩ hother
      · simp only [List.not_mem_nil, false_and, exists_false, or_false,
          Option.some.injEq, exists_eq_left', false_iff]
        exact fun h => hother ⟨h.1, h.2.1⟩

lemma mem_entityCount (hkept : FieldsKept fields check.entryState)
    (hcount : (lintTotals check.lint).entityCount = entities.length) :
    issue ∈ lintEntryEntityCount check.lint ↔
      ∃ declared, fields.entityCount = some declared ∧ 0 < declared ∧
        declared ≠ entities.length ∧ issue = entityCountIssue declared entities.length := by
  have hdeclared : check.lint.entityCount = fields.entityCount.getD 0 := hkept.entityCount
  rw [lintEntryEntityCount, hcount, hdeclared]
  cases hfield : fields.entityCount with
  | none => simp
  | some declared =>
    rw [Option.getD_some]
    split_ifs with hbad
    · simp [hbad.1, hbad.2, entityCountIssue, entryIssue]
    · simp only [List.not_mem_nil, Option.some.injEq, exists_eq_left', false_iff]
      exact fun h => hbad ⟨h.1, h.2.1⟩

lemma mem_entityMaxSize (hkept : FieldsKept fields check.entryState)
    (htotals : lintTotals check.lint =
      entities.foldl lintCollectEntity ⟨0, fun _ => 0, 0, none⟩) :
    issue ∈ lintEntryEntityMaxSize check ↔
      ∃ declared entity, fields.entityMaxSize = some declared ∧ 0 < declared ∧
        entity ∈ entities ∧ (∀ other ∈ entities, other.totalLength ≤ entity.totalLength) ∧
        declared < entity.totalLength ∧ issue = entityMaxSizeIssue entity.totalLength declared := by
  obtain ⟨-, hall, hlargest⟩ := collect_largest entities ⟨0, fun _ => 0, 0, none⟩
  rw [← htotals] at hall hlargest
  simp only [lintEntryEntityMaxSize, hkept.entityMaxSize]
  constructor
  · intro hmem
    split_ifs at hmem with hbad
    · obtain rfl := List.mem_singleton.mp hmem
      obtain hzero | ⟨entity, hentity, htotal⟩ := hlargest
      · simp only [hzero] at hbad
        omega
      · cases hfield : fields.entityMaxSize with
        | none =>
          rw [hfield] at hbad
          exact absurd hbad.1 (lt_irrefl 0)
        | some declared =>
          rw [hfield, Option.getD_some] at hbad
          rw [← htotal] at hbad hall ⊢
          exact ⟨declared, entity, rfl, hbad.1, hentity, hall, hbad.2, rfl⟩
    · cases hmem
  · rintro ⟨declared, entity, hfield, hpos, hentity, hothers, hless, rfl⟩
    have htotal : (lintTotals check.lint).entityMaxSize = entity.totalLength := by
      refine le_antisymm ?_ (hall entity hentity)
      obtain hzero | ⟨other, hother, hlargest⟩ := hlargest
      · exact hzero ▸ Nat.zero_le _
      · exact hlargest ▸ hothers other hother
    rw [hfield, Option.getD_some, htotal, if_pos ⟨hpos, hless⟩]
    exact List.mem_singleton_self _

lemma checkEntry_iff (enabled : String → Bool)
    (hsilent : lintEntryChecksum check = [] ∧ lintEntryLength check = [])
    (hkept : FieldsKept fields check.entryState) (hone : fields.size = none ∨ fields.maxSize = none)
    (htotals : lintTotals check.lint =
      entities.foldl lintCollectEntity ⟨0, fun _ => 0, 0, none⟩) :
    issue ∈ lintCheckEntry enabled check ↔
      enabled issue.rule = true ∧ EntryFault fields check.table.length entities issue := by
  have hcount : (lintTotals check.lint).entityCount = entities.length := by
    rw [htotals, collect_count, Nat.zero_add]
  simp only [lintCheckEntry, lintEntryRules, List.flatMap_cons, List.flatMap_nil, hsilent.1,
    hsilent.2, ite_self, List.nil_append, List.append_nil, List.mem_append,
    List.mem_ite_nil_right, mem_tableAddr hkept, mem_tableSize hkept hone,
    mem_entityCount hkept hcount, mem_entityMaxSize hkept htotals]
  constructor
  · rintro (⟨he, h, rfl⟩ | ⟨he, ⟨_, hfield, hpos, hne, rfl⟩ | ⟨_, hfield, hpos, hlt, rfl⟩⟩ |
      ⟨he, _, hfield, hpos, hne, rfl⟩ |
      ⟨he, _, _, hfield, hpos, hentity, hothers, hless, rfl⟩)
    · exact ⟨he, .address h⟩
    · exact ⟨he, .size hfield hpos hne⟩
    · exact ⟨he, .maxSize hfield hpos hlt⟩
    · exact ⟨he, .entityCount hfield hpos hne⟩
    · exact ⟨he, .entityMaxSize hfield hpos hentity hothers hless⟩
  · rintro ⟨he, hfault⟩
    cases hfault with
    | address h => exact .inl ⟨he, h, rfl⟩
    | size hfield hpos hne => exact .inr (.inl ⟨he, .inl ⟨_, hfield, hpos, hne, rfl⟩⟩)
    | maxSize hfield hpos hlt => exact .inr (.inl ⟨he, .inr ⟨_, hfield, hpos, hlt, rfl⟩⟩)
    | entityCount hfield hpos hne => exact .inr (.inr (.inl ⟨he, _, hfield, hpos, hne, rfl⟩))
    | entityMaxSize hfield hpos hentity hothers hless =>
      exact .inr (.inr (.inr ⟨he, _, _, hfield, hpos, hentity, hothers, hless, rfl⟩))

lemma rule_once (hsilent : lintEntryChecksum check = [] ∧ lintEntryLength check = []) :
    ∀ rule ∈ lintEntryRules, ((rule.check check).map LintIssue.rule).Sublist [rule.code] := by
  simp only [lintEntryRules, List.forall_mem_cons]
  refine ⟨by simp [hsilent.1], by simp [hsilent.2], ?_, ?_, ?_, ?_, by simp⟩
  · rw [lintEntryTableAddr]
    split_ifs
    exacts [.refl _, List.nil_sublist _]
  · rw [lintEntryTableSize]
    split_ifs
    exacts [.refl _, .refl _, List.nil_sublist _]
  · rw [lintEntryEntityCount]
    split_ifs
    exacts [.refl _, List.nil_sublist _]
  · simp only [lintEntryEntityMaxSize]
    split_ifs
    exacts [.refl _, List.nil_sublist _]

lemma checkRules_sublist (enabled : String → Bool) {rules : List LintEntryRule}
    (h : ∀ rule ∈ rules, ((rule.check check).map LintIssue.rule).Sublist [rule.code]) :
    ((rules.flatMap fun rule => if enabled rule.code then rule.check check else []).map
      LintIssue.rule).Sublist (rules.map LintEntryRule.code) := by
  induction rules with
  | nil => exact .slnil
  | cons rule rules ih =>
    rw [List.flatMap_cons, List.map_append, List.map_cons, ← List.singleton_append]
    refine List.Sublist.append ?_ (ih fun other hother => h other (List.mem_cons_of_mem _ hother))
    split_ifs
    · exact h rule List.mem_cons_self
    · exact List.nil_sublist _

lemma dmiOpen_kept {strict : Bool} {readStructures : ReadStructures} {source : EntrySource}
    {table : Buffer} {state : ContextState} (context : Context)
    (h : dmiOpen strict readStructures source table = some state) :
    ∃ fields, EntryOpened source fields ∧ FieldsKept fields state.entryState ∧
      (fields.size = none ∨ fields.maxSize = none) ∧
      lintEntryChecksum ⟨state, context⟩ = [] ∧ lintEntryLength ⟨state, context⟩ = [] := by
  obtain ⟨entry, entryState, hread, hentry, -, hstate, -⟩ := dmiOpen_some h
  cases source with
  | version major minor revision =>
    obtain ⟨rfl, rfl⟩ := Prod.mk.inj (Option.some.inj hread)
    refine ⟨_, .version, ?_, .inl rfl, without_silent hentry (by rw [hstate]; rfl)⟩
    rw [hstate]
    exact ⟨rfl, rfl, rfl, rfl, rfl⟩
  | data bytes =>
    obtain ⟨rfl, format, haccepted, hkept⟩ := openReadEntry_kept hread
    have hkept : EntryKept format bytes state.entryState := hstate ▸ hkept _
    refine ⟨_, .data haccepted, hkept.kept, ?_, accepted_silent hentry haccepted hkept⟩
    cases format
    exacts [.inl rfl, .inr rfl, .inr rfl]

lemma dmiOpen_checked (enabled : String → Bool) (context : Context) {strict : Bool}
    {readStructures : ReadStructures} {source : EntrySource} {table : Buffer}
    {state : ContextState} (h : dmiOpen strict readStructures source table = some state) :
    ∃ fields, EntryOpened source fields ∧
      ∀ issue, issue ∈ lintCheckEntry enabled ⟨state, context⟩ ↔
        enabled issue.rule = true ∧ EntryFault fields table.length
          (tableWalk table (fields.entityCount.getD 0)).entities issue := by
  obtain ⟨fields, hfields, hkept, hone, hsilent⟩ := dmiOpen_kept context h
  obtain ⟨_, entryState, -, -, htable, hstate, -, hscan, -⟩ := dmiOpen_some h
  obtain ⟨hvalid, hentities, -⟩ := registryScan_walk hscan
  have hcount : entryState.entityCount = fields.entityCount.getD 0 := by
    rw [← hkept.entityCount, hstate]
  refine ⟨fields, hfields, fun issue => ?_⟩
  rw [← hcount, ← hentities, ← htable]
  refine checkEntry_iff enabled hsilent hkept hone ?_
  rw [lintTotals, lintCollect, EntryLint.lint, registryEntities_eq hvalid]

/-- The rules of the entry point which are enabled report, each at most once and in their order,
just where the table which has been read is not what the entry point tells of it. Nothing is ever
reported of its own sum and length, as no context is opened with an entry point where they are
wrong. -/
theorem entry_lint_exact (enabled : String → Bool) (context : Context) {strict : Bool}
    {readStructures : ReadStructures} {source : EntrySource} {table : Buffer}
    {state : ContextState} (hopen : dmiOpen strict readStructures source table = some state) :
    ((lintCheckEntry enabled ⟨state, context⟩).map LintIssue.rule).Sublist
        (lintEntryRules.map LintEntryRule.code) ∧
      ∃ fields, EntryOpened source fields ∧
        ∀ issue, issue ∈ lintCheckEntry enabled ⟨state, context⟩ ↔
          enabled issue.rule = true ∧ EntryFault fields table.length
            (tableWalk table (fields.entityCount.getD 0)).entities issue := by
  obtain ⟨_, -, -, -, hsilent⟩ := dmiOpen_kept context hopen
  exact ⟨checkRules_sublist enabled (rule_once hsilent), dmiOpen_checked enabled context hopen⟩

def legacyEntry : List Byte := [95, 68, 77, 73, 95, 64, 6, 0, 0, 0, 0, 0, 2, 0, 32]

theorem entry_lint_exact_legacy : ∃ state,
    dmiOpen false (fun _ _ _ _ => true) (.data legacyEntry) endedTable = some state ∧
      ((lintCheckEntry (fun _ => true) ⟨state, sampleContext⟩).map LintIssue.rule).Sublist
        (lintEntryRules.map LintEntryRule.code) ∧
      ∃ fields, EntryOpened (.data legacyEntry) fields ∧
        ∀ issue, issue ∈ lintCheckEntry (fun _ => true) ⟨state, sampleContext⟩ ↔
          true = true ∧ EntryFault fields endedTable.length
            (tableWalk endedTable (fields.entityCount.getD 0)).entities issue := by
  have h : (dmiOpen false (fun _ _ _ _ => true) (.data legacyEntry) endedTable).isSome := by decide
  obtain ⟨state, hopen⟩ := Option.isSome_iff_exists.mp h
  exact ⟨state, hopen, entry_lint_exact (fun _ => true) sampleContext hopen⟩

example : (dmiOpen false (fun _ _ _ _ => true) (.data legacyEntry) endedTable).map (fun state =>
    (lintCheckEntry (fun _ => true) ⟨state, sampleContext⟩).map LintIssue.rule) =
      some ["entry.table-address", "entry.table-size"] := by decide

theorem without_entry_reported (enabled : String → Bool) (context : Context) {strict : Bool}
    {readStructures : ReadStructures} {major minor revision : ℕ} {table : Buffer}
    {state : ContextState}
    (hopen : dmiOpen strict readStructures (.version major minor revision) table = some state) :
    lintCheckEntry enabled ⟨state, context⟩ =
      if enabled "entry.table-address" then [tableAddrIssue] else [] := by
  obtain ⟨entry, entryState, hread, hentry, -, hstate, -⟩ := dmiOpen_some hopen
  obtain ⟨rfl, rfl⟩ := Prod.mk.inj (Option.some.inj hread)
  obtain ⟨hchecksum, hlength⟩ := @without_silent ⟨state, context⟩ hentry (by rw [hstate]; rfl)
  simp [lintCheckEntry, lintEntryRules, hchecksum, hlength, lintEntryTableAddr,
    lintEntryTableSize, lintEntryEntityCount, lintEntryEntityMaxSize, EntryLint.lint, hstate,
    EntryState.initial]

end Exact

end OpenDmi

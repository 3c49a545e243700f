import OpenDmi.Lint
import OpenDmi.TableWalk

/-! The rules of the table as a whole: where it stops being read, and how many structures it
holds. -/

namespace OpenDmi

open Bytes

inductive LintTableStop
  | none
  | zeroLength (offset : ℕ)
  | shortLength (offset : ℕ)
  deriving DecidableEq

def lintTableEnd (lint : Lint) : ℕ :=
  (registryEntities lint.registry).foldl (fun offset entity =>
    match lintEntityOffset lint.table entity with
    | .none => offset
    | some start => max offset (start + entity.totalLength)) 0

def lintTableFindStop (lint : Lint) : LintTableStop :=
  let data := lint.table.data
  match (lintTotals lint).terminator with
  | some terminator => match lintEntityOffset lint.table terminator with
    | .none => .none
    | some offset =>
      if data.length < offset ∨ byteAt data (offset + 1) ≠ 0 ∨
          byteAt data offset = typeEndOfTable then .none
      else if (data.drop (offset + headerSize)).any (· != 0) then .zeroLength offset
      else .none
  | .none =>
    let offset := lintTableEnd lint
    if data.length - offset < headerSize then .none
    else if byteAt data (offset + 1) = 0 ∨ headerSize ≤ byteAt data (offset + 1) then .none
    else .shortLength offset

def lintTableTruncated (lint : Lint) : List LintIssue :=
  match lintTableFindStop lint with
  | .shortLength _ => []
  | _ => if lint.registry.status.truncated then
      [lintIssue "table.truncated" none none none "table ends in the middle of a structure" []]
    else []

def lintTableTerminator (lint : Lint) : List LintIssue :=
  match (lintTotals lint).terminator with
  | some _ => []
  | none => [lintIssue "table.terminator" none none none "table has no end-of-table structure" []]

def lintTableTrailingData (lint : Lint) : List LintIssue :=
  match (lintTotals lint).terminator with
  | none => []
  | some terminator => match lintTableFindStop lint with
    | .zeroLength _ => []
    | _ => match lintEntityOffset lint.table terminator with
      | none => []
      | some offset =>
        let stop := offset + terminator.totalLength
        let size := lint.table.length
        if stop < size then
          [lintIssue "table.trailing-data" none none (some stop)
            "table has %zu bytes past the end-of-table structure" [.number (size - stop)]]
        else []

def lintTableInvalidHeader (lint : Lint) : List LintIssue :=
  let data := lint.table.data
  match lintTableFindStop lint with
  | .zeroLength offset =>
    [lintIssue "table.invalid-header" none none (some offset)
      "header of type %u and of no length is taken for the end of the table, while %zu bytes of the table follow it"
      [.number (byteAt data offset), .number (data.length - offset - headerSize)]]
  | .shortLength offset =>
    [lintIssue "table.invalid-header" none none (some offset)
      "header of type %u declares a length of %u bytes, shorter than the header, so the %zu bytes of the table from it on cannot be read"
      [.number (byteAt data offset), .number (byteAt data (offset + 1)),
        .number (data.length - offset)]]
  | .none => []

def lintEntryEntityCount (lint : Lint) : List LintIssue :=
  if 0 < lint.entityCount ∧ lint.entityCount ≠ (lintTotals lint).entityCount then
    [lintIssue "entry.entity-count" none (some "entity-count") (some 0)
      "entry point declares %zu structures, but the table has %zu"
      [.number lint.entityCount, .number (lintTotals lint).entityCount]]
  else []

def ZeroLengthHeader (data : List Byte) (offset : ℕ) : Prop :=
  byteAt data (offset + 1) = 0 ∧ byteAt data offset ≠ typeEndOfTable ∧
    ∃ i, offset + headerSize ≤ i ∧ byteAt data i ≠ 0

def ShortLengthHeader (data : List Byte) (offset : ℕ) : Prop :=
  offset + headerSize ≤ data.length ∧ 1 ≤ byteAt data (offset + 1) ∧ byteAt data (offset + 1) ≤ 3

def StoppedByHeader (data : List Byte) (walk : TableWalk) : Prop :=
  walk.exit = .shortLength ∨ walk.exit = .endOfTable ∧ ZeroLengthHeader data walk.stop

structure TableLintAgrees (lint : Lint) (walk : TableWalk) : Prop where
  invalidHeader : ∀ offset, (∃ issue ∈ lintTableInvalidHeader lint, issue.offset = some offset) ↔
    StoppedByHeader lint.table.data walk ∧ walk.stop = offset
  truncated : lintTableTruncated lint ≠ [] ↔ walk.exit ≠ .endOfTable ∧ walk.exit ≠ .declared ∧
    ¬ StoppedByHeader lint.table.data walk
  exclusive : ¬ (lintTableInvalidHeader lint ≠ [] ∧ lintTableTruncated lint ≠ [])
  trailingData : lintTableTrailingData lint ≠ [] ↔
    walk.exit = .endOfTable ∧ ¬ StoppedByHeader lint.table.data walk ∧
      ∃ last, walk.entities.getLast? = some last ∧
        last.offset + last.totalLength < lint.table.length

variable {lint : Lint} {walk : TableWalk} {start stop : ℕ} {entity : Entity}
  {entities : List Entity}

structure Scans (lint : Lint) (walk : TableWalk) : Prop where
  valid : lint.registry.Valid
  table : lint.registry.table = walk.entities
  truncated : lint.registry.status.truncated = walk.exit.isTruncated
  stops : WalkStops lint.table lint.entityCount 0 0 walk.entities walk.stop walk.exit

lemma scans_of_registryScan {context : Context} {strict : Bool} {table : Buffer}
    {entityCount capacity : ℕ} {registry : Registry}
    (h : registryScan strict table entityCount (registryCreate capacity) = some (true, registry)) :
    Scans ⟨context, table, entityCount, registry⟩ (tableWalk table entityCount) := by
  obtain ⟨hvalid, htable, htruncated⟩ := registryScan_walk h
  exact ⟨hvalid, htable, htruncated, tableWalk_stops table entityCount⟩

lemma entityOffset_of (h : EntityOf lint.table entity) :
    lintEntityOffset lint.table entity = some entity.offset := by
  rw [lintEntityOffset, if_neg (not_not.mpr h.buffer)]

lemma tiles_end (h : Tiles lint.table start entities stop) :
    entities.foldl (fun offset entity => match lintEntityOffset lint.table entity with
      | .none => offset
      | some place => max offset (place + entity.totalLength)) start = stop := by
  induction h with
  | nil => rfl
  | @cons offset stop entity entities ho hof _ ih =>
    rw [List.foldl_cons, entityOffset_of hof]
    simp only
    rwa [ho, Nat.max_eq_right (Nat.le_add_right _ _)]

lemma Scans.tableEnd (h : Scans lint walk) (ht : Tiles lint.table 0 walk.entities walk.stop) :
    lintTableEnd lint = walk.stop := by
  rw [lintTableEnd, registryEntities_eq h.valid, h.table]
  exact tiles_end ht

lemma byteAt_lt {data : List Byte} {i : ℕ} (h : byteAt data i ≠ 0) : i < data.length := by
  by_contra hout
  exact h (by simp [byteAt, List.getD_eq_getElem?_getD, List.getElem?_eq_none (not_lt.mp hout)])

lemma drop_any_iff {data : List Byte} {offset : ℕ} :
    (data.drop offset).any (· != 0) = true ↔ ∃ i, offset ≤ i ∧ byteAt data i ≠ 0 := by
  simp only [List.any_eq_true, bne_iff_ne, ne_eq]
  constructor
  · rintro ⟨b, hb, hne⟩
    obtain ⟨i, hi⟩ := List.mem_iff_getElem?.mp hb
    rw [List.getElem?_drop] at hi
    refine ⟨offset + i, Nat.le_add_right _ _, fun hz => hne ?_⟩
    rw [byteAt, List.getD_eq_getElem?_getD, hi, Option.getD_some] at hz
    exact UInt8.toNat_inj.mp hz
  · rintro ⟨i, hi, hne⟩
    have hlt := byteAt_lt hne
    refine ⟨data[i], ?_, fun hz => hne ?_⟩
    · rw [List.mem_iff_getElem?]
      exact ⟨i - offset, by rw [List.getElem?_drop, Nat.add_sub_cancel' hi]; simp [hlt]⟩
    · simp [byteAt, List.getD_eq_getElem?_getD, hlt, hz]

structure EndsWith (lint : Lint) (walk : TableWalk) (last : Entity) : Prop where
  terminator : (lintTotals lint).terminator = some last
  place : lintEntityOffset lint.table last = some walk.stop
  offset : last.offset = walk.stop
  whole : EntityOf lint.table last
  last : walk.entities.getLast? = some last

lemma Scans.endsWith (h : Scans lint walk) (hexit : walk.exit = .endOfTable) :
    ∃ last, EndsWith lint walk last := by
  have hstops := h.stops
  rw [hexit] at hstops
  cases hstops with
  | @endOfTable before last tiles running found place whole type =>
    refine ⟨last, ?_, by rw [entityOffset_of whole, place], place, whole, by rw [found]; simp⟩
    have hbefore : before.find? (fun entity => entity.typeId == typeEndOfTable) = none := by
      simpa using running
    rw [lintTotals, lintCollect_terminator h.valid, h.table, found, List.find?_append, hbefore]
    simp [type]

lemma Scans.unended (h : Scans lint walk) (hexit : walk.exit ≠ .endOfTable) :
    (lintTotals lint).terminator = none ∧ lintTableEnd lint = walk.stop := by
  have hnone : (∀ entity ∈ walk.entities, entity.typeId ≠ typeEndOfTable) →
      (lintTotals lint).terminator = none := by
    intro hrun
    rw [lintTotals, lintCollect_terminator h.valid, h.table]
    simpa using hrun
  have hstops := h.stops
  generalize walk.exit = exit at hstops hexit
  cases hstops with
  | endOfTable => exact absurd rfl hexit
  | declared tiles _ running => exact ⟨hnone running, h.tableEnd tiles⟩
  | noRoom tiles _ running => exact ⟨hnone running, h.tableEnd tiles⟩
  | shortLength tiles _ running => exact ⟨hnone running, h.tableEnd tiles⟩
  | cut tiles _ running => exact ⟨hnone running, h.tableEnd tiles⟩

lemma Scans.findStop_ended (h : Scans lint walk) (hexit : walk.exit = .endOfTable) :
    (ZeroLengthHeader lint.table.data walk.stop →
      lintTableFindStop lint = .zeroLength walk.stop) ∧
    (¬ ZeroLengthHeader lint.table.data walk.stop → lintTableFindStop lint = .none) := by
  obtain ⟨last, hlast⟩ := h.endsWith hexit
  have hinside : ¬ lint.table.data.length < walk.stop := by
    have hroom := hlast.whole.whole.header
    rw [hlast.offset] at hroom
    omega
  simp only [lintTableFindStop, hlast.terminator, hlast.place]
  constructor
  · rintro ⟨hzero, htype, hdata⟩
    rw [if_neg (by tauto), if_pos (drop_any_iff.mpr hdata)]
  · intro hnot
    split_ifs with hheader hdata
    · rfl
    · refine absurd ⟨?_, ?_, drop_any_iff.mp hdata⟩ hnot <;> tauto
    · rfl

lemma Scans.findStop_unended (h : Scans lint walk) (hexit : walk.exit ≠ .endOfTable) :
    (ShortLengthHeader lint.table.data walk.stop →
      lintTableFindStop lint = .shortLength walk.stop) ∧
    (¬ ShortLengthHeader lint.table.data walk.stop → lintTableFindStop lint = .none) := by
  obtain ⟨hnone, hend⟩ := h.unended hexit
  simp only [lintTableFindStop, hnone, hend, ShortLengthHeader]
  have hheader : headerSize = 4 := rfl
  constructor
  · rintro ⟨hroom, hshort⟩
    rw [if_neg (by omega), if_neg (by omega)]
  · intro hnot
    split_ifs with hroom hlength
    · rfl
    · rfl
    · exact absurd ⟨by omega, by omega, by omega⟩ hnot

lemma trailing_ended {last : Entity} (hlast : EndsWith lint walk last) :
    lintTableTrailingData lint ≠ [] ↔ (∀ offset, lintTableFindStop lint ≠ .zeroLength offset) ∧
      walk.stop + last.totalLength < lint.table.length := by
  simp only [lintTableTrailingData, hlast.terminator, hlast.place]
  cases lintTableFindStop lint with
  | zeroLength offset => simp
  | none => simp
  | shortLength offset => simp

lemma trailing_unended (h : (lintTotals lint).terminator = none) :
    lintTableTrailingData lint = [] := by
  rw [lintTableTrailingData, h]

lemma Scans.agrees_ended (h : Scans lint walk) (hexit : walk.exit = .endOfTable) :
    TableLintAgrees lint walk := by
  obtain ⟨last, hlast⟩ := h.endsWith hexit
  obtain ⟨hbad, hproper⟩ := h.findStop_ended hexit
  have hstatus : lint.registry.status.truncated = false := by rw [h.truncated, hexit]; rfl
  have hstopped : StoppedByHeader lint.table.data walk ↔
      ZeroLengthHeader lint.table.data walk.stop := by simp [StoppedByHeader, hexit]
  have hquiet : lintTableTruncated lint = [] := by
    rw [lintTableTruncated, hstatus]
    cases lintTableFindStop lint <;> rfl
  have htrailing : (∃ final, walk.entities.getLast? = some final ∧
      final.offset + final.totalLength < lint.table.length) ↔
        walk.stop + last.totalLength < lint.table.length := by
    simp [hlast.last, hlast.offset]
  by_cases hzero : ZeroLengthHeader lint.table.data walk.stop
  · have hfind := hbad hzero
    refine ⟨fun offset => ?_, ?_, ?_, ?_⟩
    · simp [lintTableInvalidHeader, hfind, lintIssue, hstopped, hzero]
    · simp [hquiet, hexit]
    · simp [hquiet]
    · simp [trailing_ended hlast, hfind, hstopped, hzero]
  · have hfind := hproper hzero
    refine ⟨fun offset => ?_, ?_, ?_, ?_⟩
    · simp [lintTableInvalidHeader, hfind, hstopped, hzero]
    · simp [hquiet, hexit]
    · simp [hquiet]
    · rw [trailing_ended hlast, hstopped, htrailing]
      simp [hfind, hzero, hexit]

lemma Scans.agrees_unended (h : Scans lint walk) (hexit : walk.exit ≠ .endOfTable) :
    TableLintAgrees lint walk ↔ ¬ ((walk.exit = .declared ∨ walk.exit = .noRoom) ∧
      ShortLengthHeader lint.table.data walk.stop) := by
  obtain ⟨hbad, hgood⟩ := h.findStop_unended hexit
  have htrailing := trailing_unended (h.unended hexit).1
  have hstopped : StoppedByHeader lint.table.data walk ↔ walk.exit = .shortLength := by
    simp [StoppedByHeader, hexit]
  have hshort : walk.exit = .shortLength → ShortLengthHeader lint.table.data walk.stop := by
    intro he
    have hstops := h.stops
    rw [he] at hstops
    cases hstops with
    | shortLength _ _ _ room length => exact ⟨by omega, length⟩
  have hcut : walk.exit = .cut → ¬ ShortLengthHeader lint.table.data walk.stop := by
    intro he hheader
    have hstops := h.stops
    rw [he] at hstops
    cases hstops with
    | cut _ _ _ _ length => exact length hheader.2
  by_cases hheader : ShortLengthHeader lint.table.data walk.stop
  · have hfind := hbad hheader
    have hquiet : lintTableTruncated lint = [] := by rw [lintTableTruncated, hfind]
    constructor
    · rintro hagrees ⟨hother, -⟩
      obtain ⟨he, -⟩ := (hagrees.invalidHeader walk.stop).mp
        (by simp [lintTableInvalidHeader, hfind, lintIssue])
      rw [hstopped] at he
      simp [he] at hother
    · intro hcond
      have he : walk.exit = .shortLength := by
        cases hx : walk.exit with
        | shortLength => rfl
        | endOfTable => exact absurd hx hexit
        | declared => exact absurd ⟨.inl hx, hheader⟩ hcond
        | noRoom => exact absurd ⟨.inr hx, hheader⟩ hcond
        | cut => exact absurd hheader (hcut hx)
      refine ⟨fun offset => ?_, ?_, ?_, ?_⟩
      · simp [lintTableInvalidHeader, hfind, lintIssue, hstopped, he]
      · simp [hquiet, hstopped, he]
      · simp [hquiet]
      · simp [htrailing, he]
  · have hfind := hgood hheader
    have he : walk.exit ≠ .shortLength := fun hx => hheader (hshort hx)
    have hreported : lintTableTruncated lint ≠ [] ↔ walk.exit ≠ .declared := by
      rw [lintTableTruncated, hfind, h.truncated]
      cases hx : walk.exit with
      | endOfTable => exact absurd hx hexit
      | shortLength => exact absurd hx he
      | declared => simp [WalkExit.isTruncated]
      | noRoom => simp [WalkExit.isTruncated]
      | cut => simp [WalkExit.isTruncated]
    refine ⟨fun _ hcond => hheader hcond.2, fun _ => ⟨fun offset => ?_, ?_, ?_, ?_⟩⟩
    · simp [lintTableInvalidHeader, hfind, hstopped, he]
    · rw [hreported, hstopped]
      simp [hexit, he]
    · simp [lintTableInvalidHeader, hfind]
    · simp [htrailing, hexit]

theorem table_lint_agrees_iff (context : Context) (strict : Bool) (table : Buffer)
    (entityCount capacity : ℕ) :
    ∃ success registry,
      registryScan strict table entityCount (registryCreate capacity) = some (success, registry) ∧
      (success = true →
        (TableLintAgrees ⟨context, table, entityCount, registry⟩ (tableWalk table entityCount) ↔
          ¬ (((tableWalk table entityCount).exit = .declared ∨
              (tableWalk table entityCount).exit = .noRoom) ∧
            ShortLengthHeader table.data (tableWalk table entityCount).stop))) := by
  obtain ⟨success, registry, hscan, -⟩ := registryScan_spec strict table entityCount capacity
  refine ⟨success, registry, hscan, ?_⟩
  rintro rfl
  have h : Scans ⟨context, table, entityCount, registry⟩ (tableWalk table entityCount) :=
    scans_of_registryScan hscan
  by_cases hexit : (tableWalk table entityCount).exit = .endOfTable
  · refine iff_of_true (h.agrees_ended hexit) ?_
    simp [hexit]
  · exact h.agrees_unended hexit

def shortTable : Buffer := ⟨0, [200, 4, 1, 0, 0, 0, 200, 2, 0, 0]⟩

theorem declared_count_blamed_on_header : ∃ registry,
    registryScan false shortTable 1 (registryCreate 0) = some (true, registry) ∧
    (tableWalk shortTable 1).exit = .declared ∧
    (∃ issue ∈ lintTableInvalidHeader ⟨sampleContext, shortTable, 1, registry⟩,
      issue.offset = some 6) ∧
    ¬ TableLintAgrees ⟨sampleContext, shortTable, 1, registry⟩ (tableWalk shortTable 1) := by
  obtain ⟨registry, hscan⟩ := registryScan_relaxed shortTable 1 0
  have h : Scans ⟨sampleContext, shortTable, 1, registry⟩ (tableWalk shortTable 1) :=
    scans_of_registryScan hscan
  have hexit : (tableWalk shortTable 1).exit = .declared := by decide
  have hstop : (tableWalk shortTable 1).stop = 6 := by decide
  have hheader : ShortLengthHeader shortTable.data (tableWalk shortTable 1).stop := by
    rw [hstop]
    exact ⟨by decide, by decide, by decide⟩
  have hended : (tableWalk shortTable 1).exit ≠ .endOfTable := by simp [hexit]
  have hfind := (h.findStop_unended hended).1 hheader
  refine ⟨registry, hscan, hexit, ?_, fun hagrees => ?_⟩
  · simp [lintTableInvalidHeader, hfind, lintIssue, hstop]
  · exact (h.agrees_unended hended).mp hagrees ⟨.inl hexit, hheader⟩

structure CountLintAgrees (lint : Lint) : Prop where
  entityCount : lintEntryEntityCount lint ≠ [] ↔
    (tableWalk lint.table 0).entities.length ≠ lint.entityCount
  terminator : lintTableTerminator lint ≠ [] ↔ (tableWalk lint.table 0).exit ≠ .endOfTable

lemma Scans.terminator_iff (h : Scans lint walk) :
    lintTableTerminator lint ≠ [] ↔ walk.exit ≠ .endOfTable := by
  by_cases hexit : walk.exit = .endOfTable
  · obtain ⟨last, hlast⟩ := h.endsWith hexit
    simp [lintTableTerminator, hlast.terminator, hexit]
  · simp [lintTableTerminator, (h.unended hexit).1, hexit]

lemma Scans.count_iff (h : Scans lint walk) (hdeclared : 0 < lint.entityCount) :
    lintEntryEntityCount lint ≠ [] ↔ walk.entities.length ≠ lint.entityCount := by
  have htotal : (lintTotals lint).entityCount = walk.entities.length := by
    rw [lintTotals, lintCollect_count h.valid, h.table]
  simp only [lintEntryEntityCount, htotal]
  split_ifs with hne
  · simp [Ne.symm hne.2]
  · simp only [ne_eq, not_true_eq_false, false_iff, not_not]
    omega

lemma countLintAgrees_iff (h : Scans lint (tableWalk lint.table lint.entityCount))
    (hdeclared : 0 < lint.entityCount) :
    CountLintAgrees lint ↔ (tableWalk lint.table 0).entities.length ≤ lint.entityCount := by
  obtain ⟨htake, hexit⟩ := tableWalk_take lint.table hdeclared.ne'
  have hlength : (tableWalk lint.table lint.entityCount).entities.length =
      min lint.entityCount (tableWalk lint.table 0).entities.length := by
    rw [htake, List.length_take]
  constructor
  · intro hagrees
    by_contra hmore
    have hreported := hagrees.entityCount.mpr (by omega)
    rw [h.count_iff hdeclared] at hreported
    omega
  · intro hle
    refine ⟨?_, ?_⟩
    · rw [h.count_iff hdeclared]
      omega
    · rw [h.terminator_iff, ne_eq, hexit hle]

theorem count_lint_agrees_iff (context : Context) (strict : Bool) (table : Buffer)
    (entityCount capacity : ℕ) (hdeclared : 0 < entityCount) :
    ∃ success registry,
      registryScan strict table entityCount (registryCreate capacity) = some (success, registry) ∧
      (success = true → (CountLintAgrees ⟨context, table, entityCount, registry⟩ ↔
        (tableWalk table 0).entities.length ≤ entityCount)) := by
  obtain ⟨success, registry, hscan, -⟩ := registryScan_spec strict table entityCount capacity
  refine ⟨success, registry, hscan, ?_⟩
  rintro rfl
  exact countLintAgrees_iff (scans_of_registryScan hscan) hdeclared

def endedTable : Buffer := ⟨0, [200, 4, 1, 0, 0, 0, 127, 4, 2, 0, 0, 0]⟩

theorem count_lint_agrees_iff_ended : ∃ success registry,
    registryScan false endedTable 2 (registryCreate 0) = some (success, registry) ∧
    (success = true → (CountLintAgrees ⟨sampleContext, endedTable, 2, registry⟩ ↔
      (tableWalk endedTable 0).entities.length ≤ 2)) :=
  count_lint_agrees_iff sampleContext false endedTable 2 0 (by decide)

theorem declared_count_hides_structures : ∃ registry,
    registryScan false endedTable 1 (registryCreate 0) = some (true, registry) ∧
    (tableWalk endedTable 0).entities.length = 2 ∧ (tableWalk endedTable 0).exit = .endOfTable ∧
    lintEntryEntityCount ⟨sampleContext, endedTable, 1, registry⟩ = [] ∧
    lintTableTerminator ⟨sampleContext, endedTable, 1, registry⟩ ≠ [] ∧
    ¬ CountLintAgrees ⟨sampleContext, endedTable, 1, registry⟩ := by
  obtain ⟨registry, hscan⟩ := registryScan_relaxed endedTable 1 0
  have h : Scans ⟨sampleContext, endedTable, 1, registry⟩ (tableWalk endedTable 1) :=
    scans_of_registryScan hscan
  have hlength : (tableWalk endedTable 1).entities.length = 1 := by decide
  have hexit : (tableWalk endedTable 1).exit = .declared := by decide
  have hall : (tableWalk endedTable 0).entities.length = 2 := by decide
  refine ⟨registry, hscan, hall, by decide, ?_, ?_, fun hagrees => ?_⟩
  · by_contra hreported
    exact (h.count_iff (by decide : 0 < 1)).mp hreported hlength
  · exact h.terminator_iff.mpr (by simp [hexit])
  · have hle : (tableWalk endedTable 0).entities.length ≤ 1 :=
      (countLintAgrees_iff h (by decide : 0 < 1)).mp hagrees
    omega

end OpenDmi

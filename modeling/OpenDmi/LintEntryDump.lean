import OpenDmi.LintEntry

namespace OpenDmi

open Bytes

variable {format : EntryFormat} {data bytes entry : List Byte} {fields : EntryFields}
  {entities : List Entity} {issue : LintIssue} {size field offset checksum covered length : ℕ}

lemma loadAt_relocateWith {m value : ℕ} (hmax : data.length ≤ entryMaxSize)
    (hl : length ≤ entryMaxSize) (hfield : field + m ≤ length)
    (hs : field + m ≤ offset + checksum ∨ offset + checksum < field)
    (hc : offset + checksum < entryMaxSize) :
    loadAt (relocateWith data field (leStore m value) offset checksum covered length) field m =
      value % 256 ^ m := by
  have hfits : field + (leStore m value).length ≤ entryMaxSize := by
    rw [leStore_length]
    omega
  have hwindow : window (patch (entryPad data) field (leStore m value)) field m =
      leStore m value := by
    have hpatch := window_patch (by rwa [entryPad_length hmax] :
      field + (leStore m value).length ≤ (entryPad data).length)
    rwa [leStore_length] at hpatch
  rw [loadAt, relocateWith, window_finish (checked_length hmax hfits hc) hl hfield,
    window_entrySetChecksum (by rwa [patched_length hmax hfits]) hs, hwindow, leLoad_leStore]

lemma fields_relocate {state result : EntryState} (haccepts : format.accepts data = true)
    (h : format.decode state data = some result) (hmax : data.length ≤ entryMaxSize) :
    format.fields (dumpEntryRelocate format data) =
      { format.fields data with address := entryMaxSize } := by
  have hlong := accepts_length haccepts
  have hm : entryMaxSize = 32 := rfl
  cases format with
  | v30 =>
    obtain ⟨hmin, hle⟩ := entryDecodeV30_length h
    have hfield : 16 + (leStore 8 entryMaxSize).length ≤ entryMaxSize := by simp [entryMaxSize]
    have hkept : loadAt (relocateWith data 16 (leStore 8 entryMaxSize) 0 5 (loadAt data 6 1)
        (loadAt data 6 1)) 12 4 = loadAt data 12 4 := by
      rw [loadAt, window_relocateWith hmax hfield (by decide) (by omega) (by omega) (by omega)
        (by omega), window_entryPad (by omega), loadAt]
    rw [dumpEntryRelocate_v30 (by omega), EntryFormat.fields, hkept,
      loadAt_relocateWith hmax (by omega) (by omega) (by omega) (by decide)]
    rfl
  | v21 =>
    obtain ⟨hmin, hle, -⟩ := entryDecodeV21_length h
    have hv : v21Size = 31 := rfl
    have hkept : ∀ a n, a + n ≤ 30 → a + n ≤ 21 ∨ 28 ≤ a ∨ 22 ≤ a ∧ a + n ≤ 24 →
        loadAt (relocateV21 data) a n = loadAt data a n := by
      intro a n hn hd
      rw [loadAt, relocateV21, window_relocateWith hmax (by simp [entryMaxSize]) (by decide)
        (by omega) (by omega) (by simp; omega) (by simp only [iepsOffset]; omega),
        window_entryPad (by omega), loadAt]
    rw [dumpEntryRelocate_v21 (by omega), EntryFormat.fields, hkept 22 2 (by omega) (by omega),
      hkept 28 2 (by omega) (by omega), hkept 8 2 (by omega) (by omega), relocateV21,
      loadAt_relocateWith hmax (by omega) (by omega) (by simp only [iepsOffset]; omega)
        (by decide)]
    rfl
  | legacy =>
    have hl : 15 ≤ data.length := hlong
    have hrelocate : dumpEntryRelocate .legacy data =
        relocateWith data 8 (leStore 4 entryMaxSize) 0 5 legacySize legacySize := rfl
    have hsize : legacySize = 15 := rfl
    have hkept : ∀ a n, a + n ≤ 15 → 6 ≤ a ∧ a + n ≤ 8 ∨ 12 ≤ a →
        loadAt (dumpEntryRelocate .legacy data) a n = loadAt data a n := by
      intro a n hn hd
      rw [loadAt, hrelocate, window_relocateWith hmax (by simp [entryMaxSize]) (by decide)
        (by decide) (by omega) (by simp; omega) (by omega), window_entryPad (by omega), loadAt]
    rw [EntryFormat.fields, hkept 6 2 (by omega) (by omega), hkept 12 2 (by omega) (by omega),
      hrelocate, loadAt_relocateWith hmax (by decide) (by decide) (by omega) (by decide)]
    rfl

lemma fields_generate {version tableLength : ℕ}
    (h : dumpEntryGenerate version tableLength = some entry) :
    EntryFormat.v30.fields entry =
      ⟨entryMaxSize, none, some tableLength, none, none⟩ := by
  obtain ⟨hlength, hentry⟩ := Option.ite_none_left_eq_some.mp h
  generalize hbytes : EntryFormat.v30.spec.anchor ++ [0] ++ leStore 1 v30Size ++
      leStore 1 (versionMajor version) ++ leStore 1 (versionMinor version) ++
      leStore 1 (versionRevision version) ++ leStore 1 1 ++ [0] ++ leStore 4 tableLength ++
      leStore 8 entryMaxSize ++ zeros (entryMaxSize - v30Size) = bytes at hentry
  have hlen : bytes.length = 32 := by
    rw [← hbytes]
    simp [EntryFormat.spec, zeros, entryMaxSize, v30Size]
  cases hentry
  have hload : ∀ a n, 5 < a →
      loadAt (entrySetChecksum bytes 0 5 v30Size) a n = loadAt bytes a n := fun a n hd => by
    rw [loadAt, window_entrySetChecksum (by omega) (.inr (by omega)), loadAt]
  have haddress : loadAt bytes 16 8 = leLoad (leStore 8 entryMaxSize) := by
    rw [← hbytes]
    rfl
  have hsize : loadAt bytes 12 4 = leLoad (leStore 4 tableLength) := by
    rw [← hbytes]
    rfl
  rw [EntryFormat.fields, hload 16 8 (by omega), hload 12 4 (by omega), haddress, hsize,
    leLoad_leStore, leLoad_leStore, Nat.mod_eq_of_lt (by omega : tableLength < 256 ^ 4)]
  rfl

inductive FieldsSaved (size : ℕ) : EntryFields → EntryFields → Prop
  | generated : FieldsSaved size ⟨0, none, none, none, none⟩
      ⟨entryMaxSize, none, some size, none, none⟩
  | relocated {fields : EntryFields} :
      FieldsSaved size fields { fields with address := entryMaxSize }

lemma ne_tableAddrIssue (h : issue.rule ≠ tableAddrIssue.rule) : issue ≠ tableAddrIssue :=
  fun heq => h (congrArg LintIssue.rule heq)

lemma FieldsSaved.fault_iff {saved : EntryFields} (h : FieldsSaved size fields saved) :
    EntryFault saved size entities issue ↔
      EntryFault fields size entities issue ∧ issue ≠ tableAddrIssue := by
  have hsize : "entry.table-size" ≠ "entry.table-address" := by decide
  have hcount : "entry.entity-count" ≠ "entry.table-address" := by decide
  have hmax : "entry.entity-max-size" ≠ "entry.table-address" := by decide
  cases h with
  | generated =>
    constructor
    · rintro hfault
      cases hfault with
      | address haddress => cases haddress
      | maxSize hfield _ hless =>
        obtain rfl := Option.some.inj hfield
        exact absurd hless (lt_irrefl _)
      | size hfield => cases hfield
      | entityCount hfield => cases hfield
      | entityMaxSize hfield => cases hfield
    · rintro ⟨hfault, hother⟩
      cases hfault with
      | address => exact absurd rfl hother
      | size hfield => cases hfield
      | maxSize hfield => cases hfield
      | entityCount hfield => cases hfield
      | entityMaxSize hfield => cases hfield
  | relocated =>
    constructor
    · rintro hfault
      cases hfault with
      | address haddress => cases haddress
      | size hfield hpos hne => exact ⟨.size hfield hpos hne, ne_tableAddrIssue hsize⟩
      | maxSize hfield hpos hless => exact ⟨.maxSize hfield hpos hless, ne_tableAddrIssue hsize⟩
      | entityCount hfield hpos hne =>
        exact ⟨.entityCount hfield hpos hne, ne_tableAddrIssue hcount⟩
      | entityMaxSize hfield hpos hentity hothers hless =>
        exact ⟨.entityMaxSize hfield hpos hentity hothers hless, ne_tableAddrIssue hmax⟩
    · rintro ⟨hfault, hother⟩
      cases hfault with
      | address => exact absurd rfl hother
      | size hfield hpos hne => exact .size hfield hpos hne
      | maxSize hfield hpos hless => exact .maxSize hfield hpos hless
      | entityCount hfield hpos hne => exact .entityCount hfield hpos hne
      | entityMaxSize hfield hpos hentity hothers hless =>
        exact .entityMaxSize hfield hpos hentity hothers hless

lemma FieldsSaved.entityCount {saved : EntryFields} (h : FieldsSaved size fields saved) :
    saved.entityCount = fields.entityCount := by
  cases h <;> rfl

lemma EntryOpened.eq_fields (h : EntryOpened (.data data) fields)
    (haccepts : format.accepts data = true) : fields = format.fields data := by
  cases h with
  | data haccepted =>
    rw [anchor_unique haccepted.anchor (accepts_anchor haccepts)]

variable {strict : Bool} {readStructures : ReadStructures} {source : EntrySource} {table : Buffer}
  {state loaded : ContextState} {dump : List Byte}

lemma dump_saved (hopen : dmiOpen strict readStructures source table = some state)
    (hmin : headerSize ≤ table.length) (hmax : table.length ≤ tableMaxSize)
    (hsave : dmiSave state = some dump)
    (hload : dmiOpenDump strict readStructures table.address dump = some loaded)
    (hfields : EntryOpened source fields) :
    ∃ entry, dmiOpen strict readStructures (.data entry) table = some loaded ∧
      ∀ saved, EntryOpened (.data entry) saved → FieldsSaved table.length fields saved := by
  obtain ⟨entry, es, hread, hentry, htable, hes, -⟩ := dmiOpen_some hopen
  obtain ⟨hcheck, built, hbuild, rfl⟩ := dmiSave_some hsave
  rw [htable] at hload
  cases source with
  | version major minor revision =>
    obtain ⟨rfl, rfl⟩ := Prod.mk.inj (Option.some.inj hread)
    simp only [dumpEntryBuild, hentry, htable] at hbuild
    have hversion : state.smbiosVersion < 2 ^ 24 := by
      rw [ContextState.smbiosVersion, hes]
      exact versionFixup_lt (dmiVersion_lt _ _ _)
    obtain ⟨hl, haccepts, -⟩ := decode_generate (EntryState.initial 0) hbuild hversion
    rw [dmiOpenDump_append haccepts hl hmin hmax] at hload
    refine ⟨built, hload, fun saved hsaved => ?_⟩
    rw [hsaved.eq_fields haccepts, fields_generate hbuild]
    cases hfields
    exact .generated
  | data bytes =>
    obtain ⟨rfl, format, haccepts, hformat, hdecode⟩ := openReadEntry_data hread
    have hf : state.entryState.format = some format := by rw [hes]; exact hformat
    simp only [saveCheck, hentry, decide_eq_true_eq] at hcheck
    simp only [dumpEntryBuild, hentry, hf, Option.some.injEq] at hbuild
    subst hbuild
    obtain ⟨hl, hbegins⟩ := relocate_frame haccepts hdecode hcheck
    have hrelocated := accepts_of_prefix haccepts hl hbegins
    rw [dmiOpenDump_append hrelocated hl hmin hmax] at hload
    refine ⟨_, hload, fun saved hsaved => ?_⟩
    rw [hsaved.eq_fields hrelocated, hfields.eq_fields haccepts,
      fields_relocate haccepts hdecode hcheck]
    exact .relocated

/-- A context which is saved and opened from its dump is reported for the same, but for an address
of the table which has been missing: the entry point of a dump always has it. -/
theorem dump_entry_lint_iff (enabled : String → Bool) (context : Context)
    (hopen : dmiOpen strict readStructures source table = some state)
    (hmin : headerSize ≤ table.length) (hmax : table.length ≤ tableMaxSize)
    (hsave : dmiSave state = some dump)
    (hload : dmiOpenDump strict readStructures table.address dump = some loaded) :
    issue ∈ lintCheckEntry enabled ⟨loaded, context⟩ ↔
      issue ∈ lintCheckEntry enabled ⟨state, context⟩ ∧ issue ≠ tableAddrIssue := by
  obtain ⟨fields, hfields, hissues⟩ := dmiOpen_checked enabled context hopen
  obtain ⟨entry, hdump, hall⟩ := dump_saved hopen hmin hmax hsave hload hfields
  obtain ⟨saved, hsaved, hreported⟩ := dmiOpen_checked enabled context hdump
  have hfieldsSaved := hall saved hsaved
  rw [hreported, hissues, hfieldsSaved.entityCount, hfieldsSaved.fault_iff, and_assoc]

theorem dump_entry_lint_iff_legacy : ∃ state dump loaded,
    dmiOpen false (fun _ _ _ _ => true) (.data legacyEntry) endedTable = some state ∧
      dmiSave state = some dump ∧
      dmiOpenDump false (fun _ _ _ _ => true) endedTable.address dump = some loaded ∧
      (tableAddrIssue ∈ lintCheckEntry (fun _ => true) ⟨loaded, sampleContext⟩ ↔
        tableAddrIssue ∈ lintCheckEntry (fun _ => true) ⟨state, sampleContext⟩ ∧
          tableAddrIssue ≠ tableAddrIssue) := by
  have h : (((dmiOpen false (fun _ _ _ _ => true) (.data legacyEntry) endedTable).bind
    dmiSave).bind (dmiOpenDump false (fun _ _ _ _ => true) endedTable.address)).isSome := by decide
  obtain ⟨loaded, hbind⟩ := Option.isSome_iff_exists.mp h
  obtain ⟨dump, hbind, hload⟩ := Option.bind_eq_some_iff.mp hbind
  obtain ⟨state, hopen, hsave⟩ := Option.bind_eq_some_iff.mp hbind
  exact ⟨state, dump, loaded, hopen, hsave, hload, dump_entry_lint_iff (fun _ => true)
    sampleContext hopen (by decide) (by decide) hsave hload⟩

end OpenDmi

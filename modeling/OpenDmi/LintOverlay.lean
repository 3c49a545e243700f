import OpenDmi.Lint

/-! The rules of the additional information, next to the loader which attaches its entries. -/

namespace OpenDmi

open LinkedList

def lintOverlayInfo (version : ℕ) (entity : Entity) : Option (List AdditionalEntry) :=
  if entity.typeId ≠ typeAdditionalInfo then none else additionalInfoOf version entity

def lintOverlayEntryDangling (lint : Lint) (entity : Entity) (i : ℕ) (entry : AdditionalEntry) :
    List LintIssue :=
  match registryLookup lint.context lint.registry entry.referencedHandle none with
  | some _ => []
  | none => [lintIssue "overlay.dangling" (some entity) (some "referenced-handle")
      (lintEntityOffset lint.table entity)
      "entry %zu refers to handle 0x%04X, which belongs to no structure"
      [.number (i + 1), .number entry.referencedHandle]]

def lintOverlayEntryOutOfBounds (lint : Lint) (entity : Entity) (i : ℕ) (entry : AdditionalEntry) :
    List LintIssue :=
  match registryLookup lint.context lint.registry entry.referencedHandle none with
  | none => []
  | some target =>
    -- The header of a structure is not a field of it
    if entry.referencedOffset < headerSize then
      [lintIssue "overlay.out-of-bounds" (some entity) (some "referenced-offset")
        (lintEntityOffset lint.table entity)
        "entry %zu refers to offset 0x%02X, which belongs to the header of handle 0x%04X"
        [.number (i + 1), .number entry.referencedOffset, .number entry.referencedHandle]]
    else if target.bodyLength < entry.referencedOffset + entry.value.bytes.length then
      [lintIssue "overlay.out-of-bounds" (some entity) (some "referenced-offset")
        (lintEntityOffset lint.table entity)
        "entry %zu refers to %zu bytes at offset 0x%02X, while handle 0x%04X is %zu bytes long"
        [.number (i + 1), .number entry.value.bytes.length, .number entry.referencedOffset,
          .number entry.referencedHandle, .number target.bodyLength]]
    else []

def lintOverlayEntries (check : ℕ → AdditionalEntry → List LintIssue) (version : ℕ)
    (entity : Entity) : List LintIssue :=
  ((lintOverlayInfo version entity).getD []).zipIdx.flatMap fun (entry, i) => check i entry

def lintOverlayDangling (lint : Lint) (version : ℕ) (entity : Entity) : List LintIssue :=
  lintOverlayEntries (lintOverlayEntryDangling lint entity) version entity

def lintOverlayOutOfBounds (lint : Lint) (version : ℕ) (entity : Entity) : List LintIssue :=
  lintOverlayEntries (lintOverlayEntryOutOfBounds lint entity) version entity

def overlayReached (version : ℕ) (registry : Registry) (before : List ℕ) (i : ℕ)
    (done : List AdditionalEntry) : OverlayState :=
  let state := before.foldl (registryOverlayEntity version registry)
    ⟨true, false, fun _ => false, fun _ => []⟩
  done.foldl (registryOverlayEntry registry)
    { state with decoded := Function.update state.decoded i true }

def OverlayRejects (registry : Registry) (state : OverlayState) (entry : AdditionalEntry) : Prop :=
  ∀ target, registryLookupEntry registry entry.referencedHandle = some target →
    entityAddOverlay (registry.entity target) target entry state = none

variable {lint : Lint} {registry : Registry} {version i : ℕ} {entity : Entity}
  {entry : AdditionalEntry} {state : OverlayState} {before : List ℕ}
  {done left : List AdditionalEntry}

lemma registryLookup_entry (context : Context) (registry : Registry) (handle : ℕ) :
    registryLookup context registry handle none =
      (registryLookupEntry registry handle).map registry.entity := by
  rw [registryLookup, registryLookupEntry]
  split_ifs
  · rfl
  · cases find registry.next (fun i => (registry.entity i).handle == handle)
      (registry.allocated + 1) (registry.index (handle % registry.capacity)) <;> rfl

lemma entries_attached (h : registry.Valid) {entries : List AdditionalEntry}
    (hs : Attached registry entries state) (done : List AdditionalEntry) :
    Attached registry (entries ++ done) (done.foldl (registryOverlayEntry registry) state) := by
  induction done generalizing entries state with
  | nil => rwa [List.append_nil]
  | cons entry done ih =>
    have hnext := ih (@registryOverlayEntry_attached registry entry state h entries hs)
    rwa [List.append_assoc, List.singleton_append] at hnext

lemma structures_attached (h : registry.Valid) {entries : List AdditionalEntry}
    (hs : Attached registry entries state) (before : List ℕ) : ∃ entries,
    Attached registry entries (before.foldl (registryOverlayEntity version registry) state) := by
  induction before generalizing entries state with
  | nil => exact ⟨entries, hs⟩
  | cons i before ih => exact ih (registryOverlayEntity_attached h hs)

lemma overlayReached_decoded (h : registry.Valid)
    (hi : (registry.entity i).typeId = typeAdditionalInfo) (j : ℕ)
    (hj : (overlayReached version registry before i done).decoded j = true) :
    (registry.entity j).typeId = typeAdditionalInfo := by
  have hcreated : Attached registry [] ⟨true, false, fun _ => false, fun _ => []⟩ :=
    ⟨fun _ => rfl, fun _ hj => by cases hj⟩
  obtain ⟨entries, hs⟩ := structures_attached h hcreated before
  rw [overlayReached] at hj
  generalize before.foldl (registryOverlayEntity version registry) _ = reached at hs hj
  have hstart : Attached registry entries
      { reached with decoded := Function.update reached.decoded i true } := by
    refine ⟨hs.overlays, fun k hk => ?_⟩
    by_cases hki : k = i
    · rw [hki]
      exact hi
    · simp only [Function.update_of_ne hki] at hk
      exact hs.decoded k hk
  exact (entries_attached h hstart done).decoded j hj

lemma registryOverlay_reached {strict : Bool} {after : List ℕ}
    (hnumbers : registryNumbers registry (registry.allocated + 1) (registryIterInitialize none) =
      before ++ i :: after)
    (hi : (registry.entity i).typeId = typeAdditionalInfo)
    (hinfo : additionalInfoOf version (registry.entity i) = some (done ++ entry :: left)) :
    (registryOverlay strict version registry).2 =
      after.foldl (registryOverlayEntity version registry)
        (left.foldl (registryOverlayEntry registry)
          (registryOverlayEntry registry (overlayReached version registry before i done) entry)) := by
  simp only [registryOverlay, hnumbers, List.foldl_append, List.foldl_cons]
  congr 1
  rw [registryOverlayEntity]
  simp only [hi, ne_eq, not_true_eq_false, if_false, hinfo]
  rw [List.foldl_append, List.foldl_cons, overlayReached]

def OutOfBounds (target : Entity) (entry : AdditionalEntry) : Prop :=
  entry.referencedOffset < headerSize ∨
    target.bodyLength < entry.referencedOffset + entry.value.bytes.length

lemma overlayRejects_iff
    (hdecoded : ∀ j, state.decoded j = true → (registry.entity j).typeId = typeAdditionalInfo) :
    OverlayRejects registry state entry ↔
      ∀ target, registryLookupEntry registry entry.referencedHandle = some target →
        (registry.entity target).typeId = typeAdditionalInfo ∨
          OutOfBounds (registry.entity target) entry := by
  refine forall_congr' fun target => imp_congr_right fun _ => ?_
  rw [entityAddOverlay, OutOfBounds]
  by_cases hd : state.decoded target = true
  · simp [hd, hdecoded target hd]
  by_cases ht : (registry.entity target).typeId = typeAdditionalInfo
  · simp [ht]
  · simp only [hd, ht, Bool.false_eq_true, if_false, false_or]
    by_cases hout : entry.referencedOffset < headerSize ∨
      entry.referencedOffset + entry.value.bytes.length > (registry.entity target).bodyLength
    · simpa only [if_pos hout, true_iff] using hout
    · simpa only [if_neg hout, reduceCtorEq, false_iff] using hout

def EntryReported (issues : List LintIssue) (k : ℕ) : Prop :=
  ∃ issue ∈ issues, issue.arguments.head? = some (.number (k + 1))

lemma entryReported_append {some more : List LintIssue} {k : ℕ} :
    EntryReported (some ++ more) k ↔ EntryReported some k ∨ EntryReported more k := by
  simp [EntryReported, or_and_right, exists_or]

lemma entryReported_entries {check : ℕ → AdditionalEntry → List LintIssue}
    (hcheck : ∀ k entry, ∀ issue ∈ check k entry,
      issue.arguments.head? = some (.number (k + 1)))
    (htype : entity.typeId = typeAdditionalInfo)
    (hinfo : additionalInfoOf version entity = some (done ++ entry :: left)) :
    EntryReported (lintOverlayEntries check version entity) done.length ↔
      check done.length entry ≠ [] := by
  rw [lintOverlayEntries, lintOverlayInfo, if_neg (not_not.mpr htype), hinfo, Option.getD_some]
  constructor
  · rintro ⟨issue, hm, hnumber⟩
    obtain ⟨⟨found, k⟩, hfound, hissue⟩ := List.mem_flatMap.mp hm
    have hk : k = done.length := by
      have hnamed := (hcheck k found issue hissue).symm.trans hnumber
      simpa using hnamed
    subst hk
    have hplace := List.mem_zipIdx_iff_getElem?.mp hfound
    rw [List.getElem?_append_right le_rfl, Nat.sub_self, List.getElem?_cons_zero] at hplace
    obtain rfl := Option.some.inj hplace
    exact List.ne_nil_of_mem hissue
  · intro hne
    obtain ⟨issue, hissue⟩ := List.exists_mem_of_ne_nil _ hne
    refine ⟨issue, List.mem_flatMap.mpr ⟨(entry, done.length), ?_, hissue⟩,
      hcheck _ _ _ hissue⟩
    rw [List.mem_zipIdx_iff_getElem?]
    simp

lemma entryDangling_named (k : ℕ) (entry : AdditionalEntry) :
    ∀ issue ∈ lintOverlayEntryDangling lint entity k entry,
      issue.arguments.head? = some (.number (k + 1)) := by
  rw [lintOverlayEntryDangling]
  cases registryLookup lint.context lint.registry entry.referencedHandle none <;> simp [lintIssue]

lemma entryOutOfBounds_named (k : ℕ) (entry : AdditionalEntry) :
    ∀ issue ∈ lintOverlayEntryOutOfBounds lint entity k entry,
      issue.arguments.head? = some (.number (k + 1)) := by
  rw [lintOverlayEntryOutOfBounds]
  cases registryLookup lint.context lint.registry entry.referencedHandle none with
  | none => simp
  | some target =>
    simp only
    split_ifs <;> simp [lintIssue]

lemma entryDangling_iff {k : ℕ} : lintOverlayEntryDangling lint entity k entry ≠ [] ↔
    registryLookupEntry lint.registry entry.referencedHandle = none := by
  rw [lintOverlayEntryDangling, registryLookup_entry]
  cases registryLookupEntry lint.registry entry.referencedHandle <;> simp

lemma entryOutOfBounds_iff {k : ℕ} : lintOverlayEntryOutOfBounds lint entity k entry ≠ [] ↔
    ∃ target, registryLookupEntry lint.registry entry.referencedHandle = some target ∧
      OutOfBounds (lint.registry.entity target) entry := by
  rw [lintOverlayEntryOutOfBounds, registryLookup_entry]
  cases registryLookupEntry lint.registry entry.referencedHandle with
  | none => simp
  | some target =>
    simp only [Option.map_some, OutOfBounds]
    split_ifs with hheader hbody
    · simp [hheader]
    · simp [hbody]
    · simp [hheader, not_lt.mp hbody]

theorem overlay_lint_agrees_iff (context : Context) (table : Buffer)
    (entityCount capacity version : ℕ) (structures : List Entity) (before after : List ℕ) (i : ℕ)
    (done left : List AdditionalEntry) (entry : AdditionalEntry)
    (hnumbers : registryNumbers (registryPutAll (registryCreate capacity) structures).2
      ((registryPutAll (registryCreate capacity) structures).2.allocated + 1)
      (registryIterInitialize none) = before ++ i :: after)
    (htype : ((registryPutAll (registryCreate capacity) structures).2.entity i).typeId =
      typeAdditionalInfo)
    (hinfo : additionalInfoOf version ((registryPutAll (registryCreate capacity) structures).2.entity
      i) = some (done ++ entry :: left)) :
    let registry := (registryPutAll (registryCreate capacity) structures).2
    let lint : Lint := ⟨context, table, entityCount, registry⟩
    let reached := overlayReached version registry before i done
    (registryOverlay false version registry).2 =
        after.foldl (registryOverlayEntity version registry)
          (left.foldl (registryOverlayEntry registry)
            (registryOverlayEntry registry reached entry)) ∧
      ((EntryReported (lintOverlayDangling lint version (registry.entity i) ++
            lintOverlayOutOfBounds lint version (registry.entity i)) done.length ↔
          OverlayRejects registry reached entry) ↔
        ¬ ∃ target, registryLookupEntry registry entry.referencedHandle = some target ∧
          (registry.entity target).typeId = typeAdditionalInfo ∧
          ¬ OutOfBounds (registry.entity target) entry) := by
  intro registry lint reached
  have h : registry.Valid :=
    (registryPutAll_valid (registryCreate_valid capacity) structures).1
  refine ⟨registryOverlay_reached hnumbers htype hinfo, ?_⟩
  rw [entryReported_append,
    lintOverlayDangling, entryReported_entries entryDangling_named htype hinfo,
    lintOverlayOutOfBounds, entryReported_entries entryOutOfBounds_named htype hinfo,
    entryDangling_iff, entryOutOfBounds_iff, overlayRejects_iff (overlayReached_decoded h htype)]
  cases hfound : registryLookupEntry registry entry.referencedHandle with
  | none => simp [lint]
  | some target =>
    simp only [lint, reduceCtorEq, false_or, Option.some.injEq, exists_eq_left',
      forall_eq']
    by_cases hout : OutOfBounds (registry.entity target) entry <;> simp [hout]

def overlaidStructures (handle : Byte) : List Entity :=
  registryEntities (scanned
    ⟨0, [1, 6, 1, 0, 5, 5, 0, 0, 40, 0x0B, 2, 0, 1, 6, handle, 0, 4, 0, 7, 0, 0]⟩)

def overlaidRegistry (handle : Byte) : Registry :=
  (registryPutAll (registryCreate 0) (overlaidStructures handle)).2

def overlaidEntry (handle : ℕ) : AdditionalEntry := ⟨handle, 4, .null, ⟨some 10, [7]⟩⟩

theorem overlay_lint_agrees_iff_first :
    EntryReported (lintOverlayDangling ⟨sampleContext, ⟨0, []⟩, 0, overlaidRegistry 1⟩ 0x030000
        ((overlaidRegistry 1).entity 1) ++
      lintOverlayOutOfBounds ⟨sampleContext, ⟨0, []⟩, 0, overlaidRegistry 1⟩ 0x030000
        ((overlaidRegistry 1).entity 1)) 0 ↔
    OverlayRejects (overlaidRegistry 1)
      (overlayReached 0x030000 (overlaidRegistry 1) [0] 1 []) (overlaidEntry 1) := by
  refine (overlay_lint_agrees_iff sampleContext ⟨0, []⟩ 0 0 0x030000 (overlaidStructures 1) [0] [] 1
    [] [] (overlaidEntry 1) (by decide) (by decide) (by decide)).2.mpr ?_
  rintro ⟨target, hfound, htype, -⟩
  have hfirst : registryLookupEntry (overlaidRegistry 1) 1 = some 0 := by decide
  obtain rfl := Option.some.inj (hfirst.symm.trans hfound)
  revert htype
  decide

theorem overlay_of_overlay_unreported :
    additionalInfoOf 0x030000 ((overlaidRegistry 2).entity 1) = some [overlaidEntry 2] ∧
      (registryOverlay false 0x030000 (overlaidRegistry 2)).2.success = false ∧
      ¬ (EntryReported (lintOverlayDangling ⟨sampleContext, ⟨0, []⟩, 0, overlaidRegistry 2⟩ 0x030000
            ((overlaidRegistry 2).entity 1) ++
          lintOverlayOutOfBounds ⟨sampleContext, ⟨0, []⟩, 0, overlaidRegistry 2⟩ 0x030000
            ((overlaidRegistry 2).entity 1)) 0 ↔
        OverlayRejects (overlaidRegistry 2)
          (overlayReached 0x030000 (overlaidRegistry 2) [0] 1 []) (overlaidEntry 2)) := by
  have hrejected : OverlayRejects (overlaidRegistry 2)
      (overlayReached 0x030000 (overlaidRegistry 2) [0] 1 []) (overlaidEntry 2) := by
    intro target hfound
    have hself : registryLookupEntry (overlaidRegistry 2) 2 = some 1 := by decide
    obtain rfl := Option.some.inj (hself.symm.trans hfound)
    rw [entityAddOverlay, if_pos (by decide)]
  have hsilent : lintOverlayDangling ⟨sampleContext, ⟨0, []⟩, 0, overlaidRegistry 2⟩ 0x030000
      ((overlaidRegistry 2).entity 1) ++
        lintOverlayOutOfBounds ⟨sampleContext, ⟨0, []⟩, 0, overlaidRegistry 2⟩ 0x030000
          ((overlaidRegistry 2).entity 1) = [] := by decide
  refine ⟨by decide, by decide, fun hagrees => ?_⟩
  obtain ⟨issue, hm, -⟩ := hagrees.mpr hrejected
  rw [hsilent] at hm
  cases hm

end OpenDmi

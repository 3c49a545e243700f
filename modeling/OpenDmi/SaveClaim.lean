import OpenDmi.SaveRoundTrip

namespace OpenDmi

open Bytes

variable {strict : Bool} {readStructures : ReadStructures} {source : EntrySource}
  {table : Buffer} {state : ContextState} {dump : List Byte}

def LoadsBack (strict : Bool) (readStructures : ReadStructures) (state : ContextState)
    (dump : List Byte) : Prop :=
  ∃ loaded, dmiOpenDump strict readStructures state.table.address dump = some loaded ∧
    loaded.table = state.table ∧ loaded.registry = state.registry ∧
    loaded.smbiosVersion = state.smbiosVersion

def ContextState.Cut (state : ContextState) : Prop :=
  ∃ data format, state.entry = some data ∧ state.entryState.format = some format ∧
    CutEntry format data

lemma dmiOpen_some (h : dmiOpen strict readStructures source table = some state) :
    ∃ entry entryState, openReadEntry source = some (entry, entryState) ∧
      state.entry = entry ∧ state.table = table ∧
      state.entryState =
        { entryState with smbiosVersion := versionFixup entryState.smbiosVersion } ∧
      table.length ≠ 0 ∧
      registryScan strict table entryState.entityCount (registryCreate 0) =
        some (true, state.registry) ∧
      readStructures strict (versionFixup entryState.smbiosVersion) table state.registry =
        true := by
  simp only [dmiOpen] at h
  cases hentry : openReadEntry source with
  | none => simp [hentry] at h
  | some found =>
    obtain ⟨entry, entryState⟩ := found
    simp only [hentry] at h
    obtain ⟨hlen, hscan⟩ := Option.ite_none_left_eq_some.mp h
    cases hreg : registryScan strict table entryState.entityCount (registryCreate 0) with
    | none => simp [hreg] at hscan
    | some scanned =>
      obtain ⟨success, registry⟩ := scanned
      cases success with
      | false => simp [hreg] at hscan
      | true =>
        simp only [hreg, Option.ite_none_right_eq_some] at hscan
        obtain ⟨hread, hstate⟩ := hscan
        cases hstate
        exact ⟨entry, entryState, rfl, rfl, rfl, rfl, hlen, hreg, hread⟩

lemma dmiOpen_congr {source' : EntrySource} {entry' : Option (List Byte)} {es' : EntryState}
    (h : dmiOpen strict readStructures source table = some state)
    (hentry : openReadEntry source' = some (entry', es'))
    (hversion : versionFixup es'.smbiosVersion = state.smbiosVersion)
    (hcount : es'.entityCount = state.entryState.entityCount) :
    ∃ loaded, dmiOpen strict readStructures source' table = some loaded ∧
      loaded.table = state.table ∧ loaded.registry = state.registry ∧
      loaded.smbiosVersion = state.smbiosVersion := by
  obtain ⟨entry, es, -, -, htable, hes, hlen, hscan, hread⟩ := dmiOpen_some h
  have hv : state.smbiosVersion = versionFixup es.smbiosVersion := by
    rw [ContextState.smbiosVersion, hes]
  have hc : es'.entityCount = es.entityCount := by rw [hcount, hes]
  refine ⟨⟨entry', { es' with smbiosVersion := versionFixup es'.smbiosVersion }, table,
    state.registry⟩, ?_, htable.symm, rfl, hversion⟩
  simp only [dmiOpen, hentry, hlen, if_false, hc, hscan, hversion.trans hv, hread, if_true]

lemma openReadEntry_data {data : List Byte} {entry : Option (List Byte)} {es : EntryState}
    (h : openReadEntry (.data data) = some (entry, es)) :
    entry = some data ∧ ∃ format : EntryFormat, format.accepts data = true ∧
      es.format = some format ∧
      format.decode { EntryState.initial 0 with format := some format } data = some es := by
  obtain ⟨found, hdecode, heq⟩ := Option.map_eq_some_iff.mp h
  cases heq
  obtain ⟨format, haccepts, hf⟩ := entryDecode_some hdecode
  refine ⟨rfl, format, haccepts, ?_, hf⟩
  cases format with
  | v30 =>
    simp only [EntryFormat.decode, entryDecodeV30] at hf
    split_ifs at hf
    cases hf
    rfl
  | v21 =>
    simp only [EntryFormat.decode, entryDecodeV21] at hf
    split_ifs at hf
    obtain ⟨inner, hinner, hes⟩ := Option.map_eq_some_iff.mp hf
    obtain ⟨-, hin⟩ := Option.ite_none_left_eq_some.mp hinner
    cases hes
    cases hin
    rfl
  | legacy =>
    obtain ⟨-, hes⟩ := Option.ite_none_left_eq_some.mp hf
    cases hes
    rfl

lemma openReadEntry_of_decode {format : EntryFormat} {data : List Byte} {es : EntryState}
    (haccepts : format.accepts data = true)
    (h : format.decode { EntryState.initial 0 with format := some format } data = some es) :
    openReadEntry (.data data) = some (some data, es) := by
  rw [openReadEntry, entryDecode_of_accepts haccepts, h, Option.map_some]

lemma dmiOpenDump_append {entry : List Byte} {format : EntryFormat}
    (haccepts : format.accepts entry = true) (hl : entry.length = entryMaxSize)
    (hmin : headerSize ≤ table.length) (hmax : table.length ≤ tableMaxSize) :
    dmiOpenDump strict readStructures table.address (entry ++ table.data) =
      dmiOpen strict readStructures (.data entry) table := by
  have hlen : (entry ++ table.data).length = entryMaxSize + table.length := by
    rw [List.length_append, hl]
    rfl
  have hanchor : [EntryFormat.v30, .v21, .legacy].any
      (fun format => format.spec.anchor.isPrefixOf (entry ++ table.data)) = true := by
    refine List.any_eq_true.mpr ⟨format, by cases format <;> simp, ?_⟩
    exact List.isPrefixOf_iff_prefix.mpr ((accepts_anchor haccepts).trans (List.prefix_append _ _))
  have hcheck : dumpCheck (entry ++ table.data) = true := by
    simp only [dumpCheck, hanchor, hlen, Bool.and_true, decide_eq_true_eq]
    omega
  rw [dmiOpenDump, if_neg (by omega), if_neg (by simp [hcheck]), List.take_left' hl,
    List.drop_left' hl]

lemma dmiSave_some (h : dmiSave state = some dump) :
    saveCheck state = true ∧ ∃ entry, dumpEntryBuild state = some entry ∧
      dump = entry ++ state.table.data := by
  obtain ⟨hcheck, hmap⟩ := Option.ite_none_right_eq_some.mp h
  obtain ⟨entry, hentry, hdump⟩ := Option.map_eq_some_iff.mp hmap
  exact ⟨hcheck, entry, hentry, hdump.symm⟩

lemma loadsBack_generated {major minor revision : ℕ}
    (hopen : dmiOpen strict readStructures (.version major minor revision) table = some state)
    (hmin : headerSize ≤ table.length) (hmax : table.length ≤ tableMaxSize)
    (hsave : dmiSave state = some dump) :
    state.entry = none ∧ LoadsBack strict readStructures state dump := by
  obtain ⟨entry, es, hread, hentry, htable, hes, -⟩ := dmiOpen_some hopen
  simp only [openReadEntry, Option.some.injEq, Prod.mk.injEq] at hread
  obtain ⟨rfl, rfl⟩ := hread
  obtain ⟨-, generated, hbuild, rfl⟩ := dmiSave_some hsave
  simp only [dumpEntryBuild, hentry] at hbuild
  have hv : state.smbiosVersion = versionFixup (dmiVersion major minor revision) := by
    rw [ContextState.smbiosVersion, hes]
    rfl
  obtain ⟨hl, haccepts, loaded, hdecode, hversion, hcount⟩ := decode_generate
    { EntryState.initial 0 with format := some .v30 } hbuild
    (by rw [hv]; exact versionFixup_lt (dmiVersion_lt _ _ _))
  refine ⟨hentry, ?_⟩
  rw [LoadsBack, htable, dmiOpenDump_append haccepts hl hmin hmax, ← htable, htable]
  obtain ⟨result, hresult, h1, h2, h3⟩ := dmiOpen_congr hopen
    (openReadEntry_of_decode haccepts hdecode)
    (by rw [hversion, hv, versionFixup_idem]) (by rw [hcount, hes]; rfl)
  exact ⟨result, hresult, h1.trans htable, h2, h3⟩

lemma loadsBack_relocated {data : List Byte}
    (hopen : dmiOpen strict readStructures (.data data) table = some state)
    (hmin : headerSize ≤ table.length) (hmax : table.length ≤ tableMaxSize)
    (hsave : dmiSave state = some dump) :
    LoadsBack strict readStructures state dump ↔ ¬ state.Cut := by
  obtain ⟨entry, es, hread, hentry, htable, hes, -⟩ := dmiOpen_some hopen
  obtain ⟨rfl, format, haccepts, hformat, hdecode⟩ := openReadEntry_data hread
  have hf : state.entryState.format = some format := by rw [hes]; exact hformat
  obtain ⟨hcheck, relocated, hbuild, rfl⟩ := dmiSave_some hsave
  simp only [saveCheck, hentry, decide_eq_true_eq] at hcheck
  simp only [dumpEntryBuild, hentry, hf, Option.some.injEq] at hbuild
  subst hbuild
  obtain ⟨hl, hbegins⟩ := relocate_frame haccepts hdecode hcheck
  have haccepts' := accepts_of_prefix haccepts hl hbegins
  have hcut : state.Cut ↔ CutEntry format data := by
    simp only [ContextState.Cut, hentry, hf, Option.some.injEq]
    exact ⟨fun ⟨_, _, hd, hg, h⟩ => hd ▸ hg ▸ h, fun h => ⟨_, _, rfl, rfl, h⟩⟩
  rw [LoadsBack, hcut, htable, dmiOpenDump_append haccepts' hl hmin hmax]
  by_cases h : CutEntry format data
  · simp only [h, not_true, iff_false]
    rintro ⟨loaded, hloaded, -⟩
    obtain rfl : format = .v21 := h.1
    obtain ⟨_, _, hfound, -⟩ := dmiOpen_some hloaded
    obtain ⟨_, _, haccepts'', -, hdecode'⟩ := openReadEntry_data hfound
    obtain rfl := anchor_unique (accepts_anchor haccepts'') (accepts_anchor haccepts')
    obtain ⟨hle, hlen, -⟩ := entryDecodeV21_length hdecode
    rw [dumpEntryRelocate_v21 (by omega)] at hdecode'
    rw [show EntryFormat.v21.decode = entryDecodeV21 from rfl,
      decode_relocate_cut hdecode hcheck h] at hdecode'
    cases hdecode'
  · simp only [h, not_false_iff, iff_true]
    obtain ⟨loaded, hloaded, hversion, hcount⟩ := decode_relocate haccepts hdecode hcheck h
    obtain ⟨result, hresult, h1, h2, h3⟩ := dmiOpen_congr hopen
      (openReadEntry_of_decode haccepts' hloaded)
      (by rw [hversion, ContextState.smbiosVersion, hes]) (by rw [hcount, hes])
    exact ⟨result, hresult, h1.trans htable, h2, h3⟩

theorem dump_loadsBack_iff (hopen : dmiOpen strict readStructures source table = some state)
    (hmin : headerSize ≤ table.length) (hmax : table.length ≤ tableMaxSize)
    (hsave : dmiSave state = some dump) :
    LoadsBack strict readStructures state dump ↔ ¬ state.Cut := by
  cases source with
  | data bytes => exact loadsBack_relocated hopen hmin hmax hsave
  | version major minor revision =>
    obtain ⟨hentry, hloads⟩ := loadsBack_generated hopen hmin hmax hsave
    have hcut : ¬ state.Cut := by
      rintro ⟨data, -, hdata, -⟩
      rw [hentry] at hdata
      cases hdata
    exact iff_of_true hloads hcut

def cutEntryPoint : List Byte :=
  [0x5F, 0x53, 0x4D, 0x5F, 0x9C, 0x1E, 2, 1, 6, 0, 0, 0, 0, 0, 0, 0,
    0x5F, 0x44, 0x4D, 0x49, 0x5F, 0x31, 6, 0, 0, 0, 0x0F, 0, 1, 0]

def endOfTable : Buffer := ⟨0, [127, 4, 0, 0, 0, 0]⟩

theorem dump_loadsBack_iff_cut : ∃ state dump,
    dmiOpen false (fun _ _ _ _ => true) (.data cutEntryPoint) endOfTable = some state ∧
      dmiSave state = some dump ∧
      (LoadsBack false (fun _ _ _ _ => true) state dump ↔ ¬ state.Cut) := by
  have h : ((dmiOpen false (fun _ _ _ _ => true) (.data cutEntryPoint) endOfTable).bind
    dmiSave).isSome = true := by decide
  obtain ⟨dump, hbind⟩ := Option.isSome_iff_exists.mp h
  obtain ⟨state, hopen, hsave⟩ := Option.bind_eq_some_iff.mp hbind
  exact ⟨state, dump, hopen, hsave, dump_loadsBack_iff hopen (by decide) (by decide) hsave⟩

theorem cut_dump_does_not_load : ¬ ∀ (strict : Bool) (readStructures : ReadStructures)
    (source : EntrySource) (table : Buffer) (state : ContextState) (dump : List Byte),
    dmiOpen strict readStructures source table = some state → headerSize ≤ table.length →
    table.length ≤ tableMaxSize → dmiSave state = some dump →
    LoadsBack strict readStructures state dump := by
  intro hall
  have h : ((dmiOpen false (fun _ _ _ _ => true) (.data cutEntryPoint) endOfTable).bind
    dmiSave).isSome = true := by decide
  obtain ⟨dump, hbind⟩ := Option.isSome_iff_exists.mp h
  obtain ⟨state, hopen, hsave⟩ := Option.bind_eq_some_iff.mp hbind
  obtain ⟨loaded, hloaded, -⟩ := hall _ _ _ _ state dump hopen (by decide) (by decide) hsave
  have hnone : ((dmiOpen false (fun _ _ _ _ => true) (.data cutEntryPoint) endOfTable).bind
    dmiSave).bind (dmiOpenDump false (fun _ _ _ _ => true) 0) |>.isNone := by decide
  rw [Option.isNone_iff_eq_none, hbind, Option.bind_some] at hnone
  have haddress : state.table.address = 0 := by
    obtain ⟨_, _, -, -, htable, -⟩ := dmiOpen_some hopen
    rw [htable]
    rfl
  rw [haddress, hnone] at hloaded
  cases hloaded

end OpenDmi

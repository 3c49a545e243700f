import OpenDmi.OpenStructures
import Mathlib.Tactic

/-! Which structures are read before the modules of the platform are mapped, and what has become of
each of them then. -/

namespace OpenDmi

structure EntityReading where
  entity : Entity
  decoded : Option ℕ

section Reading

variable (context : Context) (readers : Readers)

def entityDecodeNext (overlay : Option Buffer) (reading : EntityReading) : Bool × EntityReading :=
  if reading.decoded.isSome then (true, reading)
  else match entitySpecSelect context reading.entity with
    | none => (true, reading)
    | some spec =>
      let bound := { reading.entity with spec := some spec }
      let minimum := (readers.specParams spec).minimumLength
      if minimum ≠ 0 ∧ bound.bodyLength < minimum then (false, ⟨bound, reading.decoded⟩)
      else if !readers.hasDecoder spec then (true, ⟨bound, reading.decoded⟩)
      else
        let read := entityOverlaid overlay bound
        if readers.decodes spec read then (true, ⟨read, some spec⟩)
        else (false, ⟨read, reading.decoded⟩)

variable (table : OpenTable)

def entityReading : ℕ → ℕ → EntityReading
  | 0, i => ⟨table.entity i, none⟩
  | n + 1, i => (entityDecodeNext context readers (table.overlays i) (entityReading n i)).2

def readAfter (calls : List ℕ) : ReadState where
  entity i := (entityReading context readers table (calls.count i) i).entity
  decoded i := (entityReading context readers table (calls.count i) i).decoded
  calls := calls

def firstOfType (calls : List ℕ) (type : ℕ) : List ℕ :=
  ((List.range table.count).find? fun i =>
    entityType context (entityReading context readers table (calls.count i) i).entity
      == some type).toList

def processorReads : List ℕ → List ℕ → List ℕ
  | [], calls => calls
  | i :: rest, calls =>
    if (table.entity i).typeId ≠ typeProcessor then processorReads rest calls
    else
      let result := entityDecodeNext context readers (table.overlays i)
        (entityReading context readers table (calls.count i) i)
      if result.1 && readers.knowsProcessor result.2.entity then calls ++ [i]
      else processorReads rest (calls ++ [i])

def additionalReads (flags : OpenFlags) (table : OpenTable) : List ℕ :=
  if flags.overlay then (List.range table.count).filter fun i => (table.entity i).typeId = 40
  else []

/-- The structures which tell the vendor and the platform, in the order they are read: additional
information, the first firmware, system and baseboard information, and the processors. -/
def earlyReads (flags : OpenFlags) : List ℕ :=
  let additional := additionalReads flags table
  let firmware := additional ++ firstOfType context readers table additional typeFirmware
  let system := firmware ++ firstOfType context readers table firmware typeSystem
  let baseboard := system ++ firstOfType context readers table system typeBaseboard
  processorReads context readers table (List.range table.count) baseboard

end Reading

variable {context : Context} {readers : Readers} {table : OpenTable} {state : ReadState}
  {flags : OpenFlags} {calls : List ℕ} {i j n : ℕ}

def ReadState.reading (state : ReadState) (i : ℕ) : EntityReading :=
  ⟨state.entity i, state.decoded i⟩

lemma dmiEntityDecode_eq (context : Context) (readers : Readers) (overlays : ℕ → Option Buffer)
    (state : ReadState) (i : ℕ) :
    dmiEntityDecode context readers overlays state i =
      let next := entityDecodeNext context readers (overlays i) (state.reading i)
      (next.1, ⟨Function.update state.entity i next.2.entity,
        Function.update state.decoded i next.2.decoded, state.calls ++ [i]⟩) := by
  have hsame : (⟨Function.update state.entity i (state.entity i),
      Function.update state.decoded i (state.decoded i), state.calls ++ [i]⟩ : ReadState) =
      ⟨state.entity, state.decoded, state.calls ++ [i]⟩ := by
    rw [Function.update_eq_self, Function.update_eq_self]
  rw [dmiEntityDecode, entityDecodeNext, ReadState.reading]
  simp only
  by_cases hd : (state.decoded i).isSome = true
  · rw [if_pos hd, if_pos hd, hsame]
  rw [if_neg hd, if_neg hd]
  cases entitySpecSelect context (state.entity i) with
  | none => rw [hsame]
  | some spec =>
    simp only
    split_ifs <;> simp only [Function.update_eq_self]

lemma dmiEntityDecode_reading (context : Context) (readers : Readers)
    (overlays : ℕ → Option Buffer) (state : ReadState) (i : ℕ) :
    (dmiEntityDecode context readers overlays state i).2.reading i =
      (entityDecodeNext context readers (overlays i) (state.reading i)).2 := by
  rw [dmiEntityDecode_eq, ReadState.reading]
  simp only [Function.update_self]

lemma dmiEntityDecode_others (context : Context) (readers : Readers)
    (overlays : ℕ → Option Buffer) (state : ReadState) (hj : j ≠ i) :
    (dmiEntityDecode context readers overlays state i).2.reading j = state.reading j := by
  rw [dmiEntityDecode_eq, ReadState.reading]
  simp only [Function.update_of_ne hj]
  rfl

lemma ReadState.ext_reading {s t : ReadState} (h : ∀ i, s.reading i = t.reading i)
    (hcalls : s.calls = t.calls) : s = t := by
  obtain ⟨entity, decoded, calls⟩ := s
  obtain ⟨entity', decoded', calls'⟩ := t
  simp only [ReadState.reading, EntityReading.mk.injEq] at h hcalls
  rw [funext fun i => (h i).1, funext fun i => (h i).2, hcalls]

lemma dmiEntityDecode_readAfter (calls : List ℕ) (i : ℕ) :
    dmiEntityDecode context readers table.overlays (readAfter context readers table calls) i =
      ((entityDecodeNext context readers (table.overlays i)
          (entityReading context readers table (calls.count i) i)).1,
        readAfter context readers table (calls ++ [i])) := by
  have hfirst := congrArg Prod.fst (dmiEntityDecode_eq context readers table.overlays
    (readAfter context readers table calls) i)
  refine Prod.ext hfirst (ReadState.ext_reading (fun j => ?_) ?_)
  · have hcount : (calls ++ [i]).count j = calls.count j + [i].count j := List.count_append
    by_cases hj : j = i
    · subst hj
      rw [List.count_singleton_self] at hcount
      rw [dmiEntityDecode_reading]
      change _ = entityReading context readers table ((calls ++ [j]).count j) j
      rw [hcount]
      rfl
    · rw [List.count_singleton, if_neg (by simpa using Ne.symm hj), Nat.add_zero] at hcount
      rw [dmiEntityDecode_others _ _ _ _ hj]
      change entityReading context readers table (calls.count j) j =
        entityReading context readers table ((calls ++ [i]).count j) j
      rw [hcount]
  · rw [dmiEntityDecode_eq]
    rfl

section Kept

lemma entityReading_kept (context : Context) (readers : Readers) (table : OpenTable) (n i : ℕ) :
    ∃ spec overlay, (entityReading context readers table n i).entity =
      { table.entity i with spec := spec, overlay := overlay } := by
  induction n with
  | zero => exact ⟨(table.entity i).spec, (table.entity i).overlay, rfl⟩
  | succ n ih =>
    obtain ⟨spec, overlay, he⟩ := ih
    rw [entityReading, entityDecodeNext]
    by_cases hd : (entityReading context readers table n i).decoded.isSome = true
    · rw [if_pos hd]
      exact ⟨spec, overlay, he⟩
    rw [if_neg hd]
    cases entitySpecSelect context (entityReading context readers table n i).entity with
    | none => exact ⟨spec, overlay, he⟩
    | some found =>
      have hread : ∃ other, entityOverlaid (table.overlays i)
          { (entityReading context readers table n i).entity with spec := some found } =
            { table.entity i with spec := some found, overlay := other } := by
        rw [he, entityOverlaid]
        cases overlay with
        | none => exact ⟨table.overlays i, rfl⟩
        | some copy => exact ⟨some copy, rfl⟩
      obtain ⟨other, hread⟩ := hread
      simp only
      split_ifs
      · exact ⟨some found, overlay, by rw [he]⟩
      · exact ⟨some found, overlay, by rw [he]⟩
      · exact ⟨some found, other, hread⟩
      · exact ⟨some found, other, hread⟩

lemma readAfter_typeId (calls : List ℕ) (i : ℕ) :
    ((readAfter context readers table calls).entity i).typeId = (table.entity i).typeId := by
  obtain ⟨spec, overlay, he⟩ := entityReading_kept context readers table (calls.count i) i
  change (entityReading context readers table (calls.count i) i).entity.typeId = _
  rw [he]

end Kept

section Early

lemma registryOverlayDecode_reads (context : Context) (readers : Readers) (table : OpenTable)
    (calls : List ℕ) :
    (registryOverlayDecode readers table context (readAfter context readers table calls)).2 =
      readAfter context readers table (calls ++
        (List.range table.count).filter fun i => (table.entity i).typeId = 40) := by
  have hrun : ∀ (is : List ℕ) (success : Bool) (calls : List ℕ), (is.foldl (fun walk i =>
      if (table.entity i).typeId ≠ 40 then walk
      else
        let result := dmiEntityDecode context readers table.overlays walk.2 i
        (walk.1 && result.1, result.2)) (success, readAfter context readers table calls)).2 =
      readAfter context readers table
        (calls ++ is.filter fun i => (table.entity i).typeId = 40) := by
    intro is
    induction is with
    | nil =>
      intro success calls
      rw [List.filter_nil, List.append_nil]
      rfl
    | cons i is ih =>
      intro success calls
      rw [List.foldl_cons]
      by_cases ht : (table.entity i).typeId = 40
      · rw [if_neg (not_not.mpr ht), dmiEntityDecode_readAfter,
          List.filter_cons_of_pos (by simpa using ht)]
        simp only
        rw [ih, List.append_assoc, List.singleton_append]
      · rw [if_pos ht, List.filter_cons_of_neg (by simpa using ht)]
        exact ih success calls
  exact hrun _ _ _

lemma registryLookupFirst_reads (calls : List ℕ) (type : ℕ) :
    (registryLookupFirst context table.count (readAfter context readers table calls) type).toList =
      firstOfType context readers table calls type := rfl

lemma setupVendor_reads (calls : List ℕ) :
    (setupVendor flags readers table context (readAfter context readers table calls)).2 =
      readAfter context readers table
        (calls ++ firstOfType context readers table calls typeFirmware) := by
  rw [setupVendor, ← registryLookupFirst_reads]
  cases registryLookupFirst context table.count (readAfter context readers table calls)
    typeFirmware with
  | none => rw [Option.toList_none, List.append_nil]
  | some i =>
    simp only [dmiEntityDecode_readAfter]
    rfl

lemma platformInfo_reads (calls : List ℕ) (type : ℕ) :
    platformInfo readers table context type (readAfter context readers table calls) =
      readAfter context readers table (calls ++ firstOfType context readers table calls type) := by
  rw [platformInfo, ← registryLookupFirst_reads]
  cases registryLookupFirst context table.count (readAfter context readers table calls) type with
  | none => rw [Option.toList_none, List.append_nil]
  | some i =>
    simp only [dmiEntityDecode_readAfter]
    rfl

lemma platformProcessors_reads (is calls : List ℕ) :
    platformProcessors readers table context is (readAfter context readers table calls) =
      readAfter context readers table (processorReads context readers table is calls) := by
  induction is generalizing calls with
  | nil => rfl
  | cons i is ih =>
    rw [platformProcessors, processorReads, readAfter_typeId]
    by_cases ht : (table.entity i).typeId = typeProcessor
    · have hentity : (readAfter context readers table (calls ++ [i])).entity i =
          (entityDecodeNext context readers (table.overlays i)
            (entityReading context readers table (calls.count i) i)).2.entity := by
        have hcount : (calls ++ [i]).count i = calls.count i + 1 := by
          rw [List.count_append, List.count_singleton_self]
        change (entityReading context readers table ((calls ++ [i]).count i) i).entity = _
        rw [hcount]
        rfl
      rw [if_neg (not_not.mpr ht), if_neg (not_not.mpr ht), dmiEntityDecode_readAfter]
      simp only [hentity]
      split_ifs
      · rfl
      · exact ih (calls ++ [i])
    · rw [if_pos ht, if_pos ht]
      exact ih calls

lemma readEarly_reads {early : ReadState}
    (h : readEarly flags readers table context = some early) :
    early = readAfter context readers table (earlyReads context readers table flags) := by
  have hoverlaid : (readOverlaid flags readers table context).2 =
      readAfter context readers table (additionalReads flags table) := by
    rw [readOverlaid, additionalReads]
    split_ifs
    · exact registryOverlayDecode_reads context readers table []
    · rfl
  rw [readEarly] at h
  simp only [hoverlaid] at h
  split_ifs at h
  rw [Option.some.injEq] at h
  rw [← h, platformDetect, setupVendor_reads, platformInfo_reads, platformInfo_reads,
    platformProcessors_reads]
  rfl

lemma processorReads_lt (is calls : List ℕ) (his : ∀ i ∈ is, i < table.count)
    (hcalls : ∀ i ∈ calls, i < table.count) :
    ∀ i ∈ processorReads context readers table is calls, i < table.count := by
  induction is generalizing calls with
  | nil => exact hcalls
  | cons i is ih =>
    have hrest : ∀ j ∈ is, j < table.count := fun j hj => his j (List.mem_cons_of_mem _ hj)
    have hadded : ∀ j ∈ calls ++ [i], j < table.count := by
      intro j hj
      rcases List.mem_append.mp hj with hj | hj
      · exact hcalls j hj
      · exact his j (List.mem_singleton.mp hj ▸ List.mem_cons_self)
    rw [processorReads]
    simp only
    split_ifs
    · exact ih calls hrest hcalls
    · exact hadded
    · exact ih (calls ++ [i]) hrest hadded

lemma firstOfType_lt {type : ℕ} (h : i ∈ firstOfType context readers table calls type) :
    i < table.count := by
  rw [firstOfType, Option.mem_toList] at h
  exact List.mem_range.mp (List.mem_of_find?_eq_some h)

lemma earlyReads_lt (h : i ∈ earlyReads context readers table flags) : i < table.count := by
  refine processorReads_lt _ _ (fun i hi => List.mem_range.mp hi) (fun i hi => ?_) i h
  simp only [List.mem_append] at hi
  rcases hi with ((hi | hi) | hi) | hi
  · rw [additionalReads] at hi
    split_ifs at hi
    · exact List.mem_range.mp (List.mem_of_mem_filter hi)
    · cases hi
  · exact firstOfType_lt hi
  · exact firstOfType_lt hi
  · exact firstOfType_lt hi

end Early

end OpenDmi

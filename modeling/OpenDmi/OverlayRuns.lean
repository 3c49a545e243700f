import OpenDmi.LayoutKept
import OpenDmi.Overlay
import OpenDmi.RegistryTable
import OpenDmi.Specs

namespace OpenDmi

open Bytes LinkedList

variable {registry : Registry} {version : ℕ} {entity : Entity} {entry : AdditionalEntry}
  {state : OverlayState} {address i target : ℕ}

/-- The entry is one for the structure of a number: the first one of its handle, which is not reserved,
does not hold additional information itself, and has the bytes in its body past the header. -/
def accepts (table : List Entity) (i : ℕ) (entry : AdditionalEntry) : Bool :=
  entry.referencedHandle != handleInvalid && entry.referencedHandle != handleUnsupported &&
    table.findIdx? (fun entity => entity.handle == entry.referencedHandle) == some i &&
    table[i]?.any fun entity =>
      entity.typeId != typeAdditionalInfo && headerSize ≤ entry.referencedOffset &&
        entry.referencedOffset + entry.value.bytes.length ≤ entity.bodyLength

def entriesOf (version : ℕ) (entity : Entity) : List AdditionalEntry :=
  if entity.typeId = typeAdditionalInfo then (additionalInfoOf version entity).getD [] else []

def acceptedEntries (version : ℕ) (table : List Entity) (i : ℕ) : List AdditionalEntry :=
  (table.flatMap (entriesOf version)).filter (accepts table i)

lemma getElem?_table (hi : i < registry.allocated) : registry.table[i]? = some (registry.entity i) := by
  simp [Registry.table, hi]

lemma registryLookupEntry_eq (h : registry.Valid) (handle : ℕ) :
    registryLookupEntry registry handle =
      if handle = handleInvalid ∨ handle = handleUnsupported then none
      else registry.table.findIdx? fun entity => entity.handle == handle := by
  rw [registryLookupEntry]
  split_ifs
  · rfl
  have hlen : (registry.slot (handle % registry.capacity)).length ≤ registry.allocated + 1 :=
    (List.length_filter_le _ _).trans (by simp)
  have hslot : (registry.slot (handle % registry.capacity)).find?
      (fun i => (registry.entity i).handle == handle) =
      (List.range registry.allocated).find? fun i => (registry.entity i).handle == handle := by
    rw [Registry.slot, List.find?_filter]
    congr 1
    funext i
    by_cases hi : (registry.entity i).handle = handle <;> simp [hi]
  rw [(h.chain _).find_eq _ hlen, hslot, Registry.table, List.findIdx?_map]
  apply Option.ext
  intro i
  rw [List.find?_range_eq_some, List.findIdx?_eq_some_iff_getElem]
  simp only [List.mem_range, List.length_range, List.getElem_range, Function.comp_apply]
  constructor
  · rintro ⟨hp, hlt, hfirst⟩
    exact ⟨hlt, hp, fun j hj => by simpa using hfirst j hj⟩
  · rintro ⟨hlt, hp, hfirst⟩
    exact ⟨hp, hlt, fun j hj => by simpa using hfirst j hj⟩

structure Attached (registry : Registry) (entries : List AdditionalEntry) (state : OverlayState) :
    Prop where
  overlays : ∀ i, state.overlays i = entries.filter (accepts registry.table i)
  decoded : ∀ i, state.decoded i = true → (registry.entity i).typeId = typeAdditionalInfo

lemma accepts_iff (h : registry.Valid) : accepts registry.table i entry = true ↔
    registryLookupEntry registry entry.referencedHandle = some i ∧
      (registry.entity i).typeId ≠ typeAdditionalInfo ∧ headerSize ≤ entry.referencedOffset ∧
      entry.referencedOffset + entry.value.bytes.length ≤ (registry.entity i).bodyLength := by
  rw [registryLookupEntry_eq h, accepts]
  by_cases hr : entry.referencedHandle = handleInvalid ∨ entry.referencedHandle = handleUnsupported
  · rw [if_pos hr]
    rcases hr with hr | hr <;> simp [hr]
  · rw [if_neg hr]
    obtain ⟨h1, h2⟩ := not_or.mp hr
    by_cases hf : registry.table.findIdx?
      (fun entity => entity.handle == entry.referencedHandle) = some i
    · obtain ⟨hlt, -, -⟩ := List.findIdx?_eq_some_iff_getElem.mp hf
      rw [show registry.table.length = registry.allocated by simp [Registry.table]] at hlt
      simp [h1, h2, hf, getElem?_table hlt, and_assoc]
    · simp [hf]

lemma registryOverlayEntry_attached (h : registry.Valid) {entries : List AdditionalEntry}
    (hs : Attached registry entries state) :
    Attached registry (entries ++ [entry]) (registryOverlayEntry registry state entry) := by
  have hskip : (∀ i, accepts registry.table i entry = false) → ∀ success overlaid,
      Attached registry (entries ++ [entry])
        { state with success := success, overlaid := overlaid } := by
    intro hnone success overlaid
    refine ⟨fun i => ?_, hs.decoded⟩
    rw [List.filter_append, List.filter_singleton, hnone i]
    simpa using hs.overlays i
  have hother : ∀ target i, registryLookupEntry registry entry.referencedHandle = some target →
      i ≠ target → accepts registry.table i entry = false := by
    intro target i hl hne
    by_contra ha
    have hi := ((accepts_iff h).mp (by simpa using ha)).1
    rw [hl] at hi
    exact hne (Option.some.inj hi).symm
  rw [registryOverlayEntry]
  cases hl : registryLookupEntry registry entry.referencedHandle with
  | none =>
    refine hskip (fun i => ?_) _ _
    by_contra ha
    have hi := ((accepts_iff h).mp (by simpa using ha)).1
    rw [hl] at hi
    cases hi
  | some target =>
    have hreject : (registry.entity target).typeId = typeAdditionalInfo ∨
        entry.referencedOffset < headerSize ∨ entry.referencedOffset + entry.value.bytes.length >
          (registry.entity target).bodyLength → ∀ i, accepts registry.table i entry = false := by
      intro hbad i
      by_contra ha
      obtain ⟨hi, htype, hlo, hhi⟩ := (accepts_iff h).mp (by simpa using ha)
      rw [hl] at hi
      obtain rfl := Option.some.inj hi
      rcases hbad with hbad | hbad | hbad
      · exact htype hbad
      · omega
      · omega
    simp only
    by_cases hd : state.decoded target = true
    · rw [entityAddOverlay, if_pos hd]
      exact hskip (hreject (.inl (hs.decoded target hd))) _ _
    by_cases htype : (registry.entity target).typeId = typeAdditionalInfo
    · rw [entityAddOverlay, if_neg hd, if_pos htype]
      exact hskip (hreject (.inl htype)) _ _
    by_cases hfit : entry.referencedOffset < headerSize ∨
      entry.referencedOffset + entry.value.bytes.length > (registry.entity target).bodyLength
    · rw [entityAddOverlay, if_neg hd, if_neg htype, if_pos hfit]
      exact hskip (hreject (.inr hfit)) _ _
    rw [entityAddOverlay, if_neg hd, if_neg htype, if_neg hfit]
    refine ⟨fun i => ?_, hs.decoded⟩
    rw [List.filter_append, List.filter_singleton]
    simp only [Function.update_apply]
    by_cases hi : i = target
    · have hacc : accepts registry.table target entry = true :=
        (accepts_iff h).mpr ⟨hl, htype, by omega, by omega⟩
      rw [if_pos hi, hi, hs.overlays, hacc]
      rfl
    · rw [if_neg hi, hs.overlays, hother target i hl hi]
      simp

lemma registryOverlayEntity_attached (h : registry.Valid) {entries : List AdditionalEntry}
    (hs : Attached registry entries state) :
    Attached registry (entries ++ entriesOf version (registry.entity i))
      (registryOverlayEntity version registry state i) := by
  rw [registryOverlayEntity, entriesOf]
  by_cases htype : (registry.entity i).typeId = typeAdditionalInfo
  · simp only [htype, ne_eq, not_true_eq_false, if_false, if_true]
    cases he : additionalInfoOf version (registry.entity i) with
    | none => exact ⟨by simpa using hs.overlays, hs.decoded⟩
    | some found =>
      simp only [Option.getD_some]
      have hstart : Attached registry entries
          { state with decoded := Function.update state.decoded i true } := by
        refine ⟨hs.overlays, fun j hj => ?_⟩
        by_cases hji : j = i
        · rw [hji]
          exact htype
        · simp only [Function.update_of_ne hji] at hj
          exact hs.decoded j hj
      generalize { state with decoded := Function.update state.decoded i true } = start at hstart ⊢
      clear hs he
      induction found generalizing entries start with
      | nil => simpa using hstart
      | cons entry found ih =>
        have hone : Attached registry (entries ++ [entry]) (registryOverlayEntry registry start entry) :=
          registryOverlayEntry_attached h hstart
        have hnext := ih _ hone
        rwa [List.append_assoc, List.singleton_append] at hnext
  · simp only [htype, ne_eq, not_false_eq_true, if_true, if_false, List.append_nil]
    exact hs

lemma registryNumbers_eq {fuel : ℕ} {iter : RegistryIter} {rest : List ℕ}
    (hf : iter.filter = none) (hd : iter.isDone = false)
    (hl : Links registry.seqNext (iterStart registry iter) rest)
    (hlen : rest.length ≤ registry.allocated) (hfuel : rest.length < fuel) :
    registryNumbers registry fuel iter = rest := by
  induction fuel generalizing iter rest with
  | zero => omega
  | succ fuel ih =>
    have hfind := hl.find_eq (iterMatch registry none) (hlen.trans (Nat.le_succ _))
    rw [registryNumbers, registryIterNext]
    simp only [hd, hf, hfind, Bool.false_eq_true, if_false]
    cases rest with
    | nil => rfl
    | cons i rest =>
      have hstart : Links registry.seqNext (iterStart registry iter) ([] ++ i :: rest) := hl
      have hnext : Links registry.seqNext (registry.seqNext i) rest := hstart.split
      simp only [List.find?_cons, iterMatch, Option.toList_some, List.singleton_append]
      have hrest := @ih ⟨some i, none, false⟩ rest rfl rfl hnext
        (by simp only [List.length_cons] at hlen; omega)
        (by simp only [List.length_cons] at hfuel; omega)
      rw [hrest]

lemma registryNumbers_range (h : registry.Valid) :
    registryNumbers registry (registry.allocated + 1) (registryIterInitialize none) =
      List.range registry.allocated :=
  registryNumbers_eq rfl rfl h.sequence (by simp) (by simp)

lemma registryOverlay_attached (h : registry.Valid) (strict : Bool) :
    Attached registry (registry.table.flatMap (entriesOf version))
      (registryOverlay strict version registry).2 := by
  have hrun : ∀ (numbers : List ℕ) entries state, Attached registry entries state →
      Attached registry (entries ++ (numbers.map registry.entity).flatMap (entriesOf version))
        (numbers.foldl (registryOverlayEntity version registry) state) := by
    intro numbers
    induction numbers with
    | nil => intro entries state hs; simpa using hs
    | cons i numbers ih =>
      intro entries state hs
      have hone : Attached registry (entries ++ entriesOf version (registry.entity i))
          (registryOverlayEntity version registry state i) := registryOverlayEntity_attached h hs
      have hnext := ih _ _ hone
      rwa [List.append_assoc] at hnext
  have hall := hrun (List.range registry.allocated) [] ⟨true, false, fun _ => false, fun _ => []⟩
    ⟨fun _ => rfl, fun _ hj => by cases hj⟩
  rw [registryOverlay, registryNumbers_range h]
  exact hall

lemma entityApplyOverlays_rest (address : ℕ) (entries : List AdditionalEntry) (entity : Entity) :
    entityApplyOverlays address entries entity =
      { entity with overlay := (entityApplyOverlays address entries entity).overlay } := by
  rw [entityApplyOverlays]
  split_ifs <;> rfl

lemma entitySource_overlay (entity : Entity) (overlay : Option Buffer) (version : ℕ) :
    entitySource { entity with overlay := overlay } version = { entitySource entity version with
      body := (entitySource { entity with overlay := overlay } version).body } := rfl

lemma overlaid_body (version : ℕ) {entries : List AdditionalEntry} (hplain : entity.overlay = none)
    (hinside : entity.offset + entity.bodyLength ≤ entity.buffer.data.length)
    (hentries : ∀ entry ∈ entries,
      entry.referencedOffset + entry.value.bytes.length ≤ entity.bodyLength) :
    (entitySource (entityApplyOverlays address entries entity) version).body =
      Patch.applyAll (window entity.buffer.data entity.offset entity.bodyLength)
        (entries.map entryPatch) := by
  rw [entityApplyOverlays]
  split_ifs with hnil
  · simp [hnil, entitySource, entityBuffer, entityOffset, hplain]
  · have hpatches : Patch.Inside (window entity.buffer.data entity.offset
        entity.bodyLength).length (entries.map entryPatch) := by
      rw [window_length hinside]
      intro patch hp
      obtain ⟨entry, hm, rfl⟩ := List.mem_map.mp hp
      exact hentries entry hm
    have hlength := Patch.applyAll_length hpatches
    rw [window_length hinside] at hlength
    simp only [entitySource, entityBuffer, entityOffset, Option.getD_some, Option.isSome_some,
      if_true]
    rw [window, List.drop_zero, List.take_of_length_le (by omega)]

lemma acceptedEntries_inside {table : List Entity} (hi : table[i]? = some entity)
    (hm : entry ∈ acceptedEntries version table i) : headerSize ≤ entry.referencedOffset ∧
      entry.referencedOffset + entry.value.bytes.length ≤ entity.bodyLength := by
  have hacc := (List.mem_filter.mp hm).2
  simp only [accepts, hi, Option.any_some, Bool.and_eq_true, decide_eq_true_eq] at hacc
  exact ⟨hacc.2.1.2, hacc.2.2⟩

lemma registryScan_placed {strict : Bool} {table : Buffer} {entityCount capacity : ℕ}
    (hscan : registryScan strict table entityCount (registryCreate capacity) =
      some (true, registry)) :
    registry.Valid ∧ ∀ entity ∈ registry.table,
      entityCreate table entity.offset = .ok entity ∧
        entity.offset + entity.bodyLength ≤ table.data.length := by
  obtain ⟨success, found, heq, hspec⟩ := registryScan_spec strict table entityCount capacity
  rw [hscan] at heq
  obtain ⟨rfl, rfl⟩ := Prod.mk.inj (Option.some.inj heq)
  obtain ⟨stop, hspec⟩ := hspec
  refine ⟨hspec.valid, fun entity hm => ⟨registryScan_created hscan entity hm, ?_⟩⟩
  obtain ⟨hof, -, -⟩ := hspec.tiles.entity hm
  have htotal := hof.total
  have hwhole := hof.whole.total_le
  omega

theorem registryOverlay_reads_accepted {strict : Bool} {table : Buffer} {entityCount capacity : ℕ}
    (hscan : registryScan strict table entityCount (registryCreate capacity) =
      some (true, registry))
    (version address : ℕ) {i : ℕ} {entity : Entity} (hi : registry.table[i]? = some entity) :
    let state := (registryOverlay strict version registry).2
    let seen := entityApplyOverlays address (state.overlays i) entity
    let accepted := (acceptedEntries version registry.table i).map entryPatch
    let body := (entitySource seen version).body
    seen = { entity with overlay := seen.overlay } ∧ seen.buffer = table ∧
      entitySource seen version = { entitySource entity version with body := body } ∧
      body = Patch.applyAll (window table.data entity.offset entity.bodyLength) accepted ∧
      body.length = entity.bodyLength ∧
      (∀ x < entity.bodyLength, body[x]? = (Patch.last accepted x).elim
        table.data[entity.offset + x]? fun patch => patch.bytes[x - patch.offset]?) ∧
      ∀ x < headerSize, body[x]? = table.data[entity.offset + x]? := by
  intro state seen accepted body
  obtain ⟨hvalid, hcreated⟩ := registryScan_placed hscan
  obtain ⟨hof, hinside⟩ := hcreated entity (List.mem_of_getElem? hi)
  obtain ⟨hplain, hbuffer, -⟩ := entityCreate_plain hof
  have hrest : seen = { entity with overlay := seen.overlay } := entityApplyOverlays_rest _ _ _
  have hoverlays : state.overlays i = acceptedEntries version registry.table i :=
    (registryOverlay_attached hvalid strict).overlays i
  have hwindow : (window table.data entity.offset entity.bodyLength).length = entity.bodyLength :=
    window_length hinside
  have hpatches : Patch.Inside (window table.data entity.offset entity.bodyLength).length
      accepted := by
    intro patch hp
    obtain ⟨entry, hm, rfl⟩ := List.mem_map.mp hp
    rw [hwindow]
    exact (acceptedEntries_inside hi hm).2
  have hbody : body =
      Patch.applyAll (window table.data entity.offset entity.bodyLength) accepted := by
    change (entitySource (entityApplyOverlays address (state.overlays i) entity) version).body = _
    rw [hoverlays, overlaid_body version hplain (hbuffer ▸ hinside) fun _ hm =>
      (acceptedEntries_inside hi hm).2, hbuffer]
  have hsource (x : ℕ) (hx : x < entity.bodyLength) :
      (window table.data entity.offset entity.bodyLength)[x]? = table.data[entity.offset + x]? := by
    rw [window, List.getElem?_take, if_pos hx, List.getElem?_drop]
  have hbytes : ∀ x < entity.bodyLength, body[x]? = (Patch.last accepted x).elim
      table.data[entity.offset + x]? fun patch => patch.bytes[x - patch.offset]? := by
    intro x hx
    rw [hbody, Patch.getElem?_applyAll hpatches, hsource x hx]
  refine ⟨hrest, ?_, ?_, hbody, ?_, hbytes, fun x hx => ?_⟩
  · rw [hrest]
    exact hbuffer
  · have hread := entitySource_overlay entity seen.overlay version
    rwa [← hrest] at hread
  · rw [hbody, Patch.applyAll_length hpatches, hwindow]
  · have hlong : headerSize ≤ entity.bodyLength := by
      have hread : SourceOk (entitySource entity version) := entitySource_ok hof
      have hlong := hread.long
      rwa [entitySource, entityBuffer, entityOffset, hplain, hbuffer, Option.getD_none,
        Option.isSome_none, if_neg Bool.false_ne_true, hwindow] at hlong
    have hnone : Patch.last accepted x = none := by
      refine Patch.last_eq_none.mpr fun patch hp => ?_
      obtain ⟨entry, hm, rfl⟩ := List.mem_map.mp hp
      have hpast := (acceptedEntries_inside hi hm).1
      rw [← Bool.not_eq_true, Patch.covers_iff]
      simp only [entryPatch]
      omega
    rw [hbytes x (by omega), hnone]
    rfl

def overlaidTable (handle : Byte) : Buffer :=
  ⟨0, [1, 6, handle, 0xFF, 5, 5, 0, 0, 40, 0x0B, 2, 0, 1, 6, handle, 0xFF, 4, 0, 7, 0, 0]⟩

lemma overlaid_scanned : registryScan false (overlaidTable 0x10) 0 (registryCreate 0) =
    some (true, scanned (overlaidTable 0x10)) :=
  scanned_eq (by decide)

theorem registryOverlay_reads_seven :
    ∃ entity, (scanned (overlaidTable 0x10)).table[0]? = some entity ∧
      (entitySource (entityApplyOverlays 9
        ((registryOverlay false 0x030000 (scanned (overlaidTable 0x10))).2.overlays 0) entity)
          0x030000).body = [1, 6, 0x10, 0xFF, 7, 5] := by
  refine ⟨_, rfl, ?_⟩
  have hread := registryOverlay_reads_accepted overlaid_scanned 0x030000 9 (i := 0) rfl
  exact hread.2.2.2.1.trans (by decide)

theorem reserved_handle_rejected :
    ∃ entity entry, (scanned (overlaidTable 0xFE)).table[0]? = some entity ∧
      entry ∈ (scanned (overlaidTable 0xFE)).table.flatMap (entriesOf 0x030000) ∧
      (scanned (overlaidTable 0xFE)).table.findIdx?
        (fun entity => entity.handle == entry.referencedHandle) = some 0 ∧
      entity.typeId ≠ typeAdditionalInfo ∧ headerSize ≤ entry.referencedOffset ∧
      entry.referencedOffset + entry.value.bytes.length ≤ entity.bodyLength ∧
      registryScan false (overlaidTable 0xFE) 0 (registryCreate 0) =
        some (true, scanned (overlaidTable 0xFE)) ∧
      (entitySource (entityApplyOverlays 9
        ((registryOverlay false 0x030000 (scanned (overlaidTable 0xFE))).2.overlays 0) entity)
          0x030000).body ≠ Patch.applyAll (entitySource entity 0x030000).body [entryPatch entry] :=
  ⟨_, ⟨0xFFFE, 4, .null, ⟨some 10, [7]⟩⟩, rfl, by decide, by decide,
    by decide, by decide, by decide, scanned_eq (by decide),
    by decide⟩

end OpenDmi

import OpenDmi.LayoutKept

namespace OpenDmi

open Bytes Occurrences

variable {cx : AnonymizeContext} {first anon : Anonymizer} {entity : Entity}
  {string : StringEntry} {stop x : ℕ}

def NoNulWritten (cx : AnonymizeContext) (values : List AnonymizeValue) : Prop :=
  ∀ entity ∈ cx.registry.table, ∀ string ∈ entity.strings,
    ∀ x, string.offset ≤ x → x < string.offset + string.raw.length → ∀ patch,
      Patch.last (regionPatches cx values (stringRegion string)) x = some patch →
      patch.bytes[x - patch.offset]? ≠ some 0

def KeepsLayout (strict : Bool) (entityCount capacity address : ℕ) (cx : AnonymizeContext)
    (anon : Anonymizer) : Prop :=
  ∃ registry, registryScan strict ⟨address, anonymizeTable cx anon⟩ entityCount
      (registryCreate capacity) = some (true, registry) ∧
    registry.table.map entityShape = cx.registry.table.map entityShape

lemma mem_regions_string (hm : entity ∈ cx.registry.table) (hs : string ∈ entity.strings) :
    stringRegion string ∈ regions cx :=
  List.mem_flatMap.mpr ⟨entity, hm, List.mem_append_left _ (List.mem_map.mpr ⟨string, hs, rfl⟩)⟩

lemma mem_regions_body (hm : entity ∈ cx.registry.table) : bodyRegion entity ∈ regions cx :=
  List.mem_flatMap.mpr ⟨entity, hm, List.mem_append_right _ (List.mem_singleton_self _)⟩

lemma first_kept (hc : Created cx) (ht : Tiled cx stop) (hp : FirstPass cx decodedWithin first)
    (hx : ∀ region ∈ regions cx, ¬ (region.start ≤ x ∧ x < region.finish)) :
    (anonymizeTable cx first)[x]? = cx.source.data[x]? := by
  rw [anonymizeTable, Patch.getElem?_applyAll (hp.inside ht)]
  cases hlast : Patch.last first.patches x with
  | none => rfl
  | some patch =>
    obtain ⟨hm, hcovers⟩ := Patch.last_some hlast
    obtain ⟨entity, he, hw⟩ := hp.patches patch hm
    rcases hw.cases hc ht he hcovers with ⟨string, hs, hlo, hhi, -⟩ | hbody | ⟨-, -, hsame⟩
    · exact absurd ⟨hlo, hhi⟩ (hx _ (mem_regions_string he hs))
    · exact absurd hbody (hx _ (mem_regions_body he))
    · exact hsame

lemma string_inside (ht : Tiled cx stop) (hm : entity ∈ cx.registry.table)
    (hs : string ∈ entity.strings) (hlo : string.offset ≤ x)
    (hhi : x < string.offset + string.raw.length) :
    entity.offset + entity.bodyLength ≤ x ∧ x + 2 < entity.offset + entity.totalLength ∧
      cx.source.data[x]? ≠ some 0 := by
  obtain ⟨hof, -, -⟩ := ht.tiles.entity hm
  have hin := hof.string_in hs
  have hstart := hin.start
  have hinside := hin.inside
  obtain ⟨k, -, hextra, htotal, -⟩ := hof.area
  refine ⟨by omega, by omega, fun h0 => ?_⟩
  have hraw := hin.raw (x - string.offset) (by omega)
  rw [List.getElem?_drop, show entity.offset + entity.bodyLength + (string.offset -
    (entity.offset + entity.bodyLength) + (x - string.offset)) = x by omega, h0] at hraw
  exact hin.nonzero 0 (List.mem_of_getElem? hraw) rfl

lemma first_string (hc : Created cx) (ht : Tiled cx stop) (hp : FirstPass cx decodedWithin first)
    (hm : entity ∈ cx.registry.table) (hs : string ∈ entity.strings) (hlo : string.offset ≤ x)
    (hhi : x < string.offset + string.raw.length) : (anonymizeTable cx first)[x]? ≠ some 0 := by
  obtain ⟨hbody, htotal, hsource⟩ := string_inside ht hm hs hlo hhi
  rw [anonymizeTable, Patch.getElem?_applyAll (hp.inside ht)]
  cases hlast : Patch.last first.patches x with
  | none => exact hsource
  | some patch =>
    obtain ⟨hpm, hcovers⟩ := Patch.last_some hlast
    obtain ⟨other, ho, hw⟩ := hp.patches patch hpm
    have hsum := (ht.tiles.entity ho).1.total
    have hle := (ht.tiles.entity ho).1.whole.body
    rw [← (ht.tiles.entity ho).1.body] at hle
    have hapart : other.offset ≤ x → ¬ x < other.offset + other.bodyLength := by
      intro hlo' hhi'
      obtain rfl := ht.tiles.unique hm ho ⟨by omega, by omega⟩ ⟨hlo', by omega⟩
      omega
    rcases hw.cases hc ht ho hcovers with ⟨-, -, -, -, hnonzero⟩ | ⟨hlo', hhi'⟩ | ⟨hlo', hhi', -⟩
    · exact hnonzero
    · exact absurd hhi' (hapart (by omega))
    · exact absurd (show x < other.offset + other.bodyLength by omega) (hapart hlo')

lemma table_kept (hc : Created cx) (ht : Tiled cx stop) (hp : FirstPass cx decodedWithin first)
    (hx : ∀ region ∈ regions cx, ¬ (region.start ≤ x ∧ x < region.finish)) :
    (anonymizeTable cx (anonymizedBy cx first))[x]? = cx.source.data[x]? := by
  rw [anonymizedBy_getElem? ht hp.values (hp.inside ht), ht.last_outside hp.values hx]
  exact first_kept hc ht hp hx

lemma table_string (hc : Created cx) (ht : Tiled cx stop) (hp : FirstPass cx decodedWithin first)
    (hm : entity ∈ cx.registry.table) (hs : string ∈ entity.strings) (hlo : string.offset ≤ x)
    (hhi : x < string.offset + string.raw.length) :
    (anonymizeTable cx (anonymizedBy cx first))[x]? ≠ some 0 ↔
      ∀ patch, Patch.last (regionPatches cx first.values (stringRegion string)) x = some patch →
        patch.bytes[x - patch.offset]? ≠ some 0 := by
  rw [anonymizedBy_getElem? ht hp.values (hp.inside ht),
    ht.last_region hp.values (mem_regions_string hm hs) hlo hhi]
  cases Patch.last (regionPatches cx first.values (stringRegion string)) x with
  | none => simpa using first_string hc ht hp hm hs hlo hhi
  | some patch => simp

lemma outside_regions (ht : Tiled cx stop) (hm : entity ∈ cx.registry.table)
    (hlo : entity.offset ≤ x) (hhi : x < entity.offset + entity.totalLength)
    (hbody : x < entity.offset + headerSize ∨ entity.offset + entity.bodyLength ≤ x)
    (hstring : ∀ string ∈ entity.strings,
      ¬ (string.offset ≤ x ∧ x < string.offset + string.raw.length)) :
    ∀ region ∈ regions cx, ¬ (region.start ≤ x ∧ x < region.finish) := by
  rintro region hr ⟨hstart, hfinish⟩
  obtain ⟨owner, ho, hr⟩ := List.mem_flatMap.mp hr
  have hin := (ht.tiles.entity ho).1.regions hr
  obtain rfl := ht.tiles.unique hm ho ⟨hlo, hhi⟩ ⟨by omega, by omega⟩
  rcases List.mem_append.mp hr with hr | hr
  · obtain ⟨string, hs, rfl⟩ := List.mem_map.mp hr
    exact hstring string hs ⟨hstart, hfinish⟩
  · rw [List.mem_singleton.mp hr] at hstart hfinish
    simp only [bodyRegion] at hstart hfinish
    omega

lemma nuls_kept (hc : Created cx) (ht : Tiled cx stop) (hp : FirstPass cx decodedWithin first)
    (hm : entity ∈ cx.registry.table) :
    (∀ i < headerSize, (anonymizeTable cx (anonymizedBy cx first))[entity.offset + i]? =
      cx.source.data[entity.offset + i]?) ∧
    ∀ i, entity.offset + entity.bodyLength ≤ i → i < entity.offset + entity.totalLength →
      cx.source.data[i]? = some 0 →
      (anonymizeTable cx (anonymizedBy cx first))[i]? = some 0 := by
  obtain ⟨hof, -, -⟩ := ht.tiles.entity hm
  have hle := hof.whole.body
  rw [← hof.body] at hle
  have hsum := hof.total
  constructor
  · intro i hi
    refine table_kept hc ht hp (outside_regions ht hm (by omega) (by omega) (.inl (by omega)) ?_)
    intro string hs hx
    have hin := string_inside ht hm hs hx.1 hx.2
    omega
  · intro i hlo hhi h0
    rw [← h0]
    refine table_kept hc ht hp (outside_regions ht hm (by omega) hhi (.inr hlo) ?_)
    intro string hs hx
    exact (string_inside ht hm hs hx.1 hx.2).2.2 h0

lemma sameLayout (hc : Created cx) (ht : Tiled cx stop) (hp : FirstPass cx decodedWithin first)
    (hn : NoNulWritten cx first.values) (address : ℕ) :
    SameLayout cx.source ⟨address, anonymizeTable cx (anonymizedBy cx first)⟩
      cx.registry.table where
  length := Patch.applyAll_length (anonymizedBy_inside ht hp.values (hp.inside ht))
  created entity hm := by
    obtain ⟨hheader, hnuls⟩ := nuls_kept hc ht hp hm
    refine SameNuls.created ⟨Patch.applyAll_length (anonymizedBy_inside ht hp.values
      (hp.inside ht)), hheader, fun i hlo hhi => ⟨fun h0 => ?_, hnuls i hlo hhi⟩⟩
      (ht.tiles.entity hm).1
    by_cases hstring : ∃ string ∈ entity.strings,
      string.offset ≤ i ∧ i < string.offset + string.raw.length
    · obtain ⟨string, hs, hlo', hhi'⟩ := hstring
      exact absurd h0 ((table_string hc ht hp hm hs hlo' hhi').mpr
        (hn entity hm string hs i hlo' hhi'))
    · push Not at hstring
      rw [← h0]
      exact (table_kept hc ht hp (outside_regions ht hm (by omega) hhi (.inr hlo)
        fun string hs hx => absurd hx.2 (not_lt.mpr (hstring string hs hx.1)))).symm
  beyond offset hbeyond := by
    apply List.ext_getElem?
    intro i
    rw [List.getElem?_drop, List.getElem?_drop]
    refine table_kept hc ht hp fun region hr hx => ?_
    obtain ⟨owner, ho, hr⟩ := List.mem_flatMap.mp hr
    have hin := (ht.tiles.entity ho).1.regions hr
    have hend := hbeyond owner ho
    omega

/-- A byte of a string which comes to hold NUL would give its structure one string more. -/
lemma keepsLayout_byte {strict : Bool} {entityCount capacity address : ℕ} (hc : Created cx)
    (ht : Tiled cx stop) (hp : FirstPass cx decodedWithin first)
    (hkept : KeepsLayout strict entityCount capacity address cx (anonymizedBy cx first))
    (hm : entity ∈ cx.registry.table) (hs : string ∈ entity.strings) (hlo : string.offset ≤ x)
    (hhi : x < string.offset + string.raw.length) :
    (anonymizeTable cx (anonymizedBy cx first))[x]? ≠ some 0 := by
  intro h0
  obtain ⟨registry, hregistry, hshapes⟩ := hkept
  have hshape : entityShape entity ∈ registry.table.map entityShape := by
    rw [hshapes]
    exact List.mem_map.mpr ⟨entity, hm, rfl⟩
  obtain ⟨other, ho, hother⟩ := List.mem_map.mp hshape
  obtain ⟨success, found, heq, hspec⟩ := registryScan_spec strict
    ⟨address, anonymizeTable cx (anonymizedBy cx first)⟩ entityCount capacity
  obtain ⟨rfl, rfl⟩ : success = true ∧ found = registry := by
    simpa using heq.symm.trans hregistry
  obtain ⟨end', hend⟩ := hspec
  obtain ⟨k, -, -, htotal, hcount⟩ := (ht.tiles.entity hm).1.area
  obtain ⟨j, -, -, htotal', hcount'⟩ := (hend.tiles.entity ho).1.area
  have hoffset : other.offset = entity.offset := congrArg Shape.offset hother
  have hbody : other.bodyLength = entity.bodyLength := congrArg Shape.bodyLength hother
  have hlength : other.totalLength = entity.totalLength := congrArg Shape.totalLength hother
  have hstrings : other.strings.length = entity.strings.length :=
    congrArg Shape.stringCount hother
  obtain rfl : j = k := by omega
  obtain ⟨hbodyx, htotalx, hsource⟩ := string_inside ht hm hs hlo hhi
  have hpos : 0 < entity.strings.length := List.length_pos_of_mem hs
  rw [hoffset, hbody] at hcount'
  have hmore : nulCount (cx.source.data.drop (entity.offset + entity.bodyLength)) j <
      nulCount ((anonymizeTable cx (anonymizedBy cx first)).drop
        (entity.offset + entity.bodyLength)) j := by
    refine nulCount_lt (i := x - (entity.offset + entity.bodyLength)) (by omega)
      (fun i hi hzero => ?_) ?_ ?_
    · rw [List.getElem?_drop] at hzero ⊢
      exact (nuls_kept hc ht hp hm).2 _ (by omega) (by omega) hzero
    · rwa [List.getElem?_drop, Nat.add_sub_cancel' hbodyx]
    · rwa [List.getElem?_drop, Nat.add_sub_cancel' hbodyx]
  dsimp only at hcount'
  split_ifs at hcount hcount' <;> omega

theorem anonymize_keepsLayout_iff {strict : Bool} {entityCount capacity : ℕ} (address : ℕ)
    (hscan : registryScan strict cx.source entityCount (registryCreate capacity) =
      some (true, cx.registry))
    (hwithin : ∀ entity ∈ cx.registry.table, ∀ decoded, cx.decoded entity = some decoded →
      decoded.info.Within entity.bodyLength)
    (h : anonymize cx = some anon) :
    KeepsLayout strict entityCount capacity address cx anon ↔ NoNulWritten cx anon.values := by
  obtain ⟨stop, ht⟩ := scan_tiled hscan
  have hc := scan_created hscan
  obtain ⟨first, hfirst, rfl⟩ := anonymize_eq h
  have hp : FirstPass cx decodedWithin first :=
    firstPass ht (fun entity => within_closed entity.bodyLength) hwithin hfirst
  constructor
  · intro hkept entity hm string hs x hlo hhi
    exact (table_string hc ht hp hm hs hlo hhi).mp (keepsLayout_byte hc ht hp hkept hm hs hlo hhi)
  · intro hn
    have hsame := sameLayout hc ht hp hn address
    have hlength : (⟨address, anonymizeTable cx (anonymizedBy cx first)⟩ : Buffer).length =
      cx.source.length := hsame.length
    simp only [registryScan, registryCreate, Bool.false_eq_true, if_false] at hscan
    obtain ⟨registry, hregistry, hshapes⟩ := registryScanLoop_lockstep
      (scanInv_initial _ entityCount capacity) (scanInv_initial _ entityCount capacity) rfl hscan
      hsame
    refine ⟨registry, ?_, hshapes⟩
    simp only [registryScan, registryCreate, Bool.false_eq_true, if_false, hlength]
    exact hregistry

lemma declared_within {spec : Entity → Option DeclaredSpec} {version : ℕ} (hc : Created cx)
    (ht : Tiled cx stop) (hd : cx.decoded = entityDecode spec version)
    (hspec : ∀ entity declared, spec entity = some declared →
      ∀ f ∈ declared.fields, FieldTree RefersToRead f) :
    ∀ entity ∈ cx.registry.table, ∀ decoded, cx.decoded entity = some decoded →
      decoded.info.Within entity.bodyLength := by
  intro entity hm decoded hdecoded
  rw [hd, entityDecode] at hdecoded
  cases hs : spec entity with
  | none =>
    rw [hs] at hdecoded
    cases hdecoded
  | some declared =>
    simp only [hs] at hdecoded
    split_ifs at hdecoded
    obtain rfl := Option.some.inj hdecoded
    obtain ⟨hof, -, -⟩ := ht.tiles.entity hm
    have hinside := hof.whole.inside
    rw [← hof.body] at hinside
    have hlength : (entitySource entity version).body.length = entity.bodyLength := by
      rw [(hc.body hm version).2, window_length hinside]
    exact hlength ▸ fieldsDecode_within (hspec entity declared hs) declared.minimumVersion

lemma fieldTree_leaf {field : Field} (hn : field.fields = []) (hd : field.params.decode = none)
    (ha : field.params.absent = none) : FieldTree RefersToRead field :=
  .intro ⟨by simp [hd], by simp [ha]⟩ (by simp [hn])

def firewireOnly (entity : Entity) : Option DeclaredSpec :=
  if entity.typeId = 139 then some firewireGuidSpec else none

def firewireGuid : List Byte := stringBytes "FIREWIRE-GUID-0123456789ABCDEFGHIJKLM112"

def firewireTable : Buffer :=
  ⟨0, [139, 0x36, 1, 0, 0xFE, 0xDC, 0xBA, 0x98, 0x76, 0x54, 0x32, 0x10] ++ firewireGuid ++ [0, 1] ++
    firewireGuid ++ [0, 0, 127, 4, 2, 0, 0, 0]⟩

def firewireContext : AnonymizeContext := declaredContext firewireOnly firewireTable

def firewireResult : Anonymizer :=
  let replacement := anonymizeBytes ⟨0, 0⟩ firewireGuid 0
  ⟨[⟨12, replacement⟩, ⟨54, replacement⟩, ⟨12, replacement⟩], [⟨firewireGuid, replacement, true⟩]⟩

lemma firewire_scanned :
    registryScan false firewireTable 0 (registryCreate 0) = some (true, scanned firewireTable) :=
  scanned_eq (by decide)

lemma firewire_anonymized : anonymize firewireContext = some firewireResult := by decide +kernel

theorem firewire_name_is_split :
    registryScan false firewireContext.source 0 (registryCreate 0) =
        some (true, firewireContext.registry) ∧
      anonymize firewireContext = some firewireResult ∧
      ¬ KeepsLayout false 0 0 0 firewireContext firewireResult := by
  refine ⟨firewire_scanned, firewire_anonymized, ?_⟩
  rintro ⟨registry, hregistry, hshapes⟩
  have hdiffer : (registryScan false ⟨0, anonymizeTable firewireContext firewireResult⟩ 0
      (registryCreate 0)).map (fun result => result.2.table.map entityShape) ≠
      some (firewireContext.registry.table.map entityShape) := by decide +kernel
  rw [hregistry, Option.map_some, hshapes] at hdiffer
  exact hdiffer rfl

lemma firewire_refers {entity : Entity} {declared : DeclaredSpec}
    (h : firewireOnly entity = some declared) :
    ∀ f ∈ declared.fields, FieldTree RefersToRead f := by
  intro f hf
  obtain rfl : firewireGuidSpec = declared := by
    rw [firewireOnly] at h
    split_ifs at h
    exact Option.some.inj h
  simp only [firewireGuidSpec, List.mem_cons, List.not_mem_nil, or_false] at hf
  rcases hf with rfl | rfl | rfl | rfl <;> exact fieldTree_leaf rfl rfl rfl

/-- The same structure of another name. -/
def namedTable : Buffer :=
  ⟨0, [139, 0x36, 1, 0, 0xFE, 0xDC, 0xBA, 0x98, 0x76, 0x54, 0x32, 0x10] ++ firewireGuid ++ [0, 1] ++
    stringBytes "Camera" ++ [0, 0, 127, 4, 2, 0, 0, 0]⟩

def namedContext : AnonymizeContext := declaredContext firewireOnly namedTable

def namedResult : Anonymizer :=
  let replacement := anonymizeBytes ⟨0, 0⟩ firewireGuid 0
  ⟨[⟨12, replacement⟩, ⟨12, replacement⟩], [⟨firewireGuid, replacement, true⟩]⟩

lemma named_scanned :
    registryScan false namedTable 0 (registryCreate 0) = some (true, scanned namedTable) :=
  scanned_eq (by decide)

lemma named_anonymized : anonymize namedContext = some namedResult := by decide +kernel

theorem firewire_keepsLayout :
    (KeepsLayout false 0 0 0 firewireContext firewireResult ↔
      NoNulWritten firewireContext firewireResult.values) ∧
    KeepsLayout false 0 0 0 namedContext namedResult ∧
      NoNulWritten namedContext namedResult.values := by
  obtain ⟨stop, ht⟩ : ∃ stop, Tiled firewireContext stop := scan_tiled firewire_scanned
  obtain ⟨stop', ht'⟩ : ∃ stop, Tiled namedContext stop := scan_tiled named_scanned
  have hkept : KeepsLayout false 0 0 0 namedContext namedResult :=
    ⟨scanned ⟨0, anonymizeTable namedContext namedResult⟩, scanned_eq (by decide +kernel),
      by decide +kernel⟩
  refine ⟨anonymize_keepsLayout_iff 0 firewire_scanned
    (declared_within (scan_created firewire_scanned) ht rfl fun _ _ => firewire_refers)
    firewire_anonymized, hkept, ?_⟩
  exact (anonymize_keepsLayout_iff 0 named_scanned
    (declared_within (scan_created named_scanned) ht' rfl fun _ _ => firewire_refers)
    named_anonymized).mp hkept

end OpenDmi

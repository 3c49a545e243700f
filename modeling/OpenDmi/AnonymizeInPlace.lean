import OpenDmi.Leak
import OpenDmi.OpenStructures
import OpenDmi.TableWalk

/-! Anonymization of an open context: its structures are read anew from the copy, and the context is
put back when they cannot be. -/

namespace OpenDmi

open Bytes

structure VendorSpec where
  id : ℕ
  names : List (List Byte)
  deriving DecidableEq

def lowerByte (b : Byte) : Byte := if 65 ≤ b.toNat ∧ b.toNat ≤ 90 then b + 32 else b

def vendorDetect (vendors : List VendorSpec) (name : Option (List Byte)) : Option VendorSpec :=
  name.bind fun name => vendors.find? fun vendor => vendor.names.any fun known =>
    known.map lowerByte == (entityStringTrim name).map lowerByte

structure Structures where
  registry : Registry
  read : ReadState

structure OpenedContext extends TypeContext where
  flags : OpenFlags
  linking : Bool
  version : ℕ
  entityCount : ℕ
  table : Buffer
  registry : Option Structures
  vendor : ℕ
  vendorName : Option (List Byte)

/-- The library a context is anonymized by: the vendors, what the specifications make of the
structures, and whether the references of structures are resolved. -/
structure Reading where
  vendors : List VendorSpec
  readers : Readers
  firmwareVendor : Entity → Option (List Byte)
  decoded : ReadState → Entity → Option Decoded
  links : ReadState → Bool

/-- Where memory runs out, if it does. -/
structure Faults where
  rewriting : Bool
  registry : Bool
  scan : Bool
  vendor : Bool
  decode : Bool
  link : Bool

variable (reading : Reading) (faults : Faults)

def copySource (key : AnonymizeKey) (context : OpenedContext) (structures : Structures) :
    AnonymizeContext where
  source := context.table
  registry := structures.registry
  overlaid := (List.range structures.registry.allocated).any fun i =>
    (structures.read.entity i).overlay.isSome
  version := context.version
  decoded := reading.decoded structures.read
  key := key

def dmiAnonymize (key : AnonymizeKey) (address : ℕ) (context : OpenedContext) : Option Buffer :=
  match context.registry with
  | none => none
  | some structures =>
    let cx := copySource reading key context structures
    if faults.rewriting then none
    else (anonymize cx).map fun anon => ⟨address, anonymizeTable cx anon⟩

def copyTable (registry : Registry) : OpenTable where
  count := registry.allocated
  entity i := { registry.entity i with overlay := none }
  overlays _ := none
  overlaid := true
  scanned _ := rfl

def setupVendorName (strict : Bool) (table : OpenTable) (context : Context) (state : ReadState) :
    Bool × Option (Option (List Byte)) × ReadState :=
  match registryLookupFirst context table.count state typeFirmware with
  | none => (!strict, none, state)
  | some i =>
    let (ok, state) := dmiEntityDecode context reading.readers table.overlays state i
    if !ok || faults.vendor then (!strict, none, state)
    else (true, some (reading.firmwareVendor (state.entity i)), state)

/-- A name no vendor goes by leaves the vendor as it is. -/
def setVendor (name : Option (Option (List Byte))) (context : OpenedContext) : OpenedContext :=
  match name with
  | none => context
  | some name =>
    { context with
      vendorName := name
      vendor := match vendorDetect reading.vendors name with
        | some vendor => vendor.id
        | none => context.vendor }

def readAnew (context : OpenedContext) : Bool × OpenedContext :=
  let context := { context with registry := none }
  if faults.registry then (false, context)
  else match registryScan context.flags.strict context.table context.entityCount (registryCreate 0)
    with
    | none => (false, context)
    | some (scanned, registry) =>
      let table := copyTable registry
      let map := mapContext context.flags.strict reading.readers context.typeMap
      let context := { context with registry := some ⟨registry, scannedState table⟩ }
      if !scanned || faults.scan then (false, context)
      else
        let (ok, name, state) :=
          setupVendorName reading faults context.flags.strict table map (scannedState table)
        let context :=
          setVendor reading name { context with registry := some ⟨registry, state⟩ }
        if !ok then (false, context)
        else
          let (ok, state) := registryDecode context.flags reading.readers table map state
          let context := { context with registry := some ⟨registry, state⟩ }
          if !ok || faults.decode then (false, context)
          else (!context.linking || (reading.links state && !faults.link), context)

def anonymizeContext (key : AnonymizeKey) (address : ℕ) (context : OpenedContext) :
    Bool × OpenedContext :=
  match dmiAnonymize reading faults key address context with
  | none => (false, context)
  | some table =>
    let (success, after) := readAnew reading faults { context with table := table }
    if success then (true, after)
    else (false, { after with
      table := context.table
      registry := context.registry
      vendorName := context.vendorName })

def nameTold (context : OpenedContext) : Option (Option (List Byte)) :=
  if faults.registry then none
  else match registryScan context.flags.strict context.table context.entityCount (registryCreate 0)
    with
    | none => none
    | some (scanned, registry) =>
      if !scanned || faults.scan then none
      else (setupVendorName reading faults context.flags.strict (copyTable registry)
        (mapContext context.flags.strict reading.readers context.typeMap)
        (scannedState (copyTable registry))).2.1

def vendorLeft (context : OpenedContext) : ℕ :=
  match (nameTold reading faults context).bind (vendorDetect reading.vendors) with
  | some vendor => vendor.id
  | none => context.vendor

/-- The structures of an open context are those its table has been scanned for. -/
def OpenedContext.Opened (context : OpenedContext) : Prop :=
  ∃ structures, context.registry = some structures ∧
    registryScan context.flags.strict context.table context.entityCount (registryCreate 0) =
      some (true, structures.registry)

/-- A byte of the copy is that of the replacement written over it last. The members which tell who
the machine belongs to are replaced first, and then their values wherever else they stand. -/
def copyByte (cx : AnonymizeContext) (first : Anonymizer) (x : ℕ) : Option Byte :=
  (Patch.last (first.patches ++ anonymizeElsewhere cx first.values) x).elim cx.source.data[x]?
    fun patch => patch.bytes[x - patch.offset]?

structure CopyOf (key : AnonymizeKey) (address : ℕ) (context : OpenedContext)
    (structures : Structures) (copy : Buffer) : Prop where
  opened : context.registry = some structures
  plain : ∀ i < structures.registry.allocated, (structures.read.entity i).overlay = none
  address : copy.address = address
  bytes : ∃ first, anonymizeEntities (copySource reading key context structures) = some first ∧
    ∀ x, copy.data[x]? = copyByte (copySource reading key context structures) first x

def OpenedContext.map (context : OpenedContext) : Context :=
  mapContext context.flags.strict reading.readers context.typeMap

structure FirmwareRead (context : OpenedContext) (entity : Entity) (spec : ℕ) : Prop where
  scanned : context.flags.strict = true →
    (tableWalk context.table context.entityCount).exit ≠ .shortLength
  first : (tableWalk context.table context.entityCount).entities.find?
    (fun other => entityType (context.map reading) other == some typeFirmware) = some entity
  selected : entitySpecSelect (context.map reading) entity = some spec
  long : (reading.readers.specParams spec).minimumLength ≤ entity.bodyLength
  decodes : reading.readers.hasDecoder spec = true →
    reading.readers.decodes spec { entity with spec := some spec } = true

def NamesVendor (context : OpenedContext) (vendor : VendorSpec) : Prop :=
  ∃ entity spec, FirmwareRead reading context entity spec ∧
    vendorDetect reading.vendors
      (reading.firmwareVendor { entity with spec := some spec }) = some vendor

def Faults.AfterVendor (faults : Faults) : Prop :=
  faults.rewriting = false ∧ faults.registry = false ∧ faults.scan = false ∧ faults.vendor = false

def TellsOther (key : AnonymizeKey) (address : ℕ) (context : OpenedContext) : Prop :=
  faults.AfterVendor ∧ ∃ structures copy vendor,
    CopyOf reading key address context structures copy ∧
      NamesVendor reading { context with table := copy } vendor ∧ vendor.id ≠ context.vendor

section Step

variable {reading faults} {context : OpenedContext} {map : Context}

lemma setupVendorName_eq (flags : OpenFlags) (table : OpenTable) (state : ReadState)
    (hfault : faults.vendor = false) :
    (setupVendorName reading faults flags.strict table map state).1 =
        (setupVendor flags reading.readers table map state).1 ∧
      (setupVendorName reading faults flags.strict table map state).2.2 =
        (setupVendor flags reading.readers table map state).2 := by
  rw [setupVendorName, setupVendor]
  cases registryLookupFirst map table.count state typeFirmware with
  | none => exact ⟨rfl, rfl⟩
  | some i =>
    simp only [hfault, Bool.or_false]
    cases (dmiEntityDecode map reading.readers table.overlays state i).1 <;> simp

lemma setVendor_eq (reading : Reading) (name : Option (Option (List Byte)))
    (context : OpenedContext) :
    ∃ left, setVendor reading name context = { context with
      vendorName := left
      vendor := match name.bind (vendorDetect reading.vendors) with
        | some vendor => vendor.id
        | none => context.vendor } := by
  cases name with
  | none => exact ⟨context.vendorName, rfl⟩
  | some name => exact ⟨name, rfl⟩

lemma readAnew_frame (reading : Reading) (faults : Faults) (context : OpenedContext) :
    ∃ registry name, (readAnew reading faults context).2 =
      { context with
        registry := registry
        vendorName := name
        vendor := vendorLeft reading faults context } := by
  rw [readAnew, vendorLeft, nameTold]
  by_cases hregistry : faults.registry = true
  · rw [if_pos hregistry, if_pos hregistry]
    exact ⟨none, context.vendorName, rfl⟩
  rw [if_neg hregistry, if_neg hregistry]
  cases registryScan context.flags.strict context.table context.entityCount (registryCreate 0) with
  | none => exact ⟨none, context.vendorName, rfl⟩
  | some result =>
  obtain ⟨scanned, registry⟩ := result
  simp only
  by_cases hscan : (!scanned || faults.scan) = true
  · rw [if_pos hscan, if_pos hscan]
    exact ⟨_, context.vendorName, rfl⟩
  rw [if_neg hscan, if_neg hscan]
  generalize setupVendorName reading faults context.flags.strict (copyTable registry)
    (mapContext context.flags.strict reading.readers context.typeMap)
    (scannedState (copyTable registry)) = told
  obtain ⟨ok, name, state⟩ := told
  obtain ⟨left, hset⟩ := setVendor_eq reading name
    { context with registry := some ⟨registry, state⟩ }
  simp only [hset]
  cases ok with
  | false => exact ⟨_, left, rfl⟩
  | true =>
    rw [if_neg (by simp)]
    split_ifs
    · exact ⟨_, left, rfl⟩
    · exact ⟨_, left, rfl⟩

lemma anonymizeContext_fails (key : AnonymizeKey) (address : ℕ) {table : Buffer}
    (hcopy : dmiAnonymize reading faults key address context = some table)
    (hread : (readAnew reading faults { context with table := table }).1 = false) :
    anonymizeContext reading faults key address context =
      (false, { context with
        vendor := vendorLeft reading faults { context with table := table } }) := by
  obtain ⟨registry, name, hframe⟩ := readAnew_frame reading faults { context with table := table }
  rw [anonymizeContext, hcopy]
  simp only [hread, hframe, Bool.false_eq_true, if_false]

lemma dmiAnonymize_iff (hopened : context.Opened) {key : AnonymizeKey} {address : ℕ}
    {copy : Buffer} :
    dmiAnonymize reading faults key address context = some copy ↔
      faults.rewriting = false ∧
        ∃ structures, CopyOf reading key address context structures copy := by
  obtain ⟨structures, hregistry, hscan⟩ := hopened
  obtain ⟨stop, ht⟩ : ∃ stop, Tiled (copySource reading key context structures) stop :=
    scan_tiled hscan
  have hbytes : ∀ {first : Anonymizer},
      anonymizeEntities (copySource reading key context structures) = some first → ∀ x,
      (anonymizeTable (copySource reading key context structures)
        (anonymizedBy (copySource reading key context structures) first))[x]? =
      copyByte (copySource reading key context structures) first x := by
    intro first hfirst x
    obtain ⟨hv, hi⟩ := firstPass_kept ht hfirst
    exact Patch.getElem?_applyAll (anonymizedBy_inside ht hv hi)
  have hplain : (copySource reading key context structures).overlaid = false ↔
      ∀ i < structures.registry.allocated, (structures.read.entity i).overlay = none := by
    simp [copySource]
  simp only [dmiAnonymize, hregistry]
  cases hrewriting : faults.rewriting with
  | true => simp
  | false =>
    simp only [Bool.false_eq_true, if_false, true_and]
    constructor
    · intro h
      obtain ⟨anon, hanon, rfl⟩ := Option.map_eq_some_iff.mp h
      obtain ⟨first, hfirst, rfl⟩ := anonymize_eq hanon
      refine ⟨structures, hregistry, hplain.mp ?_, rfl, first, hfirst, hbytes hfirst⟩
      rw [anonymize] at hanon
      split_ifs at hanon with hoverlaid
      exact Bool.eq_false_iff.mpr hoverlaid
    · rintro ⟨found, hopened, hnone, rfl, first, hfirst, hdata⟩
      obtain rfl : structures = found := Option.some.inj (hregistry.symm.trans hopened)
      rw [anonymize, if_neg (Bool.eq_false_iff.mp (hplain.mpr hnone)), hfirst]
      have hcopy : anonymizeTable (copySource reading key context structures)
          (anonymizedBy (copySource reading key context structures) first) = copy.data :=
        List.ext_getElem? fun x => (hbytes hfirst x).trans (hdata x).symm
      exact congrArg (fun data => some (⟨copy.address, data⟩ : Buffer)) hcopy

lemma plain_overlay {entity : Entity} (h : entity.overlay = none) :
    { entity with overlay := none } = entity := by
  rw [← h]

lemma dmiEntityDecode_scanned {registry : Registry} {i spec : ℕ} (readers : Readers)
    (hplain : (registry.entity i).overlay = none)
    (hselect : entitySpecSelect map (registry.entity i) = some spec) :
    ((dmiEntityDecode map readers (copyTable registry).overlays
        (scannedState (copyTable registry)) i).1 = true ↔
      (readers.specParams spec).minimumLength ≤ (registry.entity i).bodyLength ∧
        (readers.hasDecoder spec = true →
          readers.decodes spec { registry.entity i with spec := some spec } = true)) ∧
      ((dmiEntityDecode map readers (copyTable registry).overlays
          (scannedState (copyTable registry)) i).1 = true →
        (dmiEntityDecode map readers (copyTable registry).overlays
            (scannedState (copyTable registry)) i).2.entity i =
          { registry.entity i with spec := some spec }) := by
  have hentity : (scannedState (copyTable registry)).entity i = registry.entity i :=
    plain_overlay hplain
  have hcopied : entityOverlaid ((copyTable registry).overlays i)
      { registry.entity i with spec := some spec } =
        { registry.entity i with spec := some spec } := by
    simp [entityOverlaid, copyTable, hplain]
  have hfresh : (scannedState (copyTable registry)).decoded i = none := rfl
  simp only [dmiEntityDecode, hentity, hfresh, hselect, hcopied, Option.isSome_none,
    Bool.false_eq_true, if_false]
  by_cases hshort : (readers.specParams spec).minimumLength ≠ 0 ∧
      (registry.entity i).bodyLength < (readers.specParams spec).minimumLength
  · rw [if_pos hshort]
    have hlong : ¬ (readers.specParams spec).minimumLength ≤ (registry.entity i).bodyLength := by
      omega
    simp [hlong]
  · rw [if_neg hshort]
    have hlong : (readers.specParams spec).minimumLength ≤ (registry.entity i).bodyLength := by
      omega
    cases hdecoder : readers.hasDecoder spec with
    | false => simp [hlong]
    | true =>
      cases readers.decodes spec { registry.entity i with spec := some spec } <;> simp [hlong]

lemma lookupFirst_table {registry : Registry}
    (hplain : ∀ i < registry.allocated, (registry.entity i).overlay = none) :
    registry.table.find? (fun other => entityType map other == some typeFirmware) =
      (registryLookupFirst map (copyTable registry).count (scannedState (copyTable registry))
        typeFirmware).map registry.entity := by
  rw [Registry.table, List.find?_map, registryLookupFirst]
  refine congrArg (Option.map registry.entity) (List.find?_congr fun i hi => ?_)
  have hsame : (scannedState (copyTable registry)).entity i = registry.entity i :=
    plain_overlay (hplain i (List.mem_range.mp hi))
  rw [hsame]
  rfl

lemma setupVendorName_told {registry : Registry} {strict : Bool} {name : Option (List Byte)}
    (hplain : ∀ entity ∈ registry.table, entity.overlay = none ∧ entity.spec = none) :
    (setupVendorName reading faults strict (copyTable registry) map
        (scannedState (copyTable registry))).2.1 = some name ↔
      faults.vendor = false ∧ ∃ entity spec,
        registry.table.find? (fun other => entityType map other == some typeFirmware) =
          some entity ∧
        entitySpecSelect map entity = some spec ∧
        ((reading.readers.specParams spec).minimumLength ≤ entity.bodyLength ∧
          (reading.readers.hasDecoder spec = true →
            reading.readers.decodes spec { entity with spec := some spec } = true)) ∧
        reading.firmwareVendor { entity with spec := some spec } = name := by
  have hentity : ∀ i < registry.allocated,
      (registry.entity i).overlay = none ∧ (registry.entity i).spec = none := fun i hi =>
    hplain _ (List.mem_map_of_mem (List.mem_range.mpr hi))
  rw [lookupFirst_table fun i hi => (hentity i hi).1, setupVendorName]
  cases hlookup : registryLookupFirst map (copyTable registry).count
      (scannedState (copyTable registry)) typeFirmware with
  | none => simp
  | some i =>
    have hi : i < registry.allocated := List.mem_range.mp (List.mem_of_find?_eq_some hlookup)
    obtain ⟨hoverlay, hunbound⟩ := hentity i hi
    have hsame : (scannedState (copyTable registry)).entity i = registry.entity i :=
      plain_overlay hoverlay
    have htype : entityType map (registry.entity i) = some typeFirmware := by
      have hfound := List.find?_some hlookup
      rw [hsame] at hfound
      exact eq_of_beq hfound
    rw [entityType, hunbound] at htype
    obtain ⟨spec, hselect, -⟩ := Option.map_eq_some_iff.mp htype
    have hselect : entitySpecSelect map (registry.entity i) = some spec := hselect
    obtain ⟨hok, hread⟩ := dmiEntityDecode_scanned reading.readers hoverlay hselect
    simp only [Option.map_some, Option.some.injEq]
    generalize dmiEntityDecode map reading.readers (copyTable registry).overlays
      (scannedState (copyTable registry)) i = told at hok hread ⊢
    constructor
    · intro h
      split_ifs at h with hfail
      rw [Bool.or_eq_true, Bool.not_eq_true', not_or, Bool.not_eq_false] at hfail
      obtain ⟨htrue, hfault⟩ := hfail
      refine ⟨Bool.eq_false_iff.mpr hfault, registry.entity i, spec, rfl, hselect,
        hok.mp htrue, ?_⟩
      rw [← hread htrue]
      exact Option.some.inj h
    · rintro ⟨hfault, entity, other, rfl, hother, hruns, rfl⟩
      obtain rfl : spec = other := Option.some.inj (hselect.symm.trans hother)
      have htrue := hok.mpr hruns
      rw [htrue, hfault, if_neg (by simp), hread htrue]

lemma nameTold_iff {vendor : VendorSpec} :
    (nameTold reading faults context).bind (vendorDetect reading.vendors) = some vendor ↔
      (faults.registry = false ∧ faults.scan = false ∧ faults.vendor = false) ∧
        NamesVendor reading context vendor := by
  rw [nameTold]
  cases hregistry : faults.registry with
  | true => simp
  | false =>
    obtain ⟨success, registry, hscan, -⟩ := registryScan_spec context.flags.strict context.table
      context.entityCount 0
    simp only [hscan, Bool.false_eq_true, if_false, true_and]
    cases success with
    | false =>
      simp only [Bool.not_false, Bool.true_or, if_true, Option.bind_none, reduceCtorEq, false_iff]
      rintro ⟨-, entity, spec, hread, -⟩
      exact Bool.false_ne_true ((registryScan_success hscan).mpr hread.scanned)
    | true =>
      obtain ⟨-, htable, -⟩ := registryScan_walk hscan
      have hplain : ∀ entity ∈ registry.table, entity.overlay = none ∧ entity.spec = none := by
        intro entity hm
        obtain ⟨hoverlay, -, -, hspec⟩ := entityCreate_plain (registryScan_created hscan entity hm)
        exact ⟨hoverlay, hspec⟩
      have hwhole := (registryScan_success hscan).mp rfl
      cases hfault : faults.scan with
      | true => simp
      | false =>
        simp only [Bool.not_true, Bool.or_false, Bool.false_eq_true, if_false, true_and]
        rw [Option.bind_eq_some_iff]
        constructor
        · rintro ⟨name, htold, hdetect⟩
          obtain ⟨hvendor, entity, spec, hfirst, hselect, ⟨hlong, hdecodes⟩, rfl⟩ :=
            (setupVendorName_told hplain).mp htold
          exact ⟨hvendor, entity, spec,
            ⟨hwhole, htable ▸ hfirst, hselect, hlong, hdecodes⟩, hdetect⟩
        · rintro ⟨hvendor, entity, spec, hread, hdetect⟩
          exact ⟨_, (setupVendorName_told hplain).mpr ⟨hvendor, entity, spec,
            htable ▸ hread.first, hread.selected, ⟨hread.long, hread.decodes⟩, rfl⟩, hdetect⟩

section SetVendor

variable (reading : Reading) (name : Option (Option (List Byte))) (context : OpenedContext)

@[simp] lemma setVendor_flags : (setVendor reading name context).flags = context.flags := by
  cases name <;> rfl

@[simp] lemma setVendor_table : (setVendor reading name context).table = context.table := by
  cases name <;> rfl

@[simp] lemma setVendor_entityCount :
    (setVendor reading name context).entityCount = context.entityCount := by
  cases name <;> rfl

end SetVendor

lemma readAnew_opened (h : (readAnew reading faults context).1 = true) :
    (readAnew reading faults context).2.Opened := by
  obtain ⟨success, registry, hscan, -⟩ := registryScan_spec context.flags.strict context.table
    context.entityCount 0
  rw [readAnew] at h ⊢
  simp only [hscan] at h ⊢
  split_ifs at h ⊢ with hregistry hfault hvendor hdecode
  refine ⟨_, rfl, ?_⟩
  simp only [setVendor_flags, setVendor_table, setVendor_entityCount, hscan]
  cases success with
  | true => rfl
  | false => exact absurd rfl hfault

lemma anonymizeContext_opened (hopened : context.Opened) (key : AnonymizeKey) (address : ℕ) :
    (anonymizeContext reading faults key address context).2.Opened := by
  cases hcopy : dmiAnonymize reading faults key address context with
  | none =>
    rw [anonymizeContext, hcopy]
    exact hopened
  | some copy =>
    cases hread : (readAnew reading faults { context with table := copy }).1 with
    | true =>
      rw [anonymizeContext, hcopy]
      simp only [hread, if_true]
      exact readAnew_opened hread
    | false =>
      rw [anonymizeContext_fails key address hcopy hread]
      exact hopened

lemma vendorLeft_iff :
    vendorLeft reading faults context = context.vendor ↔
      ∀ vendor, (nameTold reading faults context).bind (vendorDetect reading.vendors) =
        some vendor → vendor.id = context.vendor := by
  rw [vendorLeft]
  cases (nameTold reading faults context).bind (vendorDetect reading.vendors) with
  | none => simp
  | some vendor => simp

end Step

def vendorDell : ℕ := 7
def vendorLenovo : ℕ := 14

def nameDell : List Byte := [0x44, 0x65, 0x6C, 0x6C, 0x20, 0x49, 0x6E, 0x63, 0x2E]
def nameLenovo : List Byte := [0x4C, 0x45, 0x4E, 0x4F, 0x56, 0x4F]

/-- Firmware information of Dell, other one which is a byte longer, and the end of the table. -/
def twoFirmwares (second : List Byte) : Buffer :=
  ⟨0, [0, 0x12, 1, 0, 1] ++ List.replicate 13 0 ++ nameDell ++ [0, 0] ++
    [0, 0x13, 2, 0, 1] ++ List.replicate 14 0 ++ second ++ [0, 0] ++ [127, 4, 3, 0, 0, 0]⟩

/-- The built-in specification of the firmware information, and one of an extension for structures
of 18 bytes, which asks for more. -/
def twoReaders : Readers where
  specParams := fun spec =>
    if spec = 0 then ⟨typeFirmware, 0, 0x12, none⟩
    else ⟨200, 0, 0x20, some ⟨0x12, 0, none, 0, none, false⟩⟩
  hasDecoder := fun _ => true
  decodes := fun _ _ => true
  knowsProcessor := fun _ => false

def twoReading : Reading where
  vendors := [⟨vendorDell, [nameDell]⟩, ⟨vendorLenovo, [nameLenovo]⟩]
  readers := twoReaders
  firmwareVendor := fun entity =>
    (entity.strings[byteAt entity.buffer.data (entity.offset + 4) - 1]?).map StringEntry.pretty
  decoded := fun _ _ => none
  links := fun _ => true

def noFaults : Faults := ⟨false, false, false, false, false, false⟩

def twoSpecs (spec : ℕ) : SpecType := ⟨0, spec = 1, ⟨0, 0⟩⟩

lemma twoSpecs_unsigned (type spec : ℕ) (h : (if type = 0 then some 0 else none) = some spec) :
    (twoSpecs spec).isSigned = false := by
  split_ifs at h
  obtain rfl := Option.some.inj h
  rfl

def twoLibrary : Library where
  spec := twoSpecs
  module := fun _ => ⟨[1], false, [], []⟩
  registered := [0]
  builtin := fun type => if type = 0 then some 0 else none
  unsigned := twoSpecs_unsigned

def unread (second : List Byte) : OpenedContext :=
  ⟨{ contextCreate twoLibrary with isOpen := true }, ⟨true, false, false⟩, false, 0x030000, 0,
    twoFirmwares second, none, 1, none⟩

def extendedContext (second : List Byte) : OpenedContext :=
  let opened := (readAnew twoReading noFaults (unread second)).2
  { opened with toTypeContext := (addExtension twoLibrary 0 opened.toTypeContext).2 }

lemma extended_opened {second : List Byte}
    (h : (readAnew twoReading noFaults (unread second)).1 = true) :
    (extendedContext second).Opened := by
  rw [extendedContext]
  obtain ⟨structures, hregistry, hscan⟩ := readAnew_opened h
  generalize (readAnew twoReading noFaults (unread second)).2 = opened at hregistry hscan
  exact ⟨structures, hregistry, hscan⟩

end OpenDmi

import OpenDmi.Registry
import OpenDmi.TypeMap

/-! Reading the structures of a table which is opened: some of them are decoded to tell the vendor
and the platform, and the rest once the modules of the platform have been mapped. -/

namespace OpenDmi

/-- What the specifications make of the structures they decode. -/
structure Readers where
  specParams : ℕ → SpecParams
  hasDecoder : ℕ → Bool
  decodes : ℕ → Entity → Bool
  knowsProcessor : Entity → Bool

/-- The structures as they are read, the specifications they have been decoded by, and the decoding
calls so far. -/
structure ReadState where
  entity : ℕ → Entity
  decoded : ℕ → Option ℕ
  calls : List ℕ

def mapContext (strict : Bool) (readers : Readers) (map : TypeMap) : Context :=
  ⟨strict, map, readers.specParams⟩

def entityOverlaid (overlay : Option Buffer) (entity : Entity) : Entity :=
  match entity.overlay with
  | some _ => entity
  | none => { entity with overlay := overlay }

def dmiEntityDecode (context : Context) (readers : Readers) (overlays : ℕ → Option Buffer)
    (state : ReadState) (i : ℕ) : Bool × ReadState :=
  let state := { state with calls := state.calls ++ [i] }
  if (state.decoded i).isSome then (true, state)
  else match entitySpecSelect context (state.entity i) with
    | none => (true, state)
    | some spec =>
      let bound := { state.entity i with spec := some spec }
      let minimum := (readers.specParams spec).minimumLength
      if minimum ≠ 0 ∧ bound.bodyLength < minimum then
        (false, { state with entity := Function.update state.entity i bound })
      else if !readers.hasDecoder spec then
        (true, { state with entity := Function.update state.entity i bound })
      else
        -- The copy with additional information stays where decoding fails
        let read := entityOverlaid (overlays i) bound
        let state := { state with entity := Function.update state.entity i read }
        if readers.decodes spec read then
          (true, { state with decoded := Function.update state.decoded i (some spec) })
        else (false, state)

def registryLookupFirst (context : Context) (count : ℕ) (state : ReadState) (type : ℕ) : Option ℕ :=
  (List.range count).find? fun i => entityType context (state.entity i) == some type

def typeFirmware : ℕ := 0
def typeSystem : ℕ := 1
def typeBaseboard : ℕ := 2
def typeProcessor : ℕ := 4

/-- A table which is opened: its structures, the copies of those with additional information, and
whether all of it could be attached. -/
structure OpenTable where
  count : ℕ
  entity : ℕ → Entity
  overlays : ℕ → Option Buffer
  overlaid : Bool
  scanned : ∀ i, (entity i).overlay = none

structure OpenFlags where
  strict : Bool
  overlay : Bool
  autoModules : Bool

section Open

variable (flags : OpenFlags) (readers : Readers) (table : OpenTable)

def registryOverlayDecode (context : Context) (state : ReadState) : Bool × ReadState :=
  (List.range table.count).foldl (fun walk i =>
    if (table.entity i).typeId ≠ 40 then walk
    else
      let result := dmiEntityDecode context readers table.overlays walk.2 i
      (walk.1 && result.1, result.2)) (table.overlaid, state)

def setupVendor (context : Context) (state : ReadState) : Bool × ReadState :=
  match registryLookupFirst context table.count state typeFirmware with
  | none => (!flags.strict, state)
  | some i =>
    let result := dmiEntityDecode context readers table.overlays state i
    (result.1 || !flags.strict, result.2)

def platformInfo (context : Context) (type : ℕ) (state : ReadState) : ReadState :=
  match registryLookupFirst context table.count state type with
  | none => state
  | some i => (dmiEntityDecode context readers table.overlays state i).2

/-- The first processor of a known vendor ends the search. -/
def platformProcessors (context : Context) : List ℕ → ReadState → ReadState
  | [], state => state
  | i :: rest, state =>
    if (state.entity i).typeId ≠ typeProcessor then platformProcessors context rest state
    else
      let result := dmiEntityDecode context readers table.overlays state i
      if result.1 && readers.knowsProcessor (result.2.entity i) then result.2
      else platformProcessors context rest result.2

def platformDetect (context : Context) (state : ReadState) : ReadState :=
  let state := platformInfo readers table context typeSystem state
  let state := platformInfo readers table context typeBaseboard state
  platformProcessors readers table context (List.range table.count) state

def registryDecode (context : Context) (state : ReadState) : Bool × ReadState :=
  let result := (List.range table.count).foldl (fun walk i =>
    let result := dmiEntityDecode context readers table.overlays walk.2 i
    (walk.1 && result.1, result.2)) (true, state)
  (result.1 || !flags.strict, result.2)

def scannedState : ReadState := ⟨table.entity, fun _ => none, []⟩

def readOverlaid (context : Context) : Bool × ReadState :=
  if flags.overlay then registryOverlayDecode readers table context (scannedState table)
  else (true, scannedState table)

def readEarly (context : Context) : Option ReadState :=
  let overlaid := readOverlaid flags readers table context
  if !overlaid.1 && flags.strict then none
  else
    let vendor := setupVendor flags readers table context overlaid.2
    if !vendor.1 then none else some (platformDetect readers table context vendor.2)

def openReadStructures (library : Library) (platformOf : ReadState → Platform)
    (state : TypeContext) : Option (TypeContext × ReadState) :=
  match readEarly flags readers table (mapContext flags.strict readers state.typeMap) with
  | none => none
  | some early =>
    let mapped := setupExtensions library
      ⟨true, platformOf early, flags.autoModules, true⟩ { state with isOpen := true }
    let decoded := registryDecode flags readers table
      (mapContext flags.strict readers mapped.2.typeMap) early
    if mapped.1 && decoded.1 then some (mapped.2, decoded.2) else none

end Open

end OpenDmi

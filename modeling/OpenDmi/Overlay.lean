import OpenDmi.FieldDecode
import OpenDmi.Patches
import OpenDmi.Registry

/-! Additional information: entries of one structure which are written over the body of another. -/

namespace OpenDmi

open Bytes LinkedList

structure AdditionalEntry where
  referencedHandle : ℕ
  referencedOffset : ℕ
  string : Ref
  value : Binary
  deriving DecidableEq

def typeAdditionalInfo : ℕ := 40
def additionalInfoEntryHeader : ℕ := 5
def additionalInfoMinimumLength : ℕ := 0x0B
def additionalInfoMinimumVersion : ℕ := 0x020600

def additionalInfoEntryDecode (source : Source) (state : DecodeState) :
    Option (AdditionalEntry × DecodeState) := do
  let (length, state) ← readNumber source 1 state
  let (handle, state) ← readNumber source 2 state
  let (offset, state) ← readNumber source 1 state
  let (number, state) ← readNumber source 1 state
  if length < additionalInfoEntryHeader + 1 then none
  else
    -- A value longer than what is left is cut to it
    let length := min (length - additionalInfoEntryHeader) (readerRemaining source state)
    let (value, state) ← decoderGetBinary source length state
    some (⟨handle, offset, entityString source number, value⟩, state)

def additionalInfoEntries (source : Source) : ℕ → DecodeState → Option (List AdditionalEntry)
  | 0, _ => some []
  | count + 1, state => do
    let (entry, state) ← additionalInfoEntryDecode source state
    let entries ← additionalInfoEntries source count state
    some (entry :: entries)

def additionalInfoDecode (source : Source) : Option (List AdditionalEntry) := do
  let (count, state) ← readNumber source 1 (decoderInitialize additionalInfoMinimumVersion)
  additionalInfoEntries source count state

def additionalInfoOf (version : ℕ) (entity : Entity) : Option (List AdditionalEntry) :=
  if entity.bodyLength < additionalInfoMinimumLength then none
  else additionalInfoDecode (entitySource entity version)

/-- The entries attached to the structures, which are known by their numbers in the registry. -/
structure OverlayState where
  success : Bool
  overlaid : Bool
  decoded : ℕ → Bool
  overlays : ℕ → List AdditionalEntry

def registryLookupEntry (registry : Registry) (handle : ℕ) : Option ℕ :=
  if handle = handleInvalid ∨ handle = handleUnsupported then none
  else find registry.next (fun i => (registry.entity i).handle == handle) (registry.allocated + 1)
    (registry.index (handle % registry.capacity))

def entityAddOverlay (entity : Entity) (target : ℕ) (entry : AdditionalEntry)
    (state : OverlayState) : Option OverlayState :=
  if state.decoded target then none
  else if entity.typeId = typeAdditionalInfo then none
  else if entry.referencedOffset < headerSize ∨
      entry.referencedOffset + entry.value.bytes.length > entity.bodyLength then none
  else some { state with
    overlays := Function.update state.overlays target (state.overlays target ++ [entry]) }

def registryOverlayEntry (registry : Registry) (state : OverlayState) (entry : AdditionalEntry) :
    OverlayState :=
  match registryLookupEntry registry entry.referencedHandle with
  | none => { state with success := false }
  | some target => match entityAddOverlay (registry.entity target) target entry state with
    | none => { state with success := false }
    | some state => { state with overlaid := true }

def registryOverlayEntity (version : ℕ) (registry : Registry) (state : OverlayState) (i : ℕ) :
    OverlayState :=
  let entity := registry.entity i
  if entity.typeId ≠ typeAdditionalInfo then state
  else match additionalInfoOf version entity with
    | none => { state with success := false }
    | some entries => entries.foldl (registryOverlayEntry registry)
      { state with decoded := Function.update state.decoded i true }

def registryNumbers (registry : Registry) : ℕ → RegistryIter → List ℕ
  | 0, _ => []
  | fuel + 1, iter => match registryIterNext registry iter with
    | (none, _) => []
    | (some _, iter) => iter.position.toList ++ registryNumbers registry fuel iter

/-- Entries which cannot be attached fail the whole in the strict mode only. -/
def registryOverlay (strict : Bool) (version : ℕ) (registry : Registry) : Bool × OverlayState :=
  let state := (registryNumbers registry (registry.allocated + 1)
    (registryIterInitialize none)).foldl (registryOverlayEntity version registry)
    ⟨true, false, fun _ => false, fun _ => []⟩
  (state.success || !strict, state)

def entryPatch (entry : AdditionalEntry) : Patch Byte :=
  ⟨entry.referencedOffset, entry.value.bytes⟩

def entityApplyOverlays (address : ℕ) (entries : List AdditionalEntry) (entity : Entity) : Entity :=
  if entries = [] then entity
  else { entity with overlay := some ⟨address,
    Patch.applyAll (window entity.buffer.data entity.offset entity.bodyLength)
      (entries.map entryPatch)⟩ }

end OpenDmi

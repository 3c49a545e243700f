import OpenDmi.EarlyEnd
import OpenDmi.Overlay
import OpenDmi.Spec

/-! A structure which is not decoded: what the attempt leaves behind, and what the next one makes of
it. -/

namespace OpenDmi

open Bytes

/-- A specification either decodes by a function of its own or describes its fields. Functions are
given the bytes and the level, and derive members from what has been decoded. -/
structure SpecDecoder where
  params : SpecParams
  decode : Option (Source → ℕ → Bool × DecodeState)
  fields : Option (List Field)
  derive : Option (Entity → Memory → Bool × Memory)

structure DecodeSetting where
  typeMap : ℕ → TypeCandidates
  specs : ℕ → SpecDecoder
  version : ℕ
  overlays : List AdditionalEntry
  address : ℕ

structure Resources where
  copies : Bool
  allocates : Bool

structure Attempt where
  entity : Entity
  info : Option Memory
  level : ℕ
  isPartial : Bool
  isIncomplete : Bool
  isDecoded : Bool

def specDecode (spec : SpecDecoder) : Option (Source → ℕ → Bool × DecodeState) :=
  match spec.decode with
  | some decode => some decode
  | none => spec.fields.map fun fields source level => fieldsDecode source fields level

def specDerive (spec : SpecDecoder) (entity : Entity) (memory : Memory) : Bool × Memory :=
  match spec.derive with
  | some derive => derive entity memory
  | none => (true, memory)

def isShort (spec : SpecDecoder) (entity : Entity) : Bool :=
  spec.params.minimumLength != 0 && decide (entity.bodyLength < spec.params.minimumLength)

variable (setting : DecodeSetting) (resources : Resources)

def DecodeSetting.context : Context :=
  ⟨false, setting.typeMap, fun n => (setting.specs n).params⟩

def needsCopy (entity : Entity) : Bool := setting.overlays != [] && entity.overlay.isNone

def withCopy (entity : Entity) : Entity :=
  if needsCopy setting entity then
    entityApplyOverlays setting.address setting.overlays entity
  else entity

def decodeRead (spec : SpecDecoder) (decode : Source → ℕ → Bool × DecodeState) (entity : Entity) :
    Bool × DecodeState :=
  let (ok, state) := decode (entitySource entity setting.version) spec.params.minimumVersion
  if !ok then (false, state)
  else
    let (ok, memory) := specDerive spec entity state.memory
    (ok, { state with memory := memory })

def Attempt.entityDecode (attempt : Attempt) : Bool × Attempt :=
  if attempt.isDecoded then (true, attempt)
  else match entitySpecSelect setting.context attempt.entity with
    | none => (true, attempt)
    | some n =>
      let spec := setting.specs n
      let attempt := { attempt with entity := { attempt.entity with spec := some n } }
      if isShort spec attempt.entity then (false, attempt)
      else
        let attempt := { attempt with level := spec.params.minimumVersion }
        match specDecode spec with
        | none => (true, attempt)
        | some decode =>
          if needsCopy setting attempt.entity && !resources.copies then (false, attempt)
          else
            let attempt := { attempt with entity := withCopy setting attempt.entity }
            if !resources.allocates then (false, attempt)
            else
              let (ok, state) := decodeRead setting spec decode attempt.entity
              -- The decoder marks the structure as it reads
              let attempt := { attempt with
                isPartial := attempt.isPartial || state.isPartial
                isIncomplete := attempt.isIncomplete || state.isIncomplete }
              if ok then
                (true, { attempt with
                  info := some state.memory
                  level := state.level
                  isDecoded := true })
              else (false, { attempt with info := none, level := 0 })

structure Undecoded (attempt : Attempt) : Prop where
  info : attempt.info = none
  level : attempt.level = 0
  partially : attempt.isPartial = false
  incompletely : attempt.isIncomplete = false
  decoded : attempt.isDecoded = false

def Attempt.fresh (attempt : Attempt) : Attempt :=
  ⟨{ attempt.entity with spec := none, overlay := none }, none, 0, false, false, false⟩

structure Outcome where
  ok : Bool
  spec : Option ℕ
  info : Option Memory
  level : ℕ
  isPartial : Bool
  isIncomplete : Bool
  isDecoded : Bool

def outcome (result : Bool × Attempt) : Outcome :=
  ⟨result.1, result.2.entity.spec, result.2.info, result.2.level, result.2.isPartial,
    result.2.isIncomplete, result.2.isDecoded⟩

/-- A structure which could not be decoded is left undecoded, and the next attempt, with memory for
the copy, makes of it what it makes of a fresh one. -/
def LeavesNoTrace (attempt : Attempt) : Prop :=
  let result := attempt.entityDecode setting resources
  result.1 = false → Undecoded result.2 ∧ ∀ again : Resources, again.copies = true →
    outcome (result.2.entityDecode setting again) =
      outcome (attempt.fresh.entityDecode setting again)

structure Pending (attempt : Attempt) : Prop where
  undecoded : Undecoded attempt
  copy : attempt.entity.overlay = none ∨
    attempt.entity.overlay = (withCopy setting attempt.fresh.entity).overlay

structure PicksAlways (entity : Entity) (n : ℕ) : Prop where
  plain : entitySpecSelect setting.context { entity with spec := none, overlay := none } = some n
  overlaid : entitySpecSelect setting.context (withCopy setting entity) = some n

/-- A function of the specification tells by itself whether the data ends early. -/
def specEndsEarly (spec : SpecDecoder) (source : Source) : Bool :=
  match spec.decode with
  | some decode => isMarked (decode source spec.params.minimumVersion).2
  | none => spec.fields.any fun fields => fieldsEndEarly source fields spec.params.minimumVersion

/-- What an attempt by the specification which fails must not run into: where it is too short, where
there is no memory for the copy or for what is decoded, and where it has been read. -/
structure AttemptOk (attempt : Attempt) (n : ℕ) : Prop where
  short : isShort (setting.specs n) attempt.entity = true →
    entitySpecSelect setting.context attempt.fresh.entity = some n
  uncopied : isShort (setting.specs n) attempt.entity = false →
    needsCopy setting attempt.entity = true → resources.copies = false →
    (setting.specs n).params.minimumVersion = 0
  unallocated : isShort (setting.specs n) attempt.entity = false →
    (needsCopy setting attempt.entity = true → resources.copies = true) →
    resources.allocates = false →
    (setting.specs n).params.minimumVersion = 0 ∧ PicksAlways setting attempt.entity n
  read : isShort (setting.specs n) attempt.entity = false →
    (needsCopy setting attempt.entity = true → resources.copies = true) →
    resources.allocates = true →
    specEndsEarly (setting.specs n)
        (entitySource (withCopy setting attempt.entity) setting.version) = false ∧
      PicksAlways setting attempt.entity n

end OpenDmi

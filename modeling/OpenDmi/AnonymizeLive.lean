import OpenDmi.AnonymizeWalk
import OpenDmi.UndoLog

/-! Anonymization over the structures as they stand in memory: private members are overwritten in
place, encoded, and put back from a stack. -/

namespace OpenDmi

open Bytes UndoLog

abbrev Heap := ℕ → Byte

/-- A decoded structure: the attributes of its specification, the address of its members, and its
encoder, which reads the members. -/
structure LiveStructure where
  attributes : List Attribute
  info : ℕ
  encode : Heap → Option (List Byte)

/-- What the pointers in memory are those of, and which of the allocations there is memory for. -/
structure LiveMemory where
  structures : Entity → Option LiveStructure
  text : ℕ → Ref
  binary : ℕ → ℕ → Binary
  memory : ℕ → Bool

structure Live where
  heap : Heap
  anon : Anonymizer
  saved : List (Entry Byte)
  changed : Bool
  allocations : ℕ

def pointerSize : ℕ := 8

def loadNumber (heap : Heap) (address size : ℕ) : ℕ := leLoad (load heap address size)

variable (live : LiveMemory) (cx : AnonymizeContext)

def allocate (state : Live) : Bool × Live :=
  (live.memory state.allocations, { state with allocations := state.allocations + 1 })

def liveText (heap : Heap) (address : ℕ) : Ref := live.text (loadNumber heap address pointerSize)

def liveBinary (heap : Heap) (address : ℕ) : Binary :=
  live.binary (loadNumber heap address pointerSize)
    (loadNumber heap (address + binaryLengthOffset) pointerSize)

def liveIsUnspecified (attr : Attribute) (heap : Heap) (address : ℕ) : Bool :=
  match attr.unspec with
  | some unspec => load heap address attr.value.size == unspec
  | none => match attr.type with
    | .string => liveText live heap address == .null
    | .handle => loadNumber heap address 2 == 0xFFFF
    | .binary => loadNumber heap (address + binaryLengthOffset) pointerSize == 0
    | _ => false

def liveIsUnknown (attr : Attribute) (heap : Heap) (address : ℕ) : Bool :=
  attr.unknown.any (load heap address attr.value.size == ·)

def liveAdd (data replacement : List Byte) (propagate : Bool) (state : Live) : Bool × Live :=
  let added := { state with anon := anonymizeAdd data replacement propagate state.anon }
  if data = [] ∨ anonymizeIsBlank data then (true, state)
  else if state.anon.values.any (·.data == data) then (true, added)
  else
    let (ok, state) := allocate live state
    if !ok then (false, state)
    else
      let (ok, state) := allocate live state
      if !ok then (false, state)
      else (true, { state with anon := anonymizeAdd data replacement propagate state.anon })

def liveMemberString (entity : Entity) (text : Ref) (state : Live) : Bool × Live :=
  match text with
  | .text entry text =>
    if stringIsPlaceholder text then (true, state)
    else if text = [] ∨ anonymizeIsBlank text then (true, state)
    else
      let (ok, state) := allocate live state
      if !ok then (false, state)
      else
        let replacement := anonymizeText cx.key text
        liveAdd live text replacement (anonymizeIsIdentifier text)
          { state with anon := anonymizeRawString entity entry text replacement state.anon }
  | _ => (true, state)

def liveMemberBinary (entity : Entity) (attr : Attribute) (binary : Binary) (state : Live) :
    Bool × Live :=
  if binary.bytes = [] ∨ anonymizeIsBlank binary.bytes then (true, state)
  else match binary.position with
    | none => (true, state)
    | some position =>
      let offset := entity.offset + position
      if offset + binary.bytes.length > cx.source.length then (true, state)
      else
        let keep := if attr.isMac then 3 else 0
        let keep := if keep ≥ binary.bytes.length then 0 else keep
        let replacement := anonymizeBytes cx.key binary.bytes keep
        liveAdd live binary.bytes replacement true { state with
          anon := { state.anon with patches := state.anon.patches ++ [⟨offset, replacement⟩] } }

def liveMemberScalar (attr : Attribute) (address : ℕ) (state : Live) : Bool × Live :=
  let size := attr.value.size
  let bytes := load state.heap address size
  if size = 0 ∨ size > anonymizeMemberMax then (true, state)
  else if anonymizeIsBlank bytes then (true, state)
  else
    let (ok, state) := allocate live state
    if !ok then (false, state)
    else
      let (ok, state) := allocate live state
      if !ok then (false, state)
      else (true, { state with
        heap := store state.heap address (anonymizeScalar cx attr bytes)
        saved := ⟨address, bytes⟩ :: state.saved
        changed := true })

def liveVisit (entity : Entity) (attr : Attribute) (address : ℕ) (state : Live) : Bool × Live :=
  if attr.isPrivate = false then (true, state)
  else if liveIsUnspecified live attr state.heap address ||
      liveIsUnknown attr state.heap address then (true, state)
  else match attr.type with
    | .string => liveMemberString live cx entity (liveText live state.heap address) state
    | .binary => liveMemberBinary live cx entity attr (liveBinary live state.heap address) state
    | .uuid | .integer => liveMemberScalar live cx attr address state
    | _ => (true, state)

section Walk

variable {σ : Type} (heap : σ → Heap) (visit : Attribute → ℕ → σ → Bool × σ)

def stepWhile (step : ℕ → σ → Bool × σ) : ℕ → ℕ → σ → Bool × σ
  | 0, _, state => (true, state)
  | count + 1, i, state =>
    let (ok, state) := step i state
    if ok then stepWhile step count (i + 1) state else (false, state)

mutual

def liveWalk (base : ℕ) : List Attribute → σ → Bool × σ
  | [], state => (true, state)
  | attr :: rest, state =>
    let (ok, state) :=
      if attr.type = .variant then
        match attributeResolve (attributeReadInt attr.value (UInt64.ofNat (loadNumber (heap state)
            (base + attr.value.offset) attr.value.size))) attr.variants 0 none with
        | none => (true, state)
        | some i => liveWalkVariant base i attr state
      else liveWalkOne base attr state
    if ok then liveWalk base rest state else (false, state)

def liveWalkVariant (base i : ℕ) : Attribute → σ → Bool × σ
  | ⟨_, _, _, _, _, _, _, _, _, _, _, _, _, variants⟩, state => liveWalkAt base i variants state

def liveWalkAt (base : ℕ) : ℕ → List Attribute → σ → Bool × σ
  | _, [], state => (true, state)
  | 0, attr :: _, state => liveWalkOne base attr state
  | i + 1, _ :: rest, state => liveWalkAt base i rest state

def liveWalkOne (base : ℕ) : Attribute → σ → Bool × σ
  | ⟨value, type, counter, count, unspec, unknown, isPrivate, isMac, targets, link, selector,
      isDefault, attrs, variants⟩, state =>
    let attr : Attribute := ⟨value, type, counter, count, unspec, unknown, isPrivate, isMac,
      targets, link, selector, isDefault, attrs, variants⟩
    let walkValue (address : ℕ) (state : σ) :=
      if type = .struct then liveWalk address attrs state else visit attr address state
    let address := base + value.offset
    if attributeIsArray attr then
      -- A vector stands in place, and an array where its member points to
      let elements := if count ≠ 0 then address else loadNumber (heap state) address pointerSize
      let number := if count ≠ 0 then count
        else if elements = 0 then 0 else loadNumber (heap state) (base + counter.offset) counter.size
      stepWhile (fun i => walkValue (elements + i * value.size)) number 0 state
    else walkValue address state

end

end Walk

def liveWrite (entity : Entity) (structure' : LiveStructure) (state : Live) : Bool × Live :=
  let (ok, state) := allocate live state
  if !ok then (false, state)
  else
    let (ok, state) := allocate live state
    if !ok then (false, state)
    else match structure'.encode state.heap with
      | none => (false, state)
      | some body =>
        if body.length ≠ entity.bodyLength ∨
            entity.offset + entity.bodyLength > cx.source.length then (false, state)
        else (true, { state with
          anon := { state.anon with patches := state.anon.patches ++ [⟨entity.offset, body⟩] } })

def liveCollectFrom (entity : Entity) : List (Entry Byte) → Live → Bool × Live
  | [], state => (true, state)
  | saved :: rest, state =>
    let source := cx.source.data.drop entity.offset
    let result := (anonymizeTable cx state.anon).drop entity.offset
    if saved.values.length < patternMin then liveCollectFrom entity rest state
    else match anonymizeFind source result saved.values entity.bodyLength with
      | none => liveCollectFrom entity rest state
      | some pos =>
        let (ok, state) :=
          liveAdd live saved.values (window result pos saved.values.length) true state
        if ok then liveCollectFrom entity rest state else (false, state)

def liveEncode (entity : Entity) (structure' : LiveStructure) (state : Live) : Bool × Live :=
  if entity.buffer ≠ cx.source then (true, state)
  else
    let (ok, state) := liveWrite live cx entity structure' state
    if !ok then (false, state)
    else liveCollectFrom live cx entity state.saved.reverse state

def liveRestore (state : Live) : Live :=
  { state with heap := undo state.saved state.heap, saved := [] }

def liveEntity (entity : Entity) (state : Live) : Bool × Live :=
  match live.structures entity with
  | none => (true, state)
  | some structure' =>
    let (ok, state) := liveWalk Live.heap (liveVisit live cx entity) structure'.info
      structure'.attributes { state with changed := false }
    let (ok, state) :=
      if ok && state.changed then liveEncode live cx entity structure' state else (ok, state)
    (ok, liveRestore state)

def liveEntities : List Entity → Live → Bool × Live
  | [], state => (true, state)
  | entity :: rest, state =>
    let (ok, state) := liveEntity live cx entity state
    if ok then liveEntities rest state else (false, state)

def liveReplace (heap : Heap) : Bool × Live :=
  let (ok, state) := allocate live ⟨heap, ⟨[], []⟩, [], false, 0⟩
  if ok then liveEntities live cx (anonymizeVisited cx) state else (false, state)

structure LiveContext where
  isOpen : Bool
  isOverlaid : Bool
  version : ℕ
  source : Buffer
  registry : Registry
  heap : Heap

def LiveContext.anonymizing (context : LiveContext) (key : AnonymizeKey) : AnonymizeContext :=
  ⟨context.source, context.registry, context.isOverlaid, context.version, fun _ => none, key⟩

def liveCheck (context : LiveContext) : Bool := context.isOpen && !context.isOverlaid

def liveAnonymize (key : Option AnonymizeKey) (context : LiveContext) (table : List Byte) :
    Bool × LiveContext × List Byte :=
  if !liveCheck context then (false, context, table)
  else match key with
    | none => (false, context, [])
    | some key =>
      let cx := context.anonymizing key
      let (ok, state) := liveReplace live cx context.heap
      let anon := { state.anon with
        patches := state.anon.patches ++ anonymizeElsewhere cx state.anon.values }
      -- What is still saved is put back once more
      let state := liveRestore state
      (ok, { context with heap := state.heap }, if ok then anonymizeTable cx anon else [])

end OpenDmi

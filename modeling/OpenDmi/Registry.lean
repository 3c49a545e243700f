import OpenDmi.LinkedList
import OpenDmi.Spec

/-! The registry: structures by handle in hash chains, and in table order in one more list. -/

namespace OpenDmi

open LinkedList

structure RegistryStatus where
  scanned : Bool
  truncated : Bool
  deriving DecidableEq

/-- Entries are numbered in the order they are allocated in, and a field of theirs is a map. -/
structure Registry where
  capacity : ℕ
  index : ℕ → Option ℕ
  allocated : ℕ
  entity : ℕ → Entity
  next : ℕ → Option ℕ
  seqPrev : ℕ → Option ℕ
  seqNext : ℕ → Option ℕ
  head : Option ℕ
  tail : Option ℕ
  count : ℕ
  status : RegistryStatus

def registryCreate (capacity : ℕ) : Registry where
  capacity := if capacity = 0 then 64 else capacity
  index := fun _ => none
  allocated := 0
  entity := fun _ => default
  next := fun _ => none
  seqPrev := fun _ => none
  seqNext := fun _ => none
  head := none
  tail := none
  count := 0
  status := ⟨false, false⟩

def sameBytes (a b : Entity) : Bool := a.buffer.address == b.buffer.address && a.offset == b.offset

/-- The walk to the end of a chain, which a structure of the same bytes on the way refuses. A
structure of the same handle is reported only. -/
def registryChainEnd (registry : Registry) (entity : Entity) : ℕ → ℕ → Option ℕ
  | 0, _ => none
  | fuel + 1, last =>
    if sameBytes (registry.entity last) entity then none
    else match registry.next last with
      | none => some last
      | some next => registryChainEnd registry entity fuel next

def registryAppend (registry : Registry) (entity : Entity) (index next : ℕ → Option ℕ) : Registry :=
  let entry := registry.allocated
  { registry with
    index := index
    next := next
    allocated := entry + 1
    entity := Function.update registry.entity entry entity
    seqPrev := Function.update registry.seqPrev entry registry.tail
    seqNext := match registry.tail with
      | none => registry.seqNext
      | some tail => Function.update registry.seqNext tail (some entry)
    tail := some entry
    head := match registry.head with
      | none => some entry
      | some head => some head }

def registryPut (registry : Registry) (entity : Entity) : Bool × Registry :=
  let entry := registry.allocated
  let hash := entity.handle % registry.capacity
  match registry.index hash with
  | none =>
    (true, registryAppend registry entity (Function.update registry.index hash (some entry))
      registry.next)
  | some first =>
    match registryChainEnd registry entity registry.allocated first with
    | none => (false, registry)
    | some last =>
      (true, registryAppend registry entity registry.index
        (Function.update registry.next last (some entry)))

def handleInvalid : ℕ := 0xFFFF
def handleUnsupported : ℕ := 0xFFFE

def registryLookup (context : Context) (registry : Registry) (handle : ℕ) (type : Option ℕ) :
    Option Entity :=
  if handle = handleInvalid ∨ handle = handleUnsupported then none
  else match find registry.next (fun i => (registry.entity i).handle == handle)
      (registry.allocated + 1) (registry.index (handle % registry.capacity)) with
    | none => none
    | some entry =>
      if type.isSome && entityType context (registry.entity entry) != type then none
      else some (registry.entity entry)

def registryLookupAny (context : Context) (registry : Registry) (handle : ℕ)
    (types : Option (List ℕ)) : Option Entity :=
  match registryLookup context registry handle none with
  | none => none
  | some entity =>
    match types with
    | none => some entity
    | some types =>
      if types.any fun type => entityType context entity == some type then some entity else none

structure FilterMask where
  common : Bool
  oem : Bool
  inactive : Bool
  unknown : Bool
  deriving DecidableEq

structure Filter where
  mask : FilterMask
  handles : List ℕ
  types : List ℕ
  modules : List (List ℕ)
  deriving DecidableEq

def typeInactive : ℕ := 126
def typeOemStart : ℕ := 128

def filterMatchMask (filter : Filter) (entity : Entity) : Bool :=
  (if entity.typeId < typeOemStart then filter.mask.common else filter.mask.oem) &&
  !(entity.typeId == typeInactive && !filter.mask.inactive) &&
  !(entity.spec.isNone && !filter.mask.unknown)

def filterMatchHandle (filter : Filter) (entity : Entity) : Bool :=
  filter.handles.any (· == entity.handle)

def filterMatchType (filter : Filter) (entity : Entity) : Bool :=
  filter.types.any (· == entity.typeId)

def filterMatchModule (filter : Filter) (entity : Entity) : Bool :=
  match entity.spec with
  | none => false
  | some spec => filter.modules.any fun module => module.any (· == spec)

def filterIsEmpty (filter : Filter) : Bool :=
  filter.handles.isEmpty && filter.types.isEmpty && filter.modules.isEmpty

def filterMatch (filter : Filter) (entity : Entity) : Bool :=
  filterMatchMask filter entity &&
    (filterIsEmpty filter || filterMatchHandle filter entity || filterMatchType filter entity ||
      filterMatchModule filter entity)

structure RegistryIter where
  position : Option ℕ
  filter : Option Filter
  isDone : Bool
  deriving DecidableEq

def registryIterInitialize (filter : Option Filter) : RegistryIter := ⟨none, filter, false⟩

def iterMatch (registry : Registry) (filter : Option Filter) (i : ℕ) : Bool :=
  match filter with
  | none => true
  | some filter => filterMatch filter (registry.entity i)

def iterStart (registry : Registry) (iter : RegistryIter) : Option ℕ :=
  match iter.position with
  | none => registry.head
  | some position => registry.seqNext position

def registryIterHasNext (registry : Registry) (iter : RegistryIter) : Bool :=
  !iter.isDone &&
    (find registry.seqNext (iterMatch registry iter.filter) (registry.allocated + 1)
      (iterStart registry iter)).isSome

def registryIterNext (registry : Registry) (iter : RegistryIter) : Option Entity × RegistryIter :=
  if iter.isDone then (none, iter)
  else match find registry.seqNext (iterMatch registry iter.filter) (registry.allocated + 1)
      (iterStart registry iter) with
    | none => (none, { iter with position := none, isDone := true })
    | some position => (some (registry.entity position), { iter with position := some position })

end OpenDmi

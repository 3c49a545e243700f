import OpenDmi.Attribute
import OpenDmi.Overlay

namespace OpenDmi

def registryResolveAny (context : Context) (registry : Registry) (handle : ℕ)
    (types : Option (List ℕ)) : Bool × Option ℕ :=
  if handle = handleInvalid ∨ handle = handleUnsupported then (true, none)
  else if types = some [] then (false, none)
  else match registryLookupEntry registry handle with
    | none => (false, none)
    | some entry =>
      match types with
      | none => (true, some entry)
      | some types =>
        if types.any fun type => entityType context (registry.entity entry) == some type then
          (true, some entry)
        -- Some vendors report zero for an unset handle
        else (handle == 0 && !context.strict, none)

/-- A place in a decoded structure: an offset into a block, which is known by the places of the
pointers on the way to it. -/
structure LinkPlace where
  block : List ℕ
  offset : ℕ
  deriving DecidableEq

structure AttributeNode where
  info : Memory
  block : List ℕ
  base : ℕ

section Walk

variable {σ : Type} (memberStart : Attribute → AttributeNode → σ → Bool × σ)

mutual

def attributesWalkMembers (info : Memory) (block : List ℕ) (base : ℕ) : List Attribute → σ → σ
  | [], state => state
  | attr :: rest, state =>
    if attr.type = .variant then
      match attributeResolve (attributeReadInt attr.value
          (info.number (base + attr.value.offset))) attr.variants 0 none with
      | none => attributesWalkMembers info block base rest state
      | some i => attributesWalkMembers info block base rest
          (attributeWalkMembersVariant info block base i attr state)
    else attributesWalkMembers info block base rest
      (attributeWalkMembers info block base attr state)

def attributeWalkMembersVariant (info : Memory) (block : List ℕ) (base i : ℕ) : Attribute → σ → σ
  | ⟨_, _, _, _, _, _, _, _, _, _, _, _, _, variants⟩, state =>
    attributesWalkMembersAt info block base i variants state

def attributesWalkMembersAt (info : Memory) (block : List ℕ) (base : ℕ) :
    ℕ → List Attribute → σ → σ
  | _, [], state => state
  | 0, attr :: _, state => attributeWalkMembers info block base attr state
  | i + 1, _ :: rest, state => attributesWalkMembersAt info block base i rest state

def attributeWalkMembers (info : Memory) (block : List ℕ) (base : ℕ) : Attribute → σ → σ
  | ⟨value, type, counter, count, unspec, unknown, isPrivate, isMac, targets, link, selector,
      isDefault, attrs, variants⟩, state =>
    let attr : Attribute := ⟨value, type, counter, count, unspec, unknown, isPrivate, isMac,
      targets, link, selector, isDefault, attrs, variants⟩
    let entered := memberStart attr ⟨info, block, base⟩ state
    let walkValue (info : Memory) (block : List ℕ) (offset : ℕ) (state : σ) :=
      if type = .struct then attributesWalkMembers info block offset attrs state else state
    if !entered.1 then entered.2
    else if attributeIsArray attr then
      if count ≠ 0 then
        (List.range count).foldl (fun state i =>
          walkValue info block (base + value.offset + i * value.size) state) entered.2
      else match info.pointer (base + value.offset) with
        | .ref _ => entered.2
        | .elements number pointer =>
          (List.range (info.load base counter)).foldl (fun state i =>
            walkValue ⟨number, pointer⟩ (block ++ [base + value.offset]) (i * value.size) state)
            entered.2
    else walkValue info block (base + value.offset) entered.2

end

end Walk

inductive Linked
  | one (target : Option ℕ)
  | many (targets : List (Option ℕ))
  deriving DecidableEq

/-- The structures linked into the members of a decoded one, which are known by their numbers. -/
abbrev LinkMembers := LinkPlace → Linked

def handleAt (info : Memory) (offset : ℕ) : ℕ := (info.number offset).toNat % 2 ^ 16

def handleSize : ℕ := 2

def attributeHandles (attr : Attribute) (node : AttributeNode) : List ℕ :=
  let offset := node.base + attr.value.offset
  if attr.count ≠ 0 then
    (List.range attr.count).map fun i => handleAt node.info (offset + i * handleSize)
  else match node.info.pointer offset with
    | .ref _ => []
    | .elements number pointer =>
      (List.range (node.info.load node.base attr.counter)).map fun i =>
        handleAt ⟨number, pointer⟩ (i * handleSize)

def attributesLinkHandle (context : Context) (registry : Registry) (attr : Attribute)
    (node : AttributeNode) (members : LinkMembers) : Bool × LinkMembers :=
  let target : LinkPlace := ⟨node.block, node.base + attr.link.offset⟩
  let resolve (handle : ℕ) := registryResolveAny context registry handle attr.targets
  if !memberIsPresent attr.link then (true, members)
  else if !attributeIsArray attr then
    let result := resolve (handleAt node.info (node.base + attr.value.offset))
    (result.1, Function.update members target (.one result.2))
  else
    let handles := attributeHandles attr node
    if handles.length = 0 then (true, members)
    else (handles.all fun handle => (resolve handle).1,
      Function.update members target (.many (handles.map fun handle => (resolve handle).2)))

def attributesLinkMember (context : Context) (registry : Registry) (attr : Attribute)
    (node : AttributeNode) (walk : Bool × LinkMembers) : Bool × Bool × LinkMembers :=
  if attr.type ≠ .handle then (true, walk)
  else
    let result := attributesLinkHandle context registry attr node walk.2
    (false, walk.1 && result.1, result.2)

mutual

def attributesHaveLinks : List Attribute → Bool
  | [] => false
  | attr :: rest => attributeHasLinks attr || attributesHaveLinks rest

def attributeHasLinks : Attribute → Bool
  | ⟨_, type, _, _, _, _, _, _, _, link, _, _, attrs, _⟩ =>
    if type = .handle then memberIsPresent link
    else if type = .struct then attributesHaveLinks attrs
    else false

end

/-- A structure as linking sees it: what it has been decoded into, and the attributes and the link
handler of its specification. The handler tells whether it succeeds with what has been linked. -/
structure Linkable where
  info : Option Memory
  attributes : List Attribute
  link : Option ((ℕ → LinkMembers) → Bool)

structure LinkState where
  members : ℕ → LinkMembers
  linked : ℕ → Bool

def attributesLink (context : Context) (registry : Registry) (entity : Linkable)
    (members : LinkMembers) : Bool × LinkMembers :=
  match entity.info with
  | none => (true, members)
  | some info => attributesWalkMembers (attributesLinkMember context registry) info [] 0
      entity.attributes (true, members)

def entityIsLinkable (entity : Linkable) : Bool :=
  entity.link.isSome || attributesHaveLinks entity.attributes

def entityLink (context : Context) (registry : Registry) (entity : Linkable) (i : ℕ)
    (state : LinkState) : Bool × LinkState :=
  if !entityIsLinkable entity then (false, state)
  else if state.linked i then (true, state)
  else
    let result := attributesLink context registry entity (state.members i)
    let members := Function.update state.members i result.2
    -- The handler is called after a failure too
    let success := entity.link.elim result.1 fun link => link members && result.1
    (success, ⟨members, if success then Function.update state.linked i true else state.linked⟩)

def registryLinkEntity (context : Context) (registry : Registry) (entities : ℕ → Linkable)
    (walk : Bool × LinkState) (i : ℕ) : Bool × LinkState :=
  if !entityIsLinkable (entities i) || (entities i).info.isNone then walk
  else
    let result := entityLink context registry (entities i) i walk.2
    (walk.1 && result.1, result.2)

def registryLink (context : Context) (registry : Registry) (entities : ℕ → Linkable)
    (status : Bool) (state : LinkState) : Bool × Bool × LinkState :=
  if status then (true, status, state)
  else
    let result := (registryNumbers registry (registry.allocated + 1)
      (registryIterInitialize none)).foldl (registryLinkEntity context registry entities)
      (true, state)
    if !result.1 && context.strict then (false, status, result.2) else (true, true, result.2)

end OpenDmi

import OpenDmi.Spec

/-! The type map of a context: the specifications which the enabled modules bring to the type
numbers, and the operations on a context which change it. -/

namespace OpenDmi

structure Generations where
  minimum : ℕ
  maximum : ℕ
  deriving DecidableEq

structure Platform where
  firmwareVendor : ℕ
  systemVendor : ℕ
  baseboardVendor : ℕ
  processorVendor : ℕ
  family : Option (List Byte)
  generation : ℕ
  deriving DecidableEq

/-- A vendor which is not told matches any one. -/
structure PlatformMatch where
  firmwareVendor : Option ℕ
  systemVendor : Option ℕ
  baseboardVendor : Option ℕ
  processorVendor : Option ℕ
  family : Option (List Byte)
  deriving DecidableEq

/-- A relocation to no type maps the specification nowhere. -/
structure Relocation where
  spec : ℕ
  type : Option ℕ
  deriving DecidableEq

structure Module where
  entities : List ℕ
  yields : Bool
  platforms : List PlatformMatch
  relocations : List Relocation
  deriving DecidableEq

structure SpecType where
  typeId : ℕ
  isSigned : Bool
  generations : Generations
  deriving DecidableEq

/-- The modules and the specifications of the library, which are known by numbers, and the built-in
specifications of the types, none of which has a signature. -/
structure Library where
  spec : ℕ → SpecType
  module : ℕ → Module
  registered : List ℕ
  builtin : ℕ → Option ℕ
  unsigned : ∀ type spec', builtin type = some spec' → (spec spec').isSigned = false

abbrev TypeMap := ℕ → TypeCandidates

def typeCandidatesMax : ℕ := 4

def vendorMatch (condition : Option ℕ) (vendor : ℕ) : Bool :=
  condition.all (· == vendor)

def platformMatch (platform : Platform) (condition : PlatformMatch) : Bool :=
  vendorMatch condition.firmwareVendor platform.firmwareVendor &&
  vendorMatch condition.systemVendor platform.systemVendor &&
  vendorMatch condition.baseboardVendor platform.baseboardVendor &&
  vendorMatch condition.processorVendor platform.processorVendor &&
  condition.family.all fun family => platform.family == some family

def platformInGenerations (platform : Option Platform) (generations : Generations) : Bool :=
  if generations.minimum = 0 ∧ generations.maximum = 0 then true
  else match platform with
    | none => false
    | some platform =>
      platform.generation != 0 &&
        !(generations.minimum != 0 && platform.generation < generations.minimum) &&
        !(generations.maximum != 0 && generations.maximum < platform.generation)

def eachWhile {α σ : Type} (step : α → σ → Bool × σ) : List α → σ → Bool × σ
  | [], state => (true, state)
  | a :: rest, state =>
    if (step a state).1 then eachWhile step rest (step a state).2 else (false, (step a state).2)

def specRelocateFrom (spec own : ℕ) : List Relocation → Bool → ℕ → Option ℕ
  | [], relocated, index => if relocated = true ∨ index ≠ 0 then none else some own
  | relocation :: rest, relocated, index =>
    if relocation.spec ≠ spec then specRelocateFrom spec own rest relocated index
    else match relocation.type with
      | none => specRelocateFrom spec own rest true index
      | some type =>
        if index = 0 then some type else specRelocateFrom spec own rest true (index - 1)

/-- The relocations of all the modules reach the specification, not only the ones of its own. -/
def specRelocate (library : Library) (modules : List ℕ) (spec index : ℕ) : Option ℕ :=
  specRelocateFrom spec (library.spec spec).typeId
    (modules.flatMap fun module => (library.module module).relocations) false index

def typesMapOne (library : Library) (spec : ℕ) (yields : Bool) (candidates : TypeCandidates) :
    Bool × TypeCandidates :=
  if candidates.plain = some spec ∨ spec ∈ candidates.signed then (true, candidates)
  else if (library.spec spec).isSigned = false then
    if candidates.plain ≠ none then (yields, candidates)
    else (true, { candidates with plain := some spec })
  else if candidates.signed.length < typeCandidatesMax - 1 then
    (true, { candidates with signed := candidates.signed ++ [spec] })
  else (yields, candidates)

def typesMapAt (library : Library) (yields : Bool) (spec type : ℕ) (map : TypeMap) :
    Bool × TypeMap :=
  let result := typesMapOne library spec yields (map type)
  (result.1, Function.update map type result.2)

def typesMapSpec (library : Library) (modules : List ℕ) (yields : Bool) (spec : ℕ) :
    ℕ → ℕ → TypeMap → Bool × TypeMap
  | 0, _, map => (true, map)
  | fuel + 1, index, map =>
    match specRelocate library modules spec index with
    | none => (true, map)
    | some type =>
      let result := typesMapAt library yields spec type map
      if result.1 then typesMapSpec library modules yields spec fuel (index + 1) result.2
      else (false, result.2)

def typesMapModule (library : Library) (platform : Option Platform) (modules : List ℕ)
    (yields : Bool) (module : ℕ) (map : TypeMap) : Bool × TypeMap :=
  if (library.module module).yields ≠ yields then (true, map)
  else eachWhile (fun spec map =>
    if platformInGenerations platform (library.spec spec).generations = false then (true, map)
    else typesMapSpec library modules yields spec
      ((modules.flatMap fun module => (library.module module).relocations).length + 1) 0 map)
    (library.module module).entities map

/-- Modules which yield their types to the rest are mapped last. -/
def typesMap (library : Library) (platform : Option Platform) (modules : List ℕ) :
    Bool × TypeMap :=
  eachWhile (fun yields map =>
    eachWhile (typesMapModule library platform modules yields) modules map) [false, true]
    fun type => ⟨library.builtin type, []⟩

structure TypeContext where
  modules : List ℕ
  platform : Option Platform
  isOpen : Bool
  stateModules : List ℕ
  statePlatform : Option Platform
  typeMap : TypeMap

def contextPlatform (state : TypeContext) : Option Platform :=
  match state.platform with
  | some platform => some platform
  | none => state.statePlatform

def contextModules (state : TypeContext) : List ℕ := state.modules ++ state.stateModules

def contextCreate (library : Library) : TypeContext where
  modules := []
  platform := none
  isOpen := false
  stateModules := []
  statePlatform := none
  typeMap := (typesMap library none []).2

def hasExtension (state : TypeContext) (module : ℕ) : Bool := module ∈ contextModules state

def typesRebuild (library : Library) (state : TypeContext) : Bool × TypeContext :=
  let result := typesMap library (contextPlatform state) (contextModules state)
  if result.1 then (true, { state with typeMap := result.2 }) else (false, state)

def addExtension (library : Library) (module : ℕ) (state : TypeContext) : Bool × TypeContext :=
  if hasExtension state module then (false, state)
  else
    let result := typesMap library (contextPlatform state) (contextModules state ++ [module])
    if result.1 then
      (true, { state with modules := state.modules ++ [module], typeMap := result.2 })
    else (false, state)

def setPlatform (library : Library) (platform : Option Platform) (state : TypeContext) :
    Bool × TypeContext :=
  let result := typesRebuild library { state with platform := platform }
  if result.1 then result else (false, { result.2 with platform := state.platform })

def contextClose (library : Library) (state : TypeContext) : TypeContext :=
  let state := { state with isOpen := false, stateModules := [], statePlatform := none }
  { state with typeMap := (typesMap library (contextPlatform state) (contextModules state)).2 }

def setupPlatformModule (library : Library) (state : TypeContext) (module : ℕ) : TypeContext :=
  if hasExtension state module then state
  else if !(contextPlatform state).any fun platform =>
      (library.module module).platforms.any (platformMatch platform) then state
  else if (typesMap library (contextPlatform state) (contextModules state ++ [module])).1 then
    { state with stateModules := state.stateModules ++ [module] }
  else state

/-- What opening a context comes across: whether the table can be read, the platform told from it,
whether modules are enabled for it, and whether the structures can be decoded and linked. -/
structure Opening where
  read : Bool
  platform : Platform
  autoModules : Bool
  decoded : Bool

def setupExtensions (library : Library) (opening : Opening) (state : TypeContext) :
    Bool × TypeContext :=
  let state := { state with statePlatform := some opening.platform }
  typesRebuild library
    (if opening.autoModules then library.registered.foldl (setupPlatformModule library) state
      else state)

def contextOpen (library : Library) (opening : Opening) (state : TypeContext) :
    Bool × TypeContext :=
  if state.isOpen then (false, state)
  else
    let state := { state with isOpen := true }
    if !opening.read then (false, contextClose library state)
    else
      let result := setupExtensions library opening state
      if result.1 && opening.decoded then (true, result.2)
      else (false, contextClose library result.2)

inductive ContextCall
  | «open» (opening : Opening)
  | close
  | addExtension (module : ℕ)
  | setPlatform (platform : Option Platform)

def contextCall (library : Library) (state : TypeContext) : ContextCall → Bool × TypeContext
  | .open opening => contextOpen library opening state
  | .close => (true, contextClose library state)
  | .addExtension module => addExtension library module state
  | .setPlatform platform => setPlatform library platform state

end OpenDmi

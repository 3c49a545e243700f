import OpenDmi.ExportJson
import OpenDmi.ParseNumber

namespace OpenDmi

open Bytes Numeral

structure FilterModule where
  code : List Byte
  entities : Option (List ℕ)
  deriving DecidableEq

/-- The modules in their order, and the types as they are when the options are parsed. -/
structure FilterContext where
  modules : List FilterModule
  typeMap : TypeMap
  specCode : ℕ → List Byte

inductive FilterCategory
  | common
  | oem
  | inactive
  | unknown
  deriving DecidableEq

def FilterMask.switch (mask : FilterMask) (shown : Bool) : FilterCategory → FilterMask
  | .common => { mask with common := shown }
  | .oem => { mask with oem := shown }
  | .inactive => { mask with inactive := shown }
  | .unknown => { mask with unknown := shown }

def FilterMask.has (mask : FilterMask) : FilterCategory → Bool
  | .common => mask.common
  | .oem => mask.oem
  | .inactive => mask.inactive
  | .unknown => mask.unknown

def filterMaskDefault : FilterMask := ⟨true, true, false, false⟩
def filterMaskAll : FilterMask := ⟨true, true, true, true⟩

def filterConfig : Filter := ⟨filterMaskDefault, [], [], []⟩

section Handlers

def filterAddHandle (filter : Filter) (handle : ℕ) : Filter :=
  { filter with handles := filter.handles ++ [handle] }

def filterAddType (filter : Filter) (type : ℕ) : Filter :=
  { filter with types := filter.types ++ [type] }

/-- A module without a list of entities is kept as one with none. -/
def filterAddModule (filter : Filter) (module : FilterModule) : Filter :=
  { filter with modules := filter.modules ++ [module.entities.getD []] }

def filterConfigAddHandle (value : List Byte) : StateM Filter Bool :=
  match parseHandle value with
  | .error _ => pure false
  | .ok handle => do
    modify (filterAddHandle · handle)
    pure true

def filterConfigAddType (context : FilterContext) (value : List Byte) : StateM Filter Bool :=
  match parseType context.typeMap context.specCode value with
  | .error _ => pure false
  | .ok type => do
    modify (filterAddType · type)
    pure true

def filterConfigSwitch (shown : Bool) (category : FilterCategory) : StateM Filter Bool := do
  modify fun filter => { filter with mask := filter.mask.switch shown category }
  pure true

def filterConfigEnableStd : StateM Filter Bool := filterConfigSwitch true .common
def filterConfigDisableStd : StateM Filter Bool := filterConfigSwitch false .common
def filterConfigEnableOem : StateM Filter Bool := filterConfigSwitch true .oem
def filterConfigDisableOem : StateM Filter Bool := filterConfigSwitch false .oem
def filterConfigEnableInactive : StateM Filter Bool := filterConfigSwitch true .inactive
def filterConfigDisableInactive : StateM Filter Bool := filterConfigSwitch false .inactive
def filterConfigEnableUnknown : StateM Filter Bool := filterConfigSwitch true .unknown
def filterConfigDisableUnknown : StateM Filter Bool := filterConfigSwitch false .unknown

def filterConfigEnableAll : StateM Filter Bool := do
  modify fun filter => { filter with mask := filterMaskAll }
  pure true

def FilterModule.isVoid (module : FilterModule) : Bool := module.entities.getD [] == []

def moduleFind (modules : List FilterModule) (code : List Byte) : Option FilterModule :=
  modules.find? (·.code == code)

def filterConfigAddModule (context : FilterContext) (value : List Byte) : StateM Filter Bool :=
  match moduleFind context.modules value with
  | none => pure false
  | some module =>
    if module.isVoid then pure false
    else do
      modify (filterAddModule · module)
      pure true

def addAllModules : List FilterModule → StateM Filter Bool
  | [] => pure true
  | module :: modules =>
    if module.isVoid then addAllModules modules
    else do
      modify (filterAddModule · module)
      addAllModules modules

def filterConfigAddAllModules (context : FilterContext) : StateM Filter Bool :=
  addAllModules context.modules

def filterOption (short long : String) (handler : ℕ) (argument : OptionArgument) : CommandOption :=
  ⟨some (stringBytes short), some [stringBytes long], none, false, some handler, argument⟩

def filterOptions : OptionSet :=
  [filterOption "H" "handle" 0 (.string true), filterOption "t" "type" 1 (.string true),
    filterOption "s" "standard" 2 .none, filterOption "S" "no-standard" 3 .none,
    filterOption "e" "oem" 4 .none, filterOption "E" "no-oem" 5 .none,
    filterOption "i" "inactive" 6 .none, filterOption "I" "no-inactive" 7 .none,
    filterOption "u" "unknown" 8 .none, filterOption "U" "no-unknown" 9 .none,
    filterOption "m" "module" 10 (.string true), filterOption "M" "all-modules" 11 .none,
    filterOption "a" "all" 12 .none]

/-- The calls of the handlers of the filter. Those of other options are let through or refused, and
leave the filter as it is. -/
def filterCall (context : FilterContext) (other : OptionCall → Bool) :
    OptionCall → StateM Filter Bool
  | .handler 0 (some value) => filterConfigAddHandle value
  | .handler 1 (some value) => filterConfigAddType context value
  | .handler 2 _ => filterConfigEnableStd
  | .handler 3 _ => filterConfigDisableStd
  | .handler 4 _ => filterConfigEnableOem
  | .handler 5 _ => filterConfigDisableOem
  | .handler 6 _ => filterConfigEnableInactive
  | .handler 7 _ => filterConfigDisableInactive
  | .handler 8 _ => filterConfigEnableUnknown
  | .handler 9 _ => filterConfigDisableUnknown
  | .handler 10 (some value) => filterConfigAddModule context value
  | .handler 11 _ => filterConfigAddAllModules context
  | .handler 12 _ => filterConfigEnableAll
  -- The handlers assert that there is a value, which parsing always has for these options
  | .handler 0 none | .handler 1 none | .handler 10 none => pure false
  | call => pure (other call)

end Handlers

section Uses

inductive FilterUse
  | handle (handle : ℕ)
  | type (type : ℕ)
  | modules (modules : List FilterModule)
  | switch (category : FilterCategory) (shown : Bool)
  | all
  deriving DecidableEq

def filterSwitches : List (ℕ × FilterCategory × Bool) :=
  [(2, .common, true), (3, .common, false), (4, .oem, true), (5, .oem, false),
    (6, .inactive, true), (7, .inactive, false), (8, .unknown, true), (9, .unknown, false)]

structure ModuleText (modules : List FilterModule) (code : List Byte) (module : FilterModule) :
    Prop where
  found : ∃ before after, modules = before ++ module :: after ∧ ∀ m ∈ before, m.code ≠ code
  code : module.code = code
  given : module.isVoid = false

inductive CallUses (context : FilterContext) (other : OptionCall → Bool) :
    OptionCall → List FilterUse → Prop
  | handle {text : List Byte} {handle : ℕ} (h : HandleText text handle) :
    CallUses context other (.handler 0 (some text)) [.handle handle]
  | type {text : List Byte} {type : ℕ} (h : TypeText context.typeMap context.specCode text type) :
    CallUses context other (.handler 1 (some text)) [.type type]
  | switch {n : ℕ} {category : FilterCategory} {shown : Bool} {value : Option (List Byte)}
    (h : (n, category, shown) ∈ filterSwitches) :
    CallUses context other (.handler n value) [.switch category shown]
  | module {text : List Byte} {module : FilterModule} (h : ModuleText context.modules text module) :
    CallUses context other (.handler 10 (some text)) [.modules [module]]
  | allModules {value : Option (List Byte)} : CallUses context other (.handler 11 value)
      [.modules (context.modules.filter (!·.isVoid))]
  | all {value : Option (List Byte)} : CallUses context other (.handler 12 value) [.all]
  | other {c : OptionCall} (hforeign : ∀ n value, c = .handler n value → 12 < n)
    (h : other c = true) : CallUses context other c []

inductive FilterUses (context : FilterContext) (other : OptionCall → Bool) :
    List OptionCall → List FilterUse → Prop
  | nil : FilterUses context other [] []
  | cons {c : OptionCall} {calls : List OptionCall} {uses more : List FilterUse}
    (huse : CallUses context other c uses) (hrest : FilterUses context other calls more) :
    FilterUses context other (c :: calls) (uses ++ more)

def FilterUse.apply (filter : Filter) : FilterUse → Filter
  | .handle number => filterAddHandle filter number
  | .type number => filterAddType filter number
  | .modules added => added.foldl filterAddModule filter
  | .switch category shown => { filter with mask := filter.mask.switch shown category }
  | .all => { filter with mask := filterMaskAll }

def FilterUse.switches (category : FilterCategory) : FilterUse → Option Bool
  | .switch other shown => if other = category then some shown else none
  | .all => some true
  | _ => none

def switchedTo (uses : List FilterUse) (category : FilterCategory) : Bool :=
  ((uses.filterMap (·.switches category)).getLast?).getD (filterMaskDefault.has category)

def FilterUse.Restricts : FilterUse → Prop
  | .handle _ | .type _ => True
  | .modules added => added ≠ []
  | .switch _ _ | .all => False

def FilterUse.Picks (entity : Entity) : FilterUse → Prop
  | .handle number => entity.handle = number
  | .type number => entity.typeId = number
  | .modules added => ∃ module ∈ added, ∃ entities spec, module.entities = some entities ∧
      entity.spec = some spec ∧ spec ∈ entities
  | .switch _ _ | .all => False

structure Shown (uses : List FilterUse) (entity : Entity) : Prop where
  category : switchedTo uses (if entity.typeId < typeOemStart then .common else .oem) = true
  inactive : entity.typeId = typeInactive → switchedTo uses .inactive = true
  unknown : entity.spec = none → switchedTo uses .unknown = true
  picked : (∀ use ∈ uses, ¬ use.Restricts) ∨ ∃ use ∈ uses, use.Picks entity

end Uses

section Accepted

variable {context : FilterContext} {other : OptionCall → Bool} {calls : List OptionCall}
  {c : OptionCall} {uses : List FilterUse} {filter result : Filter} {entity : Entity}

lemma moduleFind_iff {modules : List FilterModule} {code : List Byte} {module : FilterModule} :
    moduleFind modules code = some module ∧ module.isVoid = false ↔
      ModuleText modules code module := by
  rw [moduleFind, List.find?_eq_some_iff_append]
  constructor
  · rintro ⟨⟨hcode, before, after, hmodules, hbefore⟩, hvoid⟩
    exact ⟨⟨before, after, hmodules, fun m hm => by simpa using hbefore m hm⟩,
      by simpa using hcode, hvoid⟩
  · rintro ⟨⟨before, after, hmodules, hbefore⟩, hcode, hvoid⟩
    exact ⟨⟨by simpa using hcode, before, after, hmodules, fun m hm => by simpa using hbefore m hm⟩,
      hvoid⟩

lemma addAllModules_run (modules : List FilterModule) (filter : Filter) :
    (addAllModules modules).run filter =
      (true, (modules.filter (!·.isVoid)).foldl filterAddModule filter) := by
  induction modules generalizing filter with
  | nil => rfl
  | cons module modules ih =>
    rw [addAllModules]
    by_cases hvoid : module.isVoid = true
    · rw [if_pos hvoid, ih, List.filter_cons_of_neg (by simp [hvoid])]
    · rw [if_neg hvoid, List.filter_cons_of_pos (by simpa using hvoid), List.foldl_cons]
      exact ih (filterAddModule filter module)

lemma filterCall_uses (h : CallUses context other c uses) (filter : Filter) :
    (filterCall context other c).run filter = (true, uses.foldl FilterUse.apply filter) := by
  cases h with
  | handle h =>
    rw [filterCall, filterConfigAddHandle, parseHandle_iff.mpr h]
    rfl
  | type h =>
    rw [filterCall, filterConfigAddType, parseType_iff.mpr h]
    rfl
  | switch h =>
    simp only [filterSwitches, List.mem_cons, Prod.mk.injEq, List.not_mem_nil, or_false] at h
    obtain ⟨rfl, rfl, rfl⟩ | ⟨rfl, rfl, rfl⟩ | ⟨rfl, rfl, rfl⟩ | ⟨rfl, rfl, rfl⟩ |
      ⟨rfl, rfl, rfl⟩ | ⟨rfl, rfl, rfl⟩ | ⟨rfl, rfl, rfl⟩ | ⟨rfl, rfl, rfl⟩ := h <;> rfl
  | module h =>
    obtain ⟨hfind, hvoid⟩ := moduleFind_iff.mpr h
    rw [filterCall, filterConfigAddModule, hfind]
    simp only [hvoid, Bool.false_eq_true, if_false]
    rfl
  | allModules => exact addAllModules_run context.modules filter
  | all => rfl
  | other hforeign h =>
    cases c with
    | handler n value =>
      have hn := hforeign n value rfl
      obtain ⟨k, rfl⟩ := Nat.exists_eq_add_of_le' hn
      exact congrArg (·, filter) h
    | _ => exact congrArg (·, filter) h

lemma callUses_of_run (h : ((filterCall context other c).run filter).1 = true) :
    ∃ uses, CallUses context other c uses := by
  cases c with
  | handler n value =>
    by_cases hn : 12 < n
    · refine ⟨[], .other (fun _ _ he => (OptionCall.handler.inj he).1 ▸ hn) ?_⟩
      obtain ⟨k, rfl⟩ := Nat.exists_eq_add_of_le' hn
      exact h
    have hswitch : ∀ n category shown, (n, category, shown) ∈ filterSwitches →
        ∃ uses, CallUses context other (.handler n value) uses :=
      fun _ _ _ hmem => ⟨_, .switch hmem⟩
    interval_cases n
    · cases value with
      | none => exact absurd h Bool.false_ne_true
      | some text =>
        cases hparse : parseHandle text with
        | error message =>
          rw [filterCall, filterConfigAddHandle, hparse] at h
          exact absurd h Bool.false_ne_true
        | ok handle => exact ⟨_, .handle (parseHandle_iff.mp hparse)⟩
    · cases value with
      | none => exact absurd h Bool.false_ne_true
      | some text =>
        cases hparse : parseType context.typeMap context.specCode text with
        | error message =>
          rw [filterCall, filterConfigAddType, hparse] at h
          exact absurd h Bool.false_ne_true
        | ok type => exact ⟨_, .type (parseType_iff.mp hparse)⟩
    · exact hswitch 2 .common true (by decide)
    · exact hswitch 3 .common false (by decide)
    · exact hswitch 4 .oem true (by decide)
    · exact hswitch 5 .oem false (by decide)
    · exact hswitch 6 .inactive true (by decide)
    · exact hswitch 7 .inactive false (by decide)
    · exact hswitch 8 .unknown true (by decide)
    · exact hswitch 9 .unknown false (by decide)
    · cases value with
      | none => exact absurd h Bool.false_ne_true
      | some text =>
        cases hfind : moduleFind context.modules text with
        | none =>
          rw [filterCall, filterConfigAddModule, hfind] at h
          exact absurd h Bool.false_ne_true
        | some module =>
          by_cases hvoid : module.isVoid = true
          · rw [filterCall, filterConfigAddModule, hfind] at h
            simp only [hvoid, if_true] at h
            exact absurd h Bool.false_ne_true
          · exact ⟨_, .module (moduleFind_iff.mp ⟨hfind, Bool.eq_false_iff.mpr hvoid⟩)⟩
    · exact ⟨_, .allModules⟩
    · exact ⟨_, .all⟩
  | _ => exact ⟨[], .other nofun h⟩

lemma filterCalls_run (calls : List OptionCall) (filter : Filter) :
    (∀ uses, FilterUses context other calls uses →
        (calls.allM (filterCall context other)).run filter =
          (true, uses.foldl FilterUse.apply filter)) ∧
      (((calls.allM (filterCall context other)).run filter).1 = true →
        ∃ uses, FilterUses context other calls uses) := by
  induction calls generalizing filter with
  | nil =>
    refine ⟨fun uses h => ?_, fun _ => ⟨[], .nil⟩⟩
    cases h
    rfl
  | cons c calls ih =>
    have hstep : ∀ uses, CallUses context other c uses →
        ((c :: calls).allM (filterCall context other)).run filter =
          (calls.allM (filterCall context other)).run (uses.foldl FilterUse.apply filter) := by
      intro uses huse
      rw [Script.allM_cons, andM, StateT.run_bind, filterCall_uses huse]
      rfl
    constructor
    · intro uses h
      cases h with
      | cons huse hrest => rw [hstep _ huse, (ih _).1 _ hrest, List.foldl_append]
    · intro h
      have hc : ((filterCall context other c).run filter).1 = true := by
        by_contra hno
        rw [Bool.not_eq_true] at hno
        rw [Script.allM_cons, andM, StateT.run_bind] at h
        rcases hrun : (filterCall context other c).run filter with ⟨ok, after⟩
        rw [hrun] at h hno
        obtain rfl : ok = false := hno
        exact absurd h Bool.false_ne_true
      obtain ⟨uses, huse⟩ := callUses_of_run hc
      rw [hstep uses huse] at h
      obtain ⟨more, hrest⟩ := (ih _).2 h
      exact ⟨_, .cons huse hrest⟩

lemma switch_has (mask : FilterMask) (shown : Bool) (category other : FilterCategory) :
    (mask.switch shown category).has other =
      if category = other then shown else mask.has other := by
  cases category <;> cases other <;> rfl

lemma apply_mask (use : FilterUse) (category : FilterCategory) :
    (use.apply filter).mask.has category =
      (use.switches category).getD (filter.mask.has category) := by
  cases use with
  | modules added =>
    induction added generalizing filter with
    | nil => rfl
    | cons module added ih => exact ih
  | switch other shown =>
    rw [FilterUse.apply, switch_has, FilterUse.switches]
    split_ifs <;> rfl
  | all => cases category <;> rfl
  | _ => rfl

lemma uses_mask (uses : List FilterUse) (category : FilterCategory) :
    (uses.foldl FilterUse.apply filter).mask.has category =
      ((uses.filterMap (·.switches category)).getLast?).getD (filter.mask.has category) := by
  induction uses generalizing filter with
  | nil => rfl
  | cons use uses ih =>
    rw [List.foldl_cons, ih, apply_mask, List.filterMap_cons]
    cases use.switches category with
    | none => rfl
    | some shown =>
      rw [List.getLast?_cons]
      cases (uses.filterMap (·.switches category)).getLast? <;> rfl

def filterPicks (filter : Filter) (entity : Entity) : Bool :=
  filterMatchHandle filter entity || filterMatchType filter entity ||
    filterMatchModule filter entity

lemma addModules_modules (added : List FilterModule) : added.foldl filterAddModule filter =
    { filter with modules := filter.modules ++ added.map (·.entities.getD []) } := by
  induction added generalizing filter with
  | nil => simp
  | cons module added ih => simp [ih, filterAddModule]

lemma modulesPick_iff (added : List FilterModule) :
    (∃ module ∈ added, ∃ entities spec, module.entities = some entities ∧
        entity.spec = some spec ∧ spec ∈ entities) ↔
      ∃ spec, entity.spec = some spec ∧
        ∃ entities ∈ added.map (·.entities.getD []), spec ∈ entities := by
  constructor
  · rintro ⟨module, hmodule, entities, spec, hentities, hspec, hmem⟩
    exact ⟨spec, hspec, entities, List.mem_map.mpr ⟨module, hmodule, by rw [hentities]; rfl⟩, hmem⟩
  · rintro ⟨spec, hspec, entities, hentities, hmem⟩
    obtain ⟨module, hmodule, rfl⟩ := List.mem_map.mp hentities
    cases hgiven : module.entities with
    | none =>
      rw [hgiven] at hmem
      exact absurd hmem List.not_mem_nil
    | some entities =>
      rw [hgiven] at hmem
      exact ⟨module, hmodule, entities, spec, hgiven, hspec, hmem⟩

lemma matchModule_iff : filterMatchModule filter entity = true ↔
    ∃ spec, entity.spec = some spec ∧ ∃ entities ∈ filter.modules, spec ∈ entities := by
  rw [filterMatchModule]
  cases entity.spec with
  | none => simp
  | some spec => simp

lemma apply_picks (use : FilterUse) : filterPicks (use.apply filter) entity = true ↔
    filterPicks filter entity = true ∨ use.Picks entity := by
  cases use with
  | handle number =>
    have hsame : filterMatchHandle (filterAddHandle filter number) entity =
        (filterMatchHandle filter entity || number == entity.handle) := by
      simp [filterMatchHandle, filterAddHandle]
    have hrest : filterMatchModule (filterAddHandle filter number) entity =
        filterMatchModule filter entity := rfl
    have htype : filterMatchType (filterAddHandle filter number) entity =
        filterMatchType filter entity := rfl
    simp only [FilterUse.apply, FilterUse.Picks, filterPicks, hsame, hrest, htype, Bool.or_eq_true,
      beq_iff_eq]
    rw [eq_comm (a := number)]
    tauto
  | type number =>
    have hsame : filterMatchType (filterAddType filter number) entity =
        (filterMatchType filter entity || number == entity.typeId) := by
      simp [filterMatchType, filterAddType]
    have hrest : filterMatchModule (filterAddType filter number) entity =
        filterMatchModule filter entity := rfl
    have hhandle : filterMatchHandle (filterAddType filter number) entity =
        filterMatchHandle filter entity := rfl
    simp only [FilterUse.apply, FilterUse.Picks, filterPicks, hsame, hrest, hhandle,
      Bool.or_eq_true, beq_iff_eq]
    rw [eq_comm (a := number)]
    tauto
  | modules added =>
    simp only [FilterUse.apply, FilterUse.Picks, filterPicks, addModules_modules, Bool.or_eq_true,
      matchModule_iff, List.mem_append, or_and_right, exists_or, and_or_left, modulesPick_iff]
    exact or_assoc.symm
  | switch category shown => simp [FilterUse.apply, FilterUse.Picks, filterPicks,
      filterMatchHandle, filterMatchType, filterMatchModule]
  | all => simp [FilterUse.apply, FilterUse.Picks, filterPicks,
      filterMatchHandle, filterMatchType, filterMatchModule]

lemma apply_isEmpty (use : FilterUse) : filterIsEmpty (use.apply filter) = true ↔
    filterIsEmpty filter = true ∧ ¬ use.Restricts := by
  cases use with
  | modules added =>
    simp only [FilterUse.apply, FilterUse.Restricts, filterIsEmpty, addModules_modules,
      Bool.and_eq_true, List.isEmpty_iff, List.append_eq_nil_iff, List.map_eq_nil_iff, not_not]
    exact and_assoc.symm
  | handle number => simp [FilterUse.apply, FilterUse.Restricts, filterIsEmpty, filterAddHandle]
  | type number => simp [FilterUse.apply, FilterUse.Restricts, filterIsEmpty, filterAddType]
  | switch category shown => simp [FilterUse.apply, FilterUse.Restricts, filterIsEmpty]
  | all => simp [FilterUse.apply, FilterUse.Restricts, filterIsEmpty]

lemma uses_picks (uses : List FilterUse) :
    filterPicks (uses.foldl FilterUse.apply filter) entity = true ↔
      filterPicks filter entity = true ∨ ∃ use ∈ uses, use.Picks entity := by
  induction uses generalizing filter with
  | nil => simp
  | cons use uses ih =>
    rw [List.foldl_cons, ih, apply_picks, or_assoc]
    simp only [List.exists_mem_cons_iff]

lemma uses_isEmpty (uses : List FilterUse) :
    filterIsEmpty (uses.foldl FilterUse.apply filter) = true ↔
      filterIsEmpty filter = true ∧ ∀ use ∈ uses, ¬ use.Restricts := by
  induction uses generalizing filter with
  | nil => simp
  | cons use uses ih =>
    rw [List.foldl_cons, ih, apply_isEmpty, and_assoc]
    simp only [List.forall_mem_cons]

lemma filterPicks_default (entity : Entity) : filterPicks filterConfig entity = false := by
  rw [filterPicks, filterMatchModule]
  cases entity.spec <;> rfl

lemma filterMatch_split : filterMatch filter entity = true ↔
    filterMatchMask filter entity = true ∧
      (filterIsEmpty filter = true ∨ filterPicks filter entity = true) := by
  simp only [filterMatch, filterPicks, Bool.and_eq_true, Bool.or_eq_true, or_assoc]

lemma filterMatch_uses (uses : List FilterUse) (entity : Entity) :
    filterMatch (uses.foldl FilterUse.apply filterConfig) entity = true ↔ Shown uses entity := by
  have hmask : ∀ category, (uses.foldl FilterUse.apply filterConfig).mask.has category =
      switchedTo uses category := uses_mask uses
  have hpicks := @uses_picks filterConfig entity uses
  have hempty := @uses_isEmpty filterConfig uses
  rw [filterPicks_default, Bool.false_eq_true, false_or] at hpicks
  replace hempty := hempty.trans (and_iff_right rfl)
  set filter := uses.foldl FilterUse.apply filterConfig
  have hcategory : (if entity.typeId < typeOemStart then filter.mask.common else filter.mask.oem) =
      switchedTo uses (if entity.typeId < typeOemStart then .common else .oem) := by
    rw [← hmask]
    split_ifs <;> rfl
  have hinactive : filter.mask.inactive = switchedTo uses .inactive := hmask .inactive
  have hunknown : filter.mask.unknown = switchedTo uses .unknown := hmask .unknown
  rw [filterMatch_split, hpicks, hempty, filterMatchMask, hcategory, hinactive, hunknown]
  simp only [Bool.and_eq_true, Bool.not_eq_true', Bool.and_eq_false_iff, beq_eq_false_iff_ne,
    Bool.not_eq_false', Option.isNone_eq_false_iff]
  constructor
  · rintro ⟨⟨⟨hcategory, hinactive⟩, hunknown⟩, hpicked⟩
    refine ⟨hcategory, fun h => hinactive.resolve_left fun hne => hne h, fun h => ?_, hpicked⟩
    exact hunknown.resolve_left fun hsome => by simp [h] at hsome
  · rintro ⟨hcategory, hinactive, hunknown, hpicked⟩
    refine ⟨⟨⟨hcategory, ?_⟩, ?_⟩, hpicked⟩
    · exact (em (entity.typeId = typeInactive)).symm.imp id hinactive
    · cases hspec : entity.spec with
      | none => exact .inr (hunknown hspec)
      | some spec => exact .inl rfl

variable {options : List OptionSet} {args : List (List Byte)} {n : ℕ}

lemma parse_line (h : CommandLine options args calls n)
    (huses : FilterUses context other calls uses) :
    (optionParse (filterCall context other) options args).run filterConfig =
      (some n, uses.foldl FilterUse.apply filterConfig) := by
  rw [(optionParse_line h).2, StateT.run_bind, (filterCalls_run calls filterConfig).1 uses huses]
  rfl

lemma parse_some
    (h : ((optionParse (filterCall context other) options args).run filterConfig).1 = some n) :
    ∃ calls uses, CommandLine options args calls n ∧ FilterUses context other calls uses := by
  obtain ⟨calls, k, hline⟩ | ⟨calls, hbad⟩ := @commandLine_total options args
  · rw [(optionParse_line hline).2, StateT.run_bind] at h
    rcases hrun : (calls.allM (filterCall context other)).run filterConfig with ⟨ok, after⟩
    rw [hrun] at h
    cases ok with
    | false => exact nomatch h
    | true =>
      obtain rfl : k = n := Option.some.inj h
      obtain ⟨uses, huses⟩ := (filterCalls_run calls filterConfig).2 (by rw [hrun])
      exact ⟨calls, uses, hline, huses⟩
  · rw [optionParse_bad hbad, StateT.run_bind] at h
    exact nomatch h

/-- A command line is taken just where each of its options asks for something which can be had. It
lets through the structures whose categories are shown, by the last option which switches each, and
which one of the options picks by their handle, their type or their module, unless there is none.
So neither the order of options which switch different categories nor that of those which pick
matters. -/
theorem filter_options_exact (context : FilterContext) (other : OptionCall → Bool)
    (options : List OptionSet) (args : List (List Byte)) :
    (∀ n, ((optionParse (filterCall context other) options args).run filterConfig).1 = some n ↔
        ∃ calls uses, CommandLine options args calls n ∧ FilterUses context other calls uses) ∧
      ∀ calls uses n, CommandLine options args calls n → FilterUses context other calls uses →
        ∀ entity, filterMatch
            ((optionParse (filterCall context other) options args).run filterConfig).2 entity = true ↔
          Shown uses entity := by
  refine ⟨fun n => ⟨parse_some, ?_⟩, fun calls uses n hline huses entity => ?_⟩
  · rintro ⟨calls, uses, hline, huses⟩
    rw [parse_line hline huses]
  · rw [parse_line hline huses]
    exact filterMatch_uses uses entity

end Accepted

section List

def handleColumn (entity : Entity) : List Byte := hexPrefix ++ hexTextPadded 4 entity.handle

def typeColumn (entity : Entity) : List Byte := decimalText entity.typeId

def listLine (name : Entity → List Byte) (entity : Entity) : List Byte :=
  handleColumn entity ++ [0x09] ++ typeColumn entity ++ [0x09] ++ name entity ++ [0x0A]

def listMain (registry : Registry) (filter : Filter) (name : Entity → List Byte) :
    List (List Byte) :=
  (registryNumbers registry (registry.allocated + 1) (registryIterInitialize (some filter))).map
    fun i => listLine name (registry.entity i)

lemma filterMap_digitOf {spell : ℕ → Byte} {digits : List ℕ}
    (hspell : ∀ d ∈ digits, digitOf (spell d) = some d) :
    (digits.map spell).filterMap digitOf = digits := by
  rw [List.filterMap_map]
  have hsome : digits.filterMap (digitOf ∘ spell) = digits.filterMap some :=
    List.filterMap_congr hspell
  rw [hsome, List.filterMap_some]

def digitParts (base : ℕ) (mark digits : List Byte)
    (hmark : mark = [] ∨ base = 16 ∧ (mark = [0x30, 0x78] ∨ mark = [0x30, 0x58]))
    (hne : digits ≠ []) (hknown : ∀ c ∈ digits, isDigitOf base c = true) : NumberParts base where
  lead := []
  sign := []
  mark := mark
  digits := digits
  space := nofun
  signed := .inl rfl
  marked := hmark
  nonempty := hne
  known := hknown

variable {context : FilterContext} {other : OptionCall → Bool} {entity : Entity}

lemma parseHandle_column (h : entity.handle < 2 ^ 16) :
    parseHandle (handleColumn entity) = if entity.handle < handleInvalid then .ok entity.handle
      else .error (stringBytes "Handle is out of range: %s") := by
  have hlt : ∀ d ∈ pad 4 (numeral 16 entity.handle), d < 16 :=
    pad_lt (by omega) (numeral_lt (by omega))
  have hdigit : ∀ d ∈ pad 4 (numeral 16 entity.handle), digitOf (upper d) = some d :=
    fun d hd => digitOf_upper (hlt d hd)
  have hne : hexTextPadded 4 entity.handle ≠ [] := by
    simp [hexTextPadded, pad, numeral_ne_nil]
  have hknown : ∀ c ∈ hexTextPadded 4 entity.handle, isDigitOf 16 c = true := by
    intro c hc
    obtain ⟨d, hd, rfl⟩ := List.mem_map.mp hc
    simp [isDigitOf, hdigit d hd, hlt d hd]
  let parts := digitParts 16 hexPrefix (hexTextPadded 4 entity.handle) (.inr ⟨rfl, .inl rfl⟩) hne
    hknown
  have hnumber : parts.number = entity.handle := by
    have hread : (hexTextPadded 4 entity.handle).filterMap digitOf =
        pad 4 (numeral 16 entity.handle) := filterMap_digitOf hdigit
    rw [NumberParts.number, show parts.digits = hexTextPadded 4 entity.handle from rfl, hread,
      value_pad, value_numeral]
  have htext : parts.text = handleColumn entity := rfl
  have hparsed : strtoul 16 parts.text = ⟨entity.handle, false, []⟩ := by
    have hlarge : ¬ ulongMax < parts.number := by
      rw [hnumber, ulongMax]
      omega
    rw [strtoul, numberSpan_parts, ← hnumber]
    exact if_neg hlarge
  rw [← htext, parseHandle, hparsed, if_neg (by simp [parts.text_ne_nil])]
  by_cases hrange : entity.handle < handleInvalid
  · rw [if_neg (by simpa using hrange), if_pos hrange]
  · rw [if_pos (.inr (by simpa using hrange)), if_neg hrange]

lemma parseType_column (h : entity.typeId ≤ typeMax) :
    TypeText context.typeMap context.specCode (typeColumn entity) entity.typeId := by
  have hlt : ∀ d ∈ numeral 10 entity.typeId, d < 10 := numeral_lt (by omega)
  have hdigit : ∀ d ∈ numeral 10 entity.typeId, digitOf (lower d) = some d :=
    fun d hd => digitOf_lower ((hlt d hd).trans (by omega))
  have hne : typeColumn entity ≠ [] := by simp [typeColumn, decimalText, numeral_ne_nil]
  have hknown : ∀ c ∈ typeColumn entity, isDigitOf 10 c = true := by
    intro c hc
    obtain ⟨d, hd, rfl⟩ := List.mem_map.mp hc
    simp [isDigitOf, hdigit d hd, hlt d hd]
  let parts := digitParts 10 [] (typeColumn entity) (.inl rfl) hne hknown
  have hnumber : parts.number = entity.typeId := by
    have hread : (typeColumn entity).filterMap digitOf = numeral 10 entity.typeId :=
      filterMap_digitOf hdigit
    rw [NumberParts.number, show parts.digits = typeColumn entity from rfl, hread, value_numeral]
  have hsign : (typeColumn entity).head?.any isSign = false := by
    cases hhead : (typeColumn entity).head? with
    | none => rfl
    | some c => exact (isDigitOf_other (hknown c (List.mem_of_mem_head? hhead))).2.1
  have htext : TypeText context.typeMap context.specCode (typeColumn entity) parts.number :=
    .number parts rfl hsign (fun hneg => absurd hneg Bool.false_ne_true)
      (by rw [hnumber]; exact h)
  rwa [hnumber] at htext

lemma listMain_eq {registry : Registry} (h : registry.Valid) (filter : Filter)
    (name : Entity → List Byte) :
    listMain registry filter name =
      (registry.table.filter (filterMatch filter)).map (listLine name) := by
  rw [listMain, registryNumbers_printed h, printedNumbers, Registry.table, List.filter_map,
    List.map_map]
  rfl

def isListed (entity : Entity) : Bool := entity.typeId != typeInactive && entity.spec.isSome

lemma isListed_mask (entity : Entity) {filter : Filter} (h : filter.mask = filterMaskDefault) :
    filterMatchMask filter entity = isListed entity := by
  have hcategory : (if entity.typeId < typeOemStart then filterMaskDefault.common
      else filterMaskDefault.oem) = true := ite_self true
  rw [filterMatchMask, h, hcategory, isListed]
  cases entity.spec <;> cases hinactive : entity.typeId == typeInactive <;>
    simp [filterMaskDefault, hinactive, bne]

lemma match_one {use : FilterUse} (hrestricts : use.Restricts) (hmask :
    (use.apply filterConfig).mask = filterMaskDefault) (entity : Entity) :
    filterMatch (use.apply filterConfig) entity = true ↔
      isListed entity = true ∧ use.Picks entity := by
  have hempty : filterIsEmpty (use.apply filterConfig) ≠ true :=
    fun h => (apply_isEmpty use).mp h |>.2 hrestricts
  rw [filterMatch_split, isListed_mask entity hmask, apply_picks, filterPicks_default]
  simp [hempty]

lemma listMain_use {registry : Registry} (h : registry.Valid) {use : FilterUse}
    (hrestricts : use.Restricts) (hmask : (use.apply filterConfig).mask = filterMaskDefault)
    (name : Entity → List Byte) {picks : Entity → Bool}
    (hpicks : ∀ entity, picks entity = true ↔ use.Picks entity) :
    listMain registry (use.apply filterConfig) name =
      (registry.table.filter fun e => isListed e && picks e).map (listLine name) := by
  rw [listMain_eq h]
  refine congrArg (List.map (listLine name)) ?_
  refine List.filter_congr fun entity _ => Bool.eq_iff_iff.mpr ?_
  rw [match_one hrestricts hmask, Bool.and_eq_true, hpicks]

def listOptions : OptionSet :=
  [⟨some (stringBytes "?h"), some [stringBytes "help"], some 0, false, none, .none⟩,
    ⟨some (stringBytes "r"), some [stringBytes "raw"], some 1, false, none, .none⟩]

def listCommandOptions : List OptionSet := [listOptions, filterOptions]

def listArgs (option : String) (value : List Byte) : List (List Byte) :=
  [longArg (stringBytes option), value]

lemma listArgs_line {option : String} {found : CommandOption} {c : OptionCall} {value : List Byte}
    (hname : 0x3D ∉ stringBytes option) (hne : stringBytes option ≠ [])
    (hfind : optionFindLongEx listCommandOptions (stringBytes option) = some found)
    (hargument : found.argument = .string true)
    (hcall : optionSetCall found (some value) = some c) :
    CommandLine listCommandOptions (listArgs option value) [c] 2 :=
  .uses (.longNext hname hne hfind hargument hcall) .done

/-- A column of the list given back as an option picks what its line is of: the handle the
structures with that handle, and the type those of that type. Only the handle which is none is
refused. -/
theorem list_columns_picked (context : FilterContext) (other : OptionCall → Bool) (capacity : ℕ)
    (entities : List Entity) (name : Entity → List Byte) (entity : Entity) :
    let registry := registryOf capacity entities
    let parsed := fun args =>
      (optionParse (filterCall context other) listCommandOptions args).run filterConfig
    (entity.handle < handleInvalid →
      listMain registry (parsed (listArgs "handle" (handleColumn entity))).2 name =
        (registry.table.filter fun e => isListed e && e.handle == entity.handle).map
          (listLine name)) ∧
      (entity.handle = handleInvalid →
        (parsed (listArgs "handle" (handleColumn entity))).1 = none) ∧
      (entity.typeId ≤ typeMax →
        listMain registry (parsed (listArgs "type" (typeColumn entity))).2 name =
          (registry.table.filter fun e => isListed e && e.typeId == entity.typeId).map
            (listLine name)) := by
  intro registry parsed
  have hvalid : registry.Valid := registryOf_valid capacity entities
  have hhandle : CommandLine listCommandOptions (listArgs "handle" (handleColumn entity))
      [.handler 0 (some (handleColumn entity))] 2 :=
    listArgs_line (by decide) (by decide) (by decide : _ = some
      (filterOption "H" "handle" 0 (.string true))) rfl rfl
  have htype : CommandLine listCommandOptions (listArgs "type" (typeColumn entity))
      [.handler 1 (some (typeColumn entity))] 2 :=
    listArgs_line (by decide) (by decide) (by decide : _ = some
      (filterOption "t" "type" 1 (.string true))) rfl rfl
  have hinvalid : handleInvalid = 65535 := rfl
  refine ⟨fun hlt => ?_, fun he => ?_, fun hle => ?_⟩
  · have htext : HandleText (handleColumn entity) entity.handle := by
      rw [← parseHandle_iff, parseHandle_column (by omega), if_pos hlt]
    have hparsed : parsed (listArgs "handle" (handleColumn entity)) =
        (some 2, (FilterUse.handle entity.handle).apply filterConfig) :=
      parse_line hhandle (.cons (.handle htext) .nil)
    rw [hparsed]
    exact @listMain_use _ hvalid (.handle entity.handle) trivial rfl name _ fun _ => beq_iff_eq
  · have hrefused : ((filterCall context other (.handler 0 (some (handleColumn entity)))).run
        filterConfig) = (false, filterConfig) := by
      rw [filterCall, filterConfigAddHandle, parseHandle_column (by omega), if_neg (by omega)]
      rfl
    have hall : ([OptionCall.handler 0 (some (handleColumn entity))].allM
        (filterCall context other)).run filterConfig = (false, filterConfig) := by
      rw [Script.allM_cons, andM, StateT.run_bind, hrefused]
      rfl
    have hparsed : parsed (listArgs "handle" (handleColumn entity)) = (none, filterConfig) := by
      simp only [parsed]
      rw [(optionParse_line hhandle).2, StateT.run_bind, hall]
      rfl
    rw [hparsed]
  · have hparsed : parsed (listArgs "type" (typeColumn entity)) =
        (some 2, (FilterUse.type entity.typeId).apply filterConfig) :=
      parse_line htype (.cons (.type (parseType_column hle)) .nil)
    rw [hparsed]
    exact @listMain_use _ hvalid (.type entity.typeId) trivial rfl name _ fun _ => beq_iff_eq

end List

end OpenDmi

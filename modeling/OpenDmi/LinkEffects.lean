import OpenDmi.Agreement
import OpenDmi.LinkRuns

/-! What linking leaves in other structures: the types of the components which use a threshold, and
the properties of a structure. -/

namespace OpenDmi

def typeVoltageProbe : ℕ := 26
def typeCoolingDevice : ℕ := 27
def typeTemperatureProbe : ℕ := 28
def typeCurrentProbe : ℕ := 29
def typeMgmtDevice : ℕ := 34
def typeMgmtDeviceComponent : ℕ := 35
def typeMgmtDeviceThreshold : ℕ := 36
def typeStringProperty : ℕ := 46

def componentDeviceHandle : ℕ := 8
def componentComponentHandle : ℕ := 24
def componentThresholdHandle : ℕ := 40
def propertyParentHandle : ℕ := 16

def plainAttribute (offset size : ℕ) (type : AttributeType) : Attribute :=
  ⟨⟨offset, size⟩, type, .null, 0, none, none, false, false, none, .null, 0, false, [], []⟩

def handleAttribute (offset : ℕ) (targets : Option (List ℕ)) : Attribute :=
  ⟨⟨offset, handleSize⟩, .handle, .null, 0, none, none, false, false, targets, .null, 0, false, [],
    []⟩

def mgmtDeviceComponentAttributes : List Attribute :=
  [plainAttribute 0 8 .string, handleAttribute componentDeviceHandle (some [typeMgmtDevice]),
    handleAttribute componentComponentHandle
      (some [typeVoltageProbe, typeCoolingDevice, typeTemperatureProbe, typeCurrentProbe]),
    handleAttribute componentThresholdHandle (some [typeMgmtDeviceThreshold])]

def stringPropertyAttributes : List Attribute :=
  [plainAttribute 0 4 .other, plainAttribute 8 8 .string, handleAttribute propertyParentHandle none]

structure LinkTable where
  context : Context
  registry : Registry
  entities : ℕ → Linkable

structure ComponentReferences where
  device : Option ℕ
  component : Option ℕ
  threshold : Option ℕ
  deriving DecidableEq

/-- The state of linking along with what the link handlers have set. The type of a component is
none where it is not set. -/
structure EffectState extends LinkState where
  references : ℕ → ComponentReferences
  componentType : ℕ → Option ℕ
  isAmbiguous : ℕ → Bool
  properties : ℕ → List ℕ
  parent : ℕ → Option ℕ

variable (table : LinkTable)

def LinkTable.type (i : ℕ) : Option ℕ := entityType table.context (table.registry.entity i)

def linkInfo (type i : ℕ) : Option Memory :=
  if table.type i = some type then (table.entities i).info else none

def linkResolve (handle : ℕ) (types : List ℕ) : Bool × Option ℕ :=
  registryResolveAny table.context table.registry handle (some types)

def mgmtDeviceThresholdSetComponent (i type : ℕ) (state : EffectState) : EffectState :=
  if linkInfo table typeMgmtDeviceThreshold i = none ∨ state.isAmbiguous i = true then state
  else match state.componentType i with
    | none => { state with componentType := Function.update state.componentType i (some type) }
    | some known =>
      if known ≠ type then
        { state with
          componentType := Function.update state.componentType i none
          isAmbiguous := Function.update state.isAmbiguous i true }
      else state

/-- The device and the component are required, and the threshold is optional. -/
def mgmtDeviceComponentLink (i : ℕ) (state : EffectState) : Bool × EffectState :=
  match linkInfo table typeMgmtDeviceComponent i with
  | none => (false, state)
  | some info =>
    let device := linkResolve table (handleAt info componentDeviceHandle) [typeMgmtDevice]
    let component := linkResolve table (handleAt info componentComponentHandle)
      [typeCoolingDevice, typeTemperatureProbe, typeVoltageProbe, typeCurrentProbe]
    let threshold := linkResolve table (handleAt info componentThresholdHandle)
      [typeMgmtDeviceThreshold]
    let state := { state with
      references := Function.update state.references i ⟨device.2, component.2, threshold.2⟩ }
    let state := match threshold.2, component.2 with
      | some threshold, some component => mgmtDeviceThresholdSetComponent table threshold
          (table.registry.entity component).typeId state
      | _, _ => state
    (device.1 && device.2.isSome && (component.1 && component.2.isSome) && threshold.1, state)

def entityAddProperty (entity property : ℕ) (state : EffectState) : EffectState :=
  { state with
    properties := Function.update state.properties entity (state.properties entity ++ [property]) }

def stringPropertyLink (i : ℕ) (state : EffectState) : Bool × EffectState :=
  match linkInfo table typeStringProperty i with
  | none => (false, state)
  | some info =>
    match registryLookupEntry table.registry (handleAt info propertyParentHandle) with
    | none => (false, state)
    | some parent =>
      if table.type parent = some typeStringProperty then (false, state)
      else
        let state := entityAddProperty parent i state
        (true, { state with parent := Function.update state.parent i (some parent) })

inductive LinkHandler
  | component
  | property
  | own (link : (ℕ → LinkMembers) → Bool)

def linkSpec (i : ℕ) : List Attribute × Option LinkHandler :=
  if table.type i = some typeMgmtDeviceComponent then
    (mgmtDeviceComponentAttributes, some .component)
  else if table.type i = some typeStringProperty then (stringPropertyAttributes, some .property)
  else ((table.entities i).attributes, (table.entities i).link.map .own)

def linkHandle (i : ℕ) (state : EffectState) : LinkHandler → Bool × EffectState
  | .component => mgmtDeviceComponentLink table i state
  | .property => stringPropertyLink table i state
  | .own link => (link state.members, state)

def entityLinkEffects (i : ℕ) (state : EffectState) : Bool × EffectState :=
  let spec := linkSpec table i
  if spec.2.isNone && !attributesHaveLinks spec.1 then (false, state)
  else if state.linked i then (true, state)
  else
    let result := attributesLink table.context table.registry
      ⟨(table.entities i).info, spec.1, none⟩ (state.members i)
    let state := { state with members := Function.update state.members i result.2 }
    -- The handler is called after a failure too
    let handled := spec.2.elim (true, state) (linkHandle table i state)
    if result.1 && handled.1 then
      (true, { handled.2 with linked := Function.update handled.2.linked i true })
    else (false, handled.2)

def linkAttempts (order : List ℕ) (state : EffectState) : EffectState :=
  order.foldl (fun state i => (entityLinkEffects table i state).2) state

def nothingLinked (members : ℕ → LinkMembers) : EffectState where
  members := members
  linked _ := false
  references _ := ⟨none, none, none⟩
  componentType _ := none
  isAmbiguous _ := false
  properties _ := []
  parent _ := none

def ComponentUses (i threshold type : ℕ) : Prop :=
  ∃ info component, linkInfo table typeMgmtDeviceComponent i = some info ∧
    (linkResolve table (handleAt info componentThresholdHandle) [typeMgmtDeviceThreshold]).2 =
      some threshold ∧
    (linkResolve table (handleAt info componentComponentHandle)
      [typeCoolingDevice, typeTemperatureProbe, typeVoltageProbe, typeCurrentProbe]).2 =
      some component ∧
    (table.registry.entity component).typeId = type

def usedTypes (done : Set ℕ) (threshold : ℕ) : Set ℕ :=
  {type | ∃ i ∈ done, ComponentUses table i threshold type}

def ParentResolves (property entity : ℕ) : Prop :=
  ∃ info, linkInfo table typeStringProperty property = some info ∧
    registryLookupEntry table.registry (handleAt info propertyParentHandle) = some entity

def TakesProperty (property entity : ℕ) : Prop :=
  ParentResolves table property entity ∧ table.type entity ≠ some typeStringProperty

def thresholdUse (state : EffectState) (threshold : ℕ) : Agreed ℕ :=
  if state.isAmbiguous threshold = true then .differing
  else match state.componentType threshold with
    | none => .unset
    | some type => .one type

structure EffectsHold (done : Set ℕ) (state : EffectState) : Prop where
  linked : ∀ i, state.linked i = true → i ∈ done
  threshold : ∀ t, linkInfo table typeMgmtDeviceThreshold t ≠ none →
    Agrees (usedTypes table done t) (thresholdUse state t)
  ambiguous : ∀ t, state.isAmbiguous t = true → state.componentType t = none
  taken : ∀ p e, TakesProperty table p e → p ∈ done →
    (state.properties e).count p = 1 ∧ state.linked p = true
  other : ∀ p e, ¬ (TakesProperty table p e ∧ p ∈ done) → (state.properties e).count p = 0

variable {table} {state : EffectState} {done : Set ℕ} {i threshold type : ℕ}

lemma setComponent_use (t : ℕ) (hdecoded : linkInfo table typeMgmtDeviceThreshold threshold ≠ none) :
    thresholdUse (mgmtDeviceThresholdSetComponent table threshold type state) t =
      if t = threshold then (thresholdUse state t).add type else thresholdUse state t := by
  rw [mgmtDeviceThresholdSetComponent]
  by_cases hambiguous : state.isAmbiguous threshold = true
  · rw [if_pos (.inr hambiguous)]
    by_cases ht : t = threshold
    · simp [ht, thresholdUse, hambiguous, Agreed.add]
    · rw [if_neg ht]
  rw [if_neg (not_or.mpr ⟨hdecoded, hambiguous⟩)]
  cases hknown : state.componentType threshold with
  | none =>
    by_cases ht : t = threshold
    · simp [ht, thresholdUse, hambiguous, hknown, Agreed.add]
    · simp [ht, thresholdUse]
  | some known =>
    simp only
    by_cases hsame : known = type
    · rw [if_neg (not_not.mpr hsame)]
      by_cases ht : t = threshold
      · simp [ht, thresholdUse, hambiguous, hknown, Agreed.add, hsame]
      · rw [if_neg ht]
    · rw [if_pos hsame]
      by_cases ht : t = threshold
      · simp [ht, thresholdUse, hambiguous, hknown, Agreed.add, hsame]
      · simp [ht, thresholdUse]

lemma setComponent_undecoded (hnone : linkInfo table typeMgmtDeviceThreshold threshold = none) :
    mgmtDeviceThresholdSetComponent table threshold type state = state := by
  rw [mgmtDeviceThresholdSetComponent, if_pos (.inl hnone)]

structure SameOthers (before after : EffectState) : Prop where
  linked : after.linked = before.linked
  properties : after.properties = before.properties

lemma setComponent_others :
    SameOthers state (mgmtDeviceThresholdSetComponent table threshold type state) := by
  rw [mgmtDeviceThresholdSetComponent]
  split_ifs
  · exact ⟨rfl, rfl⟩
  cases state.componentType threshold with
  | none => exact ⟨rfl, rfl⟩
  | some known =>
    simp only
    split_ifs <;> exact ⟨rfl, rfl⟩

lemma setComponent_ambiguous (h : ∀ t, state.isAmbiguous t = true → state.componentType t = none) :
    ∀ t, (mgmtDeviceThresholdSetComponent table threshold type state).isAmbiguous t = true →
      (mgmtDeviceThresholdSetComponent table threshold type state).componentType t = none := by
  rw [mgmtDeviceThresholdSetComponent]
  by_cases hskip : linkInfo table typeMgmtDeviceThreshold threshold = none ∨
    state.isAmbiguous threshold = true
  · rwa [if_pos hskip]
  rw [if_neg hskip]
  intro t
  cases hknown : state.componentType threshold with
  | none =>
    intro hambiguous
    by_cases ht : t = threshold
    · rw [ht] at hambiguous
      exact absurd (.inr hambiguous) hskip
    · simpa [ht] using h t hambiguous
  | some known =>
    simp only
    split_ifs with hdiffer
    · intro hambiguous
      by_cases ht : t = threshold
      · simp [ht]
      · simp only [Function.update_of_ne ht] at hambiguous ⊢
        exact h t hambiguous
    · exact h t

lemma linkInfo_type {info : Memory} (h : linkInfo table type i = some info) :
    table.type i = some type := by
  by_contra hne
  rw [linkInfo, if_neg hne] at h
  cases h

lemma usedTypes_insert (t : ℕ) : usedTypes table (insert i done) t =
    {type | ComponentUses table i t type} ∪ usedTypes table done t := by
  ext type
  simp [usedTypes, or_and_right, exists_or]

lemma EffectsHold.skip (h : EffectsHold table done state)
    (huses : ∀ t type, ¬ ComponentUses table i t type) (htakes : ∀ e, ¬ TakesProperty table i e) :
    EffectsHold table (insert i done) state := by
  have hin (p e : ℕ) (htake : TakesProperty table p e) : p ∈ insert i done ↔ p ∈ done := by
    refine ⟨fun hp => ?_, fun hp => Set.mem_insert_of_mem i hp⟩
    rcases hp with rfl | hp
    · exact absurd htake (htakes e)
    · exact hp
  refine ⟨fun j hj => Set.mem_insert_of_mem i (h.linked j hj), fun t ht => ?_, h.ambiguous,
    fun p e htake hp => h.taken p e htake ((hin p e htake).mp hp),
    fun p e hnone => h.other p e fun hboth => hnone ⟨hboth.1, (hin p e hboth.1).mpr hboth.2⟩⟩
  have hnone : {type | ComponentUses table i t type} = ∅ :=
    Set.eq_empty_of_forall_notMem fun type htype => huses t type htype
  rw [usedTypes_insert, hnone, Set.empty_union]
  exact h.threshold t ht

lemma EffectsHold.mark (h : EffectsHold table done state) (hi : i ∈ done) :
    EffectsHold table done { state with linked := Function.update state.linked i true } := by
  have hkept (j : ℕ) (hj : state.linked j = true) :
      Function.update state.linked i true j = true := by
    by_cases hji : j = i
    · rw [hji, Function.update_self]
    · rwa [Function.update_of_ne hji]
  refine ⟨fun j hj => ?_, h.threshold, h.ambiguous, fun p e htake hp =>
    ⟨(h.taken p e htake hp).1, hkept p (h.taken p e htake hp).2⟩, h.other⟩
  by_cases hji : j = i
  · rwa [hji]
  · simp only [Function.update_of_ne hji] at hj
    exact h.linked j hj

lemma EffectsHold.markIf (h : EffectsHold table (insert i done) state) (ok : Bool) :
    EffectsHold table (insert i done)
      (if ok = true then { state with linked := Function.update state.linked i true } else state) := by
  cases ok with
  | true => exact h.mark (Set.mem_insert i done)
  | false => exact h

lemma EffectsHold.component (h : EffectsHold table done state)
    (htype : table.type i = some typeMgmtDeviceComponent) :
    EffectsHold table (insert i done) (mgmtDeviceComponentLink table i state).2 := by
  have htakes (e : ℕ) : ¬ TakesProperty table i e := by
    rintro ⟨⟨info, hinfo, -⟩, -⟩
    have hother := htype.symm.trans (linkInfo_type hinfo)
    exact absurd hother (by decide)
  rw [mgmtDeviceComponentLink]
  cases hinfo : linkInfo table typeMgmtDeviceComponent i with
  | none =>
    refine h.skip (fun t type huses => ?_) htakes
    obtain ⟨info, -, hsome, -⟩ := huses
    cases hinfo.symm.trans hsome
  | some info =>
    simp only
    generalize hstate : ({ state with references := _ } : EffectState) = entered
    have hentered : EffectsHold table done entered := by
      rw [← hstate]
      exact ⟨h.linked, h.threshold, h.ambiguous, h.taken, h.other⟩
    have huses (t type : ℕ) : ComponentUses table i t type ↔
        (linkResolve table (handleAt info componentThresholdHandle) [typeMgmtDeviceThreshold]).2 =
            some t ∧
          ∃ component, (linkResolve table (handleAt info componentComponentHandle)
              [typeCoolingDevice, typeTemperatureProbe, typeVoltageProbe, typeCurrentProbe]).2 =
            some component ∧ (table.registry.entity component).typeId = type := by
      simp [ComponentUses, hinfo]
    cases hthreshold : (linkResolve table (handleAt info componentThresholdHandle)
        [typeMgmtDeviceThreshold]).2 with
    | none =>
      refine hentered.skip (fun t type hu => ?_) htakes
      cases hthreshold.symm.trans ((huses t type).mp hu).1
    | some threshold =>
    cases hcomponent : (linkResolve table (handleAt info componentComponentHandle)
        [typeCoolingDevice, typeTemperatureProbe, typeVoltageProbe, typeCurrentProbe]).2 with
    | none =>
      refine hentered.skip (fun t type hu => ?_) htakes
      obtain ⟨-, component, hsome, -⟩ := (huses t type).mp hu
      cases hcomponent.symm.trans hsome
    | some component =>
    simp only
    have hset (t : ℕ) : {type | ComponentUses table i t type} =
        if t = threshold then {(table.registry.entity component).typeId} else ∅ := by
      ext type
      rw [Set.mem_ofPred_eq, huses, hthreshold, hcomponent]
      by_cases ht : t = threshold
      · simp [ht, eq_comm]
      · simp [ht, Ne.symm ht]
    obtain ⟨hlinked, hproperties⟩ := @setComponent_others table entered threshold
      (table.registry.entity component).typeId
    refine ⟨fun j hj => ?_, fun t ht => ?_, setComponent_ambiguous hentered.ambiguous,
      fun p e htake hp => ?_, fun p e hnone => ?_⟩
    · rw [hlinked] at hj
      exact Set.mem_insert_of_mem i (hentered.linked j hj)
    · rw [usedTypes_insert, hset]
      by_cases hsame : t = threshold
      · subst hsame
        rw [setComponent_use t ht, if_pos rfl, if_pos rfl, Set.singleton_union]
        exact (hentered.threshold t ht).insert _
      · rw [if_neg hsame, Set.empty_union]
        by_cases hdecoded : linkInfo table typeMgmtDeviceThreshold threshold = none
        · rw [setComponent_undecoded hdecoded]
          exact hentered.threshold t ht
        · rw [setComponent_use t hdecoded, if_neg hsame]
          exact hentered.threshold t ht
    · rw [hlinked, hproperties]
      rcases hp with rfl | hp
      · exact absurd htake (htakes e)
      · exact hentered.taken p e htake hp
    · rw [hproperties]
      exact hentered.other p e fun hboth => hnone ⟨hboth.1, Set.mem_insert_of_mem i hboth.2⟩

lemma EffectsHold.property (h : EffectsHold table done state)
    (htype : table.type i = some typeStringProperty) (hunlinked : state.linked i = false) :
    EffectsHold table (insert i done) (stringPropertyLink table i state).2 ∨
      (stringPropertyLink table i state).1 = true ∧ EffectsHold table (insert i done)
        { (stringPropertyLink table i state).2 with
          linked := Function.update (stringPropertyLink table i state).2.linked i true } := by
  have huses (t type : ℕ) : ¬ ComponentUses table i t type := by
    rintro ⟨info, -, hinfo, -⟩
    have hother := htype.symm.trans (linkInfo_type hinfo)
    exact absurd hother (by decide)
  rw [stringPropertyLink]
  cases hinfo : linkInfo table typeStringProperty i with
  | none =>
    refine .inl (h.skip huses fun e htake => ?_)
    obtain ⟨⟨info, hsome, -⟩, -⟩ := htake
    cases hinfo.symm.trans hsome
  | some info =>
  have htakes (e : ℕ) : TakesProperty table i e ↔
      registryLookupEntry table.registry (handleAt info propertyParentHandle) = some e ∧
        table.type e ≠ some typeStringProperty := by
    simp [TakesProperty, ParentResolves, hinfo]
  simp only
  cases hparent : registryLookupEntry table.registry (handleAt info propertyParentHandle) with
  | none =>
    refine .inl (h.skip huses fun e htake => ?_)
    cases hparent.symm.trans ((htakes e).mp htake).1
  | some parent =>
  simp only
  by_cases hproperty : table.type parent = some typeStringProperty
  · rw [if_pos hproperty]
    refine .inl (h.skip huses fun e htake => ?_)
    obtain ⟨hsome, hne⟩ := (htakes e).mp htake
    obtain rfl := Option.some.inj (hparent.symm.trans hsome)
    exact hne hproperty
  rw [if_neg hproperty]
  have htake : TakesProperty table i parent := (htakes parent).mpr ⟨hparent, hproperty⟩
  have hunique (e : ℕ) (he : TakesProperty table i e) : e = parent :=
    Option.some.inj (((htakes e).mp he).1.symm.trans hparent)
  have hnew : i ∉ done := fun hi => by
    have hmarked := (h.taken i parent htake hi).2
    rw [hunlinked] at hmarked
    cases hmarked
  have hcount (p e : ℕ) :
      (Function.update state.properties parent (state.properties parent ++ [i]) e).count p =
        (state.properties e).count p + if p = i ∧ e = parent then 1 else 0 := by
    by_cases he : e = parent
    · rw [he, Function.update_self, List.count_append, List.count_singleton]
      by_cases hp : p = i
      · simp [hp]
      · simp [hp, Ne.symm hp]
    · simp [he]
  refine .inr ⟨rfl, fun j hj => ?_, fun t ht => ?_, h.ambiguous, fun p e he hp => ?_,
    fun p e hnone => ?_⟩
  · by_cases hji : j = i
    · exact .inl hji
    · simp only [entityAddProperty, Function.update_of_ne hji] at hj
      exact .inr (h.linked j hj)
  · have hempty : {type | ComponentUses table i t type} = ∅ :=
      Set.eq_empty_of_forall_notMem fun type hu => huses t type hu
    rw [usedTypes_insert, hempty, Set.empty_union]
    exact h.threshold t ht
  · simp only [entityAddProperty, hcount]
    by_cases hpi : p = i
    · subst hpi
      obtain rfl := hunique e he
      rw [h.other p e fun hboth => hnew hboth.2]
      simp
    · obtain ⟨hone, hmarked⟩ := h.taken p e he (hp.resolve_left hpi)
      simp [hpi, hone, hmarked]
  · simp only [entityAddProperty, hcount]
    have hkept : (state.properties e).count p = 0 :=
      h.other p e fun hboth => hnone ⟨hboth.1, .inr hboth.2⟩
    have hnot : ¬ (p = i ∧ e = parent) := by
      rintro ⟨rfl, rfl⟩
      exact hnone ⟨htake, .inl rfl⟩
    rw [hkept, if_neg hnot]

lemma stringPropertyAttributes_link (context : Context) (registry : Registry)
    (info : Option Memory) (members : LinkMembers) :
    attributesLink context registry ⟨info, stringPropertyAttributes, none⟩ members =
      (true, members) := by
  cases info with
  | none => rfl
  | some info => rfl

lemma entityLinkEffects_run (hunlinked : state.linked i = false) {attributes : List Attribute}
    {handler : LinkHandler} (hspec : linkSpec table i = (attributes, some handler)) :
    ∃ members result, result = (attributesLink table.context table.registry
        ⟨(table.entities i).info, attributes, none⟩ (state.members i)).1 ∧
      (entityLinkEffects table i state).2 =
        let handled := linkHandle table i { state with members := members } handler
        if result && handled.1 then
          { handled.2 with linked := Function.update handled.2.linked i true }
        else handled.2 := by
  refine ⟨Function.update state.members i (attributesLink table.context table.registry
    ⟨(table.entities i).info, attributes, none⟩ (state.members i)).2, _, rfl, ?_⟩
  rw [entityLinkEffects]
  simp only [hspec, hunlinked, Option.isNone_some, Bool.false_and, Bool.false_eq_true, if_false,
    Option.elim_some]
  split_ifs <;> rfl

lemma entityLinkEffects_holds (h : EffectsHold table done state) (i : ℕ) :
    EffectsHold table (insert i done) (entityLinkEffects table i state).2 := by
  by_cases hlinked : state.linked i = true
  · have hsame : (entityLinkEffects table i state).2 = state := by
      rw [entityLinkEffects]
      simp only [hlinked, if_true]
      split_ifs <;> rfl
    rwa [hsame, Set.insert_eq_of_mem (h.linked i hlinked)]
  have hunlinked : state.linked i = false := by simpa using hlinked
  have hmembers (members : ℕ → LinkMembers) :
      EffectsHold table done { state with members := members } :=
    ⟨h.linked, h.threshold, h.ambiguous, h.taken, h.other⟩
  by_cases hcomponent : table.type i = some typeMgmtDeviceComponent
  · obtain ⟨members, result, -, hrun⟩ := entityLinkEffects_run hunlinked
      (show linkSpec table i = (mgmtDeviceComponentAttributes, some .component) by
        rw [linkSpec, if_pos hcomponent])
    have hdone : EffectsHold table (insert i done)
        (mgmtDeviceComponentLink table i { state with members := members }).2 :=
      (hmembers members).component hcomponent
    rw [hrun]
    simp only [linkHandle]
    exact hdone.markIf _
  have huses (t type : ℕ) : ¬ ComponentUses table i t type := by
    rintro ⟨info, -, hinfo, -⟩
    exact hcomponent (linkInfo_type hinfo)
  by_cases hproperty : table.type i = some typeStringProperty
  · obtain ⟨members, result, hresult, hrun⟩ := entityLinkEffects_run hunlinked
      (show linkSpec table i = (stringPropertyAttributes, some .property) by
        rw [linkSpec, if_neg hcomponent, if_pos hproperty])
    rw [stringPropertyAttributes_link] at hresult
    rw [hrun, hresult]
    simp only [linkHandle, Bool.true_and]
    rcases (hmembers members).property hproperty hunlinked with hdone | ⟨hok, hdone⟩
    · exact hdone.markIf _
    · rwa [if_pos hok]
  have htakes (e : ℕ) : ¬ TakesProperty table i e := by
    rintro ⟨⟨info, hinfo, -⟩, -⟩
    exact hproperty (linkInfo_type hinfo)
  rw [entityLinkEffects]
  simp only [hunlinked, Bool.false_eq_true, if_false, linkSpec, if_neg hcomponent,
    if_neg hproperty]
  split_ifs with hlinkable hok
  · exact h.skip huses htakes
  · cases (table.entities i).link with
    | none => exact ((hmembers _).skip huses htakes).mark (Set.mem_insert i done)
    | some link => exact ((hmembers _).skip huses htakes).mark (Set.mem_insert i done)
  · cases (table.entities i).link with
    | none => exact (hmembers _).skip huses htakes
    | some link => exact (hmembers _).skip huses htakes

lemma linkAttempts_holds (order : List ℕ) (h : EffectsHold table done state) :
    EffectsHold table (done ∪ {i | i ∈ order}) (linkAttempts table order state) := by
  induction order generalizing done state with
  | nil => simpa [linkAttempts] using h
  | cons i order ih =>
    have hset : done ∪ {j | j ∈ i :: order} = insert i done ∪ {j | j ∈ order} := by
      ext j
      simp only [List.mem_cons, Set.mem_union, Set.mem_ofPred_eq, Set.mem_insert_iff]
      tauto
    rw [hset]
    exact ih (entityLinkEffects_holds h i)

variable (table) in
lemma nothingLinked_holds (members : ℕ → LinkMembers) :
    EffectsHold table ∅ (nothingLinked members) := by
  refine ⟨fun j hj => ?_, fun t _ => ?_, fun t ht => ?_, fun p e _ hp => ?_, fun p e _ => rfl⟩
  · cases hj
  · have hempty : usedTypes table ∅ t = ∅ := by simp [usedTypes]
    rw [hempty]
    exact .unset
  · cases ht
  · exact absurd hp (Set.notMem_empty p)

def LinkTable.Decoded (table : LinkTable) : Set ℕ :=
  {i | i < table.registry.allocated ∧ (table.entities i).info ≠ none}

structure ThresholdSettled (table : LinkTable) (state : EffectState) (threshold : ℕ) : Prop where
  common : ∀ type, state.componentType threshold = some type ∧
    state.isAmbiguous threshold = false ↔ usedTypes table table.Decoded threshold = {type}
  differing : state.componentType threshold = none ∧ state.isAmbiguous threshold = true ↔
    (usedTypes table table.Decoded threshold).Nontrivial
  unused : state.componentType threshold = none ∧ state.isAmbiguous threshold = false ↔
    usedTypes table table.Decoded threshold = ∅

lemma EffectsHold.settled {t : ℕ}
    (huses : ∀ t, usedTypes table done t = usedTypes table table.Decoded t)
    (h : EffectsHold table done state)
    (hdecoded : linkInfo table typeMgmtDeviceThreshold t ≠ none) :
    ThresholdSettled table state t := by
  have hagrees := h.threshold t hdecoded
  rw [huses] at hagrees
  have hambiguous := h.ambiguous t
  have hone (type : ℕ) : state.componentType t = some type ∧ state.isAmbiguous t = false ↔
      thresholdUse state t = .one type := by
    rw [thresholdUse]
    cases state.isAmbiguous t <;> cases state.componentType t <;> simp
  have hdiffering : state.componentType t = none ∧ state.isAmbiguous t = true ↔
      thresholdUse state t = .differing := by
    rw [thresholdUse]
    cases hstate : state.isAmbiguous t with
    | true => simp [hambiguous hstate]
    | false => cases state.componentType t <;> simp
  have hunset : state.componentType t = none ∧ state.isAmbiguous t = false ↔
      thresholdUse state t = .unset := by
    rw [thresholdUse]
    cases state.isAmbiguous t <;> cases state.componentType t <;> simp
  exact ⟨fun type => (hone type).trans hagrees.one_iff, hdiffering.trans hagrees.differing_iff,
    hunset.trans hagrees.unset_iff⟩

/-- Whichever order the structures are linked in and however often, the thresholds are set to what
the components which use them agree on, and a structure other than a string property has each of
its properties once. -/
theorem link_effects_settle (table : LinkTable) (members : ℕ → LinkMembers) (order : List ℕ)
    (hall : ∀ i ∈ table.Decoded, i ∈ order) (honly : ∀ i ∈ order, i < table.registry.allocated) :
    let state := linkAttempts table order (nothingLinked members)
    (∀ threshold ∈ table.Decoded, table.type threshold = some typeMgmtDeviceThreshold →
        ThresholdSettled table state threshold) ∧
      ∀ property ∈ table.Decoded, ∀ entity, (TakesProperty table property entity →
          (state.properties entity).count property = 1) ∧
        (¬ TakesProperty table property entity →
          (state.properties entity).count property = 0) := by
  intro state
  have hinfo {type i : ℕ} {info : Memory} (h : linkInfo table type i = some info) :
      i ∈ order ↔ i ∈ table.Decoded := by
    refine ⟨fun hi => ⟨honly i hi, fun hnone => ?_⟩, hall i⟩
    rw [linkInfo, hnone, ite_self] at h
    cases h
  have hdone : EffectsHold table {i | i ∈ order} state := by
    have hrun := linkAttempts_holds order (nothingLinked_holds table members)
    rwa [Set.empty_union] at hrun
  refine ⟨fun threshold hin htype => @EffectsHold.settled table state {i | i ∈ order} threshold ?_ hdone ?_,
    fun property hin entity => ⟨fun htake => (hdone.taken property entity htake (hall _ hin)).1,
      fun hnot => hdone.other property entity fun hboth => hnot hboth.1⟩⟩
  · intro t
    ext type
    refine exists_congr fun i => and_congr_left fun ⟨info, _, hsome, _⟩ => hinfo hsome
  · rw [linkInfo, if_pos htype]
    exact hin.2

def effectContext : Context :=
  ⟨false, fun type => ⟨some type, []⟩, fun spec => ⟨spec, 0, 0, none⟩⟩

def effectStructures : List Entity :=
  [{ (default : Entity) with typeId := 36, handle := 1 },
    { (default : Entity) with typeId := 26, handle := 2, offset := 6 },
    { (default : Entity) with typeId := 46, handle := 3, offset := 12 },
    { (default : Entity) with typeId := 46, handle := 4, offset := 18 }]

def effectTable : LinkTable where
  context := effectContext
  registry := (registryPutAll (registryCreate 0) effectStructures).2
  entities i := ⟨some (Memory.zero.setNumber propertyParentHandle (UInt64.ofNat i)), [], none⟩

lemma effectTable_decoded (i : ℕ) : i ∈ effectTable.Decoded ↔ i < 4 := by
  have hfour : effectTable.registry.allocated = 4 := by decide
  refine ⟨fun h => hfour ▸ h.1, fun h => ⟨hfour.symm ▸ h, fun hnone => ?_⟩⟩
  cases hnone

theorem link_effects_settle_property :
    ((linkAttempts effectTable [3, 2, 1, 0, 2, 2] (nothingLinked unlinked.members)).properties
      1).count 2 = 1 := by
  have htake : TakesProperty effectTable 2 1 :=
    ⟨⟨_, rfl, by decide⟩, by decide⟩
  have hall : ∀ i ∈ effectTable.Decoded, i ∈ [3, 2, 1, 0, 2, 2] := by
    intro i hi
    have hlt := (effectTable_decoded i).mp hi
    interval_cases i <;> decide
  exact ((link_effects_settle effectTable unlinked.members [3, 2, 1, 0, 2, 2] hall
    (by decide)).2 2 ((effectTable_decoded 2).mpr (by decide)) 1).1 htake

theorem property_of_property_dropped :
    (∀ i ∈ effectTable.Decoded, i ∈ [0, 1, 2, 3]) ∧ ParentResolves effectTable 3 2 ∧
      ¬ ∀ property ∈ effectTable.Decoded, ∀ entity, ParentResolves effectTable property entity →
        ((linkAttempts effectTable [0, 1, 2, 3] (nothingLinked unlinked.members)).properties
          entity).count property = 1 := by
  have hresolves : ParentResolves effectTable 3 2 := ⟨_, rfl, by decide⟩
  refine ⟨fun i hi => ?_, hresolves, fun hall => ?_⟩
  · have hlt := (effectTable_decoded i).mp hi
    interval_cases i <;> decide
  · have hone := hall 3 ((effectTable_decoded 3).mpr (by decide)) 2 hresolves
    revert hone
    decide

end OpenDmi

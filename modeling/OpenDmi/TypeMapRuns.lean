import OpenDmi.TypeCandidates

/-! Runs of the operations on a context, and when the type map stays the one of what is enabled. -/

namespace OpenDmi

variable {library : Library} {platform : Option Platform} {modules : List ℕ} {state : TypeContext}

def Mapped (library : Library) (state : TypeContext) : Prop :=
  typesMap library (contextPlatform state) (contextModules state) = (true, state.typeMap)

def ClosedEmpty (state : TypeContext) : Prop :=
  state.isOpen = false → state.stateModules = [] ∧ state.statePlatform = none

def Conflictless (library : Library) (platform : Option Platform) (modules : List ℕ) : Prop :=
  ∀ type, Fits library (firmAt library platform modules type)

def SameCandidates (library : Library) (platform : Option Platform) (modules others : List ℕ) :
    Prop :=
  ∀ type, candidatesOf library (toldAt library platform modules type) =
    candidatesOf library (toldAt library platform others type)

/-- Closing leaves modules which fit each other without the ones of the platform, and a module is
added where it makes no difference that the ones of the platform come after it from then on. -/
def CallOk (library : Library) (state : TypeContext) : ContextCall → Prop
  | .open _ => True
  | .close => Conflictless library state.platform state.modules
  | .addExtension module => hasExtension state module = false →
      Conflictless library (contextPlatform state) (contextModules state ++ [module]) →
      SameCandidates library (contextPlatform state) (contextModules state ++ [module])
        (state.modules ++ [module] ++ state.stateModules)
  | .setPlatform _ => True

lemma typesMap_true_iff (library : Library) (platform : Option Platform) (modules : List ℕ)
    (map : TypeMap) : typesMap library platform modules = (true, map) ↔
      Conflictless library platform modules ∧
        map = fun type => candidatesOf library (toldAt library platform modules type) := by
  obtain ⟨hok, hmap⟩ := typesMap_spec library platform modules
  constructor
  · intro h
    have htrue : (typesMap library platform modules).1 = true := by rw [h]
    refine ⟨hok.mp htrue, ?_⟩
    rw [← hmap htrue, h]
  · rintro ⟨hfits, rfl⟩
    have htrue := hok.mpr hfits
    rw [← hmap htrue, ← htrue]

lemma mem_relocatedTypes {spec own type : ℕ} {rs : List Relocation} :
    type ∈ relocatedTypes spec own rs ↔ (∀ r ∈ rs, r.spec ≠ spec) ∧ type = own ∨
      ∃ r ∈ rs, r.spec = spec ∧ r.type = some type := by
  rw [relocatedTypes]
  by_cases h : ∀ r ∈ rs, r.spec ≠ spec
  · have hnil : rs.filter (·.spec = spec) = [] := by simpa using h
    simp only [hnil, if_true, List.mem_singleton]
    refine ⟨fun ht => .inl ⟨h, ht⟩, ?_⟩
    rintro (⟨-, ht⟩ | ⟨r, hr, hs, -⟩)
    · exact ht
    · exact (h r hr hs).elim
  · have hne : rs.filter (·.spec = spec) ≠ [] := by simpa using h
    simp only [if_neg hne, h, false_and, false_or]
    simp [and_assoc]

lemma mem_placedAt {yields : Bool} {type spec : ℕ} :
    spec ∈ placedAt library platform modules yields type ↔
      (∃ module ∈ modules, (library.module module).yields = yields ∧
        spec ∈ (library.module module).entities) ∧
      platformInGenerations platform (library.spec spec).generations = true ∧
      type ∈ relocatedTypes spec (library.spec spec).typeId (relocations library modules) := by
  simp only [placedAt, List.mem_map, List.mem_filter, List.mem_flatMap]
  constructor
  · rintro ⟨p, ⟨⟨module, hm, hp⟩, ht⟩, rfl⟩
    rw [placementsOf] at hp
    split_ifs at hp with hy
    · cases hp
    · simp only [List.mem_flatMap, List.mem_filter, List.mem_map] at hp
      obtain ⟨spec, ⟨hs, hg⟩, other, hother, rfl⟩ := hp
      simp only [decide_eq_true_eq] at ht
      exact ⟨⟨module, hm, not_not.mp hy, hs⟩, hg, ht ▸ hother⟩
  · rintro ⟨⟨module, hm, hy, hs⟩, hg, ht⟩
    refine ⟨⟨spec, type, yields⟩, ⟨⟨module, hm, ?_⟩, by simp⟩, rfl⟩
    rw [placementsOf, if_neg (not_not.mpr hy)]
    simp only [List.mem_flatMap, List.mem_filter, List.mem_map]
    exact ⟨spec, ⟨hs, hg⟩, type, ht, rfl⟩

lemma Conflictless.congr {others : List ℕ} (h : Conflictless library platform modules)
    (hsame : ∀ module, module ∈ others ↔ module ∈ modules) :
    Conflictless library platform others := by
  intro type
  refine (h type).mono fun spec hm => ?_
  rw [firmAt, List.mem_append] at hm ⊢
  refine hm.imp_right fun hm => ?_
  rw [mem_placedAt] at hm ⊢
  simpa only [hsame, mem_relocatedTypes, relocations, List.mem_flatMap] using hm

lemma typesRebuild_mapped (h : (typesRebuild library state).1 = true) :
    Mapped library (typesRebuild library state).2 := by
  rw [typesRebuild] at h ⊢
  by_cases hok : (typesMap library (contextPlatform state) (contextModules state)).1 = true
  · simp only [hok, if_true]
    exact Prod.ext hok rfl
  · simp [hok] at h

lemma contextClose_mapped (library : Library) (state : TypeContext) :
    Mapped library (contextClose library state) ↔
      Conflictless library state.platform state.modules := by
  have hplatform : contextPlatform (contextClose library state) = state.platform := by
    rw [contextPlatform, contextClose]
    cases state.platform <;> rfl
  have hmodules : contextModules (contextClose library state) = state.modules :=
    List.append_nil _
  have hmap : (contextClose library state).typeMap =
      (typesMap library state.platform state.modules).2 := by
    rw [← hplatform, ← hmodules]
    rfl
  rw [Mapped, hplatform, hmodules, hmap]
  exact ⟨fun h => (typesMap_spec library _ _).1.mp (by rw [h]),
    fun h => Prod.ext ((typesMap_spec library _ _).1.mpr h) rfl⟩

lemma setupExtensions_kept (library : Library) (opening : Opening) (state : TypeContext) :
    (setupExtensions library opening state).2.modules = state.modules ∧
      (setupExtensions library opening state).2.platform = state.platform ∧
      (setupExtensions library opening state).2.isOpen = state.isOpen := by
  have hone (state : TypeContext) (module : ℕ) :
      (setupPlatformModule library state module).modules = state.modules ∧
        (setupPlatformModule library state module).platform = state.platform ∧
        (setupPlatformModule library state module).isOpen = state.isOpen := by
    rw [setupPlatformModule]
    split_ifs <;> exact ⟨rfl, rfl, rfl⟩
  have hall (registered : List ℕ) (state : TypeContext) :
      (registered.foldl (setupPlatformModule library) state).modules = state.modules ∧
        (registered.foldl (setupPlatformModule library) state).platform = state.platform ∧
        (registered.foldl (setupPlatformModule library) state).isOpen = state.isOpen := by
    induction registered generalizing state with
    | nil => exact ⟨rfl, rfl, rfl⟩
    | cons module registered ih =>
      obtain ⟨hm, hp, ho⟩ := ih (setupPlatformModule library state module)
      obtain ⟨hm', hp', ho'⟩ := hone state module
      exact ⟨hm.trans hm', hp.trans hp', ho.trans ho'⟩
  have hrebuild (state : TypeContext) : (typesRebuild library state).2.modules = state.modules ∧
      (typesRebuild library state).2.platform = state.platform ∧
      (typesRebuild library state).2.isOpen = state.isOpen := by
    rw [typesRebuild]
    split_ifs <;> exact ⟨rfl, rfl, rfl⟩
  rw [setupExtensions]
  obtain ⟨hm, hp, ho⟩ := hrebuild (if opening.autoModules then
    library.registered.foldl (setupPlatformModule library)
      { state with statePlatform := some opening.platform }
    else { state with statePlatform := some opening.platform })
  rw [hm, hp, ho]
  split_ifs
  · exact hall library.registered _
  · exact ⟨rfl, rfl, rfl⟩

lemma addExtension_failed (module : ℕ) (h : (addExtension library module state).1 = false) :
    (addExtension library module state).2 = state := by
  simp only [addExtension] at h ⊢
  by_cases he : hasExtension state module = true
  · rw [if_pos he]
  · rw [if_neg he] at h ⊢
    by_cases hok : (typesMap library (contextPlatform state)
      (contextModules state ++ [module])).1 = true
    · simp [hok] at h
    · rw [if_neg hok]

lemma setPlatform_failed (platform : Option Platform)
    (h : (setPlatform library platform state).1 = false) :
    (setPlatform library platform state).2 = state := by
  simp only [setPlatform] at h ⊢
  by_cases hok : (typesRebuild library { state with platform := platform }).1 = true
  · rw [if_pos hok, hok] at h
    cases h
  · rw [if_neg hok]
    rw [typesRebuild] at hok ⊢
    by_cases hmap : (typesMap library (contextPlatform { state with platform := platform })
      (contextModules { state with platform := platform })).1 = true
    · simp [hmap] at hok
    · simp only [hmap, Bool.false_eq_true, if_false]

lemma contextOpen_mapped (hc : ClosedEmpty state) (hm : Mapped library state) (opening : Opening) :
    Mapped library (contextOpen library opening state).2 := by
  rw [contextOpen]
  by_cases ho : state.isOpen = true
  · rw [if_pos ho]
    exact hm
  rw [if_neg ho]
  obtain ⟨hmodules, hplatform⟩ := hc (by simpa using ho)
  have hfits : Conflictless library state.platform state.modules := by
    have hfits := ((typesMap_true_iff library _ _ _).mp hm).1
    rw [contextModules, hmodules, List.append_nil, contextPlatform, hplatform] at hfits
    cases hp : state.platform <;> rwa [hp] at hfits
  obtain ⟨hkept, hsame, -⟩ := setupExtensions_kept library opening { state with isOpen := true }
  simp only
  by_cases hr : opening.read = true
  · simp only [hr, Bool.not_true, Bool.false_eq_true, if_false]
    by_cases hok : (setupExtensions library opening { state with isOpen := true }).1 = true ∧
      opening.decoded = true
    · rw [if_pos (by simpa using hok)]
      exact typesRebuild_mapped hok.1
    · rw [if_neg (by simpa using hok), contextClose_mapped, hkept, hsame]
      exact hfits
  · simp only [hr, Bool.not_false, if_true]
    exact (contextClose_mapped library _).mpr hfits

lemma setPlatform_mapped (hm : Mapped library state) (platform : Option Platform) :
    Mapped library (setPlatform library platform state).2 := by
  cases hok : (setPlatform library platform state).1 with
  | false => rwa [setPlatform_failed platform hok]
  | true =>
    rw [setPlatform] at hok ⊢
    by_cases hr : (typesRebuild library { state with platform := platform }).1 = true
    · simp only [hr, if_true]
      exact typesRebuild_mapped hr
    · simp [hr] at hok

lemma addExtension_mapped (hm : Mapped library state) (module : ℕ) :
    Mapped library (addExtension library module state).2 ↔
      CallOk library state (.addExtension module) := by
  obtain ⟨hspec, hmap⟩ := typesMap_spec library (contextPlatform state)
    (contextModules state ++ [module])
  rw [CallOk]
  simp only [addExtension]
  by_cases he : hasExtension state module = true
  · rw [if_pos he]
    simp [he, hm]
  rw [if_neg he]
  by_cases hok : (typesMap library (contextPlatform state)
    (contextModules state ++ [module])).1 = true
  · have hfits : Conflictless library (contextPlatform state) (contextModules state ++ [module]) :=
      hspec.mp hok
    have hmoved : Conflictless library (contextPlatform state)
        (state.modules ++ [module] ++ state.stateModules) :=
      hfits.congr fun other => by
        simp only [contextModules, List.mem_append, List.mem_singleton]
        tauto
    rw [if_pos hok, hmap hok]
    change typesMap library (contextPlatform state) (state.modules ++ [module] ++ state.stateModules) =
      _ ↔ _
    rw [typesMap_true_iff]
    simp only [he, hfits, hmoved, forall_const, true_and, SameCandidates, funext_iff]
  · rw [if_neg hok]
    have hconflict := mt hspec.mpr hok
    simp [hm, Conflictless, hconflict]

lemma contextCall_closedEmpty (hc : ClosedEmpty state) (call : ContextCall) :
    ClosedEmpty (contextCall library state call).2 := by
  cases call with
  | «open» opening =>
    obtain ⟨-, -, hopen⟩ := setupExtensions_kept library opening { state with isOpen := true }
    rw [contextCall, contextOpen]
    by_cases ho : state.isOpen = true
    · rw [if_pos ho]
      exact hc
    rw [if_neg ho]
    simp only
    split_ifs
    · exact fun _ => ⟨rfl, rfl⟩
    · exact fun h => by simp [hopen] at h
    · exact fun _ => ⟨rfl, rfl⟩
  | close => exact fun _ => ⟨rfl, rfl⟩
  | addExtension module =>
    rw [contextCall]
    simp only [addExtension]
    split_ifs <;> exact hc
  | setPlatform platform =>
    rw [contextCall]
    simp only [setPlatform, typesRebuild]
    split_ifs <;> exact hc

lemma contextCall_mapped (hc : ClosedEmpty state) (hm : Mapped library state) (call : ContextCall) :
    Mapped library (contextCall library state call).2 ↔ CallOk library state call := by
  cases call with
  | «open» opening => exact iff_of_true (contextOpen_mapped hc hm opening) trivial
  | close => exact contextClose_mapped library state
  | addExtension module => exact addExtension_mapped hm module
  | setPlatform platform => exact iff_of_true (setPlatform_mapped hm platform) trivial

def contextAfter (library : Library) (calls : List ContextCall) : TypeContext :=
  calls.foldl (fun state call => (contextCall library state call).2) (contextCreate library)

lemma contextCreate_mapped (library : Library) : Mapped library (contextCreate library) := by
  have hfits : Conflictless library none [] := by
    intro type
    have hbuiltin := (builtin_candidates library type).2
    rwa [firmAt, placedAt, List.flatMap_nil, List.filter_nil, List.map_nil, List.append_nil]
  exact Prod.ext ((typesMap_spec library none []).1.mpr hfits) rfl

lemma contextAfter_take (library : Library) (calls : List ContextCall) {n : ℕ}
    (h : n < calls.length) : contextAfter library (calls.take (n + 1)) =
      (contextCall library (contextAfter library (calls.take n)) calls[n]).2 := by
  rw [contextAfter, List.take_succ_eq_append_getElem h, List.foldl_append]
  rfl

lemma contextAfter_closedEmpty (library : Library) (calls : List ContextCall) (n : ℕ)
    (h : n ≤ calls.length) : ClosedEmpty (contextAfter library (calls.take n)) := by
  induction n with
  | zero => exact fun _ => ⟨rfl, rfl⟩
  | succ n ih =>
    rw [contextAfter_take library calls (by omega)]
    exact contextCall_closedEmpty (ih (by omega)) _

/-- The type map is the one of what is enabled after every call of a run exactly where every call of
the run meets the condition, and a module or a platform which is refused changes nothing. -/
theorem typeMap_mapped_iff (library : Library) (calls : List ContextCall) :
    ((∀ n ≤ calls.length, Mapped library (contextAfter library (calls.take n))) ↔
      ∀ n (h : n < calls.length), CallOk library (contextAfter library (calls.take n)) calls[n]) ∧
    (∀ state module, (addExtension library module state).1 = false →
      (addExtension library module state).2 = state) ∧
    ∀ state platform, (setPlatform library platform state).1 = false →
      (setPlatform library platform state).2 = state := by
  refine ⟨⟨fun h n hn => ?_, fun h n hn => ?_⟩, fun state => addExtension_failed,
    fun state => setPlatform_failed⟩
  · have hnext := h (n + 1) hn
    rw [contextAfter_take library calls hn] at hnext
    exact (contextCall_mapped (contextAfter_closedEmpty library calls n hn.le) (h n hn.le) _).mp hnext
  · induction n with
    | zero => exact contextCreate_mapped library
    | succ n ih =>
      rw [contextAfter_take library calls hn]
      exact (contextCall_mapped (contextAfter_closedEmpty library calls n (by omega))
        (ih (by omega)) _).mpr (h n hn)

def anyPlatform : PlatformMatch := ⟨none, none, none, none, none⟩

/-- Two modules of one type number, and a module of the platform which moves the structures of the
second one of them and brings one more of the type of a third. -/
def sampleLibrary : Library where
  spec := fun spec => if spec < 2 then ⟨130, false, ⟨0, 0⟩⟩ else ⟨140, true, ⟨0, 0⟩⟩
  module := fun module =>
    if module = 3 then ⟨[3], false, [anyPlatform], [⟨1, some 131⟩]⟩
    else ⟨[module], false, [], []⟩
  registered := [3]
  builtin := fun _ => none
  unsigned := fun _ _ h => by cases h

def sampleOpening : Opening := ⟨true, ⟨0, 0, 0, 0, none, 0⟩, true, true⟩

theorem closing_leaves_conflict :
    ¬ Mapped sampleLibrary (contextAfter sampleLibrary
      [.open sampleOpening, .addExtension 0, .addExtension 1, .close]) ∧
    ¬ Mapped sampleLibrary (contextAfter sampleLibrary [.open sampleOpening, .addExtension 2]) := by
  constructor
  · intro h
    have hok := congrArg Prod.fst h
    exact absurd hok (by decide)
  · intro h
    have hat := congrFun (congrArg Prod.snd h) 140
    exact absurd hat (by decide)

/-- A module is added while the one of the platform is enabled, which shares no type with it. -/
def apartCalls : List ContextCall := [.open sampleOpening, .addExtension 0, .close]

lemma apart_same (type : ℕ) :
    toldAt sampleLibrary (some sampleOpening.platform) [3, 0] type =
      toldAt sampleLibrary (some sampleOpening.platform) [0, 3] type := by
  by_cases h : type = 130
  · rw [h]
    decide
  · have hafter : [3, 0].flatMap (placementsOf sampleLibrary (some sampleOpening.platform) [3, 0]
        false) = [⟨3, 140, false⟩, ⟨0, 130, false⟩] := rfl
    have hbefore : [0, 3].flatMap (placementsOf sampleLibrary (some sampleOpening.platform) [0, 3]
        false) = [⟨0, 130, false⟩, ⟨3, 140, false⟩] := rfl
    have hyields (modules : List ℕ) (hm : modules = [3, 0] ∨ modules = [0, 3]) :
        modules.flatMap (placementsOf sampleLibrary (some sampleOpening.platform) modules true) =
          [] := by
      rcases hm with rfl | rfl <;> rfl
    simp [toldAt, firmAt, placedAt, hafter, hbefore, hyields, List.filter_cons, Ne.symm h]

theorem platform_module_stays_mapped :
    (∀ n ≤ apartCalls.length,
      Mapped sampleLibrary (contextAfter sampleLibrary (apartCalls.take n))) ∧
    (contextAfter sampleLibrary (apartCalls.take 1)).stateModules = [3] ∧
    (contextAfter sampleLibrary (apartCalls.take 2)).modules = [0] := by
  refine ⟨(typeMap_mapped_iff sampleLibrary apartCalls).1.mpr fun n hn => ?_, by decide, by decide⟩
  have hcall : n < 3 := hn
  interval_cases n
  · trivial
  · intro _ _ type
    exact congrArg (candidatesOf sampleLibrary) (apart_same type)
  · exact (typesMap_spec sampleLibrary none [0]).1.mp (by decide)

end OpenDmi

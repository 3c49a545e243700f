import OpenDmi.TypeMapRuns

/-! The modules enabled for a platform: which of the registered ones they are, and what the modules
enabled before them keep. -/

namespace OpenDmi

variable {library : Library} {platform : Option Platform} {modules : List ℕ} {state : TypeContext}
  {module : ℕ}

def setupPlatformModules (library : Library) (state : TypeContext) : TypeContext :=
  library.registered.foldl (setupPlatformModule library) state

def platformModulesAfter (library : Library) (state : TypeContext) (n : ℕ) : TypeContext :=
  (library.registered.take n).foldl (setupPlatformModule library) state

/-- A module which is not enabled yet, matches the platform, and fits the ones enabled so far. -/
structure Admitted (library : Library) (state : TypeContext) (module : ℕ) : Prop where
  fresh : hasExtension state module = false
  matched : ∃ platform ∈ contextPlatform state, ∃ condition ∈ (library.module module).platforms,
    platformMatch platform condition = true
  fits : Conflictless library (contextPlatform state) (contextModules state ++ [module])

def enableForPlatform (state : TypeContext) (module : ℕ) : TypeContext :=
  { state with stateModules := state.stateModules ++ [module] }

lemma typesMap_fits :
    (typesMap library platform modules).1 = true ↔ Conflictless library platform modules :=
  (typesMap_spec library platform modules).1

lemma any_matched : ((contextPlatform state).any fun platform =>
      (library.module module).platforms.any (platformMatch platform)) = true ↔
    ∃ platform ∈ contextPlatform state, ∃ condition ∈ (library.module module).platforms,
      platformMatch platform condition = true := by
  simp [Option.any_eq_true, List.any_eq_true]

lemma setupPlatformModule_admitted (h : Admitted library state module) :
    setupPlatformModule library state module = enableForPlatform state module := by
  rw [setupPlatformModule, if_neg (by simp [h.fresh]), if_neg (by simp [any_matched.mpr h.matched]),
    if_pos (typesMap_fits.mpr h.fits)]
  rfl

lemma setupPlatformModule_skipped (h : ¬ Admitted library state module) :
    setupPlatformModule library state module = state := by
  rw [setupPlatformModule]
  split_ifs with hknown hother hfits
  · rfl
  · rfl
  · refine absurd ⟨by simpa using hknown, ?_, typesMap_fits.mp hfits⟩ h
    exact any_matched.mp (by simpa using hother)
  · rfl

structure PlatformEnabled (library : Library) (state after : TypeContext) : Prop where
  rest : after = { state with stateModules := after.stateModules }
  grown : state.stateModules <+: after.stateModules
  fits : after.stateModules = state.stateModules ∨
    Conflictless library (contextPlatform state) (contextModules after)

lemma PlatformEnabled.samePlatform {after : TypeContext} (h : PlatformEnabled library state after) :
    contextPlatform after = contextPlatform state := by
  rw [h.rest]
  rfl

lemma PlatformEnabled.step {after : TypeContext} (h : PlatformEnabled library state after)
    (module : ℕ) : PlatformEnabled library state (setupPlatformModule library after module) := by
  by_cases hadmitted : Admitted library after module
  · rw [setupPlatformModule_admitted hadmitted]
    refine ⟨?_, h.grown.trans (List.prefix_append _ _), .inr ?_⟩
    · rw [enableForPlatform, h.rest]
    · have hfits := hadmitted.fits
      rw [h.samePlatform] at hfits
      rwa [contextModules, enableForPlatform, ← List.append_assoc]
  · rwa [setupPlatformModule_skipped hadmitted]

lemma platformEnabled_foldl (registered : List ℕ) {after : TypeContext}
    (h : PlatformEnabled library state after) :
    PlatformEnabled library state (registered.foldl (setupPlatformModule library) after) := by
  induction registered generalizing after with
  | nil => exact h
  | cons module registered ih => exact ih (h.step module)

lemma setupPlatformModules_enabled (library : Library) (state : TypeContext) :
    PlatformEnabled library state (setupPlatformModules library state) :=
  platformEnabled_foldl library.registered ⟨rfl, List.prefix_refl _, .inl rfl⟩

lemma typesRebuild_fits :
    (typesRebuild library state).1 = true ↔
      Conflictless library (contextPlatform state) (contextModules state) := by
  rw [← typesMap_fits, typesRebuild]
  split_ifs with hok <;> simp [hok]

lemma typesRebuild_kept (state : TypeContext) :
    contextPlatform (typesRebuild library state).2 = contextPlatform state ∧
      contextModules (typesRebuild library state).2 = contextModules state := by
  rw [typesRebuild]
  split_ifs <;> exact ⟨rfl, rfl⟩

lemma rebuild_fails_iff (library : Library) (state : TypeContext) :
    (typesRebuild library (setupPlatformModules library state)).1 = false ↔
      (setupPlatformModules library state).stateModules = state.stateModules ∧
        ¬ Conflictless library (contextPlatform state) (contextModules state) := by
  have h := setupPlatformModules_enabled library state
  rw [← Bool.not_eq_true, typesRebuild_fits, h.samePlatform]
  constructor
  · intro hconflict
    have hnone := h.fits.resolve_right hconflict
    refine ⟨hnone, ?_⟩
    rwa [h.rest, contextModules, hnone] at hconflict
  · rintro ⟨hnone, hconflict⟩
    rwa [h.rest, contextModules, hnone]

structure KeepsPlaces (before after : TypeCandidates) : Prop where
  plain : ∀ spec ∈ before.plain, after.plain = some spec
  signed : before.signed <+: after.signed

lemma keepsPlaces_of_grown {told more : List ℕ} (h : told <+: more) :
    KeepsPlaces (candidatesOf library told) (candidatesOf library more) := by
  obtain ⟨rest, rfl⟩ := h
  constructor
  · intro spec hspec
    have hfirst : (told.filter fun spec => !(library.spec spec).isSigned).head? = some spec := hspec
    rw [candidatesOf, List.filter_append, List.head?_append, hfirst]
    rfl
  · simp only [candidatesOf, List.filter_append, List.eraseDups_append, List.take_append]
    exact List.prefix_append _ _

def placedBy (library : Library) (platform : Option Platform) (modules some : List ℕ)
    (yields : Bool) (type : ℕ) : List ℕ :=
  ((some.flatMap (placementsOf library platform modules yields)).filter (·.type = type)).map
    (·.spec)

def HasPlace (candidates : TypeCandidates) (spec : ℕ) : Prop :=
  candidates.plain = some spec ∨ spec ∈ candidates.signed

lemma placedAt_split {explicit rest : List ℕ} (yields : Bool) (type : ℕ) :
    placedAt library platform (explicit ++ rest) yields type =
      placedBy library platform (explicit ++ rest) explicit yields type ++
        placedBy library platform (explicit ++ rest) rest yields type := by
  simp [placedAt, placedBy]

lemma hasPlace_of_fits {told : List ℕ} (h : Fits library told) {spec : ℕ} (hm : spec ∈ told) :
    HasPlace (candidatesOf library told) spec := by
  cases hs : (library.spec spec).isSigned with
  | false =>
    left
    have hin : spec ∈ told.filter fun spec => !(library.spec spec).isSigned := by simp [hm, hs]
    obtain ⟨first, hfirst⟩ := Option.isSome_iff_exists.mp (List.isSome_head?.mpr
      (List.ne_nil_of_mem hin))
    have hplain : (candidatesOf library told).plain = some first := hfirst
    obtain ⟨hmem, hunsigned⟩ := candidatesOf_plain hplain
    rw [hplain, h.plain first hmem spec hm hunsigned hs]
  | true =>
    right
    rw [candidatesOf, List.take_of_length_le h.signed, List.mem_eraseDups]
    simp [hm, hs]

lemma HasPlace.kept {before after : TypeCandidates} {spec : ℕ} (h : HasPlace before spec)
    (hkept : KeepsPlaces before after) : HasPlace after spec :=
  h.imp (hkept.plain spec) (hkept.signed.subset ·)

/-- What the modules enabled explicitly keep in a type map: the ones which do not yield all of
their places, and the ones which do theirs among the ones which do not. -/
structure ExplicitKept (library : Library) (platform : Option Platform)
    (modules explicit : List ℕ) (map : TypeMap) : Prop where
  placed : ∀ type, ∀ spec ∈ placedBy library platform modules explicit false type,
    HasPlace (map type) spec
  firm : ∀ type, KeepsPlaces (candidatesOf library ((library.builtin type).toList ++
    placedBy library platform modules explicit false type)) (map type)
  yielding : ∀ type, KeepsPlaces (candidatesOf library (firmAt library platform modules type ++
    placedBy library platform modules explicit true type)) (map type)

lemma explicitKept_of_mapped {explicit rest : List ℕ} {map : TypeMap}
    (h : typesMap library platform (explicit ++ rest) = (true, map)) :
    ExplicitKept library platform (explicit ++ rest) explicit map := by
  obtain ⟨hfits, rfl⟩ := (typesMap_true_iff library platform _ _).mp h
  have hfirm : ∀ type, (library.builtin type).toList ++
      placedBy library platform (explicit ++ rest) explicit false type <+:
      firmAt library platform (explicit ++ rest) type := by
    intro type
    rw [firmAt, placedAt_split, ← List.append_assoc]
    exact List.prefix_append _ _
  refine ⟨fun type spec hm => ?_, fun type => ?_, fun type => ?_⟩
  · have hplace := hasPlace_of_fits (hfits type)
      ((hfirm type).subset (List.mem_append_right _ hm))
    exact hplace.kept (keepsPlaces_of_grown (List.prefix_append _ _))
  · exact keepsPlaces_of_grown ((hfirm type).trans (List.prefix_append _ _))
  · apply keepsPlaces_of_grown
    rw [toldAt, placedAt_split true type, ← List.append_assoc]
    exact List.prefix_append _ _

lemma platformModulesAfter_succ {n : ℕ} (h : n < library.registered.length) :
    platformModulesAfter library state (n + 1) =
      setupPlatformModule library (platformModulesAfter library state n) library.registered[n] := by
  rw [platformModulesAfter, List.take_succ_eq_append_getElem h, List.foldl_append]
  rfl

lemma setupExtensions_auto (opening : Opening) (h : opening.autoModules = true) :
    setupExtensions library opening state = typesRebuild library
      (setupPlatformModules library { state with statePlatform := some opening.platform }) := by
  rw [setupExtensions, if_pos h]
  rfl

/-- Each registered module in turn is enabled exactly where it is admitted; the type map cannot be
built anew only where the modules before conflict and none of the platform has been enabled; and
what the modules enabled explicitly place is kept from the ones of the platform. -/
theorem setupPlatformModules_spec (library : Library) (state : TypeContext) :
    (∀ opening : Opening, opening.autoModules = true → setupExtensions library opening state =
      typesRebuild library
        (setupPlatformModules library { state with statePlatform := some opening.platform })) ∧
    (∀ n (h : n < library.registered.length),
      (Admitted library (platformModulesAfter library state n) library.registered[n] →
        platformModulesAfter library state (n + 1) =
          enableForPlatform (platformModulesAfter library state n) library.registered[n]) ∧
      (¬ Admitted library (platformModulesAfter library state n) library.registered[n] →
        platformModulesAfter library state (n + 1) = platformModulesAfter library state n)) ∧
    ((typesRebuild library (setupPlatformModules library state)).1 = false ↔
      (setupPlatformModules library state).stateModules = state.stateModules ∧
        ¬ Conflictless library (contextPlatform state) (contextModules state)) ∧
    ((typesRebuild library (setupPlatformModules library state)).1 = true →
      ExplicitKept library (contextPlatform state)
        (contextModules (setupPlatformModules library state)) state.modules
        (typesRebuild library (setupPlatformModules library state)).2.typeMap) := by
  have henabled := setupPlatformModules_enabled library state
  refine ⟨setupExtensions_auto, fun n h => ⟨fun hadmitted => ?_, fun hskipped => ?_⟩,
    rebuild_fails_iff library state, fun hok => ?_⟩
  · rw [platformModulesAfter_succ h, setupPlatformModule_admitted hadmitted]
  · rw [platformModulesAfter_succ h, setupPlatformModule_skipped hskipped]
  · have hmodules : contextModules (setupPlatformModules library state) =
        state.modules ++ (setupPlatformModules library state).stateModules := by
      rw [contextModules, henabled.rest]
    have hmapped := typesRebuild_mapped hok
    rw [Mapped, (typesRebuild_kept _).1, (typesRebuild_kept _).2, henabled.samePlatform,
      hmodules] at hmapped
    rw [hmodules]
    exact explicitKept_of_mapped hmapped

def generationPlatform (generation : ℕ) : Platform := ⟨0, 0, 0, 0, none, generation⟩

def vendorLibrary : Library where
  spec := fun spec =>
    if spec = 0 ∨ spec = 4 then ⟨250, false, ⟨0, 0⟩⟩
    else if spec = 1 ∨ spec = 5 then ⟨240, false, ⟨0, 0⟩⟩
    else ⟨230, false, ⟨100, 0⟩⟩
  module := fun module =>
    if module = 4 then ⟨[4, 5], false, [anyPlatform], [⟨1, none⟩]⟩
    else ⟨[module], module = 0, [], []⟩
  registered := [4]
  builtin := fun _ => none
  unsigned := fun _ _ h => by cases h

def vendorOpening (generation : ℕ) : Opening := ⟨true, generationPlatform generation, true, true⟩

def vendorEnabled (modules : List ℕ) : TypeContext :=
  contextAfter vendorLibrary (modules.map .addExtension)

def vendorSetup (modules : List ℕ) (generation : ℕ) : Bool × TypeContext :=
  setupExtensions vendorLibrary (vendorOpening generation) (vendorEnabled modules)

theorem platform_modules_take :
    ((vendorEnabled [0, 1]).modules = [0, 1] ∧
      (vendorEnabled [0, 1]).typeMap 250 = ⟨some 0, []⟩ ∧
      (vendorEnabled [0, 1]).typeMap 240 = ⟨some 1, []⟩ ∧
      (vendorSetup [0, 1] 1).1 = true ∧ (vendorSetup [0, 1] 1).2.stateModules = [4] ∧
      (vendorSetup [0, 1] 1).2.typeMap 250 = ⟨some 4, []⟩ ∧
      (vendorSetup [0, 1] 1).2.typeMap 240 = ⟨some 5, []⟩) ∧
    (vendorEnabled [2, 3]).modules = [2, 3] ∧ (vendorSetup [2, 3] 100).1 = false := by
  decide

end OpenDmi

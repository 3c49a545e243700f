import OpenDmi.OpenReads
import OpenDmi.PlatformModules

namespace OpenDmi

section Offers

variable (library : Library) (readers : Readers)

/-- A registered module is enabled for a platform which it matches, unless it is enabled already or
conflicts with the ones enabled so far. -/
structure Enables (platform : Platform) (enabled : List ℕ) (module : ℕ) : Prop where
  fresh : module ∉ enabled
  matched : ∃ condition ∈ (library.module module).platforms, platformMatch platform condition = true
  fits : Conflictless library (some platform) (enabled ++ [module])

open Classical in
noncomputable def enabledFor (platform : Platform) : List ℕ → List ℕ → List ℕ
  | [], enabled => enabled
  | module :: registered, enabled => enabledFor platform registered
      (if Enables library platform enabled module then enabled ++ [module] else enabled)

/-- What modules offer for a structure: the first of the three signed specifications they come to at
its type number whose signature its bytes match, or else the one without a signature. -/
def Offered (platform : Platform) (modules : List ℕ) (entity : Entity) (spec : ℕ) : Prop :=
  let candidates := candidatesOf library (toldAt library (some platform) modules entity.typeId)
  let matched (other : ℕ) := entitySignatureMatch entity (readers.specParams other).signature = true
  (∃ before after, candidates.signed = before ++ spec :: after ∧ matched spec ∧
    ∀ other ∈ before, ¬ matched other) ∨
  candidates.plain = some spec ∧ ∀ other ∈ candidates.signed, ¬ matched other

variable {library readers}

lemma offered_iff {platform : Platform} {modules : List ℕ} {map : TypeMap} {entity : Entity}
    (hmap : typesMap library (some platform) modules = (true, map))
    (htype : entity.typeId ≤ typeIdMax) (strict : Bool) (spec : ℕ) :
    Offered library readers platform modules entity spec ↔
      entitySpecSelect (mapContext strict readers map) entity = some spec := by
  obtain ⟨-, rfl⟩ := (typesMap_true_iff library _ _ _).mp hmap
  rw [Offered, entitySpecSelect, if_neg (by omega)]
  simp only [mapContext]
  generalize candidatesOf library (toldAt library (some platform) modules entity.typeId) =
    candidates
  cases hfind : candidates.signed.find? fun other =>
      entitySignatureMatch entity (readers.specParams other).signature with
  | none =>
    have hnone := List.find?_eq_none.mp hfind
    simp only
    constructor
    · rintro (⟨before, after, hsplit, hmatch, -⟩ | ⟨hplain, -⟩)
      · exact absurd hmatch (hnone spec (by simp [hsplit]))
      · exact hplain
    · exact fun hplain => .inr ⟨hplain, hnone⟩
  | some found =>
    obtain ⟨hfound, before, after, hsplit, hbefore⟩ := List.find?_eq_some_iff_append.mp hfind
    simp only [Option.some.injEq]
    constructor
    · rintro (⟨before', after', hsplit', hmatch, hbefore'⟩ | ⟨-, hnone⟩)
      · have hspec : candidates.signed.find? (fun other =>
            entitySignatureMatch entity (readers.specParams other).signature) = some spec :=
          List.find?_eq_some_iff_append.mpr
            ⟨hmatch, before', after', hsplit', fun other hm => by simpa using hbefore' other hm⟩
        exact Option.some.inj (hfind.symm.trans hspec)
      · exact absurd hfound (hnone found (by simp [hsplit]))
    · rintro rfl
      exact .inl ⟨before, after, hsplit, hfound, fun other hm => by simpa using hbefore other hm⟩

lemma setupPlatformModules_enabledFor (registered : List ℕ) {state : TypeContext}
    {platform : Platform} (hplatform : contextPlatform state = some platform) :
    contextModules (registered.foldl (setupPlatformModule library) state) =
      enabledFor library platform registered (contextModules state) := by
  induction registered generalizing state with
  | nil => rfl
  | cons module registered ih =>
    have hadmitted : Admitted library state module ↔
        Enables library platform (contextModules state) module := by
      constructor
      · rintro ⟨hfresh, ⟨other, hother, hmatched⟩, hfits⟩
        rw [hplatform] at hother hfits
        cases hother
        exact ⟨by simpa [hasExtension] using hfresh, hmatched, hfits⟩
      · rintro ⟨hfresh, hmatched, hfits⟩
        exact ⟨by simpa [hasExtension] using hfresh, ⟨platform, hplatform, hmatched⟩,
          by rwa [hplatform]⟩
    rw [List.foldl_cons, enabledFor]
    by_cases hin : Admitted library state module
    · have hmodules : contextModules (enableForPlatform state module) =
          contextModules state ++ [module] := (List.append_assoc _ _ _).symm
      rw [setupPlatformModule_admitted hin, if_pos (hadmitted.mp hin), ← hmodules]
      exact ih hplatform
    · rw [setupPlatformModule_skipped hin, if_neg fun h => hin (hadmitted.mpr h)]
      exact ih hplatform

end Offers

section Condition

variable (flags : OpenFlags) (readers : Readers) (table : OpenTable) (library : Library)
  (platformOf : ReadState → Platform) (start : TypeContext)

def Runs (entity : Entity) (spec : ℕ) : Prop :=
  ((readers.specParams spec).minimumLength = 0 ∨
    (readers.specParams spec).minimumLength ≤ entity.bodyLength) ∧
  readers.hasDecoder spec = true

def entityCopied (i spec : ℕ) : Entity :=
  entityOverlaid (table.overlays i) { table.entity i with spec := some spec }

structure Taken (context : Context) (i spec : ℕ) (ok : Bool) : Prop where
  selected : entitySpecSelect context (table.entity i) = some spec
  runs : Runs readers (table.entity i) spec
  decodes : readers.decodes spec (entityCopied table i spec) = ok

structure TakesCopy (i refused spec : ℕ) : Prop where
  runs : Runs readers (table.entity i) spec
  decodes : readers.decodes spec { entityCopied table i refused with spec := some spec } = true

def openContext : Context := mapContext flags.strict readers start.typeMap

def openReads : List ℕ := earlyReads (openContext flags readers start) readers table flags

def platformInEffect : Platform :=
  start.platform.getD (platformOf (readAfter (openContext flags readers start) readers table
    (openReads flags readers table start)))

noncomputable def modulesInEffect : List ℕ :=
  if flags.autoModules then
    enabledFor library (platformInEffect flags readers table platformOf start) library.registered
      (contextModules start)
  else contextModules start

/-- The source bytes of a structure read early are offered, by the modules in effect after that, the
specification it has been decoded by, or is decoded by at last where no decoder has taken it early
although additional information has been applied. -/
structure StaysOffered (offered : Entity → ℕ → Prop) (context : Context) (reads : List ℕ) (i : ℕ) :
    Prop where
  first : ∀ spec, Taken readers table context i spec true → offered (table.entity i) spec
  again : ∀ refused spec, 2 ≤ reads.count i → Taken readers table context i refused false →
    entitySpecSelect context (entityCopied table i refused) = some spec →
    TakesCopy readers table i refused spec → offered (table.entity i) spec
  last : ∀ refused spec, Taken readers table context i refused false →
    (2 ≤ reads.count i → ∀ other,
      entitySpecSelect context (entityCopied table i refused) = some other →
      ¬ TakesCopy readers table i refused other) →
    offered (entityCopied table i refused) spec → TakesCopy readers table i refused spec →
    offered (table.entity i) spec

end Condition

variable {context final : Context} {readers : Readers} {table : OpenTable} {state : ReadState}
  {flags : OpenFlags} {library : Library} {platformOf : ReadState → Platform} {start : TypeContext}
  {offered : Entity → ℕ → Prop} {i n spec refused other : ℕ} {overlay : Option Buffer}
  {entity : Entity} {reading : EntityReading}

section Next

lemma entitySpecSelect_bound (context : Context) (entity : Entity) (bound : Option ℕ) :
    entitySpecSelect context { entity with spec := bound } = entitySpecSelect context entity := by
  rw [entitySpecSelect, entitySpecSelect]
  rfl

lemma entityDecodeNext_decoded (h : reading.decoded = some spec) :
    (entityDecodeNext context readers overlay reading).2 = reading := by
  rw [entityDecodeNext, if_pos (by simp [h])]

lemma entityDecodeNext_unselected (hd : reading.decoded = none)
    (h : entitySpecSelect context reading.entity = none) :
    (entityDecodeNext context readers overlay reading).2 = reading := by
  rw [entityDecodeNext, hd, h]
  rfl

lemma entityDecodeNext_idle (hd : reading.decoded = none)
    (h : entitySpecSelect context reading.entity = some spec)
    (hidle : ¬ Runs readers reading.entity spec) :
    (entityDecodeNext context readers overlay reading).2 =
      ⟨{ reading.entity with spec := some spec }, none⟩ := by
  rw [Runs] at hidle
  rw [entityDecodeNext, hd, h]
  simp only [Option.isSome_none, Bool.false_eq_true, if_false]
  split_ifs with hshort hnone
  · rfl
  · rfl
  all_goals
    refine absurd ⟨?_, by simpa using hnone⟩ hidle
    omega

lemma entityDecodeNext_runs (hd : reading.decoded = none)
    (h : entitySpecSelect context reading.entity = some spec)
    (hruns : Runs readers reading.entity spec) :
    (entityDecodeNext context readers overlay reading).2 =
      ⟨entityOverlaid overlay { reading.entity with spec := some spec },
        if readers.decodes spec (entityOverlaid overlay { reading.entity with spec := some spec })
        then some spec else none⟩ := by
  obtain ⟨hminimum, hdecoder⟩ := hruns
  have hshort : ¬ ((readers.specParams spec).minimumLength ≠ 0 ∧
      reading.entity.bodyLength < (readers.specParams spec).minimumLength) := by omega
  rw [entityDecodeNext, hd, h]
  simp only [Option.isSome_none, Bool.false_eq_true, if_false, if_neg hshort, hdecoder,
    Bool.not_true]
  split_ifs <;> rfl

lemma entityOverlaid_copied (table : OpenTable) (i spec : ℕ) (bound : Option ℕ) :
    entityOverlaid (table.overlays i) { entityCopied table i spec with spec := bound } =
      { entityCopied table i spec with spec := bound } := by
  rw [entityCopied, entityOverlaid]
  simp only [table.scanned i]
  rw [entityOverlaid]
  cases table.overlays i <;> rfl

lemma runs_copied : Runs readers (entityCopied table i spec) other ↔
    Runs readers (table.entity i) other := by
  rw [Runs, Runs, entityCopied, entityOverlaid]
  simp only [table.scanned i]

end Next

section Readings

lemma entityReading_taken (h : Taken readers table context i spec true) (n : ℕ) :
    entityReading context readers table (n + 1) i = ⟨entityCopied table i spec, some spec⟩ := by
  induction n with
  | zero =>
    rw [entityReading, entityDecodeNext_runs rfl h.selected h.runs]
    exact congrArg (EntityReading.mk _) (if_pos h.decodes)
  | succ n ih =>
    rw [entityReading, ih]
    exact entityDecodeNext_decoded rfl

lemma entityReading_refused (h : Taken readers table context i refused false) :
    entityReading context readers table 1 i = ⟨entityCopied table i refused, none⟩ := by
  rw [entityReading, entityReading, entityDecodeNext_runs rfl h.selected h.runs]
  exact congrArg (EntityReading.mk _) (if_neg (by rw [← entityCopied, h.decodes]; simp))

lemma entityDecodeNext_copied (bound : Option ℕ) (hd : reading.decoded = none)
    (he : reading.entity = { entityCopied table i refused with spec := bound })
    (h : entitySpecSelect context (entityCopied table i refused) = some spec)
    (hruns : Runs readers (table.entity i) spec) :
    (entityDecodeNext context readers (table.overlays i) reading).2 =
      ⟨{ entityCopied table i refused with spec := some spec },
        if readers.decodes spec { entityCopied table i refused with spec := some spec }
        then some spec else none⟩ := by
  have hselect : entitySpecSelect context reading.entity = some spec := by
    rw [he, entitySpecSelect_bound, h]
  have hruns' : Runs readers reading.entity spec := by
    rw [he]
    exact runs_copied.mpr hruns
  rw [entityDecodeNext_runs hd hselect hruns', he]
  rw [show ({ ({ entityCopied table i refused with spec := bound } : Entity) with spec := some spec } :
    Entity) = { entityCopied table i refused with spec := some spec } from rfl,
    entityOverlaid_copied]

lemma entityReading_again (h : Taken readers table context i refused false)
    (hselect : entitySpecSelect context (entityCopied table i refused) = some spec)
    (htakes : TakesCopy readers table i refused spec) (n : ℕ) :
    entityReading context readers table (n + 2) i =
      ⟨{ entityCopied table i refused with spec := some spec }, some spec⟩ := by
  induction n with
  | zero =>
    rw [entityReading, entityReading_refused h,
      entityDecodeNext_copied (entityCopied table i refused).spec rfl rfl hselect
        htakes.runs]
    exact congrArg (EntityReading.mk _) (if_pos htakes.decodes)
  | succ n ih =>
    rw [entityReading, ih]
    exact entityDecodeNext_decoded rfl

lemma entityReading_left (h : Taken readers table context i refused false)
    (hnone : 2 ≤ n + 1 → ∀ other,
      entitySpecSelect context (entityCopied table i refused) = some other →
      ¬ TakesCopy readers table i refused other) :
    (entityReading context readers table (n + 1) i).decoded = none ∧ ∃ bound,
      (entityReading context readers table (n + 1) i).entity =
        { entityCopied table i refused with spec := bound } := by
  induction n with
  | zero =>
    rw [entityReading_refused h]
    exact ⟨rfl, (entityCopied table i refused).spec, rfl⟩
  | succ n ih =>
    obtain ⟨hd, bound, he⟩ := ih fun hn => hnone (by omega)
    rw [entityReading]
    generalize entityReading context readers table (n + 1) i = reading at hd he
    have hselect : entitySpecSelect context reading.entity =
        entitySpecSelect context (entityCopied table i refused) := by
      rw [he, entitySpecSelect_bound]
    cases hs : entitySpecSelect context (entityCopied table i refused) with
    | none =>
      rw [entityDecodeNext_unselected hd (hselect.trans hs)]
      exact ⟨hd, bound, he⟩
    | some other =>
      by_cases hruns : Runs readers (table.entity i) other
      · have hrefused : readers.decodes other
            { entityCopied table i refused with spec := some other } ≠ true :=
          fun hdecodes => hnone (by omega) other hs ⟨hruns, hdecodes⟩
        rw [entityDecodeNext_copied bound hd he hs hruns, if_neg hrefused]
        exact ⟨rfl, some other, rfl⟩
      · have hidle : ¬ Runs readers reading.entity other := by
          rw [he]
          exact fun h => hruns (runs_copied.mp h)
        rw [entityDecodeNext_idle hd (hselect.trans hs) hidle, he]
        exact ⟨rfl, some other, rfl⟩

lemma entityReading_idle (h : ∀ spec ok, ¬ Taken readers table context i spec ok) (n : ℕ) :
    (entityReading context readers table n i).decoded = none ∧ ∃ bound,
      (entityReading context readers table n i).entity = { table.entity i with spec := bound } := by
  induction n with
  | zero => exact ⟨rfl, (table.entity i).spec, rfl⟩
  | succ n ih =>
    obtain ⟨hd, bound, he⟩ := ih
    rw [entityReading]
    generalize entityReading context readers table n i = reading at hd he
    have hselect : entitySpecSelect context reading.entity =
        entitySpecSelect context (table.entity i) := by
      rw [he, entitySpecSelect_bound]
    cases hs : entitySpecSelect context (table.entity i) with
    | none =>
      rw [entityDecodeNext_unselected hd (hselect.trans hs)]
      exact ⟨hd, bound, he⟩
    | some spec =>
      have hidle : ¬ Runs readers reading.entity spec := by
        rw [he]
        exact fun hruns => h spec _ ⟨hs, hruns, rfl⟩
      rw [entityDecodeNext_idle hd (hselect.trans hs) hidle, he]
      exact ⟨rfl, some spec, rfl⟩

end Readings

def Bound (final : Context) (table : OpenTable) (state : ReadState) : Prop :=
  ∀ i spec, state.decoded i = some spec →
    (state.entity i).spec = some spec ∧ entitySpecSelect final (table.entity i) = some spec

section Last

def BoundTo (final : Context) (source : Entity) (reading : EntityReading) : Prop :=
  ∀ spec, reading.decoded = some spec →
    reading.entity.spec = some spec ∧ entitySpecSelect final source = some spec

lemma boundTo_some (hd : reading.decoded = some spec) (hspec : reading.entity.spec = some spec) :
    BoundTo final entity reading ↔ entitySpecSelect final entity = some spec := by
  constructor
  · exact fun h => (h spec hd).2
  · intro h other hother
    rw [hd, Option.some.injEq] at hother
    exact hother ▸ ⟨hspec, h⟩

lemma boundTo_none (hd : reading.decoded = none) : BoundTo final entity reading := by
  intro spec hspec
  rw [hd] at hspec
  cases hspec

lemma entityOverlaid_spec (overlay : Option Buffer) (entity : Entity) :
    (entityOverlaid overlay entity).spec = entity.spec := by
  rw [entityOverlaid]
  cases entity.overlay <;> rfl

lemma boundTo_source (bound : Option ℕ) (hd : reading.decoded = none)
    (he : reading.entity = { entity with spec := bound }) :
    BoundTo final entity (entityDecodeNext final readers overlay reading).2 := by
  have hselect : entitySpecSelect final reading.entity = entitySpecSelect final entity := by
    rw [he, entitySpecSelect_bound]
  cases hs : entitySpecSelect final entity with
  | none =>
    rw [entityDecodeNext_unselected hd (hselect.trans hs)]
    exact boundTo_none hd
  | some spec =>
    by_cases hruns : Runs readers reading.entity spec
    · rw [entityDecodeNext_runs hd (hselect.trans hs) hruns]
      intro other hother
      simp only at hother
      split_ifs at hother
      rw [Option.some.injEq] at hother
      refine ⟨?_, hother ▸ hs⟩
      rw [entityOverlaid_spec, hother]
    · rw [entityDecodeNext_idle hd (hselect.trans hs) hruns]
      exact boundTo_none rfl

lemma boundTo_copied (hd : reading.decoded = none) {bound : Option ℕ}
    (he : reading.entity = { entityCopied table i refused with spec := bound }) :
    BoundTo final (table.entity i)
        (entityDecodeNext final readers (table.overlays i) reading).2 ↔
      ∀ spec, entitySpecSelect final (entityCopied table i refused) = some spec →
        TakesCopy readers table i refused spec →
        entitySpecSelect final (table.entity i) = some spec := by
  have hselect : entitySpecSelect final reading.entity =
      entitySpecSelect final (entityCopied table i refused) := by
    rw [he, entitySpecSelect_bound]
  cases hs : entitySpecSelect final (entityCopied table i refused) with
  | none =>
    rw [entityDecodeNext_unselected hd (hselect.trans hs)]
    exact iff_of_true (boundTo_none hd) fun spec hspec => by cases hspec
  | some spec =>
    by_cases htakes : TakesCopy readers table i refused spec
    · rw [entityDecodeNext_copied bound hd he hs htakes.runs, boundTo_some (if_pos htakes.decodes) rfl]
      constructor
      · intro hbound other hother _
        rw [← hother, hbound]
      · exact fun h => h spec rfl htakes
    · refine iff_of_true ?_ fun other hother htaken => ?_
      · by_cases hruns : Runs readers (table.entity i) spec
        · rw [entityDecodeNext_copied bound hd he hs hruns]
          exact boundTo_none (if_neg fun hdecodes => htakes ⟨hruns, hdecodes⟩)
        · have hidle : ¬ Runs readers reading.entity spec := by
            rw [he]
            exact fun h => hruns (runs_copied.mp h)
          rw [entityDecodeNext_idle hd (hselect.trans hs) hidle]
          exact boundTo_none rfl
      · exact absurd (Option.some.inj hother ▸ htaken) htakes

variable (hoffered : ∀ entity spec, entity.typeId ≤ typeIdMax →
  (offered entity spec ↔ entitySpecSelect final entity = some spec))

lemma typeId_of_select (h : entitySpecSelect context entity = some spec) :
    entity.typeId ≤ typeIdMax := by
  rw [entitySpecSelect] at h
  by_contra hlarge
  rw [if_pos (by omega)] at h
  cases h

lemma entityCopied_typeId (table : OpenTable) (i spec : ℕ) :
    (entityCopied table i spec).typeId = (table.entity i).typeId := by
  rw [entityCopied, entityOverlaid]
  simp only [table.scanned i]

lemma Taken.unique {ok ok' : Bool} (h : Taken readers table context i spec ok)
    (h' : Taken readers table context i other ok') : spec = other ∧ ok = ok' := by
  obtain rfl : spec = other := Option.some.inj (h.selected.symm.trans h'.selected)
  exact ⟨rfl, h.decodes.symm.trans h'.decodes⟩

lemma entityCopied_spec (table : OpenTable) (i spec : ℕ) :
    (entityCopied table i spec).spec = some spec := entityOverlaid_spec _ _

variable {reads : List ℕ}

lemma staysOffered_idle (hidle : ∀ spec ok, ¬ Taken readers table context i spec ok) :
    StaysOffered readers table offered context reads i where
  first spec h := absurd h (hidle spec true)
  again refused _ _ h := absurd h (hidle refused false)
  last refused _ h := absurd h (hidle refused false)

lemma staysOffered_taken (htaken : Taken readers table context i spec true) :
    StaysOffered readers table offered context reads i ↔ offered (table.entity i) spec := by
  have hrefused (refused : ℕ) : ¬ Taken readers table context i refused false :=
    fun h => Bool.false_ne_true (h.unique htaken).2
  refine ⟨fun h => h.first spec htaken, fun h => ⟨fun other hother => ?_, fun other _ _ hother => ?_,
    fun other _ hother => ?_⟩⟩
  · exact (hother.unique htaken).1 ▸ h
  · exact absurd hother (hrefused other)
  · exact absurd hother (hrefused other)

lemma staysOffered_again (htaken : Taken readers table context i refused false)
    (htwo : 2 ≤ reads.count i)
    (hselect : entitySpecSelect context (entityCopied table i refused) = some spec)
    (htakes : TakesCopy readers table i refused spec) :
    StaysOffered readers table offered context reads i ↔ offered (table.entity i) spec := by
  refine ⟨fun h => h.again refused spec htwo htaken hselect htakes,
    fun h => ⟨fun other hother => ?_, fun other taken _ hother hs _ => ?_,
      fun other taken hother hnone _ _ => ?_⟩⟩
  · exact absurd (htaken.unique hother).2 Bool.false_ne_true
  · obtain rfl := (hother.unique htaken).1
    exact Option.some.inj (hselect.symm.trans hs) ▸ h
  · obtain rfl := (hother.unique htaken).1
    exact absurd htakes (hnone htwo spec hselect)

lemma staysOffered_left (htaken : Taken readers table context i refused false)
    (hnone : 2 ≤ reads.count i → ∀ other,
      entitySpecSelect context (entityCopied table i refused) = some other →
      ¬ TakesCopy readers table i refused other) :
    StaysOffered readers table offered context reads i ↔
      ∀ spec, offered (entityCopied table i refused) spec →
        TakesCopy readers table i refused spec → offered (table.entity i) spec := by
  refine ⟨fun h spec => h.last refused spec htaken hnone,
    fun h => ⟨fun other hother => ?_, fun other taken htwo hother hs ht => ?_,
      fun other taken hother _ hcopied htakes => ?_⟩⟩
  · exact absurd (htaken.unique hother).2 Bool.false_ne_true
  · obtain rfl := (hother.unique htaken).1
    exact absurd ht (hnone htwo taken hs)
  · obtain rfl := (hother.unique htaken).1
    exact h taken hcopied htakes

include hoffered

lemma boundTo_iff (reads : List ℕ) (i : ℕ) :
    BoundTo final (table.entity i) (entityDecodeNext final readers (table.overlays i)
        (entityReading context readers table (reads.count i) i)).2 ↔
      (i ∈ reads → StaysOffered readers table offered context reads i) := by
  cases hcount : reads.count i with
  | zero =>
    have hout : i ∉ reads := List.count_eq_zero.mp hcount
    exact iff_of_true (boundTo_source (table.entity i).spec rfl rfl) fun h => absurd h hout
  | succ n =>
    have hin : i ∈ reads := List.count_pos_iff.mp (by omega)
    rw [forall_prop_of_true hin]
    by_cases hidle : ∀ spec ok, ¬ Taken readers table context i spec ok
    · obtain ⟨hd, bound, he⟩ := entityReading_idle hidle (n + 1)
      exact iff_of_true (boundTo_source bound hd he) (staysOffered_idle hidle)
    push Not at hidle
    obtain ⟨spec, ok, htaken⟩ := hidle
    have htype := typeId_of_select htaken.selected
    have hsource := fun other => hoffered (table.entity i) other htype
    have hcopy := fun other => hoffered (entityCopied table i spec) other
      ((entityCopied_typeId table i spec).trans_le htype)
    cases ok with
    | true =>
      rw [entityReading_taken htaken, entityDecodeNext_decoded rfl,
        boundTo_some rfl (entityCopied_spec table i spec), staysOffered_taken htaken, hsource]
    | false =>
      by_cases hagain : 2 ≤ n + 1 ∧ ∃ other,
          entitySpecSelect context (entityCopied table i spec) = some other ∧
          TakesCopy readers table i spec other
      · obtain ⟨htwo, other, hselect, htakes⟩ := hagain
        obtain ⟨m, rfl⟩ : ∃ m, n = m + 1 := ⟨n - 1, by omega⟩
        rw [entityReading_again htaken hselect htakes, entityDecodeNext_decoded rfl,
          boundTo_some rfl rfl, staysOffered_again htaken (hcount ▸ htwo) hselect htakes, hsource]
      · have hnone : 2 ≤ n + 1 → ∀ other,
            entitySpecSelect context (entityCopied table i spec) = some other →
            ¬ TakesCopy readers table i spec other :=
          fun htwo other hselect htakes => hagain ⟨htwo, other, hselect, htakes⟩
        obtain ⟨hd, bound, he⟩ := entityReading_left htaken hnone
        rw [boundTo_copied hd he, staysOffered_left htaken (hcount ▸ hnone)]
        simp only [hsource, hcopy]

end Last

lemma foldl_decode_reading (final : Context) (readers : Readers) (table : OpenTable) {is : List ℕ}
    (his : is.Nodup) (success : Bool) (state : ReadState) (i : ℕ) :
    (is.foldl (fun walk i =>
      let result := dmiEntityDecode final readers table.overlays walk.2 i
      (walk.1 && result.1, result.2)) (success, state)).2.reading i =
      if i ∈ is then (entityDecodeNext final readers (table.overlays i) (state.reading i)).2
      else state.reading i := by
  induction is generalizing success state with
  | nil => rfl
  | cons j is ih =>
    obtain ⟨hj, his⟩ := List.nodup_cons.mp his
    rw [List.foldl_cons, ih his]
    by_cases hij : i = j
    · subst hij
      rw [if_neg hj, if_pos List.mem_cons_self]
      exact dmiEntityDecode_reading _ _ _ _ _
    · have hmem : i ∈ j :: is ↔ i ∈ is := by simp [hij]
      simp only [hmem]
      rw [dmiEntityDecode_others _ _ _ _ hij]

lemma registryDecode_reading (final : Context) (readers : Readers) (table : OpenTable)
    (flags : OpenFlags) (state : ReadState) (i : ℕ) :
    (registryDecode flags readers table final state).2.reading i =
      if i < table.count then
        (entityDecodeNext final readers (table.overlays i) (state.reading i)).2
      else state.reading i := by
  have hrun := foldl_decode_reading final readers table (List.nodup_range (n := table.count)) true
    state i
  simp only [List.mem_range] at hrun
  exact hrun

lemma setupExtensions_inEffect {platform : Platform}
    (h : (setupExtensions library ⟨true, platform, flags.autoModules, true⟩
      { start with isOpen := true }).1 = true) :
    typesMap library (some (start.platform.getD platform))
        (if flags.autoModules then enabledFor library (start.platform.getD platform)
          library.registered (contextModules start) else contextModules start) =
      (true, (setupExtensions library ⟨true, platform, flags.autoModules, true⟩
        { start with isOpen := true }).2.typeMap) := by
  have hplatform : contextPlatform { start with isOpen := true, statePlatform := some platform } =
      some (start.platform.getD platform) := by
    rw [contextPlatform]
    cases start.platform <;> rfl
  have henabled := setupPlatformModules_enabled library
    { start with isOpen := true, statePlatform := some platform }
  have hmapped := typesRebuild_mapped h
  rw [Mapped, (typesRebuild_kept _).1, (typesRebuild_kept _).2] at hmapped
  rw [setupExtensions]
  simp only at hmapped ⊢
  by_cases hauto : flags.autoModules = true
  · have hmodules : contextModules (setupPlatformModules library
        { start with isOpen := true, statePlatform := some platform }) =
        enabledFor library (start.platform.getD platform) library.registered
          (contextModules start) :=
      setupPlatformModules_enabledFor library.registered hplatform
    simp only [hauto, if_true] at hmapped ⊢
    rw [← hmapped]
    exact congrArg₂ (typesMap library) (hplatform.symm.trans henabled.samePlatform.symm)
      hmodules.symm
  · simp only [hauto] at hmapped ⊢
    rw [← hmapped, ← hplatform]
    rfl

/-- After a successful open, every structure is bound to what the final type map picks for it exactly
where the modules then in effect still offer the structures read early what they have been decoded
by. -/
theorem openReadStructures_bound_iff {mapped : TypeContext} {read : ReadState}
    (h : openReadStructures flags readers table library platformOf start = some (mapped, read)) :
    Bound (mapContext flags.strict readers mapped.typeMap) table read ↔
      ∀ i ∈ openReads flags readers table start,
        StaysOffered readers table
          (Offered library readers (platformInEffect flags readers table platformOf start)
            (modulesInEffect flags readers table library platformOf start))
          (openContext flags readers start) (openReads flags readers table start) i := by
  rw [openReadStructures] at h
  cases hearly : readEarly flags readers table (mapContext flags.strict readers start.typeMap) with
  | none =>
    rw [hearly] at h
    cases h
  | some early =>
  have hreads := readEarly_reads hearly
  rw [hearly] at h
  simp only at h
  split_ifs at h with hok
  obtain ⟨hmapped, hread⟩ := Prod.mk.inj (Option.some.inj h)
  have hmap := setupExtensions_inEffect (Bool.and_eq_true_iff.mp hok).1
  rw [hmapped] at hmap hread
  have hoffered := fun entity spec htype => @offered_iff library readers
    (platformInEffect flags readers table platformOf start)
    (modulesInEffect flags readers table library platformOf start) mapped.typeMap entity
    (by rw [← hmap, hreads]; rfl) htype flags.strict spec
  have hone := fun i => @boundTo_iff (openContext flags readers start) _ readers table _ hoffered
    (openReads flags readers table start) i
  have hstart : ∀ i, early.reading i = entityReading (openContext flags readers start) readers
      table ((openReads flags readers table start).count i) i := fun i => by rw [hreads]; rfl
  constructor
  · intro hbound i hi
    refine (hone i).mp (fun spec hspec => ?_) hi
    have hlast := registryDecode_reading (mapContext flags.strict readers mapped.typeMap) readers
      table flags early i
    rw [if_pos (earlyReads_lt hi), hstart, hread] at hlast
    rw [← hlast] at hspec ⊢
    exact hbound i spec hspec
  · intro hall i spec hspec
    have hlast := registryDecode_reading (mapContext flags.strict readers mapped.typeMap) readers
      table flags early i
    rw [hread, hstart] at hlast
    by_cases hi : i < table.count
    · rw [if_pos hi] at hlast
      have hbound := (hone i).mpr (hall i) spec (by rw [← hlast]; exact hspec)
      rwa [← hlast] at hbound
    · have hout : i ∉ openReads flags readers table start := fun hin => hi (earlyReads_lt hin)
      rw [if_neg hi, List.count_eq_zero.mpr hout] at hlast
      have hnone : read.decoded i = none := congrArg EntityReading.decoded hlast
      rw [hnone] at hspec
      cases hspec

/-- A built-in specification of the firmware information, and one which a module of the platform
brings for structures of the same type number. -/
def firmwareLibrary : Library where
  spec := fun spec => ⟨0, spec = 1, ⟨0, 0⟩⟩
  module := fun _ => ⟨[1], false, [anyPlatform], []⟩
  registered := [0]
  builtin := fun type => if type = 0 then some 0 else none
  unsigned := by
    intro type spec h
    split_ifs at h
    cases h
    rfl

def firmwareReaders (length : ℕ) : Readers where
  specParams := fun spec =>
    if spec = 0 then ⟨typeFirmware, 0x020000, 0x12, none⟩
    else ⟨128, 0, 0, some ⟨length, 0, none, 0, none, false⟩⟩
  hasDecoder := fun _ => true
  decodes := fun _ _ => true
  knowsProcessor := fun _ => false

def firmwareEntity : Entity :=
  ⟨0, 0x12, 0, ⟨0, [0, 0x12] ++ List.replicate 18 0⟩, 0, 2, 0x14, [], none, none⟩

def firmwareTable : OpenTable where
  count := 1
  entity := fun _ => firmwareEntity
  overlays := fun _ => none
  overlaid := true
  scanned := fun _ => rfl

def firmwarePlatform (_ : ReadState) : Platform := ⟨0, 0, 0, 0, none, 0⟩

def firmwareOpen (length : ℕ) : Option (TypeContext × ReadState) :=
  openReadStructures ⟨true, true, true⟩ (firmwareReaders length) firmwareTable firmwareLibrary
    firmwarePlatform (contextCreate firmwareLibrary)

def firmwareOpened (length : ℕ) : TypeContext × ReadState :=
  (firmwareOpen length).getD (contextCreate firmwareLibrary, scannedState firmwareTable)

lemma firmware_opened {length : ℕ} (h : (firmwareOpen length).isSome = true) :
    firmwareOpen length = some (firmwareOpened length) := by
  obtain ⟨result, hresult⟩ := Option.isSome_iff_exists.mp h
  rw [firmwareOpened, hresult]
  rfl

theorem firmware_stays_bound :
    firmwareOpen 0x12 = some (firmwareOpened 0x12) ∧
    (firmwareOpened 0x12).2.decoded 0 = some 0 ∧
    entitySpecSelect (mapContext true (firmwareReaders 0x12) (firmwareOpened 0x12).1.typeMap)
      (firmwareTable.entity 0) = some 1 ∧
    ¬ Bound (mapContext true (firmwareReaders 0x12) (firmwareOpened 0x12).1.typeMap) firmwareTable
      (firmwareOpened 0x12).2 := by
  have hdecoded : (firmwareOpened 0x12).2.decoded 0 = some 0 := by decide
  have hselect : entitySpecSelect (mapContext true (firmwareReaders 0x12)
      (firmwareOpened 0x12).1.typeMap) (firmwareTable.entity 0) = some 1 := by decide
  refine ⟨firmware_opened (by decide), hdecoded, hselect, fun h => ?_⟩
  have hbound := (h 0 0 hdecoded).2
  rw [hselect] at hbound
  exact absurd hbound (by decide)

def FirmwareStays (length : ℕ) : Prop :=
  ∀ i ∈ openReads ⟨true, true, true⟩ (firmwareReaders length) firmwareTable
      (contextCreate firmwareLibrary),
    StaysOffered (firmwareReaders length) firmwareTable
      (Offered firmwareLibrary (firmwareReaders length)
        (platformInEffect ⟨true, true, true⟩ (firmwareReaders length) firmwareTable
          firmwarePlatform (contextCreate firmwareLibrary))
        (modulesInEffect ⟨true, true, true⟩ (firmwareReaders length) firmwareTable firmwareLibrary
          firmwarePlatform (contextCreate firmwareLibrary)))
      (openContext ⟨true, true, true⟩ (firmwareReaders length) (contextCreate firmwareLibrary))
      (openReads ⟨true, true, true⟩ (firmwareReaders length) firmwareTable
        (contextCreate firmwareLibrary)) i

lemma firmware_stays : FirmwareStays 0x13 := by
  intro i hi
  have hzero : i = 0 := Nat.lt_one_iff.mp (earlyReads_lt hi)
  subst hzero
  have hok : (setupExtensions firmwareLibrary ⟨true, ⟨0, 0, 0, 0, none, 0⟩, true, true⟩
      { contextCreate firmwareLibrary with isOpen := true }).1 = true := by decide
  refine ⟨fun spec h => ?_, fun refused _ _ h => ?_, fun refused _ h => ?_⟩
  · have hspec : entitySpecSelect (openContext ⟨true, true, true⟩ (firmwareReaders 0x13)
        (contextCreate firmwareLibrary)) firmwareEntity = some 0 := by decide
    obtain rfl := Option.some.inj (hspec.symm.trans h.selected)
    refine (offered_iff (@setupExtensions_inEffect ⟨true, true, true⟩ _ _ _ hok) (by decide) true
      0).mpr ?_
    decide
  · exact Bool.noConfusion (show true = false from h.decodes)
  · exact Bool.noConfusion (show true = false from h.decodes)

theorem firmware_bound_iff :
    (Bound (mapContext true (firmwareReaders 0x12) (firmwareOpened 0x12).1.typeMap) firmwareTable
      (firmwareOpened 0x12).2 ↔ FirmwareStays 0x12) ∧
    FirmwareStays 0x13 ∧
    Bound (mapContext true (firmwareReaders 0x13) (firmwareOpened 0x13).1.typeMap) firmwareTable
      (firmwareOpened 0x13).2 :=
  ⟨openReadStructures_bound_iff (firmware_opened (by decide +kernel)), firmware_stays,
    (openReadStructures_bound_iff (firmware_opened (by decide +kernel))).mpr firmware_stays⟩

end OpenDmi

import OpenDmi.TypeMap
import Mathlib.Tactic

/-! What the type map holds at each type number: the specifications the modules place there, in the
order the modules are mapped in. -/

namespace OpenDmi

section Loops

variable {α σ : Type} {step : α → σ → Bool × σ}

lemma eachWhile_append (xs ys : List α) (state : σ) :
    eachWhile step (xs ++ ys) state =
      if (eachWhile step xs state).1 then eachWhile step ys (eachWhile step xs state).2
      else (false, (eachWhile step xs state).2) := by
  induction xs generalizing state with
  | nil => rfl
  | cons x xs ih =>
    rw [List.cons_append, eachWhile, eachWhile]
    by_cases h : (step x state).1 = true
    · rw [if_pos h, if_pos h, ih]
    · rw [if_neg h, if_neg h]
      rfl

lemma eachWhile_flatMap {β : Type} (f : β → List α) (ys : List β) (state : σ) :
    eachWhile (fun y => eachWhile step (f y)) ys state = eachWhile step (ys.flatMap f) state := by
  induction ys generalizing state with
  | nil => rfl
  | cons y ys ih =>
    rw [List.flatMap_cons, eachWhile_append, eachWhile]
    split_ifs with h
    · exact ih _
    · rfl

lemma eachWhile_map {β : Type} (f : β → α) (ys : List β) (state : σ) :
    eachWhile step (ys.map f) state = eachWhile (fun y => step (f y)) ys state := by
  induction ys generalizing state with
  | nil => rfl
  | cons y ys ih => rw [List.map_cons, eachWhile, eachWhile, ih]

lemma eachWhile_skip {p : α → Bool} (xs : List α) (state : σ) :
    eachWhile (fun x state => if p x then step x state else (true, state)) xs state =
      eachWhile step (xs.filter p) state := by
  induction xs generalizing state with
  | nil => rfl
  | cons x xs ih =>
    rw [eachWhile, List.filter_cons]
    by_cases h : p x = true
    · simp only [h, if_true, eachWhile, ih]
    · simp only [h, Bool.false_eq_true, if_false, if_true, ih]

end Loops

structure Placement where
  spec : ℕ
  type : ℕ
  yields : Bool

variable {library : Library} {platform : Option Platform} {modules : List ℕ}

def relocations (library : Library) (modules : List ℕ) : List Relocation :=
  modules.flatMap fun module => (library.module module).relocations

def relocatedTypes (spec own : ℕ) (relocations : List Relocation) : List ℕ :=
  let mine := relocations.filter (·.spec = spec)
  if mine = [] then [own] else mine.filterMap (·.type)

lemma specRelocateFrom_some (spec own : ℕ) (relocations : List Relocation) (index : ℕ) :
    specRelocateFrom spec own relocations true index =
      ((relocations.filter (·.spec = spec)).filterMap (·.type))[index]? := by
  induction relocations generalizing index with
  | nil => simp [specRelocateFrom]
  | cons relocation rest ih =>
    rw [specRelocateFrom]
    by_cases hs : relocation.spec = spec
    · rw [if_neg (not_not.mpr hs), List.filter_cons_of_pos (by simpa using hs)]
      cases ht : relocation.type with
      | none => rw [List.filterMap_cons_none ht, ih]
      | some type =>
        rw [List.filterMap_cons_some ht]
        cases index with
        | zero => rfl
        | succ index => exact ih index
    · rw [if_pos hs, List.filter_cons_of_neg (by simpa using hs), ih]

lemma specRelocateFrom_eq (spec own : ℕ) (relocations : List Relocation) (index : ℕ) :
    specRelocateFrom spec own relocations false index =
      (relocatedTypes spec own relocations)[index]? := by
  induction relocations with
  | nil => cases index <;> simp [specRelocateFrom, relocatedTypes]
  | cons relocation rest ih =>
    by_cases hs : relocation.spec = spec
    · rw [relocatedTypes, List.filter_cons_of_pos (by simpa using hs), if_neg (List.cons_ne_nil _ _)]
      rw [specRelocateFrom, if_neg (not_not.mpr hs)]
      cases ht : relocation.type with
      | none => rw [List.filterMap_cons_none ht, specRelocateFrom_some]
      | some type =>
        rw [List.filterMap_cons_some ht]
        cases index with
        | zero => rfl
        | succ index => exact specRelocateFrom_some spec own rest index
    · rw [specRelocateFrom, if_pos hs, ih, relocatedTypes, relocatedTypes,
        List.filter_cons_of_neg (by simpa using hs)]

lemma relocatedTypes_length (spec own : ℕ) (relocations : List Relocation) :
    (relocatedTypes spec own relocations).length ≤ relocations.length + 1 := by
  rw [relocatedTypes]
  split_ifs
  · simp
  · exact (List.length_filterMap_le _ _).trans ((List.length_filter_le _ _).trans (Nat.le_succ _))

lemma typesMapSpec_eq (yields : Bool) (spec : ℕ) {fuel index : ℕ} (map : TypeMap)
    (hfuel : (relocatedTypes spec (library.spec spec).typeId (relocations library modules)).length ≤
      index + fuel) :
    typesMapSpec library modules yields spec fuel index map =
      eachWhile (typesMapAt library yields spec)
        ((relocatedTypes spec (library.spec spec).typeId (relocations library modules)).drop index)
        map := by
  induction fuel generalizing index map with
  | zero =>
    rw [List.drop_of_length_le (by omega)]
    rfl
  | succ fuel ih =>
    rw [typesMapSpec, specRelocate, specRelocateFrom_eq, ← relocations]
    cases ht : (relocatedTypes spec (library.spec spec).typeId
      (relocations library modules))[index]? with
    | none =>
      rw [List.drop_of_length_le (List.getElem?_eq_none_iff.mp ht)]
      rfl
    | some type =>
      obtain ⟨hlt, hget⟩ := List.getElem?_eq_some_iff.mp ht
      rw [List.drop_eq_getElem_cons hlt, hget, eachWhile]
      have hrest (map : TypeMap) := @ih (index + 1) map (by omega)
      simp only [hrest]

def placementsOf (library : Library) (platform : Option Platform) (modules : List ℕ) (yields : Bool)
    (module : ℕ) : List Placement :=
  if (library.module module).yields ≠ yields then []
  else ((library.module module).entities.filter fun spec =>
    platformInGenerations platform (library.spec spec).generations).flatMap fun spec =>
      (relocatedTypes spec (library.spec spec).typeId (relocations library modules)).map
        fun type => ⟨spec, type, yields⟩

def placements (library : Library) (platform : Option Platform) (modules : List ℕ) :
    List Placement :=
  [false, true].flatMap fun yields =>
    modules.flatMap (placementsOf library platform modules yields)

def place (library : Library) (placement : Placement) (map : TypeMap) : Bool × TypeMap :=
  typesMapAt library placement.yields placement.spec placement.type map

lemma typesMapModule_eq (yields : Bool) (module : ℕ) (map : TypeMap) :
    typesMapModule library platform modules yields module map =
      eachWhile (place library) (placementsOf library platform modules yields module) map := by
  rw [typesMapModule, placementsOf]
  split_ifs
  · rfl
  have hspec (spec : ℕ) (map : TypeMap) :
      typesMapSpec library modules yields spec ((relocations library modules).length + 1) 0 map =
        eachWhile (place library) ((relocatedTypes spec (library.spec spec).typeId
          (relocations library modules)).map fun type => ⟨spec, type, yields⟩) map := by
    rw [typesMapSpec_eq yields spec map (by
      have := relocatedTypes_length spec (library.spec spec).typeId (relocations library modules)
      omega), List.drop_zero, eachWhile_map]
    rfl
  rw [← eachWhile_flatMap, ← eachWhile_skip]
  congr 1
  funext spec map
  cases hg : platformInGenerations platform (library.spec spec).generations with
  | false => rfl
  | true => exact hspec spec map

lemma typesMap_placements : typesMap library platform modules =
    eachWhile (place library) (placements library platform modules)
      fun type => ⟨library.builtin type, []⟩ := by
  rw [typesMap, placements, ← eachWhile_flatMap]
  congr 1
  funext yields map
  rw [← eachWhile_flatMap]
  congr 1
  funext module map
  exact typesMapModule_eq yields module map

def placeAt (library : Library) (placement : Placement) (candidates : TypeCandidates) :
    Bool × TypeCandidates :=
  typesMapOne library placement.spec placement.yields candidates

lemma eachWhile_place (library : Library) (ps : List Placement) (map result : TypeMap) :
    eachWhile (place library) ps map = (true, result) ↔ ∀ type,
      eachWhile (placeAt library) (ps.filter (·.type = type)) (map type) = (true, result type) := by
  induction ps generalizing map with
  | nil =>
    simp only [eachWhile, List.filter_nil, Prod.mk.injEq, true_and]
    exact funext_iff
  | cons p ps ih =>
    rw [eachWhile]
    have hp : place library p map = ((placeAt library p (map p.type)).1,
      Function.update map p.type (placeAt library p (map p.type)).2) := rfl
    rw [hp]
    dsimp only
    by_cases hok : (placeAt library p (map p.type)).1 = true
    · rw [if_pos hok, ih]
      refine forall_congr' fun type => ?_
      by_cases ht : p.type = type
      · rw [List.filter_cons_of_pos (by simpa using ht), eachWhile, ← ht, Function.update_self,
          if_pos hok]
      · rw [List.filter_cons_of_neg (by simpa using ht), Function.update_of_ne (Ne.symm ht)]
    · rw [if_neg hok]
      refine ⟨fun h => by simp at h, fun h => ?_⟩
      have hown := h p.type
      rw [List.filter_cons_of_pos (by simp), eachWhile, if_neg hok] at hown
      simp at hown

def candidatesOf (library : Library) (told : List ℕ) : TypeCandidates where
  plain := (told.filter fun spec => !(library.spec spec).isSigned).head?
  signed := ((told.filter fun spec => (library.spec spec).isSigned).eraseDups).take
    (typeCandidatesMax - 1)

structure Fits (library : Library) (told : List ℕ) : Prop where
  plain : ∀ a ∈ told, ∀ b ∈ told, (library.spec a).isSigned = false →
    (library.spec b).isSigned = false → a = b
  signed : (told.filter fun spec => (library.spec spec).isSigned).eraseDups.length ≤
    typeCandidatesMax - 1

lemma eraseDups_concat (xs : List ℕ) (a : ℕ) :
    (xs ++ [a]).eraseDups = if a ∈ xs then xs.eraseDups else xs.eraseDups ++ [a] := by
  rw [List.eraseDups_append]
  by_cases h : a ∈ xs <;> simp [List.removeAll, h, List.eraseDups_cons]

lemma eraseDups_nodup (xs : List ℕ) : xs.eraseDups.Nodup := by
  induction xs using List.reverseRecOn with
  | nil => simp
  | append_singleton xs a ih =>
    rw [eraseDups_concat]
    split_ifs with h
    · exact ih
    · refine List.nodup_append.mpr ⟨ih, List.nodup_singleton a, fun b hb c hc => ?_⟩
      rintro rfl
      rw [List.mem_singleton] at hc
      exact h (hc ▸ List.mem_eraseDups.mp hb)

lemma Fits.mono {told fewer : List ℕ} (h : Fits library told) (hsub : ∀ a ∈ fewer, a ∈ told) :
    Fits library fewer where
  plain a ha b hb := h.plain a (hsub a ha) b (hsub b hb)
  signed := by
    refine le_trans (List.subperm_of_subset (eraseDups_nodup _) fun a ha => ?_).length_le h.signed
    simp only [List.mem_eraseDups, List.mem_filter] at ha ⊢
    exact ⟨hsub a ha.1, ha.2⟩

lemma candidatesOf_plain {told : List ℕ} {a : ℕ} (h : (candidatesOf library told).plain = some a) :
    a ∈ told ∧ (library.spec a).isSigned = false := by
  have hm := List.mem_of_head? h
  simpa using hm

lemma candidatesOf_signed {told : List ℕ} {a : ℕ} (h : a ∈ (candidatesOf library told).signed) :
    a ∈ told ∧ (library.spec a).isSigned = true := by
  have hm := List.mem_of_mem_take h
  simpa using hm

lemma candidatesOf_concat_plain (told : List ℕ) {spec : ℕ}
    (h : (library.spec spec).isSigned = false) :
    candidatesOf library (told ++ [spec]) = { candidatesOf library told with
      plain := (candidatesOf library told).plain.or (some spec) } := by
  simp [candidatesOf, h]

lemma candidatesOf_concat_signed (told : List ℕ) {spec : ℕ}
    (h : (library.spec spec).isSigned = true) :
    candidatesOf library (told ++ [spec]) = { candidatesOf library told with
      signed := (if spec ∈ told then
          (told.filter fun spec => (library.spec spec).isSigned).eraseDups
        else (told.filter fun spec => (library.spec spec).isSigned).eraseDups ++ [spec]).take
          (typeCandidatesMax - 1) } := by
  simp [candidatesOf, h, eraseDups_concat]

lemma typesMapOne_plain (told : List ℕ) {spec : ℕ} (hs : (library.spec spec).isSigned = false)
    (yields : Bool) : typesMapOne library spec yields (candidatesOf library told) =
      ((candidatesOf library told).plain.all (· == spec) || yields,
        candidatesOf library (told ++ [spec])) := by
  have hsigned : spec ∉ (candidatesOf library told).signed := fun h => by
    simpa [hs] using (candidatesOf_signed h).2
  rw [typesMapOne, candidatesOf_concat_plain told hs]
  generalize candidatesOf library told = candidates at hsigned ⊢
  obtain ⟨plain, signed⟩ := candidates
  simp only [hs, hsigned, or_false, if_true]
  cases plain with
  | none => simp
  | some a => by_cases ha : a = spec <;> simp [ha]

lemma typesMapOne_signed (told : List ℕ) {spec : ℕ} (hs : (library.spec spec).isSigned = true)
    (yields : Bool) : typesMapOne library spec yields (candidatesOf library told) =
      (decide (spec ∈ (candidatesOf library told).signed) ||
          decide ((candidatesOf library told).signed.length < typeCandidatesMax - 1) || yields,
        candidatesOf library (told ++ [spec])) := by
  have hplain : (candidatesOf library told).plain ≠ some spec := fun h => by
    simpa [hs] using (candidatesOf_plain h).2
  rw [typesMapOne, candidatesOf_concat_signed told hs]
  simp only [hs, hplain, false_or, Bool.true_eq_false, if_false]
  by_cases hm : spec ∈ (candidatesOf library told).signed
  · rw [if_pos hm, if_pos (candidatesOf_signed hm).1]
    simp only [hm, decide_true, Bool.true_or]
    rfl
  rw [if_neg hm]
  by_cases hlen : (candidatesOf library told).signed.length < typeCandidatesMax - 1
  · have hall : (candidatesOf library told).signed =
        (told.filter fun spec => (library.spec spec).isSigned).eraseDups := by
      refine List.take_of_length_le ?_
      simp only [candidatesOf, List.length_take] at hlen
      omega
    have hnew : spec ∉ told := fun h => hm (by simp [hall, h, hs])
    rw [if_pos hlen, if_neg hnew, ← hall, List.take_of_length_le (by simp; omega)]
    simp [hlen]
  · have hlong : typeCandidatesMax - 1 ≤
        (told.filter fun spec => (library.spec spec).isSigned).eraseDups.length := by
      simp only [candidatesOf, List.length_take] at hlen
      omega
    rw [if_neg hlen]
    simp only [hm, hlen, decide_false, Bool.false_or, Prod.mk.injEq, true_and]
    split_ifs
    · rfl
    · rw [List.take_append_of_le_length hlong]
      rfl

lemma typesMapOne_told (told : List ℕ) (spec : ℕ) (yields : Bool) :
    (typesMapOne library spec yields (candidatesOf library told)).2 =
      candidatesOf library (told ++ [spec]) := by
  cases hs : (library.spec spec).isSigned with
  | false => rw [typesMapOne_plain told hs]
  | true => rw [typesMapOne_signed told hs]

lemma fits_concat_plain {told : List ℕ} (h : Fits library told) {spec : ℕ}
    (hs : (library.spec spec).isSigned = false) :
    Fits library (told ++ [spec]) ↔ (candidatesOf library told).plain.all (· == spec) = true := by
  cases hp : (candidatesOf library told).plain with
  | none =>
    have hnone : ∀ a ∈ told, (library.spec a).isSigned = true := by
      simpa [candidatesOf] using hp
    refine iff_of_true ⟨?_, by simpa [hs] using h.signed⟩ rfl
    intro a ha b hb hua hub
    rw [List.mem_append, List.mem_singleton] at ha hb
    have ha' : a = spec := ha.resolve_left fun hm => by simp [hnone a hm] at hua
    have hb' : b = spec := hb.resolve_left fun hm => by simp [hnone b hm] at hub
    rw [ha', hb']
  | some first =>
    obtain ⟨hm, hu⟩ := candidatesOf_plain hp
    simp only [Option.all_some, beq_iff_eq]
    constructor
    · intro hfits
      exact hfits.plain first (by simp [hm]) spec (by simp) hu hs
    · rintro rfl
      refine h.mono fun a ha => ?_
      rw [List.mem_append, List.mem_singleton] at ha
      exact ha.elim id (· ▸ hm)

lemma fits_concat_signed {told : List ℕ} (h : Fits library told) {spec : ℕ}
    (hs : (library.spec spec).isSigned = true) :
    Fits library (told ++ [spec]) ↔ spec ∈ (candidatesOf library told).signed ∨
      (candidatesOf library told).signed.length < typeCandidatesMax - 1 := by
  have hall : (candidatesOf library told).signed =
      (told.filter fun spec => (library.spec spec).isSigned).eraseDups :=
    List.take_of_length_le h.signed
  have hold : (candidatesOf library told).signed.length ≤ typeCandidatesMax - 1 := hall ▸ h.signed
  have hconcat : ((told ++ [spec]).filter fun spec => (library.spec spec).isSigned) =
      (told.filter fun spec => (library.spec spec).isSigned) ++ [spec] := by
    simp [hs]
  have hplain : ∀ a ∈ told ++ [spec], (library.spec a).isSigned = false → a ∈ told := by
    intro a ha hu
    rw [List.mem_append, List.mem_singleton] at ha
    exact ha.resolve_right fun he => by simp [he, hs] at hu
  have hfits : Fits library (told ++ [spec]) ↔
      (if spec ∈ (candidatesOf library told).signed then (candidatesOf library told).signed
        else (candidatesOf library told).signed ++ [spec]).length ≤ typeCandidatesMax - 1 := by
    have heq : ((told ++ [spec]).filter fun spec => (library.spec spec).isSigned).eraseDups =
        if spec ∈ (candidatesOf library told).signed then (candidatesOf library told).signed
        else (candidatesOf library told).signed ++ [spec] := by
      rw [hconcat, eraseDups_concat, hall]
      simp only [List.mem_eraseDups]
    rw [← heq]
    exact ⟨Fits.signed, fun hlen => ⟨fun a ha b hb hua hub =>
      h.plain a (hplain a ha hua) b (hplain b hb hub) hua hub, hlen⟩⟩
  rw [hfits]
  by_cases hm : spec ∈ (candidatesOf library told).signed
  · simp [hm, hold]
  · simp only [hm, if_false, List.length_append, List.length_singleton, false_or]
    omega

lemma typesMapOne_fits {told : List ℕ} (h : Fits library told) (spec : ℕ) :
    (typesMapOne library spec false (candidatesOf library told)).1 = true ↔
      Fits library (told ++ [spec]) := by
  cases hs : (library.spec spec).isSigned with
  | false => rw [typesMapOne_plain told hs, fits_concat_plain h hs, Bool.or_false]
  | true =>
    rw [typesMapOne_signed told hs, fits_concat_signed h hs]
    simp

lemma typesMapOne_yields (spec : ℕ) (candidates : TypeCandidates) :
    (typesMapOne library spec true candidates).1 = true := by
  rw [typesMapOne]
  split_ifs <;> rfl

lemma eachWhile_yielding {ps : List Placement} (h : ∀ p ∈ ps, p.yields = true) (told : List ℕ) :
    eachWhile (placeAt library) ps (candidatesOf library told) =
      (true, candidatesOf library (told ++ ps.map (·.spec))) := by
  induction ps generalizing told with
  | nil => simp [eachWhile]
  | cons p ps ih =>
    obtain ⟨hp, hps⟩ := List.forall_mem_cons.mp h
    have hok : (placeAt library p (candidatesOf library told)).1 = true := by
      rw [placeAt, hp]
      exact typesMapOne_yields _ _
    rw [eachWhile, if_pos hok, placeAt, typesMapOne_told, ih hps, List.map_cons,
      List.append_assoc, List.singleton_append]

lemma eachWhile_firm {ps : List Placement} (h : ∀ p ∈ ps, p.yields = false) {told : List ℕ}
    (hfits : Fits library told) :
    ((eachWhile (placeAt library) ps (candidatesOf library told)).1 = true ↔
      Fits library (told ++ ps.map (·.spec))) ∧
    ((eachWhile (placeAt library) ps (candidatesOf library told)).1 = true →
      (eachWhile (placeAt library) ps (candidatesOf library told)).2 =
        candidatesOf library (told ++ ps.map (·.spec))) := by
  induction ps generalizing told with
  | nil => simp [eachWhile, hfits]
  | cons p ps ih =>
    obtain ⟨hp, hps⟩ := List.forall_mem_cons.mp h
    have hok : (placeAt library p (candidatesOf library told)).1 = true ↔
        Fits library (told ++ [p.spec]) := by
      rw [placeAt, hp]
      exact typesMapOne_fits hfits p.spec
    rw [eachWhile, List.map_cons, ← List.singleton_append, ← List.append_assoc]
    by_cases hone : Fits library (told ++ [p.spec])
    · rw [if_pos (hok.mpr hone), placeAt, typesMapOne_told]
      exact ih hps hone
    · rw [if_neg (mt hok.mp hone)]
      refine ⟨iff_of_false (by simp) fun hall => hone (hall.mono fun a ha => ?_), by simp⟩
      exact List.mem_append_left _ ha

def placedAt (library : Library) (platform : Option Platform) (modules : List ℕ) (yields : Bool)
    (type : ℕ) : List ℕ :=
  ((modules.flatMap (placementsOf library platform modules yields)).filter (·.type = type)).map (·.spec)

def firmAt (library : Library) (platform : Option Platform) (modules : List ℕ) (type : ℕ) :
    List ℕ :=
  (library.builtin type).toList ++ placedAt library platform modules false type

def toldAt (library : Library) (platform : Option Platform) (modules : List ℕ) (type : ℕ) :
    List ℕ :=
  firmAt library platform modules type ++ placedAt library platform modules true type

lemma placementsOf_yields {yields : Bool} {module : ℕ} {p : Placement}
    (h : p ∈ placementsOf library platform modules yields module) : p.yields = yields := by
  rw [placementsOf] at h
  split_ifs at h
  · cases h
  · simp only [List.mem_flatMap, List.mem_map] at h
    obtain ⟨_, _, _, _, rfl⟩ := h
    rfl

lemma placed_yields (library : Library) (platform : Option Platform) (modules : List ℕ)
    (yields : Bool) (type : ℕ) : ∀ p ∈ (modules.flatMap
      (placementsOf library platform modules yields)).filter (·.type = type), p.yields = yields := by
  intro p h
  obtain ⟨module, -, hp⟩ := List.mem_flatMap.mp (List.mem_filter.mp h).1
  exact placementsOf_yields hp

lemma builtin_candidates (library : Library) (type : ℕ) :
    (⟨library.builtin type, []⟩ : TypeCandidates) =
      candidatesOf library (library.builtin type).toList ∧
    Fits library (library.builtin type).toList := by
  cases hb : library.builtin type with
  | none => exact ⟨by simp [candidatesOf], ⟨by simp, by simp⟩⟩
  | some spec =>
    have hu := library.unsigned type spec hb
    exact ⟨by simp [candidatesOf, hu], ⟨by simp, by simp [hu]⟩⟩

lemma eachWhile_type (library : Library) (platform : Option Platform) (modules : List ℕ)
    (type : ℕ) :
    ((eachWhile (placeAt library) ((placements library platform modules).filter (·.type = type))
        ⟨library.builtin type, []⟩).1 = true ↔ Fits library (firmAt library platform modules type)) ∧
    (Fits library (firmAt library platform modules type) →
      eachWhile (placeAt library) ((placements library platform modules).filter (·.type = type))
        ⟨library.builtin type, []⟩ =
          (true, candidatesOf library (toldAt library platform modules type))) := by
  obtain ⟨hstart, hfits⟩ := builtin_candidates library type
  obtain ⟨hok, htold⟩ := eachWhile_firm (placed_yields library platform modules false type) hfits
  have hsplit : (placements library platform modules).filter (·.type = type) =
      (modules.flatMap (placementsOf library platform modules false)).filter (·.type = type) ++
        (modules.flatMap (placementsOf library platform modules true)).filter (·.type = type) := by
    simp [placements]
  rw [hsplit, hstart, eachWhile_append]
  have hyield (told : List ℕ) := @eachWhile_yielding library _
    (placed_yields library platform modules true type) told
  constructor
  · split_ifs with h
    · rw [htold h, hyield]
      exact iff_of_true rfl (hok.mp h)
    · exact iff_of_false (by simp) (mt hok.mpr h)
  · intro h
    rw [if_pos (hok.mpr h), htold (hok.mpr h), hyield]
    rfl

lemma typesMap_spec (library : Library) (platform : Option Platform) (modules : List ℕ) :
    ((typesMap library platform modules).1 = true ↔
      ∀ type, Fits library (firmAt library platform modules type)) ∧
    ((typesMap library platform modules).1 = true → (typesMap library platform modules).2 =
      fun type => candidatesOf library (toldAt library platform modules type)) := by
  have hall := eachWhile_place library (placements library platform modules)
    fun type => ⟨library.builtin type, []⟩
  have htypes := eachWhile_type library platform modules
  have hfits : (typesMap library platform modules).1 = true →
      ∀ type, Fits library (firmAt library platform modules type) := by
    intro h type
    have heq := (hall (typesMap library platform modules).2).mp
      (by rw [← typesMap_placements, ← h]) type
    exact (htypes type).1.mp (by rw [heq])
  have hmap : (∀ type, Fits library (firmAt library platform modules type)) →
      typesMap library platform modules =
        (true, fun type => candidatesOf library (toldAt library platform modules type)) := by
    intro h
    rw [typesMap_placements]
    exact (hall _).mpr fun type => (htypes type).2 (h type)
  refine ⟨⟨hfits, fun h => by rw [hmap h]⟩, fun h => by rw [hmap (hfits h)]⟩

end OpenDmi

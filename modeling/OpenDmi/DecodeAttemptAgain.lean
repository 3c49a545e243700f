import OpenDmi.DecodeAttempt

namespace OpenDmi

open Bytes

variable {setting : DecodeSetting} {resources again : Resources} {attempt other : Attempt}
  {entity : Entity} {n m : ℕ} {decode : Source → ℕ → Bool × DecodeState}

section Spec

variable (spec : SpecDecoder) (x : Option ℕ)

@[simp] lemma isShort_spec : isShort spec { entity with spec := x } = isShort spec entity := rfl

@[simp] lemma isShort_overlay (copy : Option Buffer) :
    isShort spec { entity with overlay := copy } = isShort spec entity := rfl

@[simp] lemma needsCopy_spec :
    needsCopy setting { entity with spec := x } = needsCopy setting entity := rfl

lemma withCopy_spec :
    withCopy setting { entity with spec := x } = { withCopy setting entity with spec := x } := by
  rw [withCopy, withCopy, needsCopy_spec, entityApplyOverlays, entityApplyOverlays]
  split_ifs <;> rfl

lemma entitySpecSelect_spec (context : Context) :
    entitySpecSelect context { entity with spec := x } = entitySpecSelect context entity := by
  rw [entitySpecSelect, entitySpecSelect]
  rfl

end Spec

section Copy

lemma withCopy_made (h : needsCopy setting entity = false) : withCopy setting entity = entity := by
  rw [withCopy, h]
  rfl

lemma withCopy_overlay (entity : Entity) :
    withCopy setting entity =
      { entity with overlay := (withCopy setting entity).overlay } := by
  rw [withCopy, entityApplyOverlays]
  split_ifs <;> rfl

lemma needsCopy_some (h : entity.overlay ≠ none) : needsCopy setting entity = false := by
  cases hoverlay : entity.overlay with
  | none => exact absurd hoverlay h
  | some copy => simp [needsCopy, hoverlay]

lemma needsCopy_withCopy (entity : Entity) :
    needsCopy setting (withCopy setting entity) = false := by
  by_cases h : needsCopy setting entity = true
  · rw [withCopy, if_pos h, entityApplyOverlays]
    have hne : setting.overlays ≠ [] := by
      intro hnil
      simp [needsCopy, hnil] at h
    rw [if_neg hne]
    exact needsCopy_some (by simp)
  · rw [withCopy_made (by simpa using h)]
    simpa using h

lemma Pending.withCopy_eq (h : Pending setting attempt) (x : Option ℕ) :
    { withCopy setting attempt.entity with spec := x } =
      { withCopy setting attempt.fresh.entity with spec := x } := by
  rcases h.copy with hnone | hcopy
  · have hentity : attempt.fresh.entity = { attempt.entity with spec := none } := by
      rw [Attempt.fresh, ← hnone]
    have hcopied : withCopy setting { attempt.entity with spec := none } =
        { withCopy setting attempt.entity with spec := none } := withCopy_spec none
    rw [hentity, hcopied]
  · have hmade : needsCopy setting attempt.entity = false := by
      cases hoverlay : attempt.entity.overlay with
      | some copy => exact needsCopy_some (by simp [hoverlay])
      | none =>
        have hfresh : needsCopy setting (withCopy setting attempt.fresh.entity) = false :=
          needsCopy_withCopy attempt.fresh.entity
        rw [hoverlay] at hcopy
        simpa [needsCopy, hoverlay, ← hcopy] using hfresh
    rw [withCopy_made hmade, withCopy_overlay attempt.fresh.entity, ← hcopy]
    rfl

end Copy

section Exits

variable (hd : attempt.isDecoded = false)
include hd

lemma entityDecode_unselected (hselect : entitySpecSelect setting.context attempt.entity = none) :
    attempt.entityDecode setting resources = (true, attempt) := by
  rw [Attempt.entityDecode, hd, hselect]
  rfl

variable (hselect : entitySpecSelect setting.context attempt.entity = some n)
include hselect

lemma entityDecode_short (hshort : isShort (setting.specs n) attempt.entity = true) :
    attempt.entityDecode setting resources =
      (false, { attempt with entity := { attempt.entity with spec := some n } }) := by
  rw [Attempt.entityDecode, hd, hselect]
  simp only [isShort_spec, hshort, if_true, Bool.false_eq_true, if_false]

variable (hlong : isShort (setting.specs n) attempt.entity = false)
include hlong

lemma entityDecode_bare (hnone : specDecode (setting.specs n) = none) :
    attempt.entityDecode setting resources =
      (true, { attempt with
        entity := { attempt.entity with spec := some n }
        level := (setting.specs n).params.minimumVersion }) := by
  rw [Attempt.entityDecode, hd, hselect]
  simp only [isShort_spec, hlong, hnone, Bool.false_eq_true, if_false]

variable (hdecode : specDecode (setting.specs n) = some decode)
include hdecode

lemma entityDecode_uncopied (hneeds : needsCopy setting attempt.entity = true)
    (hcopies : resources.copies = false) :
    attempt.entityDecode setting resources =
      (false, { attempt with
        entity := { attempt.entity with spec := some n }
        level := (setting.specs n).params.minimumVersion }) := by
  rw [Attempt.entityDecode, hd, hselect]
  simp only [isShort_spec, needsCopy_spec, hlong, hdecode, hneeds, hcopies, Bool.false_eq_true,
    if_false, Bool.not_false, Bool.and_true, if_true]

variable (hcopied : needsCopy setting attempt.entity = true → resources.copies = true)
include hcopied

lemma entityDecode_unallocated (hallocates : resources.allocates = false) :
    attempt.entityDecode setting resources =
      (false, { attempt with
        entity := { withCopy setting attempt.entity with spec := some n }
        level := (setting.specs n).params.minimumVersion }) := by
  have hcopy : (needsCopy setting attempt.entity && !resources.copies) = false := by
    cases hneeds : needsCopy setting attempt.entity with
    | false => rfl
    | true => simp [hcopied hneeds]
  rw [Attempt.entityDecode, hd, hselect]
  simp only [isShort_spec, needsCopy_spec, withCopy_spec, hlong, hdecode, hcopy, hallocates,
    Bool.false_eq_true, if_false, Bool.not_false, if_true]

lemma entityDecode_read (hallocates : resources.allocates = true) :
    attempt.entityDecode setting resources =
      let entity := { withCopy setting attempt.entity with spec := some n }
      let result := decodeRead setting (setting.specs n) decode entity
      let attempt := { attempt with
        entity := entity
        isPartial := attempt.isPartial || result.2.isPartial
        isIncomplete := attempt.isIncomplete || result.2.isIncomplete }
      if result.1 then
        (true, { attempt with
          info := some result.2.memory
          level := result.2.level
          isDecoded := true })
      else (false, { attempt with info := none, level := 0 }) := by
  have hcopy : (needsCopy setting attempt.entity && !resources.copies) = false := by
    cases hneeds : needsCopy setting attempt.entity with
    | false => rfl
    | true => simp [hcopied hneeds]
  rw [Attempt.entityDecode, hd, hselect]
  simp only [isShort_spec, needsCopy_spec, withCopy_spec, hlong, hdecode, hcopy, hallocates,
    Bool.false_eq_true, if_false, Bool.not_true]

end Exits

lemma entityDecode_spec (hd : attempt.isDecoded = false)
    (hselect : entitySpecSelect setting.context attempt.entity = some n) :
    (attempt.entityDecode setting resources).2.entity.spec = some n := by
  cases hshort : isShort (setting.specs n) attempt.entity with
  | true => rw [entityDecode_short hd hselect hshort]
  | false =>
    cases hdecode : specDecode (setting.specs n) with
    | none => rw [entityDecode_bare hd hselect hshort hdecode]
    | some decode =>
      by_cases hcopied : needsCopy setting attempt.entity = true → resources.copies = true
      · cases hallocates : resources.allocates with
        | false => rw [entityDecode_unallocated hd hselect hshort hdecode hcopied hallocates]
        | true =>
          rw [entityDecode_read hd hselect hshort hdecode hcopied hallocates]
          simp only
          split_ifs <;> rfl
      · obtain ⟨hneeds, hcopies⟩ := Classical.not_imp.mp hcopied
        rw [entityDecode_uncopied hd hselect hshort hdecode hneeds (by simpa using hcopies)]

lemma entityDecode_same (ha : Undecoded attempt) (hb : Undecoded other)
    (hselect : entitySpecSelect setting.context attempt.entity = some n)
    (hother : entitySpecSelect setting.context other.entity = some n)
    (hlong : isShort (setting.specs n) attempt.entity = false)
    (hdecode : specDecode (setting.specs n) = some decode)
    (hcopy : { withCopy setting attempt.entity with spec := some n } =
      { withCopy setting other.entity with spec := some n })
    (hagain : again.copies = true) :
    attempt.entityDecode setting again = other.entityDecode setting again := by
  have hlength := congrArg Entity.bodyLength hcopy
  rw [withCopy_overlay attempt.entity, withCopy_overlay other.entity] at hlength
  have hlong' : isShort (setting.specs n) other.entity = false := by
    rw [← hlong, isShort, isShort]
    simp only at hlength
    rw [hlength]
  cases hallocates : again.allocates with
  | false =>
    rw [entityDecode_unallocated ha.decoded hselect hlong hdecode (fun _ => hagain) hallocates,
      entityDecode_unallocated hb.decoded hother hlong' hdecode (fun _ => hagain) hallocates, hcopy,
      ha.info, hb.info, ha.partially, hb.partially, ha.incompletely, hb.incompletely, ha.decoded,
      hb.decoded]
  | true =>
    rw [entityDecode_read ha.decoded hselect hlong hdecode (fun _ => hagain) hallocates,
      entityDecode_read hb.decoded hother hlong' hdecode (fun _ => hagain) hallocates, hcopy,
      ha.info, hb.info, ha.level, hb.level, ha.partially, hb.partially, ha.incompletely,
      hb.incompletely, ha.decoded, hb.decoded]

lemma fresh_undecoded (attempt : Attempt) : Undecoded attempt.fresh := ⟨rfl, rfl, rfl, rfl, rfl⟩

lemma decodeRead_marked (entity : Entity) (hdecode : specDecode (setting.specs n) = some decode) :
    isMarked (decodeRead setting (setting.specs n) decode { entity with spec := some n }).2 =
      specEndsEarly (setting.specs n) (entitySource entity setting.version) := by
  have hsource : entitySource { entity with spec := some n } setting.version =
      entitySource entity setting.version := rfl
  have hread : isMarked (decodeRead setting (setting.specs n) decode
      { entity with spec := some n }).2 = isMarked (decode (entitySource entity setting.version)
        (setting.specs n).params.minimumVersion).2 := by
    rw [decodeRead, hsource]
    cases decode (entitySource entity setting.version) (setting.specs n).params.minimumVersion with
    | mk ok state => cases ok <;> rfl
  rw [hread, specEndsEarly]
  rw [specDecode] at hdecode
  cases hown : (setting.specs n).decode with
  | some own =>
    rw [hown] at hdecode
    cases hdecode
    rfl
  | none =>
    rw [hown] at hdecode
    obtain ⟨fields, hfields, rfl⟩ := Option.map_eq_some_iff.mp hdecode
    rw [hfields]
    exact fieldsDecode_marked rfl fields _

section Left

variable {left : Attempt} (hpending : Pending setting attempt) (hleft : Undecoded left)
  (hentity : left.entity = { withCopy setting attempt.entity with spec := some n })
  (hselect : entitySpecSelect setting.context attempt.entity = some n)
  (hlong : isShort (setting.specs n) attempt.entity = false)
  (hdecode : specDecode (setting.specs n) = some decode)
include hpending hleft hentity hlong hdecode

lemma again_same (hpicks : PicksAlways setting attempt.entity n) (hagain : again.copies = true) :
    left.entityDecode setting again = attempt.fresh.entityDecode setting again := by
  have hmade : withCopy setting left.entity = left.entity := by
    rw [hentity, withCopy_spec, withCopy_made (needsCopy_withCopy attempt.entity)]
  have hselected : entitySpecSelect setting.context left.entity = some n := by
    rw [hentity, entitySpecSelect_spec]
    exact hpicks.overlaid
  have hshort : isShort (setting.specs n) left.entity = false := by
    rw [hentity, isShort_spec, withCopy_overlay, isShort_overlay]
    exact hlong
  refine entityDecode_same hleft (fresh_undecoded attempt) hselected hpicks.plain hshort hdecode ?_
    hagain
  rw [hmade, ← hpending.withCopy_eq, hentity]

include hselect

omit hpending in
lemma picks_of_again (hagain : ∀ again : Resources, again.copies = true →
      outcome (left.entityDecode setting again) =
        outcome (attempt.fresh.entityDecode setting again)) :
    PicksAlways setting attempt.entity n := by
  have hsame := hagain ⟨true, false⟩ rfl
  have hspec : (left.entityDecode setting ⟨true, false⟩).2.entity.spec =
      (attempt.fresh.entityDecode setting ⟨true, false⟩).2.entity.spec :=
    congrArg Outcome.spec hsame
  have hfresh := (fresh_undecoded attempt).decoded
  have hover : entitySpecSelect setting.context left.entity =
      entitySpecSelect setting.context (withCopy setting attempt.entity) := by
    rw [hentity, entitySpecSelect_spec]
  cases hoverlay : attempt.entity.overlay with
  | none =>
    have hplain : entitySpecSelect setting.context attempt.fresh.entity = some n := by
      rw [Attempt.fresh, ← hoverlay, entitySpecSelect_spec]
      exact hselect
    refine ⟨hplain, ?_⟩
    cases hpicked : entitySpecSelect setting.context left.entity with
    | none =>
      have hok : (left.entityDecode setting ⟨true, false⟩).1 =
          (attempt.fresh.entityDecode setting ⟨true, false⟩).1 := congrArg Outcome.ok hsame
      rw [entityDecode_unselected hleft.decoded hpicked, entityDecode_unallocated hfresh hplain
        hlong hdecode (fun _ => rfl) rfl] at hok
      cases hok
    | some m =>
      rw [entityDecode_spec hleft.decoded hpicked, entityDecode_spec hfresh hplain] at hspec
      rw [← hover, hpicked, hspec]
  | some copy =>
    have hmade : withCopy setting attempt.entity = attempt.entity :=
      withCopy_made (needsCopy_some (by simp [hoverlay]))
    have hpicked : entitySpecSelect setting.context (withCopy setting attempt.entity) = some n := by
      rw [hmade, hselect]
    refine ⟨?_, hpicked⟩
    rw [entityDecode_spec hleft.decoded (hover.trans hpicked)] at hspec
    cases hplain : entitySpecSelect setting.context attempt.fresh.entity with
    | none =>
      rw [entityDecode_unselected hfresh hplain] at hspec
      cases hspec
    | some m =>
      rw [entityDecode_spec hfresh hplain] at hspec
      rw [hspec]
      exact hplain

end Left

lemma short_again (hpending : Pending setting attempt)
    (hselect : entitySpecSelect setting.context attempt.entity = some n)
    (hshort : isShort (setting.specs n) attempt.entity = true) :
    LeavesNoTrace setting resources attempt ↔
      entitySpecSelect setting.context attempt.fresh.entity = some n := by
  have hu := hpending.undecoded
  have hbound : entitySpecSelect setting.context { attempt.entity with spec := some n } = some n := by
    rw [entitySpecSelect_spec, hselect]
  have hfresh := (fresh_undecoded attempt).decoded
  rw [LeavesNoTrace]
  simp only [entityDecode_short hu.decoded hselect hshort]
  have hagain : ∀ again : Resources, Attempt.entityDecode setting again
      { attempt with entity := { attempt.entity with spec := some n } } =
        (false, { attempt with entity := { attempt.entity with spec := some n } }) :=
    fun again => entityDecode_short hu.decoded hbound hshort
  constructor
  · intro h
    have hsame := (h trivial).2 ⟨true, true⟩ rfl
    have hspec : some n = (attempt.fresh.entityDecode setting ⟨true, true⟩).2.entity.spec := by
      rw [hagain] at hsame
      exact congrArg Outcome.spec hsame
    cases hplain : entitySpecSelect setting.context attempt.fresh.entity with
    | none =>
      rw [entityDecode_unselected hfresh hplain] at hspec
      cases hspec
    | some m =>
      rw [entityDecode_spec hfresh hplain] at hspec
      exact hspec.symm
  · intro hplain _
    refine ⟨⟨hu.info, hu.level, hu.partially, hu.incompletely, hu.decoded⟩, fun again _ => ?_⟩
    rw [hagain, entityDecode_short hfresh hplain hshort, outcome, outcome]
    simp only [hu.info, hu.level, hu.partially, hu.incompletely, hu.decoded]
    rfl

section Decoder

variable (hpending : Pending setting attempt)
  (hselect : entitySpecSelect setting.context attempt.entity = some n)
  (hlong : isShort (setting.specs n) attempt.entity = false)
  (hdecode : specDecode (setting.specs n) = some decode)
include hpending hselect hlong hdecode

lemma uncopied_again (hneeds : needsCopy setting attempt.entity = true)
    (hcopies : resources.copies = false) :
    LeavesNoTrace setting resources attempt ↔ (setting.specs n).params.minimumVersion = 0 := by
  have hu := hpending.undecoded
  have hoverlay : attempt.entity.overlay = none := by
    by_contra hsome
    rw [needsCopy_some hsome] at hneeds
    cases hneeds
  have hplain : entitySpecSelect setting.context attempt.fresh.entity = some n := by
    rw [Attempt.fresh, ← hoverlay, entitySpecSelect_spec]
    exact hselect
  rw [LeavesNoTrace]
  simp only [entityDecode_uncopied hu.decoded hselect hlong hdecode hneeds hcopies]
  constructor
  · intro h
    exact (h trivial).1.level
  · intro hminimum _
    have hleft : Undecoded { attempt with
        entity := { attempt.entity with spec := some n }
        level := (setting.specs n).params.minimumVersion } :=
      ⟨hu.info, hminimum, hu.partially, hu.incompletely, hu.decoded⟩
    refine ⟨hleft, fun again hagain => congrArg outcome ?_⟩
    refine entityDecode_same hleft (fresh_undecoded attempt) ?_ hplain hlong hdecode ?_ hagain
    · rw [entitySpecSelect_spec, hselect]
    · rw [withCopy_spec, ← hpending.withCopy_eq]

lemma unallocated_again (hcopied : needsCopy setting attempt.entity = true → resources.copies = true)
    (hallocates : resources.allocates = false) :
    LeavesNoTrace setting resources attempt ↔
      (setting.specs n).params.minimumVersion = 0 ∧ PicksAlways setting attempt.entity n := by
  have hu := hpending.undecoded
  rw [LeavesNoTrace]
  simp only [entityDecode_unallocated hu.decoded hselect hlong hdecode hcopied hallocates]
  constructor
  · intro h
    obtain ⟨hleft, hagain⟩ := h trivial
    exact ⟨hleft.level, picks_of_again hleft rfl hselect hlong hdecode hagain⟩
  · rintro ⟨hminimum, hpicks⟩ -
    have hleft : Undecoded { attempt with
        entity := { withCopy setting attempt.entity with spec := some n }
        level := (setting.specs n).params.minimumVersion } :=
      ⟨hu.info, hminimum, hu.partially, hu.incompletely, hu.decoded⟩
    exact ⟨hleft, fun again hagain => congrArg outcome
      (again_same hpending hleft rfl hlong hdecode hpicks hagain)⟩

lemma read_again (hcopied : needsCopy setting attempt.entity = true → resources.copies = true)
    (hallocates : resources.allocates = true)
    (hfail : (attempt.entityDecode setting resources).1 = false) :
    LeavesNoTrace setting resources attempt ↔
      specEndsEarly (setting.specs n)
          (entitySource (withCopy setting attempt.entity) setting.version) = false ∧
        PicksAlways setting attempt.entity n := by
  have hu := hpending.undecoded
  have hmarked := decodeRead_marked (withCopy setting attempt.entity) hdecode
  rw [LeavesNoTrace]
  simp only [entityDecode_read hu.decoded hselect hlong hdecode hcopied hallocates] at hfail ⊢
  rw [← hmarked]
  generalize decodeRead setting (setting.specs n) decode
    { withCopy setting attempt.entity with spec := some n } = result at hfail ⊢
  cases hok : result.1 with
  | true => simp [hok] at hfail
  | false =>
    simp only [Bool.false_eq_true, if_false, forall_const, hu.partially, hu.incompletely,
      Bool.false_or]
    constructor
    · rintro ⟨hleft, hagain⟩
      exact ⟨Bool.or_eq_false_iff.mpr ⟨hleft.partially, hleft.incompletely⟩,
        picks_of_again hleft rfl hselect hlong hdecode hagain⟩
    · rintro ⟨hnone, hpicks⟩
      obtain ⟨hpart, hincomplete⟩ := Bool.or_eq_false_iff.mp hnone
      have hleft : Undecoded { attempt with
          entity := { withCopy setting attempt.entity with spec := some n }
          info := none
          level := 0
          isPartial := result.2.isPartial
          isIncomplete := result.2.isIncomplete } :=
        ⟨rfl, rfl, hpart, hincomplete, hu.decoded⟩
      exact ⟨hleft, fun again hagain => congrArg outcome
        (again_same hpending hleft rfl hlong hdecode hpicks hagain)⟩

end Decoder

def vendorEntity (body : List Byte) : Entity :=
  ⟨201, headerSize + body.length, 1, ⟨0, [201, UInt8.ofNat (headerSize + body.length), 1, 0] ++ body ++
    [0, 0]⟩, 0, 2, headerSize + body.length + 2, [], none, none⟩

def vendorAttempt (body : List Byte) : Attempt :=
  ⟨vendorEntity body, none, 0, false, false, false⟩

def vendorSpec (minimumVersion : ℕ) (signature : Option Signature) (fields : List Field) :
    SpecDecoder :=
  ⟨⟨201, minimumVersion, 0, signature⟩, none, some fields, none⟩

def vendorSetting (plain signed : SpecDecoder) (overlays : List AdditionalEntry) : DecodeSetting :=
  ⟨fun _ => ⟨some 0, [1]⟩, fun n => if n = 0 then plain else signed, 0x030000, overlays, 0x1000⟩

def vendorByte (offset : ℕ) : Field := ⟨⟨offset, 1⟩, .integer, { length := 1 }, []⟩

def nestedThenByte : List Field :=
  [⟨⟨0, 2⟩, .struct, {}, [vendorByte 0, ⟨.null, .group, {}, []⟩, vendorByte 1]⟩, vendorByte 2]

def nestedSetting : DecodeSetting :=
  vendorSetting (vendorSpec 0x020000 none nestedThenByte) (vendorSpec 0x020000 none []) []

def signedSetting : DecodeSetting :=
  vendorSetting (vendorSpec 0x020000 none [vendorByte 0, vendorByte 1])
    (vendorSpec 0x020000 (some ⟨0, 4, some [1], 0, none, false⟩) [vendorByte 0])
    [⟨1, 4, .null, ⟨none, [1]⟩⟩]

lemma vendorAttempt_pending (setting : DecodeSetting) (body : List Byte) :
    Pending setting (vendorAttempt body) :=
  ⟨⟨rfl, rfl, rfl, rfl, rfl⟩, .inl rfl⟩

def unsignedSetting : DecodeSetting :=
  vendorSetting (vendorSpec 0x020000 none [vendorByte 0, vendorByte 1])
    (vendorSpec 0x020000 (some ⟨0, 4, some [1], 0, none, false⟩) [vendorByte 0])
    [⟨1, 4, .null, ⟨none, [2]⟩⟩]

lemma unsigned_ok : ∀ n, entitySpecSelect unsignedSetting.context (vendorEntity [0]) = some n →
    AttemptOk unsignedSetting ⟨true, true⟩ (vendorAttempt [0]) n := by
  intro n hselect
  have hplain : entitySpecSelect unsignedSetting.context (vendorEntity [0]) = some 0 := by
    decide +kernel
  obtain rfl := Option.some.inj (hplain.symm.trans hselect)
  refine ⟨by decide +kernel, by decide +kernel, ?_, fun _ _ _ => ⟨by decide +kernel, ?_⟩⟩
  · exact fun _ _ hallocates => by cases hallocates
  · exact ⟨by decide +kernel, by decide +kernel⟩

end OpenDmi

import OpenDmi.PartFlags

/-! Data which ends early: the places where a list of fields may end before its last one, and how a
structure is marked which ends at one of them. -/

namespace OpenDmi

open Bytes

section Ends

variable (source : Source)

def repeatEndsEarly {σ : Type} (step : ℕ → σ → Bool × σ) (ends : ℕ → σ → Bool) :
    ℕ → ℕ → σ → Bool
  | 0, _, _ => false
  | count + 1, i, state => ends i state || match step i state with
    | (false, _) => false
    | (true, state) => repeatEndsEarly step ends count (i + 1) state

def arrayEndsEarly (base : ℕ) (field : Field) (decode : ℕ → DecodeState → Bool × DecodeState)
    (ends : ℕ → DecodeState → Bool) (state : DecodeState) : Bool :=
  match decodeArrayHeader source base field state with
  | (none, _) => false
  | (some header, state) =>
    let state :=
      { state with memory := state.memory.setNumber (base + field.params.counter.offset) 0 }
    if header.count = 0 then header.leftover != 0
    else if fieldArrayIsSkipped field header.stride then false
    else repeatEndsEarly (elementStep source decode header.stride)
        (fun i state => !(header.stride != 0 && readerRemaining source state.2 < header.stride) &&
          ends i state.2)
        header.count 0 (0, { state with memory := Memory.zero }) ||
      (decodeElements source decode header.stride header.count state).1 && header.leftover != 0

mutual

/-- Whether the data ends at a group, at a field which need not be there, or among the members of a
field, as the fields of a list are come to one after another. -/
def listEndsEarly (base : ℕ) : List Field → List Choice → Option Field → DecodeState → Bool
  | [], _, _, _ => false
  | field :: rest, choices, group, state =>
    match field.type with
    | .offset =>
      state.position == field.params.offset && listEndsEarly base rest choices group state
    | .preset => listEndsEarly base rest choices group state
    | .group =>
      match groupRead group base state with
      | (false, _) => false
      | (true, state) => readerIsDone source state || listEndsEarly base rest choices (some field)
          { state with
            level := if field.params.since ≠ 0 then field.params.since else state.level
            optional := true }
    | _ =>
      if fieldIsDefined field source.version = false then
        listEndsEarly base rest choices group state
      else fieldEndsEarly base field state || match decodeOne source base field choices state with
        | (false, _, state) => state.optional || state.incomplete
        | (true, choices, state) => listEndsEarly base rest choices group
            { state with defined := max state.defined field.params.from }

def fieldEndsEarly (base : ℕ) : Field → DecodeState → Bool
  | ⟨member, type, params, fields⟩, state =>
    let endsList (base : ℕ) (state : DecodeState) :=
      listEndsEarly base fields (choicesCollect fields []) none
        { state with optional := false, memory := presetAll base fields state.memory }
    match type with
    | .array => arrayEndsEarly source base ⟨member, type, params, fields⟩
        (fun i => decodeList source (i * member.size) fields)
        (fun i => endsList (i * member.size)) state
    | .vector => repeatEndsEarly
        (fun i => nested (decodeList source (base + member.offset + i * member.size) fields))
        (fun i => endsList (base + member.offset + i * member.size)) params.count 0 state
    | .struct => endsList (base + member.offset) state
    | _ => false

end

def membersEndEarly (base : ℕ) (fields : List Field) (state : DecodeState) : Bool :=
  listEndsEarly source base fields (choicesCollect fields []) none
    { state with optional := false, memory := presetAll base fields state.memory }

def fieldsEndEarly (fields : List Field) (level : ℕ) : Bool :=
  membersEndEarly source 0 fields (decoderInitialize level)

end Ends

variable {source : Source} {base : ℕ} {field : Field} {fields : List Field}
  {choices : List Choice} {group : Option Field} {state : DecodeState}

def isMarked (state : DecodeState) : Bool := state.isPartial || state.isIncomplete

lemma fieldEndsEarly_eq (field : Field) (state : DecodeState) :
    fieldEndsEarly source base field state =
      match field.type with
      | .array => arrayEndsEarly source base field
          (fun i => decodeList source (i * field.member.size) field.fields)
          (fun i => membersEndEarly source (i * field.member.size) field.fields) state
      | .vector => repeatEndsEarly
          (fun i => nested
            (decodeList source (base + field.member.offset + i * field.member.size) field.fields))
          (fun i => membersEndEarly source (base + field.member.offset + i * field.member.size)
            field.fields) field.params.count 0 state
      | .struct => membersEndEarly source (base + field.member.offset) field.fields state
      | _ => false := by
  obtain ⟨member, type, params, fields⟩ := field
  rw [fieldEndsEarly.eq_def]
  cases type <;> rfl

lemma listEndsEarly_data (hd : HasData field) (rest : List Field) (choices : List Choice)
    (group : Option Field) (state : DecodeState) :
    listEndsEarly source base (field :: rest) choices group state =
      if fieldIsDefined field source.version = false then
        listEndsEarly source base rest choices group state
      else fieldEndsEarly source base field state ||
        match decodeOne source base field choices state with
        | (false, _, state) => state.optional || state.incomplete
        | (true, choices, state) => listEndsEarly source base rest choices group
            { state with defined := max state.defined field.params.from } := by
  obtain ⟨h1, h2, h3⟩ := hd
  rw [listEndsEarly]
  cases ht : field.type <;> first | rfl | exact absurd ht ‹_›

section Reads

def Source.asPart (source : Source) : Source := { source with isPart := true }

lemma sameFlags_marked {next : DecodeState} (h : SameFlags state next) :
    isMarked next = isMarked state := by
  rw [isMarked, isMarked, h.1, h.2]

lemma asPart_sameFlags (source : Source) (state : DecodeState) :
    DecodeInvariant source.asPart (fun _ => True) (SameFlags state) :=
  sameFlags_invariant rfl state

lemma decodePlain_marked : isMarked (decodePlain source base field choices state).2.2 =
    isMarked state :=
  sameFlags_marked ((asPart_sameFlags source state).decodePlain ⟨rfl, rfl⟩ trivial)

lemma takeBits_asPart (bits : ℕ) (state : DecodeState) :
    takeBits source.asPart bits state = takeBits source bits state := by
  have hfill : ∀ fuel state, fillBits source.asPart bits fuel state =
      fillBits source bits fuel state := by
    intro fuel
    induction fuel with
    | zero => exact fun _ => rfl
    | succ fuel ih =>
      intro state
      have hget : readerGet source.asPart 1 state = readerGet source 1 state := rfl
      rw [fillBits, fillBits, hget]
      simp only [ih]
  rw [takeBits, takeBits, hfill]

lemma decodeBits_marked (value : Option ℕ) : isMarked (decodeBits source field value state).2 =
    isMarked state := by
  have h : SameFlags state (decodeBits source.asPart field value state).2 :=
    (asPart_sameFlags source state).decodeBits ⟨rfl, rfl⟩ trivial
  rw [decodeBits, takeBits_asPart] at h
  exact sameFlags_marked h

lemma decodePad_marked : isMarked (decodePad source field state).2 = isMarked state := by
  have h : SameFlags state (decodePad source.asPart field state).2 :=
    (asPart_sameFlags source state).decodePad ⟨rfl, rfl⟩
  rw [decodePad, takeBits_asPart] at h
  exact sameFlags_marked h

lemma decodeArrayHeader_marked :
    isMarked (decodeArrayHeader source base field state).2 = isMarked state :=
  sameFlags_marked ((asPart_sameFlags source state).decodeArrayHeader ⟨rfl, rfl⟩)

lemma groupRead_marked (group : Option Field) :
    isMarked (groupRead group base state).2 = isMarked state :=
  sameFlags_marked
    ((asPart_sameFlags ⟨0, 0, [], [], 0, false⟩ state).groupRead group ⟨rfl, rfl⟩)

lemma readerSkip_marked (length : ℕ) :
    isMarked (readerSkip source length state).2 = isMarked state :=
  sameFlags_marked ((asPart_sameFlags source state).readerSkip length ⟨rfl, rfl⟩)

end Reads

section Marked

lemma repeatWhile_marked {σ : Type} {mark : σ → Bool} {step : ℕ → σ → Bool × σ}
    {ends : ℕ → σ → Bool} (hstep : ∀ i s, mark (step i s).2 = (mark s || ends i s)) (count i : ℕ)
    (s : σ) :
    mark (repeatWhile step count i s).2 = (mark s || repeatEndsEarly step ends count i s) := by
  induction count generalizing i s with
  | zero => exact (Bool.or_false _).symm
  | succ count ih =>
    have hone := hstep i s
    rw [repeatWhile, repeatEndsEarly]
    cases hs : step i s with
    | mk ok next =>
      rw [hs] at hone
      cases ok with
      | false => simpa using hone
      | true =>
        simp only at hone ⊢
        rw [ih, hone, Bool.or_assoc]

lemma decodeElement_marked {decode : DecodeState → Bool × DecodeState} {ends : DecodeState → Bool}
    (hd : ∀ s, isMarked (nested decode s).2 = (isMarked s || ends s)) (stride : ℕ)
    (s : DecodeState) : isMarked (decodeElement source decode stride s).2 =
      (isMarked s || !(stride != 0 && readerRemaining source s < stride) && ends s) := by
  rw [decodeElement]
  by_cases hshort : stride ≠ 0 ∧ readerRemaining source s < stride
  · have hends : (stride != 0 && decide (readerRemaining source s < stride)) = true := by
      simpa using hshort
    rw [if_pos hshort, hends, Bool.not_true, Bool.false_and, Bool.or_false]
    rfl
  · have hends : (stride != 0 && decide (readerRemaining source s < stride)) = false := by
      simpa using hshort
    have hnested := hd s
    rw [if_neg hshort, hends, Bool.not_false, Bool.true_and, ← hnested]
    cases nested decode s with
    | mk ok next =>
      cases ok with
      | false => rfl
      | true =>
        simp only
        split_ifs <;> rfl

lemma elementStep_marked {decode : ℕ → DecodeState → Bool × DecodeState}
    {ends : ℕ → DecodeState → Bool}
    (hd : ∀ i s, isMarked (nested (decode i) s).2 = (isMarked s || ends i s)) (stride i : ℕ)
    (s : ℕ × DecodeState) : isMarked (elementStep source decode stride i s).2.2 =
      (isMarked s.2 || !(stride != 0 && readerRemaining source s.2 < stride) && ends i s.2) := by
  rw [elementStep, ← @decodeElement_marked source _ _ (hd i) stride s.2]
  cases decodeElement source (decode i) stride s.2 with
  | mk ok next => cases ok <;> rfl

variable (hp : source.isPart = false)
include hp

lemma decoderIncomplete_marked (state : DecodeState) :
    isMarked (decoderIncomplete source state).2 = true := by
  rw [decoderIncomplete, hp]
  exact Bool.or_true _

lemma decoderStop_marked (state : DecodeState) : isMarked (decoderStop source state).2 = true := by
  rw [decoderStop, hp]
  simp only [Bool.false_eq_true, if_false]
  split_ifs
  · rfl
  · exact decoderIncomplete_marked hp state

lemma leftover_marked (leftover : ℕ) (s : DecodeState) :
    isMarked (if leftover = 0 then (true, s) else decoderIncomplete source s).2 =
      (isMarked s || leftover != 0) := by
  by_cases hleft : leftover = 0
  · rw [if_pos hleft, hleft]
    exact (Bool.or_false _).symm
  · rw [if_neg hleft, decoderIncomplete_marked hp, bne_iff_ne.mpr hleft, Bool.or_true]

lemma decodeArray_marked {decode : ℕ → DecodeState → Bool × DecodeState}
    {ends : ℕ → DecodeState → Bool}
    (hd : ∀ i s, isMarked (nested (decode i) s).2 = (isMarked s || ends i s)) (s : DecodeState) :
    isMarked (decodeArray source base field decode s).2 =
      (isMarked s || arrayEndsEarly source base field decode ends s) := by
  have hheader : isMarked (decodeArrayHeader source base field s).2 = isMarked s :=
    decodeArrayHeader_marked
  rw [decodeArray, arrayEndsEarly]
  cases hr : decodeArrayHeader source base field s with
  | mk found next =>
    rw [hr] at hheader
    cases found with
    | none =>
      rw [Bool.or_false]
      exact hheader
    | some header =>
      simp only
      rw [← hheader]
      by_cases hzero : header.count = 0
      · rw [if_pos hzero, if_pos hzero]
        exact leftover_marked hp header.leftover _
      rw [if_neg hzero, if_neg hzero]
      by_cases hskip : fieldArrayIsSkipped field header.stride = true
      · rw [if_pos hskip, if_pos hskip, Bool.or_false]
        exact readerSkip_marked _
      rw [if_neg hskip, if_neg hskip]
      have hstep := @elementStep_marked source _ _ hd header.stride
      have helements := @repeatWhile_marked _ (fun s : ℕ × DecodeState => isMarked s.2) _ _ hstep
        header.count 0 (0, { next with memory := Memory.zero })
      rw [decodeElements_eq]
      generalize repeatEndsEarly _ _ _ _ _ = early at helements ⊢
      generalize repeatWhile _ _ _ _ = result at helements ⊢
      obtain ⟨ok, decoded, last⟩ := result
      simp only at helements ⊢
      cases ok with
      | false =>
        rw [Bool.false_and, Bool.or_false]
        exact helements
      | true =>
        rw [Bool.true_and, ← Bool.or_assoc]
        exact (leftover_marked hp header.leftover _).trans (congrArg (· || _) helements)

lemma decodeFields_marked
    (hone : ∀ f ∈ fields, ∀ base choices s, isMarked (decodeOne source base f choices s).2.2 =
      (isMarked s || fieldEndsEarly source base f s)) :
    isMarked (decodeFields source base fields choices group state).2 =
      (isMarked state || listEndsEarly source base fields choices group state) := by
  induction fields generalizing choices group state with
  | nil =>
    rw [decodeFields, listEndsEarly, Bool.or_false]
    exact groupRead_marked group
  | cons field rest ih =>
    have hrest := fun {choices group state} => @ih choices group state
      (fun f hf => hone f (List.mem_cons_of_mem _ hf))
    by_cases ho : field.type = .offset
    · rw [decodeFields, listEndsEarly]
      simp only [ho]
      by_cases hreached : state.position = field.params.offset
      · rw [if_pos hreached, hrest, beq_iff_eq.mpr hreached, Bool.true_and]
      · rw [if_neg hreached, beq_eq_false_iff_ne.mpr hreached, Bool.false_and, Bool.or_false]
    by_cases hpreset : field.type = .preset
    · rw [decodeFields, listEndsEarly]
      simp only [hpreset]
      exact hrest
    by_cases hg : field.type = .group
    · have hread : isMarked (groupRead group base state).2 = isMarked state :=
        groupRead_marked group
      rw [decodeFields, listEndsEarly]
      simp only [hg]
      cases hr : groupRead group base state with
      | mk ok next =>
        rw [hr] at hread
        cases ok with
        | false =>
          rw [Bool.or_false]
          exact hread
        | true =>
          simp only
          cases hdone : readerIsDone source next with
          | true =>
            rw [if_pos rfl, decoderStop_marked hp, Bool.true_or, Bool.or_true]
          | false =>
            rw [if_neg Bool.false_ne_true, hrest, Bool.false_or, ← hread]
            rfl
    have hd : HasData field := ⟨ho, hpreset, hg⟩
    rw [decodeFields_data hd, listEndsEarly_data hd]
    split_ifs
    · exact hrest
    · have hfield := hone field List.mem_cons_self base choices state
      cases hr : decodeOne source base field choices state with
      | mk ok result =>
        obtain ⟨choices', next⟩ := result
        rw [hr] at hfield
        rw [← Bool.or_assoc, ← hfield]
        cases ok with
        | false =>
          simp only
          split_ifs with hmay
          · rw [decoderIncomplete_marked hp, hmay, Bool.or_true]
          · rw [Bool.eq_false_of_not_eq_true hmay, Bool.or_false]
        | true => exact hrest

lemma decodeOne_marked (field : Field) : ∀ (base : ℕ) (choices : List Choice) (s : DecodeState),
    isMarked (decodeOne source base field choices s).2.2 =
      (isMarked s || fieldEndsEarly source base field s) := by
  induction fieldTree_trivial field with
  | @intro field _ _ ih =>
    intro base choices s
    have hlist : ∀ base s, isMarked (nested (decodeList source base field.fields) s).2 =
        (isMarked s || membersEndEarly source base field.fields s) :=
      fun base s => decodeFields_marked hp ih
    rw [decodeOne_eq, fieldEndsEarly_eq]
    cases field.type with
    | array => exact decodeArray_marked hp (fun i s => hlist _ s) s
    | vector => exact repeatWhile_marked (fun i s => hlist _ s) _ _ s
    | struct => exact hlist _ s
    | bits => exact (decodeBits_marked _).trans (Bool.or_false _).symm
    | pad => exact decodePad_marked.trans (Bool.or_false _).symm
    | _ => exact decodePlain_marked.trans (Bool.or_false _).symm

lemma fieldsDecode_marked (fields : List Field) (level : ℕ) :
    isMarked (fieldsDecode source fields level).2 = fieldsEndEarly source fields level :=
  decodeFields_marked hp fun f _ => decodeOne_marked hp f

end Marked

end OpenDmi

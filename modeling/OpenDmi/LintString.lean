import OpenDmi.DecodeAttemptAgain
import OpenDmi.Entry
import OpenDmi.Lint
import OpenDmi.StringReads

/-! The strings no field refers to: the rule which reports them, and what it goes by. -/

namespace OpenDmi

open Bytes

def lintStringUnreferenced (lint : Lint) (use : StringUse) : List LintIssue :=
  let entity := use.attempt.entity
  if use.attempt.info.isNone || entity.spec.isNone then []
  else ((List.range entity.strings.length).filter fun i => !use.used.contains (i + 1)).map fun i =>
    lintIssue "string.unreferenced" (some entity) none (lintStringOffset lint.table entity (i + 1))
      "string %zu is referenced by no field of the structure" [.number (i + 1)]

def StringReported (issues : List LintIssue) (n : ℕ) : Prop :=
  ∃ issue ∈ issues, issue.arguments = [.number n]

section Select

variable {context : Context} {entity : Entity} {n : ℕ}

lemma entityStringEx_raw (num : ℕ) :
    entityStringEx entity num true = entityRawString entity num := by
  rw [entityStringEx, entityRawString]
  by_cases hzero : num = 0
  · rw [if_pos (.inl hzero), if_pos hzero]
  rw [if_neg hzero]
  by_cases hout : num = 0 ∨ num > entity.strings.length
  · rw [if_pos hout, List.getElem?_eq_none (by omega), Option.map_none]
  · rw [if_neg hout]
    rfl

lemma entitySignatureTry_match (entity : Entity) (signature : Option Signature) (used : List ℕ) :
    (entitySignatureTry entity signature used).1 = entitySignatureMatch entity signature := by
  cases signature with
  | none => rfl
  | some signature =>
    rw [entitySignatureTry]
    change _ = (signatureFits entity signature && (signature.string == 0 || _) && _)
    simp only [entityStringRead, entityStringEx_raw]
    split_ifs with hfits hzero
    · rw [hfits]
      rfl
    · rw [Bool.not_eq_false] at hfits
      simp [hfits, hzero]
    · rw [Bool.not_eq_false] at hfits
      have hnamed : (signature.string == 0) = false := beq_eq_false_iff_ne.mpr hzero
      rw [hfits, hnamed, Bool.true_and, Bool.false_or]
      cases entityRawString entity signature.string <;> cases signature.text <;> rfl

lemma mem_signatureTry (hn : IsString entity.strings.length n) (signature : Option Signature)
    (used : List ℕ) :
    n ∈ (entitySignatureTry entity signature used).2 ↔ n ∈ used ∨
      ∃ tried, signature = some tried ∧ signatureFits entity tried = true ∧ tried.string = n := by
  cases signature with
  | none =>
    refine (or_iff_left ?_).symm
    rintro ⟨tried, hnone, -⟩
    cases hnone
  | some signature =>
    simp only [Option.some.injEq, exists_eq_left', entitySignatureTry, entityStringRead]
    have hpos := hn.1
    split_ifs with hfits hzero
    · simp [hfits]
    · simp only [hzero]
      refine (or_iff_left ?_).symm
      omega
    · rw [Bool.not_eq_false] at hfits
      rw [hfits]
      simp only [true_and]
      cases entityStringEx entity signature.string true <;> cases signature.text <;>
        exact mem_stringMark hn

def SelectReads (context : Context) (entity : Entity) (n : ℕ) : Prop :=
  entity.typeId ≤ typeIdMax ∧ ∃ before spec after signature,
    (context.typeMap entity.typeId).signed = before ++ spec :: after ∧
    (∀ other ∈ before, entitySignatureMatch entity (context.specParams other).signature = false) ∧
    (context.specParams spec).signature = some signature ∧
    signatureFits entity signature = true ∧ signature.string = n

lemma candidatesTry_find (context : Context) (entity : Entity) (specs used : List ℕ) :
    (candidatesTry context entity specs used).1 = specs.find? fun spec =>
      entitySignatureMatch entity (context.specParams spec).signature := by
  induction specs generalizing used with
  | nil => rfl
  | cons spec rest ih =>
    have hmatch := entitySignatureTry_match entity (context.specParams spec).signature used
    rw [candidatesTry, List.find?_cons, ← hmatch]
    cases htry : entitySignatureTry entity (context.specParams spec).signature used with
    | mk matched marked =>
      cases matched with
      | false => exact ih marked
      | true => rfl

lemma entitySpecTry_select (context : Context) (entity : Entity) (used : List ℕ) :
    (entitySpecTry context entity used).1 = entitySpecSelect context entity := by
  have hfind := candidatesTry_find context entity
    (context.typeMap entity.typeId).signed used
  rw [entitySpecTry, entitySpecSelect]
  split_ifs
  · rfl
  · simp only
    rw [← hfind]
    cases candidatesTry context entity (context.typeMap entity.typeId).signed used with
    | mk found marked => cases found <;> rfl

lemma mem_candidatesTry (context : Context) (hn : IsString entity.strings.length n)
    (specs used : List ℕ) :
    n ∈ (candidatesTry context entity specs used).2 ↔ n ∈ used ∨
      ∃ before spec after signature, specs = before ++ spec :: after ∧
        (∀ other ∈ before,
          entitySignatureMatch entity (context.specParams other).signature = false) ∧
        (context.specParams spec).signature = some signature ∧
        signatureFits entity signature = true ∧ signature.string = n := by
  induction specs generalizing used with
  | nil =>
    refine (or_iff_left ?_).symm
    rintro ⟨before, spec, after, -, hnil, -⟩
    simp at hnil
  | cons first rest ih =>
    have hmatch := entitySignatureTry_match entity (context.specParams first).signature used
    have hmark := mem_signatureTry hn (context.specParams first).signature used
    rw [candidatesTry]
    cases htry : entitySignatureTry entity (context.specParams first).signature used with
    | mk matched marked =>
      rw [htry] at hmatch hmark
      simp only at hmatch hmark
      cases matched with
      | true =>
        refine hmark.trans (or_congr_right ⟨?_, ?_⟩)
        · rintro ⟨signature, hsome, hfits, hstring⟩
          exact ⟨[], first, rest, signature, rfl, by simp, hsome, hfits, hstring⟩
        · rintro ⟨before, spec, after, signature, hsplit, hbefore, hsome, hfits, hstring⟩
          cases before with
          | nil =>
            cases hsplit
            exact ⟨signature, hsome, hfits, hstring⟩
          | cons other before =>
            cases hsplit
            cases hmatch.trans (hbefore first List.mem_cons_self)
      | false =>
        refine (ih marked).trans ?_
        rw [hmark, or_assoc]
        refine or_congr_right ⟨?_, ?_⟩
        · rintro (⟨signature, hsome, hfits, hstring⟩ |
            ⟨before, spec, after, signature, rfl, hbefore, hsome, hfits, hstring⟩)
          · exact ⟨[], first, rest, signature, rfl, by simp, hsome, hfits, hstring⟩
          · refine ⟨first :: before, spec, after, signature, rfl, ?_, hsome, hfits, hstring⟩
            intro other hm
            rcases List.mem_cons.mp hm with rfl | hm
            · exact hmatch.symm
            · exact hbefore other hm
        · rintro ⟨before, spec, after, signature, hsplit, hbefore, hsome, hfits, hstring⟩
          cases before with
          | nil =>
            cases hsplit
            exact .inl ⟨signature, hsome, hfits, hstring⟩
          | cons other before =>
            cases hsplit
            exact .inr ⟨before, spec, after, signature, rfl,
              fun other hm => hbefore other (List.mem_cons_of_mem _ hm), hsome, hfits, hstring⟩

lemma mem_entitySpecTry (context : Context) (hn : IsString entity.strings.length n)
    (used : List ℕ) :
    n ∈ (entitySpecTry context entity used).2 ↔ n ∈ used ∨ SelectReads context entity n := by
  rw [entitySpecTry]
  split_ifs with htype
  · refine (or_iff_left fun h => ?_).symm
    exact absurd h.1 (not_le.mpr htype)
  · have hmark := mem_candidatesTry context hn
      (context.typeMap entity.typeId).signed used
    refine Iff.trans ?_ (hmark.trans (or_congr_right (and_iff_right (not_lt.mp htype)).symm))
    cases candidatesTry context entity (context.typeMap entity.typeId).signed used with
    | mk found marked => cases found <;> rfl

end Select

section Reads

variable (setting : DecodeSetting) (readers : StringReaders)

structure Undertaken (resources : Resources) (attempt : Attempt) (k : ℕ) (entity : Entity) :
    Prop where
  undecoded : attempt.isDecoded = false
  selected : entitySpecSelect setting.context attempt.entity = some k
  decodes : specDecode (setting.specs k) ≠ none
  long : isShort (setting.specs k) attempt.entity = false
  copied : needsCopy setting attempt.entity = true → resources.copies = true
  allocated : resources.allocates = true
  bytes : entity = { withCopy setting attempt.entity with spec := some k }

def FieldCarries (n k : ℕ) (entity : Entity) : Prop :=
  ∃ fields, (setting.specs k).decode = none ∧ (setting.specs k).fields = some fields ∧
    StringReads (entitySource entity setting.version) 0 fields (choicesCollect fields []) none
      (partStart 0 fields (decoderInitialize (setting.specs k).params.minimumVersion)) n

def FunctionReads (n k : ℕ) (entity : Entity) : Prop :=
  (setting.specs k).decode ≠ none ∧
    n ∈ readers.decode k (entitySource entity setting.version)
      (setting.specs k).params.minimumVersion

def DerivationReads (n k : ℕ) (entity : Entity) : Prop :=
  ∃ decode state derive, specDecode (setting.specs k) = some decode ∧
    decode (entitySource entity setting.version) (setting.specs k).params.minimumVersion =
      (true, state) ∧
    (setting.specs k).derive = some derive ∧ (derive entity state.memory).1 = true ∧
    n ∈ deriveStrings entity state.memory (readers.derive k)

def Attempted (P : ℕ → Entity → Prop) (call : EntityCall) (attempt : Attempt) : Prop :=
  ∃ resources k entity, call = .decode resources ∧
    Undertaken setting resources attempt k entity ∧ P k entity

def SignatureTried (n : ℕ) (call : EntityCall) (attempt : Attempt) : Prop :=
  SelectReads setting.context attempt.entity n ∧ match call with
    | .name | .type => attempt.entity.spec = none
    | .decode _ => attempt.isDecoded = false
    | .encode | .link => False

def InRun (use : StringUse) (calls : List EntityCall) (P : EntityCall → Attempt → Prop) : Prop :=
  ∃ before call after, calls = before ++ call :: after ∧
    P call (entityCalls setting readers use before).attempt

end Reads

section Account

variable {setting : DecodeSetting} {readers : StringReaders} {resources : Resources}
  {attempt : Attempt} {n count : ℕ} {used : List ℕ}

lemma mem_stringMarks (hn : IsString count n) (numbers used : List ℕ) :
    n ∈ stringMarks count numbers used ↔ n ∈ used ∨ n ∈ numbers := by
  induction numbers generalizing used with
  | nil => exact (or_iff_left List.not_mem_nil).symm
  | cons num numbers ih =>
    refine (ih _).trans ?_
    rw [mem_stringMark hn, or_assoc, List.mem_cons, eq_comm (a := n)]

lemma withCopy_strings (entity : Entity) : (withCopy setting entity).strings = entity.strings := by
  rw [withCopy_overlay]

variable {k : ℕ} {entity : Entity} {decode : Source → ℕ → Bool × DecodeState}

lemma Undertaken.unique {k' : ℕ} {entity' : Entity}
    (h : Undertaken setting resources attempt k entity)
    (h' : Undertaken setting resources attempt k' entity') : k' = k ∧ entity' = entity := by
  obtain rfl := Option.some.inj (h'.selected.symm.trans h.selected)
  exact ⟨rfl, h'.bytes.trans h.bytes.symm⟩

lemma mem_decoderMark (hn : IsString entity.strings.length n)
    (hdecode : specDecode (setting.specs k) = some decode) (used : List ℕ) :
    n ∈ decoderMark setting readers k entity used ↔
      n ∈ used ∨ FieldCarries setting n k entity ∨ FunctionReads setting readers n k entity := by
  rw [decoderMark]
  cases hfunction : (setting.specs k).decode with
  | some function =>
    simp only
    rw [mem_stringMarks hn]
    refine or_congr_right ⟨fun hread => .inr ⟨?_, hread⟩, ?_⟩
    · rw [hfunction]
      exact Option.some_ne_none _
    · rintro (⟨fields, hnone, -⟩ | ⟨-, hread⟩)
      · cases hfunction.symm.trans hnone
      · exact hread
  | none =>
    cases hfields : (setting.specs k).fields with
    | none =>
      rw [specDecode, hfunction, hfields] at hdecode
      cases hdecode
    | some fields =>
      simp only
      rw [mem_fieldsDecodeMark hn]
      refine or_congr_right ⟨fun hread => .inl ⟨fields, hfunction, hfields, hread⟩, ?_⟩
      rintro (⟨_, -, hsome, hread⟩ | ⟨hnot, -⟩)
      · cases hfields.symm.trans hsome
        exact hread
      · exact absurd hfunction hnot

lemma mem_decodeReadMark (hn : IsString entity.strings.length n)
    (hdecode : specDecode (setting.specs k) = some decode) (used : List ℕ) :
    n ∈ decodeReadMark setting readers k decode entity used ↔
      n ∈ used ∨ FieldCarries setting n k entity ∨ FunctionReads setting readers n k entity ∨
        DerivationReads setting readers n k entity := by
  have hdecoder : n ∈ decoderMark setting readers k entity used ↔ _ :=
    mem_decoderMark hn hdecode used
  have hderivation : n ∈ decodeReadMark setting readers k decode entity used ↔
      n ∈ decoderMark setting readers k entity used ∨
        DerivationReads setting readers n k entity := by
    have hnothing (hnot : ∀ state derive, decode (entitySource entity setting.version)
          (setting.specs k).params.minimumVersion = (true, state) →
        (setting.specs k).derive = some derive → (derive entity state.memory).1 = false) :
        ¬ DerivationReads setting readers n k entity := by
      rintro ⟨_, state, derive, hsome, hdecoded, hderive, hderived, -⟩
      cases hdecode.symm.trans hsome
      cases hderived.symm.trans (hnot state derive hdecoded hderive)
    rw [decodeReadMark]
    cases hdecoded : decode (entitySource entity setting.version)
        (setting.specs k).params.minimumVersion with
    | mk ok state =>
      cases ok with
      | false =>
        refine (or_iff_left (hnothing fun _ _ hother _ => ?_)).symm
        cases hdecoded.symm.trans hother
      | true =>
        cases hderive : (setting.specs k).derive with
        | none =>
          refine (or_iff_left (hnothing fun _ _ _ hother => ?_)).symm
          cases hderive.symm.trans hother
        | some derive =>
          simp only
          split_ifs with hderived
          · rw [mem_stringMarks hn]
            refine or_congr_right ⟨fun hread =>
              ⟨decode, state, derive, hdecode, hdecoded, hderive, hderived, hread⟩, ?_⟩
            rintro ⟨_, _, _, hsome, hstate, hother, -, hread⟩
            cases hdecode.symm.trans hsome
            cases hdecoded.symm.trans hstate
            cases hderive.symm.trans hother
            exact hread
          · refine (or_iff_left (hnothing fun _ _ hstate hother => ?_)).symm
            cases hdecoded.symm.trans hstate
            cases hderive.symm.trans hother
            simpa using hderived
  rw [hderivation, hdecoder, or_assoc, or_assoc]

lemma mem_entityDecodeMark (hn : IsString attempt.entity.strings.length n) (used : List ℕ) :
    n ∈ entityDecodeMark setting readers resources attempt used ↔ n ∈ used ∨
      (attempt.isDecoded = false ∧ SelectReads setting.context attempt.entity n) ∨
      ∃ k entity, Undertaken setting resources attempt k entity ∧
        (FieldCarries setting n k entity ∨ FunctionReads setting readers n k entity ∨
          DerivationReads setting readers n k entity) := by
  rw [entityDecodeMark]
  cases hdecoded : attempt.isDecoded with
  | true =>
    refine (or_iff_left ?_).symm
    rintro (⟨hnot, -⟩ | ⟨k, entity, hundertaken, -⟩)
    · cases hnot
    · cases hdecoded.symm.trans hundertaken.undecoded
  | false =>
    have hselect := entitySpecTry_select setting.context attempt.entity used
    have hmark := mem_entitySpecTry setting.context hn used
    simp only [Bool.false_eq_true, if_false, true_and]
    rw [← or_assoc, ← hmark]
    cases htry : entitySpecTry setting.context attempt.entity used with
    | mk found marked =>
      rw [htry] at hselect
      simp only at hselect
      have hnothing (hnot : ∀ k entity, ¬ Undertaken setting resources attempt k entity) :
          n ∈ marked ↔ n ∈ marked ∨ ∃ k entity, Undertaken setting resources attempt k entity ∧
            (FieldCarries setting n k entity ∨ FunctionReads setting readers n k entity ∨
              DerivationReads setting readers n k entity) := by
        refine (or_iff_left ?_).symm
        rintro ⟨k, entity, hundertaken, -⟩
        exact hnot k entity hundertaken
      cases found with
      | none =>
        refine hnothing fun k entity h => ?_
        cases hselect.trans h.selected
      | some k =>
        have hpicked {k' : ℕ} {entity : Entity}
            (h : Undertaken setting resources attempt k' entity) : k' = k :=
          Option.some.inj (h.selected.symm.trans hselect.symm)
        simp only [isShort_spec, needsCopy_spec, withCopy_spec]
        cases hshort : isShort (setting.specs k) attempt.entity with
        | true =>
          refine hnothing fun k' entity h => ?_
          obtain rfl := hpicked h
          cases hshort.symm.trans h.long
        | false =>
          simp only [Bool.false_eq_true, if_false]
          cases hdecode : specDecode (setting.specs k) with
          | none =>
            refine hnothing fun k' entity h => h.decodes ?_
            obtain rfl := hpicked h
            exact hdecode
          | some decode =>
            simp only
            split_ifs with hcopy hallocate
            · refine hnothing fun k' entity h => ?_
              rw [Bool.and_eq_true, Bool.not_eq_true'] at hcopy
              cases hcopy.2.symm.trans (h.copied hcopy.1)
            · refine hnothing fun k' entity h => ?_
              rw [h.allocated] at hallocate
              cases hallocate
            · have hundertaken : Undertaken setting resources attempt k
                  { withCopy setting attempt.entity with spec := some k } := by
                refine ⟨hdecoded, hselect.symm, ?_, hshort, fun hneeds => ?_, ?_, rfl⟩
                · rw [hdecode]
                  exact Option.some_ne_none _
                · simpa [hneeds] using hcopy
                · simpa using hallocate
              refine (mem_decodeReadMark ?_ hdecode marked).trans (or_congr_right
                ⟨fun hread => ⟨k, _, hundertaken, hread⟩, ?_⟩)
              · rw [withCopy_strings]
                exact hn
              · rintro ⟨k', entity, h, hread⟩
                obtain ⟨rfl, rfl⟩ := hundertaken.unique h
                exact hread

lemma entityDecode_result (hd : attempt.isDecoded = false)
    (hselect : entitySpecSelect setting.context attempt.entity = some k) :
    let next := (attempt.entityDecode setting resources).2
    next.entity.strings = attempt.entity.strings ∧ (next.isDecoded = true → next.info.isSome) := by
  have hundecoded {info : Option Memory} : attempt.isDecoded = true → info.isSome := by
    rw [hd]
    exact fun h => by cases h
  cases hshort : isShort (setting.specs k) attempt.entity with
  | true =>
    rw [entityDecode_short hd hselect hshort]
    exact ⟨rfl, hundecoded⟩
  | false =>
    cases hdecode : specDecode (setting.specs k) with
    | none =>
      rw [entityDecode_bare hd hselect hshort hdecode]
      exact ⟨rfl, hundecoded⟩
    | some decode =>
      by_cases hcopied : needsCopy setting attempt.entity = true → resources.copies = true
      · cases hallocates : resources.allocates with
        | false =>
          rw [entityDecode_unallocated hd hselect hshort hdecode hcopied hallocates]
          exact ⟨withCopy_strings attempt.entity, hundecoded⟩
        | true =>
          rw [entityDecode_read hd hselect hshort hdecode hcopied hallocates]
          simp only
          split_ifs
          · exact ⟨withCopy_strings attempt.entity, fun _ => rfl⟩
          · exact ⟨withCopy_strings attempt.entity, hundecoded⟩
      · obtain ⟨hneeds, hcopies⟩ := Classical.not_imp.mp hcopied
        rw [entityDecode_uncopied hd hselect hshort hdecode hneeds (by simpa using hcopies)]
        exact ⟨rfl, hundecoded⟩

lemma entityDecode_strings (attempt : Attempt) (resources : Resources) :
    (attempt.entityDecode setting resources).2.entity.strings = attempt.entity.strings := by
  cases hd : attempt.isDecoded with
  | true =>
    rw [Attempt.entityDecode, hd]
    rfl
  | false =>
    cases hselect : entitySpecSelect setting.context attempt.entity with
    | none => rw [entityDecode_unselected hd hselect]
    | some k => exact (entityDecode_result hd hselect).1

lemma entityCall_strings (use : StringUse) (call : EntityCall) :
    (entityCall setting readers use call).attempt.entity.strings = use.attempt.entity.strings := by
  cases call with
  | name | type =>
    rw [entityCall]
    cases use.attempt.entity.spec <;> rfl
  | decode resources => exact entityDecode_strings use.attempt resources
  | encode | link => rfl

lemma mem_entityCall {use : StringUse} (hn : IsString use.attempt.entity.strings.length n)
    (call : EntityCall) :
    n ∈ (entityCall setting readers use call).used ↔ n ∈ use.used ∨
      SignatureTried setting n call use.attempt ∨
      Attempted setting (fun k entity => FieldCarries setting n k entity ∨
        FunctionReads setting readers n k entity ∨ DerivationReads setting readers n k entity)
        call use.attempt := by
  cases call with
  | name | type =>
    have hno : ∀ P, ∀ call, call = .name ∨ call = .type →
        ¬ Attempted setting P call use.attempt := by
      rintro P call (rfl | rfl) ⟨_, _, _, hcall, -⟩ <;> cases hcall
    rw [entityCall, or_iff_left (hno _ _ (by simp)), SignatureTried]
    cases hspec : use.attempt.entity.spec with
    | some spec =>
      refine (or_iff_left ?_).symm
      rintro ⟨-, hnone⟩
      cases hnone
    | none =>
      exact (mem_entitySpecTry setting.context hn use.used).trans
        (or_congr_right (and_iff_left rfl).symm)
  | decode resources =>
    refine (mem_entityDecodeMark hn use.used).trans (or_congr_right (or_congr and_comm ?_))
    constructor
    · rintro ⟨k, entity, hundertaken, hread⟩
      exact ⟨resources, k, entity, rfl, hundertaken, hread⟩
    · rintro ⟨_, k, entity, hcall, hundertaken, hread⟩
      cases hcall
      exact ⟨k, entity, hundertaken, hread⟩
  | encode | link =>
    refine (or_iff_left ?_).symm
    rintro (⟨-, hno⟩ | ⟨_, _, _, hcall, -⟩)
    · exact hno
    · cases hcall

lemma inRun_cons {use : StringUse} {call : EntityCall} {calls : List EntityCall}
    {P : EntityCall → Attempt → Prop} : InRun setting readers use (call :: calls) P ↔
      P call use.attempt ∨ InRun setting readers (entityCall setting readers use call) calls P := by
  constructor
  · rintro ⟨before, other, after, hsplit, hholds⟩
    cases before with
    | nil =>
      cases hsplit
      exact .inl hholds
    | cons first before =>
      cases hsplit
      exact .inr ⟨before, other, after, rfl, hholds⟩
  · rintro (hholds | ⟨before, other, after, rfl, hholds⟩)
    · exact ⟨[], call, calls, rfl, hholds⟩
    · exact ⟨call :: before, other, after, rfl, hholds⟩

lemma mem_entityCalls {use : StringUse} (hn : IsString use.attempt.entity.strings.length n)
    (calls : List EntityCall) :
    n ∈ (entityCalls setting readers use calls).used ↔ n ∈ use.used ∨
      InRun setting readers use calls (fun call attempt => SignatureTried setting n call attempt ∨
        Attempted setting (fun k entity => FieldCarries setting n k entity ∨
          FunctionReads setting readers n k entity ∨ DerivationReads setting readers n k entity)
          call attempt) := by
  induction calls generalizing use with
  | nil =>
    refine (or_iff_left ?_).symm
    rintro ⟨before, _, _, hnil, -⟩
    simp at hnil
  | cons call calls ih =>
    have hnext : IsString (entityCall setting readers use call).attempt.entity.strings.length n := by
      rw [entityCall_strings]
      exact hn
    rw [inRun_cons, ← or_assoc, ← mem_entityCall hn]
    exact ih hnext

lemma inRun_or {use : StringUse} {calls : List EntityCall} {P Q : EntityCall → Attempt → Prop} :
    InRun setting readers use calls (fun call attempt => P call attempt ∨ Q call attempt) ↔
      InRun setting readers use calls P ∨ InRun setting readers use calls Q := by
  constructor
  · rintro ⟨before, call, after, hsplit, hp | hq⟩
    · exact .inl ⟨before, call, after, hsplit, hp⟩
    · exact .inr ⟨before, call, after, hsplit, hq⟩
  · rintro (⟨before, call, after, hsplit, hp⟩ | ⟨before, call, after, hsplit, hq⟩)
    · exact ⟨before, call, after, hsplit, .inl hp⟩
    · exact ⟨before, call, after, hsplit, .inr hq⟩

lemma attempted_or (P Q : ℕ → Entity → Prop) :
    Attempted setting (fun k entity => P k entity ∨ Q k entity) =
      fun call attempt => Attempted setting P call attempt ∨ Attempted setting Q call attempt := by
  funext call attempt
  refine propext ⟨?_, ?_⟩
  · rintro ⟨resources, k, entity, hcall, hundertaken, hp | hq⟩
    · exact .inl ⟨resources, k, entity, hcall, hundertaken, hp⟩
    · exact .inr ⟨resources, k, entity, hcall, hundertaken, hq⟩
  · rintro (⟨resources, k, entity, hcall, hundertaken, hp⟩ |
      ⟨resources, k, entity, hcall, hundertaken, hq⟩)
    · exact ⟨resources, k, entity, hcall, hundertaken, .inl hp⟩
    · exact ⟨resources, k, entity, hcall, hundertaken, .inr hq⟩

lemma mem_used_iff {entity : Entity} (hn : IsString entity.strings.length n)
    (calls : List EntityCall) :
    n ∈ (entityCalls setting readers (untouched entity) calls).used ↔
      InRun setting readers (untouched entity) calls (SignatureTried setting n) ∨
        InRun setting readers (untouched entity) calls (Attempted setting (FieldCarries setting n)) ∨
        InRun setting readers (untouched entity) calls
          (Attempted setting (FunctionReads setting readers n)) ∨
        InRun setting readers (untouched entity) calls
          (Attempted setting (DerivationReads setting readers n)) := by
  have hmarks : n ∈ (entityCalls setting readers (untouched entity) calls).used ↔
    n ∈ (untouched entity).used ∨ _ := mem_entityCalls hn calls
  rw [hmarks, inRun_or, attempted_or, inRun_or, attempted_or, inRun_or]
  exact or_iff_right List.not_mem_nil

def DecodedWhole (attempt : Attempt) : Prop :=
  attempt.isDecoded = true → attempt.info.isSome ∧ attempt.entity.spec.isSome

lemma entityDecode_whole (h : DecodedWhole attempt) :
    DecodedWhole (attempt.entityDecode setting resources).2 := by
  cases hd : attempt.isDecoded with
  | true =>
    rw [Attempt.entityDecode, hd]
    exact h
  | false =>
    cases hselect : entitySpecSelect setting.context attempt.entity with
    | none =>
      rw [entityDecode_unselected hd hselect]
      exact h
    | some k =>
      refine fun hdecoded => ⟨(entityDecode_result hd hselect).2 hdecoded, ?_⟩
      rw [entityDecode_spec hd hselect]
      rfl

lemma entityCalls_whole {use : StringUse} (h : DecodedWhole use.attempt)
    (calls : List EntityCall) :
    DecodedWhole (entityCalls setting readers use calls).attempt := by
  induction calls generalizing use with
  | nil => exact h
  | cons call calls ih =>
    apply ih
    cases call with
    | name | type =>
      rw [entityCall]
      cases use.attempt.entity.spec <;> exact h
    | decode resources => exact entityDecode_whole h
    | encode | link => exact h

lemma entityCalls_strings (use : StringUse) (calls : List EntityCall) :
    (entityCalls setting readers use calls).attempt.entity.strings = use.attempt.entity.strings := by
  induction calls generalizing use with
  | nil => rfl
  | cons call calls ih => exact (ih _).trans (entityCall_strings use call)

lemma stringReported_iff {lint : Lint} {use : StringUse} (h : DecodedWhole use.attempt)
    (hdecoded : use.attempt.isDecoded = true) :
    StringReported (lintStringUnreferenced lint use) n ↔
      IsString use.attempt.entity.strings.length n ∧ n ∉ use.used := by
  obtain ⟨hinfo, hspec⟩ := h hdecoded
  obtain ⟨info, hinfo⟩ := Option.isSome_iff_exists.mp hinfo
  obtain ⟨spec, hspec⟩ := Option.isSome_iff_exists.mp hspec
  rw [lintStringUnreferenced, hinfo, hspec]
  simp only [Option.isNone_some, Bool.or_false, Bool.false_eq_true, if_false]
  constructor
  · rintro ⟨issue, hm, harguments⟩
    obtain ⟨i, hi, rfl⟩ := List.mem_map.mp hm
    obtain ⟨hrange, hunused⟩ := List.mem_filter.mp hi
    obtain rfl : i + 1 = n := by
      simpa only [lintIssue, List.cons.injEq, LintArgument.number.injEq, and_true] using harguments
    refine ⟨⟨Nat.succ_pos i, List.mem_range.mp hrange⟩, ?_⟩
    simpa using hunused
  · rintro ⟨⟨hpos, hcount⟩, hunused⟩
    obtain ⟨i, rfl⟩ := Nat.exists_eq_succ_of_ne_zero hpos.ne'
    refine ⟨_, List.mem_map.mpr ⟨i, List.mem_filter.mpr ⟨List.mem_range.mpr hcount, ?_⟩, rfl⟩, rfl⟩
    simpa using hunused

end Account

/-- A string which no signature tried is about is reported exactly when nothing has read it: no
field carries the number of it, and no function decodes or derives anything from it. -/
theorem unreferenced_reported_iff (setting : DecodeSetting) (readers : StringReaders) (lint : Lint)
    (entity : Entity) (calls : List EntityCall) :
    let start := untouched entity
    let use := entityCalls setting readers start calls
    use.attempt.isDecoded = true → ∀ n,
      ¬ InRun setting readers start calls (SignatureTried setting n) →
      (StringReported (lintStringUnreferenced lint use) n ↔
        IsString entity.strings.length n ∧
          ¬ InRun setting readers start calls (Attempted setting (FieldCarries setting n)) ∧
          ¬ InRun setting readers start calls
            (Attempted setting (FunctionReads setting readers n)) ∧
          ¬ InRun setting readers start calls
            (Attempted setting (DerivationReads setting readers n))) := by
  intro start use hdecoded n htried
  have hwhole : DecodedWhole use.attempt :=
    entityCalls_whole (fun hnot => by cases hnot) calls
  have hstrings : use.attempt.entity.strings = entity.strings := entityCalls_strings start calls
  rw [stringReported_iff hwhole hdecoded, hstrings]
  refine and_congr_right fun hn => ?_
  rw [mem_used_iff hn, or_iff_right htried, not_or, not_or]

section Samples

def stringEntity (typeId : ℕ) (body : List Byte) (strings : List String) : Entity :=
  { (default : Entity) with
    typeId := typeId
    bodyLength := body.length
    buffer := ⟨0, body⟩
    strings := strings.map fun text => ⟨text.toUTF8.toList, 0, text.toUTF8.toList⟩ }

def countedStringsDerive (counter strings : ℕ) (entity : Entity) (memory : Memory) :
    Bool × Memory :=
  if memory.number counter = 0 then (true, memory)
  else (true, memory.setPointer strings (.elements (fun _ => 0) fun place =>
    if place % 8 = 0 ∧ place / 8 < (memory.number counter).toNat then
      .ref (entityString (entitySource entity 0) ((place / 8 + 1) % 256))
    else .ref .null))

def oemStrings : SpecDecoder :=
  ⟨⟨11, dmiVersion 2 0 0, 5, none⟩, none, some [⟨⟨0, 8⟩, .integer, { length := 1 }, []⟩],
    some (countedStringsDerive 0 8)⟩

def meiSignature : Signature := ⟨0, 4, some [1], 1, some "MEI1".toUTF8.toList, false⟩

def signedStructure : SpecDecoder := ⟨⟨221, 0, 6, some meiSignature⟩, none, none, none⟩

def vendorStructure : SpecDecoder :=
  ⟨⟨221, 0, 0, none⟩, none,
    some [⟨.null, .skip, { length := 1 }, []⟩, ⟨⟨0, 8⟩, .string, {}, []⟩], none⟩

def stringSetting : DecodeSetting where
  typeMap type :=
    if type = 11 then ⟨some 0, []⟩ else if type = 221 then ⟨some 2, [1]⟩ else ⟨none, []⟩
  specs n := if n = 0 then oemStrings else if n = 1 then signedStructure else vendorStructure
  version := dmiVersion 3 0 0
  overlays := []
  address := 0

def stringReaders : StringReaders where
  decode _ _ _ := []
  derive n := if n = 0 then .counted 0 else .nothing

def stringLint : Lint := ⟨sampleContext, ⟨0, []⟩, 0, registryCreate 0⟩

def vendorStrings : Entity := stringEntity 221 [221, 6, 0, 0, 2, 1] ["A", "B"]

theorem unreferenced_reported_iff_second :
    StringReported (lintStringUnreferenced stringLint (entityCalls stringSetting stringReaders
      (untouched vendorStrings) [.name, .decode ⟨true, true⟩, .encode, .link])) 2 := by
  have hn : IsString vendorStrings.strings.length 2 := ⟨by decide, by decide⟩
  have hunread := (@mem_used_iff stringSetting stringReaders 2 vendorStrings hn
    [.name, .decode ⟨true, true⟩, .encode, .link]).not.mp (by decide)
  rw [not_or, not_or, not_or] at hunread
  exact (unreferenced_reported_iff stringSetting stringReaders stringLint vendorStrings
    [.name, .decode ⟨true, true⟩, .encode, .link] (by decide) 2 hunread.1).mpr
      ⟨hn, hunread.2⟩

lemma notCarried {setting : DecodeSetting} {readers : StringReaders} {resources : Resources}
    {entity : Entity} {n k : ℕ} (hn : IsString entity.strings.length n)
    (hselect : entitySpecSelect setting.context (untouched entity).attempt.entity = some k)
    (hmark : n ∉ decoderMark setting readers k
      { withCopy setting (untouched entity).attempt.entity with spec := some k } []) :
    ¬ InRun setting readers (untouched entity) [.decode resources]
      (Attempted setting (FieldCarries setting n)) := by
  rw [inRun_cons]
  rintro (⟨_, k', other, -, hundertaken, hcarries⟩ | ⟨before, _, _, hnil, -⟩)
  · obtain rfl := Option.some.inj (hselect.symm.trans hundertaken.selected)
    obtain ⟨decode, hdecode⟩ := Option.ne_none_iff_exists'.mp hundertaken.decodes
    rw [← hundertaken.bytes] at hmark
    refine hmark ((mem_decoderMark ?_ hdecode []).mpr (.inr (.inl hcarries)))
    rw [hundertaken.bytes, withCopy_strings]
    exact hn
  · simp at hnil

theorem oem_string_is_not_reported :
    let entity := stringEntity 11 [11, 5, 0, 0, 1] ["A"]
    let use := entityCalls stringSetting stringReaders (untouched entity) [.decode ⟨true, true⟩]
    use.attempt.isDecoded = true ∧ IsString entity.strings.length 1 ∧
      ¬ InRun stringSetting stringReaders (untouched entity) [.decode ⟨true, true⟩]
        (Attempted stringSetting (FieldCarries stringSetting 1)) ∧
      ¬ StringReported (lintStringUnreferenced stringLint use) 1 := by
  have hn : IsString (stringEntity 11 [11, 5, 0, 0, 1] ["A"]).strings.length 1 :=
    ⟨by decide, by decide⟩
  have hsilent : lintStringUnreferenced stringLint (entityCalls stringSetting stringReaders
      (untouched (stringEntity 11 [11, 5, 0, 0, 1] ["A"])) [.decode ⟨true, true⟩]) = [] := by
    decide
  refine ⟨by decide, hn, notCarried hn (k := 0) (by decide) (by decide), ?_⟩
  rintro ⟨issue, hm, -⟩
  rw [hsilent] at hm
  cases hm

theorem tried_string_is_not_reported :
    let entity := stringEntity 221 [221, 6, 0, 0, 1, 0] ["A"]
    let use := entityCalls stringSetting stringReaders (untouched entity) [.decode ⟨true, true⟩]
    use.attempt.isDecoded = true ∧ use.attempt.entity.spec = some 2 ∧
      ¬ InRun stringSetting stringReaders (untouched entity) [.decode ⟨true, true⟩]
        (Attempted stringSetting (FieldCarries stringSetting 1)) ∧
      ¬ StringReported (lintStringUnreferenced stringLint use) 1 := by
  have hn : IsString (stringEntity 221 [221, 6, 0, 0, 1, 0] ["A"]).strings.length 1 :=
    ⟨by decide, by decide⟩
  have hsilent : lintStringUnreferenced stringLint (entityCalls stringSetting stringReaders
      (untouched (stringEntity 221 [221, 6, 0, 0, 1, 0] ["A"])) [.decode ⟨true, true⟩]) = [] := by
    decide +kernel
  refine ⟨by decide +kernel, by decide +kernel,
    notCarried hn (k := 2) (by decide +kernel) (by decide +kernel), ?_⟩
  rintro ⟨issue, hm, -⟩
  rw [hsilent] at hm
  cases hm

end Samples

end OpenDmi

import OpenDmi.DecodeKeeps
import OpenDmi.PartFlags

/-! The decoder on a structure whose data ends early: fields which are all there are read as they are
in the whole structure, and the one the data ends inside of is not. -/

namespace OpenDmi

open Bytes

variable {source : Source} {cut length number base : ℕ} {field : Field} {fields : List Field}
  {value raw : Option ℕ} {state next : DecodeState} {choices choices' : List Choice}

def truncated (source : Source) (cut : ℕ) : Source := { source with body := source.body.take cut }

lemma truncated_length (hcut : cut ≤ source.body.length) :
    (truncated source cut).body.length = cut := by
  simp [truncated, hcut]

lemma readerGet_here {bytes : List Byte} (hcut : cut ≤ source.body.length)
    (h : readerGet source length state = some (bytes, next)) (hin : next.position ≤ cut) :
    readerGet (truncated source cut) length state = some (bytes, next) := by
  obtain ⟨-, rfl, rfl⟩ := readerGet_some h
  rw [readerGet, truncated_length hcut, if_pos hin, truncated, window_take hin]

lemma readerGet_cut (hcut : cut ≤ source.body.length) (h : cut < state.position + length) :
    readerGet (truncated source cut) length state = none := by
  rw [readerGet, truncated_length hcut, if_neg (by omega)]

lemma readNumber_here (hcut : cut ≤ source.body.length)
    (h : readNumber source length state = some (number, next)) (hin : next.position ≤ cut) :
    readNumber (truncated source cut) length state = some (number, next) := by
  obtain ⟨hlen, hmap⟩ := Option.ite_none_left_eq_some.mp h
  obtain ⟨⟨bytes, middle⟩, hget, heq⟩ := Option.map_eq_some_iff.mp hmap
  cases heq
  rw [readNumber, if_neg hlen, readerGet_here hcut hget hin]
  rfl

lemma readNumber_cut (hcut : cut ≤ source.body.length) (h : cut < state.position + length) :
    readNumber (truncated source cut) length state = none := by
  rw [readNumber, readerGet_cut hcut h]
  split_ifs <;> rfl

lemma applyTo_position {data : FieldData}
    (h : applyTo field data value state = (true, next)) : next.position = state.position := by
  obtain ⟨memory, -, rfl⟩ := applyTo_true h
  rfl

/-- Binaries whose length a field before carries are read as far as they are there. -/
def Field.IsMeasured (field : Field) : Prop :=
  field.type = .binary ∧ field.params.length = lengthMember

instance (field : Field) : Decidable field.IsMeasured := inferInstanceAs (Decidable (_ ∧ _))

/-- What the elements of an array hold: a binary which takes what is left has no end of its own. -/
def Field.IsHeld (field : Field) : Prop :=
  field.type = .integer ∨ field.type = .string ∨ field.type = .struct ∨
    field.type = .binary ∧ field.params.length ≠ lengthRest

def Field.IsLeaf (field : Field) : Prop := field.IsHeld ∧ field.type ≠ .struct

lemma Field.IsLeaf.cases (h : field.IsLeaf) : field.type = .integer ∨ field.type = .string ∨
    field.type = .binary ∧ field.params.length ≠ lengthRest := by
  obtain ⟨h | h | h | h, hs⟩ := h
  · exact .inl h
  · exact .inr (.inl h)
  · exact absurd h hs
  · exact .inr (.inr h)

lemma Field.IsHeld.hasData (h : field.IsHeld) : HasData field := by
  rcases h with h | h | h | ⟨h, -⟩ <;> simp [HasData, h]

lemma Field.IsLeaf.isValue (h : field.IsLeaf) : IsValue field := by
  rcases h.cases with h | h | ⟨h, -⟩
  · exact .inl h
  · exact .inr (.inl h)
  · exact .inr (.inr (.inr (.inl h)))

lemma readBinary_here {binary : Binary} (hcut : cut ≤ source.body.length)
    (hl : field.params.length ≠ lengthRest)
    (h : readBinary source field value state = (some binary, next)) (hin : next.position ≤ cut) :
    readBinary (truncated source cut) field value state = (some binary, next) := by
  have hlength : binaryLength (truncated source cut) field value state =
      binaryLength source field value state := by
    simp [binaryLength, hl]
  obtain ⟨length, hlen, hfits, hbinary, rfl⟩ := readBinary_some h
  simp only at hin
  have hfit : ¬ (field.params.length = lengthMember ∧
      length > readerRemaining (truncated source cut) state) := by
    rw [readerRemaining, truncated_length hcut]
    omega
  have hget : readerGet source length state = some (window source.body state.position length,
      { state with position := state.position + length }) := by
    rw [readerGet, if_pos hfits]
  simp only [readBinary, hlength, ← hlen, if_neg hfit, decoderGetBinary,
    readerGet_here hcut hget hin, Option.map_some, hbinary]
  rfl

lemma readBinary_cut {binary : Binary} (hcut : cut ≤ source.body.length)
    (hl : field.params.length ≠ lengthRest) (hon : state.position ≤ cut)
    (h : readBinary source field value state = (some binary, next)) (hout : cut < next.position) :
    ∃ last, readBinary (truncated source cut) field value state = (none, last) ∧
      (field.params.length = lengthMember → last.incomplete = true) ∧
      (field.params.length ≠ lengthMember → last = state) := by
  have hlength : binaryLength (truncated source cut) field value state =
      binaryLength source field value state := by
    simp [binaryLength, hl]
  obtain ⟨length, hlen, hfits, -, rfl⟩ := readBinary_some h
  simp only at hout
  simp only [readBinary, hlength, ← hlen]
  by_cases hm : field.params.length = lengthMember
  · have hshort : length > readerRemaining (truncated source cut) state := by
      rw [readerRemaining, truncated_length hcut]
      omega
    rw [if_pos ⟨hm, hshort⟩]
    cases decoderGetBinary (truncated source cut)
      (readerRemaining (truncated source cut) state) state with
    | none => exact ⟨_, rfl, fun _ => rfl, fun hn => absurd hm hn⟩
    | some result => exact ⟨_, rfl, fun _ => rfl, fun hn => absurd hm hn⟩
  · rw [if_neg fun hn => hm hn.1, decoderGetBinary, readerGet_cut hcut hout]
    exact ⟨_, rfl, fun hn => absurd hn hm, fun _ => rfl⟩

lemma decodeValue_here (hcut : cut ≤ source.body.length) (hf : field.IsLeaf)
    (h : decodeValue source field value state = (true, raw, next)) (hin : next.position ≤ cut) :
    decodeValue (truncated source cut) field value state = (true, raw, next) := by
  rcases hf.cases with ht | ht | ⟨ht, hl⟩ <;> simp only [decodeValue, ht] at h ⊢
  · cases hr : readNumber source field.params.length state with
    | none => simp [hr] at h
    | some result =>
      obtain ⟨number, middle⟩ := result
      simp only [hr, Prod.mk.injEq] at h
      have hposition := applyTo_position (Prod.ext h.1 h.2.2)
      rw [readNumber_here hcut hr (by omega)]
      simp only [h.1, h.2.1, h.2.2]
  · cases hr : readerGet source 1 state with
    | none => simp [hr] at h
    | some result =>
      obtain ⟨bytes, middle⟩ := result
      simp only [hr, Prod.mk.injEq] at h
      have hposition := applyTo_position (Prod.ext h.1 h.2.2)
      rw [readerGet_here hcut hr (by omega)]
      refine Prod.ext h.1 (Prod.ext h.2.1 h.2.2)
  · cases hr : readBinary source field value state with
    | mk binary middle =>
      cases binary with
      | none => simp [hr] at h
      | some binary =>
        simp only [hr, Prod.mk.injEq] at h
        have hposition := applyTo_position (Prod.ext h.1 h.2.2)
        rw [readBinary_here hcut hl hr (by omega)]
        simp only [h.1, h.2.1, h.2.2]

lemma decodeValue_cut (hcut : cut ≤ source.body.length) (hf : field.IsLeaf)
    (hon : state.position ≤ cut)
    (h : decodeValue source field value state = (true, raw, next)) (hout : cut < next.position) :
    ∃ last, decodeValue (truncated source cut) field value state = (false, none, last) ∧
      (field.IsMeasured → last.incomplete = true) ∧ (¬ field.IsMeasured → last = state) := by
  rcases hf.cases with ht | ht | ⟨ht, hl⟩ <;> simp only [decodeValue, ht] at h ⊢
  · have hn : ¬ field.IsMeasured := by simp [Field.IsMeasured, ht]
    cases hr : readNumber source field.params.length state with
    | none => simp [hr] at h
    | some result =>
      obtain ⟨number, middle⟩ := result
      simp only [hr, Prod.mk.injEq] at h
      have hposition := applyTo_position (Prod.ext h.1 h.2.2)
      obtain ⟨-, -, -, -, rfl⟩ := readNumber_some hr
      rw [readNumber_cut hcut (by rwa [hposition] at hout)]
      exact ⟨state, rfl, fun hm => absurd hm hn, fun _ => rfl⟩
  · have hn : ¬ field.IsMeasured := by simp [Field.IsMeasured, ht]
    cases hr : readerGet source 1 state with
    | none => simp [hr] at h
    | some result =>
      obtain ⟨bytes, middle⟩ := result
      simp only [hr, Prod.mk.injEq] at h
      have hposition := applyTo_position (Prod.ext h.1 h.2.2)
      obtain ⟨-, -, rfl⟩ := readerGet_some hr
      rw [readerGet_cut hcut (by rwa [hposition] at hout)]
      exact ⟨state, rfl, fun hm => absurd hm hn, fun _ => rfl⟩
  · cases hr : readBinary source field value state with
    | mk binary middle =>
      cases binary with
      | none => simp [hr] at h
      | some binary =>
        simp only [hr, Prod.mk.injEq] at h
        have hposition := applyTo_position (Prod.ext h.1 h.2.2)
        obtain ⟨last, hlast, hmember, hother⟩ :=
          readBinary_cut hcut hl hon hr (by omega)
        rw [hlast]
        exact ⟨last, rfl, fun hm => hmember hm.2, fun hm => hother fun hlen => hm ⟨ht, hlen⟩⟩

lemma decodeExtended_value {choice : Option Choice}
    (h : decodeExtended source field value choice state = (true, next)) :
    ∃ raw middle, decodeValue source field none state = (true, raw, middle) ∧
      ∃ memory, next = { middle with memory := memory } := by
  rw [decodeExtended] at h
  cases hr : decodeValue source field none state with
  | mk ok result =>
    obtain ⟨raw, middle⟩ := result
    cases ok with
    | false => simp [hr] at h
    | true =>
      refine ⟨raw, middle, rfl, ?_⟩
      simp only [hr] at h
      cases choice with
      | none =>
        cases h
        exact ⟨_, rfl⟩
      | some choice =>
        simp only at h
        split_ifs at h
        · cases h
          exact ⟨_, rfl⟩
        · obtain ⟨memory, -, hnext⟩ := applyTo_true h
          exact ⟨memory, hnext⟩

lemma decodePlain_here (hcut : cut ≤ source.body.length) (hf : field.IsLeaf)
    (h : decodePlain source base field choices state = (true, choices', next))
    (hin : next.position ≤ cut) :
    decodePlain (truncated source cut) base field choices state = (true, choices', next) := by
  rw [decodePlain] at h ⊢
  split_ifs at h ⊢ with hext
  · simp only [Prod.mk.injEq] at h
    have hread : decodeExtended source field (fieldValue base field)
        (choiceFind choices (fieldWhenOffset field)) state = (true, next) := Prod.ext h.1 h.2.2
    obtain ⟨raw, middle, hvalue, memory, hnext⟩ := decodeExtended_value hread
    have hhere := decodeValue_here hcut hf hvalue (by rwa [hnext] at hin)
    have hsame : decodeExtended (truncated source cut) field (fieldValue base field)
        (choiceFind choices (fieldWhenOffset field)) state = (true, next) := by
      rw [← hread, decodeExtended, decodeExtended, hhere, hvalue]
    rw [hsame, h.2.1]
  · cases hr : decodeValue source field (fieldValue base field) state with
    | mk ok result =>
      obtain ⟨raw, middle⟩ := result
      have hfound : ok = true ∧ middle = next := by
        rw [hr] at h
        cases raw <;> simp only [Prod.mk.injEq] at h <;> exact ⟨h.1, h.2.2⟩
      obtain ⟨rfl, rfl⟩ := hfound
      rw [decodeValue_here hcut hf hr hin, ← h, hr]

lemma decodePlain_cut (hcut : cut ≤ source.body.length) (hf : field.IsLeaf)
    (hon : state.position ≤ cut)
    (h : decodePlain source base field choices state = (true, choices', next))
    (hout : cut < next.position) :
    ∃ last, decodePlain (truncated source cut) base field choices state = (false, choices, last) ∧
      (field.IsMeasured → last.incomplete = true) ∧ (¬ field.IsMeasured → last = state) := by
  rw [decodePlain] at h ⊢
  split_ifs at h ⊢ with hext
  · simp only [Prod.mk.injEq] at h
    have hread : decodeExtended source field (fieldValue base field)
        (choiceFind choices (fieldWhenOffset field)) state = (true, next) := Prod.ext h.1 h.2.2
    obtain ⟨raw, middle, hvalue, memory, rfl⟩ := decodeExtended_value hread
    obtain ⟨last, hlast, hends⟩ := decodeValue_cut hcut hf hon hvalue hout
    rw [decodeExtended, hlast]
    exact ⟨last, rfl, hends⟩
  · cases hr : decodeValue source field (fieldValue base field) state with
    | mk ok result =>
      obtain ⟨raw, middle⟩ := result
      have hfound : ok = true ∧ middle = next := by
        rw [hr] at h
        cases raw <;> simp only [Prod.mk.injEq] at h <;> exact ⟨h.1, h.2.2⟩
      obtain ⟨rfl, rfl⟩ := hfound
      obtain ⟨last, hlast, hends⟩ := decodeValue_cut hcut hf hon hr hout
      rw [hlast]
      exact ⟨last, rfl, hends⟩

lemma applyTo_incomplete (data : FieldData) :
    (applyTo field data value state).2.incomplete = state.incomplete := by
  cases value with
  | none => rfl
  | some base =>
    rw [applyTo]
    cases fieldApply field data <;> rfl

lemma readBinary_incomplete (source : Source) (field : Field) (value : Option ℕ)
    (hs : state.incomplete = true) :
    (readBinary source field value state).2.incomplete = true := by
  simp only [readBinary]
  split_ifs
  · cases decoderGetBinary source (readerRemaining source state) state <;> rfl
  · cases hg : decoderGetBinary source (binaryLength source field value state) state with
    | none => exact hs
    | some result =>
      obtain ⟨binary, middle⟩ := result
      obtain ⟨-, -, rfl⟩ := decoderGetBinary_some hg
      exact hs

lemma decodeValue_incomplete (source : Source) (value : Option ℕ) (hf : field.IsLeaf)
    (hs : state.incomplete = true) :
    (decodeValue source field value state).2.2.incomplete = true := by
  rcases hf.cases with ht | ht | ⟨ht, -⟩ <;> simp only [decodeValue, ht]
  · cases hr : readNumber source field.params.length state with
    | none => exact hs
    | some result =>
      obtain ⟨number, middle⟩ := result
      obtain ⟨-, -, -, -, rfl⟩ := readNumber_some hr
      exact (applyTo_incomplete _).trans hs
  · cases hr : readerGet source 1 state with
    | none => exact hs
    | some result =>
      obtain ⟨bytes, middle⟩ := result
      obtain ⟨-, -, rfl⟩ := readerGet_some hr
      exact (applyTo_incomplete _).trans hs
  · have hread := readBinary_incomplete source field value hs
    cases hr : readBinary source field value state with
    | mk binary middle =>
      rw [hr] at hread
      cases binary with
      | none => exact hread
      | some binary => exact (applyTo_incomplete _).trans hread

lemma decodePlain_incomplete (hf : field.IsLeaf) (hs : state.incomplete = true) :
    (decodePlain source base field choices state).2.2.incomplete = true := by
  rw [decodePlain]
  split_ifs with hext
  · have hread := decodeValue_incomplete source none hf hs
    rw [decodeExtended]
    cases hr : decodeValue source field none state with
    | mk ok result =>
      obtain ⟨raw, middle⟩ := result
      rw [hr] at hread
      cases ok with
      | false => exact hread
      | true =>
        cases choiceFind choices (fieldWhenOffset field) with
        | none => exact hread
        | some choice =>
          simp only
          split_ifs
          · exact hread
          · exact (applyTo_incomplete _).trans hread
  · have hread := decodeValue_incomplete source (fieldValue base field) hf hs
    cases hr : decodeValue source field (fieldValue base field) state with
    | mk ok result =>
      obtain ⟨raw, middle⟩ := result
      rw [hr] at hread
      cases raw <;> exact hread

lemma decodeOne_leaf (hf : field.IsLeaf) : decodeOne source base field choices state =
    decodePlain source base field choices state := by
  rw [decodeOne_eq]
  rcases hf.cases with ht | ht | ⟨ht, -⟩ <;> simp only [ht]

lemma decodeOne_struct (ht : field.type = .struct) : decodeOne source base field choices state =
    ((nested (decodeList source (base + field.member.offset) field.fields) state).1, choices,
      (nested (decodeList source (base + field.member.offset) field.fields) state).2) := by
  rw [decodeOne_eq]
  simp only [ht]

lemma nested_eq (decode : DecodeState → Bool × DecodeState) (state : DecodeState) :
    nested decode state = ((decode { state with optional := false }).1,
      { (decode { state with optional := false }).2 with optional := state.optional }) := rfl

lemma decodeFields_incomplete (hd : ∀ f ∈ fields, HasData f)
    (hone : ∀ f ∈ fields, ∀ base choices s, s.incomplete = true →
      (decodeOne source base f choices s).2.2.incomplete = true) (hs : state.incomplete = true) :
    (decodeFields source base fields choices none state).1 = true ∧
      (decodeFields source base fields choices none state).2.incomplete = true := by
  induction fields generalizing choices state with
  | nil =>
    rw [decodeFields]
    exact ⟨rfl, hs⟩
  | cons field rest ih =>
    have hrest : ∀ {choices state}, state.incomplete = true →
        (decodeFields source base rest choices none state).1 = true ∧
          (decodeFields source base rest choices none state).2.incomplete = true :=
      fun hs => ih (fun f hm => hd f (List.mem_cons_of_mem _ hm))
        (fun f hm => hone f (List.mem_cons_of_mem _ hm)) hs
    rw [decodeFields_data (hd field List.mem_cons_self)]
    split_ifs
    · exact hrest hs
    · have hnext := hone field List.mem_cons_self base choices state hs
      cases hr : decodeOne source base field choices state with
      | mk ok result =>
        rw [hr] at hnext
        cases ok with
        | false =>
          simp only at hnext ⊢
          rw [if_pos (by simp [hnext]), decoderIncomplete]
          split_ifs <;> exact ⟨rfl, hnext⟩
        | true => exact hrest hnext

lemma decodeFields_short (hd : ∀ f ∈ fields, HasData f)
    (h : (decodeFields source base fields choices none state).2.incomplete = true) :
    (decodeFields source base fields choices none state).1 = true := by
  induction fields generalizing choices state with
  | nil =>
    rw [decodeFields]
    rfl
  | cons field rest ih =>
    have hrest := fun f hm => hd f (List.mem_cons_of_mem _ hm)
    rw [decodeFields_data (hd field List.mem_cons_self)] at h ⊢
    by_cases hdefined : fieldIsDefined field source.version = false
    · rw [if_pos hdefined] at h ⊢
      exact ih hrest h
    · rw [if_neg hdefined] at h ⊢
      cases hr : decodeOne source base field choices state with
      | mk ok result =>
        obtain ⟨choices', last⟩ := result
        rw [hr] at h
        cases ok with
        | true => exact ih hrest h
        | false =>
          simp only at h ⊢
          by_cases hshort : (last.optional || last.incomplete) = true
          · rw [if_pos hshort, decoderIncomplete]
            split_ifs <;> rfl
          · rw [if_neg hshort] at h
            have hlast : last.incomplete = true := h
            simp [hlast] at hshort

lemma decodeOne_incomplete (hf : FieldTree Field.IsHeld field) (hs : state.incomplete = true) :
    (decodeOne source base field choices state).2.2.incomplete = true := by
  induction hf generalizing base choices state with
  | @intro field hfield hfields ih =>
    by_cases ht : field.type = .struct
    · rw [decodeOne_struct ht, nested_eq]
      simp only [decodeList]
      refine (decodeFields_incomplete (fun f hm => (hfields f hm).holds.hasData)
        (fun f hm base choices s hs => ih f hm hs) ?_).2
      exact hs
    · rw [decodeOne_leaf ⟨hfield, ht⟩]
      exact decodePlain_incomplete ⟨hfield, ht⟩ hs

mutual

def listCut (source : Source) (cut base : ℕ) : List Field → List Choice → DecodeState →
    Option (Field × ℕ)
  | [], _, _ => none
  | field :: rest, choices, state =>
    let read := decodeOne source base field choices state
    if cut < read.2.2.position then fieldCut source cut base field state
    else listCut source cut base rest read.2.1
      { read.2.2 with defined := max read.2.2.defined field.params.from }

def fieldCut (source : Source) (cut base : ℕ) : Field → DecodeState → Option (Field × ℕ)
  | ⟨member, type, params, fields⟩, state =>
    if type = .struct then
      listCut source cut (base + member.offset) fields (choicesCollect fields [])
        { state with
          optional := false
          memory := presetAll (base + member.offset) fields state.memory }
    else some (⟨member, type, params, fields⟩, state.position)

end

lemma fieldCut_struct (ht : field.type = .struct) : fieldCut source cut base field state =
    listCut source cut (base + field.member.offset) field.fields (choicesCollect field.fields [])
      { state with
        optional := false
        memory := presetAll (base + field.member.offset) field.fields state.memory } := by
  obtain ⟨member, type, params, fields⟩ := field
  exact if_pos ht

lemma fieldCut_leaf (ht : field.type ≠ .struct) :
    fieldCut source cut base field state = some (field, state.position) := by
  obtain ⟨member, type, params, fields⟩ := field
  exact if_neg ht

def Stuck (base size position : ℕ) (state last : DecodeState) : Prop :=
  ∃ defined memory, last = { state with
      position := position, defined := defined, memory := memory } ∧
    ∀ offset, Beyond base size offset → SameAt memory state.memory offset

def EndsInside (base size : ℕ) (found : Option (Field × ℕ)) (state : DecodeState) (ok : Bool)
    (last : DecodeState) : Prop :=
  ∃ field position, found = some (field, position) ∧
    (field.IsMeasured → last.incomplete = true) ∧
    (¬ field.IsMeasured → ok = false ∧ Stuck base size position state last)

lemma EndsInside.trans {size : ℕ} {found : Option (Field × ℕ)} {ok : Bool} {last : DecodeState}
    {defined : ℕ} {memory : Memory} (h : EndsInside base size found next ok last)
    (hnext : next = { state with position := next.position, defined := defined, memory := memory })
    (hkeep : ∀ offset, Beyond base size offset → SameAt memory state.memory offset) :
    EndsInside base size found state ok last := by
  obtain ⟨field, position, hfound, hmeasured, hother⟩ := h
  refine ⟨field, position, hfound, hmeasured, fun hm => ?_⟩
  obtain ⟨hok, d, m, hlast, hsame⟩ := hother hm
  refine ⟨hok, d, m, ?_, fun offset ho => (hsame offset ho).trans ?_⟩
  · rw [hlast, hnext]
  · rw [hnext]
    exact hkeep offset ho

lemma decoderIncomplete_kept (hs : state.isIncomplete = true) :
    (decoderIncomplete source state).2.isIncomplete = true := by
  rw [decoderIncomplete]
  split_ifs
  · exact hs
  · rfl

lemma complete_invariant (source : Source) :
    DecodeInvariant source (fun _ => True) (fun state => state.isIncomplete = true) where
  read _ _ hs _ := hs
  bits _ _ _ _ hs := hs
  control _ _ _ _ _ hs := hs
  incomplete _ hs := decoderIncomplete_kept hs
  stop s hs := by
    rw [decoderStop]
    split_ifs
    · exact hs
    · exact hs
    · exact decoderIncomplete_kept hs
  number _ _ _ hs := hs
  apply _ _ _ _ _ hs _ _ _ := hs
  binary _ _ _ _ _ hs _ _ _ := hs
  preset _ _ _ _ hs _ _ := hs
  enter _ hs := hs
  leave _ _ _ _ ht := ht
  rewind _ _ _ _ ht _ := ht

lemma position_invariant (source : Source) (start : ℕ) :
    DecodeInvariant source (fun _ => True) (fun state => start ≤ state.position) where
  read _ _ hs _ := by
    simp only
    omega
  bits _ _ _ _ hs := hs
  control _ _ _ _ _ hs := hs
  incomplete s hs := by
    rw [decoderIncomplete]
    split_ifs <;> exact hs
  stop s hs := by
    rw [decoderStop, decoderIncomplete]
    split_ifs <;> exact hs
  number _ _ _ hs := hs
  apply _ _ _ _ _ hs _ _ _ := hs
  binary _ _ _ _ _ hs _ _ _ := by
    simp only
    omega
  preset _ _ _ _ hs _ _ := hs
  enter _ hs := hs
  leave _ _ _ _ ht := ht
  rewind _ _ _ hs _ _ := by
    simp only
    omega

lemma bound_invariant {stop : ℕ} (hstop : source.body.length ≤ stop) :
    DecodeInvariant source (fun _ => True) (fun state => state.position ≤ stop) where
  read _ _ _ hn := hn.trans hstop
  bits _ _ _ _ hs := hs
  control _ _ _ _ _ hs := hs
  incomplete s hs := by
    rw [decoderIncomplete]
    split_ifs <;> exact hs
  stop s hs := by
    rw [decoderStop, decoderIncomplete]
    split_ifs <;> exact hs
  number _ _ _ hs := hs
  apply _ _ _ _ _ hs _ _ _ := hs
  binary _ _ _ _ _ _ _ hn _ := hn.trans hstop
  preset _ _ _ _ hs _ _ := hs
  enter _ hs := hs
  leave _ _ _ _ ht := ht
  rewind _ _ _ _ _ hn := hn.trans hstop

lemma decodeFields_position (source : Source) (base : ℕ) (fields : List Field)
    (choices : List Choice) (group : Option Field) (state : DecodeState) :
    state.position ≤ (decodeFields source base fields choices group state).2.position :=
  (position_invariant source state.position).decodeFields
    (fun f _ _ _ _ hs => (position_invariant source state.position).decodeOne
      (fieldTree_trivial f) hs) le_rfl

lemma decodeFields_complete {group : Option Field} {ok : Bool}
    (h : decodeFields source base fields choices group state = (ok, next))
    (hc : next.isIncomplete = false) : state.isIncomplete = false := by
  by_contra hs
  have hflag : (decodeFields source base fields choices group state).2.isIncomplete = true :=
    (complete_invariant source).decodeFields
      (fun f _ _ _ _ hs => (complete_invariant source).decodeOne (fieldTree_trivial f) hs)
      (by simpa using hs)
  rw [h, hc] at hflag
  cases hflag

def Advanced (state next : DecodeState) : Prop :=
  ∃ position defined memory,
    next = { state with position := position, defined := defined, memory := memory }

lemma Advanced.trans {defined : ℕ} {final : DecodeState} (h : Advanced state next)
    (h' : Advanced { next with defined := defined } final) : Advanced state final := by
  obtain ⟨p, d, m, rfl⟩ := h
  obtain ⟨p', d', m', rfl⟩ := h'
  exact ⟨p', d', m', rfl⟩

lemma applyTo_advanced {data : FieldData} {position : ℕ}
    (h : applyTo field data value { state with position := position } = (true, next)) :
    Advanced state next := by
  obtain ⟨memory, -, rfl⟩ := applyTo_true h
  exact ⟨_, _, memory, rfl⟩

lemma decodeValue_advanced (hf : field.IsLeaf)
    (h : decodeValue source field value state = (true, raw, next)) : Advanced state next := by
  rcases hf.cases with ht | ht | ⟨ht, -⟩
  · obtain ⟨number, -, -, -, -, -, happly⟩ := decodeValue_integer ht h
    exact applyTo_advanced happly
  · obtain ⟨number, -, -, -, happly⟩ := decodeValue_string ht h
    exact applyTo_advanced happly
  · obtain ⟨length, -, -, -, happly⟩ := decodeValue_binary ht h
    exact applyTo_advanced happly

lemma decodePlain_advanced (hf : field.IsLeaf)
    (h : decodePlain source base field choices state = (true, choices', next)) :
    Advanced state next := by
  rw [decodePlain] at h
  split_ifs at h
  · simp only [Prod.mk.injEq] at h
    obtain ⟨raw, middle, hvalue, hlast⟩ := decodeExtended_value (Prod.ext h.1 h.2.2)
    obtain ⟨p, d, m, rfl⟩ := decodeValue_advanced hf hvalue
    obtain ⟨m', rfl⟩ := hlast
    exact ⟨p, d, m', rfl⟩
  · cases hr : decodeValue source field (fieldValue base field) state with
    | mk ok result =>
      obtain ⟨raw, middle⟩ := result
      have hfound : ok = true ∧ middle = next := by
        rw [hr] at h
        cases raw <;> simp only [Prod.mk.injEq] at h <;> exact ⟨h.1, h.2.2⟩
      obtain ⟨rfl, rfl⟩ := hfound
      exact decodeValue_advanced hf hr

lemma fields_advanced (hp : source.isPart = false) (hd : ∀ f ∈ fields, HasData f)
    (hone : ∀ f ∈ fields, ∀ base choices choices' s t,
      decodeOne source base f choices s = (true, choices', t) → t.isIncomplete = false →
      Advanced s t)
    (h : decodeFields source base fields choices none state = (true, next))
    (hc : next.isIncomplete = false) : Advanced state next := by
  induction fields generalizing choices state with
  | nil =>
    rw [decodeFields] at h
    cases h
    exact ⟨_, _, _, rfl⟩
  | cons field rest ih =>
    have hrest : ∀ {choices state},
        decodeFields source base rest choices none state = (true, next) → Advanced state next :=
      fun h => ih (fun f hm => hd f (List.mem_cons_of_mem _ hm))
        (fun f hm => hone f (List.mem_cons_of_mem _ hm)) h
    rw [decodeFields_data (hd field List.mem_cons_self)] at h
    split_ifs at h
    · exact hrest h
    · cases hr : decodeOne source base field choices state with
      | mk ok result =>
        obtain ⟨choices', middle⟩ := result
        cases ok with
        | false =>
          simp only [hr] at h
          split_ifs at h
          · have hflag := decoderIncomplete_flag hp middle
            rw [h, hc] at hflag
            cases hflag
          · cases h
        | true =>
          simp only [hr] at h
          have hflag := decodeFields_complete h hc
          exact (hone field List.mem_cons_self _ _ _ _ _ hr hflag).trans (hrest h)

lemma one_advanced (hp : source.isPart = false) (hf : FieldTree Field.IsHeld field)
    (h : decodeOne source base field choices state = (true, choices', next))
    (hc : next.isIncomplete = false) : Advanced state next := by
  induction hf generalizing base choices choices' state next with
  | @intro field hfield hfields ih =>
    by_cases ht : field.type = .struct
    · rw [decodeOne_struct ht] at h
      simp only [Prod.mk.injEq] at h
      obtain ⟨hok, rfl, hnext⟩ := h
      obtain ⟨middle, hread, hmiddle⟩ := nested_true (Prod.ext hok hnext)
      subst hmiddle
      obtain ⟨p, d, m, rfl⟩ := fields_advanced hp (fun f hm => (hfields f hm).holds.hasData)
        (fun f hm base choices choices' s t h hc => ih f hm h hc) hread hc
      exact ⟨p, d, m, rfl⟩
    · rw [decodeOne_leaf ⟨hfield, ht⟩] at h
      exact decodePlain_advanced ⟨hfield, ht⟩ h

/-- A list of fields, read as a block of a size, is read where the data ends as the decoder says:
in full when all of it is there, up to the field the data ends inside of otherwise. -/
def ListCut (source : Source) (cut size : ℕ) (fields : List Field) : Prop :=
  ∀ base state next, state.position ≤ cut → state.optional = false → state.incomplete = false →
    decodeList source base fields state = (true, next) → next.isIncomplete = false →
    (next.position ≤ cut → decodeList (truncated source cut) base fields state = (true, next)) ∧
    (cut < next.position → EndsInside base size
      (listCut source cut base fields (choicesCollect fields [])
        { state with memory := presetAll base fields state.memory }) state
      (decodeList (truncated source cut) base fields state).1
      (decodeList (truncated source cut) base fields state).2)

structure CutOk (source : Source) (cut size : ℕ) (field : Field) : Prop where
  held : FieldTree Field.IsHeld field
  frame : FrameOk source field
  inside : ∀ m ∈ field.members source.version, m.offset + m.size ≤ size
  nested : field.type = .struct → ListCut source cut field.member.size field.fields

variable {size : ℕ}

lemma CutOk.defined (h : CutOk source cut size field) :
    fieldIsDefined field source.version = true := by
  have hn : field.type ≠ .bits := by
    rcases h.held.holds with ht | ht | ht | ⟨ht, -⟩ <;> simp [ht]
  obtain ⟨hfrom, hbefore⟩ := h.frame.1.1 hn
  simp [fieldIsDefined, hfrom, hbefore]

lemma one_cut (hcut : cut ≤ source.body.length) (hf : CutOk source cut size field)
    (hon : state.position ≤ cut) (hi : state.incomplete = false)
    (h : decodeOne source base field choices state = (true, choices', next))
    (hc : next.isIncomplete = false) :
    (next.position ≤ cut →
      decodeOne (truncated source cut) base field choices state = (true, choices', next)) ∧
    (cut < next.position → EndsInside base size (fieldCut source cut base field state) state
      (decodeOne (truncated source cut) base field choices state).1
      (decodeOne (truncated source cut) base field choices state).2.2) := by
  by_cases ht : field.type = .struct
  · rw [decodeOne_struct ht] at h ⊢
    simp only [Prod.mk.injEq] at h
    obtain ⟨hok, rfl, hnext⟩ := h
    obtain ⟨middle, hread, hmiddle⟩ := nested_true (Prod.ext hok hnext)
    have hmc : middle.isIncomplete = false := by
      rw [hmiddle] at hc
      exact hc
    have hmp : next.position = middle.position := by rw [hmiddle]
    obtain ⟨hhere, hinside⟩ :=
      hf.nested ht (base + field.member.offset) { state with optional := false } middle hon rfl hi hread hmc
    refine ⟨fun hin => ?_, fun hout => ?_⟩
    · rw [nested_eq, hhere (hmp ▸ hin), ← hmiddle]
    · obtain ⟨f, position, hfound, hmeasured, hother⟩ := hinside (hmp ▸ hout)
      rw [nested_eq]
      refine ⟨f, position, (fieldCut_struct ht).trans hfound, hmeasured, fun hm => ?_⟩
      obtain ⟨hfalse, d, m, hlast, hsame⟩ := hother hm
      refine ⟨hfalse, d, m, by rw [hlast], fun offset hb => hsame offset ?_⟩
      have hin := hf.inside field.member (by simp [Field.members, ht])
      simp only [Beyond] at hb ⊢
      omega
  · have hleaf : field.IsLeaf := ⟨hf.held.holds, ht⟩
    rw [decodeOne_leaf hleaf] at h ⊢
    refine ⟨decodePlain_here hcut hleaf h, fun hout => ?_⟩
    obtain ⟨last, hlast, hmeasured, hother⟩ := decodePlain_cut hcut hleaf hon h hout
    rw [hlast]
    refine ⟨field, state.position, fieldCut_leaf ht, hmeasured, fun hm => ⟨rfl, ?_⟩⟩
    exact ⟨state.defined, state.memory, hother hm, fun _ _ => SameAt.refl _ _⟩

lemma stopped_inside {rest : List Field} {found : Option (Field × ℕ)} (hd : HasData field)
    (hdefined : fieldIsDefined field source.version = true)
    (htree : ∀ f ∈ rest, FieldTree Field.IsHeld f)
    (ho : state.optional = false) (hi : state.incomplete = false)
    (h : EndsInside base size found state (decodeOne source base field choices state).1
      (decodeOne source base field choices state).2.2) :
    EndsInside base size found state
      (decodeFields source base (field :: rest) choices none state).1
      (decodeFields source base (field :: rest) choices none state).2 := by
  obtain ⟨f, position, hfound, hmeasured, hother⟩ := h
  refine ⟨f, position, hfound, ?_⟩
  rw [decodeFields_data hd, if_neg (by simp [hdefined])]
  cases hone : decodeOne source base field choices state with
  | mk ok result =>
    obtain ⟨choices', last⟩ := result
    rw [hone] at hmeasured hother
    refine ⟨fun hm => ?_, fun hm => ?_⟩
    · have hlast := hmeasured hm
      cases ok with
      | false =>
        simp only at hlast ⊢
        rw [if_pos (by simp [hlast]), decoderIncomplete]
        split_ifs <;> exact hlast
      | true =>
        refine (decodeFields_incomplete (fun f hfm => (htree f hfm).holds.hasData)
          (fun f hfm base choices s hs => decodeOne_incomplete (htree f hfm) hs) ?_).2
        exact hlast
    · obtain ⟨hok, d, m, hlast, hsame⟩ := hother hm
      simp only at hok hlast
      subst hok hlast
      refine ⟨?_, d, m, ?_, hsame⟩ <;> simp [ho, hi]

lemma fields_cut (hcut : cut ≤ source.body.length) (hp : source.isPart = false)
    (hf : ∀ f ∈ fields, CutOk source cut size f) (hon : state.position ≤ cut)
    (ho : state.optional = false) (hi : state.incomplete = false)
    (h : decodeFields source base fields choices none state = (true, next))
    (hc : next.isIncomplete = false) :
    (next.position ≤ cut →
      decodeFields (truncated source cut) base fields choices none state = (true, next)) ∧
    (cut < next.position → EndsInside base size (listCut source cut base fields choices state) state
      (decodeFields (truncated source cut) base fields choices none state).1
      (decodeFields (truncated source cut) base fields choices none state).2) := by
  induction fields generalizing choices state with
  | nil =>
    rw [decodeFields] at h ⊢
    cases h
    exact ⟨fun _ => rfl, fun hout => by omega⟩
  | cons field rest ih =>
    have hfield := hf field List.mem_cons_self
    have hrest : ∀ f ∈ rest, CutOk source cut size f :=
      fun f hm => hf f (List.mem_cons_of_mem _ hm)
    have hd := hfield.held.holds.hasData
    have hdefined : fieldIsDefined field (truncated source cut).version = true := hfield.defined
    rw [decodeFields_data hd, if_neg (by simp [hfield.defined])] at h
    rw [listCut]
    cases hone : decodeOne source base field choices state with
    | mk ok result =>
      obtain ⟨choices', middle⟩ := result
      cases ok with
      | false =>
        simp only [hone] at h
        split_ifs at h
        · have hflag := decoderIncomplete_flag hp middle
          rw [h, hc] at hflag
          cases hflag
        · cases h
      | true =>
        simp only [hone] at h ⊢
        have hmc := decodeFields_complete h hc
        have hadvanced := one_advanced hp hfield.held hone hmc
        obtain ⟨hhere, hinside⟩ := one_cut hcut hfield hon hi hone hmc
        by_cases hm : cut < middle.position
        · have hpos := decodeFields_position source base rest choices' none
            { middle with defined := max middle.defined field.params.from }
          rw [h] at hpos
          refine ⟨fun hin => by simp only at hpos; omega, fun _ => ?_⟩
          rw [if_pos hm]
          exact stopped_inside hd hdefined (fun f hfm => (hrest f hfm).held) ho hi (hinside hm)
        · have hkeep : ∀ offset, Beyond base size offset →
              SameAt middle.memory state.memory offset := by
            intro offset hb
            obtain ⟨hok, hext, hlist⟩ := hfield.frame
            refine (one_keeps hp hok hfield.defined hext hlist (one_of_decodeOne hd hone)).same
              hmc offset fun member hmember => ?_
            have hin := hfield.inside member hmember
            simp only [Beyond] at hb
            omega
          have htail := fun h1 h2 h3 => ih hrest h1 h2 h3 h
          obtain ⟨p, d, m, hadvanced⟩ := hadvanced
          rw [decodeFields_data hd, if_neg (by simp [hdefined]), hhere (by omega), if_neg hm]
          obtain ⟨hhere', hinside'⟩ := htail (by simp only; omega) (by rw [hadvanced]; exact ho)
            (by rw [hadvanced]; exact hi)
          exact ⟨hhere', fun hout => (hinside' hout).trans (by rw [hadvanced]) hkeep⟩

lemma wellFormed_cut (hcut : cut ≤ source.body.length) (hp : source.isPart = false)
    (h : WellFormed source.version size fields)
    (htree : ∀ f ∈ fields, FieldTree Field.IsHeld f) : ListCut source cut size fields := by
  induction h with
  | @intro size fields ok nested ih =>
    intro base state next hon ho hi hread hc
    have hf : ∀ f ∈ fields, CutOk source cut size f := by
      intro f hm
      refine ⟨htree f hm, ⟨ok.ok f hm, ok.extended.integer f hm,
        fun hn => wellFormed_keeps hp (nested f hm hn)⟩, fun member hmember => ?_, fun ht => ?_⟩
      · obtain ⟨read, hread, hlo, hhi⟩ := reads_cover hmember
        have hin := ok.inside f hm read hread
        omega
      · exact ih f hm (.inr (.inr ht)) (htree f hm).inner
    rw [decodeList] at hread
    obtain ⟨hhere, hinside⟩ := fields_cut hcut hp hf (by exact hon) (by exact ho) (by exact hi) hread hc
    refine ⟨hhere, fun hout => (hinside hout).trans rfl fun offset hb => ?_⟩
    refine presetAll_sameAt fun f hfm habs hpres => ?_
    have hin := ok.preset f hfm habs hpres
    simp only [Beyond] at hb
    omega

end OpenDmi

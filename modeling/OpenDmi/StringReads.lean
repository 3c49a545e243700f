import OpenDmi.StringMarks
import OpenDmi.PartFlags
import OpenDmi.MgmtDecode

namespace OpenDmi

open Bytes

def partStart (base : ℕ) (fields : List Field) (state : DecodeState) : DecodeState :=
  { state with optional := false, memory := presetAll base fields state.memory }

mutual

inductive StringReads (source : Source) :
    ℕ → List Field → List Choice → Option Field → DecodeState → ℕ → Prop
  | offset {base field rest choices group state n} (type : field.type = .offset)
      (there : state.position = field.params.offset)
      (tail : StringReads source base rest choices group state n) :
      StringReads source base (field :: rest) choices group state n
  | preset {base field rest choices group state n} (type : field.type = .preset)
      (tail : StringReads source base rest choices group state n) :
      StringReads source base (field :: rest) choices group state n
  | group {base field rest choices group state next n} (type : field.type = .group)
      (read : groupRead group base state = (true, next)) (more : readerIsDone source next = false)
      (tail : StringReads source base rest choices (some field)
        { next with
          level := if field.params.since ≠ 0 then field.params.since else next.level
          optional := true } n) :
      StringReads source base (field :: rest) choices group state n
  | undefined {base field rest choices group state n} (data : HasData field)
      (undefined : fieldIsDefined field source.version = false)
      (tail : StringReads source base rest choices group state n) :
      StringReads source base (field :: rest) choices group state n
  | here {base field rest choices group state n} (data : HasData field)
      (defined : fieldIsDefined field source.version = true)
      (read : FieldReads source base field state n) :
      StringReads source base (field :: rest) choices group state n
  | past {base field rest choices choices' group state next n} (data : HasData field)
      (defined : fieldIsDefined field source.version = true)
      (decoded : decodeOne source base field choices state = (true, choices', next))
      (tail : StringReads source base rest choices' group
        { next with defined := max next.defined field.params.from } n) :
      StringReads source base (field :: rest) choices group state n

inductive FieldReads (source : Source) : ℕ → Field → DecodeState → ℕ → Prop
  | string {base field state} (type : field.type = .string)
      (there : state.position < source.body.length) :
      FieldReads source base field state (source.body.getD state.position 0).toNat
  | struct {base field state n} (type : field.type = .struct)
      (inner : StringReads source (base + field.member.offset) field.fields
        (choicesCollect field.fields []) none
        (partStart (base + field.member.offset) field.fields state) n) :
      FieldReads source base field state n
  | vector {base field state i next n} (type : field.type = .vector) (inside : i < field.params.count)
      (before : repeatWhile (fun j => nested (decodeList source
        (base + field.member.offset + j * field.member.size) field.fields)) i 0 state = (true, next))
      (inner : StringReads source (base + field.member.offset + i * field.member.size) field.fields
        (choicesCollect field.fields []) none
        (partStart (base + field.member.offset + i * field.member.size) field.fields next) n) :
      FieldReads source base field state n
  | array {base field state header started i next n} (type : field.type = .array)
      (read : decodeArrayHeader source base field state = (some header, started))
      (kept : fieldArrayIsSkipped field header.stride = false) (inside : i < header.count)
      (before : repeatWhile (elementStep source
        (fun j => decodeList source (j * field.member.size) field.fields) header.stride) i 0
        (0, { started with memory := Memory.zero }) = (true, next))
      (room : header.stride = 0 ∨ header.stride ≤ readerRemaining source next.2)
      (inner : StringReads source (i * field.member.size) field.fields
        (choicesCollect field.fields []) none
        (partStart (i * field.member.size) field.fields next.2) n) :
      FieldReads source base field state n

end

def IsString (count n : ℕ) : Prop := 0 < n ∧ n ≤ count

variable {source : Source} {base n count : ℕ} {field : Field} {fields rest : List Field}
  {choices : List Choice} {group : Option Field} {state : DecodeState} {used : List ℕ}

lemma mem_stringMark (hn : IsString count n) {num : ℕ} :
    n ∈ stringMark count num used ↔ n ∈ used ∨ num = n := by
  rw [stringMark]
  split_ifs with hout
  · refine (or_iff_left fun heq => ?_).symm
    have hlow := hn.1
    have hhigh := hn.2
    omega
  · rw [List.mem_cons, or_comm, eq_comm (a := n)]

lemma mem_repeatMark {σ : Type} {step : ℕ → σ → Bool × σ} {mark : ℕ → σ → List ℕ → List ℕ}
    {R : ℕ → σ → Prop} (hmark : ∀ i s used, n ∈ mark i s used ↔ n ∈ used ∨ R i s) {i : ℕ} {s : σ} :
    n ∈ repeatMark step mark count i s used ↔
      n ∈ used ∨ ∃ j t, j < count ∧ repeatWhile step j i s = (true, t) ∧ R (i + j) t := by
  induction count generalizing i s used with
  | zero =>
    refine (or_iff_left ?_).symm
    rintro ⟨j, t, hj, -⟩
    omega
  | succ count ih =>
    rw [repeatMark]
    cases hs : step i s with
    | mk ok next =>
      cases ok with
      | false =>
        refine (hmark i s used).trans (or_congr_right ⟨fun h => ⟨0, s, Nat.succ_pos _, rfl, h⟩, ?_⟩)
        rintro ⟨j, t, -, hreach, hr⟩
        cases j with
        | zero =>
          cases hreach
          exact hr
        | succ j =>
          rw [repeatWhile, hs] at hreach
          cases hreach
      | true =>
        rw [ih, hmark, or_assoc]
        refine or_congr_right ⟨?_, ?_⟩
        · rintro (hr | ⟨j, t, hj, hreach, hr⟩)
          · exact ⟨0, s, Nat.succ_pos _, rfl, hr⟩
          · refine ⟨j + 1, t, Nat.succ_lt_succ hj, ?_, by rwa [show i + (j + 1) = i + 1 + j by omega]⟩
            rw [repeatWhile, hs]
            exact hreach
        · rintro ⟨j, t, hj, hreach, hr⟩
          cases j with
          | zero =>
            cases hreach
            exact .inl hr
          | succ j =>
            rw [repeatWhile, hs] at hreach
            exact .inr ⟨j, t, Nat.lt_of_succ_lt_succ hj, hreach,
              by rwa [show i + 1 + j = i + (j + 1) by omega]⟩

lemma oneMark_eq (field : Field) (state : DecodeState) (used : List ℕ) :
    oneMark source base field state used = match field.type with
      | .bits => used
      | .pad => used
      | .array => arrayMark source base field
          (fun i => decodeList source (i * field.member.size) field.fields)
          (fun i => listMark source (i * field.member.size) field.fields) state used
      | .vector => repeatMark (fun i => nested (decodeList source
            (base + field.member.offset + i * field.member.size) field.fields))
          (fun i state => listMark source (base + field.member.offset + i * field.member.size)
            field.fields { state with optional := false }) field.params.count 0 state used
      | .struct => listMark source (base + field.member.offset) field.fields
          { state with optional := false } used
      | _ => valueMark source field state used := by
  obtain ⟨member, type, params, fields⟩ := field
  cases type <;> rfl

lemma fieldsMark_data (hd : HasData field) :
    fieldsMark source base (field :: rest) choices group state used =
      if fieldIsDefined field source.version = false then
        fieldsMark source base rest choices group state used
      else match decodeOne source base field choices state with
        | (false, _, _) => oneMark source base field state used
        | (true, choices, next) =>
          fieldsMark source base rest choices group
            { next with defined := max next.defined field.params.from }
            (oneMark source base field state used) := by
  obtain ⟨h1, h2, h3⟩ := hd
  rw [fieldsMark]
  cases ht : field.type <;> first | rfl | exact absurd ht ‹_›

lemma fieldReads_iff : FieldReads source base field state n ↔ match field.type with
    | .string => state.position < source.body.length ∧
        (source.body.getD state.position 0).toNat = n
    | .struct => StringReads source (base + field.member.offset) field.fields
        (choicesCollect field.fields []) none
        (partStart (base + field.member.offset) field.fields state) n
    | .vector => ∃ i next, i < field.params.count ∧
        repeatWhile (fun j => nested (decodeList source
          (base + field.member.offset + j * field.member.size) field.fields)) i 0 state =
            (true, next) ∧
        StringReads source (base + field.member.offset + i * field.member.size) field.fields
          (choicesCollect field.fields []) none
          (partStart (base + field.member.offset + i * field.member.size) field.fields next) n
    | .array => ∃ header started i next,
        decodeArrayHeader source base field state = (some header, started) ∧
        fieldArrayIsSkipped field header.stride = false ∧ i < header.count ∧
        repeatWhile (elementStep source
          (fun j => decodeList source (j * field.member.size) field.fields) header.stride) i 0
          (0, { started with memory := Memory.zero }) = (true, next) ∧
        (header.stride = 0 ∨ header.stride ≤ readerRemaining source next.2) ∧
        StringReads source (i * field.member.size) field.fields (choicesCollect field.fields []) none
          (partStart (i * field.member.size) field.fields next.2) n
    | _ => False := by
  constructor
  · intro h
    cases h with
    | string type there => simp only [type, there, and_self]
    | struct type inner => simpa only [type] using inner
    | vector type inside before inner =>
      simp only [type]
      exact ⟨_, _, inside, before, inner⟩
    | array type read kept inside before room inner =>
      simp only [type]
      exact ⟨_, _, _, _, read, kept, inside, before, room, inner⟩
  · intro h
    cases ht : field.type <;> simp only [ht] at h
    case string =>
      obtain ⟨hthere, rfl⟩ := h
      exact .string ht hthere
    case struct => exact .struct ht h
    case vector =>
      obtain ⟨i, next, hinside, hbefore, hinner⟩ := h
      exact .vector ht hinside hbefore hinner
    case array =>
      obtain ⟨header, started, i, next, hread, hkept, hinside, hbefore, hroom, hinner⟩ := h
      exact .array ht hread hkept hinside hbefore hroom hinner

lemma stringReads_offset (ht : field.type = .offset) :
    StringReads source base (field :: rest) choices group state n ↔
      state.position = field.params.offset ∧
        StringReads source base rest choices group state n := by
  constructor
  · intro h
    cases h with
    | offset _ there tail => exact ⟨there, tail⟩
    | preset type => cases ht.symm.trans type
    | group type => cases ht.symm.trans type
    | undefined data | here data | past data => exact absurd ht data.1
  · exact fun h => .offset ht h.1 h.2

lemma stringReads_preset (ht : field.type = .preset) :
    StringReads source base (field :: rest) choices group state n ↔
      StringReads source base rest choices group state n := by
  constructor
  · intro h
    cases h with
    | offset type => cases ht.symm.trans type
    | preset _ tail => exact tail
    | group type => cases ht.symm.trans type
    | undefined data | here data | past data => exact absurd ht data.2.1
  · exact .preset ht

lemma stringReads_group (ht : field.type = .group) :
    StringReads source base (field :: rest) choices group state n ↔
      ∃ next, groupRead group base state = (true, next) ∧ readerIsDone source next = false ∧
        StringReads source base rest choices (some field)
          { next with
            level := if field.params.since ≠ 0 then field.params.since else next.level
            optional := true } n := by
  constructor
  · intro h
    cases h with
    | offset type => cases ht.symm.trans type
    | preset type => cases ht.symm.trans type
    | group _ read more tail => exact ⟨_, read, more, tail⟩
    | undefined data | here data | past data => exact absurd ht data.2.2
  · rintro ⟨next, hread, hmore, htail⟩
    exact .group ht hread hmore htail

lemma stringReads_data (hd : HasData field) :
    StringReads source base (field :: rest) choices group state n ↔
      if fieldIsDefined field source.version = false then
        StringReads source base rest choices group state n
      else FieldReads source base field state n ∨
        ∃ choices' next, decodeOne source base field choices state = (true, choices', next) ∧
          StringReads source base rest choices' group
            { next with defined := max next.defined field.params.from } n := by
  obtain ⟨hoffset, hpreset, hgroup⟩ := hd
  constructor
  · intro h
    cases h with
    | offset type => exact absurd type hoffset
    | preset type => exact absurd type hpreset
    | group type => exact absurd type hgroup
    | undefined _ undefined tail => rwa [if_pos undefined]
    | here _ defined read =>
      rw [if_neg (by rw [defined]; decide)]
      exact .inl read
    | past _ defined decoded tail =>
      rw [if_neg (by rw [defined]; decide)]
      exact .inr ⟨_, _, decoded, tail⟩
  · split_ifs with hdefined
    · exact fun h => .undefined ⟨hoffset, hpreset, hgroup⟩ hdefined h
    · rw [Bool.not_eq_false] at hdefined
      rintro (hread | ⟨choices', next, hdecoded, htail⟩)
      · exact .here ⟨hoffset, hpreset, hgroup⟩ hdefined hread
      · exact .past ⟨hoffset, hpreset, hgroup⟩ hdefined hdecoded htail

lemma mem_valueMark (hn : IsString source.strings.length n) :
    n ∈ valueMark source field state used ↔ n ∈ used ∨ field.type = .string ∧
      state.position < source.body.length ∧ (source.body.getD state.position 0).toNat = n := by
  rw [valueMark]
  cases ht : field.type <;> simp only [reduceCtorEq, false_and, or_false, true_and]
  by_cases hthere : state.position < source.body.length
  · rw [readerGet, if_pos (Nat.succ_le_of_lt hthere)]
    simp only
    rw [mem_stringMark hn, window_byte hthere]
    simp only [leLoad, Nat.mul_zero, Nat.add_zero, hthere, true_and]
  · rw [readerGet, if_neg (by omega)]
    simp only [hthere, false_and, or_false]

section Lists

lemma mem_fieldsMark (hone : ∀ f ∈ fields, ∀ base state used,
      n ∈ oneMark source base f state used ↔ n ∈ used ∨ FieldReads source base f state n) :
    n ∈ fieldsMark source base fields choices group state used ↔
      n ∈ used ∨ StringReads source base fields choices group state n := by
  induction fields generalizing choices group state used with
  | nil =>
    rw [fieldsMark]
    refine (or_iff_left fun h => ?_).symm
    cases h
  | cons field rest ih =>
    have hrest {choices group state used} := @ih choices group state used
      fun f hm => hone f (List.mem_cons_of_mem _ hm)
    by_cases hoffset : field.type = .offset
    · rw [fieldsMark, stringReads_offset hoffset]
      simp only [hoffset]
      split_ifs with hthere
      · exact hrest.trans (or_congr_right (and_iff_right hthere).symm)
      · exact (or_iff_left fun h => hthere h.1).symm
    by_cases hpreset : field.type = .preset
    · rw [fieldsMark, stringReads_preset hpreset]
      simp only [hpreset]
      exact hrest
    by_cases hgroup : field.type = .group
    · rw [fieldsMark, stringReads_group hgroup]
      simp only [hgroup]
      cases hread : groupRead group base state with
      | mk ok next =>
        cases ok with
        | false =>
          refine (or_iff_left ?_).symm
          rintro ⟨_, hother, -⟩
          cases hother
        | true =>
          simp only
          cases hdone : readerIsDone source next with
          | true =>
            refine (or_iff_left ?_).symm
            rintro ⟨_, hother, hmore, -⟩
            cases hother
            cases hmore.symm.trans hdone
          | false =>
            refine hrest.trans (or_congr_right ⟨fun h => ⟨next, rfl, hdone, h⟩, ?_⟩)
            rintro ⟨_, hother, -, htail⟩
            cases hother
            exact htail
    have hdata : HasData field := ⟨hoffset, hpreset, hgroup⟩
    have hfield := hone field List.mem_cons_self base state used
    rw [fieldsMark_data hdata, stringReads_data hdata]
    split_ifs with hdefined
    · exact hrest
    · cases hdecoded : decodeOne source base field choices state with
      | mk ok result =>
        obtain ⟨choices', next⟩ := result
        cases ok with
        | false =>
          refine hfield.trans (or_congr_right (or_iff_left ?_).symm)
          rintro ⟨_, _, hother, -⟩
          cases hother
        | true =>
          refine hrest.trans ?_
          rw [hfield, or_assoc]
          refine or_congr_right (or_congr_right ⟨fun h => ⟨_, _, rfl, h⟩, ?_⟩)
          rintro ⟨_, _, hother, htail⟩
          cases hother
          exact htail

lemma mem_elementMark {fields : List Field} {state : DecodeState} {stride : ℕ}
    (hlist : ∀ base state used,
      n ∈ listMark source base fields { state with optional := false } used ↔
        n ∈ used ∨ StringReads source base fields (choicesCollect fields []) none
          (partStart base fields state) n) :
    n ∈ elementMark source (listMark source base fields) stride state used ↔
      n ∈ used ∨ (stride = 0 ∨ stride ≤ readerRemaining source state) ∧
        StringReads source base fields (choicesCollect fields []) none
          (partStart base fields state) n := by
  rw [elementMark]
  split_ifs with hroom
  · refine (or_iff_left fun h => ?_).symm
    rcases h.1 with hzero | hfits
    · exact hroom.1 hzero
    · exact absurd hfits (not_le.mpr hroom.2)
  · refine (hlist base state used).trans (or_congr_right (and_iff_right ?_).symm)
    by_cases hzero : stride = 0
    · exact .inl hzero
    · exact .inr (not_lt.mp fun hshort => hroom ⟨hzero, hshort⟩)

lemma mem_arrayMark (hlist : ∀ base state used,
      n ∈ listMark source base field.fields { state with optional := false } used ↔
        n ∈ used ∨ StringReads source base field.fields (choicesCollect field.fields []) none
          (partStart base field.fields state) n) (ht : field.type = .array) :
    n ∈ arrayMark source base field
        (fun i => decodeList source (i * field.member.size) field.fields)
        (fun i => listMark source (i * field.member.size) field.fields) state used ↔
      n ∈ used ∨ FieldReads source base field state n := by
  rw [fieldReads_iff, arrayMark]
  simp only [ht]
  cases hread : decodeArrayHeader source base field state with
  | mk header started =>
    cases header with
    | none =>
      refine (or_iff_left ?_).symm
      rintro ⟨header, _, _, _, hother, -⟩
      cases hother
    | some header =>
      simp only
      split_ifs with hout
      · refine (or_iff_left ?_).symm
        rintro ⟨_, _, i, _, hother, hkept, hinside, -⟩
        cases hother
        rcases hout with hzero | hskipped
        · omega
        · cases hkept.symm.trans hskipped
      · rw [not_or, Bool.not_eq_true] at hout
        refine (mem_repeatMark (R := fun i s =>
          (header.stride = 0 ∨ header.stride ≤ readerRemaining source s.2) ∧
            StringReads source (i * field.member.size) field.fields
              (choicesCollect field.fields []) none
              (partStart (i * field.member.size) field.fields s.2) n)
          fun i s used => mem_elementMark hlist).trans (or_congr_right ⟨?_, ?_⟩)
        · rintro ⟨i, next, hinside, hbefore, hroom, hinner⟩
          rw [Nat.zero_add] at hinner
          exact ⟨header, started, i, next, rfl, hout.2, hinside, hbefore, hroom, hinner⟩
        · rintro ⟨_, _, i, next, hother, -, hinside, hbefore, hroom, hinner⟩
          cases hother
          refine ⟨i, next, hinside, hbefore, hroom, ?_⟩
          rwa [Nat.zero_add]

variable (hn : IsString source.strings.length n)
include hn

lemma mem_oneMark (hf : FieldTree (fun _ => True) field) :
    n ∈ oneMark source base field state used ↔
      n ∈ used ∨ FieldReads source base field state n := by
  induction hf generalizing base state used with
  | @intro field _ _ ih =>
    have hlist (base : ℕ) (state : DecodeState) (used : List ℕ) :
        n ∈ listMark source base field.fields { state with optional := false } used ↔
          n ∈ used ∨ StringReads source base field.fields (choicesCollect field.fields []) none
            (partStart base field.fields state) n :=
      mem_fieldsMark fun f hm base state used => ih f hm
    by_cases harray : field.type = .array
    · rw [oneMark_eq]
      simp only [harray]
      exact mem_arrayMark hlist harray
    rw [oneMark_eq, fieldReads_iff]
    cases ht : field.type
    case array => exact absurd ht harray
    case struct => exact hlist _ _ _
    case vector =>
      refine (mem_repeatMark (R := fun i s => StringReads source
        (base + field.member.offset + i * field.member.size) field.fields
        (choicesCollect field.fields []) none
        (partStart (base + field.member.offset + i * field.member.size) field.fields s) n)
        fun i s used => hlist _ s used).trans (or_congr_right ?_)
      simp only [Nat.zero_add]
    case bits => exact (or_iff_left not_false).symm
    case pad => exact (or_iff_left not_false).symm
    all_goals
      refine (mem_valueMark hn).trans (or_congr_right ?_)
      simp only [ht, true_and, reduceCtorEq, false_and]

end Lists

lemma mem_fieldsDecodeMark (hn : IsString source.strings.length n) (fields : List Field)
    (level : ℕ) :
    n ∈ fieldsDecodeMark source fields level used ↔
      n ∈ used ∨ StringReads source 0 fields (choicesCollect fields []) none
        (partStart 0 fields (decoderInitialize level)) n :=
  mem_fieldsMark fun f _ _ _ _ => mem_oneMark hn (fieldTree_trivial f)

end OpenDmi

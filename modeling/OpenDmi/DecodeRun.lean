import OpenDmi.DecodeSteps
import OpenDmi.WellFormed

namespace OpenDmi

open Bytes

variable {source : Source} {base : ℕ}

def HasData (field : Field) : Prop :=
  field.type ≠ .offset ∧ field.type ≠ .preset ∧ field.type ≠ .group

inductive Run (source : Source) (base : ℕ) : List Field → List Choice → Option Field →
    DecodeState → DecodeState → Prop
  | nil {choices group state final} (read : groupRead group base state = (true, final)) :
      Run source base [] choices group state final
  | offset {field rest choices group state final} (type : field.type = .offset)
      (reached : state.position = field.params.offset)
      (tail : Run source base rest choices group state final) :
      Run source base (field :: rest) choices group state final
  | preset {field rest choices group state final} (type : field.type = .preset)
      (tail : Run source base rest choices group state final) :
      Run source base (field :: rest) choices group state final
  | stop {field rest choices group state next} (type : field.type = .group)
      (read : groupRead group base state = (true, next))
      (done : source.body.length ≤ next.position) :
      Run source base (field :: rest) choices group state { next with isPartial := true }
  | group {field rest choices group state next final level} (type : field.type = .group)
      (read : groupRead group base state = (true, next))
      (left : next.position < source.body.length)
      (tail : Run source base rest choices (some field)
        { next with level := level, optional := true } final) :
      Run source base (field :: rest) choices group state final
  | undefined {field rest choices group state final} (data : HasData field)
      (defined : fieldIsDefined field source.version = false)
      (tail : Run source base rest choices group state final) :
      Run source base (field :: rest) choices group state final
  | one {field rest choices choices' group state next final level} (data : HasData field)
      (defined : fieldIsDefined field source.version = true)
      (read : decodeOne source base field choices state = (true, choices', next))
      (tail : Run source base rest choices' group { next with defined := level } final) :
      Run source base (field :: rest) choices group state final

lemma decoderIncomplete_flag (hp : source.isPart = false) (state : DecodeState) :
    (decoderIncomplete source state).2.isIncomplete = true := by
  simp [decoderIncomplete, hp]

lemma decodeFields_data {field : Field} (hd : HasData field) (rest : List Field)
    (choices : List Choice) (group : Option Field) (state : DecodeState) :
    decodeFields source base (field :: rest) choices group state =
      if fieldIsDefined field source.version = false then
        decodeFields source base rest choices group state
      else match decodeOne source base field choices state with
        | (false, _, state) =>
          if state.optional || state.incomplete then decoderIncomplete source state
          else (false, state)
        | (true, choices, state) =>
          decodeFields source base rest choices group
            { state with defined := max state.defined field.params.from } := by
  obtain ⟨h1, h2, h3⟩ := hd
  rw [decodeFields]
  cases ht : field.type <;> first | rfl | exact absurd ht ‹_›

lemma run_of_decodeFields (hp : source.isPart = false) {fields : List Field}
    {choices : List Choice} {group : Option Field} {state final : DecodeState}
    (h : decodeFields source base fields choices group state = (true, final))
    (hc : final.isIncomplete = false) : Run source base fields choices group state final := by
  induction fields generalizing choices group state with
  | nil =>
    rw [decodeFields] at h
    exact .nil h
  | cons field rest ih =>
    by_cases ho : field.type = .offset
    · rw [decodeFields] at h
      simp only [ho] at h
      split_ifs at h with hpos
      · exact .offset ho hpos (ih h)
      · cases h
    by_cases hpre : field.type = .preset
    · rw [decodeFields] at h
      simp only [hpre] at h
      exact .preset hpre (ih h)
    by_cases hg : field.type = .group
    · rw [decodeFields] at h
      simp only [hg] at h
      cases hr : groupRead group base state with
      | mk ok next =>
        cases ok with
        | false => simp [hr] at h
        | true =>
          simp only [hr] at h
          by_cases hdone : readerIsDone source next = true
          · simp only [hdone, decoderStop, hp, Bool.false_eq_true, if_false, if_true] at h
            cases h
            exact .stop hg hr (by simpa [readerIsDone] using hdone)
          · rw [if_neg hdone] at h
            exact .group hg hr (by simpa [readerIsDone] using hdone) (ih h)
    have hd : HasData field := ⟨ho, hpre, hg⟩
    rw [decodeFields_data hd] at h
    split_ifs at h with hdef
    · exact .undefined hd hdef (ih h)
    · cases hone : decodeOne source base field choices state with
      | mk ok result =>
        obtain ⟨choices', next⟩ := result
        cases ok with
        | false =>
          simp only [hone] at h
          split_ifs at h
          · have hflag := decoderIncomplete_flag hp next
            rw [h, hc] at hflag
            cases hflag
          · cases h
        | true =>
          simp only [hone] at h
          exact .one hd (by simpa using hdef) hone (ih h)

def IsValue (field : Field) : Prop :=
  field.type = .integer ∨ field.type = .string ∨ field.type = .bcd ∨ field.type = .binary ∨
    field.type = .uuid ∨ field.type = .skip

inductive One (source : Source) (base : ℕ) (field : Field) (choices : List Choice)
    (state : DecodeState) : List Choice → DecodeState → Prop
  | bits {next} (type : field.type = .bits)
      (read : decodeBits source field (fieldValue base field) state = (true, next)) :
      One source base field choices state choices next
  | pad {next} (type : field.type = .pad) (read : decodePad source field state = (true, next)) :
      One source base field choices state choices next
  | array {next} (type : field.type = .array)
      (read : decodeArray source base field
        (fun i => decodeList source (i * field.member.size) field.fields) state = (true, next)) :
      One source base field choices state choices next
  | vector {next} (type : field.type = .vector)
      (read : repeatWhile (fun i => nested
        (decodeList source (base + field.member.offset + i * field.member.size) field.fields))
        field.params.count 0 state = (true, next)) :
      One source base field choices state choices next
  | struct {next} (type : field.type = .struct)
      (read : nested (decodeList source (base + field.member.offset) field.fields) state =
        (true, next)) :
      One source base field choices state choices next
  | extended {next} (type : IsValue field) (extended : field.params.extended = true)
      (read : decodeExtended source field (fieldValue base field)
        (choiceFind choices (fieldWhenOffset field)) state = (true, next)) :
      One source base field choices state choices next
  | plain {raw next} (type : IsValue field) (plain : field.params.extended = false)
      (read : decodeValue source field (fieldValue base field) state = (true, raw, next)) :
      One source base field choices state
        (raw.elim choices fun raw =>
          choiceUpdate choices (fieldWhenOffset field) fun c => { c with raw := raw }) next

def decodePlain (source : Source) (base : ℕ) (field : Field) (choices : List Choice)
    (state : DecodeState) : Bool × List Choice × DecodeState :=
  if field.params.extended then
    let result := decodeExtended source field (fieldValue base field)
      (choiceFind choices (fieldWhenOffset field)) state
    (result.1, choices, result.2)
  else match decodeValue source field (fieldValue base field) state with
    | (ok, some raw, state) =>
      (ok, choiceUpdate choices (fieldWhenOffset field) fun c => { c with raw := raw }, state)
    | (ok, none, state) => (ok, choices, state)

lemma decodeOne_eq (field : Field) (choices : List Choice) (state : DecodeState) :
    decodeOne source base field choices state =
      let keep (result : Bool × DecodeState) := (result.1, choices, result.2)
      match field.type with
      | .bits => keep (decodeBits source field (fieldValue base field) state)
      | .pad => keep (decodePad source field state)
      | .array => keep (decodeArray source base field
          (fun i => decodeList source (i * field.member.size) field.fields) state)
      | .vector => keep (repeatWhile (fun i => nested
          (decodeList source (base + field.member.offset + i * field.member.size) field.fields))
          field.params.count 0 state)
      | .struct => keep
          (nested (decodeList source (base + field.member.offset) field.fields) state)
      | _ => decodePlain source base field choices state := by
  obtain ⟨member, type, params, fields⟩ := field
  cases type <;> rfl

lemma one_of_decodeOne {field : Field} {choices choices' : List Choice} {state next : DecodeState}
    (hd : HasData field)
    (h : decodeOne source base field choices state = (true, choices', next)) :
    One source base field choices state choices' next := by
  obtain ⟨h1, h2, h3⟩ := hd
  rw [decodeOne_eq] at h
  have hplain : IsValue field → decodePlain source base field choices state =
      (true, choices', next) → One source base field choices state choices' next := by
    intro hv h
    rw [decodePlain] at h
    split_ifs at h with hext
    · simp only [Prod.mk.injEq] at h
      obtain ⟨hok, rfl, hnext⟩ := h
      exact .extended hv hext (Prod.ext hok hnext)
    · cases hr : decodeValue source field (fieldValue base field) state with
      | mk ok result =>
        obtain ⟨raw, final⟩ := result
        cases raw with
        | none =>
          simp only [hr, Prod.mk.injEq] at h
          obtain ⟨rfl, rfl, rfl⟩ := h
          exact One.plain hv (by simpa using hext) hr
        | some raw =>
          simp only [hr, Prod.mk.injEq] at h
          obtain ⟨rfl, rfl, rfl⟩ := h
          exact One.plain hv (by simpa using hext) hr
  cases ht : field.type with
  | offset => exact absurd ht h1
  | preset => exact absurd ht h2
  | group => exact absurd ht h3
  | bits =>
    simp only [ht, Prod.mk.injEq] at h
    obtain ⟨hok, rfl, hnext⟩ := h
    exact .bits ht (Prod.ext hok hnext)
  | pad =>
    simp only [ht, Prod.mk.injEq] at h
    obtain ⟨hok, rfl, hnext⟩ := h
    exact .pad ht (Prod.ext hok hnext)
  | array =>
    simp only [ht, Prod.mk.injEq] at h
    obtain ⟨hok, rfl, hnext⟩ := h
    exact .array ht (Prod.ext hok hnext)
  | vector =>
    simp only [ht, Prod.mk.injEq] at h
    obtain ⟨hok, rfl, hnext⟩ := h
    exact .vector ht (Prod.ext hok hnext)
  | struct =>
    simp only [ht, Prod.mk.injEq] at h
    obtain ⟨hok, rfl, hnext⟩ := h
    exact .struct ht (Prod.ext hok hnext)
  | _ =>
    simp only [ht] at h
    exact hplain (by simp [IsValue, ht]) h

end OpenDmi

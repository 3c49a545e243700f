import OpenDmi.DecodeRun

namespace OpenDmi

open Bytes

variable {source : Source} {base : ℕ} {field : Field} {state next : DecodeState}

def Stored (base : ℕ) (member : Member) (raw : ℕ) (before after : Memory) : Prop :=
  (memberIsPresent member = false → after = before) ∧
    (memberIsPresent member = true → ∃ n, memberStore member raw = some n ∧
      after = before.setNumber (base + member.offset) n)

structure HeaderRead (source : Source) (base : ℕ) (field : Field) (header : ArrayHeader)
    (state next : DecodeState) : Prop where
  position : next.position = state.position + field.params.countLength + field.params.strideLength
  counted : field.params.countLength ≠ 0 → field.params.countLength ≤ 8 ∧
    state.position + field.params.countLength ≤ source.body.length ∧
    header.count = leLoad (window source.body state.position field.params.countLength)
  uncounted : field.params.countLength = 0 →
    header.count = readerRemaining source state / field.params.stride ∧
      header.leftover = readerRemaining source state % field.params.stride
  fixed : field.params.strideLength = 0 → header.stride = field.params.stride
  declared : field.params.strideLength ≠ 0 → field.params.strideLength ≤ 8 ∧
    next.position ≤ source.body.length ∧ header.stride = leLoad (window source.body
      (state.position + field.params.countLength) field.params.strideLength)
  memory : ∃ middle, Stored base field.params.countMember header.count state.memory middle ∧
    Stored base field.params.strideMember header.stride middle next.memory
  rest : ∃ position memory, next = { state with position := position, memory := memory }

lemma storeArrayHeader_some {found header : ArrayHeader}
    (h : storeArrayHeader base field found state = (some header, next)) :
    found = header ∧ (∃ middle, Stored base field.params.countMember header.count state.memory
      middle ∧ Stored base field.params.strideMember header.stride middle next.memory) ∧
      ∃ memory, next = { state with memory := memory } := by
  rw [storeArrayHeader] at h
  cases hm : storePresent base field.params.countMember found.count state with
  | mk ok s3 =>
    cases ok with
    | false => simp [hm] at h
    | true =>
      simp only [hm] at h
      cases hm' : storePresent base field.params.strideMember found.stride s3 with
      | mk ok s4 =>
        cases ok with
        | false => simp [hm'] at h
        | true =>
          simp only [hm', Prod.mk.injEq, Option.some.injEq] at h
          obtain ⟨rfl, rfl⟩ := h
          obtain ⟨m3, rfl, h3⟩ := storePresent_true hm
          obtain ⟨m4, rfl, h4⟩ := storePresent_true hm'
          exact ⟨rfl, ⟨m3, h3, h4⟩, _, rfl⟩

lemma decodeArrayHeader_some {header : ArrayHeader}
    (h : decodeArrayHeader source base field state = (some header, next)) :
    HeaderRead source base field header state next := by
  simp only [decodeArrayHeader] at h
  cases hcount : decodeArrayCount source field state with
  | none => simp [hcount] at h
  | some result =>
    obtain ⟨first, s1⟩ := result
    simp only [hcount] at h
    have h1 : s1 = { state with position := state.position + field.params.countLength } ∧
        first.stride = field.params.stride ∧
        (field.params.countLength ≠ 0 → field.params.countLength ≤ 8 ∧
          state.position + field.params.countLength ≤ source.body.length ∧
          first.count = leLoad (window source.body state.position field.params.countLength)) ∧
        (field.params.countLength = 0 →
          first.count = readerRemaining source state / field.params.stride ∧
          first.leftover = readerRemaining source state % field.params.stride) := by
      rw [decodeArrayCount] at hcount
      split_ifs at hcount with hzero
      · cases hcount
        exact ⟨by simp [hzero], rfl, fun hn => absurd hzero hn, fun _ => ⟨rfl, rfl⟩⟩
      · obtain ⟨⟨number, s'⟩, hread, heq⟩ := Option.map_eq_some_iff.mp hcount
        obtain ⟨-, h8, hfits, hnumber, rfl⟩ := readNumber_some hread
        cases heq
        exact ⟨rfl, rfl, fun _ => ⟨h8, hfits, hnumber⟩, fun hn => absurd hn hzero⟩
    obtain ⟨rfl, hstride, hcounted, huncounted⟩ := h1
    split_ifs at h with hsl
    · obtain ⟨rfl, hmem, memory, rfl⟩ := storeArrayHeader_some h
      exact ⟨by simp [hsl], hcounted, huncounted, fun _ => hstride, fun hn => absurd hsl hn, hmem,
        _, _, rfl⟩
    · cases hread : readNumber source field.params.strideLength
          { state with position := state.position + field.params.countLength } with
      | none => simp [hread] at h
      | some result =>
        obtain ⟨stride, s2⟩ := result
        obtain ⟨-, h8, hfits, hnumber, rfl⟩ := readNumber_some hread
        simp only [hread, Option.map_some] at h
        obtain ⟨hheader, hmem, memory, rfl⟩ := storeArrayHeader_some h
        subst hheader
        exact ⟨rfl, hcounted, huncounted, fun hn => absurd hn hsl,
          fun _ => ⟨h8, hfits, hnumber⟩, hmem, _, _, rfl⟩

lemma repeatWhile_succ {σ : Type} {step : ℕ → σ → Bool × σ} {count i : ℕ} {s t : σ}
    (h : repeatWhile step (count + 1) i s = (true, t)) :
    ∃ middle, step i s = (true, middle) ∧ repeatWhile step count (i + 1) middle = (true, t) := by
  rw [repeatWhile] at h
  cases hs : step i s with
  | mk ok middle =>
    cases ok with
    | false => simp [hs] at h
    | true =>
      rw [hs] at h
      exact ⟨middle, rfl, h⟩

lemma repeatWhile_rel {σ : Type} {step : ℕ → σ → Bool × σ} {R : σ → σ → Prop}
    (refl : ∀ s, R s s) (trans : ∀ s t u, R s t → R t u → R s u) {count i : ℕ} {s t : σ}
    (hstep : ∀ j s t, i ≤ j → j < i + count → step j s = (true, t) → R s t)
    (h : repeatWhile step count i s = (true, t)) : R s t := by
  induction count generalizing i s with
  | zero =>
    cases h
    exact refl _
  | succ count ih =>
    obtain ⟨middle, hs, hrest⟩ := repeatWhile_succ h
    exact trans _ _ _ (hstep i s middle le_rfl (by omega) hs)
      (ih (fun j s t h1 h2 => hstep j s t (by omega) (by omega)) hrest)

lemma nested_true {decode : DecodeState → Bool × DecodeState}
    (h : nested decode state = (true, next)) :
    ∃ middle, decode { state with optional := false } = (true, middle) ∧
      next = { middle with optional := state.optional } := by
  rw [nested] at h
  cases hd : decode { state with optional := false } with
  | mk ok middle =>
    simp only [hd, Prod.mk.injEq] at h
    obtain ⟨rfl, rfl⟩ := h
    exact ⟨middle, rfl, rfl⟩

lemma decodeElement_true {decode : DecodeState → Bool × DecodeState} {stride : ℕ}
    (h : decodeElement source decode stride state = (true, next)) :
    ∃ middle, nested decode state = (true, middle) ∧
      (stride = 0 ∧ next = middle ∨ stride ≠ 0 ∧ state.position + stride ≤ source.body.length ∧
        next = { middle with position := state.position + stride }) := by
  rw [decodeElement] at h
  by_cases hshort : stride ≠ 0 ∧ readerRemaining source state < stride
  · rw [if_pos hshort] at h
    cases h
  rw [if_neg hshort] at h
  cases hd : nested decode state with
  | mk ok middle =>
    cases ok with
    | false => simp [hd] at h
    | true =>
      simp only [hd] at h
      split_ifs at h with hz hfits
      · cases h
        exact ⟨_, rfl, .inl ⟨hz, rfl⟩⟩
      · cases h
        exact ⟨_, rfl, .inr ⟨hz, hfits, rfl⟩⟩
      · cases h

def elementStep (source : Source) (decode : ℕ → DecodeState → Bool × DecodeState) (stride i : ℕ)
    (s : ℕ × DecodeState) : Bool × ℕ × DecodeState :=
  match decodeElement source (decode i) stride s.2 with
  | (true, state) => (true, s.1 + 1, state)
  | (false, state) => (false, s.1, state)

lemma decodeElements_eq (decode : ℕ → DecodeState → Bool × DecodeState) (stride count : ℕ)
    (state : DecodeState) : decodeElements source decode stride count state =
      repeatWhile (elementStep source decode stride) count 0
        (0, { state with memory := Memory.zero }) := rfl

lemma elementStep_true {decode : ℕ → DecodeState → Bool × DecodeState} {stride i : ℕ}
    {s t : ℕ × DecodeState} (h : elementStep source decode stride i s = (true, t)) :
    t.1 = s.1 + 1 ∧ decodeElement source (decode i) stride s.2 = (true, t.2) := by
  rw [elementStep] at h
  cases hd : decodeElement source (decode i) stride s.2 with
  | mk ok state =>
    cases ok with
    | false => simp [hd] at h
    | true =>
      simp only [hd, Prod.mk.injEq, true_and] at h
      subst h
      exact ⟨rfl, rfl⟩

lemma elements_counted {decode : ℕ → DecodeState → Bool × DecodeState} {stride count i : ℕ}
    {s t : ℕ × DecodeState}
    (h : repeatWhile (elementStep source decode stride) count i s = (true, t)) :
    t.1 = s.1 + count := by
  induction count generalizing i s with
  | zero =>
    cases h
    rfl
  | succ count ih =>
    obtain ⟨middle, hs, hrest⟩ := repeatWhile_succ h
    rw [ih hrest, (elementStep_true hs).1]
    omega

inductive ArrayRead (source : Source) (base : ℕ) (field : Field)
    (decode : ℕ → DecodeState → Bool × DecodeState) (header : ArrayHeader) (state : DecodeState) :
    DecodeState → Prop
  | empty (count : header.count = 0) : ArrayRead source base field decode header state
      { state with memory := state.memory.setNumber (base + field.params.counter.offset) 0 }
  | skipped (count : header.count ≠ 0) (short : fieldArrayIsSkipped field header.stride = true) :
      ArrayRead source base field decode header state { state with
        position := state.position +
          min (header.count * header.stride % 2 ^ 64) (readerRemaining source state)
        memory := state.memory.setNumber (base + field.params.counter.offset) 0 }
  | elements {next : DecodeState} (count : header.count ≠ 0)
      (long : fieldArrayIsSkipped field header.stride = false)
      (read : repeatWhile (elementStep source decode header.stride) header.count 0
        (0, { state with memory := Memory.zero }) = (true, header.count, next)) :
      ArrayRead source base field decode header state { next with
        memory := ((state.memory.setNumber (base + field.params.counter.offset) 0).setPointer
          (base + field.member.offset) (.elements next.memory.number next.memory.pointer)).setNumber
          (base + field.params.counter.offset) (UInt64.ofNat header.count) }

lemma arrayRead_of_decodeArray (hp : source.isPart = false)
    {decode : ℕ → DecodeState → Bool × DecodeState}
    (h : decodeArray source base field decode state = (true, next))
    (hc : next.isIncomplete = false) :
    ∃ header middle, HeaderRead source base field header state middle ∧
      (fieldArrayIsSkipped field header.stride = false → header.count ≠ 0 →
        header.leftover = 0) ∧ ArrayRead source base field decode header middle next := by
  simp only [decodeArray] at h
  cases hh : decodeArrayHeader source base field state with
  | mk header middle =>
    cases header with
    | none => simp [hh] at h
    | some header =>
      simp only [hh] at h
      refine ⟨header, middle, decodeArrayHeader_some hh, ?_⟩
      have hfinish : ∀ s : DecodeState,
          (if header.leftover = 0 then (true, s) else decoderIncomplete source s) = (true, next) →
          header.leftover = 0 ∧ s = next := by
        intro s hs
        split_ifs at hs with hl
        · cases hs
          exact ⟨hl, rfl⟩
        · have hflag := decoderIncomplete_flag hp s
          rw [hs, hc] at hflag
          cases hflag
      by_cases hcount : header.count = 0
      · rw [if_pos hcount] at h
        obtain ⟨-, rfl⟩ := hfinish _ h
        exact ⟨fun _ hn => absurd hcount hn, .empty hcount⟩
      rw [if_neg hcount] at h
      by_cases hskip : fieldArrayIsSkipped field header.stride = true
      · rw [if_pos hskip, readerSkip] at h
        cases hg : readerGet source (min (header.count * header.stride % 2 ^ 64)
            (readerRemaining source middle)) { middle with
              memory := middle.memory.setNumber (base + field.params.counter.offset) 0 } with
        | none =>
          simp only [readerRemaining] at h hg
          simp only [hg] at h
          cases h
        | some result =>
          obtain ⟨bytes, final⟩ := result
          obtain ⟨-, -, rfl⟩ := readerGet_some hg
          simp only [readerRemaining] at h hg
          simp only [hg] at h
          cases h
          exact ⟨fun hs => absurd hskip (by simp [hs]), .skipped hcount hskip⟩
      · rw [if_neg hskip, decodeElements_eq] at h
        cases hr : repeatWhile (elementStep source decode header.stride) header.count 0
            (0, { middle with memory := Memory.zero }) with
        | mk ok result =>
          obtain ⟨decoded, final⟩ := result
          simp only at h
          rw [hr] at h
          cases ok with
          | false =>
            cases h
          | true =>
            simp only [if_true] at h
            obtain ⟨hl, rfl⟩ := hfinish _ h
            have hdecoded : decoded = header.count := by
              have hcounted := elements_counted hr
              simpa using hcounted
            subst hdecoded
            exact ⟨fun _ _ => hl, .elements hcount (by simpa using hskip) hr⟩

end OpenDmi

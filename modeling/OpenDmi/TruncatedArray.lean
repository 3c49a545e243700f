import OpenDmi.FieldRoundTrip
import OpenDmi.Truncation

/-! Arrays the data ends inside of: the elements which are all there are kept, and the ones after
them are not. -/

namespace OpenDmi

open Bytes

variable {source : Source} {cut base stride count held size i j m n : ℕ} {field : Field}
  {fields : List Field} {choices choices' : List Choice} {header : ArrayHeader}
  {state middle next whole : DecodeState}

def elementState (source : Source) (decode : ℕ → DecodeState → Bool × DecodeState) (stride i : ℕ)
    (state : DecodeState) : DecodeState :=
  (repeatWhile (elementStep source decode stride) i 0 (0, { state with memory := Memory.zero })).2.2

def elementEnd (source : Source) (decode : ℕ → DecodeState → Bool × DecodeState) (stride i : ℕ)
    (state : DecodeState) : ℕ :=
  max (nested (decode i) (elementState source decode stride i state)).2.position
    ((elementState source decode stride i state).position + stride)

def elementsHeld (source : Source) (cut : ℕ) (decode : ℕ → DecodeState → Bool × DecodeState)
    (header : ArrayHeader) (state : DecodeState) : ℕ :=
  (List.range header.count).findIdx fun i => cut < elementEnd source decode header.stride i state

def decodeItem (source : Source) (field : Field) (i : ℕ) : DecodeState → Bool × DecodeState :=
  decodeList source (i * field.member.size) field.fields

section loops

variable {σ : Type} {step : ℕ → σ → Bool × σ} {s t u : σ} {ok : Bool}

lemma repeatWhile_add (h : repeatWhile step m i s = (true, t)) :
    repeatWhile step (m + n) i s = repeatWhile step n (i + m) t := by
  induction m generalizing i s with
  | zero =>
    cases h
    rw [Nat.zero_add, Nat.add_zero]
  | succ m ih =>
    obtain ⟨middle, hs, hrest⟩ := repeatWhile_succ h
    rw [show m + 1 + n = m + n + 1 by omega, repeatWhile, hs]
    simp only
    rw [ih hrest, show i + 1 + m = i + (m + 1) by omega]

lemma repeatWhile_first (h : repeatWhile step (m + n) i s = (true, u)) :
    ∃ t, repeatWhile step m i s = (true, t) ∧ repeatWhile step n (i + m) t = (true, u) := by
  induction m generalizing i s with
  | zero => exact ⟨s, rfl, by rwa [Nat.zero_add] at h⟩
  | succ m ih =>
    rw [show m + 1 + n = m + n + 1 by omega] at h
    obtain ⟨middle, hs, hrest⟩ := repeatWhile_succ h
    obtain ⟨t, ht, hu⟩ := ih hrest
    refine ⟨t, ?_, by rwa [show i + (m + 1) = i + 1 + m by omega]⟩
    rw [repeatWhile, hs]
    exact ht

end loops

structure Elements (source : Source) (decode : ℕ → DecodeState → Bool × DecodeState)
    (stride count : ℕ) (state : DecodeState) : Prop where
  reached : ∀ i ≤ count, repeatWhile (elementStep source decode stride) i 0
    (0, { state with memory := Memory.zero }) = (true, i, elementState source decode stride i state)
  read : ∀ i < count, decodeElement source (decode i) stride
    (elementState source decode stride i state) =
      (true, elementState source decode stride (i + 1) state)

lemma elements_of_repeatWhile {decode : ℕ → DecodeState → Bool × DecodeState} {final : ℕ × DecodeState}
    (h : repeatWhile (elementStep source decode stride) count 0
      (0, { state with memory := Memory.zero }) = (true, final)) :
    Elements source decode stride count state := by
  have hreached : ∀ i ≤ count, repeatWhile (elementStep source decode stride) i 0
      (0, { state with memory := Memory.zero }) =
        (true, i, elementState source decode stride i state) := by
    intro i hi
    obtain ⟨rest, rfl⟩ := Nat.exists_eq_add_of_le hi
    obtain ⟨t, ht, -⟩ := repeatWhile_first h
    have hcounted := elements_counted ht
    rw [elementState, ht]
    simp only [Nat.zero_add] at hcounted
    rw [← hcounted]
  refine ⟨hreached, fun i hi => ?_⟩
  have hnext := hreached (i + 1) (by omega)
  rw [repeatWhile_add (hreached i (by omega)), Nat.zero_add, repeatWhile] at hnext
  cases hs : elementStep source decode stride i (i, elementState source decode stride i state) with
  | mk ok after =>
    rw [hs] at hnext
    cases ok with
    | false => cases hnext
    | true =>
      cases hnext
      exact (elementStep_true hs).2

def elementCut (source : Source) (cut : ℕ) (field : Field) (i : ℕ) (state : DecodeState) :
    Option (Field × ℕ) :=
  listCut source cut (i * field.member.size) field.fields (choicesCollect field.fields [])
    { state with
      optional := false
      memory := presetAll (i * field.member.size) field.fields state.memory }

lemma item_read {decode : DecodeState → Bool × DecodeState}
    (h : decodeElement source decode stride state = (true, next))
    (hc : next.isIncomplete = false) :
    ∃ last, decode { state with optional := false } = (true, last) ∧ last.isIncomplete = false ∧
      nested decode state = (true, { last with optional := state.optional }) ∧
      (stride = 0 ∧ next = { last with optional := state.optional } ∨
        stride ≠ 0 ∧ next = { last with
          optional := state.optional
          position := state.position + stride }) := by
  obtain ⟨after, hnested, hnext⟩ := decodeElement_true h
  obtain ⟨last, hread, rfl⟩ := nested_true hnested
  refine ⟨last, hread, ?_, hnested, ?_⟩
  · rcases hnext with ⟨-, rfl⟩ | ⟨-, -, rfl⟩ <;> exact hc
  · rcases hnext with ⟨hz, hnext⟩ | ⟨hz, -, hnext⟩
    · exact .inl ⟨hz, hnext⟩
    · exact .inr ⟨hz, hnext⟩

lemma item_advanced (hp : source.isPart = false)
    (hheld : ∀ f ∈ field.fields, FieldTree Field.IsHeld f)
    (h : decodeElement source (decodeItem source field i) stride state = (true, next))
    (hc : next.isIncomplete = false) : Advanced state next := by
  obtain ⟨last, hread, hlast, -, hnext⟩ := item_read h hc
  rw [decodeItem, decodeList] at hread
  obtain ⟨p, d, m, rfl⟩ := fields_advanced hp (fun f hm => (hheld f hm).holds.hasData)
    (fun f hm base choices choices' s t h hc => one_advanced hp (hheld f hm) h hc) hread hlast
  rcases hnext with ⟨-, rfl⟩ | ⟨-, rfl⟩ <;> exact ⟨_, d, m, rfl⟩

lemma item_here (hcut : cut ≤ source.body.length)
    (hlist : ListCut source cut field.member.size field.fields) (hon : state.position ≤ cut)
    (hi : state.incomplete = false)
    (h : decodeElement source (decodeItem source field i) stride state = (true, next))
    (hc : next.isIncomplete = false)
    (hin : max (nested (decodeItem source field i) state).2.position (state.position + stride) ≤
      cut) :
    decodeElement (truncated source cut) (decodeItem (truncated source cut) field i) stride state =
      (true, next) := by
  obtain ⟨last, hread, hlast, hnested, hnext⟩ := item_read h hc
  rw [hnested] at hin
  simp only at hin
  have hsame := (hlist (i * field.member.size) { state with optional := false } last hon rfl hi
    hread hlast).1 (by omega)
  have hroom : ¬ (stride ≠ 0 ∧ readerRemaining (truncated source cut) state < stride) := by
    rw [readerRemaining, truncated_length hcut]
    omega
  rw [decodeElement, if_neg hroom, nested_eq, decodeItem, hsame]
  simp only
  rcases hnext with ⟨hz, rfl⟩ | ⟨hz, rfl⟩
  · rw [if_pos hz]
  · rw [if_neg hz, if_pos (by rw [truncated_length hcut]; omega)]

lemma item_short (hcut : cut ≤ source.body.length) (decode : DecodeState → Bool × DecodeState)
    (h : stride ≠ 0 ∧ cut < state.position + stride) :
    decodeElement (truncated source cut) decode stride state =
      (false, { state with incomplete := true }) := by
  rw [decodeElement, if_pos]
  refine ⟨h.1, ?_⟩
  rw [readerRemaining, truncated_length hcut]
  omega

lemma item_cut (hcut : cut ≤ source.body.length)
    (hheld : ∀ f ∈ field.fields, FieldTree Field.IsHeld f)
    (hlist : ListCut source cut field.member.size field.fields) (hon : state.position ≤ cut)
    (hi : state.incomplete = false)
    (h : decodeElement source (decodeItem source field i) stride state = (true, next))
    (hc : next.isIncomplete = false) (hroom : ¬ (stride ≠ 0 ∧ cut < state.position + stride))
    (hout : cut < max (nested (decodeItem source field i) state).2.position
      (state.position + stride)) :
    ∃ f position, elementCut source cut field i state = some (f, position) ∧
      (f.IsMeasured → (decodeElement (truncated source cut)
        (decodeItem (truncated source cut) field i) stride state).1 = true) ∧
      (¬ f.IsMeasured → ∃ defined memory, decodeElement (truncated source cut)
        (decodeItem (truncated source cut) field i) stride state =
          (false, { state with
            position := position
            incomplete := decide (cut ≤ position)
            defined := defined
            memory := memory }) ∧
        ∀ offset, Beyond (i * field.member.size) field.member.size offset →
          SameAt memory state.memory offset) := by
  obtain ⟨last, hread, hlast, hnested, hnext⟩ := item_read h hc
  rw [hnested] at hout
  simp only at hout
  obtain ⟨f, position, hfound, hmeasured, hother⟩ :=
    (hlist (i * field.member.size) { state with optional := false } last hon rfl hi hread hlast).2
      (by omega)
  have hroom' : ¬ (stride ≠ 0 ∧ readerRemaining (truncated source cut) state < stride) := by
    rw [readerRemaining, truncated_length hcut]
    omega
  rw [decodeElement, if_neg hroom', nested_eq, decodeItem]
  refine ⟨f, position, hfound, fun hm => ?_, fun hm => ?_⟩
  · have hok := decodeFields_short (fun f hf => (hheld f hf).holds.hasData) (hmeasured hm)
    cases hr : decodeList (truncated source cut) (i * field.member.size) field.fields
        { state with optional := false } with
    | mk ok stopped =>
      rw [decodeList] at hr
      rw [hr] at hok
      simp only at hok
      subst hok
      simp only
      split_ifs with hz hfits
      · rfl
      · rfl
      · rw [truncated_length hcut] at hfits
        omega
  · obtain ⟨hok, d, m, hstuck, hsame⟩ := hother hm
    refine ⟨d, m, ?_, hsame⟩
    cases hr : decodeList (truncated source cut) (i * field.member.size) field.fields
        { state with optional := false } with
    | mk ok stopped =>
      rw [hr] at hok hstuck
      simp only at hok hstuck
      subst hok hstuck
      simp only [readerIsDone, truncated_length hcut]

lemma items_keep (hkeeps : ListKeeps source field.member.size field.fields)
    {s t : ℕ × DecodeState}
    (h : repeatWhile (elementStep source (decodeItem source field) stride) n i s = (true, t)) :
    Keeps (fun offset => offset < i * field.member.size) s.2 t.2 := by
  have hkeep : Keeps (fun offset => offset < 0 + i * field.member.size) s.2 t.2 := by
    refine loop_keeps (fun j s t hs => ?_) h
    rw [Nat.zero_add]
    exact decodeElement_keeps hkeeps (elementStep_true hs).2
  rwa [Nat.zero_add] at hkeep

lemma Elements.keeps (hkeeps : ListKeeps source field.member.size field.fields)
    (hel : Elements source (decodeItem source field) stride count state) (hi : i ≤ count) :
    Keeps (fun offset => offset < i * field.member.size)
      (elementState source (decodeItem source field) stride i state)
      (elementState source (decodeItem source field) stride count state) := by
  obtain ⟨rest, rfl⟩ := Nat.exists_eq_add_of_le hi
  have hall := hel.reached (i + rest) le_rfl
  rw [repeatWhile_add (hel.reached i hi), Nat.zero_add] at hall
  have hkeep := items_keep hkeeps hall
  exact hkeep

lemma Elements.advanced (hp : source.isPart = false)
    (hheld : ∀ f ∈ field.fields, FieldTree Field.IsHeld f)
    (hel : Elements source (decodeItem source field) stride count state)
    (hc : ∀ i ≤ count,
      (elementState source (decodeItem source field) stride i state).isIncomplete = false)
    (hi : i ≤ count) :
    Advanced state (elementState source (decodeItem source field) stride i state) := by
  induction i with
  | zero => exact ⟨_, _, _, rfl⟩
  | succ i ih =>
    obtain ⟨p, d, m, hstate⟩ := ih (by omega)
    obtain ⟨p', d', m', hnext⟩ := item_advanced hp hheld (hel.read i (by omega)) (hc (i + 1) hi)
    exact ⟨p', d', m', by rw [hnext, hstate]⟩

lemma Elements.next_le
    (hel : Elements source (decodeItem source field) stride count state)
    (hc : ∀ i ≤ count,
      (elementState source (decodeItem source field) stride i state).isIncomplete = false)
    (hi : i < count) :
    (elementState source (decodeItem source field) stride (i + 1) state).position ≤
      elementEnd source (decodeItem source field) stride i state := by
  obtain ⟨last, -, -, hnested, hnext⟩ := item_read (hel.read i hi) (hc (i + 1) hi)
  rw [elementEnd, hnested]
  simp only
  rcases hnext with ⟨-, hnext⟩ | ⟨-, hnext⟩ <;> rw [hnext] <;> simp only <;> omega

lemma Elements.here (hcut : cut ≤ source.body.length) (hp : source.isPart = false)
    (hheld : ∀ f ∈ field.fields, FieldTree Field.IsHeld f)
    (hlist : ListCut source cut field.member.size field.fields)
    (hel : Elements source (decodeItem source field) stride count state)
    (hc : ∀ i ≤ count,
      (elementState source (decodeItem source field) stride i state).isIncomplete = false)
    (hon : state.position ≤ cut) (hi : state.incomplete = false) (hj : j ≤ count)
    (hheres : ∀ i < j, elementEnd source (decodeItem source field) stride i state ≤ cut) :
    repeatWhile (elementStep (truncated source cut) (decodeItem (truncated source cut) field) stride)
        j 0 (0, { state with memory := Memory.zero }) =
      (true, j, elementState source (decodeItem source field) stride j state) ∧
    (elementState source (decodeItem source field) stride j state).position ≤ cut := by
  induction j with
  | zero => exact ⟨rfl, hon⟩
  | succ j ih =>
    obtain ⟨hrun, hposition⟩ := ih (by omega) fun i hij => hheres i (by omega)
    refine ⟨?_, (hel.next_le hc (by omega)).trans (hheres j (by omega))⟩
    obtain ⟨p, d, m, hstate⟩ := hel.advanced hp hheld hc (i := j) (by omega)
    have hitem := item_here hcut hlist hposition (by rw [hstate]; exact hi) (hel.read j (by omega))
      (hc (j + 1) hj) (hheres j (by omega))
    rw [repeatWhile_add hrun, Nat.zero_add, repeatWhile, elementStep]
    simp only [hitem]
    rfl

lemma counter_le {source : Source} {decode : ℕ → DecodeState → Bool × DecodeState}
    {s t : ℕ × DecodeState} {ok : Bool}
    (h : repeatWhile (elementStep source decode stride) count i s = (ok, t)) :
    s.1 ≤ t.1 ∧ t.1 ≤ s.1 + count := by
  induction count generalizing i s with
  | zero =>
    cases h
    omega
  | succ count ih =>
    rw [repeatWhile, elementStep] at h
    cases hd : decodeElement source (decode i) stride s.2 with
    | mk read next =>
      rw [hd] at h
      cases read with
      | false =>
        cases h
        simp only
        omega
      | true =>
        have hrest := ih h
        simp only at hrest
        omega

def arrayMemory (base : ℕ) (field : Field) (counter : ℕ) (memory elements : Memory) : Memory :=
  ((memory.setNumber (base + field.params.counter.offset) 0).setPointer (base + field.member.offset)
    (.elements elements.number elements.pointer)).setNumber (base + field.params.counter.offset)
    (UInt64.ofNat counter)

lemma decodeArray_elements {decode : ℕ → DecodeState → Bool × DecodeState} {ok : Bool}
    {counter : ℕ} {last : DecodeState}
    (hheader : decodeArrayHeader source base field state = (some header, middle))
    (hlong : fieldArrayIsSkipped field header.stride = false) (hcount : header.count ≠ 0)
    (hleft : header.leftover = 0)
    (hloop : repeatWhile (elementStep source decode header.stride) header.count 0
      (0, { middle with memory := Memory.zero }) = (ok, counter, last)) :
    decodeArray source base field decode state =
      (ok, { last with memory := arrayMemory base field counter middle.memory last.memory }) := by
  simp only [decodeArray, hheader]
  rw [if_neg hcount, if_neg (by simp [hlong]), decodeElements_eq]
  simp only
  rw [hloop]
  cases ok with
  | false => rfl
  | true =>
    simp only [if_true, if_pos hleft]
    rfl

lemma header_leftover (hcounted : field.params.countLength ≠ 0)
    (h : decodeArrayHeader source base field state = (some header, middle)) :
    header.leftover = 0 := by
  rw [decodeArrayHeader, decodeArrayCount, if_neg hcounted] at h
  cases hcount : readNumber source field.params.countLength state with
  | none => simp [hcount] at h
  | some read =>
    obtain ⟨count, after⟩ := read
    simp only [hcount, Option.map_some] at h
    split_ifs at h
    · obtain ⟨rfl, -, -⟩ := storeArrayHeader_some h
      rfl
    · cases hstride : readNumber source field.params.strideLength after with
      | none => simp [hstride] at h
      | some read =>
        simp only [hstride, Option.map_some] at h
        obtain ⟨rfl, -, -⟩ := storeArrayHeader_some h
        rfl

lemma decodeArrayHeader_here (hcut : cut ≤ source.body.length)
    (hcounted : field.params.countLength ≠ 0)
    (h : decodeArrayHeader source base field state = (some header, middle))
    (hin : middle.position ≤ cut) :
    decodeArrayHeader (truncated source cut) base field state = (some header, middle) := by
  have hposition := (decodeArrayHeader_some h).position
  rw [decodeArrayHeader, decodeArrayCount, if_neg hcounted] at h ⊢
  cases hcount : readNumber source field.params.countLength state with
  | none => simp [hcount] at h
  | some read =>
    obtain ⟨count, after⟩ := read
    obtain ⟨-, -, -, -, hafter⟩ := readNumber_some hcount
    rw [readNumber_here hcut hcount (by rw [hafter]; simp only; omega)]
    simp only [hcount, Option.map_some] at h ⊢
    by_cases hs : field.params.strideLength = 0
    · rw [if_pos hs] at h ⊢
      exact h
    · rw [if_neg hs] at h ⊢
      cases hstride : readNumber source field.params.strideLength after with
      | none => simp [hstride] at h
      | some read =>
        obtain ⟨stride, last⟩ := read
        obtain ⟨-, -, -, -, hlast⟩ := readNumber_some hstride
        rw [readNumber_here hcut hstride (by rw [hlast, hafter]; simp only; omega)]
        rw [hstride] at h
        exact h

lemma arrayMemory_counter (base : ℕ) (field : Field) (counter : ℕ) (memory elements : Memory) :
    (arrayMemory base field counter memory elements).number (base + field.params.counter.offset) =
      UInt64.ofNat counter := by
  simp [arrayMemory, Memory.setNumber]

lemma arrayMemory_block (base : ℕ) (field : Field) (counter : ℕ) (memory elements : Memory) :
    ((arrayMemory base field counter memory elements).pointer
      (base + field.member.offset)).block = elements := by
  simp [arrayMemory, Memory.setNumber, Memory.setPointer, Pointer.block]

lemma arrayMemory_only (base : ℕ) (field : Field) (counter : ℕ) (memory elements : Memory) :
    ElementsOnly base field memory (arrayMemory base field counter memory elements) :=
  fun _ h1 h2 => (setNumber_sameAt h1).trans ((setPointer_sameAt h2).trans (setNumber_sameAt h1))

lemma elementsHeld_spec {decode : ℕ → DecodeState → Bool × DecodeState}
    (h : i < header.count) (hend : cut < elementEnd source decode header.stride i state)
    (hheld : held = elementsHeld source cut decode header state) :
    held < header.count ∧ cut < elementEnd source decode header.stride held state ∧
      ∀ i < held, elementEnd source decode header.stride i state ≤ cut := by
  subst hheld
  have hlt := List.findIdx_lt_length_of_exists
    (p := fun i => decide (cut < elementEnd source decode header.stride i state))
    ⟨i, List.mem_range.mpr h, by simpa using hend⟩
  rw [List.length_range] at hlt
  refine ⟨hlt, ?_, fun k hk => ?_⟩
  · have hfound := List.findIdx_of_getElem?_eq_some (List.getElem?_range hlt)
    simpa [elementsHeld] using hfound
  · have hnot := List.not_of_lt_findIdx hk
    simpa using hnot

/-- Arrays which carry the number of their elements, whose elements hold integers, strings, binaries
and structures of them. -/
structure CountedArray (source : Source) (field : Field) : Prop where
  whole : source.isPart = false
  type : field.type = .array
  defined : fieldIsDefined field source.version = true
  counted : field.params.countLength ≠ 0
  members : ArrayMembers field
  wellFormed : WellFormed source.version field.member.size field.fields
  held : ∀ f ∈ field.fields, FieldTree Field.IsHeld f

structure ArrayKept (base : ℕ) (field : Field) (header : ArrayHeader) (held : ℕ)
    (whole : DecodeState) (result : Bool × DecodeState) : Prop where
  succeeds : result.1 = true
  marked : result.2.isIncomplete = true
  counter : result.2.memory.number (base + field.params.counter.offset) = UInt64.ofNat held
  elements : ∀ i < held, ∀ offset < field.member.size,
    SameAt (result.2.memory.pointer (base + field.member.offset)).block
      (whole.memory.pointer (base + field.member.offset)).block (i * field.member.size + offset)
  count : memberIsPresent field.params.countMember = true →
    result.2.memory.load base field.params.countMember = header.count
  stride : field.params.strideLength ≠ 0 → memberIsPresent field.params.strideMember = true →
    result.2.memory.load base field.params.strideMember = header.stride

/-- The data ends within the stride of the element it cuts, or where a field of it begins, or the
array may be short of anything since a group precedes it. -/
def CutIsHeld (source : Source) (cut : ℕ) (field : Field) (header : ArrayHeader) (held : ℕ)
    (optional : Bool) (state : DecodeState) : Prop :=
  fieldArrayIsSkipped field header.stride = false ∧
    (header.stride ≠ 0 ∧ cut < state.position + header.stride ∨
      ∃ f position, elementCut source cut field held state = some (f, position) ∧
        ¬ f.IsMeasured ∧ (cut ≤ position ∨ optional = true))

lemma decodeOne_array (ht : field.type = .array) : decodeOne source base field choices state =
    ((decodeArray source base field (decodeItem source field) state).1, choices,
      (decodeArray source base field (decodeItem source field) state).2) := by
  rw [decodeOne_eq]
  simp only [ht]
  rfl

lemma CountedArray.hasData (hok : CountedArray source field) : HasData field := by
  simp [HasData, hok.type]

structure WholeArray (source : Source) (base : ℕ) (field : Field) (header : ArrayHeader)
    (state middle whole : DecodeState) : Prop where
  read : decodeArrayHeader source base field state = (some header, middle)
  long : fieldArrayIsSkipped field header.stride = false
  nonempty : header.count ≠ 0
  elements : Elements source (decodeItem source field) header.stride header.count middle
  last : whole = { elementState source (decodeItem source field) header.stride header.count middle with
    memory := arrayMemory base field header.count middle.memory
      (elementState source (decodeItem source field) header.stride header.count middle).memory }

lemma wholeArray_of_decodeArray (hok : CountedArray source field)
    (hheader : decodeArrayHeader source base field state = (some header, middle))
    (hlong : fieldArrayIsSkipped field header.stride = false) (hcount : header.count ≠ 0)
    (h : decodeArray source base field (decodeItem source field) state = (true, whole)) :
    WholeArray source base field header state middle whole := by
  cases hloop : repeatWhile (elementStep source (decodeItem source field) header.stride)
      header.count 0 (0, { middle with memory := Memory.zero }) with
  | mk ok final =>
    obtain ⟨counter, last⟩ := final
    have hleft := header_leftover hok.counted hheader
    rw [decodeArray_elements hheader hlong hcount hleft hloop] at h
    simp only [Prod.mk.injEq] at h
    obtain ⟨rfl, rfl⟩ := h
    have hel := elements_of_repeatWhile hloop
    have hall := hel.reached header.count le_rfl
    rw [hloop] at hall
    simp only [Prod.mk.injEq, true_and] at hall
    obtain ⟨rfl, rfl⟩ := hall
    exact ⟨hheader, hlong, hcount, hel, rfl⟩

namespace WholeArray

variable (hok : CountedArray source field)
  (hw : WholeArray source base field header state middle whole)
  (hcomplete : whole.isIncomplete = false)
include hok hw hcomplete

omit hcomplete in
lemma keeps (hi : i ≤ header.count) :
    Keeps (fun offset => offset < i * field.member.size)
      (elementState source (decodeItem source field) header.stride i middle)
      (elementState source (decodeItem source field) header.stride header.count middle) :=
  hw.elements.keeps (wellFormed_keeps hok.whole hok.wellFormed) hi

lemma complete : ∀ i ≤ header.count,
    (elementState source (decodeItem source field) header.stride i middle).isIncomplete =
      false := by
  intro i hi
  refine (hw.keeps hok hi).complete ?_
  rw [hw.last] at hcomplete
  exact hcomplete

lemma advanced (hi : i ≤ header.count) : ∃ position defined memory,
    elementState source (decodeItem source field) header.stride i middle =
      { state with position := position, defined := defined, memory := memory } := by
  obtain ⟨p, m, hmiddle⟩ := (decodeArrayHeader_some hw.read).rest
  obtain ⟨p', d', m', hstate⟩ :=
    hw.elements.advanced hok.whole hok.held (hw.complete hok hcomplete) hi
  exact ⟨p', d', m', by rw [hstate, hmiddle]⟩

lemma ends : ∃ i < header.count, whole.position ≤
    elementEnd source (decodeItem source field) header.stride i middle := by
  have hne := hw.nonempty
  obtain ⟨n, hn⟩ := Nat.exists_eq_succ_of_ne_zero hne
  refine ⟨n, by omega, ?_⟩
  have hle := hw.elements.next_le (hw.complete hok hcomplete) (i := n) (by omega)
  rw [hw.last]
  simpa [hn] using hle

lemma stops {last : DecodeState} (choices : List Choice) (hcut : cut ≤ source.body.length)
    (hstate : state.incomplete = false) (hstart : middle.position ≤ cut)
    (hheld : held < header.count)
    (hheres : ∀ i < held,
      elementEnd source (decodeItem source field) header.stride i middle ≤ cut)
    (hstop : decodeElement (truncated source cut) (decodeItem (truncated source cut) field held)
      header.stride (elementState source (decodeItem source field) header.stride held middle) =
        (false, last)) :
    decodeOne (truncated source cut) base field choices state =
      (false, choices,
        { last with memory := arrayMemory base field held middle.memory last.memory }) := by
  obtain ⟨p, m, hmiddle⟩ := (decodeArrayHeader_some hw.read).rest
  obtain ⟨hrun, -⟩ := hw.elements.here hcut hok.whole hok.held
    (wellFormed_cut hcut hok.whole hok.wellFormed hok.held) (hw.complete hok hcomplete) hstart
    (by rw [hmiddle]; exact hstate) hheld.le hheres
  obtain ⟨rest, hrest⟩ := Nat.exists_eq_add_of_lt hheld
  have hloop : repeatWhile (elementStep (truncated source cut)
      (decodeItem (truncated source cut) field) header.stride) header.count 0
      (0, { middle with memory := Memory.zero }) = (false, held, last) := by
    rw [hrest, show held + rest + 1 = held + (rest + 1) by omega, repeatWhile_add hrun,
      Nat.zero_add, repeatWhile, elementStep]
    simp only [hstop]
  rw [decodeOne_array hok.type,
    decodeArray_elements (decodeArrayHeader_here hcut hok.counted hw.read hstart) hw.long
    hw.nonempty (header_leftover hok.counted hw.read) hloop]

lemma kept {last : DecodeState} {position defined : ℕ} {memory : Memory} {incomplete : Bool}
    (hheld : held < header.count) (group : Option Field) (post : List Field)
    (hone : decodeOne (truncated source cut) base field choices state = (false, choices,
      { last with memory := arrayMemory base field held middle.memory last.memory }))
    (hlast : last = { elementState source (decodeItem source field) header.stride held middle with
      position := position, defined := defined, memory := memory, incomplete := incomplete })
    (hsame : ∀ offset, Beyond (held * field.member.size) field.member.size offset → SameAt memory
      (elementState source (decodeItem source field) header.stride held middle).memory offset)
    (hshort : (state.optional || incomplete) = true) :
    ArrayKept base field header held whole
      (decodeFields (truncated source cut) base (field :: post) choices group state) := by
  have hdefined : fieldIsDefined field (truncated source cut).version = true := hok.defined
  have hpart : (truncated source cut).isPart = false := hok.whole
  obtain ⟨p, d, m, hstate⟩ := hw.advanced hok hcomplete hheld.le
  have hoptional : last.optional = state.optional ∧ last.incomplete = incomplete := by
    rw [hlast, hstate]
    exact ⟨rfl, rfl⟩
  have hresult : decodeFields (truncated source cut) base (field :: post) choices group state =
      (true, { last with
        isIncomplete := true
        memory := arrayMemory base field held middle.memory last.memory }) := by
    rw [decodeFields_data hok.hasData, if_neg (by simp [hdefined]), hone]
    simp only [hoptional, hshort, if_true, decoderIncomplete, hpart, Bool.false_eq_true, if_false]
  have honly : ElementsOnly base field middle.memory ({ last with
      memory := arrayMemory base field held middle.memory last.memory } : DecodeState).memory :=
    arrayMemory_only base field held middle.memory last.memory
  have hloads := header_loads hok.members (decodeArrayHeader_some hw.read)
    (header_kept hok.type hok.members honly
      fun _ (_ : Inside base (field.members source.version) _) => SameAt.refl _ _)
  rw [hresult]
  refine ⟨rfl, rfl, arrayMemory_counter _ _ _ _ _, fun i hi offset ho => ?_, hloads.1 hok.counted,
    hloads.2⟩
  simp only
  have hle : (i + 1) * field.member.size ≤ held * field.member.size :=
    Nat.mul_le_mul_right _ (by omega)
  have hend : (i + 1) * field.member.size = i * field.member.size + field.member.size := by ring
  have hwhole : whole.isIncomplete = (elementState source (decodeItem source field) header.stride
      header.count middle).isIncomplete := by rw [hw.last]
  rw [hw.last, arrayMemory_block, arrayMemory_block, hlast]
  refine (hsame _ (.inl (by omega))).trans (SameAt.symm ?_)
  exact (hw.keeps hok hheld.le).same (hwhole ▸ hcomplete) _ (by omega)

lemma not_kept {last : DecodeState} {position defined : ℕ} {memory : Memory} {incomplete : Bool}
    (hheld : held < header.count)
    (hone : decodeOne (truncated source cut) base field choices state = (false, choices,
      { last with memory := arrayMemory base field held middle.memory last.memory }))
    (hlast : last = { elementState source (decodeItem source field) header.stride held middle with
      position := position, defined := defined, memory := memory, incomplete := incomplete })
    (hshort : (state.optional || incomplete) = false) (group : Option Field) (post : List Field) :
    (decodeFields (truncated source cut) base (field :: post) choices group state).1 = false := by
  have hdefined : fieldIsDefined field (truncated source cut).version = true := hok.defined
  obtain ⟨p, d, m, hstate⟩ := hw.advanced hok hcomplete hheld.le
  have hoptional : last.optional = state.optional ∧ last.incomplete = incomplete := by
    rw [hlast, hstate]
    exact ⟨rfl, rfl⟩
  rw [decodeFields_data hok.hasData, if_neg (by simp [hdefined]), hone]
  simp only [hoptional, hshort, Bool.false_eq_true, if_false]

omit hw hcomplete in
lemma last_memory (choices : List Choice) (state : DecodeState) :
    (decodeFields (truncated source cut) base [field] choices none state).2.memory =
      (decodeOne (truncated source cut) base field choices state).2.2.memory := by
  have hdefined : fieldIsDefined field (truncated source cut).version = true := hok.defined
  rw [decodeFields_data hok.hasData, if_neg (by simp [hdefined])]
  cases decodeOne (truncated source cut) base field choices state with
  | mk ok result =>
    cases ok with
    | true =>
      simp only
      rw [decodeFields]
      rfl
    | false =>
      simp only [decoderIncomplete]
      split_ifs <;> rfl

lemma counts (choices : List Choice) (hcut : cut ≤ source.body.length)
    (hstate : state.incomplete = false) (hstart : middle.position ≤ cut)
    (hheld : held < header.count)
    (hheres : ∀ i < held,
      elementEnd source (decodeItem source field) header.stride i middle ≤ cut)
    (hgoes : (decodeElement (truncated source cut) (decodeItem (truncated source cut) field held)
      header.stride (elementState source (decodeItem source field) header.stride held middle)).1 =
        true) :
    (decodeFields (truncated source cut) base [field] choices none state).2.memory.number
      (base + field.params.counter.offset) ≠ UInt64.ofNat held := by
  obtain ⟨p, m, hmiddle⟩ := (decodeArrayHeader_some hw.read).rest
  obtain ⟨hrun, -⟩ := hw.elements.here hcut hok.whole hok.held
    (wellFormed_cut hcut hok.whole hok.wellFormed hok.held) (hw.complete hok hcomplete) hstart
    (by rw [hmiddle]; exact hstate) hheld.le hheres
  obtain ⟨rest, hrest⟩ := Nat.exists_eq_add_of_lt hheld
  have hlt : header.count < 2 ^ 64 := by
    obtain ⟨h8, hfits, hcount⟩ := (decodeArrayHeader_some hw.read).counted hok.counted
    rw [hcount]
    exact (number_lt hfits).trans_le (Nat.pow_le_pow_right (by omega) h8)
  cases hloop : repeatWhile (elementStep (truncated source cut)
      (decodeItem (truncated source cut) field) header.stride) header.count 0
      (0, { middle with memory := Memory.zero }) with
  | mk ok final =>
    obtain ⟨counter, last⟩ := final
    rw [last_memory hok, decodeOne_array hok.type,
      decodeArray_elements (decodeArrayHeader_here hcut hok.counted hw.read hstart) hw.long
        hw.nonempty (header_leftover hok.counted hw.read) hloop, arrayMemory_counter]
    have hbounds := counter_le hloop
    rw [hrest, show held + rest + 1 = held + (rest + 1) by omega, repeatWhile_add hrun,
      Nat.zero_add, repeatWhile, elementStep] at hloop
    cases hr : decodeElement (truncated source cut) (decodeItem (truncated source cut) field held)
        header.stride (elementState source (decodeItem source field) header.stride held middle) with
    | mk read next =>
      rw [hr] at hgoes
      simp only at hgoes
      subst hgoes
      simp only [hr] at hloop
      have hmore := counter_le hloop
      simp only at hbounds hmore
      intro heq
      have hnat := congrArg UInt64.toNat heq
      rw [UInt64.toNat_ofNat', UInt64.toNat_ofNat', Nat.mod_eq_of_lt (by omega),
        Nat.mod_eq_of_lt (by omega)] at hnat
      omega

end WholeArray

lemma decodeArray_empty {decode : ℕ → DecodeState → Bool × DecodeState}
    (hheader : decodeArrayHeader source base field state = (some header, middle))
    (hcount : header.count = 0) (hleft : header.leftover = 0) :
    (decodeArray source base field decode state).2.position = middle.position := by
  simp only [decodeArray, hheader]
  rw [if_pos hcount, if_pos hleft]

lemma readerSkip_fits {length : ℕ} (h : state.position + length ≤ source.body.length) :
    readerSkip source length state = (true, { state with position := state.position + length }) := by
  rw [readerSkip, readerGet, if_pos h]

lemma skipped_unmarked (hok : CountedArray source field) (choices : List Choice)
    (hcut : cut ≤ source.body.length) (hstart : middle.position ≤ cut)
    (hheader : decodeArrayHeader source base field state = (some header, middle))
    (hcount : header.count ≠ 0) (hskip : fieldArrayIsSkipped field header.stride = true)
    (hs : state.isIncomplete = false) :
    (decodeFields (truncated source cut) base [field] choices none state).2.isIncomplete =
      false := by
  have hdefined : fieldIsDefined field (truncated source cut).version = true := hok.defined
  obtain ⟨p, m, hmiddle⟩ := (decodeArrayHeader_some hheader).rest
  have harray : ∃ position memory, decodeArray (truncated source cut) base field
      (decodeItem (truncated source cut) field) state =
        (true, { middle with position := position, memory := memory }) := by
    have hfits : middle.position + min (header.count * header.stride % 2 ^ 64)
        (readerRemaining (truncated source cut) middle) ≤ (truncated source cut).body.length := by
      rw [readerRemaining, truncated_length hcut]
      omega
    simp only [decodeArray, decodeArrayHeader_here hcut hok.counted hheader hstart]
    rw [if_neg hcount, if_pos hskip, readerSkip_fits]
    · exact ⟨_, _, rfl⟩
    · exact hfits
  obtain ⟨position, memory, harray⟩ := harray
  rw [decodeFields_data hok.hasData, if_neg (by simp [hdefined]), decodeOne_array hok.type, harray,
    hmiddle]
  simp only
  rw [decodeFields]
  exact hs

theorem decodeFields_truncated_iff (hok : CountedArray source field)
    (hstate : state.incomplete = false)
    (hheader : decodeArrayHeader source base field state = (some header, middle))
    (hread : decodeOne source base field choices state = (true, choices', whole))
    (hcomplete : whole.isIncomplete = false) (hstart : middle.position ≤ cut)
    (hend : cut < whole.position)
    (hheld : held = elementsHeld source cut (decodeItem source field) header middle) :
    (∀ post group, ArrayKept base field header held whole
      (decodeFields (truncated source cut) base (field :: post) choices group state)) ↔
      CutIsHeld source cut field header held state.optional
        (elementState source (decodeItem source field) header.stride held middle) := by
  obtain ⟨-, hfits, -⟩ := (decodeArrayHeader_some hheader).counted hok.counted
  have hlast : (decodeOne source base field choices state).2.2.position ≤ source.body.length :=
    (bound_invariant le_rfl).decodeOne (fieldTree_trivial field) (by omega)
  have hs : state.isIncomplete = false := by
    by_contra hflag
    have hlast : (decodeOne source base field choices state).2.2.isIncomplete = true :=
      (complete_invariant source).decodeOne (fieldTree_trivial field) (by simpa using hflag)
    rw [hread, hcomplete] at hlast
    cases hlast
  rw [hread] at hlast
  have hcut : cut ≤ source.body.length := hend.le.trans hlast
  rw [decodeOne_array hok.type] at hread
  simp only [Prod.mk.injEq] at hread
  have harray : decodeArray source base field (decodeItem source field) state = (true, whole) :=
    Prod.ext hread.1 hread.2.2
  have hcount : header.count ≠ 0 := by
    intro hzero
    have hposition : (decodeArray source base field (decodeItem source field) state).2.position =
        middle.position := decodeArray_empty hheader hzero (header_leftover hok.counted hheader)
    rw [hread.2.2] at hposition
    omega
  by_cases hskip : fieldArrayIsSkipped field header.stride = true
  · constructor
    · intro hkept
      have hflag := skipped_unmarked hok choices hcut hstart hheader hcount hskip hs
      rw [(hkept [] none).marked] at hflag
      cases hflag
    · rintro ⟨hlong, -⟩
      simp [hskip] at hlong
  have hlong : fieldArrayIsSkipped field header.stride = false := by simpa using hskip
  have hw := wholeArray_of_decodeArray hok hheader hlong hcount harray
  obtain ⟨i, hi, hpast⟩ := hw.ends hok hcomplete
  obtain ⟨hlt, hout, hheres⟩ := elementsHeld_spec hi (by omega) hheld
  obtain ⟨p, d, m, hadvanced⟩ := hw.advanced hok hcomplete hlt.le
  have hlist := wellFormed_cut hcut hok.whole hok.wellFormed hok.held
  obtain ⟨p', m', hmiddle⟩ := (decodeArrayHeader_some hheader).rest
  obtain ⟨-, hposition⟩ := hw.elements.here hcut hok.whole hok.held hlist
    (hw.complete hok hcomplete) hstart (by rw [hmiddle]; exact hstate) hlt.le hheres
  by_cases hroom : header.stride ≠ 0 ∧ cut <
      (elementState source (decodeItem source field) header.stride held middle).position +
        header.stride
  · refine ⟨fun _ => ⟨hlong, .inl hroom⟩, fun _ post group => ?_⟩
    have hstop := item_short hcut (decodeItem (truncated source cut) field held) hroom
    exact hw.kept hok hcomplete hlt group post
      (hw.stops hok hcomplete choices hcut hstate hstart hlt hheres hstop) rfl
      (fun _ _ => SameAt.refl _ _) (by simp)
  obtain ⟨f, position, hfound, hmeasured, hother⟩ := item_cut hcut hok.held hlist hposition
    (by rw [hadvanced]; exact hstate) (hw.elements.read held hlt)
    (hw.complete hok hcomplete (held + 1) hlt) hroom hout
  by_cases hm : f.IsMeasured
  · constructor
    · intro hkept
      exact absurd (hkept [] none).counter
        (hw.counts hok hcomplete choices hcut hstate hstart hlt hheres (hmeasured hm))
    · rintro ⟨-, hstride | ⟨f', position', hfound', hnot, -⟩⟩
      · exact absurd hstride hroom
      · rw [hfound, Option.some.injEq, Prod.mk.injEq] at hfound'
        exact absurd (hfound'.1 ▸ hm) hnot
  obtain ⟨d', m'', hstop, hsame⟩ := hother hm
  have hone := hw.stops hok hcomplete choices hcut hstate hstart hlt hheres hstop
  constructor
  · intro hkept
    refine ⟨hlong, .inr ⟨f, position, hfound, hm, ?_⟩⟩
    by_contra hnot
    have hfails := hw.not_kept hok hcomplete hlt hone rfl
      (by simpa [not_or, and_comm] using hnot) none []
    rw [(hkept [] none).succeeds] at hfails
    cases hfails
  · rintro ⟨-, hstride | ⟨f', position', hfound', -, hholds⟩⟩ post group
    · exact absurd hstride hroom
    · rw [hfound, Option.some.injEq, Prod.mk.injEq] at hfound'
      refine hw.kept hok hcomplete hlt group post hone rfl hsame ?_
      rw [hfound'.2]
      simpa [or_comm] using hholds

def wordArray : Field :=
  ⟨⟨0, 2⟩, .array, { counter := ⟨8, 8⟩, countLength := 1, countMember := ⟨16, 1⟩ },
    [⟨⟨0, 2⟩, .integer, { length := 2 }, []⟩]⟩

def wordElement : Field := ⟨⟨0, 2⟩, .integer, { length := 2 }, []⟩

def wordSource : Source :=
  ⟨200, 0, [200, 9, 0, 0, 2, 0x11, 0x22, 0x33, 0x44], [], 0x030900, false⟩

lemma wordArray_counted : CountedArray wordSource wordArray := by
  refine ⟨rfl, rfl, by decide, by decide, ⟨rfl, by decide, by decide, by decide⟩, ?_, ?_⟩
  · refine .intro ⟨?_, by decide, by decide, by decide, by simp [BitsClosed, wordArray], ?_⟩
      (by simp [IsNested, wordArray])
    · simp [wordArray, FieldOk, memberIsPresent, handlersOk_none]
    · exact ⟨by decide, by decide, by decide, by decide, by decide, by decide, by decide, by decide,
        sameGroup_none (by decide), law_plain (by simp [wordArray])⟩
  · intro f hf
    simp only [wordArray, List.mem_singleton] at hf
    subst hf
    exact .intro (.inl rfl) (by simp)

abbrev wordHeader : Option ArrayHeader × DecodeState :=
  decodeArrayHeader wordSource 0 wordArray (decoderInitialize 0)

lemma word_cut (hposition : state.position = 7)
    (hread : 7 < (decodeOne wordSource (1 * wordArray.member.size) wordElement
      (choicesCollect [wordElement] []) { state with
        optional := false
        memory := presetAll (1 * wordArray.member.size) [wordElement]
          state.memory }).2.2.position) :
    elementCut wordSource 7 wordArray 1 state = some (wordElement, 7) := by
  have hfields : wordArray.fields = [wordElement] := rfl
  rw [elementCut, hfields, listCut]
  simp only
  rw [if_pos hread, fieldCut_leaf (by decide), hposition]

lemma word_held : CutIsHeld wordSource 7 wordArray ⟨2, 0, 0⟩ 1 (decoderInitialize 0).optional
    (elementState wordSource (decodeItem wordSource wordArray) 0 1 wordHeader.2) := by
  have hread : 7 < (decodeOne wordSource (1 * wordArray.member.size) wordElement
      (choicesCollect [wordElement] [])
      { elementState wordSource (decodeItem wordSource wordArray) 0 1 wordHeader.2 with
        optional := false
        memory := presetAll (1 * wordArray.member.size) [wordElement]
          (elementState wordSource (decodeItem wordSource wordArray) 0 1
            wordHeader.2).memory }).2.2.position := by decide +kernel
  have hcut := word_cut (by decide +kernel) hread
  have hskip : fieldArrayIsSkipped wordArray 0 = false := by decide
  have hmeasured : ¬ wordElement.IsMeasured := by decide
  exact ⟨hskip, .inr ⟨wordElement, 7, hcut, hmeasured, .inl le_rfl⟩⟩

lemma read_eq {read : Bool × List Choice × DecodeState} (h : read.1 = true) :
    read = (true, read.2.1, read.2.2) := by rw [← h]

theorem decodeFields_truncated_word : ArrayKept 0 wordArray ⟨2, 0, 0⟩ 1
    (decodeOne wordSource 0 wordArray [] (decoderInitialize 0)).2.2
    (decodeFields (truncated wordSource 7) 0 [wordArray] [] none (decoderInitialize 0)) := by
  have hheader : wordHeader = (some ⟨2, 0, 0⟩, wordHeader.2) := Prod.ext (by rfl) rfl
  have hread := read_eq
    (show (decodeOne wordSource 0 wordArray [] (decoderInitialize 0)).1 = true by decide +kernel)
  have hcomplete :
      (decodeOne wordSource 0 wordArray [] (decoderInitialize 0)).2.2.isIncomplete = false := by
    decide +kernel
  have hstart : wordHeader.2.position ≤ 7 := by decide +kernel
  have hend : 7 < (decodeOne wordSource 0 wordArray [] (decoderInitialize 0)).2.2.position := by
    decide +kernel
  have hheld : 1 = elementsHeld wordSource 7 (decodeItem wordSource wordArray) ⟨2, 0, 0⟩
      wordHeader.2 := by decide +kernel
  exact (decodeFields_truncated_iff wordArray_counted rfl hheader hread hcomplete hstart hend
    hheld).mpr word_held [] none

theorem word_cut_refused : (fieldsDecode wordSource [wordArray] 0).1 = true ∧
    (fieldsDecode wordSource [wordArray] 0).2.isIncomplete = false ∧
    (decodeArrayHeader wordSource 0 wordArray (decoderInitialize 0)).2.position ≤ 8 ∧
    8 < (fieldsDecode wordSource [wordArray] 0).2.position ∧
    (fieldsDecode (truncated wordSource 8) [wordArray] 0).1 = false := by
  decide +kernel

end OpenDmi

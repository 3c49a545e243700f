import OpenDmi.DecodeArrays

/-! The rule for what holds of the decoder throughout, whatever it reads and whether it succeeds: it
is enough that the single reads and writes keep it. -/

namespace OpenDmi

open Bytes

variable {source : Source} {F : Field → Prop} {I : DecodeState → Prop} {field : Field}
  {fields : List Field} {state : DecodeState} {base : ℕ}

structure PlainData (data : FieldData) : Prop where
  binary : data.binary = ⟨none, []⟩
  string : ∀ position bytes, data.string ≠ .data position bytes

lemma plainData_number (number : ℕ) : PlainData { FieldData.empty with number := number } :=
  ⟨rfl, fun _ _ => Ref.noConfusion⟩

lemma entityString_ne (source : Source) (number : ℕ) (position : Option ℕ) (bytes : List Byte) :
    entityString source number ≠ .data position bytes := by
  rw [entityString]
  split_ifs
  · simp
  · cases source.strings[number - 1]? <;> simp

structure DecodeInvariant (source : Source) (F : Field → Prop) (I : DecodeState → Prop) :
    Prop where
  read : ∀ s n, I s → s.position + n ≤ source.body.length →
    I { s with position := s.position + n }
  bits : ∀ s v c t, I s → I { s with bitsValue := v, bitsCount := c, bitsTaken := t }
  control : ∀ s o i d l, I s → I { s with optional := o, incomplete := i, defined := d, level := l }
  incomplete : ∀ s, I s → I (decoderIncomplete source s).2
  stop : ∀ s, I s → I (decoderStop source s).2
  number : ∀ s o n, I s → I { s with memory := s.memory.setNumber o n }
  apply : ∀ s f data base writes, I s → F f → PlainData data →
    fieldApply f data = some writes → I { s with memory := s.memory.writes base writes }
  binary : ∀ s f n base writes, I s → F f → s.position + n ≤ source.body.length →
    fieldApply f { FieldData.empty with binary := binaryAt source s.position n } = some writes →
    I { s with position := s.position + n, memory := s.memory.writes base writes }
  preset : ∀ s f o value, I s → F f → f.params.absent = some value →
    I { s with memory := s.memory.write o value }
  enter : ∀ s, I s → I { s with memory := Memory.zero }
  leave : ∀ s t o, I s → I t →
    I { t with memory := s.memory.setPointer o (.elements t.memory.number t.memory.pointer) }
  rewind : ∀ s t n, I s → I t → s.position + n ≤ source.body.length →
    I { t with position := s.position + n }

inductive FieldTree (F : Field → Prop) : Field → Prop
  | intro {field : Field} : F field → (∀ f ∈ field.fields, FieldTree F f) → FieldTree F field

lemma FieldTree.holds (h : FieldTree F field) : F field := by
  cases h with
  | intro hf _ => exact hf

lemma FieldTree.inner (h : FieldTree F field) : ∀ f ∈ field.fields, FieldTree F f := by
  cases h with
  | intro _ hs => exact hs

namespace DecodeInvariant

variable (hk : DecodeInvariant source F I)
include hk

lemma readerGet {length : ℕ} {bytes : List Byte} {next : DecodeState} (hs : I state)
    (h : readerGet source length state = some (bytes, next)) : I next := by
  obtain ⟨hfits, -, rfl⟩ := readerGet_some h
  exact hk.read state length hs hfits

lemma readerSkip (length : ℕ) (hs : I state) : I (readerSkip source length state).2 := by
  rw [OpenDmi.readerSkip]
  cases hr : OpenDmi.readerGet source length state with
  | none => exact hs
  | some result => exact hk.readerGet hs hr

lemma readNumber {length number : ℕ} {next : DecodeState} (hs : I state)
    (h : readNumber source length state = some (number, next)) : I next := by
  obtain ⟨-, -, hfits, -, rfl⟩ := readNumber_some h
  exact hk.read state length hs hfits

lemma applyTo {data : FieldData} {value : Option ℕ} (hs : I state) (hf : F field)
    (hd : PlainData data) : I (applyTo field data value state).2 := by
  cases value with
  | none => exact hs
  | some base =>
    rw [OpenDmi.applyTo]
    cases hw : fieldApply field data with
    | none => exact hs
    | some writes => exact hk.apply state field data base writes hs hf hd hw

lemma applyBinary {value : Option ℕ} {n : ℕ} (hs : I state) (hf : F field)
    (hn : state.position + n ≤ source.body.length) :
    I (OpenDmi.applyTo field { FieldData.empty with binary := binaryAt source state.position n }
      value { state with position := state.position + n }).2 := by
  cases value with
  | none => exact hk.read state n hs hn
  | some base =>
    rw [OpenDmi.applyTo]
    cases hw : fieldApply field
      { FieldData.empty with binary := binaryAt source state.position n } with
    | none => exact hk.read state n hs hn
    | some writes => exact hk.binary state field n base writes hs hf hn hw

lemma setIncomplete (b : Bool) (hs : I state) : I { state with incomplete := b } :=
  hk.control state state.optional b state.defined state.level hs

lemma setOptional (b : Bool) (hs : I state) : I { state with optional := b } :=
  hk.control state b state.incomplete state.defined state.level hs

lemma storePresent (member : Member) (raw : ℕ) (hs : I state) :
    I (storePresent base member raw state).2 := by
  rw [OpenDmi.storePresent]
  split_ifs
  · rw [storeTo]
    cases memberStore member raw with
    | none => exact hs
    | some n => exact hk.number state _ n hs
  · exact hs

lemma groupRead (group : Option Field) (hs : I state) : I (groupRead group base state).2 := by
  cases group with
  | none => exact hs
  | some g => exact hk.storePresent g.params.present 1 hs

lemma readBinary (value : Option ℕ) (hs : I state) (hf : F field) :
    (∀ binary next, readBinary source field value state = (some binary, next) →
      ∃ n, state.position + n ≤ source.body.length ∧ binary = binaryAt source state.position n ∧
        next = { state with position := state.position + n }) ∧
    I (readBinary source field value state).2 := by
  refine ⟨fun binary next h => ?_, ?_⟩
  · obtain ⟨n, -, hfits, hbinary, hnext⟩ := readBinary_some h
    exact ⟨n, hfits, hbinary, hnext⟩
  · rw [OpenDmi.readBinary]
    simp only
    split_ifs
    · cases hg : decoderGetBinary source (readerRemaining source state) state with
      | none => exact hk.setIncomplete true hs
      | some result =>
        obtain ⟨binary, next⟩ := result
        obtain ⟨hfits, rfl, rfl⟩ := decoderGetBinary_some hg
        exact hk.setIncomplete true (hk.applyBinary hs hf hfits)
    · cases hg : decoderGetBinary source (binaryLength source field value state) state with
      | none => exact hs
      | some result =>
        obtain ⟨binary, next⟩ := result
        obtain ⟨hfits, -, rfl⟩ := decoderGetBinary_some hg
        exact hk.read state _ hs hfits

lemma storeUuid (at' : ℕ) (bytes : List Byte) (hs : I state) :
    I { state with memory := state.memory.storeUuid at' bytes } :=
  hk.number _ _ _ (hk.number state at' _ hs)

lemma decodeValue {value : Option ℕ} (hs : I state) (hf : F field) :
    I (decodeValue source field value state).2.2 := by
  rw [OpenDmi.decodeValue]
  cases field.type with
  | skip => exact hk.readerSkip _ hs
  | uuid =>
    simp only
    cases hr : OpenDmi.readerGet source 16 state with
    | none => exact hs
    | some result =>
      have hnext := hk.readerGet hs hr
      cases value with
      | none => exact hnext
      | some at' => exact hk.storeUuid at' _ hnext
  | string =>
    simp only
    cases hr : OpenDmi.readerGet source 1 state with
    | none => exact hs
    | some result => exact hk.applyTo (hk.readerGet hs hr) hf ⟨rfl, entityString_ne source _⟩
  | bcd =>
    simp only
    cases hr : readBcd source field state with
    | none => exact hs
    | some result =>
      rw [readBcd] at hr
      split_ifs at hr
      obtain ⟨read, hread, rfl⟩ := Option.map_eq_some_iff.mp hr
      exact hk.applyTo (hk.readNumber hs hread) hf (plainData_number _)
  | binary =>
    simp only
    obtain ⟨hsome, hnext⟩ := hk.readBinary value hs hf
    cases hr : OpenDmi.readBinary source field value state with
    | mk binary next =>
      cases binary with
      | none =>
        rw [hr] at hnext
        exact hnext
      | some binary =>
        obtain ⟨n, hfits, rfl, rfl⟩ := hsome binary next hr
        exact hk.applyBinary hs hf hfits
  | integer =>
    simp only
    cases hr : OpenDmi.readNumber source field.params.length state with
    | none => exact hs
    | some result => exact hk.applyTo (hk.readNumber hs hr) hf (plainData_number _)
  | struct => exact hs
  | array => exact hs
  | vector => exact hs
  | bits => exact hs
  | pad => exact hs
  | group => exact hs
  | offset => exact hs
  | preset => exact hs

lemma decodeExtended {value : Option ℕ} (choice : Option Choice) (hs : I state) (hf : F field) :
    I (decodeExtended source field value choice state).2 := by
  have hnext : I (OpenDmi.decodeValue source field none state).2.2 := hk.decodeValue hs hf
  rw [OpenDmi.decodeExtended]
  cases hr : OpenDmi.decodeValue source field none state with
  | mk ok result =>
    rw [hr] at hnext
    cases ok with
    | false => exact hnext
    | true =>
      cases choice with
      | none => exact hnext
      | some choice =>
        simp only
        split_ifs
        · exact hnext
        · exact hk.applyTo hnext hf (plainData_number _)

lemma fillBits (bits fuel : ℕ) (hs : I state) : I (fillBits source bits fuel state).2 := by
  induction fuel generalizing state with
  | zero => exact hs
  | succ fuel ih =>
    rw [OpenDmi.fillBits]
    split_ifs
    · cases hr : OpenDmi.readerGet source 1 state with
      | none => exact hs
      | some result => exact ih (hk.bits _ _ _ _ (hk.readerGet hs hr))
    · exact hs

lemma takeBits (bits : ℕ) (hs : I state) : I (takeBits source bits state).2.2 := by
  have hnext := hk.fillBits bits bits hs
  rw [OpenDmi.takeBits]
  cases hr : OpenDmi.fillBits source bits bits state with
  | mk ok next =>
    rw [hr] at hnext
    cases ok with
    | false => exact hnext
    | true => exact hk.bits _ _ _ _ hnext

lemma decodeBits {value : Option ℕ} (hs : I state) (hf : F field) :
    I (decodeBits source field value state).2 := by
  have hnext := hk.takeBits field.params.bits hs
  rw [OpenDmi.decodeBits]
  cases hr : OpenDmi.takeBits source field.params.bits state with
  | mk ok result =>
    rw [hr] at hnext
    cases ok with
    | false => exact hnext
    | true => exact hk.applyTo hnext hf (plainData_number _)

lemma decodePad (hs : I state) : I (decodePad source field state).2 := by
  rw [OpenDmi.decodePad]
  split_ifs
  · exact hk.bits state _ _ 0 hs
  · have hnext := hk.takeBits (field.params.bits - state.bitsTaken % field.params.bits) hs
    cases hr : OpenDmi.takeBits source
      (field.params.bits - state.bitsTaken % field.params.bits) state with
    | mk ok result =>
      rw [hr] at hnext
      cases ok with
      | false => exact hnext
      | true => exact hk.bits _ _ _ 0 hnext

lemma storeArrayHeader (header : ArrayHeader) (hs : I state) :
    I (storeArrayHeader base field header state).2 := by
  have hcount : I (OpenDmi.storePresent base field.params.countMember header.count state).2 :=
    hk.storePresent _ _ hs
  rw [OpenDmi.storeArrayHeader]
  cases hr : OpenDmi.storePresent base field.params.countMember header.count state with
  | mk ok next =>
    rw [hr] at hcount
    cases ok with
    | false => exact hcount
    | true =>
      have hstride : I (OpenDmi.storePresent base field.params.strideMember header.stride next).2 :=
        hk.storePresent _ _ hcount
      simp only
      cases hr' : OpenDmi.storePresent base field.params.strideMember header.stride next with
      | mk ok last =>
        rw [hr'] at hstride
        cases ok with
        | false => exact hstride
        | true => exact hstride

lemma decodeArrayCount {header : ArrayHeader} {next : DecodeState} (hs : I state)
    (h : decodeArrayCount source field state = some (header, next)) : I next := by
  rw [OpenDmi.decodeArrayCount] at h
  split_ifs at h
  · cases h
    exact hs
  · obtain ⟨read, hread, heq⟩ := Option.map_eq_some_iff.mp h
    cases heq
    exact hk.readNumber hs hread

lemma decodeArrayHeader (hs : I state) : I (decodeArrayHeader source base field state).2 := by
  rw [OpenDmi.decodeArrayHeader]
  cases hr : OpenDmi.decodeArrayCount source field state with
  | none => exact hs
  | some result =>
    have hcount := hk.decodeArrayCount hs hr
    simp only
    by_cases hstride : field.params.strideLength = 0
    · rw [if_pos hstride]
      exact hk.storeArrayHeader _ hcount
    · rw [if_neg hstride]
      cases hread : OpenDmi.readNumber source field.params.strideLength result.2 with
      | none => exact hcount
      | some read => exact hk.storeArrayHeader _ (hk.readNumber hcount hread)

end DecodeInvariant

lemma repeatWhile_inv {σ : Type} {step : ℕ → σ → Bool × σ} {J : σ → Prop}
    (hstep : ∀ i s, J s → J (step i s).2) {count i : ℕ} {s : σ} (hs : J s) :
    J (repeatWhile step count i s).2 := by
  induction count generalizing i s with
  | zero => exact hs
  | succ count ih =>
    have hnext := hstep i s hs
    rw [repeatWhile]
    cases hr : step i s with
    | mk ok next =>
      rw [hr] at hnext
      cases ok with
      | false => exact hnext
      | true => exact ih hnext

namespace DecodeInvariant

variable (hk : DecodeInvariant source F I)
include hk

lemma nested {decode : DecodeState → Bool × DecodeState} (hd : ∀ s, I s → I (decode s).2)
    (hs : I state) : I (nested decode state).2 := by
  have hnext := hd _ (hk.setOptional false hs)
  rw [OpenDmi.nested]
  cases hr : decode { state with optional := false } with
  | mk ok next =>
    rw [hr] at hnext
    exact hk.setOptional state.optional hnext

lemma decodeElement {decode : DecodeState → Bool × DecodeState} (hd : ∀ s, I s → I (decode s).2)
    (stride : ℕ) (hs : I state) : I (decodeElement source decode stride state).2 := by
  have hnext := hk.nested hd hs
  rw [OpenDmi.decodeElement]
  by_cases hshort : stride ≠ 0 ∧ readerRemaining source state < stride
  · rw [if_pos hshort]
    exact hk.setIncomplete true hs
  rw [if_neg hshort]
  cases hr : OpenDmi.nested decode state with
  | mk ok next =>
    rw [hr] at hnext
    cases ok with
    | false => exact hk.setIncomplete _ hnext
    | true =>
      simp only
      split_ifs with hzero hfits
      · exact hnext
      · exact hk.rewind state next stride hs hnext hfits
      · exact hk.setIncomplete true hnext

lemma decodeElements {decode : ℕ → DecodeState → Bool × DecodeState}
    (hd : ∀ i s, I s → I (decode i s).2) (stride count : ℕ) (hs : I state) :
    I (decodeElements source decode stride count state).2.2 := by
  rw [decodeElements_eq]
  refine repeatWhile_inv (J := fun s : ℕ × DecodeState => I s.2) (fun i s hs => ?_)
    (hk.enter state hs)
  have hnext := hk.decodeElement (hd i) stride hs
  rw [elementStep]
  cases hr : OpenDmi.decodeElement source (decode i) stride s.2 with
  | mk ok next =>
    rw [hr] at hnext
    cases ok with
    | false => exact hnext
    | true => exact hnext

lemma decodeArray {decode : ℕ → DecodeState → Bool × DecodeState}
    (hd : ∀ i s, I s → I (decode i s).2) (hs : I state) :
    I (decodeArray source base field decode state).2 := by
  have hheader : I (OpenDmi.decodeArrayHeader source base field state).2 := hk.decodeArrayHeader hs
  rw [OpenDmi.decodeArray]
  cases hr : OpenDmi.decodeArrayHeader source base field state with
  | mk found next =>
    rw [hr] at hheader
    cases found with
    | none => exact hheader
    | some header =>
      have hreset := hk.number next (base + field.params.counter.offset) 0 hheader
      have hfinish : ∀ s, I s →
          I (if header.leftover = 0 then (true, s) else decoderIncomplete source s).2 := by
        intro s hs
        split_ifs
        · exact hs
        · exact hk.incomplete s hs
      simp only
      by_cases hzero : header.count = 0
      · rw [if_pos hzero]
        exact hfinish _ hreset
      rw [if_neg hzero]
      by_cases hskip : fieldArrayIsSkipped field header.stride = true
      · rw [if_pos hskip]
        exact hk.readerSkip _ hreset
      rw [if_neg hskip]
      have helements := hk.decodeElements hd header.stride header.count hreset
      cases he : OpenDmi.decodeElements source decode header.stride header.count
        { next with memory := next.memory.setNumber (base + field.params.counter.offset) 0 } with
      | mk ok result =>
        rw [he] at helements
        have hleave := hk.number _ (base + field.params.counter.offset) (UInt64.ofNat result.1)
          (hk.leave _ result.2 (base + field.member.offset) hreset helements)
        cases ok with
        | false => exact hleave
        | true => exact hfinish _ hleave

lemma presetAll (base : ℕ) {fields : List Field} (hf : ∀ f ∈ fields, F f) {memory : Memory}
    (hs : I { state with memory := memory }) :
    I { state with memory := presetAll base fields memory } := by
  induction fields generalizing memory with
  | nil => exact hs
  | cons field fields ih =>
    have hrest := fun f hm => hf f (List.mem_cons_of_mem _ hm)
    rw [OpenDmi.presetAll]
    cases ha : field.params.absent with
    | none => exact ih hrest hs
    | some value =>
      simp only
      split_ifs
      · exact ih hrest (hk.preset _ field _ value hs (hf field List.mem_cons_self) ha)
      · exact ih hrest hs

end DecodeInvariant

namespace DecodeInvariant

variable (hk : DecodeInvariant source F I)
include hk

lemma decodeFields
    (hone : ∀ f ∈ fields, ∀ base choices s, I s → I (decodeOne source base f choices s).2.2)
    {choices : List Choice} {group : Option Field} (hs : I state) :
    I (decodeFields source base fields choices group state).2 := by
  induction fields generalizing choices group state with
  | nil =>
    rw [OpenDmi.decodeFields]
    exact hk.groupRead group hs
  | cons field rest ih =>
    have hrest : ∀ {choices group state}, I state →
        I (OpenDmi.decodeFields source base rest choices group state).2 :=
      fun hs => ih (fun f hm => hone f (List.mem_cons_of_mem _ hm)) hs
    by_cases ho : field.type = .offset
    · rw [OpenDmi.decodeFields]
      simp only [ho]
      split_ifs
      · exact hrest hs
      · exact hs
    by_cases hp : field.type = .preset
    · rw [OpenDmi.decodeFields]
      simp only [hp]
      exact hrest hs
    by_cases hg : field.type = .group
    · have hread : I (OpenDmi.groupRead group base state).2 := hk.groupRead group hs
      rw [OpenDmi.decodeFields]
      simp only [hg]
      cases hr : OpenDmi.groupRead group base state with
      | mk ok next =>
        rw [hr] at hread
        cases ok with
        | false => exact hread
        | true =>
          simp only
          split_ifs
          · exact hk.stop next hread
          · exact hrest (hk.control next true next.incomplete next.defined _ hread)
          · exact hrest (hk.control next true next.incomplete next.defined _ hread)
    rw [decodeFields_data ⟨ho, hp, hg⟩]
    split_ifs
    · exact hrest hs
    · have hnext := hone field List.mem_cons_self base choices state hs
      cases hr : decodeOne source base field choices state with
      | mk ok result =>
        rw [hr] at hnext
        cases ok with
        | false =>
          simp only
          split_ifs
          · exact hk.incomplete _ hnext
          · exact hnext
        | true =>
          exact hrest (hk.control result.2 result.2.optional result.2.incomplete _ result.2.level
            hnext)

lemma decodePlain {choices : List Choice} (hs : I state) (hf : F field) :
    I (decodePlain source base field choices state).2.2 := by
  rw [OpenDmi.decodePlain]
  split_ifs
  · exact hk.decodeExtended _ hs hf
  · have hnext : I (OpenDmi.decodeValue source field (fieldValue base field) state).2.2 :=
      hk.decodeValue hs hf
    cases hr : OpenDmi.decodeValue source field (fieldValue base field) state with
    | mk ok result =>
      obtain ⟨raw, next⟩ := result
      rw [hr] at hnext
      cases raw with
      | none => exact hnext
      | some raw => exact hnext

lemma decodeOne (hf : FieldTree F field) {choices : List Choice} (hs : I state) :
    I (decodeOne source base field choices state).2.2 := by
  induction hf generalizing base choices state with
  | intro hfield hfields ih =>
    rename_i field
    have hlist : ∀ base s, I s → I (OpenDmi.decodeList source base field.fields s).2 :=
      fun base s hs => hk.decodeFields (fun f hm base choices s hs => ih f hm hs)
        (hk.presetAll base (fun f hm => (hfields f hm).holds) hs)
    rw [decodeOne_eq]
    cases field.type with
    | bits => exact hk.decodeBits hs hfield
    | pad => exact hk.decodePad hs
    | array => exact hk.decodeArray (fun i s hs => hlist _ s hs) hs
    | vector => exact repeatWhile_inv (fun i s hs => hk.nested (fun s hs => hlist _ s hs) hs) hs
    | struct => exact hk.nested (fun s hs => hlist _ s hs) hs
    | _ => exact hk.decodePlain hs hfield

lemma decodeList (hf : ∀ f ∈ fields, FieldTree F f) (hs : I state) :
    I (decodeList source base fields state).2 :=
  hk.decodeFields (fun f hm _ _ _ hs => hk.decodeOne (hf f hm) hs)
    (hk.presetAll base (fun f hm => (hf f hm).holds) hs)

end DecodeInvariant

end OpenDmi

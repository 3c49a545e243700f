import OpenDmi.DecodeRun
import OpenDmi.HandlerPairs

namespace OpenDmi

open Bytes

def fieldDecodeKilobytes (member : Member) : FieldData → Option Writes :=
  decodeNumber member fun number => number <<< 10

def fieldDecodeKilobytesLast (member : Member) : FieldData → Option Writes :=
  decodeNumber member fun number => number <<< 10 ||| 0x3FF

def fieldEncodeKilobytes (member : Member) : Memory → Option FieldData :=
  encodeNumber member fun size => size >>> 10

def startAddress : Member := ⟨0, 8⟩
def endAddress : Member := ⟨8, 8⟩
def rangeSize : Member := ⟨16, 8⟩

def addressEscape : ℕ := 0xFFFFFFFF

def startAddressField : Field :=
  ⟨startAddress, .integer,
    { length := 4
      decode := some (fieldDecodeKilobytes startAddress)
      encode := some (fieldEncodeKilobytes startAddress) }, []⟩

def endAddressField : Field :=
  ⟨endAddress, .integer,
    { length := 4
      decode := some (fieldDecodeKilobytesLast endAddress)
      encode := some (fieldEncodeKilobytes endAddress) }, []⟩

def startAddressExField : Field :=
  ⟨startAddress, .integer, { length := 8, extended := true, whenRaw := addressEscape }, []⟩

def endAddressExField : Field :=
  ⟨endAddress, .integer,
    { length := 8, extended := true, «when» := startAddress, whenRaw := addressEscape }, []⟩

def wordField (offset : ℕ) : Field := ⟨⟨offset, 2⟩, .integer, { length := 2 }, []⟩

def byteField (offset unknownRaw : ℕ) : Field :=
  ⟨⟨offset, 2⟩, .integer, { length := 1, unknownRaw := unknownRaw }, []⟩

/-- The specification of the structures which map something to a range of addresses, `middle` being
the fields between the addresses and the extended ones, and `extended` the place of the latter. -/
structure MemoryAddrSpec where
  typeId : ℕ
  minimumLength : ℕ
  extended : ℕ
  middle : List Field

def memoryArrayAddrSpec : MemoryAddrSpec where
  typeId := 19
  minimumLength := 0x0F
  extended := 0x0F
  middle := [wordField 24, byteField 40 0]

def memoryDeviceAddrSpec : MemoryAddrSpec where
  typeId := 20
  minimumLength := 0x13
  extended := 0x13
  middle := [wordField 24, wordField 40, byteField 56 0xFF, byteField 58 0xFF, byteField 60 0xFF]

def MemoryAddrSpec.fields (spec : MemoryAddrSpec) : List Field :=
  startAddressField :: endAddressField :: spec.middle ++
    [⟨.null, .group, { since := dmiVersion 2 7 0 }, []⟩, startAddressExField, endAddressExField]

def decoderGetAt (source : Source) (offset length : ℕ) : Option ℕ :=
  if offset + length ≤ source.body.length then some (leLoad (window source.body offset length))
  else none

def memoryAddrValidate (spec : MemoryAddrSpec) (source : Source) : Bool :=
  if source.typeId ≠ spec.typeId then false
  else match decoderGetAt source 4 4, decoderGetAt source 8 4 with
    | some startAddr, some endAddr =>
      let addrEx := (decoderGetAt source spec.extended 8).bind fun startAddrEx =>
        (decoderGetAt source (spec.extended + 8) 8).map fun endAddrEx => (startAddrEx, endAddrEx)
      if startAddr = addressEscape ∨ endAddr = addressEscape then
        if startAddr ≠ endAddr then false
        else match addrEx with
          | some (startAddrEx, endAddrEx) => ! decide (endAddrEx ≤ startAddrEx)
          | none => false
      else if endAddr ≤ startAddr then false
      else match addrEx with
        | some (startAddrEx, endAddrEx) => ! (startAddrEx != 0 || endAddrEx != 0)
        | none => true
    | _, _ => false

def memoryAddrDerive (info : Memory) : Memory :=
  let start := info.number startAddress.offset
  let stop := info.number endAddress.offset
  info.setNumber rangeSize.offset (if stop > start then stop - start + 1 else start - stop + 1)

def memoryAddrDecode (spec : MemoryAddrSpec) (source : Source) : Option Memory :=
  if source.body.length < spec.minimumLength then none
  else match fieldsDecode source spec.fields (dmiVersion 2 1 0) with
    | (false, _) => none
    | (true, state) => some (memoryAddrDerive state.memory)

def memoryArrayAddrValidate : Source → Bool := memoryAddrValidate memoryArrayAddrSpec
def memoryDeviceAddrValidate : Source → Bool := memoryAddrValidate memoryDeviceAddrSpec
def memoryArrayAddrDecode : Source → Option Memory := memoryAddrDecode memoryArrayAddrSpec
def memoryDeviceAddrDecode : Source → Option Memory := memoryAddrDecode memoryDeviceAddrSpec

section Numbers

variable {source : Source} {field : Field} {rest : List Field} {choices : List Choice}
  {group : Option Field} {state : DecodeState}

structure NumberField (field : Field) : Prop where
  type : field.type = .integer
  always : field.params.from = 0 ∧ field.params.before = 0
  positive : 0 < field.params.length
  short : field.params.length ≤ 8
  present : memberIsPresent field.member = true

lemma NumberField.defined (hf : NumberField field) (version : ℕ) :
    fieldIsDefined field version = true := by
  simp [fieldIsDefined, hf.always]

lemma NumberField.hasData (hf : NumberField field) : HasData field := by
  simp [HasData, hf.type]

lemma readNumber_at {length : ℕ} (hpos : 0 < length) (hshort : length ≤ 8)
    (hfits : state.position + length ≤ source.body.length) :
    readNumber source length state = some (leLoad (window source.body state.position length),
      { state with position := state.position + length }) := by
  rw [readNumber, if_neg (by omega), readerGet, if_pos hfits, Option.map_some]

lemma readNumber_past {length : ℕ} (hpast : source.body.length < state.position + length) :
    readNumber source length state = none := by
  simp only [readNumber, readerGet, if_neg (not_le.mpr hpast), Option.map_none, ite_self]

variable (source rest choices group state) in
lemma decodeFields_number (hf : NumberField field) (hplain : field.params.extended = false)
    {writes : Writes} (hfits : state.position + field.params.length ≤ source.body.length)
    (happly : fieldApply field
      (numberData (leLoad (window source.body state.position field.params.length))) = some writes) :
    decodeFields source 0 (field :: rest) choices group state =
      decodeFields source 0 rest
        (choiceUpdate choices (fieldWhenOffset field) fun c =>
          { c with raw := leLoad (window source.body state.position field.params.length) })
        group
        { state with
          position := state.position + field.params.length
          memory := state.memory.writes field.member.offset writes
          defined := max state.defined 0 } := by
  have hvalue : fieldValue 0 field = some field.member.offset := by
    rw [fieldValue, if_pos hf.present, Nat.zero_add]
  rw [decodeFields_data hf.hasData, if_neg (by simp [hf.defined]), decodeOne_eq]
  simp only [hf.type, decodePlain, hplain, Bool.false_eq_true, if_false, decodeValue,
    readNumber_at hf.positive hf.short hfits, hvalue, applyTo]
  rw [numberData] at happly
  simp only [happly, hf.always.1]

lemma decodeFields_extended (hf : NumberField field) (hextended : field.params.extended = true)
    {choice : Choice} {writes : Writes}
    (hchoice : choiceFind choices (fieldWhenOffset field) = some choice)
    (hfits : state.position + field.params.length ≤ source.body.length)
    (happly : fieldApply field
      (numberData (leLoad (window source.body state.position field.params.length))) = some writes) :
    decodeFields source 0 (field :: rest) choices group state =
      decodeFields source 0 rest choices group
        { state with
          position := state.position + field.params.length
          memory := if choice.raw = field.params.whenRaw then
            state.memory.writes field.member.offset writes else state.memory
          defined := max state.defined 0 } := by
  have hvalue : fieldValue 0 field = some field.member.offset := by
    rw [fieldValue, if_pos hf.present, Nat.zero_add]
  rw [decodeFields_data hf.hasData, if_neg (by simp [hf.defined]), decodeOne_eq]
  simp only [hf.type, decodePlain, hextended, if_true, decodeExtended, decodeValue,
    readNumber_at hf.positive hf.short hfits, hchoice, hvalue, applyTo, Option.getD_some]
  rw [numberData] at happly
  by_cases hraw : choice.raw = field.params.whenRaw
  · simp [hraw, happly, hf.always.1]
  · simp [hraw, hf.always.1]

lemma decodeFields_ended (hf : NumberField field) (hextended : field.params.extended = true)
    (hoptional : state.optional = true)
    (hpast : source.body.length < state.position + field.params.length) :
    decodeFields source 0 (field :: rest) choices group state = decoderIncomplete source state := by
  rw [decodeFields_data hf.hasData, if_neg (by simp [hf.defined]), decodeOne_eq]
  simp only [hf.type, decodePlain, hextended, if_true, decodeExtended, decodeValue,
    readNumber_past hpast, hoptional, Bool.true_or]

lemma fieldApply_number (data : FieldData) (ht : field.type = .integer)
    (hdecode : field.params.decode = none) (hsize : field.member.size ∈ [1, 2, 4, 8]) :
    ∃ n, fieldApply field data = some [(0, .number n)] := by
  have hstore (raw : ℕ) : ∃ n, (memberStore field.member raw).map
      (fun n => [(0, Value.number n)]) = some [(0, .number n)] := by
    rw [memberStore, if_pos hsize]
    exact ⟨_, rfl⟩
  rw [fieldApply]
  simp only [hdecode, ht]
  split_ifs
  · exact hstore _
  · exact hstore _

structure MiddleField (field : Field) : Prop extends NumberField field where
  plain : field.params.extended = false
  decode : field.params.decode = none
  size : field.member.size ∈ [1, 2, 4, 8]
  past : rangeSize.offset < field.member.offset
  own : fieldWhenOffset field ≠ startAddress.offset

structure AddrKept (state next : DecodeState) : Prop where
  incomplete : next.incomplete = state.incomplete
  start : next.memory.number startAddress.offset = state.memory.number startAddress.offset
  stop : next.memory.number endAddress.offset = state.memory.number endAddress.offset

variable (source rest choices group state) in
lemma decodeFields_middle {middle : List Field} (hmiddle : ∀ f ∈ middle, MiddleField f)
    (hchoices : ∀ c ∈ choices, c.offset = startAddress.offset)
    (hfits : state.position + (middle.map (·.params.length)).sum ≤ source.body.length) :
    ∃ next, decodeFields source 0 (middle ++ rest) choices group state =
        decodeFields source 0 rest choices group next ∧
      next.position = state.position + (middle.map (·.params.length)).sum ∧
      AddrKept state next := by
  induction middle generalizing state with
  | nil => exact ⟨state, rfl, rfl, rfl, rfl, rfl⟩
  | cons field middle ih =>
    have hf : MiddleField field := hmiddle field List.mem_cons_self
    rw [List.map_cons, List.sum_cons] at hfits
    obtain ⟨n, happly⟩ := fieldApply_number
      (numberData (leLoad (window source.body state.position field.params.length))) hf.type hf.decode hf.size
    rw [List.cons_append, decodeFields_number source _ choices group state hf.toNumberField hf.plain
      (by omega) happly]
    have hsame : choiceUpdate choices (fieldWhenOffset field) (fun c =>
        { c with raw := leLoad (window source.body state.position field.params.length) }) =
        choices := by
      refine List.map_congr_left (fun c hc => if_neg ?_) |>.trans (List.map_id _)
      rw [hchoices c hc]
      exact hf.own.symm
    rw [hsame]
    obtain ⟨next, heq, hposition, hkept⟩ := ih
      { state with
        position := state.position + field.params.length
        memory := state.memory.writes field.member.offset [(0, .number n)]
        defined := max state.defined 0 }
      (fun f hm => hmiddle f (List.mem_cons_of_mem _ hm)) (by simp only; omega)
    have hpast : 16 < field.member.offset := hf.past
    refine ⟨next, heq, ?_, hkept.incomplete, hkept.start.trans ?_, hkept.stop.trans ?_⟩
    · rw [hposition, List.map_cons, List.sum_cons]
      simp only
      omega
    · exact Function.update_of_ne (by simp only [startAddress]; omega) _ _
    · exact Function.update_of_ne (by simp only [endAddress]; omega) _ _

lemma extendedField_apply {member : Member} {params : FieldParams} {fields : List Field} (n : ℕ)
    (hunknown : params.unknownRaw = 0) (hdecode : params.decode = none) (hsize : member.size = 8)
    (hn : n < 2 ^ 64) : fieldApply ⟨member, .integer, params, fields⟩ (numberData n) =
      some [(0, .number (UInt64.ofNat n))] := by
  simp only [fieldApply, hunknown, hdecode, memberStore, hsize, numberData, ne_eq, not_true_eq_false,
    false_and, if_false]
  rw [if_pos (by decide), Nat.mod_eq_of_lt (by omega)]
  rfl

structure ExtendedRead (source : Source) (raw : ℕ) (state : DecodeState) (final : DecodeState) :
    Prop where
  start : final.memory.number startAddress.offset =
    if raw = addressEscape ∧ state.position + 8 ≤ source.body.length then
      UInt64.ofNat (leLoad (window source.body state.position 8))
    else state.memory.number startAddress.offset
  stop : final.memory.number endAddress.offset =
    if raw = addressEscape ∧ state.position + 16 ≤ source.body.length then
      UInt64.ofNat (leLoad (window source.body (state.position + 8) 8))
    else state.memory.number endAddress.offset

lemma decoderStop_memory (source : Source) (state : DecodeState) :
    (decoderStop source state).1 = true ∧ (decoderStop source state).2.memory = state.memory := by
  rw [decoderStop, decoderIncomplete]
  split_ifs <;> exact ⟨rfl, rfl⟩

lemma decoderIncomplete_memory (source : Source) (state : DecodeState) :
    (decoderIncomplete source state).1 = true ∧
      (decoderIncomplete source state).2.memory = state.memory := by
  rw [decoderIncomplete]
  split_ifs <;> exact ⟨rfl, rfl⟩

lemma startAddressExField_number : NumberField startAddressExField :=
  ⟨rfl, ⟨rfl, rfl⟩, by decide, by decide, rfl⟩

lemma endAddressExField_number : NumberField endAddressExField :=
  ⟨rfl, ⟨rfl, rfl⟩, by decide, by decide, rfl⟩

lemma writeIf_self (c : Prop) [Decidable c] (memory : Memory) (place : ℕ) (n : UInt64) :
    (if c then memory.writes place [(0, .number n)] else memory).number place =
      if c then n else memory.number place := by
  split_ifs
  · exact Function.update_self _ _ _
  · rfl

lemma writeIf_ne (c : Prop) [Decidable c] (memory : Memory) {place other : ℕ} (n : UInt64)
    (h : other ≠ place) : (if c then memory.writes place [(0, .number n)] else memory).number other =
      memory.number other := by
  split_ifs
  · exact Function.update_of_ne h _ _
  · rfl

lemma qword_lt {position : ℕ} (h : position + 8 ≤ source.body.length) :
    leLoad (window source.body position 8) < 2 ^ 64 := by
  have hlt := number_lt h
  norm_num at hlt ⊢
  exact hlt

variable (source state) in
lemma decodeFields_endAddressEx (raw : ℕ) (extended : Bool) (params : FieldParams)
    (hpresent : params.present = Member.null) (hoptional : state.optional = true) :
    ∃ final, decodeFields source 0 [endAddressExField]
        [⟨startAddress.offset, addressEscape, raw, extended⟩] (some ⟨.null, .group, params, []⟩)
        state = (true, final) ∧
      final.memory.number startAddress.offset = state.memory.number startAddress.offset ∧
      final.memory.number endAddress.offset =
        if raw = addressEscape ∧ state.position + 8 ≤ source.body.length then
          UInt64.ofNat (leLoad (window source.body state.position 8))
        else state.memory.number endAddress.offset := by
  by_cases hfits : state.position + 8 ≤ source.body.length
  · rw [decodeFields_extended endAddressExField_number rfl rfl hfits
      (extendedField_apply _ rfl rfl rfl (qword_lt hfits)), decodeFields]
    simp only [groupRead, storePresent, hpresent, memberIsPresent, Member.null, bne_self_eq_false,
      Bool.false_eq_true, if_false]
    refine ⟨_, rfl, writeIf_ne (raw = addressEscape) _ _ (by decide), ?_⟩
    refine (writeIf_self (raw = addressEscape) _ _ _).trans ?_
    simp only [hfits, and_true]
    rfl
  · obtain ⟨hok, hkept⟩ := decoderIncomplete_memory source state
    rw [decodeFields_ended endAddressExField_number rfl hoptional (not_le.mp hfits)]
    refine ⟨_, Prod.ext hok rfl, ?_, ?_⟩
    · rw [hkept]
    · rw [hkept, if_neg fun h => hfits h.2]

variable (source state) in
lemma decodeFields_bothAddressEx (raw : ℕ) (extended : Bool) (params : FieldParams)
    (hpresent : params.present = Member.null) (hoptional : state.optional = true) :
    ∃ final, decodeFields source 0 [startAddressExField, endAddressExField]
        [⟨startAddress.offset, addressEscape, raw, extended⟩] (some ⟨.null, .group, params, []⟩)
        state = (true, final) ∧
      ExtendedRead source raw state final := by
  by_cases hfits : state.position + 8 ≤ source.body.length
  · rw [decodeFields_extended startAddressExField_number rfl rfl hfits
      (extendedField_apply _ rfl rfl rfl (qword_lt hfits))]
    obtain ⟨final, heq, hstart, hstop⟩ := decodeFields_endAddressEx source
      { state with
        position := state.position + 8
        memory := if raw = addressEscape then state.memory.writes startAddress.offset
            [(0, .number (UInt64.ofNat (leLoad (window source.body state.position 8))))]
          else state.memory
        defined := max state.defined 0 } raw extended params hpresent hoptional
    have hself := writeIf_self (raw = addressEscape) state.memory startAddress.offset
      (UInt64.ofNat (leLoad (window source.body state.position 8)))
    have hother := writeIf_ne (raw = addressEscape) state.memory
      (UInt64.ofNat (leLoad (window source.body state.position 8)))
      (show endAddress.offset ≠ startAddress.offset by decide)
    refine ⟨final, heq, hstart.trans ?_, hstop.trans ?_⟩
    · simp only [hself, hfits, and_true]
    · simp only [hother, Nat.add_assoc, Nat.reduceAdd]
  · obtain ⟨hok, hkept⟩ := decoderIncomplete_memory source state
    rw [decodeFields_ended startAddressExField_number rfl hoptional (not_le.mp hfits)]
    refine ⟨_, Prod.ext hok rfl, ?_, ?_⟩
    · rw [hkept, if_neg fun h => hfits h.2]
    · rw [hkept, if_neg (by omega)]

variable (source state) in
lemma decodeFields_addressEx (raw : ℕ) (extended : Bool) (params : FieldParams)
    (hpresent : params.present = Member.null) :
    ∃ final, decodeFields source 0
        [⟨.null, .group, params, []⟩, startAddressExField, endAddressExField]
        [⟨startAddress.offset, addressEscape, raw, extended⟩] none state = (true, final) ∧
      ExtendedRead source raw state final := by
  rw [decodeFields]
  simp only [groupRead]
  by_cases hdone : readerIsDone source state = true
  · obtain ⟨hok, hmemory⟩ := decoderStop_memory source state
    have hend : source.body.length ≤ state.position := by simpa [readerIsDone] using hdone
    rw [if_pos hdone]
    refine ⟨_, Prod.ext hok rfl, ?_, ?_⟩
    · rw [hmemory, if_neg (by omega)]
    · rw [hmemory, if_neg (by omega)]
  · rw [if_neg hdone]
    obtain ⟨final, heq, hread⟩ := decodeFields_bothAddressEx source
      { state with
        level := if params.since ≠ 0 then params.since else state.level
        optional := true } raw extended params hpresent rfl
    exact ⟨final, heq, hread.start, hread.stop⟩

end Numbers

variable {spec : MemoryAddrSpec} {source : Source}

def bodyNumber (source : Source) (offset length : ℕ) : ℕ :=
  leLoad (window source.body offset length)

def rangeFirst (spec : MemoryAddrSpec) (source : Source) : ℕ :=
  if bodyNumber source 4 4 = addressEscape then bodyNumber source spec.extended 8
  else bodyNumber source 4 4 * 1024

def rangeLast (spec : MemoryAddrSpec) (source : Source) : ℕ :=
  if bodyNumber source 8 4 = addressEscape then bodyNumber source (spec.extended + 8) 8
  else bodyNumber source 8 4 * 1024 + 1023

structure RangeExact (spec : MemoryAddrSpec) (source : Source) (info : Memory) : Prop where
  first : (info.number startAddress.offset).toNat = rangeFirst spec source
  last : (info.number endAddress.offset).toNat = rangeLast spec source
  size : ((info.number rangeSize.offset).toNat : ℤ) = rangeLast spec source - rangeFirst spec source + 1
  nonzero : info.number rangeSize.offset ≠ 0

def SpansAddresses (spec : MemoryAddrSpec) (source : Source) : Prop :=
  bodyNumber source 4 4 = addressEscape ∧ bodyNumber source spec.extended 8 = 0 ∧
    bodyNumber source (spec.extended + 8) 8 = 2 ^ 64 - 1

structure MemoryAddrSpec.Lays (spec : MemoryAddrSpec) : Prop where
  middle : ∀ field ∈ spec.middle, MiddleField field
  minimum : spec.extended = spec.minimumLength
  place : 12 + (spec.middle.map (·.params.length)).sum = spec.extended

lemma wordField_middle {offset : ℕ} (h : 16 < offset) : MiddleField (wordField offset) :=
  ⟨⟨rfl, ⟨rfl, rfl⟩, by simp [wordField], by simp [wordField], rfl⟩, rfl, rfl,
    by simp [wordField], h, show offset ≠ 0 by omega⟩

lemma byteField_middle {offset : ℕ} (unknownRaw : ℕ) (h : 16 < offset) :
    MiddleField (byteField offset unknownRaw) :=
  ⟨⟨rfl, ⟨rfl, rfl⟩, by simp [byteField], by simp [byteField], rfl⟩, rfl, rfl,
    by simp [byteField], h, show offset ≠ 0 by omega⟩

lemma memoryArrayAddrSpec_lays : memoryArrayAddrSpec.Lays := by
  refine ⟨?_, rfl, rfl⟩
  simp only [memoryArrayAddrSpec, List.forall_mem_cons]
  exact ⟨wordField_middle (by decide), byteField_middle _ (by decide), by simp⟩

lemma memoryDeviceAddrSpec_lays : memoryDeviceAddrSpec.Lays := by
  refine ⟨?_, rfl, rfl⟩
  simp only [memoryDeviceAddrSpec, List.forall_mem_cons]
  exact ⟨wordField_middle (by decide), wordField_middle (by decide), byteField_middle _ (by decide),
    byteField_middle _ (by decide), byteField_middle _ (by decide), by simp⟩

lemma dword_lt {position : ℕ} (h : position + 4 ≤ source.body.length) :
    bodyNumber source position 4 < 2 ^ 32 := by
  have hlt := number_lt h
  norm_num at hlt ⊢
  exact hlt

lemma choicesCollect_middle {middle rest : List Field} {choices : List Choice}
    (hmiddle : ∀ f ∈ middle, MiddleField f) :
    choicesCollect (middle ++ rest) choices = choicesCollect rest choices := by
  induction middle with
  | nil => rfl
  | cons field middle ih =>
    have hplain := (hmiddle field List.mem_cons_self).plain
    rw [List.cons_append, choicesCollect, if_neg (by simp [hplain])]
    exact ih fun f hm => hmiddle f (List.mem_cons_of_mem _ hm)

lemma choicesCollect_addr (h : spec.Lays) :
    choicesCollect spec.fields [] = [⟨startAddress.offset, addressEscape, 0, false⟩] := by
  rw [MemoryAddrSpec.fields, List.cons_append, List.cons_append, choicesCollect,
    if_neg (by simp [startAddressField]), choicesCollect, if_neg (by simp [endAddressField]),
    choicesCollect_middle h.middle]
  rfl

lemma startAddressField_apply {n : ℕ} (hn : n < 2 ^ 32) :
    fieldApply startAddressField (numberData n) =
      some [(0, .number (UInt64.ofNat (n * 1024)))] := by
  have hvalue : n <<< 10 = n * 1024 := Nat.shiftLeft_eq n 10
  have hset : fieldSet startAddress (n * 1024) = some [(0, .number (UInt64.ofNat (n * 1024)))] :=
    fieldSet_some (by decide) (by simp only [startAddress]; omega)
  rw [← hset, ← hvalue]
  rfl

lemma endAddressField_apply {n : ℕ} (hn : n < 2 ^ 32) :
    fieldApply endAddressField (numberData n) =
      some [(0, .number (UInt64.ofNat (n * 1024 + 1023)))] := by
  have hvalue : n <<< 10 ||| 0x3FF = n * 1024 + 1023 := or_shift n (by decide)
  have hset : fieldSet endAddress (n * 1024 + 1023) =
      some [(0, .number (UInt64.ofNat (n * 1024 + 1023)))] :=
    fieldSet_some (by decide) (by simp only [endAddress]; omega)
  rw [← hset, ← hvalue]
  rfl

structure AddrRead (spec : MemoryAddrSpec) (source : Source) (info : Memory) : Prop where
  start : info.number startAddress.offset = UInt64.ofNat
    (if bodyNumber source 4 4 = addressEscape ∧ spec.extended + 8 ≤ source.body.length then
      bodyNumber source spec.extended 8
    else bodyNumber source 4 4 * 1024)
  stop : info.number endAddress.offset = UInt64.ofNat
    (if bodyNumber source 4 4 = addressEscape ∧ spec.extended + 16 ≤ source.body.length then
      bodyNumber source (spec.extended + 8) 8
    else bodyNumber source 8 4 * 1024 + 1023)

lemma decodeFields_addresses {state : DecodeState} (rest : List Field) (hat : state.position = 4)
    (hlength : 12 ≤ source.body.length) :
    decodeFields source 0 (startAddressField :: endAddressField :: rest)
        [⟨startAddress.offset, addressEscape, 0, false⟩] none state =
      decodeFields source 0 rest
        [⟨startAddress.offset, addressEscape, bodyNumber source 4 4, false⟩] none
        { state with
          position := 12
          memory := (state.memory.setNumber startAddress.offset
            (UInt64.ofNat (bodyNumber source 4 4 * 1024))).setNumber endAddress.offset
              (UInt64.ofNat (bodyNumber source 8 4 * 1024 + 1023))
          defined := max (max state.defined 0) 0 } := by
  have hstart : state.position + 4 ≤ source.body.length := by omega
  have hstop : state.position + 4 + 4 ≤ source.body.length := by omega
  have hfirst := decodeFields_number source (endAddressField :: rest)
    [⟨startAddress.offset, addressEscape, 0, false⟩] none state
    (show NumberField startAddressField from ⟨rfl, ⟨rfl, rfl⟩, by decide, by decide, rfl⟩) rfl hstart
    (startAddressField_apply (dword_lt hstart))
  refine hfirst.trans ?_
  have hsecond := decodeFields_number source rest
    [⟨startAddress.offset, addressEscape, bodyNumber source state.position 4, false⟩] none
    { state with
      position := state.position + 4
      memory := state.memory.setNumber startAddress.offset
        (UInt64.ofNat (bodyNumber source state.position 4 * 1024))
      defined := max state.defined 0 }
    (show NumberField endAddressField from ⟨rfl, ⟨rfl, rfl⟩, by decide, by decide, rfl⟩) rfl hstop
    (endAddressField_apply (dword_lt hstop))
  refine hsecond.trans ?_
  rw [hat]
  rfl

lemma fieldsDecode_addr (h : spec.Lays) (level : ℕ)
    (hlength : spec.minimumLength ≤ source.body.length) :
    ∃ final, fieldsDecode source spec.fields level = (true, final) ∧
      AddrRead spec source final.memory := by
  have hplace := h.place
  have hminimum := h.minimum
  rw [fieldsDecode, decodeList, choicesCollect_addr h, MemoryAddrSpec.fields, List.cons_append,
    List.cons_append]
  generalize presetAll 0 _ (decoderInitialize level).memory = preset
  rw [decodeFields_addresses _ rfl (by omega)]
  obtain ⟨next, heq, hposition, hkept⟩ := decodeFields_middle source
    [⟨.null, .group, { since := dmiVersion 2 7 0 }, []⟩, startAddressExField, endAddressExField]
    [⟨startAddress.offset, addressEscape, bodyNumber source 4 4, false⟩] none
    { decoderInitialize level with
      position := 12
      memory := (preset.setNumber startAddress.offset
        (UInt64.ofNat (bodyNumber source 4 4 * 1024))).setNumber endAddress.offset
          (UInt64.ofNat (bodyNumber source 8 4 * 1024 + 1023))
      defined := max (max (decoderInitialize level).defined 0) 0 } h.middle (by simp)
    (show 12 + _ ≤ source.body.length by omega)
  obtain ⟨final, hfinal, hread⟩ := decodeFields_addressEx source next
    (bodyNumber source 4 4) false { since := dmiVersion 2 7 0 } rfl
  have hat : next.position = spec.extended := hposition.trans hplace
  have hstart : next.memory.number startAddress.offset =
      UInt64.ofNat (bodyNumber source 4 4 * 1024) := by
    have hother : startAddress.offset ≠ endAddress.offset := by decide
    simp only [hkept.start, Memory.setNumber, Function.update_of_ne hother, Function.update_self]
  have hstop : next.memory.number endAddress.offset =
      UInt64.ofNat (bodyNumber source 8 4 * 1024 + 1023) := by
    simp only [hkept.stop, Memory.setNumber, Function.update_self]
  refine ⟨{ final with level := max final.level final.defined }, ?_, ?_, ?_⟩
  · rw [heq, hfinal]
  · rw [hread.start, hstart, hat, apply_ite UInt64.ofNat]
    rfl
  · rw [hread.stop, hstop, hat, apply_ite UInt64.ofNat]
    rfl

inductive AddrValid (spec : MemoryAddrSpec) (source : Source) : Prop
  | kilobytes (start : bodyNumber source 4 4 ≠ addressEscape)
      (stop : bodyNumber source 8 4 ≠ addressEscape)
      (ordered : bodyNumber source 4 4 < bodyNumber source 8 4)
  | extended (start : bodyNumber source 4 4 = addressEscape)
      (stop : bodyNumber source 8 4 = addressEscape)
      (fits : spec.extended + 16 ≤ source.body.length)
      (ordered : bodyNumber source spec.extended 8 < bodyNumber source (spec.extended + 8) 8)

lemma decoderGetAt_some {offset length n : ℕ} (h : decoderGetAt source offset length = some n) :
    offset + length ≤ source.body.length ∧ bodyNumber source offset length = n := by
  rw [decoderGetAt] at h
  split_ifs at h with hfits
  exact ⟨hfits, Option.some.inj h⟩

lemma addrValid_of_validate (h : memoryAddrValidate spec source = true) :
    12 ≤ source.body.length ∧ AddrValid spec source := by
  rw [memoryAddrValidate] at h
  split_ifs at h
  cases hstart : decoderGetAt source 4 4 with
  | none => simp [hstart] at h
  | some startAddr =>
  cases hstop : decoderGetAt source 8 4 with
  | none => simp [hstart, hstop] at h
  | some endAddr =>
  obtain ⟨-, hfirst⟩ := decoderGetAt_some hstart
  obtain ⟨hfits, hlast⟩ := decoderGetAt_some hstop
  simp only [hstart, hstop] at h
  refine ⟨hfits, ?_⟩
  split_ifs at h with hescape hdiffer hordered
  · have hboth : startAddr = addressEscape ∧ endAddr = addressEscape := by omega
    cases hstartEx : decoderGetAt source spec.extended 8 with
    | none => simp [hstartEx] at h
    | some startAddrEx =>
    cases hstopEx : decoderGetAt source (spec.extended + 8) 8 with
    | none => simp [hstartEx, hstopEx] at h
    | some endAddrEx =>
    simp only [hstartEx, hstopEx, Option.bind_some, Option.map_some, Bool.not_eq_true',
      decide_eq_false_iff_not, not_le] at h
    obtain ⟨-, hfirstEx⟩ := decoderGetAt_some hstartEx
    obtain ⟨hfitsEx, hlastEx⟩ := decoderGetAt_some hstopEx
    exact .extended (hfirst.trans hboth.1) (hlast.trans hboth.2) hfitsEx (by omega)
  · exact .kilobytes (by omega) (by omega) (by omega)

lemma AddrRead.first {info : Memory} (hread : AddrRead spec source info)
    (hvalid : AddrValid spec source) (hlength : 12 ≤ source.body.length) :
    (info.number startAddress.offset).toNat = rangeFirst spec source := by
  rw [hread.start, rangeFirst]
  cases hvalid with
  | kilobytes start stop ordered =>
    have hlt : bodyNumber source 4 4 < 2 ^ 32 := dword_lt (by omega)
    rw [if_neg fun h => start h.1, if_neg start]
    exact UInt64.toNat_ofNat_of_lt' (by norm_num at hlt ⊢; omega)
  | extended start stop fits ordered =>
    rw [if_pos ⟨start, by omega⟩, if_pos start]
    exact UInt64.toNat_ofNat_of_lt' (qword_lt (by omega))

lemma AddrRead.last {info : Memory} (hread : AddrRead spec source info)
    (hvalid : AddrValid spec source) (hlength : 12 ≤ source.body.length) :
    (info.number endAddress.offset).toNat = rangeLast spec source := by
  rw [hread.stop, rangeLast]
  cases hvalid with
  | kilobytes start stop ordered =>
    have hlt : bodyNumber source 8 4 < 2 ^ 32 := dword_lt (by omega)
    rw [if_neg fun h => start h.1, if_neg stop]
    exact UInt64.toNat_ofNat_of_lt' (by norm_num at hlt ⊢; omega)
  | extended start stop fits ordered =>
    rw [if_pos ⟨start, fits⟩, if_pos stop]
    exact UInt64.toNat_ofNat_of_lt' (qword_lt (by omega))

lemma AddrValid.range (hvalid : AddrValid spec source) (hlength : 12 ≤ source.body.length) :
    rangeFirst spec source < rangeLast spec source ∧ (SpansAddresses spec source ↔
      rangeFirst spec source = 0 ∧ rangeLast spec source = 2 ^ 64 - 1) := by
  rw [rangeFirst, rangeLast, SpansAddresses]
  cases hvalid with
  | kilobytes start stop ordered =>
    have hlt : bodyNumber source 8 4 < 2 ^ 32 := dword_lt (by omega)
    rw [if_neg start, if_neg stop]
    refine ⟨by omega, fun h => absurd h.1 start, fun h => ?_⟩
    have hlast := h.2
    norm_num at hlast hlt
    omega
  | extended start stop fits ordered =>
    rw [if_pos start, if_pos stop]
    exact ⟨ordered, by simp [start]⟩

lemma memoryAddrDerive_kept (info : Memory) {offset : ℕ} (h : offset ≠ rangeSize.offset) :
    (memoryAddrDerive info).number offset = info.number offset := by
  simp only [memoryAddrDerive, Memory.setNumber, Function.update_of_ne h]

lemma memoryAddrDerive_size (info : Memory) (hordered : (info.number startAddress.offset).toNat <
    (info.number endAddress.offset).toNat) :
    ((memoryAddrDerive info).number rangeSize.offset).toNat =
      ((info.number endAddress.offset).toNat - (info.number startAddress.offset).toNat + 1) %
        2 ^ 64 := by
  have hgt : info.number endAddress.offset > info.number startAddress.offset :=
    UInt64.lt_iff_toNat_lt.mpr hordered
  simp only [memoryAddrDerive, Memory.setNumber, Function.update_self, if_pos hgt]
  rw [UInt64.toNat_add, UInt64.toNat_sub_of_le _ _ (UInt64.le_iff_toNat_le.mpr hordered.le)]
  rfl

theorem mapped_range_exact_iff (spec : MemoryAddrSpec)
    (hspec : spec = memoryArrayAddrSpec ∨ spec = memoryDeviceAddrSpec) (source : Source)
    (hvalid : memoryAddrValidate spec source = true) :
    (spec.minimumLength ≤ source.body.length → (memoryAddrDecode spec source).isSome = true) ∧
      ∀ info, memoryAddrDecode spec source = some info →
        (info.number startAddress.offset).toNat = rangeFirst spec source ∧
          (info.number endAddress.offset).toNat = rangeLast spec source ∧
          (RangeExact spec source info ↔ ¬ SpansAddresses spec source) := by
  have hlays : spec.Lays := by
    rcases hspec with rfl | rfl
    · exact memoryArrayAddrSpec_lays
    · exact memoryDeviceAddrSpec_lays
  obtain ⟨hlength, hvalid⟩ := addrValid_of_validate hvalid
  constructor
  · intro hminimum
    obtain ⟨final, heq, -⟩ := fieldsDecode_addr hlays (dmiVersion 2 1 0) hminimum
    rw [memoryAddrDecode, if_neg (not_lt.mpr hminimum), heq]
    rfl
  · intro info hinfo
    rw [memoryAddrDecode] at hinfo
    split_ifs at hinfo with hminimum
    obtain ⟨final, heq, hread⟩ := fieldsDecode_addr hlays (dmiVersion 2 1 0) (not_lt.mp hminimum)
    rw [heq] at hinfo
    obtain rfl := Option.some.inj hinfo
    have hfirst := hread.first hvalid hlength
    have hlast := hread.last hvalid hlength
    obtain ⟨hordered, hspans⟩ := hvalid.range hlength
    have hsize := memoryAddrDerive_size final.memory (by rw [hfirst, hlast]; exact hordered)
    have hstart : (memoryAddrDerive final.memory).number startAddress.offset =
        final.memory.number startAddress.offset := memoryAddrDerive_kept _ (by decide)
    have hstop : (memoryAddrDerive final.memory).number endAddress.offset =
        final.memory.number endAddress.offset := memoryAddrDerive_kept _ (by decide)
    rw [hfirst, hlast] at hsize
    have hbound : rangeLast spec source < 2 ^ 64 := by
      rw [← hlast]
      exact UInt64.toNat_lt _
    refine ⟨by rw [hstart, hfirst], by rw [hstop, hlast], ?_⟩
    rw [hspans]
    constructor
    · intro hexact hwhole
      have hzero := hexact.nonzero
      rw [hwhole.1, hwhole.2] at hsize
      exact hzero (UInt64.toNat_inj.mp hsize)
    · intro hsome
      have hfits : rangeLast spec source - rangeFirst spec source + 1 < 2 ^ 64 := by omega
      rw [Nat.mod_eq_of_lt hfits] at hsize
      refine ⟨by rw [hstart, hfirst], by rw [hstop, hlast], ?_, fun hzero => ?_⟩
      · rw [hsize]
        omega
      · rw [hzero] at hsize
        simp at hsize

def extendedAddrSource (startAddr endAddr : List Byte) : Source where
  typeId := 19
  handle := 0
  body := [19, 31, 0, 0, 0xFF, 0xFF, 0xFF, 0xFF, 0xFF, 0xFF, 0xFF, 0xFF, 1, 0, 1] ++ startAddr ++ endAddr
  strings := []
  version := dmiVersion 2 7 0
  isPart := false

theorem mapped_range_exact_iff_tebibyte : ∃ info,
    memoryAddrDecode memoryArrayAddrSpec (extendedAddrSource [0, 0, 0, 0, 0, 0, 0, 0]
      [0xFF, 0xFF, 0xFF, 0xFF, 0xFF, 0, 0, 0]) = some info ∧
    RangeExact memoryArrayAddrSpec (extendedAddrSource [0, 0, 0, 0, 0, 0, 0, 0]
      [0xFF, 0xFF, 0xFF, 0xFF, 0xFF, 0, 0, 0]) info := by
  obtain ⟨hdecodes, hread⟩ := mapped_range_exact_iff memoryArrayAddrSpec (.inl rfl)
    (extendedAddrSource [0, 0, 0, 0, 0, 0, 0, 0] [0xFF, 0xFF, 0xFF, 0xFF, 0xFF, 0, 0, 0])
    (by decide)
  obtain ⟨info, hinfo⟩ := Option.isSome_iff_exists.mp (hdecodes (by decide))
  refine ⟨info, hinfo, (hread info hinfo).2.2.mpr ?_⟩
  rintro ⟨-, -, hlast⟩
  revert hlast
  decide

theorem whole_range_size_zero :
    memoryArrayAddrValidate (extendedAddrSource (List.replicate 8 0) (List.replicate 8 0xFF)) = true ∧
      (memoryArrayAddrDecode (extendedAddrSource (List.replicate 8 0) (List.replicate 8 0xFF))).map
        (fun info => (info.number startAddress.offset, info.number endAddress.offset,
          info.number rangeSize.offset)) = some (0, 0xFFFFFFFFFFFFFFFF, 0) ∧
      ∀ info, memoryArrayAddrDecode (extendedAddrSource (List.replicate 8 0)
        (List.replicate 8 0xFF)) = some info → ¬ RangeExact memoryArrayAddrSpec
          (extendedAddrSource (List.replicate 8 0) (List.replicate 8 0xFF)) info := by
  have hdecoded : (memoryArrayAddrDecode (extendedAddrSource (List.replicate 8 0)
      (List.replicate 8 0xFF))).map (fun info => (info.number startAddress.offset,
        info.number endAddress.offset, info.number rangeSize.offset)) =
        some (0, 0xFFFFFFFFFFFFFFFF, 0) := by decide +kernel
  refine ⟨by decide, hdecoded, fun info hinfo hexact => hexact.nonzero ?_⟩
  rw [hinfo, Option.map_some] at hdecoded
  exact (Prod.mk.inj (Prod.mk.inj (Option.some.inj hdecoded)).2).2

end OpenDmi

import OpenDmi.EncodeOne

namespace OpenDmi

open Bytes

variable {source : Source} {version base size index taken taken' level : ℕ}
  {all before rest fields : List Field} {f : Field} {read written choices choices' : List Choice}
  {group : Option Field} {info : Memory} {raw : Option ℕ} {out : EncodeState}
  {state next final : DecodeState}

def DecodeState.cursor (state : DecodeState) : ℕ := 8 * state.position - state.bitsCount

def Moves (taken taken' : ℕ) (f : Field) (state next : DecodeState) : Prop :=
  ∀ rest start size bits, state.cursor ≤ 8 * (start + size) + taken → taken ≤ bits →
    fieldsSize (f :: rest) size bits ≠ 0 → ∃ size' bits',
      fieldsSize (f :: rest) size bits = fieldsSize rest size' bits' ∧
        next.cursor ≤ 8 * (start + size') + taken' ∧ taken' ≤ bits'

def Bounded (taken : ℕ) (fields : List Field) (state final : DecodeState) : Prop :=
  state.cursor ≤ final.cursor ∧
    ∀ start size bits, state.cursor ≤ 8 * (start + size) + taken → taken ≤ bits →
      fieldsSize fields size bits ≠ 0 → final.cursor ≤ 8 * (start + fieldsSize fields size bits)

lemma Moves.bounded (hmoves : Moves taken taken' f state next) (hon : state.cursor ≤ next.cursor)
    (h : Bounded taken' rest next final) : Bounded taken (f :: rest) state final := by
  refine ⟨hon.trans h.1, fun start size bits hstart hbits hne => ?_⟩
  obtain ⟨size', bits', heq, hnext, hbits'⟩ := hmoves rest start size bits hstart hbits hne
  rw [heq] at hne ⊢
  exact h.2 start size' bits' hnext hbits' hne

lemma moves_length {length : ℕ} (hs : state.bitsCount = 0) (hn : next.bitsCount = 0)
    (h : ∀ rest size bits, fieldsSize (f :: rest) size bits ≠ 0 →
      fieldsSize (f :: rest) size bits = fieldsSize rest (size + length) bits ∧
        next.position ≤ state.position + length) : Moves 0 0 f state next := by
  intro rest start size bits hstart hbits hne
  obtain ⟨heq, hnext⟩ := h rest size bits hne
  refine ⟨_, _, heq, ?_, hbits⟩
  simp only [DecodeState.cursor, hs, hn] at hstart ⊢
  omega

lemma moves_none (ht : f.type = .group ∨ f.type = .offset ∨ f.type = .preset)
    (hcursor : next.cursor = state.cursor) : Moves taken taken f state next := by
  intro rest start size bits hstart hbits hne
  refine ⟨size, bits, ?_, hcursor ▸ hstart, hbits⟩
  rcases ht with ht | ht | ht <;> rw [fieldsSize] <;> simp only [ht]

lemma moves_pad (ht : f.type = .pad) (h0 : 0 < f.params.bits) (h8 : f.params.bits % 8 = 0)
    (hcursor : next.cursor = state.cursor +
      if taken % f.params.bits = 0 then 0 else f.params.bits - taken % f.params.bits) :
    Moves taken 0 f state next := by
  intro rest start size bits hstart hbits hne
  refine ⟨_, 0, by rw [fieldsSize]; simp only [ht]; rfl, ?_, le_rfl⟩
  obtain ⟨unit, hunit⟩ := Nat.dvd_of_mod_eq_zero h8
  have hdiv : f.params.bits / 8 = unit := by omega
  have hceil : taken + (if taken % f.params.bits = 0 then 0
      else f.params.bits - taken % f.params.bits) ≤
      (bits + f.params.bits - 1) / f.params.bits * f.params.bits := by
    have hsplit := Nat.div_add_mod taken f.params.bits
    have hlt := Nat.mod_lt taken h0
    split_ifs with hz
    · have hle : taken / f.params.bits ≤ (bits + f.params.bits - 1) / f.params.bits :=
        Nat.div_le_div_right (by omega)
      have hmul := Nat.mul_le_mul_right f.params.bits hle
      rw [Nat.mul_comm] at hsplit
      omega
    · have hle : taken / f.params.bits + 1 ≤ (bits + f.params.bits - 1) / f.params.bits := by
        rw [Nat.le_div_iff_mul_le h0, Nat.succ_mul, Nat.mul_comm]
        omega
      have hmul := Nat.mul_le_mul_right f.params.bits hle
      rw [Nat.succ_mul] at hmul
      rw [Nat.mul_comm] at hsplit
      omega
  have hbytes : ∀ k, k * f.params.bits = 8 * (k * (f.params.bits / 8)) := by
    intro k
    rw [hdiv, hunit]
    ring
  have hend := hbytes ((bits + f.params.bits - 1) / f.params.bits)
  rw [hcursor]
  omega

lemma value_advance (hok : FieldOk f) (hv : IsValue f)
    (h : decodeValue source f (fieldValue base f) state = (true, raw, next)) :
    ∃ length memory, next = { state with position := state.position + length, memory := memory } ∧
      state.position + length ≤ source.body.length ∧
      (f.type = .skip → length = f.params.length) ∧
      (f.type ≠ .skip → fieldWidth f ≠ 0 → length = fieldWidth f) := by
  have hm := hok.2
  rcases hv with ht | ht | ht | ht | ht | ht <;> simp only [ht] at hm
  · obtain ⟨number, -, -, hfits, -, -, happly⟩ := decodeValue_integer ht h
    obtain ⟨memory, -, rfl⟩ := applyTo_true happly
    exact ⟨_, memory, rfl, hfits, by simp [ht], fun _ _ => by simp [fieldWidth, ht]⟩
  · obtain ⟨number, hfits, -, -, happly⟩ := decodeValue_string ht h
    obtain ⟨memory, -, rfl⟩ := applyTo_true happly
    exact ⟨_, memory, rfl, hfits, by simp [ht], fun _ _ => by simp [fieldWidth, ht, hm.2.1]⟩
  · obtain ⟨length, hlen, hfits, -, happly⟩ := decodeValue_binary ht h
    obtain ⟨memory, -, rfl⟩ := applyTo_true happly
    refine ⟨_, memory, rfl, hfits, by simp [ht], fun _ hw => ?_⟩
    simp only [fieldWidth, ht] at hw ⊢
    split_ifs at hw ⊢ with hl
    · exact absurd rfl hw
    · rw [not_or] at hl
      rw [hlen, binaryLength, if_neg hl.1, if_neg hl.2]
  · rw [fieldValue, if_pos (by simp [memberIsPresent, hm.1])] at h
    obtain ⟨hfits, -, rfl⟩ := decodeValue_uuid ht h
    exact ⟨_, _, rfl, hfits, by simp [ht], fun _ _ => by simp [fieldWidth, ht, hm.2]⟩
  · obtain ⟨hfits, -, rfl⟩ := decodeValue_skip ht h
    exact ⟨_, _, rfl, hfits, fun _ => rfl, fun hs => absurd ht hs⟩

lemma encodeOne_eq (encoder : Encoder) (all : List Field) (index : ℕ) (f : Field)
    (choices : List Choice) (out : EncodeState) :
    encodeOne encoder base info all index f choices out = match f.type with
      | .bits => (encodeBits encoder f info (fieldValue base f) out).map (choices, ·)
      | .pad => some (choices, encodePad encoder f out)
      | .array => (encodeArray encoder base f info (fun elements i =>
          encodeList encoder (i * f.member.size) elements f.fields) out).map (choices, ·)
      | .vector => (repeatUntilStopped (fun i =>
          encodeList encoder (base + f.member.offset + i * f.member.size) info f.fields)
          f.params.count 0 out).map (choices, ·)
      | .struct => (encodeList encoder (base + f.member.offset) info f.fields out).map (choices, ·)
      | .skip => some (choices, encoderCopy encoder f.params.length out)
      | _ => encodeValue encoder all index base f info choices out := by
  obtain ⟨member, type, params, fields⟩ := f
  cases type <;> rfl

lemma encodeOne_value {encoder : Encoder} (hv : IsValue f) (hs : f.type ≠ .skip) :
    encodeOne encoder base info all index f choices out =
      encodeValue encoder all index base f info choices out := by
  rw [encodeOne_eq]
  rcases hv with ht | ht | ht | ht | ht | ht <;> simp only [ht]
  exact absurd ht hs

def OneEncodes (source : Source) (version base : ℕ) (info : Memory) (all before rest : List Field)
    (f : Field) (index taken : ℕ) (state next : DecodeState) (choices' written : List Choice)
    (out : EncodeState) : Prop :=
  ∃ written' after, encodeOne (preserving source version) base info all index f written out =
      some (written', after) ∧
    (Stopped source after ∨ ∃ taken', BitsClosed source.version taken' rest ∧
      InStep source taken' next after ∧ Agree all (before ++ [f]) choices' written' ∧
      state.cursor ≤ next.cursor ∧ Moves taken taken' f state next)

lemma Place.bits_encodes (h : Place source size all before (f :: rest))
    (hg : GroupBefore before group)
    (tail : Run source base rest read group { next with defined := level } final)
    (hc : final.isIncomplete = false)
    (hinfo : ∀ offset, ¬ Beyond base size offset → SameAt info final.memory offset)
    (hdef : fieldIsDefined f source.version = true)
    (hin : InStep source taken state out) (hagree : Agree all before read written)
    (hclosed : BitsClosed source.version taken (f :: rest)) (ht : f.type = .bits)
    (hread : decodeBits source f (fieldValue base f) state = (true, next)) :
    OneEncodes source version base info all before rest f index taken state next read written
      out := by
  have hok := h.ok.ok f (h.mem_rest List.mem_cons_self)
  have hreads : f.reads source.version = [f.member] := by
    simp [Field.reads, Field.members, ht, hdef]
  obtain ⟨after, hafter, hstep, hcursor⟩ := encodeBits_source version info
    hin hok ht hread fun hp => h.info_same hg tail hc hinfo (by simp [ht])
      (fun e _ he => by simp [he.2.1.2] at ht)
      (by rw [hreads]; exact ⟨_, List.mem_singleton_self _, le_rfl, by have := present_pos hp; omega⟩)
  rw [BitsClosed] at hclosed
  simp only [ht, hdef, if_true] at hclosed
  refine ⟨written, after, by rw [encodeOne_eq]; simp only [ht, hafter]; rfl, .inr ⟨_, hclosed, hstep,
    hagree.skip fun hp => by simp [hp.2] at ht, by simp only [DecodeState.cursor]; omega, ?_⟩⟩
  intro rest' start size' bits hstart hbits hne
  refine ⟨size', bits + f.params.bits, by rw [fieldsSize]; simp only [ht], ?_, by omega⟩
  simp only [DecodeState.cursor] at hstart ⊢
  omega

lemma pad_encodes (hin : InStep source taken state out) (hagree : Agree all before read written)
    (hclosed : BitsClosed source.version taken (f :: rest)) (ht : f.type = .pad)
    (hread : decodePad source f state = (true, next)) :
    OneEncodes source version base info all before rest f index taken state next read written
      out := by
  rw [BitsClosed] at hclosed
  simp only [ht] at hclosed
  obtain ⟨h0, h8, h56, hclosed⟩ := hclosed
  obtain ⟨hstep, hcursor⟩ := encodePad_source version hin h0 h8 h56 hread
  refine ⟨written, _, by rw [encodeOne_eq]; simp only [ht], .inr ⟨0, hclosed, hstep,
    hagree.skip fun hp => by simp [hp.2] at ht, ?_, moves_pad ht h0 h8 ?_⟩⟩
  · simp only [DecodeState.cursor]
    omega
  · simp only [DecodeState.cursor]
    omega

lemma bitsClosed_other {version : ℕ} (h : BitsClosed version taken (f :: rest))
    (hb : f.type ≠ .bits) (hp : f.type ≠ .pad) : taken = 0 ∧ BitsClosed version 0 rest := by
  rw [BitsClosed] at h
  cases ht : f.type <;> simp only [ht] at h hb hp <;> first | exact h | contradiction

lemma oneEncodes_bytes (length : ℕ) {written' : List Choice} {after : EncodeState}
    (hclosed : BitsClosed source.version 0 rest) (hin : InStep source 0 state out)
    (hafter : encodeOne (preserving source version) base info all index f written out =
      some (written', after))
    (hstep : InStep source 0 next after) (hagree : Agree all (before ++ [f]) choices' written')
    (hon : state.position ≤ next.position)
    (hlength : ∀ rest size bits, fieldsSize (f :: rest) size bits ≠ 0 →
      fieldsSize (f :: rest) size bits = fieldsSize rest (size + length) bits ∧
        next.position ≤ state.position + length) :
    OneEncodes source version base info all before rest f index 0 state next choices' written
      out := by
  obtain ⟨-, -, hs, -⟩ := hin.aligned
  obtain ⟨-, -, hn, -⟩ := hstep.aligned
  refine ⟨written', after, hafter, .inr ⟨0, hclosed, hstep, hagree, ?_, moves_length hs hn hlength⟩⟩
  simp only [DecodeState.cursor, hs, hn]
  omega

lemma fieldsSize_value (hv : IsValue f) (hs : f.type ≠ .skip) (rest : List Field) (size bits : ℕ) :
    fieldsSize (f :: rest) size bits =
      if fieldWidth f = 0 then 0 else fieldsSize rest (size + fieldWidth f) bits := by
  rw [fieldsSize]
  rcases hv with ht | ht | ht | ht | ht | ht <;> simp only [ht]
  exact absurd ht hs

lemma fieldsSize_skip (ht : f.type = .skip) (rest : List Field) (size bits : ℕ) :
    fieldsSize (f :: rest) size bits = fieldsSize rest (size + f.params.length) bits := by
  rw [fieldsSize]
  simp only [ht]

lemma Place.plain_encodes (h : Place source size all before (f :: rest))
    (hg : GroupBefore before group) (hsize : source.body.length < 2 ^ 64) (hv : IsValue f)
    (hplain : f.params.extended = false)
    (hread : decodeValue source f (fieldValue base f) state = (true, raw, next))
    (tail : Run source base rest (raw.elim read fun raw =>
      choiceUpdate read (fieldWhenOffset f) fun c => { c with raw := raw }) group
      { next with defined := level } final)
    (hc : final.isIncomplete = false)
    (hinfo : ∀ offset, ¬ Beyond base size offset → SameAt info final.memory offset)
    (hin : InStep source 0 state out) (hagree : Agree all before read written)
    (hclosed : BitsClosed source.version 0 rest) :
    OneEncodes source version base info all before rest f index 0 state next
      (raw.elim read fun raw => choiceUpdate read (fieldWhenOffset f) fun c => { c with raw := raw })
      written out := by
  have hok := h.ok.ok f (h.mem_rest List.mem_cons_self)
  obtain ⟨length, memory, hnext, hfits, hskip, hwidth⟩ := value_advance hok hv hread
  have hposition : next.position = state.position + length := by rw [hnext]
  have hstep : InStep source 0 next (out.upTo source next.position) :=
    hin.advance (by omega) (by omega) rfl (by rw [hnext]; exact ⟨rfl, rfl, rfl⟩)
  by_cases hs : f.type = .skip
  · obtain ⟨hf, rfl, -⟩ := decodeValue_skip hs hread
    have hcopy := hin.copy version hf
    have hafter : encodeOne (preserving source version) base info all index f written out =
        some (written, out.upTo source next.position) := by
      rw [encodeOne_eq]
      simp only [hs, hcopy, hposition, hskip hs]
    exact oneEncodes_bytes f.params.length hclosed hin hafter hstep
      (hagree.skip fun hp => by simp [hp.2] at hs) (by omega) fun rest size bits _ =>
        ⟨fieldsSize_skip hs rest size bits, by rw [hposition, hskip hs]⟩
  · obtain ⟨written', hafter, hagree'⟩ := h.value_encodes index version hg
      hsize ⟨hv, hs⟩ hplain hread tail hc hinfo hin hagree
    refine oneEncodes_bytes (fieldWidth f) hclosed hin
      (by rw [encodeOne_value hv hs]; exact hafter) hstep hagree' (by omega) ?_
    intro rest size bits hne
    rw [fieldsSize_value hv hs] at hne ⊢
    split_ifs at hne ⊢ with hw
    · exact absurd rfl hne
    · exact ⟨rfl, by rw [hposition, hwidth hs hw]⟩

lemma Place.extended_encodes (h : Place source size all before (f :: rest))
    (hg : GroupBefore before group) (hext : f.params.extended = true)
    (hread : decodeExtended source f (fieldValue base f) (choiceFind read (fieldWhenOffset f))
      state = (true, next))
    (tail : Run source base rest read group { next with defined := level } final)
    (hc : final.isIncomplete = false)
    (hinfo : ∀ offset, ¬ Beyond base size offset → SameAt info final.memory offset)
    (hin : InStep source 0 state out) (hagree : Agree all before read written)
    (hclosed : BitsClosed source.version 0 rest) :
    OneEncodes source version base info all before rest f index 0 state next read written out := by
  have hfa := h.mem_rest (f := f) List.mem_cons_self
  have ht := h.ok.extended.integer f hfa hext
  have hv := h.ok.extended_isValue hfa hext
  have hsame := h.info_same hg tail hc hinfo (by simp [ht])
    (fun e _ he => absurd hext (by simp [he.2.1.1]))
    (inside_value base (h.ok.ok f hfa) hv source.version)
  have hafter := h.encode_extended index version hin hagree hext hread hsame
  obtain ⟨number, memory, h0, -, hfits, -, rfl, -⟩ := decodeExtended_true ht hread
  have hwidth : fieldWidth f = f.params.length := by simp [fieldWidth, ht]
  refine oneEncodes_bytes (fieldWidth f) hclosed hin
    (by rw [encodeOne_value hv.1 hv.2]; exact hafter)
    (hin.advance (by simp only; omega) (by simp only; omega) rfl ⟨rfl, rfl, rfl⟩)
    (hagree.skip fun hp => absurd hext (by simp [hp.1])) (by simp only; omega) ?_
  intro rest size bits hne
  rw [fieldsSize_value hv.1 hv.2, if_neg (by omega)]
  exact ⟨rfl, by simp only; omega⟩

end OpenDmi

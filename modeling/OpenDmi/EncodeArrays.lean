import OpenDmi.EncodeLists

namespace OpenDmi

open Bytes

variable {source : Source} {version base counter : ℕ} {field : Field} {info : Memory}
  {header : ArrayHeader} {out : EncodeState} {state middle next : DecodeState}

lemma memberLoad_store {member : Member} {raw : ℕ} {n : UInt64}
    (h : memberStore member raw = some n) : memberLoad member n = raw % 256 ^ member.size := by
  rw [memberStore] at h
  split_ifs at h with hsize
  cases h
  rw [memberLoad, if_pos hsize]
  have hle : 256 ^ member.size ≤ 256 ^ 8 := Nat.pow_le_pow_right (by omega) (by
    simp only [List.mem_cons, List.not_mem_nil, or_false] at hsize
    omega)
  have hlt : raw % 256 ^ member.size < 256 ^ member.size := Nat.mod_lt _ (by positivity)
  rw [UInt64.toNat_ofNat_of_lt' (by simpa using hlt.trans_le hle), Nat.mod_mod]

lemma stored_load {member : Member} {raw : ℕ} {before after : Memory}
    (h : Stored base member raw before after) (hp : memberIsPresent member = true)
    (hraw : raw < 256 ^ member.size)
    (hsame : SameAt info after (base + member.offset)) : info.load base member = raw := by
  obtain ⟨n, hn, rfl⟩ := h.2 hp
  rw [hsame.load, Memory.load]
  simp only [Memory.setNumber, Function.update_self]
  rw [memberLoad_store hn, Nat.mod_eq_of_lt hraw]

lemma InStep.copy (version : ℕ) (hin : InStep source 0 state out) {length : ℕ}
    (hfits : state.position + length ≤ source.body.length) :
    encoderCopy (preserving source version) length out =
      out.upTo source (state.position + length) := by
  obtain ⟨hpos, hcount, -, hvalue, -⟩ := hin.aligned
  rw [encoderCopy_source hin.toOnSource hcount hvalue (by omega), hpos]

lemma InStep.put (version : ℕ) (hin : InStep source 0 state out) {width : ℕ} (h0 : width ≠ 0) (h8 : width ≤ 8)
    (hfits : state.position + width ≤ source.body.length) :
    peekRaw (preserving source version) width out =
        some (leLoad (window source.body state.position width)) ∧
      putRaw (preserving source version) width
        (leLoad (window source.body state.position width)) out =
        some (out.upTo source (state.position + width)) := by
  obtain ⟨hpos, -⟩ := hin.aligned
  rw [← hpos]
  refine ⟨?_, putRaw_source hin.toOnSource (by omega) h8 (by omega)⟩
  rw [peekRaw, if_neg (by omega), encoderPeek_some _ (by omega)]
  rfl

lemma count_encodes (hin : InStep source 0 state out)
    (hheader : HeaderRead source base field header state middle)
    (hzero : field.params.countLength = 0 → counter = header.count)
    (hcounter : counter ≤ header.count)
    (hload : field.params.countLength ≠ 0 → memberIsPresent field.params.countMember = true →
      info.load base field.params.countMember = header.count) :
    encodeArrayCount (preserving source version) base field info counter out =
      some (header.count, out.upTo source (state.position + field.params.countLength)) := by
  rw [encodeArrayCount]
  by_cases h0 : field.params.countLength = 0
  · rw [if_pos h0, hzero h0, h0, Nat.add_zero, ← hin.aligned.1, hin.toOnSource.upTo_self]
  · obtain ⟨h8, hfits, hcount⟩ := hheader.counted h0
    obtain ⟨hpeek, hput⟩ := hin.put version h0 h8 hfits
    rw [← hcount] at hpeek hput
    rw [if_neg h0]
    simp only [if_true, hpeek]
    by_cases hp : memberIsPresent field.params.countMember = true
    · rw [if_pos hp, hload h0 hp, hput]
      rfl
    · rw [if_neg hp]
      have hmax : (if header.count > counter then header.count else counter) = header.count := by
        split_ifs <;> omega
      rw [hmax, hput]
      rfl

lemma stride_encodes (hin : InStep source 0 state out)
    (hheader : HeaderRead source base field header state middle)
    (hload : field.params.strideLength ≠ 0 → memberIsPresent field.params.strideMember = true →
      info.load base field.params.strideMember = header.stride) :
    encodeArrayStride (preserving source version) base field info
        (out.upTo source (state.position + field.params.countLength)) =
      some (header.stride, out.upTo source middle.position) := by
  rw [encodeArrayStride, hheader.position]
  by_cases h0 : field.params.strideLength = 0
  · rw [if_pos h0, h0, Nat.add_zero, hheader.fixed h0]
  · obtain ⟨h8, hfits, hstride⟩ := hheader.declared h0
    rw [hheader.position] at hfits
    have hadvance : InStep source 0
        { state with position := state.position + field.params.countLength }
        (out.upTo source (state.position + field.params.countLength)) :=
      hin.advance (by omega) (by omega) rfl ⟨rfl, rfl, rfl⟩
    obtain ⟨hpeek, hput⟩ := hadvance.put version h0 h8 hfits
    rw [← hstride, upTo_upTo hin.header] at hput
    rw [← hstride] at hpeek
    rw [if_neg h0]
    simp only [if_true, hpeek]
    by_cases hp : memberIsPresent field.params.strideMember = true
    · rw [if_pos hp, hload h0 hp, hput]
      rfl
    · rw [if_neg hp, Option.getD_some, hput]
      rfl

lemma HeaderRead.fits (h : HeaderRead source base field header state middle)
    (hbound : state.position ≤ source.body.length) : middle.position ≤ source.body.length := by
  by_cases hs : field.params.strideLength = 0
  · by_cases hc : field.params.countLength = 0
    · rw [h.position, hs, hc]
      exact hbound
    · have hfits := (h.counted hc).2.1
      rw [h.position, hs]
      exact hfits
  · exact (h.declared hs).2.1

lemma HeaderRead.count_lt (h : HeaderRead source base field header state middle)
    (hsize : source.body.length < 2 ^ 64) : header.count < 2 ^ 64 := by
  by_cases hc : field.params.countLength = 0
  · rw [(h.uncounted hc).1]
    have hle := Nat.div_le_self (readerRemaining source state) field.params.stride
    simp only [readerRemaining] at hle ⊢
    omega
  · obtain ⟨h8, hfits, hcount⟩ := h.counted hc
    rw [hcount]
    exact (number_lt hfits).trans_le (Nat.pow_le_pow_right (by omega) h8)

lemma Member.Apart.ne {a b : Member} (h : a.Apart b) (ha : 0 < a.size) (hb : 0 < b.size) :
    a.offset ≠ b.offset := by
  simp only [Member.Apart] at h
  omega

lemma header_loads (hok : ArrayMembers field)
    (hheader : HeaderRead source base field header state middle)
    (hsame : ∀ m ∈ [field.params.countMember, field.params.strideMember],
      memberIsPresent m = true → SameAt info middle.memory (base + m.offset)) :
    (field.params.countLength ≠ 0 → memberIsPresent field.params.countMember = true →
      info.load base field.params.countMember = header.count) ∧
    (field.params.strideLength ≠ 0 → memberIsPresent field.params.strideMember = true →
      info.load base field.params.strideMember = header.stride) := by
  obtain ⟨m1, hcount, hstride⟩ := hheader.memory
  have hapart := hok.apart
  simp only [List.pairwise_cons, List.mem_cons, List.not_mem_nil, or_false] at hapart
  refine ⟨fun hc hp => ?_, fun hs hp => ?_⟩
  · obtain ⟨-, hfits, hcounted⟩ := hheader.counted hc
    have hlt : header.count < 256 ^ field.params.countMember.size := hcounted ▸
      (number_lt hfits).trans_le (Nat.pow_le_pow_right (by omega) (hok.countMember hp))
    refine stored_load hcount hp hlt ((hsame _ (by simp) hp).trans (stored_sameAt hstride ?_))
    intro m hm
    obtain rfl := List.mem_singleton.mp hm
    have hapart' := hapart.2.2.1 _ rfl
    have hpos := present_pos hp
    simp only [Member.Apart] at hapart'
    omega
  · obtain ⟨-, hfits, hdeclared⟩ := hheader.declared hs
    rw [hheader.position] at hfits
    have hlt : header.stride < 256 ^ field.params.strideMember.size := hdeclared ▸
      (number_lt hfits).trans_le (Nat.pow_le_pow_right (by omega) (hok.strideMember hp))
    exact stored_load hstride hp hlt (hsame _ (by simp) hp)

lemma skipped_length (hok : ArrayOk field) {count stride remaining : ℕ}
    (hskip : fieldArrayIsSkipped field stride = true)
    (hcount : count < 256 ^ field.params.countLength) :
    (if stride ≠ 0 ∧ count > remaining / stride then remaining else count * stride % 2 ^ 64) =
      min (count * stride % 2 ^ 64) remaining := by
  simp only [fieldArrayIsSkipped, Bool.and_eq_true, bne_iff_ne, decide_eq_true_eq] at hskip
  have hbound : count * stride < 2 ^ 64 :=
    (Nat.mul_lt_mul'' hcount hskip.2).trans_le hok.bounded
  rw [Nat.mod_eq_of_lt hbound]
  split_ifs with hlong
  · have hlt := (Nat.div_lt_iff_lt_mul (Nat.pos_of_ne_zero hlong.1)).mp hlong.2
    omega
  · rw [not_and_or, not_not, not_lt] at hlong
    rcases hlong with rfl | hle
    · simp
    · by_cases hz : stride = 0
      · simp [hz]
      · have hmul := (Nat.le_div_iff_mul_le (Nat.pos_of_ne_zero hz)).mp hle
        omega

lemma encodeArray_eq (hin : InStep source 0 state out)
    (hheader : HeaderRead source base field header state middle)
    {encode : Memory → ℕ → EncodeState → Option EncodeState}
    (hcounter : counter = (info.number (base + field.params.counter.offset)).toNat)
    (hcount : encodeArrayCount (preserving source version) base field info counter out =
      some (header.count, out.upTo source (state.position + field.params.countLength)))
    (hstride : encodeArrayStride (preserving source version) base field info
        (out.upTo source (state.position + field.params.countLength)) =
      some (header.stride, out.upTo source middle.position)) :
    encodeArray (preserving source version) base field info encode out =
      if fieldArrayIsSkipped field header.stride then
        some (encoderCopy (preserving source version)
          (if header.stride ≠ 0 ∧
              header.count > (source.body.length - middle.position) / header.stride then
            source.body.length - middle.position
          else header.count * header.stride % 2 ^ 64) (out.upTo source middle.position))
      else repeatUntilStopped (fun i => encodeElement (preserving source version)
        (encode (info.pointer (base + field.member.offset)).block i) header.stride) counter 0
        (out.upTo source middle.position) := by
  subst hcounter
  have hfits := hheader.fits hin.held.bound
  have hposition := hheader.position
  simp only [encodeArray]
  rw [if_neg (by rw [encoderRemaining_le hin]; omega), hcount]
  simp only [Option.bind_eq_bind, Option.bind_some, hstride]
  rfl

def ElementsOnly (base : ℕ) (field : Field) (before after : Memory) : Prop :=
  ∀ offset, offset ≠ base + field.params.counter.offset → offset ≠ base + field.member.offset →
    SameAt after before offset

lemma header_kept (ht : field.type = .array) (hok : ArrayMembers field)
    (hsame : ElementsOnly base field middle.memory next.memory)
    (hinfo : ∀ offset, Inside base (field.members source.version) offset →
      SameAt info next.memory offset) :
    ∀ m ∈ [field.params.countMember, field.params.strideMember], memberIsPresent m = true →
      SameAt info middle.memory (base + m.offset) := by
  intro m hm hpres
  have hpos := present_pos hpres
  have hcounter := hok.counter
  have hapart := hok.apart
  simp only [List.pairwise_cons, List.mem_cons, List.not_mem_nil, or_false, forall_eq_or_imp,
    forall_eq] at hapart hm
  obtain ⟨⟨hpc, hpn, hps⟩, ⟨hcn, hcs⟩, -⟩ := hapart
  have hm' : m ∈ field.members source.version := by
    simp only [Field.members, ht, List.mem_cons, List.not_mem_nil, or_false]
    tauto
  have happly : ∀ h1 : Member.Apart ⟨field.member.offset, 8⟩ m, ∀ h2 : field.params.counter.Apart m,
      SameAt info middle.memory (base + m.offset) := by
    intro h1 h2
    have hne1 := h1.ne (by simp) hpos
    have hne2 := h2.ne (by omega) hpos
    simp only at hne1
    exact (hinfo _ ⟨m, hm', le_rfl, by omega⟩).trans (hsame _ (by omega) (by omega))
  rcases hm with rfl | rfl
  · exact happly hpn hcn
  · exact happly hps hcs

lemma array_unfolds (version counter : ℕ) (encode : Memory → ℕ → EncodeState → Option EncodeState)
    (ht : field.type = .array) (hok : ArrayOk field) (hin : InStep source 0 state out)
    (hheader : HeaderRead source base field header state middle)
    (hsame : ElementsOnly base field middle.memory next.memory)
    (hinfo : ∀ offset, Inside base (field.members source.version) offset →
      SameAt info next.memory offset)
    (hcounter : (next.memory.number (base + field.params.counter.offset)).toNat = counter)
    (hzero : field.params.countLength = 0 → counter = header.count)
    (hle : counter ≤ header.count) :
    encodeArray (preserving source version) base field info encode out =
        (if fieldArrayIsSkipped field header.stride then
          some (encoderCopy (preserving source version)
            (if header.stride ≠ 0 ∧
                header.count > (source.body.length - middle.position) / header.stride then
              source.body.length - middle.position
            else header.count * header.stride % 2 ^ 64) (out.upTo source middle.position))
        else repeatUntilStopped (fun i => encodeElement (preserving source version)
          (encode (next.memory.pointer (base + field.member.offset)).block i) header.stride) counter 0
          (out.upTo source middle.position)) ∧
      InStep source 0 middle (out.upTo source middle.position) := by
  have hcounter0 := hok.counter
  have hat : ∀ m ∈ field.members source.version, 0 < m.size →
      SameAt info next.memory (base + m.offset) := fun m hm h0 =>
    hinfo _ ⟨m, hm, le_rfl, by omega⟩
  have hnumber := hat field.params.counter (by simp [Field.members, ht]) (by omega)
  have hpointer := hat ⟨field.member.offset, 8⟩ (by simp [Field.members, ht]) (by simp)
  have hloads := header_loads hok.members hheader (header_kept ht hok.members hsame hinfo)
  simp only at hpointer
  rw [← hnumber.1] at hcounter
  refine ⟨?_, ?_⟩
  · rw [← hpointer.2]
    exact encodeArray_eq hin hheader hcounter.symm (count_encodes hin hheader hzero hle hloads.1)
      (stride_encodes hin hheader hloads.2)
  · obtain ⟨p, m, rfl⟩ := hheader.rest
    exact hin.advance (by have := hheader.position; omega) (hheader.fits hin.held.bound) rfl ⟨rfl, rfl, rfl⟩

lemma fieldSize_eq (field : Field) : fieldSize field = fieldsSize field.fields 0 0 := by
  cases field
  rfl

lemma ArrayOk.element_size (hok : ArrayOk field)
    (hheader : HeaderRead source base field header state middle)
    (long : fieldArrayIsSkipped field header.stride = false) (hstride : header.stride ≠ 0) :
    0 < fieldsSize field.fields 0 0 ∧ fieldsSize field.fields 0 0 ≤ header.stride := by
  rw [← fieldSize_eq]
  by_cases h0 : field.params.strideLength = 0
  · rw [hheader.fixed h0] at hstride long ⊢
    rcases hok.fixed h0 with h | h | h
    · exact absurd h hstride
    · simp [h] at long
    · exact h
  · obtain ⟨hpos, hle⟩ := hok.declared h0
    simp only [fieldArrayIsSkipped, Bool.and_eq_false_iff, bne_eq_false_iff_eq,
      decide_eq_false_iff_not, not_lt] at long
    omega

lemma array_encodes (hsize : source.body.length < 2 ^ 64) (hp : source.isPart = false)
    (ht : field.type = .array) (hok : ArrayOk field)
    (hkeeps : ListKeeps source field.member.size field.fields)
    (hlist : ListEncodes source version field.member.size field.fields)
    (h : decodeArray source base field
      (fun i => decodeList source (i * field.member.size) field.fields) state = (true, next))
    (hc : next.isIncomplete = false) (hin : InStep source 0 state out)
    (hinfo : ∀ offset, Inside base (field.members source.version) offset →
      SameAt info next.memory offset) :
    ∃ after, encodeArray (preserving source version) base field info
        (fun elements i => encodeList (preserving source version) (i * field.member.size) elements
          field.fields) out = some after ∧
      ((InStep source 0 next after ∧ state.position ≤ next.position) ∨ Stopped source after) := by
  obtain ⟨header, middle, hheader, hleftover, hread⟩ := arrayRead_of_decodeArray hp h hc
  have hposition := hheader.position
  have hfits := hheader.fits hin.held.bound
  cases hread with
  | empty count =>
    obtain ⟨heq, hmiddle⟩ := array_unfolds version 0
      (fun elements i => encodeList (preserving source version)
        (i * field.member.size) elements field.fields) ht hok hin hheader
      (fun offset h1 _ => setNumber_sameAt h1) hinfo (by simp [Memory.setNumber])
      (fun _ => count.symm) (by omega)
    refine ⟨out.upTo source middle.position, ?_, .inl ⟨hmiddle.congr rfl rfl rfl rfl, by simp only; omega⟩⟩
    rw [heq, count]
    by_cases hskip : fieldArrayIsSkipped field header.stride = true
    · rw [if_pos hskip, if_neg (by simp), Nat.zero_mul]
      rfl
    · rw [if_neg hskip]
      rfl
  | skipped count short =>
    obtain ⟨heq, hmiddle⟩ := array_unfolds version 0
      (fun elements i => encodeList (preserving source version)
        (i * field.member.size) elements field.fields) ht hok hin hheader
      (fun offset h1 _ => setNumber_sameAt h1) hinfo (by simp [Memory.setNumber])
      (fun h0 => by simp [hheader.fixed (hok.unbounded h0).2.1, (hok.unbounded h0).2.2] at short)
      (by omega)
    have hcounted : header.count < 256 ^ field.params.countLength := by
      have h0 : field.params.countLength ≠ 0 := fun h0 => by
        simp [hheader.fixed (hok.unbounded h0).2.1, (hok.unbounded h0).2.2] at short
      obtain ⟨-, hfits, hcount⟩ := hheader.counted h0
      exact hcount ▸ number_lt hfits
    have hadvance : InStep source 0 { middle with
        position := middle.position +
          min (header.count * header.stride % 2 ^ 64) (readerRemaining source middle)
        memory := middle.memory.setNumber (base + field.params.counter.offset) 0 }
        ((out.upTo source middle.position).upTo source (middle.position +
          min (header.count * header.stride % 2 ^ 64) (readerRemaining source middle))) :=
      hmiddle.advance (by omega) (by simp only [readerRemaining]; omega) rfl ⟨rfl, rfl, rfl⟩
    refine ⟨_, ?_, .inl ⟨hadvance, by simp only; omega⟩⟩
    rw [heq, if_pos short, skipped_length hok short hcounted, hmiddle.copy version (by omega)]
    rfl
  | elements count long read =>
    rename_i last
    have hlt := hheader.count_lt hsize
    obtain ⟨heq, hmiddle⟩ := array_unfolds version header.count
      (fun elements i => encodeList (preserving source version)
        (i * field.member.size) elements field.fields) ht hok hin hheader
      (fun offset h1 h2 => (setNumber_sameAt h1).trans
        ((setPointer_sameAt h2).trans (setNumber_sameAt h1))) hinfo
      (by simpa [Memory.setNumber] using hlt) (fun _ => rfl) le_rfl
    have hbegin : InStep source 0 { middle with memory := Memory.zero }
        (out.upTo source middle.position) := hmiddle.congr rfl rfl rfl rfl
    obtain ⟨after, hafter, hfollows⟩ := elements_encode hkeeps hlist
      (hok.element_size hheader long) read hc hbegin (fun offset => SameAt.refl _ offset)
    refine ⟨after, ?_, hfollows.imp_left fun hlater =>
      ⟨hlater.1.congr rfl rfl rfl rfl, by have hon := hlater.2; simp only at hon ⊢; omega⟩⟩
    rw [heq, if_neg (by simp [long]), ← hafter]
    congr 1
    funext i
    simp [Memory.setNumber, Memory.setPointer, Pointer.block]

end OpenDmi

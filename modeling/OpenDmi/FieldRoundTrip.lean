import OpenDmi.EncodeRun

namespace OpenDmi

open Bytes

variable {source : Source} {version size level : ℕ} {fields : List Field} {field : Field}
  {out : EncodeState} {state : DecodeState}

structure SourceOk (source : Source) : Prop where
  whole : source.isPart = false
  long : headerSize ≤ source.body.length
  short : source.body.length ≤ 255
  handle : window source.body 2 2 = leStore 2 source.handle
  type : if source.body.getD 1 0 = 0 then
      source.typeId % 256 = typeEndOfTable ∧ source.body.length = headerSize
    else source.body.getD 0 0 = UInt8.ofNat source.typeId ∧
      (source.body.getD 1 0).toNat = source.body.length

lemma entitySource_ok {buffer : Buffer} {offset : ℕ} {entity : Entity}
    (h : entityCreate buffer offset = .ok entity) : SourceOk (entitySource entity version) := by
  simp only [entityCreate] at h
  generalize hdata : buffer.data.drop offset = data at h
  generalize hbody : (if (data.getD 1 0).toNat = 0 then headerSize else (data.getD 1 0).toNat) =
    body at h
  generalize htype : (if (data.getD 1 0).toNat = 0 then typeEndOfTable
    else (data.getD 0 0).toNat) = type at h
  split_ifs at h with h1 h2 h3
  cases hd : entityDecodeLength (data.drop body) with
  | none => simp [hd] at h
  | some result =>
    obtain ⟨extra, count⟩ := result
    simp only [hd, Except.ok.injEq] at h
    subst h
    have hwindow : window buffer.data offset body = data.take body := by rw [window, hdata]
    have hlen : (data.take body).length = body := by rw [List.length_take]; omega
    have hget : ∀ i < body, (data.take body).getD i 0 = data.getD i 0 := by
      intro i hi
      simp [List.getD_eq_getElem?_getD, hi]
    have h255 : (data.getD 1 0).toNat < 256 := UInt8.toNat_lt _
    have hsize : headerSize = 4 := rfl
    have hhandle : window data 2 2 = leStore 2 (leLoad (window data 2 2)) := by
      have hstore := leStore_leLoad (window data 2 2)
      rw [window_length (by omega)] at hstore
      exact hstore.symm
    simp only [entitySource, entityBuffer, entityOffset, Option.getD_none, Option.isSome_none,
      Bool.false_eq_true, if_false, hwindow]
    refine ⟨rfl, by rw [hlen]; omega, by rw [hlen, ← hbody]; split_ifs <;> omega,
      (window_take (by omega)).trans hhandle, ?_⟩
    rw [hget 0 (by omega), hget 1 (by omega), hlen]
    by_cases hz : data.getD 1 0 = 0
    · have hz' : (data.getD 1 0).toNat = 0 := by rw [hz]; rfl
      rw [if_pos hz, ← hbody, ← htype, if_pos hz', if_pos hz']
      exact ⟨rfl, rfl⟩
    · have hz' : (data.getD 1 0).toNat ≠ 0 := fun h0 => hz (UInt8.toNat_inj.mp h0)
      rw [if_neg hz, ← hbody, ← htype, if_neg hz', if_neg hz', UInt8.ofNat_toNat]
      exact ⟨rfl, rfl⟩

lemma encoderHeader_source (hs : SourceOk source) :
    encoderHeader (preserving source version) source.body.length = source.body.take headerSize := by
  have hlong := hs.long
  have hwindow : window (source.body.take headerSize) 2 2 = window source.body 2 2 :=
    window_take (by decide)
  have hget : ∀ i < headerSize, (source.body.take headerSize).getD i 0 = source.body.getD i 0 := by
    intro i hi
    simp [List.getD_eq_getElem?_getD, hi]
  rw [encoderHeader]
  simp only [hwindow, hget 0 (by decide), hget 1 (by decide)]
  rw [if_pos ⟨trivial, hlong, hs.handle, hs.type⟩]

lemma encoderInitialize_inStep (hlong : headerSize ≤ source.body.length) :
    InStep source 0 (decoderInitialize level) (encoderInitialize (preserving source version)) := by
  have hpos : (encoderInitialize (preserving source version)).position = headerSize := by
    have hmin : min headerSize source.body.length = headerSize := min_eq_left hlong
    simpa [encoderInitialize, putBytes, header, encoderRemaining, headerSize] using hmin
  refine ⟨⟨by simp [encoderInitialize, putBytes, header, headerSize], hpos.ge, ?_, ?_, ?_⟩, rfl,
    ⟨by simp [decoderInitialize], ?_, hlong⟩, ?_, rfl, rfl, rfl, by simp [decoderInitialize]⟩
  · rw [hpos, Nat.sub_self, window_zero]
    simp [encoderInitialize, putBytes, header, headerSize]
  · simp [encoderInitialize, putBytes]
  · rw [hpos]
    simp only [encoderInitialize, putBytes]
    omega
  · simp [decoderInitialize]
  · rw [hpos]
    simp [encoderInitialize, putBytes, decoderInitialize]

lemma encoderFinish_source (hs : SourceOk source) (hon : OnSource source out)
    (hcount : out.bitsCount = 0) :
    encoderFinish (preserving source version) (encoderCopy (preserving source version)
      (encoderRemaining (preserving source version) out) out) = some source.body := by
  have hbound := hon.bound
  have hlong := hs.long
  have hshort := hs.short
  have hvalue : out.bitsValue = 0 := by rw [hon.value, hcount, bitsAt_zero]
  have hend : out.position + (source.body.length - out.position) = source.body.length := by omega
  rw [show encoderRemaining (preserving source version) out = source.body.length - out.position
    from rfl, encoderCopy_source hon hcount hvalue (by omega), hend]
  obtain ⟨hheader, -, hdrop⟩ := take_upTo source hon.header source.body.length
  have hlen := congrArg List.length hdrop
  rw [List.length_drop, window_length (by omega)] at hlen
  have hlength : (out.upTo source source.body.length).written.length = source.body.length := by
    omega
  rw [encoderFinish]
  simp only [hlength]
  rw [if_neg (by omega), if_neg (by omega), encoderHeader_source hs, patch]
  have htake : (source.body.take headerSize).length = headerSize := by simpa using hlong
  have hwhole : headerSize + (source.body.length - headerSize) = source.body.length := by omega
  have happend := window_append source.body 0 headerSize (source.body.length - headerSize)
  rw [Nat.zero_add, hwhole, ← take_eq_window, ← take_eq_window, List.take_length] at happend
  rw [htake, Nat.zero_add, hdrop, List.take_zero, List.nil_append, ← happend]

theorem fieldsEncode_fieldsDecode (hs : SourceOk source)
    (hwf : WellFormed source.version size fields)
    (hdecode : fieldsDecode source fields level = (true, state))
    (hc : state.isIncomplete = false) :
    fieldsEncode (preserving source version) fields state.memory = some source.body := by
  have hlarge : source.body.length < 2 ^ 64 := hs.short.trans_lt (by norm_num)
  rw [fieldsDecode] at hdecode
  cases hread : decodeList source 0 fields (decoderInitialize level) with
  | mk ok final =>
    rw [hread] at hdecode
    cases hdecode
    obtain ⟨after, hafter, hend⟩ := wellFormed_encodes version hs.whole hlarge hwf 0 _
      final (encoderInitialize (preserving source version)) final.memory hread hc
      (encoderInitialize_inStep hs.long) fun _ _ => SameAt.refl _ _
    have hsource : OnSource source after ∧ after.bitsCount = 0 := by
      rcases hend with ⟨hstep, -⟩ | hstopped
      · exact ⟨hstep.toOnSource, hstep.aligned.2.1⟩
      · exact ⟨hstopped.toOnSource, hstopped.whole⟩
    simp only [fieldsEncode, hafter, Option.bind_eq_bind, Option.bind_some]
    exact encoderFinish_source hs hsource.1 hsource.2

lemma handlersOk_none {field : Field} (h : field.params.decode = none) : HandlersOk field :=
  ⟨by simp [h], by simp [h]⟩

lemma roundTrips_plain {field : Field} (ht : field.type = .integer) (hd : field.params.decode = none)
    (he : field.params.encode = none) (hu : field.params.unknownRaw = 0)
    (hlength : field.params.length ≤ field.member.size) : RoundTrips field := by
  intro raw hraw value hdecodes info base hholds
  have hwidth : dataFits field { FieldData.empty with number := raw } = true := by
    have hdiv : raw / 2 ^ (field.params.length * 8) = 0 := by
      rw [Nat.div_eq_of_lt]
      rwa [Nat.mul_comm, pow_mul]
    simp [dataFits, dataBits, ht, fieldWidth, hdiv]
  have hstore : (memberStore field.member raw).map (fun n => [(0, Value.number n)]) =
      some [(0, value)] := by
    simpa [Field.Decodes, fieldApply, hd, ht, hu] using hdecodes
  obtain ⟨n, hn, hvalue⟩ := Option.map_eq_some_iff.mp hstore
  simp only [List.cons.injEq, Prod.mk.injEq, true_and, and_true] at hvalue
  subst hvalue
  simp only [Memory.holds, beq_iff_eq] at hholds
  have hload : memberLoad field.member n = raw := by
    rw [memberLoad_store hn, Nat.mod_eq_of_lt]
    exact hraw.trans_le (Nat.pow_le_pow_right (by omega) hlength)
  refine ⟨_, ?_, ?_, hwidth⟩
  · simp [modelData, hu, he, ht, hholds, hload]
  · rw [decodesInto, hdecodes]
    simp [Memory.holds, hholds]

lemma encodesAll_plain {field decoded : Field} (he : field.params.encode = none) :
    EncodesAll field decoded := by
  intro raw _ value _ info base _
  simp only [modelData, he]
  split_ifs
  · rfl
  · cases field.type <;> rfl

lemma law_plain {fields : List Field} (h : ∀ p ∈ fields, p.IsPlain →
      p.params.decode = none ∧ p.params.encode = none ∧ p.params.unknownRaw = 0 ∧
        p.params.length ≤ p.member.size) :
    ∀ e ∈ fields, ∀ p ∈ fields, e.Extends p → RoundTrips p ∧ EncodesAll p e := by
  intro e _ p hp hext
  obtain ⟨hd, he, hu, hlength⟩ := h p hp hext.2.1
  exact ⟨roundTrips_plain hext.2.1.2 hd he hu hlength, encodesAll_plain he⟩

lemma sameGroup_none {fields : List Field} (h : ∀ q ∈ fields, ∀ p ∈ fields,
      fieldGoverns fields q p.member.offset = false) :
    ∀ before group after, fields = before ++ group :: after → group.type = .group →
      ∀ p ∈ before, ∀ q ∈ after, p.IsPlain → q.IsPlain →
        fieldGoverns fields q p.member.offset = false := by
  intro before group after hsplit _ p hp q hq _ _
  exact h q (by simp [hsplit, hq]) p (by simp [hsplit, hp])

def sampleFields : List Field := [
  ⟨.null, .offset, { offset := 4 }, []⟩,
  ⟨⟨0, 2⟩, .integer, { length := 1 }, []⟩,
  ⟨⟨8, 8⟩, .string, { length := 1 }, []⟩,
  ⟨⟨16, 1⟩, .bits, { bits := 3 }, []⟩,
  ⟨⟨17, 1⟩, .bits, { bits := 5 }, []⟩,
  ⟨.null, .pad, { bits := 8 }, []⟩,
  ⟨⟨24, 2⟩, .array, { counter := ⟨32, 8⟩, countLength := 1 },
    [⟨⟨0, 2⟩, .integer, { length := 1 }, []⟩]⟩,
  ⟨.null, .group, { since := 3 }, []⟩,
  ⟨⟨0, 2⟩, .integer, { length := 2, extended := true, whenRaw := 255 }, []⟩]

def sampleBuffer : Buffer :=
  ⟨0, [200, 12, 0x34, 0x12, 0xff, 1, 0xab, 2, 7, 8, 0x34, 0x12, 65, 0, 0]⟩

def sampleEntity : Entity :=
  ⟨200, 12, 0x1234, sampleBuffer, 0, 3, 15, [⟨[65], 12, [65]⟩], none, none⟩

lemma sampleEntity_created : entityCreate sampleBuffer 0 = .ok sampleEntity := by decide

def sampleSource : Source := entitySource sampleEntity 0x030900

lemma sampleItem_wellFormed : WellFormed sampleSource.version 2
    [⟨⟨0, 2⟩, .integer, { length := 1 }, []⟩] := by
  refine .intro ⟨?_, by decide, by decide, by decide, by simp [BitsClosed], ?_⟩
    (by simp [IsNested])
  · simp [FieldOk, memberIsPresent, handlersOk_none]
  · exact ⟨by decide, by decide, by decide, by decide, by decide, by decide, by decide, by decide,
      sameGroup_none (by decide), law_plain (by simp)⟩

lemma sample_wellFormed : WellFormed sampleSource.version 40 sampleFields := by
  refine .intro ⟨?_, by decide, by decide, by decide, ?_, ?_⟩ ?_
  · have harray : ArrayOk ⟨⟨24, 2⟩, .array, { counter := ⟨32, 8⟩, countLength := 1 },
        [⟨⟨0, 2⟩, .integer, { length := 1 }, []⟩]⟩ :=
      ⟨rfl, by decide, by decide, by decide, by decide, by decide, by decide, by decide⟩
    simp [sampleFields, FieldOk, memberIsPresent, handlersOk_none, harray]
  · simp [sampleFields, BitsClosed, fieldIsDefined]
  · exact ⟨by decide, by decide, by decide, by decide, by decide, by decide, by decide, by decide,
      sameGroup_none (by decide), law_plain (by simp [sampleFields])⟩
  · simp [sampleFields, IsNested, sampleItem_wellFormed]

lemma sample_decodes : (fieldsDecode sampleSource sampleFields 0).1 = true ∧
    (fieldsDecode sampleSource sampleFields 0).2.isIncomplete = false := by decide +kernel

lemma fieldsDecode_true (h : (fieldsDecode source fields level).1 = true) :
    fieldsDecode source fields level = (true, (fieldsDecode source fields level).2) :=
  Prod.ext h rfl

theorem fieldsEncode_fieldsDecode_sample :
    fieldsEncode (preserving sampleSource 0) sampleFields
      (fieldsDecode sampleSource sampleFields 0).2.memory = some sampleSource.body :=
  fieldsEncode_fieldsDecode (entitySource_ok sampleEntity_created) sample_wellFormed
    (fieldsDecode_true sample_decodes.1) sample_decodes.2

end OpenDmi

import OpenDmi.EncodeStep

namespace OpenDmi

open Bytes

variable {source : Source} {version base size index taken level : ℕ}
  {all before rest fields : List Field} {f : Field} {read written choices choices' : List Choice}
  {group : Option Field} {info : Memory} {out : EncodeState} {state next final : DecodeState}

lemma oneEncodes_stopped {taken : ℕ} {after : EncodeState} {written' : List Choice}
    (hafter : encodeOne (preserving source version) base info all index f written out =
      some (written', after)) (h : Stopped source after) :
    OneEncodes source version base info all before rest f index taken state next choices' written
      out := ⟨written', after, hafter, .inl h⟩

lemma fieldsSize_struct (ht : f.type = .struct) (rest : List Field) (size bits : ℕ) :
    fieldsSize (f :: rest) size bits = if fieldsSize f.fields 0 0 = 0 then 0
      else fieldsSize rest (size + fieldsSize f.fields 0 0) bits := by
  rw [fieldsSize]
  simp [ht, fieldSize_eq]

lemma fieldsSize_vector (ht : f.type = .vector) (rest : List Field) (size bits : ℕ) :
    fieldsSize (f :: rest) size bits = if fieldsSize f.fields 0 0 = 0 then 0
      else fieldsSize rest (size + fieldsSize f.fields 0 0 * f.params.count) bits := by
  rw [fieldsSize]
  simp [ht, fieldSize_eq]

lemma Place.struct_encodes (h : Place source size all before (f :: rest))
    (hg : GroupBefore before group) (ht : f.type = .struct)
    (hlist : ListEncodes source version f.member.size f.fields)
    (hread : nested (decodeList source (base + f.member.offset) f.fields) state = (true, next))
    (tail : Run source base rest read group { next with defined := level } final)
    (hc : final.isIncomplete = false)
    (hinfo : ∀ offset, ¬ Beyond base size offset → SameAt info final.memory offset)
    (hin : InStep source 0 state out) (hagree : Agree all before read written)
    (hclosed : BitsClosed source.version 0 rest) :
    OneEncodes source version base info all before rest f index 0 state next read written out := by
  have hflag := (h.step.keeps tail).complete hc
  have hreads : f.reads source.version = [f.member] := by simp [Field.reads, Field.members, ht]
  obtain ⟨after, hafter, hfollows⟩ := nested_encodes hlist hread hflag hin fun offset ho =>
    h.info_same hg tail hc hinfo (by simp [ht]) (fun e _ he => by simp [he.2.1.2] at ht) (by
      rw [hreads]
      simp only [Beyond, not_or, not_lt, not_le] at ho
      exact ⟨_, List.mem_singleton_self _, ho.1, ho.2⟩)
  have hone : encodeOne (preserving source version) base info all index f written out =
      some (written, after) := by
    rw [encodeOne_eq]
    simp only [ht, hafter, Option.map_some]
  rcases hfollows with ⟨hstep, hon, hbound⟩ | hstopped
  · refine oneEncodes_bytes (fieldsSize f.fields 0 0) hclosed hin hone hstep
      (hagree.skip fun hp => by simp [hp.2] at ht) hon fun rest size bits hne => ?_
    rw [fieldsSize_struct ht] at hne ⊢
    split_ifs at hne ⊢ with hz
    · exact absurd rfl hne
    · exact ⟨rfl, hbound hz⟩
  · exact oneEncodes_stopped hone hstopped

lemma Place.vector_encodes (h : Place source size all before (f :: rest))
    (hg : GroupBefore before group) (ht : f.type = .vector)
    (hlist : ListEncodes source version f.member.size f.fields)
    (hread : repeatWhile (fun i => nested
      (decodeList source (base + f.member.offset + i * f.member.size) f.fields))
      f.params.count 0 state = (true, next))
    (tail : Run source base rest read group { next with defined := level } final)
    (hc : final.isIncomplete = false)
    (hinfo : ∀ offset, ¬ Beyond base size offset → SameAt info final.memory offset)
    (hin : InStep source 0 state out) (hagree : Agree all before read written)
    (hclosed : BitsClosed source.version 0 rest) :
    OneEncodes source version base info all before rest f index 0 state next read written out := by
  have hflag := (h.step.keeps tail).complete hc
  have hkeeps := (h.frame f (h.mem_rest List.mem_cons_self)).2.2 (.inr (.inl ht))
  have hreads : f.reads source.version = [⟨f.member.offset, f.member.size * f.params.count⟩] := by
    simp [Field.reads, Field.members, ht]
  obtain ⟨after, hafter, hfollows⟩ := OpenDmi.vector_encodes hkeeps hlist hread hflag hin
    fun offset hlo hhi => h.info_same hg tail hc hinfo (by simp [ht])
      (fun e _ he => by simp [he.2.1.2] at ht) (by
        rw [hreads]
        exact ⟨_, List.mem_singleton_self _, hlo, by rwa [Nat.mul_comm f.member.size]⟩)
  have hone : encodeOne (preserving source version) base info all index f written out =
      some (written, after) := by
    rw [encodeOne_eq]
    simp only [ht, hafter, Option.map_some]
  rcases hfollows with ⟨hstep, hon, hbound⟩ | hstopped
  · refine oneEncodes_bytes (fieldsSize f.fields 0 0 * f.params.count) hclosed hin hone
      hstep (hagree.skip fun hp => by simp [hp.2] at ht) hon fun rest size bits hne => ?_
    rw [fieldsSize_vector ht] at hne ⊢
    split_ifs at hne ⊢ with hz
    · exact absurd rfl hne
    · exact ⟨rfl, hbound hz⟩
  · exact oneEncodes_stopped hone hstopped

lemma Place.array_encodes (h : Place source size all before (f :: rest))
    (hg : GroupBefore before group) (hsize : source.body.length < 2 ^ 64) (ht : f.type = .array)
    (hlist : ListEncodes source version f.member.size f.fields)
    (hread : decodeArray source base f
      (fun i => decodeList source (i * f.member.size) f.fields) state = (true, next))
    (tail : Run source base rest read group { next with defined := level } final)
    (hc : final.isIncomplete = false)
    (hinfo : ∀ offset, ¬ Beyond base size offset → SameAt info final.memory offset)
    (hin : InStep source 0 state out) (hagree : Agree all before read written)
    (hclosed : BitsClosed source.version 0 rest) :
    OneEncodes source version base info all before rest f index 0 state next read written out := by
  have hflag := (h.step.keeps tail).complete hc
  obtain ⟨hok, -, hkeeps⟩ := h.frame f (h.mem_rest List.mem_cons_self)
  have hm := hok.2
  simp only [ht] at hm
  have hreads : f.reads source.version = f.members source.version := by simp [Field.reads, ht]
  obtain ⟨after, hafter, hfollows⟩ := OpenDmi.array_encodes hsize h.whole ht hm (hkeeps (.inl ht))
    hlist hread hflag hin fun offset ho => h.info_same hg tail hc hinfo (by simp [ht])
      (fun e _ he => by simp [he.2.1.2] at ht) (by rwa [hreads])
  have hone : encodeOne (preserving source version) base info all index f written out =
      some (written, after) := by
    rw [encodeOne_eq]
    simp only [ht, hafter, Option.map_some]
  rcases hfollows with ⟨hstep, hon⟩ | hstopped
  · refine oneEncodes_bytes 0 hclosed hin hone hstep
      (hagree.skip fun hp => by simp [hp.2] at ht) hon fun rest size bits hne => ?_
    rw [fieldsSize] at hne
    simp [ht, fieldWidth] at hne
  · exact oneEncodes_stopped hone hstopped

lemma Place.one_encodes (index version : ℕ) (h : Place source size all before (f :: rest))
    (hg : GroupBefore before group) (hsize : source.body.length < 2 ^ 64)
    (hlists : IsNested f → ListEncodes source version f.member.size f.fields)
    (hdef : fieldIsDefined f source.version = true)
    (hone : One source base f read state choices' next)
    (tail : Run source base rest choices' group { next with defined := level } final)
    (hc : final.isIncomplete = false)
    (hinfo : ∀ offset, ¬ Beyond base size offset → SameAt info final.memory offset)
    (hin : InStep source taken state out) (hagree : Agree all before read written)
    (hclosed : BitsClosed source.version taken (f :: rest)) :
    OneEncodes source version base info all before rest f index taken state next choices' written
      out := by
  cases hone with
  | bits type read => exact h.bits_encodes hg tail hc hinfo hdef hin hagree hclosed type read
  | pad type read => exact pad_encodes hin hagree hclosed type read
  | array type read =>
    obtain ⟨rfl, hrest⟩ := bitsClosed_other hclosed (by simp [type]) (by simp [type])
    exact h.array_encodes hg hsize type (hlists (.inl type)) read tail hc hinfo hin hagree hrest
  | vector type read =>
    obtain ⟨rfl, hrest⟩ := bitsClosed_other hclosed (by simp [type]) (by simp [type])
    exact h.vector_encodes hg type (hlists (.inr (.inl type))) read tail hc hinfo hin hagree hrest
  | struct type read =>
    obtain ⟨rfl, hrest⟩ := bitsClosed_other hclosed (by simp [type]) (by simp [type])
    exact h.struct_encodes hg type (hlists (.inr (.inr type))) read tail hc hinfo hin hagree hrest
  | extended type extended read =>
    have ht := h.ok.extended.integer f (h.mem_rest List.mem_cons_self) extended
    obtain ⟨rfl, hrest⟩ := bitsClosed_other hclosed (by simp [ht]) (by simp [ht])
    exact h.extended_encodes hg extended read tail hc hinfo hin hagree hrest
  | plain type plain read =>
    obtain ⟨rfl, hrest⟩ := bitsClosed_other hclosed
      (by rcases type with ht | ht | ht | ht | ht | ht <;> simp [ht])
      (by rcases type with ht | ht | ht | ht | ht | ht <;> simp [ht])
    exact h.plain_encodes hg hsize type plain read tail hc hinfo hin hagree hrest

lemma encodeFields_stopped {encoder : Encoder} (h : out.stopped = true) :
    encodeFields encoder base info all fields choices out = some out := by
  cases fields with
  | nil => rfl
  | cons field rest => rw [encodeFields, if_pos h]

lemma encodeFields_data {encoder : Encoder} (hd : HasData f) (hgoing : out.stopped = false) :
    encodeFields encoder base info all (f :: rest) choices out =
      if fieldIsDefined f (encodeVersion encoder) = false then
        encodeFields encoder base info all rest choices out
      else (encodeOne encoder base info all (all.length - rest.length - 1) f choices out).bind
        fun (choices, state) => encodeFields encoder base info all rest choices state := by
  obtain ⟨h1, h2, h3⟩ := hd
  rw [encodeFields, if_neg (by simp [hgoing])]
  cases ht : f.type <;> first | rfl | exact absurd ht ‹_›

lemma encodeFields_group {encoder : Encoder} (ht : f.type = .group) (hgoing : out.stopped = false) :
    encodeFields encoder base info all (f :: rest) choices out =
      encodeFields encoder base info all rest choices
        { out with stopped := groupEnds encoder base f info out } := by
  rw [encodeFields, if_neg (by simp [hgoing])]
  simp only [ht]

lemma InStep.stop (hin : InStep source 0 state out) :
    Stopped source { out with stopped := true } :=
  ⟨⟨hin.header, hin.begun, hin.written, hin.value, hin.bound⟩, rfl, hin.aligned.2.1⟩

def RunEncodes (source : Source) (version base : ℕ) (info : Memory) (all fields : List Field)
    (taken : ℕ) (state final : DecodeState) (written : List Choice) (out : EncodeState) : Prop :=
  ∃ after, encodeFields (preserving source version) base info all fields written out = some after ∧
    ((InStep source 0 final after ∧ Bounded taken fields state final) ∨ Stopped source after)

lemma runEncodes_cons {next : DecodeState} {after : EncodeState} {written' : List Choice} {taken' : ℕ}
    (heq : encodeFields (preserving source version) base info all (f :: rest) written out =
      encodeFields (preserving source version) base info all rest written' after)
    (hon : state.cursor ≤ next.cursor) (hmoves : Moves taken taken' f state next)
    (h : RunEncodes source version base info all rest taken' next final written' after) :
    RunEncodes source version base info all (f :: rest) taken state final written out := by
  obtain ⟨last, hlast, hend⟩ := h
  exact ⟨last, by rw [heq, hlast], hend.imp_left fun ⟨hstep, hbound⟩ =>
    ⟨hstep, hmoves.bounded hon hbound⟩⟩

lemma moves_undefined (ht : f.type = .bits) :
    Moves taken taken f state state := by
  intro rest start size bits hstart hbits hne
  exact ⟨size, bits + f.params.bits, by rw [fieldsSize]; simp only [ht], hstart, by omega⟩

lemma Place.run_encodes (h : Place source size all before fields) (hg : GroupBefore before group)
    (hsize : source.body.length < 2 ^ 64)
    (hlists : ∀ f ∈ all, IsNested f → ListEncodes source version f.member.size f.fields)
    (hrun : Run source base fields read group state final) (hc : final.isIncomplete = false)
    (hinfo : ∀ offset, ¬ Beyond base size offset → SameAt info final.memory offset)
    (hin : InStep source taken state out) (hagree : Agree all before read written)
    (hclosed : BitsClosed source.version taken fields) :
    RunEncodes source version base info all fields taken state final written out := by
  induction hrun generalizing before taken out written with
  | nil hread =>
    obtain rfl : taken = 0 := by simpa [BitsClosed] using hclosed
    obtain ⟨memory, rfl, -⟩ := groupRead_true hread
    refine ⟨out, rfl, .inl ⟨hin.congr rfl rfl rfl rfl, le_rfl, fun start size bits hs _ _ => ?_⟩⟩
    rw [fieldsSize]
    exact hs
  | @offset f rest choices group state final type reached tail ih =>
    obtain ⟨rfl, hrest⟩ := bitsClosed_other hclosed (by simp [type]) (by simp [type])
    refine runEncodes_cons ?_ le_rfl (moves_none (.inr (.inl type)) rfl)
      (ih h.step hg.step hc hinfo hin (hagree.skip fun hp => by simp [hp.2] at type) hrest)
    rw [encodeFields, if_neg (by simp [hin.going])]
    simp only [type]
    rw [if_pos (by rw [hin.written_length, reached])]
  | @preset f rest choices group state final type tail ih =>
    obtain ⟨rfl, hrest⟩ := bitsClosed_other hclosed (by simp [type]) (by simp [type])
    refine runEncodes_cons ?_ le_rfl (moves_none (.inr (.inr type)) rfl)
      (ih h.step hg.step hc hinfo hin (hagree.skip fun hp => by simp [hp.2] at type) hrest)
    rw [encodeFields, if_neg (by simp [hin.going])]
    simp only [type]
  | @stop f rest choices group state next type hread done =>
    obtain ⟨rfl, -⟩ := bitsClosed_other hclosed (by simp [type]) (by simp [type])
    obtain ⟨memory, rfl, -⟩ := groupRead_true hread
    have hends : groupEnds (preserving source version) base f info out = true := by
      have hleft : encoderRemaining (preserving source version) out = 0 := by
        rw [encoderRemaining_le hin]
        exact Nat.sub_eq_zero_of_le done
      simp only [groupEnds, hleft, beq_self_eq_true, Bool.or_true]
    refine ⟨{ out with stopped := true }, ?_, .inr hin.stop⟩
    rw [encodeFields_group type hin.going, hends]
    exact encodeFields_stopped rfl
  | @group f rest choices group state next final level type hread left tail ih =>
    obtain ⟨rfl, hrest⟩ := bitsClosed_other hclosed (by simp [type]) (by simp [type])
    obtain ⟨memory, rfl, -⟩ := groupRead_true hread
    cases hends : groupEnds (preserving source version) base f info out with
    | true =>
      refine ⟨{ out with stopped := true }, ?_, .inr hin.stop⟩
      rw [encodeFields_group type hin.going, hends]
      exact encodeFields_stopped rfl
    | false =>
      refine runEncodes_cons ?_ le_rfl (moves_none (.inl type) rfl) (ih h.step
        (groupBefore_some type) hc hinfo (hin.congr rfl rfl rfl rfl)
        (hagree.skip fun hp => by simp [hp.2] at type) hrest)
      rw [encodeFields_group type hin.going, hends, ← hin.going]
  | @undefined f rest choices group state final data defined tail ih =>
    have ht : f.type = .bits := by
      by_contra hb
      have hver := (h.ok.ok f (h.mem_rest List.mem_cons_self)).1 hb
      simp [fieldIsDefined, hver] at defined
    rw [BitsClosed] at hclosed
    simp only [ht, defined, Bool.false_eq_true, if_false] at hclosed
    refine runEncodes_cons ?_ le_rfl (moves_undefined ht)
      (ih h.step hg.step hc hinfo hin (hagree.skip fun hp => by simp [hp.2] at ht) hclosed)
    rw [encodeFields_data data hin.going]
    exact if_pos defined
  | @one f rest choices choices' group state next final level data defined hread tail ih =>
    obtain ⟨written', after, hafter, hend⟩ := h.one_encodes
      (all.length - rest.length - 1) version hg hsize
      (hlists f (h.mem_rest List.mem_cons_self)) defined (one_of_decodeOne data hread) tail hc hinfo
      hin hagree hclosed
    have heq : encodeFields (preserving source version) base info all (f :: rest) written out =
        encodeFields (preserving source version) base info all rest written' after := by
      rw [encodeFields_data data hin.going, hafter, Option.bind_some]
      exact if_neg (by simp [encodeVersion, defined])
    rcases hend with hstopped | ⟨taken', hrest, hstep, hagree', hon, hmoves⟩
    · exact ⟨after, by rw [heq, encodeFields_stopped hstopped.stopped], .inr hstopped⟩
    · exact runEncodes_cons heq hon hmoves (ih h.step hg.step hc hinfo
        (hstep.congr rfl rfl rfl rfl) hagree' hrest)

lemma wellFormed_encodes (version : ℕ) (hp : source.isPart = false) (hsize : source.body.length < 2 ^ 64)
    (h : WellFormed source.version size fields) : ListEncodes source version size fields := by
  induction h with
  | intro ok nested ih =>
    rename_i size fields
    intro base state next out info hread hc hin hinfo
    have hplace : Place source size fields [] fields :=
      ⟨ok, fun f hf => ⟨ok.ok f hf, ok.extended.integer f hf, fun hn =>
        wellFormed_keeps hp (nested f hf hn)⟩, rfl, hp⟩
    have hrun := run_of_decodeFields hp hread hc
    obtain ⟨after, hafter, hend⟩ := hplace.run_encodes (by simp [GroupBefore]) hsize ih hrun hc hinfo
      (hin.congr rfl rfl rfl rfl) (agree_collect fields) ok.closed
    refine ⟨after, hafter, hend.imp_left fun ⟨hstep, hon, hbound⟩ => ⟨hstep, ?_, fun h0 => ?_⟩⟩
    · have hs := hin.aligned.2.2.1
      have hn := hstep.aligned.2.2.1
      simp only [DecodeState.cursor, hs, hn] at hon
      omega
    · have hs := hin.aligned.2.2.1
      have hn := hstep.aligned.2.2.1
      have hmoved := hbound state.position 0 0 (by simp only [DecodeState.cursor, hs]; omega) le_rfl h0
      simp only [DecodeState.cursor, hn] at hmoved
      omega

end OpenDmi

import OpenDmi.DecodeFrame

namespace OpenDmi

open Bytes

variable {source : Source} {base size : ℕ} {fields rest : List Field} {field : Field}
  {choices choices' : List Choice} {group : Option Field} {state next final : DecodeState}

lemma reads_cover {member : Member} (h : member ∈ field.members source.version) :
    ∃ read ∈ field.reads source.version, read.offset ≤ member.offset ∧
      member.offset + member.size ≤ read.offset + read.size := by
  rw [Field.reads]
  split_ifs with hl
  · simp only [Field.members, hl.1, hl.2, if_true, List.mem_singleton] at h
    exact ⟨_, List.mem_singleton_self _, by simp [h], by simp [h]⟩
  · exact ⟨member, h, le_rfl, le_rfl⟩

lemma fillBits_rest (source : Source) (bits fuel : ℕ) (state : DecodeState) :
    ∃ position bitsValue bitsCount, (fillBits source bits fuel state).2 = { state with
      position := position, bitsValue := bitsValue, bitsCount := bitsCount } := by
  induction fuel generalizing state with
  | zero => exact ⟨_, _, _, rfl⟩
  | succ fuel ih =>
    rw [fillBits]
    split_ifs
    · cases hg : readerGet source 1 state with
      | none => exact ⟨_, _, _, rfl⟩
      | some result =>
        obtain ⟨bytes, middle⟩ := result
        obtain ⟨-, -, rfl⟩ := readerGet_some hg
        exact ih _
    · exact ⟨_, _, _, rfl⟩

lemma takeBits_rest (source : Source) (bits : ℕ) (state : DecodeState) :
    ∃ position bitsValue bitsCount bitsTaken, (takeBits source bits state).2.2 = { state with
      position := position, bitsValue := bitsValue, bitsCount := bitsCount
      bitsTaken := bitsTaken } := by
  obtain ⟨p, v, c, hrest⟩ := fillBits_rest source bits bits state
  rw [takeBits]
  cases hf : fillBits source bits bits state with
  | mk ok filled =>
    rw [hf] at hrest
    subst hrest
    cases ok <;> exact ⟨_, _, _, _, rfl⟩

lemma decodeBits_keeps (ht : field.type = .bits) (hok : FieldOk field)
    (hdef : fieldIsDefined field source.version = true)
    (h : decodeBits source field (fieldValue base field) state = (true, next)) :
    Keeps (Outside base (field.members source.version)) state next := by
  obtain ⟨p, v, c, t, hrest⟩ := takeBits_rest source field.params.bits state
  have hm := hok.2
  simp only [ht] at hm
  simp only [Field.members, ht, hdef, if_true]
  simp only [decodeBits] at h
  cases hb : takeBits source field.params.bits state with
  | mk ok result =>
    obtain ⟨number, middle⟩ := result
    cases ok with
    | false => simp [hb] at h
    | true =>
      rw [hb] at hrest
      simp only at hrest
      subst hrest
      simp only [hb] at h
      obtain ⟨memory, happlied, rfl⟩ := applyTo_true h
      exact keeps_of_memory rfl fun offset ho => applied_single hm.2.2 (by simp [ht]) happlied ho

lemma decodePad_memory (h : decodePad source field state = (true, next)) :
    next.isIncomplete = state.isIncomplete ∧ next.memory = state.memory := by
  simp only [decodePad] at h
  split_ifs at h with hz
  · cases h
    exact ⟨rfl, rfl⟩
  · obtain ⟨p, v, c, t, hrest⟩ := takeBits_rest source
      (field.params.bits - state.bitsTaken % field.params.bits) state
    cases hb : takeBits source (field.params.bits - state.bitsTaken % field.params.bits) state with
    | mk ok result =>
      obtain ⟨number, middle⟩ := result
      rw [hb] at hrest
      simp only at hrest
      subst hrest
      cases ok with
      | false => simp [hb] at h
      | true =>
        simp only [hb] at h
        cases h
        exact ⟨rfl, rfl⟩

lemma headerRead_keeps {header : ArrayHeader} {offset : ℕ} (ht : field.type = .array)
    (h : HeaderRead source base field header state next)
    (ho : Outside base (field.members source.version) offset) :
    next.isIncomplete = state.isIncomplete ∧ SameAt next.memory state.memory offset := by
  obtain ⟨middle, hcount, hstride⟩ := h.memory
  obtain ⟨position, memory, rfl⟩ := h.rest
  simp only [Field.members, ht] at ho
  refine ⟨rfl, (stored_sameAt hstride ?_).trans (stored_sameAt hcount ?_)⟩
  · exact fun m hm => ho m (by simp only [List.mem_singleton] at hm; simp [hm])
  · exact fun m hm => ho m (by simp only [List.mem_singleton] at hm; simp [hm])

def ListKeeps (source : Source) (size : ℕ) (fields : List Field) : Prop :=
  ∀ base state next, decodeList source base fields state = (true, next) →
    Keeps (Beyond base size) state next

lemma nested_keeps (hlist : ListKeeps source size fields)
    (h : nested (decodeList source base fields) state = (true, next)) :
    Keeps (Beyond base size) state next := by
  obtain ⟨middle, hread, rfl⟩ := nested_true h
  obtain ⟨hcomplete, hsame⟩ := hlist base _ _ hread
  exact ⟨hcomplete, hsame⟩

lemma decodeElement_keeps {stride : ℕ} (hlist : ListKeeps source size fields)
    (h : decodeElement source (decodeList source base fields) stride state = (true, next)) :
    Keeps (Beyond base size) state next := by
  obtain ⟨middle, hread, ⟨-, rfl⟩ | ⟨-, -, rfl⟩⟩ := decodeElement_true h
  · exact nested_keeps hlist hread
  · obtain ⟨hcomplete, hsame⟩ := nested_keeps hlist hread
    exact ⟨hcomplete, hsame⟩

lemma elements_complete {stride count : ℕ} (hlist : ListKeeps source size fields)
    (address : ℕ → ℕ) {i : ℕ} {s t : ℕ × DecodeState}
    (h : repeatWhile (elementStep source (fun i => decodeList source (address i) fields) stride)
      count i s = (true, t)) : t.2.isIncomplete = false → s.2.isIncomplete = false := by
  refine repeatWhile_rel (R := fun s t : ℕ × DecodeState =>
    t.2.isIncomplete = false → s.2.isIncomplete = false) (fun _ => id)
    (fun _ _ _ h1 h2 => h1 ∘ h2) (fun j s t _ _ hstep => ?_) h
  exact (decodeElement_keeps hlist (elementStep_true hstep).2).complete

lemma decodeArray_keeps (hp : source.isPart = false) (ht : field.type = .array)
    (hok : ArrayOk field) (hlist : ListKeeps source field.member.size field.fields)
    (h : decodeArray source base field
      (fun i => decodeList source (i * field.member.size) field.fields) state = (true, next)) :
    Keeps (Outside base (field.members source.version)) state next := by
  have hcounter := hok.counter
  have hmembers : field.members source.version = [⟨field.member.offset, 8⟩, field.params.counter,
      field.params.countMember, field.params.strideMember] := by simp [Field.members, ht]
  have hset : ∀ (memory : Memory) (n : UInt64) offset,
      Outside base (field.members source.version) offset →
      SameAt (memory.setNumber (base + field.params.counter.offset) n) memory offset := by
    intro memory n offset ho
    have hout := ho field.params.counter (by simp [hmembers])
    exact setNumber_sameAt (by omega)
  have hpoint : ∀ (memory : Memory) (p : Pointer) offset,
      Outside base (field.members source.version) offset →
      SameAt (memory.setPointer (base + field.member.offset) p) memory offset := by
    intro memory p offset ho
    have hout := ho ⟨field.member.offset, 8⟩ (by simp [hmembers])
    simp only at hout
    exact setPointer_sameAt (by omega)
  have hkeep : next.isIncomplete = false → state.isIncomplete = false ∧
      ∀ offset, Outside base (field.members source.version) offset →
        SameAt next.memory state.memory offset := by
    intro hc
    obtain ⟨header, middle, hheader, -, hread⟩ := arrayRead_of_decodeArray hp h hc
    cases hread with
    | empty count =>
      refine ⟨?_, fun offset ho => (hset _ _ offset ho).trans (headerRead_keeps ht hheader ho).2⟩
      obtain ⟨p, m, rfl⟩ := hheader.rest
      exact hc
    | skipped count short =>
      refine ⟨?_, fun offset ho => (hset _ _ offset ho).trans (headerRead_keeps ht hheader ho).2⟩
      obtain ⟨p, m, rfl⟩ := hheader.rest
      exact hc
    | elements count long read =>
      refine ⟨?_, fun offset ho => (hset _ _ offset ho).trans <| (hpoint _ _ offset ho).trans <|
        (hset _ _ offset ho).trans (headerRead_keeps ht hheader ho).2⟩
      have hmiddle := elements_complete hlist (fun i => i * field.member.size) read hc
      obtain ⟨p, m, rfl⟩ := hheader.rest
      exact hmiddle
  exact ⟨fun hc => (hkeep hc).1, fun hc => (hkeep hc).2⟩

lemma decodeExtended_keeps {choice : Option Choice} (ht : field.type = .integer)
    (hok : FieldOk field)
    (h : decodeExtended source field (fieldValue base field) choice state = (true, next)) :
    Keeps (Outside base (field.members source.version)) state next := by
  obtain ⟨number, memory, -, -, -, -, rfl, hkept, happlied⟩ := decodeExtended_true ht h
  have hm := hok.2
  simp only [ht] at hm
  simp only [Field.members, ht]
  refine keeps_of_memory rfl fun offset ho => ?_
  by_cases hraw : ∃ c, choice = some c ∧ c.raw = field.params.whenRaw
  · obtain ⟨c, hc, hcr⟩ := hraw
    exact applied_single hm.2 (by simp [ht]) (happlied c hc hcr) ho
  · push Not at hraw
    simp only [hkept hraw]
    exact SameAt.refl _ _

lemma decodeVector_keeps (ht : field.type = .vector)
    (hlist : ListKeeps source field.member.size field.fields)
    (h : repeatWhile (fun i => nested
      (decodeList source (base + field.member.offset + i * field.member.size) field.fields))
      field.params.count 0 state = (true, next)) :
    Keeps (Outside base (field.members source.version)) state next := by
  refine repeatWhile_rel (Keeps.refl _) (fun _ _ _ => Keeps.trans) (fun j s t _ hj hs => ?_) h
  refine (nested_keeps hlist hs).mono fun offset ho => ?_
  have hout := ho ⟨field.member.offset, field.member.size * field.params.count⟩
    (by simp [Field.members, ht])
  have hle : j * field.member.size + field.member.size ≤ field.member.size * field.params.count := by
    rw [← Nat.succ_mul, Nat.mul_comm]
    exact Nat.mul_le_mul_left _ (by omega)
  simp only at hout
  simp only [Beyond]
  omega

lemma one_keeps (hp : source.isPart = false) (hok : FieldOk field)
    (hdef : fieldIsDefined field source.version = true)
    (hext : field.params.extended = true → field.type = .integer)
    (hlist : IsNested field → ListKeeps source field.member.size field.fields)
    (h : One source base field choices state choices' next) :
    Keeps (Outside base (field.members source.version)) state next := by
  cases h with
  | bits type read => exact decodeBits_keeps type hok hdef read
  | pad type read =>
    obtain ⟨hflag, hmemory⟩ := decodePad_memory read
    exact keeps_of_memory hflag fun offset _ => hmemory ▸ SameAt.refl _ _
  | array type read =>
    have hm := hok.2
    simp only [type] at hm
    exact decodeArray_keeps hp type hm (hlist (.inl type)) read
  | vector type read => exact decodeVector_keeps type (hlist (.inr (.inl type))) read
  | struct type read =>
    refine (nested_keeps (hlist (.inr (.inr type))) read).mono fun offset ho => ?_
    have hout := ho field.member (by simp [Field.members, type])
    simp only [Beyond]
    omega
  | extended type extended read => exact decodeExtended_keeps (hext extended) hok read
  | plain type plain read => exact decodeValue_keeps type hok read

def runMembers (version : ℕ) (group : Option Field) (fields : List Field) : List Member :=
  pending group ++ fields.flatMap (·.members version)

def FrameOk (source : Source) (field : Field) : Prop :=
  FieldOk field ∧ (field.params.extended = true → field.type = .integer) ∧
    (IsNested field → ListKeeps source field.member.size field.fields)

lemma Outside.mono {ms ns : List Member} {offset : ℕ} (h : Outside base ms offset)
    (hsub : ns ⊆ ms) : Outside base ns offset := fun m hm => h m (hsub hm)

lemma runMembers_pending (version : ℕ) : pending group ⊆ runMembers version group fields :=
  List.subset_append_left _ _

lemma runMembers_rest (version : ℕ) :
    runMembers version group rest ⊆ runMembers version group (field :: rest) := by
  intro m hm
  simp only [runMembers, List.mem_append, List.flatMap_cons] at hm ⊢
  tauto

lemma runMembers_field (version : ℕ) :
    field.members version ⊆ runMembers version group (field :: rest) := by
  intro m hm
  simp only [runMembers, List.mem_append, List.flatMap_cons]
  tauto

lemma runMembers_group (version : ℕ) (ht : field.type = .group) :
    runMembers version (some field) rest ⊆ runMembers version group (field :: rest) := by
  rw [runMembers, runMembers, List.flatMap_cons, Field.members, ht]
  exact List.subset_append_right _ _

lemma run_keeps (hp : source.isPart = false) (hok : ∀ field ∈ fields, FrameOk source field)
    (h : Run source base fields choices group state final) :
    Keeps (Outside base (runMembers source.version group fields)) state final := by
  induction h with
  | nil read => exact (groupRead_keeps read).mono fun _ ho => ho.mono (runMembers_pending _)
  | offset type reached tail ih | preset type tail ih | undefined data defined tail ih =>
    exact (ih fun f hf => hok f (by simp [hf])).mono fun _ ho => ho.mono (runMembers_rest _)
  | stop type read done =>
    obtain ⟨hcomplete, hsame⟩ := groupRead_keeps read
    exact ⟨hcomplete, fun hc offset ho => hsame hc offset (ho.mono (runMembers_pending _))⟩
  | group type read left tail ih =>
    obtain ⟨hcomplete, hsame⟩ := ih fun f hf => hok f (by simp [hf])
    exact ((groupRead_keeps read).mono fun _ ho => ho.mono (runMembers_pending _)).trans
      ⟨hcomplete, fun hc offset ho => hsame hc offset (ho.mono (runMembers_group _ type))⟩
  | one data defined read tail ih =>
    obtain ⟨hfield, hext, hlist⟩ := hok _ List.mem_cons_self
    obtain ⟨hcomplete, hsame⟩ := ih fun f hf => hok f (by simp [hf])
    have hone := one_keeps hp hfield defined hext hlist (one_of_decodeOne data read)
    exact (hone.mono fun _ ho => ho.mono (runMembers_field _)).trans
      ⟨hcomplete, fun hc offset ho => hsame hc offset (ho.mono (runMembers_rest _))⟩

lemma wellFormed_keeps (hp : source.isPart = false)
    (h : WellFormed source.version size fields) : ListKeeps source size fields := by
  induction h with
  | intro ok nested ih =>
    rename_i size fields
    intro base state next hread
    have hok : ∀ field ∈ fields, FrameOk source field := fun field hf =>
      ⟨ok.ok field hf, ok.extended.integer field hf, ih field hf⟩
    have hinside : ∀ offset, Beyond base size offset → ∀ field ∈ fields,
        Outside base (field.members source.version) offset := by
      intro offset ho field hf m hm
      obtain ⟨read, hread, hlo, hhi⟩ := reads_cover hm
      have hin := ok.inside field hf read hread
      simp only [Beyond] at ho
      omega
    have hkeep : next.isIncomplete = false → state.isIncomplete = false ∧
        ∀ offset, Beyond base size offset → SameAt next.memory state.memory offset := by
      intro hc
      obtain ⟨hcomplete, hsame⟩ := run_keeps hp hok (run_of_decodeFields hp hread hc)
      refine ⟨hcomplete hc, fun offset ho => (hsame hc offset fun m hm => ?_).trans
        (presetAll_sameAt fun f hf habs hpres => ?_)⟩
      · simp only [runMembers, pending, Option.map_none, Option.toList_none, List.nil_append,
          List.mem_flatMap] at hm
        obtain ⟨f, hf, hm⟩ := hm
        exact hinside offset ho f hf m hm
      · have hin := ok.preset f hf habs hpres
        simp only [Beyond] at ho
        omega
    exact ⟨fun hc => (hkeep hc).1, fun hc => (hkeep hc).2⟩

end OpenDmi

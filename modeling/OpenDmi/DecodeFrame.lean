import OpenDmi.DecodeArrays

namespace OpenDmi

open Bytes

variable {source : Source} {base size : ℕ} {fields : List Field} {field : Field}
  {choices choices' : List Choice} {group : Option Field} {state next final : DecodeState}

structure Keeps (P : ℕ → Prop) (before after : DecodeState) : Prop where
  complete : after.isIncomplete = false → before.isIncomplete = false
  same : after.isIncomplete = false → ∀ offset, P offset → SameAt after.memory before.memory offset

lemma Keeps.refl (P : ℕ → Prop) (state : DecodeState) : Keeps P state state :=
  ⟨id, fun _ _ _ => SameAt.refl _ _⟩

lemma Keeps.trans {P : ℕ → Prop} {s t u : DecodeState} (h : Keeps P s t) (h' : Keeps P t u) :
    Keeps P s u :=
  ⟨fun hc => h.complete (h'.complete hc), fun hc offset hp =>
    (h'.same hc offset hp).trans (h.same (h'.complete hc) offset hp)⟩

lemma Keeps.mono {P Q : ℕ → Prop} {s t : DecodeState} (h : Keeps P s t)
    (hpq : ∀ offset, Q offset → P offset) : Keeps Q s t :=
  ⟨h.complete, fun hc offset hq => h.same hc offset (hpq offset hq)⟩

lemma keeps_of_memory {P : ℕ → Prop} {s t : DecodeState} (hflag : t.isIncomplete = s.isIncomplete)
    (h : ∀ offset, P offset → SameAt t.memory s.memory offset) : Keeps P s t :=
  ⟨fun hc => hflag ▸ hc, fun _ => h⟩

def Outside (base : ℕ) (members : List Member) (offset : ℕ) : Prop :=
  ∀ member ∈ members, offset < base + member.offset ∨ base + member.offset + member.size ≤ offset

def Inside (base : ℕ) (members : List Member) (offset : ℕ) : Prop :=
  ∃ m ∈ members, base + m.offset ≤ offset ∧ offset < base + m.offset + m.size

lemma Inside.outside {ms ns : List Member} {offset : ℕ} (h : Inside base ms offset)
    (hapart : ∀ a ∈ ms, ∀ b ∈ ns, a.Apart b) : Outside base ns offset := by
  obtain ⟨a, ha, hlo, hhi⟩ := h
  intro b hb
  have hab := hapart a ha b hb
  simp only [Member.Apart] at hab
  omega

def Beyond (base size offset : ℕ) : Prop := offset < base ∨ base + size ≤ offset

lemma applied_sameAt {data : FieldData} {value : Option ℕ} {before after : Memory} {offset : ℕ}
    (h : Applied field data value before after)
    (hw : ∀ at' writes, value = some at' → fieldApply field data = some writes →
      ∀ write ∈ writes, offset ≠ at' + write.1) : SameAt after before offset := by
  cases value with
  | none =>
    cases h
    exact SameAt.refl _ _
  | some at' =>
    obtain ⟨writes, happly, rfl⟩ := h
    exact writes_sameAt (hw at' writes rfl happly)

lemma fieldValue_some {at' : ℕ} (h : fieldValue base field = some at') :
    memberIsPresent field.member = true ∧ at' = base + field.member.offset := by
  obtain ⟨hp, heq⟩ := Option.ite_none_right_eq_some.mp h
  exact ⟨hp, (Option.some.inj heq).symm⟩

lemma present_pos {member : Member} (h : memberIsPresent member = true) : 0 < member.size := by
  simp only [memberIsPresent, bne_iff_ne] at h
  omega

lemma applied_single {data : FieldData} {before after : Memory} {offset : ℕ}
    (hh : HandlersOk field) (hb : field.params.decode = none → field.type ≠ .binary)
    (h : Applied field data (fieldValue base field) before after)
    (ho : Outside base [field.member] offset) : SameAt after before offset := by
  refine applied_sameAt h fun at' writes hv hw write hm => ?_
  obtain ⟨value, rfl⟩ := fieldApply_single hh.single hb hw
  obtain ⟨hp, rfl⟩ := fieldValue_some hv
  have hpos := present_pos hp
  have hout := ho field.member (by simp)
  simp only [List.mem_singleton] at hm
  subst hm
  simp only
  omega

lemma stored_sameAt {member : Member} {raw offset : ℕ} {before after : Memory}
    (h : Stored base member raw before after) (ho : Outside base [member] offset) :
    SameAt after before offset := by
  by_cases hp : memberIsPresent member = true
  · obtain ⟨n, -, rfl⟩ := h.2 hp
    have hpos := present_pos hp
    have hout := ho member (by simp)
    exact setNumber_sameAt (by omega)
  · rw [h.1 (by simpa using hp)]
    exact SameAt.refl _ _

def pending (group : Option Field) : List Member := (group.map (·.params.present)).toList

lemma groupRead_keeps (h : groupRead group base state = (true, next)) :
    Keeps (Outside base (pending group)) state next := by
  obtain ⟨memory, rfl, hpresent, habsent⟩ := groupRead_true h
  refine keeps_of_memory rfl fun offset ho => ?_
  cases group with
  | none =>
    simp only [habsent (by simp)]
    exact SameAt.refl _ _
  | some g =>
    have hstored : Stored base g.params.present 1 state.memory memory :=
      ⟨fun hp => habsent (by rintro _ ⟨⟩; exact hp), hpresent g rfl⟩
    exact stored_sameAt hstored ho

lemma binary_keeps {offset length : ℕ} {before after : Memory} (hok : FieldOk field)
    (ht : field.type = .binary)
    (hlen : field.params.length = lengthMember →
      length = (before.number (base + field.member.offset + binaryLengthOffset)).toNat)
    (hfits : state.position + length ≤ source.body.length)
    (h : Applied field { FieldData.empty with binary := binaryAt source state.position length }
      (fieldValue base field) before after)
    (ho : Outside base (field.members source.version) offset) : SameAt after before offset := by
  have hm := hok.2
  simp only [ht] at hm
  obtain ⟨hp, -, hh, hsize, hrest⟩ := hm
  have hvalue : fieldValue base field = some (base + field.member.offset) := by
    rw [fieldValue, if_pos hp]
  cases hd : field.params.decode with
  | some decode =>
    have hmember : field.params.length ≠ lengthMember := by
      intro hl
      rw [hrest (.inr hl)] at hd
      cases hd
    simp only [Field.members, ht, if_neg hmember] at ho
    exact applied_single hh (by simp [hd]) h ho
  | none =>
    rw [hvalue] at h
    obtain ⟨writes, happly, rfl⟩ := h
    rw [fieldApply_binary ht hd, Option.some.injEq] at happly
    subst happly
    have hbytes : (binaryAt source state.position length).bytes.length = length :=
      window_length hfits
    have hpointer : ∀ (m : Memory) (r : Ref), offset ≠ base + field.member.offset →
        SameAt ((m.write (base + field.member.offset + 0) (.ref r))) m offset :=
      fun m r hne => write_sameAt hne
    simp only [Memory.writes, hbytes]
    generalize (if (binaryAt source state.position length).bytes = [] then Ref.null
      else .data (binaryAt source state.position length).position
        (binaryAt source state.position length).bytes) = r
    by_cases hl : field.params.length = lengthMember
    · simp only [Field.members, ht, if_pos hl] at ho
      have hout := ho _ (List.mem_singleton_self _)
      simp only at hout
      refine SameAt.trans (b := before.write (base + field.member.offset + 0) (.ref r)) ?_
        (hpointer before r (by omega))
      have hnumber : UInt64.ofNat length =
          before.number (base + field.member.offset + binaryLengthOffset) := by
        rw [hlen hl, UInt64.ofNat_toNat]
      refine ⟨?_, rfl⟩
      simp only [Memory.write, Memory.setNumber, Memory.setPointer, hnumber, Function.update_apply]
      split_ifs with heq
      · rw [heq]
      · rfl
    · simp only [Field.members, ht, if_neg hl] at ho
      have hout := ho _ (List.mem_singleton_self _)
      rw [hsize hd] at hout
      have hoff : binaryLengthOffset = 8 := rfl
      exact (write_sameAt (by omega)).trans (hpointer before r (by omega))

lemma decodeValue_keeps {raw : Option ℕ} (hv : IsValue field) (hok : FieldOk field)
    (h : decodeValue source field (fieldValue base field) state = (true, raw, next)) :
    Keeps (Outside base (field.members source.version)) state next := by
  have hm := hok.2
  rcases hv with ht | ht | ht | ht | ht | ht
  · obtain ⟨number, -, -, -, -, -, happly⟩ := decodeValue_integer ht h
    obtain ⟨memory, happlied, rfl⟩ := applyTo_true happly
    simp only [ht] at hm
    simp only [Field.members, ht]
    exact keeps_of_memory rfl fun offset ho => applied_single hm.2 (by simp [ht]) happlied ho
  · obtain ⟨number, -, -, -, happly⟩ := decodeValue_string ht h
    obtain ⟨memory, happlied, rfl⟩ := applyTo_true happly
    simp only [ht] at hm
    simp only [Field.members, ht]
    exact keeps_of_memory rfl fun offset ho => applied_single hm.2.2 (by simp [ht]) happlied ho
  · simp only [ht] at hm
  · obtain ⟨length, hlen, hfits, -, happly⟩ := decodeValue_binary ht h
    obtain ⟨memory, happlied, rfl⟩ := applyTo_true happly
    simp only [ht] at hm
    refine keeps_of_memory rfl fun offset ho =>
      binary_keeps hok ht (fun hl => ?_) hfits happlied ho
    rw [hlen, binaryLength, hl, if_neg (by decide), if_pos rfl, fieldValue, if_pos hm.1]
    rfl
  · simp only [ht] at hm
    simp only [Field.members, ht]
    have hvalue : fieldValue base field = some (base + field.member.offset) := by
      rw [fieldValue, if_pos (by simp [memberIsPresent, hm.1])]
    rw [hvalue] at h
    obtain ⟨-, -, rfl⟩ := decodeValue_uuid ht h
    refine keeps_of_memory rfl fun offset ho => ?_
    have hout := ho _ (List.mem_singleton_self _)
    rw [hm.1] at hout
    exact storeUuid_sameAt (by omega) (by omega)
  · obtain ⟨-, -, rfl⟩ := decodeValue_skip ht h
    exact keeps_of_memory rfl fun _ _ => SameAt.refl _ _

lemma decodeExtended_true {choice : Option Choice} {value : Option ℕ}
    (ht : field.type = .integer)
    (h : decodeExtended source field value choice state = (true, next)) :
    ∃ number memory, 0 < field.params.length ∧ field.params.length ≤ 8 ∧
      state.position + field.params.length ≤ source.body.length ∧
      number = leLoad (window source.body state.position field.params.length) ∧
      next = { state with
        position := state.position + field.params.length, memory := memory } ∧
      ((∀ c, choice = some c → c.raw ≠ field.params.whenRaw) → memory = state.memory) ∧
      (∀ c, choice = some c → c.raw = field.params.whenRaw →
        Applied field { FieldData.empty with number := number } value state.memory memory) := by
  rw [decodeExtended] at h
  cases hr : decodeValue source field none state with
  | mk ok result =>
    obtain ⟨raw, middle⟩ := result
    cases ok with
    | false => simp [hr] at h
    | true =>
      obtain ⟨number, h1, h2, h3, h4, rfl, happly⟩ := decodeValue_integer ht hr
      obtain ⟨memory, happlied, rfl⟩ := applyTo_true happly
      simp only [Applied] at happlied
      subst happlied
      simp only [hr, Option.getD_some] at h
      cases choice with
      | none =>
        cases h
        exact ⟨number, _, h1, h2, h3, h4, rfl, fun _ => rfl, by simp⟩
      | some c =>
        simp only at h
        split_ifs at h with hraw
        · cases h
          refine ⟨number, _, h1, h2, h3, h4, rfl, fun _ => rfl, ?_⟩
          rintro _ ⟨⟩ heq
          exact absurd heq hraw
        · obtain ⟨memory, happlied, rfl⟩ := applyTo_true h
          refine ⟨number, memory, h1, h2, h3, h4, rfl, fun hne => absurd (hne c rfl) hraw, ?_⟩
          · rintro _ ⟨⟩ -
            exact happlied

end OpenDmi

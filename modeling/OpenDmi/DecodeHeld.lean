import OpenDmi.Choices

namespace OpenDmi

variable {source : Source} {base size offset : ℕ} {all before rest : List Field} {f g e p q : Field}
  {choices choices' : List Choice} {group : Option Field} {state next final : DecodeState}

structure Place (source : Source) (size : ℕ) (all before rest : List Field) : Prop where
  ok : ListOk source.version size all
  frame : ∀ f ∈ all, FrameOk source f
  split : all = before ++ rest
  whole : source.isPart = false

lemma Place.step (h : Place source size all before (f :: rest)) :
    Place source size all (before ++ [f]) rest :=
  ⟨h.ok, h.frame, by rw [h.split, List.append_assoc, List.singleton_append], h.whole⟩

lemma Place.mem_before (h : Place source size all before rest) (hf : f ∈ before) : f ∈ all :=
  h.split ▸ List.mem_append_left _ hf

lemma Place.mem_rest (h : Place source size all before rest) (hf : f ∈ rest) : f ∈ all :=
  h.split ▸ List.mem_append_right _ hf

lemma Place.pair {R : Field → Field → Prop} (h : Place source size all before rest)
    (hp : all.Pairwise R) (hf : f ∈ before) (hg : g ∈ rest) : R f g := by
  rw [h.split, List.pairwise_append] at hp
  exact hp.2.2 f hf g hg

lemma Place.keeps (h : Place source size all before rest)
    (hrun : Run source base rest choices group state final) :
    Keeps (Outside base (runMembers source.version group rest)) state final :=
  run_keeps h.whole (fun f hf => h.frame f (h.mem_rest hf)) hrun

def GroupBefore (before : List Field) (group : Option Field) : Prop :=
  ∀ g, group = some g → g ∈ before ∧ g.type = .group

lemma GroupBefore.step (h : GroupBefore before group) : GroupBefore (before ++ [f]) group :=
  fun g hg => ⟨List.mem_append_left _ (h g hg).1, (h g hg).2⟩

lemma groupBefore_some (ht : g.type = .group) : GroupBefore (before ++ [g]) (some g) := by
  rintro _ ⟨⟩
  exact ⟨by simp, ht⟩

lemma inside_value (base : ℕ) (hok : FieldOk f) (hv : IsValue f ∧ f.type ≠ .skip) (version : ℕ) :
    Inside base (f.reads version) (base + f.member.offset) := by
  obtain ⟨-, m, hm, hmo, hm0⟩ := members_at version hok hv.1 hv.2
  exact ⟨m, hm, by omega, by omega⟩

lemma Place.group_outside (h : Place source size all before rest) (hg : GroupBefore before group)
    (hf : f ∈ before) (ht : f.type ≠ .group)
    (ho : Inside base (f.reads source.version) offset) : Outside base (pending group) offset := by
  cases group with
  | none => simp [pending, Outside]
  | some g =>
    obtain ⟨hgb, hgt⟩ := hg g rfl
    have hne : f ≠ g := fun heq => ht (heq ▸ hgt)
    have hpresent : g.members source.version = pending (some g) := by
      simp [Field.members, hgt, pending]
    have hnot : ∀ e : Field, ¬ e.Extends g := fun e he => by simp [he.2.1.2] at hgt
    have hnot' : ¬ g.Extends f := fun he => by
      simp [h.ok.extended.integer g (h.mem_before hgb) he.1] at hgt
    have : Std.Symm fun a b : Field =>
        Separate source.version a b ∨ Separate source.version b a := ⟨fun _ _ => Or.symm⟩
    have hpairs : all.Pairwise fun a b =>
        Separate source.version a b ∨ Separate source.version b a := h.ok.separate.imp Or.inl
    refine ho.outside fun a ha b hb => ?_
    rw [← hpresent] at hb
    rcases hpairs.forall (h.mem_before hf) (h.mem_before hgb) hne with hs | hs
    · exact (hs.resolve_left hnot').1 a ha b hb
    · exact Or.symm ((hs.resolve_left (hnot f)).2 hgt b hb a ha)

lemma Place.same (h : Place source size all before rest) (hg : GroupBefore before group)
    (hrun : Run source base rest choices group state final) (hc : final.isIncomplete = false)
    (hf : f ∈ before) (ht : f.type ≠ .group) (hnot : ∀ e ∈ rest, ¬ e.Extends f)
    (ho : Inside base (f.reads source.version) offset) :
    SameAt final.memory state.memory offset := by
  refine (h.keeps hrun).same hc offset fun m hm => ?_
  rcases List.mem_append.mp hm with hm | hm
  · exact h.group_outside hg hf ht ho m hm
  · obtain ⟨g, hgr, hm⟩ := List.mem_flatMap.mp hm
    have hs := (h.pair h.ok.separate hf hgr).resolve_left (hnot g hgr)
    exact ho.outside hs.1 m hm

lemma one_choices (h : One source base f choices state choices' next) :
    choices' = choices ∨ IsValue f ∧ f.type ≠ .skip ∧ f.params.extended = false ∧
      ∃ raw, choices' = choiceUpdate choices (fieldWhenOffset f) fun c => { c with raw := raw } := by
  cases h with
  | plain type plain read =>
    rename_i raw
    cases raw with
    | none => exact .inl rfl
    | some raw =>
      refine .inr ⟨type, fun hs => ?_, plain, raw, rfl⟩
      obtain ⟨-, hraw, -⟩ := decodeValue_skip hs read
      cases hraw
  | _ => exact .inl rfl

lemma ListOk.whenOffset (hok : ListOk source.version size all) (hf : f ∈ all)
    (hplain : f.params.extended = false) : fieldWhenOffset f = f.member.offset := by
  rw [fieldWhenOffset, hok.extended.plain f hf hplain]
  rfl

lemma Place.one_choice (offset : ℕ) (h : Place source size all before (f :: rest))
    (hone : One source base f choices state choices' next)
    (hne : IsValue f ∧ f.type ≠ .skip → f.params.extended = false → f.member.offset ≠ offset) :
    choiceFind choices' offset = choiceFind choices offset := by
  rcases one_choices hone with rfl | ⟨hv, hs, hplain, raw, rfl⟩
  · rfl
  · rw [choiceFind_update (u := fun c => { c with raw := raw }) (fun _ => rfl),
      h.ok.whenOffset (h.mem_rest List.mem_cons_self) hplain,
      if_neg (hne ⟨hv, hs⟩ hplain).symm]

lemma Place.whenOffset_ne (h : Place source size all before (f :: rest)) (hp : p ∈ before)
    (hplain : p.IsPlain) (hv : IsValue f ∧ f.type ≠ .skip) (hf : f.params.extended = false) :
    f.member.offset ≠ p.member.offset := by
  intro ho
  have hfa := h.mem_rest (f := f) List.mem_cons_self
  have hpa := h.mem_before hp
  have hs := separate_at (h.pair h.ok.separate hp List.mem_cons_self)
    ⟨h.ok.ok p hpa, hplain.isValue⟩ ⟨h.ok.ok f hfa, hv⟩ ho.symm
  simp [hs.1] at hf

lemma Place.governor_ne (h : Place source size all before (f :: rest)) (hp : p ∈ before)
    (hplain : p.IsPlain) (he : e ∈ all) (hext : e.Extends p) (hv : IsValue f ∧ f.type ≠ .skip)
    (hf : f.params.extended = false) : f.member.offset ≠ fieldWhenOffset e := by
  intro ho
  have hfa := h.mem_rest (f := f) List.mem_cons_self
  have hfp := h.ok.governing_isPlain hfa hv hf he hext.1 ho.symm
  have hgov := h.pair h.ok.extended.governed hp List.mem_cons_self hplain hfp
  have hne := (h.whenOffset_ne hp hplain hv hf).symm
  simp only [fieldGoverns, Bool.and_eq_false_iff, bne_eq_false_iff_eq, hne, false_or,
    List.any_eq_false, Bool.and_eq_true, beq_iff_eq, not_and] at hgov
  exact hgov e he ⟨hext.1, by rw [hext.2.2]⟩ ho.symm

def HoldsDecoded (memory : Memory) (base : ℕ) (field : Field) : Prop :=
  ∃ raw v, raw < 256 ^ field.params.length ∧ field.Decodes raw v ∧
    memory.holds (base + field.member.offset) v = true

lemma HoldsDecoded.same {a b : Memory} (h : HoldsDecoded a base f)
    (hs : SameAt b a (base + f.member.offset)) : HoldsDecoded b base f := by
  obtain ⟨raw, v, hraw, hv, hh⟩ := h
  exact ⟨raw, v, hraw, hv, by rw [hs.holds, hh]⟩

def Chosen (choices : List Choice) (field : Field) : Prop :=
  ∃ c, choiceFind choices (fieldWhenOffset field) = some c ∧ c.raw = field.params.whenRaw

lemma applied_holdsDecoded {number : ℕ} {before after : Memory} (hh : HandlersOk f)
    (ht : f.type = .integer) (hn : number < 256 ^ f.params.length)
    (h : Applied f { FieldData.empty with number := number } (some (base + f.member.offset))
      before after) : HoldsDecoded after base f := by
  obtain ⟨writes, happly, rfl⟩ := h
  obtain ⟨v, rfl⟩ := fieldApply_single hh.single (by simp [ht]) happly
  exact ⟨number, v, hn, happly, holds_write _ _ _⟩

lemma fieldOk_integer (base : ℕ) (hok : FieldOk f) (ht : f.type = .integer) :
    fieldValue base f = some (base + f.member.offset) ∧ HandlersOk f := by
  have hm := hok.2
  simp only [ht] at hm
  exact ⟨by rw [fieldValue, if_pos hm.1], hm.2⟩

lemma Place.held (h : Place source size all before rest) (hg : GroupBefore before group)
    (hrun : Run source base rest choices group state final) (hc : final.isIncomplete = false)
    (hp : p ∈ before) (hplain : p.IsPlain) :
    SameAt final.memory state.memory (base + p.member.offset) ∨
      ∃ e ∈ rest, e.Extends p ∧ Chosen choices e ∧ HoldsDecoded final.memory base e := by
  have hpa := h.mem_before hp
  have hpv := hplain.isValue
  have htype : p.type ≠ .group := by simp [hplain.2]
  have hin := inside_value base (h.ok.ok p hpa) hpv source.version
  induction hrun generalizing before with
  | nil read =>
    exact .inl ((groupRead_keeps read).same hc _ (h.group_outside hg hp htype hin))
  | offset type reached tail ih | preset type tail ih | undefined data defined tail ih =>
    rcases ih h.step hg.step hc (by simp [hp]) with hsame | ⟨e, he, hrest⟩
    · exact .inl hsame
    · exact .inr ⟨e, List.mem_cons_of_mem _ he, hrest⟩
  | stop type read done =>
    exact .inl ((groupRead_keeps read).same hc _ (h.group_outside hg hp htype hin))
  | group type read left tail ih =>
    have hflag := (h.step.keeps tail).complete hc
    have hread := (groupRead_keeps read).same hflag _ (h.group_outside hg hp htype hin)
    rcases ih h.step (groupBefore_some type) hc (by simp [hp]) with hsame | ⟨e, he, hrest⟩
    · exact .inl (hsame.trans hread)
    · exact .inr ⟨e, List.mem_cons_of_mem _ he, hrest⟩
  | @one f rest choices choices' group state next final level data defined read tail ih =>
    have hone := one_of_decodeOne data read
    have hfa := h.mem_rest (f := f) List.mem_cons_self
    obtain ⟨hfok, hfext, hflist⟩ := h.frame f hfa
    have hflag := (h.step.keeps tail).complete hc
    by_cases hext : f.Extends p
    · cases hone with
      | extended type extended read' =>
        obtain ⟨hvalue, hh⟩ := fieldOk_integer base hfok (hfext hext.1)
        obtain ⟨number, memory, -, -, hfits, hnumber, rfl, hkept, happlied⟩ :=
          decodeExtended_true (hfext hext.1) read'
        by_cases hchosen : Chosen choices f
        · obtain ⟨c, hcf, hcr⟩ := hchosen
          have happ := happlied c hcf hcr
          rw [hvalue] at happ
          have hheld := applied_holdsDecoded hh (hfext hext.1) (hnumber ▸ number_lt hfits) happ
          have hlast := h.step.same hg.step tail hc (f := f) (by simp)
            (by simp [hfext hext.1])
            (fun g _ hgf => absurd hext.1 (by simp [hgf.2.1.1]))
            (inside_value base hfok (h.ok.extended_isValue hfa hext.1) source.version)
          exact .inr ⟨f, List.mem_cons_self, hext, ⟨c, hcf, hcr⟩, hheld.same hlast⟩
        · have hmemory := hkept fun c hcf hcr => hchosen ⟨c, hcf, hcr⟩
          subst hmemory
          rcases ih h.step hg.step hc (by simp [hp]) with hsame | ⟨e, he, hrest⟩
          · exact .inl hsame
          · exact .inr ⟨e, List.mem_cons_of_mem _ he, hrest⟩
      | plain type plain read' => simp [hext.1] at plain
      | bits type | pad type | array type | vector type | struct type =>
        simp [hfext hext.1] at type
    · have hs := (h.pair h.ok.separate hp List.mem_cons_self).resolve_left hext
      have hkeep := (one_keeps h.whole hfok defined hfext hflist hone).same hflag _
        (hin.outside hs.1)
      rcases ih h.step hg.step hc (by simp [hp]) with hsame | ⟨e, he, hep, ⟨c, hcf, hcr⟩, hval⟩
      · exact .inl (hsame.trans hkeep)
      · refine .inr ⟨e, List.mem_cons_of_mem _ he, hep, ⟨c, ?_, hcr⟩, hval⟩
        rw [← hcf, h.one_choice _ hone]
        exact fun hv hplain' => h.governor_ne hp hplain (h.step.mem_rest he) hep hv hplain'

lemma decodeValue_held {raw : Option ℕ} (hok : FieldOk f) (ht : f.type = .integer)
    (h : decodeValue source f (fieldValue base f) state = (true, raw, next)) :
    HoldsDecoded next.memory base f := by
  obtain ⟨hvalue, hh⟩ := fieldOk_integer base hok ht
  obtain ⟨number, -, -, hfits, hnumber, -, happly⟩ := decodeValue_integer ht h
  obtain ⟨memory, happlied, rfl⟩ := applyTo_true happly
  rw [hvalue] at happlied
  exact applied_holdsDecoded hh ht (hnumber ▸ number_lt hfits) happlied

lemma fieldGoverns_true (h : fieldGoverns all q offset = true) : q.member.offset ≠ offset ∧
    ∃ e ∈ all, e.params.extended = true ∧ e.member.offset = q.member.offset ∧
      fieldWhenOffset e = offset := by
  simpa [fieldGoverns, and_assoc] using h

lemma Place.decoded (h : Place source size all before rest) (hg : GroupBefore before group)
    (hrun : Run source base rest choices group state final) (hc : final.isIncomplete = false)
    (hp : p ∈ before) (hplain : p.IsPlain) (hq : q ∈ rest) (hqplain : q.IsPlain)
    (hgov : fieldGoverns all q p.member.offset = true) :
    HoldsDecoded final.memory base q ∨ ∃ e ∈ all, e.Extends q ∧
      fieldWhenOffset e = p.member.offset ∧ Chosen choices e ∧
      HoldsDecoded final.memory base e := by
  have hqa := h.mem_rest hq
  obtain ⟨hqp, e0, he0, hext0, hoff0, hwhen0⟩ := fieldGoverns_true hgov
  induction hrun generalizing before with
  | nil read => cases hq
  | offset type reached tail ih | preset type tail ih =>
    have hqr := (List.mem_cons.mp hq).resolve_left fun heq => by simp [← heq, hqplain.2] at type
    exact ih h.step hg.step hc (by simp [hp]) hqr
  | @undefined f rest choices group state final data defined tail ih =>
    refine ih h.step hg.step hc (by simp [hp]) ((List.mem_cons.mp hq).resolve_left fun heq => ?_)
    have hver := (h.ok.ok q hqa).1 (by simp [hqplain.2])
    simp [← heq, fieldIsDefined, hver] at defined
  | @stop f rest choices group state next type read done =>
    have hqr := (List.mem_cons.mp hq).resolve_left fun heq => by simp [← heq, hqplain.2] at type
    have hno := h.ok.extended.sameGroup _ _ _ h.split type p hp q hqr hplain hqplain
    simp [hno] at hgov
  | @group f rest choices group state next final level type read left tail ih =>
    have hqr := (List.mem_cons.mp hq).resolve_left fun heq => by simp [← heq, hqplain.2] at type
    have hno := h.ok.extended.sameGroup _ _ _ h.split type p hp q hqr hplain hqplain
    simp [hno] at hgov
  | @one f rest choices choices' group state next final level data defined read tail ih =>
    have hone := one_of_decodeOne data read
    have hkept := h.one_choice p.member.offset hone
      fun hv hf => h.whenOffset_ne hp hplain hv hf
    by_cases hfq : q = f
    · subst hfq
      have hheld := h.step.held hg.step tail hc (p := q) (by simp) hqplain
      cases hone with
      | plain type plain read' =>
        rcases hheld with hsame | ⟨e, he, hep, ⟨c, hcf, hcr⟩, hval⟩
        · exact .inl ((decodeValue_held (h.ok.ok q hqa) hqplain.2 read').same hsame)
        · have hea := h.step.mem_rest he
          obtain rfl := h.ok.one_extended hea he0 hep.1 hext0 (by rw [hep.2.2, hoff0])
          exact .inr ⟨e, hea, hep, hwhen0, ⟨c, by rw [← hcf, hwhen0, hkept], hcr⟩, hval⟩
      | extended type extended read' => simp [hqplain.1] at extended
      | bits type | pad type | array type | vector type | struct type =>
        simp [hqplain.2] at type
    · rcases ih h.step hg.step hc (by simp [hp]) ((List.mem_cons.mp hq).resolve_left hfq) with
        hheld | ⟨e, he, hep, hwhen, ⟨c, hcf, hcr⟩, hval⟩
      · exact .inl hheld
      · exact .inr ⟨e, he, hep, hwhen, ⟨c, by rw [← hcf, hwhen, hkept], hcr⟩, hval⟩

end OpenDmi

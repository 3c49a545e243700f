import OpenDmi.DecodeKeeps

/-! The choices extended fields make, as the decoder and the encoder keep them. -/

namespace OpenDmi

variable {all fields before rest : List Field} {field f g e p : Field} {version size offset o : ℕ}
  {choices read written : List Choice} {c r w : Choice}

lemma choiceFind_cons (c : Choice) (rest : List Choice) (o : ℕ) : choiceFind (c :: rest) o =
    if c.offset = o then some c else choiceFind rest o := by
  by_cases hc : c.offset = o <;> simp [choiceFind, hc]

lemma choiceFind_offset (h : choiceFind choices offset = some c) : c.offset = offset := by
  simpa using List.find?_some h

lemma choiceFind_update {u : Choice → Choice} (hu : ∀ c, (u c).offset = c.offset) :
    choiceFind (choiceUpdate choices offset u) o =
      if o = offset then (choiceFind choices o).map u else choiceFind choices o := by
  induction choices with
  | nil => simp [choiceFind, choiceUpdate]
  | cons c rest ih =>
    have hupdate : choiceUpdate (c :: rest) offset u =
        (if c.offset = offset then u c else c) :: choiceUpdate rest offset u := rfl
    rw [hupdate, choiceFind_cons, choiceFind_cons, ih]
    by_cases hc : c.offset = offset
    · rw [if_pos hc, hu, hc]
      split_ifs with h1 h2 h2
      · rfl
      · exact absurd h1.symm h2
      · exact absurd h2.symm h1
      · rfl
    · rw [if_neg hc]
      split_ifs with h1 h2 h2
      · exact absurd (h1.trans h2) hc
      · rfl
      · rfl
      · rfl

lemma choiceUpdate_none {u : Choice → Choice} (h : choiceFind choices offset = none) :
    choiceUpdate choices offset u = choices := by
  rw [choiceFind, List.find?_eq_none] at h
  refine (List.map_congr_left (g := id) fun c hc => ?_).trans (List.map_id _)
  rw [if_neg (by simpa using h c hc), id]

lemma choicesCollect_mem (h : c ∈ choicesCollect fields choices) :
    c ∈ choices ∨ ∃ e ∈ fields, e.params.extended = true ∧
      c = ⟨fieldWhenOffset e, e.params.whenRaw, 0, false⟩ := by
  induction fields generalizing choices with
  | nil => exact .inl h
  | cons field rest ih =>
    rw [choicesCollect] at h
    split_ifs at h with hnew
    · rcases ih h with hc | ⟨e, he, hext⟩
      · rcases List.mem_append.mp hc with hc | hc
        · exact .inl hc
        · exact .inr ⟨field, List.mem_cons_self, hnew.1, List.mem_singleton.mp hc⟩
      · exact .inr ⟨e, List.mem_cons_of_mem _ he, hext⟩
    · rcases ih h with hc | ⟨e, he, hext⟩
      · exact .inl hc
      · exact .inr ⟨e, List.mem_cons_of_mem _ he, hext⟩

/-- Both keep the same choice: the encoder has marked it as extended if the decoder has read the
number which says so, once the field which governs it is past. -/
structure ChoiceAgrees (all before : List Field) (offset : ℕ) (r w : Choice) : Prop where
  whenRaw : r.whenRaw = w.whenRaw
  collected : ∃ e ∈ all, e.params.extended = true ∧ fieldWhenOffset e = offset ∧
    e.params.whenRaw = r.whenRaw
  chosen : (∃ p ∈ before, p.IsPlain ∧ p.member.offset = offset) →
    (w.extended = true ↔ r.raw = r.whenRaw)

def Agree (all before : List Field) (read written : List Choice) : Prop :=
  ∀ offset, Option.Rel (ChoiceAgrees all before offset) (choiceFind read offset)
    (choiceFind written offset)

lemma agree_collect (all : List Field) :
    Agree all [] (choicesCollect all []) (choicesCollect all []) := by
  intro offset
  cases h : choiceFind (choicesCollect all []) offset with
  | none => exact Option.Rel.none
  | some c =>
    refine Option.Rel.some ⟨rfl, ?_, by simp⟩
    rcases choicesCollect_mem (List.mem_of_find?_eq_some h) with hc | ⟨e, he, hext, rfl⟩
    · cases hc
    · exact ⟨e, he, hext, choiceFind_offset h, rfl⟩

lemma Agree.mono_at (h : Option.Rel (ChoiceAgrees all before offset) (choiceFind read offset)
      (choiceFind written offset))
    (hf : field.IsPlain → field.member.offset = offset → choiceFind read offset = none) :
    Option.Rel (ChoiceAgrees all (before ++ [field]) offset) (choiceFind read offset)
      (choiceFind written offset) := by
  rcases hr : choiceFind read offset with _ | r <;> rcases hw : choiceFind written offset with _ | w
    <;> rw [hr, hw] at h <;> cases h
  · exact Option.Rel.none
  · rename_i hagrees
    refine Option.Rel.some ⟨hagrees.whenRaw, hagrees.collected, ?_⟩
    rintro ⟨p, hp, hplain, hoffset⟩
    rcases List.mem_append.mp hp with hp | hp
    · exact hagrees.chosen ⟨p, hp, hplain, hoffset⟩
    · obtain rfl := List.mem_singleton.mp hp
      simp [hf hplain hoffset] at hr

lemma Agree.skip (h : Agree all before read written)
    (hf : field.IsPlain → choiceFind read field.member.offset = none) :
    Agree all (before ++ [field]) read written :=
  fun offset => Agree.mono_at (h offset) fun hp ho => ho ▸ hf hp

lemma Agree.settle (h : Agree all before read written) {raw : ℕ} {extended : Bool}
    (hc : choiceFind written field.member.offset = some c)
    (hx : extended = true ↔ raw = c.whenRaw) :
    Agree all (before ++ [field])
      (choiceUpdate read field.member.offset fun c => { c with raw := raw })
      (choiceUpdate written field.member.offset fun c => { c with extended := extended }) := by
  intro offset
  rw [choiceFind_update (u := fun c => { c with raw := raw }) (fun _ => rfl),
    choiceFind_update (u := fun c => { c with extended := extended }) (fun _ => rfl)]
  have hrel := h offset
  split_ifs with ho
  · subst ho
    rw [hc] at hrel ⊢
    rcases hr : choiceFind read field.member.offset with _ | r <;> rw [hr] at hrel <;> cases hrel
    rename_i hagrees
    exact Option.Rel.some
      ⟨hagrees.whenRaw, hagrees.collected, fun _ => by rw [hx, ← hagrees.whenRaw]⟩
  · exact Agree.mono_at hrel fun _ hoffset => absurd hoffset.symm ho

lemma Field.IsPlain.isValue (h : p.IsPlain) : IsValue p ∧ p.type ≠ .skip :=
  ⟨.inl h.2, by simp [h.2]⟩

lemma members_at (version : ℕ) (hok : FieldOk f) (hv : IsValue f) (hs : f.type ≠ .skip) :
    (∃ m ∈ f.members version, m.offset = f.member.offset ∧ 0 < m.size) ∧
      ∃ m ∈ f.reads version, m.offset = f.member.offset ∧ 0 < m.size := by
  have hm := hok.2
  rcases hv with ht | ht | ht | ht | ht | ht <;> simp only [ht] at hm
  · simp only [Field.reads, Field.members, ht]
    exact ⟨⟨_, List.mem_singleton_self _, rfl, present_pos hm.1⟩, _, List.mem_singleton_self _, rfl,
      present_pos hm.1⟩
  · simp only [Field.reads, Field.members, ht]
    exact ⟨⟨_, List.mem_singleton_self _, rfl, present_pos hm.1⟩, _, List.mem_singleton_self _, rfl,
      present_pos hm.1⟩
  · simp only [Field.reads, Field.members, ht, true_and]
    split_ifs
    · exact ⟨⟨_, List.mem_singleton_self _, rfl, Nat.succ_pos _⟩, _, List.mem_singleton_self _, rfl,
        Nat.succ_pos _⟩
    · exact ⟨⟨_, List.mem_singleton_self _, rfl, present_pos hm.1⟩, _, List.mem_singleton_self _,
        rfl, present_pos hm.1⟩
  · simp only [Field.reads, Field.members, ht]
    exact ⟨⟨_, List.mem_singleton_self _, rfl, by omega⟩, _, List.mem_singleton_self _, rfl,
      by omega⟩
  · exact absurd ht hs

lemma separate_at (h : Separate version f g) (hf : FieldOk f ∧ IsValue f ∧ f.type ≠ .skip)
    (hg : FieldOk g ∧ IsValue g ∧ g.type ≠ .skip) (ho : f.member.offset = g.member.offset) :
    g.Extends f := by
  obtain ⟨-, a, ha, hao, ha0⟩ := members_at version hf.1 hf.2.1 hf.2.2
  obtain ⟨⟨b, hb, hbo, hb0⟩, -⟩ := members_at version hg.1 hg.2.1 hg.2.2
  refine h.resolve_right ?_
  rintro ⟨hapart, -⟩
  have hab := hapart a ha b hb
  simp only [Member.Apart] at hab
  omega

lemma ListOk.same_member (hok : ListOk version size all) (hf : f ∈ all) (hg : g ∈ all)
    (hfv : IsValue f ∧ f.type ≠ .skip) (hgv : IsValue g ∧ g.type ≠ .skip)
    (ho : f.member.offset = g.member.offset) : f = g ∨ f.Extends g ∨ g.Extends f := by
  by_cases heq : f = g
  · exact .inl heq
  · have : Std.Symm fun a b : Field => Separate version a b ∨ Separate version b a :=
      ⟨fun _ _ => Or.symm⟩
    have hpairs : all.Pairwise fun a b => Separate version a b ∨ Separate version b a :=
      hok.separate.imp Or.inl
    rcases hpairs.forall hf hg heq with h | h
    · exact .inr (.inr (separate_at h ⟨hok.ok f hf, hfv⟩ ⟨hok.ok g hg, hgv⟩ ho))
    · exact .inr (.inl (separate_at h ⟨hok.ok g hg, hgv⟩ ⟨hok.ok f hf, hfv⟩ ho.symm))

lemma ListOk.extended_isValue (hok : ListOk version size all) (he : e ∈ all)
    (hext : e.params.extended = true) : IsValue e ∧ e.type ≠ .skip := by
  have ht := hok.extended.integer e he hext
  exact ⟨.inl ht, by simp [ht]⟩

lemma ListOk.governing_isPlain (hok : ListOk version size all) (hf : f ∈ all)
    (hv : IsValue f ∧ f.type ≠ .skip) (hplain : f.params.extended = false) (he : e ∈ all)
    (hext : e.params.extended = true) (ho : fieldWhenOffset e = f.member.offset) : f.IsPlain := by
  obtain ⟨p, hp, hpp, hpo⟩ := hok.extended.governing e he hext
  rcases hok.same_member hf hp hv hpp.isValue (by rw [hpo, ho]) with rfl | h | h
  · exact hpp
  · exact absurd h.1 (by simp [hplain])
  · exact absurd h.1 (by simp [hpp.1])

lemma ListOk.one_extended (hok : ListOk version size all) (hf : f ∈ all) (hg : g ∈ all)
    (hfe : f.params.extended = true) (hge : g.params.extended = true)
    (ho : f.member.offset = g.member.offset) : f = g := by
  rcases hok.same_member hf hg (hok.extended_isValue hf hfe) (hok.extended_isValue hg hge) ho with
    rfl | h | h
  · rfl
  · exact absurd h.2.1.1 (by simp [hge])
  · exact absurd h.2.1.1 (by simp [hfe])

lemma ListOk.extends (hok : ListOk version size all) (he : e ∈ all) (hf : f ∈ all)
    (hext : e.params.extended = true) (hplain : f.params.extended = false)
    (hv : IsValue f ∧ f.type ≠ .skip) (ho : e.member.offset = f.member.offset) : e.Extends f := by
  rcases hok.same_member he hf (hok.extended_isValue he hext) hv ho with rfl | h | h
  · simp [hext] at hplain
  · exact h
  · exact absurd h.1 (by simp [hplain])

end OpenDmi

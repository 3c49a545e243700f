import OpenDmi.EncodeArrays
import OpenDmi.EncodeBits
import OpenDmi.EncodeChoices

namespace OpenDmi

open Bytes

variable {source : Source} {version base size offset index taken level : ℕ}
  {all before rest : List Field} {f q : Field} {read written choices' : List Choice}
  {group : Option Field} {info : Memory} {data : FieldData} {raw : Option ℕ} {out : EncodeState}
  {state next final : DecodeState}

lemma Place.inside_block (h : Place source size all before rest) (hf : f ∈ all)
    (ho : Inside base (f.reads source.version) offset) : ¬ Beyond base size offset := by
  obtain ⟨m, hm, hlo, hhi⟩ := ho
  have hin := h.ok.inside f hf m hm
  simp only [Beyond]
  omega

lemma Place.info_same (h : Place source size all before (f :: rest)) (hg : GroupBefore before group)
    (tail : Run source base rest choices' group { next with defined := level } final)
    (hc : final.isIncomplete = false)
    (hinfo : ∀ offset, ¬ Beyond base size offset → SameAt info final.memory offset)
    (ht : f.type ≠ .group) (hnot : ∀ e ∈ rest, ¬ e.Extends f)
    (ho : Inside base (f.reads source.version) offset) : SameAt info next.memory offset := by
  have hlater := h.step.same hg.step tail hc (by simp) ht hnot ho
  exact (hinfo offset (h.inside_block (h.mem_rest List.mem_cons_self) ho)).trans hlater

lemma Place.info_held (h : Place source size all before rest) (hq : q ∈ all)
    (hv : IsValue q ∧ q.type ≠ .skip)
    (hinfo : ∀ offset, ¬ Beyond base size offset → SameAt info final.memory offset)
    (hheld : HoldsDecoded final.memory base q) : HoldsDecoded info base q :=
  hheld.same (hinfo _ (h.inside_block hq (inside_value base (h.ok.ok q hq) hv source.version)))

lemma reads_value (base : ℕ) (hok : FieldOk f) (ht : f.type = .uuid ∨ f.type = .binary ∧
    (f.params.decode = none ∨ fieldIsFixed f = true)) (version : ℕ) :
    Inside base (f.reads version) (base + f.member.offset) ∧
      Inside base (f.reads version) (base + f.member.offset + 8) := by
  have hm := hok.2
  rcases ht with ht | ⟨ht, hd⟩ <;> simp only [ht] at hm
  · have hreads : f.reads version = [f.member] := by simp [Field.reads, Field.members, ht]
    rw [hreads]
    exact ⟨⟨_, List.mem_singleton_self _, by omega, by omega⟩, _, List.mem_singleton_self _, by omega,
      by omega⟩
  · by_cases hl : f.params.length = lengthMember
    · have hreads : f.reads version = [⟨f.member.offset, 16⟩] := by simp [Field.reads, ht, hl]
      rw [hreads]
      exact ⟨⟨_, List.mem_singleton_self _, by simp, by simp⟩, _, List.mem_singleton_self _,
        by simp only; omega, by simp only; omega⟩
    · have hreads : f.reads version = [f.member] := by simp [Field.reads, Field.members, ht, hl]
      have hdecode : f.params.decode = none := by
        rcases hd with hd | hd
        · exact hd
        · simp only [fieldIsFixed, ht, hl, Bool.or_eq_true, beq_iff_eq, or_false] at hd
          exact hm.2.2.2.2 (.inl hd)
      have hsize := hm.2.2.2.1 hdecode
      rw [hreads]
      exact ⟨⟨_, List.mem_singleton_self _, by omega, by omega⟩, _, List.mem_singleton_self _,
        by omega, by omega⟩

lemma value_present (hok : FieldOk f) (hv : IsValue f ∧ f.type ≠ .skip) :
    memberIsPresent f.member = true := by
  have hm := hok.2
  rcases hv.1 with ht | ht | ht | ht | ht | ht <;> simp only [ht] at hm
  · exact hm.1
  · exact hm.1
  · exact hm.1
  · simp [memberIsPresent, hm.1]
  · exact absurd ht hv.2

lemma value_handlers (hok : FieldOk f) (hv : IsValue f ∧ f.type ≠ .skip)
    (hf : fieldIsFixed f = false) : HandlersOk f := by
  have hm := hok.2
  rcases hv.1 with ht | ht | ht | ht | ht | ht <;> simp only [ht] at hm
  · exact hm.2
  · exact hm.2.2
  · exact hm.2.2.1
  · simp [fieldIsFixed, ht] at hf
  · exact absurd ht hv.2

lemma choice_unkept (hagree : Agree all before read written)
    (hnone : choiceFind written f.member.offset = none) (raw : ℕ) :
    choiceFind read f.member.offset = none ∧
      choiceUpdate read f.member.offset (fun c => { c with raw := raw }) = read := by
  have hrel := hagree f.member.offset
  rw [hnone] at hrel
  have hread : choiceFind read f.member.offset = none := by
    rcases hr : choiceFind read f.member.offset with _ | r
    · rfl
    · rw [hr] at hrel
      cases hrel
  exact ⟨hread, choiceUpdate_none hread⟩

lemma Place.choice_plain (h : Place source size all before (f :: rest))
    (hagree : Agree all before read written) (hv : IsValue f ∧ f.type ≠ .skip)
    (hplain : f.params.extended = false) (hnot : ¬ f.IsPlain) :
    choiceFind written f.member.offset = none := by
  have hrel := hagree f.member.offset
  rcases hw : choiceFind written f.member.offset with _ | w
  · rfl
  · rw [hw] at hrel
    rcases hr : choiceFind read f.member.offset with _ | r <;> rw [hr] at hrel <;> cases hrel
    rename_i hagrees
    obtain ⟨e, he, hext, hwhen, -⟩ := hagrees.collected
    exact absurd (h.ok.governing_isPlain (h.mem_rest List.mem_cons_self) hv hplain he hext hwhen) hnot

lemma Place.value_encodes (index version : ℕ) (h : Place source size all before (f :: rest))
    (hg : GroupBefore before group) (hsize : source.body.length < 2 ^ 64)
    (hv : IsValue f ∧ f.type ≠ .skip) (hplain : f.params.extended = false)
    (hread : decodeValue source f (fieldValue base f) state = (true, raw, next))
    (tail : Run source base rest (raw.elim read fun raw =>
      choiceUpdate read (fieldWhenOffset f) fun c => { c with raw := raw }) group
      { next with defined := level } final)
    (hc : final.isIncomplete = false)
    (hinfo : ∀ offset, ¬ Beyond base size offset → SameAt info final.memory offset)
    (hin : InStep source 0 state out) (hagree : Agree all before read written) :
    ∃ written', encodeValue (preserving source version) all index base f info written out =
      some (written', out.upTo source next.position) ∧
      Agree all (before ++ [f]) (raw.elim read fun raw =>
        choiceUpdate read (fieldWhenOffset f) fun c => { c with raw := raw }) written' := by
  have hfa := h.mem_rest (f := f) List.mem_cons_self
  have hok := h.ok.ok f hfa
  have hnotPlain : ¬ f.IsPlain → (∀ e ∈ rest, ¬ e.Extends f) := fun hn e _ he => hn he.2.1
  have htype : f.type ≠ .group := by
    intro ht
    rcases hv.1 with h' | h' | h' | h' | h' | h' <;> simp [h'] at ht
  have hwhen := h.ok.whenOffset hfa hplain
  by_cases hfixed : fieldIsFixed f = true
  · have hnot : ¬ f.IsPlain := fun hp => by simp [fieldIsFixed, hp.2] at hfixed
    have hnone := h.choice_plain hagree hv hplain hnot
    have hchoices : (raw.elim read fun raw =>
        choiceUpdate read (fieldWhenOffset f) fun c => { c with raw := raw }) = read := by
      cases raw with
      | none => rfl
      | some raw =>
        rw [Option.elim_some, hwhen]
        exact (choice_unkept hagree hnone _).2
    have hsame : ∀ offset, Inside base (f.reads source.version) offset →
        SameAt info next.memory offset := fun offset ho =>
      h.info_same hg tail hc hinfo htype (hnotPlain hnot) ho
    rw [hchoices]
    have hskip : Agree all (before ++ [f]) read written := hagree.skip fun hp => absurd hp hnot
    by_cases hu : f.type = .uuid
    · obtain ⟨h0, h8⟩ := reads_value base hok (.inl hu) source.version
      exact ⟨written, encodeUuid_source hin hok hu hread (hsame _ h0) (hsame _ h8), hskip⟩
    · have hb : f.type = .binary := by
        have hm := hok.2
        rcases hv.1 with h' | h' | h' | h' | h' | h'
        · simp [fieldIsFixed, h'] at hfixed
        · simp [fieldIsFixed, h'] at hfixed
        · simp only [h'] at hm
        · exact h'
        · exact absurd h' hu
        · exact absurd h' hv.2
      obtain ⟨h0, h8⟩ := reads_value base hok (.inr ⟨hb, .inr hfixed⟩) source.version
      exact ⟨written, encodeRest_source hsize hin hok hb hfixed hread (hsame _ h0) (hsame _ h8), hskip⟩
  · have hvalue : fieldValue base f = some (base + f.member.offset) := by
      rw [fieldValue, if_pos (value_present hok hv)]
    rw [hvalue] at hread
    obtain ⟨data, rfl, hcarried, happly⟩ := carried version hin hok hv.1 hv.2
      (by simpa using hfixed) hread
    obtain ⟨memory, happlied, rfl⟩ := applyTo_true happly
    have hh := value_handlers hok hv (by simpa using hfixed)
    rw [Option.elim_some, hwhen] at tail ⊢
    have hheld : decodesInto f data info (base + f.member.offset) = true ∨ ∃ e ∈ all, e.Extends f ∧
        Chosen (choiceUpdate read f.member.offset fun c => { c with raw := data.number }) e ∧
          HoldsDecoded info base e := by
      by_cases hp : f.IsPlain
      · rcases h.step.held hg.step tail hc (by simp) hp with hsame | ⟨e, he, hext, hchosen, hval⟩
        · refine .inl (applied_decodesInto hh happlied ((hinfo _ ?_).trans hsame) (by simp [hp.2]))
          exact h.inside_block hfa (inside_value base hok hv source.version)
        · have hea := h.step.mem_rest he
          exact .inr ⟨e, hea, hext, hchosen,
            h.info_held hea (h.ok.extended_isValue hea hext.1) hinfo hval⟩
      · have hsame : ∀ offset, Inside base (f.reads source.version) offset →
            SameAt info memory offset := fun offset ho =>
          h.info_same hg tail hc hinfo htype (hnotPlain hp) ho
        exact .inl (applied_decodesInto hh happlied (hsame _ (inside_value base hok hv _))
          fun hb hd => hsame _ (reads_value base hok (.inr ⟨hb, .inl hd⟩) _).2)
    have hgov : f.IsPlain → ∀ q ∈ rest, q.IsPlain → fieldGoverns all q f.member.offset = true →
        HeldAs all (choiceUpdate read f.member.offset fun c => { c with raw := data.number })
          info base q := by
      intro hp q hq hqp hqg
      have hqa := h.step.mem_rest hq
      rcases h.step.decoded hg.step tail hc (by simp) hp hq hqp hqg with hval |
        ⟨e, he, hext, -, hchosen, hval⟩
      · exact .inl (h.info_held hqa hqp.isValue hinfo hval)
      · exact .inr ⟨e, he, hext, hchosen,
          h.info_held he (h.ok.extended_isValue he hext.1) hinfo hval⟩
    rcases hw : choiceFind written f.member.offset with _ | w
    · obtain ⟨hnone, hchoices⟩ := choice_unkept hagree hw data.number
      rw [hchoices] at hheld ⊢
      exact ⟨written, h.encode_plain hin hagree hh hplain (by simpa using hfixed) hcarried hw hheld,
        hagree.skip fun _ => hnone⟩
    · have hp : f.IsPlain := by
        by_contra hp
        rw [h.choice_plain hagree hv hplain hp] at hw
        cases hw
      exact h.encode_governing hin hagree hp hcarried hw rfl hheld (hgov hp)

end OpenDmi

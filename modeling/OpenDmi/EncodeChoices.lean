import OpenDmi.DecodeHeld
import OpenDmi.EncodeValue

namespace OpenDmi

open Bytes

variable {source : Source} {version base size offset index value : ℕ}
  {all before rest : List Field} {f e p q : Field} {read written choices : List Choice}
  {c : Choice} {info : Memory} {data : FieldData} {out next' : EncodeState} {state next : DecodeState}

lemma encodeValue_data (hin : InStep source 0 state out) (hf : fieldIsFixed f = false)
    (hcarried : Carried source version f data state out) :
    encodeValue (preserving source version) all index base f info written out =
      if f.params.extended = true ∧
          (choiceFind written (fieldWhenOffset f)).all (·.extended == false) then
        some (written, encoderCopy (preserving source version) (fieldWidth f) out)
      else match valueData f info (base + f.member.offset) (some data) with
        | none => none
        | some (model, exact) =>
          if f.params.extended then
            (putData (preserving source version) f model out).map fun state => (written, state)
          else match choiceFind written (fieldWhenOffset f) with
            | some choice => encodeGoverning (preserving source version) all index f info base
                choice (some data) model exact written out
            | none => (encodePlain (preserving source version) all f written (fieldWidth f) model
                out).map fun state => (written, state) := by
  have hfits := hcarried.fits
  simp only [encodeValue]
  rw [if_neg (by rw [encoderRemaining_le hin]; omega), hf, hcarried.original]
  rfl

lemma encoderCopy_carried (hin : InStep source 0 state out)
    (hcarried : Carried source version f data state out) :
    encoderCopy (preserving source version) (fieldWidth f) out =
      out.upTo source (state.position + fieldWidth f) := by
  obtain ⟨hpos, hcount, -, hvalue, -⟩ := hin.aligned
  have hfits := hcarried.fits
  rw [encoderCopy_source hin.toOnSource hcount hvalue (by omega), hpos]

lemma Place.governing_before (h : Place source size all before (f :: rest))
    (hext : f.params.extended = true) :
    ∃ p ∈ before, p.IsPlain ∧ p.member.offset = fieldWhenOffset f := by
  obtain ⟨p, hp, hplain, ho⟩ := h.ok.extended.governing f (h.mem_rest List.mem_cons_self) hext
  rw [h.split] at hp
  rcases List.mem_append.mp hp with hp | hp
  · exact ⟨p, hp, hplain, ho⟩
  rcases List.mem_cons.mp hp with rfl | hp
  · simp [hplain.1] at hext
  · exact absurd ho (h.step.pair h.ok.extended.order (by simp) hp hext hplain).2

lemma Place.encode_extended (index version : ℕ) (h : Place source size all before (f :: rest))
    (hin : InStep source 0 state out) (hagree : Agree all before read written)
    (hext : f.params.extended = true)
    (hread : decodeExtended source f (fieldValue base f) (choiceFind read (fieldWhenOffset f))
      state = (true, next))
    (hsame : SameAt info next.memory (base + f.member.offset)) :
    encodeValue (preserving source version) all index base f info written out =
      some (written, out.upTo source next.position) := by
  have hfa := h.mem_rest (f := f) List.mem_cons_self
  have ht := h.ok.extended.integer f hfa hext
  obtain ⟨hvalue, hh⟩ := fieldOk_integer base (h.ok.ok f hfa) ht
  obtain ⟨number, memory, h0, h8, hfits, rfl, rfl, -, happlied⟩ := decodeExtended_true ht hread
  have hcarried := integer_carried version hin ht h0 h8 hfits
  have hwidth : fieldWidth f = f.params.length := by simp [fieldWidth, ht]
  rw [encodeValue_data hin (by simp [fieldIsFixed, ht]) hcarried]
  have hrel := hagree (fieldWhenOffset f)
  split_ifs with hall
  · rw [encoderCopy_carried hin hcarried, hwidth]
  · rcases hr : choiceFind read (fieldWhenOffset f) with _ | r <;>
      rcases hw : choiceFind written (fieldWhenOffset f) with _ | w <;>
      rw [hr, hw] at hrel <;> cases hrel
    · simp [hw, hext] at hall
    · rename_i hc
      simp only [hw, hext, Option.all_some, beq_iff_eq, true_and, Bool.not_eq_false] at hall
      obtain ⟨e, he, hee, hwhen, hraw⟩ := hc.collected
      have hchosen := (hc.chosen (h.governing_before hext)).mp hall
      rw [← hraw, h.ok.extended.sameWhen e he f hfa hee hext hwhen] at hchosen
      have happ := happlied r hr hchosen
      rw [hvalue] at happ
      have hinto := applied_decodesInto hh happ hsame (by simp [ht])
      rw [valueData_original hh hinto]
      dsimp only
      rw [hcarried.put, hwidth]
      rfl

lemma valueData_none (hh : HandlersOk f) : valueData f info value none =
    (modelData f info value).map fun data =>
      (data, decodesInto f data info value && dataFits f data) := by
  have hpaired : ¬ (f.params.decode.isSome = true ∧ f.params.encode.isNone = true) := by
    rintro ⟨hd, he⟩
    have hp := hh.paired hd
    rw [Option.isNone_iff_eq_none] at he
    simp [he] at hp
  rw [valueData, if_neg hpaired]

lemma valueData_isSome (hh : HandlersOk f) (hm : (modelData f info value).isSome)
    (original : FieldData) : ∃ model, valueData f info value (some original) = some model := by
  by_cases hinto : decodesInto f original info value = true
  · exact ⟨_, valueData_original hh hinto⟩
  · obtain ⟨data, hdata⟩ := Option.isSome_iff_exists.mp hm
    have hnone : valueData f info value none = _ := valueData_none hh
    have hsome : valueData f info value (some original) = valueData f info value none := by
      rw [valueData, valueData]
      simp only [hinto, Bool.false_eq_true, if_false]
    exact ⟨_, by rw [hsome, hnone, hdata]; rfl⟩

def HeldAs (all : List Field) (choices : List Choice) (info : Memory) (base : ℕ) (q : Field) :
    Prop :=
  HoldsDecoded info base q ∨ ∃ e ∈ all, e.Extends q ∧ Chosen choices e ∧ HoldsDecoded info base e

lemma governedFit_some {good : Prop} (governing : ℕ) {list : List (Field × ℕ)} (fits : Bool)
    (h : ∀ q ∈ list, q.1.params.extended = false → fieldGoverns all q.1 offset = true →
      ∃ data exact, valueData q.1 info (base + q.1.member.offset) none = some (data, exact) ∧
        (good → exact = true)) :
    ∃ b, governedFit all governing info base offset list fits = some b ∧
      (good → fits = true → b = true) := by
  induction list generalizing fits with
  | nil => exact ⟨fits, rfl, fun _ => id⟩
  | cons q rest ih =>
    have hrest := fun fits => ih fits fun q hq => h q (List.mem_cons_of_mem _ hq)
    obtain ⟨q, i⟩ := q
    rw [governedFit]
    split_ifs with hfalse hnot
    · exact ⟨false, rfl, fun _ ht => absurd ht (by simp [hfalse])⟩
    · exact hrest fits
    · simp only [not_or, Bool.not_eq_true, Bool.not_eq_false] at hnot
      obtain ⟨data, exact, hdata, hgood⟩ := h (q, i) List.mem_cons_self hnot.2.1 hnot.2.2
      obtain ⟨b, hb, hb'⟩ := hrest exact
      simp only [hdata]
      exact ⟨b, hb, fun hg _ => hb' hg (hgood hg)⟩

lemma Place.governed_fit (index : ℕ) (h : Place source size all before (p :: rest)) (hplain : p.IsPlain)
    (hc : choiceFind choices p.member.offset = some c)
    (hgov : ∀ q ∈ rest, q.IsPlain → fieldGoverns all q p.member.offset = true →
      HeldAs all choices info base q) :
    ∃ b, governedFit all index info base p.member.offset all.zipIdx true = some b ∧
      ((∀ e ∈ all, e.params.extended = true → fieldWhenOffset e = p.member.offset →
        c.raw ≠ e.params.whenRaw) → b = true) := by
  suffices hall : ∀ q ∈ all.zipIdx, q.1.params.extended = false →
      fieldGoverns all q.1 p.member.offset = true → ∃ data exact,
        valueData q.1 info (base + q.1.member.offset) none = some (data, exact) ∧
          ((∀ e ∈ all, e.params.extended = true → fieldWhenOffset e = p.member.offset →
            c.raw ≠ e.params.whenRaw) → exact = true) by
    obtain ⟨b, hb, hgood⟩ := governedFit_some index true hall
    exact ⟨b, hb, fun hg => hgood hg rfl⟩
  rintro ⟨q, i⟩ hqi hqx hqg
  dsimp only at hqx hqg ⊢
  have hqa : q ∈ all := List.fst_mem_of_mem_zipIdx hqi
  obtain ⟨hne, e, he, hext, hoff, hwhen⟩ := fieldGoverns_true hqg
  have heq : e.Extends q := by
    rcases h.ok.extended.alone e he hext (by rw [hwhen, hoff]; exact hne.symm) q hqa hoff.symm with
      hx | hx
    · simp [hqx] at hx
    · exact hx
  have hqplain := heq.2.1
  obtain ⟨hround, hencodes⟩ := h.ok.extended.law e he q hqa heq
  have hqh := (fieldOk_integer base (h.ok.ok q hqa) hqplain.2).2
  have hqr : q ∈ rest := by
    have hq' := hqa
    rw [h.split] at hq'
    rcases List.mem_append.mp hq' with hq' | hq'
    · have hno := h.pair h.ok.extended.governed hq' List.mem_cons_self hqplain hplain
      simp [hqg] at hno
    rcases List.mem_cons.mp hq' with rfl | hq'
    · exact absurd rfl hne
    · exact hq'
  rcases hgov q hqr hqplain hqg with ⟨raw, v, hraw, hv, hheld⟩ |
    ⟨e', he', hext', ⟨c', hc', hcr⟩, raw, v, hraw, hv, hheld⟩
  · obtain ⟨data, hdata, hinto, hfits⟩ := hround raw hraw v hv info _ hheld
    exact ⟨data, true, by rw [valueData_none hqh, hdata]; simp [hinto, hfits], fun _ => rfl⟩
  · obtain rfl := h.ok.one_extended he' he hext'.1 hext (by rw [hext'.2.2, heq.2.2])
    rw [hext'.2.2] at hheld
    obtain ⟨data, hdata⟩ := Option.isSome_iff_exists.mp (hencodes raw hraw v hv info _ hheld)
    rw [hwhen, hc] at hc'
    obtain rfl := Option.some.inj hc'
    refine ⟨data, _, by rw [valueData_none hqh, hdata]; rfl, fun hg => ?_⟩
    exact absurd hcr (hg e' he hext hwhen)

lemma putData_integer {encoder : Encoder} (other : FieldData) (ht : f.type = .integer)
    (hn : data.number = other.number) : putData encoder f data out = putData encoder f other out := by
  simp only [putData, ht, hn]

lemma encodeGoverning_chosen {encoder : Encoder} {model original : FieldData} {exact b : Bool}
    (ht : f.type = .integer) (hnumber : original.number = c.whenRaw)
    (hfit : governedFit all index info base c.offset all.zipIdx true = some b)
    (hput : putData encoder f original out = some next') :
    encodeGoverning encoder all index f info base c (some original) model exact written out =
      some (choiceUpdate written c.offset fun c => { c with extended := true }, next') := by
  rw [putData_integer { model with number := c.whenRaw } ht hnumber] at hput
  simp only [encodeGoverning, Option.any_some, hnumber, beq_self_eq_true, Bool.or_true,
    if_true, Option.bind_eq_bind, Option.bind_some, hput, hfit]
  split_ifs <;> rfl

lemma encodeGoverning_own {encoder : Encoder} {original : FieldData}
    (hnumber : original.number ≠ c.whenRaw)
    (hfit : governedFit all index info base c.offset all.zipIdx true = some true)
    (hput : putData encoder f original out = some next') :
    encodeGoverning encoder all index f info base c (some original) original true written out =
      some (choiceUpdate written c.offset fun c => { c with extended := false }, next') := by
  have hne : (original.number == c.whenRaw) = false := by simpa using hnumber
  simp only [encodeGoverning, bne, hne, Bool.not_false, Bool.and_self, if_true, hfit,
    Option.bind_eq_bind, Option.bind_some, Option.any_some, Bool.not_true, Bool.or_self,
    Bool.false_eq_true, if_false, hput]
  rfl

lemma Place.encode_governing (h : Place source size all before (p :: rest))
    (hin : InStep source 0 state out) (hagree : Agree all before read written)
    (hplain : p.IsPlain) (hcarried : Carried source version p data state out)
    (hc : choiceFind written p.member.offset = some c)
    (hchoices : choices = choiceUpdate read p.member.offset fun c => { c with raw := data.number })
    (hheld : decodesInto p data info (base + p.member.offset) = true ∨
      ∃ e ∈ all, e.Extends p ∧ Chosen choices e ∧ HoldsDecoded info base e)
    (hgov : ∀ q ∈ rest, q.IsPlain → fieldGoverns all q p.member.offset = true →
      HeldAs all choices info base q) :
    ∃ written', encodeValue (preserving source version) all index base p info written out =
      some (written', out.upTo source (state.position + fieldWidth p)) ∧
        Agree all (before ++ [p]) choices written' := by
  have hpa := h.mem_rest (f := p) List.mem_cons_self
  have hh := (fieldOk_integer base (h.ok.ok p hpa) hplain.2).2
  have hoffset := choiceFind_offset hc
  obtain ⟨r, hr, hagrees⟩ : ∃ r, choiceFind read p.member.offset = some r ∧
      ChoiceAgrees all before p.member.offset r c := by
    have hrel := hagree p.member.offset
    rw [hc] at hrel
    rcases hr : choiceFind read p.member.offset with _ | r <;> rw [hr] at hrel <;> cases hrel
    exact ⟨r, rfl, ‹_›⟩
  have hfound : choiceFind choices p.member.offset = some { r with raw := data.number } := by
    rw [hchoices, choiceFind_update (u := fun c => { c with raw := data.number }) (fun _ => rfl),
      if_pos rfl, hr]
    rfl
  obtain ⟨e0, he0, hext0, hwhen0, hraw0⟩ := hagrees.collected
  have hwhen : ∀ e ∈ all, e.params.extended = true → fieldWhenOffset e = p.member.offset →
      e.params.whenRaw = c.whenRaw := by
    intro e he hext hw
    rw [h.ok.extended.sameWhen e he e0 he0 hext hext0 (by rw [hw, hwhen0]), hraw0, hagrees.whenRaw]
  obtain ⟨b, hfit, hgood⟩ := h.governed_fit index hplain hfound hgov
  rw [← hoffset] at hfit
  rw [encodeValue_data hin (by simp [fieldIsFixed, hplain.2]) hcarried,
    if_neg (by simp [hplain.1]), h.ok.whenOffset hpa hplain.1, hc]
  obtain ⟨model, hmodel, hown⟩ : ∃ model,
      valueData p info (base + p.member.offset) (some data) = some model ∧
        (data.number ≠ c.whenRaw → model = (data, true)) := by
    rcases hheld with hinto | ⟨e, he, hep, ⟨c', hc', hcr⟩, raw, v, hraw, hv, hholds⟩
    · exact ⟨_, valueData_original hh hinto, fun _ => rfl⟩
    · rw [hep.2.2] at hholds
      obtain ⟨model, hmodel⟩ := valueData_isSome hh
        ((h.ok.extended.law e he p hpa hep).2 raw hraw v hv info _ hholds) data
      refine ⟨model, hmodel, fun hne => absurd ?_ hne⟩
      have hself : fieldWhenOffset e = p.member.offset := by
        by_contra hw
        refine h.ok.extended.noChain e he e0 he0 hep.1 hext0 ?_ ?_
        · rwa [hep.2.2]
        · rw [hwhen0, hep.2.2]
      rw [hself, hfound] at hc'
      obtain rfl := Option.some.inj hc'
      exact hcr.trans (hwhen e he hep.1 hself)
  rw [hmodel]
  obtain ⟨model, exact⟩ := model
  dsimp only
  rw [if_neg (by simp [hplain.1])]
  rw [hchoices]
  by_cases hnumber : data.number = c.whenRaw
  · rw [encodeGoverning_chosen hplain.2 hnumber hfit hcarried.put, hoffset]
    exact ⟨_, rfl, hagree.settle hc (by simp [hnumber])⟩
  · have hb : b = true := hgood fun e he hext hw => by
      rw [hwhen e he hext hw]
      exact hnumber
    subst hb
    cases hown hnumber
    rw [encodeGoverning_own hnumber hfit hcarried.put, hoffset]
    exact ⟨_, rfl, hagree.settle hc (by simp [hnumber])⟩

lemma Place.governor_before (h : Place source size all before (f :: rest)) (he : e ∈ all)
    (hef : e.Extends f) (hne : fieldWhenOffset e ≠ f.member.offset) :
    ∃ p ∈ before, p.IsPlain ∧ p.member.offset = fieldWhenOffset e := by
  obtain ⟨p, hp, hplain, ho⟩ := h.ok.extended.governing e he hef.1
  rw [h.split] at hp
  rcases List.mem_append.mp hp with hp | hp
  · exact ⟨p, hp, hplain, ho⟩
  rcases List.mem_cons.mp hp with rfl | hp
  · exact absurd ho.symm hne
  · have hgov := h.step.pair h.ok.extended.governed (by simp) hp hef.2.1 hplain
    have hmember : f.member.offset ≠ p.member.offset := fun heq => hne (by rw [heq, ho])
    simp only [fieldGoverns, Bool.and_eq_false_iff, bne_eq_false_iff_eq, hmember, false_or,
      List.any_eq_false, Bool.and_eq_true, beq_iff_eq, not_and] at hgov
    exact absurd ho.symm (hgov e he ⟨hef.1, by rw [hef.2.2]⟩)

lemma Place.encode_plain (h : Place source size all before (f :: rest))
    (hin : InStep source 0 state out) (hagree : Agree all before read written)
    (hh : HandlersOk f) (hplain : f.params.extended = false)
    (hf : fieldIsFixed f = false) (hcarried : Carried source version f data state out)
    (hc : choiceFind written f.member.offset = none)
    (hheld : decodesInto f data info (base + f.member.offset) = true ∨
      ∃ e ∈ all, e.Extends f ∧ Chosen read e ∧ HoldsDecoded info base e) :
    encodeValue (preserving source version) all index base f info written out =
      some (written, out.upTo source (state.position + fieldWidth f)) := by
  have hfa := h.mem_rest (f := f) List.mem_cons_self
  rw [encodeValue_data hin hf hcarried, if_neg (by simp [hplain]), h.ok.whenOffset hfa hplain, hc]
  rcases hheld with hinto | ⟨e, he, hep, ⟨r, hr, hraw⟩, raw, v, hrange, hdecodes, hholds⟩
  · rw [valueData_original hh hinto]
    dsimp only
    rw [if_neg (by simp [hplain]), encodePlain]
    dsimp only
    split
    · rw [if_pos rfl, encoderCopy_carried hin hcarried, hcarried.put, ite_self]
      rfl
    · rw [hcarried.put]
      rfl
  · rw [hep.2.2] at hholds
    obtain ⟨model, hmodel⟩ := valueData_isSome hh
      ((h.ok.extended.law e he f hfa hep).2 raw hrange v hdecodes info _ hholds) data
    have hne : fieldWhenOffset e ≠ f.member.offset := by
      intro hw
      have hrel := hagree (fieldWhenOffset e)
      rw [hr, hw, hc] at hrel
      cases hrel
    obtain ⟨w, hw, hwx⟩ : ∃ w, choiceFind written (fieldWhenOffset e) = some w ∧
        w.extended = true := by
      have hrel := hagree (fieldWhenOffset e)
      rw [hr] at hrel
      rcases hw : choiceFind written (fieldWhenOffset e) with _ | w <;> rw [hw] at hrel <;>
        cases hrel
      rename_i hagrees
      obtain ⟨e0, he0, hext0, hwhen0, hraw0⟩ := hagrees.collected
      refine ⟨w, rfl, (hagrees.chosen (h.governor_before he hep hne)).mpr ?_⟩
      rw [hraw, ← hraw0, h.ok.extended.sameWhen e0 he0 e he hext0 hep.1 hwhen0]
    have hfind : all.find? (fun other => other.params.extended &&
        other.member.offset == f.member.offset) = some e := by
      obtain ⟨other, hother⟩ := Option.isSome_iff_exists.mp (List.find?_isSome.mpr
        ⟨e, he, by simp [hep.1, hep.2.2]⟩ : (all.find? fun other => other.params.extended &&
          other.member.offset == f.member.offset).isSome)
      have hspec := List.find?_some hother
      simp only [Bool.and_eq_true, beq_iff_eq] at hspec
      rw [hother, h.ok.one_extended (List.mem_of_find?_eq_some hother) he hspec.1 hep.1
        (by rw [hspec.2, hep.2.2])]
    rw [hmodel]
    dsimp only
    rw [if_neg (by simp [hplain]), encodePlain, hfind, Option.bind_some, hw]
    dsimp only
    rw [if_pos hwx, if_pos rfl, encoderCopy_carried hin hcarried]
    rfl

end OpenDmi

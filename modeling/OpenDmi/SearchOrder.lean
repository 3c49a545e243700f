import OpenDmi.Anonymize

namespace OpenDmi

open Bytes Occurrences

variable {values : List AnonymizeValue} {value : AnonymizeValue} {previous : Option ℕ}
  {fuel minimum start finish : ℕ}

def isBelow (previous : Option ℕ) (value : AnonymizeValue) : Bool :=
  previous.all (value.data.length < ·)

def searchOrder (values : List AnonymizeValue) (minimum : ℕ) : ℕ → Option ℕ → List AnonymizeValue
  | 0, _ => []
  | fuel + 1, previous =>
    let longest := anonymizeLongest values previous
    if longest = 0 ∨ longest < minimum then []
    else values.filter (fun value => value.propagate && value.data.length == longest) ++
      searchOrder values minimum fuel (some longest)

def searched (values : List AnonymizeValue) (minimum : ℕ) : List AnonymizeValue :=
  searchOrder values minimum (values.length + 1) none

lemma longest_foldl (values : List AnonymizeValue) (previous : Option ℕ) (longest : ℕ) :
    let result := values.foldl (fun longest value =>
      if previous.all (value.data.length < ·) ∧ value.data.length > longest then value.data.length
      else longest) longest
    longest ≤ result ∧ (∀ value ∈ values, isBelow previous value → value.data.length ≤ result) ∧
      (result = longest ∨ ∃ value ∈ values, isBelow previous value ∧ value.data.length = result) := by
  induction values generalizing longest with
  | nil => simp
  | cons value values ih =>
    simp only [List.foldl_cons]
    by_cases hlonger : previous.all (value.data.length < ·) ∧ value.data.length > longest
    · rw [if_pos hlonger]
      obtain ⟨hle, hall, hfrom⟩ := ih value.data.length
      refine ⟨by omega, ?_, .inr ?_⟩
      · intro other hm hb
        rcases List.mem_cons.mp hm with rfl | hm
        · exact hle
        · exact hall other hm hb
      · rcases hfrom with heq | ⟨other, hm, hother⟩
        · exact ⟨value, List.mem_cons_self, hlonger.1, heq.symm⟩
        · exact ⟨other, List.mem_cons_of_mem _ hm, hother⟩
    · rw [if_neg hlonger]
      obtain ⟨hle, hall, hfrom⟩ := ih longest
      refine ⟨hle, ?_, ?_⟩
      · intro other hm hb
        rcases List.mem_cons.mp hm with rfl | hm
        · have hshort : ¬ other.data.length > longest := fun hl => hlonger ⟨hb, hl⟩
          omega
        · exact hall other hm hb
      · rcases hfrom with heq | ⟨other, hm, hother⟩
        · exact .inl heq
        · exact .inr ⟨other, List.mem_cons_of_mem _ hm, hother⟩

lemma anonymizeLongest_spec (values : List AnonymizeValue) (previous : Option ℕ) :
    (∀ value ∈ values, isBelow previous value →
      value.data.length ≤ anonymizeLongest values previous) ∧
    (anonymizeLongest values previous = 0 ∨ ∃ value ∈ values, isBelow previous value ∧
      value.data.length = anonymizeLongest values previous) :=
  (longest_foldl values previous 0).2

lemma mem_searchOrder_bounds (h : value ∈ searchOrder values minimum fuel previous) :
    value ∈ values ∧ value.propagate ∧ minimum ≤ value.data.length ∧ isBelow previous value := by
  induction fuel generalizing previous with
  | zero => cases h
  | succ fuel ih =>
    rw [searchOrder] at h
    split_ifs at h with hend
    · cases h
    · obtain ⟨-, hlongest⟩ := anonymizeLongest_spec values previous
      obtain ⟨found, -, hbelow, hfound⟩ := hlongest.resolve_left (fun h0 => hend (.inl h0))
      have hdown : ∀ n, n ≤ anonymizeLongest values previous → previous.all (n < ·) = true := by
        intro n hn
        cases previous with
        | none => rfl
        | some limit =>
          simp only [isBelow, Option.all_some, decide_eq_true_eq] at hbelow ⊢
          omega
      rcases List.mem_append.mp h with h | h
      · obtain ⟨hm, hv⟩ := List.mem_filter.mp h
        simp only [Bool.and_eq_true, beq_iff_eq] at hv
        exact ⟨hm, hv.1, by omega, hdown _ hv.2.le⟩
      · obtain ⟨hm, hp, hmin, hb⟩ := ih h
        simp only [isBelow, Option.all_some, decide_eq_true_eq] at hb
        exact ⟨hm, hp, hmin, hdown _ hb.le⟩

lemma below_decreases (hlongest : ∃ value ∈ values, isBelow previous value ∧
    value.data.length = anonymizeLongest values previous) :
    (values.filter (isBelow (some (anonymizeLongest values previous)))).length <
      (values.filter (isBelow previous)).length := by
  obtain ⟨found, hm, hbelow, hfound⟩ := hlongest
  have hsub : values.filter (isBelow (some (anonymizeLongest values previous))) =
      (values.filter (isBelow previous)).filter
        (isBelow (some (anonymizeLongest values previous))) := by
    rw [List.filter_filter]
    apply List.filter_congr
    intro value hv
    cases hb : isBelow (some (anonymizeLongest values previous)) value with
    | false => rfl
    | true =>
      cases previous with
      | none => rfl
      | some limit =>
        simp only [isBelow, Option.all_some, decide_eq_true_eq] at hbelow hb
        have hlt : value.data.length < limit := by omega
        simp [isBelow, hlt]
  rw [hsub]
  apply List.length_filter_lt_length_iff_exists.mpr
  exact ⟨found, List.mem_filter.mpr ⟨hm, hbelow⟩, by simp [isBelow, hfound]⟩

lemma mem_searchOrder (hmin : 0 < minimum)
    (hfuel : (values.filter (isBelow previous)).length < fuel) :
    value ∈ searchOrder values minimum fuel previous ↔ value ∈ values ∧ value.propagate ∧
      minimum ≤ value.data.length ∧ isBelow previous value := by
  refine ⟨mem_searchOrder_bounds, ?_⟩
  rintro ⟨hm, hp, hlen, hb⟩
  induction fuel generalizing previous with
  | zero => omega
  | succ fuel ih =>
    obtain ⟨hall, hlongest⟩ := anonymizeLongest_spec values previous
    have hle := hall value hm hb
    rw [searchOrder, if_neg (by omega)]
    by_cases heq : value.data.length = anonymizeLongest values previous
    · exact List.mem_append_left _ (List.mem_filter.mpr ⟨hm, by simp [hp, heq]⟩)
    · have hless := below_decreases (hlongest.resolve_left (by omega))
      refine List.mem_append_right _ (ih (by omega) ?_)
      simp only [isBelow, Option.all_some, decide_eq_true_eq]
      omega

lemma mem_searched (hmin : 0 < minimum) : value ∈ searched values minimum ↔
    value ∈ values ∧ value.propagate ∧ minimum ≤ value.data.length := by
  have hfuel := List.length_filter_le (isBelow none) values
  rw [searched, mem_searchOrder hmin (by omega)]
  simp [isBelow]

lemma searchOrder_sorted :
    (searchOrder values minimum fuel previous).Pairwise
      fun a b => b.data.length ≤ a.data.length := by
  induction fuel generalizing previous with
  | zero => exact .nil
  | succ fuel ih =>
    rw [searchOrder]
    split_ifs
    · exact .nil
    · have hround : ∀ value ∈ values.filter (fun value => value.propagate &&
          value.data.length == anonymizeLongest values previous),
          value.data.length = anonymizeLongest values previous := by
        intro value hv
        have hv := (List.mem_filter.mp hv).2
        simp only [Bool.and_eq_true, beq_iff_eq] at hv
        exact hv.2
      refine List.pairwise_append.mpr ⟨List.pairwise_iff_forall_sublist.mpr ?_, ih, ?_⟩
      · intro a b hab
        have ha := hround a (hab.subset List.mem_cons_self)
        have hb := hround b (hab.subset (List.mem_cons_of_mem _ List.mem_cons_self))
        omega
      · intro a ha b hb
        have ha := hround a ha
        obtain ⟨-, -, -, hb⟩ := mem_searchOrder_bounds hb
        simp only [isBelow, Option.all_some, decide_eq_true_eq] at hb
        omega

variable {cx : AnonymizeContext}

lemma anonymizeReplaceValue_empty (h : finish - start < value.data.length) :
    anonymizeReplaceValue cx start finish value = [] := by
  rw [anonymizeReplaceValue, taken, if_neg (by omega), List.map_nil]

lemma flatMap_filter_eq (values : List AnonymizeValue) (longest : ℕ) :
    values.flatMap (fun value =>
      if value.propagate = false ∨ value.data.length ≠ longest ∨
          finish - start < value.data.length then []
      else anonymizeReplaceValue cx start finish value) =
    (values.filter fun value => value.propagate && value.data.length == longest).flatMap
      (anonymizeReplaceValue cx start finish) := by
  induction values with
  | nil => rfl
  | cons value values ih =>
    rw [List.flatMap_cons, ih, List.filter_cons]
    by_cases hskip : value.propagate = false ∨ value.data.length ≠ longest
    · have hoff : (value.propagate && value.data.length == longest) = false := by
        rcases hskip with h | h <;> simp [h]
      rw [if_pos (hskip.elim .inl fun h => .inr (.inl h)), hoff, List.nil_append,
        if_neg Bool.false_ne_true]
    · obtain ⟨hp, hl⟩ := not_or.mp hskip
      have hon : (value.propagate && value.data.length == longest) = true := by
        simp only [Bool.and_eq_true, beq_iff_eq]
        exact ⟨by simpa using hp, not_not.mp hl⟩
      rw [hon, if_pos rfl, List.flatMap_cons]
      congr 1
      split_ifs with h
      · have hshort : finish - start < value.data.length :=
          (h.resolve_left hp).resolve_left hl
        rw [anonymizeReplaceValue_empty hshort]
      · rfl

lemma anonymizeReplace_eq : anonymizeReplace cx values start finish minimum fuel previous =
    (searchOrder values minimum fuel previous).flatMap (anonymizeReplaceValue cx start finish) := by
  induction fuel generalizing previous with
  | zero => rfl
  | succ fuel ih =>
    rw [anonymizeReplace, searchOrder]
    split_ifs
    · rfl
    · rw [ih, List.flatMap_append, flatMap_filter_eq]

end OpenDmi

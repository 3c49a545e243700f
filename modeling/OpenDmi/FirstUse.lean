import Mathlib.Data.List.Basic
import Mathlib.Tactic

/-! Names taken down as they come up, each once and in the order of its first use. -/

namespace FirstUse

variable {α : Type} [DecidableEq α] {uses names : List α} {name other : α}

structure FirstUses (uses names : List α) : Prop where
  once : names.Nodup
  all : ∀ name, name ∈ names ↔ name ∈ uses
  order : names.Pairwise fun a b => uses.idxOf a < uses.idxOf b

def remember (names : List α) (name : α) : List α :=
  if name ∈ names then names else names ++ [name]

def number (names : List α) (name : α) : ℕ := names.idxOf name + 1

lemma FirstUses.nil : FirstUses ([] : List α) [] := ⟨List.nodup_nil, by simp, List.Pairwise.nil⟩

lemma remember_grown (names : List α) (name : α) : names <+: remember names name := by
  unfold remember
  split_ifs
  · exact List.prefix_refl names
  · exact List.prefix_append names [name]

lemma mem_remember : other ∈ remember names name ↔ other ∈ names ∨ other = name := by
  unfold remember
  split_ifs with hknown
  · exact ⟨.inl, fun h => h.elim id (· ▸ hknown)⟩
  · rw [List.mem_append, List.mem_singleton]

lemma number_remember (h : other ∈ names) :
    number (remember names name) other = number names other := by
  unfold number remember
  split_ifs
  · rfl
  · rw [List.idxOf_append_of_mem h]

lemma number_le (h : name ∈ names) : number names name ≤ names.length :=
  List.idxOf_lt_length_of_mem h

lemma length_remember (names : List α) (name : α) :
    (remember names name).length = max names.length (number (remember names name) name) := by
  unfold remember
  split_ifs with hknown
  · exact (max_eq_left (number_le hknown)).symm
  · rw [number, List.idxOf_append_of_notMem hknown, List.length_append, List.idxOf_cons_self,
      List.length_singleton]
    omega

lemma getElem?_number (h : name ∈ names) : names[number names name - 1]? = some name := by
  rw [number, Nat.add_sub_cancel, List.getElem?_eq_getElem (List.idxOf_lt_length_of_mem h),
    List.getElem_idxOf]

lemma findIdx?_number {p : Option α → Bool} (hp : ∀ x, p x = true ↔ x = some name)
    (names : List α) :
    (names.map some).findIdx? p = if name ∈ names then some (names.idxOf name) else none := by
  induction names with
  | nil => rfl
  | cons first names ih =>
    rw [List.map_cons, List.findIdx?_cons, ih]
    by_cases hsame : first = name
    · have hfound : p (some first) = true := (hp _).mpr (congrArg some hsame)
      simp [hsame ▸ hfound, hsame]
    · have hno : p (some first) = false := by
        rw [Bool.eq_false_iff, ne_eq, hp, Option.some_inj]
        exact hsame
      by_cases hm : name ∈ names
      · simp [hno, hm, List.idxOf_cons_ne, hsame]
      · simp [hno, hm, Ne.symm hsame]

lemma FirstUses.step (h : FirstUses uses names) (name : α) :
    FirstUses (uses ++ [name]) (remember names name) := by
  have hearly : ∀ other ∈ names, (uses ++ [name]).idxOf other = uses.idxOf other :=
    fun other hm => List.idxOf_append_of_mem ((h.all other).mp hm)
  have horder : names.Pairwise fun a b =>
      (uses ++ [name]).idxOf a < (uses ++ [name]).idxOf b := by
    refine h.order.imp_of_mem fun {a b} ha hb hlt => ?_
    rwa [hearly a ha, hearly b hb]
  have hall : ∀ other, other ∈ remember names name ↔ other ∈ uses ++ [name] := by
    intro other
    rw [mem_remember, h.all, List.mem_append, List.mem_singleton]
  refine ⟨?_, hall, ?_⟩
  · unfold remember
    split_ifs with hknown
    · exact h.once
    · rw [List.nodup_append]
      refine ⟨h.once, List.nodup_singleton name, fun a ha b hb => ?_⟩
      rw [List.mem_singleton] at hb
      rintro rfl
      exact hknown (hb ▸ ha)
  · unfold remember
    split_ifs with hknown
    · exact horder
    · rw [List.pairwise_append]
      refine ⟨horder, List.pairwise_singleton _ _, fun a ha b hb => ?_⟩
      rw [List.mem_singleton] at hb
      have hlate : name ∉ uses := fun hm => hknown ((h.all name).mpr hm)
      rw [hb, hearly a ha, List.idxOf_append_of_notMem hlate]
      exact (List.idxOf_lt_length_of_mem ((h.all a).mp ha)).trans_le (Nat.le_add_right _ _)

end FirstUse

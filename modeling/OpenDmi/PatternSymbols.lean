import Mathlib.Computability.RegularExpressions
import Mathlib.Data.List.Basic

namespace Pattern

open RegularExpression

variable {α : Type}

def oneOf (symbols : List α) : RegularExpression α :=
  symbols.foldr (fun a P => char a + P) 0

def word (w : List α) : RegularExpression α := w.foldr (fun a P => char a * P) 1

def anyOf (words : List (List α)) : RegularExpression α :=
  words.foldr (fun w P => word w + P) 0

def optional (P : RegularExpression α) : RegularExpression α := 1 + P

def many1 (P : RegularExpression α) : RegularExpression α := P * P.star

def symbols : RegularExpression α → List α
  | .zero | .epsilon => []
  | .char a => [a]
  | .plus P Q | .comp P Q => symbols P ++ symbols Q
  | .star P => symbols P

def firsts : RegularExpression α → List α
  | .zero | .epsilon => []
  | .char a => [a]
  | .plus P Q => firsts P ++ firsts Q
  | .comp P Q => if P.matchEpsilon then firsts P ++ firsts Q else firsts P
  | .star P => firsts P

def needs [DecidableEq α] (a : α) : RegularExpression α → Bool
  | .zero => true
  | .epsilon | .star _ => false
  | .char b => b = a
  | .plus P Q => needs a P && needs a Q
  | .comp P Q => needs a P || needs a Q

variable {P Q : RegularExpression α} {w : List α} {a : α}

lemma mem_symbols (h : w ∈ P.matches') (ha : a ∈ w) : a ∈ symbols P := by
  induction P generalizing w with
  | zero => exact absurd h (Set.notMem_empty w)
  | epsilon =>
    obtain rfl : w = [] := h
    exact absurd ha List.not_mem_nil
  | char b =>
    obtain rfl : w = [b] := h
    exact ha
  | plus P Q hP hQ =>
    obtain h | h := h
    · exact List.mem_append_left _ (hP h ha)
    · exact List.mem_append_right _ (hQ h ha)
  | comp P Q hP hQ =>
    obtain ⟨u, hu, v, hv, rfl⟩ := Language.mem_mul.mp h
    obtain ha | ha := List.mem_append.mp ha
    · exact List.mem_append_left _ (hP hu ha)
    · exact List.mem_append_right _ (hQ hv ha)
  | star P hP =>
    obtain ⟨words, rfl, hwords⟩ := Language.mem_kstar.mp h
    obtain ⟨u, hu, ha⟩ := List.mem_flatten.mp ha
    exact hP (hwords u hu) ha

variable [DecidableEq α]

lemma matchEpsilon_iff : P.matchEpsilon = true ↔ [] ∈ P.matches' := by
  rw [← rmatch_iff_matches', rmatch]

lemma head_mem_firsts (h : a :: w ∈ P.matches') : a ∈ firsts P := by
  induction P generalizing w with
  | zero => exact absurd h (Set.notMem_empty _)
  | epsilon => exact absurd h (List.cons_ne_nil a w)
  | char b =>
    obtain h : a :: w = [b] := h
    exact List.mem_singleton.mpr (List.cons.inj h).1
  | plus P Q hP hQ =>
    obtain h | h := h
    · exact List.mem_append_left _ (hP h)
    · exact List.mem_append_right _ (hQ h)
  | comp P Q hP hQ =>
    obtain ⟨u, hu, v, hv, huv⟩ := Language.mem_mul.mp h
    cases u with
    | nil =>
      obtain rfl : v = a :: w := huv
      rw [firsts, if_pos (matchEpsilon_iff.mpr hu)]
      exact List.mem_append_right _ (hQ hv)
    | cons b u =>
      obtain rfl : b = a := (List.cons.inj huv).1
      have hfirst := hP hu
      rw [firsts]
      split_ifs
      · exact List.mem_append_left _ hfirst
      · exact hfirst
  | star P hP =>
    obtain ⟨words, hflat, hwords⟩ := Language.mem_kstar_iff_exists_nonempty.mp h
    cases words with
    | nil => exact absurd hflat (List.cons_ne_nil a w)
    | cons u words =>
      obtain ⟨hu, hne⟩ := hwords u List.mem_cons_self
      cases u with
      | nil => exact absurd rfl hne
      | cons b u =>
        obtain rfl : a = b := (List.cons.inj hflat).1
        exact hP hu

lemma mem_of_needs (h : w ∈ P.matches') (hneeds : needs a P = true) : a ∈ w := by
  induction P generalizing w with
  | zero => exact absurd h (Set.notMem_empty w)
  | epsilon => exact absurd hneeds (by simp [needs])
  | char b =>
    obtain rfl : w = [b] := h
    obtain rfl : b = a := by simpa [needs] using hneeds
    exact List.mem_singleton_self b
  | plus P Q hP hQ =>
    rw [needs, Bool.and_eq_true] at hneeds
    obtain h | h := h
    · exact hP h hneeds.1
    · exact hQ h hneeds.2
  | comp P Q hP hQ =>
    obtain ⟨u, hu, v, hv, rfl⟩ := Language.mem_mul.mp h
    rw [needs, Bool.or_eq_true] at hneeds
    obtain hneeds | hneeds := hneeds
    · exact List.mem_append_left _ (hP hu hneeds)
    · exact List.mem_append_right _ (hQ hv hneeds)
  | star P => exact absurd hneeds (by simp [needs])

lemma mem_deriv : a :: w ∈ P.matches' ↔ w ∈ (P.deriv a).matches' := by
  rw [← rmatch_iff_matches', ← rmatch_iff_matches', rmatch]

omit [DecidableEq α]

lemma mem_oneOf {cs : List α} : w ∈ (oneOf cs).matches' ↔ ∃ c ∈ cs, w = [c] := by
  induction cs with
  | nil => simp [oneOf]
  | cons c cs ih =>
    have hcons : w ∈ (oneOf (c :: cs)).matches' ↔ w = [c] ∨ w ∈ (oneOf cs).matches' := Iff.rfl
    rw [hcons, ih]
    simp

lemma mem_word {u : List α} : w ∈ (word u).matches' ↔ w = u := by
  induction u generalizing w with
  | nil => rfl
  | cons a u ih =>
    have hcons : w ∈ (word (a :: u)).matches' ↔ ∃ s ∈ (char a).matches', ∃ t ∈ (word u).matches',
        s ++ t = w := Language.mem_mul
    rw [hcons]
    constructor
    · rintro ⟨s, rfl, t, ht, rfl⟩
      rw [ih.mp ht, List.singleton_append]
    · rintro rfl
      exact ⟨[a], rfl, u, ih.mpr rfl, rfl⟩

lemma mem_anyOf {words : List (List α)} : w ∈ (anyOf words).matches' ↔ w ∈ words := by
  induction words with
  | nil => simp [anyOf]
  | cons u words ih =>
    have hcons : w ∈ (anyOf (u :: words)).matches' ↔
        w ∈ (word u).matches' ∨ w ∈ (anyOf words).matches' := Iff.rfl
    rw [hcons, mem_word, ih, List.mem_cons]

lemma mem_optional : w ∈ (optional P).matches' ↔ w = [] ∨ w ∈ P.matches' := Iff.rfl

lemma mem_star_oneOf {cs : List α} : w ∈ (oneOf cs).star.matches' ↔ ∀ c ∈ w, c ∈ cs := by
  rw [matches'_star, Language.mem_kstar]
  constructor
  · rintro ⟨words, rfl, hwords⟩ c hc
    obtain ⟨u, hu, hc⟩ := List.mem_flatten.mp hc
    obtain ⟨b, hb, rfl⟩ := mem_oneOf.mp (hwords u hu)
    rwa [List.mem_singleton.mp hc]
  · intro h
    refine ⟨w.map fun c => [c], (List.flatMap_singleton' w).symm, fun u hu => ?_⟩
    obtain ⟨c, hc, rfl⟩ := List.mem_map.mp hu
    exact mem_oneOf.mpr ⟨c, h c hc, rfl⟩

lemma mem_many1_oneOf {cs : List α} :
    w ∈ (many1 (oneOf cs)).matches' ↔ w ≠ [] ∧ ∀ c ∈ w, c ∈ cs := by
  rw [many1, matches'_mul, Language.mem_mul]
  constructor
  · rintro ⟨u, hu, v, hv, rfl⟩
    obtain ⟨c, hc, rfl⟩ := mem_oneOf.mp hu
    have hrest := mem_star_oneOf.mp hv
    exact ⟨by simp, by simpa [hc] using hrest⟩
  · rintro ⟨hne, hall⟩
    obtain ⟨c, u, rfl⟩ := List.exists_cons_of_ne_nil hne
    rw [List.forall_mem_cons] at hall
    exact ⟨[c], mem_oneOf.mpr ⟨c, hall.1, rfl⟩, u, mem_star_oneOf.mpr hall.2, rfl⟩

end Pattern

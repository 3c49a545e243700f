import Mathlib.Data.List.Basic
import Mathlib.Tactic

/-! Programs of calls any of which may be refused, told by scripts of the calls they make. -/

universe u

/-- The calls of a program as long as none is refused, and whether it succeeds after them. -/
structure Script (ε : Type) where
  calls : List ε
  finished : Bool

namespace Script

variable {ε α : Type}

def done (calls : List ε) : Script ε := ⟨calls, true⟩

def stopped : Script ε := ⟨[], false⟩

def andThen (s t : Script ε) : Script ε :=
  if s.finished then ⟨s.calls ++ t.calls, t.finished⟩ else s

def all (f : α → Script ε) (items : List α) : Script ε :=
  items.foldr (fun a s => (f a).andThen s) (done [])

def upTo : List (Option ε) → Script ε
  | [] => done []
  | none :: _ => stopped
  | some e :: rest => (done [e]).andThen (upTo rest)

@[simp] lemma done_andThen (calls : List ε) (s : Script ε) :
    (done calls).andThen s = ⟨calls ++ s.calls, s.finished⟩ := rfl

@[simp] lemma stopped_andThen (s : Script ε) : stopped.andThen s = stopped := rfl

@[simp] lemma done_nil_andThen (s : Script ε) : (done []).andThen s = s := rfl

@[simp] lemma andThen_done_nil (s : Script ε) : s.andThen (done []) = s := by
  obtain ⟨calls, _ | _⟩ := s
  · rfl
  · simp only [andThen, done, List.append_nil, if_true]

lemma andThen_assoc (s t v : Script ε) : (s.andThen t).andThen v = s.andThen (t.andThen v) := by
  obtain ⟨calls, _ | _⟩ := s
  · rfl
  · obtain ⟨calls', _ | _⟩ := t
    · rfl
    · simp only [andThen, if_true, List.append_assoc]

@[simp] lemma all_nil (f : α → Script ε) : all f [] = done [] := rfl

@[simp] lemma all_cons (f : α → Script ε) (a : α) (items : List α) :
    all f (a :: items) = (f a).andThen (all f items) := rfl

@[simp] lemma upTo_nil : upTo ([] : List (Option ε)) = done [] := rfl

lemma upTo_append (events rest : List (Option ε)) :
    upTo (events ++ rest) = (upTo events).andThen (upTo rest) := by
  induction events with
  | nil => rfl
  | cons event events ih =>
    cases event with
    | none => rfl
    | some e => rw [List.cons_append, upTo, upTo, ih, andThen_assoc]

lemma upTo_cons (e : ε) (rest : List (Option ε)) :
    upTo (some e :: rest) = (done [e]).andThen (upTo rest) := rfl

lemma upTo_flatMap (f : α → List (Option ε)) (items : List α) :
    upTo (items.flatMap f) = all (fun a => upTo (f a)) items := by
  induction items with
  | nil => rfl
  | cons a items ih => rw [List.flatMap_cons, upTo_append, ih, all_cons]

lemma upTo_spec (events : List (Option ε)) :
    ((upTo events).finished = true ∧ events = (upTo events).calls.map some) ∨
      ((upTo events).finished = false ∧
        ∃ rest, events = (upTo events).calls.map some ++ none :: rest) := by
  induction events with
  | nil => exact .inl ⟨rfl, rfl⟩
  | cons event events ih =>
    cases event with
    | none => exact .inr ⟨rfl, events, rfl⟩
    | some e =>
      rw [upTo_cons, done_andThen]
      obtain ⟨hfinished, hcalls⟩ | ⟨hfinished, rest, hcalls⟩ := ih
      · exact .inl ⟨hfinished, congrArg (some e :: ·) hcalls⟩
      · exact .inr ⟨hfinished, rest, congrArg (some e :: ·) hcalls⟩

section Play

variable {m : Type → Type u} [Monad m] [LawfulMonad m] {call : ε → m Bool}

@[simp] lemma true_andM (p : m Bool) : (pure true <&&> p) = p := by
  simp [andM, toBool]

@[simp] lemma false_andM (p : m Bool) : (pure false <&&> p) = pure false := by
  simp [andM, toBool]

@[simp] lemma andM_true (p : m Bool) : (p <&&> pure true) = p := by
  have hkeep : (p <&&> pure true) = p >>= pure := bind_congr fun b => by cases b <;> rfl
  rw [hkeep, bind_pure]

lemma andM_assoc (p q r : m Bool) : ((p <&&> q) <&&> r) = (p <&&> (q <&&> r)) := by
  simp only [andM, toBool, bind_assoc]
  congr 1
  funext b
  cases b <;> simp

def play (call : ε → m Bool) (s : Script ε) : m Bool := s.calls.allM call <&&> pure s.finished

omit [LawfulMonad m] in
lemma allM_cons {β : Type} (f : β → m Bool) (a : β) (items : List β) :
    (a :: items).allM f = (f a <&&> items.allM f) := by
  simp only [List.allM, andM, toBool]
  congr 1
  funext b
  cases b <;> rfl

lemma allM_append {β : Type} (f : β → m Bool) (items other : List β) :
    (items ++ other).allM f = (items.allM f <&&> other.allM f) := by
  induction items with
  | nil => rw [List.nil_append, List.allM, true_andM]
  | cons a items ih => rw [List.cons_append, allM_cons, allM_cons, ih, andM_assoc]

@[simp] lemma play_done_nil : (done []).play call = pure true := true_andM _

@[simp] lemma play_done (e : ε) : (done [e]).play call = call e := by
  rw [play, done, allM_cons, List.allM, andM_true, andM_true]

@[simp] lemma play_stopped : (stopped : Script ε).play call = pure false := true_andM _

lemma play_andThen (s t : Script ε) :
    (s.andThen t).play call = (s.play call <&&> t.play call) := by
  obtain ⟨calls, _ | _⟩ := s
  · simp only [andThen, play, andM_assoc, false_andM, Bool.false_eq_true, if_false]
  · simp only [andThen, play, allM_append, andM_assoc, true_andM, if_true]

lemma play_all (f : α → Script ε) (items : List α) :
    (all f items).play call = items.allM fun a => (f a).play call := by
  induction items with
  | nil => exact play_done_nil
  | cons a items ih => rw [all_cons, play_andThen, allM_cons, ih]

lemma play_upTo_cons (e : ε) (rest : List (Option ε)) :
    (upTo (some e :: rest)).play call = (call e <&&> (upTo rest).play call) := by
  rw [upTo_cons, play_andThen, play_done]

lemma play_upTo_append (events rest : List (Option ε)) :
    (upTo (events ++ rest)).play call = ((upTo events).play call <&&> (upTo rest).play call) := by
  rw [upTo_append, play_andThen]

lemma play_upTo_flatMap (f : α → List (Option ε)) (items : List α) :
    (upTo (items.flatMap f)).play call = items.allM fun a => (upTo (f a)).play call := by
  rw [upTo_flatMap, play_all]

lemma play_upTo_map {ζ : Type} {call : ζ → m Bool} (f : ε → ζ) (events : List (Option ε)) :
    (upTo (events.map (Option.map f))).play call = (upTo events).play fun e => call (f e) := by
  induction events with
  | nil => rw [List.map_nil, upTo_nil, upTo_nil, play_done_nil, play_done_nil]
  | cons event events ih =>
    cases event with
    | none => exact play_stopped.trans play_stopped.symm
    | some e => rw [List.map_cons, Option.map_some, play_upTo_cons, play_upTo_cons, ih]

end Play

lemma andM_run {σ : Type} (p q : StateM σ Bool) (s : σ) :
    (p <&&> q).run s = if (p.run s).1 = true then q.run (p.run s).2 else (false, (p.run s).2) := by
  have hand : (p <&&> q) = p >>= fun b => if b = true then q else pure false := by
    simp only [andM, toBool]
    congr 1
    funext b
    cases b <;> rfl
  rw [hand]
  change (if (p.run s).1 = true then q else pure false).run (p.run s).2 = _
  split_ifs <;> rfl

end Script

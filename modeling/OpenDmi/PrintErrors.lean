import OpenDmi.ErrorQueue
import OpenDmi.Export

namespace OpenDmi

open RingQueue Bytes

section Raising

def raiseAll (errors : List ErrorArguments) (context : ErrorContext) : Option ErrorContext :=
  errors.foldlM (fun context args => (errorVraise args context).map Prod.snd) context

def pushAll (deque : List (DmiError (List Byte))) (errors : List ErrorArguments) :
    List (DmiError (List Byte)) :=
  errors.foldl (fun deque args => push errorMaxDepth deque args.error) deque

variable {context next : ErrorContext} {deque : List (DmiError (List Byte))} {ok : Bool}

lemma errorSlotClear_queue {slot : ℕ} (h : errorSlotClear slot context = some next) :
    next.errorQueue.first = context.errorQueue.first ∧
      next.errorQueue.count = context.errorQueue.count := by
  rw [errorSlotClear, Option.map_eq_some_iff] at h
  obtain ⟨messages, -, rfl⟩ := h
  exact ⟨rfl, rfl⟩

lemma errorVraise_queue {args : ErrorArguments} (h : errorVraise args context = some (ok, next)) :
    next.errorQueue.first = (errorSlotTake context.errorQueue).2.first ∧
      next.errorQueue.count = (errorSlotTake context.errorQueue).2.count := by
  rw [errorVraise, Option.map_eq_some_iff] at h
  obtain ⟨⟨slot, taken⟩, hget, heq⟩ := h
  rw [errorSlotGet, Option.map_eq_some_iff] at hget
  obtain ⟨cleared, hclear, htaken⟩ := hget
  obtain rfl : cleared = taken := (Prod.mk.inj htaken).2
  obtain rfl := (Prod.mk.inj heq).2
  exact errorSlotClear_queue hclear

def queueAfter (first count raised : ℕ) : ℕ × ℕ :=
  ((first + (count + raised - errorMaxDepth)) % errorMaxDepth, min (count + raised) errorMaxDepth)

lemma raiseAll_spec (h : Represents context deque) (errors : List ErrorArguments) :
    ∃ next, raiseAll errors context = some next ∧ Represents next (pushAll deque errors) ∧
      (next.errorQueue.first, next.errorQueue.count) =
        queueAfter context.errorQueue.first context.errorQueue.count errors.length := by
  induction errors generalizing context deque with
  | nil =>
    refine ⟨context, rfl, h, ?_⟩
    have hcount := h.count
    rw [queueAfter, List.length_nil, Nat.add_zero, Nat.sub_eq_zero_of_le hcount, Nat.add_zero,
      Nat.mod_eq_of_lt h.first, Nat.min_eq_left hcount]
  | cons args errors ih =>
    obtain ⟨middle, hraise, hmiddle⟩ := errorVraise_spec h args
    obtain ⟨next, hnext, hlast, hqueue⟩ := ih hmiddle
    obtain ⟨hfirst, hcount⟩ := errorVraise_queue hraise
    refine ⟨next, ?_, hlast, ?_⟩
    · rw [raiseAll, List.foldlM_cons, hraise]
      exact hnext
    · have hbound := h.count
      have hstart := h.first
      rw [hqueue, hfirst, hcount, errorSlotTake, queueAfter, queueAfter, List.length_cons]
      have hdepth : errorMaxDepth = 64 := rfl
      split_ifs with hfull <;> simp only [hdepth, Prod.mk.injEq] at * <;> omega

lemma queueAfter_same {first count raised : ℕ} (hfirst : first < errorMaxDepth)
    (hcount : count ≤ errorMaxDepth) :
    queueAfter first count raised = (first, count) ↔
      raised = 0 ∨ count = errorMaxDepth ∧ errorMaxDepth ∣ raised := by
  rw [queueAfter, Prod.mk.injEq]
  have hdepth : errorMaxDepth = 64 := rfl
  simp only [hdepth] at hfirst hcount ⊢
  omega

end Raising

section PrintAll

variable {γ : Type}

/-- Handlers work on a state of their own and add to the errors which are raised. -/
abbrev Handlers (γ : Type) := StateM (List ErrorArguments × γ)

/-- What printing needs besides a format: the opening of a session and its closing, the error of
flushing the output, and whether the pager has been left. Errors come with the place which raises
them. -/
structure PrintRun (γ : Type) where
  openSession : Handlers γ Bool
  closeSession : Handlers γ Unit
  flush : γ → ℕ
  hasQuit : γ → ℕ → Bool
  strerror : ℕ → List Byte
  raise : ErrorCode → List Byte → ErrorArguments

def printHandlers (run : PrintRun γ) (format : Format (Handlers γ)) (dump : Bool) (filter : Filter)
    (registry : Registry) (record : ℕ → EntityRecord) (state : γ) :
    Option Bool × List ErrorArguments × γ :=
  let (initialized, opened) := run.openSession ([], state)
  if initialized then
    let (success, printed) := printBody format dump filter registry record opened
    let (_, closed) := run.closeSession printed
    (some success, closed)
  else (none, opened)

def hasError (before after : ErrorQueue) : Bool :=
  after.first ≠ before.first || after.count ≠ before.count

def printTail (run : PrintRun γ) (success noticed : Bool) (state : γ) (after : ErrorContext) :
    Option (Bool × ErrorContext) :=
  let error := run.flush state
  if error ≠ 0 ∧ run.hasQuit state error then some (true, after)
  else if error ≠ 0 ∧ (success ∨ noticed = false) then
    (errorVraise (run.raise .fileWriteFailed (run.strerror error)) after).map fun (_, after) =>
      (false, after)
  else if success = false ∧ noticed = false then
    (errorVraise (run.raise .internal (stringBytes "Unable to format output")) after).map
      fun (_, after) => (success, after)
  else some (success, after)

def printAll (run : PrintRun γ) (format : Format (Handlers γ)) (dump : Bool) (filter : Filter)
    (registry : Registry) (record : ℕ → EntityRecord) (context : ErrorContext) (state : γ) :
    Option (Bool × ErrorContext) :=
  match printHandlers run format dump filter registry record state with
  | (none, raised, _) => (raiseAll raised context).map fun after => (false, after)
  | (some success, raised, state) => (raiseAll raised context).bind fun after =>
    printTail run success (hasError context.errorQueue after.errorQueue) state after

/-- The error which printing adds to those of the handlers, if it takes them to have raised none:
they have not, or they have raised as many as the full queue has places once or more often. -/
def addedError (run : PrintRun γ) (length : ℕ) (success : Bool) (raised : List ErrorArguments)
    (state : γ) : List ErrorArguments :=
  let error := run.flush state
  let unnoticed := raised = [] ∨ length = errorMaxDepth ∧ errorMaxDepth ∣ raised.length
  if error ≠ 0 ∧ run.hasQuit state error then []
  else if error ≠ 0 then
    if success ∨ unnoticed then [run.raise .fileWriteFailed (run.strerror error)] else []
  else if success = false ∧ unnoticed then
    [run.raise .internal (stringBytes "Unable to format output")]
  else []

variable {run : PrintRun γ} {context : ErrorContext} {deque : List (DmiError (List Byte))}

lemma hasError_iff {before after : ErrorContext} (h : Represents before deque) {raised : ℕ}
    (hqueue : (after.errorQueue.first, after.errorQueue.count) =
      queueAfter before.errorQueue.first before.errorQueue.count raised) :
    hasError before.errorQueue after.errorQueue = false ↔
      raised = 0 ∨ deque.length = errorMaxDepth ∧ errorMaxDepth ∣ raised := by
  have hsame : hasError before.errorQueue after.errorQueue = false ↔
      (after.errorQueue.first, after.errorQueue.count) =
        (before.errorQueue.first, before.errorQueue.count) := by
    simp [hasError, Prod.mk.injEq]
  rw [hsame, hqueue, queueAfter_same h.first h.count, h.length]

lemma pushAll_append (errors rest : List ErrorArguments) :
    pushAll deque (errors ++ rest) = pushAll (pushAll deque errors) rest := by
  rw [pushAll, List.foldl_append]
  rfl

lemma printTail_spec {success noticed : Bool} {raised : List ErrorArguments} {state : γ}
    {length : ℕ} (h : Represents context (pushAll deque raised))
    (hnoticed : noticed = false ↔
      raised = [] ∨ length = errorMaxDepth ∧ errorMaxDepth ∣ raised.length) :
    ∃ after result, printTail run success noticed state context = some (result, after) ∧
      (result = true ↔ run.flush state ≠ 0 ∧ run.hasQuit state (run.flush state) = true ∨
        success = true ∧ run.flush state = 0) ∧
      Represents after (pushAll deque (raised ++ addedError run length success raised state)) ∧
      (result = false → raised ++ addedError run length success raised state ≠ []) := by
  -- an error is noticed only where there is one
  have hraised : noticed = true → raised ≠ [] := by
    rintro rfl hnil
    exact absurd (hnoticed.mpr (.inl hnil)) (by decide)
  rw [printTail, addedError]
  simp only [← hnoticed]
  by_cases hquit : run.flush state ≠ 0 ∧ run.hasQuit state (run.flush state) = true
  · rw [if_pos hquit, if_pos hquit, List.append_nil]
    exact ⟨context, true, rfl, iff_of_true rfl (.inl hquit), h, fun hf => by cases hf⟩
  rw [if_neg hquit, if_neg hquit]
  by_cases herror : run.flush state ≠ 0
  · have hfalse : ¬(success = true ∧ run.flush state = 0) := fun hs => herror hs.2
    by_cases hwrite : success = true ∨ noticed = false
    · obtain ⟨after, hraise, hafter⟩ :=
        errorVraise_spec h (run.raise .fileWriteFailed (run.strerror (run.flush state)))
      rw [if_pos ⟨herror, hwrite⟩, if_pos herror, if_pos hwrite, hraise, pushAll_append]
      exact ⟨after, false, rfl, iff_of_false (by decide) (not_or.mpr ⟨hquit, hfalse⟩), hafter,
        fun _ => List.append_ne_nil_of_right_ne_nil _ (List.cons_ne_nil _ _)⟩
    · obtain ⟨hsuccess, hseen⟩ := not_or.mp hwrite
      rw [if_neg fun hw => hwrite hw.2, if_pos herror, if_neg hwrite, if_neg fun hn => hseen hn.2,
        List.append_nil]
      exact ⟨context, success, rfl, iff_of_false hsuccess (not_or.mpr ⟨hquit, hfalse⟩), h,
        fun _ => hraised (by simpa using hseen)⟩
  · rw [if_neg fun hw => herror hw.1, if_neg herror]
    have hzero : run.flush state = 0 := not_not.mp herror
    have hiff : success = true ↔ run.flush state ≠ 0 ∧
        run.hasQuit state (run.flush state) = true ∨ success = true ∧ run.flush state = 0 :=
      ⟨fun hs => .inr ⟨hs, hzero⟩, fun hor => (hor.resolve_left hquit).1⟩
    by_cases hnone : success = false ∧ noticed = false
    · obtain ⟨after, hraise, hafter⟩ :=
        errorVraise_spec h (run.raise .internal (stringBytes "Unable to format output"))
      rw [if_pos hnone, if_pos hnone, hraise, pushAll_append]
      exact ⟨after, success, rfl, hiff, hafter,
        fun _ => List.append_ne_nil_of_right_ne_nil _ (List.cons_ne_nil _ _)⟩
    · rw [if_neg hnone, if_neg hnone, List.append_nil]
      exact ⟨context, success, rfl, hiff, h, fun hf =>
        hraised (by simpa using fun hn => hnone ⟨hf, hn⟩)⟩

end PrintAll

end OpenDmi

import OpenDmi.RingQueue
import OpenDmi.Bytes
import Mathlib.Data.List.AList
import Mathlib.Data.List.GetD

/-! The errors of a context, which are kept in a ring of slots with messages of their own. -/

namespace OpenDmi

open Bytes RingQueue

inductive ErrorCode
  | none | internal | system | outOfMemory | argumentNull | argumentInvalid | stateInvalid
  | fileOpenFailed | fileStatFailed | fileReadFailed | fileWriteFailed | fileDupFailed
  | fileMapFailed | entryNotFound | entryAnchorUnknown | entryLengthInvalid | entryChecksumInvalid
  | entityLengthInvalid | entityTypeInvalid | entityTruncated | entityDecodeFailed
  | entityRegisterFailed | entityLinkFailed | entityNotFound | stringNotFound | entityDuplicate
  | handleDuplicate | firmwareInfoNotFound | moduleConflict | serviceUnavailable
  | backendOpenFailed | contextOpenFailed | dumpInvalid | overlayInvalid
  deriving DecidableEq

/-- An error, with its message as an address or as a text. -/
structure DmiError (μ : Type) where
  file : Option (List Byte)
  function : Option (List Byte)
  line : ℕ
  reason : ErrorCode
  message : Option μ
  deriving DecidableEq

def DmiError.cleared {μ : Type} : DmiError μ := ⟨none, none, 0, .none, none⟩

def errorMaxDepth : ℕ := 64

structure ErrorQueue where
  errors : List (DmiError ℕ)
  first : ℕ
  count : ℕ

/-- The texts in the memory which has been allocated for messages, by their addresses. -/
abbrev Messages := AList fun _ : ℕ => List Byte

structure ErrorContext where
  errorQueue : ErrorQueue
  messages : Messages

structure Allocator where
  place : Messages → ℕ
  fresh : ∀ messages : Messages, place messages ∉ messages

lemma le_foldr_max (keys : List ℕ) : ∀ key ∈ keys, key ≤ keys.foldr max 0 := by
  induction keys with
  | nil => simp
  | cons key keys ih =>
    rw [List.foldr_cons]
    exact List.forall_mem_cons.mpr ⟨le_max_left _ _, fun k hk => (ih k hk).trans (le_max_right _ _)⟩

def Allocator.above : Allocator where
  place messages := messages.keys.foldr max 0 + 1
  fresh _ hmem :=
    (Nat.lt_succ_self _).not_ge (le_foldr_max _ _ (AList.mem_keys.mp hmem))

/-- What an error is raised with. The message is the text it is formatted to, for which there is
memory only with an allocator. -/
structure ErrorArguments where
  file : Option (List Byte)
  function : Option (List Byte)
  line : ℕ
  reason : ErrorCode
  message : Option (List Byte)
  allocator : Option Allocator

def contextErrors : ErrorContext :=
  ⟨⟨List.replicate errorMaxDepth .cleared, 0, 0⟩, ∅⟩

def dmiFree (messages : Messages) : Option ℕ → Option Messages
  | none => some messages
  | some address => if address ∈ messages then some (messages.erase address) else none

def vasprintf (messages : Messages) (text : List Byte) : Option Allocator → Option ℕ × Messages
  | none => (none, messages)
  | some allocator =>
    (some (allocator.place messages), messages.insert (allocator.place messages) text)

def errorQueueLastSlot (queue : ErrorQueue) : ℕ := (queue.first + queue.count - 1) % errorMaxDepth

def errorSlot (queue : ErrorQueue) (slot : ℕ) : DmiError ℕ := queue.errors.getD slot .cleared

def errorSlotSet (slot : ℕ) (error : DmiError ℕ) (queue : ErrorQueue) : ErrorQueue :=
  { queue with errors := queue.errors.set slot error }

def errorSlotClear (slot : ℕ) (context : ErrorContext) : Option ErrorContext :=
  (dmiFree context.messages (errorSlot context.errorQueue slot).message).map fun messages =>
    ⟨errorSlotSet slot .cleared context.errorQueue, messages⟩

def errorSlotTake (queue : ErrorQueue) : ℕ × ErrorQueue :=
  if queue.count = errorMaxDepth then
    (queue.first, { queue with first := (queue.first + 1) % errorMaxDepth })
  else
    let queue := { queue with count := queue.count + 1 }
    (errorQueueLastSlot queue, queue)

def errorSlotGet (context : ErrorContext) : Option (ℕ × ErrorContext) :=
  let taken := errorSlotTake context.errorQueue
  (errorSlotClear taken.1 { context with errorQueue := taken.2 }).map fun context =>
    (taken.1, context)

def errorFormat (args : ErrorArguments) (messages : Messages) : Option ℕ × Messages :=
  match args.message with
  | none => (none, messages)
  | some message => vasprintf messages message args.allocator

/-- The message is formatted before a slot is taken for it. -/
def errorVraise (args : ErrorArguments) (context : ErrorContext) : Option (Bool × ErrorContext) :=
  let text := errorFormat args context.messages
  (errorSlotGet { context with messages := text.2 }).map fun (slot, context) =>
    (args.message.isNone || text.1.isSome, { context with
      errorQueue := errorSlotSet slot ⟨args.file, args.function, args.line, args.reason, text.1⟩
        context.errorQueue })

def errorPeekFirst (context : ErrorContext) : Option ℕ :=
  if context.errorQueue.count = 0 then none else some context.errorQueue.first

def errorPeekLast (context : ErrorContext) : Option ℕ :=
  if context.errorQueue.count = 0 then none else some (errorQueueLastSlot context.errorQueue)

def errorGetFirst (context : ErrorContext) : Option ℕ × ErrorContext :=
  let queue := context.errorQueue
  if queue.count = 0 then (none, context)
  else (some queue.first, { context with
    errorQueue := { queue with
      first := (queue.first + 1) % errorMaxDepth
      count := queue.count - 1 } })

def errorGetLast (context : ErrorContext) : Option ℕ × ErrorContext :=
  let queue := context.errorQueue
  if queue.count = 0 then (none, context)
  else (some (errorQueueLastSlot queue), { context with
    errorQueue := { queue with count := queue.count - 1 } })

def errorClear (context : ErrorContext) : Option ErrorContext :=
  ((List.range errorMaxDepth).foldlM (fun context slot => errorSlotClear slot context) context).map
    fun context => { context with errorQueue := { context.errorQueue with first := 0, count := 0 } }

/-- The error in a slot with the text of its message, unless the message has been freed. -/
def errorAt (context : ErrorContext) (slot : ℕ) : Option (DmiError (List Byte)) :=
  let error := errorSlot context.errorQueue slot
  match error.message with
  | none => some ⟨error.file, error.function, error.line, error.reason, none⟩
  | some address => (context.messages.lookup address).map fun text =>
      ⟨error.file, error.function, error.line, error.reason, some text⟩

inductive ErrorCall
  | raise (args : ErrorArguments)
  | peekFirst
  | peekLast
  | getFirst
  | getLast
  | clear

inductive ErrorResult
  | raised (ok : Bool)
  | error (error : Option (DmiError (List Byte)))
  | cleared
  deriving DecidableEq

def errorRead (slot : Option ℕ) (context : ErrorContext) : Option (ErrorResult × ErrorContext) :=
  match slot with
  | none => some (.error none, context)
  | some slot => (errorAt context slot).map fun error => (.error (some error), context)

def errorCall (context : ErrorContext) : ErrorCall → Option (ErrorResult × ErrorContext)
  | .raise args => (errorVraise args context).map fun (ok, context) => (.raised ok, context)
  | .peekFirst => errorRead (errorPeekFirst context) context
  | .peekLast => errorRead (errorPeekLast context) context
  | .getFirst => errorRead (errorGetFirst context).1 (errorGetFirst context).2
  | .getLast => errorRead (errorGetLast context).1 (errorGetLast context).2
  | .clear => (errorClear context).map fun context => (.cleared, context)

/-- What the calls of a history return. It ends early where a freed message is read or freed. -/
def errorCalls : List ErrorCall → ErrorContext → Option (List ErrorResult × ErrorContext)
  | [], context => some ([], context)
  | call :: calls, context => (errorCall context call).bind fun (result, context) =>
    (errorCalls calls context).map fun (results, context) => (result :: results, context)

section Deque

def ErrorArguments.error (args : ErrorArguments) : DmiError (List Byte) :=
  ⟨args.file, args.function, args.line, args.reason,
    args.message.bind fun message => args.allocator.map fun _ => message⟩

def ErrorArguments.ok (args : ErrorArguments) : Bool :=
  args.message.isNone || args.allocator.isSome

/-- A double-ended queue which a new error pushes the oldest one out of when it is full. -/
def dequeCall (deque : List (DmiError (List Byte))) :
    ErrorCall → ErrorResult × List (DmiError (List Byte))
  | .raise args => (.raised args.ok, push errorMaxDepth deque args.error)
  | .peekFirst => (.error deque.head?, deque)
  | .peekLast => (.error deque.getLast?, deque)
  | .getFirst => (.error deque.head?, deque.tail)
  | .getLast => (.error deque.getLast?, deque.dropLast)
  | .clear => (.cleared, [])

def dequeCalls : List ErrorCall → List (DmiError (List Byte)) →
    List ErrorResult × List (DmiError (List Byte))
  | [], deque => ([], deque)
  | call :: calls, deque =>
    let (results, last) := dequeCalls calls (dequeCall deque call).2
    ((dequeCall deque call).1 :: results, last)

end Deque

variable {context next : ErrorContext} {queue : ErrorQueue} {slot i : ℕ} {error : DmiError ℕ}
  {deque : List (DmiError (List Byte))}

structure SlotsSound (context : ErrorContext) : Prop where
  slots : context.errorQueue.errors.length = errorMaxDepth
  live : ∀ slot address, (errorSlot context.errorQueue slot).message = some address →
    address ∈ context.messages
  apart : ∀ slot slot' address, (errorSlot context.errorQueue slot).message = some address →
    (errorSlot context.errorQueue slot').message = some address → slot = slot'

structure Represents (context : ErrorContext) (deque : List (DmiError (List Byte))) : Prop where
  sound : SlotsSound context
  first : context.errorQueue.first < errorMaxDepth
  count : context.errorQueue.count ≤ errorMaxDepth
  errors : elements errorMaxDepth (errorAt context) context.errorQueue.first
    context.errorQueue.count = deque.map some

lemma errorSlot_set_self (h : slot < queue.errors.length) :
    errorSlot (errorSlotSet slot error queue) slot = error := by
  rw [errorSlot, errorSlotSet, List.getD_eq_getElem?_getD, List.getElem?_set_self h]
  rfl

lemma errorSlot_set_ne (h : i ≠ slot) :
    errorSlot (errorSlotSet slot error queue) i = errorSlot queue i := by
  rw [errorSlot, errorSlotSet, List.getD_eq_getElem?_getD, List.getElem?_set_ne h.symm,
    ← List.getD_eq_getElem?_getD]
  rfl

lemma errorAt_congr (hslot : errorSlot next.errorQueue i = errorSlot context.errorQueue i)
    (hmessage : ∀ address, (errorSlot context.errorQueue i).message = some address →
      next.messages.lookup address = context.messages.lookup address) :
    errorAt next i = errorAt context i := by
  rw [errorAt, errorAt, hslot]
  cases hm : (errorSlot context.errorQueue i).message with
  | none => rfl
  | some address => simp only [hmessage address hm]

lemma errorSlotClear_spec (h : SlotsSound context) (hslot : slot < errorMaxDepth) :
    ∃ next, errorSlotClear slot context = some next ∧ SlotsSound next ∧
      next.errorQueue = errorSlotSet slot .cleared context.errorQueue ∧
      ∀ address, (errorSlot context.errorQueue slot).message ≠ some address →
        next.messages.lookup address = context.messages.lookup address := by
  have hlength : (errorSlotSet slot .cleared context.errorQueue).errors.length =
      errorMaxDepth := by
    rw [errorSlotSet, List.length_set, h.slots]
  have hself : errorSlot (errorSlotSet slot .cleared context.errorQueue) slot = .cleared :=
    errorSlot_set_self (by rw [h.slots]; exact hslot)
  have hother : ∀ i address,
      (errorSlot (errorSlotSet slot .cleared context.errorQueue) i).message = some address →
      i ≠ slot ∧ (errorSlot context.errorQueue i).message = some address := by
    intro i address hmessage
    by_cases hi : i = slot
    · rw [hi, hself] at hmessage
      cases hmessage
    · rw [errorSlot_set_ne hi] at hmessage
      exact ⟨hi, hmessage⟩
  have hapart : ∀ i j address,
      (errorSlot (errorSlotSet slot .cleared context.errorQueue) i).message = some address →
      (errorSlot (errorSlotSet slot .cleared context.errorQueue) j).message = some address →
      i = j := fun i j address hi hj =>
    h.apart i j address (hother i address hi).2 (hother j address hj).2
  rw [errorSlotClear]
  cases hm : (errorSlot context.errorQueue slot).message with
  | none =>
    refine ⟨_, rfl, ⟨hlength, fun i address hi => ?_, hapart⟩, rfl, fun _ _ => rfl⟩
    exact h.live i address (hother i address hi).2
  | some freed =>
    rw [dmiFree, if_pos (h.live slot freed hm)]
    refine ⟨_, rfl, ⟨hlength, fun i address hi => ?_, hapart⟩, rfl, fun address hne => ?_⟩
    · obtain ⟨hne, hmessage⟩ := hother i address hi
      refine AList.mem_erase.mpr ⟨?_, h.live i address hmessage⟩
      rintro rfl
      exact hne (h.apart i slot address hmessage hm)
    · exact AList.lookup_erase_ne fun heq => hne (congrArg some heq.symm)

variable {args : ErrorArguments} {messages : Messages} {address : ℕ}

lemma errorFormat_kept (h : address ∈ messages) :
    (errorFormat args messages).2.lookup address = messages.lookup address := by
  rw [errorFormat]
  cases args.message with
  | none => rfl
  | some message =>
    cases args.allocator with
    | none => rfl
    | some allocator =>
      exact AList.lookup_insert_ne fun heq => allocator.fresh messages (heq ▸ h)

lemma errorFormat_made (h : (errorFormat args messages).1 = some address) :
    address ∉ messages ∧ ∃ text, args.error.message = some text ∧
      (errorFormat args messages).2.lookup address = some text := by
  rw [errorFormat] at h ⊢
  rw [ErrorArguments.error]
  cases hm : args.message with
  | none =>
    rw [hm] at h
    cases h
  | some message =>
    rw [hm] at h
    cases ha : args.allocator with
    | none =>
      rw [ha] at h
      cases h
    | some allocator =>
      rw [ha] at h
      cases h
      exact ⟨allocator.fresh messages, message, rfl, AList.lookup_insert messages⟩

lemma errorFormat_none (h : (errorFormat args messages).1 = none) : args.error.message = none := by
  rw [errorFormat] at h
  rw [ErrorArguments.error]
  cases hm : args.message with
  | none => rfl
  | some message =>
    rw [hm] at h
    cases ha : args.allocator with
    | none => rfl
    | some allocator =>
      rw [ha] at h
      cases h

lemma errorFormat_ok (args : ErrorArguments) (messages : Messages) :
    (args.message.isNone || (errorFormat args messages).1.isSome) = args.ok := by
  rw [errorFormat, ErrorArguments.ok]
  cases args.message with
  | none => rfl
  | some message => cases args.allocator <;> rfl

lemma errorStore_spec (h : SlotsSound context) (args : ErrorArguments)
    (hqueue : queue.errors = context.errorQueue.errors) (hslot : slot < errorMaxDepth) :
    ∃ cleared next, errorSlotClear slot ⟨queue, (errorFormat args context.messages).2⟩ =
        some cleared ∧
      next = { cleared with
        errorQueue := errorSlotSet slot ⟨args.file, args.function, args.line, args.reason,
          (errorFormat args context.messages).1⟩ cleared.errorQueue } ∧
      SlotsSound next ∧ next.errorQueue.first = queue.first ∧
      next.errorQueue.count = queue.count ∧ errorAt next slot = some args.error ∧
      ∀ i ≠ slot, errorAt next i = errorAt context i := by
  have hsame : ∀ i, errorSlot queue i = errorSlot context.errorQueue i := fun i => by
    rw [errorSlot, errorSlot, hqueue]
  have hsound : SlotsSound ⟨queue, (errorFormat args context.messages).2⟩ := by
    refine ⟨by rw [hqueue, h.slots], fun i a hi => ?_, fun i j a hi hj => ?_⟩
    · rw [hsame] at hi
      have hlive := h.live i a hi
      rw [← AList.lookup_isSome, errorFormat_kept hlive, AList.lookup_isSome]
      exact hlive
    · rw [hsame] at hi hj
      exact h.apart i j a hi hj
  obtain ⟨cleared, hclear, hcleared, hset, hkept⟩ := errorSlotClear_spec hsound hslot
  -- the new message is at none of the addresses the slots refer to
  have hfresh : ∀ i a, (errorFormat args context.messages).1 = some a →
      (errorSlot queue i).message ≠ some a := fun i a ha hi =>
    (errorFormat_made ha).1 (h.live i a (by rw [← hsame, hi]))
  generalize herror : (⟨args.file, args.function, args.line, args.reason,
    (errorFormat args context.messages).1⟩ : DmiError ℕ) = error
  have hmessage : error.message = (errorFormat args context.messages).1 := by rw [← herror]
  have hself : errorSlot (errorSlotSet slot error cleared.errorQueue) slot = error :=
    errorSlot_set_self (by rw [hcleared.slots]; exact hslot)
  have hother : ∀ i ≠ slot,
      errorSlot (errorSlotSet slot error cleared.errorQueue) i = errorSlot queue i := by
    intro i hi
    rw [errorSlot_set_ne hi, hset, errorSlot_set_ne hi]
  refine ⟨cleared, _, hclear, rfl, ⟨?_, fun i a hi => ?_, fun i j a hi hj => ?_⟩, ?_, ?_, ?_,
    fun i hi => errorAt_congr ((hother i hi).trans (hsame i)) fun a ha => ?_⟩
  · rw [errorSlotSet, List.length_set, hcleared.slots]
  · by_cases hi' : i = slot
    · rw [hi', hself, hmessage] at hi
      obtain ⟨-, text, -, hlookup⟩ := errorFormat_made hi
      rw [← AList.lookup_isSome, hkept a (hfresh slot a hi), hlookup]
      rfl
    · refine hcleared.live i a ?_
      rw [hset, errorSlot_set_ne hi', ← hother i hi']
      exact hi
  · by_cases hi' : i = slot <;> by_cases hj' : j = slot
    · rw [hi', hj']
    · rw [hi', hself, hmessage] at hi
      rw [hother j hj'] at hj
      exact absurd hj (hfresh j a hi)
    · rw [hj', hself, hmessage] at hj
      rw [hother i hi'] at hi
      exact absurd hi (hfresh i a hj)
    · rw [hother i hi'] at hi
      rw [hother j hj'] at hj
      exact hsound.apart i j a hi hj
  · rw [errorSlotSet, hset]
    rfl
  · rw [errorSlotSet, hset]
    rfl
  · have heta : args.error =
        ⟨args.file, args.function, args.line, args.reason, args.error.message⟩ := rfl
    rw [errorAt]
    simp only [hself, hmessage]
    cases hm : (errorFormat args context.messages).1 with
    | none => rw [heta, errorFormat_none hm, ← herror]
    | some a =>
      obtain ⟨-, text, htext, hlookup⟩ := errorFormat_made hm
      simp only [hkept a (hfresh slot a hm), hlookup, Option.map_some]
      rw [heta, htext, ← herror]
  · have hne : (errorSlot queue slot).message ≠ some a := fun hslot' =>
      hi (h.apart i slot a ha (by rw [← hsame]; exact hslot'))
    exact (hkept a hne).trans (errorFormat_kept (h.live i a ha))

lemma Represents.length (h : Represents context deque) :
    deque.length = context.errorQueue.count := by
  have hlength := congrArg List.length h.errors
  rw [elements_length, List.length_map] at hlength
  exact hlength.symm

lemma errorVraise_spec (h : Represents context deque) (args : ErrorArguments) :
    ∃ next, errorVraise args context = some (args.ok, next) ∧
      Represents next (push errorMaxDepth deque args.error) := by
  rw [errorVraise, errorSlotGet, errorSlotTake, push, h.length]
  simp only [errorFormat_ok]
  by_cases hfull : context.errorQueue.count = errorMaxDepth
  · obtain ⟨cleared, next, hclear, rfl, hsound, hfirst, hcount, hnew, hkept⟩ :=
      @errorStore_spec context
        { context.errorQueue with first := (context.errorQueue.first + 1) % errorMaxDepth }
        context.errorQueue.first h.sound args rfl h.first
    rw [if_pos hfull, if_pos hfull]
    simp only [hclear, Option.map_some]
    refine ⟨_, rfl, hsound, ?_, ?_, ?_⟩
    · rw [hfirst]
      exact Nat.mod_lt _ (by decide)
    · rw [hcount]
      exact h.count
    · rw [hfirst, hcount]
      simp only [hfull]
      have hslot := Nat.mod_eq_of_lt h.first
      rw [elements_evict (by decide) fun slot hne => hkept slot (by rwa [hslot] at hne), hslot,
        hnew, List.map_append, List.map_tail, ← h.errors, hfull]
      rfl
  · obtain ⟨cleared, next, hclear, rfl, hsound, hfirst, hcount, hnew, hkept⟩ :=
      @errorStore_spec context
        { context.errorQueue with count := context.errorQueue.count + 1 }
        ((context.errorQueue.first + context.errorQueue.count) % errorMaxDepth) h.sound args rfl
        (Nat.mod_lt _ (by decide))
    have hlt := lt_of_le_of_ne h.count hfull
    rw [if_neg hfull, if_neg hfull, errorQueueLastSlot]
    simp only [← Nat.add_assoc, Nat.add_sub_cancel, hclear, Option.map_some]
    refine ⟨_, rfl, hsound, ?_, ?_, ?_⟩
    · rw [hfirst]
      exact h.first
    · rw [hcount]
      exact hlt
    · rw [hfirst, hcount]
      simp only
      rw [elements_push hlt hkept, hnew, h.errors, List.map_append]
      rfl

lemma Represents.cons {count : ℕ} (h : Represents context deque)
    (hcount : context.errorQueue.count = count + 1) :
    ∃ error rest, deque = error :: rest ∧ errorAt context context.errorQueue.first = some error ∧
      elements errorMaxDepth (errorAt context) ((context.errorQueue.first + 1) % errorMaxDepth)
        count = rest.map some := by
  have herrors := h.errors
  rw [hcount, elements_cons, Nat.mod_eq_of_lt h.first] at herrors
  cases deque with
  | nil => cases herrors
  | cons error rest =>
    rw [List.map_cons] at herrors
    obtain ⟨hfirst, hrest⟩ := List.cons.inj herrors
    exact ⟨error, rest, rfl, hfirst, hrest⟩

lemma Represents.concat {count : ℕ} (h : Represents context deque)
    (hcount : context.errorQueue.count = count + 1) :
    ∃ error init, deque = init ++ [error] ∧
      errorAt context (errorQueueLastSlot context.errorQueue) = some error ∧
      elements errorMaxDepth (errorAt context) context.errorQueue.first count = init.map some := by
  have hlast : errorQueueLastSlot context.errorQueue =
      (context.errorQueue.first + count) % errorMaxDepth := by
    rw [errorQueueLastSlot, hcount, ← Nat.add_assoc, Nat.add_sub_cancel]
  have herrors := h.errors
  rw [hcount, elements_concat, ← hlast] at herrors
  obtain ⟨init, last, rfl, hinit, hsingle⟩ := List.map_eq_append_iff.mp herrors.symm
  obtain ⟨error, rfl, herror⟩ := List.map_eq_singleton_iff.mp hsingle
  exact ⟨error, init, rfl, herror.symm, hinit.symm⟩

lemma errorRead_some {error : DmiError (List Byte)} (h : errorAt context slot = some error) :
    errorRead (some slot) context = some (.error (some error), context) := by
  rw [errorRead, h, Option.map_some]

lemma errorSlotsClear_spec (h : SlotsSound context) {slots : List ℕ}
    (hslots : ∀ slot ∈ slots, slot < errorMaxDepth) :
    ∃ next, slots.foldlM (fun context slot => errorSlotClear slot context) context = some next ∧
      SlotsSound next := by
  induction slots generalizing context with
  | nil => exact ⟨context, rfl, h⟩
  | cons slot slots ih =>
    obtain ⟨hslot, hslots⟩ := List.forall_mem_cons.mp hslots
    obtain ⟨cleared, hclear, hsound, -, -⟩ := errorSlotClear_spec h hslot
    obtain ⟨next, hnext, hlast⟩ := ih hsound hslots
    refine ⟨next, ?_, hlast⟩
    rw [List.foldlM_cons, hclear]
    exact hnext

lemma errorCall_spec (h : Represents context deque) (call : ErrorCall) :
    ∃ next, errorCall context call = some ((dequeCall deque call).1, next) ∧
      Represents next (dequeCall deque call).2 := by
  obtain ⟨hsound, hfirst, hbound, herrors⟩ := id h
  cases call with
  | raise args =>
    obtain ⟨next, hraise, hnext⟩ := errorVraise_spec h args
    exact ⟨next, by rw [errorCall, hraise]; rfl, hnext⟩
  | clear =>
    obtain ⟨cleared, hclear, hcleared⟩ := errorSlotsClear_spec hsound
      (fun slot hslot => List.mem_range.mp hslot : ∀ slot ∈ List.range errorMaxDepth, _)
    refine ⟨⟨⟨cleared.errorQueue.errors, 0, 0⟩, cleared.messages⟩, ?_,
      ⟨hcleared.slots, hcleared.live, hcleared.apart⟩, (by decide : 0 < errorMaxDepth),
      Nat.zero_le _, rfl⟩
    rw [errorCall, errorClear, hclear]
    rfl
  | peekFirst =>
    cases hcount : context.errorQueue.count with
    | zero =>
      obtain rfl := List.eq_nil_of_length_eq_zero (h.length.trans hcount)
      exact ⟨context, by rw [errorCall, errorPeekFirst, if_pos hcount]; rfl, h⟩
    | succ count =>
      obtain ⟨error, rest, rfl, hat, -⟩ := h.cons hcount
      refine ⟨context, ?_, h⟩
      rw [errorCall, errorPeekFirst, if_neg (by omega), errorRead_some hat]
      rfl
  | peekLast =>
    cases hcount : context.errorQueue.count with
    | zero =>
      obtain rfl := List.eq_nil_of_length_eq_zero (h.length.trans hcount)
      exact ⟨context, by rw [errorCall, errorPeekLast, if_pos hcount]; rfl, h⟩
    | succ count =>
      obtain ⟨error, init, rfl, hat, -⟩ := h.concat hcount
      refine ⟨context, ?_, h⟩
      rw [errorCall, errorPeekLast, if_neg (by omega), errorRead_some hat, dequeCall,
        List.getLast?_concat]
  | getFirst =>
    cases hcount : context.errorQueue.count with
    | zero =>
      obtain rfl := List.eq_nil_of_length_eq_zero (h.length.trans hcount)
      exact ⟨context, by rw [errorCall, errorGetFirst]; simp only [if_pos hcount]; rfl, h⟩
    | succ count =>
      obtain ⟨error, rest, rfl, hat, hrest⟩ := h.cons hcount
      -- the slot which has been taken keeps its error
      refine ⟨⟨⟨context.errorQueue.errors, (context.errorQueue.first + 1) % errorMaxDepth, count⟩,
        context.messages⟩, ?_, ⟨hsound.slots, hsound.live, hsound.apart⟩,
        Nat.mod_lt _ (by decide), by simp only; omega, hrest⟩
      rw [errorCall, errorGetFirst]
      simp only [hcount, Nat.add_one_ne_zero, if_false, Nat.add_sub_cancel]
      exact errorRead_some hat
  | getLast =>
    cases hcount : context.errorQueue.count with
    | zero =>
      obtain rfl := List.eq_nil_of_length_eq_zero (h.length.trans hcount)
      exact ⟨context, by rw [errorCall, errorGetLast]; simp only [if_pos hcount]; rfl, h⟩
    | succ count =>
      obtain ⟨error, init, rfl, hat, hinit⟩ := h.concat hcount
      refine ⟨⟨⟨context.errorQueue.errors, context.errorQueue.first, count⟩, context.messages⟩, ?_,
        ⟨hsound.slots, hsound.live, hsound.apart⟩, hfirst, by simp only; omega, ?_⟩
      · rw [errorCall, errorGetLast]
        simp only [hcount, Nat.add_one_ne_zero, if_false, Nat.add_sub_cancel, dequeCall,
          List.getLast?_concat]
        exact errorRead_some hat
      · rw [dequeCall, List.dropLast_concat]
        exact hinit

lemma contextErrors_represents : Represents contextErrors [] := by
  have hcleared : ∀ slot, errorSlot contextErrors.errorQueue slot = .cleared := fun slot => by
    by_cases hslot : slot < errorMaxDepth
    · exact List.getD_replicate _ hslot
    · exact List.getD_eq_default _ _ (by simpa [contextErrors] using hslot)
  refine ⟨⟨List.length_replicate, fun slot address hmessage => ?_,
    fun slot slot' address hmessage _ => ?_⟩, by decide, Nat.zero_le _, rfl⟩
  · rw [hcleared] at hmessage
    cases hmessage
  · rw [hcleared] at hmessage
    cases hmessage

lemma errorCalls_spec (h : Represents context deque) (calls : List ErrorCall) :
    ∃ next, errorCalls calls context = some ((dequeCalls calls deque).1, next) ∧
      Represents next (dequeCalls calls deque).2 := by
  induction calls generalizing context deque with
  | nil => exact ⟨context, rfl, h⟩
  | cons call calls ih =>
    obtain ⟨middle, hcall, hmiddle⟩ := errorCall_spec h call
    obtain ⟨next, hcalls, hnext⟩ := ih hmiddle
    refine ⟨next, ?_, hnext⟩
    rw [errorCalls, hcall, Option.bind_some]
    simp only [hcalls, Option.map_some, dequeCalls]

/-- The ring of errors is a double-ended queue of its depth: every call of a history returns what it
returns on the queue, and the errors of the queue are in the slots with their messages. -/
theorem errorQueue_refines (calls : List ErrorCall) :
    ∃ context, errorCalls calls contextErrors = some ((dequeCalls calls []).1, context) ∧
      Represents context (dequeCalls calls []).2 :=
  errorCalls_spec contextErrors_represents calls

/-- The first of 65 errors is pushed out by the last one. -/
example : ((errorCalls ((List.range 65).map fun i =>
      .raise ⟨none, none, i, .internal, some [UInt8.ofNat i], some .above⟩) contextErrors).bind
    fun result => (errorCall result.2 .getFirst).map Prod.fst) =
    some (.error (some ⟨none, none, 1, .internal, some [1]⟩)) := by decide +kernel

end OpenDmi

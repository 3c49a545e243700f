import Mathlib.Data.List.ReduceOption
import OpenDmi.CallScript

/-! Marked-up documents, told by events and read back from them. An element is opened, given its
attributes, filled and closed in this order. -/

inductive MarkupEvent (ν α τ κ : Type)
  | start (name : ν)
  | attr (a : α)
  | content (t : τ)
  | finish (closing : κ)

inductive Markup (ν α τ κ : Type)
  | missing
  | content (t : τ)
  | element (name : ν) (attributes : List α) (children : List (Markup ν α τ κ)) (closing : κ)

namespace Markup

variable {ν α τ κ : Type}

mutual

def events : Markup ν α τ κ → List (Option (MarkupEvent ν α τ κ))
  | missing => [none]
  | content t => [some (.content t)]
  | element name attributes children closing =>
    some (.start name) :: (attributes.map (fun a => some (.attr a)) ++
      (eventsAll children ++ [some (.finish closing)]))

def eventsAll : List (Markup ν α τ κ) → List (Option (MarkupEvent ν α τ κ))
  | [] => []
  | item :: rest => events item ++ eventsAll rest

end

mutual

def complete : Markup ν α τ κ → Bool
  | missing => false
  | content _ => true
  | element _ _ children _ => completeAll children

def completeAll : List (Markup ν α τ κ) → Bool
  | [] => true
  | item :: rest => complete item && completeAll rest

end

lemma eventsAll_append (items rest : List (Markup ν α τ κ)) :
    eventsAll (items ++ rest) = eventsAll items ++ eventsAll rest := by
  induction items with
  | nil => rfl
  | cons item items ih => rw [List.cons_append, eventsAll, eventsAll, ih, List.append_assoc]

lemma eventsAll_map {β : Type} (f : β → Markup ν α τ κ) (items : List β) :
    eventsAll (items.map f) = items.flatMap fun b => events (f b) := by
  induction items with
  | nil => rfl
  | cons item items ih => rw [List.map_cons, eventsAll, ih, List.flatMap_cons]

def calls (d : Markup ν α τ κ) : List (MarkupEvent ν α τ κ) := (events d).reduceOption

lemma reduceOption_attrs (attributes : List α) :
    (attributes.map fun a => some (MarkupEvent.attr a : MarkupEvent ν α τ κ)).reduceOption =
      attributes.map .attr := by
  induction attributes with
  | nil => rfl
  | cons a attributes ih =>
    rw [List.map_cons, List.reduceOption_cons_of_some, ih, List.map_cons]

section Complete

mutual

lemma events_complete : ∀ d : Markup ν α τ κ, complete d = true →
    events d = (events d).reduceOption.map some
  | missing, h => by cases h
  | content t, _ => rfl
  | element name attributes children closing, h => by
    have hchildren := eventsAll_complete children h
    rw [events, List.reduceOption_cons_of_some, List.reduceOption_append, List.reduceOption_append,
      reduceOption_attrs, List.map_cons, List.map_append, List.map_append, ← hchildren,
      List.map_map]
    rfl

lemma eventsAll_complete : ∀ items : List (Markup ν α τ κ), completeAll items = true →
    eventsAll items = (eventsAll items).reduceOption.map some
  | [], _ => rfl
  | item :: rest, h => by
    obtain ⟨hitem, hrest⟩ := Bool.and_eq_true_iff.mp h
    rw [eventsAll, List.reduceOption_append, List.map_append, ← events_complete item hitem,
      ← eventsAll_complete rest hrest]

end

lemma events_calls {d : Markup ν α τ κ} (h : complete d = true) :
    events d = (calls d).map some := events_complete d h

end Complete

section Reader

structure OpenElement (ν α τ κ : Type) where
  name : ν
  attributes : List α
  children : List (Markup ν α τ κ)

structure Reader (ν α τ κ : Type) where
  elements : List (OpenElement ν α τ κ)
  docs : List (Markup ν α τ κ)

def Reader.place (d : Markup ν α τ κ) : Reader ν α τ κ → Reader ν α τ κ
  | ⟨[], docs⟩ => ⟨[], docs ++ [d]⟩
  | ⟨⟨name, attributes, children⟩ :: elements, docs⟩ =>
    ⟨⟨name, attributes, children ++ [d]⟩ :: elements, docs⟩

/-- Attributes belong to the last element only as long as there is nothing in it, and there is no
content out of elements. -/
def Reader.step (reader : Reader ν α τ κ) : MarkupEvent ν α τ κ → Option (Reader ν α τ κ)
  | .start name => some ⟨⟨name, [], []⟩ :: reader.elements, reader.docs⟩
  | .attr a => match reader with
    | ⟨⟨name, attributes, []⟩ :: elements, docs⟩ =>
      some ⟨⟨name, attributes ++ [a], []⟩ :: elements, docs⟩
    | _ => none
  | .content t => match reader with
    | ⟨[], _⟩ => none
    | reader => some (reader.place (.content t))
  | .finish closing => match reader with
    | ⟨[], _⟩ => none
    | ⟨⟨name, attributes, children⟩ :: elements, docs⟩ =>
      some (Reader.place (.element name attributes children closing) ⟨elements, docs⟩)

def readAll (events : List (MarkupEvent ν α τ κ)) : Option (List (Markup ν α τ κ)) :=
  (events.foldlM Reader.step ⟨[], []⟩).bind fun reader =>
    if reader.elements.isEmpty then some reader.docs else none

lemma read_attrs (name : ν) (attributes before : List α) (elements : List (OpenElement ν α τ κ))
    (docs : List (Markup ν α τ κ)) :
    (attributes.map MarkupEvent.attr).foldlM Reader.step ⟨⟨name, before, []⟩ :: elements, docs⟩ =
      some ⟨⟨name, before ++ attributes, []⟩ :: elements, docs⟩ := by
  induction attributes generalizing before with
  | nil => rw [List.append_nil]; rfl
  | cons a attributes ih =>
    have hstep : Reader.step ⟨⟨name, before, []⟩ :: elements, docs⟩ (.attr a) =
        some ⟨⟨name, before ++ [a], []⟩ :: elements, docs⟩ := rfl
    rw [List.map_cons, List.foldlM_cons, hstep, Option.bind_eq_bind, Option.bind_some, ih,
      List.append_assoc, List.singleton_append]

def isElement : Markup ν α τ κ → Bool
  | element _ _ _ _ => true
  | _ => false

mutual

lemma read_events : ∀ (d : Markup ν α τ κ) (reader : Reader ν α τ κ), complete d = true →
    (isElement d = true ∨ reader.elements ≠ []) →
    (events d).reduceOption.foldlM Reader.step reader = some (reader.place d)
  | missing, _, h, _ => by cases h
  | content t, reader, _, hplace => by
    obtain ⟨_ | ⟨top, elements⟩, docs⟩ := reader
    · exact absurd (hplace.resolve_left Bool.false_ne_true) (fun h => h rfl)
    · rfl
  | element name attributes children closing, reader, h, _ => by
    obtain ⟨elements, docs⟩ := reader
    have hattrs := read_attrs name attributes [] elements docs
    have hchildren := read_eventsAll children ⟨name, attributes, []⟩ elements docs h
    have hstart : Reader.step ⟨elements, docs⟩ (.start name) =
        some ⟨⟨name, [], []⟩ :: elements, docs⟩ := rfl
    rw [events, List.reduceOption_cons_of_some, List.foldlM_cons, hstart, Option.bind_eq_bind,
      Option.bind_some, List.reduceOption_append, reduceOption_attrs, List.foldlM_append, hattrs,
      Option.bind_eq_bind, Option.bind_some, List.reduceOption_append, List.foldlM_append,
      List.nil_append, hchildren]
    rfl

lemma read_eventsAll : ∀ (items : List (Markup ν α τ κ)) (top : OpenElement ν α τ κ)
    (elements : List (OpenElement ν α τ κ)) (docs : List (Markup ν α τ κ)),
    completeAll items = true →
    (eventsAll items).reduceOption.foldlM Reader.step ⟨top :: elements, docs⟩ =
      some ⟨⟨top.name, top.attributes, top.children ++ items⟩ :: elements, docs⟩
  | [], top, elements, docs, _ => by rw [List.append_nil]; rfl
  | item :: rest, ⟨name, attributes, before⟩, elements, docs, h => by
    obtain ⟨hitem, hrest⟩ := Bool.and_eq_true_iff.mp h
    have hread := read_events item ⟨⟨name, attributes, before⟩ :: elements, docs⟩ hitem
      (.inr (List.cons_ne_nil _ _))
    rw [eventsAll, List.reduceOption_append, List.foldlM_append, hread, Option.bind_eq_bind,
      Option.bind_some]
    refine (read_eventsAll rest ⟨name, attributes, before ++ [item]⟩ elements docs hrest).trans ?_
    rw [List.append_assoc, List.singleton_append]

end

lemma readAll_calls {d : Markup ν α τ κ} (h : complete d = true) (helement : isElement d = true) :
    readAll (calls d) = some [d] := by
  rw [readAll, calls, read_events d ⟨[], []⟩ h (.inl helement)]
  rfl

end Reader

end Markup

import Mathlib.Data.List.ReduceOption
import OpenDmi.CallScript

/-! Documents of scalars, sequences and mappings, told by events and read back from them. -/

inductive DocEvent (σ τ : Type)
  | scalar (s : σ)
  | seqStart (style : τ)
  | seqEnd
  | mapStart (style : τ)
  | mapEnd
  deriving DecidableEq

/-- A document, where a scalar may be missing. -/
inductive Doc (σ τ : Type)
  | missing
  | scalar (s : σ)
  | seq (style : τ) (items : List (Doc σ τ))
  | map (style : τ) (members : List (σ × Doc σ τ))

variable {σ τ σ' τ' : Type}

def DocEvent.relabel (f : σ → σ') (g : τ → τ') : DocEvent σ τ → DocEvent σ' τ'
  | .scalar s => .scalar (f s)
  | .seqStart style => .seqStart (g style)
  | .seqEnd => .seqEnd
  | .mapStart style => .mapStart (g style)
  | .mapEnd => .mapEnd

namespace Doc

mutual

def events : Doc σ τ → List (Option (DocEvent σ τ))
  | missing => [none]
  | scalar s => [some (.scalar s)]
  | seq style items => some (.seqStart style) :: (eventsItems items ++ [some .seqEnd])
  | map style members => some (.mapStart style) :: (eventsMembers members ++ [some .mapEnd])

def eventsItems : List (Doc σ τ) → List (Option (DocEvent σ τ))
  | [] => []
  | item :: rest => events item ++ eventsItems rest

def eventsMembers : List (σ × Doc σ τ) → List (Option (DocEvent σ τ))
  | [] => []
  | (key, value) :: rest => some (.scalar key) :: (events value ++ eventsMembers rest)

end

mutual

def relabel (f : σ → σ') (g : τ → τ') : Doc σ τ → Doc σ' τ'
  | missing => missing
  | scalar s => scalar (f s)
  | seq style items => seq (g style) (relabelItems f g items)
  | map style members => map (g style) (relabelMembers f g members)

def relabelItems (f : σ → σ') (g : τ → τ') : List (Doc σ τ) → List (Doc σ' τ')
  | [] => []
  | item :: rest => relabel f g item :: relabelItems f g rest

def relabelMembers (f : σ → σ') (g : τ → τ') : List (σ × Doc σ τ) → List (σ' × Doc σ' τ')
  | [] => []
  | (key, value) :: rest => (f key, relabel f g value) :: relabelMembers f g rest

end

mutual

def complete : Doc σ τ → Bool
  | missing => false
  | scalar _ => true
  | seq _ items => completeItems items
  | map _ members => completeMembers members

def completeItems : List (Doc σ τ) → Bool
  | [] => true
  | item :: rest => complete item && completeItems rest

def completeMembers : List (σ × Doc σ τ) → Bool
  | [] => true
  | (_, value) :: rest => complete value && completeMembers rest

end

lemma eventsMembers_append (members rest : List (σ × Doc σ τ)) :
    eventsMembers (members ++ rest) = eventsMembers members ++ eventsMembers rest := by
  induction members with
  | nil => rfl
  | cons member members ih =>
    obtain ⟨key, value⟩ := member
    rw [List.cons_append, eventsMembers, eventsMembers, ih, List.cons_append, List.append_assoc]

lemma eventsItems_map {α : Type} (f : α → Doc σ τ) (items : List α) :
    eventsItems (items.map f) = items.flatMap fun a => events (f a) := by
  induction items with
  | nil => rfl
  | cons item items ih => rw [List.map_cons, eventsItems, ih, List.flatMap_cons]

mutual

lemma events_relabel (f : σ → σ') (g : τ → τ') : ∀ d : Doc σ τ,
    events (relabel f g d) = (events d).map (Option.map (DocEvent.relabel f g))
  | missing => by rw [relabel, events, events, List.map_singleton, Option.map_none]
  | scalar s => by
    rw [relabel, events, events, List.map_singleton, Option.map_some, DocEvent.relabel]
  | seq style items => by
    rw [relabel, events, events, eventsItems_relabel f g items, List.map_cons, List.map_append,
      List.map_singleton]
    rfl
  | map style members => by
    rw [relabel, events, events, eventsMembers_relabel f g members, List.map_cons, List.map_append,
      List.map_singleton]
    rfl

lemma eventsItems_relabel (f : σ → σ') (g : τ → τ') : ∀ items : List (Doc σ τ),
    eventsItems (relabelItems f g items) =
      (eventsItems items).map (Option.map (DocEvent.relabel f g))
  | [] => by rw [relabelItems, eventsItems, eventsItems, List.map_nil]
  | item :: rest => by
    rw [relabelItems, eventsItems, eventsItems, events_relabel f g item,
      eventsItems_relabel f g rest, List.map_append]

lemma eventsMembers_relabel (f : σ → σ') (g : τ → τ') : ∀ members : List (σ × Doc σ τ),
    eventsMembers (relabelMembers f g members) =
      (eventsMembers members).map (Option.map (DocEvent.relabel f g))
  | [] => by rw [relabelMembers, eventsMembers, eventsMembers, List.map_nil]
  | (key, value) :: rest => by
    rw [relabelMembers, eventsMembers, eventsMembers, events_relabel f g value,
      eventsMembers_relabel f g rest, List.map_cons, List.map_append]
    rfl

end

def calls (d : Doc σ τ) : List (DocEvent σ τ) := (events d).reduceOption

section Complete

mutual

lemma events_complete : ∀ d : Doc σ τ, complete d = true → none ∉ events d
  | missing, h => by cases h
  | scalar s, _ => by simp [events]
  | seq style items, h => by
    have hitems := eventsItems_complete items h
    simp [events, hitems]
  | map style members, h => by
    have hmembers := eventsMembers_complete members h
    simp [events, hmembers]

lemma eventsItems_complete : ∀ items : List (Doc σ τ), completeItems items = true →
    none ∉ eventsItems items
  | [], _ => List.not_mem_nil
  | item :: rest, h => by
    obtain ⟨hitem, hrest⟩ := Bool.and_eq_true_iff.mp h
    rw [eventsItems, List.mem_append, not_or]
    exact ⟨events_complete item hitem, eventsItems_complete rest hrest⟩

lemma eventsMembers_complete : ∀ members : List (σ × Doc σ τ), completeMembers members = true →
    none ∉ eventsMembers members
  | [], _ => List.not_mem_nil
  | (key, value) :: rest, h => by
    obtain ⟨hvalue, hrest⟩ := Bool.and_eq_true_iff.mp h
    have hevents := events_complete value hvalue
    have hmembers := eventsMembers_complete rest hrest
    simp [eventsMembers, hevents, hmembers]

end

mutual

lemma events_missing : ∀ d : Doc σ τ, complete d = false → none ∈ events d
  | missing, _ => List.mem_singleton_self _
  | scalar s, h => by cases h
  | seq style items, h => by
    have hitems := eventsItems_missing items h
    simp [events, hitems]
  | map style members, h => by
    have hmembers := eventsMembers_missing members h
    simp [events, hmembers]

lemma eventsItems_missing : ∀ items : List (Doc σ τ), completeItems items = false →
    none ∈ eventsItems items
  | [], h => by cases h
  | item :: rest, h => by
    rw [eventsItems, List.mem_append]
    obtain hitem | hrest := Bool.and_eq_false_iff.mp h
    · exact .inl (events_missing item hitem)
    · exact .inr (eventsItems_missing rest hrest)

lemma eventsMembers_missing : ∀ members : List (σ × Doc σ τ), completeMembers members = false →
    none ∈ eventsMembers members
  | [], h => by cases h
  | (key, value) :: rest, h => by
    obtain hvalue | hrest := Bool.and_eq_false_iff.mp h
    · have hevents := events_missing value hvalue
      simp [eventsMembers, hevents]
    · have hmembers := eventsMembers_missing rest hrest
      simp [eventsMembers, hmembers]

end

lemma upTo_finished (d : Doc σ τ) : (Script.upTo (events d)).finished = complete d := by
  obtain ⟨hfinished, hcalls⟩ | ⟨hfinished, rest, hcalls⟩ := Script.upTo_spec (events d)
  · rw [hfinished]
    cases hd : complete d with
    | true => rfl
    | false =>
      have hmem := events_missing d hd
      rw [hcalls] at hmem
      simp at hmem
  · rw [hfinished]
    cases hd : complete d with
    | false => rfl
    | true =>
      refine (events_complete d hd ?_).elim
      rw [hcalls]
      simp

end Complete

section Reader

inductive Frame (σ τ : Type)
  | seq (style : τ) (items : List (Doc σ τ))
  | map (style : τ) (members : List (σ × Doc σ τ)) (key : Option σ)

structure Reader (σ τ : Type) where
  frames : List (Frame σ τ)
  docs : List (Doc σ τ)

def Reader.expectsKey : Reader σ τ → Bool
  | ⟨.map _ _ none :: _, _⟩ => true
  | _ => false

def Reader.place (d : Doc σ τ) : Reader σ τ → Option (Reader σ τ)
  | ⟨[], docs⟩ => some ⟨[], docs ++ [d]⟩
  | ⟨.seq style items :: frames, docs⟩ => some ⟨.seq style (items ++ [d]) :: frames, docs⟩
  | ⟨.map style members (some key) :: frames, docs⟩ =>
    some ⟨.map style (members ++ [(key, d)]) none :: frames, docs⟩
  | ⟨.map _ _ none :: _, _⟩ => none

def Reader.step (reader : Reader σ τ) : DocEvent σ τ → Option (Reader σ τ)
  | .scalar s => match reader with
    | ⟨.map style members none :: frames, docs⟩ =>
      some ⟨.map style members (some s) :: frames, docs⟩
    | reader => reader.place (.scalar s)
  | .seqStart style =>
    if reader.expectsKey then none else some ⟨.seq style [] :: reader.frames, reader.docs⟩
  | .mapStart style =>
    if reader.expectsKey then none else some ⟨.map style [] none :: reader.frames, reader.docs⟩
  | .seqEnd => match reader with
    | ⟨.seq style items :: frames, docs⟩ => Reader.place (.seq style items) ⟨frames, docs⟩
    | _ => none
  | .mapEnd => match reader with
    | ⟨.map style members none :: frames, docs⟩ => Reader.place (.map style members) ⟨frames, docs⟩
    | _ => none

def readAll (events : List (DocEvent σ τ)) : Option (List (Doc σ τ)) :=
  (events.foldlM Reader.step ⟨[], []⟩).bind fun reader =>
    if reader.frames.isEmpty then some reader.docs else none

lemma Reader.step_scalar {reader : Reader σ τ} (h : reader.expectsKey = false) (s : σ) :
    reader.step (.scalar s) = reader.place (.scalar s) := by
  obtain ⟨_ | ⟨⟨style, items⟩ | ⟨style, members, _ | key⟩, frames⟩, docs⟩ := reader
  · rfl
  · rfl
  · cases h
  · rfl

lemma Reader.place_frames {style : τ} (items : List (Doc σ τ)) (frames : List (Frame σ τ))
    (docs : List (Doc σ τ)) (d : Doc σ τ) :
    Reader.place d ⟨.seq style items :: frames, docs⟩ =
      some ⟨.seq style (items ++ [d]) :: frames, docs⟩ := rfl

lemma Reader.step_last (reader : Reader σ τ) (event : DocEvent σ τ) :
    [event].foldlM Reader.step reader = reader.step event := by
  rw [List.foldlM_cons]
  cases reader.step event <;> rfl

mutual

lemma read_events : ∀ (d : Doc σ τ) (reader : Reader σ τ), complete d = true →
    reader.expectsKey = false →
    (events d).reduceOption.foldlM Reader.step reader = reader.place d
  | missing, _, h, _ => by cases h
  | scalar s, reader, _, hkey => by
    have hstep := Reader.step_scalar hkey s
    rw [events, List.reduceOption_singleton, Option.toList_some, Reader.step_last, hstep]
  | seq style items, reader, h, hkey => by
    obtain ⟨frames, docs⟩ := reader
    have hitems := read_eventsItems items style [] frames docs h
    have hstart : Reader.step ⟨frames, docs⟩ (.seqStart style) =
        some ⟨.seq style [] :: frames, docs⟩ := by
      rw [Reader.step, hkey]
      rfl
    rw [events, List.reduceOption_cons_of_some, List.foldlM_cons, hstart, Option.bind_eq_bind,
      Option.bind_some, List.reduceOption_append, List.foldlM_append, hitems, Option.bind_eq_bind,
      Option.bind_some, List.reduceOption_singleton]
    exact Reader.step_last _ _
  | map style members, reader, h, hkey => by
    obtain ⟨frames, docs⟩ := reader
    have hmembers := read_eventsMembers members style [] frames docs h
    have hstart : Reader.step ⟨frames, docs⟩ (.mapStart style) =
        some ⟨.map style [] none :: frames, docs⟩ := by
      rw [Reader.step, hkey]
      rfl
    rw [events, List.reduceOption_cons_of_some, List.foldlM_cons, hstart, Option.bind_eq_bind,
      Option.bind_some, List.reduceOption_append, List.foldlM_append, hmembers, Option.bind_eq_bind,
      Option.bind_some, List.reduceOption_singleton]
    exact Reader.step_last _ _

lemma read_eventsItems : ∀ (items : List (Doc σ τ)) (style : τ) (before : List (Doc σ τ))
    (frames : List (Frame σ τ)) (docs : List (Doc σ τ)), completeItems items = true →
    (eventsItems items).reduceOption.foldlM Reader.step ⟨.seq style before :: frames, docs⟩ =
      some ⟨.seq style (before ++ items) :: frames, docs⟩
  | [], style, before, frames, docs, _ => by rw [List.append_nil]; rfl
  | item :: rest, style, before, frames, docs, h => by
    obtain ⟨hitem, hrest⟩ := Bool.and_eq_true_iff.mp h
    have hread := read_events item ⟨.seq style before :: frames, docs⟩ hitem rfl
    rw [Reader.place_frames] at hread
    rw [eventsItems, List.reduceOption_append, List.foldlM_append, hread]
    refine (read_eventsItems rest style (before ++ [item]) frames docs hrest).trans ?_
    rw [List.append_assoc, List.singleton_append]

lemma read_eventsMembers : ∀ (members : List (σ × Doc σ τ)) (style : τ)
    (before : List (σ × Doc σ τ)) (frames : List (Frame σ τ)) (docs : List (Doc σ τ)),
    completeMembers members = true →
    (eventsMembers members).reduceOption.foldlM Reader.step
        ⟨.map style before none :: frames, docs⟩ =
      some ⟨.map style (before ++ members) none :: frames, docs⟩
  | [], style, before, frames, docs, _ => by rw [List.append_nil]; rfl
  | (key, value) :: rest, style, before, frames, docs, h => by
    obtain ⟨hvalue, hrest⟩ := Bool.and_eq_true_iff.mp h
    have hread := read_events value ⟨.map style before (some key) :: frames, docs⟩ hvalue rfl
    have hplace : Reader.place value ⟨.map style before (some key) :: frames, docs⟩ =
        some ⟨.map style (before ++ [(key, value)]) none :: frames, docs⟩ := rfl
    have hkey : Reader.step ⟨.map style before none :: frames, docs⟩ (.scalar key) =
        some ⟨.map style before (some key) :: frames, docs⟩ := rfl
    rw [hplace] at hread
    rw [eventsMembers, List.reduceOption_cons_of_some, List.foldlM_cons, hkey,
      List.reduceOption_append]
    simp only [Option.bind_eq_bind, Option.bind_some, List.foldlM_append, hread]
    refine (read_eventsMembers rest style (before ++ [(key, value)]) frames docs hrest).trans ?_
    rw [List.append_assoc, List.singleton_append]

end

lemma events_calls {d : Doc σ τ} (h : complete d = true) : events d = (calls d).map some := by
  obtain ⟨_, hcalls⟩ | ⟨hfinished, _⟩ := Script.upTo_spec (events d)
  · rw [calls, hcalls]
    simp [List.reduceOption]
  · rw [upTo_finished, h] at hfinished
    cases hfinished

lemma readAll_calls {d : Doc σ τ} (h : complete d = true) : readAll (calls d) = some [d] := by
  rw [readAll, calls, read_events d ⟨[], []⟩ h rfl]
  rfl

end Reader

end Doc

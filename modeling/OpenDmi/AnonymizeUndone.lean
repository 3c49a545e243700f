import OpenDmi.AnonymizeLive

namespace OpenDmi

open Bytes UndoLog

section Walk

variable {σ : Type} {heap : σ → Heap} {visit : Attribute → ℕ → σ → Bool × σ} {I : σ → Prop}

lemma next_inv {r : Bool × σ} {next : σ → Bool × σ} (hr : I r.2) (hnext : ∀ s, I s → I (next s).2) :
    I (if r.1 then next r.2 else (false, r.2)).2 := by
  split_ifs
  · exact hnext _ hr
  · exact hr

lemma stepWhile_inv {step : ℕ → σ → Bool × σ} (hstep : ∀ i s, I s → I (step i s).2)
    (count i : ℕ) {s : σ} (hs : I s) : I (stepWhile step count i s).2 := by
  induction count generalizing i s with
  | zero => exact hs
  | succ count ih =>
    rw [stepWhile]
    exact next_inv (hstep i s hs) fun s hs => ih (i + 1) hs

lemma liveWalkOne_inv (hvisit : ∀ attr address s, I s → I (visit attr address s).2)
    (attr : Attribute) (base : ℕ)
    (hattrs : ∀ base s, I s → I (liveWalk heap visit base attr.attrs s).2) {s : σ} (hs : I s) :
    I (liveWalkOne heap visit base attr s).2 := by
  cases attr with
  | mk value type counter count unspec unknown isPrivate isMac targets link selector isDefault attrs
      variants =>
    rw [liveWalkOne]
    simp only
    have hvalue : ∀ address s, I s → I (if type = .struct then
        liveWalk heap visit address attrs s
      else visit ⟨value, type, counter, count, unspec, unknown, isPrivate, isMac, targets, link,
        selector, isDefault, attrs, variants⟩ address s).2 := by
      intro address s hs
      split_ifs
      · exact hattrs address s hs
      · exact hvisit _ address s hs
    by_cases harray : attributeIsArray ⟨value, type, counter, count, unspec, unknown, isPrivate,
        isMac, targets, link, selector, isDefault, attrs, variants⟩ = true
    · rw [if_pos harray]
      exact stepWhile_inv (fun i s hs => hvalue _ s hs) _ _ hs
    · rw [if_neg harray]
      exact hvalue _ s hs

mutual

theorem liveWalk_inv (hvisit : ∀ attr address s, I s → I (visit attr address s).2) :
    ∀ (attrs : List Attribute) (base : ℕ) (s : σ), I s → I (liveWalk heap visit base attrs s).2
  | [], _, _, hs => hs
  | attr :: rest, base, s, hs => by
    have hone : I (if attr.type = .variant then
        match attributeResolve (attributeReadInt attr.value (UInt64.ofNat (loadNumber (heap s)
            (base + attr.value.offset) attr.value.size))) attr.variants 0 none with
        | none => (true, s)
        | some i => liveWalkVariant heap visit base i attr s
      else liveWalkOne heap visit base attr s).2 := by
      split_ifs
      · split
        · exact hs
        · exact liveWalkVariant_inv hvisit attr base _ s hs
      · exact liveWalkAttrs_inv hvisit attr base s hs
    rw [liveWalk]
    exact next_inv hone fun s hs => liveWalk_inv hvisit rest base s hs

theorem liveWalkVariant_inv (hvisit : ∀ attr address s, I s → I (visit attr address s).2) :
    ∀ (attr : Attribute) (base i : ℕ) (s : σ), I s → I (liveWalkVariant heap visit base i attr s).2
  | ⟨_, _, _, _, _, _, _, _, _, _, _, _, _, variants⟩, base, i, s, hs => by
    rw [liveWalkVariant]
    exact liveWalkAt_inv hvisit variants base i s hs

theorem liveWalkAt_inv (hvisit : ∀ attr address s, I s → I (visit attr address s).2) :
    ∀ (attrs : List Attribute) (base i : ℕ) (s : σ), I s → I (liveWalkAt heap visit base i attrs s).2
  | [], _, _, _, hs => by
    rw [liveWalkAt]
    exact hs
  | attr :: _, base, 0, s, hs => by
    rw [liveWalkAt]
    exact liveWalkAttrs_inv hvisit attr base s hs
  | _ :: rest, base, i + 1, s, hs => by
    rw [liveWalkAt]
    exact liveWalkAt_inv hvisit rest base i s hs

theorem liveWalkAttrs_inv (hvisit : ∀ attr address s, I s → I (visit attr address s).2) :
    ∀ (attr : Attribute) (base : ℕ) (s : σ), I s → I (liveWalkOne heap visit base attr s).2
  | ⟨_, _, _, _, _, _, _, _, _, _, _, _, attrs, _⟩, base, _, hs =>
    liveWalkOne_inv hvisit _ base (fun base s => liveWalk_inv hvisit attrs base s) hs

end

end Walk

variable {live : LiveMemory} {cx : AnonymizeContext} {original : Heap} {s : Live} {entity : Entity}

structure Steady (before after : Live) : Prop where
  heap : after.heap = before.heap
  saved : after.saved = before.saved

lemma Steady.refl (s : Live) : Steady s s := ⟨rfl, rfl⟩

lemma Steady.trans {a b c : Live} (h : Steady a b) (h' : Steady b c) : Steady a c :=
  ⟨h'.heap.trans h.heap, h'.saved.trans h.saved⟩

lemma liveAdd_steady (data replacement : List Byte) (propagate : Bool) (s : Live) :
    Steady s (liveAdd live data replacement propagate s).2 := by
  rw [liveAdd]
  simp only
  split_ifs <;> exact ⟨rfl, rfl⟩

lemma liveAdd_written (data replacement : List Byte) (propagate : Bool) (anon : Anonymizer)
    (s : Live) : Steady s (liveAdd live data replacement propagate { s with anon := anon }).2 :=
  have h := liveAdd_steady data replacement propagate { s with anon := anon }
  ⟨h.heap, h.saved⟩

lemma liveMemberString_steady (text : Ref) (s : Live) :
    Steady s (liveMemberString live cx entity text s).2 := by
  cases text with
  | text entry text =>
    rw [liveMemberString]
    simp only
    split_ifs
    · exact .refl s
    · exact .refl s
    · exact ⟨rfl, rfl⟩
    · exact Steady.trans (b := (allocate live s).2) ⟨rfl, rfl⟩ (liveAdd_written _ _ _ _ _)
  | _ => exact .refl s

lemma liveMemberBinary_steady (attr : Attribute) (binary : Binary) (s : Live) :
    Steady s (liveMemberBinary live cx entity attr binary s).2 := by
  rw [liveMemberBinary]
  by_cases hblank : binary.bytes = [] ∨ anonymizeIsBlank binary.bytes = true
  · rw [if_pos hblank]
    exact .refl s
  rw [if_neg hblank]
  cases binary.position with
  | none => exact .refl s
  | some position =>
    simp only
    by_cases hpast : entity.offset + position + binary.bytes.length > cx.source.length
    · rw [if_pos hpast]
      exact .refl s
    · rw [if_neg hpast]
      exact liveAdd_written _ _ _ _ s

lemma anonymizeScalar_length (attr : Attribute) (bytes : List Byte) :
    (anonymizeScalar cx attr bytes).length = bytes.length := by
  rw [anonymizeScalar]
  split_ifs <;> simp

def Undoes (original : Heap) (state : Live) : Prop := Restores original state.saved state.heap

lemma Undoes.steady {t : Live} (h : Undoes original s) (hst : Steady s t) : Undoes original t := by
  rw [Undoes, hst.saved, hst.heap]
  exact h

lemma liveMemberScalar_undoes (attr : Attribute) (address : ℕ) (h : Undoes original s) :
    Undoes original (liveMemberScalar live cx attr address s).2 := by
  rw [liveMemberScalar]
  simp only
  split_ifs
  · exact h
  · exact h
  · exact h
  · exact h
  · have hlength : (anonymizeScalar cx attr (load s.heap address attr.value.size)).length =
        attr.value.size := by rw [anonymizeScalar_length, load_length]
    exact Restores.push h hlength

lemma liveVisit_undoes (attr : Attribute) (address : ℕ) (s : Live) (h : Undoes original s) :
    Undoes original (liveVisit live cx entity attr address s).2 := by
  rw [liveVisit]
  split_ifs
  · exact h
  · exact h
  split
  · exact h.steady (liveMemberString_steady _ s)
  · exact h.steady (liveMemberBinary_steady attr _ s)
  · exact liveMemberScalar_undoes attr address h
  · exact liveMemberScalar_undoes attr address h
  · exact h

lemma liveWrite_steady (structure' : LiveStructure) (s : Live) :
    Steady s (liveWrite live cx entity structure' s).2 := by
  rw [liveWrite]
  simp only
  split_ifs
  · exact ⟨rfl, rfl⟩
  · exact ⟨rfl, rfl⟩
  split
  · exact ⟨rfl, rfl⟩
  · split_ifs <;> exact ⟨rfl, rfl⟩

lemma liveCollectFrom_steady (saved : List (Entry Byte)) (s : Live) :
    Steady s (liveCollectFrom live cx entity saved s).2 := by
  induction saved generalizing s with
  | nil => exact .refl s
  | cons entry saved ih =>
    rw [liveCollectFrom]
    simp only
    split_ifs
    · exact ih s
    split
    · exact ih s
    · split_ifs
      · exact (liveAdd_steady _ _ _ s).trans (ih _)
      · exact liveAdd_steady _ _ _ s

lemma liveEncode_steady (structure' : LiveStructure) (s : Live) :
    Steady s (liveEncode live cx entity structure' s).2 := by
  rw [liveEncode]
  split_ifs
  · exact .refl s
  simp only
  split_ifs
  · exact liveWrite_steady structure' s
  · exact (liveWrite_steady structure' s).trans (liveCollectFrom_steady _ _)

structure Untouched (original : Heap) (state : Live) : Prop where
  heap : state.heap = original
  saved : state.saved = []

lemma Untouched.undoes (h : Untouched original s) : Undoes original s := by
  rw [Undoes, h.saved, h.heap]
  exact Restores.nil original

lemma liveRestore_untouched (h : Undoes original s) : Untouched original (liveRestore s) := ⟨h, rfl⟩

lemma liveEntity_untouched (entity : Entity) (h : Untouched original s) :
    Untouched original (liveEntity live cx entity s).2 := by
  rw [liveEntity]
  split
  · exact h
  · next structure' _ =>
    have hstart : Undoes original { s with changed := false } := h.undoes
    have hwalk := @liveWalk_inv _ Live.heap (liveVisit live cx entity) (Undoes original)
      (fun attr address s hs => liveVisit_undoes attr address s hs) structure'.attributes
      structure'.info { s with changed := false } hstart
    simp only
    refine liveRestore_untouched ?_
    split_ifs
    · exact hwalk.steady (liveEncode_steady structure' _)
    · exact hwalk

lemma liveEntities_untouched (entities : List Entity) (h : Untouched original s) :
    Untouched original (liveEntities live cx entities s).2 := by
  induction entities generalizing s with
  | nil => exact h
  | cons entity entities ih =>
    rw [liveEntities]
    exact next_inv (liveEntity_untouched entity h) fun s hs => ih hs

lemma liveReplace_untouched (live : LiveMemory) (cx : AnonymizeContext) (heap : Heap) :
    Untouched heap (liveReplace live cx heap).2 := by
  have hstart : Untouched heap (allocate live ⟨heap, ⟨[], []⟩, [], false, 0⟩).2 := ⟨rfl, rfl⟩
  rw [liveReplace]
  exact next_inv hstart fun s hs => liveEntities_untouched (anonymizeVisited cx) hs

/-- The table, the registry and the members of the structures are as they have been, and what is
refused is not written at all. Past that, a failure leaves the buffer empty. -/
theorem liveAnonymize_untouched (live : LiveMemory) (key : Option AnonymizeKey)
    (context : LiveContext) (table : List Byte) :
    (liveAnonymize live key context table).2.1 = context ∧
      (liveCheck context = false → liveAnonymize live key context table = (false, context, table)) ∧
      (liveCheck context = true → (liveAnonymize live key context table).1 = false →
        (liveAnonymize live key context table).2.2 = []) := by
  cases hcheck : liveCheck context with
  | false =>
    have hrefused : liveAnonymize live key context table = (false, context, table) := by
      simp only [liveAnonymize, hcheck, Bool.not_false, if_true]
    rw [hrefused]
    exact ⟨rfl, fun _ => rfl, fun h => absurd h Bool.false_ne_true⟩
  | true =>
    cases key with
    | none =>
      have hkeyless : liveAnonymize live none context table = (false, context, []) := by
        simp only [liveAnonymize, hcheck, Bool.not_true, Bool.false_eq_true, if_false]
      rw [hkeyless]
      exact ⟨rfl, fun h => absurd h.symm Bool.false_ne_true, fun _ _ => rfl⟩
    | some key =>
      have hend := liveReplace_untouched live (context.anonymizing key) context.heap
      have hheap := (liveRestore_untouched hend.undoes).heap
      simp only [liveAnonymize, hcheck, Bool.not_true, Bool.false_eq_true, if_false, hheap]
      refine ⟨trivial, fun h => absurd h.symm Bool.false_ne_true, fun _ hfail => ?_⟩
      rw [if_neg (by rw [hfail]; exact Bool.false_ne_true)]

def emptyMemory : LiveMemory := ⟨fun _ => none, fun _ => .null, fun _ _ => ⟨none, []⟩, fun _ => true⟩

def closedContext : LiveContext :=
  ⟨false, false, 0, ⟨0, []⟩, registryCreate 0, fun _ => 0⟩

theorem refused_buffer_is_left :
    (liveAnonymize emptyMemory none closedContext [1]).1 = false ∧
      (liveAnonymize emptyMemory none closedContext [1]).2.2 = [1] := by
  decide

end OpenDmi

import OpenDmi.Anonymize
import OpenDmi.ScanTiles

namespace OpenDmi

open Bytes Occurrences

variable {σ : Type} {visit : Attribute → ℕ → σ × Memory → Option (σ × Memory)}
  {I : σ → Prop} {W : Memory → Prop}

lemma walkElements_inv {S : Type} {step : ℕ → S → Option S} {J : S → Prop}
    (hstep : ∀ i s t, J s → step i s = some t → J t) {count i : ℕ} {s t : S} (hs : J s)
    (h : walkElements step count i s = some t) : J t := by
  induction count generalizing i s with
  | zero =>
    rw [walkElements, Option.some.injEq] at h
    exact h ▸ hs
  | succ count ih =>
    rw [walkElements] at h
    obtain ⟨middle, hmiddle, hrest⟩ := Option.bind_eq_some_iff.mp h
    exact ih (hstep i s middle hs hmiddle) hrest

/-- What the visits keep, the walk keeps: `I` of the state, and `W` of the memory and of the blocks
it points to. -/
structure WalkKeeps (visit : Attribute → ℕ → σ × Memory → Option (σ × Memory)) (I : σ → Prop)
    (W : Memory → Prop) : Prop where
  visit : ∀ attr offset s t, I s.1 ∧ W s.2 → visit attr offset s = some t → I t.1 ∧ W t.2
  block : ∀ m offset number pointer, W m → m.pointer offset = .elements number pointer →
    W ⟨number, pointer⟩
  setPointer : ∀ m offset b, W m → W b → W (m.setPointer offset (.elements b.number b.pointer))

def attributeWalkValue (visit : Attribute → ℕ → σ × Memory → Option (σ × Memory))
    (attr : Attribute) (offset : ℕ) (s : σ × Memory) : Option (σ × Memory) :=
  if attr.type = .struct then attributesWalk visit offset attr.attrs s else visit attr offset s

lemma attributeWalk_cases {base : ℕ} {attr : Attribute} {s t : σ × Memory}
    (h : attributeWalk visit base attr s = some t) :
    t = s ∨ (∃ count position, walkElements (fun i => attributeWalkValue visit attr
        (position + i * attr.value.size)) count 0 s = some t) ∨
      (∃ number pointer count block, s.2.pointer (base + attr.value.offset) =
          .elements number pointer ∧
        walkElements (fun i => attributeWalkValue visit attr (i * attr.value.size)) count 0
          (s.1, ⟨number, pointer⟩) = some block ∧
        t = (block.1, s.2.setPointer (base + attr.value.offset)
          (.elements block.2.number block.2.pointer))) ∨
      attributeWalkValue visit attr (base + attr.value.offset) s = some t := by
  cases attr with
  | mk value type counter count unspec unknown isPrivate isMac targets link selector isDefault attrs
      variants =>
    rw [attributeWalk] at h
    simp only at h
    by_cases harray : attributeIsArray ⟨value, type, counter, count, unspec, unknown, isPrivate,
      isMac, targets, link, selector, isDefault, attrs, variants⟩ = true
    · rw [if_pos harray] at h
      by_cases hcount : count ≠ 0
      · rw [if_pos hcount] at h
        exact .inr (.inl ⟨_, _, h⟩)
      · rw [if_neg hcount] at h
        cases hp : s.2.pointer (base + value.offset) with
        | ref r =>
          rw [hp, Option.some.injEq] at h
          exact .inl h.symm
        | elements number pointer =>
          rw [hp] at h
          obtain ⟨block, hblock, rfl⟩ := Option.map_eq_some_iff.mp h
          exact .inr (.inr (.inl ⟨number, pointer, _, block, rfl, hblock, rfl⟩))
    · rw [if_neg harray] at h
      exact .inr (.inr (.inr h))

lemma attributeWalk_inv (hk : WalkKeeps visit I W) {attr : Attribute} {base : ℕ} {s t : σ × Memory}
    (hattrs : ∀ base s t, I s.1 ∧ W s.2 → attributesWalk visit base attr.attrs s = some t →
      I t.1 ∧ W t.2)
    (hs : I s.1 ∧ W s.2) (h : attributeWalk visit base attr s = some t) : I t.1 ∧ W t.2 := by
  have hvalue : ∀ offset s t, I s.1 ∧ W s.2 → attributeWalkValue visit attr offset s = some t →
      I t.1 ∧ W t.2 := by
    intro offset s t hs h
    rw [attributeWalkValue] at h
    split_ifs at h
    · exact hattrs _ _ _ hs h
    · exact hk.visit _ _ _ _ hs h
  obtain rfl | ⟨count, position, h⟩ | ⟨number, pointer, count, block, hp, hw, rfl⟩ | h :=
    attributeWalk_cases h
  · exact hs
  · exact walkElements_inv (J := fun s => I s.1 ∧ W s.2)
      (fun i s t hs h => hvalue _ s t hs h) hs h
  · have hend : I block.1 ∧ W block.2 :=
      walkElements_inv (J := fun s => I s.1 ∧ W s.2)
        (fun i s t hs h => hvalue _ s t hs h) ⟨hs.1, hk.block _ _ _ _ hs.2 hp⟩ hw
    exact ⟨hend.1, hk.setPointer _ _ _ hs.2 hend.2⟩
  · exact hvalue _ _ _ hs h

mutual

theorem attributesWalk_inv (hk : WalkKeeps visit I W) : ∀ (attrs : List Attribute) (base : ℕ)
    (s t : σ × Memory), I s.1 ∧ W s.2 → attributesWalk visit base attrs s = some t → I t.1 ∧ W t.2
  | [], base, s, t, hs, h => by
    rw [attributesWalk, Option.some.injEq] at h
    exact h ▸ hs
  | attr :: rest, base, s, t, hs, h => by
    have hrest := attributesWalk_inv hk rest base
    rw [attributesWalk] at h
    split_ifs at h with hv
    · cases hr : attributeResolve (attributeReadInt attr.value
          (s.2.number (base + attr.value.offset))) attr.variants 0 none with
      | none =>
        rw [hr] at h
        exact hrest s t hs h
      | some i =>
        rw [hr] at h
        obtain ⟨middle, hmiddle, h⟩ := Option.bind_eq_some_iff.mp h
        exact hrest middle t (attributeWalkVariant_inv hk attr base i s middle hs hmiddle) h
    · obtain ⟨middle, hmiddle, h⟩ := Option.bind_eq_some_iff.mp h
      exact hrest middle t (attributeWalkAttrs_inv hk attr base s middle hs hmiddle) h

theorem attributeWalkVariant_inv (hk : WalkKeeps visit I W) : ∀ (attr : Attribute) (base i : ℕ)
    (s t : σ × Memory), I s.1 ∧ W s.2 → attributeWalkVariant visit base i attr s = some t →
      I t.1 ∧ W t.2
  | ⟨_, _, _, _, _, _, _, _, _, _, _, _, _, variants⟩, base, i, s, t, hs, h => by
    rw [attributeWalkVariant] at h
    exact attributesWalkAt_inv hk variants base i s t hs h

theorem attributesWalkAt_inv (hk : WalkKeeps visit I W) : ∀ (attrs : List Attribute) (base i : ℕ)
    (s t : σ × Memory), I s.1 ∧ W s.2 → attributesWalkAt visit base i attrs s = some t →
      I t.1 ∧ W t.2
  | [], base, i, s, t, hs, h => by
    rw [attributesWalkAt, Option.some.injEq] at h
    exact h ▸ hs
  | attr :: rest, base, 0, s, t, hs, h => by
    rw [attributesWalkAt] at h
    exact attributeWalkAttrs_inv hk attr base s t hs h
  | attr :: rest, base, i + 1, s, t, hs, h => by
    rw [attributesWalkAt] at h
    exact attributesWalkAt_inv hk rest base i s t hs h

theorem attributeWalkAttrs_inv (hk : WalkKeeps visit I W) : ∀ (attr : Attribute) (base : ℕ)
    (s t : σ × Memory), I s.1 ∧ W s.2 → attributeWalk visit base attr s = some t → I t.1 ∧ W t.2
  | ⟨_, _, _, _, _, _, _, _, _, _, _, _, attrs, _⟩, _, _, _, hs, h =>
    attributeWalk_inv hk (fun base s t => attributesWalk_inv hk attrs base s t) hs h

end

end OpenDmi

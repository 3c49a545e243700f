import OpenDmi.DecodeKeeps
import OpenDmi.EncodeValue

namespace OpenDmi

open Bytes

variable {source : Source} {version base size bound : ℕ} {field : Field} {fields : List Field}
  {info : Memory} {out : EncodeState} {state next : DecodeState}

def Advances (bound : ℕ) (state next : DecodeState) : Prop :=
  state.position ≤ next.position ∧ (bound ≠ 0 → next.position ≤ state.position + bound)

def Follows (source : Source) (bound : ℕ) (state next : DecodeState) (out : EncodeState) : Prop :=
  (InStep source 0 next out ∧ Advances bound state next) ∨ Stopped source out

def ListEncodes (source : Source) (version size : ℕ) (fields : List Field) : Prop :=
  ∀ base state next out info, decodeList source base fields state = (true, next) →
    next.isIncomplete = false → InStep source 0 state out →
    (∀ offset, ¬ Beyond base size offset → SameAt info next.memory offset) →
    ∃ after, encodeList (preserving source version) base info fields out = some after ∧
      Follows source (fieldsSize fields 0 0) state next after

lemma nested_encodes (hlist : ListEncodes source version size fields)
    (h : nested (decodeList source base fields) state = (true, next))
    (hc : next.isIncomplete = false) (hin : InStep source 0 state out)
    (hinfo : ∀ offset, ¬ Beyond base size offset → SameAt info next.memory offset) :
    ∃ after, encodeList (preserving source version) base info fields out = some after ∧
      Follows source (fieldsSize fields 0 0) state next after := by
  obtain ⟨middle, hread, rfl⟩ := nested_true h
  obtain ⟨after, hafter, hfollows⟩ := hlist base { state with optional := false } middle out info
    hread hc (hin.congr rfl rfl rfl rfl) hinfo
  refine ⟨after, hafter, hfollows.imp_left fun ⟨hstep, hbound⟩ => ⟨?_, hbound⟩⟩
  exact hstep.congr rfl rfl rfl rfl

lemma InStep.written_length (h : InStep source 0 state out) :
    out.written.length = state.position := by
  have hpos := h.aligned.1
  have hbound := h.held.bound
  have hheader := h.header
  have hbegun := h.begun
  have hlen := congrArg List.length h.written
  rw [List.length_drop, window_length (by omega)] at hlen
  omega

lemma element_encodes {stride : ℕ} (hlist : ListEncodes source version size fields)
    (hsize : stride ≠ 0 → 0 < fieldsSize fields 0 0 ∧ fieldsSize fields 0 0 ≤ stride)
    (h : decodeElement source (decodeList source base fields) stride state = (true, next))
    (hc : next.isIncomplete = false) (hin : InStep source 0 state out)
    (hinfo : ∀ offset, ¬ Beyond base size offset → SameAt info next.memory offset) :
    ∃ after, encodeElement (preserving source version)
        (encodeList (preserving source version) base info fields) stride out = some after ∧
      Follows source 0 state next after := by
  obtain ⟨middle, hread, hnext⟩ := decodeElement_true h
  have hmemory : next.memory = middle.memory ∧ next.isIncomplete = middle.isIncomplete := by
    rcases hnext with ⟨-, rfl⟩ | ⟨-, -, rfl⟩ <;> exact ⟨rfl, rfl⟩
  rw [hmemory.2] at hc
  rw [hmemory.1] at hinfo
  obtain ⟨after, hafter, hfollows⟩ := nested_encodes hlist hread hc hin hinfo
  rw [encodeElement, hafter, Option.map_some]
  refine ⟨_, rfl, ?_⟩
  rcases hfollows with ⟨hstep, hbound⟩ | hstopped
  · rw [if_neg (by simp [hstep.going]), hstep.written_length, hin.written_length]
    rcases hnext with ⟨rfl, rfl⟩ | ⟨hstride, hfits, rfl⟩
    · exact .inl ⟨by simpa using hstep, hbound.1, fun h0 => absurd rfl h0⟩
    · obtain ⟨hback, hmoved⟩ := hbound
      obtain ⟨hpositive, hlong⟩ := hsize hstride
      have hmoved' := hmoved (by omega)
      obtain ⟨hpos, hcount, -, hvalue, -⟩ := hstep.aligned
      have hadvance : InStep source 0 { middle with position := state.position + stride }
          (after.upTo source (state.position + stride)) :=
        hstep.advance (by omega) hfits rfl ⟨rfl, rfl, rfl⟩
      split_ifs with hshort
      · have hend : after.position + (stride - (middle.position - state.position)) =
            state.position + stride := by omega
        rw [encoderCopy_source hstep.toOnSource hcount hvalue (by omega), hend]
        exact .inl ⟨hadvance, by simp only; omega, fun h0 => absurd rfl h0⟩
      · have hend : state.position + stride = after.position := by omega
        rw [hend, hstep.toOnSource.upTo_self] at hadvance
        rw [hend]
        exact .inl ⟨hadvance, by simp only; omega, fun h0 => absurd rfl h0⟩
  · rw [if_pos hstopped.stopped]
    exact .inr hstopped

section Loops

variable {σ : Type} {proj : σ → DecodeState} {step : ℕ → σ → Bool × σ}
  {put : ℕ → EncodeState → Option EncodeState} {start count i : ℕ} {s t final : σ}

lemma loop_keeps
    (hkeeps : ∀ j s t, step j s = (true, t) →
      Keeps (Beyond (start + j * size) size) (proj s) (proj t))
    (h : repeatWhile step count i s = (true, t)) :
    Keeps (fun offset => offset < start + i * size) (proj s) (proj t) := by
  refine repeatWhile_rel (R := fun s t =>
      Keeps (fun offset => offset < start + i * size) (proj s) (proj t)) (fun _ => Keeps.refl _ _)
    (fun _ _ _ => Keeps.trans) (fun j s t hij _ hs => ?_) h
  refine (hkeeps j s t hs).mono fun offset ho => .inl ?_
  have hle := Nat.mul_le_mul_right size hij
  omega

lemma loop_encodes (proj : σ → DecodeState) (start size bound : ℕ)
    (put : ℕ → EncodeState → Option EncodeState)
    (hkeeps : ∀ j s t, step j s = (true, t) →
      Keeps (Beyond (start + j * size) size) (proj s) (proj t))
    (hstep : ∀ j s t out, step j s = (true, t) → (proj t).isIncomplete = false →
      InStep source 0 (proj s) out →
      (∀ offset, ¬ Beyond (start + j * size) size offset → SameAt info (proj t).memory offset) →
      ∃ after, put j out = some after ∧ Follows source bound (proj s) (proj t) after)
    (h : repeatWhile step count i s = (true, final)) (hc : (proj final).isIncomplete = false)
    (hin : InStep source 0 (proj s) out)
    (hinfo : ∀ offset, start + i * size ≤ offset → offset < start + (i + count) * size →
      SameAt info (proj final).memory offset) :
    ∃ after, repeatUntilStopped put count i out = some after ∧
      ((InStep source 0 (proj final) after ∧ (proj s).position ≤ (proj final).position ∧
        (bound ≠ 0 → (proj final).position ≤ (proj s).position + bound * count)) ∨
        Stopped source after) := by
  induction count generalizing i s out with
  | zero =>
    cases h
    exact ⟨out, rfl, .inl ⟨hin, le_rfl, fun _ => by omega⟩⟩
  | succ count ih =>
    obtain ⟨middle, hs, hrest⟩ := repeatWhile_succ h
    have hlater := loop_keeps hkeeps hrest
    have hend : start + (i + 1) * size = start + i * size + size := by ring
    have hle : (i + 1) * size ≤ (i + (count + 1)) * size := Nat.mul_le_mul_right _ (by omega)
    obtain ⟨after, hafter, hfollows⟩ := hstep i s middle out hs (hlater.complete hc) hin
      fun offset ho => by
        simp only [Beyond, not_or, not_lt, not_le] at ho
        exact (hinfo offset ho.1 (by omega)).trans (hlater.same hc offset (by omega))
    rw [repeatUntilStopped, if_neg (by simp [hin.going]), hafter, Option.bind_some]
    rcases hfollows with ⟨hmiddle, hon, hbound⟩ | hstopped
    · obtain ⟨last, hlast, hfollows⟩ := ih hrest hmiddle fun offset hlo hhi =>
        hinfo offset (by omega) (by rwa [show i + (count + 1) = i + 1 + count by omega])
      refine ⟨last, hlast, hfollows.imp_left fun hlater =>
        ⟨hlater.1, hon.trans hlater.2.1, fun h0 => ?_⟩⟩
      have h1 := hbound h0
      have h2 := hlater.2.2 h0
      rw [Nat.mul_succ]
      omega
    · refine ⟨after, ?_, .inr hstopped⟩
      cases count with
      | zero => rfl
      | succ count => rw [repeatUntilStopped, if_pos hstopped.stopped]

end Loops

lemma vector_encodes {start count : ℕ} (hkeeps : ListKeeps source size fields)
    (hlist : ListEncodes source version size fields)
    (h : repeatWhile (fun i => nested (decodeList source (start + i * size) fields)) count 0 state =
      (true, next)) (hc : next.isIncomplete = false) (hin : InStep source 0 state out)
    (hinfo : ∀ offset, start ≤ offset → offset < start + count * size →
      SameAt info next.memory offset) :
    ∃ after, repeatUntilStopped (fun i =>
        encodeList (preserving source version) (start + i * size) info fields) count 0 out =
        some after ∧
      ((InStep source 0 next after ∧ state.position ≤ next.position ∧
        (fieldsSize fields 0 0 ≠ 0 →
          next.position ≤ state.position + fieldsSize fields 0 0 * count)) ∨
        Stopped source after) :=
  loop_encodes id start size _ _ (fun _ _ _ hs => nested_keeps hkeeps hs)
    (fun _ _ _ _ hs hc hin hinfo => nested_encodes hlist hs hc hin hinfo) h hc hin
    fun offset hlo hhi => hinfo offset (by omega) (by rwa [Nat.zero_add] at hhi)

lemma elements_encode {stride count : ℕ} {before : DecodeState}
    (hkeeps : ListKeeps source size fields) (hlist : ListEncodes source version size fields)
    (hsize : stride ≠ 0 → 0 < fieldsSize fields 0 0 ∧ fieldsSize fields 0 0 ≤ stride)
    (h : repeatWhile (elementStep source (fun i => decodeList source (i * size) fields) stride)
      count 0 (0, before) = (true, count, next)) (hc : next.isIncomplete = false)
    (hin : InStep source 0 before out) (hinfo : ∀ offset, SameAt info next.memory offset) :
    ∃ after, repeatUntilStopped (fun i => encodeElement (preserving source version)
        (encodeList (preserving source version) (i * size) info fields) stride) count 0 out =
        some after ∧
      ((InStep source 0 next after ∧ before.position ≤ next.position) ∨ Stopped source after) := by
  obtain ⟨after, hafter, hfollows⟩ := loop_encodes Prod.snd 0 size 0
    (fun i => encodeElement (preserving source version)
      (encodeList (preserving source version) (i * size) info fields) stride)
    (fun j s t hs => by
      rw [Nat.zero_add]
      exact decodeElement_keeps hkeeps (elementStep_true hs).2)
    (fun j s t out hs hc hin hinfo => by
      rw [Nat.zero_add] at hinfo
      exact element_encodes hlist hsize (elementStep_true hs).2 hc hin hinfo)
    h hc hin (fun offset _ _ => hinfo offset)
  exact ⟨after, hafter, hfollows.imp_left fun ⟨hnext, hon, _⟩ => ⟨hnext, hon⟩⟩

end OpenDmi

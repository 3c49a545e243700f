import OpenDmi.DecodeRule
import OpenDmi.FirstPass

namespace OpenDmi

open Bytes

variable {n : ℕ} {memory : Memory}

def Ref.Within (n : ℕ) : Ref → Prop
  | .data (some position) bytes => headerSize ≤ position ∧ position + bytes.length ≤ n
  | _ => True

inductive Pointer.Within (n : ℕ) : Pointer → Prop
  | ref {r : Ref} : r.Within n → Pointer.Within n (.ref r)
  | elements {number : ℕ → UInt64} {pointer : ℕ → Pointer} :
      (∀ offset, Pointer.Within n (pointer offset)) → Pointer.Within n (.elements number pointer)

def Memory.Within (n : ℕ) (memory : Memory) : Prop := ∀ offset, (memory.pointer offset).Within n

lemma Memory.Within.setPointer (h : memory.Within n) {p : Pointer} (hp : p.Within n)
    (offset : ℕ) : (memory.setPointer offset p).Within n := by
  intro at'
  simp only [Memory.setPointer, Function.update_apply]
  split_ifs
  · exact hp
  · exact h at'

lemma Memory.Within.zero : Memory.zero.Within n := fun _ => .ref trivial

lemma within_closed (n : ℕ) : MemoryClosed (Memory.Within n) where
  number _ _ _ h := h
  block m offset number pointer h hp := by
    have hblock := h offset
    rw [hp] at hblock
    cases hblock with
    | elements hall => exact hall
  setPointer m offset b h hb := h.setPointer (.elements hb) offset

def Value.Refers (binary : Binary) : Value → Prop
  | .ref (.data (some position) bytes) =>
    binary.position = some position ∧ bytes.length ≤ binary.bytes.length
  | _ => True

structure RefersToRead (field : Field) : Prop where
  decode : ∀ decode, field.params.decode = some decode → ∀ data writes,
    decode data = some writes → ∀ write ∈ writes, write.2.Refers data.binary
  absent : ∀ value, field.params.absent = some value → value.Refers ⟨none, []⟩

lemma Memory.Within.write (h : memory.Within n) {binary : Binary} {value : Value} (offset : ℕ)
    (hv : value.Refers binary)
    (hb : ∀ position, binary.position = some position →
      headerSize ≤ position ∧ position + binary.bytes.length ≤ n) :
    (memory.write offset value).Within n := by
  cases value with
  | number => exact h
  | ref r =>
    refine h.setPointer (.ref ?_) offset
    cases r with
    | null => trivial
    | text => trivial
    | data position bytes =>
      cases position with
      | none => trivial
      | some position =>
        obtain ⟨hposition, hlen⟩ := hv
        have hin := hb position hposition
        exact ⟨hin.1, by omega⟩

lemma Memory.Within.writes (h : memory.Within n) {binary : Binary} {writes : Writes} (base : ℕ)
    (hw : ∀ write ∈ writes, write.2.Refers binary)
    (hb : ∀ position, binary.position = some position →
      headerSize ≤ position ∧ position + binary.bytes.length ≤ n) :
    (memory.writes base writes).Within n := by
  induction writes generalizing memory with
  | nil => exact h
  | cons write writes ih =>
    exact ih (h.write _ (hw write List.mem_cons_self) hb)
      fun w hm => hw w (List.mem_cons_of_mem _ hm)

lemma fieldApply_refers {field : Field} (hf : RefersToRead field) {data : FieldData}
    {writes : Writes} (hs : ∀ position bytes, data.string ≠ .data position bytes)
    (h : fieldApply field data = some writes) :
    ∀ write ∈ writes, write.2.Refers data.binary := by
  have hstore : ∀ raw, (memberStore field.member raw).map (fun n => [(0, Value.number n)]) =
      some writes → ∀ write ∈ writes, write.2.Refers data.binary := by
    intro raw h write hm
    obtain ⟨number, -, rfl⟩ := Option.map_eq_some_iff.mp h
    rw [List.mem_singleton.mp hm]
    trivial
  rw [fieldApply] at h
  simp only at h
  by_cases hu : field.params.unknownRaw ≠ 0 ∧ data.number = field.params.unknownRaw ∧
    fieldIsNumeric field = true
  · rw [if_pos hu] at h
    exact hstore _ h
  rw [if_neg hu] at h
  cases hd : field.params.decode with
  | some decode =>
    rw [hd] at h
    exact hf.decode decode hd data writes h
  | none =>
    simp only [hd] at h
    cases ht : field.type with
    | string =>
      simp only [ht, Option.some.injEq] at h
      subst h
      intro write hm
      rw [List.mem_singleton.mp hm]
      cases hr : data.string with
      | null => trivial
      | text => trivial
      | data position bytes => exact absurd hr (hs position bytes)
    | binary =>
      simp only [ht, Option.some.injEq] at h
      subst h
      intro write hm
      rcases List.mem_cons.mp hm with rfl | hm
      · simp only
        split_ifs
        · trivial
        · cases hp : data.binary.position with
          | none => trivial
          | some position => exact ⟨hp, le_rfl⟩
      · rw [List.mem_singleton.mp hm]
        trivial
    | _ =>
      simp only [ht] at h
      exact hstore _ h

def StateWithin (n : ℕ) (state : DecodeState) : Prop :=
  headerSize ≤ state.position ∧ state.memory.Within n

lemma within_invariant (source : Source) :
    DecodeInvariant source RefersToRead (StateWithin source.body.length) where
  read _ _ h _ := ⟨h.1.trans (Nat.le_add_right _ _), h.2⟩
  bits _ _ _ _ h := h
  control _ _ _ _ _ h := h
  incomplete s h := by
    rw [decoderIncomplete]
    split_ifs
    · exact h
    · exact h
  stop s h := by
    rw [decoderStop, decoderIncomplete]
    split_ifs
    · exact h
    · exact h
    · exact h
  number _ _ _ h := h
  apply s f data base writes h hf hd hw :=
    ⟨h.1, h.2.writes base (fieldApply_refers hf hd.string hw) (by simp [hd.binary])⟩
  binary s f n base writes h hf hn hw := by
    refine ⟨h.1.trans (Nat.le_add_right _ _), h.2.writes base
      (fieldApply_refers hf (fun _ _ => Ref.noConfusion) hw) fun position hp => ?_⟩
    simp only [binaryAt] at hp ⊢
    rw [window_length hn]
    split_ifs at hp
    obtain rfl := Option.some.inj hp
    exact ⟨h.1, hn⟩
  preset s f o value h hf ha := ⟨h.1, h.2.write o (hf.absent value ha) (by simp)⟩
  enter _ h := ⟨h.1, Memory.Within.zero⟩
  leave _ _ o h h' := ⟨h'.1, h.2.setPointer (.elements h'.2) o⟩
  rewind _ _ _ h h' _ := ⟨h.1.trans (Nat.le_add_right _ _), h'.2⟩

lemma fieldsDecode_within {source : Source} {fields : List Field}
    (hf : ∀ f ∈ fields, FieldTree RefersToRead f) (level : ℕ) :
    (fieldsDecode source fields level).2.memory.Within source.body.length :=
  ((within_invariant source).decodeList hf
    ⟨le_rfl, Memory.Within.zero⟩).2

end OpenDmi

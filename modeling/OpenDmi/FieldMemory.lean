import OpenDmi.FieldEncode

namespace OpenDmi

open Bytes

variable {a b c memory : Memory} {base offset : ℕ} {field : Field} {data : FieldData}

def SameAt (a b : Memory) (offset : ℕ) : Prop :=
  a.number offset = b.number offset ∧ a.pointer offset = b.pointer offset

lemma SameAt.refl (a : Memory) (offset : ℕ) : SameAt a a offset := ⟨rfl, rfl⟩

lemma SameAt.symm (h : SameAt a b offset) : SameAt b a offset := ⟨h.1.symm, h.2.symm⟩

lemma SameAt.trans (h : SameAt a b offset) (h' : SameAt b c offset) : SameAt a c offset :=
  ⟨h.1.trans h'.1, h.2.trans h'.2⟩

lemma SameAt.holds (h : SameAt a b offset) (value : Value) :
    a.holds offset value = b.holds offset value := by
  cases value <;> simp [Memory.holds, h.1, h.2]

lemma SameAt.load {member : Member} (h : SameAt a b (base + member.offset)) :
    a.load base member = b.load base member := by
  rw [Memory.load, Memory.load, h.1]

lemma setNumber_sameAt {n : UInt64} {at' : ℕ} (h : offset ≠ at') :
    SameAt (memory.setNumber at' n) memory offset :=
  ⟨by simp [Memory.setNumber, h], rfl⟩

lemma setPointer_sameAt {p : Pointer} {at' : ℕ} (h : offset ≠ at') :
    SameAt (memory.setPointer at' p) memory offset :=
  ⟨rfl, by simp [Memory.setPointer, h]⟩

lemma write_sameAt {value : Value} {at' : ℕ} (h : offset ≠ at') :
    SameAt (memory.write at' value) memory offset := by
  cases value with
  | number n => exact setNumber_sameAt h
  | ref r => exact setPointer_sameAt h

lemma writes_sameAt {writes : Writes} (h : ∀ write ∈ writes, offset ≠ base + write.1) :
    SameAt (memory.writes base writes) memory offset := by
  induction writes generalizing memory with
  | nil => exact SameAt.refl _ _
  | cons write rest ih =>
    obtain ⟨at', value⟩ := write
    exact (ih fun w hw => h w (List.mem_cons_of_mem _ hw)).trans
      (write_sameAt (h _ List.mem_cons_self))

lemma holds_write (memory : Memory) (offset : ℕ) (value : Value) :
    (memory.write offset value).holds offset value = true := by
  cases value <;> simp [Memory.write, Memory.holds, Memory.setNumber, Memory.setPointer]

lemma storeUuid_sameAt {bytes : List Byte} (h : offset ≠ base) (h' : offset ≠ base + 8) :
    SameAt (memory.storeUuid base bytes) memory offset :=
  (setNumber_sameAt h').trans (setNumber_sameAt h)

lemma presetAll_sameAt {fields : List Field}
    (h : ∀ field ∈ fields, field.params.absent.isSome → memberIsPresent field.member = true →
      offset ≠ base + field.member.offset) :
    SameAt (presetAll base fields memory) memory offset := by
  induction fields generalizing memory with
  | nil => exact SameAt.refl _ _
  | cons field rest ih =>
    have hrest := fun f hf => h f (List.mem_cons_of_mem field hf)
    rw [presetAll]
    cases habsent : field.params.absent with
    | none => exact ih hrest
    | some value =>
      simp only
      split_ifs with hp
      · exact (ih hrest).trans
          (write_sameAt (h field List.mem_cons_self (by simp [habsent]) hp))
      · exact ih hrest

lemma fieldApply_single (hh : ∀ decode, field.params.decode = some decode → ∀ data writes,
    decode data = some writes → ∃ value, writes = [(0, value)])
    (hb : field.params.decode = none → field.type ≠ .binary) {writes : Writes}
    (h : fieldApply field data = some writes) : ∃ value, writes = [(0, value)] := by
  have hstore : ∀ raw, (memberStore field.member raw).map (fun n => [(0, Value.number n)]) =
      some writes → ∃ value, writes = [(0, value)] := by
    intro raw hs
    obtain ⟨n, -, hn⟩ := Option.map_eq_some_iff.mp hs
    exact ⟨.number n, hn.symm⟩
  rw [fieldApply] at h
  by_cases hu : field.params.unknownRaw ≠ 0 ∧ data.number = field.params.unknownRaw ∧
      fieldIsNumeric field = true
  · rw [if_pos hu] at h
    exact hstore _ h
  · rw [if_neg hu] at h
    cases hd : field.params.decode with
    | some decode =>
      rw [hd] at h
      exact hh decode hd data writes h
    | none =>
      simp only [hd] at h
      have hbin := hb hd
      cases ht : field.type <;> simp only [ht] at h <;>
        first
        | exact hstore _ h
        | exact absurd ht hbin
        | (simp only [Option.some.injEq] at h; exact ⟨_, h.symm⟩)

lemma fieldApply_binary (ht : field.type = .binary) (hd : field.params.decode = none) :
    fieldApply field data = some
      [(0, .ref (if data.binary.bytes = [] then .null
          else .data data.binary.position data.binary.bytes)),
        (binaryLengthOffset, .number (UInt64.ofNat data.binary.bytes.length))] := by
  simp [fieldApply, hd, ht, fieldIsNumeric]

end OpenDmi

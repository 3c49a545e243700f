import OpenDmi.FirstUse
import OpenDmi.StructureBytes

namespace OpenDmi

open Bytes FirstUse

variable {source : Source} {version : ℕ} {names : List (List Byte)} {raw : List Byte}
  {state out : EncodeState}

/-- The pointers a string may be given by: the two of each string of the structure, and others. -/
inductive GivenString (source : Source)
  | null
  | stored (i : Fin source.strings.length) (raw : Bool)
  | made (text : CString)

def GivenString.ref : GivenString source → Ref
  | .null => .null
  | .stored i raw => .text (some i)
      (if raw then source.strings[i].raw else source.strings[i].pretty)
  | .made text => .text none text.bytes

def GivenString.text : GivenString source → Option (List Byte)
  | .null => none
  | .stored i _ => some source.strings[i].raw
  | .made text => some text.bytes

inductive EncoderWrite (source : Source)
  | string (value : GivenString source)
  | bytes (data : List Byte)

def EncoderWrite.text : EncoderWrite source → Option (List Byte)
  | .string value => value.text
  | .bytes _ => none

def encoderWrite (version : ℕ) (state : EncodeState) : EncoderWrite source → Option EncodeState
  | .string value => putString (anew source version) value.ref state
  | .bytes data => some (putBytes (anew source version) data state)

def encoderWrites (version : ℕ) (writes : List (EncoderWrite source)) : Option EncodeState :=
  writes.foldlM (encoderWrite version) (encoderInitialize (anew source version))

def stringNumber (names : List (List Byte)) (value : GivenString source) : ℕ :=
  (value.text.map (number names)).getD 0

def EncoderWrite.written (names : List (List Byte)) : EncoderWrite source → List Byte
  | .string value => [UInt8.ofNat (stringNumber names value)]
  | .bytes data => data

lemma addString_remember (h : state.strings = names.map some) :
    addString (anew source version) (some raw) state =
      (number (remember names raw) raw,
        { state with strings := (remember names raw).map some }) := by
  have hcanonical : (anew source version).mode = .canonical := rfl
  have hfind := @findIdx?_number (List Byte) _ raw (· == some raw) (fun x => beq_iff_eq) names
  rw [addString, hcanonical, h, hfind]
  by_cases hm : raw ∈ names
  · simp [number, remember, hm, ← h]
  · simp [number, remember, hm, List.idxOf_append_of_notMem]

lemma putString_text {value : GivenString source} (htext : value.text = some raw)
    (h : state.strings = names.map some) :
    putString (anew source version) value.ref state =
      if number (remember names raw) raw > 255 then none
      else some (putBytes (anew source version)
        [UInt8.ofNat (number (remember names raw) raw)]
        { state with strings := (remember names raw).map some }) := by
  have hadd : addString (anew source version) (some raw) state =
      (number (remember names raw) raw,
        { state with strings := (remember names raw).map some }) := addString_remember h
  cases value with
  | null => simp [GivenString.text] at htext
  | stored i asStored =>
    obtain rfl : source.strings[i].raw = raw := Option.some.inj htext
    have hget : source.strings[(i : ℕ)]? = some source.strings[i] :=
      List.getElem?_eq_getElem i.isLt
    simp only [putString, GivenString.ref, Option.bind_some, hget, Option.map_some, hadd]
  | made made =>
    obtain rfl : made.bytes = raw := Option.some.inj htext
    simp only [putString, GivenString.ref, Option.bind_none, hadd]

structure StringsWritten (version : ℕ) (writes : List (EncoderWrite source)) (names : List (List Byte))
    (state : EncodeState) : Prop where
  strings : state.strings = names.map some
  bytes : state.written = (encoderInitialize (anew source version)).written ++
    writes.flatMap (·.written names)
  short : names.length ≤ 255

def namesAfter (names : List (List Byte)) (write : EncoderWrite source) : List (List Byte) :=
  (write.text.map (remember names)).getD names

lemma length_namesAfter (names : List (List Byte)) (write : EncoderWrite source) :
    names.length ≤ (namesAfter names write).length := by
  rw [namesAfter]
  cases write.text with
  | none => exact le_rfl
  | some raw => exact (remember_grown names raw).length_le

lemma FirstUses_after {texts : List (List Byte)} (h : FirstUses texts names)
    (write : EncoderWrite source) :
    FirstUses (texts ++ write.text.toList) (namesAfter names write) := by
  cases htext : write.text with
  | none => simpa [namesAfter, htext] using h
  | some raw => simpa [namesAfter, htext] using h.step raw

lemma written_after {write : EncoderWrite source} (hm : ∀ raw ∈ write.text, raw ∈ names)
    (next : EncoderWrite source) : write.written (namesAfter names next) = write.written names := by
  cases write with
  | bytes data => rfl
  | string value =>
    have hsame : stringNumber (namesAfter names next) value = stringNumber names value := by
      rw [stringNumber, stringNumber, namesAfter]
      cases hvalue : value.text with
      | none => rfl
      | some raw =>
        have hraw : raw ∈ names := hm raw hvalue
        cases next.text with
        | none => rfl
        | some other => exact number_remember hraw
    rw [EncoderWrite.written, EncoderWrite.written, hsame]

lemma StringsWritten.step {writes : List (EncoderWrite source)}
    (h : StringsWritten version writes names state)
    (huses : FirstUses (writes.filterMap (·.text)) names) (write : EncoderWrite source) :
    (encoderWrite version state write = none ∧ 255 < (namesAfter names write).length) ∨
      ∃ next, encoderWrite version state write = some next ∧
        StringsWritten version (writes ++ [write]) (namesAfter names write) next := by
  have hbefore : writes.flatMap (·.written (namesAfter names write)) =
      writes.flatMap (·.written names) := by
    refine List.flatMap_congr fun earlier hm => written_after (fun raw hraw => ?_) write
    exact (huses.all raw).mpr (List.mem_filterMap.mpr ⟨earlier, hm, hraw⟩)
  have hbytes : state.written ++ write.written (namesAfter names write) =
      (encoderInitialize (anew source version)).written ++
        (writes ++ [write]).flatMap (·.written (namesAfter names write)) := by
    rw [List.flatMap_append, hbefore, List.flatMap_singleton, ← List.append_assoc, h.bytes]
  cases write with
  | bytes data => exact .inr ⟨_, rfl, h.strings, hbytes, h.short⟩
  | string value =>
    cases hvalue : value.text with
    | none =>
      have hnull : value = .null := by cases value <;> simp_all [GivenString.text]
      subst hnull
      exact .inr ⟨_, rfl, h.strings, hbytes, h.short⟩
    | some raw =>
      have hafter : namesAfter names (.string value) = remember names raw := by
        simp [namesAfter, EncoderWrite.text, hvalue]
      have hnumber : stringNumber (remember names raw) value =
          number (remember names raw) raw := by
        simp [stringNumber, hvalue]
      have hle : number (remember names raw) raw ≤ (remember names raw).length :=
        number_le (mem_remember.mpr (.inr rfl))
      have hput : putString (anew source version) value.ref state =
          if number (remember names raw) raw > 255 then none
          else some (putBytes (anew source version)
            [UInt8.ofNat (number (remember names raw) raw)]
            { state with strings := (remember names raw).map some }) :=
        putString_text hvalue h.strings
      rw [hafter] at hbytes ⊢
      by_cases hlong : number (remember names raw) raw > 255
      · rw [if_pos hlong] at hput
        exact .inl ⟨hput, hlong.trans_le hle⟩
      · rw [if_neg hlong] at hput
        refine .inr ⟨_, hput, rfl, ?_, ?_⟩
        · rw [← hbytes, EncoderWrite.written, hnumber]
          rfl
        · rw [length_remember]
          exact max_le h.short (not_lt.mp hlong)

lemma encoderWrites_names (version : ℕ) (writes : List (EncoderWrite source)) :
    ∃ names, FirstUses (writes.filterMap (·.text)) names ∧
      (encoderWrites version writes = none ∧ 255 < names.length ∨
        ∃ state, encoderWrites version writes = some state ∧
          StringsWritten version writes names state) := by
  induction writes using List.reverseRecOn with
  | nil => exact ⟨[], FirstUses.nil, .inr ⟨_, rfl, rfl, (List.append_nil _).symm, by simp⟩⟩
  | append_singleton writes write ih =>
    obtain ⟨names, huses, hrun⟩ := ih
    have hsplit : encoderWrites version (writes ++ [write]) =
        (encoderWrites version writes).bind fun state => encoderWrite version state write := by
      rw [encoderWrites, List.foldlM_append]
      simp [encoderWrites]
    have hafter : FirstUses ((writes ++ [write]).filterMap (·.text)) (namesAfter names write) := by
      rw [List.filterMap_append]
      have hlast : [write].filterMap (·.text) = write.text.toList := by
        cases h : write.text <;> simp [h]
      rw [hlast]
      exact FirstUses_after huses write
    refine ⟨namesAfter names write, hafter, ?_⟩
    rw [hsplit]
    rcases hrun with ⟨hnone, hmany⟩ | ⟨state, hsome, hwritten⟩
    · rw [hnone]
      exact .inl ⟨rfl, hmany.trans_le (length_namesAfter names write)⟩
    · rw [hsome]
      exact hwritten.step huses write

structure StringReference (names : List (List Byte)) (value : GivenString source) : Prop where
  exact : (UInt8.ofNat (stringNumber names value)).toNat = stringNumber names value
  null : value.text = none → stringNumber names value = 0
  told : ∀ raw ∈ value.text, stringNumber names value ≠ 0 ∧
    names[stringNumber names value - 1]? = some raw

lemma stringReference_of_mem {value : GivenString source} (hshort : names.length ≤ 255)
    (hm : ∀ raw ∈ value.text, raw ∈ names) : StringReference names value := by
  have hsome : ∀ raw ∈ value.text, stringNumber names value = number names raw :=
    fun raw hraw => by rw [stringNumber, hraw]; rfl
  have hnull : value.text = none → stringNumber names value = 0 :=
    fun hnone => by rw [stringNumber, hnone]; rfl
  refine ⟨?_, hnull, fun raw hraw => ?_⟩
  · have hle : stringNumber names value ≤ 255 := by
      cases hvalue : value.text with
      | none => exact (hnull hvalue).trans_le (Nat.zero_le _)
      | some raw => exact (hsome raw hvalue).trans_le ((number_le (hm raw hvalue)).trans hshort)
    rw [UInt8.toNat_ofNat']
    omega
  · rw [hsome raw hraw]
    exact ⟨Nat.succ_ne_zero _, getElem?_number (hm raw hraw)⟩

theorem putString_canonical_numbers (version : ℕ) (writes : List (EncoderWrite source)) :
    ∃ names, FirstUses (writes.filterMap (·.text)) names ∧
      (255 < names.length → encoderWrites version writes = none) ∧
      (names.length ≤ 255 → ∃ state, encoderWrites version writes = some state ∧
        StringsWritten version writes names state ∧
        ∀ value, .string value ∈ writes → StringReference names value) := by
  obtain ⟨names, huses, hrun⟩ := encoderWrites_names version writes
  refine ⟨names, huses, fun hmany => ?_, fun hfew => ?_⟩
  · rcases hrun with ⟨hnone, -⟩ | ⟨state, -, hwritten⟩
    · exact hnone
    · exact absurd hwritten.short (by omega)
  · rcases hrun with ⟨-, hmany⟩ | ⟨state, hsome, hwritten⟩
    · omega
    · refine ⟨state, hsome, hwritten, fun value hm => ?_⟩
      refine stringReference_of_mem hfew fun raw hraw => (huses.all raw).mpr ?_
      exact List.mem_filterMap.mpr ⟨_, hm, hraw⟩

def spacedStrings : Source := ⟨1, 0, [1, 4, 0, 0], [⟨[65], 4, [65]⟩, ⟨[65, 32], 6, [65]⟩], 0, false⟩

def spacedWrites : List (EncoderWrite spacedStrings) :=
  [.string (.stored ⟨1, by decide⟩ false), .string .null,
    .string (.stored ⟨0, by decide⟩ false), .string (.made ⟨[65, 32], by decide⟩)]

example : (encoderWrites 0 spacedWrites).map (fun state => (state.written, state.strings)) =
    some ([1, 0, 0, 0, 1, 0, 2, 1], [some [65, 32], some [65]]) := by
  decide

end OpenDmi

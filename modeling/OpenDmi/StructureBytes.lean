import Mathlib.Data.List.ReduceOption
import OpenDmi.FieldRoundTrip
import OpenDmi.StringSet

namespace OpenDmi

open Bytes

variable {body area rest : List Byte} {text : List Byte} {texts : List (List Byte)} {k n : ℕ}

def stringSetBytes (texts : List (List Byte)) : List Byte :=
  (texts.map (· ++ [0])).flatten ++ if texts = [] then [0, 0] else [0]

def structureBytes (body : List Byte) (strings : List (Option (List Byte))) : List Byte :=
  body ++ stringSetBytes strings.reduceOption

def IsText (text : List Byte) : Prop := text ≠ [] ∧ ∀ b ∈ text, b ≠ 0

lemma doubleNul_text (h : ∀ b ∈ text, b ≠ 0) (hrest : rest.head? ≠ some 0) :
    DoubleNul (text ++ 0 :: rest) (text.length + 1 + k) ↔ DoubleNul rest k := by
  induction text with
  | nil =>
    rw [List.nil_append, List.length_nil, Nat.zero_add, Nat.add_comm]
    exact doubleNul_cons fun hz => hrest (by rw [List.head?_eq_getElem?]; exact hz.2)
  | cons a text ih =>
    have ha : a ≠ 0 := h a List.mem_cons_self
    rw [List.cons_append, List.length_cons,
      show text.length + 1 + 1 + k = text.length + 1 + k + 1 by omega,
      doubleNul_cons fun hz => ha hz.1]
    exact ih fun b hb => h b (List.mem_cons_of_mem a hb)

lemma doubleNul_last (h : ∀ b ∈ text, b ≠ 0) : DoubleNul (text ++ [0, 0]) text.length := by
  induction text with
  | nil => exact ⟨⟨rfl, rfl⟩, fun j hj => absurd hj (Nat.not_lt_zero j)⟩
  | cons a text ih =>
    have ha : a ≠ 0 := h a List.mem_cons_self
    rw [List.cons_append, List.length_cons]
    exact (doubleNul_cons fun hz => ha hz.1).mpr (ih fun b hb => h b (List.mem_cons_of_mem a hb))

lemma texts_head (hne : texts ≠ []) (h : ∀ text ∈ texts, IsText text) :
    ((texts.map (· ++ [0])).flatten ++ [0]).head? ≠ some 0 := by
  cases texts with
  | nil => exact absurd rfl hne
  | cons text texts =>
    obtain ⟨hnil, hzero⟩ := h text List.mem_cons_self
    cases text with
    | nil => exact absurd rfl hnil
    | cons a text =>
      intro heq
      exact hzero a List.mem_cons_self (Option.some.inj heq)

lemma texts_area (hne : texts ≠ []) (h : ∀ text ∈ texts, IsText text) :
    ∃ k, DoubleNul ((texts.map (· ++ [0])).flatten ++ [0]) k ∧
      nulCount ((texts.map (· ++ [0])).flatten ++ [0]) k + 1 = texts.length := by
  induction texts with
  | nil => exact absurd rfl hne
  | cons text texts ih =>
    obtain ⟨-, hzero⟩ := h text List.mem_cons_self
    have hsplit : ((text :: texts).map (· ++ [0])).flatten ++ [(0 : Byte)] =
        text ++ 0 :: ((texts.map (· ++ [0])).flatten ++ [0]) := by simp
    rw [hsplit]
    by_cases hlast : texts = []
    · subst hlast
      exact ⟨text.length, doubleNul_last hzero, by rw [nulCount_text hzero le_rfl]; rfl⟩
    · have hrest : ∀ text ∈ texts, IsText text := fun text hm => h text (List.mem_cons_of_mem _ hm)
      obtain ⟨k, hk, hcount⟩ := ih hlast hrest
      refine ⟨text.length + 1 + k, (doubleNul_text hzero (texts_head hlast hrest)).mpr hk, ?_⟩
      rw [nulCount_split hzero, hcount, List.length_cons]

lemma decodeStrings_texts (base : ℕ) (h : ∀ text ∈ texts, IsText text) :
    (entityDecodeStrings texts.length ((texts.map (· ++ [0])).flatten ++ rest) base).map (·.raw) =
      texts := by
  induction texts generalizing base with
  | nil => rfl
  | cons text texts ih =>
    obtain ⟨-, hzero⟩ := h text List.mem_cons_self
    have hsplit : ((text :: texts).map (· ++ [0])).flatten ++ rest =
        text ++ 0 :: ((texts.map (· ++ [0])).flatten ++ rest) := by simp
    rw [hsplit, List.length_cons, entityDecodeStrings, List.map_cons, cString_append hzero]
    have hdrop : (text ++ 0 :: ((texts.map (· ++ [0])).flatten ++ rest)).drop (text.length + 1) =
        (texts.map (· ++ [0])).flatten ++ rest := by
      rw [← List.drop_drop, List.drop_left]
      rfl
    rw [hdrop, ih _ fun text hm => h text (List.mem_cons_of_mem _ hm)]

lemma stringSetBytes_ends (h : ∀ text ∈ texts, IsText text) :
    ∃ k, DoubleNul (stringSetBytes texts) k ∧
      (if (stringSetBytes texts).head? = some 0 then 0
        else nulCount (stringSetBytes texts) k + 1) = texts.length := by
  rw [stringSetBytes]
  by_cases hnil : texts = []
  · subst hnil
    have hempty : ∀ b ∈ ([] : List Byte), b ≠ 0 := by simp
    exact ⟨0, doubleNul_last hempty, rfl⟩
  · rw [if_neg hnil]
    obtain ⟨k, hk, hcount⟩ := texts_area hnil h
    exact ⟨k, hk, by rw [if_neg (texts_head hnil h), hcount]⟩

lemma window_chunk {p : ℕ} {chunk : List Byte} (hdrop : body.drop p = chunk ++ rest) (hne : chunk ≠ []) :
    p + chunk.length ≤ body.length ∧ window body p chunk.length = chunk ∧
      body.drop (p + chunk.length) = rest := by
  have hpos := List.length_pos_iff.mpr hne
  have hlength := congrArg List.length hdrop
  rw [List.length_drop, List.length_append] at hlength
  refine ⟨by omega, by rw [window, hdrop, List.take_left], ?_⟩
  rw [← List.drop_drop, hdrop, List.drop_left]

section Anew

variable {source : Source} {version : ℕ} {state : EncodeState} {bytes : List Byte}

abbrev anew (source : Source) (version : ℕ) : Encoder := ⟨source, .canonical, version⟩

def writtenBody (source : Source) (bytes : List Byte) : List Byte :=
  header source.typeId (headerSize + bytes.length) source.handle ++ bytes

lemma writtenBody_length (source : Source) (bytes : List Byte) :
    (writtenBody source bytes).length = headerSize + bytes.length := by
  rw [writtenBody, List.length_append, header_length]

lemma writtenBody_drop (source : Source) (bytes : List Byte) :
    (writtenBody source bytes).drop headerSize = bytes := by
  rw [writtenBody]
  exact List.drop_left' (header_length _ _ _)

lemma writtenBody_declares (h : headerSize + bytes.length ≤ 255) :
    ((writtenBody source bytes).getD 1 0).toNat = (writtenBody source bytes).length := by
  have hget : (writtenBody source bytes).getD 1 0 = UInt8.ofNat (headerSize + bytes.length) := rfl
  rw [hget, UInt8.toNat_ofNat', writtenBody_length, Nat.mod_eq_of_lt (by omega)]

lemma encoderFinish_anew (version : ℕ)
    (hwritten : state.written = header source.typeId 0 source.handle ++ bytes) :
    encoderFinish (anew source version) state =
      if headerSize + bytes.length ≤ 255 then some (writtenBody source bytes) else none := by
  have hlength : state.written.length = headerSize + bytes.length := by
    rw [hwritten, List.length_append, header_length]
  have hdrop : state.written.drop headerSize = bytes := by
    rw [hwritten]
    exact List.drop_left' (header_length _ _ _)
  rw [encoderFinish]
  simp only [hlength]
  rw [if_neg (by omega), patch, encoderHeader_length, Nat.zero_add, hdrop, List.take_zero,
    List.nil_append]
  by_cases hshort : headerSize + bytes.length ≤ 255
  · rw [if_pos hshort, if_neg (by omega)]
    rfl
  · rw [if_neg hshort, if_pos (by omega)]

end Anew

structure ReadBack (body : List Byte) (texts : List (List Byte)) (entity : Entity) : Prop where
  length : entity.bodyLength = body.length
  source : ∀ version, (entitySource entity version).body = body
  strings : entity.strings.map (·.raw) = texts
  trimmed : ∀ string ∈ entity.strings, string.pretty = entityStringTrim string.raw

lemma bodyAt_append (hlong : headerSize ≤ body.length)
    (hlength : (body.getD 1 0).toNat = body.length) : bodyAt (body ++ rest) 0 = body.length := by
  have hheader : headerSize = 4 := rfl
  have hget : byteAt (body ++ rest) (0 + 1) = body.length := by
    rw [byteAt, List.getD_eq_getElem?_getD, List.getElem?_append_left (by omega),
      ← List.getD_eq_getElem?_getD]
    exact hlength
  rw [bodyAt, hget, if_neg (by omega)]

lemma entityCreate_structureBytes (address : ℕ) (hlong : headerSize ≤ body.length)
    (hlength : (body.getD 1 0).toNat = body.length) (htexts : ∀ text ∈ texts, IsText text) :
    ∃ entity, entityCreate ⟨address, body ++ stringSetBytes texts⟩ 0 = .ok entity ∧
      ReadBack body texts entity := by
  obtain ⟨k, hk, hcount⟩ := stringSetBytes_ends htexts
  have hbody : bodyAt (body ++ stringSetBytes texts) 0 = body.length := bodyAt_append hlong hlength
  have harea : (body ++ stringSetBytes texts).drop (0 + body.length) = stringSetBytes texts := by
    rw [Nat.zero_add, List.drop_left]
  have hlarge : headerSize ≤ bodyAt (Buffer.mk address (body ++ stringSetBytes texts)).data 0 := by
    rw [hbody]
    exact hlong
  refine ⟨_, entityCreate_eq hlarge (by rw [hbody, harea]; exact hk), ?_⟩
  simp only [hbody, harea, hcount]
  refine ⟨rfl, fun version => ?_, decodeStrings_texts _ htexts, fun string hm => ?_⟩
  · simp [entitySource, entityBuffer, entityOffset, window]
  · exact (decodeStrings_set body.length hk hcount.symm).2 string (by simpa using hm)

lemma entityCreate_strings {table : Buffer} {offset : ℕ} {entity : Entity}
    (hcreate : entityCreate table offset = .ok entity) :
    ∀ string ∈ entity.strings,
      string.pretty = entityStringTrim string.raw ∧ IsText string.raw := by
  obtain ⟨k, runs, hset, hstrings, -⟩ := entityCreate_stringsOf hcreate
  exact fun string hm => ⟨hstrings.trimmed string hm,
    hset.nonempty string.raw (hstrings.count ▸ List.mem_map_of_mem hm)⟩

end OpenDmi

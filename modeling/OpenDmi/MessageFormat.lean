import Mathlib.Data.List.TakeWhile
import OpenDmi.FormatNumber

namespace OpenDmi

open Bytes Numeral

inductive MessageArg
  | text (text : Option (List Byte))
  | number (n : ℤ)

/-- A text being built, in an array which grows by powers of two. -/
structure MessageBuffer where
  data : List Byte
  capacity : ℕ
  fits : data.length ≤ capacity
  doubled : capacity = 0 ∨ ∃ k, capacity = 64 <<< k

structure MessageResource where
  string : List Byte → List Byte → Option (List Byte)
  plural : ℤ → Option (List Byte)

def messageBuffer : MessageBuffer := ⟨[], 0, le_rfl, .inl rfl⟩

def messageCapacity (length capacity : ℕ) (hpos : 0 < capacity) : ℕ :=
  if length ≤ capacity then capacity
  else messageCapacity length (capacity <<< 1) (by rw [Nat.shiftLeft_eq]; omega)
termination_by length - capacity
decreasing_by rw [Nat.shiftLeft_eq]; omega

lemma messageCapacity_spec (length capacity : ℕ) (hpos : 0 < capacity)
    (hcapacity : ∃ k, capacity = 64 <<< k) :
    length ≤ messageCapacity length capacity hpos ∧
      (∃ k, messageCapacity length capacity hpos = 64 <<< k) ∧
      (messageCapacity length capacity hpos = capacity ∨
        messageCapacity length capacity hpos < 2 * length) := by
  fun_induction messageCapacity length capacity hpos with
  | case1 capacity hpos hle => exact ⟨hle, hcapacity, .inl rfl⟩
  | case2 capacity hpos hlt ih =>
    obtain ⟨k, hk⟩ := hcapacity
    have hnext : capacity <<< 1 = 64 <<< (k + 1) := by rw [hk, ← Nat.shiftLeft_add]
    obtain ⟨hle, hdoubled, hsame | hsmall⟩ := ih ⟨k + 1, hnext⟩
    · refine ⟨hle, hdoubled, .inr ?_⟩
      rw [hsame, Nat.shiftLeft_eq]
      omega
    · exact ⟨hle, hdoubled, .inr hsmall⟩

def messageInitial (capacity : ℕ) : ℕ := if 0 < capacity then capacity else 64

lemma messageInitial_pos (capacity : ℕ) : 0 < messageInitial capacity := by
  rw [messageInitial]
  split_ifs <;> omega

lemma MessageBuffer.initial (buffer : MessageBuffer) :
    ∃ k, messageInitial buffer.capacity = 64 <<< k := by
  rw [messageInitial]
  split_ifs with hpos
  · exact buffer.doubled.resolve_left (by omega)
  · exact ⟨0, rfl⟩

def MessageBuffer.grown (buffer : MessageBuffer) (text : List Byte) : MessageBuffer where
  data := buffer.data ++ text
  capacity := messageCapacity (buffer.data.length + text.length) (messageInitial buffer.capacity)
    (messageInitial_pos _)
  fits := by
    rw [List.length_append]
    exact (messageCapacity_spec _ _ _ buffer.initial).1
  doubled := .inr (messageCapacity_spec _ _ _ buffer.initial).2.1

section Format

variable (canAlloc : ℕ → Bool)

def messageAppend (buffer : MessageBuffer) (text : List Byte) : Option MessageBuffer :=
  if h : buffer.data.length + text.length > buffer.capacity then
    if canAlloc (buffer.grown text).capacity then some (buffer.grown text) else none
  else
    some ⟨buffer.data ++ text, buffer.capacity, by rw [List.length_append]; omega, buffer.doubled⟩

variable (resource : Option MessageResource)

def pluralTable : List Byte := stringBytes "plural"

/-- Every locale has the other form, so it stands for the forms the resources leave out. -/
def resourcePlural (word : List Byte) (number : ℤ) : Option (List Byte) :=
  resource.bind fun resource =>
    (resource.plural number).bind fun form =>
      let table := pluralTable ++ [0x2F] ++ word
      if table.length ≥ 128 then none
      else (resource.string table form).or (resource.string table (stringBytes "other"))

def messageNumber (n : ℤ) : List Byte := signText (decide (n < 0)) ++ decimalText n.natAbs

def messageSubstitute (buffer : MessageBuffer) (arg : MessageArg) (word : Option (List Byte)) :
    Option MessageBuffer :=
  match word with
  | none => messageAppend canAlloc buffer <| match arg with
    | .number n => messageNumber n
    | .text text => text.getD []
  | some word => match arg with
    | .text _ => none
    | .number n =>
      if word.length ≥ 64 then none
      else (resourcePlural resource word n).bind (messageAppend canAlloc buffer)

/-- What is between an opening brace and the closing one: the number of an argument, and the word
whose plural form it selects. -/
def messagePlaceholder (inside : List Byte) : Option (ℕ × Option (List Byte)) :=
  match inside with
  | digit :: rest =>
    if isDigit digit = false then none
    else match rest with
      | [] => some (digit.toNat - 0x30, none)
      | c :: word => if c = 0x3A then some (digit.toNat - 0x30, some word) else none
  | [] => none

def messageLoop (args : List MessageArg) : ℕ → List Byte → MessageBuffer → Option MessageBuffer
  | 0, _, buffer => some buffer
  | fuel + 1, text, buffer =>
    if text = [] then some buffer
    else match text.dropWhile (· != 0x7B) with
      | [] => messageAppend canAlloc buffer text
      | _ :: rest =>
        (messageAppend canAlloc buffer (text.takeWhile (· != 0x7B))).bind fun buffer =>
          if rest.head? = some 0x7B then
            (messageAppend canAlloc buffer [0x7B]).bind (messageLoop args fuel rest.tail)
          else if 0x7D ∉ rest then none
          else
            (messagePlaceholder (rest.takeWhile (· != 0x7D))).bind fun (index, word) =>
              args[index]?.bind fun arg =>
                (messageSubstitute canAlloc resource buffer arg word).bind
                  (messageLoop args fuel (rest.dropWhile (· != 0x7D)).tail)

def messageFormat (pattern : List Byte) (args : List MessageArg) : Option (List Byte) :=
  (messageLoop canAlloc resource args (pattern.length + 1) pattern messageBuffer).bind fun buffer =>
    (messageAppend canAlloc buffer [0]).map MessageBuffer.data

def resourceMessage (table key : List Byte) (args : List MessageArg) : Option (List Byte) :=
  (resource.bind fun resource => resource.string table key).bind fun pattern =>
    messageFormat canAlloc resource pattern args

/-- A translation which cannot be formatted is replaced by the text of the program. -/
def toolMessage (table key fallback : List Byte) (args : List MessageArg) : Option (List Byte) :=
  (resourceMessage canAlloc resource table key args).or (messageFormat canAlloc resource fallback args)

end Format

inductive MessagePiece
  | byte (c : Byte)
  | brace
  | value (index : ℕ)
  | plural (index : ℕ) (word : List Byte)

namespace MessagePiece

def spell : MessagePiece → List Byte
  | byte c => [c]
  | brace => [0x7B, 0x7B]
  | value index => [0x7B, lower index, 0x7D]
  | plural index word => 0x7B :: lower index :: 0x3A :: word ++ [0x7D]

def Valid : MessagePiece → Prop
  | byte c => c ≠ 0x7B
  | brace => True
  | value index => index < 10
  | plural index word => index < 10 ∧ 0x7D ∉ word

variable (resource : Option MessageResource) (args : List MessageArg)

def text : MessagePiece → Option (List Byte)
  | byte c => some [c]
  | brace => some [0x7B]
  | value index => args[index]?.map fun
    | .number n => messageNumber n
    | .text text => text.getD []
  | plural index word => args[index]?.bind fun
    | .text _ => none
    | .number n => if word.length ≥ 64 then none else resourcePlural resource word n

def texts : List MessagePiece → Option (List Byte)
  | [] => some []
  | piece :: pieces => (piece.text resource args).bind fun text => (texts pieces).map (text ++ ·)

variable {resource args} {pieces : List MessagePiece}

lemma texts_append (before after : List MessagePiece) :
    texts resource args (before ++ after) = (texts resource args before).bind fun text =>
      (texts resource args after).map (text ++ ·) := by
  induction before with
  | nil => simp [texts]
  | cons piece before ih =>
    rw [List.cons_append, texts, texts, ih]
    cases piece.text resource args with
    | none => rfl
    | some text =>
      cases texts resource args before with
      | none => rfl
      | some rest =>
        cases texts resource args after with
        | none => rfl
        | some last => simp

lemma texts_bytes (bytes : List Byte) : texts resource args (bytes.map byte) = some bytes := by
  induction bytes with
  | nil => rfl
  | cons c bytes ih =>
    rw [List.map_cons, texts, ih]
    rfl

lemma spell_bytes (bytes : List Byte) : (bytes.map byte).flatMap spell = bytes := by
  rw [List.flatMap_map]
  exact List.flatMap_singleton' bytes

lemma exists_bytes (hvalid : ∀ piece ∈ pieces, piece.Valid) :
    ∃ (bytes : List Byte) (rest : List MessagePiece),
      pieces = bytes.map byte ++ rest ∧ (∀ c ∈ bytes, c ≠ 0x7B) ∧
      (rest = [] ∨ ∃ piece after, rest = piece :: after ∧ ∀ c, piece ≠ byte c) := by
  induction pieces with
  | nil => exact ⟨[], [], rfl, by simp, .inl rfl⟩
  | cons piece pieces ih =>
    by_cases hbyte : ∃ c, piece = byte c
    · obtain ⟨c, rfl⟩ := hbyte
      obtain ⟨bytes, rest, rfl, hbytes, hrest⟩ := ih fun piece hpiece =>
        hvalid piece (List.mem_cons_of_mem _ hpiece)
      refine ⟨c :: bytes, rest, rfl, ?_, hrest⟩
      intro b hb
      obtain rfl | hb := List.mem_cons.mp hb
      · exact hvalid _ List.mem_cons_self
      · exact hbytes b hb
    · exact ⟨[], piece :: pieces, rfl, by simp, .inr ⟨piece, pieces, rfl, fun c hc =>
        hbyte ⟨c, hc⟩⟩⟩

end MessagePiece

section Exact

variable {canAlloc : ℕ → Bool} {resource : Option MessageResource} {args : List MessageArg}
  {buffer next : MessageBuffer} {text bytes rest inside : List Byte} {piece : MessagePiece}
  {pieces : List MessagePiece} {index n fuel : ℕ} {word : Option (List Byte)}

open MessagePiece

lemma messageAppend_data (h : messageAppend canAlloc buffer text = some next) :
    next.data = buffer.data ++ text := by
  rw [messageAppend] at h
  split_ifs at h <;> obtain rfl := Option.some.inj h <;> rfl

def Granted (canAlloc : ℕ → Bool) (n : ℕ) : Prop :=
  ∀ k, k = 0 ∨ 64 <<< k < 2 * n → canAlloc (64 <<< k) = true

lemma messageAppend_granted (h : Granted canAlloc n)
    (hlength : buffer.data.length + text.length ≤ n) :
    ∃ next, messageAppend canAlloc buffer text = some next ∧ next.data = buffer.data ++ text := by
  rw [messageAppend]
  split_ifs with hfull halloc
  · exact ⟨_, rfl, rfl⟩
  · obtain ⟨hfits, ⟨k, hk⟩, hsame | hsmall⟩ := messageCapacity_spec
      (buffer.data.length + text.length) _ (messageInitial_pos buffer.capacity) buffer.initial
    all_goals
      refine absurd ?_ halloc
      change canAlloc (messageCapacity _ _ _) = true
      rw [hk]
      apply h k
    · by_cases hpos : 0 < buffer.capacity
      · have hinitial : messageInitial buffer.capacity = buffer.capacity := if_pos hpos
        omega
      · have hinitial : messageInitial buffer.capacity = 64 := if_neg hpos
        rw [hk, hinitial, Nat.shiftLeft_eq] at hsame
        have hone : 2 ^ k = 1 := by omega
        exact .inl (by simpa using hone)
    · exact .inr (by omega)
  · exact ⟨_, rfl, rfl⟩

def placeholderPiece (index : ℕ) : Option (List Byte) → MessagePiece
  | none => value index
  | some word => plural index word

lemma messageSubstitute_eq :
    (args[index]?.bind fun arg => messageSubstitute canAlloc resource buffer arg word) =
      ((placeholderPiece index word).text resource args).bind (messageAppend canAlloc buffer) := by
  cases harg : args[index]? with
  | none => cases word <;> simp [placeholderPiece, MessagePiece.text, harg]
  | some arg =>
    cases word with
    | none => cases arg <;> simp [placeholderPiece, MessagePiece.text, harg, messageSubstitute]
    | some word =>
      cases arg with
      | text text => simp [placeholderPiece, MessagePiece.text, harg, messageSubstitute]
      | number n =>
        simp only [placeholderPiece, MessagePiece.text, harg, messageSubstitute, Option.bind_some]
        split_ifs <;> rfl

lemma lower_number (h : index < 10) : (lower index).toNat - 0x30 = index := by
  have hall : ∀ d < 10, (lower d).toNat - 0x30 = d := by decide
  exact hall index h

lemma placeholder_spell (h : messagePlaceholder inside = some (index, word))
    (hclosed : 0x7D ∉ inside) :
    (placeholderPiece index word).Valid ∧
      (placeholderPiece index word).spell = 0x7B :: inside ++ [0x7D] := by
  rcases inside with _ | ⟨digit, _ | ⟨c, inside⟩⟩
  · cases h
  · simp only [messagePlaceholder] at h
    split_ifs at h with hdigit
    obtain ⟨d, hd, rfl⟩ := isDigit_inv (Bool.eq_true_of_not_eq_false hdigit)
    simp only [Option.some.injEq, Prod.mk.injEq, lower_number hd] at h
    obtain ⟨rfl, rfl⟩ := h
    exact ⟨hd, rfl⟩
  · simp only [messagePlaceholder] at h
    split_ifs at h with hdigit hcolon
    obtain ⟨d, hd, rfl⟩ := isDigit_inv (Bool.eq_true_of_not_eq_false hdigit)
    simp only [Option.some.injEq, Prod.mk.injEq, lower_number hd] at h
    obtain ⟨rfl, rfl⟩ := h
    subst hcolon
    refine ⟨⟨hd, fun hc => hclosed ?_⟩, rfl⟩
    exact List.mem_cons_of_mem _ (List.mem_cons_of_mem _ hc)

lemma spell_placeholder (hvalid : piece.Valid) (hbyte : ∀ c, piece ≠ byte c)
    (hbrace : piece ≠ brace) :
    ∃ inside index word, piece = placeholderPiece index word ∧ 0x7D ∉ inside ∧
      (∃ c tail, inside = c :: tail ∧ c ≠ 0x7B) ∧ piece.spell = 0x7B :: (inside ++ [0x7D]) ∧
      messagePlaceholder inside = some (index, word) := by
  have hne : ∀ d < 10, lower d ≠ 0x7B ∧ lower d ≠ 0x7D := by decide
  cases piece with
  | byte c => exact absurd rfl (hbyte c)
  | brace => exact absurd rfl hbrace
  | value index =>
    have hindex : index < 10 := hvalid
    refine ⟨[lower index], index, none, rfl, ?_, ⟨_, _, rfl, (hne index hindex).1⟩, rfl, ?_⟩
    · simpa using (hne index hindex).2.symm
    · rw [messagePlaceholder, if_neg (by simp [isDigit_lower hindex]), lower_number hindex]
  | plural index word =>
    obtain ⟨hindex, hword⟩ : index < 10 ∧ 0x7D ∉ word := hvalid
    refine ⟨lower index :: 0x3A :: word, index, some word, rfl, ?_,
      ⟨_, _, rfl, (hne index hindex).1⟩, rfl, ?_⟩
    · simp only [List.mem_cons, not_or]
      exact ⟨(hne index hindex).2.symm, by decide, hword⟩
    · rw [messagePlaceholder, if_neg (by simp [isDigit_lower hindex])]
      simp only [if_true, lower_number hindex]

lemma takeWhile_upTo {c : Byte} (h : ∀ b ∈ bytes, b ≠ c) (rest : List Byte) :
    (bytes ++ c :: rest).takeWhile (· != c) = bytes ∧
      (bytes ++ c :: rest).dropWhile (· != c) = c :: rest := by
  have hall : ∀ b ∈ bytes, (b != c) = true := fun b hb => bne_iff_ne.mpr (h b hb)
  rw [List.takeWhile_append_of_pos hall, List.dropWhile_append_of_pos hall,
    List.takeWhile_cons_of_neg (by simp), List.dropWhile_cons_of_neg (by simp), List.append_nil]
  exact ⟨rfl, rfl⟩

lemma loop_bytes (hbytes : ∀ c ∈ bytes, c ≠ 0x7B) (hne : bytes ≠ []) :
    messageLoop canAlloc resource args (fuel + 1) bytes buffer =
      messageAppend canAlloc buffer bytes := by
  have hdrop : bytes.dropWhile (· != 0x7B) = [] :=
    List.dropWhile_eq_nil_iff.mpr fun c hc => bne_iff_ne.mpr (hbytes c hc)
  rw [messageLoop, if_neg hne, hdrop]

lemma loop_piece (hbytes : ∀ c ∈ bytes, c ≠ 0x7B) (hvalid : piece.Valid)
    (hbyte : ∀ c, piece ≠ byte c) :
    messageLoop canAlloc resource args (fuel + 1) (bytes ++ (piece.spell ++ rest)) buffer =
      (messageAppend canAlloc buffer bytes).bind fun buffer =>
        (piece.text resource args).bind fun text =>
          (messageAppend canAlloc buffer text).bind
            (messageLoop canAlloc resource args fuel rest) := by
  by_cases hbrace : piece = brace
  · subst hbrace
    have hspell : bytes ++ (brace.spell ++ rest) = bytes ++ 0x7B :: 0x7B :: rest := rfl
    obtain ⟨htake, hdrop⟩ := takeWhile_upTo hbytes (0x7B :: rest)
    rw [hspell, messageLoop, if_neg (by simp), hdrop, htake]
    rfl
  · obtain ⟨inside, index, word, rfl, hclosed, ⟨c, tail, hinside, hc⟩, hspell, hread⟩ :=
      spell_placeholder hvalid hbyte hbrace
    obtain ⟨htake, hdrop⟩ := takeWhile_upTo hbytes (inside ++ 0x7D :: rest)
    have hother : ∀ b ∈ inside, b ≠ 0x7D := fun b hb he => hclosed (he ▸ hb)
    obtain ⟨htakeInside, hdropInside⟩ := takeWhile_upTo hother rest
    have htext : bytes ++ ((placeholderPiece index word).spell ++ rest) =
        bytes ++ 0x7B :: (inside ++ 0x7D :: rest) := by
      rw [hspell, List.cons_append, List.append_assoc, List.singleton_append]
    have hhead : (inside ++ 0x7D :: rest).head? ≠ some 0x7B := by
      rw [hinside]
      simpa using hc
    rw [htext, messageLoop, if_neg (by simp), hdrop, htake]
    simp only [if_neg hhead]
    refine congrArg _ (funext fun buffer => ?_)
    rw [if_neg (not_not.mpr (by simp)), htakeInside, hdropInside, hread, Option.bind_some]
    simp only [List.tail_cons]
    rw [← Option.bind_assoc, messageSubstitute_eq, Option.bind_assoc]

lemma loop_read (h : messageLoop canAlloc resource args (fuel + 1) text buffer = some next) :
    (∀ c ∈ text, c ≠ 0x7B) ∨
      ∃ bytes piece rest, text = bytes ++ (piece.spell ++ rest) ∧ (∀ c ∈ bytes, c ≠ 0x7B) ∧
        piece.Valid ∧ ∀ c, piece ≠ byte c := by
  by_cases hmem : 0x7B ∈ text
  · refine .inr ?_
    obtain ⟨bytes, rest, rfl, hbytes⟩ := List.eq_append_cons_of_mem hmem
    have hbytes : ∀ c ∈ bytes, c ≠ 0x7B := fun c hc he => hbytes (he ▸ hc)
    obtain ⟨htake, hdrop⟩ := takeWhile_upTo hbytes rest
    rw [messageLoop, if_neg (by simp), hdrop, htake] at h
    simp only at h
    obtain ⟨appended, -, h⟩ := Option.bind_eq_some_iff.mp h
    split_ifs at h with hbrace hclosed
    · obtain ⟨tail, rfl⟩ : ∃ tail, rest = 0x7B :: tail := by
        cases rest with
        | nil => cases hbrace
        | cons c tail => exact ⟨tail, by rw [Option.some.inj hbrace]⟩
      exact ⟨bytes, .brace, tail, rfl, hbytes, trivial, fun c hc => by cases hc⟩
    · obtain ⟨⟨index, word⟩, hread, -⟩ := Option.bind_eq_some_iff.mp h
      obtain ⟨inside, after, rfl, hinside⟩ := List.eq_append_cons_of_mem hclosed
      have hother : ∀ b ∈ inside, b ≠ 0x7D := fun b hb he => hinside (he ▸ hb)
      rw [(takeWhile_upTo hother after).1] at hread
      obtain ⟨hvalid, hspell⟩ := placeholder_spell hread hinside
      refine ⟨bytes, _, after, ?_, hbytes, hvalid, fun c hc => ?_⟩
      · rw [hspell]
        simp
      · cases word <;> cases hc
  · exact .inl fun c hc he => hmem (he ▸ hc)

lemma loop_sound (hfuel : text.length < fuel)
    (h : messageLoop canAlloc resource args fuel text buffer = some next) :
    ∃ pieces appended, (∀ piece ∈ pieces, piece.Valid) ∧ text = pieces.flatMap spell ∧
      texts resource args pieces = some appended ∧ next.data = buffer.data ++ appended := by
  induction fuel generalizing text buffer with
  | zero => omega
  | succ fuel ih =>
    obtain hbytes | ⟨bytes, piece, rest, rfl, hbytes, hvalid, hbyte⟩ := loop_read h
    · refine ⟨text.map byte, text, ?_, (spell_bytes text).symm, texts_bytes text, ?_⟩
      · intro piece hpiece
        obtain ⟨c, hc, rfl⟩ := List.mem_map.mp hpiece
        exact hbytes c hc
      · by_cases hne : text = []
        · subst hne
          rw [messageLoop, if_pos rfl] at h
          rw [← Option.some.inj h, List.append_nil]
        · rw [loop_bytes hbytes hne] at h
          exact messageAppend_data h
    · rw [loop_piece hbytes hvalid hbyte] at h
      obtain ⟨first, hfirst, h⟩ := Option.bind_eq_some_iff.mp h
      obtain ⟨text, htext, h⟩ := Option.bind_eq_some_iff.mp h
      obtain ⟨second, hsecond, h⟩ := Option.bind_eq_some_iff.mp h
      have hlength : 0 < piece.spell.length := by cases piece <;> simp [spell]
      obtain ⟨pieces, appended, hpieces, rfl, htexts, hdata⟩ := ih (by
        simp only [List.length_append] at hfuel
        omega) h
      refine ⟨bytes.map byte ++ piece :: pieces, bytes ++ (text ++ appended), ?_, ?_, ?_, ?_⟩
      · intro p hp
        obtain hp | hp := List.mem_append.mp hp
        · obtain ⟨c, hc, rfl⟩ := List.mem_map.mp hp
          exact hbytes c hc
        · obtain rfl | hp := List.mem_cons.mp hp
          · exact hvalid
          · exact hpieces p hp
      · rw [List.flatMap_append, spell_bytes, List.flatMap_cons]
      · rw [texts_append, texts_bytes, Option.bind_some, texts, htext, Option.bind_some, htexts]
        rfl
      · rw [hdata, messageAppend_data hsecond, messageAppend_data hfirst]
        simp

lemma loop_complete (hgranted : Granted canAlloc n) (hvalid : ∀ piece ∈ pieces, piece.Valid)
    {appended : List Byte} (htexts : texts resource args pieces = some appended)
    (hlength : buffer.data.length + appended.length ≤ n)
    (hfuel : (pieces.flatMap spell).length < fuel) :
    ∃ next, messageLoop canAlloc resource args fuel (pieces.flatMap spell) buffer = some next ∧
      next.data = buffer.data ++ appended := by
  induction fuel generalizing pieces buffer appended with
  | zero => omega
  | succ fuel ih =>
    obtain ⟨bytes, rest, rfl, hbytes, rfl | ⟨piece, after, rfl, hbyte⟩⟩ := exists_bytes hvalid
    · rw [List.append_nil, texts_bytes] at htexts
      obtain rfl := Option.some.inj htexts
      rw [List.append_nil, spell_bytes]
      by_cases hne : bytes = []
      · subst hne
        exact ⟨buffer, by rw [messageLoop, if_pos rfl], (List.append_nil _).symm⟩
      · rw [loop_bytes hbytes hne]
        exact messageAppend_granted hgranted hlength
    · rw [texts_append, texts_bytes, Option.bind_some, texts] at htexts
      obtain ⟨tail, htail, rfl⟩ := Option.map_eq_some_iff.mp htexts
      obtain ⟨text, htext, htail⟩ := Option.bind_eq_some_iff.mp htail
      obtain ⟨last, hlast, rfl⟩ := Option.map_eq_some_iff.mp htail
      simp only [List.length_append] at hlength
      have hpiece : piece.Valid := hvalid piece (by simp)
      have hspell : 0 < piece.spell.length := by cases piece <;> simp [spell]
      rw [List.flatMap_append, spell_bytes, List.flatMap_cons] at hfuel ⊢
      simp only [List.length_append] at hfuel
      obtain ⟨first, hfirst, hfirstData⟩ := messageAppend_granted hgranted
        (by omega : buffer.data.length + bytes.length ≤ n)
      obtain ⟨second, hsecond, hsecondData⟩ := messageAppend_granted hgranted
        (by rw [hfirstData, List.length_append]; omega : first.data.length + text.length ≤ n)
      obtain ⟨next, hnext, hdata⟩ := ih (fun p hp => hvalid p (by simp [hp])) hlast
        (by rw [hsecondData, hfirstData, List.length_append, List.length_append]; omega)
        (by omega)
      refine ⟨next, ?_, by rw [hdata, hsecondData, hfirstData]; simp⟩
      rw [loop_piece hbytes hpiece hbyte, hfirst, Option.bind_some, htext, Option.bind_some, hsecond,
        Option.bind_some, hnext]

end Exact

section Message

open MessagePiece

variable {canAlloc : ℕ → Bool} {resource : Option MessageResource} {args : List MessageArg}

lemma messageFormat_sound {pattern message : List Byte}
    (h : messageFormat canAlloc resource pattern args = some message) :
    ∃ pieces appended, (∀ piece ∈ pieces, piece.Valid) ∧ pattern = pieces.flatMap spell ∧
      texts resource args pieces = some appended ∧ message = appended ++ [0] := by
  rw [messageFormat] at h
  obtain ⟨buffer, hloop, h⟩ := Option.bind_eq_some_iff.mp h
  obtain ⟨next, hnext, rfl⟩ := Option.map_eq_some_iff.mp h
  obtain ⟨pieces, appended, hvalid, hpattern, htexts, hdata⟩ :=
    loop_sound (Nat.lt_succ_self _) hloop
  exact ⟨pieces, appended, hvalid, hpattern, htexts, by
    rw [messageAppend_data hnext, hdata, messageBuffer, List.nil_append]⟩

lemma messageFormat_complete {pieces : List MessagePiece} {appended : List Byte}
    (hvalid : ∀ piece ∈ pieces, piece.Valid) (htexts : texts resource args pieces = some appended)
    (hgranted : Granted canAlloc (appended.length + 1)) :
    messageFormat canAlloc resource (pieces.flatMap spell) args = some (appended ++ [0]) := by
  have hempty : messageBuffer.data.length = 0 := rfl
  obtain ⟨buffer, hloop, hdata⟩ := loop_complete hgranted hvalid htexts
    (by omega : messageBuffer.data.length + appended.length ≤ appended.length + 1)
    (Nat.lt_succ_self _)
  rw [messageBuffer, List.nil_append] at hdata
  obtain ⟨next, hnext, hnextData⟩ := messageAppend_granted hgranted
    (by rw [hdata]; rfl : buffer.data.length + [(0 : Byte)].length ≤ appended.length + 1)
  rw [messageFormat, hloop, Option.bind_some, hnext, Option.map_some, hnextData, hdata]

/-- A message is made of a pattern only where pieces spell the pattern and each of them stands for
a text, and then it is their texts one after another. It is made whenever arrays can be had which
are long enough for it, and not twice as long; a program whose own pattern is right then has its
message, translated or not. -/
theorem message_format_exact (canAlloc : ℕ → Bool) (resource : Option MessageResource)
    (args : List MessageArg) (table key pattern : List Byte) :
    (∀ message, messageFormat canAlloc resource pattern args = some message →
        ∃ pieces appended, (∀ piece ∈ pieces, piece.Valid) ∧ pattern = pieces.flatMap spell ∧
          texts resource args pieces = some appended ∧ message = appended ++ [0]) ∧
      ∀ pieces appended, (∀ piece ∈ pieces, piece.Valid) → pattern = pieces.flatMap spell →
        texts resource args pieces = some appended → Granted canAlloc (appended.length + 1) →
        messageFormat canAlloc resource pattern args = some (appended ++ [0]) ∧
          ∃ message, toolMessage canAlloc resource table key pattern args = some message ∧
            (resourceMessage canAlloc resource table key args = some message ∨
              resourceMessage canAlloc resource table key args = none ∧
                message = appended ++ [0]) := by
  refine ⟨fun message h => messageFormat_sound h, ?_⟩
  rintro pieces appended hvalid rfl htexts hgranted
  have hformat := messageFormat_complete hvalid htexts hgranted
  refine ⟨hformat, ?_⟩
  rw [toolMessage, hformat]
  cases hresource : resourceMessage canAlloc resource table key args with
  | none => exact ⟨_, rfl, .inr ⟨rfl, rfl⟩⟩
  | some message => exact ⟨message, rfl, .inl rfl⟩

end Message

end OpenDmi

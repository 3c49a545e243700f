import OpenDmi.AdditionalInfo
import OpenDmi.StructureBytes

namespace OpenDmi

open Bytes

variable {source : Source} {version p q number : ℕ} {out after : EncodeState} {ref : Ref}
  {entry again : AdditionalEntry} {entries : List AdditionalEntry} {bytes : List Byte}
  {strings more : List (Option (List Byte))} {raw : List Byte}

def additionalInfoCanonical (source : Source) (version : ℕ) (entries : List AdditionalEntry) :
    Option (List Byte) :=
  (additionalInfoWritten (anew source version) entries).bind fun state =>
    (encoderFinish (anew source version) state).map fun body => structureBytes body state.strings

def refText : Ref → Option (List Byte)
  | .text _ bytes => some bytes
  | _ => none

def StringsOk (source : Source) : Prop :=
  ∀ string ∈ source.strings, string.pretty = entityStringTrim string.raw ∧ IsText string.raw

def Numbered (strings : List (Option (List Byte))) (ref : Ref) (number : ℕ) : Prop :=
  refText ref = none ∧ number = 0 ∨ ∃ raw, refText ref = some (entityStringTrim raw) ∧
    number ≠ 0 ∧ strings[number - 1]? = some (some raw)

lemma Numbered.mono (h : Numbered strings ref number) (hmore : strings <+: more) :
    Numbered more ref number := by
  refine h.imp_right fun ⟨raw, htext, hne, hget⟩ => ⟨raw, htext, hne, ?_⟩
  obtain ⟨rest, rfl⟩ := hmore
  rw [List.getElem?_append_left (List.getElem?_eq_some_iff.mp hget).1]
  exact hget

structure Texts (count : ℕ) (strings : List (Option (List Byte))) : Prop where
  few : strings.length ≤ count
  texts : ∀ string ∈ strings, ∃ raw, string = some raw ∧ IsText raw

lemma addString_anew (source : Source) (version : ℕ) (hraw : IsText raw) {count : ℕ}
    (h : Texts count out.strings) :
    out.strings <+: (addString (anew source version) (some raw) out).2.strings ∧
      Texts (count + 1) (addString (anew source version) (some raw) out).2.strings ∧
      (addString (anew source version) (some raw) out).2.written = out.written ∧
      (addString (anew source version) (some raw) out).1 ≠ 0 ∧
      (addString (anew source version) (some raw) out).1 ≤ count + 1 ∧
      (addString (anew source version) (some raw) out).2.strings[
        (addString (anew source version) (some raw) out).1 - 1]? = some (some raw) := by
  have hfew := h.few
  rw [addString]
  simp only [ne_eq, reduceCtorEq, not_false_eq_true, and_self, if_true]
  cases hfind : out.strings.findIdx? (· == some raw) with
  | some i =>
    obtain ⟨hlt, hsame, -⟩ := List.findIdx?_eq_some_iff_getElem.mp hfind
    simp only
    refine ⟨List.prefix_refl _, ⟨by omega, h.texts⟩, trivial, Nat.succ_ne_zero i, by omega, ?_⟩
    rw [Nat.add_sub_cancel, List.getElem?_eq_getElem hlt]
    simpa using hsame
  | none =>
    simp only
    refine ⟨⟨_, rfl⟩, ⟨by rw [List.length_append, List.length_singleton]; omega, ?_⟩, trivial,
      Nat.succ_ne_zero _, by omega, by simp⟩
    intro string hm
    rcases List.mem_append.mp hm with hm | hm
    · exact h.texts string hm
    · exact ⟨raw, List.mem_singleton.mp hm, hraw⟩

lemma putString_anew (hok : StringsOk source) {count : ℕ} (h : Texts count out.strings)
    (hcount : count < 255) (n : ℕ) :
    ∃ after number, putString (anew source version) (entityString source n) out = some after ∧
      after.written = out.written ++ [UInt8.ofNat number] ∧ number ≤ 255 ∧
      out.strings <+: after.strings ∧ Texts (count + 1) after.strings ∧
      Numbered after.strings (entityString source n) number := by
  have hnull : ∃ after number, putString (anew source version) .null out = some after ∧
      after.written = out.written ++ [UInt8.ofNat number] ∧ number ≤ 255 ∧
      out.strings <+: after.strings ∧ Texts (count + 1) after.strings ∧
      Numbered after.strings .null number :=
    ⟨_, 0, rfl, rfl, by omega, List.prefix_refl _, ⟨h.few.trans (Nat.le_succ _), h.texts⟩,
      .inl ⟨rfl, rfl⟩⟩
  rw [entityString]
  by_cases hzero : n = 0
  · rw [if_pos hzero]
    exact hnull
  rw [if_neg hzero]
  cases hstring : source.strings[n - 1]? with
  | none => exact hnull
  | some string =>
    obtain ⟨hpretty, hraw⟩ := hok string (List.mem_of_getElem? hstring)
    obtain ⟨hbegins, htexts, hwritten, hne, hle, hget⟩ := addString_anew source version hraw h
    simp only [putString, Option.bind_some, hstring, Option.map_some]
    rw [if_neg (by omega)]
    refine ⟨_, _, rfl, ?_, by omega, hbegins, htexts, .inr ⟨string.raw, ?_, hne, hget⟩⟩
    · rw [putBytes, hwritten]
    · rw [refText, hpretty]

def entryBytes (entry : AdditionalEntry) (number : ℕ) : List Byte :=
  UInt8.ofNat (additionalInfoEntryHeader + entry.value.bytes.length) ::
    (leStore 2 entry.referencedHandle ++ UInt8.ofNat entry.referencedOffset :: UInt8.ofNat number ::
      entry.value.bytes)

lemma EntryAt.value_short (h : EntryAt source p entry) :
    additionalInfoEntryHeader + entry.value.bytes.length ≤ (source.body.getD p 0).toNat := by
  have hlong := h.long
  have hlength := h.length
  omega

lemma entryEncode_anew (version : ℕ) (hok : StringsOk source) (hat : EntryAt source p entry) {count : ℕ}
    (h : Texts count out.strings) (hcount : count < 255) :
    ∃ after number, additionalInfoEntryEncode (anew source version) out entry = some after ∧
      after.written = out.written ++ entryBytes entry number ∧ number ≤ 255 ∧
      out.strings <+: after.strings ∧ Texts (count + 1) after.strings ∧
      Numbered after.strings entry.string number := by
  have hshort := hat.value_short
  have hlt := (source.body.getD p 0).toNat_lt
  have hlength : additionalInfoEntryLength (anew source version) entry out =
      additionalInfoEntryHeader + entry.value.bytes.length := rfl
  obtain ⟨after, number, hput, hwritten, hnumber, hbegins, htexts, hnumbered⟩ :=
    @putString_anew source version (putByte (anew source version) entry.referencedOffset
      (putBytes (anew source version) (leStore 2 entry.referencedHandle)
        (putByte (anew source version)
          (additionalInfoEntryHeader + entry.value.bytes.length) out))) hok count h hcount
      (source.body.getD (p + 4) 0).toNat
  rw [← hat.string] at hput hnumbered
  rw [additionalInfoEntryEncode, hlength, if_neg (by omega), hput, Option.map_some]
  refine ⟨_, number, rfl, ?_, hnumber, hbegins, htexts, hnumbered⟩
  simp only [putBytes, hwritten]
  simp [putByte, putBytes, entryBytes]

structure EntryOk (entry : AdditionalEntry) : Prop where
  short : additionalInfoEntryHeader + entry.value.bytes.length < 256
  handle : entry.referencedHandle < 256 ^ 2
  offset : entry.referencedOffset < 256

lemma EntryAt.ok (h : EntryAt source p entry) : EntryOk entry := by
  have hshort := h.value_short
  have hfits := h.fits
  have hheader : additionalInfoEntryHeader = 5 := rfl
  have hlt := (source.body.getD p 0).toNat_lt
  have hhandle := leLoad_lt (window source.body (p + 1) 2)
  rw [window_length (by omega)] at hhandle
  exact ⟨by omega, h.handle.trans_lt hhandle, h.offset.trans_lt (UInt8.toNat_lt _)⟩

inductive EntriesWritten (strings : List (Option (List Byte))) :
    List AdditionalEntry → List Byte → Prop
  | nil : EntriesWritten strings [] []
  | cons {entry : AdditionalEntry} {entries : List AdditionalEntry} {bytes : List Byte} {number : ℕ}
      (ok : EntryOk entry) (small : number ≤ 255) (numbered : Numbered strings entry.string number)
      (rest : EntriesWritten strings entries bytes) :
      EntriesWritten strings (entry :: entries) (entryBytes entry number ++ bytes)

lemma Entries.encode_anew (version : ℕ) (hok : StringsOk source)
    (hentries : Entries source p entries q) {count : ℕ} (h : Texts count out.strings)
    (hcount : count + entries.length ≤ 255) :
    ∃ after bytes, entries.foldlM (additionalInfoEntryEncode (anew source version)) out =
        some after ∧ after.written = out.written ++ bytes ∧ out.strings <+: after.strings ∧
      Texts 255 after.strings ∧ EntriesWritten after.strings entries bytes := by
  induction hentries generalizing out count with
  | nil => exact ⟨out, [], rfl, (List.append_nil _).symm, List.prefix_refl _,
      ⟨h.few.trans (by omega), h.texts⟩, .nil⟩
  | cons here rest ih =>
    rw [List.length_cons] at hcount
    obtain ⟨middle, number, hmiddle, hwritten, hnumber, hbegins, htexts, hnumbered⟩ :=
      entryEncode_anew version hok here h (by omega)
    obtain ⟨after, bytes, hafter, hrest, hgrown, hfinal, hentries⟩ := ih htexts (by omega)
    refine ⟨after, entryBytes _ number ++ bytes, ?_, ?_, hbegins.trans hgrown, hfinal,
      .cons here.ok hnumber (hnumbered.mono hgrown) hentries⟩
    · rw [List.foldlM_cons, hmiddle]
      exact hafter
    · rw [hrest, hwritten, List.append_assoc]

/-- Entries which tell the same, whatever the numbers of their strings are. -/
structure SameEntry (entry again : AdditionalEntry) : Prop where
  handle : again.referencedHandle = entry.referencedHandle
  offset : again.referencedOffset = entry.referencedOffset
  string : refText again.string = refText entry.string
  value : again.value.bytes = entry.value.bytes

section Read

variable {state : DecodeState} {chunk rest : List Byte}

lemma readNumber_chunk (hdrop : source.body.drop state.position = chunk ++ rest) (hne : chunk ≠ [])
    (h8 : chunk.length ≤ 8) : readNumber source chunk.length state =
      some (leLoad chunk, { state with position := state.position + chunk.length }) := by
  obtain ⟨hfits, hwindow, -⟩ := window_chunk hdrop hne
  have hpos := List.length_pos_iff.mpr hne
  rw [readNumber, if_neg (by omega), readerGet_fits hfits, hwindow]
  rfl

lemma readByte_chunk (state : DecodeState) {n : ℕ} (hn : n < 256)
    (hdrop : source.body.drop state.position = UInt8.ofNat n :: rest) :
    readNumber source 1 state = some (n, { state with position := state.position + 1 }) ∧
      source.body.drop (state.position + 1) = rest := by
  have hchunk : source.body.drop state.position = [UInt8.ofNat n] ++ rest := hdrop
  have hread := readNumber_chunk hchunk (List.cons_ne_nil _ _) (by simp)
  obtain ⟨-, -, hnext⟩ := window_chunk hchunk (List.cons_ne_nil _ _)
  have hload : leLoad [UInt8.ofNat n] = n := by simp [leLoad, hn]
  exact ⟨hload ▸ hread, hnext⟩

lemma refText_numbered {again : Source} (hok : StringsOk again)
    (hstrings : strings = again.strings.map fun string => some string.raw)
    (h : Numbered strings ref number) : refText (entityString again number) = refText ref := by
  rcases h with ⟨hnone, rfl⟩ | ⟨raw, htext, hne, hget⟩
  · rw [hnone]
    rfl
  · rw [hstrings, List.getElem?_map] at hget
    obtain ⟨string, hstring, hraw⟩ := Option.map_eq_some_iff.mp hget
    rw [entityString, if_neg hne, hstring, htext, ← Option.some.inj hraw]
    exact congrArg some (hok string (List.mem_of_getElem? hstring)).1

lemma readHandle_chunk (state : DecodeState) {n : ℕ} (hn : n < 256 ^ 2)
    (hdrop : source.body.drop state.position = leStore 2 n ++ rest) :
    readNumber source 2 state = some (n, { state with position := state.position + 2 }) ∧
      source.body.drop (state.position + 2) = rest := by
  have hlength : (leStore 2 n).length = 2 := leStore_length 2 n
  have hne : leStore 2 n ≠ [] := List.cons_ne_nil _ _
  have hread := readNumber_chunk hdrop hne (by omega)
  obtain ⟨-, -, hnext⟩ := window_chunk hdrop hne
  rw [hlength] at hread hnext
  rw [leLoad_leStore, Nat.mod_eq_of_lt hn] at hread
  exact ⟨hread, hnext⟩

lemma entryDecode_chunk (hok : EntryOk entry) (hnumber : number ≤ 255)
    (hdrop : source.body.drop state.position = entryBytes entry number ++ rest) :
    (entry.value.bytes = [] → additionalInfoEntryDecode source state = none) ∧
    (entry.value.bytes ≠ [] → ∃ again next,
      additionalInfoEntryDecode source state = some (again, next) ∧
      again.referencedHandle = entry.referencedHandle ∧
      again.referencedOffset = entry.referencedOffset ∧
      again.string = entityString source number ∧ again.value.bytes = entry.value.bytes ∧
      source.body.drop next.position = rest) := by
  have hshort := hok.short
  have hheader : additionalInfoEntryHeader = 5 := rfl
  rw [entryBytes, List.cons_append, List.append_assoc, List.cons_append, List.cons_append] at hdrop
  obtain ⟨hlength, h1⟩ := readByte_chunk state hshort hdrop
  obtain ⟨hhandle, h2⟩ := readHandle_chunk { state with position := state.position + 1 } hok.handle h1
  obtain ⟨hoffset, h3⟩ := readByte_chunk { state with position := state.position + 1 + 2 } hok.offset h2
  obtain ⟨hstring, h4⟩ := readByte_chunk { state with position := state.position + 1 + 2 + 1 }
    (show number < 256 by omega) h3
  simp only [additionalInfoEntryDecode, hlength, Option.bind_eq_bind, Option.bind_some, hhandle,
    hoffset, hstring]
  constructor
  · intro hnil
    rw [if_pos (by rw [hnil]; exact Nat.lt_succ_self _)]
  · intro hne
    have hpos := List.length_pos_iff.mpr hne
    obtain ⟨hfits, hwindow, hnext⟩ := window_chunk h4 hne
    have hend : state.position + 1 + 2 + 1 + 1 + entry.value.bytes.length ≤ source.body.length := hfits
    have hcut : min (additionalInfoEntryHeader + entry.value.bytes.length - additionalInfoEntryHeader)
        (readerRemaining source { state with position := state.position + 1 + 2 + 1 + 1 }) =
        entry.value.bytes.length := by
      rw [readerRemaining]
      simp only
      omega
    rw [if_neg (by omega), hcut, decoderGetBinary, readerGet_fits hfits, hwindow]
    exact ⟨_, _, rfl, rfl, rfl, rfl, rfl, hnext⟩

lemma entriesDecode_written (state : DecodeState) (hok : StringsOk source)
    (hstrings : strings = source.strings.map fun string => some string.raw)
    (hwritten : EntriesWritten strings entries bytes)
    (hdrop : source.body.drop state.position = bytes) :
    ((∃ entry ∈ entries, entry.value.bytes = []) →
      additionalInfoEntries source entries.length state = none) ∧
    ((∀ entry ∈ entries, entry.value.bytes ≠ []) →
      ∃ again, additionalInfoEntries source entries.length state = some again ∧
        List.Forall₂ SameEntry entries again) := by
  induction hwritten generalizing state with
  | nil => exact ⟨fun ⟨entry, hm, _⟩ => (List.not_mem_nil hm).elim, fun _ => ⟨[], rfl, .nil⟩⟩
  | @cons entry _ _ number hentry hnumber hnumbered _ ih =>
    obtain ⟨hempty, hfull⟩ := entryDecode_chunk hentry hnumber hdrop
    simp only [List.length_cons, additionalInfoEntries, Option.bind_eq_bind]
    by_cases hnil : entry.value.bytes = []
    · refine ⟨fun _ => by rw [hempty hnil]; rfl, fun hall => ?_⟩
      exact absurd hnil (hall entry List.mem_cons_self)
    · obtain ⟨again, next, hagain, hhandle, hoffset, hstring, hvalue, hrest⟩ := hfull hnil
      obtain ⟨hnone, hsome⟩ := ih next hrest
      rw [hagain, Option.bind_some]
      constructor
      · rintro ⟨short, hm, hshort⟩
        rcases List.mem_cons.mp hm with rfl | hm
        · exact absurd hshort hnil
        · rw [hnone ⟨short, hm, hshort⟩]
          rfl
      · intro hall
        obtain ⟨agains, hagains, hsame⟩ := hsome fun entry hm =>
          hall entry (List.mem_cons_of_mem _ hm)
        rw [hagains]
        refine ⟨again :: agains, rfl, .cons ⟨hhandle, hoffset, ?_, hvalue⟩ hsame⟩
        rw [hstring]
        exact refText_numbered hok hstrings hnumbered

end Read

def entriesLength (entries : List AdditionalEntry) : ℕ :=
  (entries.map fun entry => additionalInfoEntryHeader + entry.value.bytes.length).sum

lemma Entries.end_eq (h : Entries source p entries q) (hp : p ≤ source.body.length) :
    q = p + entriesLength entries ∧ q ≤ source.body.length := by
  induction h with
  | nil => exact ⟨rfl, hp⟩
  | @cons p q entry entries here rest ih =>
    obtain ⟨hend, hle⟩ := ih here.end_le
    refine ⟨?_, hle⟩
    rw [hend, entryEnd, entriesLength, entriesLength, List.map_cons, List.sum_cons]
    omega

lemma EntriesWritten.length (h : EntriesWritten strings entries bytes) :
    bytes.length = entriesLength entries := by
  induction h with
  | nil => rfl
  | cons _ _ _ _ ih =>
    rw [List.length_append, ih, entriesLength, entriesLength, List.map_cons, List.sum_cons, entryBytes]
    simp [additionalInfoEntryHeader]
    omega

lemma Texts.reduce {count : ℕ} (h : Texts count strings) :
    strings = strings.reduceOption.map some ∧ ∀ text ∈ strings.reduceOption, IsText text := by
  obtain ⟨-, htexts⟩ := h
  induction strings with
  | nil => exact ⟨rfl, fun text hm => (List.not_mem_nil hm).elim⟩
  | cons string strings ih =>
    obtain ⟨raw, rfl, hraw⟩ := htexts string List.mem_cons_self
    obtain ⟨hmap, hall⟩ := ih fun string hm => htexts string (List.mem_cons_of_mem _ hm)
    rw [List.reduceOption_cons_of_some, List.map_cons, ← hmap]
    exact ⟨rfl, List.forall_mem_cons.mpr ⟨hraw, hall⟩⟩

lemma additionalInfoWritten_anew (version : ℕ) (hs : SourceOk source) (hok : StringsOk source)
    (hdecode : additionalInfoDecode source = some entries) :
    ∃ state bytes, additionalInfoWritten (anew source version) entries = some state ∧
      encoderFinish (anew source version) state =
        some (writtenBody source (UInt8.ofNat entries.length :: bytes)) ∧
      headerSize + (bytes.length + 1) ≤ 255 ∧ Texts 255 state.strings ∧
      EntriesWritten state.strings entries bytes := by
  obtain ⟨hfits, hcount, q, hentries⟩ := additionalInfoDecode_at hdecode
  have hlt := (source.body.getD headerSize 0).toNat_lt
  have hheader : headerSize = 4 := rfl
  have hshort := hs.short
  obtain ⟨hend, hle⟩ := hentries.end_eq hfits
  have hbegun : Texts 0 (putByte (anew source version) entries.length
      (encoderInitialize (anew source version))).strings := ⟨le_rfl, fun _ hm => by cases hm⟩
  obtain ⟨state, bytes, hstate, hwritten, -, htexts, hbytes⟩ :=
    hentries.encode_anew version hok hbegun (by omega)
  have hlength := hbytes.length
  have hout : state.written = header source.typeId 0 source.handle ++
      UInt8.ofNat entries.length :: bytes := by
    rw [hwritten]
    simp [putByte, putBytes, encoderInitialize]
  have hshorter : headerSize + (UInt8.ofNat entries.length :: bytes).length ≤ 255 := by
    rw [List.length_cons]
    omega
  refine ⟨state, bytes, ?_, ?_, by omega, htexts, hbytes⟩
  · rw [additionalInfoWritten, additionalInfoEncode, hstate]
    rfl
  · rw [encoderFinish_anew version hout, if_pos hshorter]

def HasValues (entries : List AdditionalEntry) : Prop :=
  entries ≠ [] ∧ ∀ entry ∈ entries, entry.value.bytes ≠ []

lemma entriesLength_values (h : HasValues entries) :
    additionalInfoEntryHeader + 1 ≤ entriesLength entries := by
  obtain ⟨hne, hall⟩ := h
  cases entries with
  | nil => exact absurd rfl hne
  | cons entry entries =>
    have hpos := List.length_pos_iff.mpr (hall entry List.mem_cons_self)
    rw [entriesLength, List.map_cons, List.sum_cons]
    omega

lemma additionalInfo_again {entity : Entity} (version : ℕ) (hbytes : EntriesWritten strings entries bytes)
    (hcount : entries.length < 256) (htexts : Texts 255 strings)
    (hread : ReadBack (writtenBody source (UInt8.ofNat entries.length :: bytes))
      strings.reduceOption entity) :
    (HasValues entries → ∃ again, additionalInfoOf version entity = some again ∧
      List.Forall₂ SameEntry entries again) ∧
    (¬ HasValues entries → additionalInfoOf version entity = none) := by
  obtain ⟨hmap, hall⟩ := htexts.reduce
  have hbody := hread.source version
  have hok : StringsOk (entitySource entity version) := by
    intro string hm
    refine ⟨hread.trimmed string hm, hall string.raw ?_⟩
    rw [← hread.strings]
    exact List.mem_map.mpr ⟨string, hm, rfl⟩
  have hstrings : strings =
      (entitySource entity version).strings.map fun string => some string.raw := by
    rw [hmap, ← hread.strings, List.map_map]
    rfl
  have hdrop : (entitySource entity version).body.drop
      (decoderInitialize additionalInfoMinimumVersion).position =
        UInt8.ofNat entries.length :: bytes := by
    rw [hbody]
    exact writtenBody_drop source _
  obtain ⟨hnumber, hrest⟩ := readByte_chunk _ hcount hdrop
  obtain ⟨hnone, hsome⟩ := entriesDecode_written
    { decoderInitialize additionalInfoMinimumVersion with
      position := (decoderInitialize additionalInfoMinimumVersion).position + 1 }
    hok hstrings hbytes hrest
  have hdecode : additionalInfoDecode (entitySource entity version) =
      additionalInfoEntries (entitySource entity version) entries.length
        { decoderInitialize additionalInfoMinimumVersion with
          position := (decoderInitialize additionalInfoMinimumVersion).position + 1 } := by
    rw [additionalInfoDecode, hnumber]
    rfl
  have hlong : entity.bodyLength = headerSize + (bytes.length + 1) := by
    rw [hread.length, writtenBody_length, List.length_cons]
  have hwritten := hbytes.length
  have hheader : headerSize = 4 := rfl
  have hentry : additionalInfoEntryHeader = 5 := rfl
  have hminimum : additionalInfoMinimumLength = 11 := rfl
  rw [additionalInfoOf, hdecode, hlong]
  constructor
  · intro hvalues
    have hvalue := entriesLength_values hvalues
    rw [if_neg (by omega)]
    exact hsome hvalues.2
  · intro hvalues
    by_cases hnil : entries = []
    · subst hnil
      have hzero : bytes.length = 0 := hwritten
      rw [if_pos (by omega)]
    · have hshort : ∃ entry ∈ entries, entry.value.bytes = [] := by
        by_contra hall
        exact hvalues ⟨hnil, fun entry hm hempty => hall ⟨entry, hm, hempty⟩⟩
      split_ifs
      · rfl
      · exact hnone hshort

def valuesHeld : ℕ → List Byte → Bool
  | 0, _ => true
  | count + 1, entry =>
    decide (additionalInfoEntryHeader < entry.length) &&
      valuesHeld count (entry.drop (entry.headD 0).toNat)

def holdsValues (body : List Byte) : Bool :=
  body.getD headerSize 0 != 0 &&
    valuesHeld (body.getD headerSize 0).toNat (body.drop (headerSize + 1))

lemma Entries.values (h : Entries source p entries q) :
    valuesHeld entries.length (source.body.drop p) = true ↔
      ∀ entry ∈ entries, entry.value.bytes ≠ [] := by
  induction h with
  | nil => simp [valuesHeld]
  | @cons p q entry entries here rest ih =>
    have hfits := here.fits
    have hlong := here.long
    have hlength := here.length
    have hheader : additionalInfoEntryHeader = 5 := rfl
    have hhead : (source.body.drop p).headD 0 = source.body.getD p 0 := by
      rw [List.headD_eq_head?_getD, List.head?_drop, List.getD_eq_getElem?_getD]
    have hnext : (source.body.drop p).drop (source.body.getD p 0).toNat =
        source.body.drop (entryEnd p entry) := by
      rw [List.drop_drop]
      by_cases hcut : p + (source.body.getD p 0).toNat ≤ source.body.length
      · have hend : entryEnd p entry = p + (source.body.getD p 0).toNat := by
          rw [entryEnd]
          omega
        rw [hend]
      · have hend : entryEnd p entry = source.body.length := by
          rw [entryEnd]
          omega
        rw [hend, List.drop_of_length_le (by omega), List.drop_length]
    rw [List.length_cons, valuesHeld, Bool.and_eq_true, hhead, hnext, ih, List.forall_mem_cons,
      decide_eq_true_eq, List.length_drop, ← List.length_pos_iff]
    refine and_congr_left fun _ => ?_
    omega

lemma holdsValues_iff (hdecode : additionalInfoDecode source = some entries) :
    holdsValues source.body = true ↔ HasValues entries := by
  obtain ⟨-, hcount, q, hentries⟩ := additionalInfoDecode_at hdecode
  have hnil : source.body.getD headerSize 0 ≠ 0 ↔ entries ≠ [] := by
    rw [← List.length_pos_iff, hcount, Nat.pos_iff_ne_zero, ← UInt8.toNat_zero, ne_eq, ne_eq,
      UInt8.toNat_inj]
  rw [holdsValues, HasValues, Bool.and_eq_true, bne_iff_ne, hnil, ← hcount, hentries.values]

/-- Additional information is written as the body it has been read from. Written anew, it is read as
the same entries exactly when there are entries and no value of theirs is cut to nothing. -/
theorem additionalInfo_round_trips {buffer : Buffer} {offset tableVersion version : ℕ}
    {entity : Entity} {entries : List AdditionalEntry}
    (hcreate : entityCreate buffer offset = .ok entity)
    (hdecode : additionalInfoOf tableVersion entity = some entries) :
    (additionalInfoWritten (preserving (entitySource entity tableVersion) version) entries).bind
        (encoderFinish (preserving (entitySource entity tableVersion) version)) =
      some (entitySource entity tableVersion).body ∧
    ((∀ bytes, additionalInfoCanonical (entitySource entity tableVersion) version entries =
        some bytes → ∀ address, ∃ written again, entityCreate ⟨address, bytes⟩ 0 = .ok written ∧
          additionalInfoOf tableVersion written = some again ∧
          List.Forall₂ SameEntry entries again) ↔
      holdsValues (entitySource entity tableVersion).body = true) := by
  have hs : SourceOk (entitySource entity tableVersion) := entitySource_ok hcreate
  have hok : StringsOk (entitySource entity tableVersion) := entityCreate_strings hcreate
  obtain ⟨hlong, hdecode⟩ : ¬ entity.bodyLength < additionalInfoMinimumLength ∧
      additionalInfoDecode (entitySource entity tableVersion) = some entries := by
    rw [additionalInfoOf] at hdecode
    split_ifs at hdecode with hshort
    exact ⟨hshort, hdecode⟩
  refine ⟨additionalInfo_preserved hs hdecode, ?_⟩
  obtain ⟨state, bytes, hwritten, hfinish, hlength, htexts, hbytes⟩ :=
    additionalInfoWritten_anew version hs hok hdecode
  have hcount : entries.length < 256 := by
    obtain ⟨-, hcount, -⟩ := additionalInfoDecode_at hdecode
    rw [hcount]
    exact UInt8.toNat_lt _
  have hcanonical : additionalInfoCanonical (entitySource entity tableVersion) version entries =
      some (structureBytes (writtenBody (entitySource entity tableVersion)
        (UInt8.ofNat entries.length :: bytes))
        state.strings) := by
    rw [additionalInfoCanonical, hwritten, Option.bind_some, hfinish, Option.map_some]
  have hheader : headerSize ≤
      (writtenBody (entitySource entity tableVersion)
        (UInt8.ofNat entries.length :: bytes)).length := by
    rw [writtenBody_length]
    omega
  rw [holdsValues_iff hdecode]
  constructor
  · intro hagain
    obtain ⟨written, again, hcreated, hread, -⟩ := hagain _ hcanonical 0
    obtain ⟨created, hok', hback⟩ := entityCreate_structureBytes 0 hheader
      (writtenBody_declares hlength) htexts.reduce.2
    rw [structureBytes, hok'] at hcreated
    obtain rfl := Except.ok.inj hcreated
    by_contra hvalues
    rw [(additionalInfo_again tableVersion hbytes hcount htexts hback).2 hvalues] at hread
    cases hread
  · intro hvalues written hwritten' address
    rw [hcanonical, Option.some.injEq] at hwritten'
    subst hwritten'
    obtain ⟨created, hok', hback⟩ := entityCreate_structureBytes address hheader
      (writtenBody_declares hlength) htexts.reduce.2
    obtain ⟨again, hread, hsame⟩ :=
      (additionalInfo_again tableVersion hbytes hcount htexts hback).1 hvalues
    exact ⟨created, again, hok', hread, hsame⟩

def additionalBuffer (body : List Byte) : Buffer :=
  ⟨0, [40, UInt8.ofNat (headerSize + body.length), 1, 0] ++ body ++ [0, 0]⟩

def additionalEntity (body : List Byte) : Entity :=
  ⟨40, headerSize + body.length, 1, additionalBuffer body, 0, 2, headerSize + body.length + 2, [],
    none, none⟩

def oneEntry : List Byte := [1, 6, 2, 0, 4, 0, 0x55]

def cutEntries : List Byte := [2, 6, 2, 0, 4, 0, 0x55, 9, 2, 0, 5, 0]

theorem additionalInfo_round_trips_one :
    (additionalInfoWritten (preserving (entitySource (additionalEntity oneEntry) 0) 0)
        [⟨2, 4, .null, ⟨some 10, [0x55]⟩⟩]).bind
        (encoderFinish (preserving (entitySource (additionalEntity oneEntry) 0) 0)) =
      some (entitySource (additionalEntity oneEntry) 0).body := by
  have hcreate : entityCreate (additionalBuffer oneEntry) 0 = .ok (additionalEntity oneEntry) := by
    decide
  have hdecode : additionalInfoOf 0 (additionalEntity oneEntry) =
      some [⟨2, 4, .null, ⟨some 10, [0x55]⟩⟩] := by decide
  exact (additionalInfo_round_trips hcreate hdecode).1

theorem cut_value_is_not_read_again :
    entityCreate (additionalBuffer cutEntries) 0 = .ok (additionalEntity cutEntries) ∧
      additionalInfoOf 0 (additionalEntity cutEntries) =
        some [⟨2, 4, .null, ⟨some 10, [0x55]⟩⟩, ⟨2, 5, .null, ⟨none, []⟩⟩] ∧
      additionalInfoCanonical (entitySource (additionalEntity cutEntries) 0) 0
        [⟨2, 4, .null, ⟨some 10, [0x55]⟩⟩, ⟨2, 5, .null, ⟨none, []⟩⟩] =
          some [40, 16, 1, 0, 2, 6, 2, 0, 4, 0, 0x55, 5, 2, 0, 5, 0, 0, 0] ∧
      ∃ written, entityCreate ⟨0, [40, 16, 1, 0, 2, 6, 2, 0, 4, 0, 0x55, 5, 2, 0, 5, 0, 0, 0]⟩ 0 =
        .ok written ∧ additionalInfoOf 0 written = none :=
  ⟨by decide, by decide, by decide, additionalEntity
    [2, 6, 2, 0, 4, 0, 0x55, 5, 2, 0, 5, 0], by decide, by decide⟩

end OpenDmi

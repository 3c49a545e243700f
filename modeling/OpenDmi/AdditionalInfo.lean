import OpenDmi.MgmtRoundTrip
import OpenDmi.Overlay

namespace OpenDmi

open Bytes

variable {source : Source} {version p q : ℕ} {state next : DecodeState} {out : EncodeState}
  {entry : AdditionalEntry} {entries : List AdditionalEntry}

section Encode

variable (encoder : Encoder)

/-- The length an entry is declared to be of, which is the one of the source where the source has
it cut to the very value. -/
def additionalInfoEntryLength (entry : AdditionalEntry) (state : EncodeState) : ℕ :=
  let length := additionalInfoEntryHeader + entry.value.bytes.length
  match encoderPeek encoder 1 state with
  | none => length
  | some peeked =>
    let original := (peeked.headD 0).toNat
    if original > additionalInfoEntryHeader ∧
        encoderRemaining encoder state ≥ additionalInfoEntryHeader ∧
        min (original - additionalInfoEntryHeader)
          (encoderRemaining encoder state - additionalInfoEntryHeader) =
          entry.value.bytes.length then original
    else length

def additionalInfoEntryEncode (state : EncodeState) (entry : AdditionalEntry) :
    Option EncodeState :=
  let length := additionalInfoEntryLength encoder entry state
  if length > 255 then none
  else (putString encoder entry.string (putByte encoder entry.referencedOffset
    (putBytes encoder (leStore 2 entry.referencedHandle) (putByte encoder length state)))).map
      (putBytes encoder entry.value.bytes)

def additionalInfoEncode (entries : List AdditionalEntry) (state : EncodeState) :
    Option EncodeState :=
  entries.foldlM (additionalInfoEntryEncode encoder) (putByte encoder entries.length state)

def additionalInfoWritten (entries : List AdditionalEntry) : Option EncodeState :=
  (additionalInfoEncode encoder entries (encoderInitialize encoder)).map fun state =>
    encoderCopy encoder (encoderRemaining encoder state) state

end Encode

structure EntryAt (source : Source) (p : ℕ) (entry : AdditionalEntry) : Prop where
  fits : p + additionalInfoEntryHeader ≤ source.body.length
  long : additionalInfoEntryHeader < (source.body.getD p 0).toNat
  handle : entry.referencedHandle = leLoad (window source.body (p + 1) 2)
  offset : entry.referencedOffset = (source.body.getD (p + 3) 0).toNat
  string : entry.string = entityString source (source.body.getD (p + 4) 0).toNat
  length : entry.value.bytes.length = min ((source.body.getD p 0).toNat - additionalInfoEntryHeader)
    (source.body.length - (p + additionalInfoEntryHeader))
  value : entry.value.bytes =
    window source.body (p + additionalInfoEntryHeader) entry.value.bytes.length

def entryEnd (p : ℕ) (entry : AdditionalEntry) : ℕ :=
  p + additionalInfoEntryHeader + entry.value.bytes.length

inductive Entries (source : Source) : ℕ → List AdditionalEntry → ℕ → Prop
  | nil {p : ℕ} : Entries source p [] p
  | cons {p q : ℕ} {entry : AdditionalEntry} {entries : List AdditionalEntry}
      (here : EntryAt source p entry) (rest : Entries source (entryEnd p entry) entries q) :
      Entries source p (entry :: entries) q

lemma EntryAt.end_le (h : EntryAt source p entry) : entryEnd p entry ≤ source.body.length := by
  have hfits := h.fits
  have hlength := h.length
  rw [entryEnd]
  omega

lemma readNumber_byte {number : ℕ} (h : readNumber source 1 state = some (number, next)) :
    state.position < source.body.length ∧
      number = (source.body.getD state.position 0).toNat ∧
      next = { state with position := state.position + 1 } := by
  obtain ⟨-, -, hfits, rfl, rfl⟩ := readNumber_some h
  refine ⟨by omega, ?_, rfl⟩
  rw [window_byte (by omega)]
  simp only [leLoad, Nat.mul_zero, Nat.add_zero]

lemma entryDecode_at (h : additionalInfoEntryDecode source state = some (entry, next)) :
    EntryAt source state.position entry ∧ next.position = entryEnd state.position entry := by
  simp only [additionalInfoEntryDecode, Option.bind_eq_bind, Option.bind_eq_some_iff] at h
  obtain ⟨⟨length, s1⟩, hlength, ⟨handle, s2⟩, hhandle, ⟨offset, s3⟩, hoffset, ⟨number, s4⟩, hnumber,
    h⟩ := h
  obtain ⟨h1, rfl, rfl⟩ := readNumber_byte hlength
  obtain ⟨-, -, h2, rfl, rfl⟩ := readNumber_some hhandle
  obtain ⟨h3, rfl, rfl⟩ := readNumber_byte hoffset
  obtain ⟨h4, rfl, rfl⟩ := readNumber_byte hnumber
  simp only at h h2 h3 h4
  split_ifs at h with hshort
  obtain ⟨⟨value, s5⟩, hbinary, h⟩ := Option.bind_eq_some_iff.mp h
  obtain ⟨h5, hvalue, rfl⟩ := decoderGetBinary_some hbinary
  cases h
  have hheader : additionalInfoEntryHeader = 5 := rfl
  have hremaining : readerRemaining source { state with position := state.position + 1 + 2 + 1 + 1 } =
      source.body.length - (state.position + additionalInfoEntryHeader) := rfl
  rw [hremaining] at h5 hvalue
  have hbytes : value.bytes.length =
      min ((source.body.getD state.position 0).toNat - additionalInfoEntryHeader)
        (source.body.length - (state.position + additionalInfoEntryHeader)) := by
    rw [hvalue]
    exact window_length h5
  have hwindow : value.bytes = window source.body (state.position + additionalInfoEntryHeader)
      value.bytes.length := by
    rw [hbytes, hvalue]
    rfl
  refine ⟨⟨by omega, by omega, rfl, rfl, rfl, hbytes, hwindow⟩, ?_⟩
  simp only [entryEnd, hbytes]
  rfl

lemma entriesDecode_at {count : ℕ} (h : additionalInfoEntries source count state = some entries) :
    entries.length = count ∧ ∃ q, Entries source state.position entries q := by
  induction count generalizing state entries with
  | zero =>
    cases h
    exact ⟨rfl, _, .nil⟩
  | succ count ih =>
    simp only [additionalInfoEntries, Option.bind_eq_bind, Option.bind_eq_some_iff] at h
    obtain ⟨⟨entry, next⟩, hentry, rest, hrest, heq⟩ := h
    cases heq
    obtain ⟨hat, hend⟩ := entryDecode_at hentry
    obtain ⟨hlength, q, hq⟩ := ih hrest
    refine ⟨by rw [List.length_cons, hlength], q, .cons hat ?_⟩
    rwa [hend] at hq

lemma additionalInfoDecode_at (h : additionalInfoDecode source = some entries) :
    headerSize < source.body.length ∧
      entries.length = (source.body.getD headerSize 0).toNat ∧
      ∃ q, Entries source (headerSize + 1) entries q := by
  obtain ⟨⟨count, state⟩, hcount, h⟩ := Option.bind_eq_some_iff.mp h
  obtain ⟨hfits, rfl, rfl⟩ := readNumber_byte hcount
  exact ⟨hfits, entriesDecode_at h⟩

structure InSource (source : Source) (p : ℕ) (out : EncodeState) : Prop extends
    AtByte source p out where
  strings : out.strings = source.strings.map fun string => some string.raw

lemma encoderInitialize_inSource (version : ℕ) (hlong : headerSize ≤ source.body.length) :
    InSource source headerSize (encoderInitialize (preserving source version)) :=
  ⟨encoderInitialize_atByte version hlong, rfl⟩

lemma InSource.putBytes (version : ℕ) {length : ℕ} {bytes : List Byte} (h : InSource source p out)
    (hbytes : bytes = window source.body p length) (hfits : p + length ≤ source.body.length) :
    InSource source (p + length) (putBytes (preserving source version) bytes out) :=
  ⟨h.toAtByte.putBytes version hbytes hfits, h.strings⟩

lemma InSource.putByte (version : ℕ) {number : ℕ} (h : InSource source p out)
    (hfits : p < source.body.length) (hnumber : number = (source.body.getD p 0).toNat) :
    InSource source (p + 1) (putByte (preserving source version) number out) :=
  ⟨h.toAtByte.putByte version hfits hnumber, h.strings⟩

lemma InSource.peek (version : ℕ) (h : InSource source p out) (hfits : p < source.body.length) :
    encoderPeek (preserving source version) 1 out = some [source.body.getD p 0] := by
  have hposition := h.position
  rw [encoderPeek_some version (by omega), hposition, window_byte hfits]

lemma InSource.putString (version : ℕ) (h : InSource source p out) (hfits : p < source.body.length) :
    ∃ after, putString (preserving source version)
        (entityString source (source.body.getD p 0).toNat) out = some after ∧
      InSource source (p + 1) after := by
  have hpeek := h.peek version hfits
  have hlt := (source.body.getD p 0).toNat_lt
  have hput := h.putByte version hfits rfl
  rw [OpenDmi.putByte, UInt8.ofNat_toNat] at hput
  refine ⟨_, ?_, hput⟩
  by_cases hzero : (source.body.getD p 0).toNat = 0
  · have hbyte : source.body.getD p 0 = 0 := UInt8.toNat_inj.mp hzero
    rw [entityString, if_pos hzero]
    simp only [OpenDmi.putString, hpeek, hbyte]
    rfl
  · rw [entityString, if_neg hzero]
    have hbyte : source.body.getD p 0 ≠ 0 := fun hb => hzero (by rw [hb]; rfl)
    cases hstring : source.strings[(source.body.getD p 0).toNat - 1]? with
    | none =>
      have hnone : hasString out (source.body.getD p 0).toNat = false := by
        rw [hasString, h.strings, List.getElem?_map, hstring]
        simp
      simp only [OpenDmi.putString, hpeek]
      rw [if_pos ⟨hbyte, hnone⟩]
    | some string =>
      have hnumber : (source.body.getD p 0).toNat - 1 + 1 = (source.body.getD p 0).toNat := by omega
      simp only [OpenDmi.putString, Option.bind_some, hstring, Option.map_some, hnumber]
      rw [if_neg (by omega), UInt8.ofNat_toNat]

lemma entryLength_source (version : ℕ) (h : InSource source p out) (hat : EntryAt source p entry) :
    additionalInfoEntryLength (preserving source version) entry out =
      (source.body.getD p 0).toNat := by
  have hfits := hat.fits
  have hheader : additionalInfoEntryHeader = 5 := rfl
  have hremaining : encoderRemaining (preserving source version) out = source.body.length - p := by
    rw [← h.position]
    rfl
  have hsub : source.body.length - p - additionalInfoEntryHeader =
      source.body.length - (p + additionalInfoEntryHeader) := by omega
  simp only [additionalInfoEntryLength, h.peek version (show p < source.body.length by omega),
    List.headD_cons, hremaining, hsub]
  rw [if_pos ⟨hat.long, by omega, hat.length.symm⟩]

lemma entryEncode_source (version : ℕ) (h : InSource source p out) (hat : EntryAt source p entry) :
    ∃ after, additionalInfoEntryEncode (preserving source version) out entry = some after ∧
      InSource source (entryEnd p entry) after := by
  have hfits := hat.fits
  have hend := hat.end_le
  have hheader : additionalInfoEntryHeader = 5 := rfl
  have hlt := (source.body.getD p 0).toNat_lt
  have hhandle : leStore 2 entry.referencedHandle = window source.body (p + 1) 2 := by
    have hstore := leStore_leLoad (window source.body (p + 1) 2)
    rwa [window_length (by omega), ← hat.handle] at hstore
  have hlength := h.putByte version (by omega) rfl
  have hoffset : InSource source (p + 1 + 2 + 1) (putByte (preserving source version)
      entry.referencedOffset _) :=
    (hlength.putBytes version hhandle (by omega)).putByte version (by omega) hat.offset
  obtain ⟨after, hafter, hin⟩ := hoffset.putString version (by omega)
  rw [additionalInfoEntryEncode, entryLength_source version h hat, if_neg (by omega)]
  have hstring : entry.string = entityString source (source.body.getD (p + 1 + 2 + 1) 0).toNat :=
    hat.string
  rw [hstring, hafter, Option.map_some]
  refine ⟨_, rfl, ?_⟩
  have hvalue := hin.putBytes version hat.value (by rw [entryEnd] at hend; omega)
  exact hvalue

lemma Entries.encode (version : ℕ) (hentries : Entries source p entries q)
    (h : InSource source p out) :
    ∃ after, entries.foldlM (additionalInfoEntryEncode (preserving source version)) out =
        some after ∧ InSource source q after := by
  induction hentries generalizing out with
  | nil => exact ⟨out, rfl, h⟩
  | cons here rest ih =>
    obtain ⟨middle, hmiddle, hin⟩ := entryEncode_source version h here
    obtain ⟨after, hafter, hlast⟩ := ih hin
    refine ⟨after, ?_, hlast⟩
    rw [List.foldlM_cons, hmiddle]
    exact hafter

theorem additionalInfo_preserved (hs : SourceOk source)
    (hdecode : additionalInfoDecode source = some entries) :
    (additionalInfoWritten (preserving source version) entries).bind
      (encoderFinish (preserving source version)) = some source.body := by
  obtain ⟨hfits, hcount, q, hentries⟩ := additionalInfoDecode_at hdecode
  have hbegun := (encoderInitialize_inSource version hs.long).putByte version hfits hcount
  obtain ⟨after, hafter, hin⟩ := hentries.encode version hbegun
  rw [additionalInfoWritten, additionalInfoEncode, hafter, Option.map_some, Option.bind_some]
  exact hin.toAtByte.finish version hs

end OpenDmi

import OpenDmi.MgmtRoundTrip
import OpenDmi.StructureBytes

/-! Token tables of Dell structures: records of a fixed size, some of them unused, up to the marker
which ends them or to the end of the data. -/

namespace OpenDmi

open Bytes

def dellTokenUnused : ℕ := 0x0000
def dellTokenEot : ℕ := 0xFFFF

/-- Functions which read the rest of a token, after its identifier, and write a token. All of the
records have one size, and a token which has been read is written as its record. -/
structure TokenCodec (T : Type) where
  recordSize : ℕ
  decode : Source → ℕ → DecodeState → Option (T × DecodeState)
  encode : Encoder → T → EncodeState → EncodeState
  read : ℕ → List Byte → T
  bytes : T → List Byte
  large : 2 ≤ recordSize
  decode_eq : ∀ source id state, decode source id state =
    (readerGet source (recordSize - 2) state).map fun (rest, state) => (read id rest, state)
  encode_eq : ∀ encoder token state, encode encoder token state =
    putBytes encoder (bytes token) state
  same : ∀ id rest, id < 256 ^ 2 → rest.length = recordSize - 2 →
    bytes (read id rest) = leStore 2 id ++ rest

structure DellIndexedIoToken where
  id : ℕ
  location : ℕ
  andMask : ℕ
  isString : Bool
  orValue : ℕ
  stringLength : ℕ
  deriving DecidableEq

structure DellCallingIfaceToken where
  id : ℕ
  location : ℕ
  value : ℕ
  deriving DecidableEq

def dellIndexedIoDecodeToken (source : Source) (id : ℕ) (state : DecodeState) :
    Option (DellIndexedIoToken × DecodeState) := do
  let (location, state) ← decoderGet source 1 state
  let (andMask, state) ← decoderGet source 1 state
  let (value, state) ← decoderGet source 1 state
  -- String tokens have no mask, and their value is the length of the string
  let isString := andMask == 0
  some (⟨id, location, andMask, isString, if isString then 0 else value,
    if isString then value else 0⟩, state)

def dellIndexedIoEncodeToken (encoder : Encoder) (token : DellIndexedIoToken)
    (state : EncodeState) : EncodeState :=
  let value := if token.isString then token.stringLength else token.orValue
  putByte encoder value (putByte encoder token.andMask (putByte encoder token.location
    (putBytes encoder (leStore 2 token.id) state)))

def dellCallingIfaceDecodeToken (source : Source) (id : ℕ) (state : DecodeState) :
    Option (DellCallingIfaceToken × DecodeState) := do
  let (location, state) ← decoderGet source 2 state
  let (value, state) ← decoderGet source 2 state
  some (⟨id, location, value⟩, state)

def dellCallingIfaceEncodeToken (encoder : Encoder) (token : DellCallingIfaceToken)
    (state : EncodeState) : EncodeState :=
  putBytes encoder (leStore 2 token.value) (putBytes encoder (leStore 2 token.location)
    (putBytes encoder (leStore 2 token.id) state))

lemma putBytes_putBytes (encoder : Encoder) (a b : List Byte) (state : EncodeState) :
    putBytes encoder b (putBytes encoder a state) = putBytes encoder (a ++ b) state := by
  have hposition : state.position + min a.length (encoderRemaining encoder state) +
      min b.length (encoderRemaining encoder (putBytes encoder a state)) =
      state.position + min (a ++ b).length (encoderRemaining encoder state) := by
    cases encoder with
    | mk source mode version =>
      cases mode with
      | preserve =>
        simp only [encoderRemaining, putBytes, List.length_append]
        omega
      | canonical => simp [encoderRemaining]
  simp only [putBytes, List.append_assoc] at hposition ⊢
  rw [hposition]

section Get

variable {source : Source} {state : DecodeState} {length n : ℕ}

lemma readerGet_short (h : ¬ state.position + length ≤ source.body.length) :
    readerGet source length state = none := if_neg h

lemma decoderGet_short (h : ¬ state.position + length ≤ source.body.length) :
    decoderGet source length state = none := by
  rw [decoderGet, readerGet_short h]
  rfl

end Get

lemma window_window {data : List Byte} {p size offset length : ℕ} (h : offset + length ≤ size) :
    window (window data p size) offset length = window data (p + offset) length := by
  rw [window, window, window, ← List.drop_drop, List.drop_take, List.take_take,
    min_eq_left (by omega)]

def dellIndexedIoRead (id : ℕ) (rest : List Byte) : DellIndexedIoToken :=
  let isString := leLoad (window rest 1 1) == 0
  ⟨id, leLoad (window rest 0 1), leLoad (window rest 1 1), isString,
    if isString then 0 else leLoad (window rest 2 1),
    if isString then leLoad (window rest 2 1) else 0⟩

def dellCallingIfaceRead (id : ℕ) (rest : List Byte) : DellCallingIfaceToken :=
  ⟨id, leLoad (window rest 0 2), leLoad (window rest 2 2)⟩

lemma dellIndexedIoDecodeToken_eq (source : Source) (id : ℕ) (state : DecodeState) :
    dellIndexedIoDecodeToken source id state = (readerGet source 3 state).map fun (rest, state) =>
      (dellIndexedIoRead id rest, state) := by
  rw [dellIndexedIoDecodeToken]
  simp only [Option.bind_eq_bind]
  by_cases h1 : state.position + 1 ≤ source.body.length
  swap
  · rw [decoderGet_short h1, readerGet_short (by omega)]
    rfl
  rw [decoderGet_fits h1, Option.bind_some]
  by_cases h2 : state.position + 1 + 1 ≤ source.body.length
  swap
  · rw [decoderGet_short h2, readerGet_short (by omega)]
    rfl
  rw [decoderGet_fits h2, Option.bind_some]
  by_cases h3 : state.position + 1 + 1 + 1 ≤ source.body.length
  swap
  · rw [decoderGet_short h3, readerGet_short (by omega)]
    rfl
  rw [decoderGet_fits h3, Option.bind_some, readerGet_fits (by omega)]
  simp only [Option.map_some, dellIndexedIoRead, window_window (show 0 + 1 ≤ 3 by omega),
    window_window (show 1 + 1 ≤ 3 by omega), window_window (show 2 + 1 ≤ 3 by omega)]
  rfl

lemma dellCallingIfaceDecodeToken_eq (source : Source) (id : ℕ) (state : DecodeState) :
    dellCallingIfaceDecodeToken source id state = (readerGet source 4 state).map fun (rest, state) =>
      (dellCallingIfaceRead id rest, state) := by
  rw [dellCallingIfaceDecodeToken]
  simp only [Option.bind_eq_bind]
  by_cases h1 : state.position + 2 ≤ source.body.length
  swap
  · rw [decoderGet_short h1, readerGet_short (by omega)]
    rfl
  rw [decoderGet_fits h1, Option.bind_some]
  by_cases h2 : state.position + 2 + 2 ≤ source.body.length
  swap
  · rw [decoderGet_short h2, readerGet_short (by omega)]
    rfl
  rw [decoderGet_fits h2, Option.bind_some, readerGet_fits (by omega)]
  simp only [Option.map_some, dellCallingIfaceRead, window_window (show 0 + 2 ≤ 4 by omega),
    window_window (show 2 + 2 ≤ 4 by omega)]
  rfl

lemma ofNat_leLoad_window {data : List Byte} {p : ℕ} (h : p < data.length) :
    UInt8.ofNat (leLoad (window data p 1)) = data.getD p 0 := by
  rw [window_byte h]
  simp [leLoad]

lemma leStore_leLoad_window {data : List Byte} {p length : ℕ} (h : p + length ≤ data.length) :
    leStore length (leLoad (window data p length)) = window data p length := by
  have hstore := leStore_leLoad (window data p length)
  rwa [window_length h] at hstore

def dellIndexedIoBytes (token : DellIndexedIoToken) : List Byte :=
  leStore 2 token.id ++ [UInt8.ofNat token.location, UInt8.ofNat token.andMask,
    UInt8.ofNat (if token.isString then token.stringLength else token.orValue)]

lemma dellIndexedIoEncodeToken_eq (encoder : Encoder) (token : DellIndexedIoToken)
    (state : EncodeState) : dellIndexedIoEncodeToken encoder token state =
      putBytes encoder (dellIndexedIoBytes token) state := by
  simp only [dellIndexedIoEncodeToken, putByte, putBytes_putBytes, List.append_assoc]
  rfl

lemma dellIndexedIoBytes_read (id : ℕ) {rest : List Byte} (hlength : rest.length = 3) :
    dellIndexedIoBytes (dellIndexedIoRead id rest) = leStore 2 id ++ rest := by
  have hvalue : (if (dellIndexedIoRead id rest).isString then
      (dellIndexedIoRead id rest).stringLength else (dellIndexedIoRead id rest).orValue) =
      leLoad (window rest 2 1) := by
    simp only [dellIndexedIoRead]
    split_ifs <;> rfl
  rw [dellIndexedIoBytes, hvalue]
  simp only [dellIndexedIoRead, ofNat_leLoad_window (show 0 < rest.length by omega),
    ofNat_leLoad_window (show 1 < rest.length by omega),
    ofNat_leLoad_window (show 2 < rest.length by omega)]
  congr 1
  match rest, hlength with
  | [_, _, _], _ => rfl

def dellIndexedIoCodec : TokenCodec DellIndexedIoToken where
  recordSize := 5
  decode := dellIndexedIoDecodeToken
  encode := dellIndexedIoEncodeToken
  read := dellIndexedIoRead
  bytes := dellIndexedIoBytes
  large := Nat.le_add_left 2 3
  decode_eq := dellIndexedIoDecodeToken_eq
  encode_eq := dellIndexedIoEncodeToken_eq
  same id _ _ hlength := dellIndexedIoBytes_read id hlength

def dellCallingIfaceBytes (token : DellCallingIfaceToken) : List Byte :=
  leStore 2 token.id ++ leStore 2 token.location ++ leStore 2 token.value

lemma dellCallingIfaceEncodeToken_eq (encoder : Encoder) (token : DellCallingIfaceToken)
    (state : EncodeState) : dellCallingIfaceEncodeToken encoder token state =
      putBytes encoder (dellCallingIfaceBytes token) state := by
  simp only [dellCallingIfaceEncodeToken, dellCallingIfaceBytes, putBytes_putBytes]

lemma dellCallingIfaceBytes_read (id : ℕ) {rest : List Byte} (hlength : rest.length = 4) :
    dellCallingIfaceBytes (dellCallingIfaceRead id rest) = leStore 2 id ++ rest := by
  simp only [dellCallingIfaceBytes, dellCallingIfaceRead,
    leStore_leLoad_window (show 0 + 2 ≤ rest.length by omega),
    leStore_leLoad_window (show 2 + 2 ≤ rest.length by omega), List.append_assoc]
  rw [← window_append rest 0 2 2, window, List.drop_zero, List.take_of_length_le (by omega)]

def dellCallingIfaceCodec : TokenCodec DellCallingIfaceToken where
  recordSize := 6
  decode := dellCallingIfaceDecodeToken
  encode := dellCallingIfaceEncodeToken
  read := dellCallingIfaceRead
  bytes := dellCallingIfaceBytes
  large := Nat.le_add_left 2 4
  decode_eq := dellCallingIfaceDecodeToken_eq
  encode_eq := dellCallingIfaceEncodeToken_eq
  same id _ _ hlength := dellCallingIfaceBytes_read id hlength

section Decode

variable {T : Type} (codec : TokenCodec T) (source : Source)

def dellTokensLoop : ℕ → DecodeState → Option (Bool × List T × DecodeState)
  | 0, _ => none
  | fuel + 1, state => match decoderGet source 2 state with
    | none =>
      let (ok, state) := decoderIncomplete source state
      some (ok, [], state)
    | some (id, state) =>
      if id = dellTokenEot then
        some (true, [], (readerSkip source (readerRemaining source state) state).2)
      else match codec.decode source id state with
        | none =>
          let (ok, state) := decoderIncomplete source state
          some (ok, [], state)
        | some (token, state) =>
          if id = dellTokenUnused then dellTokensLoop fuel state
          else (dellTokensLoop fuel state).map fun (ok, tokens, state) => (ok, token :: tokens, state)

def dellTokensCapacity (state : DecodeState) : ℕ := readerRemaining source state / codec.recordSize

def dellTokensDecode (state : DecodeState) : Option (Bool × List T × DecodeState) :=
  dellTokensLoop codec source (readerRemaining source state + 1) state

end Decode

section Encode

variable {T : Type} (codec : TokenCodec T) (encoder : Encoder)

/-- The tokens which are left once the records of the source have been written over, along with what
has been written. -/
def dellTokensPreserve : ℕ → List T → EncodeState → Option (List T × EncodeState)
  | 0, _, _ => none
  | _ + 1, [], state => some ([], state)
  | fuel + 1, token :: tokens, state => match encoderPeek encoder 2 state with
    | none => some (token :: tokens, state)
    | some id =>
      if leLoad id = dellTokenEot ∨ encoderRemaining encoder state < codec.recordSize then
        some (token :: tokens, state)
      else if leLoad id = dellTokenUnused then
        dellTokensPreserve fuel (token :: tokens) (encoderCopy encoder codec.recordSize state)
      else dellTokensPreserve fuel tokens (codec.encode encoder token state)

def dellTokensWrite (tokens : List T) (state : EncodeState) : EncodeState :=
  tokens.foldl (fun state token => codec.encode encoder token state) state

def dellTokensEncode (tokens : List T) (state : EncodeState) : Option EncodeState :=
  match encoder.mode with
  | .preserve => (dellTokensPreserve codec encoder (encoderRemaining encoder state + 1) tokens
      state).map fun (tokens, state) => dellTokensWrite codec encoder tokens state
  | .canonical => some (putBytes encoder (leStore 2 dellTokenEot)
      (dellTokensWrite codec encoder tokens state))

end Encode

structure DellLayout (T : Type) where
  widths : List ℕ
  codec : TokenCodec T

structure DellTokens (T : Type) where
  numbers : List ℕ
  tokens : List T
  deriving DecidableEq

/-- Index port, data port, check type, check start, check end and check index. -/
def dellIndexedIo : DellLayout DellIndexedIoToken := ⟨[2, 2, 1, 1, 1, 1], dellIndexedIoCodec⟩

/-- Command I/O address, command I/O code and supported commands. -/
def dellCallingIface : DellLayout DellCallingIfaceToken := ⟨[2, 1, 4], dellCallingIfaceCodec⟩

def numbersGet (source : Source) : List ℕ → DecodeState → Option (List ℕ × DecodeState)
  | [], state => some ([], state)
  | width :: widths, state => (decoderGet source width state).bind fun (number, state) =>
    (numbersGet source widths state).map fun (numbers, state) => (number :: numbers, state)

def numbersPut (encoder : Encoder) : List ℕ → List ℕ → EncodeState → EncodeState
  | width :: widths, number :: numbers, state =>
    numbersPut encoder widths numbers (putBytes encoder (leStore width number) state)
  | _, _, state => state

variable {T : Type}

def dellDecode (layout : DellLayout T) (source : Source) (level : ℕ) :
    Option (Bool × DellTokens T × DecodeState) :=
  match numbersGet source layout.widths (decoderInitialize level) with
  | none => some (false, ⟨[], []⟩, decoderInitialize level)
  | some (numbers, state) =>
    (dellTokensDecode layout.codec source state).map fun (ok, tokens, state) =>
      (ok, ⟨numbers, tokens⟩, state)

def dellEncode (layout : DellLayout T) (encoder : Encoder) (info : DellTokens T) :
    Option EncodeState :=
  dellTokensEncode layout.codec encoder info.tokens
    (numbersPut encoder layout.widths info.numbers (encoderInitialize encoder))

def dellWritten (layout : DellLayout T) (encoder : Encoder) (info : DellTokens T) :
    Option EncodeState :=
  (dellEncode layout encoder info).map fun state =>
    encoderCopy encoder (encoderRemaining encoder state) state

def dellCanonical (layout : DellLayout T) (source : Source) (version : ℕ) (info : DellTokens T) :
    Option (List Byte) :=
  let encoder : Encoder := ⟨source, .canonical, version⟩
  (dellWritten layout encoder info).bind fun state =>
    (encoderFinish encoder state).map fun body => structureBytes body state.strings

def tokenId (bytes : List Byte) : ℕ := leLoad (bytes.take 2)

/-- The data as whole records, none of which begins with the marker, and what is left: the marker
and what follows it, or less than a record. -/
structure TokenRun (size : ℕ) (data : List Byte) (records : List (List Byte)) (rest : List Byte) :
    Prop where
  data : data = records.flatten ++ rest
  whole : ∀ record ∈ records, record.length = size ∧ tokenId record ≠ dellTokenEot
  ends : (2 ≤ rest.length ∧ tokenId rest = dellTokenEot) ∨ rest.length < size

def usedTokens (codec : TokenCodec T) (records : List (List Byte)) : List T :=
  (records.filter fun record => tokenId record != dellTokenUnused).map fun record =>
    codec.read (tokenId record) (record.drop 2)

end OpenDmi

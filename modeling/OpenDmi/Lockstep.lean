import OpenDmi.DecodeSteps
import OpenDmi.FieldEncode

/-! The encoder in step with the source: what it has written is what the decoder has read. -/

namespace OpenDmi

open Bytes

abbrev preserving (source : Source) (version : ℕ) : Encoder := ⟨source, .preserve, version⟩

variable {source : Source} {version width bits : ℕ} {out : EncodeState} {state next : DecodeState}

structure OnSource (source : Source) (out : EncodeState) : Prop where
  header : headerSize ≤ out.written.length
  begun : headerSize ≤ out.position
  written : out.written.drop headerSize =
    window source.body headerSize (out.position - headerSize)
  value : out.bitsValue = bitsAt source.body (8 * out.position) out.bitsCount
  bound : 8 * out.position + out.bitsCount ≤ 8 * source.body.length

def EncodeState.upTo (out : EncodeState) (source : Source) (position : ℕ) : EncodeState :=
  { out with
    written := out.written.take headerSize ++
      window source.body headerSize (position - headerSize)
    position := position }

@[simp] lemma upTo_position (position : ℕ) : (out.upTo source position).position = position := rfl

lemma take_upTo (source : Source) (h : headerSize ≤ out.written.length) (position : ℕ) :
    headerSize ≤ (out.upTo source position).written.length ∧
      (out.upTo source position).written.take headerSize = out.written.take headerSize ∧
      (out.upTo source position).written.drop headerSize =
        window source.body headerSize (position - headerSize) := by
  have hlen : (out.written.take headerSize).length = headerSize := by simpa using h
  refine ⟨by simp only [EncodeState.upTo, List.length_append]; omega, ?_, ?_⟩
  · rw [EncodeState.upTo, List.take_append_of_le_length hlen.ge, List.take_of_length_le hlen.le]
  · rw [EncodeState.upTo, List.drop_append_of_le_length hlen.ge, List.drop_of_length_le hlen.le,
      List.nil_append]

lemma upTo_upTo (h : headerSize ≤ out.written.length) (p q : ℕ) :
    (out.upTo source p).upTo source q = out.upTo source q := by
  rw [EncodeState.upTo, (take_upTo source h p).2.1]
  rfl

lemma OnSource.upTo {position : ℕ} (h : OnSource source out) (hcount : out.bitsCount = 0)
    (hvalue : out.bitsValue = 0) (hon : out.position ≤ position)
    (hbound : position ≤ source.body.length) : OnSource source (out.upTo source position) := by
  obtain ⟨hheader, -, hdrop⟩ := take_upTo source h.header position
  exact ⟨hheader, h.begun.trans hon, hdrop, by simp [EncodeState.upTo, hcount, hvalue],
    by simp only [EncodeState.upTo]; omega⟩

lemma OnSource.upTo_self (h : OnSource source out) : out.upTo source out.position = out := by
  rw [EncodeState.upTo, ← h.written, List.take_append_drop]

lemma encoderPeek_some (version : ℕ) (h : out.position + width ≤ source.body.length) :
    encoderPeek (preserving source version) width out =
      some (window source.body out.position width) := by
  rw [encoderPeek]
  exact if_pos h

lemma putBytes_source (version : ℕ) {bytes : List Byte} (h : OnSource source out)
    (hbytes : bytes = window source.body out.position bytes.length)
    (hfits : out.position + bytes.length ≤ source.body.length) :
    putBytes (preserving source version) bytes out =
      out.upTo source (out.position + bytes.length) := by
  have hmin : min bytes.length (source.body.length - out.position) = bytes.length := by omega
  have hbegun := h.begun
  have hadd : out.position + bytes.length - headerSize =
      out.position - headerSize + bytes.length := by omega
  have hend : headerSize + (out.position - headerSize) = out.position := by omega
  rw [putBytes, EncodeState.upTo, encoderRemaining]
  simp only [hmin]
  rw [hadd, window_append, hend, ← h.written, ← hbytes, ← List.append_assoc,
    List.take_append_drop]

lemma putBytes_window {length : ℕ} (h : OnSource source out)
    (hfits : out.position + length ≤ source.body.length) :
    putBytes (preserving source version) (window source.body out.position length) out =
      out.upTo source (out.position + length) := by
  have hlen : (window source.body out.position length).length = length := window_length hfits
  have hput := putBytes_source version h
    (show window source.body out.position length = _ by rw [hlen]) (by rw [hlen]; exact hfits)
  rwa [hlen] at hput

lemma encoderCopy_source {length : ℕ} (h : OnSource source out) (hcount : out.bitsCount = 0)
    (hvalue : out.bitsValue = 0) (hfits : out.position + length ≤ source.body.length) :
    encoderCopy (preserving source version) length out =
      out.upTo source (out.position + length) := by
  induction length generalizing out with
  | zero =>
    rw [encoderCopy, Nat.add_zero, h.upTo_self]
  | succ length ih =>
    have hpeek := encoderPeek_some version
      (show out.position + 1 ≤ source.body.length by omega)
    rw [encoderCopy, hpeek, window_one (by omega)]
    simp only [Option.getD_some, List.headD_cons]
    rw [putBytes_source _ h (window_one (by omega)).symm (by simp only [List.length_singleton]; omega)]
    rw [ih (h.upTo hcount hvalue (by omega) (by simp only [List.length_singleton]; omega)) hcount
      hvalue (by simp only [upTo_position, List.length_singleton]; omega), upTo_upTo h.header]
    simp only [upTo_position, List.length_singleton, Nat.add_assoc, Nat.add_comm length]

lemma putRaw_source (h : OnSource source out) (h0 : 0 < width) (h8 : width ≤ 8)
    (hfits : out.position + width ≤ source.body.length) :
    putRaw (preserving source version) width
        (leLoad (window source.body out.position width)) out =
      some (out.upTo source (out.position + width)) := by
  have hlen : (window source.body out.position width).length = width := window_length hfits
  have hstore := leStore_leLoad (window source.body out.position width)
  rw [hlen] at hstore
  rw [putRaw, if_neg (by omega), hstore, putBytes_window h hfits]

lemma header_length (typeId length handle : ℕ) : (header typeId length handle).length = headerSize := by
  simp [header, headerSize]

lemma encoderHeader_length (encoder : Encoder) (length : ℕ) :
    (encoderHeader encoder length).length = headerSize := by
  rw [encoderHeader]
  split_ifs
  · rename_i h
    rw [List.length_take, min_eq_left h.2.1]
  · exact header_length _ _ _
  · rename_i h
    rw [List.length_take, min_eq_left h.2.1]
  · exact header_length _ _ _

lemma ofNat_bitsAt (data : List Byte) (start n : ℕ) :
    UInt8.ofNat (bitsAt data start (8 + n)) = UInt8.ofNat (bitsAt data start 8) := by
  rw [← bitsAt_mod data start 8 n]
  exact (UInt8.ofNat_mod_size).symm

structure BitsPut (source : Source) (bits taken : ℕ) (out after : EncodeState) : Prop where
  on : OnSource source after
  cursor : 8 * after.position + after.bitsCount = 8 * out.position + out.bitsCount + bits
  left : after.bitsCount = (out.bitsCount + bits) % 8
  taken : after.bitsTaken = out.bitsTaken + taken
  stopped : after.stopped = out.stopped

lemma flushBits_source (version fuel : ℕ) (h : OnSource source out)
    (hfuel : out.bitsCount < 8 * (fuel + 1)) :
    BitsPut source 0 0 out (flushBits (preserving source version) fuel out) := by
  induction fuel generalizing out with
  | zero => exact ⟨h, rfl, by rw [flushBits]; omega, rfl, rfl⟩
  | succ fuel ih =>
    rw [flushBits]
    split_ifs with h8
    · obtain ⟨n, hn⟩ := Nat.exists_eq_add_of_le h8
      have hbound := h.bound
      have hbyte : [UInt8.ofNat out.bitsValue] = window source.body out.position 1 := by
        rw [window_one (by omega), h.value, hn, ofNat_bitsAt]
      have hvalue : out.bitsValue / 256 = bitsAt source.body (8 * (out.position + 1)) n := by
        rw [h.value, hn]
        exact bitsAt_div source.body (8 * out.position) 8 n
      rw [putBytes_source _ h hbyte (by simp only [List.length_singleton]; omega), hvalue]
      have hon : OnSource source { out.upTo source (out.position + 1) with
          bitsValue := bitsAt source.body (8 * (out.position + 1)) n
          bitsCount := out.bitsCount - 8 } :=
        ⟨(take_upTo source h.header _).1, h.begun.trans (by simp), (take_upTo source h.header _).2.2,
          by simp [EncodeState.upTo, hn], by simp only [EncodeState.upTo]; omega⟩
      have hrest := ih hon (by simp only; omega)
      refine ⟨hrest.on, hrest.cursor.trans ?_, hrest.left.trans ?_, hrest.taken, hrest.stopped⟩
      · simp only [upTo_position]
        omega
      · simp only
        omega
    · exact ⟨h, rfl, by omega, rfl, rfl⟩

lemma putBits_source (version : ℕ) {raw : ℕ} (h : OnSource source out)
    (hraw : raw = bitsAt source.body (8 * out.position + out.bitsCount) bits)
    (hfits : 8 * out.position + out.bitsCount + bits ≤ 8 * source.body.length) :
    BitsPut source bits bits out (putBits (preserving source version) raw bits out) := by
  have hmod : raw % 2 ^ bits = raw := by
    rw [hraw]
    exact Nat.mod_eq_of_lt (bitsAt_lt _ _ _)
  have hon : OnSource source { out with
      bitsValue := out.bitsValue + raw % 2 ^ bits * 2 ^ out.bitsCount
      bitsCount := out.bitsCount + bits
      bitsTaken := out.bitsTaken + bits } := by
    refine ⟨h.header, h.begun, h.written, ?_, by simp only; omega⟩
    simp only
    rw [hmod, hraw, bitsAt_append, ← h.value]
  obtain ⟨hon, hcursor, hleft, htaken, hstopped⟩ :=
    flushBits_source version (out.bitsCount + bits) hon (by simp only; omega)
  simp only at hcursor hleft htaken hstopped
  exact ⟨hon, by rw [putBits]; omega, hleft, htaken, hstopped⟩

lemma sourceBits_source (version : ℕ) (hbits : bits ≤ 56) (hcount : out.bitsCount < 8)
    (hfits : 8 * out.position + out.bitsCount + bits ≤ 8 * source.body.length) :
    sourceBits (preserving source version) bits out =
      bitsAt source.body (8 * out.position + out.bitsCount) bits := by
  have hlen : bitsLength bits out ≤ 8 := by
    rw [bitsLength]
    omega
  have hpeek := encoderPeek_some version
    (show out.position + bitsLength bits out ≤ source.body.length by rw [bitsLength]; omega)
  obtain ⟨left, hleft⟩ : ∃ left, 8 * bitsLength bits out = out.bitsCount + bits + left :=
    Nat.exists_eq_add_of_le (by rw [bitsLength]; omega)
  rw [sourceBits, if_neg (by omega), hpeek]
  simp only
  rw [leLoad_window_bitsAt, hleft, Nat.add_assoc, bitsAt_div, bitsAt_mod]

/-- The encoder has written the source up to the bit the decoder has read it to, `taken` bits
after a unit of bits has begun. -/
structure InStep (source : Source) (taken : ℕ) (state : DecodeState) (out : EncodeState) : Prop
    extends OnSource source out where
  going : out.stopped = false
  held : BitsHeld source state
  cursor : 8 * out.position + out.bitsCount = 8 * state.position - state.bitsCount
  takenOut : out.bitsTaken = taken
  takenState : state.bitsTaken = taken
  left : out.bitsCount = taken % 8
  few : state.bitsCount < 8

structure Stopped (source : Source) (out : EncodeState) : Prop extends OnSource source out where
  stopped : out.stopped = true
  whole : out.bitsCount = 0

lemma InStep.congr {taken : ℕ} (hin : InStep source taken state out)
    (hposition : next.position = state.position) (hvalue : next.bitsValue = state.bitsValue)
    (hcount : next.bitsCount = state.bitsCount) (htaken : next.bitsTaken = state.bitsTaken) :
    InStep source taken next out := by
  refine ⟨hin.toOnSource, hin.going, ⟨?_, ?_, ?_⟩, ?_, hin.takenOut, ?_, hin.left, ?_⟩ <;>
    simp only [hposition, hvalue, hcount, htaken]
  · exact hin.held.count
  · exact hin.held.value
  · exact hin.held.bound
  · exact hin.cursor
  · exact hin.takenState
  · exact hin.few

lemma InStep.aligned (h : InStep source 0 state out) :
    out.position = state.position ∧ out.bitsCount = 0 ∧ state.bitsCount = 0 ∧
      out.bitsValue = 0 ∧ state.bitsValue = 0 := by
  have hleft := h.left
  have hcursor := h.cursor
  have hfew := h.few
  have hcount := h.held.count
  have hout : out.bitsCount = 0 := by omega
  have hstate : state.bitsCount = 0 := by omega
  refine ⟨by omega, hout, hstate, ?_, ?_⟩
  · rw [h.value, hout, bitsAt_zero]
  · rw [h.held.value, hstate, bitsAt_zero]

lemma InStep.advance {position : ℕ} (h : InStep source 0 state out)
    (hon : state.position ≤ position) (hbound : position ≤ source.body.length)
    (hnext : next.position = position)
    (hrest : next.bitsValue = state.bitsValue ∧ next.bitsCount = state.bitsCount ∧
      next.bitsTaken = state.bitsTaken) :
    InStep source 0 next (out.upTo source position) := by
  obtain ⟨hpos, hout, hstate, hvo, hvs⟩ := h.aligned
  obtain ⟨hv, hc, ht⟩ := hrest
  refine ⟨h.toOnSource.upTo hout hvo (by omega) hbound, h.going, ⟨by omega, ?_, by omega⟩, ?_, h.takenOut,
    by rw [ht, h.takenState], h.left, by omega⟩
  · rw [hv, hc, hstate, bitsAt_zero, hvs]
  · simp only [EncodeState.upTo, hout, hc, hstate, hnext]
    omega

end OpenDmi

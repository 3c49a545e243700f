import OpenDmi.EncodeStep
import OpenDmi.WordBits

namespace OpenDmi

open Bytes

section Functions

variable (word : ℕ → ℕ)

def takeRanges (source : Source) : List ℕ → DecodeState → Option (Bool × List ℕ × DecodeState)
  | [], state => some (true, [], state)
  | bits :: ranges, state =>
    match takeWord word source bits state with
    | none => none
    | some (false, _, state) => some (false, [], state)
    | some (true, number, state) =>
      (takeRanges source ranges state).map fun (ok, numbers, state) =>
        (ok, number :: numbers, state)

def decodeRanges (source : Source) (ranges : List ℕ) (unit : ℕ) (state : DecodeState) :
    Option (Bool × List ℕ × DecodeState) :=
  match takeRanges word source ranges state with
  | none => none
  | some (false, numbers, state) => some (false, numbers, state)
  | some (true, numbers, state) =>
    (decodePadWord word source unit state).map fun (ok, state) => (ok, numbers, state)

def putRanges (encoder : Encoder) : List (ℕ × ℕ) → EncodeState → Option EncodeState
  | [], out => some out
  | (number, bits) :: ranges, out =>
    (putWord word encoder number bits out).bind (putRanges encoder ranges)

def encodeRanges (encoder : Encoder) (ranges numbers : List ℕ) (unit : ℕ) (out : EncodeState) :
    Option EncodeState :=
  (putRanges word encoder (numbers.zip ranges) out).bind (encodePadWord word encoder unit)

end Functions

def rangeFields (ranges : List ℕ) (unit : ℕ) : List Field :=
  ranges.map (fun bits => ⟨Member.null, .bits, { bits }, []⟩) ++
    [⟨Member.null, .pad, { bits := unit }, []⟩]

def rangeBits (data : List Byte) (start : ℕ) : List ℕ → List ℕ
  | [] => []
  | bits :: ranges => bitsAt data start bits :: rangeBits data (start + bits) ranges

variable {word : ℕ → ℕ} {source : Source} {version bits unit start taken fuel : ℕ}
  {ranges : List ℕ} {state next : DecodeState} {out begun : EncodeState}

lemma fillBits_fits (hcount : state.bitsCount ≤ 8 * state.position)
    (hfits : state.cursor + bits ≤ 8 * source.body.length) :
    (fillBits source bits fuel state).1 = true := by
  induction fuel generalizing state with
  | zero => rfl
  | succ fuel ih =>
    rw [fillBits]
    split_ifs with hless
    · rw [DecodeState.cursor] at hfits
      have hread : state.position + 1 ≤ source.body.length := by omega
      rw [readerGet, if_pos hread]
      refine ih (by simp only; omega) ?_
      rw [DecodeState.cursor]
      simp only
      omega
    · rfl

lemma takeBits_ok (hs : BitsHeld source state) (bits : ℕ) :
    (takeBits source bits state).1 = true ↔ state.cursor + bits ≤ 8 * source.body.length := by
  constructor
  · intro hok
    have htake : takeBits source bits state =
        (true, (takeBits source bits state).2.1, (takeBits source bits state).2.2) :=
      Prod.ext hok rfl
    obtain ⟨hheld, -, hcursor, -⟩ := takeBits_true hs htake
    have hbound := hheld.bound
    have hcount := hheld.count
    rw [DecodeState.cursor]
    omega
  · intro hfits
    have hfill := @fillBits_fits source bits bits state hs.count hfits
    rw [takeBits]
    cases hf : fillBits source bits bits state with
    | mk ok filled =>
      rw [hf] at hfill
      cases hfill
      rfl

lemma BitsHeld.value_lt (hs : BitsHeld source state) : state.bitsValue < 2 ^ state.bitsCount := by
  rw [hs.value]
  exact bitsAt_lt _ _ _

structure TakesBits (source : Source) (bits : ℕ) (state next : DecodeState) : Prop where
  held : BitsHeld source next
  few : next.bitsCount < 8
  cursor : next.cursor = state.cursor + bits
  taken : next.bitsTaken = state.bitsTaken + bits

lemma takeWord_spec (hs : BitsHeld source state) (hfew : state.bitsCount < 8)
    (hbits : 0 < bits ∧ bits ≤ 56) :
    ∃ ok number next,
      (∀ word, Words word → takeWord word source bits state = some (ok, number, next)) ∧
      (ok = true ↔ state.cursor + bits ≤ 8 * source.body.length) ∧
      (ok = true → number = bitsAt source.body state.cursor bits ∧
        TakesBits source bits state next) := by
  refine ⟨(takeBits source bits state).1, (takeBits source bits state).2.1,
    (takeBits source bits state).2.2, fun word hword => takeWord_eq hword hbits hs.value_lt,
    takeBits_ok hs bits, fun hok => ?_⟩
  have htake : takeBits source bits state =
      (true, (takeBits source bits state).2.1, (takeBits source bits state).2.2) := Prod.ext hok rfl
  obtain ⟨hheld, hnumber, hcursor, hless, p, v, c, hnext⟩ := takeBits_true hs htake
  exact ⟨hnumber, hheld, hless hfew, hcursor, by rw [hnext]⟩

lemma takeRanges_spec (hs : BitsHeld source state) (hfew : state.bitsCount < 8)
    (hranges : ∀ bits ∈ ranges, 0 < bits ∧ bits ≤ 56) :
    ∃ ok numbers next,
      (∀ word, Words word → takeRanges word source ranges state = some (ok, numbers, next)) ∧
      (ok = true ↔ state.cursor + ranges.sum ≤ 8 * source.body.length) ∧
      (ok = true → numbers = rangeBits source.body state.cursor ranges ∧
        TakesBits source ranges.sum state next) := by
  induction ranges generalizing state with
  | nil =>
    refine ⟨true, [], state, fun _ _ => rfl, iff_of_true rfl ?_, fun _ => ⟨rfl, hs, hfew, rfl, rfl⟩⟩
    have hbound := hs.bound
    rw [List.sum_nil, DecodeState.cursor]
    omega
  | cons bits ranges ih =>
    obtain ⟨hbits, hrest⟩ := List.forall_mem_cons.mp hranges
    obtain ⟨ok, number, middle, htake, hfits, htakes⟩ := takeWord_spec hs hfew hbits
    cases ok with
    | false =>
      refine ⟨false, [], middle, fun word hword => ?_, ?_, fun h => Bool.noConfusion h⟩
      · rw [takeRanges, htake word hword]
      · refine iff_of_false Bool.noConfusion fun hall => Bool.noConfusion (hfits.mpr ?_)
        rw [List.sum_cons] at hall
        omega
    | true =>
      obtain ⟨hnumber, htakes⟩ := htakes rfl
      obtain ⟨ok, numbers, next, hall, hfits, hnext⟩ := ih htakes.held htakes.few hrest
      refine ⟨ok, number :: numbers, next, fun word hword => ?_, ?_, fun hok => ?_⟩
      · rw [takeRanges, htake word hword]
        dsimp only
        rw [hall word hword]
        rfl
      · rw [hfits, htakes.cursor, List.sum_cons, Nat.add_assoc]
      · obtain ⟨hnumbers, hnext⟩ := hnext hok
        rw [rangeBits, hnumber, hnumbers, htakes.cursor, List.sum_cons]
        refine ⟨rfl, hnext.held, hnext.few, ?_, ?_⟩
        · rw [hnext.cursor, htakes.cursor, Nat.add_assoc]
        · rw [hnext.taken, htakes.taken, Nat.add_assoc]

def unitsBits (taken unit : ℕ) : ℕ := (taken + unit - 1) / unit * unit

lemma unitsBits_eq (hunit : 0 < unit) (taken : ℕ) :
    unitsBits taken unit =
      taken + if taken % unit = 0 then 0 else unit - taken % unit := by
  have hsplit := Nat.div_add_mod taken unit
  have hlt := Nat.mod_lt taken hunit
  rw [unitsBits]
  generalize taken / unit = q at hsplit
  generalize taken % unit = r at hsplit hlt ⊢
  subst hsplit
  split_ifs with hr
  · have hwhole : unit * q + r + unit - 1 = unit * q + (unit - 1) := by omega
    rw [hwhole, Nat.mul_add_div hunit, Nat.div_eq_of_lt (by omega), Nat.add_zero, Nat.mul_comm]
    omega
  · have hmore : unit * q + r + unit - 1 = unit * (q + 1) + (r - 1) := by
      rw [Nat.mul_add, Nat.mul_one]
      omega
    rw [hmore, Nat.mul_add_div hunit, Nat.div_eq_of_lt (by omega), Nat.add_zero, Nat.mul_comm,
      Nat.mul_add, Nat.mul_one]
    omega

lemma unitsBits_mod (hbytes : unit % 8 = 0) (taken : ℕ) : unitsBits taken unit % 8 = 0 := by
  rw [unitsBits, Nat.mul_mod, hbytes, Nat.mul_zero, Nat.zero_mod]

structure BegunBits (source : Source) (state : DecodeState) : Prop where
  held : BitsHeld source state
  count : state.bitsCount = 0
  taken : state.bitsTaken = 0

lemma BegunBits.cursor (h : BegunBits source state) : state.cursor = 8 * state.position := by
  rw [DecodeState.cursor, h.count, Nat.sub_zero]

lemma decodePadWord_spec (hbegun : BegunBits source state)
    (htakes : TakesBits source taken state next) (hunit : 0 < unit) (hbytes : unit % 8 = 0)
    (hpad : taken % unit ≠ 0 → unit - taken % unit ≤ 56) :
    ∃ ok last, (∀ word, Words word → decodePadWord word source unit next = some (ok, last)) ∧
      (ok = true ↔ 8 * state.position + unitsBits taken unit ≤ 8 * source.body.length) ∧
      (ok = true → BegunBits source last ∧
        8 * last.position = 8 * state.position + unitsBits taken unit) := by
  have htaken : next.bitsTaken = taken := by rw [htakes.taken, hbegun.taken, Nat.zero_add]
  have hcursor : next.cursor = 8 * state.position + taken := by rw [htakes.cursor, hbegun.cursor]
  have hwhole := unitsBits_mod hbytes taken
  rw [unitsBits_eq hunit] at hwhole ⊢
  have hfew := htakes.few
  have hcount := htakes.held.count
  have hbound := htakes.held.bound
  rw [DecodeState.cursor] at hcursor
  by_cases hrest : taken % unit = 0
  · rw [if_pos hrest] at hwhole ⊢
    have hnone : next.bitsCount = 0 := by omega
    refine ⟨true, { next with bitsTaken := 0 }, fun word _ => ?_, iff_of_true rfl (by omega),
      fun _ => ⟨⟨⟨hcount, htakes.held.value, hbound⟩, hnone, rfl⟩, by simp only; omega⟩⟩
    rw [decodePadWord, if_neg hunit.ne', htaken]
    simp only [hrest, ne_eq, not_true_eq_false, if_false, hnone, if_true]
  · rw [if_neg hrest] at hwhole ⊢
    have hlt := Nat.mod_lt taken hunit
    obtain ⟨ok, number, last, htake, hfits, hlast⟩ :=
      takeWord_spec htakes.held hfew ⟨by omega, hpad hrest⟩
    rw [DecodeState.cursor, hcursor, Nat.add_assoc] at hfits
    cases ok with
    | false =>
      refine ⟨false, last, fun word hword => ?_, hfits, fun h => Bool.noConfusion h⟩
      rw [decodePadWord, if_neg hunit.ne', htaken]
      simp only [hrest, ne_eq, not_false_eq_true, if_true, htake word hword, Option.map_some]
    | true =>
      obtain ⟨-, hlast⟩ := hlast rfl
      have hend := hlast.cursor
      have hless := hlast.few
      have hheld := hlast.held.count
      rw [DecodeState.cursor, DecodeState.cursor, hcursor] at hend
      have hnone : last.bitsCount = 0 := by omega
      refine ⟨true, { last with bitsTaken := 0 }, fun word hword => ?_, hfits,
        fun _ => ⟨⟨⟨hheld, hlast.held.value, hlast.held.bound⟩, hnone, rfl⟩, by simp only; omega⟩⟩
      rw [decodePadWord, if_neg hunit.ne', htaken]
      simp only [hrest, ne_eq, not_false_eq_true, if_true, htake word hword, Option.map_some, hnone]

lemma decodeRanges_spec (hbegun : BegunBits source state)
    (hranges : ∀ bits ∈ ranges, 0 < bits ∧ bits ≤ 56) (hunit : 0 < unit) (hbytes : unit % 8 = 0)
    (hpad : ranges.sum % unit ≠ 0 → unit - ranges.sum % unit ≤ 56) :
    ∃ ok numbers next, (∀ word, Words word →
        decodeRanges word source ranges unit state = some (ok, numbers, next)) ∧
      (ok = true ↔ 8 * state.position + unitsBits ranges.sum unit ≤ 8 * source.body.length) ∧
      (ok = true → numbers = rangeBits source.body (8 * state.position) ranges ∧
        BegunBits source next ∧
        8 * next.position = 8 * state.position + unitsBits ranges.sum unit) := by
  have hless : state.bitsCount < 8 := by
    rw [hbegun.count]
    decide
  obtain ⟨ok, numbers, middle, htake, hfits, htakes⟩ := takeRanges_spec hbegun.held hless hranges
  rw [hbegun.cursor] at hfits htakes
  cases ok with
  | false =>
    refine ⟨false, numbers, middle, fun word hword => ?_, ?_, fun h => Bool.noConfusion h⟩
    · rw [decodeRanges, htake word hword]
    · refine iff_of_false Bool.noConfusion fun hall => Bool.noConfusion (hfits.mpr ?_)
      rw [unitsBits_eq hunit] at hall
      omega
  | true =>
    obtain ⟨hnumbers, htakes⟩ := htakes rfl
    obtain ⟨ok, last, hpadded, hall, hlast⟩ := decodePadWord_spec hbegun htakes hunit hbytes hpad
    refine ⟨ok, numbers, last, fun word hword => ?_, hall, fun hok => ⟨hnumbers, hlast hok⟩⟩
    rw [decodeRanges, htake word hword]
    dsimp only
    rw [hpadded word hword]
    rfl

structure WrittenBits (source : Source) (begun : EncodeState) (bits : ℕ) (out : EncodeState) :
    Prop where
  written : out.written =
    begun.written ++ window source.body begun.position (out.position - begun.position)
  on : begun.position ≤ out.position
  cursor : 8 * out.position + out.bitsCount = 8 * begun.position + bits
  value : out.bitsValue = bitsAt source.body (8 * out.position) out.bitsCount
  bound : 8 * out.position + out.bitsCount ≤ 8 * source.body.length

lemma flushBits_written (version : ℕ) (h : WrittenBits source begun bits out)
    (hfuel : out.bitsCount < 8 * (fuel + 1)) :
    WrittenBits source begun bits (flushBits (preserving source version) fuel out) ∧
      (flushBits (preserving source version) fuel out).bitsCount < 8 ∧
      (flushBits (preserving source version) fuel out).bitsTaken = out.bitsTaken := by
  induction fuel generalizing out with
  | zero => exact ⟨h, by rw [flushBits]; omega, rfl⟩
  | succ fuel ih =>
    rw [flushBits]
    split_ifs with h8
    · obtain ⟨n, hn⟩ := Nat.exists_eq_add_of_le h8
      have hbound := h.bound
      have hcursor := h.cursor
      have hon := h.on
      have hbyte : [UInt8.ofNat out.bitsValue] = window source.body out.position 1 := by
        rw [window_one (by omega), h.value, hn, ofNat_bitsAt]
      have hvalue : out.bitsValue / 256 = bitsAt source.body (8 * (out.position + 1)) n := by
        rw [h.value, hn]
        exact bitsAt_div source.body (8 * out.position) 8 n
      have hput : (putBytes (preserving source version) [UInt8.ofNat out.bitsValue] out).position =
          out.position + 1 := by
        change out.position + min 1 (source.body.length - out.position) = _
        omega
      have hadd : out.position + 1 - begun.position = out.position - begun.position + 1 := by omega
      have hend : begun.position + (out.position - begun.position) = out.position := by omega
      refine ih ⟨?_, ?_, ?_, ?_, ?_⟩ ?_
      · simp only [hput]
        rw [putBytes, h.written, hbyte, hadd, window_append, hend, List.append_assoc]
      · simp only [hput]
        omega
      · simp only [hput]
        omega
      · simp only [hput]
        rw [hvalue, hn, Nat.add_sub_cancel_left]
      · simp only [hput]
        omega
      · simp only
        omega
    · exact ⟨h, by omega, rfl⟩

lemma putWord_spec (version : ℕ) (h : WrittenBits source begun start out) (hfew : out.bitsCount < 8)
    (hbits : 0 < bits ∧ bits ≤ 56)
    (hfits : 8 * begun.position + start + bits ≤ 8 * source.body.length) :
    ∃ after, (∀ word, Words word → putWord word (preserving source version)
        (bitsAt source.body (8 * begun.position + start) bits) bits out = some after) ∧
      WrittenBits source begun (start + bits) after ∧ after.bitsCount < 8 ∧
      after.bitsTaken = out.bitsTaken + bits := by
  have hlt : out.bitsValue < 2 ^ out.bitsCount := by
    rw [h.value]
    exact bitsAt_lt _ _ _
  refine ⟨_, fun word hword => putWord_eq hword hbits hlt hfew _, ?_⟩
  have hcursor := h.cursor
  rw [putBits, Nat.mod_eq_of_lt (bitsAt_lt _ _ _)]
  refine flushBits_written version ⟨h.written, h.on, ?_, ?_, ?_⟩ (by simp only; omega)
  · simp only
    omega
  · simp only
    rw [bitsAt_append, ← h.value, hcursor]
  · simp only
    omega

lemma putRanges_spec (version : ℕ) (h : WrittenBits source begun start out)
    (hfew : out.bitsCount < 8) (hranges : ∀ bits ∈ ranges, 0 < bits ∧ bits ≤ 56)
    (hfits : 8 * begun.position + start + ranges.sum ≤ 8 * source.body.length) :
    ∃ after, (∀ word, Words word → putRanges word (preserving source version)
        ((rangeBits source.body (8 * begun.position + start) ranges).zip ranges) out =
          some after) ∧
      WrittenBits source begun (start + ranges.sum) after ∧ after.bitsCount < 8 ∧
      after.bitsTaken = out.bitsTaken + ranges.sum := by
  induction ranges generalizing start out with
  | nil => exact ⟨out, fun _ _ => rfl, h, hfew, rfl⟩
  | cons bits ranges ih =>
    obtain ⟨hbits, hrest⟩ := List.forall_mem_cons.mp hranges
    rw [List.sum_cons] at hfits ⊢
    obtain ⟨middle, hput, hmiddle, hless, htaken⟩ := putWord_spec version h hfew hbits (by omega)
    obtain ⟨after, hall, hafter, hfew, hlast⟩ := ih hmiddle hless hrest (by omega)
    refine ⟨after, fun word hword => ?_, ?_, hfew, by rw [hlast, htaken, Nat.add_assoc]⟩
    · rw [rangeBits, List.zip_cons_cons, putRanges, hput word hword, Option.bind_some,
        Nat.add_assoc]
      exact hall word hword
    · rwa [Nat.add_assoc] at hafter

lemma encodePadWord_spec (version : ℕ) (h : WrittenBits source begun taken out)
    (hfew : out.bitsCount < 8) (htaken : out.bitsTaken = taken) (hunit : 0 < unit)
    (hbytes : unit % 8 = 0) (hpad : taken % unit ≠ 0 → unit - taken % unit ≤ 56)
    (hfits : 8 * begun.position + unitsBits taken unit ≤ 8 * source.body.length) :
    ∃ after, (∀ word, Words word →
        encodePadWord word (preserving source version) unit out = some after) ∧
      WrittenBits source begun (unitsBits taken unit) after ∧ after.bitsCount = 0 ∧
      after.bitsTaken = 0 := by
  have hwhole := unitsBits_mod hbytes taken
  rw [unitsBits_eq hunit] at hwhole hfits ⊢
  have hcursor := h.cursor
  by_cases hrest : taken % unit = 0
  · rw [if_pos hrest] at hwhole hfits ⊢
    have hnone : out.bitsCount = 0 := by omega
    refine ⟨{ out with bitsTaken := 0 }, fun word _ => ?_,
      ⟨h.written, h.on, h.cursor, h.value, h.bound⟩, hnone, rfl⟩
    rw [encodePadWord, if_neg hunit.ne', htaken]
    simp only [hrest, ne_eq, not_true_eq_false, if_false, hnone, if_true]
  · rw [if_neg hrest] at hwhole hfits ⊢
    have hlt := Nat.mod_lt taken hunit
    have hbits : 0 < unit - taken % unit ∧ unit - taken % unit ≤ 56 := ⟨by omega, hpad hrest⟩
    obtain ⟨after, hput, hafter, hless, -⟩ := putWord_spec version h hfew hbits (by omega)
    have hsource := sourceBits_source version hbits.2 hfew
      (show 8 * out.position + out.bitsCount + _ ≤ 8 * source.body.length by rw [hcursor]; omega)
    have hend := hafter.cursor
    have hnone : after.bitsCount = 0 := by omega
    refine ⟨{ after with bitsTaken := 0 }, fun word hword => ?_,
      ⟨hafter.written, hafter.on, hafter.cursor, hafter.value, hafter.bound⟩, hnone, rfl⟩
    rw [encodePadWord, if_neg hunit.ne', htaken]
    simp only [hrest, ne_eq, not_false_eq_true, if_true, sourceWord_eq hword hbits.2, hsource,
      hcursor, hput word hword, hnone]

lemma fieldsSize_ranges (ranges : List ℕ) (unit size bits : ℕ) :
    fieldsSize (rangeFields ranges unit) size bits =
      size + (bits + ranges.sum + unit - 1) / unit * (unit / 8) := by
  induction ranges generalizing bits with
  | nil =>
    rw [rangeFields, List.map_nil, List.nil_append, fieldsSize]
    simp only
    rw [fieldsSize, List.sum_nil, Nat.add_zero]
  | cons width ranges ih =>
    change fieldsSize (_ :: rangeFields ranges unit) size bits = _
    rw [fieldsSize]
    simp only
    rw [ih, List.sum_cons, Nat.add_assoc bits]

lemma unitsBits_size (hbytes : unit % 8 = 0) (ranges : List ℕ) :
    unitsBits ranges.sum unit = 8 * fieldsSize (rangeFields ranges unit) 0 0 := by
  rw [fieldsSize_ranges, Nat.zero_add, Nat.zero_add, unitsBits, Nat.mul_left_comm,
    Nat.mul_div_cancel' (Nat.dvd_of_mod_eq_zero hbytes)]

lemma bitsAt_window {data : List Byte} {offset length n : ℕ} (h : start + n ≤ 8 * length) :
    bitsAt (window data offset length) start n = bitsAt data (8 * offset + start) n := by
  obtain ⟨left, hleft⟩ := Nat.exists_eq_add_of_le h
  rw [bitsAt, leLoad_window_bitsAt, hleft, Nat.add_assoc, bitsAt_div, bitsAt_mod]

lemma rangeBits_window {data : List Byte} {offset length : ℕ}
    (h : start + ranges.sum ≤ 8 * length) :
    rangeBits (window data offset length) start ranges =
      rangeBits data (8 * offset + start) ranges := by
  induction ranges generalizing start with
  | nil => rfl
  | cons bits ranges ih =>
    rw [List.sum_cons] at h
    rw [rangeBits, rangeBits, bitsAt_window (by omega), ih (by omega), Nat.add_assoc]

/-- Ranges of bits and the padding which closes their units are written back as the bytes they have
been read from, of which there are as many as the size of the fields. Each range is the bits of the
little-endian number of these bytes at its place, and words of 64 bits lose none of them. -/
theorem bitRanges_written_back (version : ℕ) (hranges : ∀ bits ∈ ranges, 0 < bits ∧ bits ≤ 56)
    (hunit : 0 < unit) (hbytes : unit % 8 = 0)
    (hpad : ranges.sum % unit ≠ 0 → unit - ranges.sum % unit ≤ 56)
    (hstate : state.position ≤ source.body.length ∧ state.bitsValue = 0 ∧ state.bitsCount = 0 ∧
      state.bitsTaken = 0)
    (hout : out.position = state.position ∧ out.bitsValue = 0 ∧ out.bitsCount = 0 ∧
      out.bitsTaken = 0) :
    ∃ ok numbers next,
      (∀ word ∈ [uintmax, id],
        decodeRanges word source ranges unit state = some (ok, numbers, next)) ∧
      (ok = true ↔
        state.position + fieldsSize (rangeFields ranges unit) 0 0 ≤ source.body.length) ∧
      (ok = true →
        numbers = rangeBits
          (window source.body state.position (fieldsSize (rangeFields ranges unit) 0 0)) 0 ranges ∧
        next.position = state.position + fieldsSize (rangeFields ranges unit) 0 0 ∧
        ∃ after,
          (∀ word ∈ [uintmax, id],
            encodeRanges word (preserving source version) ranges numbers unit out = some after) ∧
          after.written = out.written ++
            window source.body state.position (fieldsSize (rangeFields ranges unit) 0 0) ∧
          after.position = next.position) := by
  have hwords : ∀ word ∈ [uintmax, id], Words word := by
    rw [List.forall_mem_cons, List.forall_mem_singleton]
    exact ⟨words_uintmax, words_id⟩
  obtain ⟨hposition, hvalue, hcount, htaken⟩ := hstate
  have hbegun : BegunBits source state :=
    ⟨⟨by omega, by rw [hcount, bitsAt_zero, hvalue], hposition⟩, hcount, htaken⟩
  obtain ⟨hsame, houtValue, houtCount, houtTaken⟩ := hout
  obtain ⟨ok, numbers, next, hdecode, hfits, hnext⟩ :=
    decodeRanges_spec hbegun hranges hunit hbytes hpad
  have hsize := unitsBits_size hbytes ranges
  refine ⟨ok, numbers, next, fun word hmem => hdecode word (hwords word hmem), ?_, fun hok => ?_⟩
  · rw [hfits, hsize]
    omega
  · obtain ⟨hnumbers, -, hend⟩ := hnext hok
    have hwhole := hfits.mp hok
    have hsum : ranges.sum ≤ unitsBits ranges.sum unit := by
      rw [unitsBits_eq hunit]
      exact Nat.le_add_right _ _
    have hwritten : WrittenBits source out 0 out := by
      refine ⟨?_, le_rfl, by rw [houtCount], by rw [houtCount, bitsAt_zero, houtValue], by omega⟩
      rw [Nat.sub_self, window_zero, List.append_nil]
    obtain ⟨middle, hput, hmiddle, hfew, hlast⟩ :=
      putRanges_spec version hwritten (by omega) hranges (by omega)
    rw [Nat.zero_add] at hmiddle
    obtain ⟨after, hpadded, hafter, hnone, -⟩ := encodePadWord_spec version hmiddle hfew
      (by rw [hlast, houtTaken, Nat.zero_add]) hunit hbytes hpad (by omega)
    have hcursor := hafter.cursor
    have hbytesWritten : after.position - out.position =
        fieldsSize (rangeFields ranges unit) 0 0 := by omega
    refine ⟨?_, by omega, after, fun word hmem => ?_, ?_, by omega⟩
    · rw [hnumbers, rangeBits_window (by omega), Nat.add_zero]
    · have hword := hwords word hmem
      rw [Nat.add_zero, hsame, ← hnumbers] at hput
      rw [encodeRanges, hput word hword, Option.bind_some, hpadded word hword]
    · rw [hafter.written, hbytesWritten, hsame]

def wordsSource : Source := ⟨126, 0, [126, 6, 0, 0, 0x35, 0xFF], [], 0, false⟩

def decodeFrom (position : ℕ) : DecodeState :=
  ⟨position, 0, 0, 0, false, false, 0, 0, false, false, Memory.zero⟩

def encodeFrom (written : List Byte) : EncodeState := ⟨written, written.length, [], 0, 0, 0, false⟩

theorem bitRanges_written_back_word :
    ∃ ok numbers next,
      (∀ word ∈ [uintmax, id],
        decodeRanges word wordsSource [3, 7] 16 (decodeFrom 4) = some (ok, numbers, next)) ∧
      (ok = true ↔ 4 + fieldsSize (rangeFields [3, 7] 16) 0 0 ≤ wordsSource.body.length) ∧
      (ok = true →
        numbers = rangeBits
          (window wordsSource.body 4 (fieldsSize (rangeFields [3, 7] 16) 0 0)) 0 [3, 7] ∧
        next.position = 4 + fieldsSize (rangeFields [3, 7] 16) 0 0 ∧
        ∃ after,
          (∀ word ∈ [uintmax, id],
            encodeRanges word (preserving wordsSource 0) [3, 7] numbers 16
              (encodeFrom [1, 2, 3, 4]) = some after) ∧
          after.written = [1, 2, 3, 4] ++
            window wordsSource.body 4 (fieldsSize (rangeFields [3, 7] 16) 0 0) ∧
          after.position = next.position) :=
  bitRanges_written_back 0 (by decide) (by decide) (by decide) (by decide)
    ⟨by decide, rfl, rfl, rfl⟩ ⟨rfl, rfl, rfl, rfl⟩

example : (decodeRanges uintmax wordsSource [3, 7] 16 (decodeFrom 4)).map (·.2.1) =
    some [5, 102] := by decide

theorem wide_padding_refused :
    4 + fieldsSize (rangeFields [1] 128) 0 0 ≤ (List.replicate 20 (0xFF : Byte)).length ∧
    (¬ ∃ numbers next,
      decodeRanges uintmax ⟨126, 0, List.replicate 20 0xFF, [], 0, false⟩ [1] 128 (decodeFrom 4) =
        some (true, numbers, next)) ∧
    ¬ ∃ after,
      encodeRanges uintmax (preserving ⟨126, 0, List.replicate 20 0xFF, [], 0, false⟩ 0) [1] [1] 128
        (encodeFrom [1, 2, 3, 4]) = some after := by
  refine ⟨by decide, ?_, ?_⟩
  · rintro ⟨numbers, next, h⟩
    have hnone : decodeRanges uintmax ⟨126, 0, List.replicate 20 0xFF, [], 0, false⟩ [1] 128
      (decodeFrom 4) = none := rfl
    rw [hnone] at h
    cases h
  · rintro ⟨after, h⟩
    have hnone : encodeRanges uintmax (preserving ⟨126, 0, List.replicate 20 0xFF, [], 0, false⟩ 0)
      [1] [1] 128 (encodeFrom [1, 2, 3, 4]) = none := rfl
    rw [hnone] at h
    cases h

end OpenDmi

import OpenDmi.DataReader

namespace OpenDmi

structure WriterMark where
  buffer : ℕ
  base : Size
  position : Size

/-- A negative length is the one of a range which ends where the data does. -/
structure DmiWriter where
  buffer : ℕ
  base : Size
  length : Int64
  position : Size
  deriving DecidableEq

def dmiWriterInitialize (offset : Size) (length : Int64) (buffer : DmiBuffer) : Option DmiWriter :=
  if buffer.length < offset then none else some ⟨buffer.address, offset, length, 0⟩

def dmiWriterLength (writer : DmiWriter) (buffer : DmiBuffer) : Size :=
  let length := if writer.base < buffer.length then buffer.length - writer.base else 0
  if 0 ≤ writer.length ∧ writer.length.toUInt64 < length then writer.length.toUInt64 else length

def dmiWriterFits (offset length : Size) (writer : DmiWriter) : Bool :=
  if writer.length < 0 then
    offset ≤ Size.largest - writer.base ∧ length ≤ Size.largest - writer.base - offset
  else
    let limit := writer.length.toUInt64
    length ≤ limit ∧ offset ≤ limit - length

def dmiWriterSeek (position : Size) (writer : DmiWriter) (buffer : DmiBuffer) : Bool × DmiWriter :=
  if dmiWriterLength writer buffer < position then (false, writer)
  else (true, { writer with position })

def dmiWriterRewind (mark : WriterMark) (writer : DmiWriter) (buffer : DmiBuffer) :
    Bool × DmiWriter :=
  if mark.buffer ≠ writer.buffer ∨ mark.base ≠ writer.base then (false, writer)
  else dmiWriterSeek mark.position writer buffer

def dmiWriterPutBytesAt (memory : Bool) (ptr : Option (ℕ → Byte)) (offset length : Size)
    (writer : DmiWriter) (buffer : DmiBuffer) : Option (Bool × DmiBuffer) :=
  if dmiWriterFits offset length writer = false then some (false, buffer)
  else dmiBufferWrite memory ptr (writer.base + offset) length buffer

def dmiWriterPutBytes (memory : Bool) (ptr : Option (ℕ → Byte)) (length : Size)
    (writer : DmiWriter) (buffer : DmiBuffer) : Option (Bool × DmiWriter × DmiBuffer) :=
  (dmiWriterPutBytesAt memory ptr writer.position length writer buffer).map fun
    | (false, buffer) => (false, writer, buffer)
    | (true, buffer) => (true, { writer with position := writer.position + length }, buffer)

def dmiWriterSkip (memory : Bool) (length : Size) (writer : DmiWriter) (buffer : DmiBuffer) :
    Option (Bool × DmiWriter × DmiBuffer) :=
  if dmiWriterFits writer.position length writer = false then some (false, writer, buffer)
  else
    let stop := writer.position + length
    let resized :=
      if dmiWriterLength writer buffer < stop then
        dmiBufferResize memory (writer.base + stop) buffer
      else some (true, buffer)
    resized.map fun
      | (false, buffer) => (false, writer, buffer)
      | (true, buffer) => (true, { writer with position := stop }, buffer)

def dmiWriterSkipEx (memory : Bool) (mark : WriterMark) (length : Size) (writer : DmiWriter)
    (buffer : DmiBuffer) : Option (Bool × DmiWriter × DmiBuffer) :=
  if mark.buffer ≠ writer.buffer ∨ mark.base ≠ writer.base then some (false, writer, buffer)
  else if Size.largest - mark.position < length then some (false, writer, buffer)
  else
    let stop := mark.position + length
    if stop < writer.position then some (false, writer, buffer)
    else dmiWriterSkip memory (stop - writer.position) writer buffer

def dmiWriterReset (writer : DmiWriter) : DmiWriter := { writer with position := 0 }

inductive WriterCall
  | seek (position : Size)
  | rewind (mark : WriterMark)
  | putBytes (memory : Bool) (ptr : Option (ℕ → Byte)) (length : Size)
  | putBytesAt (memory : Bool) (ptr : Option (ℕ → Byte)) (offset length : Size)
  | skip (memory : Bool) (length : Size)
  | skipEx (memory : Bool) (mark : WriterMark) (length : Size)
  | reset

def dmiWriterCall (writer : DmiWriter) (buffer : DmiBuffer) :
    WriterCall → Option (Bool × DmiWriter × DmiBuffer)
  | .seek position =>
    let (moved, writer) := dmiWriterSeek position writer buffer
    some (moved, writer, buffer)
  | .rewind mark =>
    let (moved, writer) := dmiWriterRewind mark writer buffer
    some (moved, writer, buffer)
  | .putBytes memory ptr length => dmiWriterPutBytes memory ptr length writer buffer
  | .putBytesAt memory ptr offset length =>
    (dmiWriterPutBytesAt memory ptr offset length writer buffer).map fun (written, buffer) =>
      (written, writer, buffer)
  | .skip memory length => dmiWriterSkip memory length writer buffer
  | .skipEx memory mark length => dmiWriterSkipEx memory mark length writer buffer
  | .reset => some (true, dmiWriterReset writer, buffer)

structure WriterState where
  buffer : DmiBuffer
  writers : List DmiWriter
  deriving DecidableEq

inductive BufferCall
  | start (offset : Size) (length : Int64)
  | writer (index : ℕ) (call : WriterCall)
  | write (memory : Bool) (ptr : Option (ℕ → Byte)) (offset length : Size)
  | assign (memory : Bool) (ptr : Option (ℕ → Byte)) (length : Size)
  | resize (memory : Bool) (length : Size)
  | clear

def dmiBufferCall (state : WriterState) : BufferCall → Option (Bool × WriterState)
  | .start offset length =>
    match dmiWriterInitialize offset length state.buffer with
    | none => some (false, state)
    | some writer => some (true, { state with writers := state.writers ++ [writer] })
  | .writer index call =>
    match state.writers[index]? with
    | none => some (false, state)
    | some writer =>
      (dmiWriterCall writer state.buffer call).map fun (done, writer, buffer) =>
        (done, ⟨buffer, state.writers.set index writer⟩)
  | .write memory ptr offset length =>
    (dmiBufferWrite memory ptr offset length state.buffer).map fun (written, buffer) =>
      (written, { state with buffer })
  | .assign memory ptr length =>
    (dmiBufferAssign memory ptr length state.buffer).map fun (assigned, buffer) =>
      (assigned, { state with buffer })
  | .resize memory length =>
    (dmiBufferResize memory length state.buffer).map fun (resized, buffer) =>
      (resized, { state with buffer })
  | .clear => some (true, { state with buffer := dmiBufferClear state.buffer })

def dmiBufferCalls : List BufferCall → WriterState → Option (List Bool × WriterState)
  | [], state => some ([], state)
  | call :: calls, state => (dmiBufferCall state call).bind fun (done, state) =>
      (dmiBufferCalls calls state).map fun (dones, state) => (done :: dones, state)

def writerPatch (writer : DmiWriter) : WriterCall → Patch Byte
  | .putBytes _ ptr length =>
    ⟨writer.base.toNat + writer.position.toNat, bytesAt ptr length⟩
  | .putBytesAt _ ptr offset length =>
    ⟨writer.base.toNat + offset.toNat, bytesAt ptr length⟩
  | _ => ⟨0, []⟩

/-- Bytes which are cut off a buffer are zeros if they come back. -/
def bufferPatch (state : WriterState) : BufferCall → Patch Byte
  | .start _ _ => ⟨0, []⟩
  | .writer index call => (state.writers[index]?).elim ⟨0, []⟩ (writerPatch · call)
  | .write _ ptr offset length => ⟨offset.toNat, bytesAt ptr length⟩
  | .assign _ ptr length =>
    ⟨0, bytesAt ptr length ++ List.replicate (state.buffer.length.toNat - length.toNat) 0⟩
  | .resize _ length =>
    ⟨length.toNat, List.replicate (state.buffer.length.toNat - length.toNat) 0⟩
  | .clear => ⟨0, List.replicate state.buffer.length.toNat 0⟩

def bufferPatches : List BufferCall → WriterState → List (Patch Byte)
  | [], _ => []
  | call :: calls, state =>
    match dmiBufferCall state call with
    | none => []
    | some (false, next) => bufferPatches calls next
    | some (true, next) => bufferPatch state call :: bufferPatches calls next

def BufferCall.cuts : BufferCall → Bool
  | .assign .. | .resize .. | .clear => true
  | _ => false

structure WriterState.Sound (state : WriterState) (contents : List Byte) : Prop where
  holds : Holds state.buffer contents
  base : ∀ writer ∈ state.writers, writer.base.toNat ≤ ptrdiffMax

variable {buffer : DmiBuffer} {writer : DmiWriter} {state : WriterState} {contents : List Byte}
  {patch : Patch Byte} {memory : Bool} {ptr : Option (ℕ → Byte)} {offset length : Size}

lemma toUInt64_toNat_lt {limit : Int64} (h : ¬ limit < 0) : limit.toUInt64.toNat < 2 ^ 63 := by
  rw [Int64.toNat_toUInt64_of_le (Int64.not_lt.mp h)]
  have hlt := limit.toInt_lt
  have hclamp : limit.toNatClampNeg = limit.toInt.toNat := rfl
  omega

lemma dmiWriterFits_lt (hbase : writer.base.toNat ≤ ptrdiffMax)
    (h : dmiWriterFits offset length writer = true) :
    writer.base.toNat + offset.toNat + length.toNat < 2 ^ 64 := by
  rw [dmiWriterFits] at h
  split_ifs at h with hunbounded
  · obtain ⟨hoffset, hlength⟩ := of_decide_eq_true h
    have hmost : Size.largest.toNat = 2 ^ 64 - 1 := rfl
    have hlargest : writer.base ≤ Size.largest :=
      UInt64.le_iff_toNat_le.mpr (Nat.le_of_lt_succ writer.base.toNat_lt)
    have hfits := Size.fits_iff.mp ⟨hoffset, hlength⟩
    rw [UInt64.toNat_sub_of_le _ _ hlargest, hmost] at hfits
    have hlt := writer.base.toNat_lt
    omega
  · have hfits := Size.fits_iff.mp (of_decide_eq_true h)
    have hlimit := toUInt64_toNat_lt hunbounded
    rw [ptrdiffMax] at hbase
    omega

lemma Patched.refl (h : Holds buffer contents) (n : ℕ) : Patched contents ⟨n, []⟩ buffer :=
  ⟨contents, h, le_rfl, (Patch.overlay_nil _ _ _).symm⟩

lemma dmiWriterPutBytesAt_spec (h : Holds buffer contents)
    (hbase : writer.base.toNat ≤ ptrdiffMax) (memory : Bool) (ptr : Option (ℕ → Byte))
    (offset length : Size) :
    dmiWriterPutBytesAt memory ptr offset length writer buffer = some (false, buffer) ∨
      ∃ next, dmiWriterPutBytesAt memory ptr offset length writer buffer = some (true, next) ∧
        Patched contents ⟨writer.base.toNat + offset.toNat, bytesAt ptr length⟩ next := by
  rw [dmiWriterPutBytesAt]
  split_ifs with hfits
  · exact Or.inl rfl
  · have hlt := dmiWriterFits_lt hbase (Bool.eq_true_of_not_eq_false hfits)
    rw [← Size.toNat_add_of_lt (Nat.lt_of_add_right_lt hlt)]
    exact dmiBufferWrite_spec h memory ptr _ length

lemma dmiWriterPutBytes_spec (h : Holds buffer contents) (hbase : writer.base.toNat ≤ ptrdiffMax)
    (memory : Bool) (ptr : Option (ℕ → Byte)) (length : Size) :
    dmiWriterPutBytes memory ptr length writer buffer = some (false, writer, buffer) ∨
      ∃ after next, dmiWriterPutBytes memory ptr length writer buffer = some (true, after, next) ∧
        after.base = writer.base ∧
        Patched contents ⟨writer.base.toNat + writer.position.toNat, bytesAt ptr length⟩ next := by
  rw [dmiWriterPutBytes]
  obtain hfailed | ⟨next, hput, hpatched⟩ :=
    dmiWriterPutBytesAt_spec h hbase memory ptr writer.position length
  · rw [hfailed]
    exact Or.inl rfl
  · rw [hput]
    exact Or.inr ⟨_, next, rfl, rfl, hpatched⟩

lemma dmiWriterLength_lt {stop : Size} (h : Holds buffer contents)
    (hlimit : 0 ≤ writer.length → stop.toNat ≤ writer.length.toUInt64.toNat)
    (hpast : dmiWriterLength writer buffer < stop) :
    contents.length ≤ writer.base.toNat + stop.toNat := by
  rw [dmiWriterLength] at hpast
  by_cases hbounded : 0 ≤ writer.length ∧ writer.length.toUInt64 <
      if writer.base < buffer.length then buffer.length - writer.base else 0
  · rw [if_pos hbounded, UInt64.lt_iff_toNat_lt] at hpast
    exact absurd hpast (hlimit hbounded.1).not_gt
  · rw [if_neg hbounded] at hpast
    rw [h.length]
    split_ifs at hpast with hinside
    · rw [UInt64.lt_iff_toNat_lt] at hinside
      rw [UInt64.lt_iff_toNat_lt,
        UInt64.toNat_sub_of_le _ _ (UInt64.le_iff_toNat_le.mpr hinside.le)] at hpast
      omega
    · rw [UInt64.lt_iff_toNat_lt, not_lt] at hinside
      omega

lemma dmiWriterFits_le (h : dmiWriterFits offset length writer = true)
    (hbounded : 0 ≤ writer.length) :
    offset.toNat + length.toNat ≤ writer.length.toUInt64.toNat := by
  rw [dmiWriterFits, if_neg (Int64.not_lt.mpr hbounded)] at h
  exact Size.fits_iff.mp (of_decide_eq_true h)

lemma dmiWriterSkip_spec (h : Holds buffer contents) (hbase : writer.base.toNat ≤ ptrdiffMax)
    (memory : Bool) (length : Size) :
    dmiWriterSkip memory length writer buffer = some (false, writer, buffer) ∨
      ∃ after next, dmiWriterSkip memory length writer buffer = some (true, after, next) ∧
        after.base = writer.base ∧ Patched contents ⟨0, []⟩ next := by
  rw [dmiWriterSkip]
  by_cases hfits : dmiWriterFits writer.position length writer = false
  · exact Or.inl (if_pos hfits)
  rw [if_neg hfits]
  dsimp only
  have hfits := Bool.eq_true_of_not_eq_false hfits
  have hlt := dmiWriterFits_lt hbase hfits
  have hstop : (writer.position + length).toNat = writer.position.toNat + length.toNat :=
    Size.toNat_add_of_lt (by omega)
  split_ifs with hgrows
  · have hbehind := dmiWriterLength_lt h (hstop ▸ dmiWriterFits_le hfits) hgrows
    rw [← Size.toNat_add_of_lt (by omega)] at hbehind
    obtain hnone | ⟨next, hresize, -, hholds⟩ :=
      dmiBufferResize_spec h memory (writer.base + (writer.position + length))
    · rw [hnone]
      exact Or.inl rfl
    · rw [hresize]
      refine Or.inr ⟨_, next, rfl, rfl, _, hholds, ?_, ?_⟩
      · rw [List.take_of_length_le hbehind, List.length_append]
        exact Nat.le_add_right _ _
      · rw [tape_resized, Nat.sub_eq_zero_of_le hbehind]
        exact (Patch.overlay_nil _ _ _).trans (Patch.overlay_nil _ _ _).symm
  · exact Or.inr ⟨_, buffer, rfl, rfl, Patched.refl h 0⟩

lemma dmiWriterSeek_spec (writer : DmiWriter) (buffer : DmiBuffer) (position : Size) :
    dmiWriterSeek position writer buffer = (false, writer) ∨
      ∃ after, dmiWriterSeek position writer buffer = (true, after) ∧ after.base = writer.base := by
  rw [dmiWriterSeek]
  split_ifs
  · exact Or.inl rfl
  · exact Or.inr ⟨_, rfl, rfl⟩

lemma dmiWriterCall_spec (h : Holds buffer contents) (hbase : writer.base.toNat ≤ ptrdiffMax)
    (call : WriterCall) :
    dmiWriterCall writer buffer call = some (false, writer, buffer) ∨
      ∃ after next, dmiWriterCall writer buffer call = some (true, after, next) ∧
        after.base = writer.base ∧ Patched contents (writerPatch writer call) next := by
  cases call with
  | seek position =>
    rw [dmiWriterCall]
    obtain hseek | ⟨after, hseek, hafter⟩ := dmiWriterSeek_spec writer buffer position
    · exact Or.inl (by rw [hseek])
    · exact Or.inr ⟨after, buffer, by rw [hseek], hafter, Patched.refl h 0⟩
  | rewind mark =>
    rw [dmiWriterCall, dmiWriterRewind]
    split_ifs with hmark
    · exact Or.inl rfl
    obtain hseek | ⟨after, hseek, hafter⟩ := dmiWriterSeek_spec writer buffer mark.position
    · exact Or.inl (by rw [hseek])
    · exact Or.inr ⟨after, buffer, by rw [hseek], hafter, Patched.refl h 0⟩
  | putBytes memory ptr length => exact dmiWriterPutBytes_spec h hbase memory ptr length
  | putBytesAt memory ptr offset length =>
    rw [dmiWriterCall]
    obtain hfailed | ⟨next, hput, hpatched⟩ :=
      dmiWriterPutBytesAt_spec h hbase memory ptr offset length
    · exact Or.inl (by rw [hfailed]; rfl)
    · exact Or.inr ⟨writer, next, by rw [hput]; rfl, rfl, hpatched⟩
  | skip memory length => exact dmiWriterSkip_spec h hbase memory length
  | skipEx memory mark length =>
    rw [dmiWriterCall, dmiWriterSkipEx]
    by_cases hmark : mark.buffer ≠ writer.buffer ∨ mark.base ≠ writer.base
    · exact Or.inl (if_pos hmark)
    by_cases hover : Size.largest - mark.position < length
    · exact Or.inl (by rw [if_neg hmark, if_pos hover])
    by_cases hback : mark.position + length < writer.position
    · exact Or.inl (by rw [if_neg hmark, if_neg hover, if_pos hback])
    · rw [if_neg hmark, if_neg hover, if_neg hback]
      exact dmiWriterSkip_spec h hbase memory _
  | reset => exact Or.inr ⟨_, buffer, rfl, rfl, Patched.refl h 0⟩

lemma WriterState.Sound.set (h : state.Sound contents) {index : ℕ} {after : DmiWriter}
    (hwriter : state.writers[index]? = some writer) (hafter : after.base = writer.base) :
    ∀ other ∈ state.writers.set index after, other.base.toNat ≤ ptrdiffMax := by
  intro other hmem
  rcases List.mem_or_eq_of_mem_set hmem with hmem | rfl
  · exact h.base other hmem
  · rw [hafter]
    exact h.base writer (List.mem_of_getElem? hwriter)

lemma dmiBufferCall_spec (h : state.Sound contents) (call : BufferCall) :
    dmiBufferCall state call = some (false, state) ∨
      ∃ next written, dmiBufferCall state call = some (true, next) ∧ next.Sound written ∧
        (call.cuts = false → contents.length ≤ written.length) ∧
        Patch.tape 0 written =
          Patch.overlay 0 (Patch.tape 0 contents) (bufferPatch state call) := by
  have hlength := h.holds.length
  cases call with
  | start offset length =>
    rw [dmiBufferCall, dmiWriterInitialize]
    split_ifs with hpast
    · exact Or.inl rfl
    · refine Or.inr ⟨_, contents, rfl, ⟨h.holds, ?_⟩, fun _ => le_rfl,
        (Patch.overlay_nil _ _ _).symm⟩
      rw [List.forall_mem_append, List.forall_mem_singleton]
      rw [UInt64.lt_iff_toNat_lt, not_lt] at hpast
      exact ⟨h.base, hpast.trans (h.holds.inside.trans h.holds.small)⟩
  | writer index call =>
    rw [dmiBufferCall]
    cases hwriter : state.writers[index]? with
    | none => exact Or.inl rfl
    | some writer =>
      have hbase := h.base writer (List.mem_of_getElem? hwriter)
      obtain hfailed | ⟨after, next, hcall, hafter, written, hholds, hlonger, htape⟩ :=
        dmiWriterCall_spec h.holds hbase call
      · refine Or.inl ?_
        obtain ⟨hindex, rfl⟩ := List.getElem?_eq_some_iff.mp hwriter
        dsimp only
        rw [hfailed, Option.map_some, List.set_getElem_self]
      · refine Or.inr ⟨⟨next, state.writers.set index after⟩, written,
          by dsimp only; rw [hcall]; rfl, ⟨hholds, h.set hwriter hafter⟩, fun _ => hlonger, ?_⟩
        rw [htape, bufferPatch, hwriter]
        rfl
  | write memory ptr offset length =>
    rw [dmiBufferCall]
    obtain hfailed | ⟨next, hwrite, written, hholds, hlonger, htape⟩ :=
      dmiBufferWrite_spec h.holds memory ptr offset length
    · exact Or.inl (by rw [hfailed]; rfl)
    · exact Or.inr ⟨{ state with buffer := next }, written, by rw [hwrite]; rfl, ⟨hholds, h.base⟩,
        fun _ => hlonger, htape⟩
  | assign memory ptr length =>
    rw [dmiBufferCall]
    obtain hfailed | ⟨next, hassign, hholds⟩ := dmiBufferAssign_spec h.holds memory ptr length
    · exact Or.inl (by rw [hfailed]; rfl)
    · refine Or.inr ⟨{ state with buffer := next }, _, by rw [hassign]; rfl, ⟨hholds, h.base⟩,
        fun hcuts => Bool.noConfusion hcuts, ?_⟩
      rw [Patch.tape_replaced contents, bytesAt_length, hlength]
      rfl
  | resize memory length =>
    rw [dmiBufferCall]
    obtain hfailed | ⟨next, hresize, -, hholds⟩ := dmiBufferResize_spec h.holds memory length
    · exact Or.inl (by rw [hfailed]; rfl)
    · refine Or.inr ⟨{ state with buffer := next }, _, by rw [hresize]; rfl, ⟨hholds, h.base⟩,
        fun hcuts => Bool.noConfusion hcuts, ?_⟩
      rw [tape_resized, hlength]
      rfl
  | clear =>
    refine Or.inr ⟨_, [], rfl, ⟨⟨rfl, List.nil_prefix, h.holds.capacity, h.holds.small⟩, h.base⟩,
      fun hcuts => Bool.noConfusion hcuts, ?_⟩
    rw [Patch.tape_replaced contents, hlength]
    rfl

lemma dmiBufferCalls_spec (h : state.Sound contents) (calls : List BufferCall) :
    ∃ results next written, dmiBufferCalls calls state = some (results, next) ∧
      next.Sound written ∧
      ((∀ call ∈ calls, call.cuts = false) → contents.length ≤ written.length) ∧
      Patch.tape 0 written =
        (bufferPatches calls state).foldl (Patch.overlay 0) (Patch.tape 0 contents) := by
  induction calls generalizing state contents with
  | nil => exact ⟨[], state, contents, rfl, h, fun _ => le_rfl, rfl⟩
  | cons call calls ih =>
    obtain hfailed | ⟨middle, held, hcall, hheld, hlonger, htape⟩ := dmiBufferCall_spec h call
    · obtain ⟨results, next, written, hcalls, hwritten, hrest, hlast⟩ := ih h
      refine ⟨false :: results, next, written, ?_, hwritten,
        fun hkeep => hrest fun other hmem => hkeep other (List.mem_cons_of_mem _ hmem), ?_⟩
      · rw [dmiBufferCalls, hfailed, Option.bind_some]
        dsimp only
        rw [hcalls]
        rfl
      · rw [bufferPatches, hfailed]
        exact hlast
    · obtain ⟨results, next, written, hcalls, hwritten, hrest, hlast⟩ := ih hheld
      refine ⟨true :: results, next, written, ?_, hwritten, fun hkeep => ?_, ?_⟩
      · rw [dmiBufferCalls, hcall, Option.bind_some]
        dsimp only
        rw [hcalls]
        rfl
      · exact (hlonger (hkeep call List.mem_cons_self)).trans
          (hrest fun other hmem => hkeep other (List.mem_cons_of_mem _ hmem))
      · rw [bufferPatches, hcall]
        dsimp only
        rw [List.foldl_cons, ← htape]
        exact hlast

lemma dmiBufferCalls_laws (h : Holds buffer contents) (calls : List BufferCall) :
    ∃ results next written, dmiBufferCalls calls ⟨buffer, []⟩ = some (results, next) ∧
      Holds next.buffer written ∧
      ((∀ call ∈ calls, call.cuts = false) → contents.length ≤ written.length) ∧
      (∀ i, written.getD i 0 =
        (Patch.last (bufferPatches calls ⟨buffer, []⟩) i).elim (contents.getD i 0) fun patch =>
          patch.bytes.getD (i - patch.offset) 0) ∧
      ∀ call after, dmiBufferCall next call = some (false, after) → after = next := by
  have hsound : WriterState.Sound ⟨buffer, []⟩ contents :=
    ⟨h, fun _ hmem => absurd hmem List.not_mem_nil⟩
  obtain ⟨results, next, written, hcalls, hwritten, hlonger, htape⟩ :=
    dmiBufferCalls_spec hsound calls
  refine ⟨results, next, written, hcalls, hwritten.holds, hlonger, fun i => ?_, ?_⟩
  · exact (congrFun htape i).trans Patch.overlay_foldl
  · intro call after hfailed
    obtain hsame | ⟨other, -, hdone, -⟩ := dmiBufferCall_spec hwritten call
    · rw [hsame] at hfailed
      cases hfailed
      rfl
    · rw [hdone] at hfailed
      cases hfailed

/-- Readers stay within their range, whatever they are asked for: they read nothing behind it, a
call which fails moves nothing, and a reference is to the bytes which would have been read. Bytes
of a buffer are the ones which were last written there, or which it had, and a write which fails
changes nothing. -/
theorem cursor_laws (h : Holds buffer contents) :
    (∀ offset length reader, dmiReaderInitialize buffer offset length = some reader →
      ∀ calls, ∃ results next, dmiReaderCalls buffer calls reader = some (results, next) ∧
        dmiReaderCalls (buffer.only offset length) calls reader = some (results, next) ∧
        next.length = length ∧ next.position ≤ length ∧
        (∀ call after, dmiReaderCall buffer next call = some (.failed, after) → after = next) ∧
        ∀ n, ((dmiReaderCall buffer next (.refBytes true n)).bind fun called =>
            (readerReferred buffer n called.1).map fun result => (result, called.2)) =
          dmiReaderCall buffer next (.getBytes true n)) ∧
    ∀ calls, ∃ results next written, dmiBufferCalls calls ⟨buffer, []⟩ = some (results, next) ∧
      Holds next.buffer written ∧
      ((∀ call ∈ calls, call.cuts = false) → contents.length ≤ written.length) ∧
      (∀ i, written.getD i 0 =
        (Patch.last (bufferPatches calls ⟨buffer, []⟩) i).elim (contents.getD i 0) fun patch =>
          patch.bytes.getD (i - patch.offset) 0) ∧
      ∀ call after, dmiBufferCall next call = some (false, after) → after = next :=
  ⟨fun _ _ _ hreader calls => dmiReaderCalls_laws h hreader calls, dmiBufferCalls_laws h⟩

def threeBytes : DmiBuffer := ⟨0, some [some 1, some 2, some 3, none], 3, 4⟩

lemma threeBytes_holds : Holds threeBytes [1, 2, 3] := ⟨rfl, by decide, rfl, by decide⟩

theorem cursor_laws_threeBytes :
    (∃ results next,
      dmiReaderCalls threeBytes [.getBytes true 1, .skip Size.largest, .refBytes true 1]
        ⟨0, 1, 2, 0⟩ = some (results, next) ∧ next.position ≤ 2) ∧
    ∃ results next written,
      dmiBufferCalls [.start 3 (-1), .writer 0 (.putBytes true (some fun _ => 7) 1),
        .write false (some fun _ => 9) 200 1] ⟨threeBytes, []⟩ = some (results, next) ∧
      Holds next.buffer written ∧ written.getD 3 0 = 7 := by
  obtain ⟨hreads, hwrites⟩ := cursor_laws threeBytes_holds
  obtain ⟨results, next, hcalls, -, -, hposition, -⟩ :=
    hreads 1 2 ⟨0, 1, 2, 0⟩ (by decide) [.getBytes true 1, .skip Size.largest, .refBytes true 1]
  obtain ⟨dones, after, written, hdone, hholds, -, hbytes, -⟩ :=
    hwrites [.start 3 (-1), .writer 0 (.putBytes true (some fun _ => 7) 1),
      .write false (some fun _ => 9) 200 1]
  exact ⟨⟨results, next, hcalls, hposition⟩, dones, after, written, hdone, hholds,
    (hbytes 3).trans (by decide)⟩

example : (dmiReaderCalls threeBytes [.getBytes true 1, .skip Size.largest, .refBytes true 1]
    ⟨0, 1, 2, 0⟩).map Prod.fst = some [.bytes [2], .failed, .pointer (some 2)] := by decide

end OpenDmi

import OpenDmi.Cursor
import OpenDmi.DataBuffer

namespace OpenDmi

structure ReaderMark where
  buffer : ℕ
  base : Size
  position : Size

structure DmiReader where
  buffer : ℕ
  base : Size
  length : Size
  position : Size
  deriving DecidableEq

section Functions

variable (buffer : DmiBuffer)

def dmiReaderInitialize (offset length : Size) : Option DmiReader :=
  if dmiBufferAt offset length buffer = none then none
  else some ⟨buffer.address, offset, length, 0⟩

def dmiReaderAdvance (position length : Size) (reader : DmiReader) : Bool × DmiReader :=
  if reader.length < length ∨ reader.length - length < position then (false, reader)
  else (true, { reader with position := position + length })

def dmiReaderSeek (position : Size) (reader : DmiReader) : Bool × DmiReader :=
  if reader.length < position then (false, reader)
  else (true, { reader with position })

def dmiReaderSkip (length : Size) (reader : DmiReader) : Bool × DmiReader :=
  dmiReaderAdvance reader.position length reader

def dmiReaderSkipEx (mark : ReaderMark) (length : Size) (reader : DmiReader) : Bool × DmiReader :=
  if mark.buffer ≠ reader.buffer ∨ mark.base ≠ reader.base then (false, reader)
  else dmiReaderAdvance mark.position length reader

def dmiReaderRewind (mark : ReaderMark) (reader : DmiReader) : Bool × DmiReader :=
  dmiReaderSkipEx mark 0 reader

def dmiReaderGetBytesAt (ptr : Bool) (offset length : Size) (reader : DmiReader) :
    Option (Option (List Byte)) :=
  if ptr = false ∧ length ≠ 0 then some none
  else if reader.length < length ∨ reader.length - length < offset then some none
  else dmiBufferRead ptr (reader.base + offset) length buffer

def dmiReaderGetBytes (ptr : Bool) (length : Size) (reader : DmiReader) :
    Option (Option (List Byte) × DmiReader) :=
  (dmiReaderGetBytesAt buffer ptr reader.position length reader).map fun
    | none => (none, reader)
    | some bytes => (some bytes, { reader with position := reader.position + length })

def dmiReaderRefBytes (ptr : Bool) (length : Size) (reader : DmiReader) :
    Option (Option Size) × DmiReader :=
  if ptr = false then (none, reader)
  else
    match dmiReaderSkip length reader with
    | (false, reader) => (none, reader)
    | (true, next) =>
      (some (if 0 < length then dmiBufferAt (reader.base + reader.position) length buffer
        else none), next)

def dmiReaderReset (reader : DmiReader) : DmiReader := { reader with position := 0 }

end Functions

inductive ReaderCall
  | seek (position : Size)
  | rewind (mark : ReaderMark)
  | getBytes (ptr : Bool) (length : Size)
  | getBytesAt (ptr : Bool) (offset length : Size)
  | skip (length : Size)
  | skipEx (mark : ReaderMark) (length : Size)
  | refBytes (ptr : Bool) (length : Size)
  | reset

inductive ReaderResult
  | failed
  | moved
  | bytes (data : List Byte)
  | pointer (ptr : Option Size)
  deriving DecidableEq

def readerMoved : Bool × DmiReader → ReaderResult × DmiReader
  | (false, reader) => (.failed, reader)
  | (true, reader) => (.moved, reader)

def dmiReaderCall (buffer : DmiBuffer) (reader : DmiReader) :
    ReaderCall → Option (ReaderResult × DmiReader)
  | .seek position => some (readerMoved (dmiReaderSeek position reader))
  | .rewind mark => some (readerMoved (dmiReaderRewind mark reader))
  | .getBytes ptr length => (dmiReaderGetBytes buffer ptr length reader).map fun result =>
      (result.1.elim .failed .bytes, result.2)
  | .getBytesAt ptr offset length =>
      (dmiReaderGetBytesAt buffer ptr offset length reader).map fun bytes =>
        (bytes.elim .failed .bytes, reader)
  | .skip length => some (readerMoved (dmiReaderSkip length reader))
  | .skipEx mark length => some (readerMoved (dmiReaderSkipEx mark length reader))
  | .refBytes ptr length =>
      let result := dmiReaderRefBytes buffer ptr length reader
      some (result.1.elim .failed .pointer, result.2)
  | .reset => some (.moved, dmiReaderReset reader)

def dmiReaderCalls (buffer : DmiBuffer) :
    List ReaderCall → DmiReader → Option (List ReaderResult × DmiReader)
  | [], reader => some ([], reader)
  | call :: calls, reader => (dmiReaderCall buffer reader call).bind fun (result, reader) =>
      (dmiReaderCalls buffer calls reader).map fun (results, reader) => (result :: results, reader)

def readerReferred (buffer : DmiBuffer) (length : Size) : ReaderResult → Option ReaderResult
  | .pointer (some offset) => (dmiBufferLoad offset length buffer).map .bytes
  | .pointer none => if length = 0 then some (.bytes []) else none
  | result => some result

/-- What a reader is for: a cursor over the bytes of its range. -/
def cursorGo (target : ℕ) (result : ReaderResult) (cursor : Cursor Byte) :
    ReaderResult × Cursor Byte :=
  (cursor.moveTo target).elim (.failed, cursor) fun next => (result, next)

def cursorCall (buffer : ℕ) (base : Size) (cursor : Cursor Byte) :
    ReaderCall → ReaderResult × Cursor Byte
  | .seek position => cursorGo position.toNat .moved cursor
  | .rewind mark =>
    if mark.buffer = buffer ∧ mark.base = base then cursorGo mark.position.toNat .moved cursor
    else (.failed, cursor)
  | .getBytes ptr length =>
    if ptr = false ∧ length ≠ 0 then (.failed, cursor)
    else (cursor.take length.toNat).elim (.failed, cursor) fun taken => (.bytes taken.1, taken.2)
  | .getBytesAt ptr offset length =>
    if ptr = false ∧ length ≠ 0 then (.failed, cursor)
    else ((cursor.spanAt offset.toNat length.toNat).elim .failed .bytes, cursor)
  | .skip length => cursorGo (cursor.position + length.toNat) .moved cursor
  | .skipEx mark length =>
    if mark.buffer = buffer ∧ mark.base = base then
      cursorGo (mark.position.toNat + length.toNat) .moved cursor
    else (.failed, cursor)
  | .refBytes ptr length =>
    if ptr = false then (.failed, cursor)
    else cursorGo (cursor.position + length.toNat)
      (.pointer (if 0 < length then some (base + .ofNat cursor.position) else none)) cursor
  | .reset => cursorGo 0 .moved cursor

def cursorCalls (buffer : ℕ) (base : Size) :
    List ReaderCall → Cursor Byte → List ReaderResult × Cursor Byte
  | [], cursor => ([], cursor)
  | call :: calls, cursor =>
    let (result, cursor) := cursorCall buffer base cursor call
    let (results, cursor) := cursorCalls buffer base calls cursor
    (result :: results, cursor)

structure Window (buffer : DmiBuffer) (base : Size) (window : List Byte) : Prop where
  present : buffer.data ≠ none
  inside : base.toNat + window.length ≤ buffer.length.toNat
  written : window.map some <+: buffer.cells.drop base.toNat

structure Reads (buffer : DmiBuffer) (reader : DmiReader) (cursor : Cursor Byte) : Prop where
  window : Window buffer reader.base cursor.values
  length : cursor.values.length = reader.length.toNat
  position : cursor.position = reader.position.toNat

def DmiReader.to (reader : DmiReader) (cursor : Cursor Byte) : DmiReader :=
  { reader with position := .ofNat cursor.position }

variable {buffer : DmiBuffer} {reader : DmiReader} {cursor next : Cursor Byte} {window : List Byte}
  {base offset length position : Size}

lemma Reads.to (h : Reads buffer reader cursor) (hnext : next.values = cursor.values) :
    Reads buffer (reader.to next) next := by
  have hlength : next.values.length = reader.length.toNat := by rw [hnext, h.length]
  refine ⟨hnext ▸ h.window, hlength, ?_⟩
  have hlt : next.position < 2 ^ 64 :=
    (next.inside.trans hlength.le).trans_lt reader.length.toNat_lt
  exact (UInt64.toNat_ofNat_of_lt' hlt).symm

lemma Reads.stays (h : Reads buffer reader cursor) : reader.to cursor = reader := by
  rw [DmiReader.to, h.position, UInt64.ofNat_toNat]

lemma DmiReader.to_add (h : next.position = position.toNat + length.toNat) :
    reader.to next = { reader with position := position + length } := by
  rw [DmiReader.to, h, UInt64.ofNat_add, UInt64.ofNat_toNat, UInt64.ofNat_toNat]

lemma dmiReaderAdvance_spec (h : Reads buffer reader cursor) (position length : Size) :
    dmiReaderAdvance position length reader =
      (cursor.moveTo (position.toNat + length.toNat)).elim (false, reader)
        fun next => (true, reader.to next) := by
  rw [dmiReaderAdvance, Cursor.moveTo]
  by_cases hpast : reader.length < length ∨ reader.length - length < position
  · have hlt := Size.past_iff.mp hpast
    rw [if_pos hpast, dif_neg (by rw [h.length]; exact hlt.not_ge)]
    rfl
  · rw [if_neg hpast]
    rw [Size.past_iff, not_lt, ← h.length] at hpast
    rw [dif_pos hpast, Option.elim_some, DmiReader.to_add rfl]

lemma dmiReaderSeek_spec (h : Reads buffer reader cursor) (position : Size) :
    dmiReaderSeek position reader =
      (cursor.moveTo position.toNat).elim (false, reader) fun next => (true, reader.to next) := by
  rw [dmiReaderSeek, Cursor.moveTo]
  by_cases hpast : reader.length < position
  · rw [if_pos hpast, dif_neg (by rw [h.length]; exact (UInt64.lt_iff_toNat_lt.mp hpast).not_ge)]
    rfl
  · rw [if_neg hpast]
    rw [UInt64.lt_iff_toNat_lt, not_lt, ← h.length] at hpast
    rw [dif_pos hpast, Option.elim_some, DmiReader.to, UInt64.ofNat_toNat]

lemma readerMoved_spec (h : Reads buffer reader cursor) (target : ℕ) :
    readerMoved ((cursor.moveTo target).elim (false, reader) fun next => (true, reader.to next)) =
      ((cursorGo target .moved cursor).1, reader.to (cursorGo target .moved cursor).2) := by
  rw [cursorGo]
  cases cursor.moveTo target with
  | none => exact Prod.ext rfl h.stays.symm
  | some next => rfl

lemma Window.toNat_add (h : Window buffer base window)
    (hspan : offset.toNat + length.toNat ≤ window.length) :
    (base + offset).toNat = base.toNat + offset.toNat := by
  refine Size.toNat_add_of_lt ?_
  have hinside := h.inside
  have hlt := buffer.length.toNat_lt
  omega

lemma Window.load (h : Window buffer base window)
    (hspan : offset.toNat + length.toNat ≤ window.length) :
    dmiBufferLoad (base + offset) length buffer =
      some ((window.drop offset.toNat).take length.toNat) := by
  rw [dmiBufferLoad, h.toNat_add hspan]
  exact Cells.load_span h.written hspan

lemma Window.not_past (h : Window buffer base window)
    (hspan : offset.toNat + length.toNat ≤ window.length) :
    ¬ (buffer.length < base + offset ∨ buffer.length - (base + offset) < length) := by
  rw [Size.past_iff, h.toNat_add hspan]
  have hinside := h.inside
  omega

lemma Window.at (h : Window buffer base window)
    (hspan : offset.toNat + length.toNat ≤ window.length) :
    dmiBufferAt (base + offset) length buffer = some (base + offset) := by
  rw [dmiBufferAt, if_neg h.present, if_neg (h.not_past hspan)]

lemma Window.read {ptr : Bool} (h : Window buffer base window)
    (hptr : ¬ (ptr = false ∧ length ≠ 0))
    (hspan : offset.toNat + length.toNat ≤ window.length) :
    dmiBufferRead ptr (base + offset) length buffer =
      some (some ((window.drop offset.toNat).take length.toNat)) := by
  rw [dmiBufferRead, if_neg hptr, if_neg (h.not_past hspan)]
  split_ifs with hsome
  · rw [h.load hspan]
    rfl
  · rw [UInt64.lt_iff_toNat_lt, not_lt] at hsome
    rw [Nat.le_zero.mp hsome, List.take_zero]

lemma dmiReaderGetBytesAt_spec (h : Reads buffer reader cursor) (ptr : Bool)
    (offset length : Size) :
    dmiReaderGetBytesAt buffer ptr offset length reader =
      some (if ptr = false ∧ length ≠ 0 then none
        else cursor.spanAt offset.toNat length.toNat) := by
  rw [dmiReaderGetBytesAt]
  by_cases hptr : ptr = false ∧ length ≠ 0
  · rw [if_pos hptr, if_pos hptr]
  rw [if_neg hptr, if_neg hptr, Cursor.spanAt]
  by_cases hpast : reader.length < length ∨ reader.length - length < offset
  · have hlt := Size.past_iff.mp hpast
    rw [if_pos hpast, if_neg (by rw [h.length]; exact hlt.not_ge)]
  · rw [if_neg hpast]
    rw [Size.past_iff, not_lt, ← h.length] at hpast
    rw [if_pos hpast, h.window.read hptr hpast]

lemma dmiReaderGetBytes_spec (h : Reads buffer reader cursor) (ptr : Bool) (length : Size) :
    dmiReaderGetBytes buffer ptr length reader =
      some (if ptr = false ∧ length ≠ 0 then (none, reader)
        else (cursor.take length.toNat).elim (none, reader)
          fun taken => (some taken.1, reader.to taken.2)) := by
  rw [dmiReaderGetBytes, dmiReaderGetBytesAt_spec h]
  by_cases hptr : ptr = false ∧ length ≠ 0
  · rw [if_pos hptr, if_pos hptr]
    rfl
  rw [if_neg hptr, if_neg hptr, Cursor.take_eq, Cursor.spanAt_eq, ← h.position]
  cases hmove : cursor.moveTo (cursor.position + length.toNat) with
  | none => rfl
  | some next =>
    have hposition : next.position = reader.position.toNat + length.toNat := by
      rw [← h.position]
      exact (Cursor.moveTo_some hmove).2
    simp only [Option.map_some, Option.elim_some, DmiReader.to_add hposition]

lemma dmiReaderRefBytes_spec (h : Reads buffer reader cursor) (ptr : Bool) (length : Size) :
    dmiReaderRefBytes buffer ptr length reader =
      if ptr = false then (none, reader)
      else (cursor.moveTo (cursor.position + length.toNat)).elim (none, reader) fun next =>
        (some (if 0 < length then some (reader.base + reader.position) else none),
          reader.to next) := by
  rw [dmiReaderRefBytes, dmiReaderSkip, dmiReaderAdvance_spec h, ← h.position]
  cases hmove : cursor.moveTo (cursor.position + length.toNat) with
  | none => rfl
  | some next =>
    have hspan : reader.position.toNat + length.toNat ≤ cursor.values.length := by
      obtain ⟨hvalues, hposition⟩ := Cursor.moveTo_some hmove
      rw [← h.position, ← hposition, ← hvalues]
      exact next.inside
    simp only [Option.elim_some, h.window.at hspan]

lemma dmiReaderSkipEx_spec (h : Reads buffer reader cursor) (mark : ReaderMark) (length : Size) :
    readerMoved (dmiReaderSkipEx mark length reader) =
      let result := if mark.buffer = reader.buffer ∧ mark.base = reader.base then
        cursorGo (mark.position.toNat + length.toNat) .moved cursor else (.failed, cursor)
      (result.1, reader.to result.2) := by
  rw [dmiReaderSkipEx]
  by_cases hmark : mark.buffer = reader.buffer ∧ mark.base = reader.base
  · rw [if_neg (by rwa [← not_and_or, not_not]), if_pos hmark, dmiReaderAdvance_spec h]
    exact readerMoved_spec h _
  · rw [if_pos (not_and_or.mp hmark), if_neg hmark]
    exact Prod.ext rfl h.stays.symm

lemma dmiReaderCall_spec (h : Reads buffer reader cursor) (call : ReaderCall) :
    dmiReaderCall buffer reader call =
      some ((cursorCall reader.buffer reader.base cursor call).1,
        reader.to (cursorCall reader.buffer reader.base cursor call).2) := by
  cases call with
  | seek position =>
    rw [dmiReaderCall, dmiReaderSeek_spec h, readerMoved_spec h]
    rfl
  | rewind mark =>
    rw [dmiReaderCall, dmiReaderRewind, dmiReaderSkipEx_spec h]
    rfl
  | getBytes ptr length =>
    rw [dmiReaderCall, dmiReaderGetBytes_spec h, cursorCall]
    split_ifs with hptr
    · exact congrArg some (Prod.ext rfl h.stays.symm)
    · cases cursor.take length.toNat with
      | none => exact congrArg some (Prod.ext rfl h.stays.symm)
      | some taken => rfl
  | getBytesAt ptr offset length =>
    rw [dmiReaderCall, dmiReaderGetBytesAt_spec h, cursorCall]
    split_ifs with hptr
    · exact congrArg some (Prod.ext rfl h.stays.symm)
    · exact congrArg some (Prod.ext rfl h.stays.symm)
  | skip length =>
    rw [dmiReaderCall, dmiReaderSkip, dmiReaderAdvance_spec h, ← h.position, readerMoved_spec h]
    rfl
  | skipEx mark length =>
    rw [dmiReaderCall, dmiReaderSkipEx_spec h]
    rfl
  | refBytes ptr length =>
    rw [dmiReaderCall, dmiReaderRefBytes_spec h, cursorCall]
    by_cases hptr : ptr = false
    · rw [if_pos hptr, if_pos hptr]
      exact congrArg some (Prod.ext rfl h.stays.symm)
    · rw [if_neg hptr, if_neg hptr, cursorGo, h.position, UInt64.ofNat_toNat]
      cases cursor.moveTo (reader.position.toNat + length.toNat) with
      | none => exact congrArg some (Prod.ext rfl h.stays.symm)
      | some next => rfl
  | reset => rfl

lemma cursorGo_values (target : ℕ) (result : ReaderResult) (cursor : Cursor Byte) :
    (cursorGo target result cursor).2.values = cursor.values := by
  rw [cursorGo]
  cases hmove : cursor.moveTo target with
  | none => rfl
  | some next => exact (Cursor.moveTo_some hmove).1

lemma cursorCall_values (buffer : ℕ) (base : Size) (cursor : Cursor Byte) (call : ReaderCall) :
    (cursorCall buffer base cursor call).2.values = cursor.values := by
  cases call with
  | seek | skip | reset => exact cursorGo_values _ _ _
  | rewind | skipEx =>
    rw [cursorCall]
    split_ifs
    · exact cursorGo_values _ _ _
    · rfl
  | getBytes ptr length =>
    rw [cursorCall, Cursor.take_eq]
    split_ifs
    · rfl
    · cases hmove : cursor.moveTo (cursor.position + length.toNat) with
      | none => rfl
      | some next => exact (Cursor.moveTo_some hmove).1
  | getBytesAt ptr offset length =>
    rw [cursorCall]
    split_ifs <;> rfl
  | refBytes ptr length =>
    rw [cursorCall]
    by_cases hptr : ptr = false
    · rw [if_pos hptr]
    · rw [if_neg hptr]
      exact cursorGo_values _ _ _

lemma dmiReaderCalls_spec (h : Reads buffer reader cursor) (calls : List ReaderCall) :
    dmiReaderCalls buffer calls reader =
      some ((cursorCalls reader.buffer reader.base calls cursor).1,
        reader.to (cursorCalls reader.buffer reader.base calls cursor).2) := by
  induction calls generalizing reader cursor with
  | nil => exact congrArg some (Prod.ext rfl h.stays.symm)
  | cons call calls ih =>
    have hnext := h.to (cursorCall_values reader.buffer reader.base cursor call)
    rw [dmiReaderCalls, dmiReaderCall_spec h, Option.bind_some]
    simp only [ih hnext, cursorCalls]
    rfl

lemma cursorCalls_values (buffer : ℕ) (base : Size) (calls : List ReaderCall)
    (cursor : Cursor Byte) :
    (cursorCalls buffer base calls cursor).2.values = cursor.values := by
  induction calls generalizing cursor with
  | nil => rfl
  | cons call calls ih => exact (ih _).trans (cursorCall_values buffer base cursor call)

lemma cursorGo_failed {target : ℕ} {result : ReaderResult} (hresult : result ≠ .failed)
    (h : (cursorGo target result cursor).1 = .failed) :
    (cursorGo target result cursor).2 = cursor := by
  rw [cursorGo] at h ⊢
  cases hmove : cursor.moveTo target with
  | none => rfl
  | some next =>
    rw [hmove] at h
    exact absurd h hresult

lemma cursorCall_failed {call : ReaderCall} {address : ℕ}
    (h : (cursorCall address base cursor call).1 = .failed) :
    (cursorCall address base cursor call).2 = cursor := by
  cases call with
  | seek | skip | reset => exact cursorGo_failed ReaderResult.noConfusion h
  | rewind | skipEx =>
    rw [cursorCall] at h ⊢
    split_ifs at h ⊢
    · exact cursorGo_failed ReaderResult.noConfusion h
    · rfl
  | getBytes ptr length =>
    rw [cursorCall] at h ⊢
    split_ifs at h ⊢
    · rfl
    · cases htake : cursor.take length.toNat with
      | none => rfl
      | some taken =>
        rw [htake] at h
        exact ReaderResult.noConfusion h
  | getBytesAt ptr offset length =>
    rw [cursorCall]
    split_ifs <;> rfl
  | refBytes ptr length =>
    rw [cursorCall] at h ⊢
    by_cases hptr : ptr = false
    · rw [if_pos hptr]
    · rw [if_neg hptr] at h ⊢
      exact cursorGo_failed ReaderResult.noConfusion h

lemma readerReferred_some (buffer : DmiBuffer) (offset length : Size) :
    readerReferred buffer length (.pointer (some offset)) =
      (dmiBufferLoad offset length buffer).map .bytes := rfl

lemma readerReferred_none (buffer : DmiBuffer) (length : Size) :
    readerReferred buffer length (.pointer none) =
      if length = 0 then some (.bytes []) else none := rfl

lemma dmiReaderCall_refBytes (h : Reads buffer reader cursor) (length : Size) :
    ((dmiReaderCall buffer reader (.refBytes true length)).bind fun called =>
        (readerReferred buffer length called.1).map fun result => (result, called.2)) =
      dmiReaderCall buffer reader (.getBytes true length) := by
  have hptr : ¬ (true = false ∧ length ≠ 0) := fun hnull => Bool.noConfusion hnull.1
  rw [dmiReaderCall_spec h, dmiReaderCall_spec h, Option.bind_some, cursorCall, cursorCall,
    if_neg Bool.noConfusion, if_neg hptr, Cursor.take_eq, cursorGo]
  cases hmove : cursor.moveTo (cursor.position + length.toNat) with
  | none => rfl
  | some next =>
    have hspan : reader.position.toNat + length.toNat ≤ cursor.values.length := by
      obtain ⟨hvalues, hposition⟩ := Cursor.moveTo_some hmove
      rw [← h.position, ← hposition, ← hvalues]
      exact next.inside
    simp only [Option.map_some, Option.elim_some]
    by_cases hsome : 0 < length
    · rw [if_pos hsome, readerReferred_some, h.position, UInt64.ofNat_toNat, h.window.load hspan]
      rfl
    · have hzero : length = 0 := by
        rw [UInt64.lt_iff_toNat_lt] at hsome
        exact UInt64.toNat_inj.mp (Nat.eq_zero_of_not_pos hsome)
      rw [if_neg hsome, readerReferred_none, if_pos hzero, hzero]
      rfl

lemma readerGet_refined {source : Source} {state : DecodeState} (h : Reads buffer reader cursor)
    (hvalues : cursor.values = source.body) (hposition : cursor.position = state.position)
    (length : Size) :
    dmiReaderGetBytes buffer true length reader =
      some ((readerGet source length.toNat state).elim (none, reader) fun got =>
        (some got.1, { reader with position := reader.position + length })) := by
  rw [dmiReaderGetBytes, dmiReaderGetBytesAt_spec h, if_neg fun hnull => Bool.noConfusion hnull.1,
    Cursor.spanAt, hvalues, readerGet, ← h.position, hposition]
  split_ifs <;> rfl

def DmiBuffer.only (offset length : Size) (buffer : DmiBuffer) : DmiBuffer :=
  { buffer with
    data := buffer.data.map fun cells => cells.mapIdx fun i cell =>
      if offset.toNat ≤ i ∧ i < offset.toNat + length.toNat then cell else none }

lemma Window.only (h : Window buffer base window) (hlength : window.length = length.toNat) :
    Window (buffer.only base length) base window := by
  refine ⟨fun hnone => h.present (Option.map_eq_none_iff.mp hnone), h.inside, ?_⟩
  obtain ⟨cells, hcells⟩ := Option.ne_none_iff_exists'.mp h.present
  have hwritten := h.written
  simp only [DmiBuffer.cells, DmiBuffer.only, hcells, Option.map_some, Option.getD_some]
    at hwritten ⊢
  rw [List.prefix_iff_getElem?] at hwritten ⊢
  intro i hi
  have hin : i < length.toNat := by rwa [List.length_map, hlength] at hi
  have hcell := hwritten i hi
  rw [List.getElem?_drop] at hcell ⊢
  rw [List.getElem?_mapIdx, hcell, Option.map_some, if_pos (by omega)]

lemma dmiReaderInitialize_reads {contents : List Byte} (h : Holds buffer contents)
    (hreader : dmiReaderInitialize buffer offset length = some reader) :
    ∃ cursor : Cursor Byte, Reads buffer reader cursor ∧ reader.base = offset ∧
      reader.length = length := by
  have hat : dmiBufferAt offset length buffer ≠ none := by
    intro hnone
    rw [dmiReaderInitialize, if_pos hnone] at hreader
    cases hreader
  rw [dmiReaderInitialize, if_neg hat] at hreader
  cases hreader
  have hpresent : buffer.data ≠ none := fun hnone => hat (if_pos hnone)
  have hpast : ¬ (buffer.length < offset ∨ buffer.length - offset < length) := fun hpast =>
    hat (by rw [dmiBufferAt, if_neg hpresent, if_pos hpast])
  rw [Size.past_iff, not_lt, ← h.length] at hpast
  have hlength : ((contents.drop offset.toNat).take length.toNat).length = length.toNat := by
    rw [List.length_take, List.length_drop]
    omega
  refine ⟨⟨(contents.drop offset.toNat).take length.toNat, 0, Nat.zero_le _⟩,
    ⟨⟨hpresent, ?_, ?_⟩, hlength, rfl⟩, rfl, rfl⟩
  · change offset.toNat + _ ≤ _
    rw [hlength, ← h.length]
    omega
  · rw [List.map_take, List.map_drop]
    exact (List.take_prefix _ _).trans (h.written.drop _)

lemma dmiReaderCalls_laws {contents : List Byte} (h : Holds buffer contents)
    (hreader : dmiReaderInitialize buffer offset length = some reader) (calls : List ReaderCall) :
    ∃ results next, dmiReaderCalls buffer calls reader = some (results, next) ∧
      dmiReaderCalls (buffer.only offset length) calls reader = some (results, next) ∧
      next.length = length ∧ next.position ≤ length ∧
      (∀ call after, dmiReaderCall buffer next call = some (.failed, after) → after = next) ∧
      ∀ n, ((dmiReaderCall buffer next (.refBytes true n)).bind fun called =>
          (readerReferred buffer n called.1).map fun result => (result, called.2)) =
        dmiReaderCall buffer next (.getBytes true n) := by
  obtain ⟨cursor, hreads, rfl, rfl⟩ := dmiReaderInitialize_reads h hreader
  have honly : Reads (buffer.only reader.base reader.length) reader cursor :=
    ⟨hreads.window.only hreads.length, hreads.length, hreads.position⟩
  have hnext := hreads.to (cursorCalls_values reader.buffer reader.base calls cursor)
  refine ⟨_, _, dmiReaderCalls_spec hreads calls, dmiReaderCalls_spec honly calls, rfl, ?_, ?_,
    dmiReaderCall_refBytes hnext⟩
  · rw [UInt64.le_iff_toNat_le, ← hnext.position]
    exact (cursorCalls _ _ calls cursor).2.inside.trans_eq hnext.length
  · intro call after hfailed
    rw [dmiReaderCall_spec hnext, Option.some_inj, Prod.mk.injEq] at hfailed
    obtain ⟨hresult, rfl⟩ := hfailed
    rw [cursorCall_failed hresult]
    exact hnext.stays

end OpenDmi

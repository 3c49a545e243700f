import OpenDmi.FieldDecode
import OpenDmi.MemoryCells

namespace OpenDmi

def Size.largest : Size := 0xFFFFFFFFFFFFFFFF

def ptrdiffMax : ℕ := 2 ^ 63 - 1

def dmiBufferCapacityStep : Size := 128

structure DmiBuffer where
  address : ℕ
  data : Option (List (Option Byte))
  length : Size
  capacity : Size
  deriving DecidableEq

def DmiBuffer.cells (buffer : DmiBuffer) : List (Option Byte) := buffer.data.getD []

/-- Memory keeps its bytes when it is given another size, which is never beyond what the difference
of two pointers holds. The rest of it has not been written yet. -/
def realloc (memory : Bool) (data : Option (List (Option Byte))) (size : Size) :
    Option (List (Option Byte)) :=
  if memory ∧ size.toNat ≤ ptrdiffMax then
    some ((data.getD []).take size.toNat ++
      List.replicate (size.toNat - (data.getD []).length) none)
  else none

def bytesAt (ptr : Option (ℕ → Byte)) (length : Size) : List Byte :=
  (List.range length.toNat).map (ptr.getD fun _ => 0)

def dmiBufferLoad (offset length : Size) (buffer : DmiBuffer) : Option (List Byte) :=
  Cells.load buffer.cells offset.toNat length.toNat

def dmiBufferStore (offset : Size) (bytes : List Byte) (buffer : DmiBuffer) : Option DmiBuffer :=
  (Cells.store buffer.cells offset.toNat bytes).map fun data => { buffer with data := some data }

def dmiBufferReserve (memory : Bool) (capacity : Size) (buffer : DmiBuffer) : Bool × DmiBuffer :=
  if capacity ≤ buffer.capacity then (true, buffer)
  else
    let steps := capacity / dmiBufferCapacityStep
    let steps := if capacity % dmiBufferCapacityStep ≠ 0 then steps + 1 else steps
    if Size.largest / dmiBufferCapacityStep < steps then (false, buffer)
    else
      let reserved := steps * dmiBufferCapacityStep
      match realloc memory buffer.data reserved with
      | none => (false, buffer)
      | some data => (true, { buffer with data := some data, capacity := reserved })

def dmiBufferResize (memory : Bool) (length : Size) (buffer : DmiBuffer) :
    Option (Bool × DmiBuffer) :=
  if buffer.length < length then
    match dmiBufferReserve memory length buffer with
    | (false, buffer) => some (false, buffer)
    | (true, buffer) =>
      (dmiBufferStore buffer.length (List.replicate (length - buffer.length).toNat 0) buffer).map
        fun buffer => (true, { buffer with length })
  else some (true, { buffer with length })

def dmiBufferAssign (memory : Bool) (ptr : Option (ℕ → Byte)) (length : Size) (buffer : DmiBuffer) :
    Option (Bool × DmiBuffer) :=
  if ptr = none ∧ length ≠ 0 then some (false, buffer)
  else
    match dmiBufferReserve memory length buffer with
    | (false, buffer) => some (false, buffer)
    | (true, buffer) =>
      (if 0 < length then dmiBufferStore 0 (bytesAt ptr length) buffer else some buffer).map
        fun buffer => (true, { buffer with length })

def dmiBufferRead (ptr : Bool) (offset length : Size) (buffer : DmiBuffer) :
    Option (Option (List Byte)) :=
  if ptr = false ∧ length ≠ 0 then some none
  else if buffer.length < offset ∨ buffer.length - offset < length then some none
  else if 0 < length then (dmiBufferLoad offset length buffer).map some
  else some (some [])

def dmiBufferWrite (memory : Bool) (ptr : Option (ℕ → Byte)) (offset length : Size)
    (buffer : DmiBuffer) : Option (Bool × DmiBuffer) :=
  if ptr = none ∧ length ≠ 0 then some (false, buffer)
  else if length = 0 then some (true, buffer)
  else if Size.largest - offset < length then some (false, buffer)
  else
    let resized :=
      if buffer.length < offset + length then dmiBufferResize memory (offset + length) buffer
      else some (true, buffer)
    match resized with
    | none => none
    | some (false, buffer) => some (false, buffer)
    | some (true, buffer) =>
      (dmiBufferStore offset (bytesAt ptr length) buffer).map fun buffer => (true, buffer)

def dmiBufferAt (offset length : Size) (buffer : DmiBuffer) : Option Size :=
  if buffer.data = none then none
  else if buffer.length < offset ∨ buffer.length - offset < length then none
  else some offset

def dmiBufferClear (buffer : DmiBuffer) : DmiBuffer := { buffer with length := 0 }

structure Holds (buffer : DmiBuffer) (contents : List Byte) : Prop where
  length : contents.length = buffer.length.toNat
  written : contents.map some <+: buffer.cells
  capacity : buffer.cells.length = buffer.capacity.toNat
  small : buffer.capacity.toNat ≤ ptrdiffMax

def Patched (contents : List Byte) (patch : Patch Byte) (buffer : DmiBuffer) : Prop :=
  ∃ written, Holds buffer written ∧ contents.length ≤ written.length ∧
    Patch.tape 0 written = Patch.overlay 0 (Patch.tape 0 contents) patch

variable {buffer next : DmiBuffer} {contents bytes : List Byte} {memory : Bool}
  {ptr : Option (ℕ → Byte)} {capacity offset length : Size}

@[simp] lemma bytesAt_length (ptr : Option (ℕ → Byte)) (length : Size) :
    (bytesAt ptr length).length = length.toNat := by
  rw [bytesAt, List.length_map, List.length_range]

lemma Holds.inside (h : Holds buffer contents) : buffer.length.toNat ≤ buffer.capacity.toNat := by
  have hle := h.written.length_le
  rwa [List.length_map, h.length, h.capacity] at hle

lemma dmiBufferSteps_spec {steps : Size}
    (hsteps : steps = if capacity % dmiBufferCapacityStep ≠ 0 then
      capacity / dmiBufferCapacityStep + 1 else capacity / dmiBufferCapacityStep)
    (hfits : ¬ Size.largest / dmiBufferCapacityStep < steps) :
    capacity.toNat ≤ (steps * dmiBufferCapacityStep).toNat := by
  have hstep : dmiBufferCapacityStep.toNat = 128 := rfl
  have hmost : (Size.largest / dmiBufferCapacityStep).toNat = (2 ^ 64 - 1) / 128 := rfl
  have hcapacity := capacity.toNat_lt
  rw [UInt64.lt_iff_toNat_lt, hmost] at hfits
  have hquotient : (capacity / dmiBufferCapacityStep).toNat = capacity.toNat / 128 := by
    rw [UInt64.toNat_div, hstep]
  have hremainder : capacity % dmiBufferCapacityStep ≠ 0 ↔ capacity.toNat % 128 ≠ 0 := by
    rw [ne_eq, ← UInt64.toNat_inj, UInt64.toNat_mod, hstep]
    rfl
  have hcount : capacity.toNat ≤ steps.toNat * 128 := by
    rw [hsteps]
    split_ifs with hrest
    · rw [hremainder] at hrest
      rw [UInt64.toNat_add, hquotient, Nat.mod_eq_of_lt (by change _ + 1 < _; omega)]
      change _ ≤ (_ + 1) * 128
      omega
    · rw [hremainder] at hrest
      rw [hquotient]
      omega
  rw [UInt64.toNat_mul, hstep, Nat.mod_eq_of_lt (by omega)]
  exact hcount

lemma dmiBufferReserve_spec (h : Holds buffer contents) (memory : Bool) (capacity : Size) :
    dmiBufferReserve memory capacity buffer = (false, buffer) ∨
      ∃ next, dmiBufferReserve memory capacity buffer = (true, next) ∧ Holds next contents ∧
        capacity.toNat ≤ next.capacity.toNat ∧ next.length = buffer.length := by
  by_cases henough : capacity ≤ buffer.capacity
  · exact Or.inr ⟨buffer, if_pos henough, h, UInt64.le_iff_toNat_le.mp henough, rfl⟩
  rw [dmiBufferReserve, if_neg henough]
  dsimp only
  generalize hsteps : (if capacity % dmiBufferCapacityStep ≠ 0 then
    capacity / dmiBufferCapacityStep + 1 else capacity / dmiBufferCapacityStep) = steps
  split_ifs with hlarge
  · exact Or.inl rfl
  · have hreserved := dmiBufferSteps_spec hsteps.symm hlarge
    generalize steps * dmiBufferCapacityStep = reserved at hreserved
    have hless : buffer.capacity.toNat < capacity.toNat :=
      UInt64.lt_iff_toNat_lt.mp (UInt64.not_le.mp henough)
    rw [realloc]
    split_ifs with hmemory
    · have hcells : buffer.cells.length ≤ reserved.toNat := by
        rw [h.capacity]
        omega
      refine Or.inr ⟨_, rfl, ⟨h.length, ?_, ?_, hmemory.2⟩, hreserved, rfl⟩
      · change _ <+: buffer.cells.take _ ++ _
        rw [List.take_of_length_le hcells]
        exact h.written.trans (List.prefix_append _ _)
      · change (buffer.cells.take _ ++ List.replicate (_ - buffer.cells.length) _).length = _
        rw [List.take_of_length_le hcells, List.length_append, List.length_replicate]
        exact Nat.add_sub_cancel' hcells
    · exact Or.inl rfl

lemma dmiBufferStore_spec (h : Holds buffer contents) (bytes : List Byte)
    (hoffset : offset.toNat ≤ contents.length)
    (hroom : offset.toNat + bytes.length ≤ buffer.capacity.toNat) :
    ∃ next, dmiBufferStore offset bytes buffer = some next ∧ next.length = buffer.length ∧
      ∀ length : Size, (Patch.apply contents ⟨offset.toNat, bytes⟩).length = length.toNat →
        Holds { next with length } (Patch.apply contents ⟨offset.toNat, bytes⟩) := by
  obtain ⟨cells, hstore, hlength, hwritten⟩ :=
    Cells.store_spec h.written hoffset (by rwa [h.capacity])
  refine ⟨{ buffer with data := some cells }, by rw [dmiBufferStore, hstore]; rfl, rfl, ?_⟩
  exact fun length hends => ⟨hends, hwritten, hlength.trans h.capacity, h.small⟩

lemma dmiBufferResize_spec (h : Holds buffer contents) (memory : Bool) (length : Size) :
    dmiBufferResize memory length buffer = some (false, buffer) ∨
      ∃ next, dmiBufferResize memory length buffer = some (true, next) ∧ next.length = length ∧
        Holds next (contents.take length.toNat ++
          List.replicate (length.toNat - contents.length) 0) := by
  by_cases hgrows : buffer.length < length
  · have hless : contents.length < length.toNat := h.length ▸ UInt64.lt_iff_toNat_lt.mp hgrows
    rw [dmiBufferResize, if_pos hgrows]
    obtain hnone | ⟨reserved, hreserve, hreserved, hroom, -⟩ :=
      dmiBufferReserve_spec h memory length
    · rw [hnone]
      exact Or.inl rfl
    have hcount : (length - reserved.length).toNat = length.toNat - contents.length := by
      rw [hreserved.length] at hless ⊢
      exact UInt64.toNat_sub_of_le _ _ (UInt64.le_iff_toNat_le.mpr hless.le)
    obtain ⟨next, hstore, -, hholds⟩ := dmiBufferStore_spec hreserved
      (List.replicate (length - reserved.length).toNat 0) hreserved.length.ge
      (by rw [List.length_replicate, hcount, ← hreserved.length]; omega)
    rw [← hreserved.length, Patch.apply_end, hcount] at hholds
    refine Or.inr ⟨{ next with length }, by rw [hreserve]; dsimp only; rw [hstore]; rfl, rfl, ?_⟩
    rw [List.take_of_length_le hless.le]
    refine hholds length ?_
    rw [List.length_append, List.length_replicate]
    exact Nat.add_sub_cancel' hless.le
  · have hless : length.toNat ≤ contents.length := by
      rw [h.length]
      exact UInt64.le_iff_toNat_le.mp (UInt64.not_lt.mp hgrows)
    refine Or.inr ⟨{ buffer with length }, if_neg hgrows, rfl, ?_⟩
    rw [Nat.sub_eq_zero_of_le hless, List.replicate_zero, List.append_nil]
    refine ⟨by rw [List.length_take, min_eq_left hless], ?_, h.capacity, h.small⟩
    rw [List.map_take]
    exact (List.take_prefix _ _).trans h.written

lemma tape_resized (contents : List Byte) (n : ℕ) :
    Patch.tape 0 (contents.take n ++ List.replicate (n - contents.length) 0) =
      Patch.overlay 0 (Patch.tape 0 contents) ⟨n, List.replicate (contents.length - n) 0⟩ := by
  rw [Patch.tape_grown, Patch.tape_cut]

lemma dmiBufferAssign_spec (h : Holds buffer contents) (memory : Bool) (ptr : Option (ℕ → Byte))
    (length : Size) :
    dmiBufferAssign memory ptr length buffer = some (false, buffer) ∨
      ∃ next, dmiBufferAssign memory ptr length buffer = some (true, next) ∧
        Holds next (bytesAt ptr length) := by
  by_cases hnull : ptr = none ∧ length ≠ 0
  · exact Or.inl (if_pos hnull)
  rw [dmiBufferAssign, if_neg hnull]
  obtain hnone | ⟨reserved, hreserve, hreserved, hroom, -⟩ :=
      dmiBufferReserve_spec h memory length
  · rw [hnone]
    exact Or.inl rfl
  rw [hreserve]
  dsimp only
  by_cases hsome : 0 < length
  · have hnothing : ([] : List Byte).map some <+: reserved.cells := List.nil_prefix
    have hfits : 0 + (bytesAt ptr length).length ≤ reserved.cells.length := by
      rwa [Nat.zero_add, bytesAt_length, hreserved.capacity]
    obtain ⟨cells, hstore, hlength, hwritten⟩ := Cells.store_spec hnothing le_rfl hfits
    rw [Patch.apply_end, List.nil_append] at hwritten
    refine Or.inr ⟨{ reserved with data := some cells, length }, ?_, bytesAt_length _ _, hwritten,
      hlength.trans hreserved.capacity, hreserved.small⟩
    rw [if_pos hsome, dmiBufferStore]
    change ((Cells.store reserved.cells ([] : List Byte).length _).map _).map _ = _
    rw [hstore]
    rfl
  · have hzero : length = 0 := by
      rw [UInt64.lt_iff_toNat_lt] at hsome
      exact UInt64.toNat_inj.mp (Nat.eq_zero_of_not_pos hsome)
    refine Or.inr ⟨{ reserved with length }, by rw [if_neg hsome]; rfl, ?_⟩
    rw [hzero]
    exact ⟨rfl, List.nil_prefix, hreserved.capacity, hreserved.small⟩

lemma dmiBufferStore_inside (h : Holds buffer contents)
    (hinside : offset.toNat + bytes.length ≤ contents.length) :
    ∃ next, dmiBufferStore offset bytes buffer = some next ∧
      Holds next (Patch.apply contents ⟨offset.toNat, bytes⟩) := by
  have hroom := hinside.trans (h.length.trans_le h.inside)
  obtain ⟨next, hstore, hlength, hholds⟩ :=
    dmiBufferStore_spec h bytes ((Nat.le_add_right _ _).trans hinside) hroom
  refine ⟨next, hstore, hholds next.length ?_⟩
  rw [Patch.apply_length hinside, hlength]
  exact h.length

lemma dmiBufferWrite_spec (h : Holds buffer contents) (memory : Bool) (ptr : Option (ℕ → Byte))
    (offset length : Size) :
    dmiBufferWrite memory ptr offset length buffer = some (false, buffer) ∨
      ∃ next, dmiBufferWrite memory ptr offset length buffer = some (true, next) ∧
        Patched contents ⟨offset.toNat, bytesAt ptr length⟩ next := by
  by_cases hnull : ptr = none ∧ length ≠ 0
  · exact Or.inl (if_pos hnull)
  by_cases hnothing : length = 0
  · refine Or.inr ⟨buffer, ?_, contents, h, le_rfl, ?_⟩
    · rw [dmiBufferWrite, if_neg hnull, if_pos hnothing]
    · rw [hnothing]
      exact (Patch.overlay_nil _ _ _).symm
  by_cases hover : Size.largest - offset < length
  · exact Or.inl (by rw [dmiBufferWrite, if_neg hnull, if_neg hnothing, if_pos hover])
  have hends : (offset + length).toNat = offset.toNat + length.toNat := by
    refine Size.toNat_add_of_lt ?_
    have hmost : Size.largest.toNat = 2 ^ 64 - 1 := rfl
    have hoffset : offset.toNat ≤ Size.largest.toNat := Nat.le_of_lt_succ offset.toNat_lt
    rw [UInt64.lt_iff_toNat_lt, UInt64.toNat_sub_of_le _ _ (UInt64.le_iff_toNat_le.mpr hoffset),
      hmost] at hover
    omega
  have hbytes : offset.toNat + (bytesAt ptr length).length = (offset + length).toNat := by
    rw [bytesAt_length, hends]
  rw [dmiBufferWrite, if_neg hnull, if_neg hnothing, if_neg hover]
  dsimp only
  -- the end of the bytes is inside of the buffer once it is made longer
  have hresized : (if buffer.length < offset + length then
        dmiBufferResize memory (offset + length) buffer else some (true, buffer)) =
      some (false, buffer) ∨ ∃ middle grown,
      (if buffer.length < offset + length then
        dmiBufferResize memory (offset + length) buffer else some (true, buffer)) =
      some (true, middle) ∧ Holds middle grown ∧ (offset + length).toNat ≤ grown.length ∧
      contents.length ≤ grown.length ∧ Patch.tape 0 grown = Patch.tape 0 contents := by
    split_ifs with hgrows
    · have hless : contents.length < (offset + length).toNat :=
        h.length ▸ UInt64.lt_iff_toNat_lt.mp hgrows
      refine (dmiBufferResize_spec h memory (offset + length)).imp_right ?_
      rintro ⟨middle, hresize, -, hholds⟩
      refine ⟨middle, _, hresize, hholds, ?_, ?_, ?_⟩
      · rw [List.take_of_length_le hless.le, List.length_append, List.length_replicate]
        omega
      · rw [List.take_of_length_le hless.le, List.length_append]
        exact Nat.le_add_right _ _
      · rw [tape_resized, Nat.sub_eq_zero_of_le hless.le]
        exact Patch.overlay_nil _ _ _
    · rw [UInt64.lt_iff_toNat_lt, not_lt, ← h.length] at hgrows
      exact Or.inr ⟨buffer, contents, rfl, h, hgrows, le_rfl, rfl⟩
  obtain hnone | ⟨middle, grown, hresize, hholds, hinside, hlonger, htape⟩ := hresized
  · rw [hnone]
    exact Or.inl rfl
  rw [hresize]
  dsimp only
  rw [← hbytes] at hinside
  obtain ⟨next, hstore, hnext⟩ := dmiBufferStore_inside hholds hinside
  refine Or.inr ⟨next, by rw [hstore]; rfl, _, hnext, ?_, ?_⟩
  · rwa [Patch.apply_length hinside]
  · rw [Patch.tape_apply ((Nat.le_add_right _ _).trans hinside), htape]

end OpenDmi

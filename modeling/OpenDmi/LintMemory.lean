import OpenDmi.Lint
import OpenDmi.MappedRange

namespace OpenDmi

open Bytes

structure DecodedTable where
  type : ℕ → Option ℕ
  info : ℕ → Option Memory

def entityInfo (decoded : DecodedTable) (type i : ℕ) : Option Memory :=
  if decoded.type i = some type then decoded.info i else none

def lintNumbers (lint : Lint) : List ℕ :=
  registryNumbers lint.registry (lint.registry.allocated + 1) (registryIterInitialize none)

def typeMemoryArray : ℕ := 16
def typeMemoryDevice : ℕ := 17
def typeMemoryArrayAddr : ℕ := 19

section Overlap

def lintOverlapPeer (lint : Lint) (decoded : DecodedTable) (i : ℕ) (info : Memory) (other : ℕ) :
    List LintIssue :=
  let entity := lint.registry.entity i
  if other = i ∨ decoded.type other ≠ some typeMemoryArrayAddr then []
  -- Every pair is to be reported once, by the structure which comes later
  else if (lint.registry.entity other).handle ≥ entity.handle then []
  else match entityInfo decoded typeMemoryArrayAddr other with
    | none => []
    | some peer =>
      if peer.number startAddress.offset > peer.number endAddress.offset then []
      else if info.number startAddress.offset > peer.number endAddress.offset ∨
          info.number endAddress.offset < peer.number startAddress.offset then []
      else [lintIssue "memory-array-address.overlap" (some entity) (some "start-address")
        (lintEntityOffset lint.table entity) "range 0x%llX-0x%llX overlaps the one of handle 0x%04X"
        [.number (info.number startAddress.offset).toNat,
          .number (info.number endAddress.offset).toNat,
          .number (lint.registry.entity other).handle]]

def lintOverlapPeers (lint : Lint) (decoded : DecodedTable) (i : ℕ) : List (ℕ × LintIssue) :=
  match entityInfo decoded typeMemoryArrayAddr i with
  | none => []
  | some info =>
    if info.number startAddress.offset > info.number endAddress.offset then []
    else (lintNumbers lint).flatMap fun other =>
      (lintOverlapPeer lint decoded i info other).map fun issue => (other, issue)

def memoryArrayAddrLintOverlap (lint : Lint) (decoded : DecodedTable) (i : ℕ) : List LintIssue :=
  (lintOverlapPeers lint decoded i).map Prod.snd

def overlapReports (lint : Lint) (decoded : DecodedTable) : List (ℕ × ℕ) :=
  (lintNumbers lint).flatMap fun i =>
    (lintOverlapPeers lint decoded i).map fun report => (i, report.1)

def AddressIn (info : Memory) (address : ℕ) : Prop :=
  (info.number startAddress.offset).toNat ≤ address ∧
    address ≤ (info.number endAddress.offset).toNat

def Overlapping (decoded : DecodedTable) (i j : ℕ) : Prop :=
  ∃ info peer, entityInfo decoded typeMemoryArrayAddr i = some info ∧
    entityInfo decoded typeMemoryArrayAddr j = some peer ∧
    ∃ address, AddressIn info address ∧ AddressIn peer address

def pairReports (lint : Lint) (decoded : DecodedTable) (i j : ℕ) : ℕ :=
  (overlapReports lint decoded).count (i, j) + (overlapReports lint decoded).count (j, i)

variable {lint : Lint} {decoded : DecodedTable} {i j : ℕ}

lemma entityInfo_type {type : ℕ} {info : Memory} (h : entityInfo decoded type i = some info) :
    decoded.type i = some type := by
  by_contra hne
  rw [entityInfo, if_neg hne] at h
  cases h

lemma addresses_meet {info peer : Memory}
    (hinfo : info.number startAddress.offset ≤ info.number endAddress.offset)
    (hpeer : peer.number startAddress.offset ≤ peer.number endAddress.offset) :
    (∃ address, AddressIn info address ∧ AddressIn peer address) ↔
      ¬ (info.number startAddress.offset > peer.number endAddress.offset ∨
        info.number endAddress.offset < peer.number startAddress.offset) := by
  simp only [gt_iff_lt, UInt64.lt_iff_toNat_lt, UInt64.le_iff_toNat_le, AddressIn] at *
  constructor
  · rintro ⟨address, ⟨h1, h2⟩, h3, h4⟩
    omega
  · intro h
    exact ⟨max (info.number startAddress.offset).toNat (peer.number startAddress.offset).toNat,
      by omega, by omega⟩

lemma addressIn_ordered {info : Memory} {address : ℕ} (h : AddressIn info address) :
    info.number startAddress.offset ≤ info.number endAddress.offset :=
  UInt64.le_iff_toNat_le.mpr (h.1.trans h.2)

open Classical in
lemma lintOverlapPeer_length {info : Memory}
    (hinfo : entityInfo decoded typeMemoryArrayAddr i = some info)
    (hordered : info.number startAddress.offset ≤ info.number endAddress.offset) (hne : j ≠ i) :
    (lintOverlapPeer lint decoded i info j).length = if Overlapping decoded i j ∧
      (lint.registry.entity j).handle < (lint.registry.entity i).handle then 1 else 0 := by
  rw [lintOverlapPeer]
  by_cases hhandle : (lint.registry.entity j).handle ≥ (lint.registry.entity i).handle
  · simp [hhandle, not_lt.mpr hhandle]
  cases hpeer : entityInfo decoded typeMemoryArrayAddr j with
  | none =>
    have hnone : ¬ Overlapping decoded i j := by
      rintro ⟨-, peer, -, hsome, -⟩
      cases hpeer.symm.trans hsome
    simp [hnone]
  | some peer =>
    have htype : decoded.type j = some typeMemoryArrayAddr := entityInfo_type hpeer
    have hover : Overlapping decoded i j ↔
        ∃ address, AddressIn info address ∧ AddressIn peer address := by
      simp only [Overlapping, hinfo, hpeer, Option.some.injEq, exists_and_left, exists_eq_left']
    simp only [hne, htype, hhandle, not_true_eq_false, ne_eq, or_self, if_false, hover,
      not_le.mp hhandle, and_true]
    by_cases hvalid : peer.number startAddress.offset > peer.number endAddress.offset
    · have hout : ¬ ∃ address, AddressIn info address ∧ AddressIn peer address := by
        rintro ⟨address, -, hin⟩
        exact UInt64.not_lt.mpr (addressIn_ordered hin) hvalid
      simp [hvalid, hout]
    · have hmeet := addresses_meet hordered (UInt64.not_lt.mp hvalid)
      rw [if_neg hvalid, hmeet]
      split_ifs <;> rfl

lemma lintOverlapPeer_self {info : Memory} : lintOverlapPeer lint decoded i info i = [] := by
  rw [lintOverlapPeer, if_pos (.inl rfl)]

lemma count_loop {α : Type} {numbers : List ℕ} (hnodup : numbers.Nodup) (hj : j ∈ numbers)
    (turn : ℕ → List α) :
    ((numbers.flatMap fun other => (turn other).map fun _ => other).count j) =
      (turn j).length := by
  rw [List.count_flatMap, List.sum_map_eq_nsmul_single j, List.count_eq_one_of_mem hnodup hj, one_smul]
  · simp [List.map_const']
  · intro other hother _
    rw [Function.comp_apply, List.count_eq_zero]
    simpa using fun _ h => hother h.symm

open Classical in
lemma lintOverlapPeers_count (h : lint.registry.Valid) (hj : j < lint.registry.allocated)
    (hne : j ≠ i) : ((lintOverlapPeers lint decoded i).map Prod.fst).count j =
      if Overlapping decoded i j ∧
        (lint.registry.entity j).handle < (lint.registry.entity i).handle then 1 else 0 := by
  rw [lintOverlapPeers]
  cases hinfo : entityInfo decoded typeMemoryArrayAddr i with
  | none =>
    have hnone : ¬ Overlapping decoded i j := by
      rintro ⟨info, -, hsome, -⟩
      cases hinfo.symm.trans hsome
    simp [hnone]
  | some info =>
    by_cases hvalid : info.number startAddress.offset > info.number endAddress.offset
    · have hout : ¬ Overlapping decoded i j := by
        rintro ⟨found, -, hsome, -, address, hin, -⟩
        obtain rfl := Option.some.inj (hinfo.symm.trans hsome)
        exact UInt64.not_lt.mpr (addressIn_ordered hin) hvalid
      simp [hvalid, hout]
    · rw [lintNumbers, registryNumbers_range h]
      simp only [if_neg hvalid, List.map_flatMap, List.map_map]
      rw [← lintOverlapPeer_length hinfo (UInt64.not_lt.mp hvalid) hne,
        ← count_loop List.nodup_range (List.mem_range.mpr hj)]
      rfl

open Classical in
lemma overlapReports_count (h : lint.registry.Valid) (hi : i < lint.registry.allocated)
    (hj : j < lint.registry.allocated) (hne : j ≠ i) :
    (overlapReports lint decoded).count (i, j) = if Overlapping decoded i j ∧
      (lint.registry.entity j).handle < (lint.registry.entity i).handle then 1 else 0 := by
  rw [← lintOverlapPeers_count h hj hne, overlapReports, lintNumbers, registryNumbers_range h,
    List.count_flatMap, List.sum_map_eq_nsmul_single i,
    List.count_eq_one_of_mem List.nodup_range (List.mem_range.mpr hi), one_smul]
  · have hpair : (lintOverlapPeers lint decoded i).map (fun report => (i, report.1)) =
        ((lintOverlapPeers lint decoded i).map Prod.fst).map (Prod.mk i) := by
      rw [List.map_map]
      rfl
    rw [Function.comp_apply, hpair,
      List.count_map_of_injective _ _ (Prod.mk_right_injective i)]
  · intro other hother _
    rw [Function.comp_apply, List.count_eq_zero]
    intro hm
    obtain ⟨report, -, heq⟩ := List.mem_map.mp hm
    exact hother (Prod.mk.inj heq).1

lemma overlapping_symm (h : Overlapping decoded i j) : Overlapping decoded j i := by
  obtain ⟨info, peer, hinfo, hpeer, address, hin, hout⟩ := h
  exact ⟨peer, info, hpeer, hinfo, address, hout, hin⟩

lemma overlapReports_mem (h : lint.registry.Valid) (hm : (i, j) ∈ overlapReports lint decoded) :
    i < lint.registry.allocated ∧ j < lint.registry.allocated ∧ j ≠ i := by
  rw [overlapReports, lintNumbers, registryNumbers_range h] at hm
  obtain ⟨k, hk, hreport⟩ := List.mem_flatMap.mp hm
  obtain ⟨⟨other, issue⟩, hpeer, heq⟩ := List.mem_map.mp hreport
  obtain ⟨rfl, rfl⟩ := Prod.mk.inj heq
  rw [lintOverlapPeers] at hpeer
  cases hinfo : entityInfo decoded typeMemoryArrayAddr k with
  | none => simp [hinfo] at hpeer
  | some info =>
    simp only [hinfo, lintNumbers, registryNumbers_range h] at hpeer
    split_ifs at hpeer
    · cases hpeer
    · obtain ⟨found, hfound, hissue⟩ := List.mem_flatMap.mp hpeer
      obtain ⟨issue', hissue', heq'⟩ := List.mem_map.mp hissue
      obtain ⟨rfl, -⟩ := Prod.mk.inj heq'
      refine ⟨List.mem_range.mp hk, List.mem_range.mp hfound, ?_⟩
      rintro rfl
      rw [lintOverlapPeer_self] at hissue'
      cases hissue'

structure OverlapsReported (lint : Lint) (decoded : DecodedTable) : Prop where
  once : ∀ i < lint.registry.allocated, ∀ j < lint.registry.allocated, i ≠ j →
    Overlapping decoded i j → pairReports lint decoded i j = 1
  only : ∀ pair ∈ overlapReports lint decoded, pair.1 ≠ pair.2 ∧ Overlapping decoded pair.1 pair.2

theorem overlaps_reported_once_iff (context : Context) (table : Buffer)
    (entityCount capacity : ℕ) (structures : List Entity) (decoded : DecodedTable) :
    let registry := (registryPutAll (registryCreate capacity) structures).2
    let lint : Lint := ⟨context, table, entityCount, registry⟩
    (OverlapsReported lint decoded ↔ ∀ i < registry.allocated, ∀ j < registry.allocated, i ≠ j →
        Overlapping decoded i j → (registry.entity i).handle ≠ (registry.entity j).handle) ∧
      ∀ j < registry.allocated, ∀ i < j, Overlapping decoded i j →
        ((overlapReports lint decoded).count (j, i) = 1 ∧
            (overlapReports lint decoded).count (i, j) = 0 ↔
          (registry.entity i).handle < (registry.entity j).handle) := by
  classical
  intro registry lint
  have h : lint.registry.Valid :=
    (registryPutAll_valid (registryCreate_valid capacity) structures).1
  constructor
  · constructor
    · intro hreported i hi j hj hne hover heq
      have honce := hreported.once i hi j hj hne hover
      rw [pairReports, overlapReports_count h hi hj hne.symm, overlapReports_count h hj hi hne,
        if_neg fun hlt => hlt.2.ne heq.symm, if_neg fun hlt => hlt.2.ne heq] at honce
      cases honce
    · intro hdiffer
      refine ⟨fun i hi j hj hne hover => ?_, fun ⟨i, j⟩ hm => ?_⟩
      · have hhandles := hdiffer i hi j hj hne hover
        have hback := overlapping_symm hover
        rw [pairReports, overlapReports_count h hi hj hne.symm, overlapReports_count h hj hi hne]
        rcases lt_or_gt_of_ne hhandles with hlt | hlt
        · rw [if_neg fun hgt => hlt.not_gt hgt.2, if_pos ⟨hback, hlt⟩]
        · rw [if_pos ⟨hover, hlt⟩, if_neg fun hgt => hlt.not_gt hgt.2]
      · obtain ⟨hi, hj, hne⟩ := overlapReports_mem h hm
        have hpos := List.count_pos_iff.mpr hm
        rw [overlapReports_count h hi hj hne] at hpos
        refine ⟨hne.symm, ?_⟩
        by_contra hnone
        rw [if_neg fun hover => hnone hover.1] at hpos
        exact absurd hpos (lt_irrefl 0)
  · intro j hj i hij hover
    have hi : i < registry.allocated := hij.trans hj
    rw [overlapReports_count h hj hi hij.ne, overlapReports_count h hi hj hij.ne']
    by_cases hlt : (registry.entity i).handle < (registry.entity j).handle
    · simp [lint, hlt, hlt.not_gt, overlapping_symm hover]
    · simp [lint, hlt]

def megabyteTable (handle : Byte) : Buffer :=
  ⟨0, [19, 15, 5, 0, 0, 0, 0, 0, 0xFF, 3, 0, 0, 1, 0, 1, 0, 0,
    19, 15, handle, 0, 0, 0, 0, 0, 0xFF, 3, 0, 0, 1, 0, 1, 0, 0]⟩

def megabyteRegistry (handle : Byte) : Registry :=
  (registryPutAll (registryCreate 0) (registryEntities (scanned (megabyteTable handle)))).2

def megabyteLint (handle : Byte) : Lint :=
  ⟨sampleContext, megabyteTable handle, 0, megabyteRegistry handle⟩

def megabyteDecoded (handle : Byte) : DecodedTable where
  type i := some ((megabyteRegistry handle).entity i).typeId
  info i := memoryArrayAddrDecode (entitySource ((megabyteRegistry handle).entity i) (dmiVersion 2 7 0))

theorem overlaps_reported_once_iff_differing :
    OverlapsReported (megabyteLint 6) (megabyteDecoded 6) := by
  refine (overlaps_reported_once_iff sampleContext (megabyteTable 6) 0 0
    (registryEntities (scanned (megabyteTable 6))) (megabyteDecoded 6)).1.mpr ?_
  have hdiffer : ∀ i < (megabyteRegistry 6).allocated, ∀ j < (megabyteRegistry 6).allocated, i ≠ j →
      ((megabyteRegistry 6).entity i).handle ≠ ((megabyteRegistry 6).entity j).handle := by
    decide +kernel
  exact fun i hi j hj hne _ => hdiffer i hi j hj hne

theorem shared_handle_unreported :
    (megabyteRegistry 5).allocated = 2 ∧ Overlapping (megabyteDecoded 5) 0 1 ∧
      ((megabyteRegistry 5).entity 0).handle = ((megabyteRegistry 5).entity 1).handle ∧
      (List.range 2).flatMap (memoryArrayAddrLintOverlap (megabyteLint 5) (megabyteDecoded 5)) = [] ∧
      ¬ OverlapsReported (megabyteLint 5) (megabyteDecoded 5) := by
  have hsame : ∀ i < 2, (entityInfo (megabyteDecoded 5) typeMemoryArrayAddr i).map
      (fun info => (info.number startAddress.offset, info.number endAddress.offset)) =
        some (0, 0xFFFFF) := by decide +kernel
  have hover : Overlapping (megabyteDecoded 5) 0 1 := by
    obtain ⟨info, hinfo, hrange⟩ := Option.map_eq_some_iff.mp (hsame 0 (by decide))
    obtain ⟨peer, hpeer, hpeerRange⟩ := Option.map_eq_some_iff.mp (hsame 1 (by decide))
    refine ⟨info, peer, hinfo, hpeer, 0, ⟨?_, Nat.zero_le _⟩, ?_, Nat.zero_le _⟩
    · rw [(Prod.mk.inj hrange).1]
      rfl
    · rw [(Prod.mk.inj hpeerRange).1]
      rfl
  refine ⟨by decide +kernel, hover, by decide +kernel, by decide +kernel, fun hreported => ?_⟩
  have honce := hreported.once 0 (by decide +kernel) 1 (by decide +kernel) (by decide) hover
  revert honce
  decide +kernel

end Overlap

section Sizes

def dmiSizeMax : UInt64 := 0xFFFFFFFFFFFFFFFF

def deviceArrayHandle : Member := ⟨0, 2⟩
def deviceSize : Member := ⟨40, 8⟩
def deviceNonVolatileSize : Member := ⟨168, 8⟩
def deviceVolatileSize : Member := ⟨176, 8⟩
def arrayMaximumCapacity : Member := ⟨16, 8⟩

def memoryDeviceTotal (info : Memory) : UInt64 :=
  let volatileSize := info.number deviceVolatileSize.offset
  let nonVolatileSize := info.number deviceNonVolatileSize.offset
  let total := if volatileSize ≠ 0 ∧ volatileSize ≠ dmiSizeMax then 0 + volatileSize else 0
  if nonVolatileSize ≠ 0 ∧ nonVolatileSize ≠ dmiSizeMax then total + nonVolatileSize else total

def memoryDeviceLintSizes (lint : Lint) (decoded : DecodedTable) (i : ℕ) : List LintIssue :=
  match entityInfo decoded typeMemoryDevice i with
  | none => []
  | some info =>
    let size := info.number deviceSize.offset
    if size = 0 ∨ size = dmiSizeMax then []
    else
      let total := memoryDeviceTotal info
      if total = 0 ∨ total ≤ size then []
      else [lintIssue "memory-device.sizes" (some (lint.registry.entity i)) (some "size")
        (lintEntityOffset lint.table (lint.registry.entity i))
        "volatile and non-volatile sizes add up to %llu bytes, while the device is %llu bytes"
        [.number total.toNat, .number size.toNat]]

def memoryArrayDevice (decoded : DecodedTable) (handle : ℕ) (totals : ℕ × UInt64) (device : ℕ) :
    ℕ × UInt64 :=
  if decoded.type device ≠ some typeMemoryDevice then totals
  else match entityInfo decoded typeMemoryDevice device with
    | none => totals
    | some info =>
      if info.load 0 deviceArrayHandle ≠ handle then totals
      else (totals.1 + 1, if info.number deviceSize.offset ≠ dmiSizeMax then
          totals.2 + info.number deviceSize.offset else totals.2)

def memoryArrayDevices (lint : Lint) (decoded : DecodedTable) (i : ℕ) : ℕ × UInt64 :=
  (lintNumbers lint).foldl (memoryArrayDevice decoded (lint.registry.entity i).handle) (0, 0)

def memoryArrayLintCapacity (lint : Lint) (decoded : DecodedTable) (i : ℕ) : List LintIssue :=
  match entityInfo decoded typeMemoryArray i with
  | none => []
  | some info =>
    let maximum := info.number arrayMaximumCapacity.offset
    if maximum = dmiSizeMax ∨ maximum = 0 then []
    else
      let capacity := (memoryArrayDevices lint decoded i).2
      if capacity ≤ maximum then []
      else [lintIssue "memory-array.capacity" (some (lint.registry.entity i))
        (some "maximum-capacity") (lintEntityOffset lint.table (lint.registry.entity i))
        "devices of the array add up to %llu bytes, while its maximum capacity is %llu bytes"
        [.number capacity.toNat, .number maximum.toNat]]

def knownSize (size : UInt64) : ℕ := if size = dmiSizeMax then 0 else size.toNat

def deviceSum (info : Memory) : ℕ :=
  knownSize (info.number deviceVolatileSize.offset) +
    knownSize (info.number deviceNonVolatileSize.offset)

def referringDevices (lint : Lint) (decoded : DecodedTable) (i : ℕ) : List Memory :=
  ((List.range lint.registry.allocated).filterMap (entityInfo decoded typeMemoryDevice)).filter
    fun info => info.load 0 deviceArrayHandle == (lint.registry.entity i).handle

def arraySum (lint : Lint) (decoded : DecodedTable) (i : ℕ) : ℕ :=
  ((referringDevices lint decoded i).map fun info => knownSize (info.number deviceSize.offset)).sum

structure ExactlyBounded (bound : UInt64) (issues : List LintIssue) (total : UInt64) (sum : ℕ) :
    Prop where
  reported : issues ≠ [] ↔ bound ≠ 0 ∧ bound ≠ dmiSizeMax ∧ bound.toNat < sum
  exact : bound ≠ 0 → bound ≠ dmiSizeMax → total.toNat = sum

variable {lint : Lint} {decoded : DecodedTable} {i : ℕ} {info : Memory}

lemma exactlyBounded_iff {bound total : UInt64} {sum : ℕ} {issues : List LintIssue}
    (htotal : total.toNat = sum % 2 ^ 64)
    (hissues : issues ≠ [] ↔ bound ≠ 0 ∧ bound ≠ dmiSizeMax ∧ bound < total) :
    (ExactlyBounded bound issues total sum ↔ bound = 0 ∨ bound = dmiSizeMax ∨ sum < 2 ^ 64) ∧
      ((issues ≠ [] ↔ bound ≠ 0 ∧ bound ≠ dmiSizeMax ∧ bound.toNat < sum) ↔
        bound = 0 ∨ bound = dmiSizeMax ∨ sum < 2 ^ 64 ∨ bound.toNat < sum % 2 ^ 64) := by
  have hbound := bound.toNat_lt
  have hless : bound < total ↔ bound.toNat < sum % 2 ^ 64 := by
    rw [UInt64.lt_iff_toNat_lt, htotal]
  by_cases hzero : bound = 0
  · refine ⟨iff_of_true ⟨by simp [hissues, hzero], fun h => absurd hzero h⟩ (.inl hzero), ?_⟩
    simp [hissues, hzero]
  by_cases hmax : bound = dmiSizeMax
  · refine ⟨iff_of_true ⟨by simp [hissues, hmax], fun _ h => absurd hmax h⟩ (.inr (.inl hmax)), ?_⟩
    simp [hissues, hmax]
  have hagree : (issues ≠ [] ↔ bound ≠ 0 ∧ bound ≠ dmiSizeMax ∧ bound.toNat < sum) ↔
      (sum < 2 ^ 64 ∨ bound.toNat < sum % 2 ^ 64) := by
    rw [hissues, hless]
    simp only [hzero, hmax, ne_eq, not_false_eq_true, true_and]
    omega
  simp only [hzero, hmax, false_or]
  refine ⟨⟨fun h => ?_, fun h => ⟨hagree.mpr (.inl h), fun _ _ => ?_⟩⟩, hagree⟩
  · have hexact := h.exact hzero hmax
    rw [← hexact]
    exact total.toNat_lt
  · rw [htotal, Nat.mod_eq_of_lt h]

lemma add_known (total size : UInt64) :
    ((if size ≠ dmiSizeMax then total + size else total).toNat) =
      (total.toNat + knownSize size) % 2 ^ 64 := by
  rw [knownSize]
  by_cases hmax : size = dmiSizeMax
  · simp [hmax, Nat.mod_eq_of_lt total.toNat_lt]
  · simp [hmax, UInt64.toNat_add]

lemma add_nonzero (total size : UInt64) :
    (if size ≠ 0 ∧ size ≠ dmiSizeMax then total + size else total) =
      if size ≠ dmiSizeMax then total + size else total := by
  by_cases hzero : size = 0
  · simp [hzero]
  · simp [hzero]

lemma memoryDeviceTotal_sum (info : Memory) :
    (memoryDeviceTotal info).toNat = deviceSum info % 2 ^ 64 := by
  simp only [memoryDeviceTotal, add_nonzero, add_known, deviceSum]
  rw [UInt64.toNat_zero, Nat.zero_add, Nat.mod_add_mod]

lemma memoryDeviceLintSizes_iff (hinfo : entityInfo decoded typeMemoryDevice i = some info) :
    memoryDeviceLintSizes lint decoded i ≠ [] ↔ info.number deviceSize.offset ≠ 0 ∧
      info.number deviceSize.offset ≠ dmiSizeMax ∧
      info.number deviceSize.offset < memoryDeviceTotal info := by
  simp only [memoryDeviceLintSizes, hinfo]
  by_cases hsized : info.number deviceSize.offset = 0 ∨ info.number deviceSize.offset = dmiSizeMax
  · rw [if_pos hsized]
    tauto
  · rw [if_neg hsized]
    obtain ⟨hzero, hmax⟩ := not_or.mp hsized
    by_cases hquiet : memoryDeviceTotal info = 0 ∨
      memoryDeviceTotal info ≤ info.number deviceSize.offset
    · have hle : memoryDeviceTotal info ≤ info.number deviceSize.offset := by
        rcases hquiet with h | h
        · rw [h]
          exact UInt64.zero_le
        · exact h
      rw [if_pos hquiet]
      simp [UInt64.not_lt.mpr hle]
    · rw [if_neg hquiet]
      simp [hzero, hmax, UInt64.not_le.mp (not_or.mp hquiet).2]

lemma memoryArrayLintCapacity_iff (hinfo : entityInfo decoded typeMemoryArray i = some info) :
    memoryArrayLintCapacity lint decoded i ≠ [] ↔
      info.number arrayMaximumCapacity.offset ≠ 0 ∧
        info.number arrayMaximumCapacity.offset ≠ dmiSizeMax ∧
        info.number arrayMaximumCapacity.offset < (memoryArrayDevices lint decoded i).2 := by
  simp only [memoryArrayLintCapacity, hinfo]
  by_cases hsized : info.number arrayMaximumCapacity.offset = dmiSizeMax ∨
    info.number arrayMaximumCapacity.offset = 0
  · rw [if_pos hsized]
    tauto
  · rw [if_neg hsized]
    obtain ⟨hmax, hzero⟩ := not_or.mp hsized
    by_cases hquiet : (memoryArrayDevices lint decoded i).2 ≤ info.number arrayMaximumCapacity.offset
    · rw [if_pos hquiet]
      simp [UInt64.not_lt.mpr hquiet]
    · rw [if_neg hquiet]
      simp [hzero, hmax, UInt64.not_le.mp hquiet]

lemma memoryArrayDevice_sum (handle : ℕ) (totals : ℕ × UInt64) (device : ℕ) :
    (memoryArrayDevice decoded handle totals device).2.toNat = (totals.2.toNat +
      (((entityInfo decoded typeMemoryDevice device).toList.filter
        fun info => info.load 0 deviceArrayHandle == handle).map
          fun info => knownSize (info.number deviceSize.offset)).sum) % 2 ^ 64 := by
  have hbound := totals.2.toNat_lt
  rw [memoryArrayDevice]
  cases hinfo : entityInfo decoded typeMemoryDevice device with
  | none =>
    simp only [ite_self, Option.toList_none, List.filter_nil, List.map_nil, List.sum_nil,
      Nat.add_zero, Nat.mod_eq_of_lt hbound]
  | some info =>
    rw [if_neg (not_not.mpr (entityInfo_type hinfo))]
    by_cases hrefers : info.load 0 deviceArrayHandle = handle
    · simp only [if_neg (not_not.mpr hrefers), add_known]
      simp [hrefers]
    · simp [hrefers, Nat.mod_eq_of_lt hbound]

lemma memoryArrayDevices_sum (h : lint.registry.Valid) :
    (memoryArrayDevices lint decoded i).2.toNat = arraySum lint decoded i % 2 ^ 64 := by
  rw [memoryArrayDevices, lintNumbers, registryNumbers_range h, arraySum, referringDevices]
  generalize (lint.registry.entity i).handle = handle
  have hrun : ∀ (numbers : List ℕ) (totals : ℕ × UInt64),
      (numbers.foldl (memoryArrayDevice decoded handle) totals).2.toNat = (totals.2.toNat +
        (((numbers.filterMap (entityInfo decoded typeMemoryDevice)).filter
          fun info => info.load 0 deviceArrayHandle == handle).map
            fun info => knownSize (info.number deviceSize.offset)).sum) % 2 ^ 64 := by
    intro numbers
    induction numbers with
    | nil =>
      intro totals
      exact (Nat.mod_eq_of_lt totals.2.toNat_lt).symm
    | cons device numbers ih =>
      intro totals
      rw [List.foldl_cons, ih, memoryArrayDevice_sum, Nat.mod_add_mod]
      cases hinfo : entityInfo decoded typeMemoryDevice device with
      | none => simp [hinfo]
      | some info =>
        rw [List.filterMap_cons_some hinfo, ← List.singleton_append, List.filter_append,
          List.map_append, List.sum_append, ← Nat.add_assoc]
        rfl
  rw [hrun]
  simp

theorem memory_sizes_exact_iff (context : Context) (table : Buffer) (entityCount capacity : ℕ)
    (structures : List Entity) (decoded : DecodedTable) :
    let lint : Lint :=
      ⟨context, table, entityCount, (registryPutAll (registryCreate capacity) structures).2⟩
    (∀ i info, entityInfo decoded typeMemoryDevice i = some info →
      let size := info.number deviceSize.offset
      let issues := memoryDeviceLintSizes lint decoded i
      (ExactlyBounded size issues (memoryDeviceTotal info) (deviceSum info) ↔
          size = 0 ∨ size = dmiSizeMax ∨ deviceSum info < 2 ^ 64) ∧
        ((issues ≠ [] ↔ size ≠ 0 ∧ size ≠ dmiSizeMax ∧ size.toNat < deviceSum info) ↔
          size = 0 ∨ size = dmiSizeMax ∨ deviceSum info < 2 ^ 64 ∨
            size.toNat < deviceSum info % 2 ^ 64)) ∧
      ∀ i info, entityInfo decoded typeMemoryArray i = some info →
        let maximum := info.number arrayMaximumCapacity.offset
        let issues := memoryArrayLintCapacity lint decoded i
        let sum := arraySum lint decoded i
        (ExactlyBounded maximum issues (memoryArrayDevices lint decoded i).2 sum ↔
            maximum = 0 ∨ maximum = dmiSizeMax ∨ sum < 2 ^ 64) ∧
          ((issues ≠ [] ↔ maximum ≠ 0 ∧ maximum ≠ dmiSizeMax ∧ maximum.toNat < sum) ↔
            maximum = 0 ∨ maximum = dmiSizeMax ∨ sum < 2 ^ 64 ∨ maximum.toNat < sum % 2 ^ 64) := by
  intro lint
  have h : lint.registry.Valid :=
    (registryPutAll_valid (registryCreate_valid capacity) structures).1
  refine ⟨fun i info hinfo => ?_, fun i info hinfo => ?_⟩
  · exact exactlyBounded_iff (memoryDeviceTotal_sum info) (memoryDeviceLintSizes_iff hinfo)
  · exact exactlyBounded_iff (memoryArrayDevices_sum h) (memoryArrayLintCapacity_iff hinfo)

def twoPartDevice (size : UInt64) : DecodedTable where
  type _ := some typeMemoryDevice
  info _ := some (((Memory.zero.setNumber deviceSize.offset 0x100000).setNumber
    deviceVolatileSize.offset size).setNumber deviceNonVolatileSize.offset size)

theorem memory_sizes_exact_iff_mebibyte :
    memoryDeviceLintSizes ⟨sampleContext, ⟨0, []⟩, 0, (registryPutAll (registryCreate 0) []).2⟩
      (twoPartDevice 0x100000) 0 ≠ [] := by
  have hexact := ((memory_sizes_exact_iff sampleContext ⟨0, []⟩ 0 0 [] (twoPartDevice 0x100000)).1
    0 _ rfl).1.mpr (.inr (.inr (by decide +kernel)))
  exact hexact.reported.mpr (by decide +kernel)

theorem sizes_wrap_to_zero :
    (∃ info, entityInfo (twoPartDevice 0x8000000000000000) typeMemoryDevice 0 = some info ∧
      memoryDeviceTotal info = 0 ∧ (info.number deviceSize.offset).toNat < deviceSum info) ∧
      ¬ (memoryDeviceLintSizes ⟨sampleContext, ⟨0, []⟩, 0, (registryPutAll (registryCreate 0) []).2⟩
          (twoPartDevice 0x8000000000000000) 0 ≠ [] ↔
        ∃ info, entityInfo (twoPartDevice 0x8000000000000000) typeMemoryDevice 0 = some info ∧
          info.number deviceSize.offset ≠ 0 ∧ info.number deviceSize.offset ≠ dmiSizeMax ∧
          (info.number deviceSize.offset).toNat < deviceSum info) := by
  refine ⟨⟨_, rfl, by decide +kernel, by decide +kernel⟩, fun hexact => ?_⟩
  have hsilent : memoryDeviceLintSizes
      ⟨sampleContext, ⟨0, []⟩, 0, (registryPutAll (registryCreate 0) []).2⟩
      (twoPartDevice 0x8000000000000000) 0 = [] := by decide +kernel
  exact hexact.mpr ⟨_, rfl, by decide +kernel, by decide +kernel, by decide +kernel⟩ hsilent

end Sizes

end OpenDmi

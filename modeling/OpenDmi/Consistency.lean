import OpenDmi.Leak

/-! Values which hold another one: their replacement is whole where no shorter value, which is
written later, is found in them. -/

namespace OpenDmi

open Bytes Occurrences

variable {cx : AnonymizeContext} {first anon : Anonymizer} {values : List AnonymizeValue}
  {value : AnonymizeValue} {region : Region} {stop p x : ℕ}

def AloneAt (cx : AnonymizeContext) (values : List AnonymizeValue) (value : AnonymizeValue)
    (p : ℕ) : Prop :=
  ∀ other ∈ values, value.data.length ≤ other.data.length → ∀ q < p + value.data.length,
    p < q + other.data.length → OccursAt cx.source.data other.data q → other = value ∧ q = p

instance (cx : AnonymizeContext) (values : List AnonymizeValue) (value : AnonymizeValue) (p : ℕ) :
    Decidable (AloneAt cx values value p) :=
  inferInstanceAs (Decidable (∀ other ∈ values, _ → ∀ q < _, _ → _ → _))

structure LongerAlone (cx : AnonymizeContext) (values : List AnonymizeValue) (region : Region)
    (value : AnonymizeValue) (p : ℕ) : Prop where
  collected : value ∈ values
  longer : ∃ part ∈ values, part.data ≠ value.data ∧ part.data <:+: value.data
  propagate : value.propagate = true
  within : region ∈ regions cx
  long : region.minimum ≤ value.data.length
  start : region.start ≤ p
  finish : p + value.data.length ≤ region.finish
  occurs : OccursAt cx.source.data value.data p
  alone : AloneAt cx values value p

structure Consistent (cx : AnonymizeContext) (anon : Anonymizer) : Prop where
  whole : ∀ region value p, LongerAlone cx anon.values region value p →
    OccursAt (anonymizeTable cx anon) value.replacement p
  equal : ∀ region region' value p q, LongerAlone cx anon.values region value p →
    LongerAlone cx anon.values region' value q →
    window (anonymizeTable cx anon) p value.data.length =
      window (anonymizeTable cx anon) q value.data.length

def shorterPatches (cx : AnonymizeContext) (values : List AnonymizeValue) (region : Region)
    (length : ℕ) : List (Patch Byte) :=
  ((searched values region.minimum).filter (·.data.length < length)).flatMap
    (anonymizeReplaceValue cx region.start region.finish)

/-- The shorter values found in a longer one write no other bytes than its replacement has. -/
def ShorterAgree (cx : AnonymizeContext) (values : List AnonymizeValue) : Prop :=
  ∀ region value p, LongerAlone cx values region value p →
    ∀ i < value.data.length, ∀ patch,
      Patch.last (shorterPatches cx values region value.data.length) (p + i) = some patch →
      patch.bytes[p + i - patch.offset]? = value.replacement[i]?

lemma filter_append_filter {values : List AnonymizeValue} {length : ℕ}
    (h : values.Pairwise fun a b => b.data.length ≤ a.data.length) :
    values.filter (length ≤ ·.data.length) ++ values.filter (·.data.length < length) = values := by
  induction values with
  | nil => rfl
  | cons value values ih =>
    obtain ⟨hbelow, hrest⟩ := List.pairwise_cons.mp h
    by_cases hlong : length ≤ value.data.length
    · rw [List.filter_cons_of_pos (by simpa using hlong),
        List.filter_cons_of_neg (by simpa using hlong), List.cons_append, ih hrest]
    · have hnil : values.filter (length ≤ ·.data.length) = [] := by
        rw [List.filter_eq_nil_iff]
        intro other ho
        have := hbelow other ho
        simp only [decide_eq_true_eq]
        omega
      have hall : values.filter (·.data.length < length) = values := by
        rw [List.filter_eq_self]
        intro other ho
        have := hbelow other ho
        simp only [decide_eq_true_eq]
        omega
      rw [List.filter_cons_of_neg (by simpa using hlong),
        List.filter_cons_of_pos (by simpa using hlong), hnil, hall, List.nil_append]

lemma regionPatches_split (values : List AnonymizeValue) (region : Region) (length : ℕ) :
    regionPatches cx values region =
      ((searched values region.minimum).filter (length ≤ ·.data.length)).flatMap
        (anonymizeReplaceValue cx region.start region.finish) ++
      shorterPatches cx values region length := by
  have hsorted : (searched values region.minimum).Pairwise
      fun a b => b.data.length ≤ a.data.length := searchOrder_sorted
  rw [shorterPatches, ← List.flatMap_append, filter_append_filter hsorted]
  rfl

lemma LongerAlone.inside (ht : Tiled cx stop) (h : LongerAlone cx values region value p) :
    p + value.data.length ≤ cx.source.data.length :=
  h.finish.trans (ht.region_inside h.within)

lemma LongerAlone.last_longer (hv : ValuesKept values)
    (h : LongerAlone cx values region value p) {i : ℕ} (hi : i < value.data.length) :
    Patch.last (((searched values region.minimum).filter
      (value.data.length ≤ ·.data.length)).flatMap
        (anonymizeReplaceValue cx region.start region.finish)) (p + i) =
      some ⟨p, value.replacement⟩ := by
  have horder := (mem_searched (region_minimum h.within)).mpr
    ⟨h.collected, h.propagate, h.long⟩
  have htaken : p ∈ taken cx.source.data value.data region.finish
      (region.finish - region.start + 1) region.start :=
    mem_taken_of_alone h.occurs h.start h.finish (by have := h.finish; omega)
      (List.length_pos_iff.mp (by omega))
      fun q _ hq hle hlt => (h.alone value h.collected le_rfl q (by omega) hlt hq).2
  refine Patch.last_eq_some ?_ ?_ ?_
  · exact List.mem_flatMap.mpr ⟨value, List.mem_filter.mpr ⟨horder, by simp⟩,
      List.mem_map.mpr ⟨p, htaken, rfl⟩⟩
  · rw [Patch.covers_iff, hv value h.collected]
    exact ⟨Nat.le_add_right p i, Nat.add_lt_add_left hi p⟩
  · intro patch hp hcovers
    obtain ⟨other, ho, hp⟩ := List.mem_flatMap.mp hp
    obtain ⟨q, hq, rfl⟩ := List.mem_map.mp hp
    obtain ⟨ho, hlong⟩ := List.mem_filter.mp ho
    have hm := (mem_searchOrder_bounds ho).1
    have hbounds := Patch.covers_iff.mp hcovers
    rw [hv other hm] at hbounds
    simp only [decide_eq_true_eq] at hlong hbounds
    obtain ⟨rfl, rfl⟩ := h.alone other hm hlong q (by omega) (by omega) (mem_taken hq).2.2
    rfl

lemma LongerAlone.getElem? (ht : Tiled cx stop) (hv : ValuesKept first.values)
    (hi : Patch.Inside cx.source.data.length first.patches)
    (h : LongerAlone cx first.values region value p) {i : ℕ} (hlt : i < value.data.length) :
    (anonymizeTable cx (anonymizedBy cx first))[p + i]? =
      (Patch.last (shorterPatches cx first.values region value.data.length) (p + i)).elim
        value.replacement[i]? fun patch => patch.bytes[p + i - patch.offset]? := by
  have hstart := h.start
  have hfinish := h.finish
  rw [anonymizedBy_getElem? ht hv hi, ht.last_region hv h.within (by omega) (by omega),
    regionPatches_split first.values region value.data.length, Patch.last_append,
    h.last_longer hv hlt]
  cases Patch.last (shorterPatches cx first.values region value.data.length) (p + i) with
  | none => simp
  | some patch => rfl

lemma LongerAlone.window (h : LongerAlone cx first.values region value p)
    (hv : ValuesKept first.values)
    (hw : OccursAt (anonymizeTable cx anon) value.replacement p) :
    Bytes.window (anonymizeTable cx anon) p value.data.length = value.replacement := by
  rw [← hv value h.collected]
  exact hw

theorem anonymize_consistent_iff {strict : Bool} {entityCount capacity : ℕ}
    (hscan : registryScan strict cx.source entityCount (registryCreate capacity) =
      some (true, cx.registry))
    (h : anonymize cx = some anon) :
    Consistent cx anon ↔ ShorterAgree cx anon.values := by
  obtain ⟨stop, ht⟩ := scan_tiled hscan
  obtain ⟨first, hfirst, rfl⟩ := anonymize_eq h
  obtain ⟨hv, hi⟩ := firstPass_kept ht hfirst
  have hlength : (anonymizeTable cx (anonymizedBy cx first)).length = cx.source.data.length :=
    Patch.applyAll_length (anonymizedBy_inside ht hv hi)
  constructor
  · intro hc region value p hl i hlt patch hpatch
    have hbyte := (hc.whole region value p hl).getElem? (by rwa [hv value hl.collected])
    have hlast : Patch.last (shorterPatches cx first.values region value.data.length) (p + i) =
      some patch := hpatch
    rw [hl.getElem? ht hv hi hlt, hlast] at hbyte
    exact hbyte
  · intro hagree
    have hwhole : ∀ region value p, LongerAlone cx first.values region value p →
        OccursAt (anonymizeTable cx (anonymizedBy cx first)) value.replacement p := by
      intro region value p hl
      have hinside := hl.inside ht
      have hlen := hv value hl.collected
      rw [occursAt_iff]
      intro i hlt
      rw [hlen] at hlt
      rw [hl.getElem? ht hv hi hlt]
      cases hlast : Patch.last (shorterPatches cx first.values region value.data.length) (p + i) with
      | none => rfl
      | some patch => exact hagree region value p hl i hlt patch hlast
    refine ⟨hwhole, fun region region' value p q hp hq => ?_⟩
    rw [hp.window hv (hwhole region value p hp), hq.window hv (hwhole region' value q hq)]

def partTable : Buffer :=
  ⟨0, [1, 8, 1, 0, 0, 0, 0, 1] ++ stringBytes "AB12CD" ++ [0, 0, 1, 8, 2, 0, 0, 0, 0, 1] ++
    stringBytes "B12C" ++ [0, 0, 127, 4, 3, 0, 0, 0]⟩

def partContext : AnonymizeContext := declaredContext systemOnly partTable

def partResult : Anonymizer where
  patches := [⟨8, stringBytes "NE96ZK"⟩, ⟨24, stringBytes "O54T"⟩, ⟨8, stringBytes "NE96ZK"⟩,
    ⟨9, stringBytes "O54T"⟩, ⟨24, stringBytes "O54T"⟩]
  values := [⟨stringBytes "AB12CD", stringBytes "NE96ZK", true⟩,
    ⟨stringBytes "B12C", stringBytes "O54T", true⟩]

lemma part_scanned :
    registryScan false partTable 0 (registryCreate 0) = some (true, scanned partTable) :=
  scanned_eq (by decide)

lemma part_anonymized : anonymize partContext = some partResult := by decide +kernel

theorem shorter_serial_breaks_longer :
    registryScan false partContext.source 0 (registryCreate 0) = some (true, partContext.registry) ∧
      anonymize partContext = some partResult ∧ ¬ Consistent partContext partResult := by
  refine ⟨part_scanned, part_anonymized, fun h => ?_⟩
  have hwhole := h.whole ⟨8, 14, 4⟩ ⟨stringBytes "AB12CD", stringBytes "NE96ZK", true⟩ 8 {
    collected := by decide
    longer := ⟨⟨stringBytes "B12C", stringBytes "O54T", true⟩, by decide, by decide, by decide⟩
    propagate := rfl
    within := by decide
    long := by decide
    start := le_rfl
    finish := by decide
    occurs := by decide
    alone := by decide }
  exact absurd hwhole (by decide)

/-- The same two systems, the second serial number shorter than the ranges are searched for. -/
def shortPartTable : Buffer :=
  ⟨0, [1, 8, 1, 0, 0, 0, 0, 1] ++ stringBytes "AB12CD" ++ [0, 0, 1, 8, 2, 0, 0, 0, 0, 1] ++
    stringBytes "B12" ++ [0, 0, 127, 4, 3, 0, 0, 0]⟩

def shortPartContext : AnonymizeContext := declaredContext systemOnly shortPartTable

def shortPartResult : Anonymizer where
  patches := [⟨8, stringBytes "NE96ZK"⟩, ⟨24, stringBytes "B83"⟩, ⟨8, stringBytes "NE96ZK"⟩]
  values := [⟨stringBytes "AB12CD", stringBytes "NE96ZK", true⟩,
    ⟨stringBytes "B12", stringBytes "B83", true⟩]

lemma shortPart_scanned :
    registryScan false shortPartTable 0 (registryCreate 0) = some (true, scanned shortPartTable) :=
  scanned_eq (by decide)

lemma shortPart_anonymized : anonymize shortPartContext = some shortPartResult := by
  decide +kernel

/-- No value shorter than a searched one is itself searched for. -/
lemma shorterAgree_of_none
    (hnone : ∀ region ∈ regions cx, ∀ value ∈ values,
      shorterPatches cx values region value.data.length = []) : ShorterAgree cx values := by
  intro region value p hl i hi patch hpatch
  rw [hnone region hl.within value hl.collected] at hpatch
  cases hpatch

theorem shorter_serial_disagrees :
    (Consistent partContext partResult ↔ ShorterAgree partContext partResult.values) ∧
    LongerAlone shortPartContext shortPartResult.values ⟨8, 14, 4⟩
      ⟨stringBytes "AB12CD", stringBytes "NE96ZK", true⟩ 8 ∧
    ShorterAgree shortPartContext shortPartResult.values ∧
    Consistent shortPartContext shortPartResult := by
  have hagree : ShorterAgree shortPartContext shortPartResult.values :=
    shorterAgree_of_none (by decide +kernel)
  refine ⟨anonymize_consistent_iff part_scanned part_anonymized, ?_, hagree,
    (anonymize_consistent_iff shortPart_scanned shortPart_anonymized).mpr hagree⟩
  exact {
    collected := by decide
    longer := ⟨⟨stringBytes "B12", stringBytes "B83", true⟩, by decide, by decide, by decide⟩
    propagate := rfl
    within := by decide
    long := by decide
    start := le_rfl
    finish := by decide
    occurs := by decide
    alone := by decide }

end OpenDmi

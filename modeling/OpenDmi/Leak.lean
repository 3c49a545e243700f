import OpenDmi.Propagation
import OpenDmi.Specs

/-! Bytes of the propagated values which are left in the table: where an occurrence is stepped over,
because it begins inside another one of the same value. -/

namespace OpenDmi

open Bytes Occurrences

variable {cx : AnonymizeContext} {first anon : Anonymizer} {region : Region} {stop x : ℕ}

/-- What a byte holds comes from a replacement. A structure encoded again is written from its
header on, and holds a replacement only where its bytes have changed. -/
def Overwritten (cx : AnonymizeContext) (anon : Anonymizer) (x : ℕ) : Prop :=
  ∃ patch, Patch.last anon.patches x = some patch ∧
    ((∃ entity ∈ cx.registry.table, patch.offset = entity.offset) →
      (anonymizeTable cx anon)[x]? ≠ cx.source.data[x]?)

def NoLeak (cx : AnonymizeContext) (anon : Anonymizer) : Prop :=
  ∀ region ∈ regions cx, ∀ value ∈ anon.values, value.propagate = true →
    region.minimum ≤ value.data.length → ∀ p, region.start ≤ p →
    p + value.data.length ≤ region.finish → OccursAt cx.source.data value.data p →
    ∀ x, p ≤ x → x < p + value.data.length → Overwritten cx anon x

/-- An occurrence which begins inside one of the same value taken before it is stepped over. What it
holds past the end of that one is in an occurrence taken too, or replaced by the first pass. -/
def SteppedOverCovered (cx : AnonymizeContext) (first : Anonymizer) : Prop :=
  ∀ region ∈ regions cx, ∀ value q, TakenAt cx first.values region value q →
    ∀ p, q < p → p < q + value.data.length → p + value.data.length ≤ region.finish →
    OccursAt cx.source.data value.data p →
    ∀ x, q + value.data.length ≤ x → x < p + value.data.length →
      (∃ other r, TakenAt cx first.values region other r ∧ r ≤ x ∧ x < r + other.data.length) ∨
        Overwritten cx first x

def anonymizedBy (cx : AnonymizeContext) (first : Anonymizer) : Anonymizer :=
  { first with patches := first.patches ++ anonymizeElsewhere cx first.values }

lemma anonymize_eq (h : anonymize cx = some anon) :
    ∃ first, anonymizeEntities cx = some first ∧ anon = anonymizedBy cx first := by
  rw [anonymize] at h
  split_ifs at h
  obtain ⟨first, hfirst, rfl⟩ := Option.map_eq_some_iff.mp h
  exact ⟨first, hfirst, rfl⟩

lemma anonymizedBy_inside (ht : Tiled cx stop) (hv : ValuesKept first.values)
    (hi : Patch.Inside cx.source.data.length first.patches) :
    Patch.Inside cx.source.data.length (anonymizedBy cx first).patches :=
  Patch.inside_append.mpr ⟨hi, ht.elsewhere_inside hv⟩

lemma anonymizedBy_last_none
    (h : Patch.last (anonymizeElsewhere cx first.values) x = none) :
    Patch.last (anonymizedBy cx first).patches x = Patch.last first.patches x := by
  rw [anonymizedBy, Patch.last_append, h, Option.none_or]

lemma anonymizedBy_last_some {patch : Patch Byte}
    (h : Patch.last (anonymizeElsewhere cx first.values) x = some patch) :
    Patch.last (anonymizedBy cx first).patches x = some patch := by
  rw [anonymizedBy, Patch.last_append, h, Option.some_or]

lemma anonymizedBy_getElem? (ht : Tiled cx stop) (hv : ValuesKept first.values)
    (hi : Patch.Inside cx.source.data.length first.patches) (x : ℕ) :
    (anonymizeTable cx (anonymizedBy cx first))[x]? =
      (Patch.last (anonymizeElsewhere cx first.values) x).elim (anonymizeTable cx first)[x]?
        fun patch => patch.bytes[x - patch.offset]? := by
  rw [anonymizeTable, Patch.getElem?_applyAll (anonymizedBy_inside ht hv hi)]
  cases h : Patch.last (anonymizeElsewhere cx first.values) x with
  | none => rw [anonymizedBy_last_none h, anonymizeTable, Patch.getElem?_applyAll hi]; rfl
  | some patch => rw [anonymizedBy_last_some h]; rfl

lemma overwritten_iff (ht : Tiled cx stop) (hv : ValuesKept first.values)
    (hi : Patch.Inside cx.source.data.length first.patches) (hr : region ∈ regions cx)
    (hstart : region.start ≤ x) (hfinish : x < region.finish) :
    Overwritten cx (anonymizedBy cx first) x ↔
      (∃ value p, TakenAt cx first.values region value p ∧ p ≤ x ∧ x < p + value.data.length) ∨
        Overwritten cx first x := by
  have hregion := ht.last_region hv hr hstart hfinish
  have hbyte := anonymizedBy_getElem? ht hv hi x
  cases hlast : Patch.last (anonymizeElsewhere cx first.values) x with
  | none =>
    have hnone : ¬ ∃ value p, TakenAt cx first.values region value p ∧ p ≤ x ∧
        x < p + value.data.length := by
      rintro ⟨value, p, htaken, hle, hlt⟩
      have hcovers := Patch.last_eq_none.mp (hregion.symm.trans hlast) ⟨p, value.replacement⟩
        (mem_regionPatches.mpr ⟨value, p, htaken, rfl⟩)
      rw [← hv value htaken.collected] at hlt
      exact Bool.false_ne_true (hcovers.symm.trans (Patch.covers_iff.mpr ⟨hle, hlt⟩))
    rw [hlast] at hbyte
    simp only [hnone, false_or, Overwritten, anonymizedBy_last_none hlast]
    rw [hbyte]
    rfl
  | some patch =>
    obtain ⟨hm, hcovers⟩ := Patch.last_some (hregion.symm.trans hlast)
    obtain ⟨hle, hend⟩ := regionPatches_inside hv hm
    have hfrom := Patch.covers_iff.mp hcovers
    obtain ⟨value, p, htaken, rfl⟩ := mem_regionPatches.mp hm
    simp only [hv value htaken.collected] at hfrom
    refine ⟨fun _ => .inl ⟨value, p, htaken, hfrom⟩, fun _ => ⟨_, anonymizedBy_last_some hlast, ?_⟩⟩
    rintro ⟨entity, he, heq⟩
    rcases ht.tiles.region_offset hr he with ho | ho <;> simp only at heq hle <;> omega

lemma scan_tiled {strict : Bool} {entityCount capacity : ℕ}
    (h : registryScan strict cx.source entityCount (registryCreate capacity) =
      some (true, cx.registry)) : ∃ stop, Tiled cx stop := by
  obtain ⟨success, registry, heq, hspec⟩ := registryScan_spec strict cx.source entityCount capacity
  obtain ⟨rfl, rfl⟩ : success = true ∧ registry = cx.registry := by
    simpa using heq.symm.trans h
  obtain ⟨stop, hs⟩ := hspec
  exact ⟨stop, hs.valid, hs.tiles⟩

lemma firstPass_kept (ht : Tiled cx stop) (h : anonymizeEntities cx = some first) :
    ValuesKept first.values ∧ Patch.Inside cx.source.data.length first.patches := by
  have hpass : FirstPass cx (fun _ _ => True) first :=
    firstPass ht (fun _ => ⟨fun _ _ _ _ => trivial, fun _ _ _ _ _ _ => trivial,
      fun _ _ _ _ _ => trivial⟩) (fun _ _ _ _ => trivial) h
  exact ⟨hpass.values, hpass.inside ht⟩

theorem anonymize_noLeak_iff {strict : Bool} {entityCount capacity : ℕ}
    (hscan : registryScan strict cx.source entityCount (registryCreate capacity) =
      some (true, cx.registry))
    (h : anonymize cx = some anon) :
    ∃ first, anonymizeEntities cx = some first ∧ anon.values = first.values ∧
      (NoLeak cx anon ↔ SteppedOverCovered cx first) := by
  obtain ⟨stop, ht⟩ := scan_tiled hscan
  obtain ⟨first, hfirst, rfl⟩ := anonymize_eq h
  obtain ⟨hv, hi⟩ := firstPass_kept ht hfirst
  refine ⟨first, hfirst, rfl, fun hnoLeak => ?_, fun hcovered => ?_⟩
  · intro region hr value q htaken p hqp hpq hp hoccurs x hqx hxp
    obtain ⟨hm, hpropagate, hlen⟩ := (mem_searched (region_minimum hr)).mp htaken.order
    have hq := htaken.bounds
    exact (overwritten_iff ht hv hi hr (by omega) (by omega)).mp
      (hnoLeak region hr value hm hpropagate hlen p (by omega) hp hoccurs x (by omega) hxp)
  · intro region hr value hm hpropagate hlen p hstart hp hoccurs x hpx hxp
    have hmin := region_minimum hr
    have hne : value.data ≠ [] := List.length_pos_iff.mp (by omega)
    have horder := (mem_searched hmin).mpr ⟨hm, hpropagate, hlen⟩
    obtain ⟨q, hq, hqp, hpq⟩ := taken_covers hoccurs hstart hp
      (show p < region.start + (region.finish - region.start + 1) by omega) hne
    have htaken : TakenAt cx first.values region value q := ⟨horder, hq⟩
    refine (overwritten_iff ht hv hi hr (by omega) (by omega)).mpr ?_
    by_cases hx : x < q + value.data.length
    · exact .inl ⟨value, q, htaken, by omega, hx⟩
    · exact hcovered region hr value q htaken p (by omega) hpq hp hoccurs x (by omega) hxp

/-- A system whose version holds its serial number twice, the second time from the last byte of the
first on. -/
def overlapTable : Buffer :=
  ⟨0, [1, 8, 1, 0, 1, 0, 0, 2] ++ stringBytes "1AB1AB1" ++ [0] ++ stringBytes "1AB1" ++
    [0, 0, 127, 4, 2, 0, 0, 0]⟩

def overlapContext : AnonymizeContext := declaredContext systemOnly overlapTable

def overlapResult : Anonymizer where
  patches := [⟨16, stringBytes "9JO4"⟩, ⟨8, stringBytes "9JO4"⟩, ⟨16, stringBytes "9JO4"⟩]
  values := [⟨stringBytes "1AB1", stringBytes "9JO4", true⟩]

lemma overlap_scanned :
    registryScan false overlapTable 0 (registryCreate 0) = some (true, scanned overlapTable) :=
  scanned_eq (by decide)

lemma overlap_anonymized : anonymize overlapContext = some overlapResult := by decide +kernel

theorem overlapping_serial_leaks :
    registryScan false overlapContext.source 0 (registryCreate 0) =
        some (true, overlapContext.registry) ∧
      anonymize overlapContext = some overlapResult ∧ ¬ NoLeak overlapContext overlapResult := by
  refine ⟨overlap_scanned, overlap_anonymized, fun h => ?_⟩
  have hregion : (⟨8, 15, 4⟩ : Region) ∈ regions overlapContext := by decide
  obtain ⟨patch, hpatch, -⟩ := h ⟨8, 15, 4⟩ hregion ⟨stringBytes "1AB1", stringBytes "9JO4", true⟩
    List.mem_cons_self rfl (by decide) 11 (by decide) (by decide) (by decide) 12 (by decide)
    (by decide)
  have hnone : Patch.last overlapResult.patches 12 = none := by decide
  rw [hnone] at hpatch
  cases hpatch

/-- Where no occurrence of a value begins inside another one, none is stepped over. -/
lemma steppedOverCovered_of_apart
    (hapart : ∀ region ∈ regions cx, ∀ value ∈ first.values, ∀ p ≤ region.finish,
      OccursAt cx.source.data value.data p → ∀ q < p, p < q + value.data.length →
        ¬ OccursAt cx.source.data value.data q) :
    SteppedOverCovered cx first := by
  intro region hr value q htaken p hqp hpq hp hoccurs
  have hfound : OccursAt cx.source.data value.data q := htaken.bounds.2.2
  exact absurd hfound (hapart region hr value htaken.collected p (by omega) hoccurs q hqp hpq)

/-- The version holds the serial number twice, with a byte between. -/
def spacedTable : Buffer :=
  ⟨0, [1, 8, 1, 0, 1, 0, 0, 2] ++ stringBytes "1AB1-1AB1" ++ [0] ++ stringBytes "1AB1" ++
    [0, 0, 127, 4, 2, 0, 0, 0]⟩

def spacedContext : AnonymizeContext := declaredContext systemOnly spacedTable

def spacedResult : Anonymizer where
  patches := [⟨18, stringBytes "9JO4"⟩, ⟨8, stringBytes "9JO4"⟩, ⟨13, stringBytes "9JO4"⟩,
    ⟨18, stringBytes "9JO4"⟩]
  values := [⟨stringBytes "1AB1", stringBytes "9JO4", true⟩]

lemma spaced_scanned :
    registryScan false spacedTable 0 (registryCreate 0) = some (true, scanned spacedTable) :=
  scanned_eq (by decide)

lemma spaced_anonymized : anonymize spacedContext = some spacedResult := by decide +kernel

theorem overlapping_serial_stepped_over :
    (∃ first, anonymizeEntities overlapContext = some first ∧
      overlapResult.values = first.values ∧
      (NoLeak overlapContext overlapResult ↔ SteppedOverCovered overlapContext first)) ∧
    NoLeak spacedContext spacedResult ∧
    ∃ first, anonymizeEntities spacedContext = some first ∧
      SteppedOverCovered spacedContext first := by
  obtain ⟨first, hfirst, hvalues, hiff⟩ := anonymize_noLeak_iff spaced_scanned spaced_anonymized
  have hcovered : SteppedOverCovered spacedContext first := by
    refine steppedOverCovered_of_apart ?_
    rw [← hvalues]
    decide +kernel
  exact ⟨anonymize_noLeak_iff overlap_scanned overlap_anonymized, hiff.mpr hcovered, first, hfirst,
    hcovered⟩

end OpenDmi

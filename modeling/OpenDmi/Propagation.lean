import OpenDmi.FirstPass

namespace OpenDmi

open Bytes Occurrences

variable {cx : AnonymizeContext} {values : List AnonymizeValue} {region : Region}
  {value : AnonymizeValue} {stop x p : ℕ}

def regions (cx : AnonymizeContext) : List Region := cx.registry.table.flatMap entityRegions

def regionPatches (cx : AnonymizeContext) (values : List AnonymizeValue) (region : Region) :
    List (Patch Byte) :=
  (searched values region.minimum).flatMap (anonymizeReplaceValue cx region.start region.finish)

lemma regionPatches_empty (h : region.finish ≤ region.start) (hmin : 0 < region.minimum) :
    regionPatches cx values region = [] := by
  rw [regionPatches, List.flatMap_eq_nil_iff]
  intro value hv
  obtain ⟨-, -, hlen⟩ := (mem_searched hmin).mp hv
  exact anonymizeReplaceValue_empty (by omega)

lemma Tiled.strings (ht : Tiled cx stop) {entity : Entity} (hm : entity ∈ cx.registry.table) :
    anonymizeStrings cx values entity =
      (entity.strings.map stringRegion).flatMap (regionPatches cx values) := by
  rw [anonymizeStrings, if_neg (not_not.mpr (ht.tiles.entity hm).1.buffer), List.flatMap_map]
  refine List.flatMap_congr fun string _ => ?_
  rw [anonymizeReplace_eq]
  rfl

lemma Tiled.body (ht : Tiled cx stop) {entity : Entity} (hm : entity ∈ cx.registry.table) :
    anonymizeBody cx values entity = regionPatches cx values (bodyRegion entity) := by
  obtain ⟨hof, -, -⟩ := ht.tiles.entity hm
  have htotal := hof.whole.total_le.2
  have hsum := hof.total
  have hinside : entity.offset + entity.bodyLength ≤ cx.source.length := by
    simp only [Buffer.length]
    omega
  rw [anonymizeBody, if_neg (not_not.mpr hof.buffer)]
  simp only
  split_ifs with hempty
  · rcases hempty with hempty | hempty
    · exact (regionPatches_empty hempty (Nat.succ_pos _)).symm
    · omega
  · rw [anonymizeReplace_eq]
    rfl

lemma Tiled.elsewhere (ht : Tiled cx stop) :
    anonymizeElsewhere cx values = (regions cx).flatMap (regionPatches cx values) := by
  rw [anonymizeElsewhere, ht.visited, regions, List.flatMap_assoc]
  refine List.flatMap_congr fun entity hm => ?_
  rw [ht.strings hm, ht.body hm, entityRegions, List.flatMap_append, List.flatMap_singleton]

lemma region_minimum (hr : region ∈ regions cx) : 0 < region.minimum := by
  obtain ⟨entity, -, hr⟩ := List.mem_flatMap.mp hr
  rcases List.mem_append.mp hr with hr | hr
  · obtain ⟨string, -, rfl⟩ := List.mem_map.mp hr
    exact Nat.succ_pos _
  · rw [List.mem_singleton.mp hr]
    exact Nat.succ_pos _

lemma Tiled.region_inside (ht : Tiled cx stop) (hr : region ∈ regions cx) :
    region.finish ≤ cx.source.data.length := by
  obtain ⟨entity, hm, hr⟩ := List.mem_flatMap.mp hr
  obtain ⟨hof, -, -⟩ := ht.tiles.entity hm
  have hfinish := (hof.regions hr).2
  have htotal := hof.whole.total_le.2
  omega

structure TakenAt (cx : AnonymizeContext) (values : List AnonymizeValue) (region : Region)
    (value : AnonymizeValue) (p : ℕ) : Prop where
  order : value ∈ searched values region.minimum
  found : p ∈ taken cx.source.data value.data region.finish (region.finish - region.start + 1)
    region.start

lemma mem_regionPatches {patch : Patch Byte} : patch ∈ regionPatches cx values region ↔
    ∃ value p, TakenAt cx values region value p ∧ patch = ⟨p, value.replacement⟩ := by
  rw [regionPatches, List.mem_flatMap]
  constructor
  · rintro ⟨value, hv, hp⟩
    obtain ⟨p, hfound, rfl⟩ := List.mem_map.mp hp
    exact ⟨value, p, ⟨hv, hfound⟩, rfl⟩
  · rintro ⟨value, p, ⟨hv, hp⟩, rfl⟩
    exact ⟨value, hv, List.mem_map.mpr ⟨p, hp, rfl⟩⟩

def ValuesKept (values : List AnonymizeValue) : Prop :=
  ∀ value ∈ values, value.replacement.length = value.data.length

lemma TakenAt.collected (h : TakenAt cx values region value p) : value ∈ values :=
  (mem_searchOrder_bounds h.order).1

lemma TakenAt.bounds (h : TakenAt cx values region value p) :
    region.start ≤ p ∧ p + value.data.length ≤ region.finish ∧
      OccursAt cx.source.data value.data p := mem_taken h.found

lemma regionPatches_inside (hv : ValuesKept values) {patch : Patch Byte}
    (hp : patch ∈ regionPatches cx values region) :
    region.start ≤ patch.offset ∧ patch.offset + patch.bytes.length ≤ region.finish := by
  obtain ⟨value, p, htaken, rfl⟩ := mem_regionPatches.mp hp
  obtain ⟨hstart, hfinish, -⟩ := htaken.bounds
  exact ⟨hstart, by rw [hv value htaken.collected]; exact hfinish⟩

lemma Tiled.elsewhere_inside (ht : Tiled cx stop) (hv : ValuesKept values) :
    Patch.Inside cx.source.data.length (anonymizeElsewhere cx values) := by
  intro patch hp
  rw [ht.elsewhere] at hp
  obtain ⟨region, hr, hp⟩ := List.mem_flatMap.mp hp
  have hinside := (regionPatches_inside hv hp).2
  have hregion := ht.region_inside hr
  omega

lemma covers_region (hv : ValuesKept values) {patch : Patch Byte}
    (hp : patch ∈ regionPatches cx values region) (hx : patch.covers x = true) :
    region.start ≤ x ∧ x < region.finish := by
  have hinside := regionPatches_inside hv hp
  have hcovers := Patch.covers_iff.mp hx
  omega

lemma Tiled.last_region (ht : Tiled cx stop) (hv : ValuesKept values) (hr : region ∈ regions cx)
    (hstart : region.start ≤ x) (hfinish : x < region.finish) :
    Patch.last (anonymizeElsewhere cx values) x = Patch.last (regionPatches cx values region) x := by
  have hapart : (regions cx).Pairwise Apart := ht.tiles.regions_apart
  obtain ⟨before, after, hsplit⟩ := List.append_of_mem hr
  have hother : ∀ other, Apart other region →
      ∀ patch ∈ regionPatches cx values other, patch.covers x = false := by
    intro other ho patch hp
    by_contra hx
    have hin := covers_region hv hp (by simpa using hx)
    rcases ho with ho | ho <;> omega
  have hnone : ∀ others : List Region, (∀ other ∈ others, Apart other region) →
      Patch.last (others.flatMap (regionPatches cx values)) x = none := by
    intro others ho
    rw [Patch.last_eq_none]
    intro patch hp
    obtain ⟨other, hm, hp⟩ := List.mem_flatMap.mp hp
    exact hother other (ho other hm) patch hp
  rw [hsplit] at hapart
  obtain ⟨-, hafter, hbefore⟩ := List.pairwise_append.mp hapart
  rw [ht.elsewhere, hsplit, List.flatMap_append, List.flatMap_cons, Patch.last_append,
    Patch.last_append, hnone before fun other hm => hbefore other hm region List.mem_cons_self,
    hnone after fun other hm => ((List.pairwise_cons.mp hafter).1 other hm).symm]
  simp

lemma Tiled.last_outside (ht : Tiled cx stop) (hv : ValuesKept values)
    (hx : ∀ region ∈ regions cx, ¬ (region.start ≤ x ∧ x < region.finish)) :
    Patch.last (anonymizeElsewhere cx values) x = none := by
  rw [Patch.last_eq_none, ht.elsewhere]
  intro patch hp
  obtain ⟨region, hr, hp⟩ := List.mem_flatMap.mp hp
  by_contra hc
  exact hx region hr (covers_region hv hp (by simpa using hc))

end OpenDmi

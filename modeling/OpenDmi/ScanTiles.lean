import OpenDmi.Scan

namespace OpenDmi

open Bytes LinkedList

inductive Tiles (table : Buffer) : ℕ → List Entity → ℕ → Prop
  | nil {offset : ℕ} : Tiles table offset [] offset
  | cons {offset stop : ℕ} {entity : Entity} {entities : List Entity} :
      entity.offset = offset → EntityOf table entity →
      Tiles table (offset + entity.totalLength) entities stop →
      Tiles table offset (entity :: entities) stop

variable {table : Buffer}

lemma Tiles.snoc {start offset : ℕ} {entities : List Entity} {entity : Entity}
    (h : Tiles table start entities offset) (ho : entity.offset = offset)
    (he : EntityOf table entity) :
    Tiles table start (entities ++ [entity]) (offset + entity.totalLength) := by
  induction h with
  | nil => exact .cons ho he .nil
  | cons ho' he' _ ih => exact .cons ho' he' (ih ho)

lemma Tiles.entity {start stop : ℕ} {entities : List Entity} (h : Tiles table start entities stop)
    {entity : Entity} (hm : entity ∈ entities) :
    EntityOf table entity ∧ start ≤ entity.offset ∧ entity.offset + entity.totalLength ≤ stop := by
  have hle : ∀ {a b es}, Tiles table a es b → a ≤ b := by
    intro a b es ht
    induction ht with
    | nil => exact le_rfl
    | cons _ _ _ ih => omega
  induction h with
  | nil => cases hm
  | cons ho he ht ih =>
    rcases List.mem_cons.mp hm with rfl | hm
    · exact ⟨he, ho.ge, by have hb := hle ht; omega⟩
    · obtain ⟨h1, h2, h3⟩ := ih hm
      exact ⟨h1, by omega, h3⟩

inductive ScanStop (table : Buffer) (entityCount : ℕ) (entities : List Entity) (stop : ℕ) :
    Bool → Prop
  | endOfTable {before : List Entity} {last : Entity} : entities = before ++ [last] →
      last.typeId = typeEndOfTable → ScanStop table entityCount entities stop false
  | declared : entityCount ≠ 0 → entities.length = entityCount →
      ScanStop table entityCount entities stop false
  | noStructure : NoStructure table.data stop → (entityCount ≠ 0 → entities.length < entityCount) →
      (∀ entity ∈ entities, entity.typeId ≠ typeEndOfTable) →
      ScanStop table entityCount entities stop true

structure ScanInv (table : Buffer) (entityCount offset index : ℕ) (registry : Registry) : Prop where
  valid : registry.Valid
  tiles : Tiles table 0 registry.table offset
  indexed : index = registry.table.length
  bounded : entityCount ≠ 0 → index ≤ entityCount
  running : ∀ entity ∈ registry.table, entity.typeId ≠ typeEndOfTable

structure Scanned (table : Buffer) (entityCount : ℕ) (registry : Registry) (stop : ℕ) : Prop where
  valid : registry.Valid
  tiles : Tiles table 0 registry.table stop
  count : registry.count = registry.table.length
  bounded : entityCount ≠ 0 → registry.table.length ≤ entityCount
  running : ∀ entity ∈ registry.table.dropLast, entity.typeId ≠ typeEndOfTable
  stopped : ScanStop table entityCount registry.table stop registry.status.truncated

lemma finish_valid {registry : Registry} (h : registry.Valid) (count : ℕ) (truncated : Bool) :
    (registryFinish registry count truncated).Valid :=
  ⟨h.capacity_pos, h.sequence, h.last, h.chain, h.next_fresh, h.seqNext_fresh⟩

lemma ScanInv.finish {entityCount offset index : ℕ} {registry : Registry} {truncated : Bool}
    (h : ScanInv table entityCount offset index registry)
    (hs : ScanStop table entityCount registry.table offset truncated) :
    Scanned table entityCount (registryFinish registry index truncated) offset :=
  ⟨finish_valid h.valid _ _, h.tiles, h.indexed, fun h0 => h.indexed ▸ h.bounded h0,
    fun entity hm => h.running entity (List.dropLast_subset _ hm), hs⟩

lemma ScanInv.noStructure {entityCount offset index : ℕ} {registry : Registry}
    (h : ScanInv table entityCount offset index registry)
    (hr : ¬ (entityCount ≠ 0 ∧ entityCount ≤ index)) (hn : NoStructure table.data offset) :
    Scanned table entityCount (registryFinish registry index true) offset :=
  h.finish (.noStructure hn (fun h0 => by rw [← h.indexed]; omega) h.running)

lemma ScanInv.put {entityCount offset index : ℕ} {registry : Registry} {entity : Entity}
    (h : ScanInv table entityCount offset index registry) (ho : entity.offset = offset) :
    (registryPut registry entity).1 = true ∧ (registryPut registry entity).2.Valid ∧
      (registryPut registry entity).2.table = registry.table ++ [entity] := by
  rcases registryPut_cases entity h.valid with ⟨hh, _⟩ | ⟨_, h1, h2, _, h3⟩
  · simp only [tableHas, List.any_eq_true, Bool.and_eq_true, sameBytes, beq_iff_eq] at hh
    obtain ⟨other, hm, -, -, hsame⟩ := hh
    obtain ⟨hof, -, hle⟩ := h.tiles.entity hm
    have hpos := hof.whole.total_le
    simp only [headerSize] at hpos
    omega
  · exact ⟨h1, h2, h3⟩

lemma registryScanLoop_spec (strict : Bool) {entityCount fuel offset index : ℕ}
    {registry : Registry} (h : ScanInv table entityCount offset index registry)
    (hf : table.data.length < fuel + offset) (ho : offset ≤ table.data.length) :
    ∃ success result,
      registryScanLoop strict table entityCount fuel offset index registry = some (success, result) ∧
      if success then ∃ stop, Scanned table entityCount result stop
      else strict = true ∧ ∃ stop, Tiles table 0 result.table stop ∧
        1 ≤ byteAt table.data (stop + 1) ∧ byteAt table.data (stop + 1) ≤ 3 := by
  induction fuel generalizing offset index registry with
  | zero => omega
  | succ fuel ih =>
    rw [registryScanLoop]
    by_cases hcount : entityCount ≠ 0 ∧ entityCount ≤ index
    · rw [if_pos hcount]
      have hstop : ScanStop table entityCount registry.table offset false :=
        .declared hcount.1 (by rw [← h.indexed]; exact le_antisymm (h.bounded hcount.1) hcount.2)
      exact ⟨true, _, rfl, offset, h.finish hstop⟩
    rw [if_neg hcount]
    by_cases hroom : table.length - offset < headerSize + 2
    · rw [if_pos hroom]
      exact ⟨true, _, rfl, offset, h.noStructure hcount (.inl hroom)⟩
    rw [if_neg hroom]
    rcases entityCreate_cases table offset with ⟨entity, he, heo, hof⟩ | ⟨he, hn⟩ | ⟨he, hn, hb⟩
    · obtain ⟨hp1, hp2, hp3⟩ := h.put heo
      have htiles : Tiles table 0 (registryPut registry entity).2.table
          (offset + entity.totalLength) := hp3 ▸ h.tiles.snoc heo hof
      have hindex : index + 1 = (registryPut registry entity).2.table.length := by
        rw [hp3, List.length_append, ← h.indexed]
        rfl
      have hbound : entityCount ≠ 0 → index + 1 ≤ entityCount := by
        intro h0
        have := h.bounded h0
        omega
      have hpos := hof.whole.total_le
      rw [heo] at hpos
      simp only [he, hp1, Bool.true_eq_false, if_false]
      by_cases hend : entity.typeId = typeEndOfTable
      · rw [if_pos hend]
        refine ⟨true, _, rfl, offset + entity.totalLength, finish_valid hp2 _ _, htiles, hindex,
          fun h0 => hindex ▸ hbound h0, ?_, .endOfTable hp3 hend⟩
        intro other hm
        have hm' : other ∈ ((registryPut registry entity).2.table).dropLast := hm
        rw [hp3, List.dropLast_concat] at hm'
        exact h.running other hm'
      · rw [if_neg hend]
        refine ih ⟨hp2, htiles, hindex, hbound, ?_⟩ ?_ hpos.2
        · intro other hm
          rcases List.mem_append.mp (hp3 ▸ hm) with hm | hm
          · exact h.running other hm
          · rw [List.mem_singleton.mp hm]
            exact hend
        · simp only [headerSize] at hpos
          omega
    · simp only [he]
      exact ⟨true, _, rfl, offset, h.noStructure hcount hn⟩
    · simp only [he]
      cases strict with
      | false => exact ⟨true, _, rfl, offset, h.noStructure hcount hn⟩
      | true => exact ⟨false, _, rfl, rfl, offset, h.tiles, hb⟩

lemma scanInv_initial (table : Buffer) (entityCount capacity : ℕ) :
    ScanInv table entityCount 0 0 (registryCreate capacity) where
  valid := registryCreate_valid capacity
  tiles := .nil
  indexed := rfl
  bounded _ := Nat.zero_le entityCount
  running := by simp [Registry.table, registryCreate]

lemma registryScan_spec (strict : Bool) (table : Buffer) (entityCount capacity : ℕ) :
    ∃ success registry,
      registryScan strict table entityCount (registryCreate capacity) = some (success, registry) ∧
      if success then ∃ stop, Scanned table entityCount registry stop
      else strict = true ∧ ∃ stop, Tiles table 0 registry.table stop ∧
        1 ≤ byteAt table.data (stop + 1) ∧ byteAt table.data (stop + 1) ≤ 3 := by
  simp only [registryScan, registryCreate, Bool.false_eq_true, if_false]
  exact registryScanLoop_spec strict (scanInv_initial table entityCount capacity)
    (by simp [Buffer.length]) (Nat.zero_le _)

theorem registryScan_tiles_prefix (strict : Bool) (table : Buffer) (entityCount capacity : ℕ) :
    ∃ success registry,
      registryScan strict table entityCount (registryCreate capacity) = some (success, registry) ∧
      (success = true → ∃ ids entities stop,
        Links registry.seqNext registry.head ids ∧ ids.map registry.entity = entities ∧
        registry.count = entities.length ∧
        Tiles table 0 entities stop ∧
        (∀ entity ∈ entities,
          entity.totalLength = entity.bodyLength + entity.extraLength ∧ 6 ≤ entity.totalLength ∧
          entity.offset + entity.totalLength ≤ table.length) ∧
        (entityCount ≠ 0 → entities.length ≤ entityCount) ∧
        (∀ entity ∈ entities.dropLast, entity.typeId ≠ typeEndOfTable) ∧
        ScanStop table entityCount entities stop registry.status.truncated) := by
  obtain ⟨success, registry, heq, hspec⟩ := registryScan_spec strict table entityCount capacity
  refine ⟨success, registry, heq, ?_⟩
  rintro rfl
  obtain ⟨stop, h⟩ := hspec
  refine ⟨_, registry.table, stop, h.valid.sequence, rfl, h.count, h.tiles, fun entity hm => ?_,
    h.bounded, h.running, h.stopped⟩
  obtain ⟨hof, -, -⟩ := h.tiles.entity hm
  exact ⟨hof.total, hof.whole.total_le⟩

end OpenDmi

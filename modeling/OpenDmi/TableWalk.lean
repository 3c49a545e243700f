import OpenDmi.ScanLayout

/-! The walk of a table by the lengths of its structures, which tells where and why it stops. -/

namespace OpenDmi

open Bytes LinkedList

inductive WalkExit
  | endOfTable
  | declared
  | noRoom
  | shortLength
  | cut
  deriving DecidableEq

structure TableWalk where
  entities : List Entity
  stop : ℕ
  exit : WalkExit

def tableWalkFrom (table : Buffer) (entityCount : ℕ) : ℕ → ℕ → ℕ → TableWalk
  | 0, offset, _ => ⟨[], offset, .noRoom⟩
  | fuel + 1, offset, index =>
    if entityCount ≠ 0 ∧ entityCount ≤ index then ⟨[], offset, .declared⟩
    else if table.length - offset < headerSize + 2 then ⟨[], offset, .noRoom⟩
    else match entityCreate table offset with
      | .error .truncated => ⟨[], offset, .cut⟩
      | .error .lengthInvalid => ⟨[], offset, .shortLength⟩
      | .ok entity =>
        if entity.typeId = typeEndOfTable then ⟨[entity], offset, .endOfTable⟩
        else
          let rest := tableWalkFrom table entityCount fuel (offset + entity.totalLength) (index + 1)
          ⟨entity :: rest.entities, rest.stop, rest.exit⟩

def tableWalk (table : Buffer) (entityCount : ℕ) : TableWalk :=
  tableWalkFrom table entityCount (table.length + 1) 0 0

def WalkExit.isTruncated : WalkExit → Bool
  | .endOfTable | .declared => false
  | .noRoom | .shortLength | .cut => true

variable {table : Buffer} {strict : Bool} {entityCount fuel offset index : ℕ}
  {registry result : Registry} {entity : Entity}

lemma registryScanLoop_walk (hi : ScanInv table entityCount offset index registry)
    (h : registryScanLoop strict table entityCount fuel offset index registry =
      some (true, result)) :
    result.Valid ∧
      result.table = registry.table ++ (tableWalkFrom table entityCount fuel offset index).entities ∧
      result.status.truncated =
        (tableWalkFrom table entityCount fuel offset index).exit.isTruncated := by
  induction fuel generalizing offset index registry with
  | zero => cases h
  | succ fuel ih =>
    rw [registryScanLoop] at h
    rw [tableWalkFrom]
    by_cases hcount : entityCount ≠ 0 ∧ entityCount ≤ index
    · rw [if_pos hcount] at h ⊢
      cases h
      exact ⟨finish_valid hi.valid _ _, by simp [finish_table], rfl⟩
    rw [if_neg hcount] at h ⊢
    by_cases hroom : table.length - offset < headerSize + 2
    · rw [if_pos hroom] at h ⊢
      cases h
      exact ⟨finish_valid hi.valid _ _, by simp [finish_table], rfl⟩
    rw [if_neg hroom] at h ⊢
    rcases entityCreate_cases table offset with ⟨entity, he, heo, hof⟩ | ⟨he, -⟩ | ⟨he, -, -⟩
    · obtain ⟨hput, hvalid, htable⟩ := hi.put heo
      simp only [he, hput, Bool.true_eq_false, if_false] at h ⊢
      by_cases hend : entity.typeId = typeEndOfTable
      · rw [if_pos hend] at h ⊢
        cases h
        exact ⟨finish_valid hvalid _ _, htable, rfl⟩
      · rw [if_neg hend] at h ⊢
        obtain ⟨hv, ht, hs⟩ := ih (hi.next hcount heo hof hend) h
        refine ⟨hv, ?_, hs⟩
        rw [ht, htable, List.append_assoc, List.singleton_append]
    · simp only [he] at h ⊢
      cases h
      exact ⟨finish_valid hi.valid _ _, by simp [finish_table], rfl⟩
    · simp only [he] at h ⊢
      cases strict with
      | true => cases h
      | false =>
        cases h
        exact ⟨finish_valid hi.valid _ _, by simp [finish_table], rfl⟩

lemma registryScan_walk {capacity : ℕ}
    (h : registryScan strict table entityCount (registryCreate capacity) = some (true, result)) :
    result.Valid ∧ result.table = (tableWalk table entityCount).entities ∧
      result.status.truncated = (tableWalk table entityCount).exit.isTruncated := by
  rw [registryScan] at h
  exact registryScanLoop_walk (scanInv_initial table entityCount capacity) h

lemma registryScanLoop_success {success : Bool}
    (hi : ScanInv table entityCount offset index registry)
    (h : registryScanLoop strict table entityCount fuel offset index registry =
      some (success, result)) :
    success = true ↔ (strict = true →
      (tableWalkFrom table entityCount fuel offset index).exit ≠ .shortLength) := by
  induction fuel generalizing offset index registry with
  | zero => cases h
  | succ fuel ih =>
    rw [registryScanLoop] at h
    rw [tableWalkFrom]
    by_cases hcount : entityCount ≠ 0 ∧ entityCount ≤ index
    · rw [if_pos hcount] at h ⊢
      cases h
      simp
    rw [if_neg hcount] at h ⊢
    by_cases hroom : table.length - offset < headerSize + 2
    · rw [if_pos hroom] at h ⊢
      cases h
      simp
    rw [if_neg hroom] at h ⊢
    rcases entityCreate_cases table offset with ⟨entity, he, heo, hof⟩ | ⟨he, -⟩ | ⟨he, -, -⟩
    · obtain ⟨hput, -, -⟩ := hi.put heo
      simp only [he, hput, Bool.true_eq_false, if_false] at h ⊢
      by_cases hend : entity.typeId = typeEndOfTable
      · rw [if_pos hend] at h ⊢
        cases h
        simp
      · rw [if_neg hend] at h ⊢
        exact ih (hi.next hcount heo hof hend) h
    · simp only [he] at h ⊢
      cases h
      simp
    · simp only [he] at h ⊢
      cases strict with
      | true =>
        cases h
        simp
      | false =>
        cases h
        simp

lemma registryScan_success {success : Bool} {capacity : ℕ}
    (h : registryScan strict table entityCount (registryCreate capacity) =
      some (success, result)) :
    success = true ↔ (strict = true → (tableWalk table entityCount).exit ≠ .shortLength) := by
  rw [registryScan] at h
  exact registryScanLoop_success (scanInv_initial table entityCount capacity) h

lemma registryScan_relaxed (table : Buffer) (entityCount capacity : ℕ) : ∃ registry,
    registryScan false table entityCount (registryCreate capacity) = some (true, registry) := by
  obtain ⟨success, registry, hscan, hspec⟩ := registryScan_spec false table entityCount capacity
  cases success with
  | true => exact ⟨registry, hscan⟩
  | false => cases hspec.1

inductive WalkStops (table : Buffer) (entityCount offset index : ℕ) (entities : List Entity)
    (stop : ℕ) : WalkExit → Prop
  | endOfTable {before : List Entity} {last : Entity} (tiles : Tiles table offset before stop)
      (running : ∀ entity ∈ before, entity.typeId ≠ typeEndOfTable)
      (found : entities = before ++ [last]) (place : last.offset = stop)
      (whole : EntityOf table last) (type : last.typeId = typeEndOfTable) :
      WalkStops table entityCount offset index entities stop .endOfTable
  | declared (tiles : Tiles table offset entities stop) (inside : stop ≤ table.data.length)
      (running : ∀ entity ∈ entities, entity.typeId ≠ typeEndOfTable) (counted : entityCount ≠ 0)
      (reached : entityCount ≤ index + entities.length) :
      WalkStops table entityCount offset index entities stop .declared
  | noRoom (tiles : Tiles table offset entities stop) (inside : stop ≤ table.data.length)
      (running : ∀ entity ∈ entities, entity.typeId ≠ typeEndOfTable)
      (short : table.data.length < stop + headerSize + 2) :
      WalkStops table entityCount offset index entities stop .noRoom
  | shortLength (tiles : Tiles table offset entities stop) (inside : stop ≤ table.data.length)
      (running : ∀ entity ∈ entities, entity.typeId ≠ typeEndOfTable)
      (room : stop + headerSize + 2 ≤ table.data.length)
      (length : 1 ≤ byteAt table.data (stop + 1) ∧ byteAt table.data (stop + 1) ≤ 3) :
      WalkStops table entityCount offset index entities stop .shortLength
  | cut (tiles : Tiles table offset entities stop) (inside : stop ≤ table.data.length)
      (running : ∀ entity ∈ entities, entity.typeId ≠ typeEndOfTable)
      (room : stop + headerSize + 2 ≤ table.data.length)
      (length : ¬ (1 ≤ byteAt table.data (stop + 1) ∧ byteAt table.data (stop + 1) ≤ 3)) :
      WalkStops table entityCount offset index entities stop .cut

lemma WalkStops.cons {rest : TableWalk} (ho : entity.offset = offset) (hof : EntityOf table entity)
    (htype : entity.typeId ≠ typeEndOfTable)
    (h : WalkStops table entityCount (offset + entity.totalLength) (index + 1) rest.entities
      rest.stop rest.exit) :
    WalkStops table entityCount offset index (entity :: rest.entities) rest.stop rest.exit := by
  have hrun : ∀ {entities : List Entity}, (∀ e ∈ entities, e.typeId ≠ typeEndOfTable) →
      ∀ e ∈ entity :: entities, e.typeId ≠ typeEndOfTable := by
    intro entities hall e hm
    rcases List.mem_cons.mp hm with rfl | hm
    · exact htype
    · exact hall e hm
  obtain ⟨entities, stop, exit⟩ := rest
  cases h with
  | endOfTable tiles running found place whole type =>
    exact .endOfTable (.cons ho hof tiles) (hrun running) (by rw [found]; rfl) place whole type
  | declared tiles inside running counted reached =>
    refine .declared (.cons ho hof tiles) inside (hrun running) counted ?_
    rw [List.length_cons]
    omega
  | noRoom tiles inside running short =>
    exact .noRoom (.cons ho hof tiles) inside (hrun running) short
  | shortLength tiles inside running room length =>
    exact .shortLength (.cons ho hof tiles) inside (hrun running) room length
  | cut tiles inside running room length =>
    exact .cut (.cons ho hof tiles) inside (hrun running) room length

lemma entityCreate_truncated (hroom : offset + headerSize + 2 ≤ table.data.length)
    (h : entityCreate table offset = .error .truncated) :
    ¬ (1 ≤ byteAt table.data (offset + 1) ∧ byteAt table.data (offset + 1) ≤ 3) := by
  intro hshort
  have h1 : (table.data.drop offset).getD 1 0 = table.data.getD (offset + 1) 0 := by
    simp [List.getD_eq_getElem?_getD]
  have hlen : ¬ (table.data.drop offset).length < headerSize + 2 := by
    simp only [List.length_drop]
    omega
  have hne : ((table.data.drop offset).getD 1 0).toNat ≠ 0 := by
    rw [h1]
    exact Nat.one_le_iff_ne_zero.mp hshort.1
  have hsmall : ((table.data.drop offset).getD 1 0).toNat < headerSize := by
    rw [h1]
    exact Nat.lt_succ_of_le hshort.2
  unfold entityCreate at h
  simp only [if_neg hlen, if_neg hne, if_pos hsmall] at h
  cases h

lemma tableWalkFrom_stops (hf : table.data.length < fuel + offset)
    (ho : offset ≤ table.data.length) :
    WalkStops table entityCount offset index
      (tableWalkFrom table entityCount fuel offset index).entities
      (tableWalkFrom table entityCount fuel offset index).stop
      (tableWalkFrom table entityCount fuel offset index).exit := by
  induction fuel generalizing offset index with
  | zero => omega
  | succ fuel ih =>
    rw [tableWalkFrom]
    by_cases hcount : entityCount ≠ 0 ∧ entityCount ≤ index
    · rw [if_pos hcount]
      exact .declared .nil ho (by simp) hcount.1 hcount.2
    rw [if_neg hcount]
    by_cases hroom : table.length - offset < headerSize + 2
    · rw [if_pos hroom]
      have hshort : table.data.length < offset + headerSize + 2 := by
        simp only [Buffer.length] at hroom
        omega
      exact .noRoom .nil ho (by simp) hshort
    rw [if_neg hroom]
    have hleft : offset + headerSize + 2 ≤ table.data.length := by
      simp only [Buffer.length, headerSize] at hroom ⊢
      omega
    rcases entityCreate_cases table offset with ⟨entity, he, heo, hof⟩ | ⟨he, -⟩ | ⟨he, -, hb⟩
    · have hpos := hof.whole.total_le
      rw [heo] at hpos
      simp only [he]
      by_cases hend : entity.typeId = typeEndOfTable
      · rw [if_pos hend]
        exact .endOfTable .nil (by simp) rfl heo hof hend
      · rw [if_neg hend]
        refine (ih ?_ hpos.2).cons heo hof hend
        simp only [headerSize] at hpos
        omega
    · simp only [he]
      exact .cut .nil ho (by simp) hleft (entityCreate_truncated hleft he)
    · simp only [he]
      exact .shortLength .nil ho (by simp) hleft hb

lemma tableWalk_stops (table : Buffer) (entityCount : ℕ) :
    WalkStops table entityCount 0 0 (tableWalk table entityCount).entities
      (tableWalk table entityCount).stop (tableWalk table entityCount).exit :=
  tableWalkFrom_stops (by simp [Buffer.length]) (Nat.zero_le _)

lemma tableWalkFrom_take (hcount : entityCount ≠ 0) (hle : index ≤ entityCount) :
    (tableWalkFrom table entityCount fuel offset index).entities =
        (tableWalkFrom table 0 fuel offset index).entities.take (entityCount - index) ∧
      ((tableWalkFrom table 0 fuel offset index).entities.length ≤ entityCount - index →
        ((tableWalkFrom table entityCount fuel offset index).exit = .endOfTable ↔
          (tableWalkFrom table 0 fuel offset index).exit = .endOfTable)) := by
  induction fuel generalizing offset index with
  | zero => simp [tableWalkFrom]
  | succ fuel ih =>
    rw [tableWalkFrom, tableWalkFrom, if_neg (by simp : ¬ ((0 : ℕ) ≠ 0 ∧ 0 ≤ index))]
    by_cases hreached : entityCount ≤ index
    · have hzero : entityCount - index = 0 := by omega
      rw [if_pos ⟨hcount, hreached⟩, hzero, List.take_zero]
      refine ⟨rfl, fun hnil => ?_⟩
      rw [Nat.le_zero, List.length_eq_zero_iff] at hnil
      split_ifs at hnil ⊢ with hroom
      · simp
      · cases he : entityCreate table offset with
        | error e => cases e <;> simp
        | ok entity =>
          simp only [he] at hnil
          split_ifs at hnil
    · obtain ⟨left, hleft⟩ : ∃ left, entityCount - index = left + 1 :=
        ⟨entityCount - index - 1, by omega⟩
      rw [if_neg fun h => hreached h.2]
      by_cases hroom : table.length - offset < headerSize + 2
      · simp only [if_pos hroom]
        simp
      simp only [if_neg hroom]
      cases he : entityCreate table offset with
      | error e => cases e <;> simp
      | ok entity =>
        simp only
        by_cases hend : entity.typeId = typeEndOfTable
        · simp only [if_pos hend, hleft]
          simp
        · obtain ⟨htake, hexit⟩ := @ih (offset + entity.totalLength) (index + 1)
            (by omega)
          have hnext : entityCount - (index + 1) = left := by omega
          rw [hnext] at htake hexit
          simp only [if_neg hend, hleft, List.take_succ_cons, htake, true_and]
          exact fun hlen => hexit (by rw [List.length_cons] at hlen; omega)

variable (table) in
lemma tableWalk_take (hcount : entityCount ≠ 0) :
    (tableWalk table entityCount).entities =
        (tableWalk table 0).entities.take entityCount ∧
      ((tableWalk table 0).entities.length ≤ entityCount →
        ((tableWalk table entityCount).exit = .endOfTable ↔
          (tableWalk table 0).exit = .endOfTable)) := by
  have h := @tableWalkFrom_take table entityCount (table.length + 1) 0 0 hcount
    (Nat.zero_le entityCount)
  rwa [Nat.sub_zero] at h

end OpenDmi

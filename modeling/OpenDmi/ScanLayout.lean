import OpenDmi.ScanTiles

/-! Tables of one layout: the scan of the one registers what the scan of the other does, as far as
the places, the types, the handles, the lengths and the numbers of strings go. -/

namespace OpenDmi

open Bytes LinkedList

variable {table copy : Buffer} {strict : Bool} {entityCount fuel offset index : ℕ}
  {registry result other : Registry} {entity : Entity}

structure Shape where
  offset : ℕ
  typeId : ℕ
  handle : ℕ
  bodyLength : ℕ
  totalLength : ℕ
  stringCount : ℕ
  deriving DecidableEq

def entityShape (entity : Entity) : Shape :=
  ⟨entity.offset, entity.typeId, entity.handle, entity.bodyLength, entity.totalLength,
    entity.strings.length⟩

lemma finish_table (registry : Registry) (count : ℕ) (truncated : Bool) :
    (registryFinish registry count truncated).table = registry.table := rfl

lemma ScanInv.next (h : ScanInv table entityCount offset index registry)
    (hcount : ¬ (entityCount ≠ 0 ∧ entityCount ≤ index)) (ho : entity.offset = offset)
    (hof : EntityOf table entity) (hend : entity.typeId ≠ typeEndOfTable) :
    ScanInv table entityCount (offset + entity.totalLength) (index + 1)
      (registryPut registry entity).2 := by
  obtain ⟨-, hvalid, htable⟩ := h.put ho
  refine ⟨hvalid, htable ▸ h.tiles.snoc ho hof, ?_, fun h0 => ?_, fun other hm => ?_⟩
  · rw [htable, List.length_append, ← h.indexed]
    rfl
  · have := h.bounded h0
    omega
  · rcases List.mem_append.mp (htable ▸ hm) with hm | hm
    · exact h.running other hm
    · rw [List.mem_singleton.mp hm]
      exact hend

lemma entityCreate_plain {buffer : Buffer} {offset : ℕ}
    (h : entityCreate buffer offset = .ok entity) :
    entity.overlay = none ∧ entity.buffer = buffer ∧ entity.offset = offset ∧
      entity.spec = none := by
  simp only [entityCreate] at h
  generalize buffer.data.drop offset = data at h
  generalize (if (data.getD 1 0).toNat = 0 then headerSize else (data.getD 1 0).toNat) = body at h
  generalize (if (data.getD 1 0).toNat = 0 then typeEndOfTable
    else (data.getD 0 0).toNat) = type at h
  split_ifs at h
  cases hd : entityDecodeLength (data.drop body) with
  | none => simp [hd] at h
  | some found =>
    simp only [hd, Except.ok.injEq] at h
    subst h
    exact ⟨rfl, rfl, rfl, rfl⟩

lemma registryScanLoop_created (hi : ScanInv table entityCount offset index registry)
    (h : registryScanLoop strict table entityCount fuel offset index registry =
      some (true, result)) :
    ∃ added, result.table = registry.table ++ added ∧
      ∀ entity ∈ added, entityCreate table entity.offset = .ok entity := by
  induction fuel generalizing offset index registry with
  | zero => cases h
  | succ fuel ih =>
    rw [registryScanLoop] at h
    by_cases hcount : entityCount ≠ 0 ∧ entityCount ≤ index
    · rw [if_pos hcount] at h
      cases h
      exact ⟨[], by simp [finish_table], by simp⟩
    rw [if_neg hcount] at h
    by_cases hroom : table.length - offset < headerSize + 2
    · rw [if_pos hroom] at h
      cases h
      exact ⟨[], by simp [finish_table], by simp⟩
    rw [if_neg hroom] at h
    rcases entityCreate_cases table offset with ⟨entity, he, heo, hof⟩ | ⟨he, -⟩ | ⟨he, -, -⟩
    · obtain ⟨hp1, hp2, hp3⟩ := hi.put heo
      have hcreated : ∀ e ∈ [entity], entityCreate table e.offset = .ok e := by
        intro e hm
        rw [List.mem_singleton.mp hm, heo]
        exact he
      simp only [he, hp1, Bool.true_eq_false, if_false] at h
      split_ifs at h with hend
      · cases h
        exact ⟨[entity], by rw [finish_table, hp3], hcreated⟩
      · obtain ⟨added, htable, hadded⟩ := ih (hi.next hcount heo hof hend) h
        refine ⟨entity :: added, by rw [htable, hp3, List.append_assoc, List.singleton_append], ?_⟩
        intro e hm
        rcases List.mem_cons.mp hm with rfl | hm
        · exact hcreated e List.mem_cons_self
        · exact hadded e hm
    · simp only [he] at h
      cases h
      exact ⟨[], by simp [finish_table], by simp⟩
    · simp only [he] at h
      split_ifs at h
      · cases h
      · cases h
        exact ⟨[], by simp [finish_table], by simp⟩

lemma registryScan_created {capacity : ℕ}
    (h : registryScan strict table entityCount (registryCreate capacity) = some (true, result)) :
    ∀ entity ∈ result.table, entityCreate table entity.offset = .ok entity := by
  rw [registryScan] at h
  obtain ⟨added, htable, hadded⟩ :=
    registryScanLoop_created (scanInv_initial table entityCount capacity) h
  have hnil : (registryCreate capacity).table = [] := rfl
  rw [htable, hnil, List.nil_append]
  exact hadded

lemma entityCreate_error {error : EntityError}
    (hsame : copy.data.drop offset = table.data.drop offset)
    (h : entityCreate table offset = .error error) : entityCreate copy offset = .error error := by
  rw [entityCreate] at h ⊢
  simp only [hsame] at h ⊢
  split_ifs at h ⊢
  · exact h
  · exact h
  · exact h
  · cases hd : entityDecodeLength ((table.data.drop offset).drop headerSize) with
    | none =>
      simp only [hd] at h ⊢
      exact h
    | some found =>
      simp only [hd] at h
      cases h
  · exact h
  · exact h
  · cases hd : entityDecodeLength ((table.data.drop offset).drop
      ((table.data.drop offset).getD 1 0).toNat) with
    | none =>
      simp only [hd] at h ⊢
      exact h
    | some found =>
      simp only [hd] at h
      cases h

structure SameLayout (table copy : Buffer) (entities : List Entity) : Prop where
  length : copy.data.length = table.data.length
  created : ∀ entity ∈ entities, ∃ other, entityCreate copy entity.offset = .ok other ∧
    entityShape other = entityShape entity
  beyond : ∀ offset, (∀ entity ∈ entities, entity.offset + entity.totalLength ≤ offset) →
    copy.data.drop offset = table.data.drop offset

lemma registryScanLoop_lockstep (hi : ScanInv table entityCount offset index registry)
    (ho : ScanInv copy entityCount offset index other)
    (hshapes : other.table.map entityShape = registry.table.map entityShape)
    (h : registryScanLoop strict table entityCount fuel offset index registry =
      some (true, result))
    (hsame : SameLayout table copy result.table) :
    ∃ scanned, registryScanLoop strict copy entityCount fuel offset index other =
        some (true, scanned) ∧
      scanned.table.map entityShape = result.table.map entityShape := by
  obtain ⟨added, hadded, -⟩ := registryScanLoop_created hi h
  induction fuel generalizing offset index registry other added with
  | zero => cases h
  | succ fuel ih =>
    rw [registryScanLoop] at h ⊢
    have hlength : copy.length = table.length := hsame.length
    have hbeyond : result.table = registry.table →
        copy.data.drop offset = table.data.drop offset := by
      intro htable
      refine hsame.beyond offset fun entity hm => ?_
      rw [htable] at hm
      exact (hi.tiles.entity hm).2.2
    by_cases hcount : entityCount ≠ 0 ∧ entityCount ≤ index
    · rw [if_pos hcount] at h ⊢
      cases h
      exact ⟨_, rfl, hshapes⟩
    rw [if_neg hcount] at h ⊢
    rw [hlength]
    by_cases hroom : table.length - offset < headerSize + 2
    · rw [if_pos hroom] at h ⊢
      cases h
      exact ⟨_, rfl, hshapes⟩
    rw [if_neg hroom] at h ⊢
    rcases entityCreate_cases table offset with ⟨entity, he, heo, hof⟩ | ⟨he, -⟩ | ⟨he, -, -⟩
    · obtain ⟨hp1, hp2, hp3⟩ := hi.put heo
      simp only [he, hp1, Bool.true_eq_false, if_false] at h
      have hm : entity ∈ result.table := by
        split_ifs at h with hend
        · cases h
          rw [finish_table, hp3]
          exact List.mem_append_right _ (List.mem_singleton_self _)
        · obtain ⟨more, hmore, -⟩ := registryScanLoop_created (hi.next hcount heo hof hend) h
          rw [hmore, hp3]
          exact List.mem_append_left _ (List.mem_append_right _ (List.mem_singleton_self _))
      obtain ⟨found, hfound, hshape⟩ := hsame.created entity hm
      rw [heo] at hfound
      have hfo : found.offset = offset := (congrArg Shape.offset hshape).trans heo
      have htype : found.typeId = entity.typeId := congrArg Shape.typeId hshape
      have htotal : found.totalLength = entity.totalLength := congrArg Shape.totalLength hshape
      obtain ⟨hq1, hq2, hq3⟩ := ho.put hfo
      have hput : (registryPut other found).2.table.map entityShape =
          (registryPut registry entity).2.table.map entityShape := by
        rw [hq3, hp3, List.map_append, List.map_append, hshapes, List.map_singleton,
          List.map_singleton, hshape]
      simp only [hfound, hq1, Bool.true_eq_false, if_false, htype, htotal]
      split_ifs at h ⊢ with hend
      · cases h
        exact ⟨_, rfl, hput⟩
      · have hof' : EntityOf copy found := by
          rcases entityCreate_cases copy offset with ⟨e, hc, -, hof'⟩ | ⟨hc, -⟩ | ⟨hc, -, -⟩
          · rw [hfound] at hc
            cases hc
            exact hof'
          · rw [hfound] at hc
            cases hc
          · rw [hfound] at hc
            cases hc
        obtain ⟨more, hmore, -⟩ := registryScanLoop_created (hi.next hcount heo hof hend) h
        have hnext := ho.next hcount hfo hof' (htype.trans_ne hend)
        rw [htotal] at hnext
        exact ih (hi.next hcount heo hof hend) hnext hput h more hmore
    · simp only [he] at h
      cases h
      rw [entityCreate_error (hbeyond rfl) he]
      exact ⟨_, rfl, hshapes⟩
    · simp only [he] at h
      split_ifs at h with hstrict
      · cases h
      · cases h
        rw [entityCreate_error (hbeyond rfl) he]
        simp only [if_neg hstrict]
        exact ⟨_, rfl, hshapes⟩

end OpenDmi

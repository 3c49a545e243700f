import OpenDmi.AnonymizeWalk
import OpenDmi.Regions

namespace OpenDmi

open Bytes Occurrences

variable {cx : AnonymizeContext} {W : Memory → Prop} {entity : Entity} {anon : Anonymizer}

/-- What a structure makes the first pass write: a text in the string it was read from, bytes where
they were read, or a formatted area encoded again. -/
inductive Written (cx : AnonymizeContext) (W : Memory → Prop) (entity : Entity) : Patch Byte → Prop
  | text {string : StringEntry} {found : ℕ} {text : List Byte} : string ∈ entity.strings →
      OccursAt string.raw text found → text ≠ [] →
      Written cx W entity ⟨string.offset + found, anonymizeText cx.key text⟩
  | binary {info : Memory} {offset position keep : ℕ} : W info →
      (info.loadBinary offset).position = some position → (info.loadBinary offset).bytes ≠ [] →
      entity.offset + position + (info.loadBinary offset).bytes.length ≤ cx.source.length →
      Written cx W entity ⟨entity.offset + position,
        anonymizeBytes cx.key (info.loadBinary offset).bytes keep⟩
  | body {decoded : Decoded} {info : Memory} {body : List Byte} : cx.decoded entity = some decoded →
      entityEncode ⟨entitySource entity cx.version, .preserve, 0⟩ decoded.coding info = some body →
      body.length = entity.bodyLength → entity.offset + entity.bodyLength ≤ cx.source.length →
      Written cx W entity ⟨entity.offset, body⟩

lemma Written.inside (hof : EntityOf cx.source entity) {patch : Patch Byte}
    (h : Written cx W entity patch) :
    patch.offset + patch.bytes.length ≤ cx.source.data.length := by
  cases h with
  | text hm hoccurs hne =>
    have hin := (hof.string_in hm).inside
    have htotal := hof.whole.total_le.2
    have hlen := congrArg List.length hoccurs
    have hpos := List.length_pos_iff.mpr hne
    obtain ⟨k, -, hk⟩ := hof.whole.strings
    have hsum := hof.total
    have hbody := hof.body
    simp only [List.length_take, List.length_drop] at hlen
    simp only [anonymizeText_length]
    omega
  | binary _ _ _ hle =>
    rw [anonymizeBytes_length]
    exact hle
  | body _ _ hlen hle =>
    rw [hlen]
    exact hle

structure FirstPass (cx : AnonymizeContext) (W : Entity → Memory → Prop) (anon : Anonymizer) :
    Prop where
  values : ∀ value ∈ anon.values, value.replacement.length = value.data.length
  patches : ∀ patch ∈ anon.patches, ∃ entity ∈ cx.registry.table, Written cx (W entity) entity patch

structure Tiled (cx : AnonymizeContext) (stop : ℕ) : Prop where
  valid : cx.registry.Valid
  tiles : Tiles cx.source 0 cx.registry.table stop

variable {stop : ℕ} {V : Entity → Memory → Prop}

lemma FirstPass.inside (ht : Tiled cx stop) (h : FirstPass cx V anon) :
    Patch.Inside cx.source.data.length anon.patches := by
  intro patch hp
  obtain ⟨entity, hm, hw⟩ := h.patches patch hp
  exact hw.inside (ht.tiles.entity hm).1

lemma FirstPass.table_length (ht : Tiled cx stop) (h : FirstPass cx V anon) :
    (anonymizeTable cx anon).length = cx.source.data.length :=
  Patch.applyAll_length (h.inside ht)

lemma FirstPass.write (h : FirstPass cx V anon) (hm : entity ∈ cx.registry.table)
    {patch : Patch Byte} (hw : Written cx (V entity) entity patch) :
    FirstPass cx V { anon with patches := anon.patches ++ [patch] } := by
  refine ⟨h.values, fun other ho => ?_⟩
  rcases List.mem_append.mp ho with ho | ho
  · exact h.patches other ho
  · rw [List.mem_singleton.mp ho]
    exact ⟨entity, hm, hw⟩

lemma FirstPass.add (h : FirstPass cx V anon) {data replacement : List Byte} {propagate : Bool}
    (hlen : replacement.length = data.length) :
    FirstPass cx V (anonymizeAdd data replacement propagate anon) := by
  rw [anonymizeAdd]
  split_ifs
  · exact h
  · refine ⟨fun value hv => ?_, h.patches⟩
    obtain ⟨value, hm, rfl⟩ := List.mem_map.mp hv
    have hkept := h.values value hm
    split_ifs
    · exact hkept
    · exact hkept
  · refine ⟨fun value hv => ?_, h.patches⟩
    rcases List.mem_append.mp hv with hv | hv
    · exact h.values value hv
    · rw [List.mem_singleton.mp hv]
      exact hlen

lemma strstr_occurs {raw text : List Byte} {found : ℕ} (h : strstr raw text = some found) :
    OccursAt raw text found := by
  simpa using List.find?_some h

lemma FirstPass.rawString (h : FirstPass cx V anon) (hm : entity ∈ cx.registry.table)
    {entry : Option ℕ} {text : List Byte} (hne : text ≠ []) :
    FirstPass cx V (anonymizeRawString entity entry text (anonymizeText cx.key text) anon) := by
  rw [anonymizeRawString]
  cases hs : entry.bind fun i => entity.strings[i]? with
  | none => exact h
  | some string =>
    obtain ⟨i, -, hi⟩ := Option.bind_eq_some_iff.mp hs
    cases hf : strstr string.raw text with
    | none =>
      simp only [hf]
      exact h
    | some found =>
      simp only [hf]
      exact h.write hm (.text (List.mem_of_getElem? hi) (strstr_occurs hf) hne)

lemma FirstPass.memberString (h : FirstPass cx V anon) (hm : entity ∈ cx.registry.table)
    (text : Ref) : FirstPass cx V (anonymizeMemberString cx entity text anon) := by
  cases text with
  | null => exact h
  | data position bytes => exact h
  | text entry text =>
    rw [anonymizeMemberString]
    split_ifs with hplaceholder hblank
    · exact h
    · exact h
    · exact (h.rawString hm fun h0 => hblank (.inl h0)).add (anonymizeText_length _ _)

lemma FirstPass.memberBinary (h : FirstPass cx V anon) (hm : entity ∈ cx.registry.table)
    {attr : Attribute} {info : Memory} (hw : V entity info) (offset : ℕ) :
    FirstPass cx V (anonymizeMemberBinary cx entity attr (info.loadBinary offset) anon) := by
  rw [anonymizeMemberBinary]
  by_cases hblank : (info.loadBinary offset).bytes = [] ∨
    anonymizeIsBlank (info.loadBinary offset).bytes = true
  · rw [if_pos hblank]
    exact h
  rw [if_neg hblank]
  cases hp : (info.loadBinary offset).position with
  | none => exact h
  | some position =>
    simp only
    by_cases hpast : entity.offset + position + (info.loadBinary offset).bytes.length >
      cx.source.length
    · rw [if_pos hpast]
      exact h
    · rw [if_neg hpast]
      exact (h.write hm (.binary hw hp (fun h0 => hblank (.inl h0)) (not_lt.mp hpast))).add
        (anonymizeBytes_length _ _ _)

lemma anonymizeFind_some {source result saved : List Byte} {length pos : ℕ}
    (h : anonymizeFind source result saved length = some pos) : pos + saved.length ≤ length := by
  have hfound := List.find?_some h
  simp only [Bool.and_eq_true, decide_eq_true_eq] at hfound
  exact hfound.1.1

lemma FirstPass.collect (ht : Tiled cx stop) (h : FirstPass cx V anon)
    (hm : entity ∈ cx.registry.table) (saved : List (List Byte)) :
    FirstPass cx V (anonymizeCollect cx entity saved anon) := by
  have hbody : entity.bodyLength ≤ ((anonymizeTable cx anon).drop entity.offset).length := by
    obtain ⟨hof, -, -⟩ := ht.tiles.entity hm
    have htotal := hof.whole.total_le.2
    have hsum := hof.total
    rw [List.length_drop, h.table_length ht]
    omega
  rw [anonymizeCollect]
  generalize (anonymizeTable cx anon).drop entity.offset = result at hbody ⊢
  induction saved generalizing anon with
  | nil => exact h
  | cons bytes saved ih =>
    rw [List.foldl_cons]
    apply ih
    split_ifs
    · exact h
    · cases hf : anonymizeFind (cx.source.data.drop entity.offset) result bytes
        entity.bodyLength with
      | none => exact h
      | some pos =>
        have hle := anonymizeFind_some hf
        exact h.add (window_length (by omega))

lemma FirstPass.encode (ht : Tiled cx stop) (h : FirstPass cx V anon)
    (hm : entity ∈ cx.registry.table) {decoded : Decoded} (hd : cx.decoded entity = some decoded)
    {info : Memory} {saved : List (List Byte)} {result : Anonymizer}
    (he : anonymizeEncode cx entity decoded.coding info saved anon = some result) :
    FirstPass cx V result := by
  rw [anonymizeEncode] at he
  split_ifs at he
  · obtain rfl := Option.some.inj he
    exact h
  obtain ⟨written, hwritten, rfl⟩ := Option.map_eq_some_iff.mp he
  rw [anonymizeWrite] at hwritten
  cases hbody : entityEncode ⟨entitySource entity cx.version, .preserve, 0⟩ decoded.coding info with
  | none =>
    rw [hbody] at hwritten
    cases hwritten
  | some body =>
    simp only [hbody] at hwritten
    split_ifs at hwritten with hbad
    obtain ⟨hlen, hle⟩ := not_or.mp hbad
    obtain rfl := Option.some.inj hwritten
    exact (h.write hm (.body hd hbody (not_not.mp hlen) (not_lt.mp hle))).collect ht hm saved

structure MemoryClosed (W : Memory → Prop) : Prop where
  number : ∀ m offset n, W m → W (m.setNumber offset n)
  block : ∀ m offset number pointer, W m → m.pointer offset = .elements number pointer →
    W ⟨number, pointer⟩
  setPointer : ∀ m offset b, W m → W b → W (m.setPointer offset (.elements b.number b.pointer))

lemma MemoryClosed.memberWrite (hc : MemoryClosed W) {m : Memory} (h : W m) (offset : ℕ)
    (bytes : List Byte) : W (memberWrite m offset bytes) := by
  rw [OpenDmi.memberWrite]
  split_ifs
  · exact hc.number _ _ _ h
  · exact hc.number _ _ _ (hc.number _ _ _ h)

lemma MemoryClosed.memberScalar (hc : MemoryClosed W) (cx : AnonymizeContext) (attr : Attribute)
    (offset : ℕ)    {s : AnonymizeWalk × Memory} (h : W s.2) :
    (anonymizeMemberScalar cx attr offset s).1.anon = s.1.anon ∧
      W (anonymizeMemberScalar cx attr offset s).2 := by
  rw [anonymizeMemberScalar]
  simp only
  split_ifs
  · exact ⟨rfl, h⟩
  · exact ⟨rfl, h⟩
  · exact ⟨rfl, hc.memberWrite h _ _⟩

lemma visit_keeps (hc : MemoryClosed (V entity)) (hm : entity ∈ cx.registry.table) :
    WalkKeeps (anonymizeVisit cx entity) (fun walk => FirstPass cx V walk.anon) (V entity) where
  block := hc.block
  setPointer := hc.setPointer
  visit attr offset s t hs h := by
    rw [anonymizeVisit] at h
    split_ifs at h
    · exact Option.some.inj h ▸ hs
    · exact Option.some.inj h ▸ hs
    · cases htype : attr.type with
      | string =>
        simp only [htype, Option.some.injEq] at h
        subst h
        exact ⟨hs.1.memberString hm _, hs.2⟩
      | binary =>
        simp only [htype, Option.some.injEq] at h
        subst h
        exact ⟨hs.1.memberBinary hm hs.2 _, hs.2⟩
      | uuid =>
        simp only [htype, Option.some.injEq] at h
        subst h
        obtain ⟨hanon, hw⟩ := hc.memberScalar cx attr offset hs.2
        exact ⟨hanon.symm ▸ hs.1, hw⟩
      | integer =>
        simp only [htype, Option.some.injEq] at h
        subst h
        obtain ⟨hanon, hw⟩ := hc.memberScalar cx attr offset hs.2
        exact ⟨hanon.symm ▸ hs.1, hw⟩
      | struct =>
        simp only [htype, Option.some.injEq] at h
        exact h ▸ hs
      | handle =>
        simp only [htype, Option.some.injEq] at h
        exact h ▸ hs
      | variant =>
        simp only [htype, Option.some.injEq] at h
        exact h ▸ hs
      | other =>
        simp only [htype, Option.some.injEq] at h
        exact h ▸ hs

lemma FirstPass.structure_written (ht : Tiled cx stop) (hc : ∀ entity, MemoryClosed (V entity))
    (hv : ∀ entity ∈ cx.registry.table, ∀ decoded, cx.decoded entity = some decoded →
      V entity decoded.info)
    (h : FirstPass cx V anon) (hm : entity ∈ cx.registry.table) {result : Anonymizer}
    (he : anonymizeEntity cx anon entity = some result) : FirstPass cx V result := by
  rw [anonymizeEntity] at he
  cases hd : cx.decoded entity with
  | none =>
    rw [hd] at he
    exact Option.some.inj he ▸ h
  | some decoded =>
    rw [hd] at he
    obtain ⟨walked, hwalked, he⟩ := Option.bind_eq_some_iff.mp he
    obtain ⟨hpass, -⟩ := attributesWalk_inv (visit_keeps (hc entity) hm) _ _ _ _
      ⟨h, hv entity hm decoded hd⟩ hwalked
    simp only at he
    split_ifs at he
    · exact hpass.encode ht hm hd he
    · exact Option.some.inj he ▸ hpass

lemma foldlM_inv {σ α : Type} {step : σ → α → Option σ} {I : σ → Prop} {items : List α}
    (hstep : ∀ s item t, item ∈ items → I s → step s item = some t → I t) {s t : σ} (hs : I s)
    (h : items.foldlM step s = some t) : I t := by
  induction items generalizing s with
  | nil =>
    rw [List.foldlM_nil] at h
    exact Option.some.inj h ▸ hs
  | cons item items ih =>
    rw [List.foldlM_cons] at h
    obtain ⟨middle, hmiddle, h⟩ := Option.bind_eq_some_iff.mp h
    exact ih (fun s item t hi => hstep s item t (List.mem_cons_of_mem _ hi))
      (hstep s item middle List.mem_cons_self hs hmiddle) h

lemma registryVisit_eq {registry : Registry} {fuel n : ℕ} {iter : RegistryIter}
    (hi : IterInv registry none n iter) (hf : registry.table.length < n + fuel) :
    registryVisit registry fuel iter = registry.table.drop n := by
  induction fuel generalizing n iter with
  | zero => rw [registryVisit, List.drop_of_length_le (by omega)]
  | succ fuel ih =>
    obtain ⟨hnext, hhas, hinv⟩ := registryIterNext_spec hi
    have hall : registry.table.filter (filterAccepts none) = registry.table :=
      List.filter_eq_self.mpr fun _ _ => rfl
    rw [hall] at hnext
    rw [registryVisit, hhas, hnext]
    by_cases hn : n < registry.table.length
    · rw [List.getElem?_eq_getElem hn, Option.isSome_some, if_pos rfl, ih hinv (by omega),
        Option.toList_some, List.singleton_append, ← List.drop_eq_getElem_cons hn]
    · rw [List.getElem?_eq_none (by omega), List.drop_of_length_le (by omega)]
      rfl

lemma Tiled.visited (ht : Tiled cx stop) : anonymizeVisited cx = cx.registry.table := by
  rw [anonymizeVisited, registryVisit_eq <| iterInv_initialize ht.valid none, List.drop_zero]
  simp [Registry.table]

lemma firstPass (ht : Tiled cx stop) (hc : ∀ entity, MemoryClosed (V entity))
    (hv : ∀ entity ∈ cx.registry.table, ∀ decoded, cx.decoded entity = some decoded →
      V entity decoded.info)
    (h : anonymizeEntities cx = some anon) : FirstPass cx V anon := by
  rw [anonymizeEntities, ht.visited] at h
  exact foldlM_inv (fun s entity t hm hs he => hs.structure_written ht hc hv hm he) ⟨by simp, by simp⟩ h

end OpenDmi

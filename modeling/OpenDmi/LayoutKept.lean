import OpenDmi.Layout

namespace OpenDmi

open Bytes Occurrences

variable {cx : AnonymizeContext} {first anon : Anonymizer} {table copy : Buffer}
  {entity other : Entity} {entities : List Entity} {start stop x : ℕ}

lemma Tiles.unique (h : Tiles table start entities stop) (he : entity ∈ entities)
    (ho : other ∈ entities) (hx : entity.offset ≤ x ∧ x < entity.offset + entity.totalLength)
    (hx' : other.offset ≤ x ∧ x < other.offset + other.totalLength) : entity = other := by
  by_contra hne
  have hapart : entities.Pairwise Entity.Apart := h.apart.imp .inl
  rcases hapart.forall he ho hne with hab | hab <;> omega

def Created (cx : AnonymizeContext) : Prop :=
  ∀ entity ∈ cx.registry.table, entityCreate cx.source entity.offset = .ok entity

lemma scan_created {strict : Bool} {entityCount capacity : ℕ}
    (h : registryScan strict cx.source entityCount (registryCreate capacity) =
      some (true, cx.registry)) : Created cx :=
  registryScan_created h

lemma Created.body (hc : Created cx) (hm : entity ∈ cx.registry.table) (version : ℕ) :
    SourceOk (entitySource entity version) ∧
      (entitySource entity version).body =
        window cx.source.data entity.offset entity.bodyLength := by
  obtain ⟨hplain, hbuffer, -⟩ := entityCreate_plain (hc entity hm)
  refine ⟨entitySource_ok (hc entity hm), ?_⟩
  simp [entitySource, entityBuffer, entityOffset, hplain, hbuffer]

lemma encoderFinish_header {source : Source} {version : ℕ} {state : EncodeState}
    {body : List Byte} (hs : SourceOk source)
    (h : encoderFinish ⟨source, .preserve, version⟩ state = some body)
    (hlen : body.length = source.body.length) : ∀ i < headerSize, body[i]? = source.body[i]? := by
  rw [encoderFinish] at h
  split_ifs at h with hshort
  obtain rfl := Option.some.inj h
  have hwritten : state.written.length = source.body.length := by
    rw [← hlen, patch_length (by rw [encoderHeader_length]; omega)]
  intro i hi
  have hsource : encoderHeader ⟨source, .preserve, version⟩ source.body.length =
      source.body.take headerSize := encoderHeader_source hs
  have htake : (source.body.take headerSize).length = headerSize := by
    rw [List.length_take, min_eq_left hs.long]
  rw [hwritten, hsource, getElem?_patch_inside (Nat.zero_le _) (Nat.zero_le _) (by omega),
    Nat.sub_zero, List.getElem?_take, if_pos hi]

lemma entityEncode_finish {encoder : Encoder} {coding : Coding} {info : Memory} {body : List Byte}
    (h : entityEncode encoder coding info = some body) :
    ∃ state, encoderFinish encoder state = some body := by
  cases coding with
  | fields fields =>
    rw [entityEncode, fieldsEncode] at h
    obtain ⟨state, -, h⟩ := Option.bind_eq_some_iff.mp h
    exact ⟨_, h⟩
  | handler encode =>
    rw [entityEncode] at h
    obtain ⟨state, -, h⟩ := Option.bind_eq_some_iff.mp h
    exact ⟨_, h⟩

def decodedWithin (entity : Entity) : Memory → Prop := Memory.Within entity.bodyLength

lemma Written.cases (hc : Created cx) (ht : Tiled cx stop) (hm : entity ∈ cx.registry.table)
    {patch : Patch Byte} (h : Written cx (decodedWithin entity) entity patch)
    (hx : patch.covers x = true) :
    (∃ string ∈ entity.strings, string.offset ≤ x ∧ x < string.offset + string.raw.length ∧
      patch.bytes[x - patch.offset]? ≠ some 0) ∨
    (entity.offset + headerSize ≤ x ∧ x < entity.offset + entity.bodyLength) ∨
    (entity.offset ≤ x ∧ x < entity.offset + headerSize ∧
      patch.bytes[x - patch.offset]? = cx.source.data[x]?) := by
  have hcovers := Patch.covers_iff.mp hx
  cases h with
  | text hs hoccurs hne =>
    rename_i string found text
    have hlen := congrArg List.length hoccurs
    simp only [List.length_take, List.length_drop] at hlen
    simp only [anonymizeText_length] at hcovers
    have hpos := List.length_pos_iff.mpr hne
    refine .inl ⟨string, hs, by omega, by omega, fun h0 => ?_⟩
    have hin := (ht.tiles.entity hm).1.string_in hs
    have hnonzero : ∀ b ∈ text, b ≠ 0 := by
      intro b hb
      rw [← hoccurs] at hb
      exact hin.nonzero b (List.mem_of_mem_drop (List.mem_of_mem_take hb))
    exact anonymizeChars_ne_zero _ hnonzero 0 (List.mem_of_getElem? h0) rfl
  | binary hw hp hne hle =>
    rename_i info offset position keep
    right
    left
    have hwithin := hw offset
    simp only [anonymizeBytes_length] at hcovers
    rw [Memory.loadBinary] at hp hne hcovers
    cases hr : info.pointer offset with
    | elements number pointer =>
      rw [hr] at hne
      exact absurd rfl hne
    | ref r =>
      rw [hr] at hp hne hwithin hcovers
      cases hwithin with
      | ref hwithin =>
        cases r with
        | null => exact absurd rfl hne
        | text => exact absurd rfl hne
        | data found bytes =>
          obtain rfl : found = some position := hp
          obtain ⟨hlo, hhi⟩ := hwithin
          simp only [Pointer.toRef, List.length_take] at hcovers
          omega
  | body hd he hlen hle =>
    simp only [hlen] at hcovers
    by_cases hpast : entity.offset + headerSize ≤ x
    · exact .inr (.inl ⟨hpast, hcovers.2⟩)
    · obtain ⟨state, hfinish⟩ := entityEncode_finish he
      obtain ⟨hok, hbody⟩ := hc.body hm cx.version
      have hwindow : (entitySource entity cx.version).body.length = entity.bodyLength := by
        rw [hbody, window_length hle]
      have hbyte := encoderFinish_header hok hfinish (hlen.trans hwindow.symm)
        (x - entity.offset) (by omega)
      refine .inr (.inr ⟨hcovers.1, by omega, ?_⟩)
      rw [hbyte, hbody, getElem?_window, if_pos (by omega)]
      congr 1
      omega

end OpenDmi

import OpenDmi.AttributeFormat
import OpenDmi.AttributeTree
import OpenDmi.Overlay
import OpenDmi.RegistryTable

universe u

namespace OpenDmi

open LinkedList

structure StringProperty where
  ident : ℕ
  value : Option (List Byte)

structure EntityOverlay where
  source : ℕ
  index : ℕ
  entry : AdditionalEntry

/-- What is known of a structure, whose body is in the table. The name and the attributes are those
of its specification. -/
structure EntityRecord where
  entity : Entity
  inside : 0 < entity.bodyLength ∧ entity.offset + entity.bodyLength ≤ entity.buffer.data.length
  level : ℕ
  state : ℕ
  name : List Byte
  code : List Byte
  attributes : List AttributeSpec
  info : Option Memory
  properties : List StringProperty
  overlays : List EntityOverlay

def versionNoLevel : ℕ := 0

structure Format (m : Type → Type u) where
  dumpStart : Option (m Bool)
  entry : m Bool
  tableStart : Option (m Bool)
  entityStart : EntityRecord → m Bool
  entityAttrsStart : Option (EntityRecord → m Bool)
  entityAttr : EntityRecord → Memory → AttributeSpec → m Bool
  entityAttrsEnd : Option (EntityRecord → m Bool)
  entityProperties : EntityRecord → m Bool
  entityOverlays : Option (EntityRecord → m Bool)
  entityData : EntityRecord → m Bool
  entityStrings : EntityRecord → m Bool
  entityEnd : EntityRecord → m Bool
  tableEnd : Option (m Bool)
  dumpEnd : Option (m Bool)

variable {m : Type → Type u} [Monad m]

def handle (handler : Option (m Bool)) : m Bool :=
  match handler with
  | none => pure true
  | some handler => handler

def attributeIsResolved (attr : AttributeSpec) (info : Memory) : Bool :=
  attr.desc.kind ≠ .variant ||
    (variantFind (attributeSelector attr.desc info 0) attr.variants 0 none).isSome

/-- Attributes of a level above the one of the structure are not printed, and neither are the ones
no variant of which matches. -/
def attributeIsPrinted (record : EntityRecord) (info : Memory) (attr : AttributeSpec) : Bool :=
  !(attr.desc.params.level != versionNoLevel && record.level < attr.desc.params.level) &&
    attributeIsResolved attr info

def shownInfo (dump : Bool) (record : EntityRecord) : Option Memory :=
  if dump then none else record.info

def printEntity (format : Format m) (dump : Bool) (record : EntityRecord) : m Bool :=
  format.entityStart record <&&>
  (match shownInfo dump record with
    | some info =>
      handle (format.entityAttrsStart.map (· record)) <&&>
      (record.attributes.allM fun attr =>
        if attributeIsPrinted record info attr then format.entityAttr record info attr
        else pure true) <&&>
      handle (format.entityAttrsEnd.map (· record)) <&&>
      (if record.properties.isEmpty then pure true else format.entityProperties record) <&&>
      (if record.overlays.isEmpty then pure true
        else handle (format.entityOverlays.map (· record)))
    | none =>
      if record.entity.typeId ≠ typeEndOfTable then
        format.entityData record <&&> format.entityStrings record
      else pure true) <&&>
  format.entityEnd record

def printEntities (print : ℕ → m Bool) (registry : Registry) : ℕ → RegistryIter → m Bool
  | 0, _ => pure true
  | fuel + 1, iter => match registryIterNext registry iter with
    | (none, _) => pure true
    | (some _, iter) => match iter.position with
      | none => pure true
      | some i => print i <&&> printEntities print registry fuel iter

def printBody (format : Format m) (dump : Bool) (filter : Filter) (registry : Registry)
    (record : ℕ → EntityRecord) : m Bool :=
  handle format.dumpStart <&&>
  format.entry <&&>
  handle format.tableStart <&&>
  printEntities (fun i => printEntity format dump (record i)) registry (registry.allocated + 1)
    (registryIterInitialize (some filter)) <&&>
  handle format.tableEnd <&&>
  handle format.dumpEnd

/-- The calls each of the handlers makes, where a value which has no text leaves a gap. -/
structure FormatCalls (ε : Type) where
  dumpStart : List (Option ε)
  entry : List (Option ε)
  tableStart : List (Option ε)
  entityStart : EntityRecord → List (Option ε)
  entityAttrsStart : EntityRecord → List (Option ε)
  entityAttr : EntityRecord → Memory → AttributeSpec → List (Option ε)
  entityAttrsEnd : EntityRecord → List (Option ε)
  entityProperties : EntityRecord → List (Option ε)
  entityOverlays : EntityRecord → List (Option ε)
  entityData : EntityRecord → List (Option ε)
  entityStrings : EntityRecord → List (Option ε)
  entityEnd : EntityRecord → List (Option ε)
  tableEnd : List (Option ε)
  dumpEnd : List (Option ε)

section Calls

variable {ε : Type} (calls : FormatCalls ε)

def contentCalls (dump : Bool) (record : EntityRecord) : List (Option ε) :=
  match shownInfo dump record with
  | some info =>
    calls.entityAttrsStart record ++
    ((record.attributes.filter (attributeIsPrinted record info)).flatMap
      (calls.entityAttr record info) ++
    (calls.entityAttrsEnd record ++
    ((if record.properties.isEmpty then [] else calls.entityProperties record) ++
    (if record.overlays.isEmpty then [] else calls.entityOverlays record))))
  | none =>
    if record.entity.typeId ≠ typeEndOfTable then
      calls.entityData record ++ calls.entityStrings record
    else []

def recordCalls (dump : Bool) (record : EntityRecord) : List (Option ε) :=
  calls.entityStart record ++ (contentCalls calls dump record ++ calls.entityEnd record)

def printedNumbers (filter : Filter) (registry : Registry) : List ℕ :=
  (List.range registry.allocated).filter fun i => filterMatch filter (registry.entity i)

def bodyCalls (dump : Bool) (filter : Filter) (registry : Registry) (record : ℕ → EntityRecord) :
    List (Option ε) :=
  calls.dumpStart ++ (calls.entry ++ (calls.tableStart ++
    ((printedNumbers filter registry).flatMap (fun i => recordCalls calls dump (record i)) ++
      (calls.tableEnd ++ calls.dumpEnd))))

end Calls

section Plays

variable {ε : Type} (call : ε → m Bool) {format : Format m} {calls : FormatCalls ε}

def plays (events : List (Option ε)) : m Bool := (Script.upTo events).play call

structure Format.Plays (format : Format m) (calls : FormatCalls ε) : Prop where
  dumpStart : handle format.dumpStart = plays call calls.dumpStart
  entry : format.entry = plays call calls.entry
  tableStart : handle format.tableStart = plays call calls.tableStart
  entityStart record : format.entityStart record = plays call (calls.entityStart record)
  entityAttrsStart record :
    handle (format.entityAttrsStart.map (· record)) = plays call (calls.entityAttrsStart record)
  entityAttr record info attr (h : attributeIsResolved attr info = true) :
    format.entityAttr record info attr = plays call (calls.entityAttr record info attr)
  entityAttrsEnd record :
    handle (format.entityAttrsEnd.map (· record)) = plays call (calls.entityAttrsEnd record)
  entityProperties record :
    format.entityProperties record = plays call (calls.entityProperties record)
  entityOverlays record :
    handle (format.entityOverlays.map (· record)) = plays call (calls.entityOverlays record)
  entityData record : format.entityData record = plays call (calls.entityData record)
  entityStrings record : format.entityStrings record = plays call (calls.entityStrings record)
  entityEnd record : format.entityEnd record = plays call (calls.entityEnd record)
  tableEnd : handle format.tableEnd = plays call calls.tableEnd
  dumpEnd : handle format.dumpEnd = plays call calls.dumpEnd

variable [LawfulMonad m]

@[simp] lemma plays_nil : plays call ([] : List (Option ε)) = pure true := Script.play_done_nil

lemma plays_cons (e : ε) (events : List (Option ε)) :
    plays call (some e :: events) = (call e <&&> plays call events) := Script.play_upTo_cons e events

lemma plays_append (events rest : List (Option ε)) :
    plays call (events ++ rest) = (plays call events <&&> plays call rest) :=
  Script.play_upTo_append events rest

lemma plays_single (e : ε) : plays call [some e] = call e := by
  rw [plays_cons, plays_nil, Script.andM_true]

lemma plays_missing (events : List (Option ε)) : plays call (none :: events) = pure false :=
  Script.play_stopped

lemma plays_flatMap {α : Type} (f : α → List (Option ε)) (items : List α) :
    plays call (items.flatMap f) = items.allM fun a => plays call (f a) :=
  Script.play_upTo_flatMap f items

lemma allM_filter {α : Type} (p : α → Bool) (f : α → m Bool) (items : List α) :
    (items.filter p).allM f = items.allM fun a => if p a then f a else pure true := by
  induction items with
  | nil => rfl
  | cons a items ih =>
    rw [Script.allM_cons, ← ih, List.filter_cons]
    split_ifs with hp
    · rw [Script.allM_cons]
    · rw [Script.true_andM]

omit [LawfulMonad m] in
lemma allM_congr {α : Type} {f g : α → m Bool} {items : List α} (h : ∀ a ∈ items, f a = g a) :
    items.allM f = items.allM g := by
  induction items with
  | nil => rfl
  | cons a items ih =>
    rw [Script.allM_cons, Script.allM_cons, h a List.mem_cons_self,
      ih fun b hb => h b (List.mem_cons_of_mem _ hb)]

lemma printEntity_plays (h : format.Plays call calls) (dump : Bool) (record : EntityRecord) :
    printEntity format dump record = plays call (recordCalls calls dump record) := by
  rw [printEntity, recordCalls, plays_append, plays_append, h.entityStart, h.entityEnd]
  congr 2
  rw [contentCalls]
  cases shownInfo dump record with
  | some info =>
    simp only [plays_append, h.entityAttrsStart, h.entityAttrsEnd, plays_flatMap, allM_filter]
    congr 2
    · apply allM_congr
      intro attr _
      by_cases hprinted : attributeIsPrinted record info attr = true
      · rw [if_pos hprinted, if_pos hprinted]
        exact h.entityAttr record info attr (Bool.and_eq_true_iff.mp hprinted).2
      · rw [if_neg hprinted, if_neg hprinted]
    · congr 2
      · split_ifs
        · rw [plays_nil]
        · exact h.entityProperties record
      · split_ifs
        · rw [plays_nil]
        · exact h.entityOverlays record
  | none =>
    by_cases hend : record.entity.typeId ≠ typeEndOfTable
    · simp only [if_pos hend, plays_append, h.entityData, h.entityStrings]
    · simp only [if_neg hend, plays_nil]

omit [LawfulMonad m] in
lemma printEntities_numbers (print : ℕ → m Bool) (registry : Registry) (fuel : ℕ)
    (iter : RegistryIter) :
    printEntities print registry fuel iter = (registryNumbers registry fuel iter).allM print := by
  induction fuel generalizing iter with
  | zero => rfl
  | succ fuel ih =>
    rw [printEntities, registryNumbers, registryIterNext]
    split_ifs
    · rfl
    · cases find registry.seqNext (iterMatch registry iter.filter) (registry.allocated + 1)
          (iterStart registry iter) with
      | none => rfl
      | some i =>
        simp only [Option.toList_some, List.singleton_append, Script.allM_cons, ih]

end Plays

lemma registryNumbers_filter {registry : Registry} {filter : Option Filter} {fuel : ℕ}
    {iter : RegistryIter} {rest : List ℕ} (hf : iter.filter = filter) (hd : iter.isDone = false)
    (hl : Links registry.seqNext (iterStart registry iter) rest)
    (hlen : rest.length ≤ registry.allocated) (hfuel : rest.length < fuel) :
    registryNumbers registry fuel iter = rest.filter (iterMatch registry filter) := by
  induction fuel generalizing iter rest with
  | zero => omega
  | succ fuel ih =>
    have hfind := hl.find_eq (iterMatch registry filter) (hlen.trans (Nat.le_succ _))
    rw [registryNumbers, registryIterNext]
    simp only [hd, hf, hfind, Bool.false_eq_true, if_false]
    cases hmatch : rest.find? (iterMatch registry filter) with
    | none =>
      have hnone := List.find?_eq_none.mp hmatch
      exact (List.filter_eq_nil_iff.mpr hnone).symm
    | some i =>
      obtain ⟨hi, before, after, rfl, hno⟩ := List.find?_eq_some_iff_append.mp hmatch
      have hbefore : before.filter (iterMatch registry filter) = [] := by
        rw [List.filter_eq_nil_iff]
        intro j hj
        simpa using hno j hj
      simp only [List.length_append, List.length_cons] at hlen hfuel
      have hrest := @ih ⟨some i, filter, false⟩ after rfl rfl hl.split (by omega) (by omega)
      simp only [Option.toList_some, List.singleton_append]
      rw [hrest, List.filter_append, hbefore, List.nil_append, List.filter_cons_of_pos hi]

lemma registryNumbers_printed {registry : Registry} (h : registry.Valid) (filter : Filter) :
    registryNumbers registry (registry.allocated + 1) (registryIterInitialize (some filter)) =
      printedNumbers filter registry :=
  registryNumbers_filter rfl rfl h.sequence (by simp) (by simp)

variable [LawfulMonad m] in
lemma printBody_plays {ε : Type} {call : ε → m Bool} {format : Format m} {calls : FormatCalls ε}
    (h : format.Plays call calls) {registry : Registry} (hregistry : registry.Valid) (dump : Bool)
    (filter : Filter) (record : ℕ → EntityRecord) :
    printBody format dump filter registry record =
      plays call (bodyCalls calls dump filter registry record) := by
  rw [printBody, bodyCalls, plays_append, plays_append, plays_append, plays_append, plays_append,
    h.dumpStart, h.entry, h.tableStart, h.tableEnd, h.dumpEnd, printEntities_numbers,
    registryNumbers_printed hregistry, plays_flatMap]
  simp only [printEntity_plays call h]

end OpenDmi

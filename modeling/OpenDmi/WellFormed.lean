import OpenDmi.FieldEncode

/-! Well-formed lists of fields: the members of distinct fields are apart, handlers are consistent,
and extended fields follow the plain fields they replace the values of. -/

namespace OpenDmi

def Field.members (version : ℕ) (field : Field) : List Member :=
  match field.type with
  | .array => [⟨field.member.offset, 8⟩, field.params.counter, field.params.countMember,
      field.params.strideMember]
  | .vector => [⟨field.member.offset, field.member.size * field.params.count⟩]
  | .group => [field.params.present]
  | .binary => if field.params.length = lengthMember then [⟨field.member.offset, 8⟩]
    else [field.member]
  | .bits => if fieldIsDefined field version then [field.member] else []
  | .offset | .skip | .pad | .preset => []
  | _ => [field.member]

def Member.Apart (a b : Member) : Prop :=
  a.offset + a.size ≤ b.offset ∨ b.offset + b.size ≤ a.offset

instance (a b : Member) : Decidable (a.Apart b) := inferInstanceAs (Decidable (_ ∨ _))

def Field.IsPlain (field : Field) : Prop :=
  field.params.extended = false ∧ field.type = .integer

instance (field : Field) : Decidable field.IsPlain := inferInstanceAs (Decidable (_ ∧ _))

def Field.Extends (extended plain : Field) : Prop :=
  extended.params.extended = true ∧ plain.IsPlain ∧ extended.member = plain.member

instance (e p : Field) : Decidable (e.Extends p) := inferInstanceAs (Decidable (_ ∧ _ ∧ _))

def Field.reads (version : ℕ) (field : Field) : List Member :=
  if field.type = .binary ∧ field.params.length = lengthMember then [⟨field.member.offset, 16⟩]
  else field.members version

/-- A field leaves alone what a field before is written from, and a group its presence. -/
def Separate (version : ℕ) (f g : Field) : Prop :=
  g.Extends f ∨ (∀ a ∈ f.reads version, ∀ b ∈ g.members version, a.Apart b) ∧
    (f.type = .group → ∀ a ∈ f.members version, ∀ b ∈ g.reads version, a.Apart b)

instance (version : ℕ) (f g : Field) : Decidable (Separate version f g) :=
  inferInstanceAs (Decidable (_ ∨ _))

def IsNested (field : Field) : Prop :=
  field.type = .array ∨ field.type = .vector ∨ field.type = .struct

instance (field : Field) : Decidable (IsNested field) := inferInstanceAs (Decidable (_ ∨ _))

def Field.Decodes (field : Field) (raw : ℕ) (value : Value) : Prop :=
  fieldApply field { FieldData.empty with number := raw } = some [(0, value)]

/-- Handlers come in pairs, and one which decodes sets the member and nothing else. -/
structure HandlersOk (field : Field) : Prop where
  paired : field.params.decode.isSome → field.params.encode.isSome
  single : ∀ decode, field.params.decode = some decode → ∀ data writes,
    decode data = some writes → ∃ value, writes = [(0, value)]

def EncodesAll (field decoded : Field) : Prop :=
  ∀ raw < 256 ^ decoded.params.length, ∀ value, decoded.Decodes raw value →
    ∀ info base, info.holds base value = true → (modelData field info base).isSome

def RoundTrips (field : Field) : Prop :=
  ∀ raw < 256 ^ field.params.length, ∀ value, field.Decodes raw value →
    ∀ info base, info.holds base value = true → ∃ data, modelData field info base = some data ∧
      decodesInto field data info base = true ∧ dataFits field data = true

structure ArrayOk (field : Field) : Prop where
  counter : field.params.counter.size = 8
  apart : [⟨field.member.offset, 8⟩, field.params.counter, field.params.countMember,
    field.params.strideMember].Pairwise Member.Apart
  unbounded : field.params.countLength = 0 → field.params.stride ≠ 0 ∧
    field.params.strideLength = 0 ∧ fieldArrayIsSkipped field field.params.stride = false
  countMember : memberIsPresent field.params.countMember = true →
    field.params.countLength ≤ field.params.countMember.size
  strideMember : memberIsPresent field.params.strideMember = true →
    field.params.strideLength ≤ field.params.strideMember.size
  fixed : field.params.strideLength = 0 → field.params.stride = 0 ∨
    fieldArrayIsSkipped field field.params.stride = true ∨
    (0 < fieldSize field ∧ fieldSize field ≤ field.params.stride)
  declared : field.params.strideLength ≠ 0 →
    0 < fieldSize field ∧ fieldSize field ≤ field.params.strideMinimum
  bounded : 256 ^ field.params.countLength * field.params.strideMinimum ≤ 2 ^ 64

structure ArrayMembers (field : Field) : Prop where
  counter : field.params.counter.size = 8
  apart : [⟨field.member.offset, 8⟩, field.params.counter, field.params.countMember,
    field.params.strideMember].Pairwise Member.Apart
  countMember : memberIsPresent field.params.countMember = true →
    field.params.countLength ≤ field.params.countMember.size
  strideMember : memberIsPresent field.params.strideMember = true →
    field.params.strideLength ≤ field.params.strideMember.size

lemma ArrayOk.members {field : Field} (h : ArrayOk field) : ArrayMembers field :=
  ⟨h.counter, h.apart, h.countMember, h.strideMember⟩

def FieldOk (field : Field) : Prop :=
  (field.type ≠ .bits → field.params.from = 0 ∧ field.params.before = 0) ∧
  match field.type with
  | .integer => memberIsPresent field.member ∧ HandlersOk field
  | .string => memberIsPresent field.member ∧ field.params.length = 1 ∧ HandlersOk field
  | .binary => memberIsPresent field.member ∧ field.params.length ≠ 0 ∧ HandlersOk field ∧
    (field.params.decode = none → field.member.size = 16) ∧
    (field.params.length = lengthRest ∨ field.params.length = lengthMember →
      field.params.decode = none)
  | .uuid => field.member.size = 16 ∧ field.params.length = 16
  | .bits => 0 < field.params.bits ∧ field.params.bits ≤ 56 ∧ HandlersOk field
  | .array => ArrayOk field
  | .bcd => False
  | _ => True

/-- Ranges of bits are closed by a padding, whose unit is a whole number of bytes, before any
other field; `taken` bits of the unit are taken before the list. -/
def BitsClosed (version : ℕ) : ℕ → List Field → Prop
  | taken, [] => taken = 0
  | taken, field :: rest =>
    match field.type with
    | .bits =>
      BitsClosed version (if fieldIsDefined field version then taken + field.params.bits else taken)
        rest
    | .pad => 0 < field.params.bits ∧ field.params.bits % 8 = 0 ∧
      (taken % field.params.bits ≠ 0 → field.params.bits - taken % field.params.bits ≤ 56) ∧
      BitsClosed version 0 rest
    | _ => taken = 0 ∧ BitsClosed version 0 rest

structure ExtendedOk (fields : List Field) : Prop where
  plain : ∀ f ∈ fields, f.params.extended = false → memberIsPresent f.params.when = false
  integer : ∀ e ∈ fields, e.params.extended = true → e.type = .integer
  governing : ∀ e ∈ fields, e.params.extended = true →
    ∃ p ∈ fields, p.IsPlain ∧ p.member.offset = fieldWhenOffset e
  sameWhen : ∀ e ∈ fields, ∀ e' ∈ fields, e.params.extended = true → e'.params.extended = true →
    fieldWhenOffset e = fieldWhenOffset e' → e.params.whenRaw = e'.params.whenRaw
  noChain : ∀ e ∈ fields, ∀ e' ∈ fields, e.params.extended = true → e'.params.extended = true →
    fieldWhenOffset e ≠ e.member.offset → fieldWhenOffset e' ≠ e.member.offset
  alone : ∀ e ∈ fields, e.params.extended = true → fieldWhenOffset e ≠ e.member.offset →
    ∀ f ∈ fields, f.member.offset = e.member.offset → f.params.extended = true ∨ e.Extends f
  order : fields.Pairwise fun f g => f.params.extended = true → g.IsPlain →
    g.member.offset ≠ f.member.offset ∧ g.member.offset ≠ fieldWhenOffset f
  governed : fields.Pairwise fun f g => f.IsPlain → g.IsPlain →
    fieldGoverns fields f g.member.offset = false
  sameGroup : ∀ before group after, fields = before ++ group :: after → group.type = .group →
    ∀ p ∈ before, ∀ q ∈ after, p.IsPlain → q.IsPlain →
      fieldGoverns fields q p.member.offset = false
  law : ∀ e ∈ fields, ∀ p ∈ fields, e.Extends p → RoundTrips p ∧ EncodesAll p e

structure ListOk (version size : ℕ) (fields : List Field) : Prop where
  ok : ∀ field ∈ fields, FieldOk field
  inside : ∀ field ∈ fields, ∀ member ∈ field.reads version, member.offset + member.size ≤ size
  preset : ∀ field ∈ fields, field.params.absent.isSome → memberIsPresent field.member = true →
    field.member.offset < size
  separate : fields.Pairwise (Separate version)
  closed : BitsClosed version 0 fields
  extended : ExtendedOk fields

inductive WellFormed (version : ℕ) : ℕ → List Field → Prop
  | intro {size : ℕ} {fields : List Field} (ok : ListOk version size fields)
      (nested : ∀ field ∈ fields, IsNested field →
        WellFormed version field.member.size field.fields) : WellFormed version size fields

end OpenDmi

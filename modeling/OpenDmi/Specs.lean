import OpenDmi.Anonymize
import OpenDmi.Scan

namespace OpenDmi

open Bytes

def fieldString (offset : ℕ) : Field := ⟨⟨offset, 8⟩, .string, { length := 1 }, []⟩

def fieldUuid (offset : ℕ) : Field := ⟨⟨offset, 16⟩, .uuid, { length := 16 }, []⟩

def fieldBinary (offset length : ℕ) : Field := ⟨⟨offset, 16⟩, .binary, { length := length }, []⟩

def fieldGroup (since : ℕ) : Field := ⟨.null, .group, { since := since }, []⟩

def attributeOf (value : Member) (type : AttributeType) (isPrivate : Bool) : Attribute :=
  ⟨value, type, .null, 0, none, none, isPrivate, false, none, .null, 0, false, [], []⟩

structure DeclaredSpec where
  minimumVersion : ℕ
  minimumLength : ℕ
  fields : List Field
  attributes : List Attribute

def entityDecode (spec : Entity → Option DeclaredSpec) (version : ℕ) (entity : Entity) :
    Option Decoded :=
  match spec entity with
  | none => none
  | some spec =>
    if entity.bodyLength < spec.minimumLength then none
    else
      let result := fieldsDecode (entitySource entity version) spec.fields spec.minimumVersion
      if result.1 then some ⟨result.2.memory, spec.attributes, .fields spec.fields⟩ else none

def systemSpec : DeclaredSpec where
  minimumVersion := 0x020000
  minimumLength := 8
  fields := [fieldString 0, fieldString 8, fieldString 16, fieldString 24, fieldGroup 0x020100,
    fieldUuid 32, ⟨⟨48, 4⟩, .integer, { length := 1 }, []⟩, fieldGroup 0x020400, fieldString 56,
    fieldString 64]
  attributes := [attributeOf ⟨0, 8⟩ .string false, attributeOf ⟨8, 8⟩ .string false,
    attributeOf ⟨16, 8⟩ .string false, attributeOf ⟨24, 8⟩ .string true,
    attributeOf ⟨32, 16⟩ .uuid true,
    { attributeOf ⟨48, 4⟩ .other false with unknown := some [2, 0, 0, 0] },
    attributeOf ⟨56, 8⟩ .string false, attributeOf ⟨64, 8⟩ .string false]

def firewireGuidSpec : DeclaredSpec where
  minimumVersion := 0
  minimumLength := 0x36
  fields := [fieldBinary 0 8, fieldBinary 16 40, ⟨⟨32, 1⟩, .integer, { length := 1 }, []⟩,
    fieldString 40]
  attributes := [attributeOf ⟨40, 8⟩ .string false, attributeOf ⟨16, 16⟩ .binary true,
    attributeOf ⟨32, 1⟩ .integer false]

def systemOnly (entity : Entity) : Option DeclaredSpec :=
  if entity.typeId = 1 then some systemSpec else none

def scanned (table : Buffer) : Registry :=
  ((registryScan false table 0 (registryCreate 0)).map (·.2)).getD (registryCreate 0)

def declaredContext (spec : Entity → Option DeclaredSpec) (table : Buffer) : AnonymizeContext where
  source := table
  registry := scanned table
  overlaid := false
  version := 0x030000
  decoded := entityDecode spec 0x030000
  key := ⟨0, 0⟩

lemma scanned_eq {table : Buffer}
    (h : (registryScan false table 0 (registryCreate 0)).map (·.1) = some true) :
    registryScan false table 0 (registryCreate 0) = some (true, scanned table) := by
  obtain ⟨result, hresult, hsuccess⟩ := Option.map_eq_some_iff.mp h
  rw [scanned, hresult, ← hsuccess]
  rfl

end OpenDmi

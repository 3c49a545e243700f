import OpenDmi.Entity

namespace OpenDmi

open Bytes

structure Signature where
  length : ℕ
  offset : ℕ
  bytes : Option (List Byte)
  string : ℕ
  text : Option (List Byte)
  noStrings : Bool
  deriving DecidableEq

structure SpecParams where
  type : ℕ
  minimumVersion : ℕ
  minimumLength : ℕ
  signature : Option Signature
  deriving DecidableEq

structure TypeCandidates where
  plain : Option ℕ
  signed : List ℕ
  deriving DecidableEq

/-- Specifications are named by numbers, the way the library names them by their addresses. -/
structure Context where
  strict : Bool
  typeMap : ℕ → TypeCandidates
  specParams : ℕ → SpecParams

def typeIdMax : ℕ := 255

def entityRawString (entity : Entity) (num : ℕ) : Option (List Byte) :=
  if num = 0 then none else (entity.strings[num - 1]?).map StringEntry.raw

def entitySignatureMatch (entity : Entity) : Option Signature → Bool
  | none => false
  | some signature =>
    (signature.length == 0 || entity.bodyLength == signature.length) &&
    (match signature.bytes with
      | none => true
      | some bytes =>
        signature.offset + bytes.length ≤ entity.bodyLength &&
          window (entityBuffer entity).data (entityOffset entity + signature.offset) bytes.length
            == bytes) &&
    (signature.string == 0 ||
      match entityRawString entity signature.string, signature.text with
      | some text, some expected => text == expected
      | _, _ => false) &&
    !(signature.noStrings && entity.strings.length != 0)

def entitySpecSelect (context : Context) (entity : Entity) : Option ℕ :=
  if entity.typeId > typeIdMax then none
  else
    let candidates := context.typeMap entity.typeId
    match candidates.signed.find?
        (fun spec => entitySignatureMatch entity (context.specParams spec).signature) with
    | some spec => some spec
    | none => candidates.plain

def entityType (context : Context) (entity : Entity) : Option ℕ :=
  (entity.spec.orElse fun _ => entitySpecSelect context entity).map
    fun spec => (context.specParams spec).type

end OpenDmi

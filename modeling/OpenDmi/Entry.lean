import OpenDmi.Bytes

namespace OpenDmi

open Bytes

def dmiVersion (major minor revision : ℕ) : ℕ :=
  major % 256 * 65536 + minor % 256 * 256 + revision % 256

def versionMajor (version : ℕ) : ℕ := version / 65536 % 256
def versionMinor (version : ℕ) : ℕ := version / 256 % 256
def versionRevision (version : ℕ) : ℕ := version % 256

inductive EntryFormat
  | v30
  | v21
  | legacy
  deriving DecidableEq

structure EntrySpec where
  anchor : List Byte
  version : ℕ
  minLength : ℕ
  deriving DecidableEq

def legacySize : ℕ := 15
def v21Size : ℕ := 31
def v30Size : ℕ := 24
def iepsOffset : ℕ := 16

def EntryFormat.spec : EntryFormat → EntrySpec
  | .v30 => ⟨[0x5F, 0x53, 0x4D, 0x33, 0x5F], dmiVersion 3 0 0, v30Size⟩
  | .v21 => ⟨[0x5F, 0x53, 0x4D, 0x5F], dmiVersion 2 1 0, v21Size - 1⟩
  | .legacy => ⟨[0x5F, 0x44, 0x4D, 0x49, 0x5F], dmiVersion 2 0 0, legacySize⟩

structure EntryState where
  format : Option EntryFormat
  entryRevision : ℕ
  smbiosVersion : ℕ
  addressSize : ℕ
  entryLength : ℕ
  entityCount : ℕ
  entityMaxSize : ℕ
  tableAreaAddress : ℕ
  tableAreaSize : ℕ
  tableAreaMaxSize : ℕ
  deriving DecidableEq

def EntryState.initial (smbiosVersion : ℕ) : EntryState :=
  ⟨none, 0, smbiosVersion, 0, 0, 0, 0, 0, 0, 0⟩

def checksumTest (data : List Byte) (length : ℕ) : Bool := byteSum (data.take length) == 0

def loadAt (data : List Byte) (offset length : ℕ) : ℕ := leLoad (window data offset length)

def entryDecodeLegacy (state : EntryState) (data : List Byte) : Option EntryState :=
  let complete := legacySize ≤ data.length
  if complete ∧ checksumTest data legacySize = false then none
  else
    let entryVersion := if complete then loadAt data 14 1 else 0
    some { state with
      smbiosVersion := if entryVersion ≠ 0 ∧ state.smbiosVersion = 0
        then dmiVersion (entryVersion / 16) (entryVersion % 16) 0 else state.smbiosVersion
      addressSize := if state.addressSize = 0 then 4 else state.addressSize
      entryLength := legacySize
      entityCount := loadAt data 12 2
      tableAreaAddress := loadAt data 8 4
      tableAreaMaxSize := loadAt data 6 2
      tableAreaSize := loadAt data 6 2 }

def entryDecodeV21 (state : EntryState) (data : List Byte) : Option EntryState :=
  let entryLength := loadAt data 5 1
  if entryLength > data.length then none
  else if entryLength < v21Size - 1 then none
  else if checksumTest data entryLength = false then none
  else
    -- The entry point of 0x1E bytes given at its exact length cuts the intermediate one
    let iepsLength := min (data.length - iepsOffset) legacySize
    (entryDecodeLegacy
      { state with
        entryRevision := loadAt data 10 1
        smbiosVersion := dmiVersion (loadAt data 6 1) (loadAt data 7 1) 0
        addressSize := 4
        entityMaxSize := loadAt data 8 2 }
      (window data iepsOffset iepsLength)).map
        fun state => { state with entryLength := entryLength }

def entryDecodeV30 (state : EntryState) (data : List Byte) : Option EntryState :=
  let entryLength := loadAt data 6 1
  if entryLength > data.length then none
  else if entryLength < v30Size then none
  else if checksumTest data entryLength = false then none
  else some { state with
    entryRevision := loadAt data 10 1
    smbiosVersion := dmiVersion (loadAt data 7 1) (loadAt data 8 1) (loadAt data 9 1)
    addressSize := 8
    entryLength := entryLength
    tableAreaAddress := loadAt data 16 8
    tableAreaMaxSize := loadAt data 12 4 }

def EntryFormat.decode : EntryFormat → EntryState → List Byte → Option EntryState
  | .v30 => entryDecodeV30
  | .v21 => entryDecodeV21
  | .legacy => entryDecodeLegacy

def EntryFormat.accepts (format : EntryFormat) (data : List Byte) : Bool :=
  format.spec.minLength ≤ data.length && format.spec.anchor.isPrefixOf data

def entryDecode (state : EntryState) (data : List Byte) : Option EntryState :=
  if data.length = 0 then none
  else match [EntryFormat.v30, .v21, .legacy].find? (·.accepts data) with
    | none => none
    | some format => format.decode { state with format := some format } data

/-- Versions some firmware gives the minor number of in another form. -/
def versionFixup (version : ℕ) : ℕ :=
  if versionMajor version ≠ 2 then version
  else if versionMinor version = 0x1F ∨ versionMinor version = 0x21 then
    dmiVersion (versionMajor version) 3 (versionRevision version)
  else if versionMinor version = 0x33 then
    dmiVersion (versionMajor version) 6 (versionRevision version)
  else version

lemma versionMajor_dmiVersion (a b c : ℕ) : versionMajor (dmiVersion a b c) = a % 256 := by
  simp only [versionMajor, dmiVersion]
  omega

lemma versionMinor_dmiVersion (a b c : ℕ) : versionMinor (dmiVersion a b c) = b % 256 := by
  simp only [versionMinor, dmiVersion]
  omega

lemma dmiVersion_parts {version : ℕ} (h : version < 2 ^ 24) :
    dmiVersion (versionMajor version) (versionMinor version) (versionRevision version) =
      version := by
  simp only [dmiVersion, versionMajor, versionMinor, versionRevision]
  omega

lemma dmiVersion_lt (a b c : ℕ) : dmiVersion a b c < 2 ^ 24 := by
  simp only [dmiVersion]
  omega

@[simp] lemma versionFixup_idem (version : ℕ) :
    versionFixup (versionFixup version) = versionFixup version := by
  by_cases h2 : versionMajor version = 2
  · by_cases h3 : versionMinor version = 0x1F ∨ versionMinor version = 0x21
    · simp [versionFixup, h2, h3, versionMajor_dmiVersion, versionMinor_dmiVersion]
    · by_cases h6 : versionMinor version = 0x33
      · simp [versionFixup, h2, h6, versionMajor_dmiVersion, versionMinor_dmiVersion]
      · simp only [versionFixup, h2, ne_eq, not_true_eq_false, if_false, h3, h6]
  · simp [versionFixup, h2]

lemma versionFixup_lt {version : ℕ} (h : version < 2 ^ 24) : versionFixup version < 2 ^ 24 := by
  unfold versionFixup
  split_ifs
  · exact h
  · exact dmiVersion_lt _ _ _
  · exact dmiVersion_lt _ _ _
  · exact h

end OpenDmi

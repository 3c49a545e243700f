import OpenDmi.Entry
import OpenDmi.Scan

/-! Opening a context, saving its table as a dump, and opening the dump. -/

namespace OpenDmi

open Bytes

def entryMaxSize : ℕ := 0x20
def tableMaxSize : ℕ := 16 * 1024 * 1024

inductive EntrySource
  | data (bytes : List Byte)
  | version (major minor revision : ℕ)
  deriving DecidableEq

structure ContextState where
  entry : Option (List Byte)
  entryState : EntryState
  table : Buffer
  registry : Registry

def ContextState.smbiosVersion (state : ContextState) : ℕ := state.entryState.smbiosVersion

/-- The steps which follow the scan: overlays, extensions, decoding and linking. They are told
by the flags of the context, the version, the table and the structures found in it. -/
abbrev ReadStructures := Bool → ℕ → Buffer → Registry → Bool

def openReadEntry : EntrySource → Option (Option (List Byte) × EntryState)
  | .version major minor revision =>
    some (none, EntryState.initial (dmiVersion major minor revision))
  | .data bytes => (entryDecode (EntryState.initial 0) bytes).map fun state => (some bytes, state)

def dmiOpen (strict : Bool) (readStructures : ReadStructures) (source : EntrySource)
    (table : Buffer) : Option ContextState :=
  match openReadEntry source with
  | none => none
  | some (entry, entryState) =>
    let entryState := { entryState with smbiosVersion := versionFixup entryState.smbiosVersion }
    if table.length = 0 then none
    else match registryScan strict table entryState.entityCount (registryCreate 0) with
      | some (true, registry) =>
        if readStructures strict entryState.smbiosVersion table registry then
          some ⟨entry, entryState, table, registry⟩
        else none
      | _ => none

def entrySetChecksum (entry : List Byte) (offset checksum length : ℕ) : List Byte :=
  let zeroed := patch entry (offset + checksum) [0]
  patch zeroed (offset + checksum) [-byteSum (window zeroed offset length)]

def zeros (length : ℕ) : List Byte := List.replicate length 0

def dumpEntryGenerate (smbiosVersion tableLength : ℕ) : Option (List Byte) :=
  if tableLength > 0xFFFFFFFF then none
  else
    let data := EntryFormat.v30.spec.anchor ++ [0] ++ leStore 1 v30Size ++
      leStore 1 (versionMajor smbiosVersion) ++ leStore 1 (versionMinor smbiosVersion) ++
      leStore 1 (versionRevision smbiosVersion) ++ leStore 1 1 ++ [0] ++ leStore 4 tableLength ++
      leStore 8 entryMaxSize ++ zeros (entryMaxSize - v30Size)
    some (entrySetChecksum data 0 5 v30Size)

def dumpEntryRelocate (format : EntryFormat) (data : List Byte) : List Byte :=
  let entry := data ++ zeros (entryMaxSize - data.length)
  let (entry, length) := match format with
    | .v30 =>
      let length := loadAt entry 6 1
      (entrySetChecksum (patch entry 16 (leStore 8 entryMaxSize)) 0 5 length, length)
    | .v21 =>
      -- The intermediate entry point is written completely, whatever the length declared
      let length := max (loadAt entry 5 1) v21Size
      (entrySetChecksum (patch entry (iepsOffset + 8) (leStore 4 entryMaxSize)) iepsOffset 5
        legacySize, length)
    | .legacy =>
      (entrySetChecksum (patch entry 8 (leStore 4 entryMaxSize)) 0 5 legacySize, legacySize)
  entry.take length ++ zeros (entryMaxSize - length)

def dumpEntryBuild (state : ContextState) : Option (List Byte) :=
  match state.entry, state.entryState.format with
  | some data, some format => some (dumpEntryRelocate format data)
  | _, _ => dumpEntryGenerate state.smbiosVersion state.table.length

def saveCheck (state : ContextState) : Bool :=
  match state.entry with
  | none => true
  | some data => data.length ≤ entryMaxSize

def dmiSave (state : ContextState) : Option (List Byte) :=
  if saveCheck state then (dumpEntryBuild state).map (· ++ state.table.data) else none

def dumpCheck (dump : List Byte) : Bool :=
  entryMaxSize + headerSize ≤ dump.length &&
    [EntryFormat.v30, .v21, .legacy].any fun format => format.spec.anchor.isPrefixOf dump

def dmiOpenDump (strict : Bool) (readStructures : ReadStructures) (address : ℕ)
    (dump : List Byte) : Option ContextState :=
  if dump.length > entryMaxSize + tableMaxSize then none
  else if dumpCheck dump = false then none
  else dmiOpen strict readStructures (.data (dump.take entryMaxSize))
    ⟨address, dump.drop entryMaxSize⟩

end OpenDmi

import OpenDmi.Bytes
import OpenDmi.LinkedList
import OpenDmi.Entity
import OpenDmi.Spec
import OpenDmi.Registry
import OpenDmi.RegistryRuns
import OpenDmi.RegistryTable
import OpenDmi.Scan
import OpenDmi.ScanTiles
import OpenDmi.Entry
import OpenDmi.Save
import OpenDmi.SaveEntry
import OpenDmi.SaveRelocate
import OpenDmi.SaveLoad
import OpenDmi.SaveRoundTrip
import OpenDmi.SaveClaim
import OpenDmi.BitStream
import OpenDmi.Field
import OpenDmi.FieldDecode
import OpenDmi.Encoder
import OpenDmi.FieldEncode
import OpenDmi.FieldMemory
import OpenDmi.DecodeSteps
import OpenDmi.WellFormed
import OpenDmi.DecodeRun
import OpenDmi.DecodeArrays
import OpenDmi.DecodeFrame
import OpenDmi.DecodeKeeps
import OpenDmi.Lockstep
import OpenDmi.EncodeValue
import OpenDmi.Choices
import OpenDmi.DecodeHeld
import OpenDmi.EncodeChoices
import OpenDmi.EncodeBits
import OpenDmi.EncodeLists
import OpenDmi.EncodeArrays
import OpenDmi.EncodeOne
import OpenDmi.EncodeStep
import OpenDmi.EncodeRun
import OpenDmi.FieldRoundTrip
import OpenDmi.Occurrences
import OpenDmi.Patches
import OpenDmi.Attribute
import OpenDmi.Replacement
import OpenDmi.Anonymize
import OpenDmi.Specs
import OpenDmi.AnonymizeWalk
import OpenDmi.SearchOrder
import OpenDmi.Regions
import OpenDmi.FirstPass
import OpenDmi.Propagation
import OpenDmi.Leak
import OpenDmi.Consistency
import OpenDmi.DecodeRule
import OpenDmi.ScanLayout
import OpenDmi.Within
import OpenDmi.Layout
import OpenDmi.LayoutKept
import OpenDmi.LayoutClaim
import OpenDmi.Overlay
import OpenDmi.OverlayRuns
import OpenDmi.Link
import OpenDmi.LinkRuns
import OpenDmi.TypeMap
import OpenDmi.TypeCandidates
import OpenDmi.TypeMapRuns
import OpenDmi.OpenStructures
import OpenDmi.OpenReads
import OpenDmi.OpenBinding
import OpenDmi.Parts
import OpenDmi.MgmtController
import OpenDmi.PartFlags
import OpenDmi.MgmtDecode
import OpenDmi.MgmtRoundTrip
import OpenDmi.Truncation
import OpenDmi.TruncatedArray
import OpenDmi.BcdFields
import OpenDmi.Handlers
import OpenDmi.HandlerPairs
import OpenDmi.StringSet
import OpenDmi.Linkability
import OpenDmi.AdditionalInfo
import OpenDmi.StructureBytes
import OpenDmi.AdditionalInfoAgain
import OpenDmi.DellTokens
import OpenDmi.DellTokensRead
import OpenDmi.DellTokensRoundTrip
import OpenDmi.EarlyEnd
import OpenDmi.DecodeAttempt
import OpenDmi.DecodeAttemptAgain
import OpenDmi.AnonymizeInPlace
import OpenDmi.UndoLog
import OpenDmi.AnonymizeLive
import OpenDmi.AnonymizeUndone
import OpenDmi.TableWalk
import OpenDmi.Lint
import OpenDmi.LintTable
import OpenDmi.LintLink
import OpenDmi.LintOverlay
import OpenDmi.MappedRange
import OpenDmi.LintMemory
import OpenDmi.Agreement
import OpenDmi.LinkEffects
import OpenDmi.LintRecords
import OpenDmi.StringMarks
import OpenDmi.StringReads
import OpenDmi.LintString
import OpenDmi.Base64
import OpenDmi.Numeral
import OpenDmi.ScaledDecimal
import OpenDmi.Ipv6Text
import OpenDmi.FirmwareInventory
import OpenDmi.Utf8
import OpenDmi.MgmtUtf16
import OpenDmi.Utf8Repair
import OpenDmi.EntryAccept
import OpenDmi.FirstUse
import OpenDmi.StringNumbers
import OpenDmi.PlatformModules
import OpenDmi.MgmtWindows
import OpenDmi.RingQueue
import OpenDmi.ErrorQueue
import OpenDmi.MemoryCells
import OpenDmi.DataBuffer
import OpenDmi.Cursor
import OpenDmi.DataReader
import OpenDmi.DataWriter
import OpenDmi.WordBits
import OpenDmi.BitRanges
import OpenDmi.CallScript
import OpenDmi.DocumentTree
import OpenDmi.AttributeVisit
import OpenDmi.AttributeTree
import OpenDmi.MemberWalk
import OpenDmi.AttributeFormat
import OpenDmi.Export
import OpenDmi.FormatNumber
import OpenDmi.ExportDocument
import OpenDmi.ExportJson
import OpenDmi.ExportYaml
import OpenDmi.PatternSymbols
import OpenDmi.YamlTypes
import OpenDmi.YamlNumbers
import OpenDmi.ExportValues
import OpenDmi.MarkupTree
import OpenDmi.ExportXml
import OpenDmi.PrintErrors
import OpenDmi.CommandOptions
import OpenDmi.LintValues
import OpenDmi.LintFaults
import OpenDmi.MessageFormat
import OpenDmi.FindEntry
import OpenDmi.ParseNumber
import OpenDmi.FilterOptions
import OpenDmi.LintEntry
import OpenDmi.LintEntryDump
import OpenDmi.LintStringText
import OpenDmi.LintTableTypes

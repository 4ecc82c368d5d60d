import Voidwalk.Library.Bytes
import Voidwalk.Library.CountingReader
import Voidwalk.Library.Runs
import Voidwalk.Library.InterleavedThread
import Voidwalk.Library.ObjectTable
import Voidwalk.Library.Loops
import Voidwalk.Library.SumText
import Voidwalk.Library.Brackets
import Voidwalk.Library.Chunks
import Voidwalk.Library.SegmentedSearch
import Voidwalk.Library.TwoReaders
import Voidwalk.Library.MaximalRuns
import Voidwalk.MappedFile
import Voidwalk.ChunkStorage
import Voidwalk.ChunkRefinement
import Voidwalk.OpcodeRows
import Voidwalk.OneByteTables
import Voidwalk.TwoByteTables
import Voidwalk.ThreeByteTables
import Voidwalk.RowResolution
import Voidwalk.InstructionRendering
import Voidwalk.InstructionDecoding
import Voidwalk.DecodeLineContract
import Voidwalk.SelfDelimiting
import Voidwalk.EncodedValues
import Voidwalk.PrefixedOpcodes
import Voidwalk.NearBranches
import Voidwalk.OpcodesWithoutModRM
import Voidwalk.EffectiveAddress
import Voidwalk.MemoryText
import Voidwalk.MemoryRows
import Voidwalk.BracketedText
import Voidwalk.OperandBytes
import Voidwalk.OpcodeBytes
import Voidwalk.MemoryOperand
import Voidwalk.Disassembly
import Voidwalk.SectionListing
import Voidwalk.SweepRefinement
import Voidwalk.SweepTiling
import Voidwalk.SweepProgress
import Voidwalk.SweepCompleteness
import Voidwalk.BlockTables
import Voidwalk.SweepPublication
import Voidwalk.FileFields
import Voidwalk.ElfSectionTable
import Voidwalk.ElfLayout
import Voidwalk.ElfTableReads
import Voidwalk.RepeatedDecode
import Voidwalk.SectionBounds
import Voidwalk.FileTypeDetection
import Voidwalk.PeSectionTable
import Voidwalk.PeTableReads
import Voidwalk.HeaderParsing
import Voidwalk.WorkBounds
import Voidwalk.AnalysisSession
import Voidwalk.SessionStanding
import Voidwalk.OpenStages
import Voidwalk.WorkerHandOff
import Voidwalk.FrontendRows
import Voidwalk.GuiSession
import Voidwalk.GuiViewInvariant
import Voidwalk.MainWindow
import Voidwalk.TuiSession
import Voidwalk.TuiFrames
import Voidwalk.GuiSymbols
import Voidwalk.SymbolAgreement
import Voidwalk.RawFallback
import Voidwalk.SymbolExtraction
import Voidwalk.AddressSearch
import Voidwalk.ParallelDecoding
import Voidwalk.PrefixEffects
import Voidwalk.RowModes
import Voidwalk.VexForms
import Voidwalk.ThreeByteLengths
import Voidwalk.Library.SeparatedText
import Voidwalk.OperandTexts
import Voidwalk.RegisterOpcodes
import Voidwalk.RowKinds
import Voidwalk.RowTexts
import Voidwalk.DecodedFields
import Voidwalk.WideNames
import Voidwalk.BoundedReads
import Voidwalk.FiletypeMagic
import Voidwalk.ScrollWindow
import Voidwalk.ElfClasses
import Voidwalk.Library.FixedBuffers
import Voidwalk.HexDump
import Voidwalk.SymbolSidebar
import Voidwalk.Library.Words
import Voidwalk.PrintedPieces
import Voidwalk.LegacyWords
import Voidwalk.EncodableNames
import Voidwalk.RowLookups
import Voidwalk.ImmediateRows
import Voidwalk.ImmediateBytes
import Voidwalk.FlowNames
import Voidwalk.Library.HexWords
import Voidwalk.MemoryView
import Voidwalk.Library.Rings
import Voidwalk.OpenDialog
import Voidwalk.TuiScreen
import Voidwalk.ScreenStanding
import Voidwalk.ScreenNavigation
import Voidwalk.ScreenFields
import Voidwalk.Syntax
import Voidwalk.InstructionColumn
import Voidwalk.Library.Zippers
import Voidwalk.LineFields
import Voidwalk.HexRows
import Voidwalk.RowNotes

import Voidwalk.ElfTableReads
import Voidwalk.FileTypeDetection
import Voidwalk.PeSectionTable

/-!
What the constructors `ELF_Disassembler` and `PE_Disassembler` read: the architecture,
the sections and the entry point.
-/

namespace Voidwalk.HeaderParsing

open Voidwalk.MappedFile
open Voidwalk.Disassembly
open Voidwalk.FileTypeDetection

def is64Bit : Arch → Bool
  | .x86_64 | .aArch64 => true
  | .unknown | .x86 | .arm32 => false

def archOfElfMachine (machine : UInt16) : Arch :=
  if machine = 0x03 then .x86
  else if machine = 0x28 then .arm32
  else if machine = 0x3E then .x86_64
  else if machine = 0xB7 then .aArch64
  else .unknown

def archOfPeMachine (machine : UInt16) : Arch :=
  if machine = 0x14c then .x86
  else if machine = 0x8664 then .x86_64
  else if machine = 0xAA64 then .aArch64
  else if machine = 0x1c0 then .arm32
  else .unknown

section Elf

variable (contents : AddressSpace)

def elfSections (arch : Arch) : Except Thrown ElfSectionTable.Parsed := do
  if arch = .unknown then
    let machine ← contents.readU16 0x12
    throw (.runtimeError ("Unsupported ELF architecture (e_machine " ++ toString machine.toNat ++
      ")."))
  else if is64Bit arch then ElfSectionTable.parseSections64 {} contents
  else ElfSectionTable.parseSections32 {} contents

/-- `ELF_Disassembler`'s constructor; nothing reads its `extraSections`. -/
def elfHeaders : Except Thrown Headers := do
  if contents.size < 52 then throw (.runtimeError "Truncated ELF header.")
  else
    let arch := archOfElfMachine (← contents.readU16 0x12)
    let sections ← elfSections contents arch
    let entryAddress ←
      if is64Bit arch then contents.readU64 0x18
      else (contents.readU32 0x18).map UInt32.toUInt64
    pure { arch := arch, commonSections := sections.common, entryAddress := entryAddress }

end Elf

section Pe

variable (contents : AddressSpace)

def peSections (arch : Arch) (peHeaderOffset : UInt32) : Except Thrown (Sections × UInt64) :=
  if arch = .unknown then .error (.runtimeError "Architecture not recognized.\n")
  else if is64Bit arch then PeSectionTable.parseSections64 {} contents peHeaderOffset
  else PeSectionTable.parseSections32 {} contents peHeaderOffset

/-- `PE_Disassembler`'s constructor. `Machine` is read as 32 bits and narrowed. -/
def peHeaders : Except Thrown Headers := do
  let peHeaderOffset ← contents.readU32 0x3C
  let arch := archOfPeMachine (← contents.readU32 (peHeaderOffset + 4).toUInt64).toUInt16
  let (commonSections, imageBase) ← peSections contents arch peHeaderOffset
  let entryRva ← contents.readU32 (peHeaderOffset + 24 + 16).toUInt64
  pure
    { arch := arch
      commonSections := commonSections
      entryAddress := imageBase + entryRva.toUInt64 }

end Pe

/-- The constructor that `make_disassembler` calls for a file it has recognised. -/
def parseHeaders (contents : AddressSpace) : Except Thrown Headers := do
  let (isElf, _) ← determineFiletype false contents
  if isElf then elfHeaders contents else peHeaders contents

/-- Opening a file with these contents. -/
def loadingOf (contents : AddressSpace) : Loading where
  mapped := .ok contents
  parsed := parseHeaders contents

def nopSections : List ElfLayout.Section :=
  [{ name := ElfSectionTable.nameBytes ".text", addr := 0x1000, offset := 0xC6, size := 1 },
   { name := [], addr := 0, offset := 0xC0, size := 6 }]

def nopHeader : ElfLayout.FileHeader :=
  { ElfTableReads.twoSectionsHeader 8 with machine := 0x3E, entry := 0x1000 }

/-- The file header, the table of sections, their names and the `.text` section. -/
def nopBytes : List UInt8 :=
  nopHeader.encode 8 ++
    nopSections.flatMap (fun entry => entry.encode 8 (if entry.name = [] then 5 else 0) {}) ++
    ElfSectionTable.nameBytes ".text" ++ [0, 0x90]

theorem length_nopBytes : nopBytes.length < 2 ^ 64 := by decide +kernel

def nopSpace : AddressSpace :=
  ⟨nopBytes, length_nopBytes⟩

/-- An x86-64 ELF file with a single NOP in its section. -/
def nopElf : Loading := loadingOf nopSpace

example : nopElf.load.isOk = true := by decide +kernel

end Voidwalk.HeaderParsing

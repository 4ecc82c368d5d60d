import Voidwalk.ElfLayout
import Voidwalk.HeaderParsing

/-!
The class of an ELF file and its machine: the reader takes the layout from the machine, and
where that is not the layout of the class it misreads the file.
-/

namespace Voidwalk.ElfClasses

open Voidwalk.Library
open Voidwalk.MappedFile
open Voidwalk.MappedFile.AddressSpace
open Voidwalk.Disassembly
open Voidwalk.FileTypeDetection
open Voidwalk.FileFields
open Voidwalk.ElfSectionTable
open Voidwalk.ElfLayout
open Voidwalk.HeaderParsing

/-- What `EI_CLASS` says. -/
inductive ElfClass where
  | class32 | class64
  deriving DecidableEq

namespace ElfClass

def byte : ElfClass → UInt8
  | .class32 => 1
  | .class64 => 2

/-- The bytes of an address. -/
def word : ElfClass → Nat
  | .class32 => 4
  | .class64 => 8

theorem eq_or (cls : ElfClass) : cls = .class64 ∨ cls = .class32 := by
  cases cls with
  | class32 => exact Or.inr rfl
  | class64 => exact Or.inl rfl

end ElfClass

/-- A file without a section header table. -/
structure NoTable (word : Nat) (contents : AddressSpace) where
  header : FileHeader
  header_holds : Holds contents 0 (header.encode word)
  shoff_eq : header.shoff = 0
  shnum_eq : header.shnum = 0
  shstrndx_eq : header.shstrndx = 0

/-- The sections of a file: those of its table, or none. -/
inductive Table (word : Nat) (contents : AddressSpace) : List Section → Type where
  | table {sections : List Section} (layout : Layout word contents sections) :
      Table word contents sections
  | none (bare : NoTable word contents) : Table word contents []

def Table.header {word : Nat} {contents : AddressSpace} {sections : List Section} :
    Table word contents sections → FileHeader
  | .table layout => layout.header
  | .none bare => bare.header

/-- A little-endian file that is well formed for its class, of a machine that is recognised. -/
structure ElfFile (cls : ElfClass) (contents : AddressSpace) (sections : List Section) where
  table : Table cls.word contents sections
  ident_eq : table.header.ident.toList.take 6 = [0x7F, 0x45, 0x4C, 0x46, cls.byte, 1]
  entry_lt : table.header.entry < 256 ^ cls.word
  machine_mem : table.header.machine ∈ [0x03, 0x28, 0x3E, 0xB7]

namespace ElfFile

variable {cls : ElfClass} {contents : AddressSpace} {sections : List Section}
  (file : ElfFile cls contents sections)

def arch : Arch := archOfElfMachine (UInt16.ofNat file.table.header.machine)

/-- The machine is one of the class. -/
def Agrees : Prop := is64Bit file.arch = decide (cls = .class64)

/-- Sections, the extra ones with them, and entry point are those that the file has in the layout
of its class. -/
def ReadByClass : Prop :=
  elfSections contents file.arch = .ok (encoded sections) ∧
    ∃ headers, elfHeaders contents = .ok headers ∧
      headers.commonSections = (encoded sections).common ∧
      headers.entryAddress = UInt64.ofNat file.table.header.entry

/-- The other layout cannot say the same of the file: its table would lie behind the end, or
its entry point does not hold the address. -/
def ToldApart : Prop :=
  match cls with
  | .class32 => file.table.header.shentsize = 40 ∧ contents.mappedData.length ≤ 40 * 2 ^ 48
  | .class64 => 2 ^ 32 ≤ file.table.header.entry

end ElfFile

section Headers

variable {cls : ElfClass} {contents : AddressSpace} {sections : List Section}
  (file : ElfFile cls contents sections)

theorem Table.header_holds {word : Nat} (table : Table word contents sections) :
    Holds contents 0 (table.header.encode word) := by
  cases table with
  | table layout => exact layout.header_holds
  | none bare => exact bare.header_holds

theorem length_header (word : Nat) (header : FileHeader) :
    (header.encode word).length = 40 + 3 * word := by
  simp only [FileHeader.encode, List.length_append, length_encode, Vector.length_toList]
  omega

theorem header_ne_nil (word : Nat) (header : FileHeader) : header.encode word ≠ [] := by
  apply List.ne_nil_of_length_pos
  rw [length_header]
  omega

namespace ElfFile

include file

theorem size_ge : 52 ≤ contents.mappedData.length := by
  have hlength := file.table.header_holds.length_le (header_ne_nil _ _)
  rw [length_header] at hlength
  cases cls with
  | class32 => exact (by decide : 52 ≤ 0 + (40 + 3 * 4)).trans hlength
  | class64 => exact (by decide : 52 ≤ 0 + (40 + 3 * 8)).trans hlength

theorem machine_lt : file.table.header.machine < 256 ^ 2 := by
  have h : ∀ machine ∈ [0x03, 0x28, 0x3E, 0xB7], machine < 256 ^ 2 := by decide
  exact h _ file.machine_mem

theorem arch_ne : file.arch ≠ .unknown := by
  have h : ∀ machine ∈ [0x03, 0x28, 0x3E, 0xB7],
      archOfElfMachine (UInt16.ofNat machine) ≠ .unknown := by decide
  exact h _ file.machine_mem

theorem elfHeaders_eq :
    elfHeaders contents = elfSections contents file.arch >>= fun sections =>
      (if is64Bit file.arch then contents.readU64 0x18
        else (contents.readU32 0x18).map UInt32.toUInt64).map fun entryAddress =>
          { arch := file.arch
            commonSections := sections.common
            entryAddress := entryAddress } := by
  have hsize : ¬ contents.size < 52 := by
    rw [UInt64.lt_iff_toNat_lt, toNat_size]
    exact Nat.not_lt.mpr file.size_ge
  have hmachine : contents.readU16 0x12 = .ok (UInt16.ofNat file.table.header.machine) :=
    readU16_field (FileHeader.fieldsAt file.table.header_holds).machine file.machine_lt
  rw [elfHeaders, if_neg hsize, hmachine]
  change (elfSections contents file.arch >>= _) = _
  congr 1
  funext sections
  rw [arch]
  split
  · cases contents.readU64 0x18 with
    | error thrown => rfl
    | ok entryAddress => rfl
  · cases (contents.readU32 0x18).map UInt32.toUInt64 with
    | error thrown => rfl
    | ok entryAddress => rfl

end ElfFile

section Tables

theorem noTable_fields {word : Nat} (bare : NoTable word contents) :
    Holds contents (24 + 2 * word) (encode word 0) ∧
      Holds contents (36 + 3 * word) (encode 2 0) ∧ Holds contents (38 + 3 * word) (encode 2 0) ∧
        Inside contents (UInt64.ofNat (34 + 3 * word)) 2 := by
  have hfields := FileHeader.fieldsAt bare.header_holds
  refine ⟨bare.shoff_eq ▸ hfields.shoff, bare.shnum_eq ▸ hfields.shnum,
    bare.shstrndx_eq ▸ hfields.shstrndx, ?_⟩
  rw [Inside, hfields.shentsize.toNat_ofNat (List.cons_ne_nil _ _)]
  exact hfields.shentsize.length_le (List.cons_ne_nil _ _)

/-- Without a table the readers find nothing. -/
theorem parseSections64_none (bare : NoTable 8 contents) :
    parseSections64 {} contents = .ok {} := by
  obtain ⟨hshoff, hshnum, hshstrndx, hshentsize⟩ := noTable_fields bare
  have hoffset : contents.readU64 0x28 = .ok 0 := readU64_field hshoff (by decide)
  have hcount : contents.readU16 0x3C = .ok 0 := readU16_field hshnum (by decide)
  have hnames : contents.readU16 0x3E = .ok 0 := readU16_field hshstrndx (by decide)
  obtain ⟨entrySize, hentrySize⟩ : ∃ entrySize, contents.readU16 0x3A = .ok entrySize := by
    rcases readU16_inside contents 0x3A with ⟨-, hok⟩ | ⟨hout, -⟩
    · exact hok
    · exact absurd hshentsize hout
  rw [parseSections64, readHeader64, hoffset, hentrySize, hcount, hnames]
  rfl

theorem parseSections32_none (bare : NoTable 4 contents) :
    parseSections32 {} contents = .ok {} := by
  obtain ⟨hshoff, hshnum, hshstrndx, hshentsize⟩ := noTable_fields bare
  have hoffset : readWord32 contents 0x20 = .ok 0 := readWord32_field hshoff (by decide)
  have hcount : contents.readU16 0x30 = .ok 0 := readU16_field hshnum (by decide)
  have hnames : contents.readU16 0x32 = .ok 0 := readU16_field hshstrndx (by decide)
  obtain ⟨entrySize, hentrySize⟩ : ∃ entrySize, contents.readU16 0x2e = .ok entrySize := by
    rcases readU16_inside contents 0x2e with ⟨-, hok⟩ | ⟨hout, -⟩
    · exact hok
    · exact absurd hshentsize hout
  have hlength := bare.header_holds.length_le (header_ne_nil _ _)
  rw [length_header] at hlength
  obtain ⟨namesOffset, hnamesOffset⟩ :
      ∃ namesOffset, readWord32 contents 0x10 = .ok namesOffset := by
    rcases (readU32_inside contents 0x10).map UInt32.toUInt64 with ⟨-, hok⟩ | ⟨hout, -⟩
    · exact hok
    · exact absurd (le_trans (by decide) hlength) hout
  rw [parseSections32, readHeader32, hoffset, hentrySize, hcount, hnames]
  change readTable entryFields32 _ contents {} = _
  rw [readTable]
  have hentry : (0 : UInt64) + (0 : UInt16).toUInt64 * entrySize.toUInt64 + 0x10 = 0x10 := by
    simp
  dsimp only [entryFields32]
  rw [hentry, hnamesOffset]
  simp only [bind, Except.bind]
  apply Loops.result_of_exit
  exact if_neg (lt_irrefl 0)

end Tables

namespace ElfFile

include file

theorem entry_read :
    (cls = .class64 → contents.readU64 0x18 = .ok (UInt64.ofNat file.table.header.entry)) ∧
      (cls = .class32 → (contents.readU32 0x18).map UInt32.toUInt64 =
        .ok (UInt64.ofNat file.table.header.entry)) := by
  have hentry := (FileHeader.fieldsAt file.table.header_holds).entry
  have hlt := file.entry_lt
  constructor
  · rintro rfl
    exact readU64_field hentry hlt
  · rintro rfl
    exact readWord32_field hentry hlt

theorem sections_read :
    (cls = .class64 → parseSections64 {} contents = .ok (encoded sections)) ∧
      (cls = .class32 → parseSections32 {} contents = .ok (encoded sections)) := by
  obtain ⟨table, -, -, -⟩ := file
  constructor
  · rintro rfl
    cases table with
    | table layout => exact parseSections64_eq layout
    | none bare => exact parseSections64_none bare
  · rintro rfl
    cases table with
    | table layout => exact parseSections32_eq layout
    | none bare => exact parseSections32_none bare

theorem elfSections_eq :
    elfSections contents file.arch =
      if is64Bit file.arch then parseSections64 {} contents else parseSections32 {} contents := by
  rw [elfSections, if_neg file.arch_ne]

theorem readByClass_of_agrees (h : file.Agrees) : file.ReadByClass := by
  have hsections := file.elfSections_eq
  have hheaders := file.elfHeaders_eq
  rw [Agrees] at h
  rcases cls.eq_or with hcls | hcls
  · have hwide : is64Bit file.arch = true := h.trans (decide_eq_true hcls)
    rw [if_pos hwide, file.sections_read.1 hcls] at hsections
    rw [hsections, if_pos hwide, file.entry_read.1 hcls] at hheaders
    exact ⟨hsections, _, hheaders, rfl, rfl⟩
  · have hnarrow : ¬ is64Bit file.arch = true := by
      rw [h, hcls]
      decide
    rw [if_neg hnarrow, file.sections_read.2 hcls] at hsections
    rw [hsections, if_neg hnarrow, file.entry_read.2 hcls] at hheaders
    exact ⟨hsections, _, hheaders, rfl, rfl⟩

end ElfFile

end Headers

section Mismatch

variable {contents : AddressSpace} {sections : List Section}

/-- A class of 64 bits read at 32: the entry point is cut. -/
theorem not_readByClass_wide
    (file : ElfFile .class64 contents sections) (h : ¬ file.Agrees)
    (hentry : 2 ^ 32 ≤ file.table.header.entry) : ¬ file.ReadByClass := by
  rintro ⟨-, headers, hheaders, -, haddress⟩
  have hnarrow : ¬ is64Bit file.arch = true := h
  rw [file.elfHeaders_eq, if_neg hnarrow] at hheaders
  obtain ⟨parsed, -, hheaders⟩ := ok_of_bind hheaders
  cases hread : contents.readU32 0x18 with
  | error thrown =>
      rw [hread] at hheaders
      contradiction
  | ok value =>
      rw [hread] at hheaders
      rw [← Except.ok.inj hheaders] at haddress
      have htoNat := congrArg UInt64.toNat haddress
      rw [UInt32.toNat_toUInt64, UInt64.toNat_ofNat_of_lt' file.entry_lt] at htoNat
      have hcut := value.toNat_lt
      omega

/-- A class of 32 bits read at 64: the offset of the table has the size of an entry in its top
bytes. -/
theorem shoff64_read {header : FileHeader}
    (h : Holds contents 0 (header.encode 4)) (hentrySize : header.shentsize = 40) :
    ∃ offset : UInt64, contents.readU64 0x28 = .ok offset ∧
      40 * 256 ^ 6 ≤ offset.toNat ∧ offset.toNat < 41 * 256 ^ 6 := by
  have hbehind := h
  rw [FileHeader.encode] at hbehind
  replace hbehind := hbehind.right.right.right.right.right.right.right.right
  simp only [length_encode, Vector.length_toList, ← List.append_assoc] at hbehind
  have hfront := hbehind.left.left
  have hread := @readType_of_holds contents 40 _ 8 hfront (by simp) (by simp [encode])
  have hlow := littleEndian_lt
    (encode 2 header.ehsize ++ encode 2 header.phentsize ++ encode 2 header.phnum)
  have hlength : (encode 2 header.ehsize ++ encode 2 header.phentsize ++
      encode 2 header.phnum).length = 6 := by
    simp
  have hhigh : littleEndian (encode 2 header.shentsize) = 40 := by
    rw [hentrySize]
    decide
  rw [littleEndian_append, hlength, hhigh] at hread
  rw [hlength] at hlow
  refine ⟨_, congrArg (Except.map UInt64.ofNat) hread, ?_⟩
  rw [UInt64.toNat_ofNat_of_lt' (by rw [UInt64.size]; omega)]
  omega

theorem readHeader64_small {offset : UInt64} {header : TableHeader}
    (hoffset : contents.readU64 0x28 = .ok offset) (h : readHeader64 contents = .ok header) :
    header.sectionTableOffset = offset ∧ header.sectionEntrySize.toNat < 2 ^ 16 ∧
      header.namesSectionIndex.toNat < 2 ^ 16 := by
  obtain ⟨found, hfound, h⟩ := ok_of_bind h
  obtain ⟨entrySize, -, h⟩ := ok_of_bind h
  obtain ⟨count, -, h⟩ := ok_of_bind h
  obtain ⟨names, -, h⟩ := ok_of_bind h
  rw [← Except.ok.inj h]
  refine ⟨Except.ok.inj (hfound.symm.trans hoffset), ?_, ?_⟩
  · rw [UInt16.toNat_toUInt64]
    exact entrySize.toNat_lt
  · rw [UInt16.toNat_toUInt64]
    exact names.toNat_lt

theorem not_readByClass_narrow
    (file : ElfFile .class32 contents sections) (h : ¬ file.Agrees)
    (hentrySize : file.table.header.shentsize = 40)
    (hlength : contents.mappedData.length ≤ 40 * 2 ^ 48) : ¬ file.ReadByClass := by
  rintro ⟨hparsed, -⟩
  have hwide : is64Bit file.arch = true := by
    rw [ElfFile.Agrees] at h
    simpa using h
  rw [file.elfSections_eq, if_pos hwide] at hparsed
  obtain ⟨offset, hoffset, hlow, hhigh⟩ := shoff64_read file.table.header_holds hentrySize
  rw [parseSections64] at hparsed
  obtain ⟨found, hfound, htable⟩ := ok_of_bind hparsed
  obtain ⟨hsame, hsize, hindex⟩ := readHeader64_small hoffset hfound
  have hne : found.sectionTableOffset ≠ 0 := by
    rw [hsame]
    rintro rfl
    exact absurd hlow (by decide)
  rw [if_neg fun hnone => hne hnone.1, readTable] at htable
  obtain ⟨namesOffset, hread, -⟩ := ok_of_bind htable
  have hinside := (readU64_inside contents _).inside hread
  have hproduct : (found.namesSectionIndex * found.sectionEntrySize).toNat < 2 ^ 32 := by
    rw [UInt64.toNat_mul]
    refine (Nat.mod_le _ _).trans_lt ?_
    exact (Nat.mul_lt_mul'' hindex hsize).trans_le (by decide)
  have hsum : (found.sectionTableOffset + found.namesSectionIndex * found.sectionEntrySize +
      entryFields64.offset).toNat = offset.toNat +
        (found.namesSectionIndex * found.sectionEntrySize).toNat + 0x18 := by
    rw [UInt64.toNat_add, UInt64.toNat_add, hsame]
    have hfield : entryFields64.offset.toNat = 0x18 := rfl
    rw [hfield]
    omega
  rw [Inside, hsum] at hinside
  omega

end Mismatch

/-- A file of any class and any machine is read by its class where its machine is one of the
class; a file that the other layout tells apart is not read otherwise. -/
theorem read_by_class {cls : ElfClass} {contents : AddressSpace} {sections : List Section}
    (file : ElfFile cls contents sections) :
    (file.Agrees → file.ReadByClass) ∧ (file.ToldApart → (file.ReadByClass ↔ file.Agrees)) := by
  have hmismatch : file.ToldApart → ¬ file.Agrees → ¬ file.ReadByClass := by
    intro hapart hother
    cases cls with
    | class64 => exact not_readByClass_wide file hother hapart
    | class32 => exact not_readByClass_narrow file hother hapart.1 hapart.2
  refine ⟨file.readByClass_of_agrees, fun hapart => ⟨fun hread => ?_, file.readByClass_of_agrees⟩⟩
  by_contra hother
  exact hmismatch hapart hother hread

section Files

def smallHeader (cls : ElfClass) (machine : Nat) : FileHeader where
  ident := #v[0x7F, 0x45, 0x4C, 0x46, cls.byte, 1, 1, 0, 0, 0, 0, 0, 0, 0, 0, 0]
  machine := machine
  entry := 0x401000
  shoff := 40 + 3 * cls.word
  shentsize := 16 + 6 * cls.word
  shnum := 2
  shstrndx := 1

/-- One `.text` section, and the names behind the table. -/
def smallSections (cls : ElfClass) : List Section :=
  [{ name := nameBytes ".text", addr := 0x401000, offset := 0x40, size := 4 },
   { name := [], addr := 0, offset := 72 + 15 * cls.word, size := 6 }]

def smallBytes (cls : ElfClass) (machine : Nat) : List UInt8 :=
  (smallHeader cls machine).encode cls.word ++
    (smallSections cls).flatMap (fun entry =>
      entry.encode cls.word (if entry.name = [] then 5 else 0) {}) ++
    nameBytes ".text" ++ [0]

/-- AArch64 in its own class. -/
def aarch64File : AddressSpace := ⟨smallBytes .class64 0xB7, by decide +kernel⟩

def aarch64Layout : Layout 8 aarch64File (smallSections .class64) where
  header := smallHeader .class64 0xB7
  header_holds := by decide +kernel
  shoff_lt := by decide
  shentsize_lt := by decide
  entry_size_le := by decide
  shnum_lt := by decide
  shnum_eq := rfl
  namesIndex := ⟨1, by decide⟩
  shstrndx_eq := rfl
  fits := by
    refine Fin.forall_fin_two.mpr ⟨?_, ?_⟩
    · exact ⟨by decide, by decide, by decide, by decide⟩
    · exact ⟨by decide, by decide, by decide, by decide⟩
  nameOffset := fun i => if i.val = 1 then 5 else 0
  nameOffset_lt := by decide
  other := fun _ => {}
  entry_holds := by decide +kernel
  name_holds := by decide +kernel

def aarch64Elf : ElfFile .class64 aarch64File (smallSections .class64) where
  table := .table aarch64Layout
  ident_eq := rfl
  entry_lt := by decide
  machine_mem := by decide

/-- x32: the machine is x86-64 and the class has 32 bits. -/
def x32File : AddressSpace := ⟨smallBytes .class32 0x3E, by decide +kernel⟩

def x32Layout : Layout 4 x32File (smallSections .class32) where
  header := smallHeader .class32 0x3E
  header_holds := by decide +kernel
  shoff_lt := by decide
  shentsize_lt := by decide
  entry_size_le := by decide
  shnum_lt := by decide
  shnum_eq := rfl
  namesIndex := ⟨1, by decide⟩
  shstrndx_eq := rfl
  fits := by
    refine Fin.forall_fin_two.mpr ⟨?_, ?_⟩
    · exact ⟨by decide, by decide, by decide, by decide⟩
    · exact ⟨by decide, by decide, by decide, by decide⟩
  nameOffset := fun i => if i.val = 1 then 5 else 0
  nameOffset_lt := by decide
  other := fun _ => {}
  entry_holds := by decide +kernel
  name_holds := by decide +kernel

def x32Elf : ElfFile .class32 x32File (smallSections .class32) where
  table := .table x32Layout
  ident_eq := rfl
  entry_lt := by decide
  machine_mem := by decide

theorem agrees_aarch64 : aarch64Elf.Agrees := by
  rw [ElfFile.Agrees]
  decide

theorem read_by_class_files :
    aarch64Elf.ReadByClass ∧ (x32Elf.ReadByClass ↔ x32Elf.Agrees) :=
  ⟨(read_by_class aarch64Elf).1 agrees_aarch64,
    (read_by_class x32Elf).2 ⟨rfl, by decide +kernel⟩⟩

/-- An x32 file is rejected, though it is well formed. -/
theorem not_readByClass_x32 :
    elfHeaders x32File = .error invalidOffset ∧ ¬ x32Elf.ReadByClass := by
  constructor
  · have hsections : elfSections x32File x32Elf.arch = .error invalidOffset := by decide +kernel
    rw [x32Elf.elfHeaders_eq, hsections]
    rfl
  · apply not_readByClass_narrow x32Elf
    · rw [ElfFile.Agrees]
      decide
    · rfl
    · decide +kernel

end Files

end Voidwalk.ElfClasses

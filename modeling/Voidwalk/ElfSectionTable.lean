import Voidwalk.Disassembly
import Voidwalk.FileFields
import Voidwalk.Library.Loops

/-!
The readers of the ELF section header table, one for each class: `parseSections32`
and `parseSections64`. They find the sections they know by name and take the fields
as they stand.
-/

namespace Voidwalk.ElfSectionTable

open Voidwalk.Library
open Voidwalk.MappedFile
open Voidwalk.Disassembly

/-- `ELF_Sections`. No reader writes `rel`. -/
structure ElfSections where
  symtab : Header := {}
  dynsym : Header := {}
  strtab : Header := {}
  dynstr : Header := {}
  plt : Header := {}
  got : Header := {}
  rel : Header := {}
  ehFrame : Header := {}
  deriving DecidableEq

/-- The two objects that a reader fills. -/
structure Parsed where
  common : Sections := {}
  extra : ElfSections := {}
  deriving DecidableEq

/-- What is done with the header of a section that was recognised. -/
abbrev Store := Header → Parsed → Parsed

def appendText : Store := fun header parsed =>
  { parsed with common := { parsed.common with text := parsed.common.text ++ [header] } }

def appendData : Store := fun header parsed =>
  { parsed with common := { parsed.common with data := parsed.common.data ++ [header] } }

def appendReadOnly : Store := fun header parsed =>
  { parsed with common := { parsed.common with readOnly := parsed.common.readOnly ++ [header] } }

def appendBss : Store := fun header parsed =>
  { parsed with common := { parsed.common with bss := parsed.common.bss ++ [header] } }

/-- The bytes of a name. -/
def nameBytes (name : String) : List UInt8 :=
  name.toList.map fun character => UInt8.ofNat character.toNat

def sectionHandlers : List (String × Store) :=
  [(".text", appendText),
   (".data", appendData),
   (".rodata", appendReadOnly),
   (".bss", appendBss),
   (".symtab", fun header parsed => { parsed with extra := { parsed.extra with symtab := header } }),
   (".dynsym", fun header parsed => { parsed with extra := { parsed.extra with dynsym := header } }),
   (".strtab", fun header parsed => { parsed with extra := { parsed.extra with strtab := header } }),
   (".dynstr", fun header parsed => { parsed with extra := { parsed.extra with dynstr := header } }),
   (".plt", fun header parsed => { parsed with extra := { parsed.extra with plt := header } }),
   (".got", fun header parsed => { parsed with extra := { parsed.extra with got := header } }),
   (".eh_frame", fun header parsed =>
      { parsed with extra := { parsed.extra with ehFrame := header } })]

/-- Looks the name up among the handlers; a section without one is passed over. -/
def handle (sectionName : List UInt8) : Store := fun header parsed =>
  match sectionHandlers.find? fun handler => nameBytes handler.1 = sectionName with
  | some handler => handler.2 header parsed
  | none => parsed

structure NameLoop where
  i : UInt64 := 0
  sectionName : List UInt8 := []

/-- The byte at the name's address plus `i`: the sum wraps. A NUL ends the loop. -/
def nameBody (data : AddressSpace) (address : UInt64) :
    Loops.Body NameLoop (List UInt8) Thrown := fun state => do
  let nameChar ← data.readU8 (address + state.i)
  if nameChar = 0 then pure (.inr state.sectionName)
  else pure (.inl { i := state.i + 1, sectionName := state.sectionName ++ [nameChar] })

/-- A byte that could be read lies in the file, so the next address is no smaller by
wrapping. -/
def nameVariant (data : AddressSpace) (address : UInt64) :
    Loops.Variant (nameBody data address) where
  measure := fun state => data.mappedData.length - (address + state.i).toNat
  measure_lt := by
    intro state next hbody
    simp only [nameBody, bind, Except.bind] at hbody
    cases hread : data.readU8 (address + state.i) with
    | error exception => rw [hread] at hbody; contradiction
    | ok nameChar =>
        rw [hread] at hbody
        obtain ⟨hlt, -⟩ := (data.readU8_eq_ok_iff _ _).mp hread
        have hsize := data.fileSize_lt
        simp only at hbody
        split at hbody
        · exact absurd (Except.ok.inj hbody) nofun
        · obtain rfl := Sum.inl.inj (Except.ok.inj hbody)
          have hnext : (address + (state.i + 1)).toNat = (address + state.i).toNat + 1 := by
            rw [← UInt64.add_assoc, UInt64.toNat_add]
            exact Nat.mod_eq_of_lt (by simp only [UInt64.reduceToNat]; omega)
          rw [hnext]
          omega

def readName (data : AddressSpace) (address : UInt64) : Except Thrown (List UInt8) :=
  Loops.result (nameVariant data address) {}

/-- The four fields of the file header that locate the table and the names. -/
structure TableHeader where
  sectionTableOffset : UInt64
  sectionEntrySize : UInt64
  sectionCount : UInt16
  namesSectionIndex : UInt64
  deriving DecidableEq

/-- Where an entry of a class has its fields, and the width of the wide ones. -/
structure EntryFields where
  readWord : AddressSpace → UInt64 → Except Thrown UInt64
  width : Nat
  vaddr : UInt64
  offset : UInt64
  size : UInt64

def readWord32 (data : AddressSpace) (offset : UInt64) : Except Thrown UInt64 :=
  (data.readU32 offset).map UInt32.toUInt64

/-- The `Elf32_Shdr` layout. -/
def entryFields32 : EntryFields where
  readWord := readWord32
  width := 4
  vaddr := 0x0c
  offset := 0x10
  size := 0x14

/-- The `Elf64_Shdr` layout. -/
def entryFields64 : EntryFields where
  readWord := AddressSpace.readU64
  width := 8
  vaddr := 0x10
  offset := 0x18
  size := 0x20

structure SectionLoop where
  sectionIndex : UInt16 := 0
  parsed : Parsed := {}

section Table

variable (fields : EntryFields) (header : TableHeader) (data : AddressSpace)

def entryAddress (sectionIndex : UInt16) : UInt64 :=
  header.sectionTableOffset + header.sectionEntrySize * sectionIndex.toUInt64

def readEntry (namesOffset : UInt64) (sectionIndex : UInt16) (parsed : Parsed) :
    Except Thrown Parsed := do
  let entry := entryAddress header sectionIndex
  let nameOffset ← data.readU32 entry
  let sectionOffset ← fields.readWord data (entry + fields.offset)
  let sectionSize ← fields.readWord data (entry + fields.size)
  let sectionVaddr ← fields.readWord data (entry + fields.vaddr)
  let sectionName ← readName data (namesOffset + nameOffset.toUInt64)
  pure (handle sectionName
    { vaddr := sectionVaddr, offset := sectionOffset, size := sectionSize } parsed)

def sectionBody (namesOffset : UInt64) : Loops.Body SectionLoop Parsed Thrown := fun state => do
  if state.sectionIndex < header.sectionCount then
    let parsed ← readEntry fields header data namesOffset state.sectionIndex state.parsed
    pure (.inl { sectionIndex := state.sectionIndex + 1, parsed := parsed })
  else pure (.inr state.parsed)

theorem sectionBody_of_next {namesOffset : UInt64} {state next : SectionLoop}
    (h : sectionBody fields header data namesOffset state = .ok (.inl next)) :
    state.sectionIndex < header.sectionCount ∧
      readEntry fields header data namesOffset state.sectionIndex state.parsed =
        .ok next.parsed ∧
      next.sectionIndex = state.sectionIndex + 1 := by
  simp only [sectionBody, bind, Except.bind] at h
  split at h
  · rename_i hlt
    split at h
    · contradiction
    · rename_i parsed hparsed
      obtain rfl := Sum.inl.inj (Except.ok.inj h)
      exact ⟨hlt, hparsed, rfl⟩
  · exact absurd (Except.ok.inj h) nofun

/-- The counter has 16 bits and so has the count: below the count it does not wrap. -/
theorem toNat_succ_of_lt {sectionIndex sectionCount : UInt16} (h : sectionIndex < sectionCount) :
    (sectionIndex + 1).toNat = sectionIndex.toNat + 1 := by
  have hcount := sectionCount.toNat_lt
  rw [UInt16.lt_iff_toNat_lt] at h
  rw [UInt16.toNat_add]
  exact Nat.mod_eq_of_lt (by simp only [UInt16.reduceToNat]; omega)

def sectionVariant (namesOffset : UInt64) :
    Loops.Variant (sectionBody fields header data namesOffset) where
  measure := fun state => header.sectionCount.toNat - state.sectionIndex.toNat
  measure_lt := by
    intro state next hbody
    obtain ⟨hlt, -, hindex⟩ := sectionBody_of_next fields header data hbody
    rw [hindex, toNat_succ_of_lt hlt]
    rw [UInt16.lt_iff_toNat_lt] at hlt
    omega

/-- Both readers from the names section on. -/
def readTable (parsed : Parsed) : Except Thrown Parsed := do
  let namesSectionEntry :=
    header.sectionTableOffset + header.namesSectionIndex * header.sectionEntrySize
  let namesOffset ← fields.readWord data (namesSectionEntry + fields.offset)
  Loops.result (sectionVariant fields header data namesOffset) { parsed := parsed }

end Table

def readHeader32 (data : AddressSpace) : Except Thrown TableHeader := do
  let sectionTableOffset ← readWord32 data 0x20
  let sectionEntrySize ← data.readU16 0x2e
  let sectionCount ← data.readU16 0x30
  let namesSectionIndex ← data.readU16 0x32
  pure
    { sectionTableOffset := sectionTableOffset
      sectionEntrySize := sectionEntrySize.toUInt64
      sectionCount := sectionCount
      namesSectionIndex := namesSectionIndex.toUInt64 }

def readHeader64 (data : AddressSpace) : Except Thrown TableHeader := do
  let sectionTableOffset ← data.readU64 0x28
  let sectionEntrySize ← data.readU16 0x3A
  let sectionCount ← data.readU16 0x3C
  let namesSectionIndex ← data.readU16 0x3E
  pure
    { sectionTableOffset := sectionTableOffset
      sectionEntrySize := sectionEntrySize.toUInt64
      sectionCount := sectionCount
      namesSectionIndex := namesSectionIndex.toUInt64 }

def parseSections32 (parsed : Parsed) (data : AddressSpace) : Except Thrown Parsed := do
  let header ← readHeader32 data
  readTable entryFields32 header data parsed

/-- Unlike `parseSections32` it returns at once for a binary stripped of its table. -/
def parseSections64 (parsed : Parsed) (data : AddressSpace) : Except Thrown Parsed := do
  let header ← readHeader64 data
  if header.sectionTableOffset = 0 ∧ header.sectionCount = 0 then pure parsed
  else readTable entryFields64 header data parsed

end Voidwalk.ElfSectionTable

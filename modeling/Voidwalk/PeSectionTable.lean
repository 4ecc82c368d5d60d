import Voidwalk.Disassembly
import Voidwalk.FileFields
import Voidwalk.Library.Loops

/-!
The readers of the PE section table, one for each class: `parseSections32` and
`parseSections64`. A section's characteristics decide which list it belongs to.
-/

namespace Voidwalk.PeSectionTable

open Voidwalk.Library
open Voidwalk.MappedFile
open Voidwalk.Disassembly

inductive SectionKind where
  | CODE | DATA | RODATA | BSS | NONE
  deriving DecidableEq

/-- The first of the tests that succeeds decides. -/
def classify (characteristics : UInt32) : SectionKind :=
  if characteristics &&& 0x20000000 ≠ 0 ∨ characteristics &&& 0x20 ≠ 0 then .CODE
  else if characteristics &&& 0x80 ≠ 0 then .BSS
  else if characteristics &&& 0x40 ≠ 0 then
    if characteristics &&& 0x80000000 ≠ 0 then .DATA else .RODATA
  else .NONE

/-- The lists that `sectionLists` maps a kind to; it has none for `NONE`. -/
def pushBack (kind : SectionKind) (header : Header) (common : Sections) : Sections :=
  match kind with
  | .CODE => { common with text := common.text ++ [header] }
  | .DATA => { common with data := common.data ++ [header] }
  | .RODATA => { common with readOnly := common.readOnly ++ [header] }
  | .BSS => { common with bss := common.bss ++ [header] }
  | .NONE => common

structure SectionLoop where
  i : Nat := 0
  common : Sections := {}

section Table

variable (data : AddressSpace)

/-- The header is read only for a kind that has a list. -/
def readEntry (entryOffset imageBase : UInt64) (common : Sections) : Except Thrown Sections := do
  let characteristics ← data.readU32 (entryOffset + 36)
  let kind := classify characteristics
  if kind = .NONE then pure common
  else
    let rva ← data.readU32 (entryOffset + 12)
    let offset ← data.readU32 (entryOffset + 20)
    let size ← data.readU32 (entryOffset + 16)
    pure (pushBack kind
      { vaddr := imageBase + rva.toUInt64, offset := offset.toUInt64, size := size.toUInt64 }
      common)

/-- `i * 40` is below `2 ^ 31`: the product of two `int`s does not overflow. -/
def sectionBody (sectionTableOffset imageBase : UInt64) (sectionCount : UInt16) :
    Loops.Body SectionLoop Sections Thrown := fun state => do
  if state.i < sectionCount.toNat then
    let common ← readEntry data (sectionTableOffset + .ofNat (state.i * 40)) imageBase state.common
    pure (.inl { i := state.i + 1, common := common })
  else pure (.inr state.common)

theorem sectionBody_of_next {sectionTableOffset imageBase : UInt64} {sectionCount : UInt16}
    {state next : SectionLoop}
    (h : sectionBody data sectionTableOffset imageBase sectionCount state = .ok (.inl next)) :
    state.i < sectionCount.toNat ∧
      readEntry data (sectionTableOffset + .ofNat (state.i * 40)) imageBase state.common =
        .ok next.common ∧
      next.i = state.i + 1 := by
  rw [sectionBody] at h
  split at h
  · rename_i hlt
    obtain ⟨common, hcommon, h⟩ := ok_of_bind h
    obtain rfl := Sum.inl.inj (Except.ok.inj h)
    exact ⟨hlt, hcommon, rfl⟩
  · exact absurd (Except.ok.inj h) nofun

def sectionVariant (sectionTableOffset imageBase : UInt64) (sectionCount : UInt16) :
    Loops.Variant (sectionBody data sectionTableOffset imageBase sectionCount) where
  measure := fun state => sectionCount.toNat - state.i
  measure_lt := by
    intro state next hbody
    obtain ⟨hlt, -, hindex⟩ := sectionBody_of_next data hbody
    omega

/-- Both readers. The sums with `peHeaderOffset` are 32 bits wide. What they write to
`imageBase` comes with the sections. -/
def readTable (readImageBase : AddressSpace → UInt32 → Except Thrown UInt64)
    (common : Sections) (peHeaderOffset : UInt32) : Except Thrown (Sections × UInt64) := do
  let sectionCount ← data.readU16 (peHeaderOffset + 6).toUInt64
  let optionalHeaderSize ← data.readU16 (peHeaderOffset + 20).toUInt64
  let sectionTableOffset := (peHeaderOffset + 24 + optionalHeaderSize.toUInt32).toUInt64
  let imageBase ← readImageBase data peHeaderOffset
  let common ← Loops.result (sectionVariant data sectionTableOffset imageBase sectionCount)
    { common := common }
  pure (common, imageBase)

end Table

def readImageBase32 (data : AddressSpace) (peHeaderOffset : UInt32) : Except Thrown UInt64 :=
  (data.readU32 (peHeaderOffset + 52).toUInt64).map UInt32.toUInt64

def readImageBase64 (data : AddressSpace) (peHeaderOffset : UInt32) : Except Thrown UInt64 :=
  data.readU64 (peHeaderOffset + 48).toUInt64

def parseSections32 (common : Sections) (data : AddressSpace) (peHeaderOffset : UInt32) :
    Except Thrown (Sections × UInt64) :=
  readTable data readImageBase32 common peHeaderOffset

def parseSections64 (common : Sections) (data : AddressSpace) (peHeaderOffset : UInt32) :
    Except Thrown (Sections × UInt64) :=
  readTable data readImageBase64 common peHeaderOffset

end Voidwalk.PeSectionTable

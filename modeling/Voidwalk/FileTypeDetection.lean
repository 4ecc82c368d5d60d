import Voidwalk.Disassembly

/-!
The container format of a file, and the disassembler that `make_disassembler`
builds for it. The header parsers are taken as what they end with.
-/

namespace Voidwalk.FileTypeDetection

open Voidwalk.MappedFile
open Voidwalk.Disassembly

/-- `contents.read_u8(offset) == byte && …`: the first mismatch ends the reads. -/
def matchesMagic (contents : AddressSpace) (offset : UInt64) : List UInt8 → Except Thrown Bool
  | [] => pure true
  | byte :: magic => do
      if (← contents.readU8 offset) = byte then matchesMagic contents (offset + 1) magic
      else pure false

def matchesElf (contents : AddressSpace) : Except Thrown Bool :=
  if 4 ≤ contents.size then matchesMagic contents 0 [0x7F, 0x45, 0x4C, 0x46] else pure false

def matchesPe (contents : AddressSpace) : Except Thrown Bool := do
  if 2 ≤ contents.size then
    if ← matchesMagic contents 0 [0x4D, 0x5A] then
      let peHeaderOffset := (← contents.readU32 0x3C).toUInt64
      -- The subtraction wraps for files under four bytes; `read_u32(0x3C)` has thrown by then.
      if peHeaderOffset ≤ contents.size - 4 then
        pure ((← contents.readU32 peHeaderOffset) = 0x00004550)
      else pure false
    else pure false
  else pure false

/-- `determine_filetype` on two flags initialised to `false`. A file that has shrunk
fails the first read, which any file of two bytes gets. -/
def determineFiletype (fileShrank : Bool) (contents : AddressSpace) :
    Except Thrown (Bool × Bool) := do
  if fileShrank && 2 ≤ contents.size then throw fileChanged
  else if ← matchesElf contents then pure (true, false)
  else pure (false, ← matchesPe contents)

structure Headers where
  arch : Arch
  commonSections : Sections
  entryAddress : UInt64

/-- How loading a path goes: the mapping, the detection, the header parser, and the
detection that `Session::open` repeats. -/
structure Loading where
  mapped : Except Thrown AddressSpace
  detectionShrank : Bool := false
  parsed : Except Thrown Headers
  repeatShrank : Bool := false

def makeDisassembler (loading : Loading) (data : AddressSpace) : Except Thrown Disassembler := do
  let (isElf, isPe) ← determineFiletype loading.detectionShrank data
  if isElf || isPe then
    let headers ← loading.parsed
    pure (.construct data headers.arch headers.commonSections headers.entryAddress [])
  else throw (.runtimeError "Not an ELF or PE binary.")

def Loading.load (loading : Loading) : Except Thrown (AddressSpace × Disassembler) := do
  let newSpace ← loading.mapped
  let newDisassembler ← makeDisassembler loading newSpace
  pure (newSpace, newDisassembler)

theorem Loading.load_eq_ok {loading : Loading} {space : AddressSpace}
    {disassembler : Disassembler} (h : loading.load = .ok (space, disassembler)) :
    ∃ headers, loading.mapped = .ok space ∧ loading.parsed = .ok headers ∧
      disassembler =
        .construct space headers.arch headers.commonSections headers.entryAddress [] := by
  obtain ⟨newSpace, hmapped, h⟩ := ok_of_bind h
  obtain ⟨newDisassembler, hmade, h⟩ := ok_of_bind h
  obtain ⟨rfl, rfl⟩ := Prod.mk.inj (Except.ok.inj h)
  obtain ⟨⟨isElf, isPe⟩, -, hmade⟩ := ok_of_bind hmade
  dsimp only at hmade
  split_ifs at hmade
  obtain ⟨headers, hparsed, hmade⟩ := ok_of_bind hmade
  exact ⟨headers, hmapped, hparsed, (Except.ok.inj hmade).symm⟩

end Voidwalk.FileTypeDetection

import Voidwalk.AnalysisSession

/-!
What both frontends derive from a loaded binary in the same way: the text columns of a
row, the section list and the raw-bytes fallback of an architecture without decoder.
-/

namespace Voidwalk.FrontendRows

open Voidwalk.MappedFile
open Voidwalk.ChunkStorage
open Voidwalk.InstructionRendering
open Voidwalk.Disassembly
open Voidwalk.FileTypeDetection
open Voidwalk.AnalysisSession

def isBlank (c : Char) : Bool :=
  c = ' ' || c = '\t'

def dropBack (drops : Char → Bool) (text : List Char) : List Char :=
  (text.reverse.dropWhile drops).reverse

def trim (text : List Char) : List Char :=
  dropBack isBlank (text.dropWhile isBlank)

/-- Splits `"<MNEMONIC> \t<operands>"` at the tab and pads the mnemonic to column 7. -/
def formatDisasmText (raw : String) : String :=
  let mnemonic := trim (raw.toList.takeWhile (· ≠ '\t'))
  let operands := trim ((raw.toList.dropWhile (· ≠ '\t')).drop 1)
  if operands.isEmpty then String.ofList mnemonic
  else if mnemonic.length < 7 then
    String.ofList (mnemonic ++ List.replicate (7 - mnemonic.length) ' ' ++ operands)
  else String.ofList (mnemonic ++ [' '] ++ operands)

def trimmedMachineCode (instruction : Instruction) : String :=
  String.ofList (dropBack (· = ' ') instruction.machineCode.toList)

/-- `printf("%0*llX")`. -/
def hexUp (value : Nat) (width : Nat) : String :=
  let digits := (Nat.toDigits 16 value).map Char.toUpper
  String.ofList (List.replicate (width - digits.length) '0' ++ digits)

structure SectionInfo where
  name : String
  offset : UInt64
  vaddr : UInt64
  size : UInt64

def namedSections (name : String) (sections : List Header) : List SectionInfo :=
  (sections.filter fun header => !(header.offset = 0 && header.size = 0)).map fun header =>
    { name := name, offset := header.offset, vaddr := header.vaddr, size := header.size }

def sectionsOf (disassembler : Disassembler) : List SectionInfo :=
  let sections := disassembler.commonSections
  namedSections ".text" sections.text ++ namedSections ".data" sections.data ++
    namedSections ".rodata" sections.readOnly ++ namedSections ".bss" sections.bss

structure DisasmRow where
  vaddr : UInt64
  bytes : String
  text : String
  deriving DecidableEq

/-- One fallback row: up to eight bytes, `i` bytes into their section. -/
def fallbackRow (vaddr : UInt64) (i : Nat) (run : List UInt8) : DisasmRow where
  vaddr := vaddr + .ofNat i
  bytes := " ".intercalate (run.map fun byte => hexUp byte.toNat 2)
  text := "db " ++ ", ".intercalate (run.map fun byte => "0x" ++ hexUp byte.toNat 2)

def sectionFallback (vaddr : UInt64) (raw : List UInt8) : List DisasmRow :=
  (List.range ((raw.length + 7) / 8)).map fun k =>
    fallbackRow vaddr (8 * k) ((raw.drop (8 * k)).take 8)

/-- The loop of `buildFallback()` over the sections, with the rows pushed before a read
threw. -/
def fallbackFrom (unreadable : UInt64 → Bool) (space : AddressSpace) (budget : UInt64) :
    List Header → List DisasmRow × Option Thrown
  | [] => ([], none)
  | text :: later =>
      if budget = 0 then ([], none)
      else if text.size = 0 then fallbackFrom unreadable space budget later
      else
        match bytes unreadable space text.offset (atMost text.size budget) with
        | .error exception => ([], some exception)
        | .ok raw =>
            let (rows, thrown) :=
              fallbackFrom unreadable space (budget - .ofNat raw.length) later
            (sectionFallback text.vaddr raw ++ rows, thrown)

def kMaxBytes : UInt64 := 4096

def buildFallback {View : Type} (unreadable : UInt64 → Bool) (world : World View) :
    List DisasmRow × Option Thrown :=
  match world.currentSpace, world.currentDisassembler with
  | some space, some disassembler =>
      fallbackFrom unreadable space kMaxBytes disassembler.commonSections.text
  | _, _ => ([], none)

section Rows

variable {View α : Type}

def addressAt (disassembler : Disassembler) (i : Nat) : Except Thrown UInt64 :=
  disassembler.instructionAddresses.element i

def instructionWith (field : Instruction → α) (disassembler : Disassembler) (i : Nat) :
    Except Thrown α :=
  (disassembler.decodedInstructions.element i).map field

/-- What the row accessors of a session share: the value where there is no row, the
field of a fallback row and the read through to the core. -/
def readRow (absent : α) (fallback : DisasmRow → α) (real : Disassembler → Nat → Except Thrown α)
    (world : World View) (decodedForReal : Bool) (shownRows : Nat) (fallbackRows : List DisasmRow)
    (i : Nat) : Except Thrown α :=
  if world.loaded then
    if decodedForReal then
      if shownRows ≤ i then .ok absent
      else match world.currentDisassembler with
        | none => .error .outOfRange
        | some disassembler => real disassembler i
    else .ok (fallbackRows[i]?.elim absent fallback)
  else .ok absent

/-- What the accessors of a session read once its rows are shown. -/
theorem readRow_shown {world : World View} {disassembler : Disassembler}
    (hdisassembler : world.currentDisassembler = some disassembler) {shown i : Nat}
    (hi : i < shown) (absent : α) (fallback : DisasmRow → α)
    (real : Disassembler → Nat → Except Thrown α) (fallbackRows : List DisasmRow) :
    readRow absent fallback real world true shown fallbackRows i = real disassembler i := by
  obtain ⟨pointer, hpointer, -⟩ := Option.bind_eq_some_iff.mp hdisassembler
  have hloaded : world.loaded = true := by
    rw [World.loaded, hpointer]
    rfl
  rw [readRow, if_pos hloaded, if_pos rfl, if_neg (Nat.not_le.mpr hi), hdisassembler]

end Rows

theorem mapM_ok_of_ok {α β : Type} {f g : α → Except Thrown β}
    (hfg : ∀ x value, f x = .ok value → g x = .ok value) :
    ∀ (list : List α) (values : List β), list.mapM f = .ok values → list.mapM g = .ok values
  | [], values, h => h
  | x :: list, values, h => by
      rw [List.mapM_cons] at h ⊢
      obtain ⟨value, hvalue, h⟩ := ok_of_bind h
      obtain ⟨rest, hrest, h⟩ := ok_of_bind h
      rw [hfg x value hvalue, mapM_ok_of_ok hfg list rest hrest]
      exact h

/-- What could be read is what the file has always held. -/
theorem bytes_of_ok {unreadable : UInt64 → Bool} {space : AddressSpace} {offset count : UInt64}
    {raw : List UInt8} (h : bytes unreadable space offset count = .ok raw) :
    bytes (fun _ => false) space offset count = .ok raw := by
  rw [bytes] at h ⊢
  split_ifs at h ⊢
  · exact h
  · refine mapM_ok_of_ok (fun i byte hbyte => ?_) _ _ h
    rw [readU8] at hbyte ⊢
    split_ifs at hbyte
    exact hbyte

theorem fallbackFrom_of_complete {unreadable : UInt64 → Bool} {space : AddressSpace}
    (text : List Header) (budget : UInt64)
    (h : (fallbackFrom unreadable space budget text).2 = none) :
    fallbackFrom (fun _ => false) space budget text =
      fallbackFrom unreadable space budget text := by
  induction text generalizing budget with
  | nil => rfl
  | cons first later ih =>
      simp only [fallbackFrom] at h ⊢
      split_ifs at h ⊢
      · rfl
      · exact ih budget h
      · cases hraw : bytes unreadable space first.offset (atMost first.size budget) with
        | error exception =>
            rw [hraw] at h
            contradiction
        | ok raw =>
            rw [hraw] at h
            rw [bytes_of_ok hraw]
            dsimp only at h ⊢
            rw [ih _ h]

/-- A fallback that was built to its end does not depend on the moment. -/
theorem buildFallback_of_complete {View : Type} {unreadable : UInt64 → Bool} {world : World View}
    (h : (buildFallback unreadable world).2 = none) :
    (buildFallback unreadable world).1 = (buildFallback (fun _ => false) world).1 := by
  rw [buildFallback] at h ⊢
  rw [buildFallback]
  split at h
  · rw [fallbackFrom_of_complete _ _ h]
  · rfl

end Voidwalk.FrontendRows

import Mathlib.Data.List.Chain
import Voidwalk.Library.Words
import Voidwalk.OperandTexts

/-!
The pieces that the renderer puts the texts of the operands together from: every register
that it looks up, and the marks, numbers and names between them.
-/

namespace Voidwalk.PrintedPieces

open Voidwalk.MappedFile
open Voidwalk.OpcodeRows
open Voidwalk.OneByteTables
open Voidwalk.InstructionRendering
open Voidwalk.BracketedText
open Voidwalk.OperandTexts
open Voidwalk.Library.Words

/-- A piece of a text. Each register that is looked up is a piece of its own. -/
inductive Piece where
  | mark (text : String)
  | plain (text : String)
  | register (regNumber : UInt8) (width : Nat)
  | vector (regNumber : UInt8) (size : Size)
  | mmx (regNumber : UInt8)

/-- The answer of a lookup, or the text itself. -/
def Piece.print (fields : Fields) (simd : Simd) : Piece → String
  | .mark text => text
  | .plain text => text
  | .register regNumber width => registerName fields regNumber width
  | .vector regNumber size => vectorName simd regNumber size
  | .mmx regNumber => "MM" ++ toString regNumber.toNat

/-- The text that pieces make up. -/
def print (fields : Fields) (simd : Simd) (pieces : List Piece) : String :=
  String.join (pieces.map (Piece.print fields simd))

section Pieces

variable (fields : Fields) (simd : Simd)

/-- The base of a SIB byte. -/
def basePieces : List Piece :=
  if fields.mod = 0 ∧ fields.base &&& 7 = 5 then []
  else [.register fields.base fields.addrSize]

/-- The scale of an index. -/
def scalePieces : List Piece := [.mark "*", .plain (toString fields.scale.toNat)]

/-- The registers of the memory operand. -/
def registerPieces : List Piece :=
  let rmField := fields.rm &&& 7
  if fields.addrSize = 16 then
    if fields.mod = 0 ∧ rmField = 6 then [] else [.plain (mode16Of fields.rm)]
  else if fields.hasSIB then
    let separator := if (basePieces fields).isEmpty then [] else [.mark " + "]
    match vsibOf fields.info with
    | some vsib =>
        basePieces fields ++ separator ++ .vector fields.index vsib.size :: scalePieces fields
    | none =>
        if fields.index = 4 then basePieces fields
        else
          basePieces fields ++ separator ++
            .register fields.index fields.addrSize :: scalePieces fields
  else if fields.mod = 0 ∧ rmField = 5 then
    if fields.is64Bit then [.plain (if fields.addrSize = 64 then "RIP" else "EIP")] else []
  else [.register fields.rm fields.addrSize]

def displacedPieces (registers : List Piece) : List Piece :=
  if fields.hasDisplacement then
    if registers.isEmpty then
      [.plain (toHex (fields.displacement.toUInt64 &&& mask fields.addrSize))]
    else if fields.displacement < 0 then
      registers ++ [.mark " - ", .plain (toHex (-fields.displacement).toUInt64)]
    else registers ++ [.mark " + ", .plain (toHex fields.displacement.toUInt64)]
  else registers

/-- The memory operand, which is put together whether or not an operand takes it. -/
def memoryPieces : List Piece :=
  if fields.hasModRM ∧ fields.mod ≠ 3 then
    .mark "[" :: displacedPieces fields (registerPieces fields) ++ [.mark "]"]
  else []

/-- The pieces of one operand; `value` is its slot of `immediates`. -/
def operandPieces (segmentText : String) (value : UInt64) (operand : TableOperand) : List Piece :=
  let register (regNumber : UInt8) := [.register regNumber (widthOf fields operand.size)]
  let vector (regNumber : UInt8) := [.vector regNumber operand.size]
  let memory := .plain segmentText :: memoryPieces fields
  match operand.addressingMode with
  | .E | .M => if fields.mod = 3 then register fields.rm else memory
  | .G => register fields.reg
  | .V => vector fields.reg
  | .W => if fields.mod = 3 then vector fields.rm else memory
  | .H => if operand.size = .y then register simd.vvvv else vector simd.vvvv
  | .L => vector ((value >>> 4) &&& (if fields.is64Bit then 15 else 7)).toUInt8
  | .VSIB => memory
  | .P => [.mmx (fields.reg &&& 7)]
  | .Q => if fields.mod = 3 then [.mmx (fields.rm &&& 7)] else memory
  | .S => [.plain (segmentOf fields.reg)]
  | .Z => register ((fields.opcode &&& (7 : UInt8)) ||| ((fields.rexPrefix &&& (1 : UInt8)) <<< 3))
  | .I | .J => [.plain (toHex value)]
  | .O => [.plain segmentText, .mark "[", .plain (toHex value), .mark "]"]
  | .A => [.plain (toHex (value >>> 32)), .mark ":", .plain (toHex (value &&& 0xFFFFFFFF))]
  | .X => [.plain segmentText, .mark "[", .register 6 fields.addrSize, .mark "]"]
  | .Y => [.mark "[", .register 7 fields.addrSize, .mark "]"]
  | .eAX => register 0
  | .eCX => register 1
  | .eDX => register 2
  | .eBX => register 3
  | .eSP => register 4
  | .eBP => register 5
  | .eSI => register 6
  | .eDI => register 7
  | _ => [.plain operand.value]

/-- The pieces of a list of operands, the first immediate of which is in slot `immIndex`. -/
def listedPieces (segmentText : String) : Nat → List TableOperand → List (List Piece)
  | _, [] => []
  | immIndex, operand :: operands =>
      operandPieces fields simd segmentText (fields.immediates[immIndex]?.getD 0) operand ::
        listedPieces segmentText (immIndex + operand.addressingMode.isImmediate.toNat) operands

/-- The pieces of the operands of an instruction. -/
def piecesOf : List (List Piece) :=
  listedPieces fields simd (segmentTextOf fields simd) 0 (operandList fields.info)

/-- Everything that is looked up for an instruction. A bad one ends before the first lookup. -/
def lookups : List Piece :=
  if isBad fields then [] else memoryPieces fields ++ (piecesOf fields simd).flatten

end Pieces

section Texts

variable {fields : Fields} {simd : Simd}

@[simp]
theorem print_nil : print fields simd [] = "" := rfl

@[simp]
theorem print_cons (piece : Piece) (pieces : List Piece) :
    print fields simd (piece :: pieces) = piece.print fields simd ++ print fields simd pieces := by
  simp [print]

@[simp]
theorem print_append (first second : List Piece) :
    print fields simd (first ++ second) = print fields simd first ++ print fields simd second := by
  simp [print]

/-- The names of general registers. -/
def generalNames : List String :=
  registerNames8.toList ++ registerNames8Rex.toList ++ registerNames16.toList ++
    registerNames32.toList ++ registerNames64.toList

theorem registerOf_named {regNumber bits : Nat} {hasREX : Bool}
    (h : ¬ (regNumber > 15 ∨ (bits = 8 ∧ hasREX = false ∧ regNumber > 7))) :
    registerOf regNumber bits hasREX ∈ generalNames := by
  simp only [generalNames, List.mem_append]
  rw [registerOf, dif_neg h]
  dsimp only
  split
  · split
    · simp [Vector.getElem_mem]
    · simp [Vector.getElem_mem]
  split
  · simp [Vector.getElem_mem]
  split
  · simp [Vector.getElem_mem]
  · simp [Vector.getElem_mem]

theorem generalNames_ne : ∀ name ∈ generalNames, name ≠ "" ∧ name ≠ "(bad)" := by decide +kernel

theorem registerOf_ne_empty (regNumber bits : Nat) (hasREX : Bool) :
    registerOf regNumber bits hasREX ≠ "" := by
  by_cases h : regNumber > 15 ∨ (bits = 8 ∧ hasREX = false ∧ regNumber > 7)
  · rw [registerOf, dif_pos h]
    decide
  · exact (generalNames_ne _ (registerOf_named h)).1

theorem mode16Of_ne_empty (rm : UInt8) : mode16Of rm ≠ "" := by
  have hnames : ∀ name ∈ modes16.toList, name ≠ "" := by decide
  apply hnames
  simp [mode16Of, Vector.getElem_mem]

theorem print_basePieces : print fields simd (basePieces fields) =
    if fields.mod = 0 ∧ fields.base &&& 7 = 5 then ""
    else registerName fields fields.base fields.addrSize := by
  rw [basePieces]
  split
  · rfl
  · simp [Piece.print]

theorem print_basePieces_empty :
    print fields simd (basePieces fields) = "" ↔ (basePieces fields).isEmpty = true := by
  rw [print_basePieces, basePieces]
  split
  · simp
  · simp [registerName, registerOf_ne_empty]

theorem print_registerPieces :
    print fields simd (registerPieces fields) = memoryRegisters fields simd := by
  rw [registerPieces, memoryRegisters, ← @print_basePieces fields simd]
  simp only [print_basePieces_empty]
  split
  · split
    · rfl
    · simp [Piece.print]
  split
  · have hseparator : print fields simd
        (if (basePieces fields).isEmpty = true then [] else [.mark " + "]) =
        if (basePieces fields).isEmpty = true then "" else " + " := by
      split
      · rfl
      · simp [Piece.print]
    cases vsibOf fields.info with
    | some vsib =>
        simp only [print_append, print_cons, print_nil, hseparator, scalePieces, Piece.print,
          String.append_assoc, String.append_empty]
    | none =>
        dsimp only
        split
        · rfl
        · simp only [print_append, print_cons, print_nil, hseparator, scalePieces, Piece.print,
            String.append_assoc, String.append_empty]
  split
  · split
    · simp [Piece.print]
    · rfl
  · simp [Piece.print]

theorem memoryRegisters_empty :
    memoryRegisters fields simd = "" ↔ (registerPieces fields).isEmpty = true := by
  rw [← print_registerPieces, registerPieces]
  split
  · split
    · simp
    · simp [Piece.print, mode16Of_ne_empty]
  split
  · cases vsibOf fields.info with
    | some vsib => simp [scalePieces, Piece.print]
    | none =>
        dsimp only
        split
        · exact print_basePieces_empty
        · simp [scalePieces, Piece.print]
  split
  · split
    · simp only [print_cons, print_nil, Piece.print]
      split <;> simp
    · simp
  · simp [Piece.print, registerName, registerOf_ne_empty]

theorem print_memoryPieces :
    print fields simd (memoryPieces fields) = memoryOperandOf fields simd := by
  rw [memoryPieces, memoryOperandOf]
  split
  · rw [withDisplacement, displacedPieces]
    simp only [memoryRegisters_empty]
    split
    · split
      · simp [Piece.print, String.append_assoc]
      split
      · simp [Piece.print, print_registerPieces, String.append_assoc]
      · simp [Piece.print, print_registerPieces, String.append_assoc]
    · simp [Piece.print, print_registerPieces, String.append_assoc]
  · rfl

/-- The text of an operand is that of its pieces. -/
theorem print_operandPieces (segmentText : String) (value : UInt64) (operand : TableOperand) :
    print fields simd (operandPieces fields simd segmentText value operand) =
      operandText fields simd segmentText value operand := by
  have hregister (regNumber : UInt8) (width : Nat) :
      print fields simd [.register regNumber width] = registerName fields regNumber width := by
    simp [Piece.print]
  have hvector (regNumber : UInt8) (size : Size) :
      print fields simd [.vector regNumber size] = vectorName simd regNumber size := by
    simp [Piece.print]
  have hmemory : print fields simd (.plain segmentText :: memoryPieces fields) =
      segmentText ++ memoryOperandOf fields simd := by
    rw [print_cons, print_memoryPieces]
    rfl
  rcases operand with ⟨mode, size, text⟩
  cases mode
  case E | M =>
    rw [operandText_general _ _ (by simp), operandPieces]
    dsimp only
    split
    · exact hregister _ _
    · exact hmemory
  case W =>
    rw [operandText_vector _ _ rfl, operandPieces]
    dsimp only
    split
    · exact hvector _ _
    · exact hmemory
  case Q =>
    rw [operandText_mmx _ _ rfl, operandPieces]
    dsimp only
    split
    · simp [Piece.print]
    · exact hmemory
  case H =>
    rw [operandText_vvvv _ _ rfl, operandPieces]
    dsimp only
    split
    · exact hregister _ _
    · exact hvector _ _
  case V | L => exact hvector _ _
  case VSIB => exact hmemory
  case G | Z | eAX | eCX | eDX | eBX | eSP | eBP | eSI | eDI => exact hregister _ _
  case O | A | X | Y =>
    simp only [operandPieces, print_cons, print_nil, Piece.print, ← String.append_assoc,
      String.append_empty]
    rfl
  all_goals
    simp only [operandPieces, print_cons, print_nil, Piece.print, String.append_empty]
    rfl

theorem print_listedPieces (segmentText : String) (immIndex : Nat)
    (operands : List TableOperand) :
    (listedPieces fields simd segmentText immIndex operands).map (print fields simd) =
      printedTexts fields simd segmentText immIndex operands := by
  induction operands generalizing immIndex with
  | nil => rfl
  | cons operand operands ih =>
      rw [listedPieces, List.map_cons, print_operandPieces, ih]
      rfl

/-- The text of an instruction ends in the pieces of its operands. -/
theorem instructionText_pieces {instruction : Instruction}
    (hinstruction : x86_64 fields simd = .ok instruction) (hnamed : isBad fields = false) :
    ∃ segmentUsed, instruction.instructionText = prefixWords fields simd segmentUsed ++
      mnemonicOf fields simd ++ " \t" ++
        ", ".intercalate ((piecesOf fields simd).map (print fields simd)) := by
  obtain ⟨printed, hrun, htext⟩ := instructionText_x86_64 hinstruction hnamed
  have htexts : printed.texts = textsOf fields simd :=
    (printOperands_adds (operandList fields.info) {}).of_ok printed hrun
  refine ⟨printed.segmentUsed, ?_⟩
  rw [htext, htexts, textsOf, piecesOf, print_listedPieces]

end Texts

section Words

variable {fields : Fields} {simd : Simd}

/-- What keeps words apart: everything but letters and digits. -/
def isMark (symbol : Char) : Bool := !symbol.isAlphanum

/-- The words of a text. -/
def words (text : String) : List (List Char) := wordsOf isMark text.toList

/-- The texts that stand between two words. -/
def marks : List String := ["[", "]", " + ", " - ", "*", ":"]

def Piece.separates : Piece → Bool
  | .mark text => marks.contains text
  | _ => false

/-- Of two pieces in a row one is a mark. -/
def Spaced (pieces : List Piece) : Prop :=
  pieces.IsChain fun first second => first.separates = true ∨ second.separates = true

theorem spaced_singleton (piece : Piece) : Spaced [piece] := List.isChain_singleton piece

theorem spaced_nil : Spaced [] := List.isChain_nil

theorem Spaced.separated {first second : List Piece} (hfirst : Spaced first)
    (hsecond : Spaced second) {mark : Piece} (hmark : mark.separates = true) :
    Spaced (first ++ mark :: second) := by
  refine List.IsChain.append hfirst ?_ fun _ _ later hlater => Or.inr ?_
  · exact hsecond.cons fun _ _ => Or.inl hmark
  · obtain rfl : mark = later := by simpa using hlater
    exact hmark

/-- Something in brackets, behind the segment it is in. -/
theorem Spaced.bracketed {pieces front : List Piece} (hfront : Spaced front) (h : Spaced pieces) :
    Spaced (front ++ .mark "[" :: (pieces ++ [.mark "]"])) :=
  hfront.separated (h.separated spaced_nil (by decide)) (by decide)

theorem spaced_basePieces (fields : Fields) : Spaced (basePieces fields) := by
  rw [basePieces]
  split
  · exact spaced_nil
  · exact spaced_singleton _

theorem spaced_registerPieces (fields : Fields) : Spaced (registerPieces fields) := by
  have hscaled (index : Piece) : Spaced (index :: scalePieces fields) :=
    (spaced_singleton index).separated (spaced_singleton _) (by decide)
  have hsum (index : Piece) : Spaced (basePieces fields ++
      (if (basePieces fields).isEmpty then [] else [.mark " + "]) ++
        index :: scalePieces fields) := by
    split
    · rename_i hempty
      rw [List.isEmpty_iff.mp hempty]
      exact hscaled index
    · rw [List.append_assoc]
      exact (spaced_basePieces fields).separated (hscaled index) (by decide)
  rw [registerPieces]
  split
  · split
    · exact spaced_nil
    · exact spaced_singleton _
  split
  · cases vsibOf fields.info with
    | some vsib => exact hsum _
    | none =>
        dsimp only
        split
        · exact spaced_basePieces fields
        · exact hsum _
  split
  · split
    · exact spaced_singleton _
    · exact spaced_nil
  · exact spaced_singleton _

theorem spaced_displacedPieces (fields : Fields) {registers : List Piece}
    (h : Spaced registers) : Spaced (displacedPieces fields registers) := by
  rw [displacedPieces]
  split
  · split
    · exact spaced_singleton _
    split
    · exact h.separated (spaced_singleton _) (by decide)
    · exact h.separated (spaced_singleton _) (by decide)
  · exact h

theorem spaced_memoryPieces (fields : Fields) {front : List Piece} (hfront : Spaced front) :
    Spaced (front ++ memoryPieces fields) := by
  rw [memoryPieces]
  split
  · exact hfront.bracketed (spaced_displacedPieces fields (spaced_registerPieces fields))
  · rwa [List.append_nil]

theorem spaced_operandPieces (segmentText : String) (value : UInt64) (operand : TableOperand) :
    Spaced (operandPieces fields simd segmentText value operand) := by
  have hmemory : Spaced ([.plain segmentText] ++ memoryPieces fields) :=
    spaced_memoryPieces fields (spaced_singleton _)
  rcases operand with ⟨mode, size, text⟩
  cases mode
  case E | M | W | Q =>
    rw [operandPieces]
    dsimp only
    split
    · exact spaced_singleton _
    · exact hmemory
  case H =>
    rw [operandPieces]
    dsimp only
    split
    · exact spaced_singleton _
    · exact spaced_singleton _
  case VSIB => exact hmemory
  case O | X => exact (spaced_singleton _).bracketed (spaced_singleton _)
  case Y => exact spaced_nil.bracketed (spaced_singleton _)
  case A => exact (spaced_singleton _).separated (spaced_singleton _) (by decide)
  all_goals exact spaced_singleton _

theorem toList_print (pieces : List Piece) : (print fields simd pieces).toList =
    (pieces.map fun piece => (piece.print fields simd).toList).flatten := by
  induction pieces with
  | nil => rfl
  | cons piece pieces ih => simp [ih]

/-- Pieces bring no words but their own. -/
theorem Spaced.wordsAre {pieces : List Piece} (h : Spaced pieces) {N : List Char → Prop}
    (hnone : N [])
    (hpieces : ∀ piece ∈ pieces, WordsAre isMark N (piece.print fields simd).toList) :
    WordsAre isMark N (print fields simd pieces).toList := by
  have hmarks : ∀ text ∈ marks, text.toList.getLast?.any isMark = true ∧
      text.toList.head?.any isMark = true := by decide
  have hends {piece : Piece} (hpiece : piece.separates = true) :
      (piece.print fields simd).toList.getLast?.any isMark = true ∧
        (piece.print fields simd).toList.head?.any isMark = true := by
    cases piece with
    | mark text => exact hmarks text (List.contains_iff_mem.mp hpiece)
    | plain text => contradiction
    | register regNumber width => contradiction
    | vector regNumber size => contradiction
    | mmx regNumber => contradiction
  rw [toList_print]
  apply wordsAre_flatten hnone
  · rw [List.isChain_map]
    exact h.imp fun _ _ hseparates =>
      hseparates.imp (fun hfirst => (hends hfirst).1) fun hsecond => (hends hsecond).2
  · simpa only [List.forall_mem_map] using hpieces

end Words

end Voidwalk.PrintedPieces

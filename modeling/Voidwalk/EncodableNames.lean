import Voidwalk.DecodedFields
import Voidwalk.LegacyWords
import Voidwalk.ParallelDecoding

/-!
Every register that the renderer looks up exists in the encoding, and the text of a row in
legacy mode has no name that only long mode has.
-/

namespace Voidwalk.EncodableNames

open Voidwalk.MappedFile
open Voidwalk.OpcodeRows
open Voidwalk.OneByteTables
open Voidwalk.InstructionRendering
open Voidwalk.InstructionDecoding
open Voidwalk.DecodeLineContract
open Voidwalk.SelfDelimiting
open Voidwalk.PrefixedOpcodes
open Voidwalk.MemoryOperand
open Voidwalk.RowKinds
open Voidwalk.RowTexts
open Voidwalk.DecodedFields
open Voidwalk.PrintedPieces
open Voidwalk.LegacyWords
open Voidwalk.Library.Bytes
open Voidwalk.Library.CountingReader
open Voidwalk.Library.Words

section Numbers

/-- A register number: past 7 it takes a REX prefix and long mode. -/
structure Extends (is64Bit : Bool) (rexPrefix number : UInt8) : Prop where
  lt : number.toNat < registerCount is64Bit
  low : rexPrefix = 0 → number.toNat < 8

theorem extends_low {is64Bit : Bool} {rexPrefix number : UInt8} (h : number.toNat < 8) :
    Extends is64Bit rexPrefix number := by
  refine ⟨h.trans_le ?_, fun _ => h⟩
  cases is64Bit <;> decide

theorem extends_bits {is64Bit : Bool} {fields : Fields}
    (hlegacy : is64Bit = false → fields.rexPrefix = 0) {bit shift : UInt8}
    (hbit : (bit, shift) ∈ [(4, 1), (2, 2), (1, 3)]) (byte : UInt8) :
    Extends is64Bit fields.rexPrefix ((byte &&& 7) ||| rexBit fields bit shift) := by
  refine ⟨register_lt hlegacy hbit byte, fun hnone => ?_⟩
  have hlow : ∀ byte : UInt8, ((byte &&& 7) ||| (0 : UInt8)).toNat < 8 := by
    apply forall_byte
    decide +kernel
  rcases rexBit_cases hbit with hzero | ⟨hrex, -⟩
  · rw [hzero]
    exact hlow byte
  · exact absurd hnone hrex

/-- The widths that the mode has. -/
structure Width (is64Bit : Bool) (width : Nat) : Prop where
  cases : width = 8 ∨ width = 16 ∨ width = 32 ∨ width = 64
  legacy : is64Bit = false → width ≠ 64

/-- What the renderer relies on in a decoded instruction. -/
structure Numbered (is64Bit : Bool) (fields : Fields) (simd : Simd) : Prop where
  mode : fields.is64Bit = is64Bit
  legacy : is64Bit = false → fields.rexPrefix = 0
  reg : Extends is64Bit fields.rexPrefix fields.reg
  rm : Extends is64Bit fields.rexPrefix fields.rm
  index : fields.hasSIB = true → Extends is64Bit fields.rexPrefix fields.index
  base : fields.hasSIB = true → Extends is64Bit fields.rexPrefix fields.base
  vvvv_lt : simd.vvvv.toNat < registerCount is64Bit
  opSize : Width is64Bit fields.opSize ∧ fields.opSize ≠ 8
  addrSize : Width is64Bit fields.addrSize ∧ fields.addrSize ≠ 8

variable {is64Bit : Bool} {opened named decoded : DecodeLocals}

theorem width_addrSize (is64Bit : Bool) (locals : DecodeLocals) (row : OpcodeInfo) :
    Width is64Bit (resolved is64Bit locals row).fields.addrSize ∧
      (resolved is64Bit locals row).fields.addrSize ≠ 8 := by
  rw [addrSize_resolved]
  cases is64Bit with
  | true => cases locals.hasAddrSizePrefix <;> exact ⟨⟨by simp, by simp⟩, by simp⟩
  | false => cases locals.hasAddrSizePrefix <;> exact ⟨⟨by simp, by simp⟩, by simp⟩

theorem rexPrefix_resolved (is64Bit : Bool) (locals : DecodeLocals) (row : OpcodeInfo) :
    (resolved is64Bit locals row).fields.rexPrefix = locals.fields.rexPrefix ∧
      (resolved is64Bit locals row).fields.hasSIB = locals.fields.hasSIB := by
  rw [fields_resolved]
  exact ⟨rfl, rfl⟩

/-- The numbers of a ModRM byte, and those where there is none. -/
theorem extends_modRM (hextended : Extended is64Bit opened) (modRM : Option UInt8) :
    Extends is64Bit opened.fields.rexPrefix (addressed opened modRM).fields.reg ∧
      Extends is64Bit opened.fields.rexPrefix (addressed opened modRM).fields.rm := by
  cases modRM with
  | none =>
      have hnone : opened.fields.reg = 0 ∧ opened.fields.rm = 0 := by
        rw [hextended.fields_eq]
        exact ⟨rfl, rfl⟩
      rw [addressed, hnone.1, hnone.2]
      exact ⟨extends_low (by decide), extends_low (by decide)⟩
  | some modRM =>
      constructor
      · exact extends_bits hextended.legacy (by simp) (modRM >>> 3)
      · exact extends_bits hextended.legacy (by simp) modRM

theorem extends_sib (hextended : Extended is64Bit opened) {modRM : Option UInt8}
    {row : OpcodeInfo} (hfound : Found is64Bit opened modRM row named)
    (hsib : named.fields.hasSIB = true) :
    Extends is64Bit opened.fields.rexPrefix named.fields.index ∧
      Extends is64Bit opened.fields.rexPrefix named.fields.base := by
  obtain ⟨hrex, hnone⟩ := rexPrefix_resolved is64Bit (addressed opened modRM) row
  have haddressed : (addressed opened modRM).fields.hasSIB = false := by
    have hopened : opened.fields.hasSIB = false := by
      rw [hextended.fields_eq]
    cases modRM with
    | none => exact hopened
    | some modRM => exact hopened
  obtain ⟨sib, hindex, hbase⟩ := hfound.memory.sib hsib (hnone.trans haddressed)
  rw [rexPrefix_addressed] at hrex
  rw [← hrex, hindex, hbase]
  have hlegacy : is64Bit = false →
      (resolved is64Bit (addressed opened modRM) row).fields.rexPrefix = 0 := by
    rw [hrex]
    exact hextended.legacy
  exact ⟨extends_bits hlegacy (by simp) (sib >>> 3), extends_bits hlegacy (by simp) sib⟩

theorem numbered_of_decoded (h : Decoded is64Bit opened named decoded) :
    Numbered is64Bit decoded.fields decoded.simd := by
  obtain ⟨modRM, row, hfound⟩ := h.found
  obtain ⟨-, hrex, hmode, -, -, -, hreg, hrm, -, haddrSize⟩ := hfound.fields_eq
  obtain ⟨hopSize, -, hnarrow⟩ := hfound.opSize_cases h.extended
  obtain ⟨hextendsReg, hextendsRm⟩ := extends_modRM h.extended modRM
  have hopenedMode : opened.fields.is64Bit = is64Bit := by
    rw [h.extended.fields_eq]
  rw [h.simd, h.fields]
  refine ⟨hmode.trans hopenedMode, ?_, ?_, ?_, ?_, ?_, ?_, ?_, ?_⟩
  · exact fun hlegacy => hrex.trans (h.extended.legacy hlegacy)
  · dsimp only
    rwa [hrex, hreg]
  · dsimp only
    rwa [hrex, hrm]
  · dsimp only
    rw [hrex]
    exact fun hsib => (extends_sib h.extended hfound hsib).1
  · dsimp only
    rw [hrex]
    exact fun hsib => (extends_sib h.extended hfound hsib).2
  · rw [hfound.simd_eq.2.1]
    exact h.extended.vvvv_lt
  · exact ⟨⟨Or.inr hopSize, hnarrow⟩, by dsimp only; omega⟩
  · dsimp only
    rw [haddrSize]
    exact width_addrSize is64Bit _ row

end Numbers

section Pieces

/-- A lookup that has an answer. -/
def Answered (fields : Fields) : Piece → Prop
  | .register regNumber width => registerName fields regNumber width ≠ "(bad)"
  | .vector regNumber _ => regNumber.toNat < 16
  | .mmx regNumber => regNumber.toNat < 8
  | .mark _ => True
  | .plain _ => True

/-- A piece as the mode encodes it. -/
def Fits (is64Bit : Bool) (rexPrefix : UInt8) : Piece → Prop
  | .register regNumber width =>
      (regNumber.toNat < registerCount is64Bit ∧ Width is64Bit width) ∧
        (width = 8 → Extends is64Bit rexPrefix regNumber) ∧ (is64Bit = false → rexPrefix = 0)
  | .vector regNumber _ => regNumber.toNat < registerCount is64Bit
  | .mmx regNumber => regNumber.toNat < 8
  | .mark text => text ∈ marks
  | .plain text => is64Bit = false → Legacy text

variable {is64Bit : Bool} {fields : Fields} {simd : Simd} {piece : Piece}

theorem Fits.answered (h : Fits is64Bit fields.rexPrefix piece) : Answered fields piece := by
  have hcount {regNumber : UInt8} (hlt : regNumber.toNat < registerCount is64Bit) :
      regNumber.toNat < 16 := by
    refine hlt.trans_le ?_
    cases is64Bit <;> decide
  cases piece with
  | mark text => trivial
  | plain text => trivial
  | vector regNumber size => exact hcount h
  | mmx regNumber => exact h
  | register regNumber width =>
      obtain ⟨⟨hlt, -⟩, hlow, -⟩ := h
      refine (generalNames_ne _ (registerOf_named ?_)).2
      rintro (hmany | ⟨hwidth, hnone, hhigh⟩)
      · exact absurd (hcount hlt) (by omega)
      · exact absurd ((hlow hwidth).low (by simpa using hnone)) (by omega)

theorem Fits.legacy (h : Fits false fields.rexPrefix piece) : Legacy (piece.print fields simd) := by
  have hvectors : ∀ front ∈ ["XMM", "YMM", "MM"], ∀ n : Fin 8, Legacy (front ++ toString n.val) := by
    decide +kernel
  have hmarks : ∀ text ∈ marks, Legacy text := by decide +kernel
  have hregisters : ∀ width ∈ [8, 16, 32], ∀ n : Fin 8, Legacy (registerOf n width false) := by
    decide +kernel
  cases piece with
  | mark text => exact hmarks text h
  | plain text => exact h rfl
  | vector regNumber size =>
      refine hvectors _ ?_ ⟨regNumber.toNat, h⟩
      split <;> simp
  | mmx regNumber => exact hvectors "MM" (by simp) ⟨regNumber.toNat, h⟩
  | register regNumber width =>
      obtain ⟨⟨hlt, hwidth⟩, -, hrex⟩ := h
      have hwidths : width ∈ [8, 16, 32] := by
        have hcases := hwidth.cases
        have hnarrow := hwidth.legacy rfl
        simp only [List.mem_cons, List.not_mem_nil, or_false]
        omega
      have hname := hregisters width hwidths ⟨regNumber.toNat, hlt⟩
      rw [Piece.print, registerName, hrex rfl]
      exact hname

namespace Numbered

variable (h : Numbered is64Bit fields simd)

include h

theorem register {regNumber : UInt8} (hextends : Extends is64Bit fields.rexPrefix regNumber)
    {width : Nat} (hwidth : Width is64Bit width) :
    Fits is64Bit fields.rexPrefix (.register regNumber width) :=
  ⟨⟨hextends.lt, hwidth⟩, fun _ => hextends, h.legacy⟩

theorem widthOf (size : Size) : Width is64Bit (widthOf fields size) := by
  obtain ⟨hcases, hlegacy⟩ := h.opSize.1
  rw [InstructionRendering.widthOf.eq_def]
  split
  · exact ⟨by simp, by simp⟩
  · exact ⟨by simp, by simp⟩
  · exact ⟨by simp, by simp⟩
  · split
    · exact ⟨by simp, by simp⟩
    · exact ⟨by simp, by simp⟩
  · split
    · rename_i hwide
      exact ⟨by simp, fun hmode => absurd hwide (hlegacy hmode)⟩
    · exact ⟨by simp, by simp⟩
  · exact ⟨hcases, hlegacy⟩

theorem basePieces (hsib : fields.hasSIB = true) :
    ∀ piece ∈ basePieces fields, Fits is64Bit fields.rexPrefix piece := by
  rw [PrintedPieces.basePieces]
  split
  · exact fun _ hnone => absurd hnone List.not_mem_nil
  · rw [List.forall_mem_singleton]
    exact h.register (h.base hsib) h.addrSize.1

theorem registerPieces : ∀ piece ∈ registerPieces fields, Fits is64Bit fields.rexPrefix piece := by
  have hscale : ∀ piece ∈ scalePieces fields, Fits is64Bit fields.rexPrefix piece := by
    rw [scalePieces, List.forall_mem_cons, List.forall_mem_singleton]
    exact ⟨(by decide : "*" ∈ marks), fun _ => legacy_toString _⟩
  have hsum (hsib : fields.hasSIB = true) {index : Piece}
      (hindex : Fits is64Bit fields.rexPrefix index) :
      ∀ piece ∈ PrintedPieces.basePieces fields ++
        (if (PrintedPieces.basePieces fields).isEmpty then [] else [.mark " + "]) ++
          index :: scalePieces fields, Fits is64Bit fields.rexPrefix piece := by
    rw [List.forall_mem_append, List.forall_mem_append, List.forall_mem_cons]
    refine ⟨⟨h.basePieces hsib, ?_⟩, hindex, hscale⟩
    split
    · exact fun _ hnone => absurd hnone List.not_mem_nil
    · rw [List.forall_mem_singleton]
      exact (by decide : " + " ∈ marks)
  rw [PrintedPieces.registerPieces]
  split
  · split
    · exact fun _ hnone => absurd hnone List.not_mem_nil
    · rw [List.forall_mem_singleton]
      exact fun _ => legacy_mode16Of _
  split
  · rename_i hsib
    cases vsibOf fields.info with
    | some vsib => exact hsum hsib (h.index hsib).lt
    | none =>
        dsimp only
        split
        · exact h.basePieces hsib
        · exact hsum hsib (h.register (h.index hsib) h.addrSize.1)
  split
  · split
    · rename_i hlong
      rw [List.forall_mem_singleton]
      exact fun hmode => absurd (hmode.symm.trans (h.mode.symm.trans hlong)) (by decide)
    · exact fun _ hnone => absurd hnone List.not_mem_nil
  · rw [List.forall_mem_singleton]
    exact h.register h.rm h.addrSize.1

theorem memoryPieces : ∀ piece ∈ memoryPieces fields, Fits is64Bit fields.rexPrefix piece := by
  have hhex (value : UInt64) : Fits is64Bit fields.rexPrefix (.plain (toHex value)) :=
    fun _ => legacy_toHex value
  rw [PrintedPieces.memoryPieces]
  split
  · rw [List.forall_mem_append, List.forall_mem_cons, List.forall_mem_singleton]
    refine ⟨⟨(by decide : "[" ∈ marks), ?_⟩, (by decide : "]" ∈ marks)⟩
    rw [displacedPieces]
    split
    · split
      · rw [List.forall_mem_singleton]
        exact hhex _
      split
      · rw [List.forall_mem_append, List.forall_mem_cons, List.forall_mem_singleton]
        exact ⟨h.registerPieces, (by decide : " - " ∈ marks), hhex _⟩
      · rw [List.forall_mem_append, List.forall_mem_cons, List.forall_mem_singleton]
        exact ⟨h.registerPieces, (by decide : " + " ∈ marks), hhex _⟩
    · exact h.registerPieces
  · exact fun _ hnone => absurd hnone List.not_mem_nil

theorem vvvv {size : Size} (hsize : size = .y) :
    Fits is64Bit fields.rexPrefix
      (.register simd.vvvv (InstructionRendering.widthOf fields size)) := by
  refine ⟨⟨h.vvvv_lt, h.widthOf size⟩, ?_, h.legacy⟩
  -- The width is 32 or 64, whatever REX says.
  rw [hsize, InstructionRendering.widthOf]
  split
  · exact fun hbyte => absurd hbyte (by decide)
  · exact fun hbyte => absurd hbyte (by decide)

theorem topBits (value : UInt64) :
    ((value >>> 4) &&& (if fields.is64Bit then 15 else 7)).toUInt8.toNat <
      registerCount is64Bit := by
  rw [h.mode]
  cases is64Bit with
  | true =>
      have hle := @Nat.and_le_right (value >>> 4).toNat 15
      simp only [if_true, UInt64.toNat_toUInt8, UInt64.toNat_and, registerCount]
      have hmod := Nat.mod_le ((value >>> 4).toNat &&& (15 : UInt64).toNat) 256
      exact Nat.lt_succ_of_le (hmod.trans hle)
  | false =>
      have hle := @Nat.and_le_right (value >>> 4).toNat 7
      simp only [Bool.false_eq_true, if_false, UInt64.toNat_toUInt8, UInt64.toNat_and,
        registerCount]
      have hmod := Nat.mod_le ((value >>> 4).toNat &&& (7 : UInt64).toNat) 256
      exact Nat.lt_succ_of_le (hmod.trans hle)

theorem operandPieces {segmentText : String} (hsegment : Legacy segmentText) (value : UInt64)
    {operand : TableOperand} (hoperand : operand.value ∈ operandValues) :
    ∀ piece ∈ operandPieces fields simd segmentText value operand,
      Fits is64Bit fields.rexPrefix piece := by
  have hplain {text : String} (htext : Legacy text) : Fits is64Bit fields.rexPrefix (.plain text) :=
    fun _ => htext
  have hregister {regNumber : UInt8} (hextends : Extends is64Bit fields.rexPrefix regNumber)
      (size : Size) : Fits is64Bit fields.rexPrefix
        (.register regNumber (InstructionRendering.widthOf fields size)) :=
    h.register hextends (h.widthOf size)
  have hmemory : ∀ piece ∈ .plain segmentText :: PrintedPieces.memoryPieces fields,
      Fits is64Bit fields.rexPrefix piece :=
    List.forall_mem_cons.mpr ⟨hplain hsegment, h.memoryPieces⟩
  have hbracketed {piece : Piece} (hpiece : Fits is64Bit fields.rexPrefix piece) :
      ∀ part ∈ [.mark "[", piece, .mark "]"], Fits is64Bit fields.rexPrefix part := by
    rw [List.forall_mem_cons, List.forall_mem_cons, List.forall_mem_singleton]
    exact ⟨(by decide : "[" ∈ marks), hpiece, (by decide : "]" ∈ marks)⟩
  have hlow {regNumber : UInt8} (hnumber : regNumber.toNat < 8) :
      Extends is64Bit fields.rexPrefix regNumber := extends_low hnumber
  rcases operand with ⟨mode, size, text⟩
  cases mode
  case E | M =>
    rw [PrintedPieces.operandPieces]
    dsimp only
    split
    · exact List.forall_mem_singleton.mpr (hregister h.rm size)
    · exact hmemory
  case W =>
    rw [PrintedPieces.operandPieces]
    dsimp only
    split
    · exact List.forall_mem_singleton.mpr h.rm.lt
    · exact hmemory
  case Q =>
    rw [PrintedPieces.operandPieces]
    dsimp only
    split
    · exact List.forall_mem_singleton.mpr (toNat_and_seven_lt fields.rm)
    · exact hmemory
  case H =>
    rw [PrintedPieces.operandPieces]
    dsimp only
    split
    · rename_i hsize
      exact List.forall_mem_singleton.mpr (h.vvvv hsize)
    · exact List.forall_mem_singleton.mpr h.vvvv_lt
  case G => exact List.forall_mem_singleton.mpr (hregister h.reg size)
  case V => exact List.forall_mem_singleton.mpr h.reg.lt
  case L => exact List.forall_mem_singleton.mpr (h.topBits value)
  case VSIB => exact hmemory
  case P => exact List.forall_mem_singleton.mpr (toNat_and_seven_lt fields.reg)
  case S => exact List.forall_mem_singleton.mpr (hplain (legacy_segmentOf fields.reg))
  case Z =>
    exact List.forall_mem_singleton.mpr (hregister (extends_bits h.legacy (by simp) _) size)
  case I | J => exact List.forall_mem_singleton.mpr (hplain (legacy_toHex value))
  case O =>
    exact List.forall_mem_cons.mpr ⟨hplain hsegment, hbracketed (hplain (legacy_toHex value))⟩
  case A =>
    rw [PrintedPieces.operandPieces, List.forall_mem_cons, List.forall_mem_cons,
      List.forall_mem_singleton]
    exact ⟨hplain (legacy_toHex _), (by decide : ":" ∈ marks), hplain (legacy_toHex _)⟩
  case X =>
    refine List.forall_mem_cons.mpr ⟨hplain hsegment, hbracketed ?_⟩
    exact h.register (hlow (by decide)) h.addrSize.1
  case Y => exact hbracketed (h.register (hlow (by decide)) h.addrSize.1)
  case eAX | eCX | eDX | eBX | eSP | eBP | eSI | eDI =>
    exact List.forall_mem_singleton.mpr (hregister (hlow (by decide)) size)
  all_goals exact List.forall_mem_singleton.mpr (hplain (legacy_operandValue hoperand))

theorem listedPieces {segmentText : String} (hsegment : Legacy segmentText) (immIndex : Nat)
    {operands : List TableOperand}
    (hoperands : ∀ operand ∈ operands, operand.value ∈ operandValues) :
    ∀ pieces ∈ listedPieces fields simd segmentText immIndex operands, ∀ piece ∈ pieces,
      Fits is64Bit fields.rexPrefix piece := by
  induction operands generalizing immIndex with
  | nil => exact fun _ hnone => absurd hnone List.not_mem_nil
  | cons operand operands ih =>
      rw [List.forall_mem_cons] at hoperands
      rw [PrintedPieces.listedPieces, List.forall_mem_cons]
      exact ⟨h.operandPieces hsegment _ hoperands.1, ih _ hoperands.2⟩

theorem piecesOf (hinfo : Texts Spelled (· ∈ operandValues) fields.info) :
    ∀ pieces ∈ piecesOf fields simd, ∀ piece ∈ pieces, Fits is64Bit fields.rexPrefix piece := by
  apply h.listedPieces (legacy_segmentTextOf fields simd)
  exact forall_operandList hinfo.values fun _ => (by decide : "" ∈ operandValues)

theorem lookups (hinfo : Texts Spelled (· ∈ operandValues) fields.info) :
    ∀ piece ∈ lookups fields simd, Answered fields piece := by
  rw [PrintedPieces.lookups]
  split
  · exact fun _ hnone => absurd hnone List.not_mem_nil
  · rw [List.forall_mem_append]
    refine ⟨fun piece hpiece => (h.memoryPieces piece hpiece).answered, fun piece hpiece => ?_⟩
    obtain ⟨pieces, hpieces, hmem⟩ := List.mem_flatten.mp hpiece
    exact (h.piecesOf hinfo pieces hpieces piece hmem).answered

end Numbered

theorem spaced_piecesOf (fields : Fields) (simd : Simd) :
    ∀ pieces ∈ piecesOf fields simd, Spaced pieces := by
  have hlisted (segmentText : String) (operands : List TableOperand) (immIndex : Nat) :
      ∀ pieces ∈ listedPieces fields simd segmentText immIndex operands, Spaced pieces := by
    induction operands generalizing immIndex with
    | nil => exact fun _ hnone => absurd hnone List.not_mem_nil
    | cons operand operands ih =>
        rw [listedPieces, List.forall_mem_cons]
        exact ⟨spaced_operandPieces _ _ _, ih _⟩
  exact hlisted _ _ _

/-- The text of a row in legacy mode. -/
theorem legacy_instructionText {instruction : Instruction} (h : Numbered false fields simd)
    (hspelled : Texts Spelled (· ∈ operandValues) fields.info)
    (hlegacy : Texts (fun text => isLegacyName (nameBytes text) = true) (fun _ => True) fields.info)
    (hinstruction : x86_64 fields simd = .ok instruction) (hnamed : isBad fields = false) :
    Legacy instruction.instructionText := by
  obtain ⟨segmentUsed, htext⟩ := instructionText_pieces hinstruction hnamed
  have hfront : LegacyFront
      (prefixWords fields simd segmentUsed ++ mnemonicOf fields simd ++ " \t") := by
    constructor
    · rw [Legacy, String.toList_append]
      apply WordsAre.append
      · exact (legacyFront_prefixWords fields simd segmentUsed).append
          (legacy_mnemonicOf hspelled hlegacy simd)
      · exact (by decide : Legacy " \t")
      · exact Or.inr (by decide)
    · refine Or.inr ?_
      rw [String.toList_append, List.getLast?_append]
      rfl
  rw [htext]
  apply hfront.append
  rw [Legacy, OperandTexts.toList_intercalate_texts]
  apply wordsAre_intercalate
  · decide
  · decide
  · decide
  · decide
  · simp only [List.map_map, List.forall_mem_map]
    intro pieces hpieces
    have hlegacy : Legacy (print fields simd pieces) :=
      (spaced_piecesOf fields simd pieces hpieces).wordsAre (by decide) fun piece hpiece =>
        (h.piecesOf hspelled pieces hpieces piece hpiece).legacy
    exact hlegacy

end Pieces

section Lines

variable {is64Bit : Bool} {contents : AddressSpace} {fileOffset vaddr nextOffset : UInt64}
  {store : InstructionStore} {row : Instruction}

/-- What `emit` hands to the constructor of the row. -/
def emitted (is64Bit : Bool) (contents : AddressSpace) (fileOffset vaddr : UInt64) :
    Option (Fields × Simd) :=
  match decodeInstruction is64Bit vaddr (bytesAt contents fileOffset) .empty with
  | .ok locals bytes => some ({ locals.fields with bytes := bytes }, locals.simd)
  | .error .limitReached bytes => some ({ bytes := bytes, isInvalid := true }, {})
  | .error (.failed _) _ => none

/-- The registers that are looked up for a row and the words of its text. -/
structure NamesEncodable (is64Bit : Bool) (fields : Fields) (simd : Simd) (text : String) :
    Prop where
  pieces : isBad fields = false → ∃ segmentUsed, text =
    prefixWords fields simd segmentUsed ++ mnemonicOf fields simd ++ " \t" ++
      ", ".intercalate ((piecesOf fields simd).map (print fields simd))
  answered : ∀ piece ∈ lookups fields simd, Answered fields piece
  legacy : is64Bit = false → ∀ word ∈ words text, ¬ LongModeName word

theorem emitted_of_appends
    (h : Appends store (decodeLine is64Bit contents fileOffset vaddr store) nextOffset row) :
    ∃ fields simd, emitted is64Bit contents fileOffset vaddr = some (fields, simd) ∧
      x86_64 fields simd = .ok row := by
  obtain ⟨store', hline, hstore⟩ := h
  rw [decodeLine] at hline
  rw [emitted]
  cases hrun : decodeInstruction is64Bit vaddr (bytesAt contents fileOffset) .empty with
  | ok locals bytes =>
      rw [hrun] at hline
      exact ⟨_, _, rfl, x86_64_of_emit hline hstore⟩
  | error stop bytes =>
      rw [hrun] at hline
      cases stop with
      | limitReached => exact ⟨_, _, rfl, x86_64_of_emit hline hstore⟩
      | failed thrown =>
          cases thrown with
          | lengthError what =>
              obtain ⟨-, rfl⟩ := Prod.mk.inj (Except.ok.inj hline)
              exact absurd hstore.symm (by simp)
          | runtimeError what => contradiction
          | fileChanged what => contradiction
          | badAlloc => contradiction
          | outOfRange => contradiction

/-- A bad row looks nothing up and shows no name. -/
theorem namesEncodable_of_isBad {fields : Fields} {simd : Simd} (hbad : isBad fields = true)
    (hrow : x86_64 fields simd = .ok row) :
    NamesEncodable is64Bit fields simd row.instructionText := by
  have htext : row.instructionText = "(bad)" := by
    rw [x86_64, if_pos hbad] at hrow
    rw [← Except.ok.inj hrow]
  refine ⟨fun hnamed => absurd (hbad.symm.trans hnamed) (by decide), ?_, fun _ => ?_⟩
  · rw [lookups, if_pos hbad]
    exact fun _ hnone => absurd hnone List.not_mem_nil
  · have hlegacy : Legacy "(bad)" := by decide
    rw [htext]
    exact fun word hword => not_longModeName (hlegacy word hword)

theorem Numbered.withBytes {fields : Fields} {simd : Simd} (h : Numbered is64Bit fields simd)
    (bytes : Consumed UInt8 15) : Numbered is64Bit { fields with bytes := bytes } simd :=
  ⟨h.mode, h.legacy, h.reg, h.rm, h.index, h.base, h.vvvv_lt, h.opSize, h.addrSize⟩

theorem namesEncodable_of_decoded {opened named decoded : DecodeLocals}
    (h : Decoded is64Bit opened named decoded) (bytes : Consumed UInt8 15)
    (hnamed : isBad { decoded.fields with bytes := bytes } = false)
    (hrow : x86_64 { decoded.fields with bytes := bytes } decoded.simd = .ok row) :
    NamesEncodable is64Bit { decoded.fields with bytes := bytes } decoded.simd
      row.instructionText := by
  have hnumbered := (numbered_of_decoded h).withBytes bytes
  have hspelled := h.rowKind spelled_rowKind
  refine ⟨fun _ => instructionText_pieces hrow hnamed, hnumbered.lookups hspelled, ?_⟩
  rintro rfl word hword
  apply not_longModeName
  exact legacy_instructionText hnumbered hspelled (h.rowKind legacy_rowKind) hrow hnamed word hword

/-- In every row only registers are looked up that the encoding has, and in legacy mode no
text names a register of long mode. -/
theorem names_encodable (is64Bit : Bool) (contents : AddressSpace) (fileOffset vaddr : UInt64)
    (store : InstructionStore) (nextOffset : UInt64) (row : Instruction)
    (h : Appends store (decodeLine is64Bit contents fileOffset vaddr store) nextOffset row) :
    ∃ fields simd, emitted is64Bit contents fileOffset vaddr = some (fields, simd) ∧
      x86_64 fields simd = .ok row ∧
      NamesEncodable is64Bit fields simd row.instructionText := by
  obtain ⟨fields, simd, hemitted, hrow⟩ := emitted_of_appends h
  refine ⟨fields, simd, hemitted, hrow, ?_⟩
  cases hbad : isBad fields with
  | true => exact namesEncodable_of_isBad hbad hrow
  | false =>
      rw [emitted] at hemitted
      cases hrun : decodeInstruction is64Bit vaddr (bytesAt contents fileOffset) .empty with
      | error stop bytes =>
          rw [hrun] at hemitted
          cases stop with
          | limitReached =>
              obtain ⟨rfl, -⟩ := Prod.mk.inj (Option.some.inj hemitted)
              contradiction
          | failed thrown => contradiction
      | ok locals bytes =>
          rw [hrun] at hemitted
          obtain ⟨rfl, rfl⟩ := Prod.mk.inj (Option.some.inj hemitted)
          have hdecoded := (@decodeInstruction_decoded (bytesAt contents fileOffset) is64Bit vaddr
            (fun _ _ => True) (fun _ _ _ _ => True)
            (fun _ _ _ _ hprefixed _ _ => (decodeOpcode_yields is64Bit hprefixed.simd).mono
              fun _ _ _ _ => Or.inr trivial)
            (fun fields _ => (decodeImmediates_yields is64Bit vaddr fields).mono
              fun _ _ _ _ => trivial)).settled (Drawn.empty _)
          rw [hrun] at hdecoded
          rcases hdecoded.2.2 with ⟨hinvalid, -⟩ | ⟨opened, middle, named, -, -, -, hvalid, -⟩
          · simp [isBad, hinvalid] at hbad
          · exact namesEncodable_of_decoded hvalid bytes hbad hrow

end Lines

/-- VBLENDVPS, whose last register is in the top bits of an immediate: 3 in legacy mode, 11 in
long mode. -/
def blend : AddressSpace where
  mappedData := [0xC4, 0xE3, 0x71, 0x4A, 0xC2, 0xB0]
  fileSize_lt := by decide

def blendRow : Instruction where
  machineCode := machineCodeOf blend.mappedData
  instructionText := "VBLENDVPS \tXMM0, XMM1, XMM2, XMM3"

theorem names_encodable_blend :
    ∃ fields simd, emitted false blend 0 0x1000 = some (fields, simd) ∧
      x86_64 fields simd = .ok blendRow ∧
      NamesEncodable false fields simd blendRow.instructionText :=
  names_encodable false blend 0 0x1000 .empty 6 blendRow (by decide +kernel)

end Voidwalk.EncodableNames

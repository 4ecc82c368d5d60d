import Voidwalk.MemoryRows

/-!
The addressing modes in the rows that the lookups find, and none of a VEX row counts a
target from its own end.
-/

namespace Voidwalk.RowModes

open Voidwalk.MappedFile
open Voidwalk.OpcodeRows
open Voidwalk.TwoByteTables
open Voidwalk.ThreeByteTables
open Voidwalk.RowResolution
open Voidwalk.MemoryRows

/-- Every operand of the row has a mode of the kind `Q`. -/
def Modes (Q : Addressing → Prop) (info : OpcodeInfo) : Prop :=
  ∀ operand ∈ info.operands.toList, Q operand.addressingMode

section Lookups

variable {Q : Addressing → Prop} {outer entry : OpcodeInfo}

theorem modes_iff {info : OpcodeInfo} :
    Modes Q info ↔ Q (firstOperand info.operands).addressingMode ∧
      Q (secondOperand info.operands).addressingMode ∧
        Q (thirdOperand info.operands).addressingMode := by
  simp [Modes, toList_operands]

theorem mergeOperand_mode (opSize : Size) {first second : TableOperand}
    (hfirst : Q first.addressingMode) (hsecond : Q second.addressingMode) :
    Q (mergeOperand opSize first second).addressingMode := by
  rw [mergeOperand]
  split
  · exact hfirst
  · exact hsecond

theorem Modes.merge (houter : Modes Q outer) (hentry : Modes Q entry) :
    Modes Q (merge outer entry) := by
  rw [modes_iff] at *
  rw [RowResolution.merge]
  split
  · exact hentry
  · simp only [firstOperand_zipWith, secondOperand_zipWith, thirdOperand_zipWith]
    exact ⟨mergeOperand_mode _ houter.1 hentry.1, mergeOperand_mode _ houter.2.1 hentry.2.1,
      mergeOperand_mode _ houter.2.2 hentry.2.2⟩

theorem Modes.followGroup (houter : Modes Q outer)
    (hentries : ∀ slot, Modes Q (twoByteGroupTable slot)) (group : Int) (modRM : UInt8) :
    Ensures (followGroup outer group modRM) (Modes Q) := by
  rw [RowResolution.followGroup]
  split
  · exact Ensures.pure houter
  · refine Ensures.bind (Ensures.at fun slot _ => hentries slot) ?_
    intro entry hentry
    exact Ensures.pure (houter.merge hentry)

theorem operands_renamedIf (condition : Bool) (text : String) (info : OpcodeInfo) :
    (renamedIf condition text info).operands = info.operands := by
  rw [renamedIf]
  split
  · rfl
  · rfl

theorem operands_vexRenamed (opcode modRM : UInt8) (simd : Simd) (info : OpcodeInfo) :
    (vexRenamed opcode modRM simd info).operands = info.operands := by
  rw [vexRenamed, operands_renamedIf]
  split
  · exact operands_renamedIf _ _ _
  · exact operands_renamedIf _ _ _

theorem Modes.gatherResized (h : Modes Q outer) (opcode : UInt8) (simd : Simd) :
    Modes Q (gatherResized opcode simd outer) := by
  rw [modes_iff] at *
  rw [RowResolution.gatherResized]
  split
  · split
    · exact h
    · exact h
  · exact h

theorem vexResolvedInfo_modes (opcode modRM : UInt8) (simd : Simd)
    (hrows : ∀ slot : Fin 3072,
      (slot.val : Int) = ((simd.map.toNat - 1 : Int) * 4 + simd.pp.toNat) * 256 + opcode.toNat →
        Modes Q (vexTable slot))
    (hentries : ∀ slot, Modes Q (twoByteGroupTable slot))
    (hunnamed : Modes Q (threeByteRow (simd.map == 3))) :
    Ensures (vexResolvedInfo opcode modRM simd) (Modes Q) := by
  refine Ensures.bind (Ensures.at hrows) ?_
  intro row hrow
  split
  · exact Ensures.pure hunnamed
  · apply Modes.followGroup _ hentries
    apply Modes.gatherResized
    rw [Modes, operands_vexRenamed]
    exact hrow

end Lookups

section Tables

theorem vexTable_modes (i : Fin 3072) : Modes (· ≠ .J) (vexTable i) :=
  assigned_shape (fun operands _ => ∀ operand ∈ operands.toList, operand.addressingMode ≠ .J)
    3072 _ (by decide) (by decide +kernel) i

theorem twoByteGroupTable_modes (i : Fin 128) :
    Modes (fun mode => mode.isImmediate = false) (twoByteGroupTable i) :=
  assigned_shape
    (fun operands _ => ∀ operand ∈ operands.toList, operand.addressingMode.isImmediate = false)
    128 _ (by decide) (by decide +kernel) i

theorem ne_J_of_isImmediate {mode : Addressing} (h : mode.isImmediate = false) : mode ≠ .J := by
  rintro rfl
  contradiction

/-- No row of a VEX instruction counts a target from its own end. -/
theorem vexResolvedInfo_ne_J (opcode modRM : UInt8) (simd : Simd) :
    Ensures (vexResolvedInfo opcode modRM simd) (Modes (· ≠ .J)) := by
  apply vexResolvedInfo_modes
  · exact fun slot _ => vexTable_modes slot
  · intro slot operand hoperand
    exact ne_J_of_isImmediate (twoByteGroupTable_modes slot operand hoperand)
  · cases simd.map == 3 with
    | false => exact modes_iff.mpr (by decide)
    | true => exact modes_iff.mpr (by decide)

end Tables

end Voidwalk.RowModes

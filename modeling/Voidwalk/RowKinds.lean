import Voidwalk.MemoryRows

/-!
What holds of every row that the lookups find: a property of rows that the tables have and
that merging, renaming and resizing keep.
-/

namespace Voidwalk.RowKinds

open Voidwalk.MappedFile
open Voidwalk.OpcodeRows
open Voidwalk.OneByteTables
open Voidwalk.TwoByteTables
open Voidwalk.ThreeByteTables
open Voidwalk.RowResolution
open Voidwalk.InstructionDecoding
open Voidwalk.MemoryRows

/-- The names that rows are given by the form of their ModRM byte or by VEX.L. -/
def formNames : List String := ["MOVHLPS", "MOVLHPS", "VZEROALL", "VMOVHLPS", "VMOVLHPS"]

/-- The rows that the lookups name outright. -/
def formRows : List OpcodeInfo :=
  [movsxd, xabort, xbegin, threeByteRow false, threeByteRow true, endbr64, endbr32, monitor, mwait,
    crc32b, crc32v]

/-- A property of the rows of all tables that the lookups keep. -/
structure RowKind (Q : OpcodeInfo → Prop) : Prop where
  opcodeTable : ∀ i, Q (opcodeTable i)
  twoByteTable : ∀ i, Q (twoByteTable i)
  prefixedTable : ∀ i, Q (prefixedTable i)
  twoByteGroupTable : ∀ i, Q (twoByteGroupTable i)
  threeByteTable : ∀ i, Q (threeByteTable i)
  threeDNowTable : ∀ i, Q (threeDNowTable i)
  vexTable : ∀ i, Q (vexTable i)
  x87MemTable : ∀ i, Q (x87MemTable i)
  x87RegTable : ∀ i, Q (x87RegTable i)
  grpTable : ∀ rows ∈ [grp1Rows, grp2Rows, grp3Rows, grp4Rows, grp5Rows], ∀ i, Q (assigned 8 rows i)
  formRow : ∀ row ∈ formRows, Q row
  merge : ∀ outer entry, 0 < outer.groupNumber → Q outer → Q entry → Q (merge outer entry)
  sse2Twin : ∀ row, Q row → Q (sse2Twin row)
  renamed : ∀ name ∈ formNames, ∀ row, Q row → Q { row with text := name }
  withoutNds : ∀ row, Q row → Q { row with nds := false }
  gatherResized : ∀ opcode simd row, Q row → Q (gatherResized opcode simd row)

namespace RowKind

variable {Q : OpcodeInfo → Prop} (h : RowKind Q)

include h

theorem followGroup {row : OpcodeInfo} (hrow : Q row) (group : Int) (modRM : UInt8) :
    Ensures (followGroup row group modRM) Q := by
  rw [RowResolution.followGroup]
  split
  · exact Ensures.pure hrow
  · rename_i hgroup
    refine Ensures.bind (Ensures.at fun slot _ => h.twoByteGroupTable slot) ?_
    intro entry hentry
    exact Ensures.pure (h.merge row entry (Int.not_le.mp hgroup) hrow hentry)

theorem groupTableOf (opcode : UInt8) :
    Ensures (groupTableOf opcode) fun table => ∀ i, Q (table i) := by
  rw [RowResolution.groupTableOf]
  refine Ensures.bind (P := fun _ => True) (Ensures.at fun _ _ => trivial) fun row _ => ?_
  split
  · exact Ensures.pure (h.grpTable grp1Rows (by simp))
  split
  · exact Ensures.pure (h.grpTable grp2Rows (by simp))
  split
  · exact Ensures.pure (h.grpTable grp3Rows (by simp))
  split
  · exact Ensures.pure (h.grpTable grp4Rows (by simp))
  split
  · exact Ensures.pure (h.grpTable grp5Rows (by simp))
  · exact Ensures.throw

theorem resolvedInfo (opcode modRM : UInt8) (is64Bit : Bool) :
    Ensures (resolvedInfo opcode modRM is64Bit) Q := by
  rw [RowResolution.resolvedInfo]
  split
  · rw [x87ResolvedInfo]
    split
    · exact Ensures.at fun slot _ => h.x87MemTable slot
    · exact Ensures.at fun slot _ => h.x87RegTable slot
  split
  · exact Ensures.pure (h.formRow _ (by simp [formRows]))
  split
  · refine Ensures.pure ?_
    split
    · exact h.formRow _ (by simp [formRows])
    · exact h.formRow _ (by simp [formRows])
  refine Ensures.bind (Ensures.at fun slot _ => h.opcodeTable slot) fun row hrow => ?_
  split
  · rename_i hgroup
    rw [groupEntryOf, bind_assoc]
    refine Ensures.bind (h.groupTableOf opcode) fun table htable => ?_
    refine Ensures.bind (Ensures.at fun slot _ => htable slot) fun entry hentry => ?_
    exact Ensures.pure (h.merge row entry hgroup hrow hentry)
  · exact Ensures.pure hrow

theorem renamedIf {row : OpcodeInfo} (hrow : Q row) (condition : Bool) {name : String}
    (hname : name ∈ formNames) : Q (renamedIf condition name row) := by
  rw [RowResolution.renamedIf]
  split
  · exact h.renamed name hname row hrow
  · exact hrow

theorem twoByteOuter (opcode pp : UInt8) : Ensures (twoByteOuter opcode pp) Q := by
  rw [RowResolution.twoByteOuter]
  split
  · exact Ensures.at fun slot _ => h.twoByteTable slot
  · refine Ensures.bind (Ensures.at fun slot _ => h.prefixedTable slot) fun row hrow => ?_
    split
    · exact Ensures.at fun slot _ => h.twoByteTable slot
    · exact Ensures.pure hrow

theorem twoByteResolvedInfo (opcode modRM : UInt8) (simd : Simd) :
    Ensures (twoByteResolvedInfo opcode modRM simd) Q := by
  rw [RowResolution.twoByteResolvedInfo]
  split
  · refine Ensures.pure ?_
    split
    · exact h.formRow _ (by simp [formRows])
    · exact h.formRow _ (by simp [formRows])
  split
  · refine Ensures.pure ?_
    split
    · exact h.formRow _ (by simp [formRows])
    · exact h.formRow _ (by simp [formRows])
  refine Ensures.bind (h.twoByteOuter opcode simd.pp) fun row hrow => ?_
  apply h.followGroup
  apply h.renamedIf
  · split
    · exact h.sse2Twin row hrow
    · exact hrow
  · split
    · simp [formNames]
    · simp [formNames]

theorem threeByteRow (hasImm8 : Bool) : Q (threeByteRow hasImm8) := by
  cases hasImm8 with
  | false => exact h.formRow _ (by simp [formRows])
  | true => exact h.formRow _ (by simp [formRows])

theorem threeByteResolvedInfo (opcode : UInt8) (simd : Simd) :
    Ensures (threeByteResolvedInfo opcode simd) Q := by
  rw [RowResolution.threeByteResolvedInfo]
  split
  · refine Ensures.pure ?_
    split
    · exact h.formRow _ (by simp [formRows])
    · exact h.formRow _ (by simp [formRows])
  split
  · exact Ensures.pure (h.threeByteRow _)
  refine Ensures.bind (Ensures.at fun slot _ => h.threeByteTable slot) fun row hrow => ?_
  refine Ensures.pure ?_
  split
  · exact h.threeByteRow _
  · exact hrow

theorem vexRenamed {row : OpcodeInfo} (hrow : Q row) (opcode modRM : UInt8) (simd : Simd) :
    Q (vexRenamed opcode modRM simd row) := by
  have hnamed := h.renamedIf hrow (simd.map == 1 && opcode == 0x77 && simd.L ≠ 0)
    (by simp [formNames] : "VZEROALL" ∈ formNames)
  apply h.renamedIf
  · split
    · exact h.withoutNds _ hnamed
    · exact hnamed
  · split
    · simp [formNames]
    · simp [formNames]

theorem vexResolvedInfo (opcode modRM : UInt8) (simd : Simd) :
    Ensures (vexResolvedInfo opcode modRM simd) Q := by
  refine Ensures.bind (Ensures.at fun slot _ => h.vexTable slot) fun row hrow => ?_
  split
  · exact Ensures.pure (h.threeByteRow _)
  · apply h.followGroup
    exact h.gatherResized _ _ _ (h.vexRenamed hrow _ _ _)

/-- Every row that the decoder finds is of the kind. -/
theorem rowOf (is64Bit : Bool) (opcode modRM : UInt8) (simd : Simd) :
    Ensures (rowOf is64Bit opcode modRM simd) Q := by
  rw [InstructionDecoding.rowOf]
  split
  · exact h.vexResolvedInfo _ _ _
  split
  · exact h.resolvedInfo _ _ _
  split
  · exact h.twoByteResolvedInfo _ _ _
  · exact h.threeByteResolvedInfo _ _

end RowKind

end Voidwalk.RowKinds

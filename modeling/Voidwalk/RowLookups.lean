import Voidwalk.RowTexts

/-!
The lookups of one opcode: a property of the row that is found, from the rows that they start
from at this opcode and from the entries of the groups that these escape to.
-/

namespace Voidwalk.RowLookups

open Voidwalk.MappedFile
open Voidwalk.OpcodeRows
open Voidwalk.OneByteTables
open Voidwalk.TwoByteTables
open Voidwalk.ThreeByteTables
open Voidwalk.RowResolution
open Voidwalk.InstructionDecoding
open Voidwalk.MemoryRows

/-- `Q` holds of a row that is merged with an entry or whose operands take other registers. -/
structure Kept (Q E : OpcodeInfo → Prop) : Prop where
  merge : ∀ outer entry, 0 < outer.groupNumber → Q outer → E entry → Q (merge outer entry)
  sse2Twin : ∀ row, Q row → Q (sse2Twin row)
  withoutNds : ∀ row, Q row → Q { row with nds := false }
  gatherResized : ∀ opcode simd row, Q row → Q (gatherResized opcode simd row)

/-- The tables of the one-byte groups under their numbers. -/
def groupRows : List (Int × List Assignment) :=
  [(1, grp1Rows), (2, grp2Rows), (3, grp3Rows), (4, grp4Rows), (5, grp5Rows)]

/-- The rows that a one-byte opcode is looked up in. -/
structure OneByte (Q E : OpcodeInfo → Prop) (opcode modRM : UInt8) : Prop where
  x87 : isX87 opcode = true → (∀ i, Q (x87MemTable i)) ∧ ∀ i, Q (x87RegTable i)
  form : ∀ row, (opcode, row) ∈ [((0x63 : UInt8), movsxd), (0xC6, xabort), (0xC7, xbegin)] → Q row
  table : ∀ i : Fin 256, (i : Nat) = opcode.toNat → Q (opcodeTable i)
  entry : ∀ group rows, (group, rows) ∈ groupRows → ∀ i : Fin 256, (i : Nat) = opcode.toNat →
    (opcodeTable i).groupNumber = group → ∀ slot : Fin 8, (slot : Nat) = (regOf modRM).toNat →
      E (assigned 8 rows slot)

/-- The rows that an opcode behind 0F is looked up in. -/
structure TwoByte (Q E : OpcodeInfo → Prop) (opcode : UInt8) : Prop where
  form : ∀ row, (opcode, row) ∈ [((0x1E : UInt8), endbr64), (0x1E, endbr32), (0x01, monitor),
    (0x01, mwait)] → Q row
  table : ∀ i : Fin 256, (i : Nat) = opcode.toNat → Q (twoByteTable i)
  prefixed : ∀ i : Fin 768, (i : Nat) % 256 = opcode.toNat → (prefixedTable i).text ≠ "" →
    Q (prefixedTable i)
  renamed : opcode = 0x12 ∨ opcode = 0x16 → ∀ name ∈ ["MOVHLPS", "MOVLHPS"], ∀ row, Q row →
    Q { row with text := name }
  entry : ∀ i, E (twoByteGroupTable i)

/-- The rows that an opcode of the three-byte maps is looked up in. -/
structure ThreeByte (Q : OpcodeInfo → Prop) : Prop where
  form : ∀ row ∈ [crc32b, crc32v], Q row
  unnamed : ∀ hasImm8, Q (threeByteRow hasImm8)
  table : ∀ i, Q (threeByteTable i)

/-- The rows that an opcode behind VEX is looked up in. -/
structure Vex (Q E : OpcodeInfo → Prop) (opcode : UInt8) (simd : Simd) : Prop where
  unnamed : ∀ hasImm8, Q (threeByteRow hasImm8)
  table : ∀ i : Fin 3072,
    (i : Int) = ((simd.map.toNat - 1 : Int) * 4 + simd.pp.toNat) * 256 + opcode.toNat →
      (vexTable i).text ≠ "" → Q (vexTable i)
  renamed : opcode = 0x77 ∨ opcode = 0x12 ∨ opcode = 0x16 →
    ∀ name ∈ ["VZEROALL", "VMOVHLPS", "VMOVLHPS"], ∀ row, Q row → Q { row with text := name }
  entry : ∀ i, E (twoByteGroupTable i)

section Rules

variable {Q E : OpcodeInfo → Prop} {opcode modRM : UInt8} {simd : Simd}

theorem Kept.followGroup (h : Kept Q E) (hentry : ∀ i, E (twoByteGroupTable i)) {row : OpcodeInfo}
    (hrow : Q row) (group : Int) (modRM : UInt8) : Ensures (followGroup row group modRM) Q := by
  rw [RowResolution.followGroup]
  split
  · exact Ensures.pure hrow
  · rename_i hgroup
    refine Ensures.bind (P := E) (Ensures.at fun slot _ => hentry slot) fun entry hentry => ?_
    exact Ensures.pure (h.merge row entry (Int.not_le.mp hgroup) hrow hentry)

theorem renamedIf_of {row : OpcodeInfo} (hrow : Q row) (condition : Bool) (name : String)
    (hrenamed : condition = true → Q row → Q { row with text := name }) :
    Q (renamedIf condition name row) := by
  rw [renamedIf]
  split
  · rename_i hcondition
    exact hrenamed hcondition hrow
  · exact hrow

theorem OneByte.groupEntryOf (h : OneByte Q E opcode modRM) :
    Ensures (groupEntryOf opcode (regOf modRM)) E := by
  have hslot {rows : List Assignment} {i : Fin 256} (hi : (i : Nat) = opcode.toNat)
      (hrows : ((opcodeTable i).groupNumber, rows) ∈ groupRows) :
      ∀ slot : Fin 8, (slot : Nat) = (regOf modRM).toNat → E (assigned 8 rows slot) :=
    h.entry _ rows hrows i hi rfl
  rw [RowResolution.groupEntryOf, groupTableOf, bind_assoc]
  refine Ensures.bind (P := fun row => ∃ i : Fin 256, (i : Nat) = opcode.toNat ∧
    row = opcodeTable i) (Ensures.at fun slot hindex => ⟨slot, ?_, rfl⟩) ?_
  · exact_mod_cast hindex
  rintro row ⟨i, hi, rfl⟩
  refine Ensures.bind (P := fun table => ∀ slot : Fin 8, (slot : Nat) = (regOf modRM).toNat →
    E (table slot)) ?_ fun table htable => Ensures.at fun slot hindex => htable slot ?_
  · split
    · rename_i hgroup
      exact Ensures.pure (hslot hi (by rw [hgroup]; simp [groupRows]))
    split
    · rename_i hgroup
      exact Ensures.pure (hslot hi (by rw [hgroup]; simp [groupRows]))
    split
    · rename_i hgroup
      exact Ensures.pure (hslot hi (by rw [hgroup]; simp [groupRows]))
    split
    · rename_i hgroup
      exact Ensures.pure (hslot hi (by rw [hgroup]; simp [groupRows]))
    split
    · rename_i hgroup
      exact Ensures.pure (hslot hi (by rw [hgroup]; simp [groupRows]))
    · exact Ensures.throw
  · have hlow : (regOf modRM &&& 0x07).toNat = (regOf modRM).toNat := by
      rw [regOf, UInt8.and_assoc]
      rfl
    rw [← hlow]
    exact_mod_cast hindex

theorem OneByte.resolvedInfo (h : OneByte Q E opcode modRM) (hkept : Kept Q E) (is64Bit : Bool) :
    Ensures (resolvedInfo opcode modRM is64Bit) Q := by
  rw [RowResolution.resolvedInfo]
  split
  · rename_i hx87
    rw [x87ResolvedInfo]
    split
    · exact Ensures.at fun slot _ => (h.x87 hx87).1 slot
    · exact Ensures.at fun slot _ => (h.x87 hx87).2 slot
  split
  · rename_i hwide
    rw [Bool.and_eq_true, beq_iff_eq] at hwide
    exact Ensures.pure (h.form _ (by simp [hwide.2]))
  split
  · rename_i hspecial
    rw [Bool.and_eq_true, Bool.or_eq_true, beq_iff_eq, beq_iff_eq, beq_iff_eq] at hspecial
    refine Ensures.pure ?_
    rcases hspecial.2 with hopcode | hopcode
    · rw [if_pos (by simp [hopcode])]
      exact h.form _ (by simp [hopcode])
    · rw [if_neg (by simp [hopcode])]
      exact h.form _ (by simp [hopcode])
  refine Ensures.bind (P := Q) (Ensures.at fun slot hindex => h.table slot ?_) fun row hrow => ?_
  · exact_mod_cast hindex
  split
  · rename_i hgroup
    refine Ensures.bind h.groupEntryOf fun entry hentry => ?_
    exact Ensures.pure (hkept.merge row entry hgroup hrow hentry)
  · exact Ensures.pure hrow

theorem TwoByte.twoByteOuter (h : TwoByte Q E opcode) (pp : UInt8) :
    Ensures (twoByteOuter opcode pp) Q := by
  have hplain : Ensures (twoByteTable.at opcode.toNat) Q :=
    Ensures.at fun slot hindex => h.table slot (by exact_mod_cast hindex)
  rw [RowResolution.twoByteOuter]
  split
  · exact hplain
  · refine Ensures.bind (P := fun row => row.text ≠ "" → Q row)
      (Ensures.at fun slot hindex => h.prefixed slot ?_) fun row hrow => ?_
    · have hopcode := opcode.toNat_lt
      omega
    · split
      · exact hplain
      · rename_i hnamed
        exact Ensures.pure (hrow hnamed)

theorem TwoByte.twoByteResolvedInfo (h : TwoByte Q E opcode) (hkept : Kept Q E) (modRM : UInt8)
    (simd : Simd) : Ensures (twoByteResolvedInfo opcode modRM simd) Q := by
  rw [RowResolution.twoByteResolvedInfo]
  split
  · rename_i hhint
    simp only [Bool.and_eq_true, beq_iff_eq] at hhint
    refine Ensures.pure (h.form _ ?_)
    rw [hhint.1.1]
    split
    · simp
    · simp
  split
  · rename_i hmonitor
    rw [Bool.and_eq_true, beq_iff_eq] at hmonitor
    refine Ensures.pure (h.form _ ?_)
    rw [hmonitor.1]
    split
    · simp
    · simp
  refine Ensures.bind (h.twoByteOuter simd.pp) fun row hrow => ?_
  refine hkept.followGroup h.entry (renamedIf_of ?_ _ _ fun hcondition => ?_) _ _
  · split
    · exact hkept.sse2Twin row hrow
    · exact hrow
  · simp only [Bool.and_eq_true, Bool.or_eq_true, beq_iff_eq] at hcondition
    apply h.renamed hcondition.2
    split
    · simp
    · simp

theorem ThreeByte.threeByteResolvedInfo (h : ThreeByte Q) (opcode : UInt8) (simd : Simd) :
    Ensures (threeByteResolvedInfo opcode simd) Q := by
  rw [RowResolution.threeByteResolvedInfo]
  split
  · refine Ensures.pure (h.form _ ?_)
    split
    · simp
    · simp
  split
  · exact Ensures.pure (h.unnamed _)
  refine Ensures.bind (P := Q) (Ensures.at fun slot _ => h.table slot) fun row hrow => ?_
  refine Ensures.pure ?_
  split
  · exact h.unnamed _
  · exact hrow

theorem Vex.vexRenamed (h : Vex Q E opcode simd) (hkept : Kept Q E) (modRM : UInt8)
    {row : OpcodeInfo} (hrow : Q row) : Q (vexRenamed opcode modRM simd row) := by
  have hcleared : Q (renamedIf (simd.map == 1 && opcode == 0x77 && simd.L ≠ 0) "VZEROALL" row) := by
    refine renamedIf_of hrow _ _ fun hcondition => ?_
    simp only [Bool.and_eq_true, beq_iff_eq] at hcondition
    exact h.renamed (Or.inl hcondition.1.2) _ (by simp) _
  refine renamedIf_of ?_ _ _ fun hcondition => ?_
  · split
    · exact hkept.withoutNds _ hcleared
    · exact hcleared
  · simp only [Bool.and_eq_true, Bool.or_eq_true, beq_iff_eq] at hcondition
    apply h.renamed (Or.inr hcondition.2)
    split
    · simp
    · simp

theorem Vex.vexResolvedInfo (h : Vex Q E opcode simd) (hkept : Kept Q E) (modRM : UInt8) :
    Ensures (vexResolvedInfo opcode modRM simd) Q := by
  refine Ensures.bind (P := fun row => row.text ≠ "" → Q row)
    (Ensures.at fun slot hindex => h.table slot hindex) fun row hrow => ?_
  split
  · exact Ensures.pure (h.unnamed _)
  · rename_i hnamed
    apply hkept.followGroup h.entry
    exact hkept.gatherResized _ _ _ (h.vexRenamed hkept _ (hrow hnamed))

/-- A property of the row that an opcode is looked up to. -/
theorem Kept.rowOf (hkept : Kept Q E)
    (honeByte : simd.vex = 0 → simd.map = 0 → OneByte Q E opcode modRM)
    (htwoByte : simd.vex = 0 → simd.map = 1 → TwoByte Q E opcode)
    (hthreeByte : simd.vex = 0 → simd.map ≠ 0 → simd.map ≠ 1 → ThreeByte Q)
    (hvex : simd.vex ≠ 0 → Vex Q E opcode simd)
    (is64Bit : Bool) : Ensures (rowOf is64Bit opcode modRM simd) Q := by
  rw [InstructionDecoding.rowOf]
  split
  · rename_i hprefix
    exact (hvex hprefix).vexResolvedInfo hkept modRM
  rename_i hlegacy
  rw [not_not] at hlegacy
  split
  · rename_i hmap
    exact (honeByte hlegacy hmap).resolvedInfo hkept is64Bit
  rename_i hzero
  split
  · rename_i hmap
    exact (htwoByte hlegacy hmap).twoByteResolvedInfo hkept modRM simd
  · rename_i hone
    exact (hthreeByte hlegacy hzero hone).threeByteResolvedInfo opcode simd

end Rules

end Voidwalk.RowLookups

import Voidwalk.DecodeLineContract
import Voidwalk.Library.Brackets

/-!
What the resolved rows of opcodes with a ModRM byte print: no brackets besides those of
the one memory operand, and a vector index in the rows of the gathers only.
-/

namespace Voidwalk.MemoryRows

open Voidwalk.MappedFile
open Voidwalk.OpcodeRows
open Voidwalk.OneByteTables
open Voidwalk.TwoByteTables
open Voidwalk.ThreeByteTables
open Voidwalk.RowResolution
open Voidwalk.InstructionDecoding
open Voidwalk.DecodeLineContract
open Voidwalk.Library.Brackets

/-- An operand whose text brings no brackets of its own. -/
structure Unbracketed (operand : TableOperand) : Prop where
  value : PlainBytes operand.value
  mode : operand.addressingMode ≠ .X ∧ operand.addressingMode ≠ .Y ∧ operand.addressingMode ≠ .O

instance (operand : TableOperand) : Decidable (Unbracketed operand) :=
  decidable_of_iff (PlainBytes operand.value ∧ operand.addressingMode ≠ .X ∧
    operand.addressingMode ≠ .Y ∧ operand.addressingMode ≠ .O)
    ⟨fun h => ⟨h.1, h.2⟩, fun h => ⟨h.1, h.2⟩⟩

def isVSIB (operand : TableOperand) : Bool := operand.addressingMode == .VSIB

/-- A row that prints no brackets besides those of the memory operand. -/
structure MemoryRow (isGather : Bool) (info : OpcodeInfo) : Prop where
  text : PlainBytes info.text
  text16 : PlainBytes info.text16
  text64 : PlainBytes info.text64
  operands : ∀ operand ∈ info.operands.toList, Unbracketed operand
  vsib : info.operands.toList.any isVSIB = isGather
  ungrouped : isGather = true → info.groupNumber ≤ 0

instance (isGather : Bool) (info : OpcodeInfo) : Decidable (MemoryRow isGather info) :=
  decidable_of_iff (PlainBytes info.text ∧ PlainBytes info.text16 ∧ PlainBytes info.text64 ∧
    (∀ operand ∈ info.operands.toList, Unbracketed operand) ∧
    info.operands.toList.any isVSIB = isGather ∧ (isGather = true → info.groupNumber ≤ 0))
    ⟨fun ⟨h₁, h₂, h₃, h₄, h₅, h₆⟩ => ⟨h₁, h₂, h₃, h₄, h₅, h₆⟩,
      fun h => ⟨h.1, h.2, h.3, h.4, h.5, h.6⟩⟩

section Tables

/-- What an assignment may write. `exempt` tells which rows need not be memory rows, from
their ModRM flag and their name. -/
def Fits (exempt : Bool → String → Bool) (isGather : Bool) : RowUpdate → Prop
  | .info row => exempt row.hasRMByte row.text = true ∨ MemoryRow isGather row
  | .text64 name => PlainBytes name
  | _ => True

instance (exempt : Bool → String → Bool) (isGather : Bool) (update : RowUpdate) :
    Decidable (Fits exempt isGather update) :=
  match update with
  | .info _ => inferInstanceAs (Decidable (_ ∨ _))
  | .text64 _ => inferInstanceAs (Decidable (PlainBytes _))
  | .isInvalid => instDecidableTrue
  | .default64 _ => instDecidableTrue

theorem assigned_memoryRow {exempt : Bool → String → Bool} {isGather : Nat → Bool} {n : Nat}
    {assignments : List Assignment} (i : Fin n)
    (hdefault : exempt false "" = true ∨ MemoryRow (isGather i) {})
    (hrows : ∀ assignment ∈ assignments,
      Fits exempt (isGather assignment.index) assignment.update) :
    exempt (assigned n assignments i).hasRMByte (assigned n assignments i).text = true ∨
      MemoryRow (isGather i) (assigned n assignments i) := by
  refine assigned_induction
    (fun info => exempt info.hasRMByte info.text = true ∨ MemoryRow (isGather i) info)
    n assignments i hdefault ?_
  rintro ⟨index, update⟩ hassignment hindex info hinfo
  have hfits := hrows _ hassignment
  rw [hindex] at hfits
  cases update with
  | info row => exact hfits
  | isInvalid => exact hinfo.imp id fun h => ⟨h.1, h.2, h.3, h.4, h.5, h.6⟩
  | text64 name => exact hinfo.imp id fun h => ⟨h.1, h.2, hfits, h.4, h.5, h.6⟩
  | default64 mode => exact hinfo.imp id fun h => ⟨h.1, h.2, h.3, h.4, h.5, h.6⟩

/-- A table all of whose rows are memory rows. -/
theorem assigned_memoryRow_all {n : Nat} {assignments : List Assignment} (i : Fin n)
    (hrows : ∀ assignment ∈ assignments, Fits (fun _ _ => false) false assignment.update) :
    MemoryRow false (assigned n assignments i) :=
  (@assigned_memoryRow (fun _ _ => false) (fun _ => false) n assignments i
    (Or.inr (by decide)) hrows).resolve_left (by decide)

theorem opcodeTable_memoryRow (i : Fin 256) (h : (opcodeTable i).hasRMByte = true) :
    MemoryRow false (opcodeTable i) := by
  have hrow := @assigned_memoryRow (fun hasRMByte _ => !hasRMByte) (fun _ => false) 256
    (opcodeRows ++ opcodeRowsLongMode) i (Or.inr (by decide)) (by decide +kernel)
  exact hrow.resolve_left (by rw [← opcodeTable, h]; decide)

/-- The rows of the tables that hold nothing but memory rows. -/
def memoryRowTables : List (List Assignment) :=
  [TwoByte.rows, Prefixed.rows, Groups.rows, ThreeByte.rows, ThreeDNow.rows, x87MemRows,
    x87RegRows.flatten] ++ [grp1Rows, grp2Rows, grp3Rows, grp4Rows, grp5Rows]

theorem memoryRowTables_fit :
    ∀ rows ∈ memoryRowTables, ∀ assignment ∈ rows,
      Fits (fun _ _ => false) false assignment.update := by
  decide +kernel

theorem assigned_memoryRow_of_mem {n : Nat} {rows : List Assignment} (h : rows ∈ memoryRowTables)
    (i : Fin n) : MemoryRow false (assigned n rows i) :=
  assigned_memoryRow_all i (memoryRowTables_fit rows h)

theorem twoByteTable_memoryRow (i : Fin 256) : MemoryRow false (twoByteTable i) := by
  have h := @assigned_memoryRow_of_mem 256 TwoByte.rows (by simp [memoryRowTables]) i
  rw [twoByteTable, nameUnnamed]
  split
  · exact ⟨(by decide : PlainBytes "(bad)"), h.2, h.3, h.4, h.5, h.6⟩
  · exact h

theorem prefixedTable_memoryRow (i : Fin 768) : MemoryRow false (prefixedTable i) :=
  assigned_memoryRow_of_mem (by simp [memoryRowTables]) i

theorem twoByteGroupTable_memoryRow (i : Fin 128) : MemoryRow false (twoByteGroupTable i) :=
  assigned_memoryRow_of_mem (by simp [memoryRowTables]) i

theorem threeByteTable_memoryRow (i : Fin 1024) : MemoryRow false (threeByteTable i) :=
  assigned_memoryRow_of_mem (by simp [memoryRowTables]) i

theorem threeDNowTable_memoryRow (i : Fin 256) : MemoryRow false (threeDNowTable i) :=
  assigned_memoryRow_of_mem (by simp [memoryRowTables]) i

theorem x87MemTable_memoryRow (i : Fin 64) : MemoryRow false (x87MemTable i) :=
  assigned_memoryRow_of_mem (by simp [memoryRowTables]) i

theorem x87RegTable_memoryRow (i : Fin 512) : MemoryRow false (x87RegTable i) :=
  assigned_memoryRow_of_mem (by simp [memoryRowTables]) i

theorem grpTable_memoryRow (rows : List Assignment)
    (hrows : rows ∈ [grp1Rows, grp2Rows, grp3Rows, grp4Rows, grp5Rows]) (i : Fin 8) :
    MemoryRow false (assigned 8 rows i) :=
  assigned_memoryRow_of_mem (List.mem_append_right _ hrows) i

/-- The slots of the gathers: map 2, prefix column 66, opcodes 90 to 93. -/
def isGatherSlot (slot : Nat) : Bool := 5 * 256 + 0x90 ≤ slot && slot ≤ 5 * 256 + 0x93

theorem vexTable_memoryRow (i : Fin 3072) (hnamed : (vexTable i).text ≠ "") :
    MemoryRow (isGatherSlot i) (vexTable i) := by
  have hrow := @assigned_memoryRow (fun _ text => text == "") isGatherSlot 3072 Vex.rows i
    (Or.inl rfl) (by decide +kernel)
  exact hrow.resolve_left (by rw [← vexTable]; simpa using hnamed)

end Tables

/-- A lookup that succeeds does so with a row that satisfies `Q`. -/
structure Ensures {α : Type} (result : Except Thrown α) (Q : α → Prop) : Prop where
  of_ok : ∀ value, result = .ok value → Q value

section Lookups

variable {α β : Type} {P : α → Prop} {Q : β → Prop}

theorem Ensures.pure {value : α} (h : P value) : Ensures (Pure.pure value) P := by
  constructor
  intro result hresult
  rw [← Except.ok.inj hresult]
  exact h

theorem Ensures.throw {thrown : Thrown} : Ensures (.error thrown) P := by
  constructor
  intro value hvalue
  contradiction

theorem Ensures.bind {result : Except Thrown α} {rest : α → Except Thrown β}
    (hresult : Ensures result P) (hrest : ∀ value, P value → Ensures (rest value) Q) :
    Ensures (result >>= rest) Q := by
  constructor
  intro value hvalue
  rcases result with thrown | first
  · contradiction
  · exact (hrest first (hresult.of_ok first rfl)).of_ok value hvalue

theorem Ensures.at {n : Nat} {table : OpcodeTable n} {i : Int} {Q : OpcodeInfo → Prop}
    (h : ∀ slot : Fin n, (slot.val : Int) = i → Q (table slot)) : Ensures (table.at i) Q := by
  constructor
  intro row hrow
  rw [OpcodeTable.at] at hrow
  split at hrow
  · rename_i hinside
    rw [← Except.ok.inj hrow]
    exact h _ (Int.toNat_of_nonneg hinside.1)
  · contradiction

variable {isGather : Bool} {outer entry : OpcodeInfo}

theorem MemoryRow.not_isVSIB (h : MemoryRow false outer) :
    ∀ operand ∈ outer.operands.toList, isVSIB operand = false := by
  intro operand hoperand
  have hvsib := h.vsib
  rw [List.any_eq_false] at hvsib
  simpa using hvsib operand hoperand

theorem mergeOperand_unbracketed (opSize : Size) {first second : TableOperand}
    (hfirst : Unbracketed first) (hsecond : Unbracketed second) :
    Unbracketed (mergeOperand opSize first second) := by
  rw [mergeOperand]
  split
  · exact hfirst
  · exact ⟨hsecond.value, hsecond.mode⟩

theorem mergeOperand_isVSIB (opSize : Size) {first second : TableOperand}
    (hfirst : isVSIB first = false) (hsecond : isVSIB second = false) :
    isVSIB (mergeOperand opSize first second) = false := by
  rw [mergeOperand]
  split
  · exact hfirst
  · exact hsecond

theorem MemoryRow.merge (houter : MemoryRow false outer) (hentry : MemoryRow false entry) :
    MemoryRow false (merge outer entry) := by
  rw [RowResolution.merge]
  split
  · exact hentry
  have houterVSIB := houter.not_isVSIB
  have hentryVSIB := hentry.not_isVSIB
  have houterText := houter.operands
  have hentryText := hentry.operands
  simp only [toList_operands, List.forall_mem_cons, List.not_mem_nil, false_implies,
    implies_true, and_true] at houterVSIB hentryVSIB houterText hentryText
  refine ⟨hentry.text, hentry.text16, houter.text64, ?_, ?_, by simp⟩
  · simp only [toList_operands, firstOperand_zipWith, secondOperand_zipWith, thirdOperand_zipWith,
      List.forall_mem_cons, List.not_mem_nil, false_implies, implies_true, and_true]
    exact ⟨mergeOperand_unbracketed _ houterText.1 hentryText.1,
      mergeOperand_unbracketed _ houterText.2.1 hentryText.2.1,
      mergeOperand_unbracketed _ houterText.2.2 hentryText.2.2⟩
  · simp only [toList_operands, firstOperand_zipWith, secondOperand_zipWith, thirdOperand_zipWith,
      List.any_cons, List.any_nil, mergeOperand_isVSIB _ houterVSIB.1 hentryVSIB.1,
      mergeOperand_isVSIB _ houterVSIB.2.1 hentryVSIB.2.1,
      mergeOperand_isVSIB _ houterVSIB.2.2 hentryVSIB.2.2, Bool.or_false]

theorem renamedIf_memoryRow (condition : Bool) {text : String} (htext : PlainBytes text)
    (h : MemoryRow isGather outer) : MemoryRow isGather (renamedIf condition text outer) := by
  rw [renamedIf]
  split
  · exact ⟨htext, h.2, h.3, h.4, h.5, h.6⟩
  · exact h

theorem toXmm_unbracketed {operand : TableOperand} (h : Unbracketed operand) :
    Unbracketed (TableOperand.toXmm operand) := by
  rw [TableOperand.toXmm]
  split
  · constructor
    · exact h.value
    · dsimp only
      split <;> decide
  · exact h

theorem toXmm_isVSIB {operand : TableOperand} (h : isVSIB operand = false) :
    isVSIB (TableOperand.toXmm operand) = false := by
  rw [TableOperand.toXmm]
  split
  · rw [isVSIB]
    dsimp only
    split <;> decide
  · exact h

theorem sse2Twin_memoryRow (h : MemoryRow false outer) : MemoryRow false (sse2Twin outer) := by
  rw [sse2Twin]
  split
  · have hvsib := h.not_isVSIB
    refine ⟨h.text, h.text16, h.text64, ?_, ?_, by simp⟩
    · simp only [Vector.toList_map, List.forall_mem_map]
      intro operand hoperand
      exact toXmm_unbracketed (h.operands operand hoperand)
    · simp only [Vector.toList_map, List.any_map, List.any_eq_false, Function.comp_apply]
      intro operand hoperand
      rw [toXmm_isVSIB (hvsib operand hoperand)]
      decide
  · exact h

theorem twoByteGroupEntry_memoryRow (group : Int) (modRM : UInt8) :
    Ensures (twoByteGroupEntry group modRM) (MemoryRow false) :=
  Ensures.at fun slot _ => twoByteGroupTable_memoryRow slot

theorem followGroup_memoryRow (h : MemoryRow isGather outer) (group : Int) (modRM : UInt8) :
    Ensures (followGroup outer group modRM) (MemoryRow isGather) := by
  rw [followGroup]
  split
  · exact Ensures.pure h
  · rename_i hgrouped
    cases isGather with
    | true => exact absurd (h.ungrouped rfl) hgrouped
    | false =>
        refine Ensures.bind (twoByteGroupEntry_memoryRow group modRM) fun entry hentry => ?_
        exact Ensures.pure (h.merge hentry)

theorem x87ResolvedInfo_memoryRow (opcode modRM : UInt8) :
    Ensures (x87ResolvedInfo opcode modRM) (MemoryRow false) := by
  rw [x87ResolvedInfo]
  split
  · exact Ensures.at fun slot _ => x87MemTable_memoryRow slot
  · exact Ensures.at fun slot _ => x87RegTable_memoryRow slot

theorem groupTableOf_memoryRow (opcode : UInt8) :
    Ensures (groupTableOf opcode) fun table => ∀ i, MemoryRow false (table i) := by
  rw [groupTableOf]
  refine Ensures.bind (P := fun _ => True) (Ensures.at fun _ _ => trivial) fun row _ => ?_
  split
  · exact Ensures.pure (grpTable_memoryRow grp1Rows (by simp))
  split
  · exact Ensures.pure (grpTable_memoryRow grp2Rows (by simp))
  split
  · exact Ensures.pure (grpTable_memoryRow grp3Rows (by simp))
  split
  · exact Ensures.pure (grpTable_memoryRow grp4Rows (by simp))
  split
  · exact Ensures.pure (grpTable_memoryRow grp5Rows (by simp))
  · exact Ensures.throw

theorem resolvedInfo_memoryRow (opcode modRM : UInt8) (is64Bit : Bool)
    (hmodRM : Ensures (opcodeTable.at opcode.toNat) fun row => row.hasRMByte = true) :
    Ensures (resolvedInfo opcode modRM is64Bit) (MemoryRow false) := by
  rw [resolvedInfo]
  split
  · exact x87ResolvedInfo_memoryRow opcode modRM
  split
  · exact Ensures.pure (by decide)
  split
  · refine Ensures.pure ?_
    split <;> decide
  have hrow : Ensures (opcodeTable.at opcode.toNat) (MemoryRow false) := by
    constructor
    intro row hrow
    have hflag := hmodRM.of_ok row hrow
    revert hflag
    refine (Ensures.at (Q := fun row => row.hasRMByte = true → MemoryRow false row)
      fun slot _ => opcodeTable_memoryRow slot).of_ok row hrow
  refine Ensures.bind hrow fun row hrow => ?_
  split
  · refine Ensures.bind (P := MemoryRow false) ?_ fun entry hentry =>
      Ensures.pure (hrow.merge hentry)
    rw [groupEntryOf]
    refine Ensures.bind (groupTableOf_memoryRow opcode) fun table htable => ?_
    exact Ensures.at fun slot _ => htable slot
  · exact Ensures.pure hrow

theorem twoByteOuter_memoryRow (opcode pp : UInt8) :
    Ensures (twoByteOuter opcode pp) (MemoryRow false) := by
  rw [twoByteOuter]
  split
  · exact Ensures.at fun slot _ => twoByteTable_memoryRow slot
  · refine Ensures.bind (Ensures.at fun slot _ => prefixedTable_memoryRow slot) fun row hrow => ?_
    split
    · exact Ensures.at fun slot _ => twoByteTable_memoryRow slot
    · exact Ensures.pure hrow

theorem twoByteResolvedInfo_memoryRow (opcode modRM : UInt8) (simd : Simd) :
    Ensures (twoByteResolvedInfo opcode modRM simd) (MemoryRow false) := by
  rw [twoByteResolvedInfo]
  split
  · refine Ensures.pure ?_
    split <;> decide
  split
  · refine Ensures.pure ?_
    split <;> decide
  refine Ensures.bind (twoByteOuter_memoryRow opcode simd.pp) fun row hrow => ?_
  refine followGroup_memoryRow (renamedIf_memoryRow _ (by split <;> decide) ?_) _ modRM
  split
  · exact sse2Twin_memoryRow hrow
  · exact hrow

theorem threeByteRow_memoryRow (hasImm8 : Bool) : MemoryRow false (threeByteRow hasImm8) := by
  cases hasImm8 <;> decide

theorem threeByteResolvedInfo_memoryRow (opcode : UInt8) (simd : Simd) :
    Ensures (threeByteResolvedInfo opcode simd) (MemoryRow false) := by
  rw [threeByteResolvedInfo]
  split
  · refine Ensures.pure ?_
    split <;> decide
  split
  · exact Ensures.pure (threeByteRow_memoryRow _)
  refine Ensures.bind (Ensures.at fun slot _ => threeByteTable_memoryRow slot) fun row hrow => ?_
  refine Ensures.pure ?_
  split
  · exact threeByteRow_memoryRow _
  · exact hrow

theorem vexRenamed_memoryRow (opcode modRM : UInt8) (simd : Simd) (h : MemoryRow isGather outer) :
    MemoryRow isGather (vexRenamed opcode modRM simd outer) := by
  refine renamedIf_memoryRow _ (by split <;> decide) ?_
  have hrenamed := renamedIf_memoryRow
    (simd.map == 1 && opcode == 0x77 && simd.L ≠ 0) (by decide : PlainBytes "VZEROALL") h
  split
  · exact ⟨hrenamed.1, hrenamed.2, hrenamed.3, hrenamed.4, hrenamed.5, hrenamed.6⟩
  · exact hrenamed

theorem withSize_unbracketed {operand : TableOperand} (size : Size) (h : Unbracketed operand) :
    Unbracketed (TableOperand.withSize operand size) :=
  ⟨h.value, h.mode⟩

theorem gatherResized_memoryRow (opcode : UInt8) (simd : Simd) (h : MemoryRow isGather outer) :
    MemoryRow isGather (gatherResized opcode simd outer) := by
  have htext := h.operands
  have hvsib := h.vsib
  simp only [toList_operands, List.forall_mem_cons, List.not_mem_nil, false_implies,
    implies_true, and_true] at htext
  simp only [toList_operands] at hvsib
  rw [gatherResized]
  split
  · split
    · refine ⟨h.text, h.text16, h.text64, ?_, hvsib, h.ungrouped⟩
      simp only [toList_slots, List.forall_mem_cons, List.not_mem_nil, false_implies,
        implies_true, and_true]
      exact ⟨withSize_unbracketed _ htext.1, htext.2.1, withSize_unbracketed _ htext.2.2⟩
    · refine ⟨h.text, h.text16, h.text64, ?_, hvsib, h.ungrouped⟩
      simp only [toList_slots, List.forall_mem_cons, List.not_mem_nil, false_implies,
        implies_true, and_true]
      exact ⟨htext.1, withSize_unbracketed _ htext.2.1, htext.2.2⟩
  · exact h

/-- VEX.66.0F38 90 to 93. -/
def isGatherOpcode (opcode : UInt8) (simd : Simd) : Bool :=
  simd.vex != 0 && simd.map.toNat == 2 && simd.pp.toNat == 1 && 0x90 ≤ opcode.toNat &&
    opcode.toNat ≤ 0x93

theorem vexResolvedInfo_memoryRow (opcode modRM : UInt8) {simd : Simd} (hknown : KnownMap simd)
    (hvex : simd.vex ≠ 0) :
    Ensures (vexResolvedInfo opcode modRM simd) fun info =>
      info.text = "(bad)" ∨ MemoryRow (isGatherOpcode opcode simd) info := by
  rw [vexResolvedInfo]
  refine Ensures.bind (P := fun row => row.text = "" ∨ MemoryRow (isGatherOpcode opcode simd) row)
    (Ensures.at fun slot hslot => ?_) fun row hrow => ?_
  · by_cases hnamed : (vexTable slot).text = ""
    · exact Or.inl hnamed
    · refine Or.inr ?_
      have hgather : isGatherOpcode opcode simd = isGatherSlot slot := by
        have hpp := hknown.pp_le
        have hmap := hknown.map_pos hvex
        have hopcode := opcode.toNat_lt
        rw [isGatherOpcode, isGatherSlot, bne_iff_ne.mpr hvex, Bool.true_and, Bool.eq_iff_iff]
        simp only [Bool.and_eq_true, beq_iff_eq, decide_eq_true_eq]
        omega
      rw [hgather]
      exact vexTable_memoryRow slot hnamed
  · split
    · refine Ensures.pure (Or.inl ?_)
      rw [threeByteRow]
      split <;> rfl
    · rename_i hnamed
      have hrow := hrow.resolve_left hnamed
      have hinfo := gatherResized_memoryRow opcode simd
        (vexRenamed_memoryRow opcode modRM simd hrow)
      refine ⟨fun info hok => Or.inr ?_⟩
      exact (followGroup_memoryRow hinfo _ modRM).of_ok info hok

/-- The row of an opcode with a ModRM byte. -/
theorem rowOf_memoryRow (is64Bit : Bool) {opcode : UInt8} (modRM : UInt8) {simd : Simd}
    (hknown : KnownMap simd) (hmodRM : hasModRM opcode simd = .ok true) :
    Ensures (rowOf is64Bit opcode modRM simd) fun info =>
      info.text = "(bad)" ∨ MemoryRow (isGatherOpcode opcode simd) info := by
  rw [rowOf]
  rw [hasModRM] at hmodRM
  split
  · rename_i hvex
    exact vexResolvedInfo_memoryRow opcode modRM hknown hvex
  · rename_i hvex
    have hplain : isGatherOpcode opcode simd = false := by
      simp only [not_not] at hvex
      simp [isGatherOpcode, hvex]
    rw [if_neg hvex] at hmodRM
    rw [hplain]
    split
    · rename_i hmap
      rw [if_pos hmap] at hmodRM
      have hflag : Ensures (opcodeTable.at opcode.toNat) fun row => row.hasRMByte = true := by
        constructor
        intro row hrow
        rw [hrow] at hmodRM
        exact Except.ok.inj hmodRM
      exact ⟨fun info hok =>
        Or.inr ((resolvedInfo_memoryRow opcode modRM is64Bit hflag).of_ok info hok)⟩
    split
    · exact ⟨fun info hok =>
        Or.inr ((twoByteResolvedInfo_memoryRow opcode modRM simd).of_ok info hok)⟩
    · exact ⟨fun info hok =>
        Or.inr ((threeByteResolvedInfo_memoryRow opcode simd).of_ok info hok)⟩

end Lookups

end Voidwalk.MemoryRows

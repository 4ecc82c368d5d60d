import Voidwalk.RowLookups

/-!
The immediates in the rows that the lookups find: none stands behind an empty slot, and a
relative target is the only one of its row.
-/

namespace Voidwalk.ImmediateRows

open Voidwalk.MappedFile
open Voidwalk.OpcodeRows
open Voidwalk.OneByteTables
open Voidwalk.TwoByteTables
open Voidwalk.ThreeByteTables
open Voidwalk.RowResolution
open Voidwalk.InstructionDecoding
open Voidwalk.MemoryRows
open Voidwalk.RowKinds
open Voidwalk.RowLookups

/-- An operand that a branch goes to: a relative target or a far address. -/
def isTarget (operand : TableOperand) : Bool :=
  operand.addressingMode == .J || operand.addressingMode == .A

/-- No immediate stands behind an empty slot. -/
structure GapFree (operands : Vector TableOperand 3) : Prop where
  first : (firstOperand operands).addressingMode = .None →
    (secondOperand operands).addressingMode.isImmediate = false ∧
      (thirdOperand operands).addressingMode.isImmediate = false
  second : (secondOperand operands).addressingMode = .None →
    (thirdOperand operands).addressingMode.isImmediate = false

instance (operands : Vector TableOperand 3) : Decidable (GapFree operands) :=
  decidable_of_iff (_ ∧ _) ⟨fun h => ⟨h.1, h.2⟩, fun h => ⟨h.1, h.2⟩⟩

/-- A relative target is the only immediate of its row. The fields of targets have no widths
that the operand size does not bound. -/
structure TargetAlone (operands : Vector TableOperand 3) : Prop where
  alone : (∃ operand ∈ operands.toList, operand.addressingMode = .J) →
    immediateCount operands.toList = 1
  relative : ∀ operand ∈ operands.toList, operand.addressingMode = .J → operand.size ≠ .d
  far : ∀ operand ∈ operands.toList, operand.addressingMode = .A → operand.size ≠ .v

instance (operands : Vector TableOperand 3) : Decidable (TargetAlone operands) :=
  decidable_of_iff (_ ∧ _ ∧ _) ⟨fun h => ⟨h.1, h.2.1, h.2.2⟩, fun h => ⟨h.1, h.2, h.3⟩⟩

/-- What the lookups keep; the targets of rows that escape to a group are seen to apart. -/
structure ImmediateRow (info : OpcodeInfo) : Prop where
  gapFree : GapFree info.operands
  target : info.groupNumber ≤ 0 → TargetAlone info.operands

instance (info : OpcodeInfo) : Decidable (ImmediateRow info) :=
  decidable_of_iff (_ ∧ _) ⟨fun h => ⟨h.1, h.2⟩, fun h => ⟨h.1, h.2⟩⟩

section Closure

variable {outer entry : OpcodeInfo}

theorem mergeOperand_mode (opSize : Size) (first second : TableOperand) :
    (mergeOperand opSize first second).addressingMode =
      if second.addressingMode = .None then first.addressingMode else second.addressingMode := by
  rw [mergeOperand]
  split
  · rfl
  · rfl

theorem GapFree.zipWith {first second : Vector TableOperand 3} (hfirst : GapFree first)
    (hsecond : GapFree second) (opSize : Size) :
    GapFree (Vector.zipWith (mergeOperand opSize) first second) := by
  have hempty {a b : TableOperand} (h : (mergeOperand opSize a b).addressingMode = .None) :
      a.addressingMode = .None ∧ b.addressingMode = .None := by
    rw [mergeOperand_mode] at h
    split at h
    · rename_i hb
      exact ⟨h, hb⟩
    · rename_i hb
      exact absurd h hb
  refine ⟨?_, ?_⟩
  · rw [firstOperand_zipWith, secondOperand_zipWith, thirdOperand_zipWith]
    intro h
    obtain ⟨ha, hb⟩ := hempty h
    exact ⟨mergeOperand_isImmediate _ (hfirst.first ha).1 (hsecond.first hb).1,
      mergeOperand_isImmediate _ (hfirst.first ha).2 (hsecond.first hb).2⟩
  · rw [secondOperand_zipWith, thirdOperand_zipWith]
    intro h
    obtain ⟨ha, hb⟩ := hempty h
    exact mergeOperand_isImmediate _ (hfirst.second ha) (hsecond.second hb)

theorem ImmediateRow.merge (hgroup : 0 < outer.groupNumber) (houter : ImmediateRow outer)
    (hentry : ImmediateRow entry) : ImmediateRow (merge outer entry) := by
  rw [RowResolution.merge]
  split
  · exact hentry
  · refine ⟨houter.gapFree.zipWith hentry.gapFree _, fun hungrouped => ?_⟩
    exact absurd hgroup (Int.not_lt.mpr hungrouped)

/-- An operand that prints and reads the same immediate as another, in a field that may only
have become one that the operand size bounds. -/
structure SameField (plain later : TableOperand) : Prop where
  isImmediate : later.addressingMode.isImmediate = plain.addressingMode.isImmediate
  empty : later.addressingMode = .None → plain.addressingMode = .None
  target : ∀ mode ∈ [Addressing.J, .A], later.addressingMode = mode →
    plain.addressingMode = mode ∧ (later.size = plain.size ∨ later.size ∈ [Size.None, .dq])

/-- The same fields, operand by operand. -/
structure SameFields (operands later : Vector TableOperand 3) : Prop where
  first : SameField (firstOperand operands) (firstOperand later)
  second : SameField (secondOperand operands) (secondOperand later)
  third : SameField (thirdOperand operands) (thirdOperand later)

theorem SameField.refl (operand : TableOperand) : SameField operand operand :=
  ⟨rfl, id, fun _ _ hmode => ⟨hmode, Or.inl rfl⟩⟩

theorem SameField.withSize (operand : TableOperand) {size : Size}
    (hsize : size ∈ [Size.None, .dq]) : SameField operand (TableOperand.withSize operand size) :=
  ⟨rfl, id, fun _ _ hmode => ⟨hmode, Or.inr hsize⟩⟩

theorem SameField.toXmm (operand : TableOperand) :
    SameField operand (TableOperand.toXmm operand) := by
  refine ⟨toXmm_isImmediate operand, ?_, ?_⟩
  · rw [TableOperand.toXmm]
    split
    · dsimp only
      split
      · exact fun h => absurd h (by decide)
      · exact fun h => absurd h (by decide)
    · exact id
  · intro mode hmode
    rw [TableOperand.toXmm]
    split
    · dsimp only
      split
      · rintro rfl
        exact absurd hmode (by decide)
      · rintro rfl
        exact absurd hmode (by decide)
    · exact fun hplain => ⟨hplain, Or.inl rfl⟩

section SameFields

variable {operands later : Vector TableOperand 3} (h : SameFields operands later)

include h

theorem GapFree.same (hgapFree : GapFree operands) : GapFree later := by
  refine ⟨fun hfirst => ?_, fun hsecond => ?_⟩
  · rw [h.second.isImmediate, h.third.isImmediate]
    exact hgapFree.first (h.first.empty hfirst)
  · rw [h.third.isImmediate]
    exact hgapFree.second (h.second.empty hsecond)

theorem TargetAlone.same (halone : TargetAlone operands) : TargetAlone later := by
  have hfields : ∀ operand ∈ later.toList, ∃ plain ∈ operands.toList, SameField plain operand := by
    simp only [toList_operands, List.forall_mem_cons, List.exists_mem_cons_iff]
    exact ⟨Or.inl h.first, Or.inr (Or.inl h.second), Or.inr (Or.inr (Or.inl h.third)), by simp⟩
  have hcount : immediateCount later.toList = immediateCount operands.toList := by
    simp only [toList_operands, immediateCount, List.countP_cons, h.first.isImmediate,
      h.second.isImmediate, h.third.isImmediate]
  refine ⟨?_, ?_, ?_⟩
  · rintro ⟨operand, hoperand, hmode⟩
    obtain ⟨plain, hplain, hsame⟩ := hfields operand hoperand
    rw [hcount]
    exact halone.alone ⟨plain, hplain, (hsame.target .J (by simp) hmode).1⟩
  · intro operand hoperand hmode
    obtain ⟨plain, hplain, hsame⟩ := hfields operand hoperand
    obtain ⟨hplainMode, hsize | hsize⟩ := hsame.target .J (by simp) hmode
    · rw [hsize]
      exact halone.relative plain hplain hplainMode
    · rintro hd
      exact absurd (hd ▸ hsize) (by decide)
  · intro operand hoperand hmode
    obtain ⟨plain, hplain, hsame⟩ := hfields operand hoperand
    obtain ⟨hplainMode, hsize | hsize⟩ := hsame.target .A (by simp) hmode
    · rw [hsize]
      exact halone.far plain hplain hplainMode
    · rintro hv
      exact absurd (hv ▸ hsize) (by decide)

end SameFields

theorem ImmediateRow.same {later : OpcodeInfo} (h : ImmediateRow outer)
    (hsame : SameFields outer.operands later.operands)
    (hgroup : later.groupNumber = outer.groupNumber) : ImmediateRow later :=
  ⟨h.gapFree.same hsame, fun hungrouped => (h.target (hgroup ▸ hungrouped)).same hsame⟩

theorem sse2Twin_sameFields (row : OpcodeInfo) :
    SameFields row.operands (sse2Twin row).operands ∧
      (sse2Twin row).groupNumber = row.groupNumber := by
  rw [RowResolution.sse2Twin]
  split
  · refine ⟨⟨?_, ?_, ?_⟩, rfl⟩
    · rw [firstOperand_map]
      exact SameField.toXmm _
    · rw [secondOperand_map]
      exact SameField.toXmm _
    · rw [thirdOperand_map]
      exact SameField.toXmm _
  · exact ⟨⟨SameField.refl _, SameField.refl _, SameField.refl _⟩, rfl⟩

theorem gatherResized_sameFields (opcode : UInt8) (simd : Simd) (row : OpcodeInfo) :
    SameFields row.operands (gatherResized opcode simd row).operands ∧
      (gatherResized opcode simd row).groupNumber = row.groupNumber := by
  rw [RowResolution.gatherResized]
  split
  · split
    · refine ⟨⟨?_, SameField.refl _, ?_⟩, rfl⟩
      · exact SameField.withSize _ (by simp)
      · exact SameField.withSize _ (by simp)
    · exact ⟨⟨SameField.refl _, SameField.withSize _ (by simp), SameField.refl _⟩, rfl⟩
  · exact ⟨⟨SameField.refl _, SameField.refl _, SameField.refl _⟩, rfl⟩

end Closure

section Tables

/-- What an assignment writes is such a row. -/
def UpdateRow : RowUpdate → Prop
  | .info row => ImmediateRow row
  | _ => True

instance (update : RowUpdate) : Decidable (UpdateRow update) :=
  match update with
  | .info row => inferInstanceAs (Decidable (ImmediateRow row))
  | .isInvalid => instDecidableTrue
  | .text64 _ => instDecidableTrue
  | .default64 _ => instDecidableTrue

theorem assigned_immediateRow {n : Nat} {assignments : List Assignment}
    (hrows : ∀ assignment ∈ assignments, UpdateRow assignment.update) (i : Fin n) :
    ImmediateRow (assigned n assignments i) := by
  refine assigned_induction ImmediateRow n assignments i (by decide) ?_
  rintro ⟨index, update⟩ hassignment - info hinfo
  have hupdate := hrows _ hassignment
  cases update with
  | info row => exact hupdate
  | isInvalid => exact ⟨hinfo.1, hinfo.2⟩
  | text64 name => exact ⟨hinfo.1, hinfo.2⟩
  | default64 mode => exact ⟨hinfo.1, hinfo.2⟩

/-- The tables whose rows the lookups take, and those of the entries of groups. -/
theorem tables_immediateRow :
    ∀ rows ∈ RowTexts.tableRows, ∀ assignment ∈ rows, UpdateRow assignment.update := by
  decide +kernel

theorem table_immediateRow {n : Nat} {rows : List Assignment} (hrows : rows ∈ RowTexts.tableRows)
    (i : Fin n) : ImmediateRow (assigned n rows i) :=
  assigned_immediateRow (tables_immediateRow rows hrows) i

theorem immediateRow_rowKind : RowKind ImmediateRow where
  opcodeTable := table_immediateRow (by simp [RowTexts.tableRows])
  twoByteTable i := by
    have h := @table_immediateRow 256 TwoByte.rows (by simp [RowTexts.tableRows]) i
    rw [twoByteTable, nameUnnamed]
    split
    · exact ⟨h.1, h.2⟩
    · exact h
  prefixedTable := table_immediateRow (by simp [RowTexts.tableRows])
  twoByteGroupTable := table_immediateRow (by simp [RowTexts.tableRows])
  threeByteTable := table_immediateRow (by simp [RowTexts.tableRows])
  threeDNowTable := table_immediateRow (by simp [RowTexts.tableRows])
  vexTable := table_immediateRow (by simp [RowTexts.tableRows])
  x87MemTable := table_immediateRow (by simp [RowTexts.tableRows])
  x87RegTable := table_immediateRow (by simp [RowTexts.tableRows])
  grpTable rows hrows := by
    apply table_immediateRow
    simp only [RowTexts.tableRows, List.mem_cons, List.not_mem_nil, or_false] at hrows ⊢
    tauto
  formRow := by decide
  merge _ _ hgroup houter hentry := houter.merge hgroup hentry
  sse2Twin row h := h.same (sse2Twin_sameFields row).1 (sse2Twin_sameFields row).2
  renamed _ _ _ h := ⟨h.1, h.2⟩
  withoutNds _ h := ⟨h.1, h.2⟩
  gatherResized opcode simd row h :=
    h.same (gatherResized_sameFields opcode simd row).1 (gatherResized_sameFields opcode simd row).2

end Tables

section Groups

/-- No operand is one that a branch goes to. -/
def NoTarget (operands : Vector TableOperand 3) : Prop :=
  ∀ operand ∈ operands.toList, isTarget operand = false

instance (operands : Vector TableOperand 3) : Decidable (NoTarget operands) :=
  inferInstanceAs (Decidable (∀ operand ∈ operands.toList, _))

/-- A row that escapes to a group has no target of its own. -/
def Escapes (info : OpcodeInfo) : Prop := 0 < info.groupNumber → NoTarget info.operands

theorem noTarget_iff {operands : Vector TableOperand 3} :
    NoTarget operands ↔ isTarget (firstOperand operands) = false ∧
      isTarget (secondOperand operands) = false ∧ isTarget (thirdOperand operands) = false := by
  rw [NoTarget, toList_operands]
  simp

theorem NoTarget.same {operands later : Vector TableOperand 3} (hsame : SameFields operands later)
    (h : NoTarget operands) : NoTarget later := by
  have hfield {plain operand : TableOperand} (hsame : SameField plain operand)
      (hplain : isTarget plain = false) : isTarget operand = false := by
    simp only [isTarget, Bool.or_eq_false_iff, beq_eq_false_iff_ne] at hplain ⊢
    constructor
    · exact fun hmode => hplain.1 (hsame.target .J (by simp) hmode).1
    · exact fun hmode => hplain.2 (hsame.target .A (by simp) hmode).1
  rw [noTarget_iff] at h ⊢
  exact ⟨hfield hsame.first h.1, hfield hsame.second h.2.1, hfield hsame.third h.2.2⟩

theorem tables_noTarget : ∀ rows ∈ RowTexts.tableRows, ∀ row ∈ wholeRows rows,
    0 < row.groupNumber → NoTarget row.operands := by
  decide +kernel

theorem table_escapes {n : Nat} {rows : List Assignment} (h : rows ∈ RowTexts.tableRows)
    (i : Fin n) : Escapes (assigned n rows i) := by
  refine assigned_shape (fun operands group => 0 < group → NoTarget operands) n rows ?_ ?_ i
  · exact fun hgroup => absurd hgroup (by decide)
  · exact tables_noTarget rows h

theorem twoByteGroupTable_noTarget (i : Fin 128) : NoTarget (twoByteGroupTable i).operands :=
  assigned_shape (fun operands _ => NoTarget operands) 128 _ (by decide) (by decide +kernel) i

theorem grpTable_noTarget (rows : List Assignment)
    (hrows : rows ∈ [grp1Rows, grp2Rows, grp3Rows, grp4Rows, grp5Rows]) (i : Fin 8) :
    NoTarget (assigned 8 rows i).operands := by
  refine assigned_shape (fun operands _ => NoTarget operands) 8 rows (by decide) ?_ i
  revert rows
  decide +kernel

theorem noTarget_merge {outer entry : OpcodeInfo} (houter : NoTarget outer.operands)
    (hentry : NoTarget entry.operands) : NoTarget (merge outer entry).operands := by
  have hmerged (opSize : Size) {first second : TableOperand} (hfirst : isTarget first = false)
      (hsecond : isTarget second = false) :
      isTarget (mergeOperand opSize first second) = false := by
    rw [isTarget, mergeOperand_mode]
    split
    · exact hfirst
    · exact hsecond
  rw [merge]
  split
  · exact hentry
  · rw [noTarget_iff] at houter hentry ⊢
    simp only [firstOperand_zipWith, secondOperand_zipWith, thirdOperand_zipWith]
    exact ⟨hmerged _ houter.1 hentry.1, hmerged _ houter.2.1 hentry.2.1,
      hmerged _ houter.2.2 hentry.2.2⟩

/-- A row that the lookups name outright escapes to no group. -/
theorem escapes_of_mem {row : OpcodeInfo} (h : row ∈ formRows) : Escapes row := by
  have hrows : ∀ row ∈ formRows, row.groupNumber ≤ 0 := by decide
  exact fun hgroup => absurd hgroup (Int.not_lt.mpr (hrows row h))

theorem threeByteRow_mem (hasImm8 : Bool) : threeByteRow hasImm8 ∈ formRows := by
  cases hasImm8 with
  | false => simp [formRows]
  | true => simp [formRows]

theorem escapes_kept : Kept Escapes fun entry => NoTarget entry.operands where
  merge _ _ hgroup houter hentry := fun _ => noTarget_merge (houter hgroup) hentry
  sse2Twin row h := fun hgroup =>
    (h ((sse2Twin_sameFields row).2 ▸ hgroup)).same (sse2Twin_sameFields row).1
  withoutNds _ h := h
  gatherResized opcode simd row h := fun hgroup =>
    (h ((gatherResized_sameFields opcode simd row).2 ▸ hgroup)).same
      (gatherResized_sameFields opcode simd row).1

theorem rowOf_escapes (is64Bit : Bool) (opcode modRM : UInt8) (simd : Simd) :
    Ensures (rowOf is64Bit opcode modRM simd) Escapes := by
  refine escapes_kept.rowOf (fun _ _ => ?_) (fun _ _ => ?_) (fun _ _ _ => ?_) (fun _ => ?_) is64Bit
  · refine ⟨fun _ => ⟨?_, ?_⟩, fun row hrow => ?_, fun i _ => ?_, ?_⟩
    · exact table_escapes (by simp [RowTexts.tableRows])
    · exact table_escapes (by simp [RowTexts.tableRows])
    · apply escapes_of_mem
      simp only [List.mem_cons, Prod.mk.injEq, List.not_mem_nil, or_false] at hrow
      rcases hrow with ⟨-, rfl⟩ | ⟨-, rfl⟩ | ⟨-, rfl⟩ <;> simp [formRows]
    · exact table_escapes (by simp [RowTexts.tableRows]) i
    · intro group rows hrows _ _ _ slot _
      apply grpTable_noTarget rows
      simp only [groupRows, List.mem_cons, Prod.mk.injEq, List.not_mem_nil, or_false] at hrows ⊢
      tauto
  · refine ⟨fun row hrow => ?_, fun i _ => ?_, fun i _ _ => ?_, fun _ _ _ _ h => h, ?_⟩
    · apply escapes_of_mem
      simp only [List.mem_cons, Prod.mk.injEq, List.not_mem_nil, or_false] at hrow
      rcases hrow with ⟨-, rfl⟩ | ⟨-, rfl⟩ | ⟨-, rfl⟩ | ⟨-, rfl⟩ <;> simp [formRows]
    · have h := @table_escapes 256 TwoByte.rows (by simp [RowTexts.tableRows]) i
      rw [twoByteTable, nameUnnamed]
      split
      · exact h
      · exact h
    · exact table_escapes (by simp [RowTexts.tableRows]) i
    · exact twoByteGroupTable_noTarget
  · refine ⟨fun row hrow => escapes_of_mem ?_, fun hasImm8 => ?_, ?_⟩
    · simp only [List.mem_cons, List.not_mem_nil, or_false] at hrow
      rcases hrow with rfl | rfl <;> simp [formRows]
    · exact escapes_of_mem (threeByteRow_mem hasImm8)
    · exact table_escapes (by simp [RowTexts.tableRows])
  · refine ⟨fun hasImm8 => ?_, fun i _ _ => ?_, fun _ _ _ _ h => h, twoByteGroupTable_noTarget⟩
    · exact escapes_of_mem (threeByteRow_mem hasImm8)
    · exact table_escapes (by simp [RowTexts.tableRows]) i

end Groups

/-- The targets of a row that escapes to a group and of one that does not. -/
theorem targetAlone_of_escapes {row : OpcodeInfo} (h : ImmediateRow row) (hescapes : Escapes row) :
    TargetAlone row.operands := by
  rcases lt_or_ge 0 row.groupNumber with hgroup | hungrouped
  · have hmode : ∀ operand ∈ row.operands.toList,
        operand.addressingMode ≠ .J ∧ operand.addressingMode ≠ .A := by
      simpa [NoTarget, isTarget] using hescapes hgroup
    refine ⟨?_, ?_, ?_⟩
    · rintro ⟨operand, hoperand, hrelative⟩
      exact absurd hrelative (hmode operand hoperand).1
    · exact fun operand hoperand hrelative => absurd hrelative (hmode operand hoperand).1
    · exact fun operand hoperand hfar => absurd hfar (hmode operand hoperand).2
  · exact h.target hungrouped

/-- In every row that is found a relative target is the only immediate. -/
theorem targetAlone_of_rowOf {is64Bit : Bool} {opcode modRM : UInt8} {simd : Simd}
    {row : OpcodeInfo} (h : rowOf is64Bit opcode modRM simd = .ok row) :
    TargetAlone row.operands :=
  targetAlone_of_escapes ((immediateRow_rowKind.rowOf is64Bit opcode modRM simd).of_ok row h)
    ((rowOf_escapes is64Bit opcode modRM simd).of_ok row h)

end Voidwalk.ImmediateRows

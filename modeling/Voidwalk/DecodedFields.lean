import Voidwalk.MemoryOperand
import Voidwalk.RowKinds

/-!
What the fields of a decoded instruction are made of: the bits that the opcode leaves behind,
the ModRM and SIB bytes, the row that is found and the widths it has.
-/

namespace Voidwalk.DecodedFields

open Voidwalk.MappedFile
open Voidwalk.OpcodeRows
open Voidwalk.OneByteTables
open Voidwalk.TwoByteTables
open Voidwalk.ThreeByteTables
open Voidwalk.RowResolution
open Voidwalk.InstructionRendering
open Voidwalk.InstructionDecoding
open Voidwalk.DecodeLineContract
open Voidwalk.PrefixedOpcodes
open Voidwalk.EffectiveAddress
open Voidwalk.OpcodeBytes
open Voidwalk.MemoryRows
open Voidwalk.RowKinds
open Voidwalk.MemoryOperand
open Voidwalk.Library.Bytes
open Voidwalk.Library.CountingReader

/-- How many registers of a class there are. -/
def registerCount (is64Bit : Bool) : Nat := if is64Bit then 16 else 8

section Opcode

variable {source : ByteSource} {consumed : Consumed UInt8 15} {is64Bit : Bool}
  {prefixes : List UInt8} {locals : DecodeLocals}

/-- Behind the opcode no ModRM byte has been read, legacy mode extends and widens no register
but by VEX.W, and long mode has folded VEX.W into the REX byte. -/
structure Extended (is64Bit : Bool) (locals : DecodeLocals) : Prop where
  fields_eq : locals.fields =
    { is64Bit := is64Bit
      isInvalid := locals.fields.isInvalid
      hasLock := locals.fields.hasLock
      repPrefix := locals.fields.repPrefix
      segmentPrefix := locals.fields.segmentPrefix
      rexPrefix := locals.fields.rexPrefix
      opcode := locals.fields.opcode }
  legacy : is64Bit = false → locals.fields.rexPrefix = 0
  wide : is64Bit = true → locals.simd.W ≠ 0 → rexW locals.fields = true
  vvvv_lt : locals.simd.vvvv.toNat < registerCount is64Bit

theorem extended_of_prefixed (h : Prefixed is64Bit prefixes locals) {decoded : DecodeLocals}
    (hfields : decoded.fields = { locals.fields with
      opcode := decoded.fields.opcode, isInvalid := decoded.fields.isInvalid })
    (hsimd : decoded.simd.W = 0 ∧ decoded.simd.vvvv = 0) : Extended is64Bit decoded where
  fields_eq := by
    rw [hfields, h.fields]
  legacy := by
    rintro rfl
    rw [hfields, ← rexOf_false prefixes]
    exact congrArg Fields.rexPrefix h.fields
  wide _ hW := absurd hsimd.1 hW
  vvvv_lt := by
    rw [hsimd.2]
    cases is64Bit <;> decide

theorem rexW_vexPrefix (locals : DecodeLocals) (currentByte vex1 vex2 : UInt8) :
    (vexPrefix true locals currentByte vex1 vex2).simd.W ≠ 0 →
      rexW (vexPrefix true locals currentByte vex1 vex2).fields = true := by
  have h : ∀ (byte : UInt8) (threeByteVex : Bool),
      (((0x40 : UInt8) ||| (1 : UInt8) <<< (3 : UInt8) |||
        ((~~~byte >>> 5) &&& (if threeByteVex then 7 else 4))) &&& 8 != 0) = true := by
    apply forall_byte
    decide +kernel
  simp only [vexPrefix, rexW]
  split
  · exact fun _ => h vex1 (currentByte == 0xC4)
  · exact fun hW => absurd rfl hW

theorem vvvv_vexPrefix (is64Bit : Bool) (locals : DecodeLocals) (currentByte vex1 vex2 : UInt8) :
    (vexPrefix is64Bit locals currentByte vex1 vex2).simd.vvvv.toNat <
      registerCount is64Bit := by
  have h : ∀ byte : UInt8, ((~~~byte >>> 3) &&& (15 : UInt8)).toNat < 16 ∧
      ((~~~byte >>> 3) &&& (7 : UInt8)).toNat < 8 := by
    apply forall_byte
    decide +kernel
  cases is64Bit with
  | true => exact (h vex2).1
  | false => exact (h vex2).2

theorem decodeVex_extended (h : Prefixed is64Bit prefixes locals) (currentByte : UInt8) :
    Yields source consumed (decodeVex is64Bit source locals currentByte) fun decoded _ =>
      Extended is64Bit decoded := by
  have hextended (vex1 vex2 : UInt8) {decoded : DecodeLocals}
      (hfields : decoded.fields = { (vexPrefix is64Bit locals currentByte vex1 vex2).fields with
        opcode := decoded.fields.opcode, isInvalid := decoded.fields.isInvalid })
      (hsimd : decoded.simd = (vexPrefix is64Bit locals currentByte vex1 vex2).simd) :
      Extended is64Bit decoded := by
    refine ⟨?_, ?_, ?_, ?_⟩
    · rw [hfields, vexPrefix, h.fields]
    · rintro rfl
      rw [hfields, ← rexOf_false prefixes]
      exact congrArg Fields.rexPrefix h.fields
    · rintro rfl
      rw [hsimd, rexW, hfields]
      exact rexW_vexPrefix locals currentByte vex1 vex2
    · rw [hsimd]
      exact vvvv_vexPrefix is64Bit locals currentByte vex1 vex2
  rw [decodeVex]
  refine Yields.bind (P := fun _ _ => True) (Yields.next.mono fun _ _ _ _ => trivial)
    fun vex1 later _ _ => ?_
  refine Yields.bind (P := fun _ _ => True) ?_ fun vex2 later _ _ => ?_
  · split
    · exact Yields.next.mono fun _ _ _ _ => trivial
    · exact Yields.pure trivial
  · dsimp only
    split
    · exact Yields.pure (hextended vex1 vex2 rfl rfl)
    · refine Yields.bind Yields.next fun opcode later _ _ => Yields.pure ?_
      exact hextended vex1 vex2 rfl rfl

theorem decodeOneByte_extended (h : Prefixed is64Bit prefixes locals) (currentByte : UInt8) :
    Yields source consumed (decodeOneByte is64Bit locals currentByte) fun decoded _ =>
      Extended is64Bit decoded := by
  have hsimd : locals.simd.W = 0 ∧ locals.simd.vvvv = 0 := by
    rw [h.simd]
    exact ⟨rfl, rfl⟩
  rw [decodeOneByte]
  split
  · obtain ⟨row, hrow⟩ := opcodeTable.at_eq_ok (i := currentByte.toNat) (Int.natCast_nonneg _)
      (by exact_mod_cast currentByte.toNat_lt)
    refine Yields.bind (P := fun _ _ => True) (Yields.attempt hrow trivial) fun row later _ _ => ?_
    split
    · exact Yields.pure (extended_of_prefixed h rfl hsimd)
    · exact Yields.pure (extended_of_prefixed h rfl hsimd)
  · exact Yields.pure (extended_of_prefixed h rfl hsimd)

theorem decodeOpcode_extended {prefixed : DecodeLocals × UInt8}
    (h : Prefixed is64Bit prefixes prefixed.1) :
    Yields source consumed (decodeOpcode is64Bit source prefixed) fun decoded _ =>
      Extended is64Bit decoded := by
  have hsimd : prefixed.1.simd.W = 0 ∧ prefixed.1.simd.vvvv = 0 := by
    rw [h.simd]
    exact ⟨rfl, rfl⟩
  rw [decodeOpcode]
  split
  · rw [decodeEscape]
    refine Yields.bind escapedOpcode_yields fun selected later _ _ => Yields.pure ?_
    exact extended_of_prefixed h rfl hsimd
  split
  · refine Yields.bind (opensVex_yields is64Bit) fun isVex later _ _ => ?_
    split
    · exact decodeVex_extended h _
    · exact decodeOneByte_extended h _
  · exact decodeOneByte_extended h _

end Opcode

section Operands

variable {source : ByteSource} {consumed : Consumed UInt8 15} {is64Bit : Bool}
  {locals : DecodeLocals}

/-- The locals behind the ModRM byte, if there is one. -/
def addressed (locals : DecodeLocals) : Option UInt8 → DecodeLocals
  | none => locals
  | some modRM => { locals with fields := withModRM locals.fields modRM }

/-- The fields behind the memory operand, where only SIB and displacement have been added. -/
structure MemoryAdded (fields later : Fields) : Prop where
  fields_eq : later = { fields with
    hasSIB := later.hasSIB, scale := later.scale, index := later.index, base := later.base,
    hasDisplacement := later.hasDisplacement, displacement := later.displacement }
  sib : later.hasSIB = true → fields.hasSIB = false →
    ∃ sib, later.index = (withSIB fields sib).index ∧ later.base = (withSIB fields sib).base

/-- The fields in front of the immediates: those of the row that is found and of the memory
operand. -/
structure Found (is64Bit : Bool) (locals : DecodeLocals) (modRM : Option UInt8) (row : OpcodeInfo)
    (named : DecodeLocals) : Prop where
  rowOf_eq : rowOf is64Bit locals.fields.opcode (modRM.getD 0) locals.simd = .ok row
  simd : named.simd = (resolved is64Bit (addressed locals modRM) row).simd
  memory : MemoryAdded (resolved is64Bit (addressed locals modRM) row).fields
    { named.fields with info := row }
  info : named.fields.info = row ∨
    (locals.simd.vex = 0 ∧ locals.simd.map = 1 ∧ locals.fields.opcode = 0x0F ∧
      ∃ i, named.fields.info = threeDNowTable i)

theorem decodeModRM_addressed (locals : DecodeLocals) :
    Yields source consumed (decodeModRM source locals) fun decoded _ =>
      ∃ modRM, decoded = (addressed locals modRM, modRM.getD 0) := by
  obtain ⟨modRMFollows, hfollows⟩ := hasModRM_ok locals.fields.opcode locals.simd
  rw [decodeModRM]
  refine Yields.bind (P := fun _ _ => True) (Yields.attempt hfollows trivial) fun _ _ _ _ => ?_
  split
  · exact Yields.bind Yields.next fun modRM _ _ _ => Yields.pure ⟨some modRM, rfl⟩
  · exact Yields.pure ⟨none, rfl⟩

theorem decodeMemory_added (fields : Fields) (modRM : UInt8) :
    Yields source consumed (decodeMemory source fields modRM) fun later _ =>
      MemoryAdded fields later := by
  rw [decodeMemory]
  split
  · refine Yields.bind (P := fun later _ => MemoryAdded fields later) ?_ fun later _ _ hlater => ?_
    · rw [decodeSIB]
      split
      · refine Yields.bind Yields.next fun sib _ _ _ => Yields.pure ⟨rfl, fun _ _ => ?_⟩
        exact ⟨sib, rfl, rfl⟩
      · refine Yields.pure ⟨rfl, fun htaken hnone => ?_⟩
        exact absurd (hnone.symm.trans htaken) (by decide)
    · rw [decodeDisplacement]
      split
      · refine Yields.bind (readLittleEndian_yields _) fun value _ _ _ => ?_
        refine Yields.pure ⟨?_, hlater.sib⟩
        rw [hlater.fields_eq]
      · exact Yields.pure hlater
  · refine Yields.pure ⟨rfl, fun htaken hnone => ?_⟩
    exact absurd (hnone.symm.trans htaken) (by decide)

theorem decode3DNow_found {modRM : Option UInt8} {row : OpcodeInfo} {named : DecodeLocals}
    (h : Found is64Bit locals modRM row named)
    (hsimd : named.simd.vex = locals.simd.vex ∧ named.simd.map = locals.simd.map)
    (hopcode : named.fields.opcode = locals.fields.opcode) :
    Yields source consumed (decode3DNow source named) fun later _ =>
      Found is64Bit locals modRM row later := by
  rw [decode3DNow]
  split
  · rename_i h3DNow
    refine Yields.bind Yields.next fun code later _ _ => ?_
    obtain ⟨slot, hslot⟩ := threeDNowTable.at_eq_ok (i := code.toNat) (Int.natCast_nonneg _)
      (by exact_mod_cast code.toNat_lt)
    refine Yields.bind (P := fun info _ => info = threeDNowTable slot) (Yields.attempt hslot rfl) ?_
    rintro info later - rfl
    refine Yields.pure ⟨h.rowOf_eq, h.simd, h.memory, Or.inr ?_⟩
    rw [hsimd.1, hsimd.2, hopcode] at h3DNow
    exact ⟨h3DNow.1, h3DNow.2.1, h3DNow.2.2, slot, rfl⟩
  · exact Yields.pure h

theorem simd_resolved (is64Bit : Bool) (locals : DecodeLocals) (row : OpcodeInfo) :
    (resolved is64Bit locals row).simd =
      { locals.simd with
        mandatory := (resolved is64Bit locals row).simd.mandatory
        pp := (resolved is64Bit locals row).simd.pp } := by
  simp only [resolved, withWidths, takeMandatoryPrefix]
  split_ifs <;> rfl

theorem simd_addressed (locals : DecodeLocals) (modRM : Option UInt8) :
    (addressed locals modRM).simd = locals.simd ∧
      (addressed locals modRM).fields.opcode = locals.fields.opcode := by
  cases modRM with
  | none => exact ⟨rfl, rfl⟩
  | some modRM => exact ⟨rfl, rfl⟩

/-- What the operands add to the locals behind the opcode. `I` is what the immediates add. -/
theorem decodeOperands_found {vaddr : UInt64} {I : Fields → Consumed UInt8 15 → Fields →
    Consumed UInt8 15 → Prop} (hknown : KnownMap locals.simd)
    (himmediates : ∀ (fields : Fields) (before : Consumed UInt8 15),
      Yields source before (decodeImmediates is64Bit vaddr source fields) fun filled later =>
        I fields before filled later) :
    Yields source consumed (decodeOperands is64Bit vaddr source locals) fun decoded final =>
      ∃ modRM row named before, Found is64Bit locals modRM row named ∧
        decoded.simd = named.simd ∧
        decoded.fields = { named.fields with immediates := decoded.fields.immediates } ∧
        I named.fields before decoded.fields final := by
  rw [decodeOperands]
  refine Yields.bind (decodeModRM_addressed locals) fun pair later _ hpair => ?_
  obtain ⟨modRM, rfl⟩ := hpair
  obtain ⟨hsimd, hopcode⟩ := simd_addressed locals modRM
  refine Yields.bind (resolveRow_resolved (modRM.getD 0) (hsimd ▸ hknown))
    fun found later _ hfound => ?_
  obtain ⟨-, row, hrow, rfl⟩ := hfound
  rw [hsimd, hopcode] at hrow
  refine Yields.bind (decodeMemory_added _ _) fun fields later _ hfields => ?_
  have hinfo : fields.info = row := by
    rw [hfields.fields_eq, fields_resolved]
  have hsame : fields.opcode = locals.fields.opcode := by
    rw [hfields.fields_eq, fields_resolved]
    exact hopcode
  have hfirst : Found is64Bit locals modRM row
      { resolved is64Bit (addressed locals modRM) row with fields := fields } := by
    subst hinfo
    exact ⟨hrow, rfl, hfields, Or.inl rfl⟩
  refine Yields.bind (decode3DNow_found hfirst ?_ hsame) fun named before _ hnamed => ?_
  · rw [simd_resolved, hsimd]
    exact ⟨rfl, rfl⟩
  refine Yields.bind ((himmediates named.fields before).and
    (decodeImmediates_yields is64Bit vaddr named.fields)) fun filled final _ hfilled => ?_
  exact Yields.pure ⟨modRM, row, named, before, hnamed, rfl, hfilled.2, hfilled.1⟩

end Operands

section Numbers

variable {is64Bit : Bool} {fields : Fields}

theorem rexBit_cases {bit shift : UInt8} (hbit : (bit, shift) ∈ [(4, 1), (2, 2), (1, 3)]) :
    rexBit fields bit shift = 0 ∨ (fields.rexPrefix ≠ 0 ∧ rexBit fields bit shift = 8) := by
  have hreg : ∀ rex : UInt8,
      (rex &&& 4) <<< (1 : UInt8) = 0 ∨ (rex ≠ 0 ∧ (rex &&& 4) <<< (1 : UInt8) = 8) := by
    apply forall_byte
    decide +kernel
  have hindex : ∀ rex : UInt8,
      (rex &&& 2) <<< (2 : UInt8) = 0 ∨ (rex ≠ 0 ∧ (rex &&& 2) <<< (2 : UInt8) = 8) := by
    apply forall_byte
    decide +kernel
  have hrm : ∀ rex : UInt8,
      (rex &&& 1) <<< (3 : UInt8) = 0 ∨ (rex ≠ 0 ∧ (rex &&& 1) <<< (3 : UInt8) = 8) := by
    apply forall_byte
    decide +kernel
  simp only [List.mem_cons, List.not_mem_nil, or_false, Prod.mk.injEq] at hbit
  rcases hbit with ⟨rfl, rfl⟩ | ⟨rfl, rfl⟩ | ⟨rfl, rfl⟩
  · exact hreg fields.rexPrefix
  · exact hindex fields.rexPrefix
  · exact hrm fields.rexPrefix

/-- Three bits and the bit of the REX byte number a register. -/
theorem register_lt (hlegacy : is64Bit = false → fields.rexPrefix = 0) {bit shift : UInt8}
    (hbit : (bit, shift) ∈ [(4, 1), (2, 2), (1, 3)]) (byte : UInt8) :
    ((byte &&& 7) ||| rexBit fields bit shift).toNat < registerCount is64Bit := by
  have h : ∀ byte : UInt8, ((byte &&& 7) ||| (0 : UInt8)).toNat < 8 ∧
      ((byte &&& 7) ||| (8 : UInt8)).toNat < 16 := by
    apply forall_byte
    decide +kernel
  rcases rexBit_cases hbit with hnone | ⟨hrex, hextended⟩
  · rw [hnone]
    refine (h byte).1.trans_le ?_
    cases is64Bit <;> decide
  · rw [hextended]
    cases is64Bit with
    | true => exact (h byte).2
    | false => exact absurd (hlegacy rfl) hrex

end Numbers

section Widths

variable {is64Bit : Bool} {locals named : DecodeLocals} {modRM : Option UInt8} {row : OpcodeInfo}

theorem rexW_takeMandatoryPrefix (locals : DecodeLocals) :
    rexW (takeMandatoryPrefix locals).fields = rexW locals.fields := by
  simp only [takeMandatoryPrefix]
  split_ifs <;> rfl

theorem opSize_withWidths (is64Bit : Bool) (locals : DecodeLocals) :
    ((withWidths is64Bit locals).fields.opSize = 16 ∨
      (withWidths is64Bit locals).fields.opSize = 32 ∨
      (withWidths is64Bit locals).fields.opSize = 64) ∧
    (rexW locals.fields = true → (withWidths is64Bit locals).fields.opSize = 64) ∧
    (is64Bit = false → rexW locals.fields = false →
      (withWidths is64Bit locals).fields.opSize ≠ 64) := by
  simp only [withWidths]
  refine ⟨?_, ?_, ?_⟩
  · split_ifs <;> simp
  · intro hwide
    rw [hwide, Bool.true_or, if_pos rfl]
  · rintro rfl hnarrow
    rw [hnarrow]
    cases locals.hasOpSizePrefix with
    | false => exact (by decide : (32 : Nat) ≠ 64)
    | true => exact (by decide : (16 : Nat) ≠ 64)

theorem opSize_resolved (is64Bit : Bool) (locals : DecodeLocals) (row : OpcodeInfo) :
    ((resolved is64Bit locals row).fields.opSize = 16 ∨
      (resolved is64Bit locals row).fields.opSize = 32 ∨
      (resolved is64Bit locals row).fields.opSize = 64) ∧
    (rexW locals.fields = true → (resolved is64Bit locals row).fields.opSize = 64) ∧
    (is64Bit = false → rexW locals.fields = false →
      (resolved is64Bit locals row).fields.opSize ≠ 64) := by
  have h := opSize_withWidths is64Bit
    (takeMandatoryPrefix { locals with fields := { locals.fields with info := row } })
  rw [rexW_takeMandatoryPrefix] at h
  exact h

theorem rexPrefix_addressed (locals : DecodeLocals) (modRM : Option UInt8) :
    (addressed locals modRM).fields.rexPrefix = locals.fields.rexPrefix := by
  cases modRM with
  | none => rfl
  | some modRM => rfl

namespace Found

variable (h : Found is64Bit locals modRM row named)

include h

/-- The fields that the renderer reads besides the memory operand. -/
theorem fields_eq :
    named.fields.opcode = locals.fields.opcode ∧
      named.fields.rexPrefix = locals.fields.rexPrefix ∧
      named.fields.is64Bit = locals.fields.is64Bit ∧
      named.fields.isInvalid = locals.fields.isInvalid ∧
      named.fields.hasModRM = (addressed locals modRM).fields.hasModRM ∧
      named.fields.mod = (addressed locals modRM).fields.mod ∧
      named.fields.reg = (addressed locals modRM).fields.reg ∧
      named.fields.rm = (addressed locals modRM).fields.rm ∧
      named.fields.opSize = (resolved is64Bit (addressed locals modRM) row).fields.opSize ∧
      named.fields.addrSize = (resolved is64Bit (addressed locals modRM) row).fields.addrSize := by
  have hmode : (addressed locals modRM).fields.is64Bit = locals.fields.is64Bit ∧
      (addressed locals modRM).fields.isInvalid = locals.fields.isInvalid := by
    cases modRM with
    | none => exact ⟨rfl, rfl⟩
    | some modRM => exact ⟨rfl, rfl⟩
  have hmemory := h.memory.fields_eq
  have hfields := fields_resolved is64Bit (addressed locals modRM) row
  rw [← (simd_addressed locals modRM).2, ← rexPrefix_addressed locals modRM, ← hmode.1, ← hmode.2]
  generalize (resolved is64Bit (addressed locals modRM) row).fields = fields at hmemory hfields ⊢
  rw [hfields] at hmemory
  exact ⟨(congrArg Fields.opcode hmemory :), (congrArg Fields.rexPrefix hmemory :),
    (congrArg Fields.is64Bit hmemory :), (congrArg Fields.isInvalid hmemory :),
    (congrArg Fields.hasModRM hmemory :), (congrArg Fields.mod hmemory :),
    (congrArg Fields.reg hmemory :), (congrArg Fields.rm hmemory :),
    (congrArg Fields.opSize hmemory :), (congrArg Fields.addrSize hmemory :)⟩

theorem simd_eq : named.simd.W = locals.simd.W ∧ named.simd.vvvv = locals.simd.vvvv ∧
    named.simd.map = locals.simd.map ∧ named.simd.vex = locals.simd.vex := by
  have hsimd := (simd_addressed locals modRM).1
  rw [h.simd, simd_resolved, hsimd]
  exact ⟨rfl, rfl, rfl, rfl⟩

theorem rowKind {Q : OpcodeInfo → Prop} (hkind : RowKind Q) : Q named.fields.info := by
  rcases h.info with hrow | ⟨-, -, -, slot, hslot⟩
  · rw [hrow]
    exact (hkind.rowOf is64Bit locals.fields.opcode (modRM.getD 0) locals.simd).of_ok row h.rowOf_eq
  · rw [hslot]
    exact hkind.threeDNowTable slot

theorem opSize_cases (hextended : Extended is64Bit locals) :
    (named.fields.opSize = 16 ∨ named.fields.opSize = 32 ∨ named.fields.opSize = 64) ∧
      (is64Bit = true → locals.simd.W ≠ 0 → named.fields.opSize = 64) ∧
      (is64Bit = false → named.fields.opSize ≠ 64) := by
  obtain ⟨-, -, -, -, -, -, -, -, hopSize, -⟩ := h.fields_eq
  obtain ⟨hcases, hwide, hlegacy⟩ := opSize_resolved is64Bit (addressed locals modRM) row
  have hrexW : rexW (addressed locals modRM).fields = rexW locals.fields := by
    rw [rexW, rexW, rexPrefix_addressed]
  rw [hopSize]
  rw [hrexW] at hwide hlegacy
  refine ⟨hcases, fun hmode hW => hwide (hextended.wide hmode hW), fun hmode => ?_⟩
  apply hlegacy hmode
  rw [rexW, hextended.legacy hmode]
  rfl

/-- The registers of ModRM are among those of the mode. -/
theorem modRM_lt (hextended : Extended is64Bit locals) :
    named.fields.reg.toNat < registerCount is64Bit ∧
      named.fields.rm.toNat < registerCount is64Bit := by
  obtain ⟨-, -, -, -, -, -, hreg, hrm, -⟩ := h.fields_eq
  rw [hreg, hrm]
  cases modRM with
  | none =>
      have hnone : locals.fields.reg = 0 ∧ locals.fields.rm = 0 := by
        rw [hextended.fields_eq]
        exact ⟨rfl, rfl⟩
      rw [addressed, hnone.1, hnone.2]
      cases is64Bit <;> decide
  | some modRM =>
      constructor
      · exact register_lt hextended.legacy (by simp) (modRM >>> 3)
      · exact register_lt hextended.legacy (by simp) modRM

end Found

end Widths

section Instructions

variable {source : ByteSource} {is64Bit : Bool} {vaddr : UInt64}
  {O : DecodeLocals → Consumed UInt8 15 → Prop}
  {I : Fields → Consumed UInt8 15 → Fields → Consumed UInt8 15 → Prop}

/-- An instruction that is not rejected: the locals behind its opcode, and what its operands add
to them. -/
structure Decoded (is64Bit : Bool) (opened named decoded : DecodeLocals) : Prop where
  extended : Extended is64Bit opened
  knownMap : KnownMap opened.simd
  isInvalid : opened.fields.isInvalid = false
  found : ∃ modRM row, Found is64Bit opened modRM row named
  simd : decoded.simd = named.simd
  fields : decoded.fields = { named.fields with immediates := decoded.fields.immediates }

theorem Decoded.rowKind {opened named decoded : DecodeLocals}
    (h : Decoded is64Bit opened named decoded) {Q : OpcodeInfo → Prop} (hkind : RowKind Q) :
    Q decoded.fields.info := by
  obtain ⟨modRM, row, hfound⟩ := h.found
  have hinfo : decoded.fields.info = named.fields.info := (congrArg Fields.info h.fields :)
  rw [hinfo]
  exact hfound.rowKind hkind

theorem decodeInstruction_decoded
    (hopcode : ∀ prefixes (prefixed : DecodeLocals × UInt8) (consumed : Consumed UInt8 15),
      consumed.symbols = prefixes ++ [prefixed.2] → Prefixed is64Bit prefixes prefixed.1 →
        (∀ byte ∈ prefixes, isPrefixByte is64Bit byte = true) →
        isPrefixByte is64Bit prefixed.2 = false →
        Yields source consumed (decodeOpcode is64Bit source prefixed) fun opened later =>
          opened.fields.isInvalid = true ∨ O opened later)
    (himmediates : ∀ (fields : Fields) (before : Consumed UInt8 15),
      Yields source before (decodeImmediates is64Bit vaddr source fields) fun filled later =>
        I fields before filled later) :
    Yields source .empty (decodeInstruction is64Bit vaddr source) fun decoded final =>
      (decoded.fields.isInvalid = true ∧ Extended is64Bit decoded) ∨
        ∃ opened middle named before, O opened middle ∧
          (∃ rest, middle.symbols ++ rest = final.symbols) ∧
          Decoded is64Bit opened named decoded ∧ I named.fields before decoded.fields final := by
  rw [decodeInstruction]
  refine Yields.bind decodePrefixes_prefixed fun prefixed later _ hprefixed => ?_
  obtain ⟨prefixes, hlater, hlocals, hprefixes, hfirst⟩ := hprefixed
  refine Yields.bind (((hopcode prefixes prefixed later hlater hlocals hprefixes hfirst).and
    (decodeOpcode_yields is64Bit hlocals.simd)).and (decodeOpcode_extended hlocals))
    fun opened middle _ hopened => ?_
  obtain ⟨⟨hopened, hknown⟩, hextended⟩ := hopened
  split
  · rename_i hinvalid
    exact Yields.pure (Or.inl ⟨hinvalid, hextended⟩)
  · rename_i hvalid
    have hopened' := hopened.resolve_left hvalid
    have hknown' := hknown.resolve_left hvalid
    refine (decodeOperands_found hknown' himmediates).mono fun decoded final hgrown hdecoded => ?_
    obtain ⟨modRM, row, named, before, hfound, hsimd, hfields, hfilled⟩ := hdecoded
    refine Or.inr ⟨opened, middle, named, before, hopened', hgrown, ?_, hfilled⟩
    exact ⟨hextended, hknown', by simpa using hvalid, ⟨modRM, row, hfound⟩, hsimd, hfields⟩

end Instructions

section Lines

variable {is64Bit : Bool} {contents : AddressSpace} {fileOffset vaddr : UInt64}

/-- The bytes at `fileOffset` decode, and to locals with a property. -/
def Decodes (is64Bit : Bool) (contents : AddressSpace) (fileOffset vaddr : UInt64)
    (P : DecodeLocals → Prop) : Prop :=
  ∃ locals later,
    decodeInstruction is64Bit vaddr (bytesAt contents fileOffset) .empty = .ok locals later ∧
      P locals

instance (P : DecodeLocals → Prop) [DecidablePred P] :
    Decidable (Decodes is64Bit contents fileOffset vaddr P) :=
  match hrun : decodeInstruction is64Bit vaddr (bytesAt contents fileOffset) .empty with
  | .ok locals later =>
      decidable_of_iff (P locals)
        ⟨fun h => ⟨locals, later, hrun, h⟩, fun ⟨_, _, hok, h⟩ => by
          rw [hrun] at hok
          rwa [(EStateM.Result.ok.inj hok).1]⟩
  | .error _ _ => isFalse fun ⟨_, _, hok, _⟩ => nomatch hrun.symm.trans hok

end Lines

end Voidwalk.DecodedFields

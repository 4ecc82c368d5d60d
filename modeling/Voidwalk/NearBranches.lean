import Voidwalk.PrefixedOpcodes

/-!
The near relative branches `CALL E8`, `JMP E9` and `Jcc 0F 80` to `0F 8F` behind any
prefixes: the length of the row and its target.
-/

namespace Voidwalk.NearBranches

open Voidwalk.MappedFile
open Voidwalk.MappedFile.AddressSpace
open Voidwalk.OpcodeRows
open Voidwalk.OneByteTables
open Voidwalk.TwoByteTables
open Voidwalk.RowResolution
open Voidwalk.InstructionRendering
open Voidwalk.InstructionDecoding
open Voidwalk.DecodeLineContract
open Voidwalk.SelfDelimiting
open Voidwalk.FileFields
open Voidwalk.EncodedValues
open Voidwalk.PrefixedOpcodes
open Voidwalk.Library.CountingReader

inductive NearBranch where
  | call
  | jmp
  | jcc (condition : Fin 16)

namespace NearBranch

def opcode : NearBranch → List UInt8
  | .call => [0xE8]
  | .jmp => [0xE9]
  | .jcc condition => [0x0F, UInt8.ofNat (0x80 + condition)]

def flow : NearBranch → Flow
  | .call => .Call
  | .jmp => .Jump
  | .jcc _ => .CondJump

end NearBranch

section Architecture

variable {is64Bit : Bool}

/-- The bytes of the displacement. Long mode forces near branches to 64 bits, so that
neither 66 nor REX.W counts there. -/
def displacementWidth (prefixes : PrefixString is64Bit) : Nat :=
  if is64Bit then 4 else if prefixes.hasOpSize then 2 else 4

/-- The width of the instruction pointer that a branch leaves. -/
def pointerWidth (prefixes : PrefixString is64Bit) : Nat :=
  if is64Bit then 64 else if prefixes.hasOpSize then 16 else 32

def branchTarget (prefixes : PrefixString is64Bit) (vaddr : UInt64) (length : Nat)
    (displacement : List UInt8) : Int :=
  (vaddr.toNat + length + signedValue displacement) % 2 ^ pointerWidth prefixes

/-- The bytes of the instruction up to its displacement. -/
def front (prefixes : PrefixString is64Bit) (branch : NearBranch) : List UInt8 :=
  prefixes.bytes ++ branch.opcode

/-- `decodeLine` appends the branch, with the length and the target of the architecture. -/
def DecodedRight (contents : AddressSpace) (fileOffset vaddr : UInt64) (store : InstructionStore)
    (prefixes : PrefixString is64Bit) (branch : NearBranch) (displacement : List UInt8) : Prop :=
  let length := (front prefixes branch ++ displacement).length
  ∃ nextOffset row,
    Appends store (decodeLine is64Bit contents fileOffset vaddr store) nextOffset row ∧
      nextOffset.toNat = fileOffset.toNat + length ∧ row.flow = branch.flow ∧
      (row.target.toNat : Int) = branchTarget prefixes vaddr length displacement

/-- The prefixes change the width of the displacement that is read in long mode: REX.W in
front of E8 and E9, whose rows are of size `v`, and 66 in front of 0F 80 to 0F 8F, whose
rows are not marked `f64`. -/
def Resized (prefixes : PrefixString is64Bit) : NearBranch → Prop
  | .call | .jmp => is64Bit = true ∧ prefixes.hasRexW = true
  | .jcc _ => is64Bit = true ∧ prefixes.hasOpSize = true ∧ prefixes.hasRexW = false

end Architecture

section Targets

/-- The target that `decodeImmediate` makes of a displacement; `length` counts to its end. -/
def relativeTarget (is64Bit : Bool) (vaddr : UInt64) (opSize length : Nat)
    (displacement : List UInt8) : UInt64 :=
  let target := vaddr + UInt64.ofNat length +
    (signExtend (UInt64.ofNat (littleEndian displacement)) displacement.length).toUInt64
  if is64Bit then target else target &&& mask (if opSize = 16 then 16 else 32)

theorem decodeImmediate_relative {source : ByteSource} {consumed : Consumed UInt8 15}
    (is64Bit : Bool) (vaddr : UInt64) {fields : Fields} {size : Size} {displacement : List UInt8}
    (hsize : immediateSize fields (op .J size) = displacement.length)
    (hwidth : displacement.length ≤ 8) :
    Reads source consumed (decodeImmediate is64Bit source vaddr fields (op .J size)) displacement
      (relativeTarget is64Bit vaddr fields.opSize (consumed.length + displacement.length)
        displacement) := by
  rw [decodeImmediate, hsize]
  refine Reads.bindPure (readLittleEndian_reads displacement hwidth) fun h => ?_
  rw [if_neg (by simp [op, OP]), if_pos (by simp [op, OP])]
  refine Reads.bindPure Reads.get fun _ => ?_
  rw [Consumed.length_append]
  exact Reads.pure

theorem toNat_relativeTarget (is64Bit : Bool) (vaddr : UInt64) (opSize length : Nat)
    {displacement : List UInt8} (hpos : 0 < displacement.length)
    (hwidth : displacement.length ≤ 8) :
    ((relativeTarget is64Bit vaddr opSize length displacement).toNat : Int) =
      (vaddr.toNat + length + signedValue displacement) %
        2 ^ (if is64Bit then 64 else if opSize = 16 then 16 else 32) := by
  have hsigned := toNat_toUInt64
    (signExtend (UInt64.ofNat (littleEndian displacement)) displacement.length)
  rw [toInt_signExtend hpos hwidth] at hsigned
  have hwhole : ((vaddr + UInt64.ofNat length +
      (signExtend (UInt64.ofNat (littleEndian displacement))
        displacement.length).toUInt64).toNat : Int) =
      (vaddr.toNat + length + signedValue displacement) % 2 ^ 64 := by
    rw [UInt64.toNat_add, UInt64.toNat_add, UInt64.toNat_ofNat']
    push_cast
    rw [hsigned]
    omega
  rw [relativeTarget]
  cases is64Bit with
  | true => exact hwhole
  | false =>
      have hdvd : (2 ^ (if opSize = 16 then 16 else 32) : Int) ∣ 2 ^ 64 := by
        split <;> norm_num
      simp only [Bool.false_eq_true, if_false]
      rw [toNat_and_mask _ (by split <;> simp), Int.natCast_emod, hwhole]
      push_cast
      exact Int.emod_emod_of_dvd _ hdvd

end Targets

section Rows

/-- The row of a near branch. -/
structure BranchRow (row : OpcodeInfo) (size : Size) (default64 : Default64) : Prop where
  text : row.text ≠ "" ∧ row.text ≠ "(bad)"
  operands : row.operands = slots (op .J size) nop nop
  default64 : row.default64 = default64
  mandatoryPrefix : row.mandatoryPrefix = 0

instance (row : OpcodeInfo) (size : Size) (default64 : Default64) :
    Decidable (BranchRow row size default64) :=
  decidable_of_iff ((row.text ≠ "" ∧ row.text ≠ "(bad)") ∧
    row.operands = slots (op .J size) nop nop ∧ row.default64 = default64 ∧
      row.mandatoryPrefix = 0)
    ⟨fun ⟨h₁, h₂, h₃, h₄⟩ => ⟨h₁, h₂, h₃, h₄⟩, fun ⟨h₁, h₂, h₃, h₄⟩ => ⟨h₁, h₂, h₃, h₄⟩⟩

theorem oneByteRow (opcode : UInt8) (hopcode : opcode = 0xE8 ∨ opcode = 0xE9) :
    ∃ row, opcodeTable.at opcode.toNat = .ok row ∧
      (∀ is64Bit, resolvedInfo opcode 0 is64Bit = .ok row) ∧
      row.isInvalid = false ∧ row.hasRMByte = false ∧ BranchRow row .v .f64 := by
  rcases hopcode with rfl | rfl
  · exact ⟨opcodeTable 0xE8, by decide +kernel⟩
  · exact ⟨opcodeTable 0xE9, by decide +kernel⟩

theorem conditionRow (condition : Fin 16) (pp : Fin 4) :
    twoByteResolvedInfo (UInt8.ofNat (0x80 + condition)) 0
        { map := 1, pp := UInt8.ofNat pp } =
      .ok (twoByteTable ⟨0x80 + condition, by omega⟩) ∧
    BranchRow (twoByteTable ⟨0x80 + condition, by omega⟩) .z .None ∧
    (twoByteTable ⟨0x80 + condition, by omega⟩).hasRMByte = false ∧
    ¬ (UInt8.ofNat (0x80 + condition) = 0x38 ∨ UInt8.ofNat (0x80 + condition) = 0x3A) := by
  revert condition pp
  decide +kernel

end Rows

section Run

variable {is64Bit : Bool}

/-- The locals of `decodeLine` behind the opcode. -/
def branchLocals (prefixes : PrefixString is64Bit) : NearBranch → DecodeLocals
  | .call => withOpcode prefixes.locals 0xE8
  | .jmp => withOpcode prefixes.locals 0xE9
  | .jcc condition => withEscape prefixes.locals (UInt8.ofNat (0x80 + condition))

def rowSize : NearBranch → Size
  | .call | .jmp => .v
  | .jcc _ => .z

def rowDefault64 : NearBranch → Default64
  | .call | .jmp => .f64
  | .jcc _ => .None

/-- What the decoder learns from the opcode of a near branch. -/
structure AtBranch (prefixes : PrefixString is64Bit) (branch : NearBranch) (row : OpcodeInfo) :
    Prop where
  shape : BranchRow row (rowSize branch) (rowDefault64 branch)
  reads : ∀ source : ByteSource, Reads source .empty
    (decodePrefixes is64Bit source >>= decodeOpcode is64Bit source) (front prefixes branch)
    (branchLocals prefixes branch)
  hasModRM : hasModRM (branchLocals prefixes branch).fields.opcode
    (branchLocals prefixes branch).simd = .ok false
  rowOf : rowOf is64Bit (branchLocals prefixes branch).fields.opcode 0
    (branchLocals prefixes branch).simd = .ok row

theorem atBranch_oneByte (prefixes : PrefixString is64Bit) {branch : NearBranch} {opcode : UInt8}
    (hopcode : opcode = 0xE8 ∨ opcode = 0xE9) (hbytes : branch.opcode = [opcode])
    (hlocals : branchLocals prefixes branch = withOpcode prefixes.locals opcode)
    (hsize : rowSize branch = .v) (hdefault : rowDefault64 branch = .f64) :
    ∃ row, AtBranch prefixes branch row := by
  obtain ⟨row, hat, hresolved, hvalid, hmodRM, hrow⟩ := oneByteRow opcode hopcode
  have hsimd : (withOpcode prefixes.locals opcode).simd = {} := prefixes.prefixed.simd
  refine ⟨row, ?_, ?_, ?_, ?_⟩
  · rw [hsize, hdefault]
    exact hrow
  · intro source
    rw [front, hbytes, hlocals]
    refine Reads.bindPure (decodePrefixes_reads prefixes ?_) fun _ => ?_
    · rcases hopcode with rfl | rfl <;> cases is64Bit <;> decide
    · refine decodeOpcode_oneByte ?_ ?_ hat hvalid <;> rcases hopcode with rfl | rfl <;> decide
  · rw [hlocals, hsimd, InstructionDecoding.hasModRM, if_neg (by decide), if_pos rfl]
    change (opcodeTable.at opcode.toNat).map _ = _
    rw [hat, Except.map, hmodRM]
  · rw [hlocals, hsimd, InstructionDecoding.rowOf, if_neg (by decide), if_pos rfl]
    exact hresolved is64Bit

theorem atBranch (prefixes : PrefixString is64Bit) (branch : NearBranch) :
    ∃ row, AtBranch prefixes branch row := by
  cases branch with
  | call => exact atBranch_oneByte prefixes (Or.inl rfl) rfl rfl rfl rfl
  | jmp => exact atBranch_oneByte prefixes (Or.inr rfl) rfl rfl rfl rfl
  | jcc condition =>
      obtain ⟨pp, hsimd⟩ := simd_withEscape prefixes
      obtain ⟨hresolved, hshape, hmodRM, hsecond⟩ := conditionRow condition pp
      have hopcode : (UInt8.ofNat (0x80 + condition)).toNat = 0x80 + condition :=
        UInt8.toNat_ofNat_of_lt' (by rw [UInt8.size]; omega)
      refine ⟨_, hshape, fun source => escape_reads prefixes hsecond, ?_, ?_⟩
      · rw [branchLocals, hsimd, hasModRM_twoByte]
        simp only [withEscape, withOpcode, hopcode, hmodRM]
      · rw [branchLocals, hsimd, rowOf_twoByte]
        exact hresolved

/-- The bytes of the displacement that the decoder reads. -/
def readWidth (prefixes : PrefixString is64Bit) : NearBranch → Nat
  | .call | .jmp =>
      if prefixes.hasRexW then 8 else if is64Bit then 4 else if prefixes.hasOpSize then 2 else 4
  | .jcc _ => if prefixes.hasRexW then 4 else if prefixes.hasOpSize then 2 else 4

theorem readWidth_eq_iff (prefixes : PrefixString is64Bit) (branch : NearBranch) :
    readWidth prefixes branch = displacementWidth prefixes ↔ ¬ Resized prefixes branch := by
  cases is64Bit with
  | false =>
      have hrexW := prefixes.hasRexW_false
      cases branch <;> simp [readWidth, displacementWidth, Resized, hrexW]
  | true =>
      cases branch <;> cases hrexW : prefixes.hasRexW <;> cases hopSize : prefixes.hasOpSize <;>
        simp [readWidth, displacementWidth, Resized, hrexW, hopSize]

section AtBranch

variable {prefixes : PrefixString is64Bit} {branch : NearBranch} {row : OpcodeInfo}

theorem rexW_branchLocals (prefixes : PrefixString is64Bit) (branch : NearBranch) :
    rexW (branchLocals prefixes branch).fields = prefixes.hasRexW := by
  rw [← prefixes.rexW_locals]
  cases branch <;> rfl

theorem vex_branchLocals (prefixes : PrefixString is64Bit) (branch : NearBranch) :
    (branchLocals prefixes branch).simd.vex = 0 := by
  cases branch <;> simp [branchLocals, withEscape, withOpcode, prefixes.prefixed.simd]

theorem hasOpSizePrefix_branchLocals (prefixes : PrefixString is64Bit) (branch : NearBranch) :
    (branchLocals prefixes branch).hasOpSizePrefix = prefixes.hasOpSize := by
  rw [← prefixes.hasOpSizePrefix_locals]
  cases branch <;> rfl

/-- The locals when the displacement is read. -/
abbrev atDisplacement (prefixes : PrefixString is64Bit) (branch : NearBranch)
    (row : OpcodeInfo) : DecodeLocals :=
  resolved is64Bit (branchLocals prefixes branch) row

theorem opSize_atDisplacement (h : AtBranch prefixes branch row) :
    (atDisplacement prefixes branch row).fields.opSize =
      if prefixes.hasRexW || (is64Bit && rowDefault64 branch == .f64) then 64
      else if prefixes.hasOpSize then 16 else 32 := by
  rw [(resolved_of_unprefixed (vex_branchLocals prefixes branch) h.shape.mandatoryPrefix).2,
    operandSize, rexW_branchLocals, hasOpSizePrefix_branchLocals, h.shape.default64]
  cases branch <;> cases is64Bit <;> rfl

theorem immediateSize_branch (h : AtBranch prefixes branch row) :
    immediateSize (atDisplacement prefixes branch row).fields (op .J (rowSize branch)) =
      readWidth prefixes branch := by
  have hopSize := opSize_atDisplacement h
  have hrexW : rexW (atDisplacement prefixes branch row).fields = prefixes.hasRexW := by
    rw [← rexW_branchLocals prefixes branch, rexW, rexW, fields_resolved]
  rw [immediateSize, if_neg (by simp [op, OP]), hrexW, hopSize]
  cases branch <;> simp only [readWidth, rowSize, rowDefault64, op, OP] <;>
    cases is64Bit <;> cases prefixes.hasRexW <;> cases prefixes.hasOpSize <;> rfl

theorem decodeOperands_branch {source : ByteSource} (vaddr : UInt64)
    (h : AtBranch prefixes branch row) :
    decodeOperands is64Bit vaddr source (branchLocals prefixes branch) =
      (do
        let fields := (atDisplacement prefixes branch row).fields
        let value ← decodeImmediate is64Bit source vaddr fields (op .J (rowSize branch))
        pure { atDisplacement prefixes branch row with
          fields := withImmediate fields value }) := by
  have hmodRM : (branchLocals prefixes branch).fields.hasModRM = false := by
    have hprefixed : prefixes.locals.fields.hasModRM = false := by
      rw [prefixes.prefixed.fields]
    cases branch <;> exact hprefixed
  have hopcode : (branchLocals prefixes branch).fields.opcode ≠ 0x0F := by
    cases branch with
    | call => exact (by decide : (0xE8 : UInt8) ≠ 0x0F)
    | jmp => exact (by decide : (0xE9 : UInt8) ≠ 0x0F)
    | jcc condition =>
        exact (by decide : ∀ condition : Fin 16, UInt8.ofNat (0x80 + condition) ≠ 0x0F) condition
  have hoperands : (atDisplacement prefixes branch row).fields.info.operands =
      slots (op .J (rowSize branch)) nop nop := by
    rw [fields_resolved]
    exact h.shape.operands
  have hfirst : (op .J (rowSize branch)).addressingMode.isImmediate = true := rfl
  have hnop : nop.addressingMode.isImmediate = false := rfl
  rw [decodeOperands_eq vaddr h.hasModRM hmodRM h.rowOf hopcode, decodeImmediates, hoperands]
  simp only [toList_slots, List.foldlM_cons, List.foldlM_nil, immediateStep_first vaddr _ hfirst,
    immediateStep_skip vaddr _ hnop, bind_assoc, pure_bind]

/-- The locals when the instruction is complete. -/
def decodedBranch (prefixes : PrefixString is64Bit) (branch : NearBranch) (row : OpcodeInfo)
    (target : UInt64) : DecodeLocals :=
  let fields := (atDisplacement prefixes branch row).fields
  { atDisplacement prefixes branch row with
    fields := withImmediate fields target }

theorem flow_decodedBranch (h : AtBranch prefixes branch row) (target : UInt64)
    (bytes : Consumed UInt8 15) :
    flowOf { (decodedBranch prefixes branch row target).fields with bytes := bytes }
      (decodedBranch prefixes branch row target).simd = branch.flow := by
  have hopcode : (decodedBranch prefixes branch row target).fields.opcode =
      (branchLocals prefixes branch).fields.opcode := by
    rw [decodedBranch, fields_resolved]
    rfl
  have hmap : (decodedBranch prefixes branch row target).simd.map =
      (branchLocals prefixes branch).simd.map := by
    rw [decodedBranch, (resolved_of_unprefixed (vex_branchLocals prefixes branch)
      h.shape.mandatoryPrefix).1]
  simp only [flowOf, hopcode, hmap]
  cases branch with
  | call => simp [branchLocals, withOpcode, prefixes.prefixed.simd, NearBranch.flow]
  | jmp => simp [branchLocals, withOpcode, prefixes.prefixed.simd, NearBranch.flow]
  | jcc condition =>
      have hrange := (by decide : ∀ condition : Fin 16,
        UInt8.ofNat (0x80 + condition) ≥ 0x80 ∧ UInt8.ofNat (0x80 + condition) ≤ 0x8F) condition
      simpa [branchLocals, withEscape, withOpcode, NearBranch.flow] using hrange

theorem x86_64_decodedBranch (h : AtBranch prefixes branch row) (target : UInt64)
    (bytes : Consumed UInt8 15) :
    ∃ instruction,
      x86_64 { (decodedBranch prefixes branch row target).fields with bytes := bytes }
        (decodedBranch prefixes branch row target).simd = .ok instruction ∧
      instruction.flow = branch.flow ∧ instruction.target = target := by
  have hinfo : (decodedBranch prefixes branch row target).fields.info = row := by
    rw [decodedBranch, fields_resolved]
    rfl
  have hvalid : (decodedBranch prefixes branch row target).fields.isInvalid = false := by
    have hprefixed : prefixes.locals.fields.isInvalid = false := by
      rw [prefixes.prefixed.fields]
    rw [decodedBranch, fields_resolved]
    cases branch <;> exact hprefixed
  have hflow := flow_decodedBranch h target bytes
  obtain ⟨instruction, hinstruction⟩ := x86_64_ok
    { (decodedBranch prefixes branch row target).fields with bytes := bytes }
    (decodedBranch prefixes branch row target).simd (by
      rw [hinfo, h.shape.operands]
      generalize rowSize branch = size
      cases size <;> decide)
  obtain ⟨hf, ht⟩ := flow_x86_64 hinstruction (by
    simp [isBad, hinfo, hvalid, h.shape.text])
  refine ⟨instruction, hinstruction, hf.trans hflow, ht.trans ?_⟩
  have hmode : (firstOperand row.operands).addressingMode = .J := by
    simp [h.shape.operands, op, OP]
  have hbranch : branch.flow ≠ .None := by
    cases branch <;> simp [NearBranch.flow]
  rw [targetOf, hflow, if_pos ⟨hbranch, by rw [hinfo]; exact hmode⟩]
  simp [decodedBranch, withImmediate]

end AtBranch

end Run

section Lines

variable {is64Bit : Bool} {contents : AddressSpace} {fileOffset vaddr : UInt64}
  {prefixes : PrefixString is64Bit} {branch : NearBranch} {row : OpcodeInfo}
  {displacement : List UInt8}

theorem decodeInstruction_front (vaddr : UInt64) (h : AtBranch prefixes branch row)
    (hlength : (front prefixes branch).length ≤ 15)
    (hholds : Holds contents fileOffset.toNat (front prefixes branch)) :
    decodeInstruction is64Bit vaddr (bytesAt contents fileOffset) .empty =
      decodeOperands is64Bit vaddr (bytesAt contents fileOffset) (branchLocals prefixes branch)
        (Consumed.empty.append (front prefixes branch) (by simpa using hlength)) := by
  refine decodeInstruction_run vaddr (h.reads _) ?_ hlength (supplies_of_holds hholds)
  have hprefixed : prefixes.locals.fields.isInvalid = false := by
    rw [prefixes.prefixed.fields]
  cases branch <;> exact hprefixed

theorem decodeOperands_yields_width {source : ByteSource} {consumed : Consumed UInt8 15}
    (vaddr : UInt64) (h : AtBranch prefixes branch row) :
    Yields source consumed
      (decodeOperands is64Bit vaddr source (branchLocals prefixes branch))
      fun _ later => later.length = consumed.length + readWidth prefixes branch := by
  have hwidth : readWidth prefixes branch ≤ 8 := by
    cases branch <;> simp only [readWidth] <;> split_ifs <;> decide
  rw [decodeOperands_branch vaddr h]
  refine Yields.bind (P := fun _ later =>
    later.length = consumed.length + readWidth prefixes branch) ?_
    fun _ _ _ hlater => Yields.pure hlater
  rw [decodeImmediate, immediateSize_branch h]
  refine Yields.bind (readLittleEndian_value hwidth) fun value later _ hvalue => ?_
  obtain ⟨bytes, hbytes, hsymbols, -⟩ := hvalue
  have hlater : later.length = consumed.length + readWidth prefixes branch := by
    simp [Consumed.length, hsymbols, hbytes]
  rw [if_neg (by simp [op, OP]), if_pos (by simp [op, OP])]
  refine Yields.bind Yields.get fun _ final _ hfinal => Yields.pure ?_
  rw [hfinal.2, hlater]

/-- Where the decoder reads as many bytes as the architecture, it makes the right row of
them. -/
theorem decodedRight_of_width (store : InstructionStore)
    (hwidth : displacement.length = displacementWidth prefixes)
    (hread : readWidth prefixes branch = displacementWidth prefixes)
    (hlength : (front prefixes branch ++ displacement).length ≤ 15)
    (hholds : Holds contents fileOffset.toNat (front prefixes branch ++ displacement)) :
    DecodedRight contents fileOffset vaddr store prefixes branch displacement := by
  obtain ⟨row, h⟩ := atBranch prefixes branch
  have hpos : 0 < displacement.length ∧ displacement.length ≤ 8 := by
    rw [hwidth, displacementWidth]
    split_ifs <;> decide
  have hsupplies := supplies_of_holds hholds
  have hfront : (front prefixes branch).length ≤ 15 := by
    rw [List.length_append] at hlength
    omega
  have hlength' : (Consumed.empty.append (front prefixes branch) (by simpa using hfront) :
      Consumed UInt8 15).length + displacement.length ≤ 15 := by
    rw [List.length_append] at hlength
    simpa using hlength
  have hsize := immediateSize_branch h
  rw [hread, ← hwidth] at hsize
  have hpointer : (if is64Bit then 64 else if (if prefixes.hasRexW ||
      (is64Bit && rowDefault64 branch == .f64) then 64 else if prefixes.hasOpSize then 16 else 32) =
        16 then 16 else 32) = pointerWidth prefixes := by
    rw [pointerWidth]
    cases is64Bit with
    | true => rfl
    | false =>
        rw [prefixes.hasRexW_false]
        cases prefixes.hasOpSize <;> rfl
  have htail := (decodeImmediate_relative is64Bit vaddr hsize hpos.2).run hlength'
    (by simpa using hsupplies.right)
  have houtcome : decodeInstruction is64Bit vaddr (bytesAt contents fileOffset) .empty = _ :=
    (decodeInstruction_front vaddr h hfront hholds.left).trans
      ((congrFun (decodeOperands_branch vaddr h) _).trans (bind_of_ok htail))
  obtain ⟨instruction, hinstruction, hflow, htarget⟩ := x86_64_decodedBranch h _ _
  have hline := (congrArg (finishLine fileOffset store) houtcome).trans
    (emit_of_ok fileOffset store hinstruction)
  refine ⟨_, instruction, ⟨_, hline, ChunkStorage.ChunkStore.toList_pushBack _ _⟩, ?_, hflow, ?_⟩
  · have hinside := hholds.length_le (List.ne_nil_of_length_pos (by
      rw [List.length_append]
      omega))
    refine (toNat_add_ofNat ?_).trans ?_
    · exact Nat.lt_of_le_of_lt (by simpa [Nat.add_assoc] using hinside) contents.fileSize_lt
    · simp
  · rw [htarget, toNat_relativeTarget _ _ _ _ hpos.1 hpos.2, branchTarget,
      opSize_atDisplacement h, hpointer]
    congr 3
    simp

/-- Where it reads another number of bytes, the row it appends is no branch or has another
length. -/
theorem not_decodedRight_of_width (store : InstructionStore)
    (hwidth : displacement.length = displacementWidth prefixes)
    (hread : readWidth prefixes branch ≠ displacementWidth prefixes)
    (hlength : (front prefixes branch ++ displacement).length ≤ 15)
    (hholds : Holds contents fileOffset.toNat (front prefixes branch ++ displacement)) :
    ¬ DecodedRight contents fileOffset vaddr store prefixes branch displacement := by
  rintro ⟨nextOffset, instruction, happends, hnext, hflow, -⟩
  obtain ⟨row, h⟩ := atBranch prefixes branch
  have hfront : (front prefixes branch).length ≤ 15 := by
    rw [List.length_append] at hlength
    omega
  have hpos : 1 ≤ (front prefixes branch ++ displacement).length := by
    rw [List.length_append, hwidth, displacementWidth]
    split_ifs <;> omega
  rcases outcome_of_row hpos hnext happends with
    ⟨locals, later, hrun, hlater⟩ | ⟨later, hrun, -, hnone⟩
  · rw [decodeInstruction_front vaddr h hfront hholds.left] at hrun
    have hsettled := (decodeOperands_yields_width vaddr h).settled
      ((supplies_of_holds hholds.left).drawn (by simpa using hfront))
    rw [hrun] at hsettled
    have hread' : later.length = _ := hsettled.2.2
    rw [Consumed.length_append, Consumed.length_empty, Nat.zero_add] at hread'
    rw [List.length_append] at hlater
    omega
  · rw [hnone] at hflow
    cases branch <;> exact nomatch hflow

end Lines

/-- A near relative branch that fits in 15 bytes and in the file is decoded with its length
and its target, unless in long mode REX.W stands in front of E8 or E9, or 66 without REX.W in
front of 0F 80 to 0F 8F. -/
theorem near_branches_iff (is64Bit : Bool) (contents : AddressSpace) (fileOffset vaddr : UInt64)
    (store : InstructionStore) (prefixes : PrefixString is64Bit) (branch : NearBranch)
    (displacement : List UInt8) (hwidth : displacement.length = displacementWidth prefixes)
    (hlength : (front prefixes branch ++ displacement).length ≤ 15)
    (hholds : Holds contents fileOffset.toNat (front prefixes branch ++ displacement)) :
    DecodedRight contents fileOffset vaddr store prefixes branch displacement ↔
      ¬ Resized prefixes branch := by
  rw [← readWidth_eq_iff]
  constructor
  · intro hright
    by_contra hread
    exact not_decodedRight_of_width store hwidth hread hlength hholds hright
  · intro hread
    exact decodedRight_of_width store hwidth hread hlength hholds

/-- A call of 0xFF7, 16 bytes before the instruction behind it, with prefixes that do not count. -/
def backCall : AddressSpace where
  mappedData := [0x66, 0x44, 0xE8, 0xF0, 0xFF, 0xFF, 0xFF]
  fileSize_lt := by decide

def backPrefixes : PrefixString true where
  legacy := [0x66]
  rex := some 0x44
  legacy_mem := by decide +kernel
  rex_mem := by decide +kernel

example : branchTarget backPrefixes 0x1000 7 [0xF0, 0xFF, 0xFF, 0xFF] = 0xFF7 := by decide

theorem near_branches_backCall :
    DecodedRight backCall 0 0x1000 .empty backPrefixes .call [0xF0, 0xFF, 0xFF, 0xFF] :=
  (near_branches_iff true backCall 0 0x1000 .empty backPrefixes .call [0xF0, 0xFF, 0xFF, 0xFF] rfl
    (by decide) (by decide)).mpr fun hresized => absurd hresized.2 (by decide)

/-- The padded call of `__tls_get_addr`, in front of `mov rax, [rax]` and `ret`. -/
def tlsCall : AddressSpace where
  mappedData := [0x66, 0x66, 0x48, 0xE8, 0x00, 0x00, 0x00, 0x00, 0x48, 0x8B, 0x00, 0xC3]
  fileSize_lt := by decide

def tlsPrefixes : PrefixString true where
  legacy := [0x66, 0x66]
  rex := some 0x48
  legacy_mem := by decide +kernel
  rex_mem := by decide +kernel

/-- The call swallows the two instructions behind it. -/
theorem not_decodedRight_tlsCall :
    Holds tlsCall 0 (front tlsPrefixes .call ++ [0, 0, 0, 0]) ∧
      (decodeLine true tlsCall 0 0x1000 .empty).map Prod.fst = .ok 12 ∧
      ¬ DecodedRight tlsCall 0 0x1000 .empty tlsPrefixes .call [0, 0, 0, 0] := by
  refine ⟨by decide, by decide +kernel, ?_⟩
  exact not_decodedRight_of_width .empty rfl (by decide) (by decide) (by decide)

end Voidwalk.NearBranches

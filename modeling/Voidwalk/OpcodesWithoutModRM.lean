import Voidwalk.PrefixedOpcodes

/-!
The two-byte opcodes that the architecture defines without ModRM byte and without
immediate: how many bytes `decodeLine` consumes for them.
-/

namespace Voidwalk.OpcodesWithoutModRM

open Voidwalk.MappedFile
open Voidwalk.OpcodeRows
open Voidwalk.TwoByteTables
open Voidwalk.RowResolution
open Voidwalk.InstructionRendering
open Voidwalk.InstructionDecoding
open Voidwalk.DecodeLineContract
open Voidwalk.SelfDelimiting
open Voidwalk.FileFields
open Voidwalk.PrefixedOpcodes
open Voidwalk.Library.CountingReader

/-- SYSCALL, CLTS, SYSRET, INVD, WBINVD, UD2, FEMMS, WRMSR, RDTSC, RDMSR, RDPMC, SYSENTER,
SYSEXIT, GETSEC, EMMS, PUSH FS, POP FS, CPUID, PUSH GS, POP GS, RSM and BSWAP. -/
def opcodesWithoutModRM : List UInt8 :=
  [0x05, 0x06, 0x07, 0x08, 0x09, 0x0B, 0x0E, 0x30, 0x31, 0x32, 0x33, 0x34, 0x35, 0x37, 0x77,
    0xA0, 0xA1, 0xA2, 0xA8, 0xA9, 0xAA, 0xC8, 0xC9, 0xCA, 0xCB, 0xCC, 0xCD, 0xCE, 0xCF]

/-- Those of them that the table builder does not name: CLTS, INVD, WBINVD, WRMSR, RDMSR,
RDPMC, GETSEC, PUSH FS, POP FS, PUSH GS, POP GS and RSM. -/
def unnamedOpcodes : List UInt8 :=
  [0x06, 0x08, 0x09, 0x30, 0x32, 0x33, 0x37, 0xA0, 0xA1, 0xA8, 0xA9, 0xAA]

section Lines

variable {is64Bit : Bool}

/-- `decodeLine` appends a row, named or not, and consumes the prefixes and the opcode. -/
def ConsumesOpcode (contents : AddressSpace) (fileOffset vaddr : UInt64)
    (store : InstructionStore) (prefixes : PrefixString is64Bit) : Prop :=
  ∃ nextOffset row,
    Appends store (decodeLine is64Bit contents fileOffset vaddr store) nextOffset row ∧
      nextOffset.toNat = fileOffset.toNat + (prefixes.length + 2)

theorem unnamedRow (opcode : UInt8) (hopcode : opcode ∈ unnamedOpcodes) :
    (twoByteTable ⟨opcode.toNat, opcode.toNat_lt⟩).hasRMByte = true ∧
      ¬ (opcode = 0x38 ∨ opcode = 0x3A) := by
  revert opcode
  decide +kernel

theorem namedRow (opcode : UInt8) (hopcode : opcode ∈ opcodesWithoutModRM)
    (hnamed : opcode ∉ unnamedOpcodes) (pp : Fin 4) :
    (twoByteTable ⟨opcode.toNat, opcode.toNat_lt⟩).hasRMByte = false ∧
      opcode ≠ 0x0F ∧ ¬ (opcode = 0x38 ∨ opcode = 0x3A) ∧
      twoByteResolvedInfo opcode 0 { map := 1, pp := UInt8.ofNat pp } =
        .ok (twoByteTable ⟨opcode.toNat, opcode.toNat_lt⟩) ∧
      immediateCount (twoByteTable ⟨opcode.toNat, opcode.toNat_lt⟩).operands.toList = 0 := by
  revert opcode pp
  decide +kernel

variable {contents : AddressSpace} {fileOffset : UInt64} {prefixes : PrefixString is64Bit}
  {opcode : UInt8} (vaddr : UInt64)

theorem length_front (prefixes : PrefixString is64Bit) (opcode : UInt8) :
    (prefixes.bytes ++ [0x0F, opcode]).length = prefixes.length + 2 := by
  simp [PrefixString.length]

theorem decodeInstruction_opcode (hsecond : ¬ (opcode = 0x38 ∨ opcode = 0x3A))
    (hlength : (prefixes.bytes ++ [0x0F, opcode]).length ≤ 15)
    (hholds : Holds contents fileOffset.toNat (prefixes.bytes ++ [0x0F, opcode])) :
    decodeInstruction is64Bit vaddr (bytesAt contents fileOffset) .empty =
      decodeOperands is64Bit vaddr (bytesAt contents fileOffset)
        (withEscape prefixes.locals opcode)
        (Consumed.empty.append (prefixes.bytes ++ [0x0F, opcode]) (by simpa using hlength)) := by
  have hvalid : (withEscape prefixes.locals opcode).fields.isInvalid = false := by
    rw [withEscape, withOpcode, prefixes.prefixed.fields]
  exact decodeInstruction_run vaddr (escape_reads prefixes hsecond) hvalid hlength
    (supplies_of_holds hholds)

theorem knownMap_withEscape (prefixes : PrefixString is64Bit) (opcode : UInt8) :
    KnownMap (withEscape prefixes.locals opcode).simd where
  pp_le := prefixColumn_le prefixes.locals
  map_le := by
    change (1 : UInt8).toNat ≤ 3
    decide
  map_pos := by
    intro _
    change 1 ≤ (1 : UInt8).toNat
    decide

/-- A named opcode is the whole instruction. -/
theorem consumesOpcode_of_named (store : InstructionStore) (hopcode : opcode ∈ opcodesWithoutModRM)
    (hnamed : opcode ∉ unnamedOpcodes) (hlength : prefixes.length + 2 ≤ 15)
    (hholds : Holds contents fileOffset.toNat (prefixes.bytes ++ [0x0F, opcode])) :
    ConsumesOpcode contents fileOffset vaddr store prefixes := by
  obtain ⟨pp, hsimd⟩ := simd_withEscape prefixes
  obtain ⟨hmodRM, hnot3DNow, hsecond, hrow, hcount⟩ := namedRow opcode hopcode hnamed pp
  have hlength' : (prefixes.bytes ++ [0x0F, opcode]).length ≤ 15 := by
    rwa [length_front]
  have hoperands : decodeOperands is64Bit vaddr (bytesAt contents fileOffset)
      (withEscape prefixes.locals opcode) = pure (resolved is64Bit
        (withEscape prefixes.locals opcode) (twoByteTable ⟨opcode.toNat, opcode.toNat_lt⟩)) := by
    rw [decodeOperands_eq vaddr (by rw [hsimd, hasModRM_twoByte]; exact congrArg Except.ok hmodRM)
      (by rw [withEscape, withOpcode, prefixes.prefixed.fields])
      (by rw [hsimd, rowOf_twoByte]; exact hrow) hnot3DNow,
      decodeImmediates_skip vaddr (by rw [fields_resolved]; exact hcount), pure_bind]
  have hrun := decodeInstruction_opcode vaddr hsecond hlength' hholds
  rw [hoperands] at hrun
  obtain ⟨nextOffset, row, happends, hnext⟩ := row_of_outcome store hrun (by rintro _ _ ⟨⟩)
  refine ⟨nextOffset, row, happends, hnext.trans ?_⟩
  simp [consumedOf, pure, EStateM.pure]

/-- The ModRM byte of an unnamed opcode is drawn first. -/
theorem decodeOperands_unnamed {source : ByteSource} (hopcode : opcode ∈ unnamedOpcodes) :
    decodeOperands is64Bit vaddr source (withEscape prefixes.locals opcode) =
      next source >>= fun modRM => (do
        let addressed : DecodeLocals × UInt8 :=
          ({ withEscape prefixes.locals opcode with
              fields := withModRM (withEscape prefixes.locals opcode).fields modRM }, modRM)
        let locals ← resolveRow is64Bit addressed.1 addressed.2
        let fields ← decodeMemory source locals.fields addressed.2
        let locals ← decode3DNow source { locals with fields := fields }
        let fields ← decodeImmediates is64Bit vaddr source locals.fields
        pure { locals with fields := fields }) := by
  obtain ⟨pp, hsimd⟩ := simd_withEscape prefixes
  have hmodRM : hasModRM (withEscape prefixes.locals opcode).fields.opcode
      (withEscape prefixes.locals opcode).simd = .ok true := by
    rw [hsimd, hasModRM_twoByte]
    exact congrArg Except.ok (unnamedRow opcode hopcode).1
  have hattempt {α : Type} {value : α} :
      (attempt (.ok value) : Decoding α) = pure value := rfl
  simp only [decodeOperands, decodeModRM, hmodRM, hattempt, pure_bind, if_true, bind_assoc]

/-- Behind 13 prefixes there is no room for the ModRM byte. -/
theorem consumesOpcode_of_limit (store : InstructionStore) (hopcode : opcode ∈ unnamedOpcodes)
    (hlength : prefixes.length = 13)
    (hholds : Holds contents fileOffset.toNat (prefixes.bytes ++ [0x0F, opcode])) :
    ConsumesOpcode contents fileOffset vaddr store prefixes := by
  have hlength' : (prefixes.bytes ++ [0x0F, opcode]).length ≤ 15 := by
    rw [length_front, hlength]
  have hrun := decodeInstruction_opcode vaddr (unnamedRow opcode hopcode).2 hlength'
    hholds
  rw [decodeOperands_unnamed vaddr hopcode, bind_of_error (next_of_limit (by
    rw [Consumed.length_append, length_front, hlength]
    decide))] at hrun
  obtain ⟨nextOffset, row, happends, hnext⟩ := row_of_outcome store hrun (by rintro _ _ ⟨⟩)
  refine ⟨nextOffset, row, happends, hnext.trans ?_⟩
  simp [consumedOf]

theorem not_consumesOpcode_of_unnamed (store : InstructionStore)
    (hopcode : opcode ∈ unnamedOpcodes) (hlength : prefixes.length < 13)
    (hholds : Holds contents fileOffset.toNat (prefixes.bytes ++ [0x0F, opcode])) :
    ¬ ConsumesOpcode contents fileOffset vaddr store prefixes := by
  rintro ⟨nextOffset, row, happends, hnext⟩
  have hlength' : (prefixes.bytes ++ [0x0F, opcode]).length ≤ 15 := by
    rw [length_front]
    omega
  have hrun := decodeInstruction_opcode vaddr (unnamedRow opcode hopcode).2 hlength'
    hholds
  rw [decodeOperands_unnamed vaddr hopcode] at hrun
  have hsettled := (Yields.nextBind fun modRM later _ => @behindModRM_yields _ later is64Bit vaddr
    ({ withEscape prefixes.locals opcode with
        fields := withModRM (withEscape prefixes.locals opcode).fields modRM }, modRM)
    (knownMap_withEscape prefixes opcode)).settled
    ((supplies_of_holds hholds).drawn (by simpa using hlength'))
  rw [← hrun] at hsettled
  rcases outcome_of_row (Nat.le_add_left 1 _) hnext happends with
    ⟨locals, later, houtcome, hlater⟩ | ⟨later, houtcome, hlater, -⟩
  · rw [houtcome] at hsettled
    have hgrown := hsettled.2.2.1
    rw [Consumed.length_append, length_front, Consumed.length_empty] at hgrown
    omega
  · rw [houtcome] at hsettled
    have hlimit := hsettled.2.2
    omega

end Lines

/-- The byte behind an opcode without ModRM byte is left alone if and only if the table
builder names the opcode, or the prefixes leave no room for a ModRM byte. -/
theorem consumesOpcode_iff (is64Bit : Bool) (contents : AddressSpace) (fileOffset vaddr : UInt64)
    (store : InstructionStore) (prefixes : PrefixString is64Bit) (opcode : UInt8)
    (hopcode : opcode ∈ opcodesWithoutModRM) (hlength : prefixes.length + 2 ≤ 15)
    (hholds : Holds contents fileOffset.toNat (prefixes.bytes ++ [0x0F, opcode])) :
    ConsumesOpcode contents fileOffset vaddr store prefixes ↔
      opcode ∉ unnamedOpcodes ∨ prefixes.length = 13 := by
  by_cases hnamed : opcode ∈ unnamedOpcodes
  · by_cases hthirteen : prefixes.length = 13
    · exact iff_of_true (consumesOpcode_of_limit vaddr store hnamed hthirteen hholds)
        (Or.inr hthirteen)
    · refine iff_of_false (not_consumesOpcode_of_unnamed vaddr store hnamed (by omega) hholds) ?_
      rintro (hnot | heq)
      · exact hnot hnamed
      · exact hthirteen heq
  · exact iff_of_true (consumesOpcode_of_named vaddr store hopcode hnamed hlength hholds)
      (Or.inl hnamed)

/-- RDTSC in front of RET. -/
def rdtsc : AddressSpace where
  mappedData := [0x0F, 0x31, 0xC3]
  fileSize_lt := by decide

theorem consumesOpcode_rdtsc : ConsumesOpcode rdtsc 0 0x1000 .empty (.none : PrefixString true) :=
  (consumesOpcode_iff true rdtsc 0 0x1000 .empty .none 0x31 (by decide) (by decide)
    (by decide)).mpr (Or.inl (by decide))

/-- WRMSR in front of RET. -/
def wrmsr : AddressSpace where
  mappedData := [0x0F, 0x30, 0xC3]
  fileSize_lt := by decide

/-- WRMSR swallows the RET. -/
theorem not_consumesOpcode_wrmsr :
    Holds wrmsr 0 [0x0F, 0x30] ∧ 0x30 ∈ opcodesWithoutModRM ∧
      (decodeLine true wrmsr 0 0x1000 .empty).map Prod.fst = .ok 3 ∧
      ¬ ConsumesOpcode wrmsr 0 0x1000 .empty (.none : PrefixString true) := by
  refine ⟨by decide, by decide, by decide +kernel, ?_⟩
  exact not_consumesOpcode_of_unnamed 0x1000 .empty (by decide : (0x30 : UInt8) ∈ unnamedOpcodes)
    (by decide) (by decide)

end Voidwalk.OpcodesWithoutModRM

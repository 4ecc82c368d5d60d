import Voidwalk.EncodedValues
import Voidwalk.SelfDelimiting

/-!
The front of an instruction, prefixes and opcode, run on the bytes that the file holds,
and what is left of `decodeLine` behind an opcode whose row has no ModRM byte.
-/

namespace Voidwalk.PrefixedOpcodes

open Voidwalk.MappedFile
open Voidwalk.OpcodeRows
open Voidwalk.OneByteTables
open Voidwalk.TwoByteTables
open Voidwalk.RowResolution
open Voidwalk.InstructionRendering
open Voidwalk.InstructionDecoding
open Voidwalk.DecodeLineContract
open Voidwalk.SelfDelimiting
open Voidwalk.FileFields
open Voidwalk.Library.Bytes
open Voidwalk.Library.CountingReader

/-- The legacy prefixes of the architecture. -/
def legacyPrefixes : List UInt8 :=
  [0xF0, 0xF2, 0xF3, 0x26, 0x2E, 0x36, 0x3E, 0x64, 0x65, 0x66, 0x67]

/-- Legacy prefixes and, in long mode, at most one REX byte behind them. -/
structure PrefixString (is64Bit : Bool) where
  legacy : List UInt8
  rex : Option UInt8
  legacy_mem : ∀ byte ∈ legacy, byte ∈ legacyPrefixes
  rex_mem : ∀ byte ∈ rex, is64Bit = true ∧ 0x40 ≤ byte ∧ byte ≤ 0x4F

namespace PrefixString

variable {is64Bit : Bool}

def bytes (prefixes : PrefixString is64Bit) : List UInt8 :=
  prefixes.legacy ++ prefixes.rex.toList

abbrev length (prefixes : PrefixString is64Bit) : Nat := prefixes.bytes.length

def hasOpSize (prefixes : PrefixString is64Bit) : Bool := prefixes.legacy.contains 0x66

/-- No prefixes at all. -/
def none : PrefixString is64Bit where
  legacy := []
  rex := .none
  legacy_mem := by simp
  rex_mem := by simp

def hasRexW (prefixes : PrefixString is64Bit) : Bool := prefixes.rex.any fun byte => byte &&& 8 != 0

end PrefixString

theorem isPrefix_iff (byte : UInt8) : isPrefix byte = true ↔ byte ∈ legacyPrefixes := by
  revert byte
  exact forall_byte (by decide +kernel)

theorem isRex_of_le {byte : UInt8} (hlow : 0x40 ≤ byte) (hhigh : byte ≤ 0x4F) :
    isRex true byte = true := by
  revert hlow hhigh
  revert byte
  apply forall_byte
  decide +kernel

theorem PrefixString.isPrefixOrRex {is64Bit : Bool} (prefixes : PrefixString is64Bit) :
    ∀ byte ∈ prefixes.bytes, isPrefixOrRex is64Bit byte = true := by
  intro byte hbyte
  rw [PrefixString.bytes, List.mem_append, Option.mem_toList] at hbyte
  rw [DecodeLineContract.isPrefixOrRex, Bool.or_eq_true]
  rcases hbyte with hlegacy | hrex
  · exact Or.inl ((isPrefix_iff byte).mpr (prefixes.legacy_mem byte hlegacy))
  · obtain ⟨rfl, hlow, hhigh⟩ := prefixes.rex_mem byte hrex
    exact Or.inr (isRex_of_le hlow hhigh)

/-- The locals of `decodeLine` behind the prefixes. -/
def PrefixString.locals {is64Bit : Bool} (prefixes : PrefixString is64Bit) : DecodeLocals :=
  prefixes.bytes.foldl (prefixUpdate is64Bit) { fields := { is64Bit := is64Bit } }

section Prefixes

variable {is64Bit : Bool} {prefixes : List UInt8} {locals : DecodeLocals}

/-- The REX byte in force: one that a legacy prefix follows has no effect. -/
def rexOf (is64Bit : Bool) (prefixes : List UInt8) : UInt8 :=
  match prefixes.getLast? with
  | some byte => if isRex is64Bit byte then byte else 0
  | none => 0

/-- The locals behind a string of prefixes: what the prefixes set, and nothing else. -/
structure Prefixed (is64Bit : Bool) (prefixes : List UInt8) (locals : DecodeLocals) : Prop where
  simd : locals.simd = {}
  fields : locals.fields =
    { is64Bit := is64Bit
      hasLock := locals.fields.hasLock
      repPrefix := locals.fields.repPrefix
      segmentPrefix := locals.fields.segmentPrefix
      rexPrefix := rexOf is64Bit prefixes }
  hasOpSizePrefix : locals.hasOpSizePrefix = prefixes.contains 0x66
  hasAddrSizePrefix : locals.hasAddrSizePrefix = prefixes.contains 0x67

theorem rexOf_append (is64Bit : Bool) (prefixes : List UInt8) (byte : UInt8) :
    rexOf is64Bit (prefixes ++ [byte]) = if isRex is64Bit byte then byte else 0 := by
  rw [rexOf, List.getLast?_append, List.getLast?_singleton]
  rfl

theorem contains_append (prefixes : List UInt8) (byte other : UInt8) :
    (prefixes ++ [byte]).contains other = (prefixes.contains other || byte == other) := by
  by_cases hsame : byte = other
  · simp [hsame]
  · simp [hsame, Ne.symm hsame]

theorem not_isRex {byte : UInt8} (hbyte : isPrefix byte = true) :
    isRex is64Bit byte = false := by
  rw [isPrefix_iff] at hbyte
  revert byte
  cases is64Bit <;> decide +kernel

theorem Prefixed.step (h : Prefixed is64Bit prefixes locals) (byte : UInt8) :
    Prefixed is64Bit (prefixes ++ [byte]) (prefixUpdate is64Bit locals byte) := by
  have hfields := h.fields
  cases hrex : isRex is64Bit byte with
  | true =>
      have hnot (other : UInt8) (hother : isPrefix other = true) : (byte == other) = false := by
        rw [beq_eq_false_iff_ne]
        rintro rfl
        rw [not_isRex hother] at hrex
        contradiction
      rw [prefixUpdate, if_pos hrex]
      refine ⟨h.simd, ?_, ?_, ?_⟩
      · rw [rexOf_append, if_pos hrex]
        dsimp only
        rw [hfields]
      · rw [contains_append, hnot 0x66 (by decide), Bool.or_false]
        exact h.hasOpSizePrefix
      · rw [contains_append, hnot 0x67 (by decide), Bool.or_false]
        exact h.hasAddrSizePrefix
  | false =>
      have hopSize := contains_append prefixes byte 0x66
      have haddrSize := contains_append prefixes byte 0x67
      rw [← h.hasOpSizePrefix] at hopSize
      rw [← h.hasAddrSizePrefix] at haddrSize
      have hrexOf : rexOf is64Bit (prefixes ++ [byte]) = 0 := by
        rw [rexOf_append, hrex]
        rfl
      rw [prefixUpdate, if_neg (by simp [hrex]), applyPrefix]
      split_ifs with h66 h67 hlock hrep
      · refine ⟨h.simd, ?_, ?_, ?_⟩
        · dsimp only
          rw [hrexOf, hfields]
        · rw [hopSize, h66]
          simp
        · rw [haddrSize, h66]
          simp
      · refine ⟨h.simd, ?_, ?_, ?_⟩
        · dsimp only
          rw [hrexOf, hfields]
        · rw [hopSize, h67]
          simp
        · rw [haddrSize, h67]
          simp
      all_goals
        refine ⟨h.simd, ?_, ?_, ?_⟩
        · dsimp only
          rw [hrexOf, hfields]
        · rw [hopSize]
          simp [h66]
        · rw [haddrSize]
          simp [h67]

theorem prefixed_foldl (is64Bit : Bool) (prefixes : List UInt8) :
    Prefixed is64Bit prefixes
      (prefixes.foldl (prefixUpdate is64Bit) { fields := { is64Bit := is64Bit } }) := by
  induction prefixes using List.reverseRecOn with
  | nil => exact ⟨rfl, rfl, rfl, rfl⟩
  | append_singleton prefixes byte ih =>
      rw [List.foldl_append]
      exact ih.step byte

theorem PrefixString.prefixed (prefixes : PrefixString is64Bit) :
    Prefixed is64Bit prefixes.bytes prefixes.locals :=
  prefixed_foldl is64Bit prefixes.bytes

theorem PrefixString.rexOf_bytes (prefixes : PrefixString is64Bit) :
    rexOf is64Bit prefixes.bytes = prefixes.rex.getD 0 := by
  rw [PrefixString.bytes]
  rcases hrex : prefixes.rex with _ | byte
  · rw [Option.toList_none, List.append_nil, rexOf]
    split
    · rename_i last hlast
      have hlegacy := prefixes.legacy_mem last (List.mem_of_getLast? hlast)
      rw [not_isRex ((isPrefix_iff last).mpr hlegacy)]
      rfl
    · rfl
  · obtain ⟨rfl, hlow, hhigh⟩ := prefixes.rex_mem byte hrex
    rw [Option.toList_some, rexOf_append, isRex_of_le hlow hhigh]
    rfl

theorem PrefixString.rexW_locals (prefixes : PrefixString is64Bit) :
    rexW prefixes.locals.fields = prefixes.hasRexW := by
  rw [rexW, prefixes.prefixed.fields, PrefixString.hasRexW]
  simp only [prefixes.rexOf_bytes]
  cases prefixes.rex <;> rfl

theorem PrefixString.hasRexW_false (prefixes : PrefixString false) :
    prefixes.hasRexW = false := by
  rw [PrefixString.hasRexW]
  rcases hrex : prefixes.rex with _ | byte
  · rfl
  · exact absurd (prefixes.rex_mem byte hrex).1 (by decide)

theorem PrefixString.hasOpSizePrefix_locals (prefixes : PrefixString is64Bit) :
    prefixes.locals.hasOpSizePrefix = prefixes.hasOpSize := by
  rw [prefixes.prefixed.hasOpSizePrefix, PrefixString.hasOpSize, PrefixString.bytes]
  rcases hrex : prefixes.rex with _ | byte
  · rw [Option.toList_none, List.append_nil]
  · obtain ⟨rfl, hlow, hhigh⟩ := prefixes.rex_mem byte hrex
    have hne : (byte == 0x66) = false := by
      rw [beq_eq_false_iff_ne]
      rintro rfl
      exact absurd hhigh (by decide)
    rw [Option.toList_some, contains_append, hne, Bool.or_false]

end Prefixes

section Opcodes

variable {source : ByteSource} {consumed : Consumed UInt8 15} {is64Bit : Bool}
  {locals : DecodeLocals}

theorem decodePrefixes_reads (prefixes : PrefixString is64Bit) {last : UInt8}
    (hlast : isPrefixOrRex is64Bit last = false) :
    Reads source .empty (decodePrefixes is64Bit source) (prefixes.bytes ++ [last])
      (prefixes.locals, last) := by
  refine ⟨fun h hsupplies => ?_⟩
  have hroom : prefixes.bytes.length < 15 := by
    rw [List.length_append, List.length_singleton, Consumed.length_empty] at h
    omega
  obtain ⟨later, hsymbols, hrun⟩ := @scanPrefixes_run source .empty is64Bit prefixes.bytes last
    prefixes.isPrefixOrRex hlast 15 { fields := { is64Bit := is64Bit } } hroom
    (by simpa using hroom) hsupplies
  have hlater : later = Consumed.empty.append (prefixes.bytes ++ [last]) h := by
    ext1
    simpa using hsymbols
  rw [← hlater]
  exact hrun

def withOpcode (locals : DecodeLocals) (opcode : UInt8) : DecodeLocals :=
  { locals with fields := { locals.fields with opcode := opcode } }

def withEscape (locals : DecodeLocals) (opcode : UInt8) : DecodeLocals :=
  { withOpcode locals opcode with
    simd := { locals.simd with map := 1, pp := prefixColumn locals } }

theorem decodeOpcode_oneByte {opcode : UInt8} (hescape : opcode ≠ 0x0F)
    (hvex : ¬ (opcode = 0xC4 ∨ opcode = 0xC5)) {row : OpcodeInfo}
    (hrow : opcodeTable.at opcode.toNat = .ok row) (hvalid : row.isInvalid = false) :
    Reads source consumed (decodeOpcode is64Bit source (locals, opcode)) []
      (withOpcode locals opcode) := by
  rw [decodeOpcode, if_neg hescape, if_neg hvex, decodeOneByte]
  split
  · refine Reads.bind (Reads.attempt hrow) fun _ => ?_
    rw [hvalid]
    exact Reads.pure
  · exact Reads.pure

theorem decodeOpcode_twoByte {second : UInt8} (hsecond : ¬ (second = 0x38 ∨ second = 0x3A)) :
    Reads source consumed (decodeOpcode is64Bit source (locals, 0x0F)) [second]
      (withEscape locals second) := by
  have hselected : Reads source consumed (escapedOpcode source) [second] (1, second) := by
    rw [escapedOpcode]
    refine Reads.bindPure Reads.next fun _ => ?_
    rw [if_neg hsecond]
    exact Reads.pure
  rw [decodeOpcode, if_pos rfl, decodeEscape]
  exact hselected.bindPure fun _ => Reads.pure

theorem hasModRM_twoByte (opcode pp : UInt8) :
    hasModRM opcode { map := 1, pp := pp } =
      .ok (twoByteTable ⟨opcode.toNat, opcode.toNat_lt⟩).hasRMByte := by
  have hat : twoByteTable.at opcode.toNat = .ok (twoByteTable ⟨opcode.toNat, opcode.toNat_lt⟩) :=
    dif_pos ⟨Int.natCast_nonneg _, by exact_mod_cast opcode.toNat_lt⟩
  change (twoByteTable.at opcode.toNat).map OpcodeInfo.hasRMByte = _
  rw [hat]
  rfl

theorem rowOf_twoByte (is64Bit : Bool) (opcode modRM pp : UInt8) :
    rowOf is64Bit opcode modRM { map := 1, pp := pp } =
      twoByteResolvedInfo opcode modRM { map := 1, pp := pp } :=
  rfl

/-- The opcode map and the prefix column behind prefixes and 0F. -/
theorem simd_withEscape (prefixes : PrefixString is64Bit) :
    ∃ pp : Fin 4, ∀ opcode,
      (withEscape prefixes.locals opcode).simd = { map := 1, pp := UInt8.ofNat pp } := by
  refine ⟨⟨_, Nat.lt_succ_of_le (prefixColumn_le prefixes.locals)⟩, fun opcode => ?_⟩
  simp [withEscape, prefixes.prefixed.simd]

theorem escape_reads (prefixes : PrefixString is64Bit) {second : UInt8}
    (hsecond : ¬ (second = 0x38 ∨ second = 0x3A)) :
    Reads source .empty (decodePrefixes is64Bit source >>= decodeOpcode is64Bit source)
      (prefixes.bytes ++ [0x0F, second]) (withEscape prefixes.locals second) := by
  rw [List.append_cons]
  refine Reads.bind (decodePrefixes_reads prefixes ?_) fun _ => decodeOpcode_twoByte hsecond
  cases is64Bit <;> decide

/-- What the row of an opcode does to the locals. -/
def resolved (is64Bit : Bool) (locals : DecodeLocals) (row : OpcodeInfo) : DecodeLocals :=
  withWidths is64Bit
    (takeMandatoryPrefix { locals with fields := { locals.fields with info := row } })

theorem fields_resolved (is64Bit : Bool) (locals : DecodeLocals) (row : OpcodeInfo) :
    (resolved is64Bit locals row).fields =
      { locals.fields with
        info := row
        repPrefix := (resolved is64Bit locals row).fields.repPrefix
        opSize := (resolved is64Bit locals row).fields.opSize
        addrSize := (resolved is64Bit locals row).fields.addrSize } := by
  simp only [resolved, withWidths, takeMandatoryPrefix]
  split_ifs <;> rfl

theorem addrSize_resolved (is64Bit : Bool) (locals : DecodeLocals) (row : OpcodeInfo) :
    (resolved is64Bit locals row).fields.addrSize =
      if is64Bit then if locals.hasAddrSizePrefix then 32 else 64
      else if locals.hasAddrSizePrefix then 16 else 32 := by
  simp only [resolved, withWidths, takeMandatoryPrefix]
  split_ifs <;> rfl

theorem resolveRow_eq {modRM : UInt8} {row : OpcodeInfo}
    (hrow : rowOf is64Bit locals.fields.opcode modRM locals.simd = .ok row) :
    resolveRow is64Bit locals modRM =
      (pure (resolved is64Bit locals row) : Decoding DecodeLocals) := by
  rw [resolveRow, hrow]
  rfl

/-- The operand size of a row that takes no mandatory prefix. -/
def operandSize (is64Bit : Bool) (locals : DecodeLocals) (row : OpcodeInfo) : Nat :=
  let default64 := if is64Bit then row.default64 else .None
  if rexW locals.fields || default64 == .f64 then 64
  else if locals.hasOpSizePrefix then 16
  else if default64 = .d64 then 64 else 32

theorem resolved_of_unprefixed {row : OpcodeInfo} (hvex : locals.simd.vex = 0)
    (hrow : row.mandatoryPrefix = 0) :
    (resolved is64Bit locals row).simd = { locals.simd with mandatory := false, pp := 0 } ∧
      (resolved is64Bit locals row).fields.opSize = operandSize is64Bit locals row := by
  simp only [resolved, takeMandatoryPrefix, hvex, hrow]
  exact ⟨rfl, rfl⟩

/-- Behind an opcode without ModRM byte only the immediates are left. -/
theorem decodeOperands_eq {row : OpcodeInfo} (vaddr : UInt64)
    (hmodRM : hasModRM locals.fields.opcode locals.simd = .ok false)
    (hfields : locals.fields.hasModRM = false)
    (hrow : rowOf is64Bit locals.fields.opcode 0 locals.simd = .ok row)
    (hnot3DNow : locals.fields.opcode ≠ 0x0F) :
    decodeOperands is64Bit vaddr source locals =
      (do
        let fields ← decodeImmediates is64Bit vaddr source (resolved is64Bit locals row).fields
        pure { resolved is64Bit locals row with fields := fields }) := by
  have hattempt {α : Type} {value : α} :
      (attempt (.ok value) : Decoding α) = pure value := rfl
  have hopcode : (resolved is64Bit locals row).fields.opcode = locals.fields.opcode := by
    rw [fields_resolved]
  have hmodRM' : (resolved is64Bit locals row).fields.hasModRM = locals.fields.hasModRM := by
    rw [fields_resolved]
  have hmemory : decodeMemory source (resolved is64Bit locals row).fields 0 =
      pure (resolved is64Bit locals row).fields := by
    rw [decodeMemory, if_neg (by simp [hmodRM', hfields])]
  have hrow' := resolveRow_eq hrow
  have h3DNow : decode3DNow source (resolved is64Bit locals row) =
      pure (resolved is64Bit locals row) := by
    rw [decode3DNow, if_neg (by simp [hopcode, hnot3DNow])]
  simp only [decodeOperands, decodeModRM, hmodRM, hattempt, pure_bind, Bool.false_eq_true,
    if_false, hrow', hmemory, h3DNow]

theorem immediateStep_skip (vaddr : UInt64) (state : Fields × Nat) {operand : TableOperand}
    (h : operand.addressingMode.isImmediate = false) :
    immediateStep is64Bit vaddr source state operand = pure state :=
  dif_neg (by simp [h])

def withImmediate (fields : Fields) (value : UInt64) : Fields :=
  { fields with immediates := fields.immediates.set 0 value Nat.zero_lt_two }

theorem immediateStep_first (vaddr : UInt64) (fields : Fields) {operand : TableOperand}
    (h : operand.addressingMode.isImmediate = true) :
    immediateStep is64Bit vaddr source (fields, 0) operand =
      (do
        let value ← decodeImmediate is64Bit source vaddr fields operand
        pure (withImmediate fields value, 1)) :=
  dif_pos ⟨h, Nat.zero_lt_two⟩

theorem immediateSteps_skip (vaddr : UInt64) {operands : List TableOperand}
    (state : Fields × Nat) (h : immediateCount operands = 0) :
    operands.foldlM (immediateStep is64Bit vaddr source) state = pure state := by
  induction operands with
  | nil => rfl
  | cons operand rest ih =>
      rw [immediateCount, List.countP_cons, Nat.add_eq_zero_iff] at h
      have hoperand : operand.addressingMode.isImmediate = false := by
        simpa using h.2
      rw [List.foldlM_cons, immediateStep_skip vaddr state hoperand, pure_bind]
      exact ih h.1

theorem decodeImmediates_skip (vaddr : UInt64) {fields : Fields}
    (h : immediateCount fields.info.operands.toList = 0) :
    decodeImmediates is64Bit vaddr source fields = pure fields := by
  rw [decodeImmediates, immediateSteps_skip vaddr _ h, pure_bind]

theorem decodeInstruction_run {front : List UInt8} (vaddr : UInt64)
    (hfront : Reads source .empty
      (decodePrefixes is64Bit source >>= decodeOpcode is64Bit source) front locals)
    (hvalid : locals.fields.isInvalid = false) (hlength : front.length ≤ 15)
    (hsupplies : Supplies source 0 front) :
    decodeInstruction is64Bit vaddr source .empty =
      decodeOperands is64Bit vaddr source locals
        (Consumed.empty.append front (by simpa using hlength)) := by
  have hrun := hfront.run (by simpa using hlength) hsupplies
  have hsplit : decodeInstruction is64Bit vaddr source =
      decodePrefixes is64Bit source >>= decodeOpcode is64Bit source >>= fun locals =>
        if locals.fields.isInvalid then pure locals
        else decodeOperands is64Bit vaddr source locals := by
    rw [bind_assoc]
    rfl
  rw [hsplit, bind_of_ok hrun, hvalid]
  rfl

end Opcodes

theorem supplies_of_holds {contents : AddressSpace} {fileOffset : UInt64} {bytes : List UInt8}
    (h : Holds contents fileOffset.toNat bytes) :
    Supplies (bytesAt contents fileOffset) 0 bytes := by
  intro i byte hbyte
  obtain ⟨hi, hget⟩ := List.getElem?_eq_some_iff.mp hbyte
  have hinside := h.length_le (List.ne_nil_of_length_pos (Nat.zero_lt_of_lt hi))
  have hfile : contents.mappedData[fileOffset.toNat + i]? = some byte := by
    rw [← hbyte, ← List.getElem?_drop]
    conv_rhs => rw [← h]
    rw [List.getElem?_take_of_lt hi]
  rw [Nat.zero_add, readU8_bytesAt contents fileOffset i (by omega)]
  rw [List.getElem?_eq_getElem (by omega)] at hfile
  rw [Option.some.inj hfile]

/-- A row of `n` bytes tells how the decoding ended: behind `n` bytes, of its own accord or,
with a `(bad)` row, at the limit. -/
theorem outcome_of_row {is64Bit : Bool} {contents : AddressSpace} {fileOffset vaddr : UInt64}
    {n : Nat} {nextOffset : UInt64} {row : Instruction} {store : InstructionStore} (hpos : 1 ≤ n)
    (hnext : nextOffset.toNat = fileOffset.toNat + n)
    (h : Appends store (decodeLine is64Bit contents fileOffset vaddr store) nextOffset row) :
    (∃ locals later, decodeInstruction is64Bit vaddr (bytesAt contents fileOffset) .empty =
        .ok locals later ∧ later.length = n) ∨
      ∃ later, decodeInstruction is64Bit vaddr (bytesAt contents fileOffset) .empty =
        .error .limitReached later ∧ later.length = n ∧ row.flow = .None := by
  obtain ⟨-, hlength, hnofail, hfinish⟩ := outcome_of_appends hpos hnext h rfl
  rcases hrun : decodeInstruction is64Bit vaddr (bytesAt contents fileOffset) .empty with
    ⟨locals, later⟩ | ⟨_ | thrown, later⟩
  · rw [hrun] at hlength
    exact Or.inl ⟨locals, later, rfl, hlength⟩
  · rw [hrun] at hlength hfinish
    refine Or.inr ⟨later, rfl, hlength, ?_⟩
    have hinvalid := @x86_64_of_isInvalid { bytes := later, isInvalid := true } {} rfl
    have hrow := (emit_of_ok fileOffset store hinvalid).symm.trans (hfinish store)
    have hlist := congrArg ChunkStorage.ChunkStore.toList (Prod.mk.inj (Except.ok.inj hrow)).2
    rw [ChunkStorage.ChunkStore.toList_pushBack, ChunkStorage.ChunkStore.toList_pushBack] at hlist
    rw [← List.singleton_inj.mp (List.append_cancel_left hlist)]
  · exact absurd hrun (hnofail thrown later)

/-- Unless a read fails, a row of the consumed bytes is appended. -/
theorem row_of_outcome {is64Bit : Bool} {contents : AddressSpace} {fileOffset vaddr : UInt64}
    (store : InstructionStore)
    {outcome : EStateM.Result (Stop Thrown) (Consumed UInt8 15) DecodeLocals}
    (hrun : decodeInstruction is64Bit vaddr (bytesAt contents fileOffset) .empty = outcome)
    (hnofail : ∀ thrown later, outcome ≠ .error (.failed thrown) later) :
    ∃ nextOffset row,
      Appends store (decodeLine is64Bit contents fileOffset vaddr store) nextOffset row ∧
        nextOffset.toNat = fileOffset.toNat + (consumedOf outcome).length := by
  have hyields := (@decodeInstruction_yields (bytesAt contents fileOffset)
    is64Bit vaddr).settled (Drawn.empty _)
  rw [hrun] at hyields
  rcases finishLine_row fileOffset hyields with
    ⟨thrown, later, hfailed, -⟩ | ⟨-, hdrawn, hpos, row, -, hrow⟩
  · exact absurd hfailed (hnofail thrown later)
  · have hline := (congrArg (finishLine fileOffset store) hrun).trans (hrow store)
    refine ⟨_, row, ⟨_, hline, ChunkStorage.ChunkStore.toList_pushBack store row⟩, ?_⟩
    exact toNat_add_ofNat ((drawn_bytesAt hdrawn hpos).1.trans_lt contents.fileSize_lt)

end Voidwalk.PrefixedOpcodes

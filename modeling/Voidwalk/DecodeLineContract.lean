import Mathlib.Data.List.Basic
import Mathlib.Logic.Basic
import Mathlib.Tactic.Common
import Voidwalk.InstructionDecoding

/-!
What one call of `decodeLine` does, for every file content: it appends the row
of the bytes it consumed, or it does nothing at all.
-/

namespace Voidwalk.DecodeLineContract

open Voidwalk.MappedFile
open Voidwalk.ChunkStorage
open Voidwalk.OpcodeRows
open Voidwalk.OneByteTables
open Voidwalk.TwoByteTables
open Voidwalk.ThreeByteTables
open Voidwalk.RowResolution
open Voidwalk.InstructionRendering
open Voidwalk.InstructionDecoding
open Voidwalk.Library.CountingReader

def isPrefixOrRex (is64Bit : Bool) (byte : UInt8) : Bool :=
  isPrefix byte || isRex is64Bit byte

structure KnownMap (simd : Simd) : Prop where
  pp_le : simd.pp.toNat ≤ 3
  map_le : simd.map.toNat ≤ 3
  map_pos : simd.vex ≠ 0 → 1 ≤ simd.map.toNat

section Stages

variable {source : ByteSource} {consumed : Consumed UInt8 15}

def Unopened (locals : DecodeLocals) : Prop :=
  locals.simd = {} ∧ locals.fields.isInvalid = false

theorem Unopened.applyPrefix {locals : DecodeLocals} (h : Unopened locals) (byte : UInt8) :
    Unopened (applyPrefix locals byte) := by
  simp only [InstructionDecoding.applyPrefix]
  split_ifs <;> exact h

/-- The prefix loop ends on the first byte that is no prefix, all bytes before
it being prefixes. -/
theorem decodePrefixes_yields (is64Bit : Bool) :
    Yields source .empty (decodePrefixes is64Bit source) fun prefixed later =>
      Unopened prefixed.1 ∧ ∃ prefixes : List UInt8,
        later.symbols = prefixes ++ [prefixed.2] ∧
          ∀ byte ∈ prefixes, isPrefixOrRex is64Bit byte = true := by
  refine Yields.scan
    (I := fun locals consumed => Unopened locals ∧
      ∀ byte ∈ consumed.symbols, isPrefixOrRex is64Bit byte = true)
    ?_ 15 _ (Nat.le_refl 15) ⟨⟨rfl, rfl⟩, by simp [Consumed.empty]⟩
  rintro locals byte before after ⟨hlocals, hbefore⟩ hafter
  have hextended (hbyte : isPrefixOrRex is64Bit byte = true) :
      ∀ byte ∈ after.symbols, isPrefixOrRex is64Bit byte = true := by
    simp only [hafter, List.mem_append, List.mem_singleton]
    rintro byte' (hmem | rfl)
    · exact hbefore byte' hmem
    · exact hbyte
  rw [prefixStep]
  split_ifs with hrex hlegacy
  · exact ⟨hlocals, hextended (by simp [isPrefixOrRex, hrex])⟩
  · exact ⟨hlocals.applyPrefix byte, hextended (by simp [isPrefixOrRex, hlegacy])⟩
  · exact ⟨hlocals, before.symbols, hafter, hbefore⟩

def prefixUpdate (is64Bit : Bool) (locals : DecodeLocals) (byte : UInt8) : DecodeLocals :=
  if isRex is64Bit byte then { locals with fields := { locals.fields with rexPrefix := byte } }
  else applyPrefix locals byte

theorem prefixStep_eq (is64Bit : Bool) (locals : DecodeLocals) (byte : UInt8) :
    prefixStep is64Bit locals byte =
      if isPrefixOrRex is64Bit byte then .inl (prefixUpdate is64Bit locals byte)
      else .inr (locals, byte) := by
  cases hrex : isRex is64Bit byte <;> cases hlegacy : isPrefix byte <;>
    simp [prefixStep, isPrefixOrRex, prefixUpdate, hrex, hlegacy]

theorem scanPrefixes_run (is64Bit : Bool) {prefixes : List UInt8} {last : UInt8}
    (hprefixes : ∀ byte ∈ prefixes, isPrefixOrRex is64Bit byte = true)
    (hlast : isPrefixOrRex is64Bit last = false) {turns : Nat} (locals : DecodeLocals)
    (hturns : prefixes.length < turns) (hlimit : consumed.length + prefixes.length < 15)
    (hsource : ∀ i byte, (prefixes ++ [last])[i]? = some byte →
      source (consumed.length + i) = .ok byte) :
    ∃ later : Consumed UInt8 15, later.symbols = consumed.symbols ++ prefixes ++ [last] ∧
      scan source (prefixStep is64Bit) turns locals consumed =
        .ok (prefixes.foldl (prefixUpdate is64Bit) locals, last) later := by
  induction prefixes generalizing turns locals consumed with
  | nil =>
      obtain ⟨turns, rfl⟩ : ∃ rest, turns = rest + 1 := ⟨turns - 1, by simp at hturns; omega⟩
      have hroom : consumed.length < 15 := by simpa using hlimit
      refine ⟨consumed.push last hroom, by simp, ?_⟩
      rw [scan_of_ok turns locals hroom (hsource 0 last rfl), prefixStep_eq]
      simp [hlast]
  | cons byte rest ih =>
      obtain ⟨turns, rfl⟩ : ∃ rest, turns = rest + 1 := ⟨turns - 1, by simp at hturns; omega⟩
      simp only [List.length_cons] at hturns hlimit
      have hroom : consumed.length < 15 := by omega
      obtain ⟨later, hsymbols, hrun⟩ := @ih (consumed.push byte hroom)
        (fun other hmem => hprefixes other (List.mem_cons_of_mem _ hmem))
        turns (prefixUpdate is64Bit locals byte) (by omega)
        (by rw [Consumed.length_push]; omega)
        (by
          intro i other hother
          rw [Consumed.length_push, Nat.add_assoc, Nat.add_comm 1 i]
          exact hsource (i + 1) other hother)
      refine ⟨later, by simpa using hsymbols, ?_⟩
      rw [scan_of_ok turns locals hroom (hsource 0 byte rfl), prefixStep_eq]
      simpa [hprefixes byte List.mem_cons_self] using hrun

theorem prefixColumn_le (locals : DecodeLocals) : (prefixColumn locals).toNat ≤ 3 := by
  rw [prefixColumn]
  split_ifs <;> decide

theorem escapedOpcode_yields :
    Yields source consumed (escapedOpcode source) fun selected _ => selected.1.toNat ≤ 3 := by
  rw [escapedOpcode]
  refine Yields.bind Yields.next fun second later _ _ => ?_
  split_ifs
  · exact Yields.bind Yields.next fun _ _ _ _ => Yields.pure (by simp)
  · exact Yields.bind Yields.next fun _ _ _ _ => Yields.pure (by simp)
  · exact Yields.pure (by simp)

theorem decodeEscape_yields {locals : DecodeLocals} (hsimd : locals.simd = {}) :
    Yields source consumed (decodeEscape source locals) fun decoded _ =>
      KnownMap decoded.simd := by
  rw [decodeEscape]
  refine Yields.bind escapedOpcode_yields fun selected later _ hmap => Yields.pure ?_
  exact ⟨prefixColumn_le locals, hmap, by simp [hsimd]⟩

theorem decodeVex_yields (is64Bit : Bool) (locals : DecodeLocals) (currentByte : UInt8) :
    Yields source consumed (decodeVex is64Bit source locals currentByte) fun decoded later =>
      consumed.length < later.length ∧
        (decoded.fields.isInvalid = true ∨ KnownMap decoded.simd) := by
  rw [decodeVex]
  refine Yields.nextBind fun vex1 later _ => ?_
  refine Yields.bind (P := fun _ _ => True) ?_ fun vex2 later _ _ => ?_
  · split_ifs
    · exact Yields.next.mono fun _ _ _ _ => trivial
    · exact Yields.pure trivial
  · simp only [Bool.or_eq_true, decide_eq_true_eq, UInt8.lt_iff_toNat_lt]
    split_ifs with hmap
    · exact Yields.pure (Or.inl rfl)
    · refine Yields.bind Yields.next fun opcode later _ _ => Yields.pure (Or.inr ?_)
      rw [not_or, Nat.not_lt, Nat.not_lt] at hmap
      refine ⟨?_, hmap.2, fun _ => hmap.1⟩
      change (vex2 &&& 0x03).toNat ≤ 3
      rw [UInt8.toNat_and]
      exact Nat.and_le_right

theorem decodeOneByte_yields (is64Bit : Bool) {locals : DecodeLocals} (currentByte : UInt8)
    (hsimd : locals.simd = {}) :
    Yields source consumed (decodeOneByte is64Bit locals currentByte) fun decoded _ =>
      decoded.fields.isInvalid = true ∨ KnownMap decoded.simd := by
  have hmap : KnownMap locals.simd := by
    rw [hsimd]
    exact ⟨by decide, by decide, by decide⟩
  rw [decodeOneByte]
  split_ifs
  · obtain ⟨slot, hslot⟩ := opcodeTable.at_eq_ok (i := currentByte.toNat) (by omega)
      (by exact_mod_cast currentByte.toNat_lt)
    refine Yields.bind (P := fun _ _ => True) (Yields.attempt hslot trivial) fun row later _ _ => ?_
    split_ifs
    · exact Yields.pure (Or.inl rfl)
    · exact Yields.pure (Or.inr hmap)
  · exact Yields.pure (Or.inr hmap)

theorem opensVex_yields (is64Bit : Bool) :
    Yields source consumed (opensVex is64Bit source) fun _ later => later = consumed := by
  rw [opensVex]
  split_ifs
  · exact Yields.pure rfl
  · exact Yields.bind Yields.peek fun _ _ _ hlater => Yields.pure hlater.1

theorem decodeOpcode_yields (is64Bit : Bool) {prefixed : DecodeLocals × UInt8}
    (hsimd : prefixed.1.simd = {}) :
    Yields source consumed (decodeOpcode is64Bit source prefixed) fun decoded _ =>
      decoded.fields.isInvalid = true ∨ KnownMap decoded.simd := by
  rw [decodeOpcode]
  split_ifs
  · exact (decodeEscape_yields hsimd).mono fun _ _ _ hdecoded => Or.inr hdecoded
  · refine Yields.bind (opensVex_yields is64Bit) fun isVex later _ _ => ?_
    split_ifs
    · exact (decodeVex_yields is64Bit _ _).mono fun _ _ _ hdecoded => hdecoded.2
    · exact decodeOneByte_yields is64Bit _ hsimd
  · exact decodeOneByte_yields is64Bit _ hsimd

theorem hasModRM_ok (opcode : UInt8) (simd : Simd) :
    ∃ modRMFollows, hasModRM opcode simd = .ok modRMFollows := by
  have hopcode : opcode.toNat < 256 := opcode.toNat_lt
  rw [hasModRM]
  split_ifs
  · exact ⟨_, rfl⟩
  · obtain ⟨slot, hslot⟩ := opcodeTable.at_eq_ok (i := opcode.toNat) (by omega) (by omega)
    exact ⟨_, by rw [hslot]; rfl⟩
  · obtain ⟨slot, hslot⟩ := twoByteTable.at_eq_ok (i := opcode.toNat) (by omega) (by omega)
    exact ⟨_, by rw [hslot]; rfl⟩
  · exact ⟨_, rfl⟩

theorem decodeModRM_yields (locals : DecodeLocals) :
    Yields source consumed (decodeModRM source locals) fun addressed _ =>
      addressed.1.simd = locals.simd := by
  obtain ⟨modRMFollows, hfollows⟩ := hasModRM_ok locals.fields.opcode locals.simd
  rw [decodeModRM]
  refine Yields.bind (P := fun _ _ => True) (Yields.attempt hfollows trivial) fun _ _ _ _ => ?_
  split_ifs
  · exact Yields.bind Yields.next fun _ _ _ _ => Yields.pure rfl
  · exact Yields.pure rfl

theorem rowOf_ok (is64Bit : Bool) (opcode modRM : UInt8) {simd : Simd} (h : KnownMap simd) :
    ∃ info, rowOf is64Bit opcode modRM simd = .ok info ∧
      immediateCount info.operands.toList ≤ 2 := by
  rw [rowOf]
  split_ifs with hvex hzero hone
  · exact vexResolvedInfo_ok opcode modRM (h.map_pos hvex) h.map_le h.pp_le
  · exact resolvedInfo_ok opcode modRM is64Bit
  · exact twoByteResolvedInfo_ok opcode modRM h.pp_le
  · refine threeByteResolvedInfo_ok opcode ?_
    have hle := h.map_le
    have hzero' : simd.map.toNat ≠ 0 := fun heq => hzero (UInt8.toNat_inj.mp heq)
    have hone' : simd.map.toNat ≠ 1 := fun heq => hone (UInt8.toNat_inj.mp heq)
    rw [← UInt8.toNat_inj, ← UInt8.toNat_inj]
    have htwo : (2 : UInt8).toNat = 2 := rfl
    have hthree : (3 : UInt8).toNat = 3 := rfl
    omega

theorem info_takeMandatoryPrefix (locals : DecodeLocals) :
    (takeMandatoryPrefix locals).fields.info = locals.fields.info := by
  simp only [takeMandatoryPrefix]
  split_ifs <;> rfl

theorem resolveRow_yields (is64Bit : Bool) {locals : DecodeLocals} (modRM : UInt8)
    (h : KnownMap locals.simd) :
    Yields source consumed (resolveRow is64Bit locals modRM) fun resolved _ =>
      immediateCount resolved.fields.info.operands.toList ≤ 2 := by
  obtain ⟨info, hinfo, hcount⟩ := rowOf_ok is64Bit locals.fields.opcode modRM h
  rw [resolveRow]
  refine Yields.bind (P := fun row _ => row = info) (Yields.attempt hinfo rfl) ?_
  rintro row later - rfl
  refine Yields.pure ?_
  change immediateCount (takeMandatoryPrefix _).fields.info.operands.toList ≤ 2
  rw [info_takeMandatoryPrefix]
  exact hcount

theorem readLittleEndian_yields (byteCount : Nat) :
    Yields source consumed (readLittleEndian source byteCount) fun _ _ => True :=
  Yields.foldlM (I := fun _ _ _ => True)
    (fun _ _ _ _ _ => Yields.bind Yields.next fun _ _ _ _ => Yields.pure trivial) _ _ trivial

theorem decodeMemory_yields (fields : Fields) (modRM : UInt8) :
    Yields source consumed (decodeMemory source fields modRM) fun later _ =>
      later.info = fields.info := by
  rw [decodeMemory]
  split_ifs
  · refine Yields.bind (P := fun later _ => later.info = fields.info) ?_
      fun addressed _ _ hinfo => ?_
    · rw [decodeSIB]
      split_ifs
      · exact Yields.bind Yields.next fun _ _ _ _ => Yields.pure rfl
      · exact Yields.pure rfl
    · rw [decodeDisplacement]
      split_ifs
      · exact Yields.bind (readLittleEndian_yields _) fun _ _ _ _ => Yields.pure hinfo
      · exact Yields.pure hinfo
  · exact Yields.pure rfl

theorem decode3DNow_yields {locals : DecodeLocals}
    (h : immediateCount locals.fields.info.operands.toList ≤ 2) :
    Yields source consumed (decode3DNow source locals) fun decoded _ =>
      immediateCount decoded.fields.info.operands.toList ≤ 2 := by
  rw [decode3DNow]
  split_ifs
  · refine Yields.bind Yields.next fun opcode later _ _ => ?_
    obtain ⟨info, hinfo, hcount⟩ := threeDNowTable_ok opcode
    refine Yields.bind (P := fun row _ => row = info) (Yields.attempt hinfo rfl) ?_
    rintro row later - rfl
    exact Yields.pure hcount
  · exact Yields.pure h

theorem decodeImmediate_yields (is64Bit : Bool) (vaddr : UInt64) (fields : Fields)
    (operand : TableOperand) :
    Yields source consumed (decodeImmediate is64Bit source vaddr fields operand)
      fun _ _ => True := by
  rw [decodeImmediate]
  refine Yields.bind (readLittleEndian_yields _) fun value later _ _ => ?_
  split
  · exact Yields.bind (readLittleEndian_yields _) fun _ _ _ _ => Yields.pure trivial
  split
  · exact Yields.bind Yields.get fun _ _ _ _ => Yields.pure trivial
  split
  · exact Yields.pure trivial
  · exact Yields.pure trivial

theorem decodeImmediates_yields (is64Bit : Bool) (vaddr : UInt64) (fields : Fields) :
    Yields source consumed (decodeImmediates is64Bit vaddr source fields) fun filled _ =>
      filled = { fields with immediates := filled.immediates } := by
  rw [decodeImmediates]
  refine Yields.bind
    (Yields.foldlM
      (I := fun _ state _ => state.1 = { fields with immediates := state.1.immediates }) ?_ _
      (fields, 0) rfl)
    fun filled later _ hfilled => Yields.pure hfilled
  intro operand rest state before hstate
  rw [immediateStep]
  split_ifs
  · refine Yields.bind (decodeImmediate_yields is64Bit vaddr state.1 operand)
      fun _ _ _ _ => Yields.pure ?_
    dsimp only
    rw [hstate]
  · exact Yields.pure hstate

/-- What follows the ModRM byte in `decodeOperands`. -/
theorem behindModRM_yields (is64Bit : Bool) (vaddr : UInt64) {addressed : DecodeLocals × UInt8}
    (h : KnownMap addressed.1.simd) :
    Yields source consumed
      (do
        let locals ← resolveRow is64Bit addressed.1 addressed.2
        let fields ← decodeMemory source locals.fields addressed.2
        let locals ← decode3DNow source { locals with fields := fields }
        let fields ← decodeImmediates is64Bit vaddr source locals.fields
        pure { locals with fields := fields })
      fun decoded _ => immediateCount decoded.fields.info.operands.toList ≤ 2 := by
  refine Yields.bind (resolveRow_yields is64Bit addressed.2 h) fun resolved _ _ hcount => ?_
  refine Yields.bind (decodeMemory_yields resolved.fields addressed.2) fun fields _ _ hinfo => ?_
  refine Yields.bind (decode3DNow_yields (by simpa [hinfo] using hcount)) fun named _ _ hcount => ?_
  refine Yields.bind (decodeImmediates_yields is64Bit vaddr named.fields)
    fun filled _ _ hfilled => Yields.pure ?_
  dsimp only
  rw [hfilled]
  exact hcount

theorem decodeOperands_yields (is64Bit : Bool) (vaddr : UInt64) {locals : DecodeLocals}
    (h : KnownMap locals.simd) :
    Yields source consumed (decodeOperands is64Bit vaddr source locals) fun decoded _ =>
      immediateCount decoded.fields.info.operands.toList ≤ 2 := by
  rw [decodeOperands]
  refine Yields.bind (decodeModRM_yields locals) fun addressed _ _ hsimd => ?_
  exact behindModRM_yields is64Bit vaddr (hsimd ▸ h)

/-- An instruction consumes at least one byte, and unless it is rejected its row
has at most two immediates. -/
theorem decodeInstruction_yields (is64Bit : Bool) (vaddr : UInt64) :
    Yields source .empty (decodeInstruction is64Bit vaddr source) fun decoded later =>
      1 ≤ later.length ∧ (decoded.fields.isInvalid = true ∨
        immediateCount decoded.fields.info.operands.toList ≤ 2) := by
  rw [decodeInstruction]
  refine Yields.bind (decodePrefixes_yields is64Bit) fun prefixed later _ hprefixed => ?_
  obtain ⟨⟨hsimd, -⟩, prefixes, hsymbols, -⟩ := hprefixed
  have hone : 1 ≤ later.length := by simp [Consumed.length, hsymbols]
  refine Yields.bind (decodeOpcode_yields is64Bit hsimd) fun locals later' hgrows hmap => ?_
  have hone' : 1 ≤ later'.length := hone.trans hgrows.length_le
  split_ifs with hinvalid
  · exact Yields.pure ⟨hone', Or.inl hinvalid⟩
  · exact (decodeOperands_yields is64Bit vaddr (hmap.resolve_left hinvalid)).mono
      fun decoded final hgrows' hcount => ⟨hone'.trans hgrows'.length_le, Or.inr hcount⟩

end Stages

/-- Reads never wrap: the file ends before the offsets do. -/
theorem drawn_bytesAt_lt {contents : AddressSpace} {fileOffset : UInt64}
    {bytes : Consumed UInt8 15} (h : Drawn (bytesAt contents fileOffset) bytes) (i : Nat)
    (hi : i < bytes.length) :
    fileOffset.toNat + i < contents.mappedData.length ∧
      contents.mappedData[fileOffset.toNat + i]? = some bytes.symbols[i] := by
  induction i with
  | zero =>
      obtain ⟨hlt, hbyte⟩ := (contents.readU8_eq_ok_iff _ _).mp (h 0 hi)
      have hoffset : (fileOffset + UInt64.ofNat 0).toNat = fileOffset.toNat := by simp
      rw [hoffset] at hlt
      simp only [hoffset] at hbyte
      exact ⟨hlt, by rw [Nat.add_zero, List.getElem?_eq_getElem hlt, hbyte]⟩
  | succ i ih =>
      have hprevious := (ih (Nat.lt_of_succ_lt hi)).1
      have hsize := contents.fileSize_lt
      obtain ⟨hlt, hbyte⟩ := (contents.readU8_eq_ok_iff _ _).mp (h (i + 1) hi)
      have hoffset : (fileOffset + UInt64.ofNat (i + 1)).toNat = fileOffset.toNat + (i + 1) :=
        toNat_add_ofNat (by omega)
      rw [hoffset] at hlt
      simp only [hoffset] at hbyte
      exact ⟨hlt, by rw [List.getElem?_eq_getElem hlt, hbyte]⟩

theorem drawn_bytesAt {contents : AddressSpace} {fileOffset : UInt64} {bytes : Consumed UInt8 15}
    (h : Drawn (bytesAt contents fileOffset) bytes) (hpos : 1 ≤ bytes.length) :
    fileOffset.toNat + bytes.length ≤ contents.mappedData.length ∧
      bytes.symbols = (contents.mappedData.drop fileOffset.toNat).take bytes.length := by
  have hlast := (drawn_bytesAt_lt h (bytes.length - 1) (by omega)).1
  refine ⟨by omega, List.ext_getElem? fun i => ?_⟩
  by_cases hi : i < bytes.length
  · rw [List.getElem?_take_of_lt hi, List.getElem?_drop, (drawn_bytesAt_lt h i hi).2,
      List.getElem?_eq_getElem hi]
  · rw [List.getElem?_eq_none (Nat.not_lt.mp hi),
      List.getElem?_eq_none (by rw [List.length_take]; omega)]

def consumedOf {α : Type} : EStateM.Result (Stop Thrown) (Consumed UInt8 15) α → Consumed UInt8 15
  | .ok _ bytes => bytes
  | .error _ bytes => bytes

theorem emit_of_ok {fields : Fields} {simd : Simd} {instruction : Instruction}
    (fileOffset : UInt64) (store : InstructionStore)
    (h : x86_64 fields simd = .ok instruction) :
    emit fileOffset store fields simd =
      .ok (fileOffset + UInt64.ofNat fields.bytes.length, store.pushBack instruction) := by
  rw [emit, h]
  rfl

/-- Every outcome that is no failed read renders as a row of its bytes. -/
theorem finishLine_row (fileOffset : UInt64) {source : ByteSource}
    {outcome : EStateM.Result (Stop Thrown) (Consumed UInt8 15) DecodeLocals}
    (hsettled : Settled source .empty (fun decoded later => 1 ≤ later.length ∧
      (decoded.fields.isInvalid = true ∨
        immediateCount decoded.fields.info.operands.toList ≤ 2)) outcome) :
    (∃ thrown later, outcome = .error (.failed thrown) later ∧ Drawn source later ∧
      source later.length = .error thrown) ∨
    ((∀ thrown later, outcome ≠ .error (.failed thrown) later) ∧
      Drawn source (consumedOf outcome) ∧ 1 ≤ (consumedOf outcome).length ∧
      ∃ instruction,
        instruction.machineCode = machineCodeOf (consumedOf outcome).symbols ∧
        ∀ store, finishLine fileOffset store outcome =
          .ok (fileOffset + UInt64.ofNat (consumedOf outcome).length,
            store.pushBack instruction)) := by
  rcases outcome with ⟨locals, bytes⟩ | ⟨_ | thrown, bytes⟩
  · obtain ⟨-, hdrawn, hpos, hcount⟩ := hsettled
    obtain ⟨instruction, hinstruction⟩ : ∃ instruction,
        x86_64 { locals.fields with bytes := bytes } locals.simd = .ok instruction := by
      rcases hcount with hinvalid | hcount
      · exact ⟨_, x86_64_of_isInvalid locals.simd hinvalid⟩
      · exact x86_64_ok _ _ hcount
    exact Or.inr ⟨nofun, hdrawn, hpos, instruction, machineCode_x86_64 hinstruction,
      fun store => emit_of_ok fileOffset store hinstruction⟩
  · obtain ⟨-, hdrawn, hlimit⟩ := hsettled
    have hinvalid := @x86_64_of_isInvalid { bytes := bytes, isInvalid := true } {} rfl
    refine Or.inr ⟨nofun, hdrawn, ?_, _, machineCode_x86_64 hinvalid,
      fun store => emit_of_ok fileOffset store hinvalid⟩
    change 1 ≤ bytes.length
    rw [hlimit]
    decide
  · exact Or.inl ⟨thrown, bytes, rfl, hsettled.2.1, hsettled.2.2⟩

theorem length_le_of_failed {contents : AddressSpace} {fileOffset : UInt64} {thrown : Thrown}
    {later : Consumed UInt8 15} (hdrawn : Drawn (bytesAt contents fileOffset) later)
    (h : bytesAt contents fileOffset later.length = .error thrown) :
    contents.mappedData.length ≤ fileOffset.toNat + later.length := by
  have hsize := contents.fileSize_lt
  have hwithin : fileOffset.toNat + later.length < 2 ^ 64 := by
    rcases Nat.eq_zero_or_pos later.length with hzero | hpos
    · simpa [hzero] using fileOffset.toNat_lt
    · exact Nat.lt_of_le_of_lt (drawn_bytesAt hdrawn hpos).1 hsize
  by_contra hlt
  have hread : bytesAt contents fileOffset later.length = .ok _ :=
    contents.readU8_of_lt _ (by rw [toNat_add_ofNat hwithin]; omega)
  rw [hread] at h
  contradiction

theorem finishLine_failed {contents : AddressSpace} {fileOffset : UInt64} {thrown : Thrown}
    {later : Consumed UInt8 15} (store : InstructionStore)
    (h : bytesAt contents fileOffset later.length = .error thrown) :
    finishLine fileOffset store (.error (.failed thrown) later) = .ok (fileOffset, store) := by
  rw [AddressSpace.readU8_error h]
  rfl

/-- A row that `decodeLine` appends for the `n` bytes at `fileOffset`. -/
structure AppendsRow (contents : AddressSpace) (fileOffset : UInt64) (n : Nat)
    (instruction : Instruction) (store : InstructionStore)
    (result : Except Thrown (UInt64 × InstructionStore)) : Prop where
  length_pos : 1 ≤ n
  length_le : n ≤ 15
  inside : fileOffset.toNat + n ≤ contents.mappedData.length
  machineCode : instruction.machineCode =
    machineCodeOf ((contents.mappedData.drop fileOffset.toNat).take n)
  result_eq : result = .ok (fileOffset + UInt64.ofNat n, store.pushBack instruction)

/-- Either nothing happens or one row is appended, to any store the same one; no
exception leaves. -/
theorem decodeLine_cases (is64Bit : Bool) (contents : AddressSpace)
    (fileOffset vaddr : UInt64) :
    (contents.mappedData.length ≤ fileOffset.toNat + 15 ∧
      ∀ store, decodeLine is64Bit contents fileOffset vaddr store = .ok (fileOffset, store)) ∨
      ∃ n instruction, ∀ store, AppendsRow contents fileOffset n instruction store
        (decodeLine is64Bit contents fileOffset vaddr store) := by
  have hyields := (@decodeInstruction_yields (bytesAt contents fileOffset)
    is64Bit vaddr).settled (Drawn.empty _)
  rcases finishLine_row fileOffset hyields with hfailed | ⟨-, hdrawn, hpos, hrow⟩
  · left
    obtain ⟨thrown, later, houtcome, hdrawn, hthrown⟩ := hfailed
    refine ⟨(length_le_of_failed hdrawn hthrown).trans
      (Nat.add_le_add_left later.length_le _), fun store => ?_⟩
    rw [decodeLine, houtcome]
    exact finishLine_failed store hthrown
  · right
    obtain ⟨instruction, hcode, hresult⟩ := hrow
    obtain ⟨hinside, hbytes⟩ := drawn_bytesAt hdrawn hpos
    exact ⟨_, instruction, fun store => ⟨hpos, Consumed.length_le_limit _, hinside,
      hbytes ▸ hcode, hresult store⟩⟩

theorem AppendsRow.toNat_next {contents : AddressSpace} {fileOffset : UInt64} {n : Nat}
    {instruction : Instruction} {store : InstructionStore}
    {result : Except Thrown (UInt64 × InstructionStore)}
    (h : AppendsRow contents fileOffset n instruction store result) :
    (fileOffset + UInt64.ofNat n).toNat = fileOffset.toNat + n :=
  toNat_add_ofNat (Nat.lt_of_le_of_lt h.inside contents.fileSize_lt)

/-- The contract of `decodeLine`. No lookup on the way leaves its table: a
lookup that did would be the result. -/
theorem decodeLine_contract (is64Bit : Bool) (contents : AddressSpace)
    (fileOffset vaddr : UInt64) (store : InstructionStore) :
    Xor
      (decodeLine is64Bit contents fileOffset vaddr store = .ok (fileOffset, store))
      (∃ (n : Nat) (nextOffset : UInt64) (store' : InstructionStore) (instruction : Instruction),
        decodeLine is64Bit contents fileOffset vaddr store = .ok (nextOffset, store') ∧
        nextOffset.toNat = fileOffset.toNat + n ∧ 1 ≤ n ∧ n ≤ 15 ∧
        fileOffset.toNat + n ≤ contents.mappedData.length ∧
        (∀ i < store.size, store'.index i = store.index i) ∧
        store'.toList = store.toList ++ [instruction] ∧
        instruction.machineCode =
          machineCodeOf ((contents.mappedData.drop fileOffset.toNat).take n)) := by
  rcases decodeLine_cases is64Bit contents fileOffset vaddr with hnothing | hrow
  · refine Or.inl ⟨hnothing.2 store, ?_⟩
    rintro ⟨n, nextOffset, store', instruction, hresult, hnext, hpos, -⟩
    rw [hnothing.2 store] at hresult
    obtain ⟨rfl, -⟩ := Prod.mk.inj (Except.ok.inj hresult)
    omega
  · obtain ⟨n, instruction, hrow⟩ := hrow
    have happends := hrow store
    have hnext := happends.toNat_next
    refine Or.inr ⟨⟨n, _, _, instruction, happends.result_eq, hnext, happends.length_pos,
      happends.length_le, happends.inside, ?_, store.toList_pushBack instruction,
      happends.machineCode⟩, ?_⟩
    · exact fun i hi => store.index_pushBack_of_lt instruction hi
    · intro hnothing
      rw [happends.result_eq] at hnothing
      have hsame := congrArg UInt64.toNat (Prod.mk.inj (Except.ok.inj hnothing)).1
      have hpos := happends.length_pos
      omega

end Voidwalk.DecodeLineContract

import Voidwalk.ParallelDecoding
import Voidwalk.PrefixedOpcodes

/-!
What is left of a string of prefixes behind it: which of 66, 67 and F0 it contains, the
last repeat prefix, the last segment override, and a REX byte at its end.
-/

namespace Voidwalk.PrefixEffects

open Voidwalk.MappedFile
open Voidwalk.OpcodeRows
open Voidwalk.OneByteTables
open Voidwalk.InstructionRendering
open Voidwalk.InstructionDecoding
open Voidwalk.DecodeLineContract
open Voidwalk.SelfDelimiting
open Voidwalk.PrefixedOpcodes
open Voidwalk.ParallelDecoding
open Voidwalk.FileFields
open Voidwalk.Library.Bytes
open Voidwalk.Library.CountingReader
open Voidwalk.Library.TwoReaders

def repeats : List UInt8 := [0xF2, 0xF3]

def segmentOverrides : List UInt8 := [0x26, 0x2E, 0x36, 0x3E, 0x64, 0x65]

theorem repeats_legacy : ∀ byte ∈ repeats, byte ∈ legacyPrefixes := by
  simp [repeats, legacyPrefixes]

theorem segmentOverrides_legacy : ∀ byte ∈ segmentOverrides, byte ∈ legacyPrefixes := by
  simp [segmentOverrides, legacyPrefixes]

/-- A legacy prefix or, in long mode, a REX byte. -/
def IsPrefixByte (is64Bit : Bool) (byte : UInt8) : Prop :=
  byte ∈ legacyPrefixes ∨ is64Bit = true ∧ 0x40 ≤ byte ∧ byte ≤ 0x4F

instance (is64Bit : Bool) (byte : UInt8) : Decidable (IsPrefixByte is64Bit byte) :=
  instDecidableOr

def lastOf (selected prefixes : List UInt8) : Option UInt8 :=
  (prefixes.filter selected.contains).getLast?

/-- The REX byte right before what follows the prefixes. -/
def rexBefore (prefixes : List UInt8) : Option UInt8 :=
  prefixes.getLast?.filter fun byte => 0x40 ≤ byte && byte ≤ 0x4F

/-- Two strings of as many prefixes, with the same ones in force. -/
structure SameInForce (is64Bit : Bool) (prefixes prefixes' : List UInt8) : Prop where
  length : prefixes'.length = prefixes.length
  opSize : 0x66 ∈ prefixes' ↔ 0x66 ∈ prefixes
  addrSize : 0x67 ∈ prefixes' ↔ 0x67 ∈ prefixes
  lock : 0xF0 ∈ prefixes' ↔ 0xF0 ∈ prefixes
  repeated : lastOf repeats prefixes' = lastOf repeats prefixes
  segment : lastOf segmentOverrides prefixes' = lastOf segmentOverrides prefixes
  rex : is64Bit = true → rexBefore prefixes' = rexBefore prefixes

section Bytes

variable {is64Bit : Bool} {byte : UInt8}

theorem isRex_iff : isRex is64Bit byte = true ↔ is64Bit = true ∧ 0x40 ≤ byte ∧ byte ≤ 0x4F := by
  revert byte
  apply forall_byte
  cases is64Bit with
  | false => decide +kernel
  | true => decide +kernel

theorem isPrefixOrRex_iff : isPrefixOrRex is64Bit byte = true ↔ IsPrefixByte is64Bit byte := by
  rw [isPrefixOrRex, Bool.or_eq_true, isPrefix_iff, isRex_iff, IsPrefixByte]

theorem rex_not_legacy (hlow : 0x40 ≤ byte) (hhigh : byte ≤ 0x4F) : byte ∉ legacyPrefixes := by
  intro hlegacy
  rw [← isPrefix_iff] at hlegacy
  have hrex := isRex_of_le hlow hhigh
  rw [not_isRex hlegacy] at hrex
  contradiction

end Bytes

theorem lastOf_append (selected prefixes : List UInt8) (byte : UInt8) :
    lastOf selected (prefixes ++ [byte]) =
      if byte ∈ selected then some byte else lastOf selected prefixes := by
  rw [lastOf, List.filter_append]
  by_cases hmem : byte ∈ selected
  · rw [if_pos hmem, List.filter_cons_of_pos (List.contains_iff_mem.mpr hmem), List.filter_nil,
      List.getLast?_concat]
  · rw [if_neg hmem, List.filter_cons_of_neg (mt List.contains_iff_mem.mp hmem), List.filter_nil,
      List.append_nil]
    rfl

/-- What a string of prefixes leaves in the locals that the rendering reads. -/
structure InForce (prefixes : List UInt8) (fields : Fields) : Prop where
  lock : fields.hasLock = prefixes.contains 0xF0
  repeated : fields.repPrefix = (lastOf repeats prefixes).getD 0
  segment : fields.segmentPrefix = (lastOf segmentOverrides prefixes).getD 0

section Prefixes

variable {is64Bit : Bool} {prefixes prefixes' : List UInt8}

/-- What one more prefix changes. -/
structure Advanced (byte : UInt8) (fields later : Fields) : Prop where
  lock : later.hasLock = if byte = 0xF0 then true else fields.hasLock
  repeated : later.repPrefix = if byte ∈ repeats then byte else fields.repPrefix
  segment : later.segmentPrefix = if byte ∈ segmentOverrides then byte else fields.segmentPrefix

theorem applyPrefix_advanced (locals : DecodeLocals) {byte : UInt8}
    (hbyte : byte ∈ legacyPrefixes) :
    Advanced byte locals.fields (applyPrefix locals byte).fields := by
  simp only [legacyPrefixes, List.mem_cons, List.not_mem_nil, or_false] at hbyte
  rcases hbyte with rfl | rfl | rfl | rfl | rfl | rfl | rfl | rfl | rfl | rfl | rfl <;>
    exact ⟨rfl, rfl, rfl⟩

theorem prefixUpdate_advanced (locals : DecodeLocals) {byte : UInt8}
    (hbyte : IsPrefixByte is64Bit byte) :
    Advanced byte locals.fields (prefixUpdate is64Bit locals byte).fields := by
  rw [prefixUpdate]
  rcases hbyte with hlegacy | hrex
  · rw [not_isRex ((isPrefix_iff byte).mpr hlegacy)]
    exact applyPrefix_advanced locals hlegacy
  · have hother := rex_not_legacy hrex.2.1 hrex.2.2
    have hlock : byte ≠ 0xF0 := by
      rintro rfl
      exact hother (by decide)
    have hrepeats : byte ∉ repeats := fun hmem => hother (repeats_legacy byte hmem)
    have hsegments : byte ∉ segmentOverrides := fun hmem => hother (segmentOverrides_legacy byte hmem)
    rw [if_pos (isRex_iff.mpr hrex)]
    exact ⟨(if_neg hlock).symm, (if_neg hrepeats).symm, (if_neg hsegments).symm⟩

theorem InForce.step {fields later : Fields} {byte : UInt8} (h : InForce prefixes fields)
    (hbyte : Advanced byte fields later) : InForce (prefixes ++ [byte]) later := by
  constructor
  · rw [hbyte.lock, contains_append, h.lock]
    by_cases hlock : byte = 0xF0
    · rw [if_pos hlock, hlock, beq_self_eq_true, Bool.or_true]
    · rw [if_neg hlock, beq_false_of_ne hlock, Bool.or_false]
  · rw [hbyte.repeated, lastOf_append, h.repeated, apply_ite fun last => Option.getD last 0]
    rfl
  · rw [hbyte.segment, lastOf_append, h.segment, apply_ite fun last => Option.getD last 0]
    rfl

theorem inForce_foldl (hprefixes : ∀ byte ∈ prefixes, IsPrefixByte is64Bit byte) :
    InForce prefixes
      (prefixes.foldl (prefixUpdate is64Bit) { fields := { is64Bit := is64Bit } }).fields := by
  induction prefixes using List.reverseRecOn with
  | nil => exact ⟨rfl, rfl, rfl⟩
  | append_singleton prefixes byte ih =>
      rw [List.foldl_append]
      apply InForce.step
      · exact ih fun other hmem => hprefixes other (List.mem_append_left _ hmem)
      · exact prefixUpdate_advanced _ (hprefixes byte (List.mem_append_right _ List.mem_cons_self))

theorem SameInForce.rexOf (h : SameInForce is64Bit prefixes prefixes') :
    rexOf is64Bit prefixes' = rexOf is64Bit prefixes := by
  have hrexOf (prefixes : List UInt8) : PrefixedOpcodes.rexOf is64Bit prefixes =
      if is64Bit then (rexBefore prefixes).getD 0 else 0 := by
    rw [PrefixedOpcodes.rexOf, rexBefore]
    cases prefixes.getLast? with
    | none => cases is64Bit <;> rfl
    | some byte =>
        have hrex := @isRex_iff is64Bit byte
        cases is64Bit with
        | false => rfl
        | true =>
            by_cases hbounds : 0x40 ≤ byte ∧ byte ≤ 0x4F
            · simp [hrex.mpr ⟨rfl, hbounds⟩, Option.filter, hbounds]
            · have hout : isRex true byte = false := by
                rw [Bool.eq_false_iff]
                exact fun htrue => hbounds (hrex.mp htrue).2
              simp [hout, Option.filter, hbounds]
  rw [hrexOf, hrexOf]
  cases is64Bit with
  | false => rfl
  | true => rw [h.rex rfl]

theorem contains_eq {byte : UInt8} (h : byte ∈ prefixes' ↔ byte ∈ prefixes) :
    prefixes'.contains byte = prefixes.contains byte := by
  rw [Bool.eq_iff_iff, List.contains_iff_mem, List.contains_iff_mem, h]

theorem SameInForce.locals (h : SameInForce is64Bit prefixes prefixes')
    (hprefixes : ∀ byte ∈ prefixes, IsPrefixByte is64Bit byte)
    (hprefixes' : ∀ byte ∈ prefixes', IsPrefixByte is64Bit byte) :
    prefixes'.foldl (prefixUpdate is64Bit) { fields := { is64Bit := is64Bit } } =
      prefixes.foldl (prefixUpdate is64Bit) { fields := { is64Bit := is64Bit } } := by
  have hset := prefixed_foldl is64Bit prefixes
  have hset' := prefixed_foldl is64Bit prefixes'
  have hforce := inForce_foldl hprefixes
  have hforce' := inForce_foldl hprefixes'
  generalize prefixes.foldl (prefixUpdate is64Bit) { fields := { is64Bit := is64Bit } } = locals
    at hset hforce ⊢
  generalize prefixes'.foldl (prefixUpdate is64Bit) { fields := { is64Bit := is64Bit } } = locals'
    at hset' hforce' ⊢
  have hfields : locals'.fields = locals.fields := by
    rw [hset'.fields, hset.fields, hforce'.lock, hforce.lock, hforce'.repeated, hforce.repeated,
      hforce'.segment, hforce.segment, h.rexOf, h.repeated, h.segment, contains_eq h.lock]
  have hopSize : locals'.hasOpSizePrefix = locals.hasOpSizePrefix := by
    rw [hset'.hasOpSizePrefix, hset.hasOpSizePrefix, contains_eq h.opSize]
  have haddrSize : locals'.hasAddrSizePrefix = locals.hasAddrSizePrefix := by
    rw [hset'.hasAddrSizePrefix, hset.hasAddrSizePrefix, contains_eq h.addrSize]
  have hsimd : locals'.simd = locals.simd := by rw [hset'.simd, hset.simd]
  cases locals
  cases locals'
  simp only at hfields hopSize haddrSize hsimd
  rw [hfields, hopSize, haddrSize, hsimd]

end Prefixes

section Instructions

variable {is64Bit : Bool} {source : ByteSource} {prefixes : List UInt8} {first : UInt8}

/-- The prefix loop either ends behind the first byte that is no prefix or at the limit. -/
theorem decodePrefixes_demands (hprefixes : ∀ byte ∈ prefixes, IsPrefixByte is64Bit byte)
    (hfirst : ¬ IsPrefixByte is64Bit first) :
    Demands source .empty (decodePrefixes is64Bit source) (prefixes ++ [first])
      (prefixes.foldl (prefixUpdate is64Bit) { fields := { is64Bit := is64Bit } }, first) := by
  apply @Demands.scan _ _ _ _ _ _ _ _ (prefixUpdate is64Bit) fun locals => (locals, first)
  · intro byte hbyte locals
    rw [prefixStep_eq, if_pos (isPrefixOrRex_iff.mpr (hprefixes byte hbyte))]
  · intro locals
    rw [prefixStep_eq, if_neg (mt isPrefixOrRex_iff.mp hfirst)]
  · exact le_rfl

end Instructions

/-- Two calls of `decodeLine`: each appends a row, the same but for the prefix bytes of the
machine code, or both report truncation. -/
inductive PrefixesApart (is64Bit : Bool) (contents other : AddressSpace)
    (fileOffset otherOffset vaddr : UInt64) (prefixes prefixes' : List UInt8) : Prop where
  | row {n : Nat} {row row' : Instruction} {rest : List UInt8} (hsame : SameRow row row')
      (hcode : row.machineCode = machineCodeOf (prefixes.take n ++ rest))
      (hcode' : row'.machineCode = machineCodeOf (prefixes'.take n ++ rest))
      (h : ∀ store, AppendsRow contents fileOffset n row store
        (decodeLine is64Bit contents fileOffset vaddr store))
      (h' : ∀ store, AppendsRow other otherOffset n row' store
        (decodeLine is64Bit other otherOffset vaddr store))
  | truncated
      (h : ∀ store, decodeLine is64Bit contents fileOffset vaddr store = .ok (fileOffset, store))
      (h' : ∀ store, decodeLine is64Bit other otherOffset vaddr store = .ok (otherOffset, store))

section Lines

variable {is64Bit : Bool} {contents other : AddressSpace} {fileOffset otherOffset vaddr : UInt64}
  {prefixes prefixes' continuation : List UInt8} {first : UInt8}

/-- Prefixes that leave no room for an opcode. -/
theorem appendsRow_of_overlong (hprefixes : ∀ byte ∈ prefixes, IsPrefixByte is64Bit byte)
    (hfirst : ¬ IsPrefixByte is64Bit first)
    (hcontents : contents.mappedData.drop fileOffset.toNat = prefixes ++ [first] ++ continuation)
    (hlong : 15 ≤ prefixes.length) (store : InstructionStore) :
    AppendsRow contents fileOffset 15 (overlongRow contents fileOffset) store
      (decodeLine is64Bit contents fileOffset vaddr store) := by
  have hdemands := @decodePrefixes_demands is64Bit (bytesAt contents fileOffset) _ _ hprefixes hfirst
  rcases hdemands.run (supplies_front hcontents) with ⟨hroom, -⟩ | ⟨-, later, hstop⟩
  · rw [List.length_append, List.length_singleton] at hroom
    omega
  · exact appendsRow_of_limit (bind_of_error hstop) store

/-- The prefixes leave room for the next byte. -/
theorem decodeInstruction_behind (hprefixes : ∀ byte ∈ prefixes, IsPrefixByte is64Bit byte)
    (hfirst : ¬ IsPrefixByte is64Bit first)
    (hcontents : contents.mappedData.drop fileOffset.toNat = prefixes ++ [first] ++ continuation)
    (hshort : prefixes.length < 15) :
    ∃ later : Consumed UInt8 15, later.length = prefixes.length + 1 ∧
      decodeInstruction is64Bit vaddr (bytesAt contents fileOffset) .empty =
        decodeAfterPrefixes is64Bit vaddr (bytesAt contents fileOffset)
          (prefixes.foldl (prefixUpdate is64Bit) { fields := { is64Bit := is64Bit } }, first)
          later := by
  have hroom : (Consumed.empty : Consumed UInt8 15).length + (prefixes ++ [first]).length ≤ 15 := by
    rw [Consumed.length_empty, List.length_append, List.length_singleton]
    omega
  have hrun := (decodePrefixes_demands hprefixes hfirst).reads.run hroom
    (supplies_front hcontents)
  refine ⟨Consumed.empty.append (prefixes ++ [first]) hroom, ?_, bind_of_ok hrun⟩
  rw [Consumed.length_append, Consumed.length_empty, List.length_append, List.length_singleton,
    Nat.zero_add]

theorem linesMatch_of_sameInForce
    (hprefixes : ∀ byte ∈ prefixes, IsPrefixByte is64Bit byte)
    (hprefixes' : ∀ byte ∈ prefixes', IsPrefixByte is64Bit byte)
    (hsame : SameInForce is64Bit prefixes prefixes') (hfirst : ¬ IsPrefixByte is64Bit first)
    (hcontents : contents.mappedData.drop fileOffset.toNat = prefixes ++ [first] ++ continuation)
    (hother : other.mappedData.drop otherOffset.toNat = prefixes' ++ [first] ++ continuation)
    (hshort : prefixes.length < 15) :
    LinesMatch is64Bit contents other fileOffset otherOffset vaddr 0 := by
  obtain ⟨later, hlater, hrun⟩ :=
    @decodeInstruction_behind is64Bit contents fileOffset vaddr _ _ _ hprefixes hfirst hcontents
      hshort
  obtain ⟨later', hlater', hrun'⟩ :=
    @decodeInstruction_behind is64Bit other otherOffset vaddr _ _ _ hprefixes' hfirst hother
      (by rwa [hsame.length])
  rw [hsame.locals hprefixes hprefixes'] at hrun'
  have hahead : SameAhead (bytesAt contents fileOffset) (bytesAt other otherOffset) later later' := by
    apply sameAhead_fronts hcontents hother <;> simp [hlater, hlater']
  rw [hsame.length] at hlater'
  apply linesMatch_of_matched (hlater'.trans hlater.symm)
  · rw [hrun, hrun']
    apply (decodeAfterPrefixes_alike _ (hlater.trans hlater'.symm)).matched hahead
    rw [hlater, hlater']
  · exact Or.inl rfl

/-- Of a string of prefixes only those in force matter, and how many there are. -/
theorem prefixes_in_force (is64Bit : Bool) (contents other : AddressSpace)
    (fileOffset otherOffset vaddr : UInt64) (prefixes prefixes' : List UInt8) (first : UInt8)
    (continuation : List UInt8) (hprefixes : ∀ byte ∈ prefixes, IsPrefixByte is64Bit byte)
    (hprefixes' : ∀ byte ∈ prefixes', IsPrefixByte is64Bit byte)
    (hsame : SameInForce is64Bit prefixes prefixes') (hfirst : ¬ IsPrefixByte is64Bit first)
    (hcontents : contents.mappedData.drop fileOffset.toNat = prefixes ++ first :: continuation)
    (hother : other.mappedData.drop otherOffset.toNat = prefixes' ++ first :: continuation) :
    PrefixesApart is64Bit contents other fileOffset otherOffset vaddr prefixes prefixes' ∧
      (15 ≤ prefixes.length →
        (∀ store, AppendsRow contents fileOffset 15 (overlongRow contents fileOffset) store
          (decodeLine is64Bit contents fileOffset vaddr store)) ∧
        ∀ store, AppendsRow other otherOffset 15 (overlongRow other otherOffset) store
          (decodeLine is64Bit other otherOffset vaddr store)) := by
  have hfront := hcontents.trans (List.append_cons prefixes first continuation)
  have hfront' := hother.trans (List.append_cons prefixes' first continuation)
  have hover := @appendsRow_of_overlong is64Bit contents fileOffset vaddr _ _ _ hprefixes hfirst
    hfront
  have hover' := @appendsRow_of_overlong is64Bit other otherOffset vaddr _ _ _ hprefixes' hfirst
    hfront'
  rw [hsame.length] at hover'
  refine ⟨?_, fun hlong => ⟨hover hlong, hover' hlong⟩⟩
  have hmatch : LinesMatch is64Bit contents other fileOffset otherOffset vaddr 0 := by
    rcases Nat.lt_or_ge prefixes.length 15 with hshort | hlong
    · exact linesMatch_of_sameInForce hprefixes hprefixes' hsame hfirst hfront hfront' hshort
    · exact .row (overlong_sameRow contents other fileOffset otherOffset) (hover hlong) (hover' hlong)
  cases hmatch with
  | truncated h h' => exact .truncated h h'
  | @row n row row' hrow h h' =>
      apply PrefixesApart.row hrow _ _ h h'
      · exact ((first :: continuation).take (n - prefixes.length))
      · rw [(h .empty).machineCode, hcontents, List.take_append]
      · rw [(h' .empty).machineCode, hother, List.take_append, hsame.length, Nat.add_zero]

end Lines

/-- `mov ax, cx` behind a REX.W that the operand size prefix takes out of force. -/
def rexOutOfForce : AddressSpace where
  mappedData := [0x48, 0x66, 0x89, 0xC8]
  fileSize_lt := by decide

/-- `mov ax, cx` behind two operand size prefixes. -/
def repeatedOpSize : AddressSpace where
  mappedData := [0x66, 0x66, 0x89, 0xC8]
  fileSize_lt := by decide

theorem sameInForce_rexOutOfForce : SameInForce true [0x48, 0x66] [0x66, 0x66] :=
  ⟨by decide, by decide, by decide, by decide, by decide, by decide, by decide⟩

theorem prefixes_in_force_rexOutOfForce :
    PrefixesApart true rexOutOfForce repeatedOpSize 0 0 0x1000 [0x48, 0x66] [0x66, 0x66] :=
  (prefixes_in_force true rexOutOfForce repeatedOpSize 0 0 0x1000 [0x48, 0x66] [0x66, 0x66] 0x89
    [0xC8] (by decide +kernel) (by decide +kernel) sameInForce_rexOutOfForce (by decide) rfl rfl).1

end Voidwalk.PrefixEffects

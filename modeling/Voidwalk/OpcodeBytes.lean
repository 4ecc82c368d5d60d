import Voidwalk.MemoryRows
import Voidwalk.OperandBytes

/-!
The bytes in front of a ModRM byte: the decoder takes as prefixes and opcode what the
architecture takes, and its locals hold the bits that extend the operand.
-/

namespace Voidwalk.OpcodeBytes

open Voidwalk.MappedFile
open Voidwalk.OpcodeRows
open Voidwalk.OneByteTables
open Voidwalk.InstructionRendering
open Voidwalk.InstructionDecoding
open Voidwalk.DecodeLineContract
open Voidwalk.PrefixedOpcodes
open Voidwalk.EffectiveAddress
open Voidwalk.MemoryRows
open Voidwalk.Library.Bytes
open Voidwalk.Library.CountingReader

section Prefixes

variable {source : ByteSource} {is64Bit : Bool} {prefixes : List UInt8}

theorem isPrefixByte_eq (is64Bit : Bool) (byte : UInt8) :
    isPrefixByte is64Bit byte = isPrefixOrRex is64Bit byte := by
  revert byte
  cases is64Bit
  · exact forall_byte (by decide +kernel)
  · exact forall_byte (by decide +kernel)

theorem isRexByte_eq (is64Bit : Bool) (byte : UInt8) :
    isRexByte is64Bit byte = isRex is64Bit byte := by
  revert byte
  cases is64Bit
  · exact forall_byte (by decide +kernel)
  · exact forall_byte (by decide +kernel)

theorem rexBits_eq (is64Bit : Bool) (prefixes : List UInt8) :
    rexBits is64Bit prefixes = (rexOf is64Bit prefixes).toNat % 16 := by
  rw [rexBits, rexOf]
  cases prefixes.getLast? with
  | none => rfl
  | some byte =>
      simp only [isRexByte_eq]
      split <;> rfl

theorem rexOf_false (prefixes : List UInt8) : rexOf false prefixes = 0 := by
  rw [rexOf]
  split <;> rfl

/-- The decoder takes the architecture's prefixes. -/
theorem decodePrefixes_prefixed :
    Yields source .empty (decodePrefixes is64Bit source) fun prefixed later =>
      ∃ prefixes, later.symbols = prefixes ++ [prefixed.2] ∧
        Prefixed is64Bit prefixes prefixed.1 ∧
        (∀ byte ∈ prefixes, isPrefixByte is64Bit byte = true) ∧
        isPrefixByte is64Bit prefixed.2 = false := by
  refine Yields.scan
    (I := fun locals consumed => Prefixed is64Bit consumed.symbols locals ∧
      ∀ byte ∈ consumed.symbols, isPrefixByte is64Bit byte = true)
    ?_ 15 _ (Nat.le_refl 15) ⟨prefixed_foldl is64Bit [], by simp [Consumed.empty]⟩
  rintro locals byte before after ⟨hlocals, hbefore⟩ hafter
  rw [prefixStep_eq]
  split_ifs with htaken
  · rw [hafter]
    refine ⟨hlocals.step byte, ?_⟩
    intro byte' hbyte'
    rcases List.mem_append.mp hbyte' with hmem | hlast
    · exact hbefore byte' hmem
    · rw [List.mem_singleton.mp hlast, isPrefixByte_eq]
      exact htaken
  · refine ⟨before.symbols, hafter, hlocals, hbefore, ?_⟩
    rw [isPrefixByte_eq]
    simpa using htaken

end Prefixes

section Bits

/-- The bits X and B of a REX byte. -/
theorem rexExtension_bits (rex : UInt8) :
    rex &&& 2 = UInt8.ofNat (2 * (rexExtension (rex.toNat % 16)).x) ∧
      rex &&& 1 = UInt8.ofNat (rexExtension (rex.toNat % 16)).b := by
  revert rex
  exact forall_byte (by decide +kernel)

/-- The REX byte that a VEX prefix of three bytes is folded into. -/
theorem vexExtension_bits (vex1 vex2 opcode : UInt8) (W : Bool) :
    let rex := (0x40 : UInt8) ||| (if W then 1 else 0) <<< (3 : UInt8) |||
      ((~~~vex1 >>> 5) &&& 7)
    rex &&& 2 = UInt8.ofNat (2 * (vexExtension true vex1 vex2 opcode).x) ∧
      rex &&& 1 = UInt8.ofNat (vexExtension true vex1 vex2 opcode).b := by
  simp only [vexExtension]
  revert vex1
  cases W
  · exact forall_byte (by decide +kernel)
  · exact forall_byte (by decide +kernel)

/-- The one of two bytes extends neither index nor base. -/
theorem shortVex_bits (vex1 : UInt8) :
    ((0x40 : UInt8) ||| 0 <<< (3 : UInt8) ||| ((~~~vex1 >>> 5) &&& 4)) &&& 2 = 0 ∧
      ((0x40 : UInt8) ||| 0 <<< (3 : UInt8) ||| ((~~~vex1 >>> 5) &&& 4)) &&& 1 = 0 := by
  revert vex1
  exact forall_byte (by decide +kernel)

end Bits

/-- Prefixes and opcode are behind: a ModRM byte is due, and the locals hold the bits that
extend it. -/
structure Opened (is64Bit : Bool) (source : ByteSource) (prefixes opcode : List UInt8)
    (extension : Extension) (locals : DecodeLocals) : Prop where
  skips : ∀ behind, Supplies source 0 (prefixes ++ opcode ++ behind) →
    behindOpcode is64Bit (rexBits is64Bit prefixes) (opcode ++ behind) = some (extension, behind)
  fields : locals.fields =
    { is64Bit := is64Bit
      hasLock := locals.fields.hasLock
      repPrefix := locals.fields.repPrefix
      segmentPrefix := locals.fields.segmentPrefix
      rexPrefix := locals.fields.rexPrefix
      opcode := locals.fields.opcode }
  x_lt : extension.x < 2
  b_lt : extension.b < 2
  rexX : locals.fields.rexPrefix &&& 2 = UInt8.ofNat (2 * extension.x)
  rexB : locals.fields.rexPrefix &&& 1 = UInt8.ofNat extension.b
  isGather : isGatherOpcode locals.fields.opcode locals.simd = extension.isGather
  hasAddrSizePrefix : locals.hasAddrSizePrefix = prefixes.contains 0x67

section Opcodes

variable {source : ByteSource} {consumed : Consumed UInt8 15} {is64Bit : Bool}
  {prefixes opcode : List UInt8} {locals : DecodeLocals}

theorem opened_of_prefixed (h : Prefixed is64Bit prefixes locals) (code : UInt8) (simd : Simd)
    (hvex : simd.vex = 0)
    (hskips : ∀ behind, Supplies source 0 (prefixes ++ opcode ++ behind) →
      behindOpcode is64Bit (rexBits is64Bit prefixes) (opcode ++ behind) =
        some (rexExtension (rexBits is64Bit prefixes), behind)) :
    Opened is64Bit source prefixes opcode (rexExtension (rexBits is64Bit prefixes))
      { locals with fields := { locals.fields with opcode := code }, simd := simd } := by
  have hrex : locals.fields.rexPrefix = rexOf is64Bit prefixes :=
    congrArg Fields.rexPrefix h.fields
  have hbits := rexExtension_bits (rexOf is64Bit prefixes)
  rw [← rexBits_eq, ← hrex] at hbits
  refine ⟨hskips, ?_, Nat.mod_lt _ (by decide), Nat.mod_lt _ (by decide), hbits.1, hbits.2, ?_,
    h.hasAddrSizePrefix⟩
  · dsimp only
    rw [h.fields]
  · simp [isGatherOpcode, hvex, rexExtension]

theorem decodeEscape_opened (h : Prefixed is64Bit prefixes locals)
    (hconsumed : consumed.symbols = prefixes ++ [0x0F]) :
    Yields source consumed (decodeEscape source locals) fun decoded later =>
      ∃ tail extension, later.symbols = prefixes ++ 0x0F :: tail ∧
        Opened is64Bit source prefixes (0x0F :: tail) extension decoded := by
  have hvex (map pp : UInt8) : { locals.simd with map := map, pp := pp }.vex = 0 := by
    rw [h.simd]
  rw [decodeEscape, escapedOpcode, bind_assoc]
  refine Yields.bind Yields.next fun second later _ hlater => ?_
  rw [hconsumed] at hlater
  split
  · rename_i hescape
    rw [bind_assoc]
    refine Yields.bind Yields.next fun code final _ hfinal => ?_
    rw [hlater] at hfinal
    refine Yields.pure ⟨[second, code], _, by simpa using hfinal,
      opened_of_prefixed h _ _ (hvex _ _) fun behind _ => ?_⟩
    simp [behindOpcode, hescape]
  · rename_i hplain
    refine Yields.pure ⟨[second], _, by simpa using hlater,
      opened_of_prefixed h _ _ (hvex _ _) fun behind _ => ?_⟩
    simp [behindOpcode, hplain]

theorem decodeOneByte_opened (h : Prefixed is64Bit prefixes locals) {first : UInt8}
    (hconsumed : consumed.symbols = prefixes ++ [first]) (hescape : first ≠ 0x0F)
    (hvex : ∀ behind, Supplies source 0 (prefixes ++ [first] ++ behind) →
      isVex is64Bit first behind = false) :
    Yields source consumed (decodeOneByte is64Bit locals first) fun decoded later =>
      decoded.fields.isInvalid = true ∨ ∃ tail extension,
        later.symbols = prefixes ++ first :: tail ∧
          Opened is64Bit source prefixes (first :: tail) extension decoded := by
  have hopened := @opened_of_prefixed source is64Bit prefixes [first] locals h first locals.simd
    (by rw [h.simd]) fun behind hsupplies => by simp [behindOpcode, hescape, hvex behind hsupplies]
  have hrow : ∃ row, opcodeTable.at first.toNat = .ok row := by
    obtain ⟨slot, hslot⟩ := opcodeTable.at_eq_ok (i := first.toNat) (by omega)
      (by exact_mod_cast first.toNat_lt)
    exact ⟨_, hslot⟩
  obtain ⟨row, hrow⟩ := hrow
  rw [decodeOneByte]
  split
  · refine Yields.bind (P := fun _ later => later = consumed) (Yields.attempt hrow rfl) ?_
    rintro row' later - rfl
    split
    · exact Yields.pure (Or.inl rfl)
    · exact Yields.pure (Or.inr ⟨[], _, hconsumed, hopened⟩)
  · exact Yields.pure (Or.inr ⟨[], _, hconsumed, hopened⟩)

/-- What the decoder looked at behind C4 or C5. -/
structure LookedAt (is64Bit : Bool) (source : ByteSource) (consumed : Consumed UInt8 15)
    (opens : Bool) : Prop where
  longMode : is64Bit = true → opens = true
  legacyMode : is64Bit = false →
    ∃ second, source consumed.length = .ok second ∧ opens = decide (second ≥ 0xC0)

theorem opensVex_lookedAt :
    Yields source consumed (opensVex is64Bit source) fun opens later =>
      later = consumed ∧ LookedAt is64Bit source consumed opens := by
  rw [opensVex]
  cases is64Bit with
  | true =>
      refine Yields.pure ⟨rfl, fun _ => rfl, fun hlegacy => ?_⟩
      contradiction
  | false =>
      refine Yields.bind Yields.peek fun second later _ hsecond => Yields.pure ?_
      obtain ⟨rfl, hsecond⟩ := hsecond
      refine ⟨rfl, fun hlong => ?_, fun _ => ⟨second, hsecond, rfl⟩⟩
      contradiction

/-- The architecture sees a VEX prefix where the decoder does. -/
theorem LookedAt.isVex_eq {opens : Bool} (h : LookedAt is64Bit source consumed opens)
    {first : UInt8} (hfirst : first = 0xC4 ∨ first = 0xC5)
    (hconsumed : consumed.symbols = prefixes ++ [first]) {second : UInt8} {behind : List UInt8}
    (hsupplies : Supplies source 0 (prefixes ++ [first] ++ second :: behind)) :
    isVex is64Bit first (second :: behind) = opens := by
  have hopcode : (first == 0xC4 || first == 0xC5) = true := by
    simpa using hfirst
  rw [isVex, hopcode, Bool.true_and]
  cases hmode : is64Bit with
  | true => exact (h.longMode hmode).symm
  | false =>
      obtain ⟨looked, hlooked, hopens⟩ := h.legacyMode hmode
      have hsecond := hsupplies (prefixes ++ [first]).length second (by simp)
      rw [Nat.zero_add, ← hconsumed, hlooked] at hsecond
      rw [hopens, ← Except.ok.inj hsecond]
      simp [UInt8.le_iff_toNat_le]

theorem LookedAt.isVex_false (h : LookedAt is64Bit source consumed false) {first : UInt8}
    (hfirst : first = 0xC4 ∨ first = 0xC5) (hconsumed : consumed.symbols = prefixes ++ [first])
    {behind : List UInt8} (hsupplies : Supplies source 0 (prefixes ++ [first] ++ behind)) :
    isVex is64Bit first behind = false := by
  cases behind with
  | nil =>
      have hmode : is64Bit = false := by
        by_contra htrue
        exact absurd (h.longMode (by simpa using htrue)) (by decide)
      simp [isVex, hmode]
  | cons second behind => exact h.isVex_eq hfirst hconsumed hsupplies

theorem threeByteVex_opened (h : Prefixed is64Bit prefixes locals) (vex1 vex2 code : UInt8)
    (hvex : ∀ behind, Supplies source 0 (prefixes ++ [0xC4] ++ vex1 :: behind) →
      isVex is64Bit 0xC4 (vex1 :: behind) = true) :
    Opened is64Bit source prefixes [0xC4, vex1, vex2, code]
      (vexExtension is64Bit vex1 vex2 code)
      { vexPrefix is64Bit locals 0xC4 vex1 vex2 with
        fields := { (vexPrefix is64Bit locals 0xC4 vex1 vex2).fields with opcode := code } } := by
  have hrex : is64Bit = false → locals.fields.rexPrefix = 0 := by
    rintro rfl
    rw [← rexOf_false prefixes]
    exact congrArg Fields.rexPrefix h.fields
  refine ⟨?_, ?_, ?_, ?_, ?_, ?_, ?_, h.hasAddrSizePrefix⟩
  · intro behind hsupplies
    simp [behindOpcode, hvex (vex2 :: code :: behind) (by simpa using hsupplies)]
  · dsimp only [vexPrefix]
    rw [h.fields]
  · rw [vexExtension]
    dsimp only
    split <;> omega
  · rw [vexExtension]
    dsimp only
    split <;> omega
  · cases is64Bit with
    | true => exact (vexExtension_bits vex1 vex2 code (vex2 &&& 0x80 != 0)).1
    | false => simp [vexPrefix, vexExtension, hrex rfl]
  · cases is64Bit with
    | true => exact (vexExtension_bits vex1 vex2 code (vex2 &&& 0x80 != 0)).2
    | false => simp [vexPrefix, vexExtension, hrex rfl]
  · have hmap : (vex1 &&& 0x1F).toNat = vex1.toNat % 32 := by
      rw [UInt8.toNat_and]
      exact Nat.and_two_pow_sub_one_eq_mod vex1.toNat 5
    have hpp : (vex2 &&& 0x03).toNat = vex2.toNat % 4 := by
      rw [UInt8.toNat_and]
      exact Nat.and_two_pow_sub_one_eq_mod vex2.toNat 2
    rw [isGatherOpcode, vexExtension]
    change ((0xC4 : UInt8) != 0 && (vex1 &&& 0x1F).toNat == 2 && (vex2 &&& 0x03).toNat == 1 && _ &&
      _) = _
    rw [hmap, hpp]
    rfl

theorem twoByteVex_opened (h : Prefixed is64Bit prefixes locals) (vex1 code : UInt8)
    (hvex : ∀ behind, Supplies source 0 (prefixes ++ [0xC5] ++ vex1 :: behind) →
      isVex is64Bit 0xC5 (vex1 :: behind) = true) :
    Opened is64Bit source prefixes [0xC5, vex1, code] {}
      { vexPrefix is64Bit locals 0xC5 vex1 vex1 with
        fields := { (vexPrefix is64Bit locals 0xC5 vex1 vex1).fields with opcode := code } } := by
  have hrex : is64Bit = false → locals.fields.rexPrefix = 0 := by
    rintro rfl
    rw [← rexOf_false prefixes]
    exact congrArg Fields.rexPrefix h.fields
  refine ⟨?_, ?_, by decide, by decide, ?_, ?_, ?_, h.hasAddrSizePrefix⟩
  · intro behind hsupplies
    simp [behindOpcode, hvex (code :: behind) (by simpa using hsupplies)]
  · dsimp only [vexPrefix]
    rw [h.fields]
  · cases is64Bit with
    | true => exact (shortVex_bits vex1).1
    | false => simp [vexPrefix, hrex rfl]
  · cases is64Bit with
    | true => exact (shortVex_bits vex1).2
    | false => simp [vexPrefix, hrex rfl]
  · simp [isGatherOpcode, vexPrefix]

theorem decodeVex_opened (h : Prefixed is64Bit prefixes locals)
    (hlooked : LookedAt is64Bit source consumed true) {first : UInt8}
    (hfirst : first = 0xC4 ∨ first = 0xC5) (hconsumed : consumed.symbols = prefixes ++ [first]) :
    Yields source consumed (decodeVex is64Bit source locals first) fun decoded later =>
      decoded.fields.isInvalid = true ∨ ∃ tail extension,
        later.symbols = prefixes ++ first :: tail ∧
          Opened is64Bit source prefixes (first :: tail) extension decoded := by
  have hvex (vex1 : UInt8) (behind : List UInt8)
      (hsupplies : Supplies source 0 (prefixes ++ [first] ++ vex1 :: behind)) :
      isVex is64Bit first (vex1 :: behind) = true :=
    hlooked.isVex_eq hfirst hconsumed hsupplies
  rw [decodeVex]
  refine Yields.bind Yields.next fun vex1 later _ hlater => ?_
  rw [hconsumed] at hlater
  rcases hfirst with rfl | rfl
  · rw [if_pos rfl]
    refine Yields.bind Yields.next fun vex2 later' _ hlater' => ?_
    rw [hlater] at hlater'
    dsimp only
    split
    · exact Yields.pure (Or.inl rfl)
    · refine Yields.bind Yields.next fun code final _ hfinal => Yields.pure (Or.inr ?_)
      rw [hlater'] at hfinal
      exact ⟨[vex1, vex2, code], _, by simpa using hfinal,
        threeByteVex_opened h vex1 vex2 code (hvex vex1)⟩
  · rw [if_neg (by decide), pure_bind]
    dsimp only
    split
    · exact Yields.pure (Or.inl rfl)
    · refine Yields.bind Yields.next fun code final _ hfinal => Yields.pure (Or.inr ?_)
      rw [hlater] at hfinal
      exact ⟨[vex1, code], _, by simpa using hfinal, twoByteVex_opened h vex1 code (hvex vex1)⟩

/-- The decoder takes the architecture's opcode, or rejects the instruction. -/
theorem decodeOpcode_opened {prefixed : DecodeLocals × UInt8}
    (h : Prefixed is64Bit prefixes prefixed.1)
    (hconsumed : consumed.symbols = prefixes ++ [prefixed.2]) :
    Yields source consumed (decodeOpcode is64Bit source prefixed) fun decoded later =>
      decoded.fields.isInvalid = true ∨ ∃ tail extension,
        later.symbols = prefixes ++ prefixed.2 :: tail ∧
          Opened is64Bit source prefixes (prefixed.2 :: tail) extension decoded := by
  obtain ⟨locals, first⟩ := prefixed
  rw [decodeOpcode]
  split
  · rename_i hescape
    obtain rfl : first = 0x0F := hescape
    exact (decodeEscape_opened h hconsumed).mono fun _ _ _ hdecoded => Or.inr hdecoded
  rename_i hescape
  split
  · rename_i hfirst
    refine Yields.bind opensVex_lookedAt fun opens later _ hlooked => ?_
    obtain ⟨rfl, hlooked⟩ := hlooked
    cases opens with
    | true => exact decodeVex_opened h hlooked hfirst hconsumed
    | false =>
        refine decodeOneByte_opened h hconsumed hescape fun behind hsupplies => ?_
        exact hlooked.isVex_false hfirst hconsumed hsupplies
  · rename_i hfirst
    refine decodeOneByte_opened h hconsumed hescape fun behind _ => ?_
    rw [not_or] at hfirst
    rw [isVex, beq_eq_false_iff_ne.mpr hfirst.1, beq_eq_false_iff_ne.mpr hfirst.2]
    rfl

end Opcodes

end Voidwalk.OpcodeBytes

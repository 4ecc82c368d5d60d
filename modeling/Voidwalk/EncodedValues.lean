import Mathlib.Algebra.Order.Ring.Int
import Mathlib.Tactic.Linarith
import Mathlib.Tactic.Ring
import Voidwalk.FileFields
import Voidwalk.InstructionDecoding

/-!
The numbers that displacements and immediates encode, and what `readLittleEndian` and
`signExtend` make of their bytes.
-/

namespace Voidwalk.EncodedValues

open Voidwalk.MappedFile
open Voidwalk.MappedFile.AddressSpace
open Voidwalk.FileFields
open Voidwalk.InstructionRendering
open Voidwalk.InstructionDecoding
open Voidwalk.Library.CountingReader

/-- The bytes read as a number in two's complement. -/
def signedValue (bytes : List UInt8) : Int :=
  Int.bmod (littleEndian bytes) (256 ^ bytes.length)

section Reading

variable {source : ByteSource} {consumed : Consumed UInt8 15}

/-- A byte that is put above the bytes before it does not disturb them. -/
theorem or_shiftLeft (bytes : List UInt8) (byte : UInt8) (hwidth : bytes.length < 8) :
    UInt64.ofNat (littleEndian bytes) ||| byte.toUInt64 <<< UInt64.ofNat (8 * bytes.length) =
      UInt64.ofNat (littleEndian (bytes ++ [byte])) := by
  have hlow := littleEndian_lt bytes
  have hpow : 256 ^ bytes.length = 2 ^ (8 * bytes.length) := by
    rw [Nat.pow_mul]
  have hwhole : littleEndian (bytes ++ [byte]) < 2 ^ 64 := by
    refine Nat.lt_of_lt_of_le (littleEndian_lt _) ?_
    rw [List.length_append, List.length_singleton, show (256 : Nat) = 2 ^ 8 from rfl, ← Nat.pow_mul]
    exact Nat.pow_le_pow_right (by decide) (by omega)
  have happend : littleEndian (bytes ++ [byte]) =
      byte.toNat <<< (8 * bytes.length) + littleEndian bytes := by
    rw [littleEndian_append, Nat.shiftLeft_eq, ← hpow, littleEndian, littleEndian]
    ring
  have hlow64 : littleEndian bytes < 2 ^ 64 :=
    Nat.lt_of_le_of_lt (happend ▸ Nat.le_add_left _ _) hwhole
  have hshift : byte.toNat <<< (8 * bytes.length) < 2 ^ 64 :=
    Nat.lt_of_le_of_lt (happend ▸ Nat.le_add_right _ _) hwhole
  apply UInt64.toNat_inj.mp
  rw [UInt64.toNat_or, UInt64.toNat_shiftLeft, UInt8.toNat_toUInt64,
    UInt64.toNat_ofNat_of_lt' hlow64, UInt64.toNat_ofNat_of_lt' (by rw [UInt64.size]; omega),
    UInt64.toNat_ofNat_of_lt' hwhole, Nat.mod_eq_of_lt (b := 64) (by omega),
    Nat.mod_eq_of_lt hshift, happend, Nat.shiftLeft_add_eq_or_of_lt (hpow ▸ hlow), Nat.or_comm]

theorem readLittleEndian_succ (source : ByteSource) (byteCount : Nat) :
    readLittleEndian source (byteCount + 1) =
      (do
        let value ← readLittleEndian source byteCount
        let byte ← next source
        pure (value ||| byte.toUInt64 <<< UInt64.ofNat (8 * byteCount))) := by
  simp only [readLittleEndian, List.range_succ, List.foldlM_append, List.foldlM_cons,
    List.foldlM_nil, bind_pure]

theorem readLittleEndian_reads (bytes : List UInt8) (hwidth : bytes.length ≤ 8) :
    Reads source consumed (readLittleEndian source bytes.length) bytes
      (UInt64.ofNat (littleEndian bytes)) := by
  induction bytes using List.reverseRecOn with
  | nil => exact Reads.pure
  | append_singleton bytes byte ih =>
      rw [List.length_append, List.length_singleton] at hwidth ⊢
      rw [readLittleEndian_succ, ← or_shiftLeft bytes byte (by omega)]
      refine Reads.bind (ih (by omega)) fun h => ?_
      exact Reads.bind Reads.next fun _ => Reads.pure

theorem readLittleEndian_value {byteCount : Nat} (hwidth : byteCount ≤ 8) :
    Yields source consumed (readLittleEndian source byteCount) fun value later =>
      ∃ bytes, bytes.length = byteCount ∧ later.symbols = consumed.symbols ++ bytes ∧
        value = UInt64.ofNat (littleEndian bytes) := by
  induction byteCount with
  | zero => exact Yields.pure ⟨[], rfl, by simp, rfl⟩
  | succ byteCount ih =>
      rw [readLittleEndian_succ]
      refine Yields.bind (ih (by omega)) fun value later _ hvalue => ?_
      obtain ⟨bytes, rfl, hbytes, rfl⟩ := hvalue
      refine Yields.bind Yields.next fun byte final _ hbyte => Yields.pure ?_
      refine ⟨bytes ++ [byte], by simp, ?_, or_shiftLeft bytes byte (by omega)⟩
      rw [hbyte, hbytes, List.append_assoc]

end Reading

theorem bmod_mul_right (value : Int) (half : Nat) {factor : Nat} (hfactor : 0 < factor) :
    (value * factor).bmod (2 * half * factor) = value.bmod (2 * half) * factor := by
  have hpos : (0 : Int) < factor := by exact_mod_cast hfactor
  have hmod : value * factor % ((2 * half * factor : Nat) : Int) =
      value % ((2 * half : Nat) : Int) * factor := by
    rw [Nat.cast_mul, mul_comm value, mul_comm (_ : Int) (factor : Int),
      Int.mul_emod_mul_of_pos _ _ hpos, mul_comm]
  have hhalf : (((2 * half * factor : Nat) : Int) + 1) / 2 = (half : Int) * factor := by
    push_cast
    rw [show (2 : Int) * half * factor + 1 = 1 + half * factor * 2 by ring,
      Int.add_mul_ediv_right _ _ (by decide)]
    norm_num
  have hhalf' : (((2 * half : Nat) : Int) + 1) / 2 = half := by
    omega
  rw [Int.bmod_def, Int.bmod_def, hmod, hhalf, hhalf']
  simp only [Int.mul_lt_mul_right hpos]
  split
  · rfl
  · push_cast
    ring

theorem toNat_shift (width : Fin 9) (hwidth : 0 < width) :
    ((Int64.ofNat (64 - 8 * width)).toBitVec.smod 64).toNat = 64 - 8 * width := by
  decide +revert

theorem toNat_shifted {bytes : List UInt8} (hpos : 0 < bytes.length)
    (hwidth : bytes.length ≤ 8) :
    (UInt64.ofNat (littleEndian bytes) <<< UInt64.ofNat (64 - 8 * bytes.length)).toNat =
      littleEndian bytes * 2 ^ (64 - 8 * bytes.length) := by
  have hvalue := littleEndian_lt bytes
  have hpow : 256 ^ bytes.length * 2 ^ (64 - 8 * bytes.length) = 2 ^ 64 := by
    rw [show (256 : Nat) = 2 ^ 8 from rfl, ← Nat.pow_mul, ← Nat.pow_add]
    congr 1
    omega
  have hbound : littleEndian bytes < 2 ^ 64 :=
    hvalue.trans_le (hpow ▸ Nat.le_mul_of_pos_right _ (Nat.two_pow_pos _))
  have hshifted : littleEndian bytes * 2 ^ (64 - 8 * bytes.length) < 2 ^ 64 :=
    hpow ▸ Nat.mul_lt_mul_of_pos_right hvalue (Nat.two_pow_pos _)
  rw [UInt64.toNat_shiftLeft, UInt64.toNat_ofNat_of_lt' hbound,
    UInt64.toNat_ofNat_of_lt' (by rw [UInt64.size]; omega), Nat.mod_eq_of_lt (b := 64) (by omega),
    Nat.shiftLeft_eq, Nat.mod_eq_of_lt hshifted]

theorem toInt_signExtend {bytes : List UInt8} (hpos : 0 < bytes.length)
    (hwidth : bytes.length ≤ 8) :
    (signExtend (UInt64.ofNat (littleEndian bytes)) bytes.length).toInt = signedValue bytes := by
  have hamount : ((Int64.ofNat (64 - 8 * bytes.length)).toBitVec.smod 64).toNat =
      64 - 8 * bytes.length :=
    toNat_shift ⟨bytes.length, by omega⟩ hpos
  have hfactor : (0 : Int) < (2 ^ (64 - 8 * bytes.length) : Nat) := by
    exact_mod_cast Nat.two_pow_pos _
  have hmodulus : 2 ^ 64 = 2 * (128 * 256 ^ (bytes.length - 1)) * 2 ^ (64 - 8 * bytes.length) := by
    rw [show (256 : Nat) = 2 ^ 8 from rfl, show (128 : Nat) = 2 ^ 7 from rfl, ← Nat.pow_mul,
      ← Nat.pow_add, ← Nat.pow_succ', ← Nat.pow_add]
    congr 1
    omega
  have hwhole : 256 ^ bytes.length = 2 * (128 * 256 ^ (bytes.length - 1)) := by
    rw [← Nat.mul_assoc, ← Nat.pow_succ', Nat.succ_eq_add_one, Nat.sub_add_cancel hpos]
  calc (signExtend (UInt64.ofNat (littleEndian bytes)) bytes.length).toInt
      = (UInt64.ofNat (littleEndian bytes) <<<
          UInt64.ofNat (64 - 8 * bytes.length)).toBitVec.toInt >>> (64 - 8 * bytes.length) := by
        rw [signExtend, Int64.toInt, Int64.toBitVec_shiftRight, BitVec.sshiftRight_eq',
          BitVec.toInt_sshiftRight, hamount]
        rfl
    _ = ((littleEndian bytes : Int) * (2 ^ (64 - 8 * bytes.length) : Nat)).bmod (2 ^ 64) >>>
          (64 - 8 * bytes.length) := by
        rw [BitVec.toInt_eq_toNat_bmod, UInt64.toNat_toBitVec, toNat_shifted hpos hwidth,
          Nat.cast_mul]
    _ = signedValue bytes := by
        rw [hmodulus, bmod_mul_right _ _ (Nat.two_pow_pos _), Int.shiftRight_eq_div_pow,
          Int.mul_ediv_cancel _ hfactor.ne', signedValue, hwhole]

theorem toNat_toUInt64 (value : Int64) : (value.toUInt64.toNat : Int) = value.toInt % 2 ^ 64 := by
  have hemod := @Int.bmod_emod value.toBitVec.toNat (2 ^ 64)
  have hlt := value.toBitVec.isLt
  rw [Int64.toInt, BitVec.toInt_eq_toNat_bmod, ← UInt64.toNat_toBitVec, Int64.toBitVec_toUInt64]
  omega

theorem toNat_and_mask (value : UInt64) {bits : Nat} (hbits : bits = 16 ∨ bits = 32 ∨ bits = 64) :
    (value &&& mask bits).toNat = value.toNat % 2 ^ bits := by
  have hmask : (mask bits).toNat = 2 ^ bits - 1 := by
    rcases hbits with rfl | rfl | rfl <;> decide
  rw [UInt64.toNat_and, hmask, Nat.and_two_pow_sub_one_eq_mod]

end Voidwalk.EncodedValues

import Mathlib.Algebra.BigOperators.Ring.Finset
import Voidwalk.FileFields

/-!
`read_u8` to `read_u64` against the unbounded arithmetic of their bounds and the bytes of the
file.
-/

namespace Voidwalk.BoundedReads

open Voidwalk.MappedFile
open Voidwalk.MappedFile.AddressSpace
open Voidwalk.FileFields

/-- The widths that there are reads for. -/
inductive Width where
  | one | two | four | eight
  deriving DecidableEq, Repr

def Width.bytes : Width → Nat
  | .one => 1
  | .two => 2
  | .four => 4
  | .eight => 8

/-- The number that the read of a width returns. -/
def readWidth (contents : AddressSpace) : Width → UInt64 → Except Thrown Nat
  | .one, offset => (contents.readU8 offset).map UInt8.toNat
  | .two, offset => (contents.readU16 offset).map UInt16.toNat
  | .four, offset => (contents.readU32 offset).map UInt32.toNat
  | .eight, offset => (contents.readU64 offset).map UInt64.toNat

/-- A read throws if and only if the file ends before it does; else it is the sum of its byte
reads, and it succeeds if and only if they all do. -/
structure ReadsExactly (contents : AddressSpace) (width : Width) (offset : UInt64) : Prop where
  throws_iff : (∃ what, readWidth contents width offset = .error (.lengthError what)) ↔
    contents.mappedData.length < offset.toNat + width.bytes
  value_eq : offset.toNat + width.bytes ≤ contents.mappedData.length →
    ∃ byte : Nat → UInt8,
      (∀ i < width.bytes, contents.readU8 (offset + UInt64.ofNat i) = .ok (byte i)) ∧
        readWidth contents width offset =
          .ok (∑ i ∈ Finset.range width.bytes, (byte i).toNat * 256 ^ i)
  succeeds_iff : (∃ value, readWidth contents width offset = .ok value) ↔
    ∀ i < width.bytes, ∃ byte, contents.readU8 (offset + UInt64.ofNat i) = .ok byte

section Values

theorem littleEndian_eq_sum (bytes : List UInt8) :
    littleEndian bytes = ∑ i ∈ Finset.range bytes.length, (bytes.getD i 0).toNat * 256 ^ i := by
  induction bytes with
  | nil => rfl
  | cons byte bytes ih =>
      have hshift (i : Nat) : ((byte :: bytes).getD (i + 1) 0).toNat * 256 ^ (i + 1) =
          256 * ((bytes.getD i 0).toNat * 256 ^ i) := by
        rw [List.getD_cons_succ, Nat.pow_succ, ← Nat.mul_assoc, Nat.mul_comm]
      rw [littleEndian, ih, List.length_cons, Finset.sum_range_succ', Finset.mul_sum]
      simp only [hshift, List.getD_cons_zero, Nat.pow_zero, Nat.mul_one]
      exact Nat.add_comm _ _

variable {contents : AddressSpace} {width : Width} {offset : UInt64}

theorem bytes_pos (width : Width) : 0 < width.bytes := by
  cases width <;> decide

/-- Every width is `readType` at it: the number is not cut. -/
theorem readWidth_eq (contents : AddressSpace) (width : Width) (offset : UInt64) :
    readWidth contents width offset = contents.readType (UInt64.ofNat width.bytes) offset := by
  have hcut (sizeof : UInt64) (convert : Nat → Nat)
      (hconvert : ∀ value < 256 ^ sizeof.toNat, convert value = value) :
      (contents.readType sizeof offset).map convert = contents.readType sizeof offset := by
    rw [readType]
    split
    · rfl
    · refine congrArg Except.ok (hconvert _ ((littleEndian_lt _).trans_le ?_))
      exact Nat.pow_le_pow_right (by decide) (List.length_take_le _ _)
  have hmap {α : Type} (result : Except Thrown Nat) (f : Nat → α) (g : α → Nat) :
      (result.map f).map g = result.map (g ∘ f) := by
    cases result with
    | error thrown => rfl
    | ok value => rfl
  cases width with
  | one =>
      rw [readWidth, readU8, hmap]
      exact hcut 1 _ fun value hvalue => UInt8.toNat_ofNat_of_lt' hvalue
  | two =>
      rw [readWidth, readU16, hmap]
      exact hcut 2 _ fun value hvalue => UInt16.toNat_ofNat_of_lt' hvalue
  | four =>
      rw [readWidth, readU32, hmap]
      exact hcut 4 _ fun value hvalue => UInt32.toNat_ofNat_of_lt' hvalue
  | eight =>
      rw [readWidth, readU64, hmap]
      exact hcut 8 _ fun value hvalue => UInt64.toNat_ofNat_of_lt' hvalue

end Values

section Reads

variable {contents : AddressSpace} {width : Width} {offset : UInt64}

theorem toNat_bytes (width : Width) : (UInt64.ofNat width.bytes).toNat = width.bytes := by
  cases width <;> decide

theorem readWidth_of_lt (h : contents.mappedData.length < offset.toNat + width.bytes) :
    readWidth contents width offset = .error (.lengthError "[voidwalk] : Invalid offset.\n") := by
  rw [readWidth_eq, readType, if_pos]
  rwa [readType_eq_error_iff, toNat_bytes]

theorem readU8_within (h : offset.toNat + width.bytes ≤ contents.mappedData.length) {i : Nat}
    (hi : i < width.bytes) :
    contents.readU8 (offset + UInt64.ofNat i) =
      .ok (contents.mappedData.getD (offset.toNat + i) 0) := by
  have hsize := contents.fileSize_lt
  have hinside : offset.toNat + i < contents.mappedData.length := by omega
  have haddress : (offset + UInt64.ofNat i).toNat = offset.toNat + i :=
    toNat_add_ofNat (by omega)
  rw [readU8_of_lt _ _ (by omega), List.getD_eq_getElem?_getD,
    List.getElem?_eq_getElem hinside]
  simp only [haddress, Option.getD_some]

theorem readWidth_of_le (h : offset.toNat + width.bytes ≤ contents.mappedData.length) :
    readWidth contents width offset = .ok (∑ i ∈ Finset.range width.bytes,
      (contents.mappedData.getD (offset.toNat + i) 0).toNat * 256 ^ i) := by
  have hlength : ((contents.mappedData.drop offset.toNat).take width.bytes).length =
      width.bytes := by
    rw [List.length_take, List.length_drop]
    omega
  rw [readWidth_eq, readType, if_neg, toNat_bytes, littleEndian_eq_sum, hlength]
  · refine congrArg Except.ok (Finset.sum_congr rfl fun i hi => ?_)
    rw [List.getD_eq_getElem?_getD, List.getD_eq_getElem?_getD,
      List.getElem?_take_of_lt (Finset.mem_range.mp hi), List.getElem?_drop]
  · rw [readType_eq_error_iff, toNat_bytes]
    omega

/-- Where a read runs over the end, one of its byte reads does: the offset that wraps comes
behind one that is outside. -/
theorem exists_outside (h : contents.mappedData.length < offset.toNat + width.bytes) :
    ∃ i < width.bytes, contents.readU8 (offset + UInt64.ofNat i) =
      .error (.lengthError "[voidwalk] : Invalid offset.\n") := by
  have hpos := bytes_pos width
  have hsize := contents.fileSize_lt
  have hoffset := offset.toNat_lt
  refine ⟨contents.mappedData.length - offset.toNat, by omega, readU8_of_le _ _ ?_⟩
  by_cases hle : offset.toNat ≤ contents.mappedData.length
  · rw [toNat_add_ofNat (by omega)]
    omega
  · have hzero : contents.mappedData.length - offset.toNat = 0 := by omega
    rw [hzero, toNat_add_ofNat (by omega)]
    omega

end Reads

/-- The reads are exact at every offset, also where offset and width wrap. -/
theorem reads_exactly (contents : AddressSpace) (width : Width) (offset : UInt64) :
    ReadsExactly contents width offset := by
  rcases Nat.lt_or_ge contents.mappedData.length (offset.toNat + width.bytes) with hout | hin
  · have hread := readWidth_of_lt hout
    refine ⟨iff_of_true ⟨_, hread⟩ hout, fun hin => absurd hout (by omega), iff_of_false ?_ ?_⟩
    · rintro ⟨value, hvalue⟩
      rw [hread] at hvalue
      contradiction
    · intro hbytes
      obtain ⟨i, hi, hthrown⟩ := exists_outside hout
      obtain ⟨byte, hbyte⟩ := hbytes i hi
      rw [hthrown] at hbyte
      contradiction
  · have hread := readWidth_of_le hin
    refine ⟨iff_of_false ?_ (by omega), fun _ => ?_, iff_of_true ⟨_, hread⟩ fun i hi => ?_⟩
    · rintro ⟨what, hthrown⟩
      rw [hread] at hthrown
      contradiction
    · exact ⟨_, fun i hi => readU8_within hin hi, hread⟩
    · exact ⟨_, readU8_within hin hi⟩

end Voidwalk.BoundedReads

import Mathlib.Algebra.Ring.Nat
import Mathlib.Data.List.Basic
import Mathlib.Data.Nat.Basic

/-!
The memory-mapped file every other part of the program reads through, and the
exceptions those reads and the code above them can throw.
-/

namespace Voidwalk.MappedFile

/-- What a call ends with when it does not return. The first four are C++
exceptions; `outOfRange` is an array indexed outside its bounds, which in C++
is undefined behaviour and therefore caught by nothing. -/
inductive Thrown where
  | lengthError (what : String)
  | runtimeError (what : String)
  | fileChanged (what : String)
  | badAlloc
  | outOfRange
  deriving DecidableEq, Repr

def Thrown.what : Thrown → String
  | .lengthError what | .runtimeError what | .fileChanged what => what
  | .badAlloc => "std::bad_alloc"
  | .outOfRange => ""

theorem ok_of_bind {α β : Type} {result : Except Thrown α} {rest : α → Except Thrown β} {value : β}
    (h : result >>= rest = .ok value) : ∃ first, result = .ok first ∧ rest first = .ok value := by
  cases result with
  | error exception => contradiction
  | ok first => exact ⟨first, rfl, h⟩

theorem toNat_add_ofNat {offset : UInt64} {n : Nat} (h : offset.toNat + n < 2 ^ 64) :
    (offset + UInt64.ofNat n).toNat = offset.toNat + n := by
  rw [UInt64.toNat_add, UInt64.toNat_ofNat_of_lt' (by rw [UInt64.size]; omega)]
  omega

/-- One NOP fits in a file. -/
theorem length_nop : [(0x90 : UInt8)].length < 2 ^ 64 := by decide

/-- A binary file mapped read-only, addressed by file offset. -/
structure AddressSpace where
  mappedData : List UInt8
  fileSize_lt : mappedData.length < 2 ^ 64

namespace AddressSpace

def size (contents : AddressSpace) : UInt64 :=
  UInt64.ofNat contents.mappedData.length

@[simp] theorem toNat_size (contents : AddressSpace) :
    contents.size.toNat = contents.mappedData.length := by
  simpa [size] using Nat.mod_eq_of_lt contents.fileSize_lt

def littleEndian : List UInt8 → Nat
  | [] => 0
  | byte :: bytes => byte.toNat + 256 * littleEndian bytes

/-- Reads `sizeof` bytes at `offset`. The check subtracts, so it cannot wrap. -/
def readType (contents : AddressSpace) (sizeof : UInt64) (offset : UInt64) :
    Except Thrown Nat :=
  if contents.size < offset || contents.size - offset < sizeof then
    .error (.lengthError "[voidwalk] : Invalid offset.\n")
  else
    .ok (littleEndian ((contents.mappedData.drop offset.toNat).take sizeof.toNat))

def readU8 (contents : AddressSpace) (offset : UInt64) : Except Thrown UInt8 :=
  (contents.readType 1 offset).map UInt8.ofNat

def readU16 (contents : AddressSpace) (offset : UInt64) : Except Thrown UInt16 :=
  (contents.readType 2 offset).map UInt16.ofNat

def readU32 (contents : AddressSpace) (offset : UInt64) : Except Thrown UInt32 :=
  (contents.readType 4 offset).map UInt32.ofNat

def readU64 (contents : AddressSpace) (offset : UInt64) : Except Thrown UInt64 :=
  (contents.readType 8 offset).map UInt64.ofNat

/-- The bounds check of `readType` is the unbounded comparison. -/
theorem readType_eq_error_iff (contents : AddressSpace) (sizeof offset : UInt64) :
    (contents.size < offset || contents.size - offset < sizeof) = true ↔
      contents.mappedData.length < offset.toNat + sizeof.toNat := by
  have hsize := contents.toNat_size
  simp only [Bool.or_eq_true, decide_eq_true_eq, UInt64.lt_iff_toNat_lt]
  by_cases hle : offset.toNat ≤ contents.mappedData.length
  · have hsub : (contents.size - offset).toNat =
        contents.mappedData.length - offset.toNat := by
      rw [UInt64.toNat_sub_of_le _ _ (by simpa [UInt64.le_iff_toNat_le] using hle), hsize]
    omega
  · omega

theorem readU8_of_lt (contents : AddressSpace) (offset : UInt64)
    (h : offset.toNat < contents.mappedData.length) :
    contents.readU8 offset = .ok contents.mappedData[offset.toNat] := by
  have hcheck : ¬ (contents.size < offset || contents.size - offset < 1) = true := by
    rw [readType_eq_error_iff]
    exact Nat.not_lt.mpr h
  have hbyte : (contents.mappedData.drop offset.toNat).take 1 =
      [contents.mappedData[offset.toNat]] := by
    rw [List.drop_eq_getElem_cons h]
    rfl
  simp only [readU8, readType, if_neg hcheck]
  simp [hbyte, littleEndian, Except.map]

theorem readU8_of_le (contents : AddressSpace) (offset : UInt64)
    (h : contents.mappedData.length ≤ offset.toNat) :
    contents.readU8 offset = .error (.lengthError "[voidwalk] : Invalid offset.\n") := by
  have hcheck : (contents.size < offset || contents.size - offset < 1) = true := by
    rw [readType_eq_error_iff]
    exact Nat.lt_succ_of_le h
  simp only [readU8, readType, if_pos hcheck]
  rfl

theorem readU8_eq_ok_iff (contents : AddressSpace) (offset : UInt64) (byte : UInt8) :
    contents.readU8 offset = .ok byte ↔
      ∃ h : offset.toNat < contents.mappedData.length,
        contents.mappedData[offset.toNat] = byte := by
  by_cases h : offset.toNat < contents.mappedData.length
  · simp [readU8_of_lt contents offset h, h]
  · simp [readU8_of_le contents offset (Nat.le_of_not_lt h), h]

theorem readU8_error {contents : AddressSpace} {offset : UInt64} {thrown : Thrown}
    (h : contents.readU8 offset = .error thrown) :
    thrown = .lengthError "[voidwalk] : Invalid offset.\n" := by
  by_cases hlt : offset.toNat < contents.mappedData.length
  · rw [readU8_of_lt contents offset hlt] at h
    contradiction
  · rw [readU8_of_le contents offset (Nat.le_of_not_lt hlt)] at h
    exact (Except.error.inj h).symm

end AddressSpace

end Voidwalk.MappedFile

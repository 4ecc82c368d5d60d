import Mathlib.Tactic.Ring
import Voidwalk.MappedFile

/-!
Fields of a file: a number in a given count of bytes, least significant first, at a
given position, and what the reads of `AddressSpace` make of it.
-/

namespace Voidwalk.FileFields

open Voidwalk.MappedFile
open Voidwalk.MappedFile.AddressSpace

/-- The `width` bytes of a number, the least significant first. -/
def encode : Nat → Nat → List UInt8
  | 0, _ => []
  | width + 1, value => UInt8.ofNat (value % 256) :: encode width (value / 256)

@[simp] theorem length_encode (width value : Nat) : (encode width value).length = width := by
  induction width generalizing value with
  | zero => rfl
  | succ width ih => simp [encode, ih]

theorem littleEndian_lt (bytes : List UInt8) : littleEndian bytes < 256 ^ bytes.length := by
  induction bytes with
  | nil => exact Nat.one_pos
  | cons byte bytes ih =>
      have hbyte := byte.toNat_lt
      rw [littleEndian, List.length_cons, Nat.pow_succ]
      omega

theorem littleEndian_append (first second : List UInt8) :
    littleEndian (first ++ second) =
      littleEndian first + 256 ^ first.length * littleEndian second := by
  induction first with
  | nil => simp [littleEndian]
  | cons byte first ih =>
      rw [List.cons_append, littleEndian, ih, littleEndian, List.length_cons, Nat.pow_succ]
      ring

theorem littleEndian_encode {width value : Nat} (h : value < 256 ^ width) :
    littleEndian (encode width value) = value := by
  induction width generalizing value with
  | zero =>
      rw [Nat.pow_zero] at h
      exact (Nat.lt_one_iff.mp h).symm
  | succ width ih =>
      have hrest : value / 256 < 256 ^ width := by
        rw [Nat.div_lt_iff_lt_mul (by decide)]
        simpa [Nat.pow_succ] using h
      rw [encode, littleEndian, ih hrest, UInt8.toNat_ofNat_of_lt' (Nat.mod_lt _ (by decide))]
      exact Nat.mod_add_div value 256

theorem encode_littleEndian (bytes : List UInt8) :
    encode bytes.length (littleEndian bytes) = bytes := by
  induction bytes with
  | nil => rfl
  | cons byte bytes ih =>
      have hbyte := byte.toNat_lt
      have hlow : (littleEndian (byte :: bytes)) % 256 = byte.toNat := by
        rw [littleEndian]
        omega
      have hhigh : (littleEndian (byte :: bytes)) / 256 = littleEndian bytes := by
        rw [littleEndian]
        omega
      rw [List.length_cons, encode, hlow, hhigh, ih, UInt8.ofNat_toNat]

/-- The file has these bytes at this position. -/
def Holds (contents : AddressSpace) (position : Nat) (bytes : List UInt8) : Prop :=
  (contents.mappedData.drop position).take bytes.length = bytes

instance (contents : AddressSpace) (position : Nat) (bytes : List UInt8) :
    Decidable (Holds contents position bytes) :=
  inferInstanceAs (Decidable (_ = _))

section Holds

variable {contents : AddressSpace} {position : Nat} {bytes later : List UInt8}

theorem Holds.left (h : Holds contents position (bytes ++ later)) :
    Holds contents position bytes := by
  have hleft := congrArg (List.take bytes.length) h
  rw [List.take_take, List.length_append, Nat.min_eq_left (Nat.le_add_right _ _),
    List.take_left] at hleft
  exact hleft

theorem Holds.right (h : Holds contents position (bytes ++ later)) :
    Holds contents (position + bytes.length) later := by
  have hright := congrArg (List.drop bytes.length) h
  rw [List.drop_left, List.length_append, List.drop_take, List.drop_drop,
    Nat.add_sub_cancel_left] at hright
  exact hright

theorem Holds.unique (h : Holds contents position bytes) (hlater : Holds contents position later)
    (hlength : bytes.length = later.length) : bytes = later := by
  rw [← h, hlength, hlater]

theorem Holds.length_le (h : Holds contents position bytes) (hne : bytes ≠ []) :
    position + bytes.length ≤ contents.mappedData.length := by
  have hlength := congrArg List.length h
  rw [List.length_take, List.length_drop] at hlength
  have hpos := List.length_pos_of_ne_nil hne
  omega

theorem Holds.toNat_ofNat (h : Holds contents position bytes) (hne : bytes ≠ []) :
    (UInt64.ofNat position).toNat = position := by
  have hle := h.length_le hne
  have hlt := contents.fileSize_lt
  apply UInt64.toNat_ofNat_of_lt'
  rw [UInt64.size]
  omega

theorem readType_of_holds {sizeof : UInt64} (h : Holds contents position bytes)
    (hlength : bytes.length = sizeof.toNat) (hne : bytes ≠ []) :
    contents.readType sizeof (UInt64.ofNat position) = .ok (littleEndian bytes) := by
  have hcheck : ¬ (contents.size < UInt64.ofNat position ||
      contents.size - UInt64.ofNat position < sizeof) = true := by
    rw [readType_eq_error_iff, h.toNat_ofNat hne, ← hlength]
    exact Nat.not_lt.mpr (h.length_le hne)
  rw [readType, if_neg hcheck, h.toNat_ofNat hne, ← hlength]
  exact congrArg (fun found => Except.ok (littleEndian found)) h

end Holds

section Fields

variable {contents : AddressSpace} {position value : Nat}

theorem readType_field {sizeof : UInt64} {width : Nat} (hwidth : sizeof.toNat = width + 1)
    (h : Holds contents position (encode (width + 1) value)) (hvalue : value < 256 ^ (width + 1)) :
    contents.readType sizeof (UInt64.ofNat position) = .ok value := by
  rw [readType_of_holds h (by rw [length_encode, hwidth]) (List.cons_ne_nil _ _),
    littleEndian_encode hvalue]

theorem readU8_field {byte : UInt8} (h : Holds contents position [byte]) :
    contents.readU8 (UInt64.ofNat position) = .ok byte := by
  rw [readU8, readType_of_holds h rfl (List.cons_ne_nil _ _)]
  simp [littleEndian, Except.map]

theorem readU16_field (h : Holds contents position (encode 2 value)) (hvalue : value < 256 ^ 2) :
    contents.readU16 (UInt64.ofNat position) = .ok (UInt16.ofNat value) := by
  rw [readU16, readType_field rfl h hvalue]
  rfl

theorem readU32_field (h : Holds contents position (encode 4 value)) (hvalue : value < 256 ^ 4) :
    contents.readU32 (UInt64.ofNat position) = .ok (UInt32.ofNat value) := by
  rw [readU32, readType_field rfl h hvalue]
  rfl

theorem readU64_field (h : Holds contents position (encode 8 value)) (hvalue : value < 256 ^ 8) :
    contents.readU64 (UInt64.ofNat position) = .ok (UInt64.ofNat value) := by
  rw [readU64, readType_field rfl h hvalue]
  rfl

end Fields

section Bounds

/-- The exception of a read outside the file. -/
def invalidOffset : Thrown :=
  .lengthError "[voidwalk] : Invalid offset.\n"

/-- A read of `width` bytes at `address` stays within the file. -/
def Inside (contents : AddressSpace) (address : UInt64) (width : Nat) : Prop :=
  address.toNat + width ≤ contents.mappedData.length

variable {contents : AddressSpace} {sizeof offset : UInt64}

theorem readType_outcome (contents : AddressSpace) (sizeof offset : UInt64) :
    (Inside contents offset sizeof.toNat ∧ ∃ value, contents.readType sizeof offset = .ok value) ∨
      ¬ Inside contents offset sizeof.toNat ∧
        contents.readType sizeof offset = .error invalidOffset := by
  have hcheck := readType_eq_error_iff contents sizeof offset
  rw [readType]
  split
  · rename_i hout
    exact Or.inr ⟨Nat.not_le.mpr (hcheck.mp hout), rfl⟩
  · rename_i hin
    exact Or.inl ⟨Nat.not_lt.mp (fun hlt => hin (hcheck.mpr hlt)), _, rfl⟩

/-- A read that converts what `readType` gives either has its bytes in the file or throws. -/
def ReadsInside {α : Type} (contents : AddressSpace) (address : UInt64) (width : Nat)
    (result : Except Thrown α) : Prop :=
  (Inside contents address width ∧ ∃ value, result = .ok value) ∨
    ¬ Inside contents address width ∧ result = .error invalidOffset

theorem ReadsInside.map {α β : Type} {address : UInt64} {width : Nat} {result : Except Thrown α}
    (h : ReadsInside contents address width result) (f : α → β) :
    ReadsInside contents address width (result.map f) := by
  rcases h with ⟨hin, value, rfl⟩ | ⟨hout, rfl⟩
  · exact Or.inl ⟨hin, f value, rfl⟩
  · exact Or.inr ⟨hout, rfl⟩

theorem ReadsInside.inside {α : Type} {address : UInt64} {width : Nat}
    {result : Except Thrown α} {value : α} (h : ReadsInside contents address width result)
    (hok : result = .ok value) : Inside contents address width := by
  rcases h with ⟨hin, -⟩ | ⟨-, herror⟩
  · exact hin
  · rw [hok] at herror
    contradiction

theorem ReadsInside.error {α : Type} {address : UInt64} {width : Nat}
    {result : Except Thrown α} {exception : Thrown}
    (h : ReadsInside contents address width result) (herror : result = .error exception) :
    exception = invalidOffset := by
  rcases h with ⟨-, value, hok⟩ | ⟨-, hthrown⟩
  · rw [hok] at herror
    contradiction
  · exact Except.error.inj (herror.symm.trans hthrown)

theorem readU8_inside (contents : AddressSpace) (address : UInt64) :
    ReadsInside contents address 1 (contents.readU8 address) :=
  ReadsInside.map (readType_outcome contents 1 address) UInt8.ofNat

theorem readU16_inside (contents : AddressSpace) (address : UInt64) :
    ReadsInside contents address 2 (contents.readU16 address) :=
  ReadsInside.map (readType_outcome contents 2 address) UInt16.ofNat

theorem readU32_inside (contents : AddressSpace) (address : UInt64) :
    ReadsInside contents address 4 (contents.readU32 address) :=
  ReadsInside.map (readType_outcome contents 4 address) UInt32.ofNat

theorem readU64_inside (contents : AddressSpace) (address : UInt64) :
    ReadsInside contents address 8 (contents.readU64 address) :=
  ReadsInside.map (readType_outcome contents 8 address) UInt64.ofNat

end Bounds

end Voidwalk.FileFields

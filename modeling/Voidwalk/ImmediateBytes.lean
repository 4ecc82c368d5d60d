import Mathlib.Data.Int.ModEq
import Voidwalk.DecodedFields
import Voidwalk.EncodableNames
import Voidwalk.ImmediateRows

/-!
Printed immediates encode back: the values that the text of a row shows, written as fields of
the widths of their operands, are the last bytes of its machine code.
-/

namespace Voidwalk.ImmediateBytes

open Voidwalk.MappedFile
open Voidwalk.MappedFile.AddressSpace
open Voidwalk.FileFields
open Voidwalk.OpcodeRows
open Voidwalk.ThreeByteTables
open Voidwalk.RowResolution
open Voidwalk.InstructionRendering
open Voidwalk.InstructionDecoding
open Voidwalk.DecodeLineContract
open Voidwalk.SelfDelimiting
open Voidwalk.EncodedValues
open Voidwalk.MemoryRows
open Voidwalk.MemoryOperand
open Voidwalk.OperandTexts
open Voidwalk.RowTexts
open Voidwalk.DecodedFields
open Voidwalk.EncodableNames
open Voidwalk.ImmediateRows
open Voidwalk.Library.CountingReader
open Voidwalk.Library.SeparatedText
open Voidwalk.Library.SumText

section Statement

/-- The number in a text of the form `0x10`. -/
def hexNumber : List Char → Option Nat
  | '0' :: 'x' :: digits => numberOf 16 digits
  | _ => none

/-- The width in bytes of the field of an immediate. Only REX.W makes one of eight bytes. -/
def fieldWidth (fields : Fields) (operand : TableOperand) : Nat :=
  match operand.addressingMode, operand.size with
  | .O, _ => fields.addrSize / 8
  | _, .b | _, .bs => 1
  | _, .w => 2
  | _, .d => 4
  | _, .v => if rexW fields then 8 else if fields.opSize = 16 then 2 else 4
  | _, _ => if fields.opSize = 16 then 2 else 4

/-- The bytes that the text of an operand stands for in an instruction of `length` bytes at
`vaddr`. A register in the top bits of an immediate leaves the other bits open. -/
def written (fields : Fields) (vaddr : UInt64) (length : Nat) (operand : TableOperand)
    (text : List Char) : Option (List UInt8) :=
  let width := fieldWidth fields operand
  match operand.addressingMode with
  | .I => (hexNumber text).map (encode width)
  | .O => (hexNumber (before ']' (behind '[' text))).map (encode width)
  | .J => (hexNumber text).map fun target : Nat =>
      encode width (((target : Int) - vaddr.toNat - length) % 256 ^ width).toNat
  | .A => do
      let segment ← hexNumber (before ':' text)
      let offset ← hexNumber (behind ':' text)
      pure (encode width offset ++ encode 2 segment)
  | .L => none
  | _ => some []

def writtenFields (fields : Fields) (vaddr : UInt64) (length : Nat) :
    List (TableOperand × List Char) → Option (List UInt8)
  | [] => some []
  | (operand, text) :: rest => do
      let first ← written fields vaddr length operand text
      let later ← writtenFields fields vaddr length rest
      pure (first ++ later)

/-- The classes of immediates that are extended to the operand size: a byte marked so, and a
field of four bytes at an operand size of 64. -/
def isSigned (fields : Fields) (operand : TableOperand) : Bool :=
  operand.size == .bs || (operand.size == .z && fields.opSize == 64)

/-- The number that an immediate shows for its field. -/
def extended (fields : Fields) (operand : TableOperand) (field : List UInt8) : Int :=
  if isSigned fields operand then signedValue field % 2 ^ fields.opSize else littleEndian field

/-- The operands of a row with what its text shows for them. -/
def shownOperands (fields : Fields) (text : String) : List (TableOperand × List Char) :=
  (operandList fields.info).zip (operandTexts text.toList)

structure EncodesBack (fields : Fields) (vaddr : UInt64) (code : List UInt8) (text : String) :
    Prop where
  lastBytes : ∃ bytes, writtenFields fields vaddr code.length (shownOperands fields text) =
    some bytes ∧ bytes <:+ code
  extended : ∀ shown ∈ shownOperands fields text, shown.1.addressingMode = .I →
    ∃ value field, hexNumber shown.2 = some value ∧
      written fields vaddr code.length shown.1 shown.2 = some field ∧
      (value : Int) = extended fields shown.1 field

end Statement

section Values

theorem hexNumber_toHex (value : UInt64) : hexNumber (toHex value).toList = some value.toNat := by
  rw [MemoryText.toList_toHex]
  exact numberOf_toDigits (by decide) (by decide) _

/-- A number that ends in the digits of a field is written as that field. -/
theorem encode_of_mod {bytes : List UInt8} {value : Nat}
    (h : value % 256 ^ bytes.length = littleEndian bytes) : encode bytes.length value = bytes := by
  induction bytes generalizing value with
  | nil => rfl
  | cons byte bytes ih =>
      have hbyte := byte.toNat_lt
      rw [List.length_cons, Nat.pow_succ', Nat.mod_mul, littleEndian] at h
      have hlow : value % 256 = byte.toNat := by omega
      have hhigh : value / 256 % 256 ^ bytes.length = littleEndian bytes := by omega
      rw [List.length_cons, encode, ih hhigh, hlow, UInt8.ofNat_toNat]

/-- The value that the decoder keeps for the bytes of an immediate, the last of which is at
`consumed`. -/
def immediateValue (is64Bit : Bool) (vaddr : UInt64) (fields : Fields) (consumed : Nat)
    (operand : TableOperand) (bytes : List UInt8) : UInt64 :=
  let width := immediateSize fields operand
  let value := UInt64.ofNat (littleEndian (bytes.take width))
  if operand.addressingMode = .A then
    value ||| UInt64.ofNat (littleEndian (bytes.drop width)) <<< 32
  else if operand.addressingMode = .J then
    let target := vaddr + UInt64.ofNat consumed + (signExtend value width).toUInt64
    if is64Bit then target else target &&& mask (if fields.opSize = 16 then 16 else 32)
  else if operand.addressingMode = .I ∧
      (operand.size = .bs ∨ (operand.size = .z ∧ fields.opSize = 64)) then
    (signExtend value width).toUInt64 &&& mask fields.opSize
  else value

/-- How many bytes an immediate is read from: a far address has a segment behind its offset. -/
def fieldLength (fields : Fields) (operand : TableOperand) : Nat :=
  immediateSize fields operand + if operand.addressingMode = .A then 2 else 0

theorem immediateSize_eq (fields : Fields) (operand : TableOperand) :
    immediateSize fields operand = fieldWidth fields operand := by
  rcases operand with ⟨mode, size, value⟩
  cases mode <;> cases size <;> rfl

theorem fieldWidth_bounds {fields : Fields} (haddr : fields.addrSize ∈ [16, 32, 64])
    (operand : TableOperand) :
    0 < fieldWidth fields operand ∧ fieldWidth fields operand ≤ 8 := by
  have hsized : 0 < (if fields.opSize = 16 then 2 else 4) ∧
      (if fields.opSize = 16 then 2 else 4) ≤ 4 := by
    split
    · decide
    · decide
  rw [← immediateSize_eq, immediateSize]
  split
  · simp only [List.mem_cons, List.not_mem_nil, or_false] at haddr
    rcases haddr with h | h | h
    · rw [h]
      decide
    · rw [h]
      decide
    · rw [h]
      decide
  · split
    · decide
    · decide
    · decide
    · decide
    · split
      · decide
      · omega
    · omega

end Values

section Reading

variable {source : ByteSource} {consumed : Consumed UInt8 15} {is64Bit : Bool} {vaddr : UInt64}
  {fields : Fields}

theorem decodeImmediate_value (haddr : fields.addrSize ∈ [16, 32, 64]) (operand : TableOperand) :
    Yields source consumed (decodeImmediate is64Bit source vaddr fields operand) fun value later =>
      ∃ bytes, bytes.length = fieldLength fields operand ∧
        later.symbols = consumed.symbols ++ bytes ∧
        value = immediateValue is64Bit vaddr fields later.length operand bytes := by
  have hwidth : immediateSize fields operand ≤ 8 :=
    immediateSize_eq fields operand ▸ (fieldWidth_bounds haddr operand).2
  rw [decodeImmediate]
  refine Yields.bind (readLittleEndian_value hwidth) fun value later _ hvalue => ?_
  obtain ⟨bytes, hlength, hsymbols, rfl⟩ := hvalue
  have hplain : bytes.take (immediateSize fields operand) = bytes :=
    List.take_of_length_le hlength.le
  split
  · rename_i hfar
    refine Yields.bind (readLittleEndian_value (by decide)) fun segment final _ hsegment => ?_
    obtain ⟨behind, hbehind, hfinal, rfl⟩ := hsegment
    refine Yields.pure ⟨bytes ++ behind, ?_, ?_, ?_⟩
    · rw [List.length_append, hlength, hbehind, fieldLength, if_pos hfar]
    · rw [hfinal, hsymbols, List.append_assoc]
    · simp only [immediateValue, if_pos hfar]
      rw [List.take_left' hlength, List.drop_left' hlength]
  · rename_i hnear
    have hfield : bytes.length = fieldLength fields operand := by
      rw [hlength, fieldLength, if_neg hnear, Nat.add_zero]
    split
    · rename_i hrelative
      refine Yields.bind Yields.get fun state final hgrown hstate => ?_
      obtain ⟨rfl, rfl⟩ := hstate
      refine Yields.pure ⟨bytes, hfield, hsymbols, ?_⟩
      simp only [immediateValue, if_neg hnear, if_pos hrelative, hplain]
    · rename_i hrelative
      split
      · rename_i hsigned
        refine Yields.pure ⟨bytes, hfield, hsymbols, ?_⟩
        simp only [immediateValue, if_neg hnear, if_neg hrelative, if_pos hsigned, hplain]
      · rename_i hunsigned
        refine Yields.pure ⟨bytes, hfield, hsymbols, ?_⟩
        simp only [immediateValue, if_neg hnear, if_neg hrelative, if_neg hunsigned, hplain]

/-- Immediates and the bytes that they are read from, one behind the other from `start` on. -/
inductive Filled (is64Bit : Bool) (vaddr : UInt64) (fields : Fields) :
    Nat → List TableOperand → List (List UInt8) → List UInt64 → Prop
  | nil (start : Nat) : Filled is64Bit vaddr fields start [] [] []
  | cons {start : Nat} {operand : TableOperand} {operands : List TableOperand}
      {bytes : List UInt8} {parts : List (List UInt8)} {values : List UInt64}
      (hlength : bytes.length = fieldLength fields operand)
      (hrest : Filled is64Bit vaddr fields (start + bytes.length) operands parts values) :
      Filled is64Bit vaddr fields start (operand :: operands) (bytes :: parts)
        (immediateValue is64Bit vaddr fields (start + bytes.length) operand bytes :: values)

/-- Neither the bytes so far nor the slots have a part in it. -/
theorem Filled.withSlots {start : Nat} {operands : List TableOperand} {parts : List (List UInt8)}
    {values : List UInt64} (h : Filled is64Bit vaddr fields start operands parts values)
    (bytes : Consumed UInt8 15) (slots : Vector UInt64 2) :
    Filled is64Bit vaddr { fields with bytes := bytes, immediates := slots } start operands parts
      values := by
  induction h with
  | nil start => exact Filled.nil start
  | cons hlength _ ih => exact Filled.cons hlength ih

def isImmediate (operand : TableOperand) : Bool := operand.addressingMode.isImmediate

theorem immediateCount_eq (operands : List TableOperand) :
    immediateCount operands = (operands.filter isImmediate).length :=
  List.countP_eq_length_filter

/-- The slots from `index` on hold the values, the ones in front of it what they held before. -/
structure Stored (before after : Vector UInt64 2) (index : Nat) (values : List UInt64) : Prop where
  front : ∀ i < index, after[i]? = before[i]?
  values : ∀ i < values.length, after[index + i]? = values[i]?

theorem Stored.cons {before after : Vector UInt64 2} {index : Nat} {value : UInt64}
    {values : List UInt64} (hindex : index < 2)
    (h : Stored (before.set index value hindex) after (index + 1) values) :
    Stored before after index (value :: values) := by
  constructor
  · intro i hi
    rw [h.front i (by omega), Vector.getElem?_set_ne _ (by omega)]
  · intro i hi
    cases i with
    | zero => simpa using h.front index (Nat.lt_succ_self _)
    | succ i =>
        have hvalue := h.values i (by simpa using hi)
        rwa [Nat.add_right_comm] at hvalue

/-- The immediate loop from slot `index` on. Of the fields only the slots change. -/
theorem immediateSteps_fill (operands : List TableOperand) (before : Vector UInt64 2) (index : Nat)
    (haddr : fields.addrSize ∈ [16, 32, 64]) (hcount : index + immediateCount operands ≤ 2) :
    Yields source consumed
      (operands.foldlM (immediateStep is64Bit vaddr source)
        ({ fields with immediates := before }, index))
      fun filled later => ∃ parts values,
        Filled is64Bit vaddr fields consumed.length (operands.filter isImmediate) parts values ∧
          later.symbols = consumed.symbols ++ parts.flatten ∧
          Stored before filled.1.immediates index values := by
  induction operands generalizing before index consumed with
  | nil =>
      refine Yields.pure ⟨[], [], Filled.nil _, by simp, ?_⟩
      exact ⟨fun _ _ => rfl, fun i hi => absurd hi (Nat.not_lt_zero i)⟩
  | cons operand operands ih =>
      rw [immediateCount, List.countP_cons] at hcount
      rw [List.foldlM_cons, immediateStep]
      split
      · rename_i himmediate
        rw [if_pos himmediate.1] at hcount
        rw [bind_assoc]
        refine Yields.bind (decodeImmediate_value haddr operand) fun value later _ hvalue => ?_
        obtain ⟨bytes, hlength, hsymbols, rfl⟩ := hvalue
        have hlater : later.length = consumed.length + bytes.length := by
          rw [Consumed.length, hsymbols, List.length_append]
        rw [pure_bind]
        refine (ih (before.set index _ himmediate.2) (index + 1)
          (by rw [immediateCount]; omega)).mono fun filled final _ hfilled => ?_
        obtain ⟨parts, values, hparts, hfinal, hstored⟩ := hfilled
        refine ⟨bytes :: parts, _ :: values, ?_, ?_, Stored.cons himmediate.2 hstored⟩
        · have hkept : isImmediate operand = true := himmediate.1
          rw [List.filter_cons_of_pos hkept, hlater]
          rw [hlater] at hparts
          exact Filled.cons hlength hparts
        · rw [hfinal, hsymbols, List.flatten_cons, List.append_assoc]
      · rename_i hskipped
        have hplain : operand.addressingMode.isImmediate = false := by
          by_contra himmediate
          rw [Bool.not_eq_false] at himmediate
          rw [if_pos himmediate] at hcount
          exact hskipped ⟨himmediate, by dsimp only; omega⟩
        rw [pure_bind, List.filter_cons_of_neg (by simp [isImmediate, hplain])]
        exact ih before index (by rw [immediateCount]; omega)

end Reading

section Fields

variable {is64Bit : Bool} {vaddr : UInt64} {fields : Fields} {operand : TableOperand}
  {bytes : List UInt8} {consumed : Nat}

/-- What bounds the fields of an instruction: the sizes are those of the mode. -/
structure Sized (is64Bit : Bool) (fields : Fields) : Prop where
  opSize : fields.opSize ∈ [16, 32, 64]
  addrSize : fields.addrSize ∈ [16, 32, 64]
  legacy : is64Bit = false → rexW fields = false

theorem littleEndian_lt_two_pow {width : Nat} (hlength : bytes.length = width)
    (hwidth : width ≤ 8) : littleEndian bytes < 2 ^ 64 := by
  refine (littleEndian_lt bytes).trans_le ?_
  rw [hlength, show (256 : Nat) = 2 ^ 8 from rfl, ← Nat.pow_mul]
  exact Nat.pow_le_pow_right (by decide) (by omega)

/-- A sign-extended field at a width that holds it ends in the field. -/
theorem signExtend_emod (hpos : 0 < bytes.length) (hwidth : bytes.length ≤ 8) {bits : Nat}
    (hbits : 8 * bytes.length ≤ bits) (hlimit : bits ≤ 64) (offset : Int) :
    (offset +
        ((signExtend (UInt64.ofNat (littleEndian bytes)) bytes.length).toUInt64.toNat : Int)) %
          2 ^ bits % 256 ^ bytes.length =
      (offset + littleEndian bytes) % 256 ^ bytes.length := by
  have hfield : (256 : Int) ^ bytes.length ∣ 2 ^ bits := by
    rw [show (256 : Int) = 2 ^ 8 from rfl, ← pow_mul]
    exact pow_dvd_pow 2 hbits
  have hwhole : (256 : Int) ^ bytes.length ∣ 2 ^ 64 := by
    rw [show (256 : Int) = 2 ^ 8 from rfl, ← pow_mul]
    exact pow_dvd_pow 2 (hbits.trans hlimit)
  rw [Int.emod_emod_of_dvd _ hfield, toNat_toUInt64, toInt_signExtend hpos hwidth, signedValue,
    Int.add_emod, Int.emod_emod_of_dvd _ hwhole]
  have hbmod := Int.bmod_emod (x := (littleEndian bytes : Int)) (m := 256 ^ bytes.length)
  push_cast at hbmod
  rw [hbmod, ← Int.add_emod]

/-- The value of an immediate that is neither signed nor a target is its field. -/
theorem toNat_plain (hsized : Sized is64Bit fields)
    (hlength : bytes.length = fieldLength fields operand)
    (htarget : isTarget operand = false)
    (hsigned : operand.addressingMode = .I → isSigned fields operand = false) :
    (immediateValue is64Bit vaddr fields consumed operand bytes).toNat = littleEndian bytes := by
  rw [isTarget, Bool.or_eq_false_iff, beq_eq_false_iff_ne, beq_eq_false_iff_ne] at htarget
  rw [fieldLength, if_neg htarget.2, Nat.add_zero] at hlength
  have hunsigned : ¬ (operand.addressingMode = .I ∧
      (operand.size = .bs ∨ (operand.size = .z ∧ fields.opSize = 64))) := by
    rintro ⟨hmode, hsize⟩
    have hfalse := hsigned hmode
    rw [isSigned, Bool.or_eq_false_iff, Bool.and_eq_false_iff] at hfalse
    rcases hsize with hsize | ⟨hsize, hopSize⟩
    · simp [hsize] at hfalse
    · simp [hsize, hopSize] at hfalse
  simp only [immediateValue, if_neg htarget.1, if_neg htarget.2, if_neg hunsigned]
  rw [List.take_of_length_le hlength.le, UInt64.toNat_ofNat_of_lt']
  exact littleEndian_lt_two_pow (hlength.trans (immediateSize_eq fields operand))
    (fieldWidth_bounds hsized.addrSize operand).2

theorem two_pow_opSize_dvd (hsized : Sized is64Bit fields) :
    (2 : Int) ^ fields.opSize ∣ 2 ^ 64 := by
  have hopSize := hsized.opSize
  apply pow_dvd_pow
  simp only [List.mem_cons, List.not_mem_nil, or_false] at hopSize
  omega

/-- The value of a signed immediate is its field, extended to the operand size. -/
theorem toNat_signed (hsized : Sized is64Bit fields) (hmode : operand.addressingMode = .I)
    (hlength : bytes.length = fieldLength fields operand)
    (hsigned : isSigned fields operand = true) :
    ((immediateValue is64Bit vaddr fields consumed operand bytes).toNat : Int) =
        signedValue bytes % 2 ^ fields.opSize ∧
      (immediateValue is64Bit vaddr fields consumed operand bytes).toNat % 256 ^ bytes.length =
        littleEndian bytes := by
  have hopSize := hsized.opSize
  simp only [List.mem_cons, List.not_mem_nil, or_false] at hopSize
  rw [isSigned, Bool.or_eq_true, Bool.and_eq_true, beq_iff_eq, beq_iff_eq, beq_iff_eq] at hsigned
  have hwidth : 0 < bytes.length ∧ 8 * bytes.length ≤ fields.opSize := by
    rw [hlength, fieldLength, if_neg (by simp [hmode]), immediateSize, if_neg (by simp [hmode])]
    rcases hsigned with hsize | ⟨hsize, hwide⟩
    · simp only [hsize]
      omega
    · simp [hsize, hwide]
  rw [fieldLength, if_neg (by simp [hmode]), Nat.add_zero] at hlength
  have hvalue : immediateValue is64Bit vaddr fields consumed operand bytes =
      (signExtend (UInt64.ofNat (littleEndian bytes)) bytes.length).toUInt64 &&&
        mask fields.opSize := by
    rw [immediateValue, if_neg (by simp [hmode]), if_neg (by simp [hmode]),
      if_pos ⟨hmode, hsigned⟩, List.take_of_length_le hlength.le, hlength]
  rw [hvalue, toNat_and_mask _ hopSize]
  constructor
  · push_cast
    rw [toNat_toUInt64, toInt_signExtend hwidth.1 (by omega),
      Int.emod_emod_of_dvd _ (two_pow_opSize_dvd hsized)]
  · have hfield := signExtend_emod hwidth.1 (by omega) hwidth.2 (by omega) 0
    rw [zero_add, zero_add] at hfield
    have hsmall : (littleEndian bytes : Int) % 256 ^ bytes.length = littleEndian bytes := by
      exact_mod_cast Nat.mod_eq_of_lt (littleEndian_lt bytes)
    rw [hsmall] at hfield
    exact_mod_cast hfield

/-- The width at which the instruction pointer wraps. -/
def targetBits (is64Bit : Bool) (fields : Fields) : Nat :=
  if is64Bit then 64 else if fields.opSize = 16 then 16 else 32

theorem fieldWidth_relative (hsized : Sized is64Bit fields) (hmode : operand.addressingMode = .J)
    (hsize : operand.size ≠ .d) :
    0 < immediateSize fields operand ∧
      8 * immediateSize fields operand ≤ targetBits is64Bit fields := by
  rw [immediateSize, if_neg (by simp [hmode]), targetBits]
  cases is64Bit with
  | true =>
      have hbounds := fieldWidth_bounds hsized.addrSize operand
      rw [← immediateSize_eq, immediateSize, if_neg (by simp [hmode])] at hbounds
      rw [if_pos rfl]
      omega
  | false =>
      have hsmall : 16 ≤ (if fields.opSize = 16 then 16 else 32) := by
        split
        · decide
        · decide
      have hdefault : 0 < (if fields.opSize = 16 then 2 else 4) ∧
          8 * (if fields.opSize = 16 then 2 else 4) ≤ (if fields.opSize = 16 then 16 else 32) := by
        split
        · decide
        · decide
      rw [hsized.legacy rfl, if_neg Bool.false_ne_true, if_neg Bool.false_ne_true]
      split
      · omega
      · omega
      · omega
      · contradiction
      · exact hdefault
      · exact hdefault

/-- The distance from the end of the instruction to the target ends in the field. -/
theorem distance_emod (hsized : Sized is64Bit fields) (hmode : operand.addressingMode = .J)
    (hsize : operand.size ≠ .d) (hlength : bytes.length = fieldLength fields operand) :
    ((((immediateValue is64Bit vaddr fields consumed operand bytes).toNat : Int) - vaddr.toNat -
      consumed) % 256 ^ bytes.length).toNat = littleEndian bytes := by
  rw [fieldLength, if_neg (by simp [hmode]), Nat.add_zero] at hlength
  obtain ⟨hpos, hbits⟩ := fieldWidth_relative hsized hmode hsize
  have hlimit : targetBits is64Bit fields ≤ 64 := by
    rw [targetBits]
    split_ifs <;> decide
  rw [← hlength] at hpos hbits
  have hvalue : (immediateValue is64Bit vaddr fields consumed operand bytes).toNat =
      (vaddr.toNat + consumed +
        (signExtend (UInt64.ofNat (littleEndian bytes)) bytes.length).toUInt64.toNat) %
          2 ^ targetBits is64Bit fields := by
    rw [immediateValue, if_neg (by simp [hmode]), if_pos hmode,
      List.take_of_length_le hlength.le, ← hlength, targetBits]
    cases is64Bit with
    | true =>
        simp only [if_true, UInt64.toNat_add, UInt64.toNat_ofNat']
        omega
    | false =>
        simp only [Bool.false_eq_true, if_false]
        split
        · rw [toNat_and_mask _ (by simp), UInt64.toNat_add, UInt64.toNat_add, UInt64.toNat_ofNat']
          omega
        · rw [toNat_and_mask _ (by simp), UInt64.toNat_add, UInt64.toNat_add, UInt64.toNat_ofNat']
          omega
  have hmod := signExtend_emod hpos (by omega) hbits hlimit (vaddr.toNat + consumed)
  have hmodEq : ((immediateValue is64Bit vaddr fields consumed operand bytes).toNat : Int) ≡
      vaddr.toNat + consumed + littleEndian bytes [ZMOD 256 ^ bytes.length] := by
    rw [Int.ModEq, ← hmod, hvalue]
    push_cast
    rfl
  have hdistance := (hmodEq.sub_right (vaddr.toNat : Int)).sub_right (consumed : Int)
  rw [show (vaddr.toNat : Int) + consumed + littleEndian bytes - vaddr.toNat - consumed =
    littleEndian bytes by ring, Int.ModEq] at hdistance
  have hsmall : (littleEndian bytes : Int) % 256 ^ bytes.length = littleEndian bytes := by
    exact_mod_cast Nat.mod_eq_of_lt (littleEndian_lt bytes)
  rw [hdistance, hsmall, Int.toNat_natCast]

/-- A far address keeps its offset in the low half and its segment above it. -/
theorem toNat_far (hmode : operand.addressingMode = .A) (hsize : operand.size ≠ .v)
    (hlength : bytes.length = fieldLength fields operand) :
    (immediateValue is64Bit vaddr fields consumed operand bytes >>> 32).toNat =
        littleEndian (bytes.drop (immediateSize fields operand)) ∧
      (immediateValue is64Bit vaddr fields consumed operand bytes &&& 0xFFFFFFFF).toNat =
        littleEndian (bytes.take (immediateSize fields operand)) := by
  have hwidth : immediateSize fields operand ≤ 4 := by
    rw [immediateSize, if_neg (by simp [hmode])]
    split
    · decide
    · decide
    · decide
    · decide
    · contradiction
    · split
      · decide
      · decide
  rw [fieldLength, if_pos hmode] at hlength
  rw [immediateValue, if_pos hmode]
  have hoffset := littleEndian_lt (bytes.take (immediateSize fields operand))
  have hsegment := littleEndian_lt (bytes.drop (immediateSize fields operand))
  rw [List.length_take_of_le (by omega)] at hoffset
  rw [List.length_drop, hlength, Nat.add_sub_cancel_left] at hsegment
  have hlow : littleEndian (bytes.take (immediateSize fields operand)) < 2 ^ 32 :=
    hoffset.trans_le (Nat.pow_le_pow_right (by decide) hwidth)
  generalize littleEndian (bytes.take (immediateSize fields operand)) = offset at hlow ⊢
  generalize littleEndian (bytes.drop (immediateSize fields operand)) = segment at hsegment ⊢
  have hvalue : (UInt64.ofNat offset ||| UInt64.ofNat segment <<< 32).toNat =
      segment <<< 32 + offset := by
    have hshifted : segment <<< 32 < 2 ^ 64 := by
      rw [Nat.shiftLeft_eq]
      omega
    rw [UInt64.toNat_or, UInt64.toNat_shiftLeft,
      UInt64.toNat_ofNat_of_lt' (by rw [UInt64.size]; omega),
      UInt64.toNat_ofNat_of_lt' (by rw [UInt64.size]; omega),
      show (32 : UInt64).toNat % 64 = 32 from rfl, Nat.mod_eq_of_lt hshifted,
      Nat.shiftLeft_add_eq_or_of_lt hlow, Nat.or_comm]
  constructor
  · rw [UInt64.toNat_shiftRight, hvalue, show (32 : UInt64).toNat % 64 = 32 from rfl,
      Nat.shiftRight_eq_div_pow, Nat.shiftLeft_eq]
    omega
  · rw [UInt64.toNat_and, hvalue, show (0xFFFFFFFF : UInt64).toNat = 2 ^ 32 - 1 from rfl,
      Nat.and_two_pow_sub_one_eq_mod, Nat.shiftLeft_eq]
    omega

end Fields

section Texts

variable {is64Bit : Bool} {vaddr : UInt64} {fields : Fields} {simd : Simd} {segmentText : String}
  {operand : TableOperand} {bytes : List UInt8} {consumed length : Nat}

/-- What the fields of a row allow for one of its operands. -/
structure Writable (operand : TableOperand) : Prop where
  noRegister : operand.addressingMode ≠ .L
  relative : operand.addressingMode = .J → operand.size ≠ .d
  far : operand.addressingMode = .A → operand.size ≠ .v

section OperandText

variable (fields simd segmentText) (value : UInt64)

theorem operandText_number (h : operand.addressingMode = .I ∨ operand.addressingMode = .J) :
    operandText fields simd segmentText value operand = toHex value := by
  rcases h with h | h
  · simp only [operandText, printOperand, h]
    rfl
  · simp only [operandText, printOperand, h]
    rfl

theorem operandText_offset (h : operand.addressingMode = .O) :
    operandText fields simd segmentText value operand =
      segmentText ++ "[" ++ toHex value ++ "]" := by
  simp only [operandText, printOperand, h]
  rfl

theorem operandText_far (h : operand.addressingMode = .A) :
    operandText fields simd segmentText value operand =
      toHex (value >>> 32) ++ ":" ++ toHex (value &&& 0xFFFFFFFF) := by
  simp only [operandText, printOperand, h]
  rfl

end OperandText

/-- The offset stands between the brackets. -/
theorem before_behind_offset (hsegment : '[' ∉ segmentText.toList) (value : UInt64) :
    before ']' (behind '[' (segmentText ++ "[" ++ toHex value ++ "]").toList) =
      (toHex value).toList := by
  simp only [String.toList_append, List.append_assoc]
  exact (congrArg (before ']') (behind_append hsegment _)).trans
    (before_append (BracketedText.plain_toHex value).unclosed [])

/-- The segment stands in front of the colon and the offset behind it. -/
theorem before_behind_far (segment offset : UInt64) :
    before ':' (toHex segment ++ ":" ++ toHex offset).toList = (toHex segment).toList ∧
      behind ':' (toHex segment ++ ":" ++ toHex offset).toList = (toHex offset).toList := by
  have hcolon : ':' ∉ (toHex segment).toList := by
    rw [MemoryText.toList_toHex]
    simp only [List.mem_cons, not_or]
    exact ⟨by decide, by decide, not_mem_toDigits (by decide) (by decide) (by decide) _⟩
  simp only [String.toList_append, List.append_assoc]
  exact ⟨before_append hcolon _, behind_append hcolon _⟩

/-- The text of an immediate is written as the bytes that it was read from. -/
theorem written_shown (hsized : Sized is64Bit fields) (hsegment : '[' ∉ segmentText.toList)
    (hoperand : Writable operand) (himmediate : isImmediate operand = true)
    (hlength : bytes.length = fieldLength fields operand)
    (hlast : operand.addressingMode = .J → consumed = length) :
    written fields vaddr length operand
      (operandText fields simd segmentText
        (immediateValue is64Bit vaddr fields consumed operand bytes) operand).toList =
      some bytes := by
  have hwidth (hnear : operand.addressingMode ≠ .A) :
      fieldWidth fields operand = bytes.length := by
    rw [hlength, fieldLength, if_neg hnear, Nat.add_zero, immediateSize_eq]
  have hplain (htarget : isTarget operand = false)
      (hsigned : operand.addressingMode = .I → isSigned fields operand = false) :
      (immediateValue is64Bit vaddr fields consumed operand bytes).toNat % 256 ^ bytes.length =
        littleEndian bytes := by
    rw [toNat_plain hsized hlength htarget hsigned]
    exact Nat.mod_eq_of_lt (littleEndian_lt bytes)
  rw [written]
  split
  · rename_i hmode
    rw [operandText_number _ _ _ _ (Or.inl hmode), hexNumber_toHex, Option.map_some,
      hwidth (by simp [hmode])]
    refine congrArg some (encode_of_mod ?_)
    cases hsigned : isSigned fields operand with
    | true => exact (toNat_signed hsized hmode hlength hsigned).2
    | false => exact hplain (by simp [isTarget, hmode]) fun _ => hsigned
  · rename_i hmode
    rw [operandText_offset _ _ _ _ hmode, before_behind_offset hsegment, hexNumber_toHex,
      Option.map_some, hwidth (by simp [hmode])]
    refine congrArg some (encode_of_mod (hplain (by simp [isTarget, hmode]) ?_))
    simp [hmode]
  · rename_i hmode
    rw [operandText_number _ _ _ _ (Or.inr hmode), hexNumber_toHex, Option.map_some,
      hwidth (by simp [hmode]), ← hlast hmode,
      distance_emod hsized hmode (hoperand.relative hmode) hlength, encode_littleEndian]
  · rename_i hmode
    obtain ⟨hhigh, hlow⟩ := @toNat_far is64Bit vaddr fields operand bytes consumed hmode
      (hoperand.far hmode) hlength
    have hoffset : (bytes.take (immediateSize fields operand)).length =
        fieldWidth fields operand := by
      rw [List.length_take_of_le (hlength ▸ Nat.le_add_right _ _), immediateSize_eq]
    have hselector : (bytes.drop (immediateSize fields operand)).length = 2 := by
      rw [List.length_drop, hlength, fieldLength, if_pos hmode, Nat.add_sub_cancel_left]
    rw [operandText_far _ _ _ _ hmode, (before_behind_far _ _).1, (before_behind_far _ _).2,
      hexNumber_toHex, hexNumber_toHex, hhigh, hlow, Option.bind_eq_bind, Option.bind_some,
      Option.bind_some, ← hoffset, encode_littleEndian, ← hselector, encode_littleEndian,
      List.take_append_drop]
    rfl
  · rename_i hmode
    exact absurd hmode hoperand.noRegister
  · rename_i hI hO hJ hA hL
    exfalso
    rw [isImmediate] at himmediate
    generalize operand.addressingMode = mode at *
    cases mode <;> simp_all [Addressing.isImmediate]

theorem extended_shown (hsized : Sized is64Bit fields) (hmode : operand.addressingMode = .I)
    (hlength : bytes.length = fieldLength fields operand) :
    ((immediateValue is64Bit vaddr fields consumed operand bytes).toNat : Int) =
      extended fields operand bytes := by
  rw [extended]
  split
  · rename_i hsigned
    exact (toNat_signed hsized hmode hlength hsigned).1
  · rename_i hsigned
    rw [toNat_plain hsized hlength (by simp [isTarget, hmode]) fun _ => by simpa using hsigned]

theorem written_other (h : isImmediate operand = false) (text : List Char) :
    written fields vaddr length operand text = some [] := by
  rcases operand with ⟨mode, size, value⟩
  cases mode
  case I | J | O | A | L => contradiction
  all_goals rfl

theorem writtenFields_other {operands : List TableOperand}
    (h : operands.filter isImmediate = []) (texts : List (List Char)) :
    writtenFields fields vaddr length (operands.zip texts) = some [] ∧
      ∀ shown ∈ operands.zip texts, shown.1.addressingMode ≠ .I := by
  rw [List.filter_eq_nil_iff] at h
  induction operands generalizing texts with
  | nil => exact ⟨rfl, fun _ hnone => absurd hnone List.not_mem_nil⟩
  | cons operand operands ih =>
      rw [List.forall_mem_cons, Bool.not_eq_true] at h
      cases texts with
      | nil => exact ⟨rfl, fun _ hnone => absurd hnone List.not_mem_nil⟩
      | cons text texts =>
          rw [List.zip_cons_cons, writtenFields, written_other h.1, (ih h.2 texts).1,
            List.forall_mem_cons]
          refine ⟨rfl, fun hmode => ?_, (ih h.2 texts).2⟩
          have hnumber : operand.addressingMode = .I := hmode
          rw [isImmediate, hnumber] at h
          exact absurd h.1 (by decide)

theorem operandText_ne_empty (himmediate : isImmediate operand = true)
    (hregister : operand.addressingMode ≠ .L) (value : UInt64) :
    operandText fields simd segmentText value operand ≠ "" := by
  have hcontains {symbol : Char} {text : String} (h : symbol ∈ text.toList) : text ≠ "" := by
    rintro rfl
    exact absurd h List.not_mem_nil
  rw [isImmediate] at himmediate
  cases hmode : operand.addressingMode with
  | I =>
      rw [operandText_number _ _ _ _ (Or.inl hmode)]
      exact hcontains (by rw [MemoryText.toList_toHex]; exact List.mem_cons_self)
  | J =>
      rw [operandText_number _ _ _ _ (Or.inr hmode)]
      exact hcontains (by rw [MemoryText.toList_toHex]; exact List.mem_cons_self)
  | O =>
      rw [operandText_offset _ _ _ _ hmode]
      exact @hcontains '[' _ (by simp)
  | A =>
      rw [operandText_far _ _ _ _ hmode]
      exact @hcontains ':' _ (by simp)
  | L => exact absurd hmode hregister
  | _ =>
      rw [hmode] at himmediate
      contradiction

theorem texts_ne_of_immediate (hlisted : operand ∈ operandList fields.info)
    (himmediate : isImmediate operand = true) (hregister : operand.addressingMode ≠ .L) :
    textsOf fields simd ≠ [""] := by
  obtain ⟨place, hplace⟩ := List.getElem?_of_mem hlisted
  have htext := @getElem?_printedTexts fields simd (segmentTextOf fields simd)
    (operandList fields.info) 0 place
  rw [hplace, Option.map_some] at htext
  exact texts_ne htext (operandText_ne_empty himmediate hregister _)

/-- The texts of operands are written as the bytes of their immediates; the first of these is
in slot `index`. -/
theorem written_printedTexts (hsized : Sized is64Bit fields) (hsegment : '[' ∉ segmentText.toList)
    {operands : List TableOperand} (start index : Nat) {parts : List (List UInt8)}
    {values : List UInt64}
    (hfilled : Filled is64Bit vaddr fields start (operands.filter isImmediate) parts values)
    (hvalues : ∀ i < values.length, fields.immediates[index + i]? = values[i]?)
    (hwritable : ∀ operand ∈ operands, Writable operand)
    (hlast : (∃ operand ∈ operands, operand.addressingMode = .J) →
      (operands.filter isImmediate).length = 1)
    (hlength : length = start + parts.flatten.length) :
    writtenFields fields vaddr length
        (operands.zip ((printedTexts fields simd segmentText index operands).map String.toList)) =
      some parts.flatten ∧
    ∀ shown ∈ operands.zip
        ((printedTexts fields simd segmentText index operands).map String.toList),
      shown.1.addressingMode = .I → ∃ value field, hexNumber shown.2 = some value ∧
        written fields vaddr length shown.1 shown.2 = some field ∧
        (value : Int) = extended fields shown.1 field := by
  induction operands generalizing start index parts values with
  | nil =>
      cases hfilled
      exact ⟨rfl, fun _ hnone => absurd hnone List.not_mem_nil⟩
  | cons operand operands ih =>
      rw [List.forall_mem_cons] at hwritable
      rw [printedTexts, List.map_cons, List.zip_cons_cons, writtenFields, List.forall_mem_cons]
      cases himmediate : isImmediate operand with
      | false =>
          rw [List.filter_cons_of_neg (by simp [himmediate])] at hfilled hlast
          have hrest := ih start index hfilled hvalues hwritable.2
            (fun hrelative => hlast (List.exists_mem_cons_of_exists hrelative)) hlength
          have hindex : operand.addressingMode.isImmediate.toNat = 0 :=
            congrArg Bool.toNat himmediate
          rw [hindex, Nat.add_zero, written_other himmediate]
          refine ⟨?_, ?_, hrest.2⟩
          · rw [hrest.1]
            rfl
          · intro hmode
            have hnumber : operand.addressingMode = .I := hmode
            rw [isImmediate, hnumber] at himmediate
            exact absurd himmediate (by decide)
      | true =>
          rw [List.filter_cons_of_pos himmediate] at hfilled hlast
          cases hfilled with
          | @cons _ _ _ bytes parts values hbytes hfilled =>
              have hvalue := hvalues 0 (Nat.zero_lt_succ _)
              rw [Nat.add_zero, List.getElem?_cons_zero] at hvalue
              have hindex : operand.addressingMode.isImmediate.toNat = 1 :=
                congrArg Bool.toNat himmediate
              rw [List.flatten_cons, List.length_append, ← Nat.add_assoc] at hlength
              have hend : operand.addressingMode = .J → start + bytes.length = length := by
                intro hmode
                have hone := hlast ⟨operand, List.mem_cons_self, hmode⟩
                rw [List.length_cons, Nat.add_eq_right, List.length_eq_zero_iff] at hone
                rw [hone] at hfilled
                cases hfilled
                exact hlength.symm
              have hfirst := @written_shown is64Bit vaddr fields simd segmentText operand bytes
                (start + bytes.length) length hsized hsegment hwritable.1 himmediate hbytes hend
              have hrest := ih (start + bytes.length) (index + 1) hfilled
                (fun i hi => by
                  rw [Nat.add_right_comm, Nat.add_assoc]
                  exact hvalues (i + 1) (Nat.succ_lt_succ hi))
                hwritable.2
                (fun hrelative => by
                  have hone := hlast (List.exists_mem_cons_of_exists hrelative)
                  rw [List.length_cons, Nat.add_eq_right, List.length_eq_zero_iff] at hone
                  obtain ⟨later, hlater, hmode⟩ := hrelative
                  have hkept := List.mem_filter.mpr
                    ⟨hlater, (by simp [isImmediate, hmode, Addressing.isImmediate] :
                      isImmediate later = true)⟩
                  rw [hone] at hkept
                  exact absurd hkept List.not_mem_nil)
                hlength
              rw [hindex, hvalue, Option.getD_some, hfirst, hrest.1]
              refine ⟨rfl, fun hmode => ?_, hrest.2⟩
              have hshown := @extended_shown is64Bit vaddr fields operand bytes
                (start + bytes.length) hsized hmode hbytes
              refine ⟨_, bytes, ?_, rfl, hshown⟩
              rw [operandText_number _ _ _ _ (Or.inl hmode), hexNumber_toHex]

end Texts

section Lines

variable {is64Bit : Bool} {contents : AddressSpace} {fileOffset vaddr nextOffset : UInt64}
  {store : InstructionStore} {row : Instruction}

/-- Behind the first empty slot there is no immediate. -/
theorem dropWhile_operands {operands : Vector TableOperand 3} (h : GapFree operands) :
    ∀ operand ∈ operands.toList.dropWhile fun operand => decide (operand.addressingMode ≠ .None),
      isImmediate operand = false := by
  have hempty {operand : TableOperand} (hmode : operand.addressingMode = .None) :
      isImmediate operand = false := by
    rw [isImmediate, hmode]
    rfl
  rw [toList_operands]
  by_cases hfirst : (firstOperand operands).addressingMode = .None
  · rw [List.dropWhile_cons_of_neg (by simp [hfirst])]
    simp only [List.forall_mem_cons]
    exact ⟨hempty hfirst, (h.first hfirst).1, (h.first hfirst).2, by simp⟩
  rw [List.dropWhile_cons_of_pos (by simp [hfirst])]
  by_cases hsecond : (secondOperand operands).addressingMode = .None
  · rw [List.dropWhile_cons_of_neg (by simp [hsecond])]
    simp only [List.forall_mem_cons]
    exact ⟨hempty hsecond, h.second hsecond, by simp⟩
  rw [List.dropWhile_cons_of_pos (by simp [hsecond])]
  by_cases hthird : (thirdOperand operands).addressingMode = .None
  · rw [List.dropWhile_cons_of_neg (by simp [hthird])]
    simp only [List.forall_mem_cons]
    exact ⟨hempty hthird, by simp⟩
  · rw [List.dropWhile_cons_of_pos (by simp [hthird])]
    exact fun _ hnone => absurd hnone List.not_mem_nil

/-- The renderer prints the immediates that the decoder reads. -/
theorem filter_operandList {info : OpcodeInfo} (h : GapFree info.operands) :
    (operandList info).filter isImmediate = info.operands.toList.filter isImmediate := by
  have htaken : (info.operands.toList.takeWhile
      fun operand => decide (operand.addressingMode ≠ .None)).filter isImmediate =
        info.operands.toList.filter isImmediate := by
    have hdropped : (info.operands.toList.dropWhile
        fun operand => decide (operand.addressingMode ≠ .None)).filter isImmediate = [] :=
      List.filter_eq_nil_iff.mpr fun operand hoperand =>
        Bool.not_eq_true _ ▸ dropWhile_operands h operand hoperand
    conv_rhs => rw [← List.takeWhile_append_dropWhile
      (p := fun operand => decide (operand.addressingMode ≠ .None)) (l := info.operands.toList)]
    rw [List.filter_append, hdropped, List.append_nil]
  rw [operandList]
  split
  · rename_i hnone
    rw [← htaken, hnone]
  · rename_i first rest hlist
    rw [← htaken, hlist]
    split
    · have hadded (size : Size) : ¬ isImmediate (op .H size) = true := Bool.false_ne_true
      rw [List.filter_cons, List.filter_cons_of_neg (hadded _), ← List.filter_cons]
    · rfl

/-- What the immediates add to the fields in front of them. -/
def ImmediatesRead (is64Bit : Bool) (vaddr : UInt64) (fields : Fields)
    (before : Consumed UInt8 15) (filled : Fields) (final : Consumed UInt8 15) : Prop :=
  fields.addrSize ∈ [16, 32, 64] → immediateCount fields.info.operands.toList ≤ 2 →
    ∃ parts values,
      Filled is64Bit vaddr fields before.length (fields.info.operands.toList.filter isImmediate)
        parts values ∧
      final.symbols = before.symbols ++ parts.flatten ∧
      Stored fields.immediates filled.immediates 0 values

theorem decodeImmediates_read {source : ByteSource} (fields : Fields)
    (before : Consumed UInt8 15) :
    Yields source before (decodeImmediates is64Bit vaddr source fields) fun filled final =>
      ImmediatesRead is64Bit vaddr fields before filled final := by
  by_cases hbounds : fields.addrSize ∈ [16, 32, 64] ∧
    immediateCount fields.info.operands.toList ≤ 2
  · rw [decodeImmediates]
    refine Yields.bind (immediateSteps_fill fields.info.operands.toList fields.immediates 0
      hbounds.1 ((Nat.zero_add _).trans_le hbounds.2)) fun filled final _ hfilled => ?_
    exact Yields.pure fun _ _ => hfilled
  · refine (decodeImmediates_yields is64Bit vaddr fields).mono fun _ _ _ _ => ?_
    exact fun haddr hcount => absurd ⟨haddr, hcount⟩ hbounds

theorem sized_of_numbered {fields : Fields} {simd : Simd} (h : Numbered is64Bit fields simd) :
    Sized is64Bit fields := by
  have hopSize := h.opSize.1.cases.resolve_left h.opSize.2
  have haddrSize := h.addrSize.1.cases.resolve_left h.addrSize.2
  refine ⟨by simpa using hopSize, by simpa using haddrSize, fun hlegacy => ?_⟩
  rw [rexW, h.legacy hlegacy]
  rfl

/-- In every row that is decoded a relative target is the only immediate. -/
theorem targetAlone_of_decoded {opened named decoded : DecodeLocals}
    (h : Decoded is64Bit opened named decoded) : TargetAlone decoded.fields.info.operands := by
  obtain ⟨modRM, row, hfound⟩ := h.found
  have hinfo : decoded.fields.info = named.fields.info := (congrArg Fields.info h.fields :)
  rw [hinfo]
  rcases hfound.info with hrow | ⟨-, -, -, slot, hslot⟩
  · rw [hrow]
    exact targetAlone_of_rowOf hfound.rowOf_eq
  · rw [hslot]
    exact targetAlone_of_escapes (immediateRow_rowKind.threeDNowTable slot)
      (table_escapes (by simp [tableRows]) slot)

theorem writable_operandList {info : OpcodeInfo} (h : TargetAlone info.operands)
    (hregister : ∀ operand ∈ info.operands.toList, operand.addressingMode ≠ .L) :
    ∀ operand ∈ operandList info, Writable operand := by
  refine forall_operandList (fun operand hoperand => ?_) fun size => ?_
  · exact ⟨hregister operand hoperand, h.relative operand hoperand, h.far operand hoperand⟩
  · exact ⟨nofun, nofun, nofun⟩

/-- Printed immediates, written as fields of their widths, are the last bytes of the
instruction. -/
theorem encodesBack_of_decoded {opened named decoded : DecodeLocals}
    {before final : Consumed UInt8 15} (h : Decoded is64Bit opened named decoded)
    (hread : ImmediatesRead is64Bit vaddr named.fields before decoded.fields final)
    (hcount : immediateCount decoded.fields.info.operands.toList ≤ 2)
    (hrow : x86_64 { decoded.fields with bytes := final } decoded.simd = .ok row)
    (hnamed : isBad { decoded.fields with bytes := final } = false)
    (hregister : ∀ operand ∈ decoded.fields.info.operands.toList, operand.addressingMode ≠ .L) :
    EncodesBack { decoded.fields with bytes := final } vaddr final.symbols
      row.instructionText := by
  have hgapFree := (h.rowKind immediateRow_rowKind).gapFree
  have halone := targetAlone_of_decoded h
  have hsized := sized_of_numbered ((numbered_of_decoded h).withBytes final)
  have hwritable := writable_operandList halone hregister
  have hkept := filter_operandList hgapFree
  have hfields := h.fields
  have hinfo : named.fields.info = decoded.fields.info := (congrArg Fields.info hfields :).symm
  have haddr : named.fields.addrSize = decoded.fields.addrSize :=
    (congrArg Fields.addrSize hfields :).symm
  obtain ⟨parts, values, hfilled, hfinal, hstored⟩ :=
    hread (haddr ▸ hsized.addrSize) (hinfo ▸ hcount)
  rw [hinfo, ← hkept] at hfilled
  have hfilled' : Filled is64Bit vaddr { decoded.fields with bytes := final } before.length
      ((operandList decoded.fields.info).filter isImmediate) parts values := by
    have hslots : { decoded.fields with bytes := final } = { named.fields with
        bytes := final, immediates := decoded.fields.immediates } := by
      rw [hfields]
    rw [hslots]
    exact hfilled.withSlots final decoded.fields.immediates
  by_cases hnone : (operandList decoded.fields.info).filter isImmediate = []
  · obtain ⟨hwritten, hplain⟩ := @writtenFields_other vaddr { decoded.fields with bytes := final }
      final.symbols.length _ hnone (operandTexts row.instructionText.toList)
    refine ⟨⟨[], hwritten, List.nil_suffix⟩, fun shown hshown hmode => ?_⟩
    exact absurd hmode (hplain shown hshown)
  · have htexts : textsOf { decoded.fields with bytes := final } decoded.simd ≠ [""] := by
      obtain ⟨operand, hoperand⟩ := List.exists_mem_of_ne_nil _ hnone
      obtain ⟨hlisted, himmediate⟩ := List.mem_filter.mp hoperand
      exact texts_ne_of_immediate hlisted himmediate (hwritable operand hlisted).noRegister
    have hshown := (instructionText_spelled hrow hnamed (h.rowKind spelled_rowKind)).2 htexts
    have hlast : (∃ operand ∈ operandList decoded.fields.info, operand.addressingMode = .J) →
        ((operandList decoded.fields.info).filter isImmediate).length = 1 := by
      rintro ⟨operand, hoperand, hmode⟩
      have himmediate : isImmediate operand = true := by
        rw [isImmediate, hmode]
        rfl
      have hsource := List.mem_filter.mpr ⟨hoperand, himmediate⟩
      rw [hkept] at hsource ⊢
      rw [← immediateCount_eq]
      exact halone.alone ⟨operand, (List.mem_filter.mp hsource).1, hmode⟩
    obtain ⟨hwritten, hextended⟩ := @written_printedTexts is64Bit vaddr
      { decoded.fields with bytes := final } decoded.simd
      (segmentTextOf { decoded.fields with bytes := final } decoded.simd) final.symbols.length
      hsized (BracketedText.plain_segmentTextOf _ _).unopened _ before.length 0 parts values
      hfilled' (fun i hi => hstored.values i hi) hwritable hlast
      (by rw [hfinal, List.length_append])
    refine ⟨⟨parts.flatten, ?_, before.symbols, hfinal.symm⟩, ?_⟩
    · rw [shownOperands, hshown]
      exact hwritten
    · rw [shownOperands, hshown]
      exact hextended

/-- The immediates that a row prints, written back in operand order, are the last bytes of its
machine code. -/
theorem immediates_encode_back (is64Bit : Bool) (contents : AddressSpace)
    (fileOffset vaddr : UInt64) (store : InstructionStore) (nextOffset : UInt64)
    (row : Instruction)
    (h : Appends store (decodeLine is64Bit contents fileOffset vaddr store) nextOffset row)
    (hnamed : row.instructionText ≠ "(bad)") :
    ∃ fields simd, emitted is64Bit contents fileOffset vaddr = some (fields, simd) ∧
      x86_64 fields simd = .ok row ∧
      ((∀ operand ∈ fields.info.operands.toList, operand.addressingMode ≠ .L) →
        EncodesBack fields vaddr (instructionBytes contents fileOffset nextOffset)
          row.instructionText) := by
  obtain ⟨fields, simd, hemitted, hrow⟩ := emitted_of_appends h
  refine ⟨fields, simd, hemitted, hrow, fun hregister => ?_⟩
  have hgood := isBad_of_named hrow hnamed
  rw [emitted] at hemitted
  cases hrun : decodeInstruction is64Bit vaddr (bytesAt contents fileOffset) .empty with
  | error stop bytes =>
      rw [hrun] at hemitted
      cases stop with
      | limitReached =>
          obtain ⟨rfl, -⟩ := Prod.mk.inj (Option.some.inj hemitted)
          contradiction
      | failed thrown => contradiction
  | ok locals bytes =>
      rw [hrun] at hemitted
      obtain ⟨rfl, rfl⟩ := Prod.mk.inj (Option.some.inj hemitted)
      obtain ⟨-, hbytes, -⟩ := decoded_of_appends h hrun
      have hdecoded := ((@decodeInstruction_decoded (bytesAt contents fileOffset) is64Bit vaddr
        (fun _ _ => True) (ImmediatesRead is64Bit vaddr)
        (fun _ _ _ _ hprefixed _ _ => (decodeOpcode_yields is64Bit hprefixed.simd).mono
          fun _ _ _ _ => Or.inr trivial)
        decodeImmediates_read).and (decodeInstruction_yields is64Bit vaddr)).settled
          (Drawn.empty _)
      rw [hrun] at hdecoded
      obtain ⟨-, -, hcases, -, hcount⟩ := hdecoded
      have hvalid : locals.fields.isInvalid = false := by
        rw [isBad, Bool.or_eq_false_iff, Bool.or_eq_false_iff] at hgood
        exact hgood.1.1
      rcases hcases with ⟨hinvalid, -⟩ | ⟨opened, middle, named, before, -, -, hdone, hread⟩
      · exact absurd (hvalid.symm.trans hinvalid) (by decide)
      · rw [← hbytes]
        exact encodesBack_of_decoded hdone hread (hcount.resolve_left (by simp [hvalid])) hrow
          hgood hregister

end Lines

/-- `mov qword ptr [rax], -2`: four bytes, extended to 64 bits. -/
def moveNegative : AddressSpace where
  mappedData := [0x48, 0xC7, 0x00, 0xFE, 0xFF, 0xFF, 0xFF]
  fileSize_lt := by decide

def moveNegativeRow : Instruction where
  machineCode := machineCodeOf moveNegative.mappedData
  instructionText := "MOV \t[RAX], 0xfffffffffffffffe"

theorem immediates_encode_back_moveNegative :
    ∃ fields simd, emitted true moveNegative 0 0x1000 = some (fields, simd) ∧
      x86_64 fields simd = .ok moveNegativeRow ∧
      ((∀ operand ∈ fields.info.operands.toList, operand.addressingMode ≠ .L) →
        EncodesBack fields 0x1000 (instructionBytes moveNegative 0 7)
          moveNegativeRow.instructionText) :=
  immediates_encode_back true moveNegative 0 0x1000 .empty 7 moveNegativeRow (by decide +kernel)
    (by decide +kernel)

end Voidwalk.ImmediateBytes

import Voidwalk.EffectiveAddress
import Voidwalk.Library.SumText

/-!
The text of a memory operand, evaluated: it denotes the address form that the fields of
the instruction describe.
-/

namespace Voidwalk.MemoryText

open Voidwalk.OpcodeRows
open Voidwalk.InstructionRendering
open Voidwalk.EncodedValues
open Voidwalk.EffectiveAddress
open Voidwalk.Library.Bytes
open Voidwalk.Library.SumText

/-- What a name stands for in an operand. -/
def nameValue (registers : Registers) (next : UInt64) (name : List Char) : Option Int :=
  (registerNamed name).map (Register.value registers next)

structure Names (name : List Char) (register : Register) : Prop where
  isName : IsName name
  named : registerNamed name = some register

instance (name : List Char) (register : Register) : Decidable (Names name register) :=
  decidable_of_iff (IsName name ∧ registerNamed name = some register)
    ⟨fun h => ⟨h.1, h.2⟩, fun h => ⟨h.1, h.2⟩⟩

theorem names_registerOf {number width : Nat} (hnumber : number < 16)
    (hwidth : width = 16 ∨ width = 32 ∨ width = 64) (hasREX : Bool) :
    Names (registerOf number width hasREX).toList (.general width number) := by
  have h : ∀ width ∈ [16, 32, 64], ∀ (number : Fin 16) (hasREX : Bool),
      Names (registerOf number width hasREX).toList (.general width number) := by
    decide +kernel
  exact h width (by simpa using hwidth) ⟨number, hnumber⟩ hasREX

theorem names_vectorName (simd : Simd) {regNumber : UInt8} (hnumber : regNumber.toNat < 16)
    (size : Size) : Names (vectorName simd regNumber size).toList (.vector regNumber.toNat) := by
  have h : ∀ (family : Bool) (number : Fin 16),
      Names ((if family then "YMM" else "XMM") ++ toString number.val).toList (.vector number) := by
    decide +kernel
  rw [vectorName]
  split
  · exact h true ⟨regNumber.toNat, hnumber⟩
  · exact h false ⟨regNumber.toNat, hnumber⟩

section Forms

/-- The base that the fields describe, case by case as they are printed. -/
def describedBase (fields : Fields) : Option Register :=
  if fields.addrSize = 16 then
    if fields.mod = 0 ∧ fields.rm &&& 7 = 6 then none
    else bases16[(fields.rm &&& 7).toNat]?.map (.general 16)
  else if fields.hasSIB then
    if fields.mod = 0 ∧ fields.base &&& 7 = 5 then none
    else some (.general fields.addrSize fields.base.toNat)
  else if fields.mod = 0 ∧ fields.rm &&& 7 = 5 then
    if fields.is64Bit then some (.nextInstruction fields.addrSize) else none
  else some (.general fields.addrSize fields.rm.toNat)

def describedIndex (isGather : Bool) (fields : Fields) : Option (Register × Nat) :=
  if fields.addrSize = 16 then
    if fields.mod = 0 ∧ fields.rm &&& 7 = 6 then none
    else indexes16[(fields.rm &&& 7).toNat]?.map fun number => (.general 16 number, 1)
  else if fields.hasSIB then
    if isGather then some (.vector fields.index.toNat, fields.scale.toNat)
    else if fields.index = 4 then none
    else some (.general fields.addrSize fields.index.toNat, fields.scale.toNat)
  else none

def describedForm (isGather : Bool) (fields : Fields) : AddressForm where
  size := fields.addrSize
  base := describedBase fields
  index := describedIndex isGather fields
  displacement := fields.displacement.toInt

/-- Fields that the decoder can leave behind for a memory operand. -/
structure Addressable (isGather : Bool) (fields : Fields) : Prop where
  addrSize : fields.addrSize = 16 ∨ fields.addrSize = 32 ∨ fields.addrSize = 64
  rm_lt : fields.rm.toNat < 16
  index_lt : fields.index.toNat < 16
  base_lt : fields.base.toNat < 16
  displacement_bounds : -2 ^ 31 ≤ fields.displacement.toInt ∧ fields.displacement.toInt < 2 ^ 31
  displacement_absent : fields.hasDisplacement = false → fields.displacement = 0
  displacement_present : describedBase fields = none → describedIndex isGather fields = none →
    fields.hasDisplacement = true

end Forms

section Texts

variable {registers : Registers} {next : UInt64} {fields : Fields} {isGather : Bool}

theorem Names.space {name : List Char} {register : Register} (h : Names name register) :
    ' ' ∉ name :=
  h.isName.oneWord

theorem Names.termValue {name : List Char} {register : Register} (h : Names name register) :
    termValue (nameValue registers next) name = some (register.value registers next) := by
  apply termValue_name h.isName
  rw [nameValue, h.named]
  rfl

def scaledName (name : String) (scale : Nat) : String := name ++ "*" ++ toString scale

theorem Names.termValue_scaledName {name : String} {register : Register}
    (h : Names name.toList register) (scale : Nat) :
    Library.SumText.termValue (nameValue registers next) (scaledName name scale).toList =
      some (register.value registers next * scale) := by
  have htext : (scaledName name scale).toList = name.toList ++ '*' :: Nat.toDigits 10 scale := by
    simp [scaledName]
  rw [htext]
  apply termValue_scaled h.isName
  rw [nameValue, h.named]
  rfl

theorem Names.space_scaledName {name : String} {register : Register}
    (h : Names name.toList register) (scale : Nat) : ' ' ∉ (scaledName name scale).toList := by
  have hdigits := @not_mem_toDigits 10 ' ' (by decide) (by decide) (by decide) scale
  simpa [scaledName] using ⟨h.space, hdigits⟩

theorem registerNamed_nil : registerNamed [] = none := by decide +kernel

theorem Names.ne_empty {text : String} {register : Register} (h : Names text.toList register) :
    text ≠ "" := by
  rintro rfl
  have hnamed := h.named
  rw [String.toList_empty, registerNamed_nil] at hnamed
  contradiction

/-- The value of base and index. Their text is empty when there is neither. -/
def Denotes (registers : Registers) (next : UInt64) (text : String) (base : Option Register)
    (index : Option (Register × Nat)) : Prop :=
  if base = none ∧ index = none then text = ""
  else evaluate (nameValue registers next) text.toList =
    some (AddressForm.sum { size := 64, base := base, index := index } registers next)

/-- The text of the base alone. -/
def NamesBase (text : String) : Option Register → Prop
  | some register => Names text.toList register
  | none => text = ""

theorem toList_plus (first second : String) :
    (first ++ " + " ++ second).toList = first.toList ++ ' ' :: '+' :: ' ' :: second.toList := by
  simp

theorem denotes_base {text : String} {base : Option Register} (h : NamesBase text base) :
    Denotes registers next text base none := by
  cases base with
  | none => exact h
  | some register =>
      rw [NamesBase] at h
      rw [Denotes, if_neg (by simp), evaluate_term h.space h.termValue]
      simp [AddressForm.sum]

theorem denotes_pair {first second : String} {base index : Register}
    (hfirst : Names first.toList base) (hsecond : Names second.toList index) :
    Denotes registers next (first ++ " + " ++ second) (some base) (some (index, 1)) := by
  rw [Denotes, if_neg (by simp), toList_plus,
    evaluate_plus (evaluate_term hfirst.space hfirst.termValue) hsecond.space hsecond.termValue]
  simp [AddressForm.sum]

/-- The text behind a SIB byte with an index. -/
theorem denotes_scaled {first second : String} {base : Option Register} {index : Register}
    (hfirst : NamesBase first base) (hsecond : Names second.toList index) (scale : Nat) :
    Denotes registers next
      (first ++ (if first = "" then "" else " + ") ++ second ++ "*" ++ toString scale) base
      (some (index, scale)) := by
  rw [Denotes, if_neg (by simp)]
  cases base with
  | none =>
      rw [NamesBase] at hfirst
      have htext : first ++ (if first = "" then "" else " + ") ++ second ++ "*" ++ toString scale =
          scaledName second scale := by
        simp [hfirst, scaledName]
      rw [htext,
        evaluate_term (hsecond.space_scaledName scale) (hsecond.termValue_scaledName scale)]
      simp [AddressForm.sum]
  | some register =>
      rw [NamesBase] at hfirst
      have htext : first ++ (if first = "" then "" else " + ") ++ second ++ "*" ++ toString scale =
          first ++ " + " ++ scaledName second scale := by
        rw [if_neg hfirst.ne_empty, scaledName]
        simp only [String.append_assoc]
      rw [htext, toList_plus, evaluate_plus (evaluate_term hfirst.space hfirst.termValue)
        (hsecond.space_scaledName scale) (hsecond.termValue_scaledName scale)]
      simp [AddressForm.sum]

/-- The texts of the 16-bit modes are the names of the registers in the table. -/
theorem mode16Of_eq (rm : UInt8) :
    mode16Of rm = match indexes16[(rm &&& 7).toNat]? with
      | some index => registerOf (bases16[(rm &&& 7).toNat]?.getD 0) 16 false ++ " + " ++
          registerOf index 16 false
      | none => registerOf (bases16[(rm &&& 7).toNat]?.getD 0) 16 false := by
  revert rm
  exact forall_byte (by decide +kernel)

theorem names_registerName (h : Addressable isGather fields) {regNumber : UInt8}
    (hnumber : regNumber.toNat < 16) :
    Names (registerName fields regNumber fields.addrSize).toList
      (.general fields.addrSize regNumber.toNat) :=
  names_registerOf hnumber h.addrSize _

theorem mode16Of_denotes (rm : UInt8) :
    Denotes registers next (mode16Of rm) (bases16[(rm &&& 7).toNat]?.map (.general 16))
      (indexes16[(rm &&& 7).toNat]?.map fun number => (.general 16 number, 1)) := by
  have hbases : ∀ base ∈ bases16, base < 16 := by decide
  have hindexes : ∀ index ∈ indexes16, index < 16 := by decide
  have hrm : (rm &&& 7).toNat < bases16.length := by
    rw [UInt8.toNat_and]
    exact Nat.lt_succ_of_le Nat.and_le_right
  have hbase := names_registerOf (hbases _ (List.getElem_mem hrm)) (Or.inl rfl) false
  rw [mode16Of_eq, List.getElem?_eq_getElem hrm]
  cases hindex : indexes16[(rm &&& 7).toNat]? with
  | none => exact denotes_base hbase
  | some index =>
      have hlt := hindexes index (List.mem_of_getElem? hindex)
      exact denotes_pair hbase (names_registerOf hlt (Or.inl rfl) false)

theorem memoryRegisters_denotes (h : Addressable isGather fields)
    (hgather : (vsibOf fields.info).isSome = isGather) (simd : Simd) :
    Denotes registers next (memoryRegisters fields simd) (describedBase fields)
      (describedIndex isGather fields) := by
  rw [memoryRegisters, describedBase, describedIndex]
  split
  · split
    · rfl
    · exact mode16Of_denotes fields.rm
  rename_i hsize
  split
  · have hbase : NamesBase
        (if fields.mod = 0 ∧ fields.base &&& 7 = 5 then ""
          else registerName fields fields.base fields.addrSize)
        (if fields.mod = 0 ∧ fields.base &&& 7 = 5 then none
          else some (.general fields.addrSize fields.base.toNat)) := by
      split
      · rfl
      · exact names_registerName h h.base_lt
    rw [← hgather]
    cases hvsib : vsibOf fields.info with
    | some vsib => exact denotes_scaled hbase (names_vectorName simd h.index_lt vsib.size) _
    | none =>
        simp only [Option.isSome_none, Bool.false_eq_true, if_false]
        split
        · exact denotes_base hbase
        · exact denotes_scaled hbase (names_registerName h h.index_lt) _
  split
  · apply denotes_base
    split
    · split
      · rename_i h64
        rw [h64]
        exact ⟨by decide, by decide +kernel⟩
      · rename_i h64
        have h32 : fields.addrSize = 32 := by
          have hcases := h.addrSize
          omega
        rw [h32]
        exact ⟨by decide, by decide +kernel⟩
    · rfl
  · exact denotes_base (names_registerName h h.rm_lt)

theorem evaluate_empty : evaluate (nameValue registers next) "".toList = none := by
  have hterm : termValue (nameValue registers next) [] = none := by
    rw [termValue_of_head (by simp), List.takeWhile_nil, nameValue, registerNamed_nil]
    rfl
  rw [String.toList_empty, evaluate, List.splitOn_nil]
  simp [hterm]

theorem Denotes.eq_empty_iff {text : String} {base : Option Register}
    {index : Option (Register × Nat)} (h : Denotes registers next text base index) :
    text = "" ↔ base = none ∧ index = none := by
  rw [Denotes] at h
  constructor
  · rintro rfl
    by_contra hsome
    rw [if_neg hsome, evaluate_empty] at h
    contradiction
  · intro hnone
    rwa [if_pos hnone] at h

theorem toList_toHex (value : UInt64) :
    (toHex value).toList = '0' :: 'x' :: Nat.toDigits 16 value.toNat := by
  simp [toHex]

theorem space_toHex (value : UInt64) : ' ' ∉ (toHex value).toList := by
  rw [toList_toHex]
  simpa using not_mem_toDigits (by decide) (by decide) (by decide) value.toNat

theorem termValue_toHex (lookup : List Char → Option Int) (value : UInt64) :
    termValue lookup (toHex value).toList = some (value.toNat : Int) := by
  rw [toList_toHex]
  exact termValue_hex lookup value.toNat

theorem toNat_negated {displacement : Int64} (hlow : -2 ^ 31 ≤ displacement.toInt)
    (hneg : displacement < 0) : ((-displacement).toUInt64.toNat : Int) = -displacement.toInt := by
  have hlt : displacement.toInt < 0 := Int64.lt_iff_toInt_lt.mp hneg
  rw [toNat_toUInt64, Int64.toInt_neg, Int.bmod_def]
  omega

/-- With a base or an index the displacement is added, with its sign; alone it is an
absolute address at the address size. -/
theorem withDisplacement_value (h : Addressable isGather fields) {text : String}
    (htext : Denotes registers next text (describedBase fields) (describedIndex isGather fields)) :
    ∃ value, evaluate (nameValue registers next) (withDisplacement fields text).toList =
        some value ∧
      value % 2 ^ fields.addrSize = (describedForm isGather fields).address registers next := by
  have hempty := htext.eq_empty_iff
  have hsum : (describedForm isGather fields).sum registers next =
      AddressForm.sum
          { size := 64, base := describedBase fields, index := describedIndex isGather fields }
          registers next +
        fields.displacement.toInt := by
    simp [AddressForm.sum, describedForm]
  rw [AddressForm.address, hsum]
  change ∃ value, _ ∧ value % 2 ^ fields.addrSize = _ % 2 ^ fields.addrSize
  rw [withDisplacement]
  by_cases hnone : describedBase fields = none ∧ describedIndex isGather fields = none
  · rw [if_pos (h.displacement_present hnone.1 hnone.2), if_pos (hempty.mpr hnone)]
    refine ⟨_, evaluate_term (space_toHex _) (termValue_toHex _ _), ?_⟩
    have hdvd : (2 ^ fields.addrSize : Int) ∣ 2 ^ 64 := by
      rcases h.addrSize with hsize | hsize | hsize <;> rw [hsize] <;> norm_num
    rw [toNat_and_mask _ h.addrSize, Int.natCast_emod, toNat_toUInt64, hnone.1, hnone.2,
      Nat.cast_pow, Nat.cast_ofNat, Int.emod_emod_of_dvd _ hdvd, Int.emod_emod]
    simp [AddressForm.sum]
  · rw [Denotes, if_neg hnone] at htext
    have hne : text ≠ "" := fun heq => hnone (hempty.mp heq)
    rw [if_neg hne]
    split
    · split
      · rename_i hneg
        have htoList : (text ++ " - " ++ toHex (-fields.displacement).toUInt64).toList =
            text.toList ++ ' ' :: '-' :: ' ' :: (toHex (-fields.displacement).toUInt64).toList := by
          simp
        rw [htoList, evaluate_minus htext (space_toHex _) (termValue_toHex _ _),
          toNat_negated h.displacement_bounds.1 hneg]
        exact ⟨_, rfl, by rw [sub_neg_eq_add]⟩
      · rename_i hneg
        have hnonneg : 0 ≤ fields.displacement.toInt :=
          Int64.le_iff_toInt_le.mp (Int64.not_lt.mp hneg)
        have hbound := h.displacement_bounds.2
        have hvalue : (fields.displacement.toUInt64.toNat : Int) = fields.displacement.toInt := by
          rw [toNat_toUInt64]
          omega
        rw [toList_plus, evaluate_plus htext (space_toHex _) (termValue_toHex _ _), hvalue]
        exact ⟨_, rfl, rfl⟩
    · rename_i habsent
      have hzero := h.displacement_absent (by simpa using habsent)
      rw [htext, hzero]
      exact ⟨_, rfl, by simp⟩

/-- The text of a memory operand denotes the address form of the fields. -/
theorem memoryText_value (h : Addressable isGather fields)
    (hgather : (vsibOf fields.info).isSome = isGather) (simd : Simd) (registers : Registers)
    (next : UInt64) :
    ∃ value, evaluate (nameValue registers next)
        (withDisplacement fields (memoryRegisters fields simd)).toList = some value ∧
      value % 2 ^ fields.addrSize = (describedForm isGather fields).address registers next :=
  withDisplacement_value h (memoryRegisters_denotes h hgather simd)

end Texts

end Voidwalk.MemoryText

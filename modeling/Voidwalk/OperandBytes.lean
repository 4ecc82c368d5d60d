import Voidwalk.MemoryText

/-!
The bytes of a memory operand, ModRM, SIB and displacement: the fields that the decoder
fills from them describe the address form that the tables give them.
-/

namespace Voidwalk.OperandBytes

open Voidwalk.InstructionRendering
open Voidwalk.InstructionDecoding
open Voidwalk.MappedFile.AddressSpace
open Voidwalk.FileFields
open Voidwalk.EncodedValues
open Voidwalk.EffectiveAddress
open Voidwalk.MemoryText
open Voidwalk.Library.Bytes
open Voidwalk.Library.CountingReader

theorem signedValue_bounds {bytes : List UInt8} (hwidth : bytes.length ≤ 4) :
    -2 ^ 31 ≤ signedValue bytes ∧ signedValue bytes < 2 ^ 31 := by
  have hpos : 0 < 256 ^ bytes.length := Nat.pow_pos (by decide)
  have hmodulus : (256 : Int) ^ bytes.length ≤ 2 ^ 32 := by
    calc (256 : Int) ^ bytes.length ≤ 256 ^ 4 := pow_le_pow_right₀ (by decide) hwidth
      _ = 2 ^ 32 := by norm_num
  have hlow := @Int.le_bmod (littleEndian bytes) _ hpos
  have hhigh := @Int.bmod_lt (littleEndian bytes) _ hpos
  rw [signedValue]
  push_cast at hlow hhigh
  omega

theorem withDisplacementBytes_append (form : AddressForm) (bytes behind : List UInt8) :
    withDisplacementBytes form bytes.length (bytes ++ behind) =
      some { form with displacement := signedValue bytes } := by
  rw [withDisplacementBytes, if_pos (by simp), List.take_left]

section Bits

theorem toNat_mod (modRM : UInt8) : (modRM >>> 6).toNat = modRM.toNat / 64 := by
  rw [UInt8.toNat_shiftRight, Nat.shiftRight_eq_div_pow]
  rfl

theorem toNat_low (byte : UInt8) : (byte &&& 7).toNat = byte.toNat % 8 := by
  rw [UInt8.toNat_and]
  exact Nat.and_two_pow_sub_one_eq_mod byte.toNat 3

/-- A register number of ModRM or SIB: three bits of the byte and one of the prefix. -/
theorem toNat_extended (byte : UInt8) {extension : Nat} (hextension : extension < 2) :
    ((byte &&& 7) ||| UInt8.ofNat extension <<< (3 : UInt8)).toNat =
        byte.toNat % 8 + 8 * extension ∧
      ((byte &&& 7) ||| UInt8.ofNat extension <<< (3 : UInt8)) &&& 7 = byte &&& 7 := by
  revert byte
  interval_cases extension
  · exact forall_byte (by decide +kernel)
  · exact forall_byte (by decide +kernel)

theorem toNat_index (sib : UInt8) {extension : Nat} (hextension : extension < 2) :
    (((sib >>> 3) &&& 7) ||| UInt8.ofNat (2 * extension) <<< (2 : UInt8)).toNat =
      sib.toNat / 8 % 8 + 8 * extension := by
  revert sib
  interval_cases extension
  · exact forall_byte (by decide +kernel)
  · exact forall_byte (by decide +kernel)

theorem toNat_scale (sib : UInt8) : ((1 : UInt8) <<< (sib >>> 6)).toNat = 2 ^ (sib.toNat / 64) := by
  revert sib
  exact forall_byte (by decide +kernel)

end Bits

section Displacement

variable {source : ByteSource} {consumed : Consumed UInt8 15} {fields : Fields} {rmField : UInt8}

/-- The fields behind a displacement of these bytes. -/
structure Displaced (fields : Fields) (rmField : UInt8) (bytes : List UInt8) (later : Fields) :
    Prop where
  length : bytes.length = displacementSize fields rmField
  fields : later = { fields with
    hasDisplacement := bytes ≠ [], displacement := later.displacement }
  displacement : later.displacement.toInt = signedValue bytes

theorem displacementSize_le (fields : Fields) (rmField : UInt8) :
    displacementSize fields rmField ≤ 4 := by
  rw [displacementSize]
  split_ifs <;> decide

theorem decodeDisplacement_yields (habsent : fields.hasDisplacement = false)
    (hzero : fields.displacement = 0) :
    Yields source consumed (decodeDisplacement source fields rmField) fun later final =>
      ∃ bytes, final.symbols = consumed.symbols ++ bytes ∧
        Displaced fields rmField bytes later := by
  have hsize := displacementSize_le fields rmField
  rw [decodeDisplacement]
  split
  · rename_i hpresent
    refine Yields.bind (readLittleEndian_value (by omega)) fun value later _ hvalue => ?_
    obtain ⟨bytes, hlength, hsymbols, rfl⟩ := hvalue
    have hne : bytes ≠ [] := by
      rintro rfl
      exact hpresent hlength.symm
    refine Yields.pure ⟨bytes, hsymbols, hlength, ?_, ?_⟩
    · simp [hne]
    · rw [← hlength]
      exact toInt_signExtend (List.length_pos_iff.mpr hne) (by omega)
  · rename_i hnone
    refine Yields.pure ⟨[], by simp, ?_, ?_, ?_⟩
    · exact (not_not.mp hnone).symm
    · simp [← habsent]
    · rw [hzero]
      rfl

end Displacement

section Forms

variable {fields : Fields} {isGather : Bool} {bytes : List UInt8}

theorem toNat_eq_iff (byte : UInt8) {value : Nat} (hvalue : value < 256) :
    byte.toNat = value ↔ byte = UInt8.ofNat value := by
  rw [← UInt8.toNat_inj, UInt8.toNat_ofNat_of_lt' hvalue]

theorem Displaced.form {rmField : UInt8} {later : Fields}
    (h : Displaced fields rmField bytes later) :
    describedForm isGather later =
      { describedForm isGather fields with displacement := signedValue bytes } := by
  rw [describedForm, h.displacement, h.fields]
  rfl

theorem displacementWidth_eq (wide : Nat) (mod : UInt8) :
    displacementWidth wide mod.toNat = if mod = 2 then wide else if mod = 1 then 1 else 0 := by
  rw [displacementWidth]
  simp only [@toNat_eq_iff mod 2 (by decide), @toNat_eq_iff mod 1 (by decide)]
  rfl

theorem form16_append (haddr : fields.addrSize = 16)
    (hlength : bytes.length = displacementSize fields (fields.rm &&& 7)) (behind : List UInt8) :
    form16 fields.mod.toNat (fields.rm &&& 7).toNat (bytes ++ behind) =
      some { describedForm isGather fields with displacement := signedValue bytes } := by
  have hcondition : fields.mod.toNat = 0 ∧ (fields.rm &&& 7).toNat = 6 ↔
      fields.mod = 0 ∧ fields.rm &&& 7 = 6 :=
    and_congr (toNat_eq_iff _ (by decide)) (toNat_eq_iff _ (by decide))
  rw [displacementSize, if_pos haddr] at hlength
  rw [form16, displacementWidth_eq, describedForm, describedBase, describedIndex, if_pos haddr,
    if_pos haddr, haddr]
  by_cases habsolute : fields.mod = 0 ∧ fields.rm &&& 7 = 6
  · rw [if_pos (Or.inr habsolute)] at hlength
    rw [if_pos (hcondition.mpr habsolute), if_pos habsolute, if_pos habsolute, ← hlength,
      withDisplacementBytes_append]
  · have hwidth : bytes.length =
        if fields.mod = 2 then 2 else if fields.mod = 1 then 1 else 0 := by
      rw [hlength]
      simp only [habsolute, or_false]
    rw [if_neg (hcondition.not.mpr habsolute), if_neg habsolute, if_neg habsolute, ← hwidth,
      withDisplacementBytes_append]

theorem formSIB_append {extension : Extension} {sib : UInt8} (haddr : fields.addrSize ≠ 16)
    (hsib : fields.hasSIB = true) (hbase : fields.base.toNat = sib.toNat % 8 + 8 * extension.b)
    (hlow : fields.base &&& 7 = sib &&& 7)
    (hindex : fields.index.toNat = sib.toNat / 8 % 8 + 8 * extension.x)
    (hscale : fields.scale.toNat = 2 ^ (sib.toNat / 64))
    (hlength : bytes.length = displacementSize fields 4) (behind : List UInt8) :
    formSIB fields.addrSize extension fields.mod.toNat sib.toNat (bytes ++ behind) =
      some { describedForm extension.isGather fields with
        displacement := signedValue bytes } := by
  have hcondition : fields.mod.toNat = 0 ∧ sib.toNat % 8 = 5 ↔
      fields.mod = 0 ∧ fields.base &&& 7 = 5 := by
    rw [hlow, ← toNat_low]
    exact and_congr (toNat_eq_iff _ (by decide)) (toNat_eq_iff _ (by decide))
  have hsibIndex : sibIndex fields.addrSize extension sib.toNat =
      describedIndex extension.isGather fields := by
    have hnone : fields.index.toNat = 4 ↔ fields.index = 4 := toNat_eq_iff _ (by decide)
    simp only [sibIndex, describedIndex, if_neg haddr, if_pos hsib, ← hindex, ← hscale, hnone]
  rw [displacementSize, if_neg haddr] at hlength
  rw [formSIB, displacementWidth_eq, hsibIndex, describedForm, describedBase, if_neg haddr,
    if_pos hsib, ← hbase]
  have h45 : ¬ (4 : UInt8) = 5 := by decide
  simp only [hsib, h45, false_or, true_and] at hlength
  by_cases habsolute : fields.mod = 0 ∧ fields.base &&& 7 = 5
  · rw [if_pos (Or.inr habsolute)] at hlength
    rw [if_pos (hcondition.mpr habsolute), if_pos habsolute, ← hlength,
      withDisplacementBytes_append]
  · have hwidth : bytes.length =
        if fields.mod = 2 then 4 else if fields.mod = 1 then 1 else 0 := by
      rw [hlength]
      simp only [habsolute, or_false]
    rw [if_neg (hcondition.not.mpr habsolute), if_neg habsolute, ← hwidth,
      withDisplacementBytes_append]

theorem formModRM_append {extension : Extension} (haddr : fields.addrSize ≠ 16)
    (hsib : fields.hasSIB = false)
    (hrm : fields.rm.toNat = (fields.rm &&& 7).toNat + 8 * extension.b)
    (hplain : fields.rm &&& 7 ≠ 4)
    (hlength : bytes.length = displacementSize fields (fields.rm &&& 7)) (behind : List UInt8) :
    formModRM fields.is64Bit fields.addrSize extension fields.mod.toNat (fields.rm &&& 7).toNat
        (bytes ++ behind) =
      some { describedForm isGather fields with displacement := signedValue bytes } := by
  have hcondition : fields.mod.toNat = 0 ∧ (fields.rm &&& 7).toNat = 5 ↔
      fields.mod = 0 ∧ fields.rm &&& 7 = 5 :=
    and_congr (toNat_eq_iff _ (by decide)) (toNat_eq_iff _ (by decide))
  have hsibless : ¬ (fields.rm &&& 7).toNat = 4 := (toNat_eq_iff _ (by decide)).not.mpr hplain
  have hindex : describedIndex isGather fields = none := by
    rw [describedIndex, if_neg haddr, if_neg (by simp [hsib])]
  rw [displacementSize, if_neg haddr] at hlength
  simp only [hsib, Bool.false_eq_true, false_and, or_false] at hlength
  rw [formModRM.eq_def, displacementWidth_eq, describedForm, hindex, describedBase, if_neg haddr,
    if_neg hsibless, if_neg (Bool.eq_false_iff.mp hsib), ← hrm]
  by_cases habsolute : fields.mod = 0 ∧ fields.rm &&& 7 = 5
  · rw [if_pos (Or.inr habsolute)] at hlength
    rw [if_pos (hcondition.mpr habsolute), if_pos habsolute, ← hlength,
      withDisplacementBytes_append]
  · have hwidth : bytes.length =
        if fields.mod = 2 then 4 else if fields.mod = 1 then 1 else 0 := by
      rw [hlength]
      simp only [habsolute, or_false]
    rw [if_neg (hcondition.not.mpr habsolute), if_neg habsolute, ← hwidth,
      withDisplacementBytes_append]

end Forms

section Operands

variable {source : ByteSource} {consumed : Consumed UInt8 15} {fields later : Fields}
  {isGather : Bool} {extension : Extension} {rmField modRM : UInt8} {bytes tail : List UInt8}

/-- Without a base there is a displacement. -/
theorem displacementSize_ne_zero (hbase : describedBase fields = none) :
    displacementSize fields (fields.rm &&& 7) ≠ 0 := by
  have hrm : (fields.rm &&& 7).toNat < bases16.length := by
    rw [toNat_low]
    exact Nat.mod_lt _ (by decide)
  rw [describedBase] at hbase
  rw [displacementSize]
  split
  · rename_i haddr
    rw [if_pos haddr] at hbase
    split at hbase
    · rename_i habsolute
      rw [if_pos (Or.inr habsolute)]
      decide
    · rw [List.getElem?_eq_getElem hrm] at hbase
      contradiction
  · rename_i haddr
    rw [if_neg haddr] at hbase
    split at hbase
    · rename_i hsib
      split at hbase
      · rename_i habsolute
        rw [if_pos (Or.inr ⟨habsolute.1, Or.inr ⟨hsib, habsolute.2⟩⟩)]
        decide
      · contradiction
    · split at hbase
      · rename_i habsolute
        rw [if_pos (Or.inr ⟨habsolute.1, Or.inl habsolute.2⟩)]
        decide
      · contradiction

theorem Displaced.addressable (h : Displaced fields (fields.rm &&& 7) bytes later)
    (haddr : fields.addrSize = 16 ∨ fields.addrSize = 32 ∨ fields.addrSize = 64)
    (hrm : fields.rm.toNat < 16) (hindex : fields.index.toNat < 16)
    (hbase : fields.base.toNat < 16) : Addressable isGather later := by
  have hsize := displacementSize_le fields (fields.rm &&& 7)
  have hpresent : later.hasDisplacement = decide (bytes ≠ []) :=
    congrArg Fields.hasDisplacement h.fields
  constructor
  · rw [h.fields]
    exact haddr
  · rw [h.fields]
    exact hrm
  · rw [h.fields]
    exact hindex
  · rw [h.fields]
    exact hbase
  · rw [h.displacement]
    exact signedValue_bounds (h.length ▸ hsize)
  · intro habsent
    rw [hpresent, decide_eq_false_iff_not, not_not] at habsent
    apply Int64.toInt_inj.mp
    rw [h.displacement, habsent]
    rfl
  · intro hnoBase _
    have hbase : describedBase fields = none := by
      rw [← hnoBase, h.fields]
      rfl
    rw [hpresent, decide_eq_true_eq]
    rintro rfl
    exact displacementSize_ne_zero hbase h.length.symm

/-- The fields behind a ModRM byte, at the address size in force. -/
structure ModRMRead (extension : Extension) (modRM : UInt8) (fields : Fields) : Prop where
  hasModRM : fields.hasModRM = true
  mod : fields.mod = modRM >>> 6
  rm : fields.rm = (modRM &&& 7) ||| UInt8.ofNat extension.b <<< (3 : UInt8)
  x_lt : extension.x < 2
  b_lt : extension.b < 2
  rexX : fields.rexPrefix &&& 2 = UInt8.ofNat (2 * extension.x)
  rexB : fields.rexPrefix &&& 1 = UInt8.ofNat extension.b
  addrSize : fields.addrSize = 16 ∨ fields.addrSize = 32 ∨ fields.addrSize = 64
  index : fields.index = 0
  base : fields.base = 0
  hasSIB : fields.hasSIB = false
  hasDisplacement : fields.hasDisplacement = false
  displacement : fields.displacement = 0

/-- The fields behind the bytes of a memory operand describe its address form. -/
structure MemoryRead (extension : Extension) (modRM : UInt8) (tail : List UInt8)
    (fields later : Fields) : Prop where
  info : later.info = fields.info
  is64Bit : later.is64Bit = fields.is64Bit
  hasModRM : later.hasModRM = true
  mod : later.mod = fields.mod
  addrSize : later.addrSize = fields.addrSize
  addressable : Addressable extension.isGather later
  form : (extension.isGather = true → later.hasSIB = true) → ∀ behind,
    memoryForm fields.is64Bit fields.addrSize extension (modRM :: (tail ++ behind)) =
      some (describedForm extension.isGather later)

theorem ModRMRead.rm_low (h : ModRMRead extension modRM fields) :
    fields.rm &&& 7 = modRM &&& 7 := by
  rw [h.rm]
  exact (toNat_extended modRM h.b_lt).2

theorem ModRMRead.toNat_rm (h : ModRMRead extension modRM fields) :
    fields.rm.toNat = (fields.rm &&& 7).toNat + 8 * extension.b := by
  rw [h.rm_low, toNat_low, h.rm]
  exact (toNat_extended modRM h.b_lt).1

theorem ModRMRead.rm_lt (h : ModRMRead extension modRM fields) : fields.rm.toNat < 16 := by
  have hb := h.b_lt
  have hlow := Nat.mod_lt modRM.toNat (by decide : 0 < 8)
  rw [h.toNat_rm, h.rm_low, toNat_low]
  omega

theorem ModRMRead.readWithoutSIB (h : ModRMRead extension modRM fields) (hmemory : fields.mod ≠ 3)
    (hplain : ¬ (fields.addrSize ≠ 16 ∧ modRM &&& 7 = 4))
    (hdisplaced : Displaced fields (fields.rm &&& 7) tail later) :
    MemoryRead extension modRM tail fields later := by
  have hsame := hdisplaced.fields
  refine ⟨?_, ?_, ?_, ?_, ?_, ?_, ?_⟩
  · rw [hsame]
  · rw [hsame]
  · rw [hsame]
    exact h.hasModRM
  · rw [hsame]
  · rw [hsame]
  · exact hdisplaced.addressable h.addrSize h.rm_lt (by rw [h.index]; decide)
      (by rw [h.base]; decide)
  · intro hgather behind
    have hsib : later.hasSIB = false := by
      rw [hsame]
      exact h.hasSIB
    have hisGather : extension.isGather = false := by
      by_contra htrue
      rw [hgather (by simpa using htrue)] at hsib
      contradiction
    have hmod : ¬ fields.mod.toNat = 3 := (toNat_eq_iff _ (by decide)).not.mpr hmemory
    rw [memoryForm, ← toNat_low, ← toNat_mod, ← h.mod, ← h.rm_low, hdisplaced.form]
    dsimp only
    rw [if_neg (by simp [hmod, hisGather])]
    split
    · rename_i haddr
      exact form16_append haddr hdisplaced.length behind
    · rename_i haddr
      refine formModRM_append haddr h.hasSIB h.toNat_rm ?_ hdisplaced.length behind
      rw [h.rm_low]
      exact fun hrm => hplain ⟨haddr, hrm⟩

theorem ModRMRead.readWithSIB (h : ModRMRead extension modRM fields) (hmemory : fields.mod ≠ 3)
    (haddr : fields.addrSize ≠ 16) (hrm : modRM &&& 7 = 4) {sib : UInt8}
    (hdisplaced : Displaced (withSIB fields sib) (fields.rm &&& 7) tail later) :
    MemoryRead extension modRM (sib :: tail) fields later := by
  have hsame := hdisplaced.fields
  have hbaseBits : (withSIB fields sib).base =
      (sib &&& 7) ||| UInt8.ofNat extension.b <<< (3 : UInt8) := by
    rw [← h.rexB]
    rfl
  have hbase := toNat_extended sib h.b_lt
  have hindexBits : (withSIB fields sib).index =
      ((sib >>> 3) &&& 7) ||| UInt8.ofNat (2 * extension.x) <<< (2 : UInt8) := by
    rw [← h.rexX]
    rfl
  have hindex := toNat_index sib h.x_lt
  rw [← hbaseBits] at hbase
  rw [← hindexBits] at hindex
  refine ⟨?_, ?_, ?_, ?_, ?_, ?_, ?_⟩
  · rw [hsame]
    rfl
  · rw [hsame]
    rfl
  · rw [hsame]
    exact h.hasModRM
  · rw [hsame]
    rfl
  · rw [hsame]
    rfl
  · have hx := h.x_lt
    have hb := h.b_lt
    exact @Displaced.addressable (withSIB fields sib) _ _ _ hdisplaced h.addrSize h.rm_lt
      (by omega) (by omega)
  · intro _ behind
    have hmod : ¬ fields.mod.toNat = 3 := (toNat_eq_iff _ (by decide)).not.mpr hmemory
    have hrm4 : modRM.toNat % 8 = 4 := by
      rw [← toNat_low, hrm]
      rfl
    rw [memoryForm, ← toNat_mod, ← h.mod, hrm4, hdisplaced.form]
    dsimp only
    rw [if_neg (by simp [hmod, haddr]), if_neg haddr, formModRM.eq_def, if_pos rfl]
    refine @formSIB_append (withSIB fields sib) _ _ _ haddr rfl hbase.1 hbase.2 hindex
      (toNat_scale sib) ?_ behind
    rw [hdisplaced.length, h.rm_low, hrm]

theorem decodeMemory_reads (h : ModRMRead extension modRM fields) (hmemory : fields.mod ≠ 3) :
    Yields source consumed (decodeMemory source fields modRM) fun later final =>
      ∃ tail, final.symbols = consumed.symbols ++ tail ∧
        MemoryRead extension modRM tail fields later := by
  rw [decodeMemory, if_pos ⟨h.hasModRM, hmemory⟩, decodeSIB, ← h.rm_low]
  split
  · rename_i hsib
    rw [bind_assoc]
    refine Yields.bind Yields.next fun sib behind _ hsymbols => ?_
    rw [pure_bind]
    refine (@decodeDisplacement_yields source behind (withSIB fields sib) _ h.hasDisplacement
      h.displacement).mono fun later final _ hlater => ?_
    obtain ⟨tail, hfinal, hdisplaced⟩ := hlater
    refine ⟨sib :: tail, by rw [hfinal, hsymbols, List.append_assoc]; rfl, ?_⟩
    exact h.readWithSIB hmemory hsib.1 (h.rm_low ▸ hsib.2) hdisplaced
  · rename_i hplain
    rw [pure_bind]
    refine (decodeDisplacement_yields h.hasDisplacement h.displacement).mono
      fun later final _ hlater => ?_
    obtain ⟨tail, hfinal, hdisplaced⟩ := hlater
    exact ⟨tail, hfinal, h.readWithoutSIB hmemory (h.rm_low ▸ hplain) hdisplaced⟩

end Operands

end Voidwalk.OperandBytes

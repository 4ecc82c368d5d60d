import Voidwalk.VexForms

/-!
How many bytes the instructions of the maps 0F 38 and 0F 3A take, behind the legacy
escapes and behind VEX: ModRM and what it asks for, and in 0F 3A one byte more.
-/

namespace Voidwalk.ThreeByteLengths

open Voidwalk.MappedFile
open Voidwalk.OpcodeRows
open Voidwalk.TwoByteTables
open Voidwalk.ThreeByteTables
open Voidwalk.RowResolution
open Voidwalk.InstructionRendering
open Voidwalk.InstructionDecoding
open Voidwalk.DecodeLineContract
open Voidwalk.SelfDelimiting
open Voidwalk.PrefixedOpcodes
open Voidwalk.ParallelDecoding
open Voidwalk.PrefixEffects
open Voidwalk.MemoryRows
open Voidwalk.RowModes
open Voidwalk.VexForms
open Voidwalk.Library.Bytes
open Voidwalk.Library.CountingReader
open Voidwalk.Library.TwoReaders

/-- A row with one immediate of one byte, or with none. -/
structure ImmediateBytes (hasImm8 : Bool) (info : OpcodeInfo) : Prop where
  count : immediateCount info.operands.toList = hasImm8.toNat
  immediate : ∀ operand ∈ info.operands.toList, operand.addressingMode.isImmediate = true →
    (operand.addressingMode = .I ∨ operand.addressingMode = .L) ∧ operand.size = .b

instance (hasImm8 : Bool) (info : OpcodeInfo) : Decidable (ImmediateBytes hasImm8 info) :=
  decidable_of_iff
    (immediateCount info.operands.toList = hasImm8.toNat ∧
      ∀ operand ∈ info.operands.toList, operand.addressingMode.isImmediate = true →
        (operand.addressingMode = .I ∨ operand.addressingMode = .L) ∧ operand.size = .b)
    ⟨fun h => ⟨h.1, h.2⟩, fun h => ⟨h.1, h.2⟩⟩

section Rows

theorem immediateBytes_of_modes {info : OpcodeInfo}
    (h : Modes (fun mode => mode.isImmediate = false) info) : ImmediateBytes false info := by
  constructor
  · rw [immediateCount, Bool.toNat_false, List.countP_eq_zero]
    intro operand hoperand
    rw [h operand hoperand]
    decide
  · intro operand hoperand himmediate
    rw [h operand hoperand] at himmediate
    contradiction

theorem ImmediateBytes.modes {info : OpcodeInfo} (h : ImmediateBytes false info) :
    Modes (fun mode => mode.isImmediate = false) info := by
  have hcount := h.count
  rw [immediateCount, Bool.toNat_false, List.countP_eq_zero] at hcount
  intro operand hoperand
  simpa using hcount operand hoperand

/-- A row of the two maps, as the lookups need it. -/
structure LongRow (hasImm8 : Bool) (info : OpcodeInfo) : Prop where
  immediates : ImmediateBytes hasImm8 info
  ungrouped : hasImm8 = true → info.groupNumber ≤ 0

instance (hasImm8 : Bool) (info : OpcodeInfo) : Decidable (LongRow hasImm8 info) :=
  decidable_of_iff (ImmediateBytes hasImm8 info ∧ (hasImm8 = true → info.groupNumber ≤ 0))
    ⟨fun h => ⟨h.1, h.2⟩, fun h => ⟨h.1, h.2⟩⟩

/-- What an assignment may write to a slot from `first` on. -/
def Fills (first : Nat) (hasImm8 : Nat → Bool) (index : Nat) : RowUpdate → Prop
  | .info row => index < first ∨ LongRow (hasImm8 index) row
  | _ => False

instance (first : Nat) (hasImm8 : Nat → Bool) (index : Nat) (update : RowUpdate) :
    Decidable (Fills first hasImm8 index update) :=
  match update with
  | .info _ => inferInstanceAs (Decidable (_ ∨ _))
  | .isInvalid => instDecidableFalse
  | .text64 _ => instDecidableFalse
  | .default64 _ => instDecidableFalse

theorem assigned_longRow {first : Nat} {hasImm8 : Nat → Bool} {n : Nat}
    {assignments : List Assignment} (i : Fin n) (hfirst : first ≤ i)
    (hrows : ∀ assignment ∈ assignments, Fills first hasImm8 assignment.index assignment.update) :
    (assigned n assignments i).text = "" ∨ LongRow (hasImm8 i) (assigned n assignments i) := by
  refine assigned_induction (fun info => info.text = "" ∨ LongRow (hasImm8 i) info) n assignments i
    (Or.inl rfl) ?_
  rintro ⟨index, update⟩ hassignment hindex info -
  have hfills := hrows _ hassignment
  rw [hindex] at hfills
  cases update with
  | info row => exact Or.inr (hfills.resolve_left (Nat.not_lt.mpr hfirst))
  | isInvalid => exact hfills.elim
  | text64 name => exact hfills.elim
  | default64 mode => exact hfills.elim

theorem threeByteTable_longRow (i : Fin 1024) :
    (threeByteTable i).text = "" ∨ LongRow (512 ≤ i.val) (threeByteTable i) :=
  @assigned_longRow 0 (fun slot => 512 ≤ slot) 1024 _ i (Nat.zero_le _) (by decide +kernel)

theorem vexTable_longRow (i : Fin 3072) (hmap : 1024 ≤ i.val) :
    (vexTable i).text = "" ∨ LongRow (2048 ≤ i.val) (vexTable i) :=
  @assigned_longRow 1024 (fun slot => 2048 ≤ slot) 3072 _ i hmap (by decide +kernel)

theorem threeByteRow_immediates (hasImm8 : Bool) :
    ImmediateBytes hasImm8 (threeByteRow hasImm8) := by
  cases hasImm8 with
  | false => decide
  | true => decide

/-- Which of the two maps `simd` names. -/
structure LongMap (hasImm8 : Bool) (simd : Simd) : Prop where
  map : simd.map = if hasImm8 then 3 else 2
  pp_le : simd.pp.toNat ≤ 3

section Maps

variable {hasImm8 : Bool} {simd : Simd}

theorem LongMap.toNat_map (h : LongMap hasImm8 simd) : simd.map.toNat = 2 + hasImm8.toNat := by
  rw [h.map]
  cases hasImm8 with
  | false => rfl
  | true => rfl

theorem LongMap.known (h : LongMap hasImm8 simd) : KnownMap simd := by
  have hmap := h.toNat_map
  have hbit := Bool.toNat_le hasImm8
  constructor
  · exact h.pp_le
  · omega
  · omega

theorem LongMap.beq_three (h : LongMap hasImm8 simd) : (simd.map == 3) = hasImm8 := by
  rw [h.map]
  cases hasImm8 with
  | false => rfl
  | true => rfl

theorem LongMap.ne_zero (h : LongMap hasImm8 simd) : simd.map ≠ 0 := by
  rw [h.map]
  cases hasImm8 with
  | false => decide
  | true => decide

theorem LongMap.ne_one (h : LongMap hasImm8 simd) : simd.map ≠ 1 := by
  rw [h.map]
  cases hasImm8 with
  | false => decide
  | true => decide

theorem threeByteResolvedInfo_immediates (h : LongMap hasImm8 simd) (opcode : UInt8) :
    Ensures (threeByteResolvedInfo opcode simd) (ImmediateBytes hasImm8) := by
  have hmap := h.toNat_map
  have hopcode := opcode.toNat_lt
  rw [threeByteResolvedInfo, h.beq_three]
  split
  · rename_i hcrc
    have htwo : simd.map = 2 := by
      simp only [Bool.and_eq_true, beq_iff_eq] at hcrc
      exact hcrc.1.1
    have himm : hasImm8 = false := by
      rw [← h.beq_three, htwo]
      rfl
    subst himm
    refine Ensures.pure ?_
    split
    · decide
    · decide
  split
  · exact Ensures.pure (threeByteRow_immediates hasImm8)
  · rename_i hpp
    have hpp' : simd.pp.toNat ≤ 1 := by
      rw [gt_iff_lt, UInt8.lt_iff_toNat_lt, Nat.not_lt] at hpp
      exact hpp
    refine Ensures.bind (P := fun row => row.text = "" ∨ ImmediateBytes hasImm8 row)
      (Ensures.at fun slot hslot => ?_) ?_
    · have hhalf : decide (512 ≤ slot.val) = hasImm8 := by
        cases hasImm8 with
        | false =>
            rw [Bool.toNat_false] at hmap
            rw [decide_eq_false_iff_not]
            omega
        | true =>
            rw [Bool.toNat_true] at hmap
            rw [decide_eq_true_eq]
            omega
      have hrow := threeByteTable_longRow slot
      rw [hhalf] at hrow
      exact hrow.imp id LongRow.immediates
    · intro row hrow
      refine Ensures.pure ?_
      split
      · exact threeByteRow_immediates hasImm8
      · rename_i hnamed
        exact hrow.resolve_left hnamed

theorem vexRenamed_eq (h : LongMap hasImm8 simd) (opcode modRM : UInt8) (info : OpcodeInfo) :
    vexRenamed opcode modRM simd info = info := by
  simp only [vexRenamed, beq_false_of_ne h.ne_one, Bool.false_and, renamedIf, Bool.false_eq_true, if_false]

/-- Behind a row that is found, the lookup of the maps 2 and 3 goes on alike. -/
theorem vexRow_immediates (h : LongMap hasImm8 simd) (opcode modRM : UInt8) {row : OpcodeInfo}
    (hrow : LongRow hasImm8 row) :
    Ensures (followGroup (gatherResized opcode simd (vexRenamed opcode modRM simd row))
      (gatherResized opcode simd (vexRenamed opcode modRM simd row)).groupNumber modRM)
      (ImmediateBytes hasImm8) := by
  rw [vexRenamed_eq h]
  cases hasImm8 with
  | false =>
      have hmodes := (hrow.immediates.modes.gatherResized opcode simd).followGroup
        twoByteGroupTable_modes (gatherResized opcode simd row).groupNumber modRM
      exact ⟨fun info hinfo => immediateBytes_of_modes (hmodes.of_ok info hinfo)⟩
  | true =>
      have hmap : simd.map = 3 := h.map
      have hsame : gatherResized opcode simd row = row := by
        rw [gatherResized, hmap]
        rfl
      rw [hsame, followGroup, if_pos (hrow.ungrouped rfl)]
      exact Ensures.pure hrow.immediates

theorem vexResolvedInfo_immediates (h : LongMap hasImm8 simd) (opcode modRM : UInt8) :
    Ensures (vexResolvedInfo opcode modRM simd) (ImmediateBytes hasImm8) := by
  have hmap := h.toNat_map
  have hpp := h.pp_le
  have hopcode := opcode.toNat_lt
  rw [vexResolvedInfo, h.beq_three]
  refine Ensures.bind (P := fun row => row.text = "" ∨ LongRow hasImm8 row)
    (Ensures.at fun slot hslot => ?_) ?_
  · have hhalf : decide (2048 ≤ slot.val) = hasImm8 := by
      cases hasImm8 with
      | false =>
          rw [Bool.toNat_false] at hmap
          rw [decide_eq_false_iff_not]
          omega
      | true =>
          rw [Bool.toNat_true] at hmap
          rw [decide_eq_true_eq]
          omega
    have hrow := vexTable_longRow slot (by omega)
    rw [hhalf] at hrow
    exact hrow
  · intro row hrow
    split
    · exact Ensures.pure (threeByteRow_immediates hasImm8)
    · rename_i hnamed
      exact vexRow_immediates h opcode modRM (hrow.resolve_left hnamed)

/-- The row of any opcode of the maps, named or not. -/
theorem rowOf_immediates (h : LongMap hasImm8 simd) (is64Bit : Bool) (opcode modRM : UInt8) :
    ∃ info, rowOf is64Bit opcode modRM simd = .ok info ∧ ImmediateBytes hasImm8 info := by
  obtain ⟨info, hinfo, -⟩ := rowOf_ok is64Bit opcode modRM h.known
  refine ⟨info, hinfo, ?_⟩
  rw [rowOf, if_neg h.ne_zero, if_neg h.ne_one] at hinfo
  split at hinfo
  · exact (vexResolvedInfo_immediates h opcode modRM).of_ok info hinfo
  · exact (threeByteResolvedInfo_immediates h opcode).of_ok info hinfo

theorem hasModRM_long (h : LongMap hasImm8 simd) (opcode : UInt8) :
    hasModRM opcode simd = .ok true := by
  rw [hasModRM, beq_false_of_ne h.ne_one, if_neg h.ne_zero, if_neg h.ne_one]
  split
  · rfl
  · rfl

end Maps

end Rows

/-- Fields whose addressing form takes as many bytes. -/
structure SameForm (fields fields' : Fields) : Prop where
  hasModRM : fields'.hasModRM = fields.hasModRM
  mod : fields'.mod = fields.mod
  hasSIB : fields'.hasSIB = fields.hasSIB
  base : fields'.base &&& 7 = fields.base &&& 7

/-- The locals behind the opcode: an opcode of the two maps, and the same prefix 67. -/
structure LongPair (hasImm8 hasImm8' : Bool) (locals locals' : DecodeLocals) : Prop where
  long : LongMap hasImm8 locals.simd
  long' : LongMap hasImm8' locals'.simd
  form : SameForm locals.fields locals'.fields
  addrSize : locals'.hasAddrSizePrefix = locals.hasAddrSizePrefix

section Stages

variable {source source' : ByteSource} {consumed consumed' : Consumed UInt8 15}
  {locals locals' : DecodeLocals} {is64Bit hasImm8 hasImm8' : Bool} {vaddr : UInt64}

theorem decodeModRM_long (h : LongPair hasImm8 hasImm8' locals locals') :
    Alike source source' consumed consumed' (decodeModRM source locals)
      (decodeModRM source' locals') fun addressed addressed' =>
        LongPair hasImm8 hasImm8' addressed.1 addressed'.1 ∧ addressed'.2 = addressed.2 := by
  have hmodRM : (attempt (hasModRM locals.fields.opcode locals.simd) : Decoding Bool) =
      pure true := by
    rw [hasModRM_long h.long]
    rfl
  have hmodRM' : (attempt (hasModRM locals'.fields.opcode locals'.simd) : Decoding Bool) =
      pure true := by
    rw [hasModRM_long h.long']
    rfl
  rw [decodeModRM, decodeModRM, hmodRM, hmodRM', pure_bind, pure_bind, if_pos rfl, if_pos rfl]
  refine Alike.bind Alike.next ?_
  rintro modRM _ _ _ - rfl
  exact Alike.pure ⟨⟨h.long, h.long', ⟨rfl, rfl, h.form.hasSIB, h.form.base⟩, h.addrSize⟩, rfl⟩

/-- What the row leaves to be known of the two locals. -/
structure FormedPair (hasImm8 hasImm8' : Bool) (locals locals' : DecodeLocals) : Prop where
  form : SameForm locals.fields locals'.fields
  addrSize : locals'.fields.addrSize = locals.fields.addrSize
  map : locals.simd.map ≠ 1
  map' : locals'.simd.map ≠ 1
  immediates : ImmediateBytes hasImm8 locals.fields.info
  immediates' : ImmediateBytes hasImm8' locals'.fields.info

theorem map_resolved (is64Bit : Bool) (locals : DecodeLocals) (row : OpcodeInfo) :
    (resolved is64Bit locals row).simd.map = locals.simd.map := by
  simp only [resolved, withWidths, takeMandatoryPrefix]
  split_ifs <;> rfl

theorem resolveRow_long (h : LongPair hasImm8 hasImm8' locals locals') (modRM : UInt8) :
    Alike source source' consumed consumed' (resolveRow is64Bit locals modRM)
      (resolveRow is64Bit locals' modRM) (FormedPair hasImm8 hasImm8') := by
  obtain ⟨row, hrow, hbytes⟩ := rowOf_immediates h.long is64Bit locals.fields.opcode modRM
  obtain ⟨row', hrow', hbytes'⟩ := rowOf_immediates h.long' is64Bit locals'.fields.opcode modRM
  rw [resolveRow_eq hrow, resolveRow_eq hrow']
  apply Alike.pure
  have hfields := fields_resolved is64Bit locals row
  have hfields' := fields_resolved is64Bit locals' row'
  constructor
  · rw [hfields, hfields']
    exact ⟨h.form.hasModRM, h.form.mod, h.form.hasSIB, h.form.base⟩
  · rw [addrSize_resolved, addrSize_resolved, h.addrSize]
  · rw [map_resolved]
    exact h.long.ne_one
  · rw [map_resolved]
    exact h.long'.ne_one
  · rw [hfields]
    exact hbytes
  · rw [hfields']
    exact hbytes'

/-- REX.B does not reach the low bits of a base. -/
theorem base_withSIB (fields : Fields) (sib : UInt8) :
    (withSIB fields sib).base &&& 7 = (sib &&& 7) &&& 7 := by
  have hbit : ∀ rex : UInt8, rex &&& 1 = 0 ∨ rex &&& 1 = 1 := by
    apply forall_byte
    decide +kernel
  change ((sib &&& 7) ||| rexBit fields 1 3) &&& 7 = _
  rw [rexBit]
  revert sib
  rcases hbit fields.rexPrefix with hclear | hset
  · rw [hclear]
    apply forall_byte
    decide +kernel
  · rw [hset]
    apply forall_byte
    decide +kernel

theorem decodeMemory_long {fields fields' : Fields} (h : SameForm fields fields')
    (haddrSize : fields'.addrSize = fields.addrSize) (modRM : UInt8) :
    Alike source source' consumed consumed' (decodeMemory source fields modRM)
      (decodeMemory source' fields' modRM) fun addressed addressed' =>
        addressed.info = fields.info ∧ addressed'.info = fields'.info := by
  rw [decodeMemory, decodeMemory, h.hasModRM, h.mod]
  refine Alike.ite Iff.rfl ?_ ?_
  · intro _
    rw [decodeSIB, decodeSIB, haddrSize]
    refine Alike.bind (R := fun addressed addressed' =>
      (SameForm addressed addressed' ∧ addressed'.addrSize = addressed.addrSize) ∧
        addressed.info = fields.info ∧ addressed'.info = fields'.info) (Alike.ite Iff.rfl ?_ ?_) ?_
    · intro _
      refine Alike.bind Alike.next ?_
      rintro sib _ _ _ - rfl
      refine Alike.pure ⟨⟨⟨h.hasModRM, h.mod, rfl, ?_⟩, haddrSize⟩, rfl, rfl⟩
      rw [base_withSIB, base_withSIB]
    · intro _
      exact Alike.pure ⟨⟨h, haddrSize⟩, rfl, rfl⟩
    · rintro addressed addressed' later later' - ⟨⟨hform, hsize⟩, hinfo⟩
      have hcount : displacementSize addressed' (modRM &&& 7) =
          displacementSize addressed (modRM &&& 7) := by
        simp only [displacementSize, hform.mod, hform.hasSIB, hform.base, hsize]
      rw [decodeDisplacement, decodeDisplacement, hcount]
      refine Alike.ite Iff.rfl ?_ ?_
      · intro _
        refine Alike.bind (readLittleEndian_alike _) ?_
        rintro value _ _ _ - rfl
        exact Alike.pure hinfo
      · intro _
        exact Alike.pure hinfo
  · intro _
    exact Alike.pure ⟨rfl, rfl⟩

/-- `decodeOperands` up to the immediates. -/
def decodeForm (is64Bit : Bool) (source : ByteSource) (locals : DecodeLocals) :
    Decoding DecodeLocals := do
  let addressed ← decodeModRM source locals
  let locals ← resolveRow is64Bit addressed.1 addressed.2
  let fields ← decodeMemory source locals.fields addressed.2
  decode3DNow source { locals with fields := fields }

theorem decodeOperands_form (is64Bit : Bool) (vaddr : UInt64) (source : ByteSource)
    (locals : DecodeLocals) :
    decodeOperands is64Bit vaddr source locals =
      (do
        let locals ← decodeForm is64Bit source locals
        let fields ← decodeImmediates is64Bit vaddr source locals.fields
        pure { locals with fields := fields }) := by
  simp only [decodeOperands, decodeForm, bind_assoc]

theorem decodeForm_long (h : LongPair hasImm8 hasImm8' locals locals') :
    Alike source source' consumed consumed' (decodeForm is64Bit source locals)
      (decodeForm is64Bit source' locals') fun named named' =>
        ImmediateBytes hasImm8 named.fields.info ∧
          ImmediateBytes hasImm8' named'.fields.info := by
  refine Alike.bind (decodeModRM_long h) ?_
  rintro ⟨addressed, modRM⟩ ⟨addressed', modRM'⟩ _ _ - ⟨haddressed, hmodRM⟩
  dsimp only at haddressed hmodRM
  subst hmodRM
  refine Alike.bind (resolveRow_long haddressed modRM') ?_
  intro resolved resolved' _ _ _ hresolved
  refine Alike.bind (decodeMemory_long hresolved.form hresolved.addrSize modRM') ?_
  rintro fields fields' _ _ - ⟨hinfo, hinfo'⟩
  rw [decode3DNow, decode3DNow, if_neg (fun hmap => hresolved.map hmap.2.1),
    if_neg (fun hmap => hresolved.map' hmap.2.1)]
  refine Alike.pure ⟨?_, ?_⟩
  · rw [hinfo]
    exact hresolved.immediates
  · rw [hinfo']
    exact hresolved.immediates'

theorem decodeImmediate_byte (fields : Fields) {operand : TableOperand}
    (hmode : operand.addressingMode = .I ∨ operand.addressingMode = .L)
    (hsize : operand.size = .b) :
    decodeImmediate is64Bit source vaddr fields operand = readLittleEndian source 1 := by
  rcases operand with ⟨mode, size, value⟩
  dsimp only at hmode hsize
  subst hsize
  rcases hmode with rfl | rfl
  · exact bind_pure _
  · exact bind_pure _

/-- One immediate of one byte is one byte to draw. -/
theorem immediateSteps_one (fields : Fields) {operands : List TableOperand}
    (hcount : immediateCount operands = 1)
    (hbyte : ∀ operand ∈ operands, operand.addressingMode.isImmediate = true →
      (operand.addressingMode = .I ∨ operand.addressingMode = .L) ∧ operand.size = .b) :
    operands.foldlM (immediateStep is64Bit vaddr source) (fields, 0) =
      (do
        let value ← readLittleEndian source 1
        pure (withImmediate fields value, 1)) := by
  induction operands with
  | nil => contradiction
  | cons operand rest ih =>
      obtain ⟨hoperand, hrest⟩ := List.forall_mem_cons.mp hbyte
      rw [List.foldlM_cons]
      rw [immediateCount, List.countP_cons] at hcount
      cases himmediate : operand.addressingMode.isImmediate with
      | false =>
          rw [himmediate] at hcount
          rw [immediateStep_skip vaddr (fields, 0) himmediate, pure_bind]
          rw [if_neg (by decide), Nat.add_zero] at hcount
          exact ih hcount hrest
      | true =>
          rw [himmediate, if_pos rfl, Nat.add_eq_right] at hcount
          obtain ⟨hmode, hsize⟩ := hoperand himmediate
          rw [immediateStep_first vaddr fields himmediate,
            decodeImmediate_byte fields hmode hsize, bind_assoc]
          congr 1
          funext value
          rw [pure_bind]
          exact immediateSteps_skip vaddr _ hcount

theorem decodeImmediates_one (fields : Fields) (h : ImmediateBytes true fields.info) :
    decodeImmediates is64Bit vaddr source fields =
      (do
        let value ← readLittleEndian source 1
        pure (withImmediate fields value)) := by
  rw [decodeImmediates, immediateSteps_one fields h.count h.immediate, bind_assoc]
  rfl

theorem decodeImmediates_none (fields : Fields) (h : ImmediateBytes false fields.info) :
    decodeImmediates is64Bit vaddr source fields = pure fields :=
  decodeImmediates_skip vaddr h.count

/-- Both instructions have the immediate, or neither. -/
theorem decodeImmediates_long {fields fields' : Fields}
    (h : ImmediateBytes hasImm8 fields.info) (h' : ImmediateBytes hasImm8 fields'.info) :
    Alike source source' consumed consumed' (decodeImmediates is64Bit vaddr source fields)
      (decodeImmediates is64Bit vaddr source' fields') fun _ _ => True := by
  cases hasImm8 with
  | false =>
      rw [decodeImmediates_none fields h, decodeImmediates_none fields' h']
      exact Alike.pure trivial
  | true =>
      rw [decodeImmediates_one fields h, decodeImmediates_one fields' h']
      refine Alike.bind (readLittleEndian_alike 1) ?_
      rintro value _ _ _ - rfl
      exact Alike.pure trivial

theorem decodeOperands_long (h : LongPair hasImm8 hasImm8 locals locals') :
    Alike source source' consumed consumed' (decodeOperands is64Bit vaddr source locals)
      (decodeOperands is64Bit vaddr source' locals') fun _ _ => True := by
  rw [decodeOperands_form, decodeOperands_form]
  refine Alike.bind (decodeForm_long h) ?_
  rintro named named' _ _ - ⟨hbytes, hbytes'⟩
  refine Alike.bind (decodeImmediates_long hbytes hbytes') ?_
  intro _ _ _ _ _ _
  exact Alike.pure trivial

theorem length_readLittleEndian_one {later : Consumed UInt8 15} {value : UInt64}
    (h : readLittleEndian source 1 consumed = .ok value later) :
    later.length = consumed.length + 1 := by
  obtain ⟨byte, middle, hbyte, hpure⟩ := exists_of_bind_ok h
  obtain ⟨symbol, drawn, hnext, hvalue⟩ := exists_of_bind_ok hbyte
  have hdrawn : drawn = middle := (EStateM.Result.ok.inj hvalue).2
  have hlater : middle = later := (EStateM.Result.ok.inj hpure).2
  rw [← hlater, ← hdrawn]
  exact length_of_next hnext

/-- Where the instruction with an immediate ends, the other ended one byte before. -/
theorem decodeOperands_shorter (h : LongPair false true locals locals')
    (hahead : SameAhead source source' consumed consumed')
    (hlength : consumed.length = consumed'.length) {named' : DecodeLocals}
    {later' : Consumed UInt8 15}
    (hrun : decodeOperands is64Bit vaddr source' locals' consumed' = .ok named' later') :
    ∃ named later, decodeOperands is64Bit vaddr source locals consumed = .ok named later ∧
      later'.length = later.length + 1 := by
  rw [decodeOperands_form] at hrun
  obtain ⟨formed', middle', hform', hrest'⟩ := exists_of_bind_ok hrun
  have hmatched := (@decodeForm_long _ _ _ _ _ _ is64Bit _ _ h).matched hahead hlength.le
  rw [hform'] at hmatched
  cases hform : decodeForm is64Bit source locals consumed with
  | error stop later =>
      rw [hform] at hmatched
      cases hmatched
  | ok formed middle =>
      rw [hform] at hmatched
      cases hmatched with
      | ok hfurther hbytes =>
          obtain ⟨n, hmiddle, hmiddle'⟩ := hfurther.length
          rw [decodeImmediates_one formed'.fields hbytes.2, bind_assoc] at hrest'
          obtain ⟨value, final', hvalue, hpure⟩ := exists_of_bind_ok hrest'
          have hlater' : final' = later' := (EStateM.Result.ok.inj hpure).2
          refine ⟨formed, middle, ?_, ?_⟩
          · rw [decodeOperands_form, bind_of_ok hform, decodeImmediates_none _ hbytes.1]
            rfl
          · rw [← hlater', length_readLittleEndian_one hvalue]
            omega

end Stages

/-- What stands between the prefixes and an opcode of the two maps: a legacy escape, or a
VEX prefix with any R, X, B, W, vvvv, L and pp. -/
inductive Opener where
  | legacy
  | vex (vex1 vex2 : UInt8)
  deriving DecidableEq

namespace Opener

def bytes : Opener → Bool → List UInt8
  | legacy, isMap3 => [0x0F, if isMap3 then 0x3A else 0x38]
  | vex vex1 vex2, isMap3 => [0xC4, (vex1 &&& 0xE0) ||| (if isMap3 then 3 else 2), vex2]

/-- In legacy mode C4 opens a VEX prefix only when no ModRM byte of LES can follow. -/
def Opens (is64Bit : Bool) : Opener → Prop
  | legacy => True
  | vex vex1 _ => is64Bit = true ∨ 0xC0 ≤ vex1

def locals (is64Bit : Bool) (prefixed : DecodeLocals) (opcode : UInt8) :
    Opener → Bool → DecodeLocals
  | legacy, isMap3 =>
      { withOpcode prefixed opcode with
        simd := { prefixed.simd with
          map := if isMap3 then 3 else 2
          pp := prefixColumn prefixed } }
  | vex vex1 vex2, isMap3 =>
      behindVex is64Bit prefixed 0xC4 ((vex1 &&& 0xE0) ||| (if isMap3 then 3 else 2)) vex2 opcode

theorem length_bytes (opener : Opener) (isMap3 isMap3' : Bool) :
    (opener.bytes isMap3').length = (opener.bytes isMap3).length := by
  cases opener with
  | legacy => rfl
  | vex vex1 vex2 => rfl

theorem vexMap_eq (vex1 : UInt8) (isMap3 : Bool) :
    vexMap 0xC4 ((vex1 &&& 0xE0) ||| (if isMap3 then 3 else 2)) = if isMap3 then 3 else 2 := by
  revert vex1
  apply forall_byte
  cases isMap3 with
  | false => decide +kernel
  | true => decide +kernel

theorem le_vex1 (vex1 : UInt8) (isMap3 : Bool) (h : 0xC0 ≤ vex1) :
    0xC0 ≤ (vex1 &&& 0xE0) ||| (if isMap3 then 3 else 2) := by
  revert vex1
  apply forall_byte
  cases isMap3 with
  | false => decide +kernel
  | true => decide +kernel

section Fronts

variable {is64Bit : Bool} {source : ByteSource} {prefixes : List UInt8} {opener : Opener}

theorem escapedOpcode_demands {consumed : Consumed UInt8 15} (isMap3 : Bool) (opcode : UInt8) :
    Demands source consumed (escapedOpcode source) [if isMap3 then 0x3A else 0x38, opcode]
      (if isMap3 then 3 else 2, opcode) := by
  have hopcode (map : UInt8) (consumed : Consumed UInt8 15) :
      Demands source consumed
        (do
          let opcode ← next source
          pure (map, opcode))
        [opcode] (map, opcode) :=
    @Demands.bind _ _ _ _ _ _ _ [opcode] [] _ _ _ _ Demands.next fun _ => Demands.pure
  refine @Demands.bind _ _ _ _ _ _ _ [_] [opcode] _ _ _ _ Demands.next fun _ => ?_
  cases isMap3 with
  | false => exact hopcode 2 _
  | true => exact hopcode 3 _

theorem demands (hopens : opener.Opens is64Bit) (isMap3 : Bool) (opcode : UInt8)
    (hprefixes : ∀ byte ∈ prefixes, IsPrefixByte is64Bit byte) :
    Demands source .empty (decodePrefixes is64Bit source >>= decodeOpcode is64Bit source)
      (prefixes ++ (opener.bytes isMap3 ++ [opcode]))
      (opener.locals is64Bit
        (prefixes.foldl (prefixUpdate is64Bit) { fields := { is64Bit := is64Bit } }) opcode
        isMap3) := by
  cases opener with
  | legacy =>
      have hfirst : ¬ IsPrefixByte is64Bit 0x0F := by
        cases is64Bit with
        | false => decide
        | true => decide
      have hbytes : prefixes ++ (legacy.bytes isMap3 ++ [opcode]) =
          (prefixes ++ [0x0F]) ++ ([if isMap3 then 0x3A else 0x38, opcode] ++ []) := by
        simp [bytes]
      rw [hbytes]
      refine Demands.bind (decodePrefixes_demands hprefixes hfirst) fun _ => ?_
      exact Demands.bind (escapedOpcode_demands isMap3 opcode) fun _ => Demands.pure
  | vex vex1 vex2 =>
      have hmap := vexMap_eq vex1 isMap3
      have hfront := @vexFront_demands is64Bit prefixes opcode source 0xC4
        ((vex1 &&& 0xE0) ||| (if isMap3 then 3 else 2)) vex2 (Or.inl rfl) (Or.inl rfl)
        (hopens.imp id (le_vex1 vex1 isMap3))
        (by rw [hmap]; cases isMap3 <;> decide) hprefixes
      rw [List.append_assoc] at hfront
      exact hfront

theorem longPair (opener : Opener) (prefixed : DecodeLocals) (opcode opcode' : UInt8)
    (isMap3 isMap3' : Bool) :
    LongPair isMap3 isMap3' (opener.locals is64Bit prefixed opcode isMap3)
      (opener.locals is64Bit prefixed opcode' isMap3') := by
  cases opener with
  | legacy =>
      exact ⟨⟨rfl, prefixColumn_le prefixed⟩, ⟨rfl, prefixColumn_le prefixed⟩, ⟨rfl, rfl, rfl, rfl⟩,
        rfl⟩
  | vex vex1 vex2 =>
      have hpp : (vex2 &&& 0x03).toNat ≤ 3 := by
        rw [UInt8.toNat_and]
        exact Nat.and_le_right
      exact ⟨⟨vexMap_eq vex1 isMap3, hpp⟩, ⟨vexMap_eq vex1 isMap3', hpp⟩, ⟨rfl, rfl, rfl, rfl⟩, rfl⟩

theorem isInvalid_locals (opener : Opener) (prefixes : List UInt8) (opcode : UInt8)
    (isMap3 : Bool) :
    (opener.locals is64Bit
      (prefixes.foldl (prefixUpdate is64Bit) { fields := { is64Bit := is64Bit } }) opcode
      isMap3).fields.isInvalid = false := by
  have hprefixed : (prefixes.foldl (prefixUpdate is64Bit)
      { fields := { is64Bit := is64Bit } }).fields.isInvalid = false := by
    rw [(prefixed_foldl is64Bit prefixes).fields]
  cases opener with
  | legacy => exact hprefixed
  | vex vex1 vex2 => exact hprefixed

end Fronts

end Opener

inductive Consumption where
  | bytes (n : Nat)
  | truncated
  | overlong
  deriving DecidableEq

/-- How a call of `decodeLine` ends. -/
def Ends (is64Bit : Bool) (contents : AddressSpace) (fileOffset vaddr : UInt64) :
    Consumption → Prop
  | .bytes n => FitsLimit is64Bit contents fileOffset vaddr ∧
      ∃ row, ∀ store, AppendsRow contents fileOffset n row store
        (decodeLine is64Bit contents fileOffset vaddr store)
  | .truncated =>
      ∀ store, decodeLine is64Bit contents fileOffset vaddr store = .ok (fileOffset, store)
  | .overlong => ¬ FitsLimit is64Bit contents fileOffset vaddr ∧
      ∀ store, AppendsRow contents fileOffset 15 (overlongRow contents fileOffset) store
        (decodeLine is64Bit contents fileOffset vaddr store)

section Lines

variable {is64Bit : Bool} {contents other : AddressSpace} {fileOffset otherOffset vaddr : UInt64}

theorem ends_of_ok {locals : DecodeLocals} {later : Consumed UInt8 15}
    (hrun : decodeInstruction is64Bit vaddr (bytesAt contents fileOffset) .empty =
      .ok locals later) :
    Ends is64Bit contents fileOffset vaddr (.bytes later.length) := by
  obtain ⟨row, -, happends⟩ := appendsRow_of_ok hrun
  refine ⟨?_, row, happends⟩
  intro last hlast
  rw [hrun] at hlast
  contradiction

theorem ends_of_limit {later : Consumed UInt8 15}
    (hrun : decodeInstruction is64Bit vaddr (bytesAt contents fileOffset) .empty =
      .error .limitReached later) :
    Ends is64Bit contents fileOffset vaddr .overlong :=
  ⟨fun hfits => hfits later hrun, appendsRow_of_limit hrun⟩

/-- A row that is no overlong one is that of an instruction of as many bytes. -/
theorem run_of_ends {n : Nat} (h : Ends is64Bit contents fileOffset vaddr (.bytes n)) :
    ∃ locals later, decodeInstruction is64Bit vaddr (bytesAt contents fileOffset) .empty =
      .ok locals later ∧ later.length = n := by
  obtain ⟨hfits, row, happends⟩ := h
  have hrow := happends .empty
  cases hrun : decodeInstruction is64Bit vaddr (bytesAt contents fileOffset) .empty with
  | ok locals later =>
      obtain ⟨row', -, happends'⟩ := appendsRow_of_ok hrun
      have hrow' := happends' .empty
      have hnext := congrArg UInt64.toNat
        (Prod.mk.inj (Except.ok.inj (hrow.result_eq.symm.trans hrow'.result_eq))).1
      rw [hrow.toNat_next, hrow'.toNat_next] at hnext
      exact ⟨locals, later, rfl, by omega⟩
  | error stop later =>
      cases stop with
      | limitReached => exact absurd hrun (hfits later)
      | failed thrown =>
          have hnext := congrArg UInt64.toNat (Prod.mk.inj (Except.ok.inj
            (hrow.result_eq.symm.trans (decodeLine_of_failed hrun .empty)))).1
          have hpos := hrow.length_pos
          rw [hrow.toNat_next] at hnext
          omega

/-- Two instructions that draw as many bytes end alike. -/
theorem ends_of_matched {consumed consumed' : Consumed UInt8 15}
    {R : DecodeLocals → DecodeLocals → Prop}
    (hlength : consumed.length = consumed'.length)
    (hmatched : Matched (bytesAt contents fileOffset) consumed consumed' R
      (decodeInstruction is64Bit vaddr (bytesAt contents fileOffset) .empty)
      (decodeInstruction is64Bit vaddr (bytesAt other otherOffset) .empty)) :
    ∃ outcome, Ends is64Bit contents fileOffset vaddr outcome ∧
      Ends is64Bit other otherOffset vaddr outcome := by
  generalize hrun : decodeInstruction is64Bit vaddr (bytesAt contents fileOffset) .empty =
    outcome at hmatched
  generalize hrun' : decodeInstruction is64Bit vaddr (bytesAt other otherOffset) .empty =
    outcome' at hmatched
  cases hmatched with
  | @ok locals locals' later later' hfurther _ =>
      obtain ⟨n, hlater, hlater'⟩ := hfurther.length
      have hsame : later'.length = later.length := by omega
      exact ⟨.bytes later.length, ends_of_ok hrun, hsame ▸ ends_of_ok hrun'⟩
  | @error stop later later' _ =>
      cases stop with
      | limitReached => exact ⟨.overlong, ends_of_limit hrun, ends_of_limit hrun'⟩
      | failed thrown =>
          exact ⟨.truncated, decodeLine_of_failed hrun, decodeLine_of_failed hrun'⟩
  | beyond hlt => omega

/-- The run behind the opcode, or at the limit in front of it. -/
theorem decodeInstruction_opener {prefixes tail : List UInt8} {opener : Opener} (isMap3 : Bool)
    (opcode : UInt8) (hprefixes : ∀ byte ∈ prefixes, IsPrefixByte is64Bit byte)
    (hopens : opener.Opens is64Bit)
    (hcontents : contents.mappedData.drop fileOffset.toNat =
      prefixes ++ (opener.bytes isMap3 ++ [opcode]) ++ tail) :
    (∃ later : Consumed UInt8 15,
      later.length = (prefixes ++ (opener.bytes isMap3 ++ [opcode])).length ∧
      decodeInstruction is64Bit vaddr (bytesAt contents fileOffset) .empty =
        decodeOperands is64Bit vaddr (bytesAt contents fileOffset)
          (opener.locals is64Bit
            (prefixes.foldl (prefixUpdate is64Bit) { fields := { is64Bit := is64Bit } }) opcode
            isMap3) later) ∨
      15 < (prefixes ++ (opener.bytes isMap3 ++ [opcode])).length ∧
        Ends is64Bit contents fileOffset vaddr .overlong := by
  have hfront := @opener.demands is64Bit (bytesAt contents fileOffset) prefixes hopens isMap3
    opcode hprefixes
  rcases @decodeInstruction_front is64Bit vaddr _ _ _ hfront (supplies_front hcontents) with
    ⟨later, hlater, hrun⟩ | ⟨hbeyond, later, hstop⟩
  · rw [decodeAfterOpcode, opener.isInvalid_locals] at hrun
    exact Or.inl ⟨later, hlater, hrun⟩
  · exact Or.inr ⟨hbeyond, ends_of_limit hstop⟩

/-- Behind the same prefixes and opener, instructions of one map all take as many bytes, and
those of map 3 one more than those of map 2. -/
theorem long_opcode_lengths (is64Bit : Bool) (vaddr : UInt64) (prefixes tail : List UInt8)
    (opener : Opener) (hprefixes : ∀ byte ∈ prefixes, IsPrefixByte is64Bit byte)
    (hopens : opener.Opens is64Bit) (contents other : AddressSpace)
    (fileOffset otherOffset : UInt64) (isMap3 isMap3' : Bool) (opcode opcode' : UInt8)
    (hcontents : contents.mappedData.drop fileOffset.toNat =
      prefixes ++ (opener.bytes isMap3 ++ [opcode]) ++ tail)
    (hother : other.mappedData.drop otherOffset.toNat =
      prefixes ++ (opener.bytes isMap3' ++ [opcode']) ++ tail) :
    (isMap3' = isMap3 → ∃ outcome, Ends is64Bit contents fileOffset vaddr outcome ∧
      Ends is64Bit other otherOffset vaddr outcome) ∧
    (isMap3 = false → isMap3' = true → ∀ n, Ends is64Bit other otherOffset vaddr (.bytes n) →
      ∃ m, n = m + 1 ∧ Ends is64Bit contents fileOffset vaddr (.bytes m)) := by
  have hcount : (prefixes ++ (opener.bytes isMap3' ++ [opcode'])).length =
      (prefixes ++ (opener.bytes isMap3 ++ [opcode])).length := by
    simp [opener.length_bytes isMap3 isMap3']
  have hpos : 0 < (prefixes ++ (opener.bytes isMap3 ++ [opcode])).length := by simp
  have hpair := @opener.longPair is64Bit
    (prefixes.foldl (prefixUpdate is64Bit) { fields := { is64Bit := is64Bit } }) opcode opcode'
    isMap3 isMap3'
  rcases @decodeInstruction_opener is64Bit contents fileOffset vaddr _ _ _ isMap3 opcode hprefixes
    hopens hcontents with ⟨later, hlater, hrun⟩ | ⟨hbeyond, hover⟩
  · rcases @decodeInstruction_opener is64Bit other otherOffset vaddr _ _ _ isMap3' opcode'
      hprefixes hopens hother with ⟨later', hlater', hrun'⟩ | ⟨hbeyond', -⟩
    · have hlength : later.length = later'.length := by rw [hlater, hlater', hcount]
      have hahead := sameAhead_fronts hcontents hother hlater hlater' hpos (hcount ▸ hpos)
      constructor
      · rintro rfl
        apply ends_of_matched hlength
        rw [hrun, hrun']
        exact (decodeOperands_long hpair).matched hahead hlength.le
      · rintro rfl rfl n hends
        obtain ⟨locals', final', hfinal', hn⟩ := run_of_ends hends
        rw [hrun'] at hfinal'
        obtain ⟨locals, final, hfinal, hone⟩ :=
          decodeOperands_shorter hpair hahead hlength hfinal'
        rw [← hrun] at hfinal
        exact ⟨final.length, by omega, ends_of_ok hfinal⟩
    · have hroom : later.length ≤ 15 := later.length_le
      omega
  · rcases @decodeInstruction_opener is64Bit other otherOffset vaddr _ _ _ isMap3' opcode'
      hprefixes hopens hother with ⟨later', hlater', -⟩ | ⟨-, hover'⟩
    · have hroom : later'.length ≤ 15 := later'.length_le
      omega
    · constructor
      · exact fun _ => ⟨.overlong, hover, hover'⟩
      · rintro - - n hends
        exact absurd hends.1 hover'.1

end Lines

/-- `pshufb xmm0, xmm1`, and a byte behind it. -/
def pshufb : AddressSpace where
  mappedData := [0x66, 0x0F, 0x38, 0x00, 0xC1, 0x08]
  fileSize_lt := by decide

/-- The same with an opcode that the tables do not name. -/
def unnamedLong : AddressSpace where
  mappedData := [0x66, 0x0F, 0x38, 0xFF, 0xC1, 0x08]
  fileSize_lt := by decide

/-- The same in the other map: `palignr xmm0, xmm1, 8`. -/
def palignr : AddressSpace where
  mappedData := [0x66, 0x0F, 0x3A, 0x0F, 0xC1, 0x08]
  fileSize_lt := by decide

theorem ends_palignr : Ends true palignr 0 0x1000 (.bytes 6) := by
  have hlength : (match decodeInstruction true 0x1000 (bytesAt palignr 0) .empty with
      | .ok _ later => later.length
      | .error _ _ => 0) = 6 := by
    decide +kernel
  cases hrun : decodeInstruction true 0x1000 (bytesAt palignr 0) .empty with
  | ok locals later =>
      rw [hrun] at hlength
      exact hlength ▸ ends_of_ok hrun
  | error thrown later =>
      rw [hrun] at hlength
      contradiction

theorem long_opcode_lengths_pshufb :
    (∃ outcome, Ends true pshufb 0 0x1000 outcome ∧ Ends true unnamedLong 0 0x1000 outcome) ∧
      Ends true palignr 0 0x1000 (.bytes 6) ∧ Ends true pshufb 0 0x1000 (.bytes 5) := by
  obtain ⟨hsame, -⟩ := long_opcode_lengths true 0x1000 [0x66] [0xC1, 0x08] .legacy
    (by decide +kernel) trivial pshufb unnamedLong 0 0 false false 0x00 0xFF rfl rfl
  obtain ⟨-, hlonger⟩ := long_opcode_lengths true 0x1000 [0x66] [0xC1, 0x08] .legacy
    (by decide +kernel) trivial pshufb palignr 0 0 false true 0x00 0x0F rfl rfl
  obtain ⟨m, hm, hends⟩ := hlonger rfl rfl 6 ends_palignr
  obtain rfl := Nat.succ.inj hm
  exact ⟨hsame rfl, ends_palignr, hends⟩

end Voidwalk.ThreeByteLengths

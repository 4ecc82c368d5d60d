import Voidwalk.Library.TwoReaders
import Voidwalk.PrefixedOpcodes

/-!
Two instructions decoded side by side. Behind the opcode the decoder sees nothing of what
came before but its locals and the number of bytes, and of these the byte that opened a
VEX prefix counts only by its presence.
-/

namespace Voidwalk.ParallelDecoding

open Voidwalk.MappedFile
open Voidwalk.ChunkStorage
open Voidwalk.OpcodeRows
open Voidwalk.OneByteTables
open Voidwalk.TwoByteTables
open Voidwalk.RowResolution
open Voidwalk.InstructionRendering
open Voidwalk.InstructionDecoding
open Voidwalk.DecodeLineContract
open Voidwalk.SelfDelimiting
open Voidwalk.FileFields
open Voidwalk.PrefixedOpcodes
open Voidwalk.Library.CountingReader
open Voidwalk.Library.TwoReaders

/-- The same locals, but for the byte that opened a VEX prefix. -/
structure SameButVex (locals locals' : DecodeLocals) : Prop where
  fields : locals'.fields = locals.fields
  simd : locals'.simd = { locals.simd with vex := locals'.simd.vex }
  vex : locals'.simd.vex = 0 ↔ locals.simd.vex = 0
  hasOpSizePrefix : locals'.hasOpSizePrefix = locals.hasOpSizePrefix
  hasAddrSizePrefix : locals'.hasAddrSizePrefix = locals.hasAddrSizePrefix

theorem SameButVex.refl (locals : DecodeLocals) : SameButVex locals locals :=
  ⟨rfl, rfl, Iff.rfl, rfl, rfl⟩

theorem SameButVex.withFields {locals locals' : DecodeLocals} (h : SameButVex locals locals')
    (fields : Fields) :
    SameButVex { locals with fields := fields } { locals' with fields := fields } :=
  ⟨rfl, h.simd, h.vex, h.hasOpSizePrefix, h.hasAddrSizePrefix⟩

section Rows

variable {locals locals' : DecodeLocals} {is64Bit : Bool}

theorem SameButVex.map (h : SameButVex locals locals') : locals'.simd.map = locals.simd.map := by
  rw [h.simd]

theorem SameButVex.pp (h : SameButVex locals locals') : locals'.simd.pp = locals.simd.pp := by
  rw [h.simd]

theorem SameButVex.hasModRM (h : SameButVex locals locals') (opcode : UInt8) :
    hasModRM opcode locals'.simd = hasModRM opcode locals.simd := by
  have hvex : locals'.simd.vex ≠ 0 ↔ locals.simd.vex ≠ 0 := not_congr h.vex
  simp only [InstructionDecoding.hasModRM, hvex, h.map]

theorem vexResolvedInfo_vex (opcode modRM vex : UInt8) (simd : Simd) :
    vexResolvedInfo opcode modRM { simd with vex := vex } = vexResolvedInfo opcode modRM simd :=
  rfl

theorem SameButVex.rowOf (h : SameButVex locals locals') (opcode modRM : UInt8) :
    rowOf is64Bit opcode modRM locals'.simd = rowOf is64Bit opcode modRM locals.simd := by
  have hvex : locals'.simd.vex ≠ 0 ↔ locals.simd.vex ≠ 0 := not_congr h.vex
  have hrow : vexResolvedInfo opcode modRM locals'.simd =
      vexResolvedInfo opcode modRM locals.simd := by
    rw [h.simd, vexResolvedInfo_vex]
  have htwo : twoByteResolvedInfo opcode modRM locals'.simd =
      twoByteResolvedInfo opcode modRM locals.simd := by
    rw [h.simd]
    rfl
  have hthree : threeByteResolvedInfo opcode locals'.simd =
      threeByteResolvedInfo opcode locals.simd := by
    rw [h.simd]
    rfl
  simp only [InstructionDecoding.rowOf, hvex, h.map, hrow, htwo, hthree]

theorem SameButVex.takeMandatoryPrefix (h : SameButVex locals locals') :
    SameButVex (takeMandatoryPrefix locals) (takeMandatoryPrefix locals') := by
  obtain ⟨fields, simd, opSize, addrSize⟩ := locals
  obtain ⟨read, simd', opSize', addrSize'⟩ := locals'
  obtain ⟨rfl, hsimd, hvex, rfl, rfl⟩ := h
  dsimp only at hsimd hvex
  have hne : simd'.vex ≠ 0 ↔ simd.vex ≠ 0 := not_congr hvex
  have hpp : simd'.pp = simd.pp := by rw [hsimd]
  have hmandatory :
      (if simd'.vex ≠ 0 then simd.pp != 0 else read.info.mandatoryPrefix != 0) =
        if simd.vex ≠ 0 then simd.pp != 0 else read.info.mandatoryPrefix != 0 :=
    if_congr hne rfl rfl
  simp only [InstructionDecoding.takeMandatoryPrefix, hpp]
  rw [hmandatory]
  generalize (if simd.vex ≠ 0 then simd.pp != 0 else read.info.mandatoryPrefix != 0) = taken
  cases taken with
  | false =>
      refine ⟨rfl, ?_, hvex, rfl, rfl⟩
      change { simd' with mandatory := false, pp := 0 } = _
      rw [hsimd]
      rfl
  | true =>
      by_cases hone : simd.pp = 1
      · simp only [if_pos hone, Bool.true_eq_false, if_false]
        refine ⟨rfl, ?_, hvex, rfl, rfl⟩
        change { simd' with pp := simd.pp, mandatory := true } = _
        rw [hsimd]
      · simp only [if_neg hone, Bool.true_eq_false, if_false]
        refine ⟨rfl, ?_, hvex, rfl, rfl⟩
        change { simd' with pp := simd.pp, mandatory := true } = _
        rw [hsimd]

theorem vex_takeMandatoryPrefix (locals : DecodeLocals) :
    (takeMandatoryPrefix locals).simd.vex = locals.simd.vex := by
  simp only [takeMandatoryPrefix]
  split_ifs <;> rfl

theorem SameButVex.withWidths (h : SameButVex locals locals') :
    SameButVex (withWidths is64Bit locals) (withWidths is64Bit locals') := by
  refine ⟨?_, h.simd, h.vex, h.hasOpSizePrefix, h.hasAddrSizePrefix⟩
  simp only [InstructionDecoding.withWidths, h.fields, h.hasOpSizePrefix, h.hasAddrSizePrefix]

end Rows

section Stages

variable {source source' : ByteSource} {consumed consumed' : Consumed UInt8 15}
  {locals locals' : DecodeLocals} {is64Bit : Bool} {vaddr : UInt64}

theorem readLittleEndian_alike (byteCount : Nat) :
    Alike source source' consumed consumed' (readLittleEndian source byteCount)
      (readLittleEndian source' byteCount) Eq := by
  apply Alike.foldlM
  · rintro i - value _ later later' - rfl
    refine Alike.bind Alike.next ?_
    rintro byte _ _ _ - rfl
    exact Alike.pure rfl
  · rfl

theorem decodeModRM_alike (h : SameButVex locals locals') :
    Alike source source' consumed consumed' (decodeModRM source locals)
      (decodeModRM source' locals') fun addressed addressed' =>
        SameButVex addressed.1 addressed'.1 ∧ addressed'.2 = addressed.2 ∧
          addressed.1.simd = locals.simd ∧ addressed.1.fields.opcode = locals.fields.opcode := by
  rw [decodeModRM, decodeModRM, h.fields, h.hasModRM]
  refine Alike.bind (Alike.attempt (fun _ => Eq.refl _)) ?_
  rintro follows _ later later' - rfl
  refine Alike.ite Iff.rfl ?_ ?_
  · intro _
    refine Alike.bind Alike.next ?_
    rintro modRM _ _ _ - rfl
    exact Alike.pure ⟨h.withFields _, rfl, rfl, rfl⟩
  · intro _
    exact Alike.pure ⟨h, rfl, rfl, rfl⟩

theorem resolveRow_alike (h : SameButVex locals locals') (modRM : UInt8) :
    Alike source source' consumed consumed' (resolveRow is64Bit locals modRM)
      (resolveRow is64Bit locals' modRM) fun resolved resolved' =>
        SameButVex resolved resolved' ∧
          (resolved.simd.vex = locals.simd.vex) ∧
          rowOf is64Bit locals.fields.opcode modRM locals.simd = .ok resolved.fields.info := by
  rw [resolveRow, resolveRow, h.fields, h.rowOf]
  refine ⟨fun _ _ => ?_⟩
  cases hrow : rowOf is64Bit locals.fields.opcode modRM locals.simd with
  | error thrown => exact .error Further.refl
  | ok info =>
      refine .ok Further.refl ⟨(h.withFields _).takeMandatoryPrefix.withWidths, ?_, ?_⟩
      · exact vex_takeMandatoryPrefix _
      · change Except.ok info = Except.ok (takeMandatoryPrefix _).fields.info
        rw [info_takeMandatoryPrefix]

theorem decodeMemory_alike (fields : Fields) (modRM : UInt8) :
    Alike source source' consumed consumed' (decodeMemory source fields modRM)
      (decodeMemory source' fields modRM) fun addressed addressed' =>
        addressed' = addressed ∧ addressed.info = fields.info := by
  refine Alike.ite Iff.rfl ?_ ?_
  · intro _
    refine Alike.bind (R := fun addressed addressed' =>
      addressed' = addressed ∧ addressed.info = fields.info) (Alike.ite Iff.rfl ?_ ?_) ?_
    · intro _
      refine Alike.bind Alike.next ?_
      rintro sib _ _ _ - rfl
      exact Alike.pure ⟨rfl, rfl⟩
    · intro _
      exact Alike.pure ⟨rfl, rfl⟩
    · rintro addressed _ later later' - ⟨rfl, hinfo⟩
      refine Alike.ite Iff.rfl ?_ ?_
      · intro _
        refine Alike.bind (readLittleEndian_alike _) ?_
        rintro value _ _ _ - rfl
        exact Alike.pure ⟨rfl, hinfo⟩
      · intro _
        exact Alike.pure ⟨rfl, hinfo⟩
  · intro _
    exact Alike.pure ⟨rfl, rfl⟩

theorem decode3DNow_alike (h : SameButVex locals locals') :
    Alike source source' consumed consumed' (decode3DNow source locals)
      (decode3DNow source' locals') fun named named' =>
        SameButVex named named' ∧ (locals.simd.vex ≠ 0 → named = locals) := by
  rw [decode3DNow, decode3DNow, h.fields, h.map]
  refine Alike.ite (and_congr_left' h.vex.symm) ?_ ?_
  · rintro ⟨hvex, -⟩
    refine Alike.bind Alike.next ?_
    rintro opcode _ _ _ - rfl
    refine Alike.bind (Alike.attempt (fun _ => Eq.refl _)) ?_
    rintro info _ _ _ - rfl
    exact Alike.pure ⟨h.withFields _, fun hne => absurd hvex hne⟩
  · intro _
    exact Alike.pure ⟨h, fun _ => rfl⟩

theorem decodeImmediate_alike (fields : Fields) {operand : TableOperand}
    (hplace : consumed.length = consumed'.length ∨ operand.addressingMode ≠ .J) :
    Alike source source' consumed consumed'
      (decodeImmediate is64Bit source vaddr fields operand)
      (decodeImmediate is64Bit source' vaddr fields operand) Eq := by
  refine Alike.bind (readLittleEndian_alike _) ?_
  rintro value _ later later' hfurther rfl
  obtain ⟨n, hlater, hlater'⟩ := hfurther.length
  refine Alike.ite Iff.rfl ?_ ?_
  · intro _
    refine Alike.bind (readLittleEndian_alike 2) ?_
    rintro segment _ _ _ - rfl
    exact Alike.pure rfl
  · intro _
    refine Alike.ite Iff.rfl ?_ ?_
    · intro hrelative
      refine Alike.bind Alike.get ?_
      rintro _ _ _ _ - ⟨rfl, rfl⟩
      have hlength := hplace.resolve_right (not_not_intro hrelative)
      rw [hlater, hlater', hlength]
      exact Alike.pure rfl
    · intro _
      refine Alike.ite Iff.rfl ?_ ?_
      · intro _
        exact Alike.pure rfl
      · intro _
        exact Alike.pure rfl

theorem decodeImmediates_alike (fields : Fields)
    (hplace : consumed.length = consumed'.length ∨
      ∀ operand ∈ fields.info.operands.toList, operand.addressingMode ≠ .J) :
    Alike source source' consumed consumed' (decodeImmediates is64Bit vaddr source fields)
      (decodeImmediates is64Bit vaddr source' fields) Eq := by
  refine Alike.bind (R := Eq) (Alike.foldlM ?_ rfl) ?_
  · rintro operand hmem state _ later later' hfurther rfl
    obtain ⟨n, hlater, hlater'⟩ := hfurther.length
    by_cases hslot : operand.addressingMode.isImmediate = true ∧ state.2 < 2
    · rw [immediateStep, immediateStep, dif_pos hslot, dif_pos hslot]
      refine Alike.bind (decodeImmediate_alike state.1 ?_) ?_
      · rcases hplace with hlength | hmode
        · exact Or.inl (by rw [hlater, hlater', hlength])
        · exact Or.inr (hmode operand hmem)
      · rintro value _ _ _ - rfl
        exact Alike.pure rfl
    · rw [immediateStep, immediateStep, dif_neg hslot, dif_neg hslot]
      exact Alike.pure rfl
  · rintro filled _ _ _ - rfl
    exact Alike.pure rfl

/-- No row that is found for the opcode counts a target from its own end. -/
def WithoutTarget (is64Bit : Bool) (opcode : UInt8) (simd : Simd) : Prop :=
  ∀ modRM info, rowOf is64Bit opcode modRM simd = .ok info →
    ∀ operand ∈ info.operands.toList, operand.addressingMode ≠ .J

theorem decodeOperands_alike (h : SameButVex locals locals')
    (hplace : consumed.length = consumed'.length ∨ locals.simd.vex ≠ 0 ∧
      WithoutTarget is64Bit locals.fields.opcode locals.simd) :
    Alike source source' consumed consumed' (decodeOperands is64Bit vaddr source locals)
      (decodeOperands is64Bit vaddr source' locals') SameButVex := by
  refine Alike.bind (decodeModRM_alike h) ?_
  rintro ⟨addressed, modRM⟩ ⟨addressed', modRM'⟩ first first' hfirst
    ⟨haddressed, hmodRM, hsimd, hopcode⟩
  dsimp only at haddressed hmodRM hsimd hopcode
  subst hmodRM
  refine Alike.bind (resolveRow_alike haddressed modRM') ?_
  rintro resolved resolved' second second' hsecond ⟨hresolved, hvex, hrow⟩
  rw [hopcode, hsimd] at hrow
  rw [hresolved.fields]
  refine Alike.bind (decodeMemory_alike resolved.fields modRM') ?_
  rintro _ fields third third' hthird ⟨rfl, hinfo⟩
  refine Alike.bind (decode3DNow_alike (hresolved.withFields fields)) ?_
  rintro named named' last last' hlast ⟨hnamed, hsame⟩
  rw [hnamed.fields]
  refine Alike.bind (decodeImmediates_alike named.fields ?_) ?_
  · rcases hplace with hlength | ⟨hne, htarget⟩
    · obtain ⟨n, hbehind, hbehind'⟩ :=
        (((hfirst.trans hsecond).trans hthird).trans hlast).length
      exact Or.inl (by rw [hbehind, hbehind', hlength])
    · refine Or.inr ?_
      rw [hsame (by rwa [hvex, hsimd]), hinfo]
      exact htarget modRM' _ hrow
  · rintro filled _ _ _ - rfl
    exact Alike.pure (hnamed.withFields filled)

theorem escapedOpcode_alike :
    Alike source source' consumed consumed' (escapedOpcode source) (escapedOpcode source') Eq := by
  refine Alike.bind Alike.next ?_
  rintro second _ _ _ - rfl
  refine Alike.ite Iff.rfl ?_ ?_
  · intro _
    refine Alike.bind Alike.next ?_
    rintro opcode _ _ _ - rfl
    exact Alike.pure rfl
  · intro _
    exact Alike.pure rfl

theorem decodeVex_alike (locals : DecodeLocals) (currentByte : UInt8) :
    Alike source source' consumed consumed' (decodeVex is64Bit source locals currentByte)
      (decodeVex is64Bit source' locals currentByte) Eq := by
  refine Alike.bind Alike.next ?_
  rintro vex1 _ _ _ - rfl
  refine Alike.bind (R := Eq) (Alike.ite Iff.rfl ?_ ?_) ?_
  · exact fun _ => Alike.next
  · exact fun _ => Alike.pure rfl
  · rintro vex2 _ _ _ - rfl
    refine Alike.ite Iff.rfl ?_ ?_
    · intro _
      exact Alike.pure rfl
    · intro _
      refine Alike.bind Alike.next ?_
      rintro opcode _ _ _ - rfl
      exact Alike.pure rfl

theorem decodeOneByte_alike (locals : DecodeLocals) (currentByte : UInt8) :
    Alike source source' consumed consumed' (decodeOneByte is64Bit locals currentByte)
      (decodeOneByte is64Bit locals currentByte) Eq := by
  refine Alike.ite Iff.rfl ?_ ?_
  · intro _
    refine Alike.bind (Alike.attempt (fun _ => Eq.refl _)) ?_
    rintro row _ _ _ - rfl
    refine Alike.ite Iff.rfl ?_ ?_
    · exact fun _ => Alike.pure rfl
    · exact fun _ => Alike.pure rfl
  · intro _
    exact Alike.pure rfl

theorem opensVex_alike :
    Alike source source' consumed consumed' (opensVex is64Bit source)
      (opensVex is64Bit source') Eq := by
  refine Alike.ite Iff.rfl ?_ ?_
  · exact fun _ => Alike.pure rfl
  · intro _
    refine Alike.bind Alike.peek ?_
    rintro byte _ _ _ - rfl
    exact Alike.pure rfl

theorem decodeOpcode_alike (prefixed : DecodeLocals × UInt8) :
    Alike source source' consumed consumed' (decodeOpcode is64Bit source prefixed)
      (decodeOpcode is64Bit source' prefixed) Eq := by
  refine Alike.ite Iff.rfl ?_ fun _ => Alike.ite Iff.rfl ?_ ?_
  · intro _
    refine Alike.bind escapedOpcode_alike ?_
    rintro selected _ _ _ - rfl
    exact Alike.pure rfl
  · intro _
    refine Alike.bind opensVex_alike ?_
    rintro isVex _ _ _ - rfl
    refine Alike.ite Iff.rfl ?_ ?_
    · exact fun _ => decodeVex_alike _ _
    · exact fun _ => decodeOneByte_alike _ _
  · exact fun _ => decodeOneByte_alike _ _

theorem decodeAfterOpcode_alike (h : SameButVex locals locals')
    (hplace : consumed.length = consumed'.length ∨ locals.simd.vex ≠ 0 ∧
      WithoutTarget is64Bit locals.fields.opcode locals.simd) :
    Alike source source' consumed consumed' (decodeAfterOpcode is64Bit vaddr source locals)
      (decodeAfterOpcode is64Bit vaddr source' locals') SameButVex := by
  rw [decodeAfterOpcode, decodeAfterOpcode, h.fields]
  refine Alike.ite Iff.rfl ?_ ?_
  · exact fun _ => Alike.pure h
  · exact fun _ => decodeOperands_alike h hplace

theorem decodeAfterPrefixes_alike (prefixed : DecodeLocals × UInt8)
    (hlength : consumed.length = consumed'.length) :
    Alike source source' consumed consumed' (decodeAfterPrefixes is64Bit vaddr source prefixed)
      (decodeAfterPrefixes is64Bit vaddr source' prefixed) SameButVex := by
  refine Alike.bind (decodeOpcode_alike prefixed) ?_
  rintro locals _ later later' hfurther rfl
  obtain ⟨n, hlater, hlater'⟩ := hfurther.length
  exact decodeAfterOpcode_alike (SameButVex.refl locals) (Or.inl (by rw [hlater, hlater', hlength]))

end Stages

/-- The same row, but for the machine code. -/
structure SameRow (row row' : Instruction) : Prop where
  flow : row'.flow = row.flow
  target : row'.target = row.target
  text : row'.instructionText = row.instructionText

/-- The byte that opened a VEX prefix is not printed. -/
theorem x86_64_vex (fields : Fields) (simd : Simd) (vex : UInt8) :
    x86_64 fields { simd with vex := vex } = x86_64 fields simd :=
  rfl

theorem x86_64_withBytes (fields : Fields) (simd : Simd) (bytes : Consumed UInt8 15) :
    x86_64 { fields with bytes := bytes } simd = (x86_64 fields simd).map fun row =>
      { row with machineCode := machineCodeOf bytes.symbols } := by
  have hbad : isBad { fields with bytes := bytes } = isBad fields := rfl
  rw [x86_64, x86_64, hbad]
  cases isBad fields with
  | true => rfl
  | false =>
      have hprint : (operandList fields.info).foldlM (printOperand { fields with bytes := bytes }
          simd (segmentTextOf { fields with bytes := bytes } simd)) {} =
            (operandList fields.info).foldlM
              (printOperand fields simd (segmentTextOf fields simd)) {} :=
        rfl
      simp only [Bool.false_eq_true, if_false]
      rw [hprint]
      cases (operandList fields.info).foldlM
          (printOperand fields simd (segmentTextOf fields simd)) {} with
      | error thrown => rfl
      | ok printed => rfl

theorem SameButVex.sameRow {locals locals' : DecodeLocals} (h : SameButVex locals locals')
    {bytes bytes' : Consumed UInt8 15} {row row' : Instruction}
    (hrow : x86_64 { locals.fields with bytes := bytes } locals.simd = .ok row)
    (hrow' : x86_64 { locals'.fields with bytes := bytes' } locals'.simd = .ok row') :
    SameRow row row' := by
  rw [h.simd, x86_64_vex, h.fields, x86_64_withBytes] at hrow'
  rw [x86_64_withBytes] at hrow
  cases hprinted : x86_64 locals.fields locals.simd with
  | error thrown =>
      rw [hprinted] at hrow
      contradiction
  | ok printed =>
      rw [hprinted] at hrow hrow'
      rw [← Except.ok.inj hrow, ← Except.ok.inj hrow']
      exact ⟨rfl, rfl, rfl⟩

section Lines

variable {is64Bit : Bool} {contents other : AddressSpace}
  {fileOffset otherOffset vaddr : UInt64}

theorem appendsRow_of_ok {locals : DecodeLocals} {later : Consumed UInt8 15}
    (hrun : decodeInstruction is64Bit vaddr (bytesAt contents fileOffset) .empty =
      .ok locals later) :
    ∃ row, x86_64 { locals.fields with bytes := later } locals.simd = .ok row ∧
      ∀ store, AppendsRow contents fileOffset later.length row store
        (decodeLine is64Bit contents fileOffset vaddr store) := by
  have hyields := (@decodeInstruction_yields (bytesAt contents fileOffset)
    is64Bit vaddr).settled (Drawn.empty _)
  rw [hrun] at hyields
  obtain ⟨-, hdrawn, hpos, hcount⟩ := hyields
  obtain ⟨row, hrow⟩ : ∃ row,
      x86_64 { locals.fields with bytes := later } locals.simd = .ok row := by
    rcases hcount with hinvalid | hcount
    · exact ⟨_, x86_64_of_isInvalid locals.simd hinvalid⟩
    · exact x86_64_ok _ _ hcount
  obtain ⟨hinside, hbytes⟩ := drawn_bytesAt hdrawn hpos
  refine ⟨row, hrow, fun store => ⟨hpos, later.length_le, hinside, ?_, ?_⟩⟩
  · rw [machineCode_x86_64 hrow, ← hbytes]
  · rw [decodeLine, hrun]
    exact emit_of_ok fileOffset store hrow

/-- The row of an instruction that runs into the limit. -/
def overlongRow (contents : AddressSpace) (fileOffset : UInt64) : Instruction where
  machineCode := machineCodeOf ((contents.mappedData.drop fileOffset.toNat).take 15)
  instructionText := "(bad)"

theorem overlong_sameRow (contents other : AddressSpace) (fileOffset otherOffset : UInt64) :
    SameRow (overlongRow contents fileOffset) (overlongRow other otherOffset) :=
  ⟨rfl, rfl, rfl⟩

theorem appendsRow_of_limit {later : Consumed UInt8 15}
    (hrun : decodeInstruction is64Bit vaddr (bytesAt contents fileOffset) .empty =
      .error .limitReached later) (store : InstructionStore) :
    AppendsRow contents fileOffset 15 (overlongRow contents fileOffset) store
      (decodeLine is64Bit contents fileOffset vaddr store) := by
  have hyields := (@decodeInstruction_yields (bytesAt contents fileOffset)
    is64Bit vaddr).settled (Drawn.empty _)
  rw [hrun] at hyields
  obtain ⟨-, hdrawn, hlength⟩ := hyields
  obtain ⟨hinside, hbytes⟩ := drawn_bytesAt hdrawn (by rw [hlength]; decide)
  rw [hlength] at hinside hbytes
  refine ⟨by decide, le_rfl, hinside, rfl, ?_⟩
  have hinvalid := @x86_64_of_isInvalid { bytes := later, isInvalid := true } {} rfl
  have hemit := emit_of_ok fileOffset store hinvalid
  rw [decodeLine, hrun, finishLine, hemit]
  dsimp only
  rw [hlength, hbytes]
  rfl

theorem decodeLine_of_failed {thrown : Thrown} {later : Consumed UInt8 15}
    (hrun : decodeInstruction is64Bit vaddr (bytesAt contents fileOffset) .empty =
      .error (.failed thrown) later) (store : InstructionStore) :
    decodeLine is64Bit contents fileOffset vaddr store = .ok (fileOffset, store) := by
  have hyields := (@decodeInstruction_yields (bytesAt contents fileOffset)
    is64Bit vaddr).settled (Drawn.empty _)
  rw [hrun] at hyields
  rw [decodeLine, hrun]
  exact finishLine_failed store hyields.2.2

/-- Two files that go on with the same bytes. -/
theorem sameAhead_bytesAt {consumed consumed' : Consumed UInt8 15}
    (hle : fileOffset.toNat + consumed.length ≤ contents.mappedData.length)
    (hle' : otherOffset.toNat + consumed'.length ≤ other.mappedData.length)
    (hdrop : other.mappedData.drop (otherOffset.toNat + consumed'.length) =
      contents.mappedData.drop (fileOffset.toNat + consumed.length)) :
    SameAhead (bytesAt contents fileOffset) (bytesAt other otherOffset) consumed consumed' := by
  have hsize := contents.fileSize_lt
  have hsize' := other.fileSize_lt
  have hlength := congrArg List.length hdrop
  rw [List.length_drop, List.length_drop] at hlength
  intro i hbefore
  rcases Nat.lt_trichotomy (fileOffset.toNat + consumed.length + i) contents.mappedData.length with
    hinside | hend | hpast
  · rw [readU8_bytesAt contents fileOffset _ (by omega),
      readU8_bytesAt other otherOffset _ (by omega)]
    have hbyte := congrArg (fun bytes => bytes[i]?) hdrop
    simp only [List.getElem?_drop] at hbyte
    rw [List.getElem?_eq_getElem hinside, List.getElem?_eq_getElem (by omega)] at hbyte
    simp only [← Nat.add_assoc, Option.some.inj hbyte]
  · rw [bytesAt, bytesAt, AddressSpace.readU8_of_le, AddressSpace.readU8_of_le]
    · rw [toNat_add_ofNat (by omega)]
      omega
    · rw [toNat_add_ofNat (by omega)]
      omega
  · obtain ⟨symbol, hsymbol⟩ := hbefore
      (contents.mappedData.length - (fileOffset.toNat + consumed.length)) (by omega)
    rw [bytesAt, AddressSpace.readU8_of_le] at hsymbol
    · contradiction
    · rw [toNat_add_ofNat (by omega)]
      omega

section Fronts

variable {front front' tail : List UInt8}

theorem supplies_front (hcontents : contents.mappedData.drop fileOffset.toNat = front ++ tail) :
    Supplies (bytesAt contents fileOffset) 0 front := by
  apply supplies_of_holds
  rw [Holds, hcontents, List.take_left]

theorem length_front (hcontents : contents.mappedData.drop fileOffset.toNat = front ++ tail)
    (hpos : 0 < front.length) :
    fileOffset.toNat + front.length ≤ contents.mappedData.length := by
  have hlength := congrArg List.length hcontents
  rw [List.length_drop, List.length_append] at hlength
  omega

theorem drop_front (hcontents : contents.mappedData.drop fileOffset.toNat = front ++ tail) :
    contents.mappedData.drop (fileOffset.toNat + front.length) = tail := by
  rw [← List.drop_drop, hcontents, List.drop_left]

/-- Behind different fronts the two files go on alike. -/
theorem sameAhead_fronts {later later' : Consumed UInt8 15}
    (hcontents : contents.mappedData.drop fileOffset.toNat = front ++ tail)
    (hother : other.mappedData.drop otherOffset.toNat = front' ++ tail)
    (hlater : later.length = front.length) (hlater' : later'.length = front'.length)
    (hpos : 0 < front.length) (hpos' : 0 < front'.length) :
    SameAhead (bytesAt contents fileOffset) (bytesAt other otherOffset) later later' := by
  apply sameAhead_bytesAt
  · rw [hlater]
    exact length_front hcontents hpos
  · rw [hlater']
    exact length_front hother hpos'
  · rw [hlater, hlater', drop_front hcontents, drop_front hother]

/-- The run behind a front, or at the limit within it. -/
theorem decodeInstruction_front {source : ByteSource} {locals : DecodeLocals}
    (hfront : Demands source .empty
      (decodePrefixes is64Bit source >>= decodeOpcode is64Bit source) front locals)
    (hsupplies : Supplies source 0 front) :
    (∃ later : Consumed UInt8 15, later.length = front.length ∧
      decodeInstruction is64Bit vaddr source .empty =
        decodeAfterOpcode is64Bit vaddr source locals later) ∨
      15 < front.length ∧ ∃ later : Consumed UInt8 15,
        decodeInstruction is64Bit vaddr source .empty = .error .limitReached later := by
  have hsplit : decodeInstruction is64Bit vaddr source =
      (decodePrefixes is64Bit source >>= decodeOpcode is64Bit source) >>=
        decodeAfterOpcode is64Bit vaddr source := by
    rw [bind_assoc]
    rfl
  rw [hsplit]
  rcases hfront.run hsupplies with ⟨hroom, hok⟩ | ⟨hbeyond, later, hstop⟩
  · rw [bind_of_ok hok]
    refine Or.inl ⟨_, ?_, rfl⟩
    rw [Consumed.length_append, Consumed.length_empty, Nat.zero_add]
  · rw [bind_of_error hstop]
    rw [Consumed.length_empty, Nat.zero_add] at hbeyond
    exact Or.inr ⟨hbeyond, later, rfl⟩

end Fronts

/-- Two calls of `decodeLine`: each appends a row, the same but for its bytes, of which the
second has `extra` more, or both report truncation. -/
inductive LinesMatch (is64Bit : Bool) (contents other : AddressSpace)
    (fileOffset otherOffset vaddr : UInt64) (extra : Nat) : Prop where
  | row {n : Nat} {row row' : Instruction} (hsame : SameRow row row')
      (h : ∀ store, AppendsRow contents fileOffset n row store
        (decodeLine is64Bit contents fileOffset vaddr store))
      (h' : ∀ store, AppendsRow other otherOffset (n + extra) row' store
        (decodeLine is64Bit other otherOffset vaddr store))
  | truncated
      (h : ∀ store, decodeLine is64Bit contents fileOffset vaddr store = .ok (fileOffset, store))
      (h' : ∀ store, decodeLine is64Bit other otherOffset vaddr store = .ok (otherOffset, store))

theorem linesMatch_of_matched {consumed consumed' : Consumed UInt8 15} {extra : Nat}
    (hextra : consumed'.length = consumed.length + extra)
    (hmatched : Matched (bytesAt contents fileOffset) consumed consumed' SameButVex
      (decodeInstruction is64Bit vaddr (bytesAt contents fileOffset) .empty)
      (decodeInstruction is64Bit vaddr (bytesAt other otherOffset) .empty))
    (hlimit : extra = 0 ∨ ∀ later,
      decodeInstruction is64Bit vaddr (bytesAt other otherOffset) .empty ≠
        .error .limitReached later) :
    LinesMatch is64Bit contents other fileOffset otherOffset vaddr extra := by
  generalize hrun : decodeInstruction is64Bit vaddr (bytesAt contents fileOffset) .empty =
    outcome at hmatched
  generalize hrun' : decodeInstruction is64Bit vaddr (bytesAt other otherOffset) .empty =
    outcome' at hmatched hlimit
  cases hmatched with
  | @ok locals locals' later later' hfurther hsame =>
      obtain ⟨n, hlater, hlater'⟩ := hfurther.length
      have hlength : later'.length = later.length + extra := by omega
      obtain ⟨row, hrow, happends⟩ := appendsRow_of_ok hrun
      obtain ⟨row', hrow', happends'⟩ := appendsRow_of_ok hrun'
      rw [hlength] at happends'
      exact .row (hsame.sameRow hrow hrow') happends happends'
  | @error stop later later' _ =>
      cases stop with
      | failed thrown => exact .truncated (decodeLine_of_failed hrun) (decodeLine_of_failed hrun')
      | limitReached =>
          obtain rfl := hlimit.resolve_right fun hne => hne later' rfl
          exact .row (overlong_sameRow contents other fileOffset otherOffset)
            (appendsRow_of_limit hrun) (appendsRow_of_limit hrun')
  | @beyond _ later' hlt =>
      rcases hlimit with hzero | hne
      · omega
      · exact absurd rfl (hne later')

end Lines

end Voidwalk.ParallelDecoding

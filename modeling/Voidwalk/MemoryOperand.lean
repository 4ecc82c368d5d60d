import Voidwalk.BracketedText
import Voidwalk.OpcodeBytes

/-!
The memory operand that an instruction prints against the effective address that the
architecture assigns to its bytes.
-/

namespace Voidwalk.MemoryOperand

open Voidwalk.MappedFile
open Voidwalk.OpcodeRows
open Voidwalk.ThreeByteTables
open Voidwalk.RowResolution
open Voidwalk.InstructionRendering
open Voidwalk.InstructionDecoding
open Voidwalk.DecodeLineContract
open Voidwalk.SelfDelimiting
open Voidwalk.PrefixedOpcodes
open Voidwalk.EffectiveAddress
open Voidwalk.MemoryText
open Voidwalk.MemoryRows
open Voidwalk.BracketedText
open Voidwalk.OperandBytes
open Voidwalk.OpcodeBytes
open Voidwalk.Library.CountingReader
open Voidwalk.Library.Brackets
open Voidwalk.Library.SumText

section Stages

variable {source : ByteSource} {consumed : Consumed UInt8 15} {is64Bit : Bool}
  {prefixes opcode : List UInt8} {extension : Extension} {locals : DecodeLocals}

theorem decodeModRM_reads (locals : DecodeLocals) :
    Yields source consumed (decodeModRM source locals) fun addressed later =>
      addressed.1 = locals ∨
        (hasModRM locals.fields.opcode locals.simd = .ok true ∧
          later.symbols = consumed.symbols ++ [addressed.2] ∧
          addressed.1 = { locals with fields := withModRM locals.fields addressed.2 }) := by
  obtain ⟨modRMFollows, hfollows⟩ := hasModRM_ok locals.fields.opcode locals.simd
  rw [decodeModRM]
  refine Yields.bind (P := fun follows later => follows = modRMFollows ∧ later = consumed)
    (Yields.attempt hfollows ⟨rfl, rfl⟩) ?_
  rintro follows later - ⟨rfl, rfl⟩
  split
  · rename_i htaken
    refine Yields.bind Yields.next fun modRM final _ hfinal => Yields.pure (Or.inr ?_)
    rw [htaken] at hfollows
    exact ⟨hfollows, hfinal, rfl⟩
  · exact Yields.pure (Or.inl rfl)

theorem resolveRow_resolved (modRM : UInt8) (hknown : KnownMap locals.simd) :
    Yields source consumed (resolveRow is64Bit locals modRM) fun later final =>
      final = consumed ∧ ∃ row, rowOf is64Bit locals.fields.opcode modRM locals.simd = .ok row ∧
        later = resolved is64Bit locals row := by
  obtain ⟨row, hrow, -⟩ := rowOf_ok is64Bit locals.fields.opcode modRM hknown
  rw [resolveRow]
  refine Yields.bind (P := fun value later => value = row ∧ later = consumed)
    (Yields.attempt hrow ⟨rfl, rfl⟩) ?_
  rintro value later - ⟨rfl, rfl⟩
  exact Yields.pure ⟨rfl, value, hrow, rfl⟩

theorem vex_resolved (is64Bit : Bool) (locals : DecodeLocals) (row : OpcodeInfo) :
    (resolved is64Bit locals row).simd.vex = locals.simd.vex := by
  simp only [resolved, withWidths, takeMandatoryPrefix]
  split_ifs <;> rfl

theorem addressSize_cases (is64Bit : Bool) (prefixes : List UInt8) :
    addressSize is64Bit prefixes = 16 ∨ addressSize is64Bit prefixes = 32 ∨
      addressSize is64Bit prefixes = 64 := by
  rw [addressSize]
  split_ifs <;> decide

/-- Behind its row the operand is read at the address size in force. -/
theorem modRMRead_resolved (h : Opened is64Bit source prefixes opcode extension locals)
    (modRM : UInt8) (row : OpcodeInfo) :
    let fields := (resolved is64Bit
      { locals with fields := withModRM locals.fields modRM } row).fields
    ModRMRead extension modRM fields ∧ fields.addrSize = addressSize is64Bit prefixes ∧
      fields.is64Bit = is64Bit ∧ fields.info = row := by
  have haddr : (resolved is64Bit
      { locals with fields := withModRM locals.fields modRM } row).fields.addrSize =
      addressSize is64Bit prefixes := by
    rw [addrSize_resolved, addressSize, ← h.hasAddrSizePrefix]
  have hcases := addressSize_cases is64Bit prefixes
  rw [← haddr] at hcases
  have hrm : (withModRM locals.fields modRM).rm =
      (modRM &&& 7) ||| UInt8.ofNat extension.b <<< (3 : UInt8) := by
    rw [← h.rexB]
    rfl
  have hfields := fields_resolved is64Bit
    { locals with fields := withModRM locals.fields modRM } row
  have hfresh := h.fields
  generalize (resolved is64Bit { locals with fields := withModRM locals.fields modRM } row).fields =
    fields at hfields haddr hcases ⊢
  refine ⟨⟨?_, ?_, ?_, h.x_lt, h.b_lt, ?_, ?_, hcases, ?_, ?_, ?_, ?_, ?_⟩, haddr, ?_, ?_⟩
  · rw [hfields]
    rfl
  · rw [hfields]
    rfl
  · rw [hfields]
    exact hrm
  · rw [hfields]
    exact h.rexX
  · rw [hfields]
    exact h.rexB
  · exact (congrArg Fields.index hfields).trans (congrArg Fields.index hfresh)
  · exact (congrArg Fields.base hfields).trans (congrArg Fields.base hfresh)
  · exact (congrArg Fields.hasSIB hfields).trans (congrArg Fields.hasSIB hfresh)
  · exact (congrArg Fields.hasDisplacement hfields).trans (congrArg Fields.hasDisplacement hfresh)
  · exact (congrArg Fields.displacement hfields).trans (congrArg Fields.displacement hfresh)
  · exact (congrArg Fields.is64Bit hfields).trans (congrArg Fields.is64Bit hfresh)
  · exact congrArg Fields.info hfields

theorem decode3DNow_info (locals : DecodeLocals) :
    Yields source consumed (decode3DNow source locals) fun named _ =>
      ∃ info, named = { locals with fields := { locals.fields with info := info } } ∧
        (info = locals.fields.info ∨ (locals.simd.vex = 0 ∧ MemoryRow false info)) := by
  rw [decode3DNow]
  split
  · rename_i h3DNow
    refine Yields.bind Yields.next fun code later _ _ => ?_
    obtain ⟨info, hinfo, -⟩ := threeDNowTable_ok code
    have hrow : MemoryRow false info :=
      (Ensures.at fun slot _ => threeDNowTable_memoryRow slot).of_ok info hinfo
    refine Yields.bind (P := fun row _ => row = info) (Yields.attempt hinfo rfl) ?_
    rintro row final - rfl
    exact Yields.pure ⟨row, rfl, Or.inr ⟨h3DNow.1, hrow⟩⟩
  · exact Yields.pure ⟨locals.fields.info, rfl, Or.inl rfl⟩

end Stages

/-- The fields of an instruction with a memory operand, behind its last byte. -/
structure OperandRead (is64Bit : Bool) (prefixes : List UInt8) (extension : Extension)
    (modRM : UInt8) (tail : List UInt8) (fields : Fields) : Prop where
  addrSize : fields.addrSize = addressSize is64Bit prefixes
  addressable : Addressable extension.isGather fields
  row : fields.info.text = "(bad)" ∨ MemoryRow extension.isGather fields.info
  form : (extension.isGather = true → fields.hasSIB = true) → ∀ behind,
    memoryForm is64Bit (addressSize is64Bit prefixes) extension (modRM :: (tail ++ behind)) =
      some (describedForm extension.isGather fields)

section Instructions

variable {source : ByteSource} {consumed : Consumed UInt8 15} {is64Bit : Bool}
  {prefixes opcode : List UInt8} {extension : Extension} {locals : DecodeLocals}

/-- What the operand says is settled before the immediates and the byte of 3DNow!. -/
theorem operandRead_of_memoryRead {modRM : UInt8} {tail : List UInt8} {fields later final : Fields}
    (haddr : fields.addrSize = addressSize is64Bit prefixes) (hmode : fields.is64Bit = is64Bit)
    (h : MemoryRead extension modRM tail fields later)
    (hfinal : final = { later with info := final.info, immediates := final.immediates })
    (hrow : final.info.text = "(bad)" ∨ MemoryRow extension.isGather final.info) :
    OperandRead is64Bit prefixes extension modRM tail final := by
  have hform : describedForm extension.isGather final =
      describedForm extension.isGather later := by
    rw [hfinal]
    rfl
  have haddressable : Addressable extension.isGather final := by
    rw [hfinal]
    exact ⟨h.addressable.1, h.addressable.2, h.addressable.3, h.addressable.4, h.addressable.5,
      h.addressable.6, h.addressable.7⟩
  refine ⟨?_, haddressable, hrow, ?_⟩
  · rw [← haddr, ← h.addrSize, hfinal]
  · intro hsib behind
    rw [hfinal] at hsib
    rw [← haddr, ← hmode, hform]
    exact h.form hsib behind

/-- Behind the memory operand only the row, of 3DNow!, and the immediates change. -/
theorem behindMemory_fields (vaddr : UInt64) (locals : DecodeLocals) (fields : Fields) :
    Yields source consumed
      (do
        let named ← decode3DNow source { locals with fields := fields }
        let filled ← decodeImmediates is64Bit vaddr source named.fields
        pure { named with fields := filled })
      fun decoded _ =>
        decoded.fields = { fields with
          info := decoded.fields.info, immediates := decoded.fields.immediates } ∧
        (decoded.fields.info = fields.info ∨
          (locals.simd.vex = 0 ∧ MemoryRow false decoded.fields.info)) := by
  refine Yields.bind (decode3DNow_info { locals with fields := fields }) fun named _ _ hnamed => ?_
  obtain ⟨info, rfl, hinfo⟩ := hnamed
  refine Yields.bind (decodeImmediates_yields is64Bit vaddr _) fun filled _ _ hfilled => ?_
  refine Yields.pure ⟨?_, ?_⟩
  · dsimp only
    rw [hfilled]
  · dsimp only
    rw [hfilled]
    exact hinfo

/-- Behind the opcode the decoder reads the operand of the architecture, where it reads a
memory operand at all. -/
theorem decodeOperands_reads (vaddr : UInt64)
    (h : Opened is64Bit source prefixes opcode extension locals) (hknown : KnownMap locals.simd)
    (hconsumed : consumed.symbols = prefixes ++ opcode) :
    Yields source consumed (decodeOperands is64Bit vaddr source locals) fun decoded final =>
      decoded.fields.hasModRM = true → decoded.fields.mod ≠ 3 →
        ∃ modRM tail rest, final.symbols = prefixes ++ opcode ++ modRM :: (tail ++ rest) ∧
          OperandRead is64Bit prefixes extension modRM tail decoded.fields := by
  rw [decodeOperands]
  refine Yields.bind ((decodeModRM_reads locals).and (decodeModRM_yields locals))
    fun addressed later _ haddressed => ?_
  obtain ⟨hmodRM, hsimd⟩ := haddressed
  refine Yields.bind (resolveRow_resolved addressed.2 (hsimd ▸ hknown))
    fun resolvedLocals later _ hresolved => ?_
  obtain ⟨rfl, row, hrow, rfl⟩ := hresolved
  have hvex := vex_resolved is64Bit addressed.1 row
  rw [hsimd] at hvex
  rcases hmodRM with hsame | ⟨hmodRM, hlater, haddressed⟩
  · have hnone : (resolved is64Bit addressed.1 row).fields.hasModRM = false := by
      rw [fields_resolved, hsame]
      exact congrArg Fields.hasModRM h.fields
    rw [decodeMemory, if_neg (by simp [hnone]), pure_bind]
    refine (behindMemory_fields vaddr _ _).mono fun decoded final _ hdecoded => ?_
    intro htaken
    rw [hdecoded.1] at htaken
    exact absurd (hnone.symm.trans htaken) (by decide)
  obtain ⟨hread, haddrSize, hmode, hinfo⟩ := modRMRead_resolved h addressed.2 row
  rw [← haddressed] at hread haddrSize hmode hinfo
  by_cases hregister : (resolved is64Bit addressed.1 row).fields.mod = 3
  · rw [decodeMemory, if_neg (by simp [hregister]), pure_bind]
    refine (behindMemory_fields vaddr _ _).mono fun decoded final _ hdecoded => ?_
    intro _ hmemory
    rw [hdecoded.1] at hmemory
    exact absurd hregister hmemory
  refine Yields.bind (decodeMemory_reads hread hregister) fun fields memory _ hfields => ?_
  obtain ⟨tail, hsymbols, hfields⟩ := hfields
  refine (behindMemory_fields vaddr _ fields).mono fun decoded final hgrown hdecoded _ _ => ?_
  obtain ⟨rest, hrest⟩ := hgrown
  refine ⟨addressed.2, tail, rest, ?_,
    operandRead_of_memoryRead haddrSize hmode hfields hdecoded.1 ?_⟩
  · rw [← hrest, hsymbols, hlater, hconsumed]
    simp
  · rcases hdecoded.2 with hsameRow | ⟨hlegacy, h3DNow⟩
    · rw [hsameRow, hfields.info, hinfo, ← h.isGather]
      rw [haddressed] at hrow
      exact (rowOf_memoryRow is64Bit addressed.2 hknown hmodRM).of_ok row hrow
    · have hplain : extension.isGather = false := by
        rw [← h.isGather, isGatherOpcode, ← hvex, hlegacy]
        rfl
      rw [hplain]
      exact Or.inr h3DNow

/-- An instruction with a memory operand is prefixes, opcode, ModRM byte and operand of the
architecture, and then what follows the operand. -/
structure InstructionRead (is64Bit : Bool) (source : ByteSource) (symbols : List UInt8)
    (prefixes : List UInt8) (first : UInt8) (opcodeTail : List UInt8) (extension : Extension)
    (modRM : UInt8) (tail rest : List UInt8) (fields : Fields) : Prop where
  symbols_eq : symbols = prefixes ++ (first :: opcodeTail) ++ modRM :: (tail ++ rest)
  prefixes_taken : ∀ byte ∈ prefixes, isPrefixByte is64Bit byte = true
  first_left : isPrefixByte is64Bit first = false
  skips : ∀ behind, Supplies source 0 (prefixes ++ (first :: opcodeTail) ++ behind) →
    behindOpcode is64Bit (rexBits is64Bit prefixes) ((first :: opcodeTail) ++ behind) =
      some (extension, behind)
  operand : OperandRead is64Bit prefixes extension modRM tail fields

theorem decodeInstruction_reads (vaddr : UInt64) :
    Yields source .empty (decodeInstruction is64Bit vaddr source) fun decoded final =>
      decoded.fields.isInvalid = true ∨
        (decoded.fields.hasModRM = true → decoded.fields.mod ≠ 3 →
          ∃ prefixes first opcodeTail extension modRM tail rest,
            InstructionRead is64Bit source final.symbols prefixes first opcodeTail extension modRM
              tail rest decoded.fields) := by
  rw [decodeInstruction]
  refine Yields.bind decodePrefixes_prefixed fun prefixed later _ hprefixed => ?_
  obtain ⟨prefixes, hlater, hlocals, hprefixes, hfirst⟩ := hprefixed
  refine Yields.bind ((decodeOpcode_opened hlocals hlater).and
    (decodeOpcode_yields is64Bit hlocals.simd)) fun locals later _ hopened => ?_
  split
  · rename_i hinvalid
    exact Yields.pure (Or.inl hinvalid)
  rename_i hvalid
  obtain ⟨opcodeTail, extension, hlater, hopened'⟩ := hopened.1.resolve_left hvalid
  refine (decodeOperands_reads vaddr hopened' (hopened.2.resolve_left hvalid) hlater).mono
    fun decoded final _ hdecoded => Or.inr fun hmodRM hmemory => ?_
  obtain ⟨modRM, tail, rest, hfinal, hoperand⟩ := hdecoded hmodRM hmemory
  exact ⟨prefixes, prefixed.2, opcodeTail, extension, modRM, tail, rest, hfinal, hprefixes, hfirst,
    hopened'.skips, hoperand⟩

theorem InstructionRead.effectiveForm {symbols opcodeTail tail rest : List UInt8}
    {first modRM : UInt8} {fields : Fields}
    (h : InstructionRead is64Bit source symbols prefixes first opcodeTail extension modRM tail rest
      fields)
    (hsupplies : Supplies source 0 symbols)
    (hsib : extension.isGather = true → fields.hasSIB = true) :
    effectiveForm is64Bit symbols = some (describedForm extension.isGather fields) := by
  have htake : symbols.takeWhile (isPrefixByte is64Bit) = prefixes := by
    rw [h.symbols_eq, List.append_assoc, List.takeWhile_append_of_pos h.prefixes_taken,
      List.cons_append, List.takeWhile_cons_of_neg (by simp [h.first_left]), List.append_nil]
  have hdrop : symbols.dropWhile (isPrefixByte is64Bit) =
      (first :: opcodeTail) ++ modRM :: (tail ++ rest) := by
    rw [h.symbols_eq, List.append_assoc, List.dropWhile_append_of_pos h.prefixes_taken,
      List.cons_append, List.dropWhile_cons_of_neg (by simp [h.first_left])]
  rw [EffectiveAddress.effectiveForm, htake, hdrop, h.skips _ (h.symbols_eq ▸ hsupplies)]
  exact h.operand.form hsib rest

theorem vsibOf_isSome {isGather : Bool} {info : OpcodeInfo} (h : MemoryRow isGather info) :
    (vsibOf info).isSome = isGather := by
  rw [vsibOf, ← h.vsib, Bool.eq_iff_iff, List.find?_isSome, List.any_eq_true]
  simp [isVSIB]

end Instructions

/-- The fields print a memory operand of ModRM; of a gather, only with a SIB byte. -/
structure PrintsMemory (fields : Fields) : Prop where
  memory : fields.hasModRM = true ∧ fields.mod ≠ 3
  operand : (operandList fields.info).any takesMemory = true
  gather : (vsibOf fields.info).isSome = true → fields.hasSIB = true

instance (fields : Fields) : Decidable (PrintsMemory fields) :=
  decidable_of_iff
    ((fields.hasModRM = true ∧ fields.mod ≠ 3) ∧ (operandList fields.info).any takesMemory = true ∧
      ((vsibOf fields.info).isSome = true → fields.hasSIB = true))
    ⟨fun h => ⟨h.1, h.2.1, h.2.2⟩, fun h => ⟨h.1, h.2, h.3⟩⟩

/-- The instruction at `fileOffset` decodes to one that prints a memory operand. -/
def HasMemoryOperand (is64Bit : Bool) (contents : AddressSpace) (fileOffset vaddr : UInt64) :
    Prop :=
  ∃ locals later,
    decodeInstruction is64Bit vaddr (bytesAt contents fileOffset) .empty = .ok locals later ∧
      PrintsMemory locals.fields

instance (is64Bit : Bool) (contents : AddressSpace) (fileOffset vaddr : UInt64) :
    Decidable (HasMemoryOperand is64Bit contents fileOffset vaddr) :=
  match hrun : decodeInstruction is64Bit vaddr (bytesAt contents fileOffset) .empty with
  | .ok locals later =>
      decidable_of_iff (PrintsMemory locals.fields)
        ⟨fun h => ⟨locals, later, hrun, h⟩, fun ⟨_, _, hok, h⟩ => by
          rw [hrun] at hok
          rwa [(EStateM.Result.ok.inj hok).1]⟩
  | .error _ _ => isFalse fun ⟨_, _, hok, _⟩ => nomatch hrun.symm.trans hok

/-- The bracketed parts of a text all denote the effective address of the bytes. -/
structure Denotes (is64Bit : Bool) (bytes : List UInt8) (next : UInt64) (text : String)
    (form : AddressForm) : Prop where
  form_eq : effectiveForm is64Bit bytes = some form
  printed : bracketed text.toList ≠ []
  denotes : ∀ registers, ∀ operand ∈ bracketed text.toList, ∃ value,
    evaluate (nameValue registers next) operand = some value ∧
      value % 2 ^ form.size = form.address registers next

section Lines

variable {is64Bit : Bool} {contents : AddressSpace} {fileOffset vaddr nextOffset : UInt64}
  {store : InstructionStore} {row : Instruction}

theorem exists_length_of_appends
    (h : Appends store (decodeLine is64Bit contents fileOffset vaddr store) nextOffset row) :
    ∃ n, 1 ≤ n ∧ nextOffset.toNat = fileOffset.toNat + n := by
  rcases decodeLine_cases is64Bit contents fileOffset vaddr with hnone | ⟨n, instruction, hrow⟩
  · exact absurd (hnone.2 store ▸ h) not_appends_unchanged
  · obtain ⟨later, hresult, -⟩ := h
    have happends := hrow store
    have hnext := (Prod.mk.inj (Except.ok.inj (happends.result_eq.symm.trans hresult))).1
    exact ⟨n, happends.length_pos, hnext ▸ happends.toNat_next⟩

/-- The bytes of the instruction that ends in front of `nextOffset`. -/
def instructionBytes (contents : AddressSpace) (fileOffset nextOffset : UInt64) : List UInt8 :=
  (contents.mappedData.drop fileOffset.toNat).take (nextOffset.toNat - fileOffset.toNat)

/-- The row that is appended is the one that the constructor makes. -/
theorem x86_64_of_emit {fields : Fields} {simd : Simd} {store' : InstructionStore}
    (h : emit fileOffset store fields simd = .ok (nextOffset, store'))
    (hstore : store'.toList = store.toList ++ [row]) : x86_64 fields simd = .ok row := by
  rw [emit] at h
  cases hrow : x86_64 fields simd with
  | error thrown => simp [hrow, bind, Except.bind] at h
  | ok instruction =>
      rw [hrow] at h
      rw [← (Prod.mk.inj (Except.ok.inj h)).2, ChunkStorage.ChunkStore.toList_pushBack] at hstore
      rw [List.singleton_inj.mp (List.append_cancel_left hstore)]

theorem decoded_of_appends {locals : DecodeLocals} {later : Consumed UInt8 15}
    (h : Appends store (decodeLine is64Bit contents fileOffset vaddr store) nextOffset row)
    (hrun : decodeInstruction is64Bit vaddr (bytesAt contents fileOffset) .empty =
      .ok locals later) :
    Drawn (bytesAt contents fileOffset) later ∧
      later.symbols = instructionBytes contents fileOffset nextOffset ∧
      x86_64 { locals.fields with bytes := later } locals.simd = .ok row := by
  obtain ⟨n, hpos, hnext⟩ := exists_length_of_appends h
  obtain ⟨hdrawn, hlength, -, hfinish⟩ := outcome_of_appends hpos hnext h hrun
  refine ⟨hdrawn, ?_, ?_⟩
  · have hlater : later.length = nextOffset.toNat - fileOffset.toNat := by
      change later.length = n at hlength
      omega
    rw [instructionBytes, ← hlater]
    exact (drawn_bytesAt hdrawn (hlength ▸ hpos)).2
  · have hline := hfinish .empty
    rw [finishLine] at hline
    exact x86_64_of_emit hline (by rw [ChunkStorage.ChunkStore.toList_pushBack])

theorem isBad_of_named {fields : Fields} {simd : Simd} (h : x86_64 fields simd = .ok row)
    (hnamed : row.instructionText ≠ "(bad)") : isBad fields = false := by
  by_contra hbad
  rw [x86_64, if_pos (by simpa using hbad)] at h
  exact hnamed (Except.ok.inj h ▸ rfl)

/-- What a memory operand of ModRM prints denotes the effective address that the architecture
assigns to the bytes of the row, RIP and EIP standing for the address behind them. -/
theorem memory_operand_denotes (is64Bit : Bool) (contents : AddressSpace)
    (fileOffset vaddr : UInt64) (store : InstructionStore) (nextOffset : UInt64)
    (row : Instruction)
    (h : Appends store (decodeLine is64Bit contents fileOffset vaddr store) nextOffset row)
    (hnamed : row.instructionText ≠ "(bad)")
    (hmemory : HasMemoryOperand is64Bit contents fileOffset vaddr) :
    ∃ form, Denotes is64Bit (instructionBytes contents fileOffset nextOffset)
      (vaddr + (nextOffset - fileOffset)) row.instructionText form := by
  obtain ⟨locals, later, hrun, hprints⟩ := hmemory
  obtain ⟨hdrawn, hbytes, hinstruction⟩ := decoded_of_appends h hrun
  have hgood := isBad_of_named hinstruction hnamed
  obtain ⟨⟨hvalid, -⟩, hrowNamed⟩ : (locals.fields.isInvalid = false ∧ _ = false) ∧
      (locals.fields.info.text == "(bad)") = false := by
    rw [isBad, Bool.or_eq_false_iff, Bool.or_eq_false_iff] at hgood
    exact hgood
  have hreads := (@decodeInstruction_reads (bytesAt contents fileOffset) is64Bit vaddr).settled
    (Drawn.empty _)
  rw [hrun] at hreads
  obtain ⟨prefixes, first, opcodeTail, extension, modRM, tail, rest, hread⟩ :=
    (hreads.2.2.resolve_left (by simp [hvalid])) hprints.memory.1 hprints.memory.2
  have hrow := hread.operand.row.resolve_left (by simpa using hrowNamed)
  have hgather := vsibOf_isSome hrow
  have hform := hread.effectiveForm (Drawn.supplies hdrawn) fun htaken =>
    hprints.gather (hgather.trans htaken)
  refine ⟨describedForm extension.isGather locals.fields, hbytes ▸ hform, ?_, ?_⟩
  · exact bracketed_x86_64_ne_nil hinstruction hgood hprints.memory hprints.operand
  · intro registers operand hoperand
    rw [bracketed_x86_64 hinstruction hgood hrow hprints.memory operand hoperand]
    exact memoryText_value hread.operand.addressable hgather locals.simd registers _

end Lines

/-- `mov rax, [r13 + rcx*4 - 8]` -/
def scaledLoad : AddressSpace where
  mappedData := [0x49, 0x8B, 0x44, 0x8D, 0xF8]
  fileSize_lt := by decide

def scaledLoadRow : Instruction where
  machineCode := machineCodeOf scaledLoad.mappedData
  instructionText := "MOV \tRAX, [R13 + RCX*4 - 0x8]"

theorem memory_operand_denotes_scaledLoad :
    ∃ form, Denotes true (instructionBytes scaledLoad 0 5) 0x1005 scaledLoadRow.instructionText
      form :=
  memory_operand_denotes true scaledLoad 0 0x1000 .empty 5 scaledLoadRow
    (by decide +kernel) (by decide +kernel) (by decide +kernel)

end Voidwalk.MemoryOperand

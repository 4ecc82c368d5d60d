import Voidwalk.OpcodeBytes
import Voidwalk.OperandBytes
import Voidwalk.PrefixEffects
import Voidwalk.RowTexts

/-!
The opcodes whose low three bits select a general register: when the text of the instruction
names the register that opcode, prefixes and mode encode.
-/

namespace Voidwalk.RegisterOpcodes

open Voidwalk.MappedFile
open Voidwalk.OpcodeRows
open Voidwalk.OneByteTables
open Voidwalk.TwoByteTables
open Voidwalk.RowResolution
open Voidwalk.InstructionRendering
open Voidwalk.InstructionDecoding
open Voidwalk.DecodeLineContract
open Voidwalk.PrefixedOpcodes
open Voidwalk.EncodedValues
open Voidwalk.EffectiveAddress
open Voidwalk.OpcodeBytes
open Voidwalk.OperandBytes
open Voidwalk.MemoryText
open Voidwalk.OperandTexts
open Voidwalk.RowTexts
open Voidwalk.ParallelDecoding
open Voidwalk.PrefixEffects
open Voidwalk.Library.Bytes
open Voidwalk.Library.CountingReader
open Voidwalk.Library.SeparatedText

section Architecture

def within (low high : UInt8) (opcode : UInt8) : Bool := low ≤ opcode && opcode ≤ high

/-- Whether the low three bits of an opcode, or of the byte behind 0F, select a general
register. 40 to 4F are REX prefixes in long mode. -/
def selectsRegister (is64Bit isEscaped : Bool) (opcode : UInt8) : Bool :=
  if isEscaped then within 0xC8 0xCF opcode
  else
    within 0x50 0x5F opcode || within 0x90 0x97 opcode || within 0xB0 0xBF opcode ||
      (!is64Bit && within 0x40 0x4F opcode)

structure RegisterOpcode (is64Bit : Bool) where
  isEscaped : Bool
  opcode : UInt8
  selects : selectsRegister is64Bit isEscaped opcode = true

/-- Whether a REX prefix is in force. -/
def hasRex (is64Bit : Bool) (prefixes : List UInt8) : Bool :=
  prefixes.getLast?.any (isRexByte is64Bit)

def rexW (is64Bit : Bool) (prefixes : List UInt8) : Bool := rexBits is64Bit prefixes / 8 % 2 = 1

def rexB (is64Bit : Bool) (prefixes : List UInt8) : Nat := rexBits is64Bit prefixes % 2

def names8 : List String := ["AL", "CL", "DL", "BL", "AH", "CH", "DH", "BH"]

def names8Rex : List String :=
  ["AL", "CL", "DL", "BL", "SPL", "BPL", "SIL", "DIL",
    "R8B", "R9B", "R10B", "R11B", "R12B", "R13B", "R14B", "R15B"]

/-- The names of the general registers of a width. -/
def namesOf (width : Nat) (hasRex : Bool) : List String :=
  if width = 8 then if hasRex then names8Rex else names8
  else if width = 16 then names16
  else if width = 64 then names64 else names32

namespace RegisterOpcode

variable {is64Bit : Bool} (code : RegisterOpcode is64Bit) (prefixes : List UInt8)

def bytes : List UInt8 := if code.isEscaped then [0x0F, code.opcode] else [code.opcode]

def isOneByte (low high : UInt8) : Bool := !code.isEscaped && within low high code.opcode

/-- The operand size in force; 8 bits for B0 to B7. PUSH and POP default to 64 bits in long
mode. -/
def operandWidth : Nat :=
  if code.isOneByte 0xB0 0xB7 then 8
  else if rexW is64Bit prefixes then 64
  else if prefixes.contains 0x66 then 16
  else if is64Bit && code.isOneByte 0x50 0x5F then 64 else 32

/-- How many bytes of immediate follow: MOV takes one of the width of its register. -/
def immediateWidth : Nat :=
  if code.isOneByte 0xB0 0xBF then code.operandWidth prefixes / 8 else 0

def registerNumber : Nat := code.opcode.toNat % 8 + 8 * rexB is64Bit prefixes

def registerName : Option String :=
  (namesOf (code.operandWidth prefixes) (hasRex is64Bit prefixes))[code.registerNumber prefixes]?

/-- Where the register stands among the operands: XCHG names the accumulator first. -/
def place : Nat := if code.isOneByte 0x90 0x97 then 1 else 0

/-- 90 without REX.B is NOP. -/
def isNop : Bool := code.isOneByte 0x90 0x90 && rexB is64Bit prefixes == 0

/-- The text names the encoded register, or it is NOP and has no operands. -/
def Named (text : List Char) : Prop :=
  if code.isNop prefixes then shownName text = "NOP".toList ∧ operandTexts text = []
  else ∃ name, code.registerName prefixes = some name ∧
    (operandTexts text)[code.place]? = some name.toList

/-- The opcodes whose register the table holds as a name, where the REX prefix selects another:
B0 to B3 with REX.B, B4 to B7 with any REX, and 90 with REX.B. -/
def IsOverruled : Prop :=
  (code.isOneByte 0xB0 0xB3 = true ∧ rexB is64Bit prefixes = 1) ∨
    (code.isOneByte 0xB4 0xB7 = true ∧ hasRex is64Bit prefixes = true) ∨
    (code.isOneByte 0x90 0x90 = true ∧ rexB is64Bit prefixes = 1)

end RegisterOpcode

theorem within_iff {low high opcode : UInt8} :
    within low high opcode = true ↔ low.toNat ≤ opcode.toNat ∧ opcode.toNat ≤ high.toNat := by
  rw [within, Bool.and_eq_true, decide_eq_true_eq, decide_eq_true_eq, UInt8.le_iff_toNat_le,
    UInt8.le_iff_toNat_le]

theorem within_eq_false_iff {low high opcode : UInt8} :
    within low high opcode = false ↔ opcode.toNat < low.toNat ∨ high.toNat < opcode.toNat := by
  rw [Bool.eq_false_iff, ne_eq, within_iff]
  omega

end Architecture

section Rows

def accumulatorModes : Vector Addressing 8 :=
  #v[.eAX, .eCX, .eDX, .eBX, .eSP, .eBP, .eSI, .eDI]

def byteModes : Vector Addressing 8 := #v[.AL, .CL, .DL, .BL, .AH, .CH, .DH, .BH]

/-- The operands in the rows of these opcodes. -/
def rowOperands (isEscaped : Bool) (opcode : UInt8) : List TableOperand :=
  have h := toNat_and_seven_lt opcode
  if isEscaped || within 0x50 0x5F opcode then [op .Z .v]
  else if within 0x40 0x4F opcode then [op accumulatorModes[(opcode &&& 7).toNat] .v]
  else if opcode = 0x90 then []
  else if within 0x91 0x97 opcode then [op .eAX .v, op .Z .v]
  else if within 0xB0 0xB7 opcode then
    [OP byteModes[(opcode &&& 7).toNat] .b registerNames8[(opcode &&& 7).toNat], op .I .b]
  else [op .Z .v, op .I .v]

structure RegisterRow (isEscaped : Bool) (opcode : UInt8) (row : OpcodeInfo) : Prop where
  text : row.text ≠ "" ∧ row.text ≠ "(bad)"
  text16 : row.text16 = ""
  text64 : row.text64 = ""
  name : Unsplit row.text.toList ∧ ' ' ∉ row.text.toList
  noOperation : isEscaped = false ∧ opcode = 0x90 → row.text = "NOP"
  operands : row.operands.toList = (rowOperands isEscaped opcode ++ [nop, nop, nop]).take 3
  values : ∀ operand ∈ row.operands.toList, Unsplit operand.value.toList
  nds : row.nds = false
  default64 : row.default64 =
    if !isEscaped && within 0x50 0x5F opcode then .d64 else .None
  mandatoryPrefix : row.mandatoryPrefix = 0

/-- What of the shape can be read off the row; its texts are words of the tables. -/
structure RegisterShape (isEscaped : Bool) (opcode : UInt8) (row : OpcodeInfo) : Prop where
  text : row.text ≠ "" ∧ row.text ≠ "(bad)"
  text16 : row.text16 = ""
  text64 : row.text64 = ""
  noOperation : isEscaped = false ∧ opcode = 0x90 → row.text = "NOP"
  operands : row.operands.toList = (rowOperands isEscaped opcode ++ [nop, nop, nop]).take 3
  nds : row.nds = false
  default64 : row.default64 =
    if !isEscaped && within 0x50 0x5F opcode then .d64 else .None
  mandatoryPrefix : row.mandatoryPrefix = 0

instance (isEscaped : Bool) (opcode : UInt8) (row : OpcodeInfo) :
    Decidable (RegisterShape isEscaped opcode row) :=
  decidable_of_iff ((row.text ≠ "" ∧ row.text ≠ "(bad)") ∧ row.text16 = "" ∧ row.text64 = "" ∧
    (isEscaped = false ∧ opcode = 0x90 → row.text = "NOP") ∧
    row.operands.toList = (rowOperands isEscaped opcode ++ [nop, nop, nop]).take 3 ∧
    row.nds = false ∧
    row.default64 = (if !isEscaped && within 0x50 0x5F opcode then .d64 else .None) ∧
    row.mandatoryPrefix = 0)
    ⟨fun ⟨h₁, h₂, h₃, h₄, h₅, h₆, h₇, h₈⟩ => ⟨h₁, h₂, h₃, h₄, h₅, h₆, h₇, h₈⟩,
      fun ⟨h₁, h₂, h₃, h₄, h₅, h₆, h₇, h₈⟩ => ⟨h₁, h₂, h₃, h₄, h₅, h₆, h₇, h₈⟩⟩

theorem RegisterShape.row {isEscaped : Bool} {opcode : UInt8} {row : OpcodeInfo}
    (h : RegisterShape isEscaped opcode row) (htexts : Texts Spelled (· ∈ operandValues) row) :
    RegisterRow isEscaped opcode row where
  text := h.text
  text16 := h.text16
  text64 := h.text64
  name := htexts.text.unsplit
  noOperation := h.noOperation
  operands := h.operands
  values operand hoperand := unsplit_operandValues _ (htexts.values operand hoperand)
  nds := h.nds
  default64 := h.default64
  mandatoryPrefix := h.mandatoryPrefix

theorem oneByteShape (opcode : UInt8) :
    ∀ is64Bit, selectsRegister is64Bit false opcode = true →
      RegisterShape false opcode (opcodeTable ⟨opcode.toNat, opcode.toNat_lt⟩) ∧
        (opcodeTable ⟨opcode.toNat, opcode.toNat_lt⟩).hasRMByte = false ∧
        (is64Bit = true → (opcodeTable ⟨opcode.toNat, opcode.toNat_lt⟩).isInvalid = false) ∧
        resolvedInfo opcode 0 is64Bit = .ok (opcodeTable ⟨opcode.toNat, opcode.toNat_lt⟩) ∧
        opcode ≠ 0x0F ∧ ¬ (opcode = 0xC4 ∨ opcode = 0xC5) ∧ ¬ IsPrefixByte is64Bit opcode := by
  revert opcode
  apply forall_byte
  decide +kernel

theorem oneByteRow (opcode : UInt8) (is64Bit : Bool)
    (h : selectsRegister is64Bit false opcode = true) :
    RegisterRow false opcode (opcodeTable ⟨opcode.toNat, opcode.toNat_lt⟩) ∧
      (opcodeTable ⟨opcode.toNat, opcode.toNat_lt⟩).hasRMByte = false ∧
      (is64Bit = true → (opcodeTable ⟨opcode.toNat, opcode.toNat_lt⟩).isInvalid = false) ∧
      resolvedInfo opcode 0 is64Bit = .ok (opcodeTable ⟨opcode.toNat, opcode.toNat_lt⟩) ∧
      opcode ≠ 0x0F ∧ ¬ (opcode = 0xC4 ∨ opcode = 0xC5) ∧ ¬ IsPrefixByte is64Bit opcode :=
  (oneByteShape opcode is64Bit h).imp (fun hshape => hshape.row (spelled_rowKind.opcodeTable _)) id

theorem escapedShape (opcode : UInt8) :
    ∀ is64Bit, selectsRegister is64Bit true opcode = true → ∀ pp : Fin 4,
      RegisterShape true opcode (twoByteTable ⟨opcode.toNat, opcode.toNat_lt⟩) ∧
        (twoByteTable ⟨opcode.toNat, opcode.toNat_lt⟩).hasRMByte = false ∧
        twoByteResolvedInfo opcode 0 { map := 1, pp := UInt8.ofNat pp } =
          .ok (twoByteTable ⟨opcode.toNat, opcode.toNat_lt⟩) ∧
        opcode ≠ 0x0F ∧ ¬ (opcode = 0x38 ∨ opcode = 0x3A) := by
  revert opcode
  apply forall_byte
  decide +kernel

theorem escapedRow (opcode : UInt8) (is64Bit : Bool)
    (h : selectsRegister is64Bit true opcode = true) (pp : Fin 4) :
    RegisterRow true opcode (twoByteTable ⟨opcode.toNat, opcode.toNat_lt⟩) ∧
      (twoByteTable ⟨opcode.toNat, opcode.toNat_lt⟩).hasRMByte = false ∧
      twoByteResolvedInfo opcode 0 { map := 1, pp := UInt8.ofNat pp } =
        .ok (twoByteTable ⟨opcode.toNat, opcode.toNat_lt⟩) ∧
      opcode ≠ 0x0F ∧ ¬ (opcode = 0x38 ∨ opcode = 0x3A) :=
  (escapedShape opcode is64Bit h pp).imp
    (fun hshape => hshape.row (spelled_rowKind.twoByteTable _)) id

/-- Of the rows with an immediate it is the second operand. -/
theorem rowOperands_immediate (opcode : UInt8) :
    within 0xB0 0xBF opcode = true →
      (rowOperands false opcode ++ [nop, nop, nop]).take 3 =
        (rowOperands false opcode).take 1 ++
          op .I (if within 0xB0 0xB7 opcode then .b else .v) :: [nop] ∧
        immediateCount ((rowOperands false opcode).take 1) = 0 := by
  revert opcode
  apply forall_byte
  decide +kernel

/-- What the operands of a row are: those that are printed, with an immediate behind 0F only,
and with the register decoded from the opcode or, of 40 to 4F, the one the row stands for. -/
theorem rowOperands_selected (isEscaped : Bool) (opcode : UInt8) :
    have h := toNat_and_seven_lt opcode
    (∃ is64Bit, selectsRegister is64Bit isEscaped opcode = true) →
      (((rowOperands isEscaped opcode ++ [nop, nop, nop]).take 3).takeWhile
          (fun operand => decide (operand.addressingMode ≠ .None)) = rowOperands isEscaped opcode ∧
        opcode ≠ 0xE3) ∧
      (isEscaped || !within 0xB0 0xBF opcode →
        immediateCount ((rowOperands isEscaped opcode ++ [nop, nop, nop]).take 3) = 0) ∧
      ((!isEscaped && within 0x90 0x90 opcode) = false →
        (!isEscaped && within 0xB0 0xB7 opcode) = false →
        (rowOperands isEscaped opcode)[if !isEscaped && within 0x90 0x97 opcode then 1 else 0]? =
          some (if !isEscaped && within 0x40 0x4F opcode then
            op accumulatorModes[(opcode &&& 7).toNat] .v else op .Z .v)) := by
  revert opcode
  apply forall_byte
  cases isEscaped with
  | false => decide +kernel
  | true => decide +kernel

end Rows

section Run

variable {is64Bit : Bool} {source : ByteSource} {consumed : Consumed UInt8 15}

/-- The locals of `decodeLine` behind a string of prefixes. -/
def prefixLocals (is64Bit : Bool) (prefixes : List UInt8) : DecodeLocals :=
  prefixes.foldl (prefixUpdate is64Bit) { fields := { is64Bit := is64Bit } }

namespace RegisterOpcode

variable (code : RegisterOpcode is64Bit) (prefixes : List UInt8)

/-- The locals behind the opcode. -/
def locals : DecodeLocals :=
  if code.isEscaped then withEscape (prefixLocals is64Bit prefixes) code.opcode
  else withOpcode (prefixLocals is64Bit prefixes) code.opcode

theorem fields_locals : (code.locals prefixes).fields =
    { (prefixLocals is64Bit prefixes).fields with opcode := code.opcode } := by
  rw [locals]
  split <;> rfl

theorem hasOpSizePrefix_locals :
    (code.locals prefixes).hasOpSizePrefix = prefixes.contains 0x66 := by
  rw [← (prefixed_foldl is64Bit prefixes).hasOpSizePrefix, locals]
  split <;> rfl

theorem vex_locals : (code.locals prefixes).simd.vex = 0 := by
  have hsimd : (prefixLocals is64Bit prefixes).simd = {} :=
    (prefixed_foldl is64Bit prefixes).simd
  rw [locals]
  split
  · simp [withEscape, hsimd]
  · simp [withOpcode, hsimd]

/-- What the decoder learns from an opcode that selects a register. -/
structure At (row : OpcodeInfo) : Prop where
  shape : RegisterRow code.isEscaped code.opcode row
  reads : ∀ source : ByteSource, Reads source .empty
    (decodePrefixes is64Bit source >>= decodeOpcode is64Bit source) (prefixes ++ code.bytes)
    (code.locals prefixes)
  hasModRM : hasModRM code.opcode (code.locals prefixes).simd = .ok false
  rowOf : rowOf is64Bit code.opcode 0 (code.locals prefixes).simd = .ok row
  ne_3DNow : code.opcode ≠ 0x0F

variable {prefixes}

theorem at_oneByte (hescaped : code.isEscaped = false)
    (hprefixes : ∀ byte ∈ prefixes, IsPrefixByte is64Bit byte) :
    ∃ row, code.At prefixes row := by
  have hselects := code.selects
  rw [hescaped] at hselects
  obtain ⟨hrow, hmodRM, hvalid, hresolved, hescape, hvex, hfirst⟩ :=
    oneByteRow code.opcode is64Bit hselects
  have hat : opcodeTable.at code.opcode.toNat =
      .ok (opcodeTable ⟨code.opcode.toNat, code.opcode.toNat_lt⟩) :=
    dif_pos ⟨Int.natCast_nonneg _, by exact_mod_cast code.opcode.toNat_lt⟩
  have hlocals : code.locals prefixes = withOpcode (prefixLocals is64Bit prefixes) code.opcode := by
    rw [locals, hescaped]
    rfl
  have hsimd : (code.locals prefixes).simd = {} := by
    rw [hlocals]
    exact (prefixed_foldl is64Bit prefixes).simd
  refine ⟨_, hescaped ▸ hrow, ?_, ?_, ?_, hescape⟩
  · intro source
    have hbytes : code.bytes = [code.opcode] := by simp [bytes, hescaped]
    rw [hbytes, hlocals]
    apply Reads.bindPure (decodePrefixes_demands hprefixes hfirst).reads
    intro h
    -- Only long mode looks at `isInvalid`.
    cases is64Bit with
    | true => exact decodeOpcode_oneByte hescape hvex hat (hvalid rfl)
    | false =>
        rw [decodeOpcode, if_neg hescape, if_neg hvex]
        exact Reads.pure
  · rw [hsimd, InstructionDecoding.hasModRM, if_neg (by decide), if_pos rfl]
    rw [hat, Except.map, hmodRM]
  · rw [hsimd, InstructionDecoding.rowOf, if_neg (by decide), if_pos rfl]
    exact hresolved

theorem at_escaped (hescaped : code.isEscaped = true)
    (hprefixes : ∀ byte ∈ prefixes, IsPrefixByte is64Bit byte) :
    ∃ row, code.At prefixes row := by
  have hselects := code.selects
  rw [hescaped] at hselects
  have hpp := prefixColumn_le (prefixLocals is64Bit prefixes)
  obtain ⟨hrow, hmodRM, hresolved, hne, hsecond⟩ := escapedRow code.opcode is64Bit hselects
    ⟨(prefixColumn (prefixLocals is64Bit prefixes)).toNat, Nat.lt_succ_of_le hpp⟩
  have hlocals : code.locals prefixes = withEscape (prefixLocals is64Bit prefixes) code.opcode := by
    rw [locals, hescaped]
    rfl
  have hsimd : (code.locals prefixes).simd =
      { map := 1, pp := prefixColumn (prefixLocals is64Bit prefixes) } := by
    have hprefixed : (prefixLocals is64Bit prefixes).simd = {} :=
      (prefixed_foldl is64Bit prefixes).simd
    rw [hlocals, withEscape, hprefixed]
  refine ⟨_, hescaped ▸ hrow, ?_, ?_, ?_, hne⟩
  · intro source
    have hbytes : prefixes ++ code.bytes = (prefixes ++ [0x0F]) ++ [code.opcode] := by
      simp [bytes, hescaped]
    have hfirst : ¬ IsPrefixByte is64Bit 0x0F := by
      cases is64Bit <;> decide
    rw [hbytes, hlocals]
    apply Reads.bind (decodePrefixes_demands hprefixes hfirst).reads
    exact fun _ => decodeOpcode_twoByte hsecond
  · rw [hsimd, hasModRM_twoByte, hmodRM]
  · rw [hsimd, rowOf_twoByte]
    rwa [UInt8.ofNat_toNat] at hresolved

theorem exists_at (hprefixes : ∀ byte ∈ prefixes, IsPrefixByte is64Bit byte) :
    ∃ row, code.At prefixes row := by
  cases hescaped : code.isEscaped with
  | false => exact code.at_oneByte hescaped hprefixes
  | true => exact code.at_escaped hescaped hprefixes

/-- The locals when the row is known. -/
abbrev found (prefixes : List UInt8) (row : OpcodeInfo) : DecodeLocals :=
  resolved is64Bit (code.locals prefixes) row

end RegisterOpcode

section Widths

variable {prefixes : List UInt8}

theorem rexW_eq (is64Bit : Bool) (prefixes : List UInt8) :
    (rexOf is64Bit prefixes &&& 8 != 0) = rexW is64Bit prefixes := by
  rw [rexW, rexBits_eq]
  generalize rexOf is64Bit prefixes = rex
  revert rex
  exact forall_byte (by decide +kernel)

theorem hasRex_eq (is64Bit : Bool) (prefixes : List UInt8) :
    (rexOf is64Bit prefixes != 0) = hasRex is64Bit prefixes := by
  rw [hasRex, rexOf]
  cases prefixes.getLast? with
  | none => rfl
  | some byte =>
      simp only [Option.any_some, isRexByte_eq]
      split
      · rename_i hrex
        rw [hrex, bne_iff_ne]
        rintro rfl
        exact absurd (isRex_iff.mp hrex).2.1 (by decide)
      · rename_i hrex
        rw [Bool.not_eq_true] at hrex
        rw [hrex]
        rfl

theorem rexB_eq (is64Bit : Bool) (prefixes : List UInt8) :
    rexOf is64Bit prefixes &&& 1 = UInt8.ofNat (rexB is64Bit prefixes) := by
  rw [rexB, rexBits_eq]
  exact (rexExtension_bits _).2

namespace RegisterOpcode

variable {code : RegisterOpcode is64Bit} {row : OpcodeInfo}

theorem rexPrefix_found : (code.found prefixes row).fields.rexPrefix = rexOf is64Bit prefixes := by
  rw [fields_resolved, fields_locals, prefixLocals, (prefixed_foldl is64Bit prefixes).fields]

theorem opcode_found : (code.found prefixes row).fields.opcode = code.opcode := by
  rw [fields_resolved, fields_locals]

theorem isInvalid_found : (code.found prefixes row).fields.isInvalid = false := by
  rw [fields_resolved, fields_locals, prefixLocals, (prefixed_foldl is64Bit prefixes).fields]

/-- The widths of operands sized v and b. -/
theorem opSize_found (h : code.At prefixes row) (hbyte : code.isOneByte 0xB0 0xB7 = false) :
    (code.found prefixes row).fields.opSize = code.operandWidth prefixes := by
  have hdefault : (if is64Bit then row.default64 else .None) =
      if is64Bit && code.isOneByte 0x50 0x5F then Default64.d64 else .None := by
    rw [h.shape.default64]
    cases is64Bit <;> rfl
  have hrexW : InstructionDecoding.rexW (code.locals prefixes).fields = rexW is64Bit prefixes := by
    rw [InstructionDecoding.rexW, fields_locals, prefixLocals,
      (prefixed_foldl is64Bit prefixes).fields]
    exact rexW_eq is64Bit prefixes
  rw [(resolved_of_unprefixed (code.vex_locals prefixes) h.shape.mandatoryPrefix).2, operandSize,
    hdefault, hrexW, hasOpSizePrefix_locals, operandWidth, hbyte]
  cases is64Bit && code.isOneByte 0x50 0x5F <;> cases rexW is64Bit prefixes <;>
    cases prefixes.contains 0x66 <;> rfl

end RegisterOpcode

end Widths

section Immediates

/-- Of a list with one immediate only this one is read. -/
theorem immediateSteps_one (vaddr : UInt64) (fields : Fields) {operands front back : List TableOperand}
    {operand : TableOperand} (hsplit : operands = front ++ operand :: back)
    (hfront : immediateCount front = 0) (hoperand : operand.addressingMode.isImmediate = true)
    (hback : immediateCount back = 0) :
    operands.foldlM (immediateStep is64Bit vaddr source) (fields, 0) =
      (do
        let value ← decodeImmediate is64Bit source vaddr fields operand
        pure (withImmediate fields value, 1)) := by
  rw [hsplit, List.foldlM_append, immediateSteps_skip vaddr _ hfront, pure_bind, List.foldlM_cons,
    immediateStep_first vaddr fields hoperand, bind_assoc]
  refine congrArg _ (funext fun value => ?_)
  rw [pure_bind, immediateSteps_skip vaddr _ hback]

/-- An immediate that is not extended. -/
theorem decodeImmediate_reads (vaddr : UInt64) {fields : Fields} {size : Size}
    (hsize : size ≠ .bs ∧ size ≠ .z) {immediate : List UInt8}
    (hlength : immediate.length = immediateSize fields (op .I size)) (hwidth : immediate.length ≤ 8) :
    Reads source consumed (decodeImmediate is64Bit source vaddr fields (op .I size)) immediate
      (UInt64.ofNat (AddressSpace.littleEndian immediate)) := by
  rw [decodeImmediate, ← hlength]
  refine Reads.bindPure (readLittleEndian_reads immediate hwidth) fun _ => ?_
  rw [if_neg (by simp [op, OP]), if_neg (by simp [op, OP]), if_neg (by simp [op, OP, hsize])]
  exact Reads.pure

theorem immediateSize_byte (fields : Fields) : immediateSize fields (op .I .b) = 1 := by
  rw [immediateSize, if_neg (by simp [op, OP])]
  rfl

namespace RegisterOpcode

variable {code : RegisterOpcode is64Bit} {prefixes : List UInt8} {row : OpcodeInfo}

theorem operandWidth_cases (code : RegisterOpcode is64Bit) (prefixes : List UInt8)
    (hbyte : code.isOneByte 0xB0 0xB7 = false) :
    code.operandWidth prefixes = 16 ∨ code.operandWidth prefixes = 32 ∨
      code.operandWidth prefixes = 64 := by
  rw [operandWidth, hbyte]
  split_ifs <;> simp_all

theorem isOneByte_escaped (hescaped : code.isEscaped = true) (low high : UInt8) :
    code.isOneByte low high = false := by
  rw [isOneByte, hescaped]
  rfl

theorem isOneByte_oneByte (hescaped : code.isEscaped = false) (low high : UInt8) :
    code.isOneByte low high = within low high code.opcode := by
  rw [isOneByte, hescaped]
  rfl

/-- The immediate that the decoder reads has the width of the architecture. -/
theorem immediateSize_found (h : code.At prefixes row)
    (hmove : code.isOneByte 0xB0 0xBF = true) :
    immediateSize (code.found prefixes row).fields
      (op .I (if within 0xB0 0xB7 code.opcode then .b else .v)) = code.operandWidth prefixes / 8 := by
  have hescaped : code.isEscaped = false := by
    rw [← Bool.not_eq_true]
    intro hescaped
    rw [isOneByte_escaped hescaped] at hmove
    contradiction
  cases hbyte : within 0xB0 0xB7 code.opcode with
  | true =>
      have hwidth : code.operandWidth prefixes = 8 :=
        if_pos (by rw [isOneByte_oneByte hescaped, hbyte])
      rw [if_pos rfl, immediateSize_byte, hwidth]
  | false =>
      have hlong : code.isOneByte 0xB0 0xB7 = false := by rw [isOneByte_oneByte hescaped, hbyte]
      have hstack : code.isOneByte 0x50 0x5F = false := by
        rw [isOneByte_oneByte hescaped] at hmove ⊢
        simp only [within, Bool.and_eq_true, decide_eq_true_eq, UInt8.le_iff_toNat_le] at hmove ⊢
        simp only [Bool.and_eq_false_iff, decide_eq_false_iff_not]
        exact Or.inr (by simp at hmove ⊢; omega)
      have hrexW : InstructionDecoding.rexW (code.found prefixes row).fields =
          rexW is64Bit prefixes := by
        rw [InstructionDecoding.rexW, rexPrefix_found]
        exact rexW_eq is64Bit prefixes
      rw [if_neg (by decide), immediateSize, if_neg (by simp [op, OP])]
      simp only [op, OP]
      rw [hrexW, opSize_found h hlong, operandWidth, hlong, hstack, Bool.and_false]
      cases rexW is64Bit prefixes <;> cases prefixes.contains 0x66 <;> rfl

/-- Behind the opcode stands the immediate, if any. -/
theorem decodeOperands_reads (h : code.At prefixes row) (vaddr : UInt64) {immediate : List UInt8}
    (hlength : immediate.length = code.immediateWidth prefixes) :
    ∃ immediates, Reads source consumed
      (decodeOperands is64Bit vaddr source (code.locals prefixes)) immediate
      { code.found prefixes row with
        fields := { (code.found prefixes row).fields with immediates := immediates } } := by
  have hopcode : (code.locals prefixes).fields.opcode = code.opcode := by
    rw [fields_locals]
  have hnoModRM : (code.locals prefixes).fields.hasModRM = false := by
    rw [fields_locals, prefixLocals, (prefixed_foldl is64Bit prefixes).fields]
  have hoperands : (code.found prefixes row).fields.info.operands.toList =
      (rowOperands code.isEscaped code.opcode ++ [nop, nop, nop]).take 3 := by
    rw [fields_resolved]
    exact h.shape.operands
  rw [decodeOperands_eq vaddr (by rw [hopcode]; exact h.hasModRM) hnoModRM
    (by rw [hopcode]; exact h.rowOf) (by rw [hopcode]; exact h.ne_3DNow)]
  rw [immediateWidth] at hlength
  cases hmove : code.isOneByte 0xB0 0xBF with
  | false =>
      rw [hmove] at hlength
      obtain rfl := List.eq_nil_of_length_eq_zero hlength
      have hcount : immediateCount (code.found prefixes row).fields.info.operands.toList = 0 := by
        rw [hoperands]
        apply (rowOperands_selected _ _ ⟨is64Bit, code.selects⟩).2.1
        rw [isOneByte, Bool.and_eq_false_iff, Bool.not_eq_false'] at hmove
        rcases hmove with hescaped | hwithin
        · simp [hescaped]
        · simp [hwithin]
      refine ⟨(code.found prefixes row).fields.immediates, ?_⟩
      rw [decodeImmediates_skip vaddr hcount, pure_bind]
      exact Reads.pure
  | true =>
      rw [hmove, if_pos rfl] at hlength
      have hescaped : code.isEscaped = false := by
        rw [isOneByte, Bool.and_eq_true, Bool.not_eq_true'] at hmove
        exact hmove.1
      have hwithin : within 0xB0 0xBF code.opcode = true := by
        rwa [isOneByte_oneByte hescaped] at hmove
      obtain ⟨hsplit, hfront⟩ := rowOperands_immediate code.opcode hwithin
      rw [hescaped, hsplit] at hoperands
      refine ⟨(code.found prefixes row).fields.immediates.set 0
        (UInt64.ofNat (AddressSpace.littleEndian immediate)) Nat.zero_lt_two, ?_⟩
      rw [decodeImmediates, immediateSteps_one vaddr _ hoperands hfront rfl rfl, bind_assoc,
        bind_assoc]
      apply Reads.bindPure
      · apply decodeImmediate_reads vaddr
        · split <;> decide
        · rw [immediateSize_found h hmove, hlength]
        · rw [hlength]
          have hle : code.operandWidth prefixes ≤ 64 := by
            rw [operandWidth]
            split_ifs <;> decide
          omega
      · intro _
        exact Reads.pure

end RegisterOpcode

end Immediates

end Run

section Names

variable {is64Bit : Bool} {prefixes : List UInt8}

theorem rexB_le (is64Bit : Bool) (prefixes : List UInt8) :
    rexB is64Bit prefixes = 0 ∨ rexB is64Bit prefixes = 1 :=
  Nat.mod_two_eq_zero_or_one _

theorem hasRex_of_rexB (h : rexB is64Bit prefixes = 1) : hasRex is64Bit prefixes = true := by
  rw [← hasRex_eq, bne_iff_ne]
  intro hnone
  rw [rexB, rexBits_eq, hnone] at h
  contradiction

theorem namesOf_registerOf {number width : Nat} (hnumber : number < 16)
    (hwidth : width = 16 ∨ width = 32 ∨ width = 64) (hasRex : Bool) :
    (namesOf width hasRex)[number]? = some (registerOf number width hasRex) := by
  have h : ∀ width ∈ [16, 32, 64], ∀ (number : Fin 16) (hasRex : Bool),
      (namesOf width hasRex)[number.val]? = some (registerOf number width hasRex) := by
    decide +kernel
  exact h width (by simpa using hwidth) ⟨number, hnumber⟩ hasRex

/-- The name in the rows of B0 to B7 is the right one unless a REX prefix selects another. -/
theorem byteName_iff (opcode : UInt8) :
    have h := toNat_and_seven_lt opcode
    within 0xB0 0xB7 opcode = true → ∀ (hasRex : Bool) (b : Fin 2), (b = 1 → hasRex = true) →
      ((namesOf 8 hasRex)[opcode.toNat % 8 + 8 * b.val]? =
          some registerNames8[(opcode &&& 7).toNat] ↔
        ¬ ((within 0xB0 0xB3 opcode = true ∧ b.val = 1) ∨
          (within 0xB4 0xB7 opcode = true ∧ hasRex = true))) := by
  revert opcode
  apply forall_byte
  decide +kernel

theorem registerNames8_ne_empty (opcode : UInt8) :
    have h := toNat_and_seven_lt opcode
    registerNames8[(opcode &&& 7).toNat] ≠ "" := by
  revert opcode
  apply forall_byte
  decide +kernel

end Names

section Text

variable {is64Bit : Bool} {prefixes : List UInt8} {code : RegisterOpcode is64Bit}
  {fields : Fields} {simd : Simd} {segmentText : String}

/-- What of the fields the renderer reads for these opcodes. -/
structure Rendered (prefixes : List UInt8) (code : RegisterOpcode is64Bit) (fields : Fields) :
    Prop where
  row : RegisterRow code.isEscaped code.opcode fields.info
  opcode : fields.opcode = code.opcode
  rexPrefix : fields.rexPrefix = rexOf is64Bit prefixes
  opSize : code.isOneByte 0xB0 0xB7 = false → fields.opSize = code.operandWidth prefixes
  isInvalid : fields.isInvalid = false

theorem operandText_accumulator (value : UInt64) (i : Fin 8) :
    operandText fields simd segmentText value (op (accumulatorModes.get i) .v) =
      registerName fields (UInt8.ofNat i) fields.opSize := by
  revert i
  rw [Fin.forall_fin_succ, Fin.forall_fin_succ, Fin.forall_fin_succ, Fin.forall_fin_succ,
    Fin.forall_fin_succ, Fin.forall_fin_succ, Fin.forall_fin_succ, Fin.forall_fin_one]
  exact ⟨rfl, rfl, rfl, rfl, rfl, rfl, rfl, rfl⟩

namespace Rendered

variable (h : Rendered prefixes code fields)

include h

theorem operandList_eq :
    operandList fields.info = rowOperands code.isEscaped code.opcode := by
  rw [operandList, h.row.operands, (rowOperands_selected _ _ ⟨is64Bit, code.selects⟩).1.1, h.row.nds]
  split
  · rename_i hnone
    exact hnone.symm
  · rename_i hsome
    exact hsome.symm

theorem mnemonicOf_eq (simd : Simd) : mnemonicOf fields simd = fields.info.text := by
  have hopcode := (rowOperands_selected _ _ ⟨is64Bit, code.selects⟩).1.2
  rw [mnemonicOf, if_neg (by rw [h.opcode]; exact fun hjump => hopcode hjump.2),
    if_neg (by simp [h.row.text64]), if_neg (by simp [h.row.text16])]

theorem isBad_eq : isBad fields = false := by
  simp [isBad, h.isInvalid, h.row.text.1, h.row.text.2]

/-- The register of an opcode whose row does not name one of eight bits. -/
theorem text_register (hbyte : code.isOneByte 0xB0 0xB7 = false) (value : UInt64) :
    have hseven := toNat_and_seven_lt code.opcode
    operandText fields simd segmentText value
      (if !code.isEscaped && within 0x40 0x4F code.opcode then
        op accumulatorModes[(code.opcode &&& 7).toNat] .v else op .Z .v) =
      registerOf (code.registerNumber prefixes) (code.operandWidth prefixes)
        (hasRex is64Bit prefixes) := by
  have hlow := toNat_low code.opcode
  have hrexB := rexB_le is64Bit prefixes
  dsimp only
  split
  · rename_i hlegacy
    have hmode : is64Bit = false := by
      have hselects := code.selects
      cases is64Bit with
      | false => rfl
      | true =>
          rw [Bool.and_eq_true, Bool.not_eq_true'] at hlegacy
          have hwithin := hlegacy.2
          rw [hlegacy.1, selectsRegister, if_neg Bool.false_ne_true, Bool.not_true, Bool.false_and,
            Bool.or_false] at hselects
          simp only [Bool.or_eq_true, within_iff, UInt8.reduceToNat] at hselects hwithin
          omega
    have hnumber : code.registerNumber prefixes = (code.opcode &&& 7).toNat := by
      rw [RegisterOpcode.registerNumber, rexB, rexBits_eq, hlow]
      subst hmode
      rw [rexOf_false]
      rfl
    refine (operandText_accumulator value ⟨_, toNat_and_seven_lt code.opcode⟩).trans ?_
    rw [registerName, h.rexPrefix, hasRex_eq, h.opSize hbyte, hnumber, UInt8.ofNat_toNat]
  · show registerOf ((fields.opcode &&& (7 : UInt8)) |||
      ((fields.rexPrefix &&& (1 : UInt8)) <<< (3 : UInt8))).toNat fields.opSize
      (fields.rexPrefix != 0) = _
    rw [h.opcode, h.rexPrefix, rexB_eq, (toNat_extended _ (by omega)).1, hasRex_eq, h.opSize hbyte]
    rfl

end Rendered

theorem opcode_of_nop (hnop : code.isOneByte 0x90 0x90 = true) :
    code.isEscaped = false ∧ code.opcode = 0x90 := by
  rw [RegisterOpcode.isOneByte, Bool.and_eq_true, Bool.not_eq_true', within_iff] at hnop
  exact ⟨hnop.1, UInt8.toNat_inj.mp (Nat.le_antisymm hnop.2.2 hnop.2.1)⟩

section Within

variable {opcode : UInt8}

theorem within_nop (h : within 0x90 0x90 opcode = true) :
    within 0xB0 0xB3 opcode = false ∧ within 0xB4 0xB7 opcode = false := by
  simp only [within_iff, within_eq_false_iff, UInt8.reduceToNat] at h ⊢
  omega

theorem within_byteMove (h : within 0xB0 0xB7 opcode = true) :
    within 0x90 0x97 opcode = false ∧ within 0x90 0x90 opcode = false := by
  simp only [within_iff, within_eq_false_iff, UInt8.reduceToNat] at h ⊢
  omega

theorem within_others (h : within 0xB0 0xB7 opcode = false) :
    within 0xB0 0xB3 opcode = false ∧ within 0xB4 0xB7 opcode = false := by
  simp only [within_eq_false_iff, UInt8.reduceToNat] at h ⊢
  omega

theorem rowOperands_byteMove (h : within 0xB0 0xB7 opcode = true) :
    have h := toNat_and_seven_lt opcode
    rowOperands false opcode =
      [OP byteModes[(opcode &&& 7).toNat] .b registerNames8[(opcode &&& 7).toNat], op .I .b] := by
  have hpush : within 0x50 0x5F opcode = false ∧ within 0x40 0x4F opcode = false := by
    simp only [within_iff, within_eq_false_iff, UInt8.reduceToNat] at h ⊢
    omega
  have hnop : opcode ≠ 0x90 := by
    rintro rfl
    contradiction
  have hexchange : within 0x91 0x97 opcode = false := by
    simp only [within_iff, within_eq_false_iff, UInt8.reduceToNat] at h ⊢
    omega
  simp [rowOperands, hpush.1, hpush.2, hnop, hexchange, h]

end Within

theorem operandText_byte (value : UInt64) (i : Fin 8) (name : String) :
    operandText fields simd segmentText value (OP (byteModes.get i) .b name) = name := by
  revert i
  rw [Fin.forall_fin_succ, Fin.forall_fin_succ, Fin.forall_fin_succ, Fin.forall_fin_succ,
    Fin.forall_fin_succ, Fin.forall_fin_succ, Fin.forall_fin_succ, Fin.forall_fin_one]
  exact ⟨rfl, rfl, rfl, rfl, rfl, rfl, rfl, rfl⟩

namespace Rendered

variable {text : List Char} (h : Rendered prefixes code fields)

include h

/-- NOP has no operands, whatever REX stands in front of it. -/
theorem named_nop (hnop : code.isOneByte 0x90 0x90 = true)
    (hname : shownName text = fields.info.text.toList) (htexts : operandTexts text = []) :
    code.Named prefixes text ↔ ¬ code.IsOverruled prefixes := by
  obtain ⟨hescaped, hopcode⟩ := opcode_of_nop hnop
  rw [RegisterOpcode.isOneByte_oneByte hescaped] at hnop
  obtain ⟨hlow, hhigh⟩ := within_nop hnop
  rw [RegisterOpcode.Named, RegisterOpcode.isNop, RegisterOpcode.IsOverruled, htexts, hname,
    h.row.noOperation ⟨hescaped, hopcode⟩]
  simp only [RegisterOpcode.isOneByte_oneByte hescaped, hnop, hlow, hhigh]
  rcases rexB_le is64Bit prefixes with hzero | hone
  · simp [hzero]
  · simp [hone]

theorem textsOf_byteMove (hbyte : code.isOneByte 0xB0 0xB7 = true) :
    have hseven := toNat_and_seven_lt code.opcode
    (textsOf fields simd)[code.place]? = some registerNames8[(code.opcode &&& 7).toNat] := by
  have hseven := toNat_and_seven_lt code.opcode
  rw [RegisterOpcode.isOneByte, Bool.and_eq_true, Bool.not_eq_true'] at hbyte
  obtain ⟨hescaped, hwithin⟩ := hbyte
  have hplace : code.place = 0 := by
    rw [RegisterOpcode.place, RegisterOpcode.isOneByte_oneByte hescaped,
      (within_byteMove hwithin).1]
    rfl
  rw [textsOf, h.operandList_eq, getElem?_printedTexts, hplace, hescaped,
    rowOperands_byteMove hwithin]
  exact congrArg some (operandText_byte _ ⟨_, hseven⟩ _)

theorem textsOf_register (hnop : code.isOneByte 0x90 0x90 = false)
    (hbyte : code.isOneByte 0xB0 0xB7 = false) :
    (textsOf fields simd)[code.place]? = some (registerOf (code.registerNumber prefixes)
      (code.operandWidth prefixes) (hasRex is64Bit prefixes)) := by
  rw [textsOf, h.operandList_eq, getElem?_printedTexts, RegisterOpcode.place,
    RegisterOpcode.isOneByte, (rowOperands_selected _ _ ⟨is64Bit, code.selects⟩).2.2 hnop hbyte]
  exact congrArg some (h.text_register hbyte _)

theorem named_byteMove (hbyte : code.isOneByte 0xB0 0xB7 = true)
    (htexts : operandTexts text = (textsOf fields simd).map String.toList) :
    code.Named prefixes text ↔ ¬ code.IsOverruled prefixes := by
  have hplaced : (operandTexts text)[code.place]? = _ :=
    htexts ▸ List.getElem?_map.trans (congrArg _ (h.textsOf_byteMove hbyte))
  have hwidth : code.operandWidth prefixes = 8 := if_pos hbyte
  rw [RegisterOpcode.isOneByte, Bool.and_eq_true, Bool.not_eq_true'] at hbyte
  obtain ⟨hescaped, hwithin⟩ := hbyte
  have hb : rexB is64Bit prefixes < 2 := Nat.mod_lt _ (by decide)
  have hiff := byteName_iff code.opcode hwithin (hasRex is64Bit prefixes)
    ⟨rexB is64Bit prefixes, hb⟩ fun hone => hasRex_of_rexB (congrArg Fin.val hone)
  rw [RegisterOpcode.Named, RegisterOpcode.isNop, RegisterOpcode.IsOverruled,
    RegisterOpcode.registerName, hwidth, hplaced]
  simp only [RegisterOpcode.isOneByte_oneByte hescaped, (within_byteMove hwithin).2,
    Bool.false_and, Bool.false_eq_true, false_and, or_false, if_false]
  rw [← hiff]
  constructor
  · rintro ⟨name, hname, hsame⟩
    rw [String.toList_inj.mp (Option.some.inj hsame)]
    exact hname
  · intro hname
    exact ⟨_, hname, rfl⟩

omit h in
theorem registerNumber_lt : code.registerNumber prefixes < 16 := by
  have hb : rexB is64Bit prefixes < 2 := Nat.mod_lt _ (by decide)
  rw [RegisterOpcode.registerNumber]
  omega

theorem named_register (hnop : code.isOneByte 0x90 0x90 = false)
    (hbyte : code.isOneByte 0xB0 0xB7 = false)
    (htexts : operandTexts text = (textsOf fields simd).map String.toList) :
    code.Named prefixes text ↔ ¬ code.IsOverruled prefixes := by
  have hnotOverruled : ¬ code.IsOverruled prefixes := by
    have hparts : code.isOneByte 0xB0 0xB3 = false ∧ code.isOneByte 0xB4 0xB7 = false := by
      cases hescaped : code.isEscaped with
      | true => exact ⟨RegisterOpcode.isOneByte_escaped hescaped _ _,
          RegisterOpcode.isOneByte_escaped hescaped _ _⟩
      | false =>
          rw [RegisterOpcode.isOneByte_oneByte hescaped] at hbyte ⊢
          rw [RegisterOpcode.isOneByte_oneByte hescaped]
          exact within_others hbyte
    simp [RegisterOpcode.IsOverruled, hparts, hnop]
  refine iff_of_true ?_ hnotOverruled
  rw [RegisterOpcode.Named, RegisterOpcode.isNop, hnop, Bool.false_and, if_neg Bool.false_ne_true]
  refine ⟨_, namesOf_registerOf registerNumber_lt
    (RegisterOpcode.operandWidth_cases code prefixes hbyte) _, ?_⟩
  rw [htexts, List.getElem?_map, h.textsOf_register hnop hbyte]
  rfl

/-- The text names the encoded register unless a REX prefix overrules a name in the table. -/
theorem named_iff {instruction : Instruction} (hinstruction : x86_64 fields simd = .ok instruction) :
    code.Named prefixes instruction.instructionText.toList ↔ ¬ code.IsOverruled prefixes := by
  have hmnemonic := h.mnemonicOf_eq simd
  obtain ⟨hname, htexts⟩ := instructionText_read hinstruction h.isBad_eq
    (hmnemonic ▸ h.row.name.1) (hmnemonic ▸ h.row.name.2) h.row.values
  cases hbyte : code.isOneByte 0xB0 0xB7 with
  | true =>
      apply h.named_byteMove hbyte
      exact htexts (texts_ne (h.textsOf_byteMove hbyte) (registerNames8_ne_empty _))
  | false =>
      cases hnop : code.isOneByte 0x90 0x90 with
      | false =>
          apply h.named_register hnop hbyte
          exact htexts (texts_ne (h.textsOf_register hnop hbyte) (names_registerOf registerNumber_lt
            (RegisterOpcode.operandWidth_cases code prefixes hbyte) _).ne_empty)
      | true =>
          obtain ⟨hescaped, hopcode⟩ := opcode_of_nop hnop
          have hnone : textsOf fields simd = [] := by
            rw [textsOf, h.operandList_eq, hescaped, hopcode]
            rfl
          apply h.named_nop hnop (hname.trans (congrArg _ hmnemonic))
          rw [htexts (by simp [hnone]), hnone]
          rfl

end Rendered

theorem rendered_found {row : OpcodeInfo} (h : code.At prefixes row)
    (immediates : Vector UInt64 2) (bytes : Consumed UInt8 15) :
    Rendered prefixes code
      { (code.found prefixes row).fields with immediates := immediates, bytes := bytes } where
  row := by
    rw [fields_resolved]
    exact h.shape
  opcode := RegisterOpcode.opcode_found
  rexPrefix := RegisterOpcode.rexPrefix_found
  opSize := RegisterOpcode.opSize_found h
  isInvalid := RegisterOpcode.isInvalid_found

end Text

/-- An opcode whose low three bits select a register, behind any prefixes and with its
immediate: the row is appended, and it names the encoded register if and only if no REX
prefix overrules a name in the table. -/
theorem names_encoded_register (is64Bit : Bool) (prefixes : List UInt8)
    (code : RegisterOpcode is64Bit) (immediate tail : List UInt8) (contents : AddressSpace)
    (fileOffset vaddr : UInt64) (hprefixes : ∀ byte ∈ prefixes, IsPrefixByte is64Bit byte)
    (hwidth : immediate.length = code.immediateWidth prefixes)
    (hlength : (prefixes ++ code.bytes ++ immediate).length ≤ 15)
    (hcontents : contents.mappedData.drop fileOffset.toNat =
      prefixes ++ code.bytes ++ immediate ++ tail) :
    ∃ row, (∀ store, AppendsRow contents fileOffset (prefixes ++ code.bytes ++ immediate).length
        row store (decodeLine is64Bit contents fileOffset vaddr store)) ∧
      (code.Named prefixes row.instructionText.toList ↔ ¬ code.IsOverruled prefixes) := by
  obtain ⟨info, h⟩ := code.exists_at hprefixes
  have hsupplies := supplies_front hcontents
  have hfront : (prefixes ++ code.bytes).length ≤ 15 := by
    rw [List.length_append] at hlength
    omega
  have hvalid : (code.locals prefixes).fields.isInvalid = false := by
    rw [RegisterOpcode.fields_locals, prefixLocals, (prefixed_foldl is64Bit prefixes).fields]
  have hrun := decodeInstruction_run vaddr (h.reads _) hvalid hfront hsupplies.left
  obtain ⟨immediates, hoperands⟩ := @RegisterOpcode.decodeOperands_reads is64Bit
    (bytesAt contents fileOffset) _ code prefixes info h vaddr immediate hwidth
  rw [hoperands.run (by simpa [Nat.add_assoc] using hlength) (by simpa using hsupplies.right)] at hrun
  obtain ⟨row, hrow, happends⟩ := appendsRow_of_ok hrun
  refine ⟨row, ?_, (rendered_found h immediates _).named_iff hrow⟩
  simpa [Nat.add_assoc] using happends

/-- PUSH R13. -/
def pushR13 : AddressSpace where
  mappedData := [0x41, 0x55]
  fileSize_lt := by decide

def pushOpcode : RegisterOpcode true where
  isEscaped := false
  opcode := 0x55
  selects := by decide

theorem not_isOverruled_push : ¬ pushOpcode.IsOverruled [0x41] := by
  rw [RegisterOpcode.IsOverruled]
  decide

theorem names_encoded_register_pushR13 :
    ∃ row, (∀ store, AppendsRow pushR13 0 2 row store (decodeLine true pushR13 0 0x1000 store)) ∧
      pushOpcode.Named [0x41] row.instructionText.toList :=
  (names_encoded_register true [0x41] pushOpcode [] [] pushR13 0 0x1000 (by decide +kernel) rfl
    (by decide) rfl).imp fun _ h => ⟨h.1, h.2.mpr not_isOverruled_push⟩

/-- MOV R9B, 5. -/
def moveR9B : AddressSpace where
  mappedData := [0x41, 0xB1, 0x05]
  fileSize_lt := by decide

def moveOpcode : RegisterOpcode true where
  isEscaped := false
  opcode := 0xB1
  selects := by decide

/-- The register is printed as CL. -/
theorem not_named_moveR9B :
    (decodeLine true moveR9B 0 0x1000 .empty).map
        (fun decoded => decoded.2.toList.map Instruction.instructionText) =
        .ok ["MOV \tCL, 0x5"] ∧
      moveOpcode.registerName [0x41] = some "R9B" ∧
      ¬ moveOpcode.Named [0x41] "MOV \tCL, 0x5".toList := by
  have hname : moveOpcode.registerName [0x41] = some "R9B" := by decide +kernel
  refine ⟨by decide +kernel, hname, ?_⟩
  rw [RegisterOpcode.Named, if_neg (by decide +kernel), hname]
  rintro ⟨name, hsome, htext⟩
  rw [← Option.some.inj hsome] at htext
  revert htext
  decide +kernel

end Voidwalk.RegisterOpcodes

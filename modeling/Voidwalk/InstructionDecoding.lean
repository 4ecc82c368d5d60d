import Mathlib.Data.List.Basic
import Mathlib.Tactic.Common
import Voidwalk.ChunkStorage
import Voidwalk.InstructionRendering
import Voidwalk.RowResolution

/-!
`X86Decoder::decodeLine`: prefixes, REX or VEX, opcode, ModRM, SIB,
displacement and immediates of one instruction. Every byte it consumes is drawn
through a counting reader that stops at 15.
-/

namespace Voidwalk.InstructionDecoding

open Voidwalk.MappedFile
open Voidwalk.ChunkStorage
open Voidwalk.OpcodeRows
open Voidwalk.OneByteTables
open Voidwalk.TwoByteTables
open Voidwalk.ThreeByteTables
open Voidwalk.RowResolution
open Voidwalk.InstructionRendering
open Voidwalk.Library.CountingReader

instance instNeZeroChunkSize : NeZero 8192 := ⟨by decide⟩

abbrev InstructionStore := ChunkStore Instruction 8192

abbrev ByteSource := Source UInt8 Thrown

/-- A stage of `decodeLine`. Its state is the array of consumed bytes, and
`limitReached` is the local exception `TooLong`. -/
abbrev Decoding := Reader UInt8 15 Thrown

/-- `contents.read_u8(fileOffset + i)`. -/
def bytesAt (contents : AddressSpace) (fileOffset : UInt64) : ByteSource :=
  fun i => contents.readU8 (fileOffset + UInt64.ofNat i)

/-- The local variables of `decodeLine`. `fields.bytes` is filled in when the
row is emitted. -/
structure DecodeLocals where
  fields : Fields := {}
  simd : Simd := {}
  hasOpSizePrefix : Bool := false
  hasAddrSizePrefix : Bool := false

def readLittleEndian (source : ByteSource) (byteCount : Nat) : Decoding UInt64 :=
  (List.range byteCount).foldlM (fun value i => do
    let byte ← next source
    pure (value ||| byte.toUInt64 <<< UInt64.ofNat (8 * i))) 0

def signExtend (value : UInt64) (byteCount : Nat) : Int64 :=
  let shift := 64 - 8 * byteCount
  (value <<< UInt64.ofNat shift).toInt64 >>> Int64.ofNat shift

def applyPrefix (locals : DecodeLocals) (currentByte : UInt8) : DecodeLocals :=
  let fields := { locals.fields with rexPrefix := 0 }
  if currentByte = 0x66 then { locals with fields := fields, hasOpSizePrefix := true }
  else if currentByte = 0x67 then { locals with fields := fields, hasAddrSizePrefix := true }
  else if currentByte = 0xF0 then { locals with fields := { fields with hasLock := true } }
  else if currentByte = 0xF2 ∨ currentByte = 0xF3 then
    { locals with fields := { fields with repPrefix := currentByte } }
  else { locals with fields := { fields with segmentPrefix := currentByte } }

def isRex (is64Bit : Bool) (byte : UInt8) : Bool := is64Bit && byte &&& 0xF0 == 0x40

/-- One turn of the prefix loop: a REX or a legacy prefix updates the locals,
any other byte ends the loop. -/
def prefixStep (is64Bit : Bool) (locals : DecodeLocals) (currentByte : UInt8) :
    DecodeLocals ⊕ (DecodeLocals × UInt8) :=
  if isRex is64Bit currentByte then
    .inl { locals with fields := { locals.fields with rexPrefix := currentByte } }
  else if isPrefix currentByte then .inl (applyPrefix locals currentByte)
  else .inr (locals, currentByte)

def decodePrefixes (is64Bit : Bool) (source : ByteSource) : Decoding (DecodeLocals × UInt8) :=
  scan source (prefixStep is64Bit) 15 { fields := { is64Bit := is64Bit } }

/-- The opcode map and the opcode behind 0F; 0F 38 and 0F 3A escape once more. -/
def escapedOpcode (source : ByteSource) : Decoding (UInt8 × UInt8) := do
  let second ← next source
  if second = 0x38 ∨ second = 0x3A then do
    let opcode ← next source
    pure (if second = 0x38 then 2 else 3, opcode)
  else pure (1, second)

/-- The prefix column of a legacy opcode. F2 / F3 win over 66. -/
def prefixColumn (locals : DecodeLocals) : UInt8 :=
  if locals.fields.repPrefix = 0xF2 then 3
  else if locals.fields.repPrefix = 0xF3 then 2
  else if locals.hasOpSizePrefix then 1 else 0

def decodeEscape (source : ByteSource) (locals : DecodeLocals) : Decoding DecodeLocals := do
  let selected ← escapedOpcode source
  pure { locals with
    fields := { locals.fields with opcode := selected.2 }
    simd := { locals.simd with map := selected.1, pp := prefixColumn locals } }

/-- The VEX fields of the payload bytes. R, X and B are stored inverted and, in
long mode, folded into a REX. -/
def vexPrefix (is64Bit : Bool) (locals : DecodeLocals) (currentByte vex1 vex2 : UInt8) :
    DecodeLocals :=
  let threeByteVex := currentByte == 0xC4
  let W : UInt8 := if threeByteVex && vex2 &&& 0x80 != 0 then 1 else 0
  let rexPrefix :=
    if is64Bit then (0x40 : UInt8) ||| W <<< 3 ||| ((~~~vex1 >>> 5) &&& (if threeByteVex then 7 else 4))
    else locals.fields.rexPrefix
  { locals with
    fields := { locals.fields with opcode := currentByte, rexPrefix := rexPrefix }
    simd :=
      { locals.simd with
        vex := currentByte
        map := if threeByteVex then vex1 &&& 0x1F else 1
        pp := vex2 &&& 0x03
        W := W
        L := (vex2 >>> 2) &&& 1
        vvvv := (~~~vex2 >>> 3) &&& (if is64Bit then 15 else 7) } }

def rejected (locals : DecodeLocals) : DecodeLocals :=
  { locals with fields := { locals.fields with isInvalid := true } }

def decodeVex (is64Bit : Bool) (source : ByteSource) (locals : DecodeLocals)
    (currentByte : UInt8) : Decoding DecodeLocals := do
  let vex1 ← next source
  let vex2 ← (if currentByte = 0xC4 then next source else pure vex1)
  let locals := vexPrefix is64Bit locals currentByte vex1 vex2
  if locals.simd.map < 1 || locals.simd.map > 3 then pure (rejected locals)
  else do
    let opcode ← next source
    pure { locals with fields := { locals.fields with opcode := opcode } }

/-- An opcode of the one-byte map, which long mode may have removed. -/
def decodeOneByte (is64Bit : Bool) (locals : DecodeLocals) (currentByte : UInt8) :
    Decoding DecodeLocals := do
  let locals := { locals with fields := { locals.fields with opcode := currentByte } }
  if is64Bit then do
    let row ← attempt (opcodeTable.at currentByte.toNat)
    if row.isInvalid then pure (rejected locals) else pure locals
  else pure locals

/-- Whether C4 / C5 opens a VEX prefix: always in long mode, and in legacy mode
when the next byte cannot be the ModRM of LES / LDS. The byte is looked at
without being consumed. -/
def opensVex (is64Bit : Bool) (source : ByteSource) : Decoding Bool :=
  if is64Bit then pure true
  else do
    let byte ← peek source
    pure (byte ≥ 0xC0)

def decodeOpcode (is64Bit : Bool) (source : ByteSource) (prefixed : DecodeLocals × UInt8) :
    Decoding DecodeLocals :=
  if prefixed.2 = 0x0F then decodeEscape source prefixed.1
  else if prefixed.2 = 0xC4 ∨ prefixed.2 = 0xC5 then do
    let isVex ← opensVex is64Bit source
    if isVex then decodeVex is64Bit source prefixed.1 prefixed.2
    else decodeOneByte is64Bit prefixed.1 prefixed.2
  else decodeOneByte is64Bit prefixed.1 prefixed.2

def hasModRM (opcode : UInt8) (simd : Simd) : Except Thrown Bool :=
  if simd.vex ≠ 0 then pure !(simd.map == 1 && opcode == 0x77)
  else if simd.map = 0 then (opcodeTable.at opcode.toNat).map OpcodeInfo.hasRMByte
  else if simd.map = 1 then (twoByteTable.at opcode.toNat).map OpcodeInfo.hasRMByte
  else pure true

def rexBit (fields : Fields) (bit shift : UInt8) : UInt8 := (fields.rexPrefix &&& bit) <<< shift

def withModRM (fields : Fields) (modRM : UInt8) : Fields :=
  { fields with
    hasModRM := true
    mod := modRM >>> 6
    reg := ((modRM >>> 3) &&& 7) ||| rexBit fields 4 1
    rm := (modRM &&& 7) ||| rexBit fields 1 3 }

/-- The ModRM byte, 0 when the opcode takes none. -/
def decodeModRM (source : ByteSource) (locals : DecodeLocals) :
    Decoding (DecodeLocals × UInt8) := do
  let modRMFollows ← attempt (hasModRM locals.fields.opcode locals.simd)
  if modRMFollows then do
    let modRM ← next source
    pure ({ locals with fields := withModRM locals.fields modRM }, modRM)
  else pure (locals, 0)

def rowOf (is64Bit : Bool) (opcode modRM : UInt8) (simd : Simd) : Except Thrown OpcodeInfo :=
  if simd.vex ≠ 0 then vexResolvedInfo opcode modRM simd
  else if simd.map = 0 then resolvedInfo opcode modRM is64Bit
  else if simd.map = 1 then twoByteResolvedInfo opcode modRM simd
  else threeByteResolvedInfo opcode simd

def rexW (fields : Fields) : Bool := fields.rexPrefix &&& 8 != 0

/-- A mandatory prefix is part of the opcode: it neither prints nor resizes. -/
def takeMandatoryPrefix (locals : DecodeLocals) : DecodeLocals :=
  let mandatory :=
    if locals.simd.vex ≠ 0 then locals.simd.pp != 0 else locals.fields.info.mandatoryPrefix != 0
  if mandatory = false then { locals with simd := { locals.simd with mandatory := false, pp := 0 } }
  else if locals.simd.pp = 1 then
    { locals with simd := { locals.simd with mandatory := true }, hasOpSizePrefix := false }
  else
    { locals with
      simd := { locals.simd with mandatory := true }
      fields := { locals.fields with repPrefix := 0 } }

def withWidths (is64Bit : Bool) (locals : DecodeLocals) : DecodeLocals :=
  let default64 := if is64Bit then locals.fields.info.default64 else .None
  let opSize :=
    if rexW locals.fields || default64 == .f64 then 64
    else if locals.hasOpSizePrefix then 16
    else if default64 = .d64 then 64 else 32
  let addrSize :=
    if is64Bit then if locals.hasAddrSizePrefix then 32 else 64
    else if locals.hasAddrSizePrefix then 16 else 32
  { locals with fields := { locals.fields with opSize := opSize, addrSize := addrSize } }

def withSIB (fields : Fields) (sib : UInt8) : Fields :=
  { fields with
    hasSIB := true
    scale := (1 : UInt8) <<< (sib >>> 6)
    index := ((sib >>> 3) &&& 7) ||| rexBit fields 2 2
    base := (sib &&& 7) ||| rexBit fields 1 3 }

def displacementSize (fields : Fields) (rmField : UInt8) : Nat :=
  if fields.addrSize = 16 then
    if fields.mod = 2 ∨ (fields.mod = 0 ∧ rmField = 6) then 2
    else if fields.mod = 1 then 1 else 0
  else if fields.mod = 2 ∨
    (fields.mod = 0 ∧ (rmField = 5 ∨ (fields.hasSIB ∧ fields.base &&& 7 = 5))) then 4
  else if fields.mod = 1 then 1 else 0

def decodeSIB (source : ByteSource) (fields : Fields) (rmField : UInt8) : Decoding Fields :=
  if fields.addrSize ≠ 16 ∧ rmField = 4 then do
    let sib ← next source
    pure (withSIB fields sib)
  else pure fields

def decodeDisplacement (source : ByteSource) (fields : Fields) (rmField : UInt8) :
    Decoding Fields :=
  let size := displacementSize fields rmField
  if size ≠ 0 then do
    let value ← readLittleEndian source size
    pure { fields with hasDisplacement := true, displacement := signExtend value size }
  else pure fields

def decodeMemory (source : ByteSource) (fields : Fields) (modRM : UInt8) : Decoding Fields :=
  if fields.hasModRM ∧ fields.mod ≠ 3 then do
    let fields ← decodeSIB source fields (modRM &&& 7)
    decodeDisplacement source fields (modRM &&& 7)
  else pure fields

/-- 3DNow!: the byte after the operands is the real opcode. -/
def decode3DNow (source : ByteSource) (locals : DecodeLocals) : Decoding DecodeLocals :=
  if locals.simd.vex = 0 ∧ locals.simd.map = 1 ∧ locals.fields.opcode = 0x0F then do
    let opcode ← next source
    let info ← attempt (threeDNowTable.at opcode.toNat)
    pure { locals with fields := { locals.fields with info := info } }
  else pure locals

def immediateSize (fields : Fields) (operand : TableOperand) : Nat :=
  if operand.addressingMode = .O then fields.addrSize / 8
  else
    match operand.size with
    | .b | .bs => 1
    | .w => 2
    | .d => 4
    | .v => if rexW fields then 8 else if fields.opSize = 16 then 2 else 4
    | _ => if fields.opSize = 16 then 2 else 4

/-- The value of one immediate. A relative target counts from the end of the
instruction, of which it is the last field. -/
def decodeImmediate (is64Bit : Bool) (source : ByteSource) (vaddr : UInt64) (fields : Fields)
    (operand : TableOperand) : Decoding UInt64 := do
  let byteCount := immediateSize fields operand
  let value ← readLittleEndian source byteCount
  if operand.addressingMode = .A then do
    let segment ← readLittleEndian source 2
    pure (value ||| segment <<< 32)
  else if operand.addressingMode = .J then do
    let consumed ← get
    let target := vaddr + UInt64.ofNat consumed.length + (signExtend value byteCount).toUInt64
    pure (if is64Bit then target else target &&& mask (if fields.opSize = 16 then 16 else 32))
  else if operand.addressingMode = .I ∧
      (operand.size = .bs ∨ (operand.size = .z ∧ fields.opSize = 64)) then
    pure ((signExtend value byteCount).toUInt64 &&& mask fields.opSize)
  else pure value

/-- One turn of the immediate loop, which fills at most two slots. -/
def immediateStep (is64Bit : Bool) (vaddr : UInt64) (source : ByteSource)
    (state : Fields × Nat) (operand : TableOperand) : Decoding (Fields × Nat) :=
  if h : operand.addressingMode.isImmediate = true ∧ state.2 < 2 then do
    let value ← decodeImmediate is64Bit source vaddr state.1 operand
    pure ({ state.1 with immediates := state.1.immediates.set state.2 value h.2 }, state.2 + 1)
  else pure state

def decodeImmediates (is64Bit : Bool) (vaddr : UInt64) (source : ByteSource) (fields : Fields) :
    Decoding Fields := do
  let filled ← fields.info.operands.toList.foldlM (immediateStep is64Bit vaddr source) (fields, 0)
  pure filled.1

def resolveRow (is64Bit : Bool) (locals : DecodeLocals) (modRM : UInt8) :
    Decoding DecodeLocals := do
  let info ← attempt (rowOf is64Bit locals.fields.opcode modRM locals.simd)
  pure (withWidths is64Bit
    (takeMandatoryPrefix { locals with fields := { locals.fields with info := info } }))

def decodeOperands (is64Bit : Bool) (vaddr : UInt64) (source : ByteSource)
    (locals : DecodeLocals) : Decoding DecodeLocals := do
  let addressed ← decodeModRM source locals
  let locals ← resolveRow is64Bit addressed.1 addressed.2
  let fields ← decodeMemory source locals.fields addressed.2
  let locals ← decode3DNow source { locals with fields := fields }
  let fields ← decodeImmediates is64Bit vaddr source locals.fields
  pure { locals with fields := fields }

/-- The body of the `try` block, up to `emit()`. -/
def decodeInstruction (is64Bit : Bool) (vaddr : UInt64) (source : ByteSource) :
    Decoding DecodeLocals := do
  let prefixed ← decodePrefixes is64Bit source
  let locals ← decodeOpcode is64Bit source prefixed
  if locals.fields.isInvalid then pure locals
  else decodeOperands is64Bit vaddr source locals

/-- Appends the rendered row; returns the offset where the next one begins. -/
def emit (fileOffset : UInt64) (decodedInstructions : InstructionStore) (fields : Fields)
    (simd : Simd) : Except Thrown (UInt64 × InstructionStore) := do
  let instruction ← x86_64 fields simd
  pure (fileOffset + UInt64.ofNat fields.bytes.length, decodedInstructions.pushBack instruction)

/-- The end of the `try` block and the `catch` clauses behind it. -/
def finishLine (fileOffset : UInt64) (decodedInstructions : InstructionStore) :
    EStateM.Result (Stop Thrown) (Consumed UInt8 15) DecodeLocals →
      Except Thrown (UInt64 × InstructionStore)
  | .ok locals bytes =>
      emit fileOffset decodedInstructions { locals.fields with bytes := bytes } locals.simd
  | .error (.failed (.lengthError _)) _ => .ok (fileOffset, decodedInstructions)
  -- Of the fields gathered before `TooLong` an invalid row shows the bytes only.
  | .error .limitReached bytes =>
      emit fileOffset decodedInstructions { bytes := bytes, isInvalid := true } {}
  | .error (.failed thrown) _ => .error thrown

def decodeLine (is64Bit : Bool) (contents : AddressSpace) (fileOffset vaddr : UInt64)
    (decodedInstructions : InstructionStore) : Except Thrown (UInt64 × InstructionStore) :=
  finishLine fileOffset decodedInstructions
    (decodeInstruction is64Bit vaddr (bytesAt contents fileOffset) .empty)

end Voidwalk.InstructionDecoding

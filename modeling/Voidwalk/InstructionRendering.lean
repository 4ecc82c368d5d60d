import Mathlib.Data.List.Basic
import Mathlib.Tactic.Common
import Voidwalk.Library.CountingReader
import Voidwalk.OneByteTables

/-!
One decoded instruction, and the constructor that renders what the decoder
learned about it into the two strings the rest of the program sees.
-/

namespace Voidwalk.InstructionRendering

open Voidwalk.MappedFile
open Voidwalk.OpcodeRows
open Voidwalk.OneByteTables
open Voidwalk.Library.CountingReader

inductive Flow where
  | None | Call | Jump | CondJump | Return
  deriving DecidableEq, Repr

structure Instruction where
  flow : Flow := .None
  target : UInt64 := 0
  machineCode : String := ""
  instructionText : String := ""
  deriving DecidableEq, Repr, Inhabited

def noImmediates : Vector UInt64 2 := #v[0, 0]

/-- Everything the decoder learned about one instruction. `bytes` stands for
the array of 15 and its length. -/
structure Fields where
  bytes : Consumed UInt8 15 := .empty
  is64Bit : Bool := false
  isInvalid : Bool := false
  hasLock : Bool := false
  repPrefix : UInt8 := 0
  segmentPrefix : UInt8 := 0
  rexPrefix : UInt8 := 0
  opSize : Nat := 32
  addrSize : Nat := 32
  opcode : UInt8 := 0
  info : OpcodeInfo := {}
  hasModRM : Bool := false
  mod : UInt8 := 0
  reg : UInt8 := 0
  rm : UInt8 := 0
  hasSIB : Bool := false
  scale : UInt8 := 1
  index : UInt8 := 0
  base : UInt8 := 0
  hasDisplacement : Bool := false
  displacement : Int64 := 0
  immediates : Vector UInt64 2 := noImmediates

/-- `std::format("{:02x}", byte)`. -/
def hexByte (byte : UInt8) : String :=
  String.ofList [Nat.digitChar (byte.toNat / 16), Nat.digitChar (byte.toNat % 16)]

def machineCodeOf (bytes : List UInt8) : String :=
  String.join (bytes.map fun byte => hexByte byte ++ " ")

/-- `std::format("{:#x}", value)`. -/
def toHex (value : UInt64) : String :=
  "0x" ++ String.ofList (Nat.toDigits 16 value.toNat)

def mask (bits : Nat) : UInt64 :=
  if bits = 64 then 0xFFFFFFFFFFFFFFFF else (1 <<< UInt64.ofNat bits) - 1

def registerName (fields : Fields) (regNumber : UInt8) (width : Nat) : String :=
  registerOf regNumber.toNat width (fields.rexPrefix != 0)

def widthOf (fields : Fields) : Size → Nat
  | .b => 8
  | .w => 16
  | .d => 32
  | .z => if fields.opSize = 16 then 16 else 32
  | .y => if fields.opSize = 64 then 64 else 32
  | _ => fields.opSize

/-- An XMM, or a YMM under VEX.L unless the operand is sized dq. -/
def vectorName (simd : Simd) (regNumber : UInt8) (size : Size) : String :=
  (if simd.L ≠ 0 ∧ size ≠ .dq then "YMM" else "XMM") ++ toString regNumber.toNat

def modes16 : Vector String 8 :=
  #v["BX + SI", "BX + DI", "BP + SI", "BP + DI", "SI", "DI", "BP", "BX"]

def mode16Of (rmField : UInt8) : String :=
  have h := toNat_and_seven_lt rmField
  modes16[(rmField &&& 7).toNat]

def vsibOf (info : OpcodeInfo) : Option TableOperand :=
  info.operands.toList.reverse.find? fun operand => operand.addressingMode = .VSIB

def memoryRegisters (fields : Fields) (simd : Simd) : String :=
  let rmField := fields.rm &&& 7
  if fields.addrSize = 16 then
    if fields.mod = 0 ∧ rmField = 6 then "" else mode16Of fields.rm
  else if fields.hasSIB then
    let base :=
      if fields.mod = 0 ∧ fields.base &&& 7 = 5 then ""
      else registerName fields fields.base fields.addrSize
    let separator := if base = "" then "" else " + "
    match vsibOf fields.info with
    | some vsib =>
        base ++ separator ++ vectorName simd fields.index vsib.size ++ "*" ++
          toString fields.scale.toNat
    | none =>
        -- 100 without REX.X: no index.
        if fields.index = 4 then base
        else
          base ++ separator ++ registerName fields fields.index fields.addrSize ++ "*" ++
            toString fields.scale.toNat
  else if fields.mod = 0 ∧ rmField = 5 then
    if fields.is64Bit then if fields.addrSize = 64 then "RIP" else "EIP" else ""
  else registerName fields fields.rm fields.addrSize

/-- The displacement: signed off a register, else an absolute address, unsigned
at the address width. -/
def withDisplacement (fields : Fields) (registers : String) : String :=
  if fields.hasDisplacement then
    if registers = "" then toHex (fields.displacement.toUInt64 &&& mask fields.addrSize)
    else if fields.displacement < 0 then registers ++ " - " ++ toHex (-fields.displacement).toUInt64
    else registers ++ " + " ++ toHex fields.displacement.toUInt64
  else registers

/-- The one memory operand. With mod 11 there is none. -/
def memoryOperandOf (fields : Fields) (simd : Simd) : String :=
  if fields.hasModRM ∧ fields.mod ≠ 3 then
    "[" ++ withDisplacement fields (memoryRegisters fields simd) ++ "]"
  else ""

/-- The row's operands, plus, for an nds row, VEX.vvvv right after the first. -/
def operandList (info : OpcodeInfo) : List TableOperand :=
  match info.operands.toList.takeWhile fun operand => operand.addressingMode ≠ .None with
  | [] => []
  | first :: rest =>
      if info.nds then
        first :: op .H (if first.addressingMode = .G then .y else first.size) :: rest
      else first :: rest

/-- How far the operand loop is: the texts so far, the next slot of
`immediates`, and whether a memory operand took the segment override. -/
structure Printed where
  texts : List String := []
  immIndex : Nat := 0
  segmentUsed : Bool := false

namespace Printed

def text (printed : Printed) (operandText : String) : Printed :=
  { printed with texts := printed.texts ++ [operandText] }

def memory (printed : Printed) (operandText : String) : Printed :=
  { printed with texts := printed.texts ++ [operandText], segmentUsed := true }

/-- Prints `immediates[immIndex++]`. -/
def immediate (printed : Printed) (fields : Fields) (format : UInt64 → String) :
    Except Thrown Printed :=
  match fields.immediates[printed.immIndex]? with
  | some value =>
      .ok { printed with
        texts := printed.texts ++ [format value]
        immIndex := printed.immIndex + 1 }
  | none => .error .outOfRange

end Printed

def printOperand (fields : Fields) (simd : Simd) (segmentText : String) (printed : Printed)
    (operand : TableOperand) : Except Thrown Printed :=
  let register (regNumber : UInt8) :=
    pure (printed.text (registerName fields regNumber (widthOf fields operand.size)))
  let vector (regNumber : UInt8) := pure (printed.text (vectorName simd regNumber operand.size))
  let takeMemoryOperand := pure (printed.memory (segmentText ++ memoryOperandOf fields simd))
  match operand.addressingMode with
  | .E | .M => if fields.mod = 3 then register fields.rm else takeMemoryOperand
  | .G => register fields.reg
  | .V => vector fields.reg
  | .W => if fields.mod = 3 then vector fields.rm else takeMemoryOperand
  | .H => if operand.size = .y then register simd.vvvv else vector simd.vvvv
  | .L => printed.immediate fields fun value =>
      vectorName simd ((value >>> 4) &&& (if fields.is64Bit then 15 else 7)).toUInt8 operand.size
  | .VSIB => takeMemoryOperand
  | .P => pure (printed.text ("MM" ++ toString (fields.reg &&& 7).toNat))
  | .Q =>
      if fields.mod = 3 then pure (printed.text ("MM" ++ toString (fields.rm &&& 7).toNat))
      else takeMemoryOperand
  | .S => pure (printed.text (segmentOf fields.reg))
  -- REX.B extends the register in the opcode's low bits.
  | .Z => register ((fields.opcode &&& (7 : UInt8)) ||| ((fields.rexPrefix &&& (1 : UInt8)) <<< 3))
  | .I | .J => printed.immediate fields toHex
  | .O =>
      { printed with segmentUsed := true }.immediate fields fun value =>
        segmentText ++ "[" ++ toHex value ++ "]"
  | .A => printed.immediate fields fun value =>
      toHex (value >>> 32) ++ ":" ++ toHex (value &&& 0xFFFFFFFF)
  | .X => pure (printed.memory (segmentText ++ "[" ++ registerName fields 6 fields.addrSize ++ "]"))
  | .Y => pure (printed.text ("[" ++ registerName fields 7 fields.addrSize ++ "]"))
  | .eAX => register 0
  | .eCX => register 1
  | .eDX => register 2
  | .eBX => register 3
  | .eSP => register 4
  | .eBP => register 5
  | .eSI => register 6
  | .eDI => register 7
  | _ => pure (printed.text operand.value)

def isIndirect (fields : Fields) (simd : Simd) : Bool :=
  simd.map == 0 && fields.opcode == 0xFF && (fields.reg &&& 7 == 2 || fields.reg &&& 7 == 4)

def isBranch (fields : Fields) (simd : Simd) : Bool :=
  isIndirect fields simd ||
    (simd.map == 0 && ((fields.opcode ≥ 0x70 && fields.opcode ≤ 0x7F) || fields.opcode == 0xC2 ||
      fields.opcode == 0xC3 || fields.opcode == 0xE8 || fields.opcode == 0xE9 ||
      fields.opcode == 0xEB)) ||
    (simd.map == 1 && fields.opcode ≥ 0x80 && fields.opcode ≤ 0x8F)

def hasNotrack (fields : Fields) (simd : Simd) : Bool :=
  isIndirect fields simd && fields.segmentPrefix == 0x3E

def segmentTextOf (fields : Fields) (simd : Simd) : String :=
  if fields.segmentPrefix ≠ 0 ∧ hasNotrack fields simd = false then prefixTable fields.segmentPrefix
  else ""

def flowOf (fields : Fields) (simd : Simd) : Flow :=
  let opcode := fields.opcode
  let regField := fields.reg &&& 7
  if simd.map = 0 then
    if opcode = 0xE8 ∨ opcode = 0x9A ∨ (opcode = 0xFF ∧ (regField = 2 ∨ regField = 3)) then .Call
    else if opcode = 0xE9 ∨ opcode = 0xEB ∨ opcode = 0xEA ∨
      (opcode = 0xFF ∧ (regField = 4 ∨ regField = 5)) then .Jump
    else if (opcode ≥ 0x70 ∧ opcode ≤ 0x7F) ∨ (opcode ≥ 0xE0 ∧ opcode ≤ 0xE3) then .CondJump
    else if opcode = 0xC2 ∨ opcode = 0xC3 ∨ opcode = 0xCA ∨ opcode = 0xCB ∨ opcode = 0xCF then
      .Return
    else .None
  else if simd.map = 1 ∧ opcode ≥ 0x80 ∧ opcode ≤ 0x8F then .CondJump
  else .None

def targetOf (fields : Fields) (simd : Simd) : UInt64 :=
  if flowOf fields simd ≠ .None ∧ (firstOperand fields.info.operands).addressingMode = .J then
    fields.immediates[0]
  else 0

def mnemonicOf (fields : Fields) (simd : Simd) : String :=
  if simd.map = 0 ∧ fields.opcode = 0xE3 then
    -- The count register follows the address size.
    if fields.addrSize = 64 then "JRCXZ" else if fields.addrSize = 32 then "JECXZ" else "JCXZ"
  else if (fields.opSize = 64 ∨ simd.W ≠ 0) ∧ fields.info.text64 ≠ "" then fields.info.text64
  else if fields.opSize = 16 ∧ fields.info.text16 ≠ "" then fields.info.text16
  else fields.info.text

def prefixWords (fields : Fields) (simd : Simd) (segmentUsed : Bool) : String :=
  let segmentText := segmentTextOf fields simd
  (if fields.hasLock then "LOCK " else "") ++
    (if fields.repPrefix ≠ 0 then
      if fields.repPrefix = 0xF3 then "REP " else if isBranch fields simd then "BND " else "REPNE "
    else "") ++
    (if hasNotrack fields simd then "NOTRACK " else "") ++
    (if segmentText ≠ "" ∧ segmentUsed = false then
      String.ofList (segmentText.toList.take 2) ++ " "
    else "")

def isBad (fields : Fields) : Bool :=
  fields.isInvalid || fields.info.text == "" || fields.info.text == "(bad)"

def x86_64 (fields : Fields) (simd : Simd) : Except Thrown Instruction :=
  let machineCode := machineCodeOf fields.bytes.symbols
  if isBad fields then pure { machineCode := machineCode, instructionText := "(bad)" }
  else do
    let printed ← (operandList fields.info).foldlM
      (printOperand fields simd (segmentTextOf fields simd)) {}
    pure
      { flow := flowOf fields simd
        target := targetOf fields simd
        machineCode := machineCode
        instructionText := prefixWords fields simd printed.segmentUsed ++ mnemonicOf fields simd ++
          " \t" ++ ", ".intercalate printed.texts }

theorem Printed.immediate_ok {printed : Printed} {fields : Fields} (format : UInt64 → String)
    (h : printed.immIndex < 2) :
    ∃ later, printed.immediate fields format = .ok later ∧
      later.immIndex = printed.immIndex + 1 := by
  rw [Printed.immediate, Vector.getElem?_eq_getElem h]
  exact ⟨_, rfl, rfl⟩

/-- An operand is printed whenever its slot of `immediates` exists, and only an
immediate moves on to the next slot. -/
theorem printOperand_ok (fields : Fields) (simd : Simd) (segmentText : String) (printed : Printed)
    (operand : TableOperand)
    (h : operand.addressingMode.isImmediate = true → printed.immIndex < 2) :
    ∃ later, printOperand fields simd segmentText printed operand = .ok later ∧
      later.immIndex = printed.immIndex + operand.addressingMode.isImmediate.toNat := by
  rcases operand with ⟨mode, size, value⟩
  cases mode <;> simp only [printOperand, Addressing.isImmediate] at h ⊢
  case I | J | A | L => exact Printed.immediate_ok _ (h trivial)
  case O => exact @Printed.immediate_ok { printed with segmentUsed := true } _ _ (h trivial)
  case E | M | W | Q | H => split <;> exact ⟨_, rfl, rfl⟩
  all_goals exact ⟨_, rfl, rfl⟩

theorem printOperands_ok (fields : Fields) (simd : Simd) (segmentText : String)
    (operands : List TableOperand) (printed : Printed)
    (h : printed.immIndex + immediateCount operands ≤ 2) :
    ∃ later, operands.foldlM (printOperand fields simd segmentText) printed = .ok later := by
  induction operands generalizing printed with
  | nil => exact ⟨printed, rfl⟩
  | cons operand rest ih =>
      rw [immediateCount, List.countP_cons] at h
      have hslot : operand.addressingMode.isImmediate = true → printed.immIndex < 2 := by
        intro himm
        simp [himm] at h
        omega
      obtain ⟨next, hnext, hindex⟩ :=
        printOperand_ok fields simd segmentText printed operand hslot
      obtain ⟨later, hlater⟩ := ih next (by
        rw [hindex, immediateCount]
        cases himm : operand.addressingMode.isImmediate <;> simp [himm] at h ⊢ <;> omega)
      exact ⟨later, by rw [List.foldlM_cons, hnext]; exact hlater⟩

/-- What holds of the operands of a row and of the registers that `nds` adds holds of the list. -/
theorem forall_operandList {Q : TableOperand → Prop} {info : OpcodeInfo}
    (hoperands : ∀ operand ∈ info.operands.toList, Q operand)
    (hnds : ∀ size, Q (op .H size)) : ∀ operand ∈ operandList info, Q operand := by
  have htaken : ∀ operand ∈ info.operands.toList.takeWhile
      fun operand => decide (operand.addressingMode ≠ .None), Q operand :=
    fun operand hoperand => hoperands operand (List.takeWhile_subset _ hoperand)
  rw [operandList]
  split
  · exact fun operand hoperand => absurd hoperand List.not_mem_nil
  · rename_i first rest hlist
    rw [hlist, List.forall_mem_cons] at htaken
    split
    · exact List.forall_mem_cons.mpr ⟨htaken.1, List.forall_mem_cons.mpr ⟨hnds _, htaken.2⟩⟩
    · exact List.forall_mem_cons.mpr htaken

theorem immediateCount_operandList (info : OpcodeInfo) :
    immediateCount (operandList info) ≤ immediateCount info.operands.toList := by
  have htake := (List.takeWhile_prefix (l := info.operands.toList)
    (fun operand => decide (operand.addressingMode ≠ .None))).sublist.countP_le
    (p := fun operand => operand.addressingMode.isImmediate)
  rw [operandList]
  split
  · exact Nat.zero_le _
  · rename_i first rest hlist
    rw [hlist] at htake
    split
    · simpa [immediateCount, List.countP_cons, op, OP, Addressing.isImmediate] using htake
    · exact htake

/-- The constructor reads inside `immediates` on every resolved row. -/
theorem x86_64_ok (fields : Fields) (simd : Simd)
    (h : immediateCount fields.info.operands.toList ≤ 2) :
    ∃ instruction, x86_64 fields simd = .ok instruction := by
  rw [x86_64]
  split
  · exact ⟨_, rfl⟩
  · obtain ⟨printed, hprinted⟩ := printOperands_ok fields simd (segmentTextOf fields simd)
      (operandList fields.info) {}
      (by simpa using (immediateCount_operandList fields.info).trans h)
    exact ⟨_, by rw [hprinted]; rfl⟩

theorem x86_64_of_isInvalid {fields : Fields} (simd : Simd) (h : fields.isInvalid = true) :
    x86_64 fields simd = .ok
      { machineCode := machineCodeOf fields.bytes.symbols, instructionText := "(bad)" } := by
  simp only [x86_64, isBad, h, Bool.true_or, if_true]
  rfl

theorem machineCode_x86_64 {fields : Fields} {simd : Simd} {instruction : Instruction}
    (h : x86_64 fields simd = .ok instruction) :
    instruction.machineCode = machineCodeOf fields.bytes.symbols := by
  rw [x86_64] at h
  split at h
  · rw [← Except.ok.inj h]
  · cases hprinted : (operandList fields.info).foldlM
      (printOperand fields simd (segmentTextOf fields simd)) {} with
    | error thrown => simp [hprinted, bind, Except.bind] at h
    | ok printed =>
        rw [hprinted] at h
        rw [← Except.ok.inj h]

theorem flow_x86_64 {fields : Fields} {simd : Simd} {instruction : Instruction}
    (h : x86_64 fields simd = .ok instruction) (hnamed : isBad fields = false) :
    instruction.flow = flowOf fields simd ∧ instruction.target = targetOf fields simd := by
  rw [x86_64, if_neg (by simp [hnamed])] at h
  cases hprinted : (operandList fields.info).foldlM
    (printOperand fields simd (segmentTextOf fields simd)) {} with
  | error thrown => simp [hprinted, bind, Except.bind] at h
  | ok printed =>
      rw [hprinted] at h
      rw [← Except.ok.inj h]
      exact ⟨rfl, rfl⟩

end Voidwalk.InstructionRendering

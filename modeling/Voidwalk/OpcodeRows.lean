import Mathlib.Data.List.Basic
import Mathlib.Tactic.Common
import Voidwalk.Library.Bytes
import Voidwalk.MappedFile

/-!
The rows of the x86 encoding tables, the tables as arrays filled in by a
sequence of assignments, and the register names.
-/

namespace Voidwalk.OpcodeRows

open Voidwalk.MappedFile

inductive Addressing where
  | None | E | G | I | J | O | S | M | A | Z | AL | eAX | DX | CL | One
  | eCX | eDX | eBX | eSP | eBP | eSI | eDI
  | ES | CS | SS | DS
  | X | Y | F
  | DL | BL | AH | CH | DH | BH
  | ST
  | V | W | P | Q
  | H | L | VSIB
  deriving DecidableEq, Repr

inductive Size where
  | None | b | w | v | z | p | a | bs | d | y | dq
  deriving DecidableEq, Repr

/-- One operand slot of an opcode-table row. `value` is the text of an operand
the row names outright. -/
structure TableOperand where
  addressingMode : Addressing := .None
  size : Size := .None
  value : String := ""
  deriving DecidableEq, Repr, Inhabited

inductive Default64 where
  | None | d64 | f64
  deriving DecidableEq, Repr

def noOperands : Vector TableOperand 3 := #v[{}, {}, {}]

def slots (op1 op2 op3 : TableOperand) : Vector TableOperand 3 := #v[op1, op2, op3]

def firstOperand (operands : Vector TableOperand 3) : TableOperand := operands[0]

def secondOperand (operands : Vector TableOperand 3) : TableOperand := operands[1]

def thirdOperand (operands : Vector TableOperand 3) : TableOperand := operands[2]

@[simp] theorem firstOperand_slots (op1 op2 op3 : TableOperand) :
    firstOperand (slots op1 op2 op3) = op1 := rfl

@[simp] theorem secondOperand_slots (op1 op2 op3 : TableOperand) :
    secondOperand (slots op1 op2 op3) = op2 := rfl

@[simp] theorem thirdOperand_slots (op1 op2 op3 : TableOperand) :
    thirdOperand (slots op1 op2 op3) = op3 := rfl

@[simp] theorem toList_slots (op1 op2 op3 : TableOperand) :
    (slots op1 op2 op3).toList = [op1, op2, op3] := rfl

section Mapped

variable (f : TableOperand → TableOperand) (g : TableOperand → TableOperand → TableOperand)
  (outer entry : Vector TableOperand 3)

@[simp] theorem firstOperand_map : firstOperand (outer.map f) = f (firstOperand outer) :=
  Vector.getElem_map f _

@[simp] theorem secondOperand_map : secondOperand (outer.map f) = f (secondOperand outer) :=
  Vector.getElem_map f _

@[simp] theorem thirdOperand_map : thirdOperand (outer.map f) = f (thirdOperand outer) :=
  Vector.getElem_map f _

@[simp] theorem firstOperand_zipWith :
    firstOperand (Vector.zipWith g outer entry) = g (firstOperand outer) (firstOperand entry) :=
  Vector.getElem_zipWith _

@[simp] theorem secondOperand_zipWith :
    secondOperand (Vector.zipWith g outer entry) = g (secondOperand outer) (secondOperand entry) :=
  Vector.getElem_zipWith _

@[simp] theorem thirdOperand_zipWith :
    thirdOperand (Vector.zipWith g outer entry) = g (thirdOperand outer) (thirdOperand entry) :=
  Vector.getElem_zipWith _

end Mapped

theorem toList_operands (operands : Vector TableOperand 3) :
    operands.toList = [firstOperand operands, secondOperand operands, thirdOperand operands] := by
  rcases operands with ⟨⟨slots⟩, hslots⟩
  match slots, hslots with
  | [_, _, _], _ => rfl

/-- One row of an opcode table. The field defaults are those of the value
initialisation `OpcodeInfo{}`. -/
structure OpcodeInfo where
  text : String := ""
  text16 : String := ""
  hasRMByte : Bool := false
  operands : Vector TableOperand 3 := noOperands
  groupNumber : Int := 0
  isInvalid : Bool := false
  text64 : String := ""
  default64 : Default64 := .None
  mandatoryPrefix : UInt8 := 0
  nds : Bool := false
  deriving DecidableEq, Repr

structure Simd where
  map : UInt8 := 0
  pp : UInt8 := 0
  mandatory : Bool := false
  vex : UInt8 := 0
  vvvv : UInt8 := 0
  L : UInt8 := 0
  W : UInt8 := 0
  deriving DecidableEq, Repr

/-- The operands that take a slot of `immediates`: the decoder reads bytes for
them and the renderer prints the value. -/
def Addressing.isImmediate : Addressing → Bool
  | .I | .J | .A | .O | .L => true
  | _ => false

def immediateCount (operands : List TableOperand) : Nat :=
  operands.countP fun operand => operand.addressingMode.isImmediate

/-- What one assignment of a table builder does to the row it names. -/
inductive RowUpdate where
  | info (row : OpcodeInfo)
  | isInvalid
  | text64 (name : String)
  | default64 (mode : Default64)

def RowUpdate.apply : RowUpdate → OpcodeInfo → OpcodeInfo
  | .info row, _ => row
  | .isInvalid, row => { row with isInvalid := true }
  | .text64 name, row => { row with text64 := name }
  | .default64 mode, row => { row with default64 := mode }

/-- `table[index] = …` or `table[index].field = …`. -/
structure Assignment where
  index : Nat
  update : RowUpdate

abbrev OpcodeTable (n : Nat) := Fin n → OpcodeInfo

/-- Row `i` after a sequence of assignments, in order. -/
def assignRow (i : Nat) : OpcodeInfo → List Assignment → OpcodeInfo
  | info, [] => info
  | info, assignment :: rest =>
      assignRow i (if assignment.index = i then assignment.update.apply info else info) rest

/-- The array a builder leaves behind, every row value-initialised first. -/
def assigned (n : Nat) (assignments : List Assignment) : OpcodeTable n :=
  fun i => assignRow i {} assignments

/-- `table[i]`, the index being the `int` the source computes. -/
def OpcodeTable.at {n : Nat} (table : OpcodeTable n) (i : Int) : Except Thrown OpcodeInfo :=
  if h : 0 ≤ i ∧ i < n then .ok (table ⟨i.toNat, by omega⟩) else .error .outOfRange

theorem OpcodeTable.at_eq_ok {n : Nat} (table : OpcodeTable n) {i : Int} (h0 : 0 ≤ i)
    (hn : i < n) : ∃ slot, table.at i = .ok (table slot) :=
  ⟨_, dif_pos ⟨h0, hn⟩⟩

/-- A property of the row at `i` that every assignment to it keeps. -/
theorem assigned_induction (Q : OpcodeInfo → Prop) (n : Nat) (assignments : List Assignment)
    (i : Fin n) (hdefault : Q {})
    (hupdate : ∀ assignment ∈ assignments, assignment.index = i →
      ∀ info, Q info → Q (assignment.update.apply info)) : Q (assigned n assignments i) := by
  suffices h : ∀ info, Q info → Q (assignRow i info assignments) from h {} hdefault
  induction assignments with
  | nil => exact fun _ hinfo => hinfo
  | cons assignment rest ih =>
      intro info hinfo
      refine ih (fun later hlater => hupdate later (List.mem_cons_of_mem _ hlater)) _ ?_
      split
      · rename_i hindex
        exact hupdate assignment List.mem_cons_self hindex info hinfo
      · exact hinfo

def wholeRows (assignments : List Assignment) : List OpcodeInfo :=
  assignments.filterMap fun assignment =>
    match assignment.update with
    | .info row => some row
    | _ => none

/-- A property of the operands and the group number holds of every row of a
table when it holds of the rows its builder writes. -/
theorem assigned_shape (Q : Vector TableOperand 3 → Int → Prop) (n : Nat)
    (assignments : List Assignment) (hdefault : Q noOperands 0)
    (hrows : ∀ row ∈ wholeRows assignments, Q row.operands row.groupNumber) (i : Fin n) :
    Q (assigned n assignments i).operands (assigned n assignments i).groupNumber := by
  refine assigned_induction (fun info => Q info.operands info.groupNumber) n assignments i
    hdefault ?_
  rintro ⟨index, update⟩ hassignment - info hinfo
  cases update with
  | info row => exact hrows row (List.mem_filterMap.mpr ⟨_, hassignment, rfl⟩)
  | isInvalid => exact hinfo
  | text64 name => exact hinfo
  | default64 mode => exact hinfo

def OP (mode : Addressing) (size : Size) (value : String) : TableOperand :=
  ⟨mode, size, value⟩

/-- An operand whose text comes from the instruction's bytes. -/
def op (mode : Addressing) (size : Size) : TableOperand := OP mode size ""

def nop : TableOperand := op .None .None

def registerNames8 : Vector String 8 :=
  #v["AL", "CL", "DL", "BL", "AH", "CH", "DH", "BH"]

def registerNames8Rex : Vector String 16 :=
  #v["AL", "CL", "DL", "BL", "SPL", "BPL", "SIL", "DIL",
    "R8B", "R9B", "R10B", "R11B", "R12B", "R13B", "R14B", "R15B"]

def registerNames16 : Vector String 16 :=
  #v["AX", "CX", "DX", "BX", "SP", "BP", "SI", "DI",
    "R8W", "R9W", "R10W", "R11W", "R12W", "R13W", "R14W", "R15W"]

def registerNames32 : Vector String 16 :=
  #v["EAX", "ECX", "EDX", "EBX", "ESP", "EBP", "ESI", "EDI",
    "R8D", "R9D", "R10D", "R11D", "R12D", "R13D", "R14D", "R15D"]

def registerNames64 : Vector String 16 :=
  #v["RAX", "RCX", "RDX", "RBX", "RSP", "RBP", "RSI", "RDI",
    "R8", "R9", "R10", "R11", "R12", "R13", "R14", "R15"]

/-- Register `regNumber` at `bits` wide. The guard in front of the lookups is
what keeps each of them inside its array. -/
def registerOf (regNumber bits : Nat) (hasREX : Bool) : String :=
  if h : regNumber > 15 ∨ (bits = 8 ∧ hasREX = false ∧ regNumber > 7) then "(bad)"
  else
    have h16 : regNumber < 16 := by omega
    if hbits : bits = 8 then
      if hrex : hasREX then registerNames8Rex[regNumber]
      else
        have h8 : regNumber < 8 := by
          by_contra hge
          exact h (Or.inr ⟨hbits, by simpa using hrex, by omega⟩)
        registerNames8[regNumber]
    else if bits = 16 then registerNames16[regNumber]
    else if bits = 64 then registerNames64[regNumber]
    else registerNames32[regNumber]

def segmentNames : Vector String 8 :=
  #v["ES", "CS", "SS", "DS", "FS", "GS", "(bad)", "(bad)"]

theorem toNat_and_seven_lt (byte : UInt8) : (byte &&& 7).toNat < 8 := by
  rw [UInt8.toNat_and]
  exact Nat.lt_succ_of_le Nat.and_le_right

def segmentOf (regNumber : UInt8) : String :=
  have h := toNat_and_seven_lt regNumber
  segmentNames[(regNumber &&& 7).toNat]

end Voidwalk.OpcodeRows

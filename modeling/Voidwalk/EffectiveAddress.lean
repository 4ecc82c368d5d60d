import Voidwalk.PrefixedOpcodes

/-!
The effective address that the architecture assigns to the bytes of an instruction with a
ModRM byte: which bytes are prefixes and opcode, the tables of ModRM and SIB, and the sum
they name at the address size in force.
-/

namespace Voidwalk.EffectiveAddress

open Voidwalk.EncodedValues
open Voidwalk.PrefixedOpcodes

/-- What a term of an address stands for. `nextInstruction` is RIP or EIP. -/
inductive Register where
  | general (width number : Nat)
  | vector (number : Nat)
  | nextInstruction (width : Nat)
  deriving DecidableEq, Repr

/-- The contents of the registers. Of a vector register it is the element that indexes the
lane in question. -/
structure Registers where
  general : Nat → UInt64
  vector : Nat → Int

def Register.value (registers : Registers) (next : UInt64) : Register → Int
  | .general width number => (registers.general number).toNat % 2 ^ width
  | .vector number => registers.vector number
  | .nextInstruction width => next.toNat % 2 ^ width

def names64 : List String :=
  ["RAX", "RCX", "RDX", "RBX", "RSP", "RBP", "RSI", "RDI",
    "R8", "R9", "R10", "R11", "R12", "R13", "R14", "R15"]

def names32 : List String :=
  ["EAX", "ECX", "EDX", "EBX", "ESP", "EBP", "ESI", "EDI",
    "R8D", "R9D", "R10D", "R11D", "R12D", "R13D", "R14D", "R15D"]

def names16 : List String :=
  ["AX", "CX", "DX", "BX", "SP", "BP", "SI", "DI",
    "R8W", "R9W", "R10W", "R11W", "R12W", "R13W", "R14W", "R15W"]

def vectorNames (family : String) : List String :=
  (List.range 16).map fun number => family ++ toString number

/-- Every name with the register it names. -/
def namedRegisters : List (String × Register) :=
  names64.zipIdx.map (Prod.map id (.general 64)) ++
    names32.zipIdx.map (Prod.map id (.general 32)) ++
    names16.zipIdx.map (Prod.map id (.general 16)) ++
    (vectorNames "XMM").zipIdx.map (Prod.map id .vector) ++
    (vectorNames "YMM").zipIdx.map (Prod.map id .vector) ++
    [("RIP", .nextInstruction 64), ("EIP", .nextInstruction 32)]

def registerNamed (name : List Char) : Option Register :=
  namedRegisters.lookup (String.ofList name)

/-- An address as the tables give it: base + index * scale + displacement. -/
structure AddressForm where
  size : Nat
  base : Option Register := none
  index : Option (Register × Nat) := none
  displacement : Int := 0
  deriving DecidableEq, Repr

/-- The sum, before it is cut to the address size. -/
def AddressForm.sum (form : AddressForm) (registers : Registers) (next : UInt64) : Int :=
  (form.base.map (Register.value registers next)).getD 0 +
    (form.index.map fun scaled => scaled.1.value registers next * (scaled.2 : Int)).getD 0 +
    form.displacement

def AddressForm.address (form : AddressForm) (registers : Registers) (next : UInt64) : Int :=
  form.sum registers next % 2 ^ form.size

section Encoding

variable (is64Bit : Bool)

def isRexByte (byte : UInt8) : Bool := is64Bit && 0x40 ≤ byte.toNat && byte.toNat ≤ 0x4F

def isPrefixByte (byte : UInt8) : Bool := legacyPrefixes.contains byte || isRexByte is64Bit byte

/-- The low half of the REX byte in force, which is the last prefix or none: W, R, X, B. -/
def rexBits (prefixes : List UInt8) : Nat :=
  match prefixes.getLast? with
  | some byte => if isRexByte is64Bit byte then byte.toNat % 16 else 0
  | none => 0

def addressSize (prefixes : List UInt8) : Nat :=
  if is64Bit then if prefixes.contains 0x67 then 32 else 64
  else if prefixes.contains 0x67 then 16 else 32

/-- What prefixes and opcode add to the ModRM and SIB bytes: the bits X and B, and whether
the index is a vector register. -/
structure Extension where
  x : Nat := 0
  b : Nat := 0
  isGather : Bool := false
  deriving DecidableEq, Repr

def rexExtension (rex : Nat) : Extension := { x := rex / 2 % 2, b := rex % 2 }

/-- The VEX bits are stored inverted. In legacy mode they extend nothing. -/
def vexExtension (vex1 vex2 opcode : UInt8) : Extension where
  x := if is64Bit then 1 - vex1.toNat / 64 % 2 else 0
  b := if is64Bit then 1 - vex1.toNat / 32 % 2 else 0
  isGather := vex1.toNat % 32 = 2 && vex2.toNat % 4 = 1 && 0x90 ≤ opcode.toNat &&
    opcode.toNat ≤ 0x93

/-- C4 and C5 open a VEX prefix, unless the byte behind them is a ModRM byte of LES or LDS. -/
def isVex (first : UInt8) (behind : List UInt8) : Bool :=
  (first == 0xC4 || first == 0xC5) &&
    (is64Bit || behind.head?.any fun second => 0xC0 ≤ second.toNat)

/-- Skips the opcode, with its escapes or its VEX prefix. -/
def behindOpcode (rex : Nat) : List UInt8 → Option (Extension × List UInt8)
  | [] => none
  | first :: behind =>
      if first = 0x0F then
        match behind with
        | [] => none
        | second :: behind =>
            if second = 0x38 ∨ second = 0x3A then some (rexExtension rex, behind.drop 1)
            else some (rexExtension rex, behind)
      else if isVex is64Bit first behind then
        if first = 0xC5 then some ({}, behind.drop 2)
        else
          match behind with
          | vex1 :: vex2 :: opcode :: behind =>
              some (vexExtension is64Bit vex1 vex2 opcode, behind)
          | _ => none
      else some (rexExtension rex, behind)

def withDisplacementBytes (form : AddressForm) (width : Nat) (behind : List UInt8) :
    Option AddressForm :=
  if width ≤ behind.length then
    some { form with displacement := signedValue (behind.take width) }
  else none

/-- The displacement behind mod 00, 01 and 10; `wide` is that of 10. -/
def displacementWidth (wide mod : Nat) : Nat :=
  if mod = 2 then wide else if mod = 1 then 1 else 0

def bases16 : List Nat := [3, 3, 5, 5, 6, 7, 5, 3]

def indexes16 : List Nat := [6, 7, 6, 7]

/-- ModRM at 16 bits. -/
def form16 (mod rm : Nat) (behind : List UInt8) : Option AddressForm :=
  if mod = 0 ∧ rm = 6 then withDisplacementBytes { size := 16 } 2 behind
  else
    withDisplacementBytes
      { size := 16
        base := bases16[rm]?.map (.general 16)
        index := indexes16[rm]?.map fun number => (.general 16 number, 1) }
      (displacementWidth 2 mod) behind

/-- The index of a SIB byte. 100 without X is no index, except that of a vector register. -/
def sibIndex (size : Nat) (extension : Extension) (sib : Nat) : Option (Register × Nat) :=
  let number := sib / 8 % 8 + 8 * extension.x
  if extension.isGather then some (.vector number, 2 ^ (sib / 64))
  else if number = 4 then none
  else some (.general size number, 2 ^ (sib / 64))

/-- SIB. Base 101 with mod 00 is a displacement without a base, whatever B is. -/
def formSIB (size : Nat) (extension : Extension) (mod sib : Nat) (behind : List UInt8) :
    Option AddressForm :=
  let index := sibIndex size extension sib
  if mod = 0 ∧ sib % 8 = 5 then withDisplacementBytes { size := size, index := index } 4 behind
  else
    withDisplacementBytes
      { size := size, base := some (.general size (sib % 8 + 8 * extension.b)), index := index }
      (displacementWidth 4 mod) behind

/-- ModRM at 32 and 64 bits. mod 00 with rm 101 is relative to the next instruction in long
mode and absolute in legacy mode. -/
def formModRM (size : Nat) (extension : Extension) (mod rm : Nat) (behind : List UInt8) :
    Option AddressForm :=
  if rm = 4 then
    match behind with
    | sib :: behind => formSIB size extension mod sib.toNat behind
    | [] => none
  else if mod = 0 ∧ rm = 5 then
    withDisplacementBytes
      { size := size, base := if is64Bit then some (.nextInstruction size) else none } 4 behind
  else
    withDisplacementBytes { size := size, base := some (.general size (rm + 8 * extension.b)) }
      (displacementWidth 4 mod) behind

/-- The memory operand that starts with a ModRM byte. mod 11 is a register, and a gather
takes its index from a SIB byte. -/
def memoryForm (size : Nat) (extension : Extension) : List UInt8 → Option AddressForm
  | [] => none
  | modRM :: behind =>
      let mod := modRM.toNat / 64
      let rm := modRM.toNat % 8
      if mod = 3 ∨ (extension.isGather ∧ (size = 16 ∨ rm ≠ 4)) then none
      else if size = 16 then form16 mod rm behind
      else formModRM is64Bit size extension mod rm behind

/-- The address form of the bytes of an instruction whose opcode takes a ModRM byte. -/
def effectiveForm (bytes : List UInt8) : Option AddressForm :=
  let prefixes := bytes.takeWhile (isPrefixByte is64Bit)
  let size := addressSize is64Bit prefixes
  (behindOpcode is64Bit (rexBits is64Bit prefixes)
    (bytes.dropWhile (isPrefixByte is64Bit))).bind fun opened =>
      memoryForm is64Bit size opened.1 opened.2

end Encoding

end Voidwalk.EffectiveAddress

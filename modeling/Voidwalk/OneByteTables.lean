import Mathlib.Data.List.Basic
import Mathlib.Tactic.Common
import Voidwalk.OpcodeRows

/-!
The tables of the one-byte opcodes: the prefixes, the 256 opcodes, the five
extension groups and the x87 maps.
-/

namespace Voidwalk.OneByteTables

open Voidwalk.OpcodeRows

def buildPrefixes : List (UInt8 × String) :=
  [(0xF0, "LOCK"), (0xF2, "REPNE"), (0xF3, "REP"),
    (0x2E, "CS:"), (0x36, "SS:"), (0x3E, "DS:"), (0x26, "ES:"), (0x64, "FS:"), (0x65, "GS:"),
    (0x66, "OPSIZE"), (0x67, "ADDRSIZE")]

def prefixTable (opcode : UInt8) : String :=
  (buildPrefixes.lookup opcode).getD ""

/-- A legacy prefix: LOCK, REP/REPNE, a segment override, 66 or 67. -/
def isPrefix (opcode : UInt8) : Bool := prefixTable opcode != ""

/-- The general form of a one-byte row: the 32-bit name, the 16-bit name, the
operands and the group number. -/
def pg16 (opcode : Nat) (text text16 : String) (hasRM : Bool) (op1 op2 op3 : TableOperand)
    (group : Int) : Assignment :=
  ⟨opcode, .info
    { text := text, text16 := text16, hasRMByte := hasRM, operands := slots op1 op2 op3,
      groupNumber := group }⟩

def pg (opcode : Nat) (text : String) (hasRM : Bool) (op1 op2 op3 : TableOperand)
    (group : Int) : Assignment :=
  pg16 opcode text "" hasRM op1 op2 op3 group

def p16 (opcode : Nat) (text text16 : String) (hasRM : Bool) (op1 op2 op3 : TableOperand) :
    Assignment :=
  pg16 opcode text text16 hasRM op1 op2 op3 (-1)

def p (opcode : Nat) (text : String) (hasRM : Bool) (op1 op2 op3 : TableOperand) : Assignment :=
  pg16 opcode text "" hasRM op1 op2 op3 (-1)

def inv (opcode : Nat) : Assignment := ⟨opcode, .isInvalid⟩

def t64 (opcode : Nat) (name64 : String) : Assignment := ⟨opcode, .text64 name64⟩

def d64 (opcode : Nat) : Assignment := ⟨opcode, .default64 .d64⟩

def f64 (opcode : Nat) : Assignment := ⟨opcode, .default64 .f64⟩

def opcodeRows : List Assignment :=
  [p 0x00 "ADD" true (op .E .b) (op .G .b) nop,
    p 0x01 "ADD" true (op .E .v) (op .G .v) nop,
    p 0x02 "ADD" true (op .G .b) (op .E .b) nop,
    p 0x03 "ADD" true (op .G .v) (op .E .v) nop,
    p 0x04 "ADD" false (OP .AL .b "AL") (op .I .b) nop,
    p 0x05 "ADD" false (op .eAX .v) (op .I .z) nop,
    p 0x06 "PUSH" false (OP .ES .None "ES") nop nop,
    p 0x07 "POP" false (OP .ES .None "ES") nop nop,
    p 0x08 "OR" true (op .E .b) (op .G .b) nop,
    p 0x09 "OR" true (op .E .v) (op .G .v) nop,
    p 0x0A "OR" true (op .G .b) (op .E .b) nop,
    p 0x0B "OR" true (op .G .v) (op .E .v) nop,
    p 0x0C "OR" false (OP .AL .b "AL") (op .I .b) nop,
    p 0x0D "OR" false (op .eAX .v) (op .I .z) nop,
    p 0x0E "PUSH" false (OP .CS .None "CS") nop nop,
    p 0x0F "2BYTE" false nop nop nop,
    p 0x10 "ADC" true (op .E .b) (op .G .b) nop,
    p 0x11 "ADC" true (op .E .v) (op .G .v) nop,
    p 0x12 "ADC" true (op .G .b) (op .E .b) nop,
    p 0x13 "ADC" true (op .G .v) (op .E .v) nop,
    p 0x14 "ADC" false (OP .AL .b "AL") (op .I .b) nop,
    p 0x15 "ADC" false (op .eAX .v) (op .I .z) nop,
    p 0x16 "PUSH" false (OP .SS .None "SS") nop nop,
    p 0x17 "POP" false (OP .SS .None "SS") nop nop,
    p 0x18 "SBB" true (op .E .b) (op .G .b) nop,
    p 0x19 "SBB" true (op .E .v) (op .G .v) nop,
    p 0x1A "SBB" true (op .G .b) (op .E .b) nop,
    p 0x1B "SBB" true (op .G .v) (op .E .v) nop,
    p 0x1C "SBB" false (OP .AL .b "AL") (op .I .b) nop,
    p 0x1D "SBB" false (op .eAX .v) (op .I .z) nop,
    p 0x1E "PUSH" false (OP .DS .None "DS") nop nop,
    p 0x1F "POP" false (OP .DS .None "DS") nop nop,
    p 0x20 "AND" true (op .E .b) (op .G .b) nop,
    p 0x21 "AND" true (op .E .v) (op .G .v) nop,
    p 0x22 "AND" true (op .G .b) (op .E .b) nop,
    p 0x23 "AND" true (op .G .v) (op .E .v) nop,
    p 0x24 "AND" false (OP .AL .b "AL") (op .I .b) nop,
    p 0x25 "AND" false (op .eAX .v) (op .I .z) nop,
    p 0x26 "ES" false nop nop nop,
    p 0x27 "DAA" false nop nop nop,
    p 0x28 "SUB" true (op .E .b) (op .G .b) nop,
    p 0x29 "SUB" true (op .E .v) (op .G .v) nop,
    p 0x2A "SUB" true (op .G .b) (op .E .b) nop,
    p 0x2B "SUB" true (op .G .v) (op .E .v) nop,
    p 0x2C "SUB" false (OP .AL .b "AL") (op .I .b) nop,
    p 0x2D "SUB" false (op .eAX .v) (op .I .z) nop,
    p 0x2E "CS" false nop nop nop,
    p 0x2F "DAS" false nop nop nop,
    p 0x30 "XOR" true (op .E .b) (op .G .b) nop,
    p 0x31 "XOR" true (op .E .v) (op .G .v) nop,
    p 0x32 "XOR" true (op .G .b) (op .E .b) nop,
    p 0x33 "XOR" true (op .G .v) (op .E .v) nop,
    p 0x34 "XOR" false (OP .AL .b "AL") (op .I .b) nop,
    p 0x35 "XOR" false (op .eAX .v) (op .I .z) nop,
    p 0x36 "SS" false nop nop nop,
    p 0x37 "AAA" false nop nop nop,
    p 0x38 "CMP" true (op .E .b) (op .G .b) nop,
    p 0x39 "CMP" true (op .E .v) (op .G .v) nop,
    p 0x3A "CMP" true (op .G .b) (op .E .b) nop,
    p 0x3B "CMP" true (op .G .v) (op .E .v) nop,
    p 0x3C "CMP" false (OP .AL .b "AL") (op .I .b) nop,
    p 0x3D "CMP" false (op .eAX .v) (op .I .z) nop,
    p 0x3E "DS" false nop nop nop,
    p 0x3F "AAS" false nop nop nop,
    p 0x40 "INC" false (op .eAX .v) nop nop,
    p 0x41 "INC" false (op .eCX .v) nop nop,
    p 0x42 "INC" false (op .eDX .v) nop nop,
    p 0x43 "INC" false (op .eBX .v) nop nop,
    p 0x44 "INC" false (op .eSP .v) nop nop,
    p 0x45 "INC" false (op .eBP .v) nop nop,
    p 0x46 "INC" false (op .eSI .v) nop nop,
    p 0x47 "INC" false (op .eDI .v) nop nop,
    p 0x48 "DEC" false (op .eAX .v) nop nop,
    p 0x49 "DEC" false (op .eCX .v) nop nop,
    p 0x4A "DEC" false (op .eDX .v) nop nop,
    p 0x4B "DEC" false (op .eBX .v) nop nop,
    p 0x4C "DEC" false (op .eSP .v) nop nop,
    p 0x4D "DEC" false (op .eBP .v) nop nop,
    p 0x4E "DEC" false (op .eSI .v) nop nop,
    p 0x4F "DEC" false (op .eDI .v) nop nop,
    p 0x50 "PUSH" false (op .Z .v) nop nop,
    p 0x51 "PUSH" false (op .Z .v) nop nop,
    p 0x52 "PUSH" false (op .Z .v) nop nop,
    p 0x53 "PUSH" false (op .Z .v) nop nop,
    p 0x54 "PUSH" false (op .Z .v) nop nop,
    p 0x55 "PUSH" false (op .Z .v) nop nop,
    p 0x56 "PUSH" false (op .Z .v) nop nop,
    p 0x57 "PUSH" false (op .Z .v) nop nop,
    p 0x58 "POP" false (op .Z .v) nop nop,
    p 0x59 "POP" false (op .Z .v) nop nop,
    p 0x5A "POP" false (op .Z .v) nop nop,
    p 0x5B "POP" false (op .Z .v) nop nop,
    p 0x5C "POP" false (op .Z .v) nop nop,
    p 0x5D "POP" false (op .Z .v) nop nop,
    p 0x5E "POP" false (op .Z .v) nop nop,
    p 0x5F "POP" false (op .Z .v) nop nop,
    p16 0x60 "PUSHAD" "PUSHA" false nop nop nop,
    p16 0x61 "POPAD" "POPA" false nop nop nop,
    p 0x62 "BOUND" true (op .G .v) (op .M .a) nop,
    p 0x63 "ARPL" true (op .E .w) (op .G .w) nop,
    p 0x64 "FS" false nop nop nop,
    p 0x65 "GS" false nop nop nop,
    p 0x66 "OPSIZE" false nop nop nop,
    p 0x67 "ADSIZE" false nop nop nop,
    p 0x68 "PUSH" false (op .I .z) nop nop,
    p 0x69 "IMUL" true (op .G .v) (op .E .v) (op .I .z),
    p 0x6A "PUSH" false (op .I .bs) nop nop,
    p 0x6B "IMUL" true (op .G .v) (op .E .v) (op .I .bs),
    p 0x6C "INSB" false (op .Y .b) (OP .DX .None "DX") nop,
    p16 0x6D "INSD" "INSW" false (op .Y .z) (OP .DX .None "DX") nop,
    p 0x6E "OUTSB" false (OP .DX .None "DX") (op .X .b) nop,
    p16 0x6F "OUTSD" "OUTSW" false (OP .DX .None "DX") (op .X .v) nop,
    p 0x70 "JO" false (op .J .b) nop nop,
    p 0x71 "JNO" false (op .J .b) nop nop,
    p 0x72 "JB" false (op .J .b) nop nop,
    p 0x73 "JNB" false (op .J .b) nop nop,
    p 0x74 "JZ" false (op .J .b) nop nop,
    p 0x75 "JNZ" false (op .J .b) nop nop,
    p 0x76 "JBE" false (op .J .b) nop nop,
    p 0x77 "JA" false (op .J .b) nop nop,
    p 0x78 "JS" false (op .J .b) nop nop,
    p 0x79 "JNS" false (op .J .b) nop nop,
    p 0x7A "JP" false (op .J .b) nop nop,
    p 0x7B "JNP" false (op .J .b) nop nop,
    p 0x7C "JL" false (op .J .b) nop nop,
    p 0x7D "JNL" false (op .J .b) nop nop,
    p 0x7E "JLE" false (op .J .b) nop nop,
    p 0x7F "JNLE" false (op .J .b) nop nop,
    pg 0x80 "GRP1" true (op .E .b) (op .I .b) nop 1,
    pg 0x81 "GRP1" true (op .E .v) (op .I .z) nop 1,
    pg 0x82 "GRP1" true (op .E .b) (op .I .b) nop 1,
    pg 0x83 "GRP1" true (op .E .v) (op .I .bs) nop 1,
    p 0x84 "TEST" true (op .E .b) (op .G .b) nop,
    p 0x85 "TEST" true (op .E .v) (op .G .v) nop,
    p 0x86 "XCHG" true (op .E .b) (op .G .b) nop,
    p 0x87 "XCHG" true (op .E .v) (op .G .v) nop,
    p 0x88 "MOV" true (op .E .b) (op .G .b) nop,
    p 0x89 "MOV" true (op .E .v) (op .G .v) nop,
    p 0x8A "MOV" true (op .G .b) (op .E .b) nop,
    p 0x8B "MOV" true (op .G .v) (op .E .v) nop,
    p 0x8C "MOV" true (op .E .w) (op .S .w) nop,
    p 0x8D "LEA" true (op .G .v) (op .M .None) nop,
    p 0x8E "MOV" true (op .S .w) (op .E .w) nop,
    p 0x8F "POP" true (op .E .v) nop nop,
    p 0x90 "NOP" false nop nop nop,
    p 0x91 "XCHG" false (op .eAX .v) (op .Z .v) nop,
    p 0x92 "XCHG" false (op .eAX .v) (op .Z .v) nop,
    p 0x93 "XCHG" false (op .eAX .v) (op .Z .v) nop,
    p 0x94 "XCHG" false (op .eAX .v) (op .Z .v) nop,
    p 0x95 "XCHG" false (op .eAX .v) (op .Z .v) nop,
    p 0x96 "XCHG" false (op .eAX .v) (op .Z .v) nop,
    p 0x97 "XCHG" false (op .eAX .v) (op .Z .v) nop,
    p16 0x98 "CWDE" "CBW" false nop nop nop,
    p16 0x99 "CDQ" "CWD" false nop nop nop,
    p 0x9A "CALL" false (op .A .p) nop nop,
    p 0x9B "FWAIT" false nop nop nop,
    p16 0x9C "PUSHFD" "PUSHF" false (op .F .v) nop nop,
    p16 0x9D "POPFD" "POPF" false (op .F .v) nop nop,
    p 0x9E "SAHF" false nop nop nop,
    p 0x9F "LAHF" false nop nop nop,
    p 0xA0 "MOV" false (OP .AL .b "AL") (op .O .b) nop,
    p 0xA1 "MOV" false (op .eAX .v) (op .O .v) nop,
    p 0xA2 "MOV" false (op .O .b) (OP .AL .b "AL") nop,
    p 0xA3 "MOV" false (op .O .v) (op .eAX .v) nop,
    p 0xA4 "MOVSB" false (op .Y .b) (op .X .b) nop,
    p16 0xA5 "MOVSD" "MOVSW" false (op .Y .v) (op .X .v) nop,
    p 0xA6 "CMPSB" false (op .X .b) (op .Y .b) nop,
    p16 0xA7 "CMPSD" "CMPSW" false (op .X .v) (op .Y .v) nop,
    p 0xA8 "TEST" false (OP .AL .b "AL") (op .I .b) nop,
    p 0xA9 "TEST" false (op .eAX .v) (op .I .z) nop,
    p 0xAA "STOSB" false (op .Y .b) (OP .AL .b "AL") nop,
    p16 0xAB "STOSD" "STOSW" false (op .Y .v) (op .eAX .v) nop,
    p 0xAC "LODSB" false (OP .AL .b "AL") (op .X .b) nop,
    p16 0xAD "LODSD" "LODSW" false (op .eAX .v) (op .X .v) nop,
    p 0xAE "SCASB" false (OP .AL .b "AL") (op .Y .b) nop,
    p16 0xAF "SCASD" "SCASW" false (op .eAX .v) (op .Y .v) nop,
    p 0xB0 "MOV" false (OP .AL .b "AL") (op .I .b) nop,
    p 0xB1 "MOV" false (OP .CL .b "CL") (op .I .b) nop,
    p 0xB2 "MOV" false (OP .DL .b "DL") (op .I .b) nop,
    p 0xB3 "MOV" false (OP .BL .b "BL") (op .I .b) nop,
    p 0xB4 "MOV" false (OP .AH .b "AH") (op .I .b) nop,
    p 0xB5 "MOV" false (OP .CH .b "CH") (op .I .b) nop,
    p 0xB6 "MOV" false (OP .DH .b "DH") (op .I .b) nop,
    p 0xB7 "MOV" false (OP .BH .b "BH") (op .I .b) nop,
    p 0xB8 "MOV" false (op .Z .v) (op .I .v) nop,
    p 0xB9 "MOV" false (op .Z .v) (op .I .v) nop,
    p 0xBA "MOV" false (op .Z .v) (op .I .v) nop,
    p 0xBB "MOV" false (op .Z .v) (op .I .v) nop,
    p 0xBC "MOV" false (op .Z .v) (op .I .v) nop,
    p 0xBD "MOV" false (op .Z .v) (op .I .v) nop,
    p 0xBE "MOV" false (op .Z .v) (op .I .v) nop,
    p 0xBF "MOV" false (op .Z .v) (op .I .v) nop,
    pg 0xC0 "GRP2" true (op .E .b) (op .I .b) nop 2,
    pg 0xC1 "GRP2" true (op .E .v) (op .I .b) nop 2,
    p 0xC2 "RET" false (op .I .w) nop nop,
    p 0xC3 "RET" false nop nop nop,
    p 0xC4 "LES" true (op .G .v) (op .M .p) nop,
    p 0xC5 "LDS" true (op .G .v) (op .M .p) nop,
    p 0xC6 "MOV" true (op .E .b) (op .I .b) nop,
    p 0xC7 "MOV" true (op .E .v) (op .I .z) nop,
    p 0xC8 "ENTER" false (op .I .w) (op .I .b) nop,
    p 0xC9 "LEAVE" false nop nop nop,
    p 0xCA "RETF" false (op .I .w) nop nop,
    p 0xCB "RETF" false nop nop nop,
    p 0xCC "INT3" false nop nop nop,
    p 0xCD "INT" false (op .I .b) nop nop,
    p 0xCE "INTO" false nop nop nop,
    p16 0xCF "IRETD" "IRET" false nop nop nop,
    pg 0xD0 "GRP2" true (op .E .b) (OP .One .None "1") nop 2,
    pg 0xD1 "GRP2" true (op .E .v) (OP .One .None "1") nop 2,
    pg 0xD2 "GRP2" true (op .E .b) (OP .CL .None "CL") nop 2,
    pg 0xD3 "GRP2" true (op .E .v) (OP .CL .None "CL") nop 2,
    p 0xD4 "AAM" false (op .I .b) nop nop,
    p 0xD5 "AAD" false (op .I .b) nop nop,
    p 0xD6 "SALC" false nop nop nop,
    p 0xD7 "XLAT" false nop nop nop,
    p 0xD8 "ESC" true nop nop nop,
    p 0xD9 "ESC" true nop nop nop,
    p 0xDA "ESC" true nop nop nop,
    p 0xDB "ESC" true nop nop nop,
    p 0xDC "ESC" true nop nop nop,
    p 0xDD "ESC" true nop nop nop,
    p 0xDE "ESC" true nop nop nop,
    p 0xDF "ESC" true nop nop nop,
    p 0xE0 "LOOPNZ" false (op .J .b) nop nop,
    p 0xE1 "LOOPZ" false (op .J .b) nop nop,
    p 0xE2 "LOOP" false (op .J .b) nop nop,
    p 0xE3 "JECXZ" false (op .J .b) nop nop,
    p 0xE4 "IN" false (OP .AL .b "AL") (op .I .b) nop,
    p 0xE5 "IN" false (op .eAX .z) (op .I .b) nop,
    p 0xE6 "OUT" false (op .I .b) (OP .AL .b "AL") nop,
    p 0xE7 "OUT" false (op .I .b) (op .eAX .z) nop,
    p 0xE8 "CALL" false (op .J .v) nop nop,
    p 0xE9 "JMP" false (op .J .v) nop nop,
    p 0xEA "JMP" false (op .A .p) nop nop,
    p 0xEB "JMP" false (op .J .b) nop nop,
    p 0xEC "IN" false (OP .AL .b "AL") (OP .DX .None "DX") nop,
    p 0xED "IN" false (op .eAX .z) (OP .DX .None "DX") nop,
    p 0xEE "OUT" false (OP .DX .None "DX") (OP .AL .b "AL") nop,
    p 0xEF "OUT" false (OP .DX .None "DX") (op .eAX .z) nop,
    p 0xF0 "LOCK" false nop nop nop,
    p 0xF1 "INT1" false nop nop nop,
    p 0xF2 "REPNE" false nop nop nop,
    p 0xF3 "REP" false nop nop nop,
    p 0xF4 "HLT" false nop nop nop,
    p 0xF5 "CMC" false nop nop nop,
    pg 0xF6 "GRP3" true (op .E .b) nop nop 3,
    pg 0xF7 "GRP3" true (op .E .v) nop nop 3,
    p 0xF8 "CLC" false nop nop nop,
    p 0xF9 "STC" false nop nop nop,
    p 0xFA "CLI" false nop nop nop,
    p 0xFB "STI" false nop nop nop,
    p 0xFC "CLD" false nop nop nop,
    p 0xFD "STD" false nop nop nop,
    pg 0xFE "GRP4" true nop nop nop 4,
    pg 0xFF "GRP5" true nop nop nop 5]

/-- The encodings long mode removed, the 64-bit names and the long-mode
default operand sizes, which overwrite single fields. -/
def opcodeRowsLongMode : List Assignment :=
  [inv 0x06, inv 0x07, inv 0x0E, inv 0x16, inv 0x17, inv 0x1E, inv 0x1F, inv 0x27, inv 0x2F,
    inv 0x37, inv 0x3F, inv 0x60, inv 0x61, inv 0x62, inv 0x82, inv 0x9A, inv 0xC4, inv 0xC5,
    inv 0xCE, inv 0xD4, inv 0xD5, inv 0xD6, inv 0xEA, inv 0x40, inv 0x41, inv 0x42, inv 0x43,
    inv 0x44, inv 0x45, inv 0x46, inv 0x47, inv 0x48, inv 0x49, inv 0x4A, inv 0x4B, inv 0x4C,
    inv 0x4D, inv 0x4E, inv 0x4F,
    t64 0x98 "CDQE", t64 0x99 "CQO", t64 0x9C "PUSHFQ", t64 0x9D "POPFQ", t64 0xA5 "MOVSQ",
    t64 0xA7 "CMPSQ", t64 0xAB "STOSQ", t64 0xAD "LODSQ", t64 0xAF "SCASQ", t64 0xCF "IRETQ",
    d64 0x50, d64 0x51, d64 0x52, d64 0x53, d64 0x54, d64 0x55, d64 0x56, d64 0x57, d64 0x58,
    d64 0x59, d64 0x5A, d64 0x5B, d64 0x5C, d64 0x5D, d64 0x5E, d64 0x5F, d64 0x68, d64 0x6A,
    d64 0x8F, d64 0x9C, d64 0x9D, d64 0xC8, d64 0xC9, f64 0xE8, f64 0xE9, f64 0xEB, f64 0xE0,
    f64 0xE1, f64 0xE2, f64 0xE3, f64 0x70, f64 0x71, f64 0x72, f64 0x73, f64 0x74, f64 0x75,
    f64 0x76, f64 0x77, f64 0x78, f64 0x79, f64 0x7A, f64 0x7B, f64 0x7C, f64 0x7D, f64 0x7E,
    f64 0x7F]

def opcodeTable : OpcodeTable 256 := assigned 256 (opcodeRows ++ opcodeRowsLongMode)

def g (reg : Nat) (text : String) (hasRM : Bool) (op1 op2 op3 : TableOperand) (group : Int) :
    Assignment :=
  pg reg text hasRM op1 op2 op3 group

def gt (reg : Nat) (text : String) (group : Int) : Assignment :=
  g reg text true nop nop nop group

def grp1Rows : List Assignment :=
  [gt 0 "ADD" 1, gt 1 "OR" 1, gt 2 "ADC" 1, gt 3 "SBB" 1, gt 4 "AND" 1, gt 5 "SUB" 1,
    gt 6 "XOR" 1, gt 7 "CMP" 1]

def grp1Table : OpcodeTable 8 := assigned 8 grp1Rows

def grp2Rows : List Assignment :=
  [gt 0 "ROL" 2, gt 1 "ROR" 2, gt 2 "RCL" 2, gt 3 "RCR" 2, gt 4 "SHL" 2, gt 5 "SHR" 2,
    gt 6 "SAL" 2, gt 7 "SAR" 2]

def grp2Table : OpcodeTable 8 := assigned 8 grp2Rows

def grp3Rows : List Assignment :=
  [g 0 "TEST" true (op .E .None) (op .I .None) nop 3,
    g 1 "TEST" true (op .E .None) (op .I .None) nop 3, g 2 "NOT" true (op .E .None) nop nop 3,
    g 3 "NEG" true (op .E .None) nop nop 3, g 4 "MUL" true (op .E .None) nop nop 3,
    g 5 "IMUL" true (op .E .None) nop nop 3, g 6 "DIV" true (op .E .None) nop nop 3,
    g 7 "IDIV" true (op .E .None) nop nop 3]

def grp3Table : OpcodeTable 8 := assigned 8 grp3Rows

def grp4Rows : List Assignment :=
  [g 0 "INC" true (op .E .b) nop nop 4, g 1 "DEC" true (op .E .b) nop nop 4]

def grp4Table : OpcodeTable 8 := assigned 8 grp4Rows

def grp5Rows : List Assignment :=
  [g 0 "INC" true (op .E .v) nop nop 5, g 1 "DEC" true (op .E .v) nop nop 5,
    g 2 "CALL" true (op .E .v) nop nop 5, g 3 "CALLF" true (op .M .p) nop nop 5,
    g 4 "JMP" true (op .E .v) nop nop 5, g 5 "JMPF" true (op .M .p) nop nop 5,
    g 6 "PUSH" true (op .E .v) nop nop 5, ⟨2, .default64 .f64⟩, ⟨4, .default64 .f64⟩,
    ⟨6, .default64 .d64⟩]

def grp5Table : OpcodeTable 8 := assigned 8 grp5Rows

def fm (index : Nat) (text : String) : Assignment :=
  ⟨index, .info { text := text, hasRMByte := true, operands := slots (op .M .None) nop nop,
                  groupNumber := -1 }⟩

/-- Memory forms, indexed `(op - 0xD8) * 8 + reg`. -/
def x87MemRows : List Assignment :=
  [fm 0 "FADD", fm 1 "FMUL", fm 2 "FCOM", fm 3 "FCOMP", fm 4 "FSUB", fm 5 "FSUBR", fm 6 "FDIV",
    fm 7 "FDIVR", fm 8 "FLD", fm 10 "FST", fm 11 "FSTP", fm 12 "FLDENV", fm 13 "FLDCW",
    fm 14 "FNSTENV", fm 15 "FNSTCW", fm 16 "FIADD", fm 17 "FIMUL", fm 18 "FICOM", fm 19 "FICOMP",
    fm 20 "FISUB", fm 21 "FISUBR", fm 22 "FIDIV", fm 23 "FIDIVR", fm 24 "FILD", fm 25 "FISTTP",
    fm 26 "FIST", fm 27 "FISTP", fm 29 "FLD", fm 31 "FSTP", fm 32 "FADD", fm 33 "FMUL",
    fm 34 "FCOM", fm 35 "FCOMP", fm 36 "FSUB", fm 37 "FSUBR", fm 38 "FDIV", fm 39 "FDIVR",
    fm 40 "FLD", fm 41 "FISTTP", fm 42 "FST", fm 43 "FSTP", fm 44 "FRSTOR", fm 46 "FNSAVE",
    fm 47 "FNSTSW", fm 48 "FIADD", fm 49 "FIMUL", fm 50 "FICOM", fm 51 "FICOMP", fm 52 "FISUB",
    fm 53 "FISUBR", fm 54 "FIDIV", fm 55 "FIDIVR", fm 56 "FILD", fm 57 "FISTTP", fm 58 "FIST",
    fm 59 "FISTP", fm 60 "FBLD", fm 61 "FILD", fm 62 "FBSTP", fm 63 "FISTP"]

def x87MemTable : OpcodeTable 64 := assigned 64 x87MemRows

def stackRegisters : Vector String 8 :=
  #v["ST(0)", "ST(1)", "ST(2)", "ST(3)", "ST(4)", "ST(5)", "ST(6)", "ST(7)"]

def x87Register (o reg rm : Nat) (text : String) (op1 op2 : TableOperand) : Assignment :=
  ⟨o * 64 + reg * 8 + rm, .info
    { text := text, hasRMByte := true, operands := slots op1 op2 nop, groupNumber := -1 }⟩

def st : Fin 8 → TableOperand := fun _ => OP .ST .None "ST"

def sti : Fin 8 → TableOperand := fun i => OP .ST .None stackRegisters[i]

def row2 (o reg : Nat) (text : String) (p0 p1 : Fin 8 → TableOperand) : List Assignment :=
  (List.finRange 8).map fun i : Fin 8 => x87Register o reg i.val text (p0 i) (p1 i)

def row1 (o reg : Nat) (text : String) (p0 : Fin 8 → TableOperand) : List Assignment :=
  (List.finRange 8).map fun i : Fin 8 => x87Register o reg i.val text (p0 i) nop

def one (o reg rm : Nat) (text : String) : List Assignment :=
  [x87Register o reg rm text nop nop]

/-- Register forms, indexed `(op - 0xD8) * 64 + (ModRM & 0x3F)`. -/
def x87RegRows : List (List Assignment) :=
  [row2 0 0 "FADD" st sti, row2 0 1 "FMUL" st sti, row1 0 2 "FCOM" sti, row1 0 3 "FCOMP" sti,
    row2 0 4 "FSUB" st sti, row2 0 5 "FSUBR" st sti, row2 0 6 "FDIV" st sti,
    row2 0 7 "FDIVR" st sti, row1 1 0 "FLD" sti, row1 1 1 "FXCH" sti, one 1 2 0 "FNOP",
    one 1 4 0 "FCHS", one 1 4 1 "FABS", one 1 4 4 "FTST", one 1 4 5 "FXAM", one 1 5 0 "FLD1",
    one 1 5 1 "FLDL2T", one 1 5 2 "FLDL2E", one 1 5 3 "FLDPI", one 1 5 4 "FLDLG2",
    one 1 5 5 "FLDLN2", one 1 5 6 "FLDZ", one 1 6 0 "F2XM1", one 1 6 1 "FYL2X", one 1 6 2 "FPTAN",
    one 1 6 3 "FPATAN", one 1 6 4 "FXTRACT", one 1 6 5 "FPREM1", one 1 6 6 "FDECSTP",
    one 1 6 7 "FINCSTP", one 1 7 0 "FPREM", one 1 7 1 "FYL2XP1", one 1 7 2 "FSQRT",
    one 1 7 3 "FSINCOS", one 1 7 4 "FRNDINT", one 1 7 5 "FSCALE", one 1 7 6 "FSIN",
    one 1 7 7 "FCOS", row2 2 0 "FCMOVB" st sti, row2 2 1 "FCMOVE" st sti,
    row2 2 2 "FCMOVBE" st sti, row2 2 3 "FCMOVU" st sti, one 2 5 1 "FUCOMPP",
    row2 3 0 "FCMOVNB" st sti, row2 3 1 "FCMOVNE" st sti, row2 3 2 "FCMOVNBE" st sti,
    row2 3 3 "FCMOVNU" st sti, one 3 4 2 "FNCLEX", one 3 4 3 "FNINIT", row2 3 5 "FUCOMI" st sti,
    row2 3 6 "FCOMI" st sti, row2 4 0 "FADD" sti st, row2 4 1 "FMUL" sti st,
    row2 4 4 "FSUBR" sti st, row2 4 5 "FSUB" sti st, row2 4 6 "FDIVR" sti st,
    row2 4 7 "FDIV" sti st, row1 5 0 "FFREE" sti, row1 5 2 "FST" sti, row1 5 3 "FSTP" sti,
    row1 5 4 "FUCOM" sti, row1 5 5 "FUCOMP" sti, row2 6 0 "FADDP" sti st, row2 6 1 "FMULP" sti st,
    one 6 3 1 "FCOMPP", row2 6 4 "FSUBRP" sti st, row2 6 5 "FSUBP" sti st,
    row2 6 6 "FDIVRP" sti st, row2 6 7 "FDIVP" sti st,
    [x87Register 7 4 0 "FNSTSW" (OP .ST .None "AX") nop], row2 7 5 "FUCOMIP" st sti,
    row2 7 6 "FCOMIP" st sti]

def x87RegTable : OpcodeTable 512 := assigned 512 x87RegRows.flatten

end Voidwalk.OneByteTables

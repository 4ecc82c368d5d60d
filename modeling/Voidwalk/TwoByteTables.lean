import Mathlib.Data.List.Basic
import Mathlib.Tactic.Common
import Voidwalk.OpcodeRows

/-!
The tables of the opcodes behind the 0F escape: the plain rows, the rows a
mandatory prefix selects, and the groups.
-/

namespace Voidwalk.TwoByteTables

open Voidwalk.OpcodeRows

def V_ : TableOperand := op .V .None

def W_ : TableOperand := op .W .None

def P_ : TableOperand := op .P .None

def Q_ : TableOperand := op .Q .None

def Ib : TableOperand := op .I .b

def Ev : TableOperand := op .E .v

def Gv : TableOperand := op .G .v

namespace TwoByte

def tg (index : Nat) (text : String) (hasRM : Bool) (op1 op2 op3 : TableOperand)
    (group : Int) : Assignment :=
  ⟨index, .info
    { text := text, hasRMByte := hasRM, operands := slots op1 op2 op3, groupNumber := group }⟩

def t (index : Nat) (text : String) (hasRM : Bool) (op1 op2 op3 : TableOperand) : Assignment :=
  tg index text hasRM op1 op2 op3 (-1)

def vw (index : Nat) (text : String) : Assignment := t index text true V_ W_ nop

def pq (index : Nat) (text : String) : Assignment := t index text true P_ Q_ nop

def t64 (index : Nat) (name64 : String) : Assignment := ⟨index, .text64 name64⟩

def rows : List Assignment :=
  [t 0x0B "UD2" false nop nop nop, t 0x31 "RDTSC" false nop nop nop,
    t 0xA2 "CPUID" false nop nop nop, t 0x05 "SYSCALL" false nop nop nop,
    t 0x07 "SYSRET" false nop nop nop, t 0x34 "SYSENTER" false nop nop nop,
    t 0x35 "SYSEXIT" false nop nop nop, t 0x1F "NOP" true (op .E .v) nop nop,
    t 0x1E "NOP" true (op .E .v) nop nop, t 0xA4 "SHLD" true (op .E .v) (op .G .v) (op .I .b),
    t 0xA5 "SHLD" true (op .E .v) (op .G .v) nop,
    t 0xAC "SHRD" true (op .E .v) (op .G .v) (op .I .b),
    t 0xAD "SHRD" true (op .E .v) (op .G .v) nop, t 0x40 "CMOVO" true (op .G .v) (op .E .v) nop,
    t 0x41 "CMOVNO" true (op .G .v) (op .E .v) nop, t 0x42 "CMOVB" true (op .G .v) (op .E .v) nop,
    t 0x43 "CMOVNB" true (op .G .v) (op .E .v) nop, t 0x44 "CMOVZ" true (op .G .v) (op .E .v) nop,
    t 0x45 "CMOVNZ" true (op .G .v) (op .E .v) nop,
    t 0x46 "CMOVBE" true (op .G .v) (op .E .v) nop, t 0x47 "CMOVA" true (op .G .v) (op .E .v) nop,
    t 0x48 "CMOVS" true (op .G .v) (op .E .v) nop, t 0x49 "CMOVNS" true (op .G .v) (op .E .v) nop,
    t 0x4A "CMOVP" true (op .G .v) (op .E .v) nop, t 0x4B "CMOVNP" true (op .G .v) (op .E .v) nop,
    t 0x4C "CMOVL" true (op .G .v) (op .E .v) nop, t 0x4D "CMOVNL" true (op .G .v) (op .E .v) nop,
    t 0x4E "CMOVLE" true (op .G .v) (op .E .v) nop,
    t 0x4F "CMOVNLE" true (op .G .v) (op .E .v) nop, t 0x80 "JO" false (op .J .z) nop nop,
    t 0x81 "JNO" false (op .J .z) nop nop, t 0x82 "JB" false (op .J .z) nop nop,
    t 0x83 "JNB" false (op .J .z) nop nop, t 0x84 "JZ" false (op .J .z) nop nop,
    t 0x85 "JNZ" false (op .J .z) nop nop, t 0x86 "JBE" false (op .J .z) nop nop,
    t 0x87 "JA" false (op .J .z) nop nop, t 0x88 "JS" false (op .J .z) nop nop,
    t 0x89 "JNS" false (op .J .z) nop nop, t 0x8A "JP" false (op .J .z) nop nop,
    t 0x8B "JNP" false (op .J .z) nop nop, t 0x8C "JL" false (op .J .z) nop nop,
    t 0x8D "JNL" false (op .J .z) nop nop, t 0x8E "JLE" false (op .J .z) nop nop,
    t 0x8F "JNLE" false (op .J .z) nop nop, t 0x90 "SETO" true (op .E .b) nop nop,
    t 0x91 "SETNO" true (op .E .b) nop nop, t 0x92 "SETB" true (op .E .b) nop nop,
    t 0x93 "SETNB" true (op .E .b) nop nop, t 0x94 "SETZ" true (op .E .b) nop nop,
    t 0x95 "SETNZ" true (op .E .b) nop nop, t 0x96 "SETBE" true (op .E .b) nop nop,
    t 0x97 "SETA" true (op .E .b) nop nop, t 0x98 "SETS" true (op .E .b) nop nop,
    t 0x99 "SETNS" true (op .E .b) nop nop, t 0x9A "SETP" true (op .E .b) nop nop,
    t 0x9B "SETNP" true (op .E .b) nop nop, t 0x9C "SETL" true (op .E .b) nop nop,
    t 0x9D "SETNL" true (op .E .b) nop nop, t 0x9E "SETLE" true (op .E .b) nop nop,
    t 0x9F "SETNLE" true (op .E .b) nop nop, t 0xA3 "BT" true (op .E .v) (op .G .v) nop,
    t 0xAB "BTS" true (op .E .v) (op .G .v) nop, t 0xB3 "BTR" true (op .E .v) (op .G .v) nop,
    t 0xBB "BTC" true (op .E .v) (op .G .v) nop, t 0xAF "IMUL" true (op .G .v) (op .E .v) nop,
    t 0xB0 "CMPXCHG" true (op .E .b) (op .G .b) nop,
    t 0xB1 "CMPXCHG" true (op .E .v) (op .G .v) nop, t 0xC0 "XADD" true (op .E .b) (op .G .b) nop,
    t 0xC1 "XADD" true (op .E .v) (op .G .v) nop, t 0xB6 "MOVZX" true (op .G .v) (op .E .b) nop,
    t 0xB7 "MOVZX" true (op .G .v) (op .E .w) nop, t 0xBE "MOVSX" true (op .G .v) (op .E .b) nop,
    t 0xBF "MOVSX" true (op .G .v) (op .E .w) nop, t 0xBC "BSF" true (op .G .v) (op .E .v) nop,
    t 0xBD "BSR" true (op .G .v) (op .E .v) nop, tg 0xBA "GRP8" true (op .E .v) (op .I .b) nop 8,
    t 0xC8 "BSWAP" false (op .Z .v) nop nop, t 0xC9 "BSWAP" false (op .Z .v) nop nop,
    t 0xCA "BSWAP" false (op .Z .v) nop nop, t 0xCB "BSWAP" false (op .Z .v) nop nop,
    t 0xCC "BSWAP" false (op .Z .v) nop nop, t 0xCD "BSWAP" false (op .Z .v) nop nop,
    t 0xCE "BSWAP" false (op .Z .v) nop nop, t 0xCF "BSWAP" false (op .Z .v) nop nop,
    vw 0x10 "MOVUPS", t 0x11 "MOVUPS" true W_ V_ nop, vw 0x12 "MOVLPS",
    t 0x13 "MOVLPS" true W_ V_ nop, vw 0x14 "UNPCKLPS", vw 0x15 "UNPCKHPS", vw 0x16 "MOVHPS",
    t 0x17 "MOVHPS" true W_ V_ nop, vw 0x28 "MOVAPS", t 0x29 "MOVAPS" true W_ V_ nop,
    t 0x2A "CVTPI2PS" true V_ Q_ nop, t 0x2B "MOVNTPS" true W_ V_ nop,
    t 0x2C "CVTTPS2PI" true P_ W_ nop, t 0x2D "CVTPS2PI" true P_ W_ nop, vw 0x2E "UCOMISS",
    vw 0x2F "COMISS", t 0x50 "MOVMSKPS" true (op .G .d) W_ nop, vw 0x51 "SQRTPS",
    vw 0x52 "RSQRTPS", vw 0x53 "RCPPS", vw 0x54 "ANDPS", vw 0x55 "ANDNPS", vw 0x56 "ORPS",
    vw 0x57 "XORPS", vw 0x58 "ADDPS", vw 0x59 "MULPS", vw 0x5A "CVTPS2PD", vw 0x5B "CVTDQ2PS",
    vw 0x5C "SUBPS", vw 0x5D "MINPS", vw 0x5E "DIVPS", vw 0x5F "MAXPS", pq 0x60 "PUNPCKLBW",
    pq 0x61 "PUNPCKLWD", pq 0x62 "PUNPCKLDQ", pq 0x63 "PACKSSWB", pq 0x64 "PCMPGTB",
    pq 0x65 "PCMPGTW", pq 0x66 "PCMPGTD", pq 0x67 "PACKUSWB", pq 0x68 "PUNPCKHBW",
    pq 0x69 "PUNPCKHWD", pq 0x6A "PUNPCKHDQ", pq 0x6B "PACKSSDW",
    t 0x6E "MOVD" true P_ (op .E .v) nop, t64 0x6E "MOVQ", pq 0x6F "MOVQ",
    t 0x70 "PSHUFW" true P_ Q_ (op .I .b), tg 0x71 "GRP12" true Q_ (op .I .b) nop 12,
    tg 0x72 "GRP13" true Q_ (op .I .b) nop 13, tg 0x73 "GRP14" true Q_ (op .I .b) nop 14,
    pq 0x74 "PCMPEQB", pq 0x75 "PCMPEQW", pq 0x76 "PCMPEQD", t 0x7E "MOVD" true (op .E .v) P_ nop,
    t64 0x7E "MOVQ", t 0x7F "MOVQ" true Q_ P_ nop, t 0x77 "EMMS" false nop nop nop,
    t 0x0E "FEMMS" false nop nop nop, tg 0x0D "GRP18" true nop nop nop 18,
    t 0x0F "3DNOW" true P_ Q_ nop, tg 0x18 "GRP16" true nop nop nop 16,
    tg 0xAE "GRP15" true nop nop nop 15, t 0xC2 "CMPPS" true V_ W_ (op .I .b),
    t 0xC3 "MOVNTI" true (op .M .None) (op .G .v) nop,
    t 0xC4 "PINSRW" true P_ (op .E .d) (op .I .b), t 0xC5 "PEXTRW" true (op .G .d) Q_ (op .I .b),
    t 0xC6 "SHUFPS" true V_ W_ (op .I .b), pq 0xD1 "PSRLW", pq 0xD2 "PSRLD", pq 0xD3 "PSRLQ",
    pq 0xD4 "PADDQ", pq 0xD5 "PMULLW", t 0xD7 "PMOVMSKB" true (op .G .d) Q_ nop,
    pq 0xD8 "PSUBUSB", pq 0xD9 "PSUBUSW", pq 0xDA "PMINUB", pq 0xDB "PAND", pq 0xDC "PADDUSB",
    pq 0xDD "PADDUSW", pq 0xDE "PMAXUB", pq 0xDF "PANDN", pq 0xE0 "PAVGB", pq 0xE1 "PSRAW",
    pq 0xE2 "PSRAD", pq 0xE3 "PAVGW", pq 0xE4 "PMULHUW", pq 0xE5 "PMULHW",
    t 0xE7 "MOVNTQ" true Q_ P_ nop, pq 0xE8 "PSUBSB", pq 0xE9 "PSUBSW", pq 0xEA "PMINSW",
    pq 0xEB "POR", pq 0xEC "PADDSB", pq 0xED "PADDSW", pq 0xEE "PMAXSW", pq 0xEF "PXOR",
    pq 0xF1 "PSLLW", pq 0xF2 "PSLLD", pq 0xF3 "PSLLQ", pq 0xF4 "PMULUDQ", pq 0xF5 "PMADDWD",
    pq 0xF6 "PSADBW", pq 0xF7 "MASKMOVQ", pq 0xF8 "PSUBB", pq 0xF9 "PSUBW", pq 0xFA "PSUBD",
    pq 0xFB "PSUBQ", pq 0xFC "PADDB", pq 0xFD "PADDW", pq 0xFE "PADDD"]

end TwoByte

/-- Every row still unnamed takes a ModRM byte, which keeps the sweep aligned
through opcodes the table does not know. -/
def nameUnnamed (row : OpcodeInfo) : OpcodeInfo :=
  if row.text = "" then { row with text := "(bad)", hasRMByte := true } else row

def twoByteTable : OpcodeTable 256 := fun opcode => nameUnnamed (assigned 256 TwoByte.rows opcode)

namespace Prefixed

def slotPrefix : Vector UInt8 3 := #v[0x66, 0xF3, 0xF2]

def r (slot : Fin 3) (index : Nat) (text : String) (op1 op2 op3 : TableOperand) : Assignment :=
  ⟨slot * 256 + index, .info
    { text := text, hasRMByte := true, operands := slots op1 op2 op3, groupNumber := -1,
      mandatoryPrefix := slotPrefix[slot] }⟩

def vw (slot : Fin 3) (index : Nat) (text : String) : Assignment := r slot index text V_ W_ nop

def wv (slot : Fin 3) (index : Nat) (text : String) : Assignment := r slot index text W_ V_ nop

def rows : List Assignment :=
  [vw 0 0x10 "MOVUPD", wv 0 0x11 "MOVUPD", vw 0 0x12 "MOVLPD", wv 0 0x13 "MOVLPD",
    vw 0 0x14 "UNPCKLPD", vw 0 0x15 "UNPCKHPD", vw 0 0x16 "MOVHPD", wv 0 0x17 "MOVHPD",
    vw 0 0x28 "MOVAPD", wv 0 0x29 "MOVAPD", r 0 0x2A "CVTPI2PD" V_ Q_ nop, wv 0 0x2B "MOVNTPD",
    r 0 0x2C "CVTTPD2PI" P_ W_ nop, r 0 0x2D "CVTPD2PI" P_ W_ nop, vw 0 0x2E "UCOMISD",
    vw 0 0x2F "COMISD", r 0 0x50 "MOVMSKPD" (op .G .d) W_ nop, vw 0 0x51 "SQRTPD",
    vw 0 0x54 "ANDPD", vw 0 0x55 "ANDNPD", vw 0 0x56 "ORPD", vw 0 0x57 "XORPD", vw 0 0x58 "ADDPD",
    vw 0 0x59 "MULPD", vw 0 0x5A "CVTPD2PS", vw 0 0x5B "CVTPS2DQ", vw 0 0x5C "SUBPD",
    vw 0 0x5D "MINPD", vw 0 0x5E "DIVPD", vw 0 0x5F "MAXPD", vw 0 0x6C "PUNPCKLQDQ",
    vw 0 0x6D "PUNPCKHQDQ", vw 0 0x6F "MOVDQA", r 0 0x70 "PSHUFD" V_ W_ Ib, wv 0 0x7F "MOVDQA",
    r 0 0xC2 "CMPPD" V_ W_ Ib, r 0 0xC6 "SHUFPD" V_ W_ Ib, wv 0 0xD6 "MOVQ",
    vw 0 0xE6 "CVTTPD2DQ", wv 0 0xE7 "MOVNTDQ", vw 0 0xF7 "MASKMOVDQU", vw 0 0x7C "HADDPD",
    vw 0 0x7D "HSUBPD", vw 0 0xD0 "ADDSUBPD", vw 1 0x10 "MOVSS", wv 1 0x11 "MOVSS",
    vw 1 0x12 "MOVSLDUP", vw 1 0x16 "MOVSHDUP", r 1 0x2A "CVTSI2SS" V_ Ev nop,
    r 1 0x2C "CVTTSS2SI" Gv W_ nop, r 1 0x2D "CVTSS2SI" Gv W_ nop, vw 1 0x51 "SQRTSS",
    vw 1 0x52 "RSQRTSS", vw 1 0x53 "RCPSS", vw 1 0x58 "ADDSS", vw 1 0x59 "MULSS",
    vw 1 0x5A "CVTSS2SD", vw 1 0x5B "CVTTPS2DQ", vw 1 0x5C "SUBSS", vw 1 0x5D "MINSS",
    vw 1 0x5E "DIVSS", vw 1 0x5F "MAXSS", vw 1 0x6F "MOVDQU", r 1 0x70 "PSHUFHW" V_ W_ Ib,
    vw 1 0x7E "MOVQ", wv 1 0x7F "MOVDQU", r 1 0xB8 "POPCNT" Gv Ev nop, r 1 0xBC "TZCNT" Gv Ev nop,
    r 1 0xBD "LZCNT" Gv Ev nop, r 1 0xC2 "CMPSS" V_ W_ Ib, r 1 0xD6 "MOVQ2DQ" V_ Q_ nop,
    vw 1 0xE6 "CVTDQ2PD", vw 2 0x10 "MOVSD", wv 2 0x11 "MOVSD", vw 2 0x12 "MOVDDUP",
    r 2 0x2A "CVTSI2SD" V_ Ev nop, r 2 0x2C "CVTTSD2SI" Gv W_ nop, r 2 0x2D "CVTSD2SI" Gv W_ nop,
    vw 2 0x51 "SQRTSD", vw 2 0x58 "ADDSD", vw 2 0x59 "MULSD", vw 2 0x5A "CVTSD2SS",
    vw 2 0x5C "SUBSD", vw 2 0x5D "MINSD", vw 2 0x5E "DIVSD", vw 2 0x5F "MAXSD",
    r 2 0x70 "PSHUFLW" V_ W_ Ib, r 2 0xC2 "CMPSD" V_ W_ Ib, r 2 0xD6 "MOVDQ2Q" P_ W_ nop,
    vw 2 0xE6 "CVTPD2DQ", vw 2 0xF0 "LDDQU", vw 2 0x7C "HADDPS", vw 2 0x7D "HSUBPS",
    vw 2 0xD0 "ADDSUBPS"]

end Prefixed

/-- The 0F rows a mandatory prefix selects, `slot * 256 + opcode` (0 = 66,
1 = F3, 2 = F2). -/
def prefixedTable : OpcodeTable 768 := assigned 768 Prefixed.rows

namespace Groups

def groupRow (group reg : Nat) (text : String) (op1 : TableOperand) : Assignment :=
  ⟨(group - 8) * 8 + reg, .info
    { text := text, hasRMByte := true, operands := slots op1 nop nop, groupNumber := group }⟩

def gt (group reg : Nat) (text : String) : Assignment := groupRow group reg text nop

def gm (group reg : Nat) (text : String) : Assignment := groupRow group reg text (op .M .None)

def rows : List Assignment :=
  [gt 8 4 "BT", gt 8 5 "BTS", gt 8 6 "BTR", gt 8 7 "BTC", gt 12 2 "PSRLW", gt 12 4 "PSRAW",
    gt 12 6 "PSLLW", gt 13 2 "PSRLD", gt 13 4 "PSRAD", gt 13 6 "PSLLD", gt 14 2 "PSRLQ",
    gt 14 3 "PSRLDQ", gt 14 6 "PSLLQ", gt 14 7 "PSLLDQ", gm 15 0 "FXSAVE", gm 15 1 "FXRSTOR",
    gm 15 2 "LDMXCSR", gm 15 3 "STMXCSR", gm 15 4 "XSAVE", gm 15 5 "XRSTOR", gm 15 6 "XSAVEOPT",
    gm 15 7 "CLFLUSH", gt 17 5 "LFENCE", gt 17 6 "MFENCE", gt 17 7 "SFENCE",
    gm 16 0 "PREFETCHNTA", gm 16 1 "PREFETCHT0", gm 16 2 "PREFETCHT1", gm 16 3 "PREFETCHT2"] ++
  (List.range 4).map (fun r => groupRow 16 (4 + r) "NOP" Ev) ++
  (List.range 8).map (fun r => gm 18 r (if r = 1 then "PREFETCHW" else "PREFETCH")) ++
  [gt 19 2 "VPSRLW", gt 19 4 "VPSRAW", gt 19 6 "VPSLLW", gt 20 2 "VPSRLD", gt 20 4 "VPSRAD",
    gt 20 6 "VPSLLD", gt 21 2 "VPSRLQ", gt 21 3 "VPSRLDQ", gt 21 6 "VPSLLQ", gt 21 7 "VPSLLDQ",
    gm 22 2 "VLDMXCSR", gm 22 3 "VSTMXCSR", gt 23 1 "BLSR", gt 23 2 "BLSMSK", gt 23 3 "BLSI"]

end Groups

/-- The 0F groups, indexed `(groupNumber - 8) * 8 + ModRM.reg`. -/
def twoByteGroupTable : OpcodeTable 128 := assigned 128 Groups.rows

end Voidwalk.TwoByteTables

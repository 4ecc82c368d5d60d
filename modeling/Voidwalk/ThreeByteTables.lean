import Mathlib.Data.List.Basic
import Mathlib.Tactic.Common
import Voidwalk.OpcodeRows

/-!
The tables of the three-byte maps 0F 38 and 0F 3A, of 3DNow! and of the VEX
encodings.
-/

namespace Voidwalk.ThreeByteTables

open Voidwalk.OpcodeRows

def Ib : TableOperand := op .I .b

def Ed : TableOperand := op .E .d

def Ey : TableOperand := op .E .y

namespace ThreeByte

def V_ : TableOperand := op .V .None

def W_ : TableOperand := op .W .None

def XMM0 : TableOperand := OP .ST .None "XMM0"

def pq (map index : Nat) (text : String) (op3 : TableOperand) : Assignment :=
  ⟨(map - 2) * 512 + index, .info
    { text := text, hasRMByte := true, operands := slots (op .P .None) (op .Q .None) op3,
      groupNumber := -1 }⟩

def r (map index : Nat) (text text64 : String) (op1 op2 op3 : TableOperand) : Assignment :=
  ⟨(map - 2) * 512 + 256 + index, .info
    { text := text, hasRMByte := true, operands := slots op1 op2 op3, groupNumber := -1,
      text64 := text64, mandatoryPrefix := 0x66 }⟩

def vw (map index : Nat) (text : String) : Assignment := r map index text "" V_ W_ nop

def vwi (map index : Nat) (text : String) : Assignment := r map index text "" V_ W_ Ib

def rows : List Assignment :=
  [pq 2 0x00 "PSHUFB" nop, pq 2 0x01 "PHADDW" nop, pq 2 0x02 "PHADDD" nop,
    pq 2 0x03 "PHADDSW" nop, pq 2 0x04 "PMADDUBSW" nop, pq 2 0x05 "PHSUBW" nop,
    pq 2 0x06 "PHSUBD" nop, pq 2 0x07 "PHSUBSW" nop, pq 2 0x08 "PSIGNB" nop,
    pq 2 0x09 "PSIGNW" nop, pq 2 0x0A "PSIGND" nop, pq 2 0x0B "PMULHRSW" nop,
    pq 2 0x1C "PABSB" nop, pq 2 0x1D "PABSW" nop, pq 2 0x1E "PABSD" nop, pq 3 0x0F "PALIGNR" Ib,
    r 2 0x10 "PBLENDVB" "" V_ W_ XMM0, r 2 0x14 "BLENDVPS" "" V_ W_ XMM0,
    r 2 0x15 "BLENDVPD" "" V_ W_ XMM0, vw 2 0x17 "PTEST", vw 2 0x20 "PMOVSXBW",
    vw 2 0x21 "PMOVSXBD", vw 2 0x22 "PMOVSXBQ", vw 2 0x23 "PMOVSXWD", vw 2 0x24 "PMOVSXWQ",
    vw 2 0x25 "PMOVSXDQ", vw 2 0x28 "PMULDQ", vw 2 0x29 "PCMPEQQ", vw 2 0x2A "MOVNTDQA",
    vw 2 0x2B "PACKUSDW", vw 2 0x30 "PMOVZXBW", vw 2 0x31 "PMOVZXBD", vw 2 0x32 "PMOVZXBQ",
    vw 2 0x33 "PMOVZXWD", vw 2 0x34 "PMOVZXWQ", vw 2 0x35 "PMOVZXDQ", vw 2 0x38 "PMINSB",
    vw 2 0x39 "PMINSD", vw 2 0x3A "PMINUW", vw 2 0x3B "PMINUD", vw 2 0x3C "PMAXSB",
    vw 2 0x3D "PMAXSD", vw 2 0x3E "PMAXUW", vw 2 0x3F "PMAXUD", vw 2 0x40 "PMULLD",
    vw 2 0x41 "PHMINPOSUW", vwi 3 0x08 "ROUNDPS", vwi 3 0x09 "ROUNDPD", vwi 3 0x0A "ROUNDSS",
    vwi 3 0x0B "ROUNDSD", vwi 3 0x0C "BLENDPS", vwi 3 0x0D "BLENDPD", vwi 3 0x0E "PBLENDW",
    r 3 0x14 "PEXTRB" "" Ed V_ Ib, r 3 0x15 "PEXTRW" "" Ed V_ Ib,
    r 3 0x16 "PEXTRD" "PEXTRQ" Ey V_ Ib, r 3 0x17 "EXTRACTPS" "" Ed V_ Ib,
    r 3 0x20 "PINSRB" "" V_ Ed Ib, vwi 3 0x21 "INSERTPS", r 3 0x22 "PINSRD" "PINSRQ" V_ Ey Ib,
    vwi 3 0x40 "DPPS", vwi 3 0x41 "DPPD", vwi 3 0x42 "MPSADBW", vw 2 0x37 "PCMPGTQ",
    vwi 3 0x60 "PCMPESTRM", vwi 3 0x61 "PCMPESTRI", vwi 3 0x62 "PCMPISTRM", vwi 3 0x63 "PCMPISTRI"]

end ThreeByte

/-- The 0F 38 / 0F 3A rows, `((map - 2) * 2 + slot) * 256 + opcode` with slot
0 = no prefix, 1 = 66. -/
def threeByteTable : OpcodeTable 1024 := assigned 1024 ThreeByte.rows

namespace ThreeDNow

def d (index : Nat) (text : String) : Assignment :=
  ⟨index, .info
    { text := text, hasRMByte := true, operands := slots (op .P .None) (op .Q .None) {},
      groupNumber := -1 }⟩

def rows : List Assignment :=
  [d 0x0C "PI2FW", d 0x0D "PI2FD", d 0x1C "PF2IW", d 0x1D "PF2ID", d 0x8A "PFNACC",
    d 0x8E "PFPNACC", d 0x90 "PFCMPGE", d 0x94 "PFMIN", d 0x96 "PFRCP", d 0x97 "PFRSQRT",
    d 0x9A "PFSUB", d 0x9E "PFADD", d 0xA0 "PFCMPGT", d 0xA4 "PFMAX", d 0xA6 "PFRCPIT1",
    d 0xA7 "PFRSQIT1", d 0xAA "PFSUBR", d 0xAE "PFACC", d 0xB0 "PFCMPEQ", d 0xB4 "PFMUL",
    d 0xB6 "PFRCPIT2", d 0xB7 "PMULHRW", d 0xBB "PSWAPD", d 0xBF "PAVGUSB"]

end ThreeDNow

/-- 3DNow!, keyed by the trailing byte. -/
def threeDNowTable : OpcodeTable 256 := assigned 256 ThreeDNow.rows

namespace Vex

def Vx : TableOperand := op .V .None

def Vdq : TableOperand := op .V .dq

def Wx : TableOperand := op .W .None

def Wdq : TableOperand := op .W .dq

def Hx : TableOperand := op .H .None

def Hdq : TableOperand := op .H .dq

def By : TableOperand := op .H .y

def Gy : TableOperand := op .G .y

def Gd : TableOperand := op .G .d

def Lx : TableOperand := op .L .b

def VSIBx : TableOperand := op .VSIB .None

def rw (slot index : Nat) (text text64 : String) (nds : Bool) (op1 op2 op3 : TableOperand) :
    Assignment :=
  ⟨slot * 256 + index, .info
    { text := text, hasRMByte := true, operands := slots op1 op2 op3, groupNumber := -1,
      text64 := text64, nds := nds }⟩

def r (slot index : Nat) (text : String) (nds : Bool) (op1 op2 op3 : TableOperand) : Assignment :=
  rw slot index text "" nds op1 op2 op3

def rg (slot index : Nat) (group : Int) (op1 op2 op3 : TableOperand) : Assignment :=
  ⟨slot * 256 + index, .info
    { text := "GRP", hasRMByte := true, operands := slots op1 op2 op3, groupNumber := group }⟩

def vhw (slot index : Nat) (text : String) : Assignment := r slot index text true Vx Wx nop

def vhwi (slot index : Nat) (text : String) : Assignment := r slot index text true Vx Wx Ib

def vhws (slot index : Nat) (text : String) : Assignment := r slot index text true Vdq Wdq nop

def vhwc (slot index : Nat) (text : String) : Assignment := r slot index text true Vx Wdq nop

def vw (slot index : Nat) (text : String) : Assignment := r slot index text false Vx Wx nop

def vwi (slot index : Nat) (text : String) : Assignment := r slot index text false Vx Wx Ib

def vws (slot index : Nat) (text : String) : Assignment := r slot index text false Vdq Wdq nop

def vwx (slot index : Nat) (text : String) : Assignment := r slot index text false Vx Wdq nop

def wv (slot index : Nat) (text : String) : Assignment := r slot index text false Wx Vx nop

def fp (index : Nat) (ps pd : String) : Assignment := rw 5 index ps pd true Vx Wx nop

def fs (index : Nat) (ss sd : String) : Assignment := rw 5 index ss sd true Vdq Wdq nop

/-- `VZEROUPPER`, the one VEX row without a ModRM byte. -/
def vzeroupper : Assignment :=
  ⟨0x77, .info { text := "VZEROUPPER", operands := slots nop nop nop, groupNumber := -1 }⟩

def rows : List Assignment :=
  [vw 0 0x10 "VMOVUPS", wv 0 0x11 "VMOVUPS", r 0 0x12 "VMOVLPS" true Vdq Wdq nop,
    r 0 0x13 "VMOVLPS" false Wdq Vdq nop, vhw 0 0x14 "VUNPCKLPS", vhw 0 0x15 "VUNPCKHPS",
    r 0 0x16 "VMOVHPS" true Vdq Wdq nop, r 0 0x17 "VMOVHPS" false Wdq Vdq nop,
    vw 0 0x28 "VMOVAPS", wv 0 0x29 "VMOVAPS", wv 0 0x2B "VMOVNTPS", vws 0 0x2E "VUCOMISS",
    vws 0 0x2F "VCOMISS", r 0 0x50 "VMOVMSKPS" false Gd Wx nop, vw 0 0x51 "VSQRTPS",
    vw 0 0x52 "VRSQRTPS", vw 0 0x53 "VRCPPS", vhw 0 0x54 "VANDPS", vhw 0 0x55 "VANDNPS",
    vhw 0 0x56 "VORPS", vhw 0 0x57 "VXORPS", vhw 0 0x58 "VADDPS", vhw 0 0x59 "VMULPS",
    vwx 0 0x5A "VCVTPS2PD", vw 0 0x5B "VCVTDQ2PS", vhw 0 0x5C "VSUBPS", vhw 0 0x5D "VMINPS",
    vhw 0 0x5E "VDIVPS", vhw 0 0x5F "VMAXPS", vzeroupper, rg 0 0xAE 22 nop nop nop,
    vhwi 0 0xC2 "VCMPPS", vhwi 0 0xC6 "VSHUFPS", vw 1 0x10 "VMOVUPD", wv 1 0x11 "VMOVUPD",
    r 1 0x12 "VMOVLPD" true Vdq Wdq nop, r 1 0x13 "VMOVLPD" false Wdq Vdq nop,
    vhw 1 0x14 "VUNPCKLPD", vhw 1 0x15 "VUNPCKHPD", r 1 0x16 "VMOVHPD" true Vdq Wdq nop,
    r 1 0x17 "VMOVHPD" false Wdq Vdq nop, vw 1 0x28 "VMOVAPD", wv 1 0x29 "VMOVAPD",
    wv 1 0x2B "VMOVNTPD", vws 1 0x2E "VUCOMISD", vws 1 0x2F "VCOMISD",
    r 1 0x50 "VMOVMSKPD" false Gd Wx nop, vw 1 0x51 "VSQRTPD", vhw 1 0x54 "VANDPD",
    vhw 1 0x55 "VANDNPD", vhw 1 0x56 "VORPD", vhw 1 0x57 "VXORPD", vhw 1 0x58 "VADDPD",
    vhw 1 0x59 "VMULPD", r 1 0x5A "VCVTPD2PS" false Vdq Wx nop, vw 1 0x5B "VCVTPS2DQ",
    vhw 1 0x5C "VSUBPD", vhw 1 0x5D "VMINPD", vhw 1 0x5E "VDIVPD", vhw 1 0x5F "VMAXPD",
    vhw 1 0x60 "VPUNPCKLBW", vhw 1 0x61 "VPUNPCKLWD", vhw 1 0x62 "VPUNPCKLDQ",
    vhw 1 0x63 "VPACKSSWB", vhw 1 0x64 "VPCMPGTB", vhw 1 0x65 "VPCMPGTW", vhw 1 0x66 "VPCMPGTD",
    vhw 1 0x67 "VPACKUSWB", vhw 1 0x68 "VPUNPCKHBW", vhw 1 0x69 "VPUNPCKHWD",
    vhw 1 0x6A "VPUNPCKHDQ", vhw 1 0x6B "VPACKSSDW", vhw 1 0x6C "VPUNPCKLQDQ",
    vhw 1 0x6D "VPUNPCKHQDQ", rw 1 0x6E "VMOVD" "VMOVQ" false Vdq Ey nop, vw 1 0x6F "VMOVDQA",
    vwi 1 0x70 "VPSHUFD", rg 1 0x71 19 Hx Wx Ib, rg 1 0x72 20 Hx Wx Ib, rg 1 0x73 21 Hx Wx Ib,
    vhw 1 0x74 "VPCMPEQB", vhw 1 0x75 "VPCMPEQW", vhw 1 0x76 "VPCMPEQD", vhw 1 0x7C "VHADDPD",
    vhw 1 0x7D "VHSUBPD", rw 1 0x7E "VMOVD" "VMOVQ" false Ey Vdq nop, wv 1 0x7F "VMOVDQA",
    vhwi 1 0xC2 "VCMPPD", r 1 0xC4 "VPINSRW" true Vdq Ed Ib, r 1 0xC5 "VPEXTRW" false Gd Wdq Ib,
    vhwi 1 0xC6 "VSHUFPD", vhw 1 0xD0 "VADDSUBPD", vhwc 1 0xD1 "VPSRLW", vhwc 1 0xD2 "VPSRLD",
    vhwc 1 0xD3 "VPSRLQ", vhw 1 0xD4 "VPADDQ", vhw 1 0xD5 "VPMULLW",
    r 1 0xD6 "VMOVQ" false Wdq Vdq nop, r 1 0xD7 "VPMOVMSKB" false Gd Wx nop,
    vhw 1 0xD8 "VPSUBUSB", vhw 1 0xD9 "VPSUBUSW", vhw 1 0xDA "VPMINUB", vhw 1 0xDB "VPAND",
    vhw 1 0xDC "VPADDUSB", vhw 1 0xDD "VPADDUSW", vhw 1 0xDE "VPMAXUB", vhw 1 0xDF "VPANDN",
    vhw 1 0xE0 "VPAVGB", vhwc 1 0xE1 "VPSRAW", vhwc 1 0xE2 "VPSRAD", vhw 1 0xE3 "VPAVGW",
    vhw 1 0xE4 "VPMULHUW", vhw 1 0xE5 "VPMULHW", r 1 0xE6 "VCVTTPD2DQ" false Vdq Wx nop,
    wv 1 0xE7 "VMOVNTDQ", vhw 1 0xE8 "VPSUBSB", vhw 1 0xE9 "VPSUBSW", vhw 1 0xEA "VPMINSW",
    vhw 1 0xEB "VPOR", vhw 1 0xEC "VPADDSB", vhw 1 0xED "VPADDSW", vhw 1 0xEE "VPMAXSW",
    vhw 1 0xEF "VPXOR", vhwc 1 0xF1 "VPSLLW", vhwc 1 0xF2 "VPSLLD", vhwc 1 0xF3 "VPSLLQ",
    vhw 1 0xF4 "VPMULUDQ", vhw 1 0xF5 "VPMADDWD", vhw 1 0xF6 "VPSADBW", vws 1 0xF7 "VMASKMOVDQU",
    vhw 1 0xF8 "VPSUBB", vhw 1 0xF9 "VPSUBW", vhw 1 0xFA "VPSUBD", vhw 1 0xFB "VPSUBQ",
    vhw 1 0xFC "VPADDB", vhw 1 0xFD "VPADDW", vhw 1 0xFE "VPADDD",
    r 2 0x10 "VMOVSS" true Vdq Wdq nop, r 2 0x11 "VMOVSS" true Wdq Vdq nop, vw 2 0x12 "VMOVSLDUP",
    vw 2 0x16 "VMOVSHDUP", r 2 0x2A "VCVTSI2SS" true Vdq Ey nop,
    r 2 0x2C "VCVTTSS2SI" false Gy Wdq nop, r 2 0x2D "VCVTSS2SI" false Gy Wdq nop,
    vhws 2 0x51 "VSQRTSS", vhws 2 0x52 "VRSQRTSS", vhws 2 0x53 "VRCPSS", vhws 2 0x58 "VADDSS",
    vhws 2 0x59 "VMULSS", vhws 2 0x5A "VCVTSS2SD", vw 2 0x5B "VCVTTPS2DQ", vhws 2 0x5C "VSUBSS",
    vhws 2 0x5D "VMINSS", vhws 2 0x5E "VDIVSS", vhws 2 0x5F "VMAXSS", vw 2 0x6F "VMOVDQU",
    vwi 2 0x70 "VPSHUFHW", vws 2 0x7E "VMOVQ", wv 2 0x7F "VMOVDQU",
    r 2 0xC2 "VCMPSS" true Vdq Wdq Ib, vwx 2 0xE6 "VCVTDQ2PD", r 3 0x10 "VMOVSD" true Vdq Wdq nop,
    r 3 0x11 "VMOVSD" true Wdq Vdq nop, vw 3 0x12 "VMOVDDUP",
    r 3 0x2A "VCVTSI2SD" true Vdq Ey nop, r 3 0x2C "VCVTTSD2SI" false Gy Wdq nop,
    r 3 0x2D "VCVTSD2SI" false Gy Wdq nop, vhws 3 0x51 "VSQRTSD", vhws 3 0x58 "VADDSD",
    vhws 3 0x59 "VMULSD", vhws 3 0x5A "VCVTSD2SS", vhws 3 0x5C "VSUBSD", vhws 3 0x5D "VMINSD",
    vhws 3 0x5E "VDIVSD", vhws 3 0x5F "VMAXSD", vwi 3 0x70 "VPSHUFLW", vhw 3 0x7C "VHADDPS",
    vhw 3 0x7D "VHSUBPS", r 3 0xC2 "VCMPSD" true Vdq Wdq Ib, vhw 3 0xD0 "VADDSUBPS",
    r 3 0xE6 "VCVTPD2DQ" false Vdq Wx nop, vw 3 0xF0 "VLDDQU", vhw 5 0x00 "VPSHUFB",
    vhw 5 0x01 "VPHADDW", vhw 5 0x02 "VPHADDD", vhw 5 0x03 "VPHADDSW", vhw 5 0x04 "VPMADDUBSW",
    vhw 5 0x05 "VPHSUBW", vhw 5 0x06 "VPHSUBD", vhw 5 0x07 "VPHSUBSW", vhw 5 0x08 "VPSIGNB",
    vhw 5 0x09 "VPSIGNW", vhw 5 0x0A "VPSIGND", vhw 5 0x0B "VPMULHRSW", vhw 5 0x0C "VPERMILPS",
    vhw 5 0x0D "VPERMILPD", vw 5 0x0E "VTESTPS", vw 5 0x0F "VTESTPD", vhw 5 0x16 "VPERMPS",
    vw 5 0x17 "VPTEST", vwx 5 0x18 "VBROADCASTSS", vwx 5 0x19 "VBROADCASTSD",
    vwx 5 0x1A "VBROADCASTF128", vw 5 0x1C "VPABSB", vw 5 0x1D "VPABSW", vw 5 0x1E "VPABSD",
    vwx 5 0x20 "VPMOVSXBW", vwx 5 0x21 "VPMOVSXBD", vwx 5 0x22 "VPMOVSXBQ",
    vwx 5 0x23 "VPMOVSXWD", vwx 5 0x24 "VPMOVSXWQ", vwx 5 0x25 "VPMOVSXDQ", vhw 5 0x28 "VPMULDQ",
    vhw 5 0x29 "VPCMPEQQ", vw 5 0x2A "VMOVNTDQA", vhw 5 0x2B "VPACKUSDW", vhw 5 0x2C "VMASKMOVPS",
    vhw 5 0x2D "VMASKMOVPD", r 5 0x2E "VMASKMOVPS" true Wx Vx nop,
    r 5 0x2F "VMASKMOVPD" true Wx Vx nop, vwx 5 0x30 "VPMOVZXBW", vwx 5 0x31 "VPMOVZXBD",
    vwx 5 0x32 "VPMOVZXBQ", vwx 5 0x33 "VPMOVZXWD", vwx 5 0x34 "VPMOVZXWQ",
    vwx 5 0x35 "VPMOVZXDQ", vhw 5 0x36 "VPERMD", vhw 5 0x37 "VPCMPGTQ", vhw 5 0x38 "VPMINSB",
    vhw 5 0x39 "VPMINSD", vhw 5 0x3A "VPMINUW", vhw 5 0x3B "VPMINUD", vhw 5 0x3C "VPMAXSB",
    vhw 5 0x3D "VPMAXSD", vhw 5 0x3E "VPMAXUW", vhw 5 0x3F "VPMAXUD", vhw 5 0x40 "VPMULLD",
    vws 5 0x41 "VPHMINPOSUW", rw 5 0x45 "VPSRLVD" "VPSRLVQ" true Vx Wx nop, vhw 5 0x46 "VPSRAVD",
    rw 5 0x47 "VPSLLVD" "VPSLLVQ" true Vx Wx nop, vwx 5 0x58 "VPBROADCASTD",
    vwx 5 0x59 "VPBROADCASTQ", vwx 5 0x5A "VBROADCASTI128", vwx 5 0x78 "VPBROADCASTB",
    vwx 5 0x79 "VPBROADCASTW", rw 5 0x8C "VPMASKMOVD" "VPMASKMOVQ" true Vx Wx nop,
    rw 5 0x8E "VPMASKMOVD" "VPMASKMOVQ" true Wx Vx nop,
    rw 5 0x90 "VPGATHERDD" "VPGATHERDQ" false Vx VSIBx Hx,
    rw 5 0x91 "VPGATHERQD" "VPGATHERQQ" false Vdq VSIBx Hdq,
    rw 5 0x92 "VGATHERDPS" "VGATHERDPD" false Vx VSIBx Hx,
    rw 5 0x93 "VGATHERQPS" "VGATHERQPD" false Vdq VSIBx Hdq,
    fp 0x96 "VFMADDSUB132PS" "VFMADDSUB132PD", fp 0x97 "VFMSUBADD132PS" "VFMSUBADD132PD",
    fp 0x98 "VFMADD132PS" "VFMADD132PD", fs 0x99 "VFMADD132SS" "VFMADD132SD",
    fp 0x9A "VFMSUB132PS" "VFMSUB132PD", fs 0x9B "VFMSUB132SS" "VFMSUB132SD",
    fp 0x9C "VFNMADD132PS" "VFNMADD132PD", fs 0x9D "VFNMADD132SS" "VFNMADD132SD",
    fp 0x9E "VFNMSUB132PS" "VFNMSUB132PD", fs 0x9F "VFNMSUB132SS" "VFNMSUB132SD",
    fp 0xA6 "VFMADDSUB213PS" "VFMADDSUB213PD", fp 0xA7 "VFMSUBADD213PS" "VFMSUBADD213PD",
    fp 0xA8 "VFMADD213PS" "VFMADD213PD", fs 0xA9 "VFMADD213SS" "VFMADD213SD",
    fp 0xAA "VFMSUB213PS" "VFMSUB213PD", fs 0xAB "VFMSUB213SS" "VFMSUB213SD",
    fp 0xAC "VFNMADD213PS" "VFNMADD213PD", fs 0xAD "VFNMADD213SS" "VFNMADD213SD",
    fp 0xAE "VFNMSUB213PS" "VFNMSUB213PD", fs 0xAF "VFNMSUB213SS" "VFNMSUB213SD",
    fp 0xB6 "VFMADDSUB231PS" "VFMADDSUB231PD", fp 0xB7 "VFMSUBADD231PS" "VFMSUBADD231PD",
    fp 0xB8 "VFMADD231PS" "VFMADD231PD", fs 0xB9 "VFMADD231SS" "VFMADD231SD",
    fp 0xBA "VFMSUB231PS" "VFMSUB231PD", fs 0xBB "VFMSUB231SS" "VFMSUB231SD",
    fp 0xBC "VFNMADD231PS" "VFNMADD231PD", fs 0xBD "VFNMADD231SS" "VFNMADD231SD",
    fp 0xBE "VFNMSUB231PS" "VFNMSUB231PD", fs 0xBF "VFNMSUB231SS" "VFNMSUB231SD",
    r 4 0xF2 "ANDN" true Gy Ey nop, rg 4 0xF3 23 By Ey nop, r 4 0xF5 "BZHI" false Gy Ey By,
    r 4 0xF7 "BEXTR" false Gy Ey By, r 5 0xF7 "SHLX" false Gy Ey By,
    r 6 0xF5 "PEXT" true Gy Ey nop, r 6 0xF7 "SARX" false Gy Ey By,
    r 7 0xF5 "PDEP" true Gy Ey nop, r 7 0xF6 "MULX" true Gy Ey nop,
    r 7 0xF7 "SHRX" false Gy Ey By, r 11 0xF0 "RORX" false Gy Ey Ib, vwi 9 0x00 "VPERMQ",
    vwi 9 0x01 "VPERMPD", vhwi 9 0x02 "VPBLENDD", vwi 9 0x04 "VPERMILPS", vwi 9 0x05 "VPERMILPD",
    vhwi 9 0x06 "VPERM2F128", vwi 9 0x08 "VROUNDPS", vwi 9 0x09 "VROUNDPD",
    r 9 0x0A "VROUNDSS" true Vdq Wdq Ib, r 9 0x0B "VROUNDSD" true Vdq Wdq Ib,
    vhwi 9 0x0C "VBLENDPS", vhwi 9 0x0D "VBLENDPD", vhwi 9 0x0E "VPBLENDW",
    vhwi 9 0x0F "VPALIGNR", r 9 0x14 "VPEXTRB" false Ed Vdq Ib,
    r 9 0x15 "VPEXTRW" false Ed Vdq Ib, rw 9 0x16 "VPEXTRD" "VPEXTRQ" false Ey Vdq Ib,
    r 9 0x17 "VEXTRACTPS" false Ed Vdq Ib, r 9 0x18 "VINSERTF128" true Vx Wdq Ib,
    r 9 0x19 "VEXTRACTF128" false Wdq Vx Ib, r 9 0x20 "VPINSRB" true Vdq Ed Ib,
    r 9 0x21 "VINSERTPS" true Vdq Wdq Ib, rw 9 0x22 "VPINSRD" "VPINSRQ" true Vdq Ey Ib,
    r 9 0x38 "VINSERTI128" true Vx Wdq Ib, r 9 0x39 "VEXTRACTI128" false Wdq Vx Ib,
    vhwi 9 0x40 "VDPPS", vhwi 9 0x41 "VDPPD", vhwi 9 0x42 "VMPSADBW", vhwi 9 0x46 "VPERM2I128",
    r 9 0x4A "VBLENDVPS" true Vx Wx Lx, r 9 0x4B "VBLENDVPD" true Vx Wx Lx,
    r 9 0x4C "VPBLENDVB" true Vx Wx Lx, r 9 0x60 "VPCMPESTRM" false Vdq Wdq Ib,
    r 9 0x61 "VPCMPESTRI" false Vdq Wdq Ib, r 9 0x62 "VPCMPISTRM" false Vdq Wdq Ib,
    r 9 0x63 "VPCMPISTRI" false Vdq Wdq Ib]

end Vex

/-- The VEX rows, `((map - 1) * 4 + pp) * 256 + opcode`. -/
def vexTable : OpcodeTable 3072 := assigned 3072 Vex.rows

end Voidwalk.ThreeByteTables

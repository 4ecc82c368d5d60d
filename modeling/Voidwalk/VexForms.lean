import Voidwalk.PrefixEffects
import Voidwalk.RowModes

/-!
The two forms of a VEX prefix: C5 with one payload byte, and C4 with the same fields
spread over two.
-/

namespace Voidwalk.VexForms

open Voidwalk.MappedFile
open Voidwalk.OpcodeRows
open Voidwalk.RowResolution
open Voidwalk.InstructionRendering
open Voidwalk.InstructionDecoding
open Voidwalk.DecodeLineContract
open Voidwalk.SelfDelimiting
open Voidwalk.FileFields
open Voidwalk.PrefixedOpcodes
open Voidwalk.ParallelDecoding
open Voidwalk.PrefixEffects
open Voidwalk.MemoryRows
open Voidwalk.RowModes
open Voidwalk.Library.Bytes
open Voidwalk.Library.CountingReader
open Voidwalk.Library.TwoReaders

section Openers

variable {source : ByteSource} {consumed : Consumed UInt8 15} {is64Bit : Bool}
  {locals : DecodeLocals}

/-- The locals behind a VEX prefix and the opcode. -/
def behindVex (is64Bit : Bool) (locals : DecodeLocals) (currentByte vex1 vex2 opcode : UInt8) :
    DecodeLocals :=
  withOpcode (vexPrefix is64Bit locals currentByte vex1 vex2) opcode

/-- The map that the payload bytes select. -/
def vexMap (currentByte vex1 : UInt8) : UInt8 := if currentByte == 0xC4 then vex1 &&& 0x1F else 1

/-- The bytes behind C4 or C5, up to the opcode. -/
def vexBytes (currentByte vex1 vex2 opcode : UInt8) : List UInt8 :=
  [vex1] ++ (if currentByte = 0xC4 then [vex2] else []) ++ [opcode]

theorem decodeVex_demands (currentByte vex1 vex2 opcode : UInt8)
    (hpayload : currentByte = 0xC4 ∨ vex2 = vex1)
    (hmap : vexMap currentByte vex1 ≠ 0 ∧ vexMap currentByte vex1 ≤ 3) :
    Demands source consumed (decodeVex is64Bit source locals currentByte)
      (vexBytes currentByte vex1 vex2 opcode)
      (behindVex is64Bit locals currentByte vex1 vex2 opcode) := by
  have hknown : ((vexPrefix is64Bit locals currentByte vex1 vex2).simd.map < 1 ||
      (vexPrefix is64Bit locals currentByte vex1 vex2).simd.map > 3) = false := by
    change (vexMap currentByte vex1 < 1 || vexMap currentByte vex1 > 3) = false
    simpa using hmap
  rw [vexBytes, List.append_assoc]
  refine Demands.bind Demands.next fun _ => ?_
  refine @Demands.bind _ _ _ _ _ _ _ _ _ _ _ vex2 _ ?_ fun _ => ?_
  · by_cases hthree : currentByte = 0xC4
    · rw [if_pos hthree, if_pos hthree]
      exact Demands.next
    · rw [if_neg hthree, if_neg hthree, hpayload.resolve_left hthree]
      exact Demands.pure
  · dsimp only
    rw [hknown, ← List.append_nil [opcode]]
    exact Demands.bind Demands.next fun _ => Demands.pure

theorem decodeOpcode_vex {currentByte vex1 vex2 opcode : UInt8}
    (hopens : currentByte = 0xC4 ∨ currentByte = 0xC5)
    (hpayload : currentByte = 0xC4 ∨ vex2 = vex1)
    (hmode : is64Bit = true ∨ 0xC0 ≤ vex1)
    (hmap : vexMap currentByte vex1 ≠ 0 ∧ vexMap currentByte vex1 ≤ 3) :
    Demands source consumed (decodeOpcode is64Bit source (locals, currentByte))
      (vexBytes currentByte vex1 vex2 opcode)
      (behindVex is64Bit locals currentByte vex1 vex2 opcode) := by
  have hvex := @decodeVex_demands source consumed is64Bit locals currentByte vex1 vex2 opcode
    hpayload hmap
  have hescape : currentByte ≠ 0x0F := by
    rcases hopens with rfl | rfl
    · decide
    · decide
  rw [decodeOpcode, if_neg hescape, if_pos hopens, opensVex]
  cases is64Bit with
  | true => exact hvex
  | false =>
      have hbyte : decide (vex1 ≥ 0xC0) = true := by simpa using hmode
      rw [if_neg (by decide), bind_assoc]
      apply Demands.peekBind
      rw [pure_bind, hbyte]
      exact hvex

/-- The bits of a C5 payload, found in the two payload bytes of the C4 form. -/
structure SamePayload (vex1 vex2 payload : UInt8) : Prop where
  map : vex1 &&& 0x1F = 1
  W : vex2 &&& 0x80 = 0
  pp : vex2 &&& 0x03 = payload &&& 0x03
  L : (vex2 >>> 2) &&& (1 : UInt8) = (payload >>> 2) &&& (1 : UInt8)
  vvvv : (~~~vex2 >>> 3) &&& (15 : UInt8) = (~~~payload >>> 3) &&& (15 : UInt8)
  vvvvLegacy : (~~~vex2 >>> 3) &&& (7 : UInt8) = (~~~payload >>> 3) &&& (7 : UInt8)
  rex : (~~~vex1 >>> 5) &&& (7 : UInt8) = (~~~payload >>> 5) &&& (4 : UInt8)

instance (vex1 vex2 payload : UInt8) : Decidable (SamePayload vex1 vex2 payload) :=
  decidable_of_iff
    (vex1 &&& 0x1F = 1 ∧ vex2 &&& 0x80 = 0 ∧ vex2 &&& 0x03 = payload &&& 0x03 ∧
      (vex2 >>> 2) &&& (1 : UInt8) = (payload >>> 2) &&& (1 : UInt8) ∧
      (~~~vex2 >>> 3) &&& (15 : UInt8) = (~~~payload >>> 3) &&& (15 : UInt8) ∧
      (~~~vex2 >>> 3) &&& (7 : UInt8) = (~~~payload >>> 3) &&& (7 : UInt8) ∧
      (~~~vex1 >>> 5) &&& (7 : UInt8) = (~~~payload >>> 5) &&& (4 : UInt8))
    ⟨fun ⟨h₁, h₂, h₃, h₄, h₅, h₆, h₇⟩ => ⟨h₁, h₂, h₃, h₄, h₅, h₆, h₇⟩,
      fun h => ⟨h.1, h.2, h.3, h.4, h.5, h.6, h.7⟩⟩

theorem samePayload :
    ∀ payload, SamePayload ((payload &&& 0x80) ||| 0x61) (payload &&& 0x7F) payload := by
  apply forall_byte
  decide +kernel

/-- The two forms fill the locals alike. -/
theorem behindVex_sameButVex (payload opcode : UInt8) :
    SameButVex (behindVex is64Bit locals 0xC5 payload payload opcode)
      (behindVex is64Bit locals 0xC4 ((payload &&& 0x80) ||| 0x61) (payload &&& 0x7F) opcode) := by
  obtain ⟨hmap, hW, hpp, hL, hvvvv, hvvvv', hrex⟩ := samePayload payload
  have htwo : ((0xC5 : UInt8) == 0xC4) = false := rfl
  constructor
  · simp [behindVex, vexPrefix, withOpcode, htwo, hrex, hW]
  · cases is64Bit with
    | false => simp [behindVex, vexPrefix, withOpcode, htwo, hmap, hpp, hL, hvvvv', hW]
    | true => simp [behindVex, vexPrefix, withOpcode, htwo, hmap, hpp, hL, hvvvv, hW]
  · change (0xC4 : UInt8) = 0 ↔ (0xC5 : UInt8) = 0
    decide
  · rfl
  · rfl

end Openers

/-- The instruction does not run into the limit of 15 bytes. -/
def FitsLimit (is64Bit : Bool) (contents : AddressSpace) (fileOffset vaddr : UInt64) : Prop :=
  ∀ later, decodeInstruction is64Bit vaddr (bytesAt contents fileOffset) .empty ≠
    .error .limitReached later

def isOverlong {α : Type} : EStateM.Result (Stop Thrown) (Consumed UInt8 15) α → Bool
  | .error .limitReached _ => true
  | _ => false

theorem fitsLimit_iff (is64Bit : Bool) (contents : AddressSpace) (fileOffset vaddr : UInt64) :
    FitsLimit is64Bit contents fileOffset vaddr ↔
      isOverlong (decodeInstruction is64Bit vaddr (bytesAt contents fileOffset) .empty) = false := by
  rw [FitsLimit]
  cases decodeInstruction is64Bit vaddr (bytesAt contents fileOffset) .empty with
  | ok locals later => simp [isOverlong]
  | error stop later => cases stop <;> simp [isOverlong]

instance (is64Bit : Bool) (contents : AddressSpace) (fileOffset vaddr : UInt64) :
    Decidable (FitsLimit is64Bit contents fileOffset vaddr) :=
  decidable_of_iff _ (fitsLimit_iff is64Bit contents fileOffset vaddr).symm

section Lines

variable {is64Bit : Bool} {contents other : AddressSpace} {fileOffset otherOffset vaddr : UInt64}
  {prefixes tail : List UInt8} {payload opcode : UInt8}

/-- In legacy mode the payload of the longer form is no ModRM byte of LES either. -/
theorem modRM_of_payload :
    ∀ payload : UInt8, 0xC0 ≤ payload → 0xC0 ≤ (payload &&& 0x80) ||| 0x61 := by
  apply forall_byte
  decide +kernel

theorem withoutTarget_vex {opcode : UInt8} {simd : Simd} (hvex : simd.vex ≠ 0) :
    WithoutTarget is64Bit opcode simd := by
  intro modRM info hinfo
  rw [rowOf, if_pos hvex] at hinfo
  exact (vexResolvedInfo_ne_J opcode modRM simd).of_ok info hinfo

theorem not_isPrefixByte {currentByte : UInt8}
    (hopens : currentByte = 0xC4 ∨ currentByte = 0xC5) : ¬ IsPrefixByte is64Bit currentByte := by
  rcases hopens with rfl | rfl
  · cases is64Bit with
    | false => decide
    | true => decide
  · cases is64Bit with
    | false => decide
    | true => decide

/-- The front of a VEX instruction, run from the start. -/
theorem vexFront_demands {source : ByteSource} {currentByte vex1 vex2 : UInt8}
    (hopens : currentByte = 0xC4 ∨ currentByte = 0xC5)
    (hpayload : currentByte = 0xC4 ∨ vex2 = vex1) (hmode : is64Bit = true ∨ 0xC0 ≤ vex1)
    (hmap : vexMap currentByte vex1 ≠ 0 ∧ vexMap currentByte vex1 ≤ 3)
    (hprefixes : ∀ byte ∈ prefixes, IsPrefixByte is64Bit byte) :
    Demands source .empty (decodePrefixes is64Bit source >>= decodeOpcode is64Bit source)
      (prefixes ++ [currentByte] ++ vexBytes currentByte vex1 vex2 opcode)
      (behindVex is64Bit
        (prefixes.foldl (prefixUpdate is64Bit) { fields := { is64Bit := is64Bit } })
        currentByte vex1 vex2 opcode) :=
  Demands.bind (decodePrefixes_demands hprefixes (not_isPrefixByte hopens)) fun _ =>
    decodeOpcode_vex hopens hpayload hmode hmap

/-- Two fronts that fill the locals alike, the second no shorter, and the same bytes behind. -/
theorem linesMatch_of_fronts {front front' : List UInt8} {locals locals' : DecodeLocals}
    {extra : Nat}
    (hfront : Demands (bytesAt contents fileOffset) .empty
      (decodePrefixes is64Bit (bytesAt contents fileOffset) >>=
        decodeOpcode is64Bit (bytesAt contents fileOffset)) front locals)
    (hfront' : Demands (bytesAt other otherOffset) .empty
      (decodePrefixes is64Bit (bytesAt other otherOffset) >>=
        decodeOpcode is64Bit (bytesAt other otherOffset)) front' locals')
    (hlines : contents.mappedData.drop fileOffset.toNat = front ++ tail)
    (hlines' : other.mappedData.drop otherOffset.toNat = front' ++ tail)
    (hlength : front'.length = front.length + extra) (hpos : 0 < front.length)
    (hsame : SameButVex locals locals') (hvex : locals.simd.vex ≠ 0)
    (hlimit : FitsLimit is64Bit other otherOffset vaddr) :
    LinesMatch is64Bit contents other fileOffset otherOffset vaddr extra := by
  rcases @decodeInstruction_front is64Bit vaddr front' _ _ hfront' (supplies_front hlines') with
    ⟨later', hlater', hrun'⟩ | ⟨-, later', hstop⟩
  · have hroom : later'.length ≤ 15 := later'.length_le
    rcases @decodeInstruction_front is64Bit vaddr front _ _ hfront (supplies_front hlines) with
      ⟨later, hlater, hrun⟩ | ⟨hbeyond, -⟩
    · have hahead := sameAhead_fronts hlines hlines' hlater hlater' hpos (by omega)
      apply @linesMatch_of_matched is64Bit contents other fileOffset otherOffset vaddr later later'
      · omega
      · rw [hrun, hrun']
        apply (decodeAfterOpcode_alike hsame _).matched hahead
        · omega
        · exact Or.inr ⟨hvex, withoutTarget_vex hvex⟩
      · exact Or.inr hlimit
    · omega
  · exact absurd hstop (hlimit later')

/-- C5 and its payload say the same as C4 with map 0F, W, X and B unset. -/
theorem vex_forms_agree (is64Bit : Bool) (contents other : AddressSpace)
    (fileOffset otherOffset vaddr : UInt64) (prefixes tail : List UInt8)
    (payload opcode : UInt8) (hprefixes : ∀ byte ∈ prefixes, byte ∈ legacyPrefixes)
    (hmode : is64Bit = true ∨ 0xC0 ≤ payload)
    (hcontents : contents.mappedData.drop fileOffset.toNat =
      prefixes ++ [0xC5, payload, opcode] ++ tail)
    (hother : other.mappedData.drop otherOffset.toNat =
      prefixes ++ [0xC4, (payload &&& 0x80) ||| 0x61, payload &&& 0x7F, opcode] ++ tail)
    (hlimit : FitsLimit is64Bit other otherOffset vaddr) :
    LinesMatch is64Bit contents other fileOffset otherOffset vaddr 1 := by
  have hbytes : ∀ byte ∈ prefixes, IsPrefixByte is64Bit byte :=
    fun byte hbyte => Or.inl (hprefixes byte hbyte)
  have hmode' := hmode.imp id (modRM_of_payload payload)
  have hmap : vexMap 0xC5 payload = 1 := rfl
  have hmap' : vexMap 0xC4 ((payload &&& 0x80) ||| 0x61) = 1 := (samePayload payload).map
  have hfront := @vexFront_demands is64Bit prefixes opcode (bytesAt contents fileOffset) 0xC5
    payload payload (Or.inr rfl) (Or.inr rfl) hmode (by rw [hmap]; decide) hbytes
  have hfront' := @vexFront_demands is64Bit prefixes opcode (bytesAt other otherOffset) 0xC4
    ((payload &&& 0x80) ||| 0x61) (payload &&& 0x7F) (Or.inl rfl) (Or.inl rfl) hmode'
    (by rw [hmap']; decide) hbytes
  apply @linesMatch_of_fronts _ _ _ _ _ _ tail _ _ _ _ _ hfront hfront'
  · simp [hcontents, vexBytes]
  · simp [hother, vexBytes]
  · simp [vexBytes]
  · simp
  · exact behindVex_sameButVex payload opcode
  · exact (by decide : (0xC5 : UInt8) ≠ 0)
  · exact hlimit

end Lines

/-- `vaddps xmm0, xmm1, xmm2` -/
def shortAddps : AddressSpace where
  mappedData := [0xC5, 0xF0, 0x58, 0xC2]
  fileSize_lt := by decide

def longAddps : AddressSpace where
  mappedData := [0xC4, 0xE1, 0x70, 0x58, 0xC2]
  fileSize_lt := by decide

theorem vex_forms_agree_addps : LinesMatch true shortAddps longAddps 0 0 0x1000 1 :=
  vex_forms_agree true shortAddps longAddps 0 0 0x1000 [] [0xC2] 0xF0 0x58 (by simp) (Or.inl rfl)
    rfl (by decide +kernel) (by decide +kernel)

end Voidwalk.VexForms

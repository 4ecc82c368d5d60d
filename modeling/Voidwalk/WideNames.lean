import Voidwalk.DecodedFields
import Voidwalk.ParallelDecoding
import Voidwalk.RowTexts

/-!
The width in a name and the width of the register beside it: the rows with a name for 64 bits
whose ModRM operand follows the operand size, and the prefix that parts the two.
-/

namespace Voidwalk.WideNames

open Voidwalk.MappedFile
open Voidwalk.OpcodeRows
open Voidwalk.OneByteTables
open Voidwalk.TwoByteTables
open Voidwalk.ThreeByteTables
open Voidwalk.RowResolution
open Voidwalk.InstructionRendering
open Voidwalk.InstructionDecoding
open Voidwalk.DecodeLineContract
open Voidwalk.PrefixedOpcodes
open Voidwalk.EffectiveAddress
open Voidwalk.OpcodeBytes
open Voidwalk.MemoryRows
open Voidwalk.MemoryText
open Voidwalk.MemoryOperand
open Voidwalk.OperandTexts
open Voidwalk.RowKinds
open Voidwalk.RowTexts
open Voidwalk.DecodedFields
open Voidwalk.SelfDelimiting
open Voidwalk.ParallelDecoding
open Voidwalk.Library.Bytes
open Voidwalk.Library.CountingReader

/-- The bytes open a VEX prefix of three bytes with W set. -/
def opensWideVex (is64Bit : Bool) : List UInt8 → Bool
  | first :: vex1 :: vex2 :: _ =>
      first == 0xC4 && isVex is64Bit first [vex1] && 0x80 ≤ vex2.toNat
  | _ => false

section Opcode

variable {source : ByteSource} {consumed : Consumed UInt8 15} {is64Bit : Bool}
  {prefixes opcode : List UInt8} {locals : DecodeLocals}

/-- W is set where the bytes behind the prefixes set it. -/
def WideWhere (is64Bit : Bool) (source : ByteSource) (prefixes opcode : List UInt8)
    (locals : DecodeLocals) : Prop :=
  ∀ behind, Supplies source 0 (prefixes ++ opcode ++ behind) →
    (locals.simd.W ≠ 0 ↔ opensWideVex is64Bit (opcode ++ behind) = true)

theorem opensWideVex_other {first : UInt8} {behind : List UInt8}
    (h : first = 0xC4 → isVex is64Bit first behind = false) :
    opensWideVex is64Bit (first :: behind) = false := by
  rw [opensWideVex.eq_def]
  split
  · rename_i hbytes
    obtain ⟨rfl, rfl⟩ := List.cons.inj hbytes
    rw [Bool.and_eq_false_iff, Bool.and_eq_false_iff]
    by_cases hfirst : first = 0xC4
    · exact Or.inl (Or.inr (h hfirst))
    · exact Or.inl (Or.inl (beq_eq_false_iff_ne.mpr hfirst))
  · rfl

theorem wideWhere_narrow {first : UInt8} {tail : List UInt8} (hW : locals.simd.W = 0)
    (h : ∀ behind, Supplies source 0 (prefixes ++ (first :: tail) ++ behind) → first = 0xC4 →
      isVex is64Bit first (tail ++ behind) = false) :
    WideWhere is64Bit source prefixes (first :: tail) locals := by
  intro behind hsupplies
  have hnarrow : opensWideVex is64Bit (first :: (tail ++ behind)) = false :=
    opensWideVex_other (h behind hsupplies)
  simp [hW, hnarrow]

theorem decodeEscape_wide (hW : locals.simd.W = 0)
    (hconsumed : consumed.symbols = prefixes ++ [0x0F]) :
    Yields source consumed (decodeEscape source locals) fun decoded later =>
      ∃ tail, later.symbols = prefixes ++ 0x0F :: tail ∧
        WideWhere is64Bit source prefixes (0x0F :: tail) decoded := by
  have hwide (tail : List UInt8) (selected : UInt8 × UInt8) (pp : UInt8) :
      WideWhere is64Bit source prefixes (0x0F :: tail)
        { locals with
          fields := { locals.fields with opcode := selected.2 }
          simd := { locals.simd with map := selected.1, pp := pp } } :=
    wideWhere_narrow hW fun _ _ hfirst => absurd hfirst (by decide)
  rw [decodeEscape, escapedOpcode, bind_assoc]
  refine Yields.bind Yields.next fun second later _ hlater => ?_
  rw [hconsumed] at hlater
  split
  · rw [bind_assoc]
    refine Yields.bind Yields.next fun code final _ hfinal => ?_
    rw [hlater] at hfinal
    exact Yields.pure ⟨[second, code], by simpa using hfinal, hwide _ _ _⟩
  · exact Yields.pure ⟨[second], by simpa using hlater, hwide _ (1, second) _⟩

theorem decodeOneByte_wide (hW : locals.simd.W = 0) {first : UInt8}
    (hconsumed : consumed.symbols = prefixes ++ [first])
    (h : ∀ behind, Supplies source 0 (prefixes ++ [first] ++ behind) → first = 0xC4 →
      isVex is64Bit first behind = false) :
    Yields source consumed (decodeOneByte is64Bit locals first) fun decoded later =>
      decoded.fields.isInvalid = true ∨ ∃ tail, later.symbols = prefixes ++ first :: tail ∧
        WideWhere is64Bit source prefixes (first :: tail) decoded := by
  obtain ⟨row, hrow⟩ := opcodeTable.at_eq_ok (i := first.toNat) (Int.natCast_nonneg _)
    (by exact_mod_cast first.toNat_lt)
  rw [decodeOneByte]
  split
  · refine Yields.bind (P := fun _ later => later = consumed) (Yields.attempt hrow rfl) ?_
    rintro row' later - rfl
    split
    · exact Yields.pure (Or.inl rfl)
    · exact Yields.pure (Or.inr ⟨[], hconsumed, wideWhere_narrow hW h⟩)
  · exact Yields.pure (Or.inr ⟨[], hconsumed, wideWhere_narrow hW h⟩)

theorem wide_vex2 (vex2 : UInt8) : (vex2 &&& 0x80 != 0) = decide (0x80 ≤ vex2.toNat) := by
  revert vex2
  exact forall_byte (by decide +kernel)

theorem decodeVex_wide (hlooked : LookedAt is64Bit source consumed true) {first : UInt8}
    (hfirst : first = 0xC4 ∨ first = 0xC5) (hconsumed : consumed.symbols = prefixes ++ [first]) :
    Yields source consumed (decodeVex is64Bit source locals first) fun decoded later =>
      decoded.fields.isInvalid = true ∨ ∃ tail, later.symbols = prefixes ++ first :: tail ∧
        WideWhere is64Bit source prefixes (first :: tail) decoded := by
  rw [decodeVex]
  refine Yields.bind Yields.next fun vex1 later _ hlater => ?_
  rw [hconsumed] at hlater
  rcases hfirst with rfl | rfl
  · rw [if_pos rfl]
    refine Yields.bind Yields.next fun vex2 later' _ hlater' => ?_
    rw [hlater] at hlater'
    dsimp only
    split
    · exact Yields.pure (Or.inl rfl)
    · refine Yields.bind Yields.next fun code final _ hfinal => Yields.pure (Or.inr ?_)
      rw [hlater'] at hfinal
      refine ⟨[vex1, vex2, code], by simpa using hfinal, fun behind hsupplies => ?_⟩
      have hvex : isVex is64Bit 0xC4 (vex1 :: (vex2 :: code :: behind)) = true :=
        hlooked.isVex_eq (Or.inl rfl) hconsumed (by simpa using hsupplies)
      have hopens : isVex is64Bit 0xC4 [vex1] = true := hvex
      simp [opensWideVex, vexPrefix, hopens, wide_vex2]
  · rw [if_neg (by decide), pure_bind]
    dsimp only
    split
    · exact Yields.pure (Or.inl rfl)
    · refine Yields.bind Yields.next fun code final _ hfinal => Yields.pure (Or.inr ?_)
      rw [hlater] at hfinal
      refine ⟨[vex1, code], by simpa using hfinal, wideWhere_narrow rfl fun _ _ hfirst => ?_⟩
      exact absurd hfirst (by decide)

theorem decodeOpcode_wide {prefixed : DecodeLocals × UInt8}
    (h : Prefixed is64Bit prefixes prefixed.1)
    (hconsumed : consumed.symbols = prefixes ++ [prefixed.2]) :
    Yields source consumed (decodeOpcode is64Bit source prefixed) fun decoded later =>
      decoded.fields.isInvalid = true ∨ ∃ tail, later.symbols = prefixes ++ prefixed.2 :: tail ∧
        WideWhere is64Bit source prefixes (prefixed.2 :: tail) decoded := by
  obtain ⟨locals, first⟩ := prefixed
  have hW : locals.simd.W = 0 := by
    rw [h.simd]
  rw [decodeOpcode]
  split
  · rename_i hescape
    obtain rfl : first = 0x0F := hescape
    exact (decodeEscape_wide hW hconsumed).mono fun _ _ _ hdecoded => Or.inr hdecoded
  split
  · rename_i hfirst
    refine Yields.bind opensVex_lookedAt fun opens later _ hlooked => ?_
    obtain ⟨rfl, hlooked⟩ := hlooked
    cases opens with
    | true => exact decodeVex_wide hlooked hfirst hconsumed
    | false =>
        refine decodeOneByte_wide hW hconsumed fun behind hsupplies _ => ?_
        exact hlooked.isVex_false hfirst hconsumed hsupplies
  · rename_i hfirst
    refine decodeOneByte_wide hW hconsumed fun behind _ hC4 => ?_
    exact absurd (Or.inl hC4) hfirst

end Opcode

section Rows

/-- A name for 64 bits stands beside another name, in a row without a group. -/
def WideNamed (info : OpcodeInfo) : Prop :=
  info.text64 = "" ∨
    (info.groupNumber ≤ 0 ∧ info.text64 ∉ info.text :: info.text16 :: formNames ∧
      info.text ∉ ["", "(bad)"])

instance (info : OpcodeInfo) : Decidable (WideNamed info) := inferInstanceAs (Decidable (_ ∨ _))

def WideUpdate : RowUpdate → Prop
  | .info row => WideNamed row
  | .text64 _ => False
  | _ => True

instance (update : RowUpdate) : Decidable (WideUpdate update) :=
  match update with
  | .info row => inferInstanceAs (Decidable (WideNamed row))
  | .text64 _ => instDecidableFalse
  | .isInvalid => instDecidableTrue
  | .default64 _ => instDecidableTrue

/-- A name for 64 bits is assigned to the rows `indexes` only, which are looked at. -/
theorem assigned_wide {n : Nat} {assignments : List Assignment} (indexes : List Nat)
    (hrows : ∀ assignment ∈ assignments, assignment.index ∉ indexes → WideUpdate assignment.update)
    (hnamed : ∀ i : Fin n, i.val ∈ indexes → WideNamed (assigned n assignments i)) (i : Fin n) :
    WideNamed (assigned n assignments i) := by
  by_cases hi : i.val ∈ indexes
  · exact hnamed i hi
  refine assigned_induction WideNamed n assignments i (Or.inl rfl) ?_
  rintro ⟨index, update⟩ hassignment rfl info hinfo
  have hupdate := hrows _ hassignment hi
  cases update with
  | info row => exact hupdate
  | isInvalid => exact hinfo
  | text64 name => exact hupdate.elim
  | default64 mode => exact hinfo

theorem WideNamed.merge {outer entry : OpcodeInfo} (hgroup : 0 < outer.groupNumber)
    (houter : WideNamed outer) (hentry : WideNamed entry) : WideNamed (merge outer entry) := by
  have hnone : outer.text64 = "" := houter.resolve_right fun h => absurd h.1 (by omega)
  rw [RowResolution.merge]
  split
  · exact hentry
  · exact Or.inl hnone

theorem WideNamed.renamed {row : OpcodeInfo} (h : WideNamed row) {name : String}
    (hname : name ∈ formNames) : WideNamed { row with text := name } := by
  rcases h with hnone | ⟨hgroup, hothers, -⟩
  · exact Or.inl hnone
  refine Or.inr ⟨hgroup, ?_, ?_⟩
  · rw [List.mem_cons, not_or] at hothers ⊢
    refine ⟨?_, hothers.2⟩
    intro hsame
    exact hothers.2 (List.mem_cons_of_mem _ (hsame ▸ hname))
  · have hnamed : ∀ name ∈ formNames, name ∉ ["", "(bad)"] := by decide +kernel
    exact hnamed name hname

theorem wideNamed_rowKind : RowKind WideNamed where
  opcodeTable := assigned_wide [152, 153, 156, 157, 165, 167, 171, 173, 175, 207]
    (by decide +kernel) (by decide +kernel)
  twoByteTable i := by
    have h := @assigned_wide 256 TwoByte.rows [110, 126] (by decide +kernel) (by decide +kernel) i
    rw [twoByteTable, nameUnnamed]
    split
    · rename_i hunnamed
      exact Or.inl (h.resolve_right fun hnamed => hnamed.2.2 (by simp [hunnamed]))
    · exact h
  prefixedTable := assigned_wide [] (by decide +kernel) (by simp)
  twoByteGroupTable := assigned_wide [] (by decide +kernel) (by simp)
  threeByteTable := assigned_wide [] (by decide +kernel) (by simp)
  threeDNowTable := assigned_wide [] (by decide +kernel) (by simp)
  vexTable := assigned_wide [] (by decide +kernel) (by simp)
  x87MemTable := assigned_wide [] (by decide +kernel) (by simp)
  x87RegTable := assigned_wide [] (by decide +kernel) (by simp)
  grpTable := by decide +kernel
  formRow := by decide +kernel
  merge _ _ hgroup houter hentry := houter.merge hgroup hentry
  sse2Twin row h := by
    rw [RowResolution.sse2Twin]
    split
    · exact h
    · exact h
  renamed _ hname _ h := h.renamed hname
  withoutNds _ h := h
  gatherResized opcode simd row h := by
    rw [RowResolution.gatherResized]
    split
    · split
      · exact h
      · exact h
    · exact h

theorem text64_jump (modRM : UInt8) (is64Bit : Bool) :
    Ensures (resolvedInfo 0xE3 modRM is64Bit) fun row => row.text64 = "" := by
  rw [resolvedInfo, if_neg (by decide), if_neg (by cases is64Bit <;> decide), if_neg (by simp)]
  have hrow : ∀ slot : Fin 256, slot.val = 0xE3 →
      (opcodeTable slot).text64 = "" ∧ (opcodeTable slot).groupNumber ≤ 0 := by
    intro slot hslot
    obtain rfl : slot = ⟨0xE3, by decide⟩ := Fin.ext hslot
    decide +kernel
  refine Ensures.bind (P := fun row => row.text64 = "" ∧ row.groupNumber ≤ 0)
    (Ensures.at fun slot hslot => hrow slot (Int.ofNat_inj.mp hslot)) ?_
  rintro row ⟨hnone, hgroup⟩
  rw [if_neg (by omega)]
  exact Ensures.pure hnone

end Rows

/-- The operand is a general register or memory in the operand size. -/
def isSized (operand : TableOperand) : Bool :=
  operand.addressingMode == .E && (operand.size == .v || operand.size == .y)

/-- The row has the name `name64` for 64 bits, and the operand of ModRM.rm at `place` follows
the operand size. -/
structure HasSized (name64 : String) (place : Nat) (isRegister : Bool) (locals : DecodeLocals) :
    Prop where
  text64 : locals.fields.info.text64 = name64 ∧ name64 ≠ ""
  operand : (operandList locals.fields.info)[place]?.any isSized = true
  register : isRegister = decide (locals.fields.mod = 3)

instance (name64 : String) (place : Nat) (isRegister : Bool) (locals : DecodeLocals) :
    Decidable (HasSized name64 place isRegister locals) :=
  decidable_of_iff
    ((locals.fields.info.text64 = name64 ∧ name64 ≠ "") ∧
      (operandList locals.fields.info)[place]?.any isSized = true ∧
      isRegister = decide (locals.fields.mod = 3))
    ⟨fun h => ⟨h.1, h.2.1, h.2.2⟩, fun h => ⟨h.1, h.2, h.3⟩⟩

/-- Beside a register the name for 64 bits is shown if and only if a register of 64 bits is,
and legacy mode never shows it. -/
structure WidthAgrees (is64Bit : Bool) (name64 : String) (place : Nat) (isRegister : Bool)
    (text : List Char) : Prop where
  register : isRegister = true → (shownName text = name64.toList ↔
    ∃ name ∈ names64, (operandTexts text)[place]? = some name.toList)
  legacy : is64Bit = false → shownName text ≠ name64.toList

section Text

variable {is64Bit : Bool} {opened named decoded : DecodeLocals} {name64 : String} {place : Nat}
  {isRegister : Bool}

theorem names64_registerOf {number width : Nat} (hnumber : number < 16)
    (hwidth : width = 16 ∨ width = 32 ∨ width = 64) (hasREX : Bool) :
    registerOf number width hasREX ∈ names64 ↔ width = 64 := by
  have h : ∀ width ∈ [16, 32, 64], ∀ (number : Fin 16) (hasREX : Bool),
      registerOf number width hasREX ∈ names64 ↔ width = 64 := by
    decide +kernel
  exact h width (by simpa using hwidth) ⟨number, hnumber⟩ hasREX

theorem widthOf_sized {fields : Fields} {operand : TableOperand} (hsized : isSized operand = true)
    (hopSize : fields.opSize = 16 ∨ fields.opSize = 32 ∨ fields.opSize = 64) :
    (widthOf fields operand.size = 16 ∨ widthOf fields operand.size = 32 ∨
      widthOf fields operand.size = 64) ∧
    (widthOf fields operand.size = 64 ↔ fields.opSize = 64) := by
  obtain ⟨-, hsize⟩ : operand.addressingMode = .E ∧ (operand.size = .v ∨ operand.size = .y) := by
    simpa [isSized] using hsized
  rcases hsize with hsize | hsize
  · rw [hsize]
    exact ⟨hopSize, Iff.rfl⟩
  · rw [hsize, widthOf]
    split
    · simp_all
    · simp_all

/-- Any row with a name for 64 bits shows it at 64 bits and under W. -/
theorem mnemonicOf_wide (h : Decoded is64Bit opened named decoded)
    (hname64 : decoded.fields.info.text64 ≠ "") :
    mnemonicOf decoded.fields decoded.simd = decoded.fields.info.text64 ↔
      decoded.fields.opSize = 64 ∨ opened.simd.W ≠ 0 := by
  obtain ⟨modRM, row, hfound⟩ := h.found
  have hinfo : decoded.fields.info = named.fields.info := (congrArg Fields.info h.fields :)
  have hopcode : decoded.fields.opcode = opened.fields.opcode :=
    Eq.trans (congrArg Fields.opcode h.fields :) hfound.fields_eq.1
  obtain ⟨hW, -, hmap, -⟩ := hfound.simd_eq
  have hjump : ¬ (decoded.simd.map = 0 ∧ decoded.fields.opcode = 0xE3) := by
    rintro ⟨hmap0, hcode⟩
    rw [h.simd, hmap] at hmap0
    rw [hopcode] at hcode
    have hvex : opened.simd.vex = 0 := by
      by_contra hvex
      have hpos := h.knownMap.map_pos hvex
      rw [hmap0] at hpos
      exact absurd hpos (by decide)
    have hrow : named.fields.info = row := by
      refine hfound.info.resolve_right ?_
      rintro ⟨-, hmap1, -⟩
      exact absurd (hmap0.symm.trans hmap1) (by decide)
    have hresolved := hfound.rowOf_eq
    rw [rowOf, if_neg (by simp [hvex]), if_pos hmap0, hcode] at hresolved
    apply hname64
    rw [hinfo, hrow]
    exact (text64_jump _ _).of_ok row hresolved
  obtain ⟨-, hothers, -⟩ := (h.rowKind wideNamed_rowKind).resolve_left hname64
  rw [List.mem_cons, List.mem_cons, not_or, not_or] at hothers
  rw [mnemonicOf, if_neg hjump, h.simd, hW]
  by_cases hwide : decoded.fields.opSize = 64 ∨ opened.simd.W ≠ 0
  · rw [if_pos ⟨hwide, hname64⟩]
    exact iff_of_true rfl hwide
  · rw [if_neg (fun hboth => hwide hboth.1)]
    refine iff_of_false ?_ hwide
    split
    · exact fun hsame => hothers.2.1 hsame.symm
    · exact fun hsame => hothers.1 hsame.symm

/-- The name and the register agree unless legacy mode reads W. -/
theorem widthAgrees_iff {instruction : Instruction} (h : Decoded is64Bit opened named decoded)
    (hsized : HasSized name64 place isRegister decoded) (bytes : Consumed UInt8 15)
    (hinstruction : x86_64 { decoded.fields with bytes := bytes } decoded.simd = .ok instruction) :
    WidthAgrees is64Bit name64 place isRegister instruction.instructionText.toList ↔
      ¬ (is64Bit = false ∧ opened.simd.W ≠ 0) := by
  obtain ⟨⟨rfl, hname64⟩, hoperand, hregister⟩ := hsized
  obtain ⟨modRM, row, hfound⟩ := h.found
  have hfields : decoded.fields.opSize = named.fields.opSize ∧
      decoded.fields.rm = named.fields.rm ∧ decoded.fields.isInvalid = named.fields.isInvalid :=
    ⟨(congrArg Fields.opSize h.fields :), (congrArg Fields.rm h.fields :),
      (congrArg Fields.isInvalid h.fields :)⟩
  obtain ⟨hcases, hlong, hlegacy⟩ := hfound.opSize_cases h.extended
  rw [← hfields.1] at hcases hlong hlegacy
  have hgood : isBad { decoded.fields with bytes := bytes } = false := by
    obtain ⟨-, -, hnamed⟩ := (h.rowKind wideNamed_rowKind).resolve_left hname64
    rw [List.mem_cons, List.mem_singleton, not_or] at hnamed
    have hvalid : decoded.fields.isInvalid = false :=
      hfields.2.2.trans (hfound.fields_eq.2.2.2.1.trans h.isInvalid)
    rw [isBad, hvalid, beq_eq_false_iff_ne.mpr hnamed.1, beq_eq_false_iff_ne.mpr hnamed.2]
    rfl
  obtain ⟨hname, htexts⟩ := instructionText_spelled hinstruction hgood (h.rowKind spelled_rowKind)
  have hshown : shownName instruction.instructionText.toList = decoded.fields.info.text64.toList ↔
      decoded.fields.opSize = 64 ∨ opened.simd.W ≠ 0 := by
    rw [hname, String.toList_inj]
    exact mnemonicOf_wide h hname64
  have hprinted (hmod : decoded.fields.mod = 3) :
      (∃ name ∈ names64, (operandTexts instruction.instructionText.toList)[place]? =
        some name.toList) ↔ decoded.fields.opSize = 64 := by
    obtain ⟨operand, hplace, hoperandSized⟩ := (Option.any_eq_true _ _).mp hoperand
    have hmode : operand.addressingMode = .E := by
      simp only [isSized, Bool.and_eq_true, beq_iff_eq] at hoperandSized
      exact hoperandSized.1
    have hplaced : (textsOf { decoded.fields with bytes := bytes } decoded.simd)[place]? =
        some (registerName decoded.fields decoded.fields.rm
          (widthOf decoded.fields operand.size)) := by
      rw [textsOf, getElem?_printedTexts, hplace, Option.map_some,
        operandText_general _ _ (Or.inl hmode), if_pos hmod]
      rfl
    obtain ⟨hwidths, hwidth⟩ := widthOf_sized hoperandSized hcases
    have hnumber : decoded.fields.rm.toNat < 16 := by
      have hlt := (hfound.modRM_lt h.extended).2
      rw [← hfields.2.1] at hlt
      exact hlt.trans_le (by cases is64Bit <;> decide)
    rw [registerName] at hplaced
    rw [htexts (texts_ne hplaced (names_registerOf hnumber hwidths _).ne_empty),
      List.getElem?_map, hplaced, Option.map_some, ← hwidth,
      ← names64_registerOf hnumber hwidths (decoded.fields.rexPrefix != 0)]
    constructor
    · rintro ⟨name, hname, hsame⟩
      rwa [String.toList_inj.mp (Option.some.inj hsame)]
    · exact fun hname => ⟨_, hname, rfl⟩
  constructor
  · rintro hagrees ⟨rfl, hW⟩
    exact hagrees.legacy rfl (hshown.mpr (Or.inr hW))
  · intro hnarrow
    constructor
    · intro htaken
      rw [hshown, hprinted (by simpa [htaken] using hregister.symm)]
      refine or_iff_left_of_imp fun hW => ?_
      cases is64Bit with
      | true => exact hlong rfl hW
      | false => exact absurd ⟨rfl, hW⟩ hnarrow
    · rintro rfl
      rw [Ne, hshown, not_or]
      exact ⟨hlegacy rfl, fun hW => hnarrow ⟨rfl, hW⟩⟩

end Text

section Lines

variable {is64Bit : Bool} {contents : AddressSpace} {fileOffset vaddr nextOffset : UInt64}
  {store : InstructionStore} {row : Instruction}

/-- What the opcode leaves behind, read off the bytes of the file. -/
def OpenedWide (is64Bit : Bool) (source : ByteSource) (opened : DecodeLocals)
    (middle : Consumed UInt8 15) : Prop :=
  ∃ prefixes first tail, middle.symbols = prefixes ++ first :: tail ∧
    (∀ byte ∈ prefixes, isPrefixByte is64Bit byte = true) ∧ isPrefixByte is64Bit first = false ∧
      WideWhere is64Bit source prefixes (first :: tail) opened

theorem OpenedWide.wide_iff {opened : DecodeLocals} {middle : Consumed UInt8 15}
    (h : OpenedWide is64Bit (bytesAt contents fileOffset) opened middle) {behind : List UInt8}
    (hcontents : contents.mappedData.drop fileOffset.toNat = middle.symbols ++ behind) :
    opened.simd.W ≠ 0 ↔ opensWideVex is64Bit
      ((contents.mappedData.drop fileOffset.toNat).dropWhile (isPrefixByte is64Bit)) = true := by
  obtain ⟨prefixes, first, tail, hmiddle, hprefixes, hfirst, hwide⟩ := h
  rw [hmiddle] at hcontents
  have hdrop : (contents.mappedData.drop fileOffset.toNat).dropWhile (isPrefixByte is64Bit) =
      (first :: tail) ++ behind := by
    rw [hcontents, List.append_assoc, List.dropWhile_append_of_pos hprefixes, List.cons_append,
      List.dropWhile_cons_of_neg (by simp [hfirst])]
  rw [hdrop]
  apply hwide behind
  apply @supplies_front contents fileOffset _ []
  rw [hcontents, List.append_nil]

/-- Beside a register the name for 64 bits agrees with the register, unless legacy mode reads
the bit W of a VEX prefix. -/
theorem wide_names_agree (is64Bit : Bool) (contents : AddressSpace)
    (fileOffset vaddr : UInt64) (store : InstructionStore) (nextOffset : UInt64)
    (row : Instruction) (name64 : String) (place : Nat) (isRegister : Bool)
    (h : Appends store (decodeLine is64Bit contents fileOffset vaddr store) nextOffset row)
    (hsized : Decodes is64Bit contents fileOffset vaddr (HasSized name64 place isRegister)) :
    WidthAgrees is64Bit name64 place isRegister row.instructionText.toList ↔
      ¬ (is64Bit = false ∧ opensWideVex is64Bit
        ((contents.mappedData.drop fileOffset.toNat).dropWhile (isPrefixByte is64Bit)) = true) := by
  obtain ⟨locals, later, hrun, hsized⟩ := hsized
  obtain ⟨hdrawn, hbytes, hinstruction⟩ := decoded_of_appends h hrun
  have hdecoded := (@decodeInstruction_decoded (bytesAt contents fileOffset) is64Bit vaddr
    (OpenedWide is64Bit (bytesAt contents fileOffset)) (fun _ _ _ _ => True) ?_ ?_).settled
    (Drawn.empty _)
  · rw [hrun] at hdecoded
    rcases hdecoded.2.2 with ⟨-, hextended⟩ | ⟨opened, middle, named, -, hopened, hrest, hvalid, -⟩
    · refine absurd ?_ hsized.text64.2
      rw [← hsized.text64.1, hextended.fields_eq]
    · obtain ⟨rest, hrest⟩ := hrest
      rw [widthAgrees_iff hvalid hsized later hinstruction]
      have hcontents : contents.mappedData.drop fileOffset.toNat = middle.symbols ++ (rest ++
          (contents.mappedData.drop fileOffset.toNat).drop
            (nextOffset.toNat - fileOffset.toNat)) := by
        rw [← List.append_assoc, hrest, hbytes, instructionBytes, List.take_append_drop]
      exact not_congr (and_congr_right fun _ => hopened.wide_iff hcontents)
  · intro prefixes prefixed consumed hconsumed hprefixed hprefixes hfirst
    refine (decodeOpcode_wide hprefixed hconsumed).mono fun opened middle _ hopened => ?_
    rcases hopened with hinvalid | hopened
    · exact Or.inl hinvalid
    · obtain ⟨tail, hmiddle, hwide⟩ := hopened
      exact Or.inr ⟨prefixes, prefixed.2, tail, hmiddle, hprefixes, hfirst, hwide⟩
  · intro fields before
    exact (decodeImmediates_yields is64Bit vaddr fields).mono fun _ _ _ _ => trivial

end Lines

/-- MOVQ XMM0, RCX. -/
def moveQuad : AddressSpace where
  mappedData := [0x66, 0x48, 0x0F, 0x6E, 0xC1]
  fileSize_lt := by decide

def moveQuadRow : Instruction where
  machineCode := machineCodeOf moveQuad.mappedData
  instructionText := "MOVQ \tXMM0, RCX"

theorem wide_names_agree_moveQuad :
    WidthAgrees true "MOVQ" 1 true moveQuadRow.instructionText.toList :=
  (wide_names_agree true moveQuad 0 0x1000 .empty 5 moveQuadRow "MOVQ" 1 true
    (by decide +kernel) (by decide +kernel)).mpr (by decide)

/-- VMOVD XMM0, ECX with W set. -/
def moveWide : AddressSpace where
  mappedData := [0xC4, 0xE1, 0xF9, 0x6E, 0xC1]
  fileSize_lt := by decide

/-- Legacy mode shows the name for 64 bits beside a register of 32. -/
theorem wide_name_moveWide :
    (decodeLine false moveWide 0 0x1000 .empty).map
        (fun decoded => decoded.2.toList.map Instruction.instructionText) =
        .ok ["VMOVQ \tXMM0, ECX"] ∧
      Decodes false moveWide 0 0x1000 (HasSized "VMOVQ" 1 true) ∧
      ¬ WidthAgrees false "VMOVQ" 1 true "VMOVQ \tXMM0, ECX".toList := by
  refine ⟨by decide +kernel, by decide +kernel, fun hagrees => ?_⟩
  exact hagrees.legacy rfl (by decide +kernel)

end Voidwalk.WideNames

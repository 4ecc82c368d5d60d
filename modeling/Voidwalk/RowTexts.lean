import Voidwalk.OperandTexts
import Voidwalk.RowKinds

/-!
The texts in the rows that the lookups find: names, and the operands that a row names
outright, are words of the tables.
-/

namespace Voidwalk.RowTexts

open Voidwalk.MappedFile
open Voidwalk.OpcodeRows
open Voidwalk.OneByteTables
open Voidwalk.TwoByteTables
open Voidwalk.ThreeByteTables
open Voidwalk.RowResolution
open Voidwalk.InstructionRendering
open Voidwalk.MemoryRows
open Voidwalk.RowKinds
open Voidwalk.OperandTexts
open Voidwalk.Library.Bytes
open Voidwalk.Library.SeparatedText

/-- The names of a row are as `N` says and the values of its operands as `V` says. -/
structure Texts (N V : String → Prop) (info : OpcodeInfo) : Prop where
  text : N info.text
  text16 : N info.text16
  text64 : N info.text64
  values : ∀ operand ∈ info.operands.toList, V operand.value

section Closure

variable {N V : String → Prop} {outer entry : OpcodeInfo}

theorem texts_iff {info : OpcodeInfo} :
    Texts N V info ↔ (N info.text ∧ N info.text16 ∧ N info.text64) ∧
      V (firstOperand info.operands).value ∧ V (secondOperand info.operands).value ∧
        V (thirdOperand info.operands).value := by
  constructor
  · rintro ⟨htext, htext16, htext64, hvalues⟩
    exact ⟨⟨htext, htext16, htext64⟩, by simpa [toList_operands] using hvalues⟩
  · rintro ⟨⟨htext, htext16, htext64⟩, hvalues⟩
    exact ⟨htext, htext16, htext64, by simpa [toList_operands] using hvalues⟩

instance [DecidablePred N] [DecidablePred V] (info : OpcodeInfo) : Decidable (Texts N V info) :=
  decidable_of_iff _ texts_iff.symm

theorem mergeOperand_value (opSize : Size) {first second : TableOperand} (hfirst : V first.value)
    (hsecond : V second.value) : V (mergeOperand opSize first second).value := by
  rw [mergeOperand]
  split
  · exact hfirst
  · exact hsecond

theorem Texts.merge (houter : Texts N V outer) (hentry : Texts N V entry) :
    Texts N V (merge outer entry) := by
  have houterValues := (texts_iff.mp houter).2
  have hentryValues := (texts_iff.mp hentry).2
  rw [RowResolution.merge]
  split
  · exact hentry
  · rw [texts_iff]
    refine ⟨⟨hentry.text, hentry.text16, houter.text64⟩, ?_⟩
    simp only [firstOperand_zipWith, secondOperand_zipWith, thirdOperand_zipWith]
    exact ⟨mergeOperand_value _ houterValues.1 hentryValues.1,
      mergeOperand_value _ houterValues.2.1 hentryValues.2.1,
      mergeOperand_value _ houterValues.2.2 hentryValues.2.2⟩

theorem toXmm_value (operand : TableOperand) :
    (TableOperand.toXmm operand).value = operand.value := by
  rw [TableOperand.toXmm]
  split
  · rfl
  · rfl

theorem Texts.sse2Twin (h : Texts N V outer) : Texts N V (sse2Twin outer) := by
  rw [RowResolution.sse2Twin]
  split
  · refine ⟨h.text, h.text16, h.text64, ?_⟩
    simp only [Vector.toList_map, List.forall_mem_map, toXmm_value]
    exact h.values
  · exact h

theorem Texts.gatherResized (h : Texts N V outer) (opcode : UInt8) (simd : Simd) :
    Texts N V (gatherResized opcode simd outer) := by
  rw [texts_iff] at *
  rw [RowResolution.gatherResized]
  split
  · split
    · exact h
    · exact h
  · exact h

/-- What an assignment writes is as `N` and `V` say. -/
def UpdateTexts (N V : String → Prop) : RowUpdate → Prop
  | .info row => Texts N V row
  | .text64 name => N name
  | _ => True

instance [DecidablePred N] [DecidablePred V] (update : RowUpdate) :
    Decidable (UpdateTexts N V update) :=
  match update with
  | .info row => inferInstanceAs (Decidable (Texts N V row))
  | .text64 name => inferInstanceAs (Decidable (N name))
  | .isInvalid => instDecidableTrue
  | .default64 _ => instDecidableTrue

theorem assigned_texts {n : Nat} {assignments : List Assignment} (hnone : N "" ∧ V "")
    (hrows : ∀ assignment ∈ assignments, UpdateTexts N V assignment.update) (i : Fin n) :
    Texts N V (assigned n assignments i) := by
  refine assigned_induction (Texts N V) n assignments i ?_ ?_
  · exact texts_iff.mpr ⟨⟨hnone.1, hnone.1, hnone.1⟩, hnone.2, hnone.2, hnone.2⟩
  rintro ⟨index, update⟩ hassignment - info hinfo
  have hupdate := hrows _ hassignment
  cases update with
  | info row => exact hupdate
  | isInvalid => exact ⟨hinfo.1, hinfo.2, hinfo.3, hinfo.4⟩
  | text64 name => exact ⟨hinfo.1, hinfo.2, hupdate, hinfo.4⟩
  | default64 mode => exact ⟨hinfo.1, hinfo.2, hinfo.3, hinfo.4⟩

end Closure

section Tables

/-- What the table builders write. -/
def tableRows : List (List Assignment) :=
  [opcodeRows ++ opcodeRowsLongMode, TwoByte.rows, Prefixed.rows, Groups.rows, ThreeByte.rows,
    ThreeDNow.rows, Vex.rows, x87MemRows, x87RegRows.flatten, grp1Rows, grp2Rows, grp3Rows,
    grp4Rows, grp5Rows]

/-- `UpdateTexts` as a test, which reads each text once. -/
def checkUpdate (isName isValue : String → Bool) : RowUpdate → Bool
  | .info row =>
      isName row.text && isName row.text16 && isName row.text64 &&
        row.operands.toList.all fun operand => isValue operand.value
  | .text64 name => isName name
  | _ => true

theorem updateTexts_of_check {N V : String → Prop} {isName isValue : String → Bool}
    (hname : ∀ text, isName text = true → N text) (hvalue : ∀ text, isValue text = true → V text)
    {update : RowUpdate} (h : checkUpdate isName isValue update = true) :
    UpdateTexts N V update := by
  cases update with
  | info row =>
      rw [checkUpdate, Bool.and_eq_true, Bool.and_eq_true, Bool.and_eq_true] at h
      refine ⟨hname _ h.1.1.1, hname _ h.1.1.2, hname _ h.1.2, ?_⟩
      exact fun operand hoperand => hvalue _ (List.all_eq_true.mp h.2 operand hoperand)
  | isInvalid => trivial
  | text64 name => exact hname name h
  | default64 mode => trivial

/-- Texts that the tables write and the lookups bring in are in every row that is found. -/
theorem texts_rowKind {N V : String → Prop} (hnone : N "" ∧ V "") (hbad : N "(bad)")
    (hnames : ∀ name ∈ formNames, N name) (hforms : ∀ row ∈ formRows, Texts N V row)
    (htables : ∀ rows ∈ tableRows, ∀ assignment ∈ rows, UpdateTexts N V assignment.update) :
    RowKind (Texts N V) where
  opcodeTable := assigned_texts hnone (htables _ (by simp [tableRows]))
  twoByteTable i := by
    have h := @assigned_texts N V 256 _ hnone (htables TwoByte.rows (by simp [tableRows])) i
    rw [twoByteTable, nameUnnamed]
    split
    · exact ⟨hbad, h.2, h.3, h.4⟩
    · exact h
  prefixedTable := assigned_texts hnone (htables _ (by simp [tableRows]))
  twoByteGroupTable := assigned_texts hnone (htables _ (by simp [tableRows]))
  threeByteTable := assigned_texts hnone (htables _ (by simp [tableRows]))
  threeDNowTable := assigned_texts hnone (htables _ (by simp [tableRows]))
  vexTable := assigned_texts hnone (htables _ (by simp [tableRows]))
  x87MemTable := assigned_texts hnone (htables _ (by simp [tableRows]))
  x87RegTable := assigned_texts hnone (htables _ (by simp [tableRows]))
  grpTable rows hrows := by
    apply assigned_texts hnone
    apply htables
    simp only [tableRows, List.mem_cons, List.not_mem_nil, or_false] at hrows ⊢
    tauto
  formRow := hforms
  merge _ _ _ houter hentry := houter.merge hentry
  sse2Twin _ h := h.sse2Twin
  renamed name hname _ h := ⟨hnames name hname, h.2, h.3, h.4⟩
  withoutNds _ h := ⟨h.1, h.2, h.3, h.4⟩
  gatherResized opcode simd _ h := h.gatherResized opcode simd

end Tables

section Words

/-- Capitals and digits. -/
def isNameByte (byte : UInt8) : Bool :=
  (0x30 ≤ byte && byte ≤ 0x39) || (0x41 ≤ byte && byte ≤ 0x5A)

/-- A name of the tables: capitals and digits, or what an unnamed row shows. -/
def Spelled (text : String) : Prop :=
  text = "(bad)" ∨ text.toByteArray.data.toList.all isNameByte = true

instance (text : String) : Decidable (Spelled text) :=
  inferInstanceAs (Decidable (_ ∨ _))

/-- The operands that the rows name outright. -/
def operandValues : List String :=
  ["", "AL", "ES", "CS", "SS", "DS", "DX", "CL", "DL", "BL", "AH", "CH", "DH", "BH", "1", "XMM0",
    "ST", "ST(0)", "ST(1)", "ST(2)", "ST(3)", "ST(4)", "ST(5)", "ST(6)", "ST(7)", "AX"]

def isSpelled (text : String) : Bool :=
  text.toByteArray.data.toList.all isNameByte || text == "(bad)"

def isOperandValue (text : String) : Bool :=
  text.toByteArray.data.toList.isEmpty || operandValues.contains text

theorem spelled_of_isSpelled (text : String) (h : isSpelled text = true) : Spelled text := by
  rw [isSpelled, Bool.or_eq_true, beq_iff_eq] at h
  exact h.symm

theorem mem_of_isOperandValue (text : String) (h : isOperandValue text = true) :
    text ∈ operandValues := by
  rw [isOperandValue, Bool.or_eq_true, List.isEmpty_iff, List.contains_iff_mem] at h
  rcases h with hempty | hmem
  · have hnone : text.toByteArray = "".toByteArray := by
      rw [ByteArray.ext_iff, ← Array.toList_inj, hempty]
      rfl
    rw [String.toByteArray_inj.mp hnone]
    decide
  · exact hmem

theorem tableRows_check : ∀ rows ∈ tableRows, ∀ assignment ∈ rows,
    checkUpdate isSpelled isOperandValue assignment.update = true := by
  decide +kernel

theorem spelled_rowKind : RowKind (Texts Spelled (· ∈ operandValues)) := by
  apply texts_rowKind
  · decide +kernel
  · decide +kernel
  · decide +kernel
  · decide +kernel
  · intro rows hrows assignment hassignment
    exact updateTexts_of_check spelled_of_isSpelled mem_of_isOperandValue
      (tableRows_check rows hrows assignment hassignment)

theorem nameByte_char (byte : UInt8) : isNameByte byte = true →
    byte < 0x80 ∧ (Char.ofNat byte.toNat).isAlphanum = true := by
  revert byte
  exact forall_byte (by decide +kernel)

theorem Spelled.alphanum {text : String} (h : Spelled text) (hnamed : text ≠ "(bad)") :
    ∀ symbol ∈ text.toList, symbol.isAlphanum = true := by
  have hbytes := List.all_eq_true.mp (h.resolve_left hnamed)
  rw [toList_eq_asciiChars fun byte hbyte => (nameByte_char byte (hbytes byte hbyte)).1, asciiChars,
    List.forall_mem_map]
  exact fun byte hbyte => (nameByte_char byte (hbytes byte hbyte)).2

theorem Spelled.unsplit {text : String} (h : Spelled text) :
    Unsplit text.toList ∧ ' ' ∉ text.toList := by
  rcases eq_or_ne text "(bad)" with rfl | hnamed
  · decide
  have hsymbols := h.alphanum hnamed
  constructor
  · intro symbol hsymbol
    constructor
    · rintro rfl
      exact absurd (hsymbols _ hsymbol) (by decide)
    · rintro rfl
      exact absurd (hsymbols _ hsymbol) (by decide)
  · intro hblank
    exact absurd (hsymbols _ hblank) (by decide)

theorem unsplit_operandValues : ∀ value ∈ operandValues, Unsplit value.toList := by
  decide +kernel

/-- The name that is shown is one of the row's or that of a jump on the count register. -/
theorem Texts.mnemonicOf {N V : String → Prop} {fields : Fields} (h : Texts N V fields.info)
    (hcount : ∀ name ∈ ["JRCXZ", "JECXZ", "JCXZ"], N name) (simd : Simd) :
    N (mnemonicOf fields simd) := by
  rw [InstructionRendering.mnemonicOf]
  split
  · split
    · exact hcount _ (by simp)
    split
    · exact hcount _ (by simp)
    · exact hcount _ (by simp)
  split
  · exact h.text64
  split
  · exact h.text16
  · exact h.text

/-- Name and operands read back from the text of any row that the lookups find. -/
theorem instructionText_spelled {fields : Fields} {simd : Simd} {instruction : Instruction}
    (hinstruction : x86_64 fields simd = .ok instruction) (hnamed : isBad fields = false)
    (hinfo : Texts Spelled (· ∈ operandValues) fields.info) :
    shownName instruction.instructionText.toList =
        (InstructionRendering.mnemonicOf fields simd).toList ∧
      (textsOf fields simd ≠ [""] →
        operandTexts instruction.instructionText.toList =
          (textsOf fields simd).map String.toList) := by
  obtain ⟨hname, hblank⟩ := (hinfo.mnemonicOf (by decide +kernel) simd).unsplit
  exact instructionText_read hinstruction hnamed hname hblank fun operand hoperand =>
    unsplit_operandValues _ (hinfo.values operand hoperand)

end Words

end Voidwalk.RowTexts

import Voidwalk.MemoryRows
import Voidwalk.MemoryText

/-!
Where the brackets in the text of an instruction come from: of a memory row that has a
memory operand, every bracketed part is the text of that operand.
-/

namespace Voidwalk.BracketedText

open Voidwalk.MappedFile
open Voidwalk.OpcodeRows
open Voidwalk.OneByteTables
open Voidwalk.InstructionRendering
open Voidwalk.MemoryRows
open Voidwalk.Library.Brackets
open Voidwalk.Library.SumText

section Pieces

theorem plain_append {first second : String} (hfirst : Plain first.toList)
    (hsecond : Plain second.toList) : Plain (first ++ second).toList := by
  rw [String.toList_append]
  exact hfirst.append hsecond

theorem plain_toDigits {base : Nat} (hlow : 1 < base) (hhigh : base ≤ 16) (n : Nat) :
    Plain (Nat.toDigits base n) := by
  constructor
  · exact not_mem_toDigits hlow hhigh (by decide) n
  · exact not_mem_toDigits hlow hhigh (by decide) n

theorem plain_toString (n : Nat) : Plain (toString n).toList := by
  rw [Nat.toString_eq_repr, Nat.toList_repr]
  exact plain_toDigits (by decide) (by decide) n

theorem plain_toHex (value : UInt64) : Plain (toHex value).toList := by
  rw [MemoryText.toList_toHex]
  exact (by decide : Plain ['0', 'x']).append (plain_toDigits (by decide) (by decide) _)

/-- The names that are printed out of arrays. -/
def renderedNames : List String :=
  ["", "(bad)"] ++ registerNames8.toList ++ registerNames8Rex.toList ++ registerNames16.toList ++
    registerNames32.toList ++ registerNames64.toList ++ segmentNames.toList ++ modes16.toList ++
    buildPrefixes.map Prod.snd

theorem registerOf_mem (regNumber bits : Nat) (hasREX : Bool) :
    registerOf regNumber bits hasREX ∈ renderedNames := by
  simp only [renderedNames, List.mem_append]
  rw [registerOf]
  split
  · simp
  dsimp only
  split
  · split
    · simp [Vector.getElem_mem]
    · simp [Vector.getElem_mem]
  split
  · simp [Vector.getElem_mem]
  split
  · simp [Vector.getElem_mem]
  · simp [Vector.getElem_mem]

theorem segmentOf_mem (regNumber : UInt8) : segmentOf regNumber ∈ renderedNames := by
  simp only [renderedNames, List.mem_append]
  simp [segmentOf, Vector.getElem_mem]

theorem mode16Of_mem (rm : UInt8) : mode16Of rm ∈ renderedNames := by
  simp only [renderedNames, List.mem_append]
  simp [mode16Of, Vector.getElem_mem]

theorem prefixTable_mem (opcode : UInt8) : prefixTable opcode ∈ renderedNames := by
  rw [prefixTable]
  cases hlookup : buildPrefixes.lookup opcode with
  | none => simp [renderedNames]
  | some name =>
      obtain ⟨before, after, hsplit, -⟩ := List.lookup_eq_some_iff.mp hlookup
      have hmem : (opcode, name) ∈ buildPrefixes := by
        rw [hsplit]
        exact List.mem_append_right _ List.mem_cons_self
      exact List.mem_append_right _ (List.mem_map_of_mem hmem)

theorem plain_of_mem {name : String} (h : name ∈ renderedNames) : Plain name.toList := by
  have hnames : ∀ name ∈ renderedNames, PlainBytes name := by decide +kernel
  exact (hnames name h).plain

theorem plain_vectorName (simd : Simd) (regNumber : UInt8) (size : Size) :
    Plain (vectorName simd regNumber size).toList := by
  rw [vectorName]
  refine plain_append ?_ (plain_toString _)
  split <;> decide

theorem plain_segmentTextOf (fields : Fields) (simd : Simd) :
    Plain (segmentTextOf fields simd).toList := by
  rw [segmentTextOf]
  split
  · exact plain_of_mem (prefixTable_mem _)
  · decide

theorem plain_prefixWords (fields : Fields) (simd : Simd) (segmentUsed : Bool) :
    Plain (prefixWords fields simd segmentUsed).toList := by
  rw [prefixWords]
  refine plain_append (plain_append (plain_append ?_ ?_) ?_) ?_
  · split <;> decide
  · split
    · split
      · decide
      · split <;> decide
    · decide
  · split <;> decide
  · split
    · refine plain_append ?_ (by decide)
      rw [String.toList_ofList]
      exact (plain_segmentTextOf fields simd).mono fun _ => List.mem_of_mem_take
    · decide

end Pieces

section MemoryOperand

variable {fields : Fields}

theorem plain_memoryRegisters (fields : Fields) (simd : Simd) :
    Plain (memoryRegisters fields simd).toList := by
  rw [memoryRegisters]
  split
  · split
    · decide
    · exact plain_of_mem (mode16Of_mem _)
  split
  · have hbase : Plain (if fields.mod = 0 ∧ fields.base &&& 7 = 5 then ""
        else registerName fields fields.base fields.addrSize).toList := by
      split
      · decide
      · exact plain_of_mem (registerOf_mem _ _ _)
    have hseparator (base : String) : Plain (if base = "" then "" else " + ").toList := by
      split <;> decide
    cases vsibOf fields.info with
    | some vsib =>
        refine plain_append (plain_append (plain_append (plain_append hbase (hseparator _)) ?_)
          (by decide)) (plain_toString _)
        exact plain_vectorName _ _ _
    | none =>
        dsimp only
        split
        · exact hbase
        · refine plain_append (plain_append (plain_append (plain_append hbase (hseparator _)) ?_)
            (by decide)) (plain_toString _)
          exact plain_of_mem (registerOf_mem _ _ _)
  split
  · split
    · split <;> decide
    · decide
  · exact plain_of_mem (registerOf_mem _ _ _)

theorem plain_withDisplacement (fields : Fields) {registers : String}
    (h : Plain registers.toList) : Plain (withDisplacement fields registers).toList := by
  rw [withDisplacement]
  split
  · split
    · exact plain_toHex _
    split
    · exact plain_append (plain_append h (by decide)) (plain_toHex _)
    · exact plain_append (plain_append h (by decide)) (plain_toHex _)
  · exact h

/-- What stands between the brackets of the memory operand. -/
def operandBody (fields : Fields) (simd : Simd) : List Char :=
  (withDisplacement fields (memoryRegisters fields simd)).toList

theorem memoryOperandOf_shows (simd : Simd) (hmemory : fields.hasModRM = true ∧ fields.mod ≠ 3) :
    Shows (operandBody fields simd) (memoryOperandOf fields simd).toList := by
  rw [memoryOperandOf, if_pos hmemory, String.toList_append, String.toList_append]
  exact (plain_withDisplacement fields (plain_memoryRegisters fields simd)).shows_bracketed

end MemoryOperand

section Operands

variable {fields : Fields} {simd : Simd} {segmentText : String} {body : List Char}
  {printed : Printed}

/-- So far only `body` is printed between brackets. -/
def ShowsOnly (body : List Char) (printed : Printed) : Prop :=
  ∀ text ∈ printed.texts, Shows body text.toList

theorem ShowsOnly.append (h : ShowsOnly body printed) {text : String}
    (htext : Shows body text.toList) :
    ∀ later ∈ printed.texts ++ [text], Shows body later.toList := by
  intro later hlater
  rcases List.mem_append.mp hlater with hbefore | hlast
  · exact h later hbefore
  · rwa [List.mem_singleton.mp hlast]

theorem ShowsOnly.text (h : ShowsOnly body printed) {text : String} (htext : Plain text.toList) :
    Ensures (pure (printed.text text)) (ShowsOnly body) :=
  Ensures.pure (h.append htext.shows)

theorem ShowsOnly.immediate (h : ShowsOnly body printed) {format : UInt64 → String}
    (hformat : ∀ value, Plain (format value).toList) :
    Ensures (printed.immediate fields format) (ShowsOnly body) := by
  rw [Printed.immediate]
  split
  · exact Ensures.pure (h.append (hformat _).shows)
  · exact Ensures.throw

theorem printOperand_shows (hmemory : fields.hasModRM = true ∧ fields.mod ≠ 3)
    (hsegment : Plain segmentText.toList) {operand : TableOperand} (hoperand : Unbracketed operand)
    (h : ShowsOnly (operandBody fields simd) printed) :
    Ensures (printOperand fields simd segmentText printed operand)
      (ShowsOnly (operandBody fields simd)) := by
  have hregister (regNumber : UInt8) (width : Nat) :
      Plain (registerName fields regNumber width).toList :=
    plain_of_mem (registerOf_mem _ _ _)
  have htake : Ensures (pure (printed.memory (segmentText ++ memoryOperandOf fields simd)))
      (ShowsOnly (operandBody fields simd)) := by
    refine Ensures.pure (h.append ?_)
    rw [String.toList_append]
    exact hsegment.shows.append (memoryOperandOf_shows simd hmemory)
  obtain ⟨hX, hY, hO⟩ := hoperand.mode
  have hvalue := hoperand.value.plain
  rcases operand with ⟨mode, size, value⟩
  cases mode
  case X => contradiction
  case Y => contradiction
  case O => contradiction
  case E | M | W | Q => simpa only [printOperand, if_neg hmemory.2] using htake
  case VSIB => exact htake
  case H =>
    rw [printOperand]
    dsimp only
    split
    · exact h.text (hregister _ _)
    · exact h.text (plain_vectorName _ _ _)
  case V => exact h.text (plain_vectorName _ _ _)
  case L => exact h.immediate fun _ => plain_vectorName _ _ _
  case P => exact h.text (plain_append (by decide) (plain_toString _))
  case S => exact h.text (plain_of_mem (segmentOf_mem _))
  case I => exact h.immediate plain_toHex
  case J => exact h.immediate plain_toHex
  case A =>
    refine h.immediate fun _ => ?_
    exact plain_append (plain_append (plain_toHex _) (by decide)) (plain_toHex _)
  case G | Z | eAX | eCX | eDX | eBX | eSP | eBP | eSI | eDI => exact h.text (hregister _ _)
  all_goals exact h.text hvalue

theorem printOperands_shows (hmemory : fields.hasModRM = true ∧ fields.mod ≠ 3)
    (hsegment : Plain segmentText.toList) {operands : List TableOperand}
    (hoperands : ∀ operand ∈ operands, Unbracketed operand)
    (h : ShowsOnly (operandBody fields simd) printed) :
    Ensures (operands.foldlM (printOperand fields simd segmentText) printed)
      (ShowsOnly (operandBody fields simd)) := by
  induction operands generalizing printed with
  | nil => exact Ensures.pure h
  | cons operand operands ih =>
      rw [List.forall_mem_cons] at hoperands
      rw [List.foldlM_cons]
      exact Ensures.bind (printOperand_shows hmemory hsegment hoperands.1 h) fun later hlater =>
        ih hoperands.2 hlater

theorem operandList_unbracketed {isGather : Bool} {info : OpcodeInfo}
    (h : MemoryRow isGather info) : ∀ operand ∈ operandList info, Unbracketed operand := by
  apply forall_operandList h.operands
  intro size
  constructor
  · exact (by decide : PlainBytes "")
  · exact ⟨by simp [op, OP], by simp [op, OP], by simp [op, OP]⟩

theorem plain_mnemonicOf {isGather : Bool} (h : MemoryRow isGather fields.info) (simd : Simd) :
    Plain (mnemonicOf fields simd).toList := by
  rw [mnemonicOf]
  split
  · split
    · decide
    · split <;> decide
  split
  · exact h.text64.plain
  split
  · exact h.text16.plain
  · exact h.text.plain

/-- The modes that take the ModRM memory operand, where mod is not 3. -/
def takesMemory (operand : TableOperand) : Bool :=
  operand.addressingMode == .E || operand.addressingMode == .M || operand.addressingMode == .W ||
    operand.addressingMode == .Q || operand.addressingMode == .VSIB

theorem immediate_texts (printed : Printed) (format : UInt64 → String) :
    Ensures (printed.immediate fields format) fun later =>
      ∃ text, later.texts = printed.texts ++ [text] := by
  rw [Printed.immediate]
  split
  · exact Ensures.pure ⟨_, rfl⟩
  · exact Ensures.throw

/-- Every operand adds one text. -/
theorem printOperand_texts (printed : Printed) (operand : TableOperand) :
    Ensures (printOperand fields simd segmentText printed operand) fun later =>
      ∃ text, later.texts = printed.texts ++ [text] := by
  have htext (text : String) : Ensures (pure (printed.text text)) fun later =>
      ∃ text, later.texts = printed.texts ++ [text] := Ensures.pure ⟨text, rfl⟩
  have hmemory (text : String) : Ensures (pure (printed.memory text)) fun later =>
      ∃ text, later.texts = printed.texts ++ [text] := Ensures.pure ⟨text, rfl⟩
  rcases operand with ⟨mode, size, value⟩
  cases mode
  case E | M | W | Q =>
    rw [printOperand]
    dsimp only
    split
    · exact htext _
    · exact hmemory _
  case H =>
    rw [printOperand]
    dsimp only
    split
    · exact htext _
    · exact htext _
  case VSIB | X => exact hmemory _
  case L | I | J | A => exact immediate_texts printed _
  case O => exact immediate_texts { printed with segmentUsed := true } _
  all_goals exact htext _

theorem printOperand_memory (hmemory : fields.hasModRM = true ∧ fields.mod ≠ 3)
    {operand : TableOperand} (hoperand : takesMemory operand = true) :
    Ensures (printOperand fields simd segmentText printed operand) fun later =>
      ∃ text ∈ later.texts, '[' ∈ text.toList := by
  have hopened : '[' ∈ (segmentText ++ memoryOperandOf fields simd).toList := by
    simp [memoryOperandOf, hmemory]
  have htake : Ensures (pure (printed.memory (segmentText ++ memoryOperandOf fields simd)))
      fun later => ∃ text ∈ later.texts, '[' ∈ text.toList :=
    Ensures.pure ⟨_, by simp [Printed.memory], hopened⟩
  rcases operand with ⟨mode, size, value⟩
  cases mode
  case E | M | W | Q => simpa only [printOperand, if_neg hmemory.2] using htake
  case VSIB => exact htake
  all_goals exact absurd hoperand (by simp [takesMemory])

theorem printOperands_keeps {operands : List TableOperand}
    (h : ∃ text ∈ printed.texts, '[' ∈ text.toList) :
    Ensures (operands.foldlM (printOperand fields simd segmentText) printed) fun later =>
      ∃ text ∈ later.texts, '[' ∈ text.toList := by
  induction operands generalizing printed with
  | nil => exact Ensures.pure h
  | cons operand operands ih =>
      rw [List.foldlM_cons]
      refine Ensures.bind (printOperand_texts printed operand) ?_
      intro later hlater
      obtain ⟨added, hadded⟩ := hlater
      obtain ⟨text, htext, hopened⟩ := h
      exact ih ⟨text, hadded ▸ List.mem_append_left _ htext, hopened⟩

/-- A memory operand, wherever it stands in the list, is printed in brackets. -/
theorem printOperands_memory (hmemory : fields.hasModRM = true ∧ fields.mod ≠ 3)
    {operands : List TableOperand} (htaken : operands.any takesMemory = true) :
    Ensures (operands.foldlM (printOperand fields simd segmentText) printed) fun later =>
      ∃ text ∈ later.texts, '[' ∈ text.toList := by
  induction operands generalizing printed with
  | nil => contradiction
  | cons operand operands ih =>
      rw [List.foldlM_cons]
      rw [List.any_cons, Bool.or_eq_true] at htaken
      rcases htaken with hfirst | hlater
      · exact Ensures.bind (printOperand_memory hmemory hfirst) fun later hopened =>
          printOperands_keeps hopened
      · exact Ensures.bind (printOperand_texts printed operand) fun later _ => ih hlater

/-- The text of an instruction that is not bad ends in the texts of its operands. -/
theorem instructionText_x86_64 {instruction : Instruction}
    (hinstruction : x86_64 fields simd = .ok instruction) (hnamed : isBad fields = false) :
    ∃ printed, (operandList fields.info).foldlM
        (printOperand fields simd (segmentTextOf fields simd)) {} = .ok printed ∧
      instruction.instructionText = prefixWords fields simd printed.segmentUsed ++
        mnemonicOf fields simd ++ " \t" ++ ", ".intercalate printed.texts := by
  rw [x86_64, if_neg (by simp [hnamed])] at hinstruction
  cases hrun : (operandList fields.info).foldlM
    (printOperand fields simd (segmentTextOf fields simd)) {} with
  | error thrown => simp [hrun, bind, Except.bind] at hinstruction
  | ok printed =>
      rw [hrun] at hinstruction
      exact ⟨printed, rfl, by rw [← Except.ok.inj hinstruction]⟩

theorem bracketed_x86_64_ne_nil {instruction : Instruction}
    (hinstruction : x86_64 fields simd = .ok instruction) (hnamed : isBad fields = false)
    (hmemory : fields.hasModRM = true ∧ fields.mod ≠ 3)
    (htaken : (operandList fields.info).any takesMemory = true) :
    bracketed instruction.instructionText.toList ≠ [] := by
  obtain ⟨printed, hrun, htext⟩ := instructionText_x86_64 hinstruction hnamed
  obtain ⟨text, hmem, hopened⟩ := (printOperands_memory hmemory htaken).of_ok printed hrun
  apply bracketed_ne_nil
  rw [htext, String.toList_append, String.toList_intercalate]
  exact List.mem_append_right _ (mem_intercalate (List.mem_map_of_mem hmem) hopened)

/-- Every bracketed part of the text of an instruction with a memory operand is the text of
that operand. -/
theorem bracketed_x86_64 {isGather : Bool} {instruction : Instruction}
    (hinstruction : x86_64 fields simd = .ok instruction) (hnamed : isBad fields = false)
    (hrow : MemoryRow isGather fields.info) (hmemory : fields.hasModRM = true ∧ fields.mod ≠ 3) :
    ∀ found ∈ bracketed instruction.instructionText.toList, found = operandBody fields simd := by
  have hprinted := @printOperands_shows fields simd (segmentTextOf fields simd) {} hmemory
    (plain_segmentTextOf fields simd) _ (operandList_unbracketed hrow)
    (fun _ hnone => absurd hnone List.not_mem_nil)
  obtain ⟨printed, hrun, htext⟩ := instructionText_x86_64 hinstruction hnamed
  intro found hfound
  rw [htext] at hfound
  refine Shows.eq_of_mem ?_ hfound
  simp only [String.toList_append, String.toList_intercalate]
  have hplain := ((plain_prefixWords fields simd printed.segmentUsed).append
    (plain_mnemonicOf hrow simd)).append (by decide : Plain " \t".toList)
  refine hplain.shows.append (Plain.shows (by decide) |>.intercalate ?_)
  intro text htext
  obtain ⟨operandText, hoperandText, rfl⟩ := List.mem_map.mp htext
  exact hprinted.of_ok printed hrun operandText hoperandText

end Operands

end Voidwalk.BracketedText

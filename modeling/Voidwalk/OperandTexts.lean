import Voidwalk.BracketedText
import Voidwalk.Library.SeparatedText

/-!
The text of an instruction read back: the name in front of the tab and, cut at the commas,
the texts of the operands behind it.
-/

namespace Voidwalk.OperandTexts

open Voidwalk.MappedFile
open Voidwalk.OpcodeRows
open Voidwalk.OneByteTables
open Voidwalk.InstructionRendering
open Voidwalk.MemoryRows
open Voidwalk.BracketedText
open Voidwalk.Library.SeparatedText
open Voidwalk.Library.SumText

/-- The texts of the operands: what stands behind the tab, cut at the commas. -/
def operandTexts (text : List Char) : List (List Char) :=
  match behind '\t' text with
  | [] => []
  | symbol :: operands => listed ',' (symbol :: operands)

/-- The name of the instruction: the last word in front of the tab. -/
def shownName (text : List Char) : List Char :=
  ((before '\t' text).dropLast.reverse.takeWhile (· != ' ')).reverse

/-- A text with neither a comma nor a tab in it. -/
def Unsplit (text : List Char) : Prop := ∀ symbol ∈ text, symbol ≠ ',' ∧ symbol ≠ '\t'

instance (text : List Char) : Decidable (Unsplit text) :=
  -- Through the list, not through all characters.
  decidable_of_iff (text.all fun symbol => decide (symbol ≠ ',' ∧ symbol ≠ '\t'))
    ⟨fun h symbol hsymbol => of_decide_eq_true (List.all_eq_true.mp h symbol hsymbol),
      fun h => List.all_eq_true.mpr fun symbol hsymbol => decide_eq_true (h symbol hsymbol)⟩

section Unsplit

variable {first second text : List Char}

theorem Unsplit.append (hfirst : Unsplit first) (hsecond : Unsplit second) :
    Unsplit (first ++ second) :=
  List.forall_mem_append.mpr ⟨hfirst, hsecond⟩

theorem Unsplit.comma (h : Unsplit text) : ',' ∉ text := fun hcomma => (h ',' hcomma).1 rfl

theorem Unsplit.tab (h : Unsplit text) : '\t' ∉ text := fun htab => (h '\t' htab).2 rfl

theorem unsplit_append {first second : String} (hfirst : Unsplit first.toList)
    (hsecond : Unsplit second.toList) : Unsplit (first ++ second).toList := by
  rw [String.toList_append]
  exact hfirst.append hsecond

theorem unsplit_toDigits {base : Nat} (hlow : 1 < base) (hhigh : base ≤ 16) (n : Nat) :
    Unsplit (Nat.toDigits base n) := by
  intro symbol hsymbol
  constructor
  · rintro rfl
    exact not_mem_toDigits hlow hhigh (by decide) n hsymbol
  · rintro rfl
    exact not_mem_toDigits hlow hhigh (by decide) n hsymbol

theorem unsplit_toString (n : Nat) : Unsplit (toString n).toList := by
  rw [Nat.toString_eq_repr, Nat.toList_repr]
  exact unsplit_toDigits (by decide) (by decide) n

theorem unsplit_toHex (value : UInt64) : Unsplit (toHex value).toList := by
  rw [MemoryText.toList_toHex]
  exact (by decide : Unsplit ['0', 'x']).append (unsplit_toDigits (by decide) (by decide) _)

theorem unsplit_of_mem {name : String} (h : name ∈ renderedNames) : Unsplit name.toList := by
  have hnames : ∀ name ∈ renderedNames, Unsplit name.toList := by decide +kernel
  exact hnames name h

theorem unsplit_vectorName (simd : Simd) (regNumber : UInt8) (size : Size) :
    Unsplit (vectorName simd regNumber size).toList := by
  rw [vectorName]
  refine unsplit_append ?_ (unsplit_toString _)
  split <;> decide

end Unsplit

section Front

variable (fields : Fields) (simd : Simd)

theorem unsplit_segmentTextOf : Unsplit (segmentTextOf fields simd).toList := by
  rw [segmentTextOf]
  split
  · exact unsplit_of_mem (prefixTable_mem _)
  · decide

theorem unsplit_prefixWords (segmentUsed : Bool) :
    Unsplit (prefixWords fields simd segmentUsed).toList := by
  rw [prefixWords]
  refine unsplit_append (unsplit_append (unsplit_append ?_ ?_) ?_) ?_
  · split <;> decide
  · split
    · split
      · decide
      · split <;> decide
    · decide
  · split <;> decide
  · split
    · refine unsplit_append ?_ (by decide)
      rw [String.toList_ofList]
      intro symbol hsymbol
      exact unsplit_segmentTextOf fields simd symbol (List.mem_of_mem_take hsymbol)
    · decide

/-- The words in front of the name are none, or a blank stands behind them. -/
theorem prefixWords_ends (segmentUsed : Bool) :
    prefixWords fields simd segmentUsed = "" ∨
      ∃ words, prefixWords fields simd segmentUsed = words ++ " " := by
  have happend {first second : String} (hfirst : first = "" ∨ ∃ words, first = words ++ " ")
      (hsecond : second = "" ∨ ∃ words, second = words ++ " ") :
      first ++ second = "" ∨ ∃ words, first ++ second = words ++ " " := by
    rcases hsecond with rfl | ⟨words, rfl⟩
    · rwa [String.append_empty]
    · exact Or.inr ⟨first ++ words, String.append_assoc.symm⟩
  rw [prefixWords]
  refine happend (happend (happend ?_ ?_) ?_) ?_
  · split
    · exact Or.inr ⟨"LOCK", rfl⟩
    · exact Or.inl rfl
  · split
    · split
      · exact Or.inr ⟨"REP", rfl⟩
      · split
        · exact Or.inr ⟨"BND", rfl⟩
        · exact Or.inr ⟨"REPNE", rfl⟩
    · exact Or.inl rfl
  · split
    · exact Or.inr ⟨"NOTRACK", rfl⟩
    · exact Or.inl rfl
  · split
    · exact Or.inr ⟨_, rfl⟩
    · exact Or.inl rfl

theorem unsplit_memoryRegisters : Unsplit (memoryRegisters fields simd).toList := by
  rw [memoryRegisters]
  split
  · split
    · decide
    · exact unsplit_of_mem (mode16Of_mem _)
  split
  · have hbase : Unsplit (if fields.mod = 0 ∧ fields.base &&& 7 = 5 then ""
        else registerName fields fields.base fields.addrSize).toList := by
      split
      · decide
      · exact unsplit_of_mem (registerOf_mem _ _ _)
    have hseparator (base : String) : Unsplit (if base = "" then "" else " + ").toList := by
      split <;> decide
    have hfront (base : String) (hbase : Unsplit base.toList) :
        Unsplit (base ++ if base = "" then "" else " + ").toList :=
      unsplit_append hbase (hseparator base)
    cases vsibOf fields.info with
    | some vsib =>
        refine unsplit_append (unsplit_append (unsplit_append (hfront _ hbase) ?_) (by decide))
          (unsplit_toString _)
        exact unsplit_vectorName _ _ _
    | none =>
        dsimp only
        split
        · exact hbase
        · refine unsplit_append (unsplit_append (unsplit_append (hfront _ hbase) ?_) (by decide))
            (unsplit_toString _)
          exact unsplit_of_mem (registerOf_mem _ _ _)
  split
  · split
    · split <;> decide
    · decide
  · exact unsplit_of_mem (registerOf_mem _ _ _)

theorem unsplit_memoryOperandOf : Unsplit (memoryOperandOf fields simd).toList := by
  rw [memoryOperandOf]
  split
  · refine unsplit_append (unsplit_append (by decide) ?_) (by decide)
    have hregisters := unsplit_memoryRegisters fields simd
    rw [withDisplacement]
    split
    · split
      · exact unsplit_toHex _
      split
      · exact unsplit_append (unsplit_append hregisters (by decide)) (unsplit_toHex _)
      · exact unsplit_append (unsplit_append hregisters (by decide)) (unsplit_toHex _)
    · exact hregisters
  · decide

end Front

section Operands

variable {fields : Fields} {simd : Simd} {segmentText : String}

/-- The text that one operand adds; `value` is its slot of `immediates`. -/
def operandText (fields : Fields) (simd : Simd) (segmentText : String) (value : UInt64)
    (operand : TableOperand) : String :=
  match printOperand { fields with immediates := #v[value, 0] } simd segmentText {} operand with
  | .ok printed => printed.texts.headD ""
  | .error _ => ""

/-- The texts of a list of operands, the first immediate of which is in slot `immIndex`. -/
def printedTexts (fields : Fields) (simd : Simd) (segmentText : String) :
    Nat → List TableOperand → List String
  | _, [] => []
  | immIndex, operand :: operands =>
      operandText fields simd segmentText (fields.immediates[immIndex]?.getD 0) operand ::
        printedTexts fields simd segmentText
          (immIndex + operand.addressingMode.isImmediate.toNat) operands

theorem immediate_adds {printed : Printed} (format : UInt64 → String) :
    Ensures (printed.immediate fields format) fun later =>
      later.texts = printed.texts ++ [format (fields.immediates[printed.immIndex]?.getD 0)] ∧
        later.immIndex = printed.immIndex + 1 := by
  rw [Printed.immediate]
  split
  · rename_i value hvalue
    rw [hvalue]
    exact Ensures.pure ⟨rfl, rfl⟩
  · exact Ensures.throw

theorem printOperand_adds (printed : Printed) (operand : TableOperand) :
    Ensures (printOperand fields simd segmentText printed operand) fun later =>
      later.texts = printed.texts ++ [operandText fields simd segmentText
        (fields.immediates[printed.immIndex]?.getD 0) operand] ∧
        later.immIndex = printed.immIndex + operand.addressingMode.isImmediate.toNat := by
  rcases operand with ⟨mode, size, value⟩
  cases mode
  case E | M | W | Q | H =>
    simp only [printOperand, operandText]
    split
    · exact Ensures.pure ⟨rfl, rfl⟩
    · exact Ensures.pure ⟨rfl, rfl⟩
  case L | I | J | A => exact immediate_adds _
  case O => exact @immediate_adds fields { printed with segmentUsed := true } _
  all_goals exact Ensures.pure ⟨rfl, rfl⟩

theorem printOperands_adds (operands : List TableOperand) (printed : Printed) :
    Ensures (operands.foldlM (printOperand fields simd segmentText) printed) fun later =>
      later.texts = printed.texts ++
        printedTexts fields simd segmentText printed.immIndex operands := by
  induction operands generalizing printed with
  | nil => exact Ensures.pure (List.append_nil _).symm
  | cons operand operands ih =>
      rw [List.foldlM_cons]
      refine Ensures.bind (printOperand_adds printed operand) ?_
      rintro next ⟨htexts, hindex⟩
      have hrest := ih next
      rw [htexts, hindex, List.append_assoc] at hrest
      exact hrest

section RegisterOrMemory

variable (value : UInt64) (operand : TableOperand)

theorem operandText_general (h : operand.addressingMode = .E ∨ operand.addressingMode = .M) :
    operandText fields simd segmentText value operand =
      if fields.mod = 3 then registerName fields fields.rm (widthOf fields operand.size)
      else segmentText ++ memoryOperandOf fields simd := by
  rcases h with h | h
  · by_cases hmod : fields.mod = 3
    · simp only [operandText, printOperand, h, hmod, if_true]
      rfl
    · simp only [operandText, printOperand, h, hmod, if_false]
      rfl
  · by_cases hmod : fields.mod = 3
    · simp only [operandText, printOperand, h, hmod, if_true]
      rfl
    · simp only [operandText, printOperand, h, hmod, if_false]
      rfl

theorem operandText_vector (h : operand.addressingMode = .W) :
    operandText fields simd segmentText value operand =
      if fields.mod = 3 then vectorName simd fields.rm operand.size
      else segmentText ++ memoryOperandOf fields simd := by
  by_cases hmod : fields.mod = 3
  · simp only [operandText, printOperand, h, hmod, if_true]
    rfl
  · simp only [operandText, printOperand, h, hmod, if_false]
    rfl

theorem operandText_mmx (h : operand.addressingMode = .Q) :
    operandText fields simd segmentText value operand =
      if fields.mod = 3 then "MM" ++ toString (fields.rm &&& 7).toNat
      else segmentText ++ memoryOperandOf fields simd := by
  by_cases hmod : fields.mod = 3
  · simp only [operandText, printOperand, h, hmod, if_true]
    rfl
  · simp only [operandText, printOperand, h, hmod, if_false]
    rfl

theorem operandText_vvvv (h : operand.addressingMode = .H) :
    operandText fields simd segmentText value operand =
      if operand.size = .y then registerName fields simd.vvvv (widthOf fields operand.size)
      else vectorName simd simd.vvvv operand.size := by
  by_cases hsize : operand.size = .y
  · simp only [operandText, printOperand, h, hsize, if_true]
    rfl
  · simp only [operandText, printOperand, h, hsize, if_false]
    rfl

end RegisterOrMemory

theorem unsplit_operandText (hsegment : Unsplit segmentText.toList) (value : UInt64)
    {operand : TableOperand} (hvalue : Unsplit operand.value.toList) :
    Unsplit (operandText fields simd segmentText value operand).toList := by
  have hregister (regNumber : UInt8) (width : Nat) :
      Unsplit (registerName fields regNumber width).toList :=
    unsplit_of_mem (registerOf_mem _ _ _)
  have hmemory : Unsplit (segmentText ++ memoryOperandOf fields simd).toList :=
    unsplit_append hsegment (unsplit_memoryOperandOf fields simd)
  have hbracketed (text : String) (h : Unsplit text.toList) : Unsplit ("[" ++ text ++ "]").toList :=
    unsplit_append (unsplit_append (by decide) h) (by decide)
  rcases operand with ⟨mode, size, text⟩
  cases mode
  case E | M =>
    rw [operandText_general _ _ (by simp)]
    split
    · exact hregister _ _
    · exact hmemory
  case W =>
    rw [operandText_vector _ _ rfl]
    split
    · exact unsplit_vectorName _ _ _
    · exact hmemory
  case Q =>
    rw [operandText_mmx _ _ rfl]
    split
    · exact unsplit_append (by decide) (unsplit_toString _)
    · exact hmemory
  case H =>
    rw [operandText_vvvv _ _ rfl]
    split
    · exact hregister _ _
    · exact unsplit_vectorName _ _ _
  case V => exact unsplit_vectorName _ _ _
  case L => exact unsplit_vectorName _ _ _
  case P => exact unsplit_append (by decide) (unsplit_toString _)
  case S => exact unsplit_of_mem (segmentOf_mem _)
  case I => exact unsplit_toHex _
  case J => exact unsplit_toHex _
  case VSIB => exact hmemory
  case A => exact unsplit_append (unsplit_append (unsplit_toHex _) (by decide)) (unsplit_toHex _)
  case O =>
    have h := unsplit_append hsegment (hbracketed _ (unsplit_toHex value))
    rwa [← String.append_assoc, ← String.append_assoc] at h
  case X =>
    have h := unsplit_append hsegment (hbracketed _ (hregister 6 fields.addrSize))
    rwa [← String.append_assoc, ← String.append_assoc] at h
  case Y => exact hbracketed _ (hregister 7 fields.addrSize)
  case G | Z | eAX | eCX | eDX | eBX | eSP | eBP | eSI | eDI => exact hregister _ _
  all_goals exact hvalue

theorem unsplit_printedTexts (hsegment : Unsplit segmentText.toList) {operands : List TableOperand}
    (hvalues : ∀ operand ∈ operands, Unsplit operand.value.toList) (immIndex : Nat) :
    ∀ text ∈ printedTexts fields simd segmentText immIndex operands, Unsplit text.toList := by
  induction operands generalizing immIndex with
  | nil => exact fun text htext => absurd htext List.not_mem_nil
  | cons operand operands ih =>
      rw [List.forall_mem_cons] at hvalues
      rw [printedTexts, List.forall_mem_cons]
      exact ⟨unsplit_operandText hsegment _ hvalues.1, ih hvalues.2 _⟩

end Operands

section Rows

variable {fields : Fields} {simd : Simd}

/-- The texts of the operands of an instruction. -/
def textsOf (fields : Fields) (simd : Simd) : List String :=
  printedTexts fields simd (segmentTextOf fields simd) 0 (operandList fields.info)

theorem texts_ne {place : Nat} {name : String} (hname : (textsOf fields simd)[place]? = some name)
    (hne : name ≠ "") : textsOf fields simd ≠ [""] := by
  intro hempty
  rw [hempty, List.getElem?_singleton] at hname
  split at hname
  · exact hne (Option.some.inj hname).symm
  · contradiction

theorem getElem?_printedTexts (segmentText : String) (operands : List TableOperand)
    (immIndex place : Nat) :
    (printedTexts fields simd segmentText immIndex operands)[place]? =
      operands[place]?.map (operandText fields simd segmentText
        (fields.immediates[immIndex + immediateCount (operands.take place)]?.getD 0)) := by
  induction operands generalizing immIndex place with
  | nil => simp [printedTexts]
  | cons operand operands ih =>
      cases place with
      | zero => simp [printedTexts, immediateCount]
      | succ place =>
          rw [printedTexts, List.getElem?_cons_succ, List.getElem?_cons_succ, ih,
            List.take_succ_cons, immediateCount, immediateCount, List.countP_cons]
          cases operand.addressingMode.isImmediate with
          | false => simp
          | true => simp [Nat.add_assoc, Nat.add_comm 1]

theorem toList_intercalate_texts (texts : List String) :
    (", ".intercalate texts).toList = [',', ' '].intercalate (texts.map String.toList) := by
  rw [String.toList_intercalate]
  rfl

theorem operandTexts_intercalate {front : List Char} {texts : List String}
    (hfront : Unsplit front) (htexts : ∀ text ∈ texts, Unsplit text.toList)
    (hne : texts ≠ [""]) :
    operandTexts (front ++ '	' :: (", ".intercalate texts).toList) =
      texts.map String.toList := by
  rw [operandTexts, behind_append hfront.tab, toList_intercalate_texts]
  cases texts with
  | nil => rfl
  | cons first texts =>
      have hlisted := @listed_intercalate ',' ((first :: texts).map String.toList) (by decide)
        (by
          intro item hitem
          obtain ⟨text, htext, rfl⟩ := List.mem_map.mp hitem
          exact (htexts text htext).comma)
        (by simp)
      cases hjoined : [',', ' '].intercalate ((first :: texts).map String.toList) with
      | cons symbol rest =>
          rw [hjoined] at hlisted
          exact hlisted
      | nil =>
          -- Only the list of one empty text is written without a symbol.
          rw [hjoined] at hlisted
          have hempty : (first :: texts).map String.toList = [[]] := hlisted.symm
          rw [List.map_cons, List.cons.injEq, List.map_eq_nil_iff] at hempty
          rw [String.toList_eq_nil_iff.mp hempty.1, hempty.2] at hne
          contradiction

/-- The name and the operands of an instruction that is not bad, read back from its text. -/
theorem instructionText_read {instruction : Instruction}
    (hinstruction : x86_64 fields simd = .ok instruction) (hnamed : isBad fields = false)
    (hname : Unsplit (mnemonicOf fields simd).toList)
    (hblank : ' ' ∉ (mnemonicOf fields simd).toList)
    (hvalues : ∀ operand ∈ fields.info.operands.toList, Unsplit operand.value.toList) :
    shownName instruction.instructionText.toList = (mnemonicOf fields simd).toList ∧
      (textsOf fields simd ≠ [""] →
        operandTexts instruction.instructionText.toList =
          (textsOf fields simd).map String.toList) := by
  obtain ⟨printed, hrun, htext⟩ := instructionText_x86_64 hinstruction hnamed
  have htexts : printed.texts = textsOf fields simd :=
    (printOperands_adds (operandList fields.info) {}).of_ok printed hrun
  have hwords := unsplit_prefixWords fields simd printed.segmentUsed
  have hsplit : instruction.instructionText.toList =
      ((prefixWords fields simd printed.segmentUsed).toList ++ (mnemonicOf fields simd).toList ++
        [' ']) ++ '	' :: (", ".intercalate (textsOf fields simd)).toList := by
    rw [htext, htexts]
    simp only [String.toList_append, List.append_assoc]
    rfl
  have hfront := (hwords.append hname).append (by decide : Unsplit [' '])
  rw [hsplit]
  constructor
  · rw [shownName, before_append hfront.tab, List.dropLast_concat, List.reverse_append,
      List.takeWhile_append_of_pos (by
        intro symbol hsymbol
        rw [bne_iff_ne]
        rintro rfl
        exact hblank (List.mem_reverse.mp hsymbol)),
      List.reverse_append, List.reverse_reverse]
    rcases prefixWords_ends fields simd printed.segmentUsed with hnone | ⟨words, hwords⟩
    · simp [hnone]
    · simp [hwords]
  · intro hne
    apply operandTexts_intercalate hfront _ hne
    refine unsplit_printedTexts (unsplit_segmentTextOf fields simd) ?_ 0
    exact forall_operandList hvalues fun _ => (by decide : Unsplit "".toList)

end Rows

end Voidwalk.OperandTexts

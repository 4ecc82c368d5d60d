import Voidwalk.FlowNames
import Voidwalk.RawFallback
import Voidwalk.Syntax

/-!
The instruction column of both frontends: which texts it can hold, that both colour them alike,
and what of one the terminal draws.
-/

namespace Voidwalk.InstructionColumn

open Voidwalk.MappedFile
open Voidwalk.OpcodeRows
open Voidwalk.OneByteTables
open Voidwalk.InstructionRendering
open Voidwalk.InstructionDecoding
open Voidwalk.Disassembly
open Voidwalk.FrontendRows
open Voidwalk.BracketedText
open Voidwalk.OperandTexts
open Voidwalk.RowKinds
open Voidwalk.RowTexts
open Voidwalk.LegacyWords
open Voidwalk.PrintedPieces
open Voidwalk.EncodableNames
open Voidwalk.FlowNames
open Voidwalk.Syntax
open Voidwalk.SelfDelimiting
open Voidwalk.Library.Bytes
open Voidwalk.Library.SeparatedText
open Voidwalk.Library.Words

section Names

/-- ASCII, and no word has more than eighteen letters and digits. -/
structure Tidy (text : String) : Prop where
  ascii : IsAscii text.toList
  short : WordsAre isMark (fun word => word.length ≤ 18) text.toList

instance (text : String) : Decidable (Tidy text) :=
  decidable_of_iff
    (IsAscii text.toList ∧ WordsAre isMark (fun word => word.length ≤ 18) text.toList)
    ⟨fun h => ⟨h.1, h.2⟩, fun h => ⟨h.1, h.2⟩⟩

theorem ascii_of_isAlphanum {c : Char} (h : c.isAlphanum = true) : c.toNat < 128 := by
  rcases isAlphanum_iff.mp h with (hupper | hlower) | hdigit
  · exact Nat.lt_of_le_of_lt (of_decide_eq_true hupper).2 (by decide)
  · exact Nat.lt_of_le_of_lt (of_decide_eq_true (Bool.and_eq_true_iff.mp hlower).2) (by decide)
  · exact Nat.lt_of_le_of_lt (of_decide_eq_true (Bool.and_eq_true_iff.mp hdigit).2) (by decide)

theorem tidy_word {text : String} (hsymbols : ∀ symbol ∈ text.toList, symbol.isAlphanum = true)
    (hlength : text.toList.length ≤ 18) : Tidy text := by
  refine ⟨fun symbol hsymbol => ascii_of_isAlphanum (hsymbols symbol hsymbol), ?_⟩
  apply wordsAre_unmarked
  · intro symbol hsymbol
    rw [isMark, hsymbols symbol hsymbol]
    rfl
  · exact hlength

theorem Tidy.append {first second : String} (hfirst : Tidy first) (hsecond : Tidy second)
    (h : Apart isMark first.toList second.toList) : Tidy (first ++ second) := by
  constructor
  · rw [String.toList_append]
    exact isAscii_append.mpr ⟨hfirst.ascii, hsecond.ascii⟩
  · rw [String.toList_append]
    exact hfirst.short.append hsecond.short h

theorem isAscii_intercalate {separator : List Char} {parts : List (List Char)}
    (hseparator : IsAscii separator) (hparts : ∀ part ∈ parts, IsAscii part) :
    IsAscii (separator.intercalate parts) := by
  induction parts with
  | nil => exact fun _ hnone => absurd hnone List.not_mem_nil
  | cons part parts ih =>
      rw [List.forall_mem_cons] at hparts
      cases parts with
      | nil => simpa using hparts.1
      | cons next parts =>
          rw [List.intercalate_cons_cons, isAscii_append, isAscii_append]
          exact ⟨⟨hparts.1, hseparator⟩, ih hparts.2⟩

theorem tidy_intercalate {texts : List String} (h : ∀ text ∈ texts, Tidy text) :
    Tidy (", ".intercalate texts) := by
  constructor
  · rw [toList_intercalate_texts]
    apply isAscii_intercalate (by decide)
    exact List.forall_mem_map.mpr fun text htext => (h text htext).ascii
  · rw [toList_intercalate_texts]
    apply wordsAre_intercalate
    · decide
    · decide
    · decide
    · decide
    · exact List.forall_mem_map.mpr fun text htext => (h text htext).short

theorem tidy_renderedNames : ∀ name ∈ renderedNames, Tidy name := by
  decide +kernel

theorem tidy_toHex (value : UInt64) : Tidy (toHex value) := by
  apply tidy_word
  · rw [MemoryText.toList_toHex, List.forall_mem_cons, List.forall_mem_cons]
    exact ⟨by decide, by decide, alphanum_toDigits (by decide) (by decide) _⟩
  · have hdigits : (Nat.toDigits 16 value.toNat).length ≤ 16 :=
      (Nat.length_toDigits_le_iff (by decide) (by decide)).mpr value.toNat_lt
    rw [MemoryText.toList_toHex, List.length_cons, List.length_cons]
    omega

/-- A number of at most three digits, behind letters or alone. -/
theorem tidy_numbered {front : String} (hfront : front.toList.all Char.isAlphanum = true)
    (hshort : front.toList.length ≤ 3) (n : UInt8) : Tidy (front ++ toString n.toNat) := by
  have hdigits : (Nat.toDigits 10 n.toNat).length ≤ 3 :=
    (Nat.length_toDigits_le_iff (by decide) (by decide)).mpr (n.toNat_lt.trans (by decide))
  have htext : (front ++ toString n.toNat).toList = front.toList ++ Nat.toDigits 10 n.toNat := by
    rw [String.toList_append, Nat.toString_eq_repr, Nat.toList_repr]
  apply tidy_word
  · rw [htext, List.forall_mem_append]
    exact ⟨List.all_eq_true.mp hfront, alphanum_toDigits (by decide) (by decide) _⟩
  · rw [htext, List.length_append]
    omega

theorem tidy_scale (n : UInt8) : Tidy (toString n.toNat) := by
  have h := @tidy_numbered "" (by decide) (by decide) n
  rwa [String.empty_append] at h

theorem tidy_vectorName (simd : Simd) (regNumber : UInt8) (size : Size) :
    Tidy (vectorName simd regNumber size) := by
  rw [vectorName]
  split
  · exact tidy_numbered (by decide) (by decide) regNumber
  · exact tidy_numbered (by decide) (by decide) regNumber

theorem tidy_operandValue {value : String} (h : value ∈ operandValues) : Tidy value := by
  have hvalues : ∀ value ∈ operandValues, Tidy value := by decide +kernel
  exact hvalues value h

theorem tidy_segmentTextOf (fields : Fields) (simd : Simd) : Tidy (segmentTextOf fields simd) := by
  rw [segmentTextOf]
  split
  · exact tidy_renderedNames _ (prefixTable_mem _)
  · decide

end Names

section Pieces

variable {fields : Fields} {simd : Simd}

theorem tidy_register (regNumber : UInt8) (width : Nat) :
    Tidy (Piece.print fields simd (.register regNumber width)) :=
  tidy_renderedNames _ (registerOf_mem _ _ _)

theorem tidy_mark {text : String} (h : text ∈ marks) :
    Tidy (Piece.print fields simd (.mark text)) := by
  have hmarks : ∀ text ∈ marks, Tidy text := by decide +kernel
  exact hmarks text h

theorem tidy_scalePieces : ∀ piece ∈ scalePieces fields, Tidy (piece.print fields simd) := by
  rw [scalePieces, List.forall_mem_cons, List.forall_mem_singleton]
  exact ⟨tidy_mark (by decide), tidy_scale fields.scale⟩

theorem tidy_registerPieces : ∀ piece ∈ registerPieces fields, Tidy (piece.print fields simd) := by
  have hbase : ∀ piece ∈ basePieces fields, Tidy (piece.print fields simd) := by
    rw [basePieces]
    split
    · exact fun _ hnone => absurd hnone List.not_mem_nil
    · exact List.forall_mem_singleton.mpr (tidy_register _ _)
  have hsum {index : Piece} (hindex : Tidy (index.print fields simd)) :
      ∀ piece ∈ basePieces fields ++
        (if (basePieces fields).isEmpty then [] else [.mark " + "]) ++
          index :: scalePieces fields, Tidy (piece.print fields simd) := by
    rw [List.forall_mem_append, List.forall_mem_append, List.forall_mem_cons]
    refine ⟨⟨hbase, ?_⟩, hindex, tidy_scalePieces⟩
    split
    · exact fun _ hnone => absurd hnone List.not_mem_nil
    · exact List.forall_mem_singleton.mpr (tidy_mark (by decide))
  rw [registerPieces]
  split
  · split
    · exact fun _ hnone => absurd hnone List.not_mem_nil
    · exact List.forall_mem_singleton.mpr (tidy_renderedNames _ (mode16Of_mem _))
  split
  · cases vsibOf fields.info with
    | some vsib => exact hsum (tidy_vectorName simd _ _)
    | none =>
        dsimp only
        split
        · exact hbase
        · exact hsum (tidy_register _ _)
  split
  · split
    · rw [List.forall_mem_singleton, Piece.print]
      split <;> decide
    · exact fun _ hnone => absurd hnone List.not_mem_nil
  · exact List.forall_mem_singleton.mpr (tidy_register _ _)

theorem tidy_memoryPieces : ∀ piece ∈ memoryPieces fields, Tidy (piece.print fields simd) := by
  have hdisplaced : ∀ piece ∈ displacedPieces fields (registerPieces fields),
      Tidy (piece.print fields simd) := by
    rw [displacedPieces]
    split
    · split
      · exact List.forall_mem_singleton.mpr (tidy_toHex _)
      split
      · rw [List.forall_mem_append, List.forall_mem_cons, List.forall_mem_singleton]
        exact ⟨tidy_registerPieces, tidy_mark (by decide), tidy_toHex _⟩
      · rw [List.forall_mem_append, List.forall_mem_cons, List.forall_mem_singleton]
        exact ⟨tidy_registerPieces, tidy_mark (by decide), tidy_toHex _⟩
    · exact tidy_registerPieces
  rw [memoryPieces]
  split
  · rw [List.forall_mem_append, List.forall_mem_cons, List.forall_mem_singleton]
    exact ⟨⟨tidy_mark (by decide), hdisplaced⟩, tidy_mark (by decide)⟩
  · exact fun _ hnone => absurd hnone List.not_mem_nil

theorem tidy_operandPieces {segmentText : String} (hsegment : Tidy segmentText) (value : UInt64)
    {operand : TableOperand} (hoperand : operand.value ∈ operandValues) :
    ∀ piece ∈ operandPieces fields simd segmentText value operand,
      Tidy (piece.print fields simd) := by
  have hmemory : ∀ piece ∈ .plain segmentText :: memoryPieces fields,
      Tidy (piece.print fields simd) := List.forall_mem_cons.mpr ⟨hsegment, tidy_memoryPieces⟩
  have hbracketed {piece : Piece} (hpiece : Tidy (piece.print fields simd)) :
      ∀ part ∈ [.mark "[", piece, .mark "]"], Tidy (part.print fields simd) := by
    rw [List.forall_mem_cons, List.forall_mem_cons, List.forall_mem_singleton]
    exact ⟨tidy_mark (by decide), hpiece, tidy_mark (by decide)⟩
  have hmmx (regNumber : UInt8) : Tidy (Piece.print fields simd (.mmx regNumber)) :=
    tidy_numbered (by decide) (by decide) regNumber
  rcases operand with ⟨mode, size, text⟩
  cases mode
  case E | M =>
    rw [operandPieces]
    dsimp only
    split
    · exact List.forall_mem_singleton.mpr (tidy_register _ _)
    · exact hmemory
  case W =>
    rw [operandPieces]
    dsimp only
    split
    · exact List.forall_mem_singleton.mpr (tidy_vectorName simd _ _)
    · exact hmemory
  case Q =>
    rw [operandPieces]
    dsimp only
    split
    · exact List.forall_mem_singleton.mpr (hmmx _)
    · exact hmemory
  case H =>
    rw [operandPieces]
    dsimp only
    split
    · exact List.forall_mem_singleton.mpr (tidy_register _ _)
    · exact List.forall_mem_singleton.mpr (tidy_vectorName simd _ _)
  case VSIB => exact hmemory
  case V | L => exact List.forall_mem_singleton.mpr (tidy_vectorName simd _ _)
  case P => exact List.forall_mem_singleton.mpr (hmmx _)
  case S => exact List.forall_mem_singleton.mpr (tidy_renderedNames _ (segmentOf_mem _))
  case I | J => exact List.forall_mem_singleton.mpr (tidy_toHex value)
  case O => exact List.forall_mem_cons.mpr ⟨hsegment, hbracketed (tidy_toHex value)⟩
  case A =>
    rw [operandPieces, List.forall_mem_cons, List.forall_mem_cons, List.forall_mem_singleton]
    exact ⟨tidy_toHex _, tidy_mark (by decide), tidy_toHex _⟩
  case X => exact List.forall_mem_cons.mpr ⟨hsegment, hbracketed (tidy_register _ _)⟩
  case Y => exact hbracketed (tidy_register _ _)
  case G | Z | eAX | eCX | eDX | eBX | eSP | eBP | eSI | eDI =>
    exact List.forall_mem_singleton.mpr (tidy_register _ _)
  all_goals exact List.forall_mem_singleton.mpr (tidy_operandValue hoperand)

theorem tidy_piecesOf (hinfo : Texts Spelled (· ∈ operandValues) fields.info) :
    ∀ pieces ∈ piecesOf fields simd, ∀ piece ∈ pieces, Tidy (piece.print fields simd) := by
  have hlisted {operands : List TableOperand} (immIndex : Nat)
      (hoperands : ∀ operand ∈ operands, operand.value ∈ operandValues) :
      ∀ pieces ∈ listedPieces fields simd (segmentTextOf fields simd) immIndex operands,
        ∀ piece ∈ pieces, Tidy (piece.print fields simd) := by
    induction operands generalizing immIndex with
    | nil => exact fun _ hnone => absurd hnone List.not_mem_nil
    | cons operand operands ih =>
        rw [List.forall_mem_cons] at hoperands
        rw [listedPieces, List.forall_mem_cons]
        exact ⟨tidy_operandPieces (tidy_segmentTextOf fields simd) _ hoperands.1, ih _ hoperands.2⟩
  exact hlisted 0 (forall_operandList hinfo.values fun _ => (by decide : "" ∈ operandValues))

theorem tidy_print {pieces : List Piece} (hspaced : Spaced pieces)
    (hpieces : ∀ piece ∈ pieces, Tidy (piece.print fields simd)) :
    Tidy (print fields simd pieces) := by
  constructor
  · rw [toList_print]
    intro symbol hsymbol
    obtain ⟨text, htext, hmem⟩ := List.mem_flatten.mp hsymbol
    obtain ⟨piece, hpiece, rfl⟩ := List.mem_map.mp htext
    exact (hpieces piece hpiece).ascii symbol hmem
  · exact hspaced.wordsAre (by decide) fun piece hpiece => (hpieces piece hpiece).short

end Pieces

section Rows

variable {fields : Fields} {simd : Simd} {row : Instruction}

/-- The words that can stand in front of a name. -/
def frontWords : List String :=
  ["LOCK", "REP", "BND", "REPNE", "NOTRACK"] ++
    renderedNames.map fun name => String.ofList (name.toList.take 2)

/-- Words with a blank behind each. -/
def Fronted (text : String) : Prop :=
  ∃ words : List String, (∀ word ∈ words, word ∈ frontWords) ∧
    text = String.join (words.map (· ++ " "))

theorem Fronted.append {first second : String} (hfirst : Fronted first) (hsecond : Fronted second) :
    Fronted (first ++ second) := by
  obtain ⟨front, hfront, rfl⟩ := hfirst
  obtain ⟨rest, hrest, rfl⟩ := hsecond
  exact ⟨front ++ rest, List.forall_mem_append.mpr ⟨hfront, hrest⟩, by simp⟩

theorem fronted_prefixWords (segmentUsed : Bool) :
    Fronted (prefixWords fields simd segmentUsed) := by
  have hnone : Fronted "" := ⟨[], fun _ hword => absurd hword List.not_mem_nil, rfl⟩
  have hone {word : String} (hword : word ∈ frontWords) : Fronted (word ++ " ") :=
    ⟨[word], List.forall_mem_singleton.mpr hword, by simp⟩
  rw [prefixWords]
  refine Fronted.append (Fronted.append (Fronted.append ?_ ?_) ?_) ?_
  · split
    · exact @hone "LOCK" (by decide)
    · exact hnone
  · split
    · split
      · exact @hone "REP" (by decide)
      · split
        · exact @hone "BND" (by decide)
        · exact @hone "REPNE" (by decide)
    · exact hnone
  · split
    · exact @hone "NOTRACK" (by decide)
    · exact hnone
  · split
    · apply hone
      have hmem : segmentTextOf fields simd ∈ renderedNames := by
        rw [segmentTextOf]
        split
        · exact prefixTable_mem _
        · decide
      exact List.mem_append_right _ (List.mem_map_of_mem hmem)
    · exact hnone

theorem tidy_join {words : List String} (hwords : ∀ word ∈ words, Tidy word) {rest : String}
    (hrest : Tidy rest) : Tidy (String.join (words.map (· ++ " ")) ++ rest) := by
  induction words with
  | nil => simpa using hrest
  | cons word words ih =>
      rw [List.forall_mem_cons] at hwords
      have hword : Tidy (word ++ " ") := hwords.1.append (by decide) (Or.inr (by decide))
      have hsplit : String.join ((word :: words).map (· ++ " ")) ++ rest =
          (word ++ " ") ++ (String.join (words.map (· ++ " ")) ++ rest) := by
        simp [String.append_assoc]
      rw [hsplit]
      apply hword.append (ih hwords.2) (Or.inl ?_)
      rw [String.toList_append, List.getLast?_append]
      rfl

theorem Fronted.tidy {front rest : String} (hfront : Fronted front) (hrest : Tidy rest) :
    Tidy (front ++ rest) := by
  have hwords : ∀ word ∈ frontWords, Tidy word := by decide +kernel
  obtain ⟨words, hlisted, rfl⟩ := hfront
  exact tidy_join (fun word hword => hwords word (hlisted word hword)) hrest

def isShortName (name : String) : Bool := name.toByteArray.size ≤ 18

theorem tableRows_short : ∀ rows ∈ tableRows, ∀ assignment ∈ rows,
    checkUpdate isShortName (fun _ => true) assignment.update = true := by
  decide +kernel

theorem short_rowKind : RowKind (Texts (fun name => isShortName name = true) fun _ => True) := by
  apply texts_rowKind
  · exact ⟨rfl, trivial⟩
  · decide +kernel
  · decide +kernel
  · decide +kernel
  · intro rows hrows assignment hassignment
    exact updateTexts_of_check (fun _ hname => hname) (fun _ _ => trivial)
      (tableRows_short rows hrows assignment hassignment)

theorem tidy_mnemonicOf (hspelled : Texts Spelled (· ∈ operandValues) fields.info)
    (hshort : Texts (fun name => isShortName name = true) (fun _ => True) fields.info) :
    Tidy (mnemonicOf fields simd) := by
  have hname := hspelled.mnemonicOf (by decide +kernel) simd
  rcases eq_or_ne (mnemonicOf fields simd) "(bad)" with hbad | hnamed
  · rw [hbad]
    decide +kernel
  · apply tidy_word (hname.alphanum hnamed)
    have hlength := hshort.mnemonicOf (by decide +kernel) simd
    have hbytes := List.all_eq_true.mp (hname.resolve_left hnamed)
    rw [toList_eq_asciiChars fun byte hbyte => (nameByte_char byte (hbytes byte hbyte)).1,
      asciiChars, List.length_map, Array.length_toList]
    exact of_decide_eq_true hlength

theorem tidy_instructionText (hinstruction : x86_64 fields simd = .ok row)
    (hnamed : isBad fields = false) (hspelled : Texts Spelled (· ∈ operandValues) fields.info)
    (hshort : Texts (fun name => isShortName name = true) (fun _ => True) fields.info) :
    Tidy row.instructionText := by
  obtain ⟨segmentUsed, htext⟩ := instructionText_pieces hinstruction hnamed
  have hoperands : Tidy (", ".intercalate ((piecesOf fields simd).map (print fields simd))) := by
    apply tidy_intercalate
    rw [List.forall_mem_map]
    intro pieces hpieces
    exact tidy_print (spaced_piecesOf fields simd pieces hpieces)
      (tidy_piecesOf hspelled pieces hpieces)
  rw [htext, String.append_assoc, String.append_assoc]
  apply (fronted_prefixWords segmentUsed).tidy
  apply (tidy_mnemonicOf hspelled hshort).append
  · exact Tidy.append (by decide) hoperands (Or.inl (by decide))
  · refine Or.inr ?_
    rw [String.toList_append]
    rfl

end Rows

section Columns

variable {text : List Char}

/-- What a tidy text is also cut up: ASCII, and no more than eighteen letters and digits on end. -/
structure TidyPart (text : List Char) : Prop where
  ascii : IsAscii text
  within : Within isMark 18 text

theorem Tidy.part {text : String} (h : Tidy text) : TidyPart text.toList :=
  ⟨h.ascii, h.short.within⟩

theorem TidyPart.cut {part : List Char} (h : TidyPart text) (hin : part <:+: text) :
    TidyPart part :=
  ⟨fun symbol hsymbol => h.ascii symbol (hin.subset hsymbol), h.within.cut hin⟩

/-- Two parts with blanks between them. -/
theorem TidyPart.blanks {first second : List Char} (hfirst : TidyPart first)
    (hsecond : TidyPart second) (n : Nat) :
    TidyPart (first ++ List.replicate (n + 1) ' ' ++ second) := by
  have hblanks : ∀ symbol ∈ List.replicate (n + 1) ' ', symbol = ' ' :=
    fun _ hsymbol => List.eq_of_mem_replicate hsymbol
  constructor
  · rw [isAscii_append, isAscii_append]
    refine ⟨⟨hfirst.ascii, fun symbol hsymbol => ?_⟩, hsecond.ascii⟩
    rw [hblanks symbol hsymbol]
    decide
  · have hmarks : Within isMark 18 (List.replicate (n + 1) ' ') := by
      apply within_marks
      intro symbol hsymbol
      rw [hblanks symbol hsymbol]
      rfl
    refine (hfirst.within.append hmarks (Or.inr ?_)).append hsecond.within (Or.inl ?_)
    · rfl
    · rw [List.getLast?_append, List.replicate_succ', List.getLast?_concat]
      rfl

theorem trim_cut (text : List Char) : trim text <:+: text := by
  rw [trim, dropBack]
  have hfront := List.dropWhile_suffix (l := text) isBlank
  have hback := List.dropWhile_suffix (l := (text.dropWhile isBlank).reverse) isBlank
  have hprefix := List.reverse_prefix.mpr hback
  rw [List.reverse_reverse] at hprefix
  exact hprefix.isInfix.trans hfront.isInfix

theorem tidyPart_formatDisasmText {raw : String} (h : Tidy raw) :
    TidyPart (formatDisasmText raw).toList := by
  have hmnemonic : TidyPart (trim (raw.toList.takeWhile (· ≠ '\t'))) :=
    h.part.cut ((trim_cut _).trans (List.takeWhile_prefix _).isInfix)
  have hoperands : TidyPart (trim ((raw.toList.dropWhile (· ≠ '\t')).drop 1)) :=
    h.part.cut ((trim_cut _).trans
      ((List.drop_suffix _ _).trans (List.dropWhile_suffix _)).isInfix)
  rw [formatDisasmText]
  split
  · rwa [String.toList_ofList]
  split
  · rename_i hshort
    rw [String.toList_ofList]
    obtain ⟨n, hn⟩ := Nat.exists_eq_add_one.mpr (Nat.sub_pos_of_lt hshort)
    rw [hn]
    exact hmnemonic.blanks hoperands n
  · rw [String.toList_ofList]
    exact hmnemonic.blanks hoperands 0

/-- What an instruction column can hold: nothing, a row of the raw-bytes fallback, a decoded
row. -/
inductive ColumnText : String → Prop where
  | absent : ColumnText ""
  | fallback (vaddr : UInt64) (raw : List UInt8) (row : DisasmRow)
      (h : row ∈ sectionFallback vaddr raw) : ColumnText row.text
  | decoded (is64Bit : Bool) (contents : AddressSpace) (fileOffset vaddr : UInt64)
      (store : InstructionStore) (nextOffset : UInt64) (row : Instruction)
      (h : Appends store (decodeLine is64Bit contents fileOffset vaddr store) nextOffset row) :
      ColumnText (formatDisasmText row.instructionText)

theorem tidy_decoded {is64Bit : Bool} {contents : AddressSpace} {fileOffset vaddr : UInt64}
    {store : InstructionStore} {nextOffset : UInt64} {row : Instruction}
    (h : Appends store (decodeLine is64Bit contents fileOffset vaddr store) nextOffset row) :
    Tidy row.instructionText := by
  obtain ⟨fields, simd, hemitted, hrow⟩ := emitted_of_appends h
  cases hbad : isBad fields with
  | true =>
      rw [x86_64, if_pos hbad] at hrow
      rw [← Except.ok.inj hrow]
      exact (by decide : Tidy "(bad)")
  | false =>
      obtain ⟨opened, named, decoded, bytes, hdecoded, rfl, rfl⟩ := decoded_of_emitted hemitted hbad
      exact tidy_instructionText hrow hbad (hdecoded.rowKind spelled_rowKind)
        (hdecoded.rowKind short_rowKind)

theorem tidy_fallback {vaddr : UInt64} {raw : List UInt8} {row : DisasmRow}
    (h : row ∈ sectionFallback vaddr raw) : Tidy row.text := by
  obtain ⟨k, -, rfl⟩ := List.mem_map.mp h
  have hbytes : ∀ byte : UInt8, Tidy ("0x" ++ hexUp byte.toNat 2) :=
    forall_byte (by decide +kernel)
  apply Tidy.append (by decide : Tidy "db ") _ (Or.inl (by decide))
  apply tidy_intercalate
  exact List.forall_mem_map.mpr fun byte _ => hbytes byte

theorem ColumnText.tidyPart {text : String} (h : ColumnText text) : TidyPart text.toList := by
  cases h with
  | absent => exact (by decide : Tidy "").part
  | fallback vaddr raw row h => exact (tidy_fallback h).part
  | decoded is64Bit contents fileOffset vaddr store nextOffset row h =>
      exact tidyPart_formatDisasmText (tidy_decoded h)

/-- No number in the column is too long for the delegate. -/
theorem ColumnText.delegateRole_eq {text : String} (h : ColumnText text) {branch : Bool}
    {token : Token} (htoken : token ∈ tokenize text.toList branch) :
    delegateRole token = token.role := by
  have hpart := h.tidyPart.cut (infix_of_mem_tokenize htoken)
  have hfits : overlong (lower token.text) = false := by
    apply not_overlong
    intro stretch hstretch hsymbols
    apply hpart.within stretch hstretch
    intro symbol hsymbol
    rw [isMark, hsymbols symbol hsymbol]
    rfl
  rw [delegateRole, if_neg]
  rintro ⟨-, hlong⟩
  rw [hfits] at hlong
  contradiction

/-- Both frontends cut every row into the same tokens and draw them in the same roles. -/
theorem rows_coloured_alike (qt : Qt) (hqt : qt.Documented) (Color : Type) (theme : Theme Color)
    (text : String) (h : ColumnText text) (branch : Bool) :
    DisasmDelegate.tokenize qt theme text.toList branch =
      (tokenize text.toList branch).map fun token =>
        ⟨token.text, theme.colorOf token.role⟩ := by
  rw [tokenize_eq qt hqt Color theme text.toList h.tidyPart.ascii branch]
  apply List.map_congr_left
  intro token htoken
  rw [h.delegateRole_eq htoken]

theorem rows_coloured_alike_branchBack :
    DisasmDelegate.tokenize asciiQt roles
        (formatDisasmText branchBackRow.instructionText).toList true =
      (tokenize (formatDisasmText branchBackRow.instructionText).toList true).map fun token =>
        ⟨token.text, roles.colorOf token.role⟩ :=
  rows_coloured_alike asciiQt asciiQt_documented Role roles _
    (.decoded true branchBack 0 0x1100 .empty 3 branchBackRow (by decide)) true

end Columns

section Drawing

/-- The loop of `DisassemblyPane::render` over the tokens of a row. -/
def drawTokens (sel : Bool) (budget used : Int) : List Token → List Token
  | [] => []
  | tk :: later =>
      if budget ≤ used then []
      else
        let piece :=
          if budget < used + tk.text.length then tk.text.take (budget - used).toNat else tk.text
        -- The selected row flattens to bright text.
        ⟨piece, if sel then .Bright else tk.role⟩ ::
          drawTokens sel budget (used + piece.length) later

/-- What the gutter, the address, the bytes and the note leave of a row. -/
def availOf (width : Int) (note : List Char) : Int :=
  let avail := width - 36 - (if note.isEmpty then 2 else note.length + 4)
  if avail < 1 then 1 else avail

/-- The instruction column of one row of `DisassemblyPane::render`. -/
def drawInstruction (width : Int) (ins note : List Char) (clip : Char) (branch sel : Bool) :
    List Token :=
  let avail := availOf width note
  let isOver : Bool := avail < ins.length
  let budget := if isOver then avail - 1 else avail
  drawTokens sel budget 0 (tokenize ins branch) ++
    if isOver then [⟨[clip], if sel then .Bright else .SynPunct⟩] else []

/-- The cells that tokens take up. -/
def cells (tokens : List Token) : List (Char × Role) :=
  tokens.flatMap fun token => token.text.map fun symbol => (symbol, token.role)

/-- How a cell looks on the selected row. -/
def flattened (sel : Bool) (cell : Char × Role) : Char × Role :=
  (cell.1, if sel then .Bright else cell.2)

theorem cells_cons (token : Token) (tokens : List Token) :
    cells (token :: tokens) = token.text.map (fun symbol => (symbol, token.role)) ++ cells tokens :=
  List.flatMap_cons

theorem symbols_cells (tokens : List Token) :
    (cells tokens).map Prod.fst = tokens.flatMap Token.text := by
  induction tokens with
  | nil => rfl
  | cons token tokens ih =>
      rw [cells_cons, List.map_append, ih, List.flatMap_cons, List.map_map]
      congr 1
      exact List.map_id _

theorem symbols_tokenize (ins : List Char) (branch : Bool) :
    (cells (tokenize ins branch)).map Prod.fst = ins := by
  rw [symbols_cells, flatMap_tokenize]

theorem length_cells_tokenize (ins : List Char) (branch : Bool) :
    (cells (tokenize ins branch)).length = ins.length := by
  rw [← List.length_map, symbols_tokenize]

/-- The loop draws the first cells. -/
theorem cells_drawTokens (sel : Bool) (budget used : Int) (hused : used ≤ budget)
    (tokens : List Token) :
    cells (drawTokens sel budget used tokens) =
      ((cells tokens).take (budget - used).toNat).map (flattened sel) := by
  induction tokens generalizing used with
  | nil => rw [drawTokens, cells, List.flatMap_nil, List.take_nil, List.map_nil]
  | cons tk later ih =>
      rw [drawTokens, cells_cons]
      split
      · rename_i hfull
        rw [Int.toNat_of_nonpos (by omega), List.take_zero]
        rfl
      rename_i hroom
      rw [cells_cons, List.take_append, List.map_append, List.length_map]
      have hsplit (piece : List Char) (hpiece : piece = tk.text.take (budget - used).toNat) :
          piece.map (fun symbol => (symbol, if sel then Role.Bright else tk.role)) =
            ((tk.text.map fun symbol => (symbol, tk.role)).take (budget - used).toNat).map
              (flattened sel) := by
        rw [hpiece, ← List.map_take, List.map_map]
        rfl
      split
      · rename_i hover
        have hlength : (tk.text.take (budget - used).toNat).length = (budget - used).toNat := by
          rw [List.length_take]
          omega
        rw [hsplit _ rfl, hlength, ih _ (by omega)]
        congr 4
        omega
      · rename_i hfits
        rw [hsplit tk.text (List.take_of_length_le (by omega)).symm, ih _ (by omega)]
        congr 4
        omega

theorem availOf_pos (width : Int) (note : List Char) : 1 ≤ availOf width note := by
  rw [availOf]
  split <;> omega

theorem availOf_fits {width : Int} {note : List Char} (h : 36 + note.length + 5 ≤ width) :
    36 + availOf width note + note.length + 2 ≤ width := by
  rw [availOf]
  cases note with
  | nil =>
      simp only [List.isEmpty_nil, if_true, List.length_nil] at h ⊢
      split <;> omega
  | cons symbol note =>
      simp only [List.isEmpty_cons, Bool.false_eq_true, if_false] at h ⊢
      split <;> omega

/-- How an instruction is to be drawn. `ins` is drawn whole where it has room; otherwise its
front is, with the clip glyph in the last cell. Either way the note keeps its place. -/
structure ShowsInstruction (width : Int) (ins note : List Char) (clip : Char) (branch sel : Bool)
    (drawn : List Token) : Prop where
  symbols : (cells (tokenize ins branch)).map Prod.fst = ins
  whole : ins.length ≤ availOf width note →
    cells drawn = (cells (tokenize ins branch)).map (flattened sel)
  clipped : availOf width note < ins.length →
    cells drawn = ((cells (tokenize ins branch)).take (availOf width note - 1).toNat ++
      [(clip, Role.SynPunct)]).map (flattened sel)
  room : (cells drawn).length ≤ availOf width note
  aligned : 36 + note.length + 5 ≤ width →
    36 + (cells drawn).length + note.length + 2 ≤ width

theorem cells_drawInstruction (width : Int) (ins note : List Char) (clip : Char)
    (branch sel : Bool) :
    cells (drawInstruction width ins note clip branch sel) =
      (if ins.length ≤ availOf width note then cells (tokenize ins branch)
        else (cells (tokenize ins branch)).take (availOf width note - 1).toNat ++
          [(clip, .SynPunct)]).map (flattened sel) := by
  have hlength := length_cells_tokenize ins branch
  have hpos := availOf_pos width note
  rw [drawInstruction]
  split
  · rename_i hover
    rw [decide_eq_true_eq] at hover
    rw [if_neg (Int.not_le.mpr hover), cells, List.flatMap_append, ← cells,
      cells_drawTokens sel _ _ (by omega), Int.sub_zero, List.map_append]
    rfl
  · rename_i hfits
    rw [decide_eq_true_eq] at hfits
    rw [if_pos (Int.not_lt.mp hfits), List.append_nil,
      cells_drawTokens sel _ _ (by omega), List.take_of_length_le (by omega)]

/-- No more is drawn than there is room for. -/
theorem length_drawInstruction_le (width : Int) (ins note : List Char) (clip : Char)
    (branch sel : Bool) :
    (cells (drawInstruction width ins note clip branch sel)).length ≤ availOf width note := by
  have hpos := availOf_pos width note
  have hlength := length_cells_tokenize ins branch
  rw [cells_drawInstruction, List.length_map]
  split
  · omega
  · rw [List.length_append, List.length_take, List.length_singleton]
    omega

theorem instruction_drawn (width : Int) (ins note : List Char) (clip : Char) (branch sel : Bool) :
    ShowsInstruction width ins note clip branch sel
      (drawInstruction width ins note clip branch sel) := by
  have hdrawn := cells_drawInstruction width ins note clip branch sel
  have hroom := length_drawInstruction_le width ins note clip branch sel
  constructor
  · exact symbols_tokenize ins branch
  · intro hfits
    rw [hdrawn, if_pos hfits]
  · intro hover
    rw [hdrawn, if_neg (Int.not_le.mpr hover)]
  · exact hroom
  · intro hwide
    have hfits := availOf_fits hwide
    omega

end Drawing

end Voidwalk.InstructionColumn

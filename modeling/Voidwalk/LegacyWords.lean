import Voidwalk.PrintedPieces
import Voidwalk.RowTexts

/-!
The words that name registers of long mode, and the texts of the renderer and of the tables
that have none of them.
-/

namespace Voidwalk.LegacyWords

open Voidwalk.MappedFile
open Voidwalk.OpcodeRows
open Voidwalk.OneByteTables
open Voidwalk.InstructionRendering
open Voidwalk.RowKinds
open Voidwalk.RowTexts
open Voidwalk.PrintedPieces
open Voidwalk.Library.Bytes
open Voidwalk.Library.SeparatedText
open Voidwalk.Library.SumText
open Voidwalk.Library.Words

section LongMode

/-- The registers of 64 bits, R8 to R15 at any width, the bytes that need a REX prefix and the
instruction pointer. -/
def longModeNames : List String :=
  registerNames64.toList ++ registerNames8Rex.toList.drop 4 ++ registerNames16.toList.drop 8 ++
    registerNames32.toList.drop 8 ++ ["RIP", "EIP"]

/-- The word names a register that only long mode has. -/
def LongModeName (word : List Char) : Prop :=
  (∃ name ∈ longModeNames, word = name.toList) ∨
    ∃ n > 7, word = ("XMM" ++ toString n).toList ∨ word = ("YMM" ++ toString n).toList

def vectorPrefixes : List (List Char) := ["XMM".toList, "YMM".toList]

/-- The vector registers of legacy mode. -/
def legacyVectors : List (List Char) :=
  (List.range 8).flatMap fun n => vectorPrefixes.map (· ++ (toString n).toList)

/-- A word that names no register of long mode. -/
def isLegacy (word : List Char) : Bool :=
  !(longModeNames.map String.toList).contains word &&
    (!vectorPrefixes.contains (word.take 3) || legacyVectors.contains word)

theorem numberOf_toString (n : Nat) : numberOf 10 (toString n).toList = some n := by
  rw [Nat.toString_eq_repr, Nat.toList_repr]
  exact numberOf_toDigits (by decide) (by decide) n

theorem not_longModeName {word : List Char} (h : isLegacy word = true) : ¬ LongModeName word := by
  rw [isLegacy, Bool.and_eq_true, Bool.not_eq_true', Bool.or_eq_true] at h
  rintro (⟨name, hname, rfl⟩ | ⟨n, hn, hword⟩)
  · have hmem : (longModeNames.map String.toList).contains name.toList = true :=
      List.contains_iff_mem.mpr (List.mem_map_of_mem hname)
    exact absurd (h.1.symm.trans hmem) (by decide)
  · have hfront : word.take 3 ∈ vectorPrefixes ∧ word.drop 3 = (toString n).toList := by
      rcases hword with rfl | rfl
      · simp [vectorPrefixes]
      · simp [vectorPrefixes]
    have hlegacy : word ∈ legacyVectors := by
      refine List.contains_iff_mem.mp (h.2.resolve_left ?_)
      simpa using hfront.1
    obtain ⟨k, hk, hvector⟩ := List.mem_flatMap.mp hlegacy
    have hnumber : word.drop 3 = (toString k).toList := by
      rcases (by simpa [vectorPrefixes] using hvector :
        word = "XMM".toList ++ (toString k).toList ∨
          word = "YMM".toList ++ (toString k).toList) with rfl | rfl
      · rfl
      · rfl
    have hsame : k = n := by
      have hvalue := congrArg (numberOf 10) (hnumber.symm.trans hfront.2)
      rw [numberOf_toString, numberOf_toString] at hvalue
      exact Option.some.inj hvalue
    rw [List.mem_range] at hk
    omega

/-- A number is no name. -/
theorem isLegacy_of_digit {digit : Char} (hdigit : digit.isDigit = true) (word : List Char) :
    isLegacy (digit :: word) = true := by
  have hnames : ∀ name ∈ longModeNames.map String.toList ++ vectorPrefixes,
      name.head?.any (fun first => !first.isDigit) = true := by
    decide +kernel
  have hother {name : List Char} (hname : name ∈ longModeNames.map String.toList ++ vectorPrefixes)
      (hhead : name.head? = some digit) : False := by
    have hletter := hnames name hname
    rw [hhead, Option.any_some, hdigit] at hletter
    contradiction
  rw [isLegacy, Bool.and_eq_true, Bool.not_eq_true', Bool.or_eq_true, Bool.not_eq_true']
  refine ⟨?_, Or.inl ?_⟩
  · rw [← Bool.not_eq_true, List.contains_iff_mem]
    exact fun hmem => hother (List.mem_append_left _ hmem) rfl
  · rw [← Bool.not_eq_true, List.contains_iff_mem]
    exact fun hmem => hother (List.mem_append_right _ hmem) rfl

end LongMode

section Words

/-- No word of the text names a register of long mode. -/
def Legacy (text : String) : Prop := WordsAre isMark (fun word => isLegacy word = true) text.toList

instance (text : String) : Decidable (Legacy text) :=
  inferInstanceAs (Decidable (WordsAre isMark (fun word => isLegacy word = true) text.toList))

theorem legacy_word {text : String} (hsymbols : ∀ symbol ∈ text.toList, symbol.isAlphanum = true)
    (hword : isLegacy text.toList = true) : Legacy text := by
  apply wordsAre_unmarked
  · intro symbol hsymbol
    rw [isMark, hsymbols symbol hsymbol]
    rfl
  · exact hword

theorem alphanum_toDigits {base : Nat} (hlow : 1 < base) (hhigh : base ≤ 16) (n : Nat) :
    ∀ symbol ∈ Nat.toDigits base n, symbol.isAlphanum = true := by
  have hdigits : ∀ digit < 16, (Nat.digitChar digit).isAlphanum = true := by decide
  intro symbol hsymbol
  obtain ⟨digit, hdigit, rfl⟩ := eq_digitChar_of_mem hlow hsymbol
  exact hdigits digit (by omega)

theorem legacy_toHex (value : UInt64) : Legacy (toHex value) := by
  apply legacy_word
  · rw [MemoryText.toList_toHex, List.forall_mem_cons, List.forall_mem_cons]
    exact ⟨by decide, by decide, alphanum_toDigits (by decide) (by decide) _⟩
  · rw [MemoryText.toList_toHex]
    exact isLegacy_of_digit (by decide) _

theorem legacy_toString (n : Nat) : Legacy (toString n) := by
  have hdigits : ∀ digit < 10, (Nat.digitChar digit).isDigit = true := by decide
  apply legacy_word
  · rw [Nat.toString_eq_repr, Nat.toList_repr]
    exact alphanum_toDigits (by decide) (by decide) n
  · rw [Nat.toString_eq_repr, Nat.toList_repr]
    obtain ⟨first, rest, hdecimal⟩ := List.exists_cons_of_ne_nil (toDigits_ne_nil 10 n)
    obtain ⟨digit, hdigit, rfl⟩ := @eq_digitChar_of_mem 10 n first (by decide) (by simp [hdecimal])
    rw [hdecimal]
    exact isLegacy_of_digit (hdigits digit hdigit) rest

theorem legacy_segmentOf (regNumber : UInt8) : Legacy (segmentOf regNumber) := by
  have hnames : ∀ name ∈ segmentNames.toList, Legacy name := by decide
  apply hnames
  simp [segmentOf, Vector.getElem_mem]

theorem legacy_mode16Of (rm : UInt8) : Legacy (mode16Of rm) := by
  have hnames : ∀ name ∈ modes16.toList, Legacy name := by decide +kernel
  apply hnames
  simp [mode16Of, Vector.getElem_mem]

theorem prefixTable_cases (opcode : UInt8) :
    prefixTable opcode ∈ "" :: buildPrefixes.map Prod.snd := by
  rw [prefixTable]
  cases hlookup : buildPrefixes.lookup opcode with
  | none => exact List.mem_cons_self
  | some name =>
      obtain ⟨before, after, hsplit, -⟩ := List.lookup_eq_some_iff.mp hlookup
      apply List.mem_cons_of_mem
      rw [hsplit]
      simp

theorem legacy_segmentTextOf (fields : Fields) (simd : Simd) :
    Legacy (segmentTextOf fields simd) := by
  have hnames : ∀ name ∈ "" :: buildPrefixes.map Prod.snd, Legacy name := by decide +kernel
  apply hnames
  rw [segmentTextOf]
  split
  · exact prefixTable_cases _
  · exact List.mem_cons_self

/-- A text in front of a name: it is empty or ends in a mark. -/
structure LegacyFront (text : String) : Prop where
  legacy : Legacy text
  ends : text = "" ∨ text.toList.getLast?.any isMark = true

instance (text : String) : Decidable (LegacyFront text) :=
  decidable_of_iff (Legacy text ∧ (text = "" ∨ text.toList.getLast?.any isMark = true))
    ⟨fun h => ⟨h.1, h.2⟩, fun h => ⟨h.1, h.2⟩⟩

theorem LegacyFront.append {first second : String} (hfirst : LegacyFront first)
    (hsecond : Legacy second) : Legacy (first ++ second) := by
  rcases hfirst.ends with rfl | hends
  · rwa [String.empty_append]
  · rw [Legacy, String.toList_append]
    exact WordsAre.append hfirst.legacy hsecond (Or.inl hends)

theorem LegacyFront.appendFront {first second : String} (hfirst : LegacyFront first)
    (hsecond : LegacyFront second) : LegacyFront (first ++ second) := by
  refine ⟨hfirst.append hsecond.legacy, ?_⟩
  rcases hsecond.ends with rfl | hends
  · rw [String.append_empty]
    exact hfirst.ends
  · refine Or.inr ?_
    rw [String.toList_append, List.getLast?_append]
    cases hlast : second.toList.getLast? with
    | none => simp [hlast] at hends
    | some symbol => rwa [hlast] at hends

theorem legacyFront_prefixWords (fields : Fields) (simd : Simd) (segmentUsed : Bool) :
    LegacyFront (prefixWords fields simd segmentUsed) := by
  have hsegments : ∀ name ∈ "" :: buildPrefixes.map Prod.snd,
      LegacyFront (String.ofList (name.toList.take 2) ++ " ") := by decide +kernel
  have hempty : LegacyFront "" := by decide
  rw [prefixWords]
  refine LegacyFront.appendFront (LegacyFront.appendFront (LegacyFront.appendFront ?_ ?_) ?_) ?_
  · split
    · decide +kernel
    · exact hempty
  · split
    · split
      · decide +kernel
      · split
        · decide +kernel
        · decide +kernel
    · exact hempty
  · split
    · decide +kernel
    · exact hempty
  · split
    · apply hsegments
      rw [segmentTextOf]
      split
      · exact prefixTable_cases _
      · exact List.mem_cons_self
    · exact hempty

end Words

section Names

def nameBytes (text : String) : List UInt8 := text.toByteArray.data.toList

/-- The first three bytes as a number. -/
def frontCode (bytes : List UInt8) : Nat :=
  (bytes.take 3).foldl (fun code byte => 256 * code + byte.toNat) 0

/-- How names of long mode and of vector registers begin. -/
def registerFronts : List Nat :=
  (longModeNames ++ ["XMM", "YMM"]).map fun name => frontCode (nameBytes name)

/-- Such a name begins with one of the letters R, S, B, D, E, X and Y. -/
def isRegisterLetter (byte : UInt8) : Bool := (nameBytes "RSBDEXY").any (· == byte)

/-- A name of the tables that does not begin as those registers do. -/
def isLegacyName : List UInt8 → Bool
  | [] => true
  | first :: rest =>
      !isRegisterLetter first || !registerFronts.any (Nat.beq (frontCode (first :: rest)))

theorem tableRows_legacy : ∀ rows ∈ tableRows, ∀ assignment ∈ rows,
    checkUpdate (fun text => isLegacyName (nameBytes text)) (fun _ => true)
      assignment.update = true := by
  decide +kernel

theorem asciiChar_injective : Function.Injective fun byte : UInt8 => Char.ofNat byte.toNat := by
  have hchar : ∀ byte : UInt8, (Char.ofNat byte.toNat).toNat = byte.toNat := by
    apply forall_byte
    decide +kernel
  intro first second hsame
  have hvalue := congrArg Char.toNat hsame
  dsimp only at hvalue
  rw [hchar, hchar] at hvalue
  exact UInt8.toNat_inj.mp hvalue

/-- The bytes of XMM and of YMM. -/
def vectorFronts : List (List UInt8) := [[0x58, 0x4D, 0x4D], [0x59, 0x4D, 0x4D]]

theorem isLegacyName_vector {front : List UInt8} (hfront : front ∈ vectorFronts)
    (rest : List UInt8) : isLegacyName (front ++ rest) = false := by
  have hcode (first second third : UInt8) : frontCode (first :: second :: third :: rest) =
      frontCode [first, second, third] := rfl
  rcases (by simpa [vectorFronts] using hfront :
    front = [0x58, 0x4D, 0x4D] ∨ front = [0x59, 0x4D, 0x4D]) with rfl | rfl
  · simp only [List.cons_append, List.nil_append, isLegacyName, hcode]
    decide +kernel
  · simp only [List.cons_append, List.nil_append, isLegacyName, hcode]
    decide +kernel

theorem isLegacy_of_name {name : String} (h : isLegacyName (nameBytes name) = true)
    (hascii : ∀ byte ∈ nameBytes name, byte < 0x80) : isLegacy name.toList = true := by
  have hnames : ∀ name ∈ longModeNames, isLegacyName (nameBytes name) = false := by
    decide +kernel
  rw [isLegacy, Bool.and_eq_true, Bool.not_eq_true', Bool.or_eq_true, Bool.not_eq_true']
  refine ⟨?_, Or.inl ?_⟩
  · rw [← Bool.not_eq_true, List.contains_iff_mem, List.mem_map]
    rintro ⟨longName, hmem, hsame⟩
    rw [String.toList_inj] at hsame
    exact absurd ((hnames longName hmem).symm.trans (hsame ▸ h)) (by decide)
  · rw [← Bool.not_eq_true, List.contains_iff_mem, toList_eq_asciiChars hascii, asciiChars,
      ← List.map_take]
    intro hvector
    have hprefixes : vectorPrefixes =
        vectorFronts.map (List.map fun byte => Char.ofNat byte.toNat) := by decide
    rw [hprefixes, List.mem_map] at hvector
    obtain ⟨front, hfront, hsame⟩ := hvector
    have hrejected := isLegacyName_vector hfront ((nameBytes name).drop 3)
    rw [asciiChar_injective.list_map hsame] at hrejected
    have hbytes : (nameBytes name).take 3 ++ (nameBytes name).drop 3 = nameBytes name :=
      List.take_append_drop 3 _
    rw [nameBytes] at hbytes h hrejected
    rw [hbytes, h] at hrejected
    contradiction

theorem legacy_rowKind :
    RowKind (Texts (fun text => isLegacyName (nameBytes text) = true) fun _ => True) := by
  apply texts_rowKind
  · exact ⟨rfl, trivial⟩
  · decide +kernel
  · decide +kernel
  · decide +kernel
  · intro rows hrows assignment hassignment
    exact updateTexts_of_check (fun _ hname => hname) (fun _ _ => trivial)
      (tableRows_legacy rows hrows assignment hassignment)

theorem legacy_mnemonicOf {fields : Fields}
    (hspelled : Texts Spelled (· ∈ operandValues) fields.info)
    (hlegacy : Texts (fun text => isLegacyName (nameBytes text) = true) (fun _ => True) fields.info)
    (simd : Simd) : Legacy (mnemonicOf fields simd) := by
  have hname := hspelled.mnemonicOf (by decide +kernel) simd
  rcases eq_or_ne (mnemonicOf fields simd) "(bad)" with hbad | hnamed
  · rw [hbad]
    decide +kernel
  · apply legacy_word (hname.alphanum hnamed)
    apply isLegacy_of_name (hlegacy.mnemonicOf (by decide +kernel) simd)
    have hbytes := List.all_eq_true.mp (hname.resolve_left hnamed)
    exact fun byte hbyte => (nameByte_char byte (hbytes byte hbyte)).1

theorem legacy_operandValue {value : String} (h : value ∈ operandValues) : Legacy value := by
  have hvalues : ∀ value ∈ operandValues, Legacy value := by decide +kernel
  exact hvalues value h

end Names

end Voidwalk.LegacyWords

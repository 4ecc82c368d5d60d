import Mathlib.Data.List.Induction
import Mathlib.Data.List.TakeWhile
import Voidwalk.Library.SumText

/-!
The tokenizers that colour an instruction, `tui::tokenize` and `gui::DisasmDelegate::tokenize`,
and where they differ. A text is the list of its units: the bytes of a `std::string`, the code
units of a `QString`.
-/

namespace Voidwalk.Syntax

open Voidwalk.Library.SumText

/-- The roles of `tui::Role` that an instruction is drawn in. -/
inductive Role where
  | Text | Bright | Muted
  | SynMnemonic | SynJump | SynRegister | SynImmediate | SynTarget | SynPunct
  deriving DecidableEq, Repr

structure Token where
  text : List Char
  role : Role
  deriving DecidableEq, Repr

/-- Words that the decoder prints ahead of the mnemonic. -/
def prefixes : List String :=
  ["lock", "rep", "repne", "bnd", "notrack", "cs", "ds", "es", "fs", "gs", "ss"]

def regs : List String :=
  ["eax", "ebx", "ecx", "edx", "esi", "edi", "ebp", "esp", "eip",
    "cs", "ds", "ss", "es", "fs", "gs",
    "ax", "bx", "cx", "dx", "si", "di", "bp", "sp",
    "al", "bl", "cl", "dl", "ah", "bh", "ch", "dh",
    "spl", "bpl", "sil", "dil",
    "rax", "rbx", "rcx", "rdx", "rsi", "rdi", "rbp", "rsp", "rip", "st"]

/-- What `^(r(8|9|1[0-5])[dwb]?|[xy]?mm([0-9]|1[0-5]))$` matches. -/
def numbered : List String :=
  ((List.range' 8 8).flatMap fun n => ["", "d", "w", "b"].map fun width =>
      "r" ++ toString n ++ width) ++
    (List.range 16).flatMap fun n => ["", "x", "y"].map fun vector =>
      vector ++ "mm" ++ toString n

def keywords : List String := ["dword", "word", "qword", "byte", "ptr"]

def isPrefixWord (w : List Char) : Bool := prefixes.contains (String.ofList w)

def isRegister (w : List Char) : Bool :=
  regs.contains (String.ofList w) || numbered.contains (String.ofList w)

def startsHex (w : List Char) : Bool := "0x".toList.isPrefixOf w || "-0x".toList.isPrefixOf w

def isImmediate (w : List Char) : Bool :=
  if startsHex w then true
  else if w.isEmpty then false
  else
    let digits := if w.head? = some '-' then w.tail else w
    if digits.isEmpty then false else digits.all Char.isDigit

def isWordChar (c : Char) : Bool := c.isAlphanum || c = '_' || c = '.'

def lower (s : List Char) : List Char := s.map Char.toLower

/-- A minus sign with a zero behind it starts a word. -/
def negHex : List Char → Bool
  | '-' :: '0' :: _ => true
  | _ => false

/-- The punctuation from here on and what is behind it. -/
def punctuation (isWordChar : Char → Bool) : List Char → List Char × List Char
  | [] => ([], [])
  | c :: rest =>
      if !isWordChar c && c != ';' && !negHex (c :: rest) then
        let (run, after) := punctuation isWordChar rest
        (c :: run, after)
      else ([], c :: rest)

theorem punctuation_append (isWordChar : Char → Bool) (text : List Char) :
    (punctuation isWordChar text).1 ++ (punctuation isWordChar text).2 = text := by
  induction text with
  | nil => rfl
  | cons c rest ih =>
      rw [punctuation]
      split
      · rw [List.cons_append, ih]
      · rfl

theorem length_punctuation_le (isWordChar : Char → Bool) (text : List Char) :
    (punctuation isWordChar text).2.length ≤ text.length := by
  have h := congrArg List.length (punctuation_append isWordChar text)
  rw [List.length_append] at h
  omega

def wordRole (branch mnemonicSeen : Bool) (w : List Char) : Role :=
  -- Prefixes share the mnemonic's colour.
  if mnemonicSeen = false then if branch then .SynJump else .SynMnemonic
  else if isRegister w then .SynRegister
  else if isImmediate w then if branch then .SynTarget else .SynImmediate
  else if keywords.contains (String.ofList w) then .Muted
  else .Text

/-- The loop of `tokenize` from one position on. -/
def tokenizeFrom (branch mnemonicSeen : Bool) : List Char → List Token
  | [] => []
  | c :: rest =>
      if c = ';' then [⟨c :: rest, .SynPunct⟩]
      else if isWordChar c || negHex (c :: rest) then
        -- The sign is no word character: either way the word is `c` and what follows.
        let word := c :: rest.takeWhile isWordChar
        let w := lower word
        ⟨word, wordRole branch mnemonicSeen w⟩ ::
          tokenizeFrom branch (mnemonicSeen || !isPrefixWord w) (rest.dropWhile isWordChar)
      else
        ⟨c :: (punctuation isWordChar rest).1, .SynPunct⟩ ::
          tokenizeFrom branch mnemonicSeen (punctuation isWordChar rest).2
termination_by text => text.length
decreasing_by
  · exact Nat.lt_succ_of_le (List.length_dropWhile_le _ _)
  · exact Nat.lt_succ_of_le (length_punctuation_le _ _)

def tokenize (text : List Char) (branch : Bool) : List Token := tokenizeFrom branch false text

/-- What the delegate asks Qt about a text. -/
structure Qt where
  isLetterOrNumber : Char → Bool
  toLower : List Char → List Char
  toLongLong : List Char → Option Int

/-- The colours of `gui::Theme` that an instruction is painted in. -/
structure Theme (Color : Type) where
  text : Color
  textBright : Color
  textMuted : Color
  synMnemonic : Color
  synJump : Color
  synRegister : Color
  synImmediate : Color
  synTarget : Color
  synPunct : Color

namespace DisasmDelegate

structure Token (Color : Type) where
  text : List Char
  color : Color
  deriving DecidableEq

section Tokenizer

variable {Color : Type} (qt : Qt) (theme : Theme Color)

def isImmediate (w : List Char) : Bool :=
  if startsHex w then true else (qt.toLongLong w).isSome

def isWordChar (c : Char) : Bool := qt.isLetterOrNumber c || c = '_' || c = '.'

def wordColor (jumpContext mnemonicSeen : Bool) (lower : List Char) : Color :=
  if mnemonicSeen = false then if jumpContext then theme.synJump else theme.synMnemonic
  else if isRegister lower then theme.synRegister
  else if isImmediate qt lower then if jumpContext then theme.synTarget else theme.synImmediate
  else if keywords.contains (String.ofList lower) then theme.textMuted
  else theme.text

/-- The loop of `tokenize` from one position on. -/
def tokenizeFrom (branch inComment mnemonicSeen : Bool) : List Char → List (Token Color)
  | [] => []
  | c :: rest =>
      if inComment then [⟨c :: rest, theme.synPunct⟩]
      else if c = ';' then tokenizeFrom branch true mnemonicSeen (c :: rest)
      else if isWordChar qt c || negHex (c :: rest) then
        let word := c :: rest.takeWhile (isWordChar qt)
        let lower := qt.toLower word
        ⟨word, wordColor qt theme branch mnemonicSeen lower⟩ ::
          tokenizeFrom branch inComment (mnemonicSeen || !isPrefixWord lower)
            (rest.dropWhile (isWordChar qt))
      else
        ⟨c :: (punctuation (isWordChar qt) rest).1, theme.synPunct⟩ ::
          tokenizeFrom branch inComment mnemonicSeen (punctuation (isWordChar qt) rest).2
termination_by text => (text.length, if inComment then 0 else 1)
decreasing_by
  · rename_i hcomment _
    simp [hcomment, Prod.lex_def]
  · exact Prod.Lex.left _ _ (Nat.lt_succ_of_le (List.length_dropWhile_le _ _))
  · exact Prod.Lex.left _ _ (Nat.lt_succ_of_le (length_punctuation_le _ _))

def tokenize (text : List Char) (branch : Bool) : List (Token Color) :=
  tokenizeFrom qt theme branch false false text

end Tokenizer

end DisasmDelegate

section Pieces

/-- The tokens leave nothing of the text out. -/
theorem flatMap_tokenizeFrom (branch mnemonicSeen : Bool) (text : List Char) :
    (tokenizeFrom branch mnemonicSeen text).flatMap Token.text = text := by
  fun_induction tokenizeFrom branch mnemonicSeen text with
  | case1 mnemonicSeen => rfl
  | case2 mnemonicSeen rest => exact List.append_nil _
  | case3 mnemonicSeen c rest hcomment hword word w ih =>
      rw [List.flatMap_cons, ih]
      exact congrArg (c :: ·) List.takeWhile_append_dropWhile
  | case4 mnemonicSeen c rest hcomment hword ih =>
      rw [List.flatMap_cons, ih]
      exact congrArg (c :: ·) (punctuation_append isWordChar rest)

theorem flatMap_tokenize (text : List Char) (branch : Bool) :
    (tokenize text branch).flatMap Token.text = text :=
  flatMap_tokenizeFrom branch false text

theorem infix_of_mem_tokenize {text : List Char} {branch : Bool} {token : Token}
    (h : token ∈ tokenize text branch) : token.text <:+: text := by
  have hstretch := List.infix_of_mem_flatten (@List.mem_map_of_mem _ _ _ _ Token.text h)
  rwa [← List.flatMap_def, flatMap_tokenize] at hstretch

end Pieces

section Numbers

/-- What `QString::toLongLong` makes of digits with or without a sign. -/
def longLong : List Char → Option Int
  | '-' :: digits => (numberOf 10 digits).bind fun n => if n ≤ 2 ^ 63 then some (-n) else none
  | digits => (numberOf 10 digits).bind fun n => if n < 2 ^ 63 then some n else none

/-- A decimal number of more than 64 bits. -/
def overlong (w : List Char) : Bool := isImmediate w && !startsHex w && (longLong w).isNone

theorem digitValue_of_isDigit {digit : Char} (h : digit.isDigit = true) :
    ∃ value < 10, digitValue 10 digit = some value := by
  have hcode : 48 ≤ digit.toNat ∧ digit.toNat ≤ 57 := by
    simpa [Char.isDigit, UInt32.le_iff_toNat_le] using h
  obtain ⟨value, hvalue⟩ : ∃ value, digit.toNat = 48 + value := ⟨digit.toNat - 48, by omega⟩
  have hsmall : value < 10 := by omega
  have hdigit : digit = Nat.digitChar value := by
    apply Char.toNat_inj.mp
    rw [hvalue]
    clear hcode hvalue h
    interval_cases value <;> rfl
  exact ⟨value, hsmall, hdigit ▸ digitValue_digitChar (by decide) hsmall⟩

theorem isDigit_of_digitValue {digit : Char} (h : (digitValue 10 digit).isSome = true) :
    digit.isDigit = true := by
  have hdigits : "0123456789abcdef".toList.all (fun digit =>
      !(digitValue 10 digit).isSome || digit.isDigit) = true := by decide
  have hmem : digit ∈ "0123456789abcdef".toList := by
    by_contra hnone
    rw [digitValue, List.idxOf?_eq_none_iff.mpr hnone] at h
    contradiction
  have hdigit := List.all_eq_true.mp hdigits digit hmem
  rwa [h, Bool.not_true, Bool.false_or] at hdigit

theorem digitsValue_of_isDigit {digits : List Char} (h : digits.all Char.isDigit = true) :
    ∃ n < 10 ^ digits.length, digitsValue 10 digits = some n := by
  induction digits using List.reverseRecOn with
  | nil => exact ⟨0, Nat.one_pos, rfl⟩
  | append_singleton digits digit ih =>
      rw [List.all_append, Bool.and_eq_true, List.all_cons, List.all_nil, Bool.and_true] at h
      obtain ⟨n, hn, hdigits⟩ := ih h.1
      obtain ⟨value, hvalue, hdigit⟩ := digitValue_of_isDigit h.2
      refine ⟨10 * n + value, ?_, ?_⟩
      · rw [List.length_append, List.length_singleton, Nat.pow_succ]
        omega
      · rw [digitsValue_append, hdigits, hdigit]
        rfl

theorem isDigit_of_digitsValue {digits : List Char} (h : (digitsValue 10 digits).isSome = true) :
    digits.all Char.isDigit = true := by
  induction digits using List.reverseRecOn with
  | nil => rfl
  | append_singleton digits digit ih =>
      rw [digitsValue_append, Option.isSome_bind, Option.any_eq_true] at h
      obtain ⟨n, hdigits, hlast⟩ := h
      rw [Option.isSome_map] at hlast
      rw [List.all_append, Bool.and_eq_true]
      refine ⟨ih (by rw [hdigits]; rfl), ?_⟩
      rw [List.all_cons, isDigit_of_digitValue hlast]
      rfl

theorem isImmediate_of_longLong {w : List Char} (h : (longLong w).isSome = true) :
    isImmediate w = true := by
  have hdigits {digits : List Char} {fits : Nat → Option Int}
      (hsome : ((numberOf 10 digits).bind fits).isSome = true) :
      digits ≠ [] ∧ digits.all Char.isDigit = true := by
    rw [numberOf] at hsome
    split at hsome
    · contradiction
    · rename_i hne
      rw [Option.isSome_bind] at hsome
      exact ⟨hne, isDigit_of_digitsValue (Option.isSome_of_any hsome)⟩
  rw [isImmediate]
  split
  · rfl
  rw [longLong.eq_def] at h
  split at h
  · obtain ⟨hne, hall⟩ := hdigits h
    simp [hne, hall]
  · rename_i hunsigned
    obtain ⟨hne, hall⟩ := hdigits h
    have hhead : w.head? ≠ some '-' := by
      intro hminus
      obtain ⟨digits, rfl⟩ := List.head?_eq_some_iff.mp hminus
      exact hunsigned digits rfl
    simp [hne, hall, hhead]

/-- A capital becomes a letter 32 codes on; nothing else changes. -/
theorem toLower_cases (c : Char) :
    c.isUpper = true ∧ c.toLower.isLower = true ∨ c.toLower = c := by
  by_cases hupper : c.val ≥ 'A'.val ∧ c.val ≤ 'Z'.val
  · have hvalue : c.toLower.val = c.val + ('a'.val - 'A'.val) := congrArg Char.val (dif_pos hupper)
    have hlow : 65 ≤ c.val.toNat := UInt32.le_iff_toNat_le.mp hupper.1
    have hhigh : c.val.toNat ≤ 90 := UInt32.le_iff_toNat_le.mp hupper.2
    have hcode : c.toLower.val.toNat = c.val.toNat + 32 := by
      rw [hvalue, UInt32.toNat_add]
      exact Nat.mod_eq_of_lt (by omega : c.val.toNat + 32 < 2 ^ 32)
    refine Or.inl ⟨decide_eq_true hupper, Bool.and_eq_true_iff.mpr ⟨?_, ?_⟩⟩
    · rw [decide_eq_true_eq, ge_iff_le, UInt32.le_iff_toNat_le, hcode]
      exact Nat.add_le_add_right hlow 32
    · rw [decide_eq_true_eq, UInt32.le_iff_toNat_le, hcode]
      exact Nat.add_le_add_right hhigh 32
  · exact Or.inr (dif_neg hupper)

theorem isAlphanum_iff {c : Char} :
    c.isAlphanum = true ↔ (c.isUpper = true ∨ c.isLower = true) ∨ c.isDigit = true := by
  change (c.isUpper || c.isLower || c.isDigit) = true ↔ _
  rw [Bool.or_eq_true, Bool.or_eq_true]

theorem isAlphanum_of_lower {c : Char} (h : c.toLower.isDigit = true) : c.isAlphanum = true := by
  rcases toLower_cases c with ⟨hupper, -⟩ | hsame
  · exact isAlphanum_iff.mpr (Or.inl (Or.inl hupper))
  · rw [hsame] at h
    exact isAlphanum_iff.mpr (Or.inr h)

/-- A decimal number of at most eighteen digits fits. -/
theorem not_overlong {word : List Char}
    (h : ∀ stretch, stretch <:+: word → (∀ c ∈ stretch, c.isAlphanum = true) →
      stretch.length ≤ 18) : overlong (lower word) = false := by
  have hfits {digits : List Char} (hstretch : digits <:+: word) (hne : lower digits ≠ [])
      (hall : (lower digits).all Char.isDigit = true) :
      ∃ n < 2 ^ 63, numberOf 10 (lower digits) = some n := by
    obtain ⟨n, hn, hvalue⟩ := digitsValue_of_isDigit hall
    have hlength : (lower digits).length ≤ 18 := by
      rw [lower, List.length_map]
      apply h digits hstretch
      rw [lower, List.all_map, List.all_eq_true] at hall
      exact fun c hc => isAlphanum_of_lower (hall c hc)
    have hpow := Nat.pow_le_pow_right (by decide : 10 > 0) hlength
    exact ⟨n, by omega, by rw [numberOf, if_neg hne, hvalue]⟩
  have hsome : isImmediate (lower word) = true → startsHex (lower word) = false →
      (longLong (lower word)).isSome = true := by
    intro himmediate hhex
    rw [isImmediate, if_neg (by rw [hhex]; decide)] at himmediate
    split at himmediate
    · contradiction
    rename_i hne
    rw [List.isEmpty_iff] at hne
    rw [longLong.eq_def]
    split
    · rename_i digits hminus
      obtain ⟨c, rest, rfl, -, rfl⟩ := List.map_eq_cons_iff.mp hminus
      simp only [hminus, List.head?_cons, if_true, List.tail_cons] at himmediate
      split at himmediate
      · contradiction
      rename_i hdigits
      obtain ⟨n, hn, hnumber⟩ := hfits (List.suffix_cons c rest).isInfix
        (mt List.isEmpty_iff.mpr hdigits) himmediate
      change ((numberOf 10 (lower rest)).bind _).isSome = true
      rw [hnumber, Option.bind_some, if_pos hn.le]
      rfl
    · rename_i hunsigned
      have hhead : (lower word).head? ≠ some '-' := by
        intro hminus
        obtain ⟨digits, hdigits⟩ := List.head?_eq_some_iff.mp hminus
        exact hunsigned digits hdigits
      simp only [if_neg hhead] at himmediate
      split at himmediate
      · contradiction
      obtain ⟨n, hn, hnumber⟩ := hfits (List.infix_refl word) hne himmediate
      rw [hnumber, Option.bind_some, if_pos hn]
      rfl
  rw [overlong]
  cases himmediate : isImmediate (lower word) with
  | false => rfl
  | true =>
      cases hhex : startsHex (lower word) with
      | true => rfl
      | false => simpa using hsome himmediate hhex

end Numbers

section Agreement

def IsAscii (text : List Char) : Prop := ∀ symbol ∈ text, symbol.toNat < 128

instance (text : List Char) : Decidable (IsAscii text) :=
  decidable_of_iff (text.all (fun symbol => symbol.toNat < 128) = true) (by simp [IsAscii])

/-- Qt on ASCII. -/
structure Qt.Documented (qt : Qt) : Prop where
  isLetterOrNumber : ∀ c : Char, c.toNat < 128 → qt.isLetterOrNumber c = c.isAlphanum
  toLower : ∀ text, IsAscii text → qt.toLower text = lower text
  toLongLong : ∀ w, (∀ c ∈ w, isWordChar c = true ∨ c = '-') → qt.toLongLong w = longLong w

def Theme.colorOf {Color : Type} (theme : Theme Color) : Role → Color
  | .Text => theme.text
  | .Bright => theme.textBright
  | .Muted => theme.textMuted
  | .SynMnemonic => theme.synMnemonic
  | .SynJump => theme.synJump
  | .SynRegister => theme.synRegister
  | .SynImmediate => theme.synImmediate
  | .SynTarget => theme.synTarget
  | .SynPunct => theme.synPunct

/-- The role that the delegate gives a token: for it a number beyond 64 bits is none. -/
def delegateRole (token : Token) : Role :=
  if (token.role = .SynImmediate ∨ token.role = .SynTarget) ∧ overlong (lower token.text) then .Text
  else token.role

variable {Color : Type} {qt : Qt}

theorem isWordChar_eq (h : qt.Documented) {c : Char} (hc : c.toNat < 128) :
    DisasmDelegate.isWordChar qt c = isWordChar c := by
  rw [DisasmDelegate.isWordChar, isWordChar, h.isLetterOrNumber c hc]

theorem takeWhile_isWordChar (h : qt.Documented) {text : List Char} (hascii : IsAscii text) :
    text.takeWhile (DisasmDelegate.isWordChar qt) = text.takeWhile isWordChar ∧
      text.dropWhile (DisasmDelegate.isWordChar qt) = text.dropWhile isWordChar := by
  induction text with
  | nil => exact ⟨rfl, rfl⟩
  | cons c rest ih =>
      rw [IsAscii, List.forall_mem_cons] at hascii
      obtain ⟨htake, hdrop⟩ := ih hascii.2
      rw [List.takeWhile_cons, List.takeWhile_cons, List.dropWhile_cons, List.dropWhile_cons,
        isWordChar_eq h hascii.1, htake, hdrop]
      exact ⟨rfl, rfl⟩

theorem punctuation_isWordChar (h : qt.Documented) {text : List Char} (hascii : IsAscii text) :
    punctuation (DisasmDelegate.isWordChar qt) text = punctuation isWordChar text := by
  induction text with
  | nil => rfl
  | cons c rest ih =>
      rw [IsAscii, List.forall_mem_cons] at hascii
      rw [punctuation, punctuation, isWordChar_eq h hascii.1, ih hascii.2]

theorem isImmediate_eq (h : qt.Documented) {w : List Char}
    (hw : ∀ c ∈ w, isWordChar c = true ∨ c = '-') :
    DisasmDelegate.isImmediate qt w = (isImmediate w && !overlong w) := by
  rw [DisasmDelegate.isImmediate, h.toLongLong w hw, overlong]
  cases hhex : startsHex w with
  | true => simp [isImmediate, hhex]
  | false =>
      cases hvalue : longLong w with
      | none => simp
      | some value =>
          have hsome : (longLong w).isSome = true := by rw [hvalue]; rfl
          simp [isImmediate_of_longLong hsome]

theorem wordColor_eq (h : qt.Documented) (theme : Theme Color) (branch mnemonicSeen : Bool)
    {word : List Char} (hw : ∀ c ∈ lower word, isWordChar c = true ∨ c = '-') :
    DisasmDelegate.wordColor qt theme branch mnemonicSeen (lower word) =
      theme.colorOf (delegateRole ⟨word, wordRole branch mnemonicSeen (lower word)⟩) := by
  have hkeywords : ∀ keyword ∈ keywords, isImmediate keyword.toList = false := by decide
  have hnumber (himmediate : isImmediate (lower word) = true) :
      String.ofList (lower word) ∉ keywords := by
    intro hkeyword
    have hnone := hkeywords _ hkeyword
    rw [String.toList_ofList, himmediate] at hnone
    contradiction
  rw [DisasmDelegate.wordColor, isImmediate_eq h hw, delegateRole, wordRole]
  cases mnemonicSeen with
  | false => cases branch <;> rfl
  | true =>
      cases isRegister (lower word) with
      | true => rfl
      | false =>
          cases himmediate : isImmediate (lower word) with
          | false => cases keywords.contains (String.ofList (lower word)) <;> rfl
          | true =>
              cases hlong : overlong (lower word) with
              | false => cases branch <;> simp [Theme.colorOf]
              | true => cases branch <;> simp [hnumber himmediate, Theme.colorOf]

theorem isAscii_append {first second : List Char} :
    IsAscii (first ++ second) ↔ IsAscii first ∧ IsAscii second := by
  rw [IsAscii, List.forall_mem_append]
  rfl

theorem isWordChar_toLower {c : Char} (h : isWordChar c = true) :
    isWordChar c.toLower = true := by
  rcases toLower_cases c with ⟨-, hlower⟩ | hsame
  · rw [isWordChar, isAlphanum_iff.mpr (Or.inl (Or.inr hlower))]
    rfl
  · rwa [hsame]

/-- The word that begins here is one of word characters, but for a sign in front. -/
theorem isWordChar_lower {c : Char} {rest : List Char}
    (hc : (isWordChar c || negHex (c :: rest)) = true) :
    ∀ symbol ∈ lower (c :: rest.takeWhile isWordChar), isWordChar symbol = true ∨ symbol = '-' := by
  rw [lower, List.forall_mem_map, List.forall_mem_cons]
  constructor
  · rcases Bool.or_eq_true_iff.mp hc with hword | hsign
    · exact Or.inl (isWordChar_toLower hword)
    · rw [negHex.eq_def] at hsign
      split at hsign
      · rename_i heq
        obtain ⟨rfl, -⟩ := List.cons.inj heq
        exact Or.inr rfl
      · contradiction
  · intro symbol hsymbol
    exact Or.inl (isWordChar_toLower (List.mem_takeWhile_imp hsymbol))

theorem tokenizeFrom_eq (h : qt.Documented) (theme : Theme Color) (branch mnemonicSeen : Bool)
    (text : List Char) (hascii : IsAscii text) :
    DisasmDelegate.tokenizeFrom qt theme branch false mnemonicSeen text =
      (tokenizeFrom branch mnemonicSeen text).map fun token =>
        ⟨token.text, theme.colorOf (delegateRole token)⟩ := by
  fun_induction tokenizeFrom branch mnemonicSeen text with
  | case1 mnemonicSeen => rw [DisasmDelegate.tokenizeFrom, List.map_nil]
  | case2 mnemonicSeen rest =>
      rw [DisasmDelegate.tokenizeFrom, if_neg (by decide), if_pos rfl, DisasmDelegate.tokenizeFrom,
        if_pos rfl]
      rfl
  | case3 mnemonicSeen c rest hcomment hword word w ih =>
      rw [IsAscii, List.forall_mem_cons] at hascii
      obtain ⟨htake, hdrop⟩ := takeWhile_isWordChar h hascii.2
      have hparts := @isAscii_append (rest.takeWhile isWordChar) (rest.dropWhile isWordChar)
      rw [List.takeWhile_append_dropWhile] at hparts
      replace hparts := hparts.mp hascii.2
      have hlower : qt.toLower word = w :=
        h.toLower word (List.forall_mem_cons.mpr ⟨hascii.1, hparts.1⟩)
      rw [DisasmDelegate.tokenizeFrom, if_neg (by decide), if_neg hcomment,
        isWordChar_eq h hascii.1, if_pos hword, htake, hdrop]
      dsimp only
      rw [hlower, ih hparts.2, wordColor_eq h theme _ _ (isWordChar_lower hword)]
      rfl
  | case4 mnemonicSeen c rest hcomment hword ih =>
      rw [IsAscii, List.forall_mem_cons] at hascii
      have hparts :=
        @isAscii_append (punctuation isWordChar rest).1 (punctuation isWordChar rest).2
      rw [punctuation_append] at hparts
      replace hparts := hparts.mp hascii.2
      rw [DisasmDelegate.tokenizeFrom, if_neg (by decide), if_neg hcomment,
        isWordChar_eq h hascii.1, if_neg hword, punctuation_isWordChar h hascii.2, ih hparts.2]
      rfl

/-- The two frontends cut a text into the same tokens, in roles that differ on numbers beyond 64
bits only. -/
theorem tokenize_eq (qt : Qt) (h : qt.Documented) (Color : Type) (theme : Theme Color)
    (text : List Char) (hascii : IsAscii text) (branch : Bool) :
    DisasmDelegate.tokenize qt theme text branch =
      (tokenize text branch).map fun token =>
        ⟨token.text, theme.colorOf (delegateRole token)⟩ :=
  tokenizeFrom_eq h theme branch false text hascii

/-- Qt as far as ASCII goes. -/
def asciiQt : Qt where
  isLetterOrNumber := Char.isAlphanum
  toLower := lower
  toLongLong := longLong

theorem asciiQt_documented : asciiQt.Documented := by
  constructor
  · exact fun _ _ => rfl
  · exact fun _ _ => rfl
  · exact fun _ _ => rfl

/-- A theme in which the colours tell the roles. -/
def roles : Theme Role where
  text := .Text
  textBright := .Bright
  textMuted := .Muted
  synMnemonic := .SynMnemonic
  synJump := .SynJump
  synRegister := .SynRegister
  synImmediate := .SynImmediate
  synTarget := .SynTarget
  synPunct := .SynPunct

/-- A number of 64 bits and one more: the terminal still draws it as an immediate. -/
theorem tokenize_eq_beyond :
    delegateRole ⟨"18446744073709551616".toList, .SynImmediate⟩ = .Text ∧
      DisasmDelegate.tokenize asciiQt roles "add eax, 18446744073709551616".toList false =
        (tokenize "add eax, 18446744073709551616".toList false).map fun token =>
          ⟨token.text, roles.colorOf (delegateRole token)⟩ :=
  ⟨by decide +kernel, tokenize_eq asciiQt asciiQt_documented Role roles _ (by decide) false⟩

end Agreement

end Voidwalk.Syntax

import Mathlib.Data.List.TakeWhile
import Mathlib.Tactic.Common
import Mathlib.Tactic.IntervalCases

/-!
Texts of sums such as `A + B*4 - 0x10`: terms with a space, a sign and a space between
them. A term is a name, a name times a decimal number, or a hexadecimal number.
-/

namespace Voidwalk.Library.SumText

def digitValue (base : Nat) (digit : Char) : Option Nat :=
  ("0123456789abcdef".toList.idxOf? digit).filter fun value => value < base

def digitsValue (base : Nat) (digits : List Char) : Option Nat :=
  digits.foldlM (fun value digit => (digitValue base digit).map fun last => base * value + last) 0

/-- The number that a text of at least one digit stands for. -/
def numberOf (base : Nat) (digits : List Char) : Option Nat :=
  if digits = [] then none else digitsValue base digits

theorem digitValue_digitChar {base value : Nat} (hbase : base ≤ 16) (h : value < base) :
    digitValue base (Nat.digitChar value) = some value := by
  have hindex : "0123456789abcdef".toList.idxOf? (Nat.digitChar value) = some value := by
    have hvalue : value < 16 := Nat.lt_of_lt_of_le h hbase
    interval_cases value <;> decide
  rw [digitValue, hindex, Option.filter_some, if_pos (by simpa using h)]

theorem digitsValue_append (base : Nat) (digits : List Char) (digit : Char) :
    digitsValue base (digits ++ [digit]) =
      (digitsValue base digits).bind fun value =>
        (digitValue base digit).map fun last => base * value + last := by
  rw [digitsValue, List.foldlM_append]
  simp [digitsValue]

theorem digitsValue_toDigits {base : Nat} (hlow : 1 < base) (hhigh : base ≤ 16) (n : Nat) :
    digitsValue base (Nat.toDigits base n) = some n := by
  induction n using Nat.strongRecOn with
  | ind n ih =>
      rw [Nat.toDigits_eq_if hlow]
      split
      · rename_i hsmall
        simp [digitsValue, digitValue_digitChar hhigh hsmall]
      · rename_i hlarge
        have hsmaller : n / base < n := Nat.div_lt_self (by omega) hlow
        have hlast : n % base < base := Nat.mod_lt n (by omega)
        rw [digitsValue_append, ih _ hsmaller, digitValue_digitChar hhigh hlast, Option.bind_some,
          Option.map_some, Nat.div_add_mod]

theorem toDigits_ne_nil (base n : Nat) : Nat.toDigits base n ≠ [] :=
  List.ne_nil_of_length_pos Nat.length_toDigits_pos

theorem numberOf_toDigits {base : Nat} (hlow : 1 < base) (hhigh : base ≤ 16) (n : Nat) :
    numberOf base (Nat.toDigits base n) = some n := by
  rw [numberOf, if_neg (toDigits_ne_nil base n), digitsValue_toDigits hlow hhigh]

/-- Zeros in front do not change a number. -/
theorem numberOf_leftpad {base : Nat} (hlow : 1 < base) (hhigh : base ≤ 16) (width n : Nat) :
    numberOf base ((Nat.toDigits base n).leftpad width '0') = some n := by
  have hzeros (count : Nat) :
      digitsValue base (List.replicate count '0' ++ Nat.toDigits base n) = some n := by
    induction count with
    | zero => exact digitsValue_toDigits hlow hhigh n
    | succ count ih =>
        have hzero : digitValue base '0' = some 0 :=
          digitValue_digitChar hhigh (Nat.zero_lt_of_lt hlow)
        rw [List.replicate_succ, List.cons_append, digitsValue, List.foldlM_cons, hzero]
        exact ih
  have hne : (Nat.toDigits base n).leftpad width '0' ≠ [] := by
    rw [List.leftpad]
    exact List.append_ne_nil_of_right_ne_nil _ (toDigits_ne_nil base n)
  rw [numberOf, if_neg hne]
  exact hzeros _

theorem eq_digitChar_of_mem {base n : Nat} {symbol : Char} (hlow : 1 < base)
    (h : symbol ∈ Nat.toDigits base n) : ∃ digit < base, symbol = Nat.digitChar digit := by
  induction n using Nat.strongRecOn with
  | ind n ih =>
      rw [Nat.toDigits_eq_if hlow] at h
      split at h
      · rename_i hsmall
        exact ⟨n, hsmall, List.mem_singleton.mp h⟩
      · rcases List.mem_append.mp h with hfirst | hlast
        · exact ih (n / base) (Nat.div_lt_self (by omega) hlow) hfirst
        · exact ⟨n % base, Nat.mod_lt n (by omega), List.mem_singleton.mp hlast⟩

theorem not_mem_toDigits {base : Nat} {symbol : Char} (hlow : 1 < base) (hhigh : base ≤ 16)
    (hsymbol : ∀ digit < 16, symbol ≠ Nat.digitChar digit) (n : Nat) :
    symbol ∉ Nat.toDigits base n := by
  intro hmem
  obtain ⟨digit, hdigit, heq⟩ := eq_digitChar_of_mem hlow hmem
  exact hsymbol digit (Nat.lt_of_lt_of_le hdigit hhigh) heq

section Sums

variable (lookup : List Char → Option Int)

def termValue : List Char → Option Int
  | '0' :: 'x' :: digits => (numberOf 16 digits).map Int.ofNat
  | text =>
      (lookup (text.takeWhile (· != '*'))).bind fun value =>
        match text.dropWhile (· != '*') with
        | [] => some value
        | _ :: factor => (numberOf 10 factor).map fun n => value * Int.ofNat n

/-- Adds to a total what the words behind it say: a sign, then a term. -/
def addWords (total : Int) : List (List Char) → Option Int
  | [] => some total
  | ['+'] :: word :: rest => (termValue lookup word).bind fun value => addWords (total + value) rest
  | ['-'] :: word :: rest => (termValue lookup word).bind fun value => addWords (total - value) rest
  | _ => none

def evaluate (text : List Char) : Option Int :=
  match text.splitOn ' ' with
  | [] => none
  | word :: rest => (termValue lookup word).bind fun value => addWords lookup value rest

/-- A name: one word that is no number and no product. -/
structure IsName (name : List Char) : Prop where
  oneWord : ' ' ∉ name
  noProduct : '*' ∉ name
  noNumber : name.head? ≠ some '0'

instance (name : List Char) : Decidable (IsName name) :=
  decidable_of_iff (' ' ∉ name ∧ '*' ∉ name ∧ name.head? ≠ some '0')
    ⟨fun h => ⟨h.1, h.2.1, h.2.2⟩, fun h => ⟨h.1, h.2, h.3⟩⟩

end Sums

section Rules

variable {lookup : List Char → Option Int} {text word name : List Char} {total value : Int}

theorem termValue_hex (lookup : List Char → Option Int) (n : Nat) :
    termValue lookup ('0' :: 'x' :: Nat.toDigits 16 n) = some (n : Int) := by
  rw [termValue, numberOf_toDigits (by decide) (by decide)]
  rfl

theorem termValue_of_head (h : text.head? ≠ some '0') :
    termValue lookup text =
      (lookup (text.takeWhile (· != '*'))).bind fun value =>
        match text.dropWhile (· != '*') with
        | [] => some value
        | _ :: factor => (numberOf 10 factor).map fun n => value * Int.ofNat n := by
  rw [termValue]
  rintro digits rfl
  exact h rfl

theorem IsName.ne_star (hname : IsName name) : ∀ symbol ∈ name, (symbol != '*') = true := by
  intro symbol hsymbol
  rw [bne_iff_ne]
  rintro rfl
  exact hname.noProduct hsymbol

theorem termValue_name (hname : IsName name) (hvalue : lookup name = some value) :
    termValue lookup name = some value := by
  rw [termValue_of_head hname.noNumber, List.takeWhile_eq_self_iff.mpr hname.ne_star,
    List.dropWhile_eq_nil_iff.mpr hname.ne_star, hvalue]
  rfl

theorem termValue_scaled (hname : IsName name) (hvalue : lookup name = some value) (factor : Nat) :
    termValue lookup (name ++ '*' :: Nat.toDigits 10 factor) = some (value * factor) := by
  have hhead : (name ++ '*' :: Nat.toDigits 10 factor).head? ≠ some '0' := by
    rcases name with _ | ⟨symbol, name⟩
    · simp
    · simpa using hname.noNumber
  rw [termValue_of_head hhead, List.takeWhile_append_of_pos hname.ne_star,
    List.dropWhile_append_of_pos hname.ne_star, List.takeWhile_cons_of_neg (by simp),
    List.dropWhile_cons_of_neg (by simp), List.append_nil, hvalue, Option.bind_some]
  change (numberOf 10 (Nat.toDigits 10 factor)).map _ = _
  rw [numberOf_toDigits (by decide) (by decide)]
  rfl

theorem addWords_append {words : List (List Char)} (h : addWords lookup total words = some value)
    (more : List (List Char)) :
    addWords lookup total (words ++ more) = addWords lookup value more := by
  induction total, words using addWords.induct generalizing value with
  | case1 total =>
      rw [addWords, Option.some.injEq] at h
      rw [h, List.nil_append]
  | case2 total word rest ih =>
      rw [addWords, Option.bind_eq_some_iff] at h
      obtain ⟨first, hfirst, hrest⟩ := h
      rw [List.cons_append, List.cons_append, addWords, hfirst, Option.bind_some]
      exact ih first hrest
  | case3 total word rest ih =>
      rw [addWords, Option.bind_eq_some_iff] at h
      obtain ⟨first, hfirst, hrest⟩ := h
      rw [List.cons_append, List.cons_append, addWords, hfirst, Option.bind_some]
      exact ih first hrest
  | case4 total words hnil hplus hminus =>
      rw [addWords] at h
      · contradiction
      all_goals assumption

theorem evaluate_term (hword : ' ' ∉ word) (hvalue : termValue lookup word = some value) :
    evaluate lookup word = some value := by
  rw [evaluate, List.splitOn_eq_singleton hword]
  simp [hvalue, addWords]

/-- A sign and a term behind a sum add to its value. -/
theorem evaluate_append (htext : evaluate lookup text = some total) {sign : Char}
    (hsign : sign ≠ ' ') (hword : ' ' ∉ word) :
    evaluate lookup (text ++ ' ' :: sign :: ' ' :: word) =
      addWords lookup total [[sign], word] := by
  have hsplit : (text ++ ' ' :: sign :: ' ' :: word).splitOn ' ' =
      text.splitOn ' ' ++ [[sign], word] := by
    rw [List.splitOn_append_cons_self,
      show sign :: ' ' :: word = [sign] ++ ' ' :: word from rfl, List.splitOn_append_cons_self,
      List.splitOn_eq_singleton hword,
      @List.splitOn_eq_singleton _ [sign] _ _ ' ' (by simpa using hsign.symm)]
    rfl
  rw [evaluate] at htext ⊢
  rw [hsplit]
  rcases hwords : text.splitOn ' ' with _ | ⟨first, rest⟩
  · exact absurd hwords (List.splitOn_ne_nil ' ' text)
  · rw [hwords] at htext
    obtain ⟨value, hvalue, hrest⟩ := Option.bind_eq_some_iff.mp htext
    simp only [List.cons_append, hvalue, Option.bind_some]
    exact addWords_append hrest _

theorem evaluate_plus (htext : evaluate lookup text = some total) (hword : ' ' ∉ word)
    (hvalue : termValue lookup word = some value) :
    evaluate lookup (text ++ ' ' :: '+' :: ' ' :: word) = some (total + value) := by
  rw [evaluate_append htext (by decide) hword]
  simp [addWords, hvalue]

theorem evaluate_minus (htext : evaluate lookup text = some total) (hword : ' ' ∉ word)
    (hvalue : termValue lookup word = some value) :
    evaluate lookup (text ++ ' ' :: '-' :: ' ' :: word) = some (total - value) := by
  rw [evaluate_append htext (by decide) hword]
  simp [addWords, hvalue]

end Rules

end Voidwalk.Library.SumText

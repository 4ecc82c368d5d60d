import Mathlib.Data.List.TakeWhile
import Mathlib.Data.Nat.Digits.Defs
import Mathlib.Tactic.Common
import Mathlib.Tactic.IntervalCases
import Voidwalk.Library.Bytes

/-!
Hexadecimal numbers in texts of bytes, as `std::stoull(text, &used, 16)` reads them, and as
`"%0*llx"` writes them.
-/

namespace Voidwalk.Library.HexWords

open Voidwalk.Library.Bytes

section Reading

/-- `isspace` of the C locale. -/
def isSpace (byte : UInt8) : Bool := byte == 0x20 || (0x09 ≤ byte && byte ≤ 0x0D)

def digitValue (byte : UInt8) : Option Nat :=
  if 0x30 ≤ byte && byte ≤ 0x39 then some (byte.toNat - 0x30)
  else if 0x61 ≤ byte && byte ≤ 0x66 then some (byte.toNat - 0x57)
  else if 0x41 ≤ byte && byte ≤ 0x46 then some (byte.toNat - 0x37)
  else none

def isDigit (byte : UInt8) : Bool := (digitValue byte).isSome

def valueOf (digits : List UInt8) : Nat :=
  digits.foldl (fun value digit => 16 * value + (digitValue digit).getD 0) 0

/-- Whether a number is negated, and the length of its sign. -/
def sign : List UInt8 → Bool × Nat
  | 0x2D :: _ => (true, 1)
  | 0x2B :: _ => (false, 1)
  | _ => (false, 0)

/-- The length of `0x` in front of a digit. -/
def marker : List UInt8 → Nat
  | 0x30 :: letter :: digit :: _ =>
      if (letter == 0x78 || letter == 0x58) && isDigit digit then 2 else 0
  | _ => 0

/-- The number at the front of a text and how many bytes have been read for it; none where no
number is there or where it has more than 64 bits. -/
def stoull (text : List UInt8) : Option (UInt64 × Nat) :=
  let blanks := (text.takeWhile isSpace).length
  let signed := text.drop blanks
  let marked := signed.drop (sign signed).2
  let digits := (marked.drop (marker marked)).takeWhile isDigit
  if digits = [] ∨ 2 ^ 64 ≤ valueOf digits then none
  else
    let value := UInt64.ofNat (valueOf digits)
    some (if (sign signed).1 then 0 - value else value,
      blanks + (sign signed).2 + marker marked + digits.length)

end Reading

section Digits

variable {text : List UInt8}

theorem isDigit_byte (byte : UInt8) (h : isDigit byte = true) :
    isSpace byte = false ∧ byte ≠ 0x2D ∧ byte ≠ 0x2B ∧ byte ≠ 0x78 ∧ byte ≠ 0x58 := by
  revert h
  revert byte
  exact forall_byte (by decide +kernel)

theorem sign_of_digits (h : ∀ byte ∈ text, isDigit byte = true) : sign text = (false, 0) := by
  rw [sign.eq_def]
  split
  · exact absurd rfl (isDigit_byte _ (h _ List.mem_cons_self)).2.1
  · exact absurd rfl (isDigit_byte _ (h _ List.mem_cons_self)).2.2.1
  · rfl

theorem marker_of_digits (h : ∀ byte ∈ text, isDigit byte = true) : marker text = 0 := by
  rw [marker.eq_def]
  split
  · rename_i letter digit rest
    have hletter := isDigit_byte letter (h letter (by simp))
    rw [if_neg]
    simp [hletter.2.2.2.1, hletter.2.2.2.2]
  · rfl

/-- A text of digits alone is read to its end. -/
theorem stoull_of_digits (h : ∀ byte ∈ text, isDigit byte = true) (hne : text ≠ [])
    (hlt : valueOf text < 2 ^ 64) :
    stoull text = some (UInt64.ofNat (valueOf text), text.length) := by
  have hblanks : text.takeWhile isSpace = [] := by
    cases text with
    | nil => rfl
    | cons first rest =>
        rw [List.takeWhile_cons_of_neg]
        simp [(isDigit_byte first (h first List.mem_cons_self)).1]
  have hdigits : text.takeWhile isDigit = text := List.takeWhile_eq_self_iff.mpr h
  simp only [stoull, hblanks, List.length_nil, List.drop_zero, sign_of_digits h,
    marker_of_digits h, hdigits, Nat.zero_add]
  rw [if_neg (not_or.mpr ⟨hne, Nat.not_le.mpr hlt⟩)]
  rfl

/-- A text of digits, capital or small, for a number. -/
structure Spells (text : List UInt8) (value : Nat) : Prop where
  digits : ∀ byte ∈ text, isDigit byte = true
  ne_nil : text ≠ []
  valueOf_eq : valueOf text = value

theorem Spells.stoull_eq {value : UInt64} (h : Spells text value.toNat) :
    stoull text = some (value, text.length) := by
  have hlt : valueOf text < 2 ^ 64 := h.valueOf_eq.trans_lt value.toNat_lt
  rw [stoull_of_digits h.digits h.ne_nil hlt, h.valueOf_eq, UInt64.ofNat_toNat]

end Digits

section Writing

/-- The bytes of `"%0*llx"`. -/
def hexText (width value : Nat) : List UInt8 :=
  ((Nat.toDigits 16 value).leftpad width '0').map fun symbol => UInt8.ofNat symbol.toNat

theorem digitValue_digitChar {value : Nat} (h : value < 16) :
    digitValue (UInt8.ofNat (Nat.digitChar value).toNat) = some value := by
  interval_cases value <;> rfl

theorem valueOf_append (digits : List UInt8) (digit : UInt8) :
    valueOf (digits ++ [digit]) = 16 * valueOf digits + (digitValue digit).getD 0 := by
  rw [valueOf, List.foldl_append]
  rfl

theorem hexText_zero (value : Nat) :
    hexText 0 value = (Nat.toDigits 16 value).map fun symbol => UInt8.ofNat symbol.toNat := by
  rw [hexText, List.leftpad, Nat.zero_sub]
  rfl

theorem isDigit_of_mem {value : Nat} {byte : UInt8} (h : byte ∈ hexText 0 value) :
    isDigit byte = true := by
  induction value using Nat.strongRecOn with
  | ind value ih =>
      rw [hexText_zero, Nat.toDigits_eq_if (by decide)] at h
      split at h
      · rename_i hsmall
        obtain rfl : byte = _ := by simpa using h
        rw [isDigit, digitValue_digitChar hsmall]
        rfl
      · rename_i hlarge
        rw [List.map_append, List.mem_append, ← hexText_zero] at h
        rcases h with hfront | hlast
        · exact ih _ (Nat.div_lt_self (by omega) (by decide)) hfront
        · obtain rfl : byte = _ := by simpa using hlast
          rw [isDigit, digitValue_digitChar (Nat.mod_lt value (by decide))]
          rfl

theorem valueOf_hexText_zero (value : Nat) : valueOf (hexText 0 value) = value := by
  induction value using Nat.strongRecOn with
  | ind value ih =>
      rw [hexText_zero, Nat.toDigits_eq_if (by decide)]
      split
      · rename_i hsmall
        rw [List.map_singleton, ← List.nil_append [_], valueOf_append,
          digitValue_digitChar hsmall]
        exact Nat.zero_add _
      · rename_i hlarge
        rw [List.map_append, ← hexText_zero, List.map_singleton, valueOf_append,
          ih _ (Nat.div_lt_self (by omega) (by decide)),
          digitValue_digitChar (Nat.mod_lt value (by decide))]
        exact Nat.div_add_mod value 16

theorem hexText_eq (width value : Nat) :
    ∃ zeros, hexText width value = List.replicate zeros 0x30 ++ hexText 0 value := by
  refine ⟨width - (Nat.toDigits 16 value).length, ?_⟩
  rw [hexText, List.leftpad, List.map_append, List.map_replicate, hexText_zero]
  rfl

theorem valueOf_zeros (zeros : Nat) (digits : List UInt8) :
    valueOf (List.replicate zeros 0x30 ++ digits) = valueOf digits := by
  induction zeros with
  | zero => rfl
  | succ zeros ih =>
      rw [List.replicate_succ, List.cons_append, ← ih, valueOf, List.foldl_cons]
      rfl

theorem hexText_digits (width value : Nat) : ∀ byte ∈ hexText width value, isDigit byte = true := by
  obtain ⟨zeros, htext⟩ := hexText_eq width value
  intro byte hbyte
  rw [htext, List.mem_append] at hbyte
  rcases hbyte with hzero | hdigit
  · rw [List.eq_of_mem_replicate hzero]
    rfl
  · exact isDigit_of_mem hdigit

theorem hexText_ne_nil (width value : Nat) : hexText width value ≠ [] := by
  obtain ⟨zeros, htext⟩ := hexText_eq width value
  rw [htext, hexText_zero]
  apply List.append_ne_nil_of_right_ne_nil
  rw [ne_eq, List.map_eq_nil_iff]
  exact List.ne_nil_of_length_pos Nat.length_toDigits_pos

/-- What is written spells the number. -/
theorem spells_hexText (width value : Nat) : Spells (hexText width value) value where
  digits := hexText_digits width value
  ne_nil := hexText_ne_nil width value
  valueOf_eq := by
    obtain ⟨zeros, htext⟩ := hexText_eq width value
    rw [htext, valueOf_zeros, valueOf_hexText_zero]

end Writing

end Voidwalk.Library.HexWords

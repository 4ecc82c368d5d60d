import Mathlib.Data.List.TakeWhile
import Mathlib.Tactic.Common

/-!
Texts that a symbol cuts in two and lists of items with a separator between them, and the
strings of ASCII characters, which can be read off their bytes.
-/

namespace Voidwalk.Library.SeparatedText

/-- The part of a text behind the first `symbol`. -/
def behind (symbol : Char) (text : List Char) : List Char :=
  (text.dropWhile (· != symbol)).drop 1

/-- The part of a text in front of the first `symbol`. -/
def before (symbol : Char) (text : List Char) : List Char := text.takeWhile (· != symbol)

/-- The items of a list written with `symbol` and a blank between them. -/
def listed (symbol : Char) (text : List Char) : List (List Char) :=
  match text.splitOn symbol with
  | [] => []
  | first :: rest => first :: rest.map (List.drop 1)

section Cut

variable {symbol : Char} {front text : List Char}

theorem behind_append (hfront : symbol ∉ front) (text : List Char) :
    behind symbol (front ++ symbol :: text) = text := by
  induction front with
  | nil => simp [behind]
  | cons first front ih =>
      rw [List.mem_cons, not_or] at hfront
      rw [behind, List.cons_append, List.dropWhile_cons_of_pos (by simpa using Ne.symm hfront.1)]
      exact ih hfront.2

theorem before_append (hfront : symbol ∉ front) (text : List Char) :
    before symbol (front ++ symbol :: text) = front := by
  induction front with
  | nil => simp [before]
  | cons first front ih =>
      rw [List.mem_cons, not_or] at hfront
      rw [before, List.cons_append, List.takeWhile_cons_of_pos (by simpa using Ne.symm hfront.1)]
      exact congrArg (first :: ·) (ih hfront.2)

end Cut

section Listed

variable {symbol : Char} {items : List (List Char)}

theorem intercalate_blank (symbol : Char) (first : List Char) (items : List (List Char)) :
    [symbol, ' '].intercalate (first :: items) =
      [symbol].intercalate (first :: items.map (' ' :: ·)) := by
  induction items generalizing first with
  | nil => simp
  | cons second items ih =>
      rw [List.intercalate_cons_cons, ih second, List.map_cons, List.intercalate_cons_cons]
      cases items with
      | nil => simp
      | cons third items => simp [List.intercalate_cons_cons]

/-- The items of a list are read back from its text. -/
theorem listed_intercalate (hsymbol : symbol ≠ ' ') (hitems : ∀ item ∈ items, symbol ∉ item)
    (hne : items ≠ []) : listed symbol ([symbol, ' '].intercalate items) = items := by
  cases items with
  | nil => contradiction
  | cons first items =>
      rw [List.forall_mem_cons] at hitems
      rw [listed, intercalate_blank, List.splitOn_intercalate symbol _ (by simp)]
      · show first :: (items.map (' ' :: ·)).map (List.drop 1) = first :: items
        rw [List.map_map]
        exact congrArg (first :: ·) (List.map_id items)
      · intro item hitem
        rcases List.mem_cons.mp hitem with rfl | hrest
        · exact hitems.1
        · obtain ⟨later, hlater, rfl⟩ := List.mem_map.mp hrest
          rw [List.mem_cons, not_or]
          exact ⟨hsymbol, hitems.2 later hlater⟩

end Listed

section Ascii

/-- The characters of a string, one a byte. -/
def asciiChars (text : String) : List Char :=
  text.toByteArray.data.toList.map fun byte => Char.ofNat byte.toNat

theorem utf8EncodeChar_ascii {symbol : Char}
    (h : ∀ byte ∈ String.utf8EncodeChar symbol, byte < 0x80) :
    (String.utf8EncodeChar symbol).map (fun byte => Char.ofNat byte.toNat) = [symbol] := by
  rw [String.utf8EncodeChar] at h ⊢
  split_ifs at h ⊢ with hone htwo hthree
  · have hbyte : (UInt8.ofNat symbol.val.toNat).toNat = symbol.toNat := by
      rw [UInt8.toNat_ofNat']
      exact Nat.mod_eq_of_lt (by omega)
    rw [List.map_cons, List.map_nil, hbyte, Char.ofNat_toNat]
  -- The first byte of a longer encoding is not below 80.
  all_goals
    have hfirst : _ < 128 := UInt8.lt_iff_toNat_lt.mp (h _ List.mem_cons_self)
    rw [UInt8.toNat_ofNat'] at hfirst
    omega

theorem toList_eq_asciiChars {text : String}
    (h : ∀ byte ∈ text.toByteArray.data.toList, byte < 0x80) :
    text.toList = asciiChars text := by
  rw [asciiChars, ← String.utf8Encode_toList, List.utf8Encode, List.toList_data_toByteArray] at *
  revert h
  induction text.toList with
  | nil => exact fun _ => rfl
  | cons symbol symbols ih =>
      intro h
      rw [List.flatMap_cons, List.forall_mem_append] at h
      rw [List.flatMap_cons, List.map_append, utf8EncodeChar_ascii h.1, ← ih h.2]
      rfl

end Ascii

end Voidwalk.Library.SeparatedText

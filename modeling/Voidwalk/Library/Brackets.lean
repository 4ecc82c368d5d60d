import Mathlib.Data.List.TakeWhile
import Mathlib.Tactic.Common

/-!
The parts of a text that stand between square brackets. Brackets do not nest.
-/

namespace Voidwalk.Library.Brackets

/-- The bracketed parts of a text, from left to right. -/
def bracketed : List Char → List (List Char)
  | [] => []
  | symbol :: rest =>
      if symbol = '[' then rest.takeWhile (· != ']') :: bracketed rest else bracketed rest

theorem bracketed_ne_nil {text : List Char} (h : '[' ∈ text) : bracketed text ≠ [] := by
  induction text with
  | nil => exact absurd h List.not_mem_nil
  | cons symbol text ih =>
      rw [bracketed]
      split
      · exact List.cons_ne_nil _ _
      · rename_i hsymbol
        exact ih (List.mem_of_ne_of_mem (Ne.symm hsymbol) h)

theorem mem_intercalate {separator : List Char} {texts : List (List Char)} {text : List Char}
    {symbol : Char} (htext : text ∈ texts) (hsymbol : symbol ∈ text) :
    symbol ∈ separator.intercalate texts := by
  induction texts with
  | nil => exact absurd htext List.not_mem_nil
  | cons first texts ih =>
      cases texts with
      | nil => rwa [List.intercalate_singleton, ← List.mem_singleton.mp htext]
      | cons second texts =>
          rw [List.intercalate_cons_cons]
          rcases List.mem_cons.mp htext with rfl | hlater
          · exact List.mem_append_left _ (List.mem_append_left _ hsymbol)
          · exact List.mem_append_right _ (ih hlater)

structure Plain (text : List Char) : Prop where
  unopened : '[' ∉ text
  unclosed : ']' ∉ text

instance (text : List Char) : Decidable (Plain text) :=
  decidable_of_iff ('[' ∉ text ∧ ']' ∉ text) ⟨fun h => ⟨h.1, h.2⟩, fun h => ⟨h.1, h.2⟩⟩

/-- A string none of whose bytes is that of a bracket. -/
structure PlainBytes (text : String) : Prop where
  byte_ne : ∀ byte ∈ text.toByteArray.data.toList, byte ≠ 0x5B ∧ byte ≠ 0x5D

instance (text : String) : Decidable (PlainBytes text) :=
  -- Through the list, not through all bytes.
  decidable_of_iff
    (text.toByteArray.data.toList.all fun byte => decide (byte ≠ 0x5B ∧ byte ≠ 0x5D))
    ⟨fun h => ⟨fun byte hbyte => of_decide_eq_true (List.all_eq_true.mp h byte hbyte)⟩,
      fun h => List.all_eq_true.mpr fun byte hbyte => decide_eq_true (h.byte_ne byte hbyte)⟩

/-- A text whose brackets are closed and hold nothing but `body`. -/
structure Shows (body text : List Char) : Prop where
  found_eq : ∀ rest, ∀ found ∈ bracketed (text ++ rest), found = body ∨ found ∈ bracketed rest

section Texts

variable {body first second text : List Char}

theorem Plain.nil : Plain [] := by decide

theorem Plain.append (hfirst : Plain first) (hsecond : Plain second) : Plain (first ++ second) := by
  constructor
  · simpa using ⟨hfirst.unopened, hsecond.unopened⟩
  · simpa using ⟨hfirst.unclosed, hsecond.unclosed⟩

theorem Plain.mono (h : Plain text) (hsubset : ∀ symbol ∈ first, symbol ∈ text) : Plain first := by
  constructor
  · exact fun hopen => h.unopened (hsubset _ hopen)
  · exact fun hclose => h.unclosed (hsubset _ hclose)

theorem PlainBytes.plain {text : String} (h : PlainBytes text) : Plain text.toList := by
  have hencoded (symbol : Char) (hsymbol : symbol ∈ text.toList) :
      ∀ byte ∈ String.utf8EncodeChar symbol, byte ≠ 0x5B ∧ byte ≠ 0x5D := by
    intro byte hbyte
    refine h.byte_ne byte ?_
    rw [← String.utf8Encode_toList, List.utf8Encode, List.toList_data_toByteArray]
    exact List.mem_flatMap.mpr ⟨symbol, hsymbol, hbyte⟩
  constructor
  · intro hopen
    exact (hencoded '[' hopen 0x5B (by decide)).1 rfl
  · intro hclose
    exact (hencoded ']' hclose 0x5D (by decide)).2 rfl

theorem bracketed_append (h : '[' ∉ text) (rest : List Char) :
    bracketed (text ++ rest) = bracketed rest := by
  induction text with
  | nil => rfl
  | cons symbol text ih =>
      rw [List.mem_cons, not_or] at h
      rw [List.cons_append, bracketed, if_neg (Ne.symm h.1)]
      exact ih h.2

theorem Plain.shows (h : Plain text) : Shows body text := by
  constructor
  intro rest found hfound
  rw [bracketed_append h.unopened] at hfound
  exact Or.inr hfound

theorem Shows.append (hfirst : Shows body first) (hsecond : Shows body second) :
    Shows body (first ++ second) := by
  constructor
  intro rest found hfound
  rw [List.append_assoc] at hfound
  rcases hfirst.found_eq _ found hfound with heq | hlater
  · exact Or.inl heq
  · exact hsecond.found_eq rest found hlater

theorem Plain.shows_bracketed (h : Plain body) : Shows body ('[' :: body ++ [']']) := by
  constructor
  intro rest found hfound
  have hne : ∀ symbol ∈ body, (symbol != ']') = true := by
    intro symbol hsymbol
    rw [bne_iff_ne]
    rintro rfl
    exact h.unclosed hsymbol
  rw [List.cons_append, List.cons_append, List.append_assoc, bracketed, if_pos rfl,
    bracketed_append h.unopened, List.singleton_append, bracketed, if_neg (by decide),
    List.takeWhile_append_of_pos hne, List.takeWhile_cons_of_neg (by simp), List.append_nil,
    List.mem_cons] at hfound
  exact hfound

theorem Shows.intercalate (hseparator : Shows body first) {texts : List (List Char)}
    (htexts : ∀ text ∈ texts, Shows body text) : Shows body (first.intercalate texts) := by
  induction texts with
  | nil => exact Plain.nil.shows
  | cons text texts ih =>
      rw [List.forall_mem_cons] at htexts
      cases texts with
      | nil => simpa using htexts.1
      | cons next texts =>
          rw [List.intercalate_cons_cons]
          exact (htexts.1.append hseparator).append (ih htexts.2)

/-- Only `body` is found between the brackets of the whole text. -/
theorem Shows.eq_of_mem (h : Shows body text) {found : List Char}
    (hfound : found ∈ bracketed text) : found = body := by
  have hrest := h.found_eq [] found (by rwa [List.append_nil])
  exact hrest.resolve_right (List.not_mem_nil)

end Texts

end Voidwalk.Library.Brackets

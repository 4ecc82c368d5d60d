import Mathlib.Data.List.Basic
import Mathlib.Tactic.Common

/-!
The words of a text, which its marks keep apart, and the texts whose words are those of their
parts.
-/

namespace Voidwalk.Library.Words

variable {α : Type} {isMark : α → Bool} {first second word : List α}

/-- The longest stretches without a mark, also the empty ones. -/
def wordsOf (isMark : α → Bool) (text : List α) : List (List α) := text.splitOnP isMark

/-- A mark stands where one text ends and the other begins. -/
def Apart (isMark : α → Bool) (first second : List α) : Prop :=
  first.getLast?.any isMark = true ∨ second.head?.any isMark = true

/-- Every word is as `N` says. -/
def WordsAre (isMark : α → Bool) (N : List α → Prop) (text : List α) : Prop :=
  ∀ word ∈ wordsOf isMark text, N word

instance (N : List α → Prop) [DecidablePred N] (text : List α) :
    Decidable (WordsAre isMark N text) :=
  inferInstanceAs (Decidable (∀ word ∈ wordsOf isMark text, N word))

theorem wordsOf_nil : wordsOf isMark [] = [[]] := List.splitOnP_nil

theorem wordsOf_unmarked (h : ∀ symbol ∈ first, isMark symbol = false) :
    wordsOf isMark first = [first] :=
  List.splitOnP_eq_singleton h

/-- A word of two texts that are apart is a word of one of them. -/
theorem mem_wordsOf_append (h : Apart isMark first second)
    (hword : word ∈ wordsOf isMark (first ++ second)) :
    word ∈ wordsOf isMark first ∨ word ∈ wordsOf isMark second := by
  rw [wordsOf] at hword
  rcases h with hends | hbegins
  · obtain ⟨mark, hlast, hmark⟩ := (Option.any_eq_true _ _).mp hends
    obtain ⟨front, rfl⟩ := List.getLast?_eq_some_iff.mp hlast
    rw [List.append_assoc, List.singleton_append, List.splitOnP_append_cons _ _ hmark,
      List.mem_append] at hword
    rw [wordsOf, List.splitOnP_append_cons _ _ hmark, List.mem_append]
    exact hword.imp Or.inl id
  · obtain ⟨mark, hhead, hmark⟩ := (Option.any_eq_true _ _).mp hbegins
    obtain ⟨rest, rfl⟩ := List.head?_eq_some_iff.mp hhead
    rw [List.splitOnP_append_cons _ _ hmark, List.mem_append] at hword
    refine hword.imp id fun hrest => ?_
    have hsplit := List.splitOnP_append_cons [] rest hmark
    rw [List.nil_append] at hsplit
    rw [wordsOf, hsplit]
    exact List.mem_append_right _ hrest

section WordsAre

variable {N : List α → Prop}

theorem wordsAre_nil (hnone : N []) : WordsAre isMark N [] := by
  rw [WordsAre, wordsOf_nil, List.forall_mem_singleton]
  exact hnone

theorem wordsAre_unmarked (h : ∀ symbol ∈ first, isMark symbol = false) (hword : N first) :
    WordsAre isMark N first := by
  rw [WordsAre, wordsOf_unmarked h, List.forall_mem_singleton]
  exact hword

theorem WordsAre.append (hfirst : WordsAre isMark N first) (hsecond : WordsAre isMark N second)
    (h : Apart isMark first second) : WordsAre isMark N (first ++ second) := by
  intro word hword
  rcases mem_wordsOf_append h hword with hword | hword
  · exact hfirst word hword
  · exact hsecond word hword

/-- Parts that are apart one after the other bring no words but their own. -/
theorem wordsAre_flatten {parts : List (List α)} (hnone : N [])
    (hapart : parts.IsChain (Apart isMark)) (hparts : ∀ part ∈ parts, WordsAre isMark N part) :
    WordsAre isMark N parts.flatten := by
  induction parts with
  | nil => exact wordsAre_nil hnone
  | cons part parts ih =>
      rw [List.forall_mem_cons] at hparts
      rw [List.flatten_cons]
      cases parts with
      | nil => simpa using hparts.1
      | cons next parts =>
          rw [List.isChain_cons_cons] at hapart
          apply hparts.1.append (ih hapart.2 hparts.2)
          refine hapart.1.imp id fun hbegins => ?_
          rw [List.flatten_cons, List.head?_append]
          cases hhead : next.head? with
          | none => simp [hhead] at hbegins
          | some symbol => rwa [hhead] at hbegins

/-- Parts with a separator of marks between them. -/
theorem wordsAre_intercalate {separator : List α} {parts : List (List α)} (hnone : N [])
    (hseparator : WordsAre isMark N separator) (hbegins : separator.head?.any isMark = true)
    (hends : separator.getLast?.any isMark = true)
    (hparts : ∀ part ∈ parts, WordsAre isMark N part) :
    WordsAre isMark N (separator.intercalate parts) := by
  induction parts with
  | nil => exact wordsAre_nil hnone
  | cons part parts ih =>
      rw [List.forall_mem_cons] at hparts
      cases parts with
      | nil => simpa using hparts.1
      | cons next parts =>
          rw [List.intercalate_cons_cons]
          refine (hparts.1.append hseparator (Or.inr hbegins)).append (ih hparts.2) (Or.inl ?_)
          rw [List.getLast?_append]
          cases hlast : separator.getLast? with
          | none => simp [hlast] at hends
          | some symbol => rwa [hlast] at hends

end WordsAre

section Stretches

variable {n : Nat} {text : List α}

/-- Every stretch without a mark has at most `n` symbols. -/
def Within (isMark : α → Bool) (n : Nat) (text : List α) : Prop :=
  ∀ stretch, stretch <:+: text → (∀ symbol ∈ stretch, isMark symbol = false) → stretch.length ≤ n

theorem Within.cut (h : Within isMark n text) (hin : first <:+: text) :
    Within isMark n first :=
  fun stretch hstretch => h stretch (hstretch.trans hin)

theorem within_of_length_le (h : text.length ≤ n) : Within isMark n text :=
  fun _ hstretch _ => Nat.le_trans hstretch.length_le h

theorem within_marks (h : ∀ symbol ∈ text, isMark symbol = true) : Within isMark n text := by
  intro stretch hstretch hunmarked
  cases stretch with
  | nil => exact Nat.zero_le n
  | cons symbol rest =>
      have hmark := h symbol (hstretch.subset List.mem_cons_self)
      exact absurd (hmark.symm.trans (hunmarked symbol List.mem_cons_self)) (by decide)

/-- A stretch of two texts that are apart is in one of the two. -/
theorem Within.append (hfirst : Within isMark n first) (hsecond : Within isMark n second)
    (h : Apart isMark first second) : Within isMark n (first ++ second) := by
  intro stretch hstretch hunmarked
  rcases List.infix_append_iff_ne_nil.mp hstretch with
    hin | hin | ⟨front, back, hfront, hback, rfl, hends, hbegins⟩
  · exact hfirst stretch hin hunmarked
  · exact hsecond stretch hin hunmarked
  · exfalso
    rw [List.forall_mem_append] at hunmarked
    rcases h with h | h
    · obtain ⟨mark, hlast, hmark⟩ := (Option.any_eq_true _ _).mp h
      obtain ⟨init, rfl⟩ := List.getLast?_eq_some_iff.mp hlast
      obtain ⟨rest, rfl, -⟩ := (List.suffix_concat_iff.mp hends).resolve_left hfront
      have hnone := hunmarked.1 mark (List.mem_append_right _ List.mem_cons_self)
      exact absurd (hmark.symm.trans hnone) (by decide)
    · obtain ⟨mark, hhead, hmark⟩ := (Option.any_eq_true _ _).mp h
      obtain ⟨tail, rfl⟩ := List.head?_eq_some_iff.mp hhead
      obtain ⟨rest, rfl, -⟩ := (List.prefix_cons_iff.mp hbegins).resolve_left hback
      have hnone := hunmarked.2 mark List.mem_cons_self
      exact absurd (hmark.symm.trans hnone) (by decide)

theorem WordsAre.within (h : WordsAre isMark (fun word => word.length ≤ n) text) :
    Within isMark n text := by
  -- The word that the text begins in is taken from the text one symbol at a time.
  suffices hfront : ∀ front : List α, (∀ symbol ∈ front, isMark symbol = false) →
      WordsAre isMark (fun word => word.length ≤ n) (front ++ text) →
        Within isMark n (front ++ text) by
    exact hfront [] (fun _ hnone => absurd hnone List.not_mem_nil) h
  clear h
  induction text with
  | nil =>
      intro front hfront h
      rw [List.append_nil] at h ⊢
      rw [WordsAre, wordsOf_unmarked hfront, List.forall_mem_singleton] at h
      exact within_of_length_le h
  | cons symbol rest ih =>
      intro front hfront h
      cases hmark : isMark symbol with
      | true =>
          rw [WordsAre, wordsOf, List.splitOnP_append_cons_of_forall_mem hfront _ hmark,
            List.forall_mem_cons] at h
          have hrest := ih [] (fun _ hnone => absurd hnone List.not_mem_nil) h.2
          have hbehind : Within isMark n ([symbol] ++ rest) := by
            apply Within.append _ hrest (Or.inl (by simpa using hmark))
            exact within_marks (by simpa using hmark)
          exact (within_of_length_le h.1).append hbehind (Or.inr (by simpa using hmark))
      | false =>
          have hmore := ih (front ++ [symbol]) (by simpa [or_imp, forall_and] using ⟨hfront, hmark⟩)
          rw [List.append_assoc, List.singleton_append] at hmore
          exact hmore h

end Stretches

end Voidwalk.Library.Words

import Mathlib.Data.List.Basic
import Mathlib.Tactic.Common

/-!
A list with a place between two of its items, as editors of a line keep it.
-/

namespace Voidwalk.Library.Zippers

/-- The items in front of the place, the nearest first, and those behind it. -/
structure Zipper (α : Type) where
  back : List α := []
  front : List α := []
  deriving DecidableEq

inductive Edit (α : Type) where
  | insert (item : α)
  | backspace | delete | left | right | home | last
  deriving DecidableEq

namespace Zipper

variable {α : Type}

def contents (zipper : Zipper α) : List α := zipper.back.reverse ++ zipper.front

/-- A list with the place at its end. -/
def atEnd (items : List α) : Zipper α where
  back := items.reverse
  front := []

def edit (zipper : Zipper α) : Edit α → Zipper α
  | .insert item => { zipper with back := item :: zipper.back }
  | .backspace => { zipper with back := zipper.back.tail }
  | .delete => { zipper with front := zipper.front.tail }
  | .left => { back := zipper.back.tail, front := zipper.back.take 1 ++ zipper.front }
  | .right => { back := zipper.front.take 1 ++ zipper.back, front := zipper.front.tail }
  | .home => { back := [], front := zipper.contents }
  | .last => { back := zipper.contents.reverse, front := [] }

theorem contents_atEnd (items : List α) : (atEnd items).contents = items := by
  rw [contents, atEnd, List.reverse_reverse, List.append_nil]

/-- An edit brings in no item but the one that it inserts. -/
theorem mem_edit {zipper : Zipper α} {edit : Edit α} {item : α}
    (h : item ∈ (zipper.edit edit).contents) : item ∈ zipper.contents ∨ edit = .insert item := by
  rcases zipper with ⟨back, front⟩
  simp only [contents, List.mem_append, List.mem_reverse] at h ⊢
  cases edit with
  | insert inserted =>
      simp only [Zipper.edit, List.mem_cons] at h
      rcases h with (rfl | hback) | hfront
      · exact Or.inr rfl
      · exact Or.inl (Or.inl hback)
      · exact Or.inl (Or.inr hfront)
  | backspace => exact Or.inl (h.imp List.mem_of_mem_tail id)
  | delete => exact Or.inl (h.imp id List.mem_of_mem_tail)
  | left =>
      simp only [Zipper.edit, List.mem_append] at h
      rcases h with hback | hmoved | hfront
      · exact Or.inl (Or.inl (List.mem_of_mem_tail hback))
      · exact Or.inl (Or.inl (List.mem_of_mem_take hmoved))
      · exact Or.inl (Or.inr hfront)
  | right =>
      simp only [Zipper.edit, List.mem_append] at h
      rcases h with (hmoved | hback) | hfront
      · exact Or.inl (Or.inr (List.mem_of_mem_take hmoved))
      · exact Or.inl (Or.inl hback)
      · exact Or.inl (Or.inr (List.mem_of_mem_tail hfront))
  | home =>
      simp only [Zipper.edit, contents, List.not_mem_nil, false_or, List.mem_append,
        List.mem_reverse] at h
      exact Or.inl h
  | last =>
      simp only [Zipper.edit, contents, List.not_mem_nil, or_false, List.mem_append,
        List.mem_reverse] at h
      exact Or.inl h

end Zipper

end Voidwalk.Library.Zippers

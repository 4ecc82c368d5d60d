import Mathlib.Algebra.BigOperators.Group.List.Basic
import Mathlib.Algebra.Ring.Nat
import Mathlib.Data.List.Basic
import Mathlib.Tactic.Common

/-!
Lists cut into pieces of one length, and a budget that several lists share.
-/

namespace Voidwalk.Library.Chunks

variable {α : Type}

/-- `whole` in consecutive pieces of `n`, of which only the last may be shorter. -/
structure Chunked (n : Nat) (whole : List α) (pieces : List (List α)) : Prop where
  flatten : pieces.flatten = whole
  length_pos : ∀ piece ∈ pieces, 0 < piece.length
  length_le : ∀ piece ∈ pieces, piece.length ≤ n
  length_eq : ∀ piece ∈ pieces.dropLast, piece.length = n

theorem Chunked.nil (n : Nat) : Chunked n ([] : List α) [] := by
  constructor <;> simp

theorem Chunked.cons {n : Nat} {rest : List α} {pieces : List (List α)} (h : Chunked n rest pieces)
    {piece : List α} (hpos : 0 < piece.length) (hle : piece.length ≤ n)
    (hfull : rest ≠ [] → piece.length = n) : Chunked n (piece ++ rest) (piece :: pieces) := by
  constructor
  · rw [List.flatten_cons, h.flatten]
  · exact List.forall_mem_cons.mpr ⟨hpos, h.length_pos⟩
  · exact List.forall_mem_cons.mpr ⟨hle, h.length_le⟩
  · cases pieces with
    | nil => simp
    | cons next pieces =>
        rw [List.dropLast_cons_cons, List.forall_mem_cons]
        refine ⟨hfull ?_, h.length_eq⟩
        intro hnone
        have hnext := h.length_pos next List.mem_cons_self
        have hflatten := congrArg List.length h.flatten
        rw [hnone, List.flatten_cons, List.length_append, List.length_nil] at hflatten
        omega

def pieces (n : Nat) (whole : List α) : List (List α) :=
  (List.range ((whole.length + n - 1) / n)).map fun k => (whole.drop (n * k)).take n

theorem pieces_nil {n : Nat} (hpos : 0 < n) : pieces n ([] : List α) = [] := by
  have hnone : (0 + n - 1) / n = 0 := Nat.div_eq_of_lt (by omega)
  rw [pieces, List.length_nil, hnone]
  rfl

theorem pieces_of_pos {n : Nat} (hpos : 0 < n) {whole : List α} (hwhole : whole ≠ []) :
    pieces n whole = whole.take n :: pieces n (whole.drop n) := by
  have hlength : 0 < whole.length := List.length_pos_of_ne_nil hwhole
  have hcount : (whole.length + n - 1) / n = ((whole.drop n).length + n - 1) / n + 1 := by
    rw [List.length_drop]
    by_cases hshort : whole.length ≤ n
    · have hone : (whole.length + n - 1) / n = 1 :=
        Nat.div_eq_of_lt_le (by omega) (by omega)
      have hzero : (whole.length - n + n - 1) / n = 0 := Nat.div_eq_of_lt (by omega)
      omega
    · rw [show whole.length + n - 1 = (whole.length - n + n - 1) + n by omega,
        Nat.add_div_right _ hpos]
  rw [pieces, hcount, List.range_succ_eq_map, List.map_cons, List.map_map, Nat.mul_zero,
    List.drop_zero, pieces]
  congr 1
  apply List.map_congr_left
  intro k _
  rw [Function.comp_apply, List.drop_drop, Nat.mul_succ, Nat.add_comm]

theorem chunked_pieces {n : Nat} (hpos : 0 < n) (whole : List α) :
    Chunked n whole (pieces n whole) := by
  induction hlength : whole.length using Nat.strong_induction_on generalizing whole with
  | _ length ih =>
      by_cases hwhole : whole = []
      · rw [hwhole, pieces_nil hpos]
        exact Chunked.nil n
      · have hsome := List.length_pos_of_ne_nil hwhole
        have hrest := ih (whole.drop n).length (by rw [List.length_drop]; omega) _ rfl
        rw [pieces_of_pos hpos hwhole]
        conv_lhs => rw [← List.take_append_drop n whole]
        refine hrest.cons ?_ ?_ fun hmore => ?_
        · rw [List.length_take]
          omega
        · rw [List.length_take]
          omega
        · have hlong := List.length_pos_of_ne_nil hmore
          rw [List.length_drop] at hlong
          rw [List.length_take]
          omega

/-- What each piece gives for its elements, one after the other, is what the whole does. -/
theorem flatMap_pieces {β : Type} {n : Nat} (hpos : 0 < n) (f : α → β) (whole : List α) :
    (List.range ((whole.length + n - 1) / n)).flatMap
      (fun k => ((whole.drop (n * k)).take n).map f) = whole.map f := by
  have hpieces : (pieces n whole).flatten = whole := (chunked_pieces hpos whole).flatten
  calc
    (List.range ((whole.length + n - 1) / n)).flatMap
        (fun k => ((whole.drop (n * k)).take n).map f)
    _ = (pieces n whole).flatten.map f := by
      rw [pieces, List.map_flatten, List.map_map]
      rfl
    _ = whole.map f := by rw [hpieces]

/-- What each list gets of a budget that they spend one after the other. -/
def spend : Nat → List (List α) → List (List α)
  | _, [] => []
  | budget, whole :: later => whole.take budget :: spend (budget - whole.length) later

/-- Together they get the front of what they hold together. -/
theorem flatten_spend (budget : Nat) (lists : List (List α)) :
    (spend budget lists).flatten = lists.flatten.take budget := by
  induction lists generalizing budget with
  | nil => simp [spend]
  | cons whole later ih => rw [spend, List.flatten_cons, List.flatten_cons, ih, List.take_append]

theorem length_flatten_spend (budget : Nat) (lists : List (List α)) :
    (spend budget lists).flatten.length = min budget (lists.map List.length).sum := by
  rw [flatten_spend, List.length_take, List.length_flatten]

theorem spend_zero (lists : List (List α)) :
    spend 0 lists = List.replicate lists.length [] := by
  induction lists with
  | nil => rfl
  | cons whole later ih =>
      rw [spend, Nat.zero_sub, ih, List.take_zero, List.length_cons, List.replicate_succ]

end Voidwalk.Library.Chunks

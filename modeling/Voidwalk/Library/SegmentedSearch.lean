import Mathlib.Algebra.Ring.Nat
import Mathlib.Order.Lattice
import Mathlib.Tactic.Common

/-!
Binary search for the place where a predicate turns false, and the greatest value below
a bound among numbered values that come in ascending segments.
-/

namespace Voidwalk.Library.SegmentedSearch

section Splitting

variable {ε : Type}

/-- The first place of `[lo, hi)` where the predicate turns false. -/
def split (pred : Nat → Except ε Bool) (lo hi : Nat) : Except ε Nat :=
  if lo < hi then do
    let mid := lo + (hi - lo) / 2
    if ← pred mid then split pred (mid + 1) hi
    else split pred lo mid
  else pure lo
termination_by hi - lo

/-- The predicate can be asked everywhere, and holds of the places before `turn`. -/
structure TurnsAt (pred : Nat → Except ε Bool) (lo hi turn : Nat) : Prop where
  lo_le : lo ≤ turn
  le_hi : turn ≤ hi
  holds : ∀ i, lo ≤ i → i < turn → pred i = .ok true
  fails : ∀ i, turn ≤ i → i < hi → pred i = .ok false

/-- Only places of `[lo, hi)` are asked about. -/
theorem split_eq {pred : Nat → Except ε Bool} {lo hi turn : Nat}
    (h : TurnsAt pred lo hi turn) : split pred lo hi = .ok turn := by
  induction hwidth : hi - lo using Nat.strong_induction_on generalizing lo hi with
  | _ width ih =>
      have hlo := h.lo_le
      have hhi := h.le_hi
      rw [split]
      split
      · rename_i hlt
        dsimp only
        rcases Nat.lt_or_ge (lo + (hi - lo) / 2) turn with hbefore | hbehind
        · rw [h.holds _ (Nat.le_add_right _ _) hbefore]
          refine ih (hi - (lo + (hi - lo) / 2 + 1)) (by omega) ⟨hbefore, hhi, ?_, h.fails⟩ rfl
          intro i hle hi'
          exact h.holds i (by omega) hi'
        · rw [h.fails _ hbehind (by omega)]
          refine ih (lo + (hi - lo) / 2 - lo) (by omega) ⟨hlo, hbehind, h.holds, ?_⟩ rfl
          intro i hle hi'
          exact h.fails i hle (by omega)
      · have hturn : turn = lo := by omega
        rw [hturn]
        rfl

end Splitting

section Values

variable {α : Type} [LinearOrder α]

/-- The place of the greatest of the first `n` values up to `bound`, if there is one. -/
inductive Greatest (value : Nat → α) (n : Nat) (bound : α) : Option Nat → Prop where
  | absent (h : ∀ i, i < n → bound < value i) : Greatest value n bound none
  | found {place : Nat} (hlt : place < n) (hle : value place ≤ bound)
      (hmax : ∀ i, i < n → i ≠ place → value i ≤ bound → value i < value place) :
      Greatest value n bound (some place)

/-- A segment of ascending values, of which those before `turn` are up to the bound. -/
structure Segment (value : Nat → α) (bound : α) (n turn m : Nat) : Prop where
  le_turn : n ≤ turn
  turn_le : turn ≤ m
  ascending : ∀ i j, n ≤ i → i < j → j < m → value i < value j
  below : ∀ i, n ≤ i → i < turn → value i ≤ bound
  above : ∀ i, turn ≤ i → i < m → bound < value i
  other : ∀ i j, i < n → n ≤ j → j < m → value i ≠ value j

variable {value : Nat → α} {bound : α} {n turn m : Nat} {best : Option Nat}

/-- The segment's own greatest value takes the place of a smaller one. -/
theorem Greatest.take (h : Greatest value n bound best) (hsegment : Segment value bound n turn m)
    (hsome : n < turn) (hbest : ∀ place, best = some place → value place ≤ value (turn - 1)) :
    Greatest value m bound (some (turn - 1)) := by
  have hturn := hsegment.turn_le
  refine .found (by omega) (hsegment.below _ (by omega) (by omega)) ?_
  intro i hi hne hle
  rcases Nat.lt_or_ge i n with hearlier | hhere
  · have hdistinct := hsegment.other i (turn - 1) hearlier (by omega) (by omega)
    cases h with
    | absent hnone => exact absurd hle (not_le_of_gt (hnone i hearlier))
    | @found place hlt _ hmax =>
        refine lt_of_le_of_ne ?_ hdistinct
        by_cases hplace : i = place
        · rw [hplace]
          exact hbest place rfl
        · exact le_of_lt (lt_of_lt_of_le (hmax i hearlier hplace hle) (hbest place rfl))
  · rcases Nat.lt_or_ge i turn with hbelow | habove
    · exact hsegment.ascending i (turn - 1) hhere (by omega) (by omega)
    · exact absurd hle (not_le_of_gt (hsegment.above i habove hi))

/-- The place so far stays where the segment has nothing up to the bound. -/
theorem Greatest.skip (h : Greatest value n bound best) (hsegment : Segment value bound n n m) :
    Greatest value m bound best := by
  have hle := hsegment.turn_le
  cases h with
  | absent hnone =>
      refine .absent ?_
      intro i hi
      rcases Nat.lt_or_ge i n with hearlier | hhere
      · exact hnone i hearlier
      · exact hsegment.above i hhere hi
  | found hlt hplace hmax =>
      refine .found (by omega) hplace ?_
      intro i hi hne hbound
      rcases Nat.lt_or_ge i n with hearlier | hhere
      · exact hmax i hearlier hne hbound
      · exact absurd hbound (not_le_of_gt (hsegment.above i hhere hi))

/-- It also stays where it holds more than the segment's greatest value. -/
theorem Greatest.keep {place : Nat} (h : Greatest value n bound (some place))
    (hsegment : Segment value bound n turn m) (hsome : n < turn)
    (hbest : value (turn - 1) < value place) : Greatest value m bound (some place) := by
  have hturn := hsegment.turn_le
  obtain _ | ⟨hlt, hle, hmax⟩ := h
  refine .found (by omega) hle ?_
  intro i hi hne hbound
  rcases Nat.lt_or_ge i n with hearlier | hhere
  · exact hmax i hearlier hne hbound
  · rcases Nat.lt_or_ge i (turn - 1) with hbefore | hlast
    · exact lt_trans (hsegment.ascending i (turn - 1) hhere hbefore (by omega)) hbest
    · rcases Nat.lt_or_ge i turn with hbelow | habove
      · obtain rfl : i = turn - 1 := by omega
        exact hbest
      · exact absurd hbound (not_le_of_gt (hsegment.above i habove hi))

end Values

/-- Ascending values up to a bound end somewhere. -/
theorem exists_turn {α : Type} [LinearOrder α] {value : Nat → α} (bound : α) {n m : Nat}
    (hle : n ≤ m) (hascending : ∀ i j, n ≤ i → i < j → j < m → value i < value j) :
    ∃ turn, n ≤ turn ∧ turn ≤ m ∧ (∀ i, n ≤ i → i < turn → value i ≤ bound) ∧
      ∀ i, turn ≤ i → i < m → bound < value i := by
  induction m, hle using Nat.le_induction with
  | base =>
      refine ⟨n, Nat.le_refl n, Nat.le_refl n, ?_, ?_⟩
      · intro i hi hlt
        omega
      · intro i hi hlt
        omega
  | succ m hle ih =>
      obtain ⟨turn, hturn, hm, hbelow, habove⟩ :=
        ih fun i j hi hij hj => hascending i j hi hij (Nat.lt_succ_of_lt hj)
      rcases lt_or_ge bound (value m) with hlast | hlast
      · refine ⟨turn, hturn, Nat.le_succ_of_le hm, hbelow, ?_⟩
        intro i hi hlt
        rcases Nat.lt_or_ge i m with hbefore | hhere
        · exact habove i hi hbefore
        · obtain rfl : i = m := by omega
          exact hlast
      · refine ⟨m + 1, Nat.le_succ_of_le hle, Nat.le_refl _, ?_, ?_⟩
        · intro i hi hlt
          rcases Nat.lt_or_ge i m with hbefore | hhere
          · exact le_trans (le_of_lt (hascending i m hi hbefore (Nat.lt_succ_self m))) hlast
          · obtain rfl : i = m := by omega
            exact hlast
        · intro i hi hlt
          omega

end Voidwalk.Library.SegmentedSearch

import Mathlib.Logic.Relation

/-!
Runs of a step relation: what every step preserves, and where a count passes a
bound.
-/

namespace Voidwalk.Library.Runs

open Relation (ReflTransGen)

variable {σ : Type*} {Step : σ → σ → Prop} {first last : σ}

theorem preserved {I : σ → Prop} (hstep : ∀ s t, I s → Step s t → I t)
    (hrun : ReflTransGen Step first last) (h : I first) : I last := by
  induction hrun with
  | refl => exact h
  | tail _ htail ih => exact hstep _ _ ih htail

theorem related {I : σ → Prop} {R : σ → σ → Prop} (hrefl : ∀ s, R s s)
    (htrans : ∀ s t u, R s t → R t u → R s u)
    (hstep : ∀ s t, I s → Step s t → I t ∧ R s t)
    (hrun : ReflTransGen Step first last) (h : I first) : I last ∧ R first last := by
  induction hrun with
  | refl => exact ⟨h, hrefl _⟩
  | tail _ htail ih =>
      obtain ⟨hI, hR⟩ := hstep _ _ ih.1 htail
      exact ⟨hI, htrans _ _ _ ih.2 hR⟩

/-- A count that ends above a bound passes it in one of the steps. -/
theorem exists_crossing (count : σ → Nat) (bound : Nat)
    (hrun : ReflTransGen Step first last) (hfirst : count first ≤ bound)
    (hlast : bound < count last) :
    ∃ s t, ReflTransGen Step first s ∧ Step s t ∧ count s ≤ bound ∧ bound < count t := by
  induction hrun with
  | refl => exact absurd hlast (Nat.not_lt.mpr hfirst)
  | @tail s t hbefore htail ih =>
      rcases Nat.lt_or_ge bound (count s) with hpassed | hnot
      · exact ih hpassed
      · exact ⟨s, t, hbefore, htail, hnot, hlast⟩

end Voidwalk.Library.Runs

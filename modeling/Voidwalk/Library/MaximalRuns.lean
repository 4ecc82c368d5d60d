import Mathlib.Algebra.Ring.Nat
import Mathlib.Data.List.Basic
import Mathlib.Tactic.Common

/-!
The maximal runs of positions with a property, and the scan that finds those of a list
from left to right.
-/

namespace Voidwalk.Library.MaximalRuns

/-- `length` positions from `start` on have the property, and it ends on both sides. -/
structure IsMaximalRun (q : Nat → Prop) (start length : Nat) : Prop where
  pos : 0 < length
  within : ∀ i, start ≤ i → i < start + length → q i
  before : ∀ i, i + 1 = start → ¬ q i
  after : ¬ q (start + length)

/-- The run that a scan has open: nothing before `start` belongs to it. -/
structure Pending (q : Nat → Prop) (start length : Nat) : Prop where
  within : ∀ i, start ≤ i → i < start + length → q i
  before : ∀ i, i + 1 = start → ¬ q i

variable {q : Nat → Prop} {start length : Nat}

theorem Pending.zero (q : Nat → Prop) : Pending q 0 0 := by
  constructor
  · intro i hle hlt
    omega
  · intro i hi
    omega

theorem Pending.extend (h : Pending q start length) (hnext : q (start + length)) :
    Pending q start (length + 1) := by
  refine ⟨?_, h.before⟩
  intro i hle hlt
  rcases Nat.lt_or_ge i (start + length) with hold | hnew
  · exact h.within i hle hold
  · obtain rfl : i = start + length := by omega
    exact hnext

theorem Pending.restart (hend : ¬ q (start + length)) : Pending q (start + length + 1) 0 := by
  constructor
  · intro i hle hlt
    omega
  · intro i hi
    obtain rfl : i = start + length := by omega
    exact hend

/-- Where the open run ends, it is the first maximal run from `start` on. -/
theorem Pending.eq_or_after (h : Pending q start length) (hend : ¬ q (start + length))
    {first count : Nat} (hrun : IsMaximalRun q first count) (hle : start ≤ first) :
    (first = start ∧ count = length) ∨ start + length + 1 ≤ first := by
  have hpos := hrun.pos
  have hfirst : q first := hrun.within first (Nat.le_refl _) (by omega)
  by_cases hafter : start + length + 1 ≤ first
  · exact Or.inr hafter
  · have hne : first ≠ start + length := fun heq => hend (heq ▸ hfirst)
    have hstart : first = start := by
      by_contra hlater
      have hinside := h.within (first - 1) (by omega) (by omega)
      exact hrun.before (first - 1) (by omega) hinside
    subst hstart
    rcases Nat.lt_trichotomy count length with hshort | heq | hlong
    · exact absurd (h.within _ (Nat.le_add_right _ _) (by omega)) hrun.after
    · exact Or.inl ⟨rfl, heq⟩
    · exact absurd (hrun.within _ (Nat.le_add_right _ _) (by omega)) hend

theorem Pending.isMaximalRun (h : Pending q start length) (hend : ¬ q (start + length))
    (hpos : 0 < length) : IsMaximalRun q start length :=
  ⟨hpos, h.within, h.before, hend⟩

section Scan

variable {α : Type} (p : α → Bool)

/-- The elements at which a list satisfies `p`. -/
def Holds (list : List α) (i : Nat) : Prop :=
  list[i]?.any p = true

def closed (start length : Nat) : List (Nat × Nat) :=
  if 0 < length then [(start, length)] else []

/-- The scan of what follows an open run. -/
def runsFrom (start length : Nat) : List α → List (Nat × Nat)
  | [] => closed start length
  | x :: rest =>
      if p x then runsFrom start (length + 1) rest
      else closed start length ++ runsFrom (start + length + 1) 0 rest

variable {p} {rest : List α}

theorem mem_closed {run : Nat × Nat} :
    run ∈ closed start length ↔ 0 < length ∧ run = (start, length) := by
  rw [closed]
  split
  · simp [*]
  · simp [*]

theorem mem_closed_iff (h : Pending q start length) (hend : ¬ q (start + length))
    {run : Nat × Nat} : run ∈ closed start length ↔
      IsMaximalRun q run.1 run.2 ∧ start ≤ run.1 ∧ run.1 < start + length + 1 := by
  rw [mem_closed]
  constructor
  · rintro ⟨hpos, rfl⟩
    exact ⟨h.isMaximalRun hend hpos, Nat.le_refl _, by dsimp only; omega⟩
  · rintro ⟨hrun, hle, hlt⟩
    rcases h.eq_or_after hend hrun hle with ⟨hstart, hlength⟩ | hafter
    · exact ⟨hlength ▸ hrun.pos, Prod.ext hstart hlength⟩
    · omega

/-- The scan finds the maximal runs, and nothing else. -/
theorem mem_runsFrom (h : Pending q start length)
    (hrest : ∀ k, q (start + length + k) ↔ Holds p rest k) {run : Nat × Nat} :
    run ∈ runsFrom p start length rest ↔ IsMaximalRun q run.1 run.2 ∧ start ≤ run.1 := by
  induction rest generalizing start length with
  | nil =>
      have hnone : ∀ k, ¬ q (start + length + k) := by
        intro k hq
        exact absurd ((hrest k).mp hq) (by simp [Holds])
      rw [runsFrom, mem_closed_iff h (hnone 0), and_congr_right_iff]
      intro hrun
      have hfirst := hrun.within run.1 (Nat.le_refl _) (by have := hrun.pos; omega)
      constructor
      · exact And.left
      · intro hle
        refine ⟨hle, ?_⟩
        by_contra hfar
        exact hnone (run.1 - (start + length)) (by rwa [Nat.add_sub_cancel' (by omega)])
  | cons x rest ih =>
      have hhere : q (start + length) ↔ p x = true := hrest 0
      have hlater : ∀ k, q (start + length + 1 + k) ↔ Holds p rest k := by
        intro k
        rw [Nat.add_assoc, Nat.add_comm 1 k, hrest]
        rfl
      rw [runsFrom]
      split
      · rename_i hx
        exact ih (h.extend (hhere.mpr hx)) hlater
      · rename_i hx
        have hend : ¬ q (start + length) := fun hq => hx (hhere.mp hq)
        rw [List.mem_append, mem_closed_iff h hend, ih (Pending.restart hend) hlater]
        constructor
        · rintro (⟨hrun, hle, -⟩ | ⟨hrun, hle⟩)
          · exact ⟨hrun, hle⟩
          · exact ⟨hrun, by omega⟩
        · rintro ⟨hrun, hle⟩
          by_cases hnear : run.1 < start + length + 1
          · exact Or.inl ⟨hrun, hle, hnear⟩
          · exact Or.inr ⟨hrun, Nat.not_lt.mp hnear⟩

theorem le_of_mem_runsFrom {run : Nat × Nat} (h : run ∈ runsFrom p start length rest) :
    start ≤ run.1 := by
  induction rest generalizing start length with
  | nil =>
      obtain ⟨-, rfl⟩ := mem_closed.mp h
      exact Nat.le_refl _
  | cons x rest ih =>
      rw [runsFrom] at h
      split at h
      · exact ih h
      · rcases List.mem_append.mp h with hclosed | hlater
        · obtain ⟨-, rfl⟩ := mem_closed.mp hclosed
          exact Nat.le_refl _
        · have hle := ih hlater
          omega

/-- They come from left to right, with a gap between any two. -/
theorem runsFrom_pairwise (p : α → Bool) (start length : Nat) (rest : List α) :
    (runsFrom p start length rest).Pairwise fun run later => run.1 + run.2 < later.1 := by
  induction rest generalizing start length with
  | nil =>
      rw [runsFrom, closed]
      split
      · exact List.pairwise_singleton _ _
      · exact List.Pairwise.nil
  | cons x rest ih =>
      rw [runsFrom]
      split
      · exact ih start (length + 1)
      · rw [List.pairwise_append]
        refine ⟨?_, ih _ 0, ?_⟩
        · rw [closed]
          split
          · exact List.pairwise_singleton _ _
          · exact List.Pairwise.nil
        · intro run hrun later hlater
          obtain ⟨-, rfl⟩ := mem_closed.mp hrun
          exact Nat.lt_of_succ_le (le_of_mem_runsFrom hlater)

/-- The maximal runs of a list. -/
def maximalRuns (p : α → Bool) (list : List α) : List (Nat × Nat) :=
  runsFrom p 0 0 list

theorem mem_maximalRuns {list : List α} {run : Nat × Nat} :
    run ∈ maximalRuns p list ↔ IsMaximalRun (Holds p list) run.1 run.2 := by
  rw [maximalRuns, mem_runsFrom (Pending.zero _)]
  · exact and_iff_left (Nat.zero_le _)
  · intro k
    rw [Nat.add_zero, Nat.zero_add]

theorem maximalRuns_pairwise (p : α → Bool) (list : List α) :
    (maximalRuns p list).Pairwise fun run later => run.1 + run.2 < later.1 :=
  runsFrom_pairwise p 0 0 list

end Scan

end Voidwalk.Library.MaximalRuns

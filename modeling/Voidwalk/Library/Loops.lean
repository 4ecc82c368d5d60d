import Mathlib.Data.Nat.Basic
import Mathlib.Data.Option.Basic

/-!
Loops that leave from within their body, or by an exception. A variant bounds how
often the body is executed, and with one the loop is a total function.
-/

namespace Voidwalk.Library.Loops

variable {σ α ε : Type}

/-- One execution of the body: on to a new state, or out of the loop with a value. -/
abbrev Body (σ α ε : Type) := σ → Except ε (σ ⊕ α)

/-- The loop's outcome, if it has one within `n` executions of its body. -/
def run (body : Body σ α ε) : Nat → σ → Option (Except ε α)
  | 0, _ => none
  | n + 1, state =>
      match body state with
      | .error exception => some (.error exception)
      | .ok (.inr value) => some (.ok value)
      | .ok (.inl next) => run body n next

structure Variant (body : Body σ α ε) where
  measure : σ → Nat
  measure_lt : ∀ state next, body state = .ok (.inl next) → measure next < measure state

variable {body : Body σ α ε}

theorem run_isSome (variant : Variant body) {n : Nat} {state : σ}
    (h : variant.measure state < n) : (run body n state).isSome := by
  induction n generalizing state with
  | zero => exact absurd h (Nat.not_lt_zero _)
  | succ n ih =>
      rw [run]
      cases hbody : body state with
      | error exception => rfl
      | ok outcome =>
          cases outcome with
          | inr value => rfl
          | inl next =>
              apply ih
              exact Nat.lt_of_lt_of_le (variant.measure_lt state next hbody) (Nat.le_of_lt_succ h)

/-- What the loop ends with. -/
def result (variant : Variant body) (state : σ) : Except ε α :=
  (run body (variant.measure state + 1) state).get (run_isSome variant (Nat.lt_succ_self _))

theorem run_add {n k : Nat} {state : σ} {outcome : Except ε α}
    (h : run body n state = some outcome) : run body (n + k) state = some outcome := by
  induction n generalizing state with
  | zero => contradiction
  | succ n ih =>
      rw [Nat.add_right_comm, run]
      rw [run] at h
      cases hbody : body state with
      | error exception => rwa [hbody] at h
      | ok step =>
          rw [hbody] at h
          cases step with
          | inr value => exact h
          | inl next => exact ih h

/-- Any number of executions above the variant gives the same outcome. -/
theorem run_eq_result (variant : Variant body) {n : Nat} {state : σ}
    (h : variant.measure state < n) : run body n state = some (result variant state) := by
  obtain ⟨k, rfl⟩ := Nat.exists_eq_add_of_le (Nat.succ_le_of_lt h)
  exact run_add (Option.some_get _).symm

theorem result_of_error (variant : Variant body) {state : σ} {exception : ε}
    (h : body state = .error exception) : result variant state = .error exception := by
  have hrun := run_eq_result variant (Nat.lt_succ_self (variant.measure state))
  rw [run, h] at hrun
  exact (Option.some.inj hrun).symm

theorem result_of_exit (variant : Variant body) {state : σ} {value : α}
    (h : body state = .ok (.inr value)) : result variant state = .ok value := by
  have hrun := run_eq_result variant (Nat.lt_succ_self (variant.measure state))
  rw [run, h] at hrun
  exact (Option.some.inj hrun).symm

theorem result_of_next (variant : Variant body) {state next : σ}
    (h : body state = .ok (.inl next)) : result variant state = result variant next := by
  have hrun := run_eq_result variant (Nat.lt_succ_self (variant.measure state))
  rw [run, h] at hrun
  have hnext := run_eq_result variant (variant.measure_lt state next h)
  exact Option.some.inj (hrun.symm.trans hnext)

/-- The rule for loops: a property of a state and the outcome from there holds at each
way out and passes from a state to the one before it. -/
theorem result_induction (variant : Variant body) {Q : σ → Except ε α → Prop}
    (herror : ∀ state exception, body state = .error exception → Q state (.error exception))
    (hexit : ∀ state value, body state = .ok (.inr value) → Q state (.ok value))
    (hnext : ∀ state next outcome, body state = .ok (.inl next) → Q next outcome →
      Q state outcome)
    (state : σ) : Q state (result variant state) := by
  induction hmeasure : variant.measure state using Nat.strong_induction_on generalizing state with
  | _ measure ih =>
      cases hbody : body state with
      | error exception =>
          rw [result_of_error variant hbody]
          exact herror state exception hbody
      | ok step =>
          cases step with
          | inr value =>
              rw [result_of_exit variant hbody]
              exact hexit state value hbody
          | inl next =>
              rw [result_of_next variant hbody]
              refine hnext state next _ hbody (ih _ ?_ next rfl)
              rw [← hmeasure]
              exact variant.measure_lt state next hbody

section Counting

variable (body) (p : σ → Bool)

/-- How many of the first `n` executions of the body start in a state that counts. -/
def executions : Nat → σ → Nat
  | 0, _ => 0
  | n + 1, state =>
      (if p state then 1 else 0) +
        match body state with
        | .ok (.inl next) => executions n next
        | _ => 0

variable {body} {p}

/-- Where an execution that counts leaves something of the variant, it bounds them. -/
theorem executions_le (variant : Variant body)
    (h : ∀ state, p state = true → 0 < variant.measure state) (n : Nat) (state : σ) :
    executions body p n state ≤ variant.measure state := by
  induction n generalizing state with
  | zero => exact Nat.zero_le _
  | succ n ih =>
      have hfirst : (if p state then 1 else 0) ≤ variant.measure state := by
        split
        · rename_i hcounts
          exact h state hcounts
        · exact Nat.zero_le _
      rw [executions]
      cases hbody : body state with
      | error exception => exact hfirst
      | ok step =>
          cases step with
          | inr value => exact hfirst
          | inl next =>
              have hlt := variant.measure_lt state next hbody
              have hnext := ih next
              have hone : (if p state then 1 else 0) ≤ 1 := by split <;> decide
              dsimp only
              omega

theorem executions_le_succ (variant : Variant body) (n : Nat) (state : σ) :
    executions body p n state ≤ variant.measure state + 1 := by
  let later : Variant body :=
    ⟨fun state => variant.measure state + 1,
      fun state next hbody => Nat.succ_lt_succ (variant.measure_lt state next hbody)⟩
  exact executions_le later (fun _ _ => Nat.succ_pos _) n state

end Counting

section Throwing

/-- A computation that throws nothing but what `P` allows. -/
def ThrowsOnly (P : ε → Prop) (outcome : Except ε α) : Prop :=
  ∀ exception, outcome = .error exception → P exception

variable {β : Type} {P Q : ε → Prop}

theorem ThrowsOnly.pure (value : α) : ThrowsOnly P (pure value) :=
  nofun

theorem ThrowsOnly.mono {outcome : Except ε α} (h : ThrowsOnly P outcome)
    (hPQ : ∀ exception, P exception → Q exception) : ThrowsOnly Q outcome :=
  fun exception herror => hPQ exception (h exception herror)

theorem ThrowsOnly.throw {exception : ε} (h : P exception) :
    ThrowsOnly P (.error exception : Except ε α) := by
  intro thrown herror
  obtain rfl := Except.error.inj herror
  exact h

theorem ThrowsOnly.map {outcome : Except ε α} (h : ThrowsOnly P outcome) (f : α → β) :
    ThrowsOnly P (outcome.map f) := by
  cases outcome with
  | error exception => exact .throw (h exception rfl)
  | ok value => exact nofun

theorem ThrowsOnly.bind {outcome : Except ε α} {rest : α → Except ε β}
    (h : ThrowsOnly P outcome) (hrest : ∀ value, ThrowsOnly P (rest value)) :
    ThrowsOnly P (outcome >>= rest) := by
  cases outcome with
  | error exception => exact .throw (h exception rfl)
  | ok value => exact hrest value

/-- A loop throws what its body throws. -/
theorem ThrowsOnly.loop (variant : Variant body) (h : ∀ state, ThrowsOnly P (body state))
    (state : σ) : ThrowsOnly P (result variant state) := by
  refine result_induction variant (Q := fun _ outcome => ThrowsOnly P outcome) ?_ ?_ ?_ state
  · intro state exception hbody
    exact .throw (h state exception hbody)
  · exact fun _ value _ => .pure value
  · exact fun _ _ _ _ hnext => hnext

end Throwing

end Voidwalk.Library.Loops

import Mathlib.Logic.Relation
import Mathlib.Tactic.Common

/-!
A thread that answers one call after the other with atomic statements on a shared
state, while an environment takes steps of its own between any two of them.

`Safe` is the proof rule for one call: an assertion for every statement and for the
end, each kept by the environment. If every call is safe where the one before may
end, the assertions hold throughout.
-/

namespace Voidwalk.Library.InterleavedThread

open Relation (ReflTransGen)

variable {C L ε σ α β : Type}

/-- A sequential program. A statement waits until it is enabled, then acts on the
state; how the program goes on depends on the state it found. -/
inductive Thread (L ε σ α : Type) where
  | returned (value : α)
  | thrown (exception : ε)
  | statement (label : L) (enabled : σ → Bool) (effect : σ → σ)
      (next : σ → Thread L ε σ α)

namespace Thread

def bind (thread : Thread L ε σ α) (rest : α → Thread L ε σ β) : Thread L ε σ β :=
  match thread with
  | .returned value => rest value
  | .thrown exception => .thrown exception
  | .statement label enabled effect next =>
      .statement label enabled effect fun state => (next state).bind rest

instance : Monad (Thread L ε σ) where
  pure := .returned
  bind := bind

def ofExcept : Except ε α → Thread L ε σ α
  | .ok value => .returned value
  | .error exception => .thrown exception

def update (label : L) (effect : σ → σ) (value : σ → Except ε α) : Thread L ε σ α :=
  .statement label (fun _ => true) effect fun state => ofExcept (value state)

def perform (label : L) (effect : σ → σ) : Thread L ε σ Unit :=
  update label effect fun _ => .ok ()

def read (label : L) (value : σ → α) : Thread L ε σ α :=
  update label id fun state => .ok (value state)

def await (label : L) (condition : σ → Bool) (effect : σ → σ) : Thread L ε σ Unit :=
  .statement label condition effect fun _ => .returned ()

def label : Thread L ε σ α → Option L
  | .statement label _ _ _ => some label
  | _ => none

def result : Thread L ε σ α → Option (Except ε α)
  | .returned value => some (.ok value)
  | .thrown exception => some (.error exception)
  | .statement _ _ _ _ => none

def step : Thread L ε σ α → σ → Option (Thread L ε σ α × σ)
  | .statement _ enabled effect next, state =>
      if enabled state then some (next state, effect state) else none
  | _, _ => none

end Thread

open Thread

/-- A thread and the state it shares. The latest call stays in `active` when it has
ended; `history` has those before it, the latest first. -/
structure System (C L ε σ α : Type) where
  state : σ
  active : Option (C × Thread L ε σ α)
  history : List (C × Except ε α)

namespace System

def start (state : σ) : System C L ε σ α where
  state := state
  active := none
  history := []

/-- Where the thread stands; nowhere when it is between two calls. -/
def label (system : System C L ε σ α) : Option L :=
  system.active.bind fun active => active.2.label

/-- The calls that have ended, the latest first. -/
def past (system : System C L ε σ α) : List (C × Except ε α) :=
  match system.active with
  | none => system.history
  | some (call, thread) =>
      match thread.result with
      | none => system.history
      | some result => (call, result) :: system.history

def enter (system : System C L ε σ α) (call : C) (thread : Thread L ε σ α) :
    System C L ε σ α where
  state := system.state
  active := some (call, thread)
  history := system.past

end System

section Steps

variable (environment : Option L → σ → σ → Prop)
  (allowed : List (C × Except ε α) → σ → C → Prop) (program : C → Thread L ε σ α)

inductive Step : System C L ε σ α → System C L ε σ α → Prop where
  | environment {system : System C L ε σ α} {state : σ}
      (h : environment system.label system.state state) :
      Step system { system with state := state }
  | statement {system : System C L ε σ α} {call : C} {thread next : Thread L ε σ α} {state : σ}
      (hactive : system.active = some (call, thread))
      (h : thread.step system.state = some (next, state)) :
      Step system { system with state := state, active := some (call, next) }
  | begins {system : System C L ε σ α} {call : C} (hlabel : system.label = none)
      (h : allowed system.past system.state call) :
      Step system (system.enter call (program call))

end Steps

section Safety

variable (environment : Option L → σ → σ → Prop) (A : L → σ → Prop)
  (Q : Except ε α → σ → Prop)

/-- `A` holds at every statement and `Q` at the end, however the environment moves
at the statements. -/
def Safe : Thread L ε σ α → σ → Prop
  | .returned value, state => Q (.ok value) state
  | .thrown exception, state => Q (.error exception) state
  | .statement label enabled effect next, state =>
      ∀ later, ReflTransGen (environment (some label)) state later →
        A label later ∧ (enabled later = true → Safe (next later) (effect later))

variable {environment A Q} {thread : Thread L ε σ α} {state later : σ}

theorem Safe.holds {label : L} (h : Safe environment A Q thread state)
    (hlabel : thread.label = some label) : A label state := by
  cases thread with
  | returned value => contradiction
  | thrown exception => contradiction
  | statement label enabled effect next =>
      obtain rfl := Option.some.inj hlabel
      exact (h state .refl).1

theorem Safe.ended {result : Except ε α} (h : Safe environment A Q thread state)
    (hresult : thread.result = some result) : Q result state := by
  cases thread with
  | returned value =>
      obtain rfl := Option.some.inj hresult
      exact h
  | thrown exception =>
      obtain rfl := Option.some.inj hresult
      exact h
  | statement label enabled effect next => contradiction

theorem Safe.moved (h : Safe environment A Q thread state)
    (hQ : ∀ result s t, Q result s → environment none s t → Q result t)
    (hmoved : environment thread.label state later) : Safe environment A Q thread later := by
  cases thread with
  | returned value => exact hQ _ _ _ h hmoved
  | thrown exception => exact hQ _ _ _ h hmoved
  | statement label enabled effect next => exact fun final hfinal => h final (.head hmoved hfinal)

theorem Safe.step {next : Thread L ε σ α} (h : Safe environment A Q thread state)
    (hstep : thread.step state = some (next, later)) : Safe environment A Q next later := by
  cases thread with
  | returned value => contradiction
  | thrown exception => contradiction
  | statement label enabled effect rest =>
      simp only [Thread.step] at hstep
      split_ifs at hstep with henabled
      obtain ⟨rfl, rfl⟩ := Prod.mk.inj (Option.some.inj hstep)
      exact (h state .refl).2 henabled

theorem Safe.mono {B : L → σ → Prop} {R : Except ε α → σ → Prop}
    (h : Safe environment A Q thread state) (hA : ∀ label later, A label later → B label later)
    (hQ : ∀ result later, Q result later → R result later) :
    Safe environment B R thread state := by
  induction thread generalizing state with
  | returned value => exact hQ _ _ h
  | thrown exception => exact hQ _ _ h
  | statement label enabled effect next ih =>
      exact fun later hlater => (h later hlater).imp (hA label later) fun hrest henabled =>
        ih later (hrest henabled)

theorem Safe.restrict {environment' : Option L → σ → σ → Prop}
    (h : Safe environment A Q thread state)
    (henvironment : ∀ label s t, environment' label s t → environment label s t) :
    Safe environment' A Q thread state := by
  induction thread generalizing state with
  | returned value => exact h
  | thrown exception => exact h
  | statement label enabled effect next ih =>
      exact fun later hlater => (h later (ReflTransGen.mono (henvironment _) _ _ hlater)).imp_right
        fun hrest henabled => ih later (hrest henabled)

theorem Safe.of_forall (hA : ∀ label state, A label state)
    (hQ : ∀ result state, Q result state) : Safe environment A Q thread state := by
  induction thread generalizing state with
  | returned value => exact hQ _ _
  | thrown exception => exact hQ _ _
  | statement label enabled effect next ih =>
      exact fun later _ => ⟨hA label later, fun _ => ih later⟩

/-- Sequencing: the rest is safe wherever the first part may return. -/
theorem Safe.bind {rest : α → Thread L ε σ β} {R : Except ε β → σ → Prop}
    (h : Safe environment A (fun result later => match result with
      | .ok value => Safe environment A R (rest value) later
      | .error exception => R (.error exception) later) thread state) :
    Safe environment A R (thread >>= rest) state := by
  induction thread generalizing state with
  | returned value => exact h
  | thrown exception => exact h
  | statement label enabled effect next ih =>
      exact fun later hlater => (h later hlater).imp_right fun hrest henabled =>
        ih later (hrest henabled)

section Statements

variable {label : L} (I : σ → Prop) (h : I state)
  (hstable : ∀ s t, I s → environment (some label) s t → I t) (hA : ∀ s, I s → A label s)

include h hstable hA

theorem Safe.statement {enabled : σ → Bool} {effect : σ → σ} {next : σ → Thread L ε σ α}
    (hnext : ∀ s, I s → enabled s = true → Safe environment A Q (next s) (effect s)) :
    Safe environment A Q (.statement label enabled effect next) state := by
  intro later hlater
  have hlater : I later := by
    induction hlater with
    | refl => exact h
    | tail _ hmoved ih => exact hstable _ _ ih hmoved
  exact ⟨hA later hlater, hnext later hlater⟩

theorem Safe.update {effect : σ → σ} {value : σ → Except ε α}
    (hQ : ∀ s, I s → Q (value s) (effect s)) :
    Safe environment A Q (Thread.update label effect value) state := by
  refine Safe.statement I h hstable hA fun s hs _ => ?_
  have hend := hQ s hs
  revert hend
  cases value s with
  | ok value => exact id
  | error exception => exact id

theorem Safe.perform {Q : Except ε Unit → σ → Prop} {effect : σ → σ}
    (hQ : ∀ s, I s → Q (.ok ()) (effect s)) :
    Safe environment A Q (Thread.perform label effect) state :=
  Safe.update I h hstable hA hQ

theorem Safe.read {value : σ → α} (hQ : ∀ s, I s → Q (.ok (value s)) s) :
    Safe environment A Q (Thread.read label value) state :=
  Safe.update I h hstable hA hQ

theorem Safe.await {Q : Except ε Unit → σ → Prop} {condition : σ → Bool} {effect : σ → σ}
    (hQ : ∀ s, I s → condition s = true → Q (.ok ()) (effect s)) :
    Safe environment A Q (Thread.await label condition effect) state :=
  Safe.statement I h hstable hA hQ

end Statements

/-- Where the environment stands still, a statement finds the state as it is. -/
theorem Safe.update_of_still {label : L} {effect : σ → σ} {value : σ → Except ε α}
    (hstill : ∀ later, ¬ environment (some label) state later) (hA : A label state)
    (hQ : Q (value state) (effect state)) :
    Safe environment A Q (Thread.update label effect value) state := by
  refine Safe.update (· = state) rfl ?_ ?_ ?_
  · rintro s t rfl hmoved
    exact absurd hmoved (hstill t)
  · rintro s rfl
    exact hA
  · rintro s rfl
    exact hQ

end Safety

section Runs

variable {environment : Option L → σ → σ → Prop}
  {allowed : List (C × Except ε α) → σ → C → Prop} {program : C → Thread L ε σ α}
  {A : List (C × Except ε α) → C → L → σ → Prop} {P : List (C × Except ε α) → σ → Prop}
  {system later : System C L ε σ α}

/-- Between two calls `P` holds, and the call under way is safe. -/
def Holds (environment : Option L → σ → σ → Prop)
    (A : List (C × Except ε α) → C → L → σ → Prop) (P : List (C × Except ε α) → σ → Prop)
    (system : System C L ε σ α) : Prop :=
  match system.active with
  | none => P system.history system.state
  | some (call, thread) => Safe environment (A system.history call)
      (fun result => P ((call, result) :: system.history)) thread system.state

theorem holds_start {state : σ} (h : P [] state) :
    Holds environment A P (.start state : System C L ε σ α) :=
  h

theorem Holds.idle (h : Holds environment A P system) (hlabel : system.label = none) :
    P system.past system.state := by
  rw [Holds] at h
  rw [System.past]
  rcases hactive : system.active with _ | ⟨call, thread⟩
  · rwa [hactive] at h
  · rw [hactive] at h
    rw [System.label, hactive] at hlabel
    cases hthread : thread with
    | returned value => exact h.ended (by rw [hthread]; rfl)
    | thrown exception => exact h.ended (by rw [hthread]; rfl)
    | statement label enabled effect next =>
        rw [hthread] at hlabel
        contradiction

theorem Holds.of_idle (hlabel : system.label = none) (h : P system.past system.state) :
    Holds environment A P system := by
  rw [Holds]
  rw [System.past] at h
  rcases hactive : system.active with _ | ⟨call, thread⟩
  · rwa [hactive] at h
  · rw [hactive] at h
    rw [System.label, hactive] at hlabel
    cases thread with
    | returned value => exact h
    | thrown exception => exact h
    | statement label enabled effect next => contradiction

theorem Holds.underWay (h : Holds environment A P system) {label : L}
    (hlabel : system.label = some label) :
    ∃ call thread, system.active = some (call, thread) ∧
      A system.history call label system.state := by
  rw [Holds] at h
  rw [System.label] at hlabel
  rcases hactive : system.active with _ | ⟨call, thread⟩
  · rw [hactive] at hlabel
    contradiction
  · rw [hactive] at h hlabel
    exact ⟨call, thread, rfl, h.holds hlabel⟩

theorem Holds.step (h : Holds environment A P system)
    (hP : ∀ history s t, P history s → environment none s t → P history t)
    (hbegins : ∀ history s call, P history s → allowed history s call →
      Safe environment (A history call) (fun result => P ((call, result) :: history))
        (program call) s)
    (hstep : Step environment allowed program system later) : Holds environment A P later := by
  cases hstep with
  | environment hmoved =>
      rw [Holds] at h ⊢
      rw [System.label] at hmoved
      rcases hactive : system.active with _ | ⟨call, thread⟩
      · rw [hactive] at h hmoved
        exact hP _ _ _ h hmoved
      · rw [hactive] at h hmoved
        exact h.moved (fun result => hP _) hmoved
  | statement hactive hstep =>
      rw [Holds, hactive] at h
      exact Safe.step h hstep
  | begins hlabel hallowed => exact hbegins _ _ _ (h.idle hlabel) hallowed

/-- If every call is safe where the one before may end, the thread is safe
throughout. -/
theorem Holds.run (h : Holds environment A P system)
    (hP : ∀ history s t, P history s → environment none s t → P history t)
    (hbegins : ∀ history s call, P history s → allowed history s call →
      Safe environment (A history call) (fun result => P ((call, result) :: history))
        (program call) s)
    (hrun : ReflTransGen (Step environment allowed program) system later) :
    Holds environment A P later := by
  induction hrun with
  | refl => exact h
  | tail _ hstep ih => exact ih.step hP hbegins hstep

/-- What a call establishes holds until the next one begins. -/
theorem ended_of_run {Q : Except ε α → σ → Prop} {call : C} {result : Except ε α}
    {A : L → σ → Prop} (h : Safe environment A Q (program call) system.state)
    (hQ : ∀ result s t, Q result s → environment none s t → Q result t)
    (hrun : ReflTransGen (Step environment allowed program)
      (system.enter call (program call)) later)
    (hlabel : later.label = none) (hpast : later.past = (call, result) :: system.past) :
    Q result later.state := by
  -- A longer history says nothing, so the calls behind this one need no proof.
  let P : List (C × Except ε α) → σ → Prop := fun history state =>
    system.past.length < history.length ∧
      ∀ result, history = (call, result) :: system.past → Q result state
  have hstart : Holds environment (fun _ _ _ _ => True) P
      (system.enter call (program call)) := by
    have hcall : Safe environment (fun _ _ => True)
        (fun result => P ((call, result) :: system.past)) (program call) system.state := by
      refine h.mono (fun _ _ _ => trivial) fun result state hresult =>
        ⟨Nat.lt_succ_self _, ?_⟩
      rintro other heq
      obtain rfl := congrArg Prod.snd (List.cons.inj heq).1
      exact hresult
    exact hcall
  refine (Holds.idle (hstart.run ?_ ?_ hrun) hlabel).2 result hpast
  · exact fun history s t h hmoved => ⟨h.1, fun result heq => hQ result s t (h.2 result heq) hmoved⟩
  · intro history s other h _
    refine Safe.of_forall (fun _ _ => trivial) fun result state => ?_
    refine ⟨Nat.lt_succ_of_lt h.1, fun result heq => ?_⟩
    exact absurd (congrArg List.length (List.cons.inj heq).2) (Nat.ne_of_gt h.1)

end Runs

section Schedules

variable {M : Type}

inductive Turn (M C : Type) where
  | environment (move : M)
  | statement
  | call (call : C)

variable (moves : M → Option L → σ → Option σ)
  (mayCall : List (C × Except ε α) → σ → C → Bool) (program : C → Thread L ε σ α)

def System.take (system : System C L ε σ α) : Turn M C → Option (System C L ε σ α)
  | .environment move =>
      (moves move system.label system.state).map fun state => { system with state := state }
  | .statement =>
      match system.active with
      | none => none
      | some (call, thread) => (thread.step system.state).map fun (next, state) =>
          { system with state := state, active := some (call, next) }
  | .call call =>
      if system.label.isNone && mayCall system.past system.state call then
        some (system.enter call (program call))
      else none

/-- Plays a schedule; none if a turn is not possible. -/
def System.play (system : System C L ε σ α) : List (Turn M C) → Option (System C L ε σ α)
  | [] => some system
  | turn :: turns => (system.take moves mayCall program turn).bind fun next => next.play turns

variable {moves mayCall program} {environment : Option L → σ → σ → Prop}
  {allowed : List (C × Except ε α) → σ → C → Prop} {system later : System C L ε σ α}

theorem step_of_take
    (hmoves : ∀ move label s t, moves move label s = some t → environment label s t)
    (hcalls : ∀ history s call, mayCall history s call = true → allowed history s call)
    {turn : Turn M C} (h : system.take moves mayCall program turn = some later) :
    Step environment allowed program system later := by
  cases turn with
  | environment move =>
      obtain ⟨state, hmove, rfl⟩ := Option.map_eq_some_iff.mp h
      exact .environment (hmoves _ _ _ _ hmove)
  | statement =>
      rcases hactive : system.active with _ | ⟨call, thread⟩
      · simp [System.take, hactive] at h
      · rw [System.take, hactive] at h
        obtain ⟨⟨next, state⟩, hstep, rfl⟩ := Option.map_eq_some_iff.mp h
        exact .statement hactive hstep
  | call call =>
      rw [System.take] at h
      split_ifs at h with hpossible
      obtain rfl := Option.some.inj h
      obtain ⟨hlabel, hcall⟩ := Bool.and_eq_true_iff.mp hpossible
      exact .begins (Option.isNone_iff_eq_none.mp hlabel) (hcalls _ _ _ hcall)

theorem run_of_play (hmoves : ∀ move label s t, moves move label s = some t → environment label s t)
    (hcalls : ∀ history s call, mayCall history s call = true → allowed history s call)
    {turns : List (Turn M C)} (h : system.play moves mayCall program turns = some later) :
    ReflTransGen (Step environment allowed program) system later := by
  induction turns generalizing system with
  | nil =>
      obtain rfl := Option.some.inj h
      exact .refl
  | cons turn turns ih =>
      obtain ⟨next, htake, hrest⟩ := Option.bind_eq_some_iff.mp h
      exact .head (step_of_take hmoves hcalls htake) (ih hrest)

end Schedules

end Voidwalk.Library.InterleavedThread

import Voidwalk.AnalysisSession
import Voidwalk.Library.ObjectTable
import Voidwalk.SweepRefinement

/-!
How the session's tables stand between its statements, and what a worker's step
keeps: worker `t` belongs to the `t`-th binary and to nothing else.
-/

namespace Voidwalk.SessionStanding

open Voidwalk.Library
open Voidwalk.Library.InterleavedThread
open Voidwalk.MappedFile
open Voidwalk.Disassembly
open Voidwalk.SweepRefinement
open Voidwalk.AnalysisSession

variable {F View : Type}

/-- What a finished worker has to leave in its `DecodeState`. -/
def outcome (worker : Worker) : DecodeState :=
  match worker.point with
  | .thrown exception => { note := exception.what, fileChanged := isFileChanged exception }
  | _ => {}

/-- What a worker has written so far. -/
def Recorded (worker : Worker) (state : DecodeState) : Prop :=
  match worker.phase with
  | .decoding => state = { running := true }
  | .flagging => ∃ what, worker.point = .thrown (.fileChanged what) ∧
      state = { running := true, note := what }
  | .clearing => ∃ exception, worker.point = .thrown exception ∧
      state = { outcome worker with running := true }
  | .finished => (worker.point = .returned ∨ ∃ exception, worker.point = .thrown exception) ∧
      state = outcome worker

theorem Recorded.running {worker : Worker} {state : DecodeState} (h : Recorded worker state) :
    state.running = true ↔ worker.phase ≠ .finished := by
  rw [Recorded] at h
  cases hphase : worker.phase with
  | decoding => simp_all
  | flagging =>
      rw [hphase] at h
      obtain ⟨what, -, rfl⟩ := h
      simp
  | clearing =>
      rw [hphase] at h
      obtain ⟨exception, -, rfl⟩ := h
      simp
  | finished =>
      rw [hphase] at h
      obtain ⟨-, rfl⟩ := h
      rw [outcome]
      split <;> simp

structure WorkerSound (worker : Worker) (disassembler : Disassembler) (state : DecodeState) :
    Prop where
  sound : Sound disassembler worker.stopRequested worker.point
  recorded : Recorded worker state

structure Follows (worker later : Worker) : Prop where
  disassembler : later.disassembler = worker.disassembler
  space : later.space = worker.space
  state : later.state = worker.state
  generation : later.generation = worker.generation

theorem WorkerSound.advance {surroundings : Surroundings} {worker worker' : Worker}
    {disassembler disassembler' : Disassembler} {state state' : DecodeState}
    (h : WorkerSound worker disassembler state)
    (hstep : worker.advance surroundings disassembler state =
      some (worker', disassembler', state')) :
    WorkerSound worker' disassembler' state' ∧ Grows disassembler disassembler' ∧
      Follows worker worker' ∧ worker.phase ≠ .finished := by
  obtain ⟨hsound, hrecorded⟩ := h
  rw [Recorded] at hrecorded
  rw [Worker.advance] at hstep
  cases hphase : worker.phase with
  | decoding =>
      simp only [hphase] at hstep hrecorded
      subst hrecorded
      split at hstep
      · -- `decode()` has returned.
        rename_i hpoint
        simp only [Option.some.injEq, Prod.mk.injEq] at hstep
        obtain ⟨rfl, rfl, rfl⟩ := hstep
        refine ⟨⟨hsound, ?_⟩, .refl _, ⟨rfl, rfl, rfl, rfl⟩, nofun⟩
        exact ⟨Or.inl hpoint, by simp [outcome, hpoint]⟩
      · contradiction
      · -- A handler writes the note.
        rename_i exception _ hpoint
        simp only [Option.some.injEq, Prod.mk.injEq] at hstep
        obtain ⟨rfl, rfl, rfl⟩ := hstep
        refine ⟨⟨hsound, ?_⟩, .refl _, ⟨rfl, rfl, rfl, rfl⟩, nofun⟩
        cases exception with
        | fileChanged what => exact ⟨what, hpoint, rfl⟩
        | lengthError | runtimeError | badAlloc =>
            exact ⟨_, hpoint, by simp [outcome, hpoint, isFileChanged]⟩
        | outOfRange => exact ⟨_, hpoint, by simp [outcome, hpoint, isFileChanged]⟩
      · obtain ⟨⟨later, next⟩, hdecode, heq⟩ := Option.map_eq_some_iff.mp hstep
        simp only [Prod.mk.injEq] at heq
        obtain ⟨rfl, rfl, rfl⟩ := heq
        obtain ⟨hlater, hgrows⟩ := sound_step hsound hdecode
        refine ⟨⟨hlater, ?_⟩, hgrows, ⟨rfl, rfl, rfl, rfl⟩, nofun⟩
        simp only [Recorded]
  | flagging =>
      simp only [hphase] at hstep hrecorded
      simp only [Option.some.injEq, Prod.mk.injEq] at hstep
      obtain ⟨rfl, rfl, rfl⟩ := hstep
      obtain ⟨what, hpoint, rfl⟩ := hrecorded
      refine ⟨⟨hsound, _, hpoint, ?_⟩, .refl _, ⟨rfl, rfl, rfl, rfl⟩, nofun⟩
      simp [outcome, hpoint, isFileChanged, Thrown.what]
  | clearing =>
      simp only [hphase] at hstep hrecorded
      simp only [Option.some.injEq, Prod.mk.injEq] at hstep
      obtain ⟨rfl, rfl, rfl⟩ := hstep
      obtain ⟨exception, hpoint, rfl⟩ := hrecorded
      refine ⟨⟨hsound, Or.inr ⟨exception, hpoint⟩, ?_⟩, .refl _, ⟨rfl, rfl, rfl, rfl⟩, nofun⟩
      simp [outcome, hpoint]
  | finished =>
      simp only [hphase] at hstep
      contradiction

/-- The step that clears `running` leaves the rows alone. -/
theorem advance_finished {surroundings : Surroundings} {worker worker' : Worker}
    {disassembler disassembler' : Disassembler} {state state' : DecodeState}
    (hstep : worker.advance surroundings disassembler state =
      some (worker', disassembler', state'))
    (hfinished : worker'.phase = .finished) : disassembler' = disassembler := by
  rw [Worker.advance] at hstep
  cases hphase : worker.phase with
  | decoding =>
      simp only [hphase] at hstep
      split at hstep
      · simp only [Option.some.injEq, Prod.mk.injEq] at hstep
        exact hstep.2.1.symm
      · contradiction
      · simp only [Option.some.injEq, Prod.mk.injEq] at hstep
        exact hstep.2.1.symm
      · obtain ⟨later, -, heq⟩ := Option.map_eq_some_iff.mp hstep
        simp only [Prod.mk.injEq] at heq
        rw [← heq.1] at hfinished
        contradiction
  | flagging | clearing =>
      simp only [hphase, Option.some.injEq, Prod.mk.injEq] at hstep
      exact hstep.2.1.symm
  | finished =>
      simp only [hphase] at hstep
      contradiction

def latest : Nat → Option Nat
  | 0 => none
  | n + 1 => some n

theorem eq_succ_of_latest {n t : Nat} (h : latest n = some t) : n = t + 1 := by
  cases n with
  | zero => contradiction
  | succ n => exact congrArg (· + 1) (Option.some.inj h)

/-- How far the tables have been extended. -/
structure Stage where
  binaries : Nat
  states : Nat
  generation : Nat
  workers : Nat
  thread : Option Nat
  /-- Whether a `DecodeState` without worker has its flag set. -/
  started : Bool

def settled (n : Nat) : Stage := ⟨n, n, n, n, latest n, false⟩

structure WorkerAt (disassemblers : List Disassembler) (decodeStates : List DecodeState) (t : Nat)
    (worker : Worker) : Prop where
  disassembler : worker.disassembler = t
  space : worker.space = t
  state : worker.state = t
  generation : worker.generation = t + 1
  sound : ∃ disassembler state, disassemblers[t]? = some disassembler ∧
    decodeStates[t]? = some state ∧ WorkerSound worker disassembler state

def Untouched (disassembler : Disassembler) : Prop :=
  ∃ contents arch commonSections entryAddress,
    disassembler = .construct contents arch commonSections entryAddress []

structure Standing (stage : Stage) (world : World View) : Prop where
  spaces_length : world.spaces.length = stage.binaries
  disassemblers_length : world.disassemblers.length = stage.binaries
  decodeStates_length : world.decodeStates.length = stage.states
  workers_length : world.workers.length = stage.workers
  generation : world.session.decodeGeneration = stage.generation
  space : world.session.space = latest stage.binaries
  disassembler : world.session.disassembler = latest stage.binaries
  decodeState : world.session.decodeState = latest stage.states
  thread : world.session.decodeThread = stage.thread
  contents : ∀ (i : Nat) (disassembler : Disassembler),
    world.disassemblers[i]? = some disassembler → world.spaces[i]? = some disassembler.contents
  worker : ∀ (t : Nat) (worker : Worker), world.workers[t]? = some worker →
    WorkerAt world.disassemblers world.decodeStates t worker
  joined : ∀ (t : Nat) (worker : Worker), world.workers[t]? = some worker →
    stage.thread ≠ some t → worker.phase = .finished
  untouched : ∀ (i : Nat) (disassembler : Disassembler), stage.workers ≤ i →
    world.disassemblers[i]? = some disassembler → Untouched disassembler
  unstarted : ∀ (i : Nat) (state : DecodeState), stage.workers ≤ i →
    world.decodeStates[i]? = some state → state = { running := stage.started }

theorem standing_start (view : View) : Standing (settled 0) ({ view := view } : World View) := by
  refine ⟨rfl, rfl, rfl, rfl, rfl, rfl, rfl, rfl, rfl, ?_, ?_, ?_, ?_, ?_⟩ <;> simp

/-- Nothing but the workers has moved. -/
structure Progress (before after : World View) : Prop where
  session : after.session = before.session
  view : after.view = before.view
  spaces : after.spaces = before.spaces
  length : after.disassemblers.length = before.disassemblers.length
  grows : ∀ (i : Nat) (disassembler : Disassembler), before.disassemblers[i]? = some disassembler →
    ∃ later, after.disassemblers[i]? = some later ∧ Grows disassembler later

theorem Progress.refl (world : World View) : Progress world world :=
  ⟨rfl, rfl, rfl, rfl, fun _ disassembler h => ⟨disassembler, h, .refl _⟩⟩

theorem Progress.trans {first second third : World View} (h : Progress first second)
    (h' : Progress second third) : Progress first third where
  session := h'.session.trans h.session
  view := h'.view.trans h.view
  spaces := h'.spaces.trans h.spaces
  length := h'.length.trans h.length
  grows := by
    intro i disassembler hget
    obtain ⟨later, hlater, hgrows⟩ := h.grows i disassembler hget
    obtain ⟨final, hfinal, hgrows'⟩ := h'.grows i later hlater
    exact ⟨final, hfinal, hgrows.trans hgrows'⟩

section Workers

variable {stage : Stage} {world later : World View} {surroundings : Surroundings} {t : Nat}

/-- A step of worker `t` replaces its three objects. -/
theorem Standing.workerStep_cases (h : Standing stage world)
    (hstep : workerStep surroundings t world = some later) :
    ∃ worker disassembler state worker' disassembler' state',
      world.workers[t]? = some worker ∧ world.disassemblers[t]? = some disassembler ∧
      world.decodeStates[t]? = some state ∧ WorkerSound worker disassembler state ∧
      worker.advance surroundings disassembler state = some (worker', disassembler', state') ∧
      later = { world with
        workers := world.workers.set t worker'
        disassemblers := world.disassemblers.set t disassembler'
        decodeStates := world.decodeStates.set t state' } := by
  simp only [workerStep, Option.bind_eq_bind, Option.bind_eq_some_iff, Option.pure_def,
    Option.some.injEq] at hstep
  obtain ⟨worker, hworker, disassembler, hdisassembler, state, hstate,
    ⟨worker', disassembler', state'⟩, hadvance, rfl⟩ := hstep
  have hat := h.worker t worker hworker
  rw [hat.disassembler] at hdisassembler
  rw [hat.state] at hstate
  obtain ⟨other, otherState, hother, hotherState, hsound⟩ := hat.sound
  obtain rfl := Option.some.inj (hdisassembler.symm.trans hother)
  obtain rfl := Option.some.inj (hstate.symm.trans hotherState)
  refine ⟨worker, disassembler, state, worker', disassembler', state', hworker, hdisassembler,
    hstate, hsound, hadvance, ?_⟩
  rw [hat.disassembler, hat.state]

theorem Standing.standing_step (h : Standing stage world)
    (hstep : workerStep surroundings t world = some later) : Standing stage later := by
  obtain ⟨worker, disassembler, state, worker', disassembler', state', hworker, hdisassembler,
    hstate, hsound, hadvance, rfl⟩ := h.workerStep_cases hstep
  obtain ⟨hsound', hgrows, hfollows, hunfinished⟩ := hsound.advance hadvance
  have hat := h.worker t worker hworker
  have htable : t < stage.workers := by
    rw [← h.workers_length]
    exact (List.getElem?_eq_some_iff.mp hworker).1
  constructor
  · exact h.spaces_length
  · exact (List.length_set ..).trans h.disassemblers_length
  · exact (List.length_set ..).trans h.decodeStates_length
  · exact (List.length_set ..).trans h.workers_length
  · exact h.generation
  · exact h.space
  · exact h.disassembler
  · exact h.decodeState
  · exact h.thread
  · intro i found hfound
    rcases ObjectTable.set_cases hfound with ⟨rfl, rfl⟩ | ⟨-, hfound⟩
    · rw [hgrows.contents]
      exact h.contents i disassembler hdisassembler
    · exact h.contents i found hfound
  · intro i found hfound
    rcases ObjectTable.set_cases hfound with ⟨rfl, rfl⟩ | ⟨hne, hfound⟩
    · exact ⟨hfollows.disassembler.trans hat.disassembler, hfollows.space.trans hat.space,
        hfollows.state.trans hat.state, hfollows.generation.trans hat.generation,
        disassembler', state', ObjectTable.set_self hdisassembler,
        ObjectTable.set_self hstate, hsound'⟩
    · obtain ⟨h₁, h₂, h₃, h₄, other, otherState, hother, hotherState, hothers⟩ :=
        h.worker i found hfound
      refine ⟨h₁, h₂, h₃, h₄, other, otherState, ?_, ?_, hothers⟩
      · exact (List.getElem?_set_ne hne.symm).trans hother
      · exact (List.getElem?_set_ne hne.symm).trans hotherState
  · intro i found hfound hthread
    rcases ObjectTable.set_cases hfound with ⟨rfl, -⟩ | ⟨-, hfound⟩
    · exact absurd (h.joined i worker hworker hthread) hunfinished
    · exact h.joined i found hfound hthread
  · intro i found hi hfound
    rcases ObjectTable.set_cases hfound with ⟨rfl, -⟩ | ⟨-, hfound⟩
    · exact absurd htable (Nat.not_lt.mpr hi)
    · exact h.untouched i found hi hfound
  · intro i found hi hfound
    rcases ObjectTable.set_cases hfound with ⟨rfl, -⟩ | ⟨-, hfound⟩
    · exact absurd htable (Nat.not_lt.mpr hi)
    · exact h.unstarted i found hi hfound

theorem Standing.progress_step (h : Standing stage world)
    (hstep : workerStep surroundings t world = some later) : Progress world later := by
  obtain ⟨worker, disassembler, state, worker', disassembler', state', -, hdisassembler, -,
    hsound, hadvance, rfl⟩ := h.workerStep_cases hstep
  have hgrows := (hsound.advance hadvance).2.1
  refine ⟨rfl, rfl, rfl, List.length_set .., fun i found hfound => ?_⟩
  by_cases hi : i = t
  · subst hi
    obtain rfl := Option.some.inj (hdisassembler.symm.trans hfound)
    exact ⟨disassembler', ObjectTable.set_self hdisassembler, hgrows⟩
  · exact ⟨found, (List.getElem?_set_ne (Ne.symm hi)).trans hfound, .refl _⟩

/-- A step of a worker keeps the tables standing and changes nothing else. -/
theorem Standing.moves (h : Standing stage world)
    (hstep : workerStep surroundings t world = some later) :
    Standing stage later ∧ Progress world later :=
  ⟨h.standing_step hstep, h.progress_step hstep⟩

/-- Where every worker has finished, nothing moves any more. -/
theorem Standing.still (h : Standing stage world)
    (hfinished : ∀ (t : Nat) (worker : Worker), world.workers[t]? = some worker →
      worker.phase = .finished) :
    workerStep surroundings t world ≠ some later := by
  intro hstep
  obtain ⟨worker, disassembler, state, worker', disassembler', state', hworker, -, -, hsound,
    hadvance, -⟩ := h.workerStep_cases hstep
  exact (hsound.advance hadvance).2.2.2 (hfinished t worker hworker)

/-- The session points to the `DecodeState` of the worker started last. -/
theorem Standing.currentState (h : Standing stage world) (hstates : stage.states = t + 1)
    (hworkers : stage.workers = t + 1) :
    ∃ worker disassembler state, world.workers[t]? = some worker ∧
      world.disassemblers[t]? = some disassembler ∧ world.currentState = some state ∧
      WorkerSound worker disassembler state := by
  have hlt : t < world.workers.length := by
    rw [h.workers_length, hworkers]
    exact Nat.lt_succ_self t
  have hworker := List.getElem?_eq_getElem hlt
  obtain ⟨disassembler, state, hdisassembler, hstate, hsound⟩ := (h.worker t _ hworker).sound
  refine ⟨_, disassembler, state, hworker, hdisassembler, ?_, hsound⟩
  rw [World.currentState, h.decodeState, hstates]
  exact hstate

theorem Standing.sound (h : Standing stage world) {i : Nat} {disassembler : Disassembler}
    (hfound : world.disassemblers[i]? = some disassembler) :
    ∃ stopRequested point, Sound disassembler stopRequested point := by
  rcases Nat.lt_or_ge i stage.workers with hlt | hge
  · rw [← h.workers_length] at hlt
    obtain ⟨found, state, hother, -, hsound⟩ :=
      (h.worker i _ (List.getElem?_eq_getElem hlt)).sound
    obtain rfl := Option.some.inj (hfound.symm.trans hother)
    exact ⟨_, _, hsound.sound⟩
  · obtain ⟨contents, arch, commonSections, entryAddress, rfl⟩ :=
      h.untouched i disassembler hge hfound
    exact ⟨false, .clear, sound_construct contents arch commonSections entryAddress [] false⟩

/-- A worker that has not finished is the one the session's thread runs. -/
theorem Standing.thread_of_unfinished (h : Standing stage world) {worker : Worker}
    (hworker : world.workers[t]? = some worker) (hphase : worker.phase ≠ .finished) :
    stage.thread = some t := by
  by_contra hne
  exact hphase (h.joined t worker hworker hne)

end Workers

section Settled

variable {n : Nat} {world later : World View}

structure Current (world : World View) (worker : Worker) (disassembler : Disassembler)
    (state : DecodeState) : Prop where
  last_worker : world.workers.getLast? = some worker
  current_space : world.currentSpace = some disassembler.contents
  current_disassembler : world.currentDisassembler = some disassembler
  current_state : world.currentState = some state
  sound : WorkerSound worker disassembler state

theorem Standing.current (h : Standing (settled (n + 1)) world) :
    ∃ worker disassembler state, Current world worker disassembler state := by
  obtain ⟨worker, disassembler, state, hworker, hdisassembler, hstate, hsound⟩ :=
    h.currentState rfl rfl
  refine ⟨worker, disassembler, state, ?_, ?_, ?_, hstate, hsound⟩
  · rw [List.getLast?_eq_getElem?, h.workers_length]
    exact hworker
  · rw [World.currentSpace, h.space]
    exact h.contents n disassembler hdisassembler
  · rw [World.currentDisassembler, h.disassembler]
    exact hdisassembler

theorem Current.isDecoding_iff {worker : Worker} {disassembler : Disassembler}
    {state : DecodeState} (h : Current world worker disassembler state) :
    world.isDecoding = true ↔ worker.phase ≠ .finished := by
  rw [World.isDecoding, h.current_state]
  exact h.sound.recorded.running

theorem Current.finished {worker : Worker} {disassembler : Disassembler} {state : DecodeState}
    (h : Current world worker disassembler state) (hdone : world.isDecoding = false) :
    worker.phase = .finished := by
  by_contra hphase
  rw [h.isDecoding_iff.mpr hphase] at hdone
  contradiction

theorem Standing.loaded_iff (h : Standing (settled n) world) : world.loaded = true ↔ n ≠ 0 := by
  rw [World.loaded, h.disassembler]
  cases n <;> simp [settled, latest]

theorem Standing.worker_last (h : Standing (settled (n + 1)) world) {worker : Worker}
    {disassembler : Disassembler} {state : DecodeState}
    (hcurrent : Current world worker disassembler state) :
    world.workers[n]? = some worker ∧ world.disassemblers[n]? = some disassembler := by
  have hworker := hcurrent.last_worker
  have hdisassembler := hcurrent.current_disassembler
  rw [List.getLast?_eq_getElem?, h.workers_length] at hworker
  rw [World.currentDisassembler, h.disassembler] at hdisassembler
  exact ⟨hworker, hdisassembler⟩

theorem Standing.finished_of_not_decoding (h : Standing (settled n) world)
    (hdone : world.isDecoding = false) (t : Nat) (worker : Worker)
    (hworker : world.workers[t]? = some worker) : worker.phase = .finished := by
  by_contra hphase
  obtain rfl := eq_succ_of_latest (h.thread_of_unfinished hworker hphase)
  obtain ⟨last, disassembler, state, hcurrent⟩ := h.current
  obtain rfl := Option.some.inj (hworker.symm.trans (h.worker_last hcurrent).1)
  exact hphase (hcurrent.finished hdone)

/-- Once the session reports the end of the decode, no worker moves. -/
theorem Standing.still_of_not_decoding (h : Standing (settled n) world)
    (hdone : world.isDecoding = false) {label : Option (Statement F)} :
    ¬ workersMove label world later :=
  fun ⟨_, _, hstep⟩ => h.still (h.finished_of_not_decoding hdone) hstep

end Settled

end Voidwalk.SessionStanding

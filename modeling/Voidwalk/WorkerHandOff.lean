import Voidwalk.HeaderParsing
import Voidwalk.OpenStages

/-!
The hand-over from one decode worker to the next. Whatever the order of the UI
thread's and the workers' steps, a session hears of its current sweep only.
-/

namespace Voidwalk.WorkerHandOff

open Voidwalk.Library.InterleavedThread
open Voidwalk.MappedFile
open Voidwalk.Disassembly
open Voidwalk.FileTypeDetection
open Voidwalk.HeaderParsing (nopElf)
open Voidwalk.AnalysisSession
open Voidwalk.SessionStanding
open Voidwalk.OpenStages
open Relation (ReflTransGen)

variable {F View : Type}

/-- The operations of `Session` that write. -/
inductive SessionCall where
  | openBinary (path : String) (loading : Loading)
  | compact

def program (onDecodeStarted : View → View) : SessionCall → Program F View Bool
  | .openBinary path loading => openBinary onDecodeStarted path loading
  | .compact => do
      compact
      pure false

abbrev SessionSystem (F View : Type) :=
  System SessionCall (Statement F) Thrown (World View) Bool

abbrev SessionStep (onDecodeStarted : View → View) :
    SessionSystem F View → SessionSystem F View → Prop :=
  Step workersMove (fun _ _ _ => True) (program onDecodeStarted)

structure CurrentWorker (world : World View) (t : Nat) (worker : Worker) : Prop where
  found : world.workers[t]? = some worker
  generation : worker.generation = world.session.decodeGeneration

/-- Between the new `DecodeState` and the start of its worker. -/
def handingOver : Option (Statement F) → Bool
  | some .bumpGeneration | some .decodeStarted | some .setRunning | some .startWorker => true
  | _ => false

def sweepNote : Point → String
  | .thrown exception => exception.what
  | _ => ""

def sweepThrows : Point → Option Thrown
  | .thrown (.fileChanged what) => some (.fileChanged what)
  | _ => none

/-- What the UI thread may rely on at each of its statements. -/
structure HandOff (label : Option (Statement F)) (world : World View) : Prop where
  /-- No other worker moves, so none writes the session's `DecodeState`. -/
  moves : ∀ surroundings t later, workerStep surroundings t world = some later →
    ∃ worker, CurrentWorker world t worker
  decoding : world.isDecoding = true ↔ label = some .startWorker ∨
    ∃ t worker, CurrentWorker world t worker ∧ worker.phase ≠ .finished
  started : handingOver label = false → world.session.decodeGeneration ≠ 0 →
    ∃ t worker, CurrentWorker world t worker
  reports : world.isDecoding = false → handingOver label = false →
    ∀ t worker, CurrentWorker world t worker →
      world.decodeNote = sweepNote worker.point ∧
        world.fileChangedOutcome = sweepThrows worker.point
  silent : world.isDecoding = false →
    handingOver label = true ∨ world.session.decodeGeneration = 0 →
      world.decodeNote = "" ∧ world.fileChangedOutcome = none

section Stages

variable {stage : Stage} {world : World View} {label : Option (Statement F)}

theorem reports_of_state {worker : Worker} (hdone : world.isDecoding = false)
    (hstate : world.currentState = some (outcome worker)) :
    world.decodeNote = sweepNote worker.point ∧
      world.fileChangedOutcome = sweepThrows worker.point := by
  rw [World.decodeNote, World.fileChangedOutcome, hdone, hstate]
  cases hpoint : worker.point with
  | thrown exception =>
      cases exception <;> simp [outcome, hpoint, sweepNote, sweepThrows, isFileChanged, Thrown.what]
  | _ => simp [outcome, hpoint, sweepNote, sweepThrows]

theorem silent_of_state (hdone : world.isDecoding = false)
    (hstate : ∀ state, world.currentState = some state → state = {}) :
    world.decodeNote = "" ∧ world.fileChangedOutcome = none := by
  rw [World.decodeNote, World.fileChangedOutcome, hdone]
  cases hcurrent : world.currentState with
  | none => exact ⟨rfl, rfl⟩
  | some state =>
      rw [hstate state hcurrent]
      exact ⟨rfl, rfl⟩

theorem currentWorker_iff (h : Standing stage world) {t : Nat} {worker : Worker}
    (hworker : world.workers[t]? = some worker) :
    CurrentWorker world t worker ↔ stage.generation = t + 1 := by
  have hgeneration := (h.worker t worker hworker).generation
  constructor
  · rintro ⟨-, hcurrent⟩
    rw [← h.generation, ← hcurrent, hgeneration]
  · intro hstage
    exact ⟨hworker, by rw [hgeneration, h.generation, hstage]⟩

/-- Only the session's thread moves a worker. -/
theorem currentWorker_of_step (h : Standing stage world)
    (hthread : ∀ t, stage.thread = some t → t + 1 = stage.generation) {surroundings : Surroundings}
    {t : Nat} {later : World View} (hstep : workerStep surroundings t world = some later) :
    ∃ worker, CurrentWorker world t worker := by
  obtain ⟨worker, disassembler, state, worker', disassembler', state', hworker, -, -, hsound,
    hadvance, -⟩ := h.workerStep_cases hstep
  have hunfinished := (hsound.advance hadvance).2.2.2
  have ht := hthread t (h.thread_of_unfinished hworker hunfinished)
  exact ⟨worker, (currentWorker_iff h hworker).mpr ht.symm⟩

theorem ne_startWorker (hlabel : handingOver label = false) : label ≠ some .startWorker := by
  rintro rfl
  contradiction

/-- Nothing has been opened yet. -/
theorem handOff_of_zero (h : Standing stage world) (hgeneration : stage.generation = 0)
    (hstates : stage.states = 0)
    (hthread : ∀ t, stage.thread = some t → t + 1 = stage.generation)
    (hlabel : handingOver label = false) : HandOff label world := by
  have hstate : world.currentState = none := by
    rw [World.currentState, h.decodeState, hstates]
    rfl
  have hdone : world.isDecoding = false := by
    rw [World.isDecoding, hstate]
    rfl
  have hnone : ∀ t worker, ¬ CurrentWorker world t worker := by
    intro t worker hcurrent
    have := (currentWorker_iff h hcurrent.found).mp hcurrent
    omega
  refine ⟨fun surroundings t later => currentWorker_of_step h hthread, ?_, ?_,
    fun _ _ t worker hcurrent => absurd hcurrent (hnone t worker), ?_⟩
  · simp [hdone, ne_startWorker hlabel, hnone]
  · exact fun _ hne => absurd (h.generation.trans hgeneration) hne
  · exact fun _ _ => silent_of_state hdone fun state hsome => by simp [hstate] at hsome

/-- The worker of the last generation has been started. -/
theorem handOff_of_succ (h : Standing stage world) {n : Nat} (hgeneration : stage.generation = n + 1)
    (hstates : stage.states = n + 1) (hworkers : stage.workers = n + 1)
    (hthread : ∀ t, stage.thread = some t → t + 1 = stage.generation)
    (hlabel : handingOver label = false) : HandOff label world := by
  obtain ⟨worker, disassembler, state, hworker, -, hstate, hsound⟩ :=
    h.currentState hstates hworkers
  have hcurrent := (currentWorker_iff h hworker).mpr hgeneration
  have honly : ∀ t other, CurrentWorker world t other → t = n ∧ other = worker := by
    intro t other hother
    have ht := (currentWorker_iff h hother.found).mp hother
    obtain rfl : t = n := by omega
    exact ⟨rfl, Option.some.inj (hother.found.symm.trans hworker)⟩
  have hrunning : world.isDecoding = true ↔ worker.phase ≠ .finished := by
    rw [World.isDecoding, hstate]
    exact hsound.recorded.running
  refine ⟨fun surroundings t later => currentWorker_of_step h hthread, ?_,
    fun _ _ => ⟨n, worker, hcurrent⟩, ?_, ?_⟩
  · rw [hrunning]
    constructor
    · exact fun hphase => Or.inr ⟨n, worker, hcurrent, hphase⟩
    · rintro (hstart | ⟨t, other, hother, hphase⟩)
      · exact absurd hstart (ne_startWorker hlabel)
      · rwa [← (honly t other hother).2]
  · intro hdone _ t other hother
    obtain ⟨rfl, rfl⟩ := honly t other hother
    have hfinished : other.phase = .finished := by
      by_contra hphase
      rw [hrunning.mpr hphase] at hdone
      contradiction
    have hrecorded := hsound.recorded
    rw [Recorded, hfinished] at hrecorded
    exact reports_of_state hdone (hrecorded.2 ▸ hstate)
  · rintro - (hover | hzero)
    · rw [hlabel] at hover
      contradiction
    · rw [h.generation, hgeneration] at hzero
      contradiction

/-- As many states as workers: the hand-over has not begun, or is complete. -/
theorem handOff_of_level (h : Standing stage world) {n : Nat} (hgeneration : stage.generation = n)
    (hstates : stage.states = n) (hworkers : stage.workers = n)
    (hthread : ∀ t, stage.thread = some t → t + 1 = n) (hlabel : handingOver label = false) :
    HandOff label world := by
  rw [← hgeneration] at hthread
  cases n with
  | zero => exact handOff_of_zero h hgeneration hstates hthread hlabel
  | succ n => exact handOff_of_succ h hgeneration hstates hworkers hthread hlabel

/-- Between the new `DecodeState` and its worker all older workers have finished. -/
theorem handOff_of_handing (h : Standing stage world) {n : Nat} (hstates : stage.states = n + 1)
    (hworkers : stage.workers = n) (hthread : stage.thread = none)
    (hlabel : handingOver label = true)
    (hstart : stage.started = true ↔ label = some .startWorker) : HandOff label world := by
  have hfinished : ∀ (t : Nat) (worker : Worker), world.workers[t]? = some worker →
      worker.phase = .finished :=
    fun t worker hworker => h.joined t worker hworker (by simp [hthread])
  have hlast : n < world.decodeStates.length := by
    rw [h.decodeStates_length, hstates]
    exact Nat.lt_succ_self n
  have hstate : world.currentState = some { running := stage.started } := by
    have hfound := List.getElem?_eq_getElem hlast
    rw [World.currentState, h.decodeState, hstates]
    refine hfound.trans (congrArg some ?_)
    exact h.unstarted n _ hworkers.le hfound
  have hrunning : world.isDecoding = stage.started := by
    rw [World.isDecoding, hstate]
    rfl
  refine ⟨fun surroundings t later hstep => absurd hstep (h.still hfinished), ?_, ?_, ?_, ?_⟩
  · rw [hrunning, hstart]
    constructor
    · exact Or.inl
    · rintro (hlabel | ⟨t, worker, hcurrent, hphase⟩)
      · exact hlabel
      · exact absurd (hfinished t worker hcurrent.found) hphase
  · exact fun hnot => by simp [hlabel] at hnot
  · exact fun _ hnot => by simp [hlabel] at hnot
  · intro hdone _
    refine silent_of_state hdone fun state hsome => ?_
    rw [hstate] at hsome
    rw [← Option.some.inj hsome, ← hrunning, hdone]

theorem handOff_of_stageAt {n : Nat} {statement : Statement F} (h : Standing stage world)
    (hstage : StageAt n statement stage) : HandOff (some statement) world := by
  have hlatest : ∀ m t : Nat, latest m = some t → t + 1 = m :=
    fun _ _ ht => (eq_succ_of_latest ht).symm
  cases hstage with
  | testLoaded | requestStop | join => exact handOff_of_level h rfl rfl rfl (hlatest n) rfl
  | replaceState => exact handOff_of_level h rfl rfl rfl nofun rfl
  | setStatus => exact handOff_of_level h rfl rfl rfl (hlatest (n + 1)) rfl
  | bumpGeneration | decodeStarted | setRunning | startWorker =>
      exact handOff_of_handing h rfl rfl rfl rfl
        (by simp [replaced, bumped, started, joined, handing, settled])

end Stages

section Runs

variable {onDecodeStarted : View → View}

def behindBump : Statement F → Bool
  | .decodeStarted | .setRunning | .startWorker | .setStatus => true
  | _ => false

/-- Each call finds one generation for each successful open, and an open under way may
have added its own. -/
def Generation (history : List (SessionCall × Except Thrown Bool)) (call : SessionCall)
    (label : Statement F) (world : World View) : Prop :=
  world.session.decodeGeneration = opens history ∨
    world.session.decodeGeneration = opens history + 1 ∧ behindBump label = true ∧
      ∃ path loading, call = .openBinary path loading

theorem handOff_of_settled {n : Nat} {world : World View} (h : Standing (settled n) world)
    {label : Option (Statement F)} (hlabel : handingOver label = false) : HandOff label world :=
  handOff_of_level h rfl rfl rfl (fun _ ht => (eq_succ_of_latest ht).symm) hlabel

theorem generation_of_stageAt {n : Nat} {stage : Stage} {label : Statement F}
    (hstage : StageAt n label stage) :
    stage.generation = n ∨ stage.generation = n + 1 ∧ behindBump label = true := by
  cases hstage with
  | testLoaded | requestStop | join | replaceState | bumpGeneration => exact Or.inl rfl
  | decodeStarted | setRunning | startWorker | setStatus => exact Or.inr ⟨rfl, rfl⟩

theorem safe_call {history : List (SessionCall × Except Thrown Bool)} {world : World View}
    (h : Standing (settled (opens history)) world) (call : SessionCall) :
    Safe workersMove
      (fun label later => HandOff (some label) later ∧ Generation history call label later)
      (fun result later => Standing (settled (opens ((call, result) :: history))) later)
      (program (F := F) onDecodeStarted call) world := by
  cases call with
  | openBinary path loading =>
      refine (safe_openBinary h onDecodeStarted path loading).mono ?_ ?_
      · intro label later hmid
        cases hmid with
        | before hlabel hsince =>
            refine ⟨handOff_of_settled hsince.standing ?_, Or.inl hsince.standing.generation⟩
            rcases hlabel with rfl | rfl <;> rfl
        | adopting hload hformat hstage hview hadopting =>
            have hgeneration := hadopting.standing.generation
            refine ⟨handOff_of_stageAt hadopting.standing hstage, ?_⟩
            rcases generation_of_stageAt hstage with hbefore | ⟨hbehind, hlabel⟩
            · exact Or.inl (hgeneration.trans hbefore)
            · exact Or.inr ⟨hgeneration.trans hbehind, hlabel, path, loading, rfl⟩
      · intro result later hend
        cases hend with
        | failed hload hsince =>
            rw [opens_failed]
            exact Standing.setStatus hsince.standing _
        | thrown hsince =>
            rw [opens_thrown]
            exact hsince.standing
        | opened hload hformat hadopting =>
            rw [opens_opened]
            exact Standing.setStatus hadopting.standing _
  | compact =>
      refine .bind (safe_compact (fun _ _ _ => id) (Standing (settled (opens history))) h
        (fun s hs => ⟨_, hs⟩) ?_ ?_ ?_ fun s hs => ?_)
      · rintro label s t hs ⟨surroundings, i, hstep⟩
        exact (hs.moves hstep).1
      · exact fun s hs hdone => (Standing.compactDisassembler hs hdone).1
      · intro label s hlabel hs
        refine ⟨handOff_of_settled hs ?_, Or.inl hs.generation⟩
        simp only [List.mem_cons, List.not_mem_nil, or_false] at hlabel
        rcases hlabel with rfl | rfl | rfl <;> rfl
      · change Standing _ s
        rwa [opens_failed]

/-- The session hears of the current sweep only, and its generation counts the
successful opens. -/
theorem worker_handOff (onDecodeStarted : View → View) (view : View)
    {system : SessionSystem F View}
    (hrun : ReflTransGen (SessionStep onDecodeStarted) (.start { view := view }) system) :
    HandOff system.label system.state ∧
    (system.label = none → system.state.session.decodeGeneration = opens system.past) ∧
    ∀ label, system.label = some label → ∃ call thread, system.active = some (call, thread) ∧
      Generation system.history call label system.state := by
  have hholds : Holds workersMove
      (fun history call label later =>
        HandOff (some label) later ∧ Generation history call label later)
      (fun history later => Standing (settled (opens history)) later) system := by
    refine Holds.run (holds_start (standing_start view)) ?_
      (fun history s call hs _ => safe_call hs call) hrun
    rintro history s t hs ⟨surroundings, i, hstep⟩
    exact (hs.moves hstep).1
  cases hlabel : system.label with
  | none =>
      have hstanding := hholds.idle hlabel
      exact ⟨handOff_of_settled hstanding rfl, fun _ => hstanding.generation, nofun⟩
  | some label =>
      obtain ⟨call, thread, hactive, hhandOff, hgeneration⟩ := hholds.underWay hlabel
      refine ⟨hhandOff, nofun, fun other hother => ?_⟩
      obtain rfl := Option.some.inj hother
      exact ⟨call, thread, hactive, hgeneration⟩

end Runs

/-- Opens the file and opens it again while the first worker is still decoding. -/
def reopening : List (Turn (Surroundings × Nat) SessionCall) :=
  [.call (.openBinary "nop" nopElf)] ++ List.replicate 10 .statement ++
    List.replicate 5 (.environment ({}, 0)) ++
    [.call (.openBinary "nop" nopElf), .statement, .statement, .statement] ++
    List.replicate 3 (.environment ({}, 0)) ++ List.replicate 7 .statement

def reopened : Option (SessionSystem Empty Unit) :=
  (System.start { view := () }).play
    (fun (move : Surroundings × Nat) _ world => workerStep move.1 move.2 world)
    (fun _ _ _ => true) (program id) reopening

theorem worker_handOff_reopened :
    ∃ system, reopened = some system ∧ system.state.session.decodeGeneration = 2 ∧
      ∃ t worker, CurrentWorker system.state t worker ∧ worker.phase ≠ .finished := by
  have hseen : reopened.map (fun system =>
      (system.label, opens system.past, system.state.isDecoding)) = some (none, 2, true) := by
    decide +kernel
  obtain ⟨system, hplayed, hsystem⟩ := Option.map_eq_some_iff.mp hseen
  simp only [Prod.mk.injEq] at hsystem
  obtain ⟨hlabel, hopens, hdecoding⟩ := hsystem
  have hrun : ReflTransGen (SessionStep id) (.start { view := () }) system :=
    run_of_play (fun move _ _ _ hmove => ⟨move.1, move.2, hmove⟩) (fun _ _ _ _ => trivial) hplayed
  obtain ⟨hhandOff, hgeneration, -⟩ := worker_handOff id () hrun
  refine ⟨system, hplayed, (hgeneration hlabel).trans hopens, ?_⟩
  refine (hhandOff.decoding.mp hdecoding).resolve_left ?_
  rw [hlabel]
  nofun

end Voidwalk.WorkerHandOff

import Voidwalk.SessionStanding

/-!
`Session::open` and `compact` statement by statement: the stage each statement of the
hand-over finds the tables at, and the one it leaves.
-/

namespace Voidwalk.OpenStages

open Voidwalk.Library
open Voidwalk.Library.InterleavedThread
open Voidwalk.MappedFile
open Voidwalk.Disassembly
open Voidwalk.SweepRefinement
open Voidwalk.FileTypeDetection
open Voidwalk.AnalysisSession
open Voidwalk.SessionStanding

variable {F View : Type}

section Stages

variable (n : Nat)

/-- The `n + 1`st binary is installed; its predecessor's worker may still run. -/
def handing : Stage := { settled n with binaries := n + 1 }

def joined : Stage := { handing n with thread := none }

def replaced : Stage := { joined n with states := n + 1 }

def bumped : Stage := { replaced n with generation := n + 1 }

def started : Stage := { bumped n with started := true }

end Stages

section Effects

variable {n : Nat} {stage : Stage} {world : World View}

theorem Standing.of_session (h : Standing stage world) {session : Session} {view : View}
    (hspace : session.space = world.session.space)
    (hdisassembler : session.disassembler = world.session.disassembler)
    (hstate : session.decodeState = world.session.decodeState)
    (hgeneration : session.decodeGeneration = world.session.decodeGeneration)
    (hthread : session.decodeThread = world.session.decodeThread) :
    Standing stage { world with session := session, view := view } :=
  ⟨h.spaces_length, h.disassemblers_length, h.decodeStates_length, h.workers_length,
    hgeneration.trans h.generation, hspace.trans h.space, hdisassembler.trans h.disassembler,
    hstate.trans h.decodeState, hthread.trans h.thread, h.contents, h.worker, h.joined,
    h.untouched, h.unstarted⟩

theorem Standing.setStatus (h : Standing stage world) (status : String) :
    Standing stage (world.setStatus status) :=
  Standing.of_session h rfl rfl rfl rfl rfl

theorem Standing.mapView (h : Standing stage world) (change : View → View) :
    Standing stage (world.mapView change) :=
  Standing.of_session h rfl rfl rfl rfl rfl

theorem Standing.install (h : Standing (settled n) world) {disassembler : Disassembler}
    (huntouched : Untouched disassembler) (path format : String) :
    Standing (handing n) (world.install disassembler.contents disassembler path format) := by
  constructor
  · exact (List.length_append ..).trans (congrArg (· + 1) h.spaces_length)
  · exact (List.length_append ..).trans (congrArg (· + 1) h.disassemblers_length)
  · exact h.decodeStates_length
  · exact h.workers_length
  · exact h.generation
  · exact congrArg some h.spaces_length
  · exact congrArg some h.disassemblers_length
  · exact h.decodeState
  · exact h.thread
  · intro i found hfound
    rcases ObjectTable.append_cases hfound with ⟨rfl, rfl⟩ | hfound
    · have hlength := h.disassemblers_length.trans h.spaces_length.symm
      rw [hlength]
      exact List.getElem?_concat_length ..
    · exact ObjectTable.append_of_some (h.contents i found hfound)
  · intro t worker hworker
    obtain ⟨h₁, h₂, h₃, h₄, found, state, hfound, hstate, hsound⟩ := h.worker t worker hworker
    exact ⟨h₁, h₂, h₃, h₄, found, state, ObjectTable.append_of_some hfound, hstate, hsound⟩
  · exact h.joined
  · intro i found hi hfound
    rcases ObjectTable.append_cases hfound with ⟨-, rfl⟩ | hfound
    · exact huntouched
    · exact h.untouched i found hi hfound
  · exact h.unstarted

theorem WorkerSound.requestStop {worker : Worker} {disassembler : Disassembler}
    {state : DecodeState} (h : WorkerSound worker disassembler state) :
    WorkerSound { worker with stopRequested := true } disassembler state := by
  let sweep : Sweep := ⟨disassembler, worker.point, worker.stopRequested⟩
  have hsweep : Sound sweep.disassembler sweep.stopRequested sweep.point := h.sound
  exact ⟨(sound_sweepStep hsweep .requestStop).1, h.recorded⟩

theorem Standing.requestStop (h : Standing stage world) : Standing stage world.requestStop := by
  rw [World.requestStop]
  cases hthread : world.session.decodeThread with
  | none => exact h
  | some t =>
      refine ⟨h.spaces_length, h.disassemblers_length, h.decodeStates_length,
        (List.length_modify ..).trans h.workers_length, h.generation, h.space, h.disassembler,
        h.decodeState, h.thread, h.contents, ?_, ?_, h.untouched, h.unstarted⟩
      · intro i worker hworker
        rcases ObjectTable.modify_cases hworker with ⟨rfl, old, hold, rfl⟩ | ⟨-, hworker⟩
        · obtain ⟨h₁, h₂, h₃, h₄, found, state, hfound, hstate, hsound⟩ := h.worker i old hold
          exact ⟨h₁, h₂, h₃, h₄, found, state, hfound, hstate, WorkerSound.requestStop hsound⟩
        · exact h.worker i worker hworker
      · intro i worker hworker hne
        rcases ObjectTable.modify_cases hworker with ⟨rfl, old, hold, rfl⟩ | ⟨-, hworker⟩
        · exact h.joined i old hold hne
        · exact h.joined i worker hworker hne

theorem Standing.detach (h : Standing (handing n) world) (hjoinable : world.joinable = true) :
    Standing (joined n) world.detach := by
  refine ⟨h.spaces_length, h.disassemblers_length, h.decodeStates_length, h.workers_length,
    h.generation, h.space, h.disassembler, h.decodeState, rfl, h.contents, h.worker, ?_,
    h.untouched, h.unstarted⟩
  intro t worker hworker _
  by_cases hthread : (handing n).thread = some t
  · rw [World.joinable, h.thread, hthread, Option.all_some] at hjoinable
    have hworker : world.workers[t]? = some worker := hworker
    rw [hworker] at hjoinable
    simpa using hjoinable
  · exact h.joined t worker hworker hthread

theorem Standing.replaceState (h : Standing (joined n) world) :
    Standing (replaced n) world.replaceState := by
  refine ⟨h.spaces_length, h.disassemblers_length,
    (List.length_append ..).trans (congrArg (· + 1) h.decodeStates_length), h.workers_length,
    h.generation, h.space, h.disassembler, congrArg some h.decodeStates_length, h.thread,
    h.contents, ?_, h.joined, h.untouched, ?_⟩
  · intro t worker hworker
    obtain ⟨h₁, h₂, h₃, h₄, found, state, hfound, hstate, hsound⟩ := h.worker t worker hworker
    exact ⟨h₁, h₂, h₃, h₄, found, state, hfound, ObjectTable.append_of_some hstate, hsound⟩
  · intro i state hi hstate
    rcases ObjectTable.append_cases hstate with ⟨-, rfl⟩ | hstate
    · rfl
    · exact h.unstarted i state hi hstate

theorem Standing.bumpGeneration (h : Standing (replaced n) world) :
    Standing (bumped n) world.bumpGeneration :=
  ⟨h.spaces_length, h.disassemblers_length, h.decodeStates_length, h.workers_length,
    congrArg (· + 1) h.generation, h.space, h.disassembler, h.decodeState, h.thread, h.contents,
    h.worker, h.joined, h.untouched, h.unstarted⟩

theorem Standing.setRunning (h : Standing (bumped n) world) :
    Standing (started n) world.setRunning := by
  have hstate : world.session.decodeState = some n := h.decodeState
  rw [World.setRunning, hstate]
  refine ⟨h.spaces_length, h.disassemblers_length,
    (List.length_modify ..).trans h.decodeStates_length, h.workers_length, h.generation, h.space,
    h.disassembler, hstate.symm ▸ rfl, h.thread, h.contents, ?_, h.joined, h.untouched, ?_⟩
  · intro t worker hworker
    obtain ⟨h₁, h₂, h₃, h₄, found, state, hfound, hstate, hsound⟩ := h.worker t worker hworker
    refine ⟨h₁, h₂, h₃, h₄, found, state, hfound, ?_, hsound⟩
    have hlength : world.workers.length = n := h.workers_length
    have hold : t < n := hlength ▸ (List.getElem?_eq_some_iff.mp hworker).1
    exact (List.getElem?_modify_ne _ _ (Nat.ne_of_gt hold)).trans hstate
  · intro i state hi hfound
    rcases ObjectTable.modify_cases hfound with ⟨rfl, old, hold, rfl⟩ | ⟨hne, hfound⟩
    · rw [h.unstarted i old hi hold]
      rfl
    · have hlt := (List.getElem?_eq_some_iff.mp hfound).1
      rw [h.decodeStates_length] at hlt
      exact absurd (Nat.lt_succ_iff.mp hlt) (Nat.not_le.mpr (Nat.lt_of_le_of_ne hi hne.symm))

theorem Standing.startWorker (h : Standing (started n) world) :
    Standing (settled (n + 1)) world.startWorker := by
  have hspace : world.session.space = some n := h.space
  have hdisassembler : world.session.disassembler = some n := h.disassembler
  have hstate : world.session.decodeState = some n := h.decodeState
  have hlast : n < world.disassemblers.length := by
    rw [h.disassemblers_length]
    exact Nat.lt_succ_self n
  have hlastState : n < world.decodeStates.length := by
    rw [h.decodeStates_length]
    exact Nat.lt_succ_self n
  rw [World.startWorker, hspace, hdisassembler, hstate]
  refine ⟨h.spaces_length, h.disassemblers_length, h.decodeStates_length,
    (List.length_append ..).trans (congrArg (· + 1) h.workers_length), h.generation,
    hspace.symm ▸ rfl, hdisassembler.symm ▸ rfl, hstate.symm ▸ rfl, congrArg some h.workers_length,
    h.contents, ?_, ?_, ?_, ?_⟩
  · intro t worker hworker
    rcases ObjectTable.append_cases hworker with ⟨rfl, rfl⟩ | hworker
    · have hfound := List.getElem?_eq_getElem hlast
      have hfoundState := List.getElem?_eq_getElem hlastState
      have hfresh := h.unstarted n _ (Nat.le_refl n) hfoundState
      obtain ⟨contents, arch, commonSections, entryAddress, hnew⟩ :=
        h.untouched n _ (Nat.le_refl n) hfound
      rw [h.workers_length]
      refine ⟨rfl, rfl, rfl, h.generation, _, _, hfound, hfoundState, ?_, hfresh⟩
      rw [hnew]
      exact sound_construct contents arch commonSections entryAddress [] false
    · exact h.worker t worker hworker
  · intro t worker hworker hne
    rcases ObjectTable.append_cases hworker with ⟨rfl, -⟩ | hworker
    · rw [h.workers_length] at hne
      exact absurd rfl hne
    · exact h.joined t worker hworker nofun
  · exact fun i found hi hfound => h.untouched i found (Nat.le_of_succ_le hi) hfound
  · intro i state hi hfound
    have hlt := (List.getElem?_eq_some_iff.mp hfound).1
    rw [h.decodeStates_length] at hlt
    exact absurd hlt (Nat.not_lt.mpr hi)

end Effects

section Compaction

variable {n : Nat} {world : World View}

theorem grows_compact (disassembler : Disassembler) : Grows disassembler disassembler.compact :=
  ⟨rfl, rfl, rfl, rfl, Nat.le_refl _, Nat.le_refl _, Nat.le_refl _⟩

theorem sound_compact {disassembler : Disassembler} {stopRequested : Bool} {point : Point}
    (h : Sound disassembler stopRequested point)
    (hended : point = .returned ∨ ∃ exception, point = .thrown exception) :
    Sound disassembler.compact stopRequested point := by
  refine ⟨h.instructions, h.addresses, ?_⟩
  have hreached := h.reached
  rcases hended with rfl | ⟨exception, rfl⟩
  · exact ⟨⟨hreached.1.addresses, hreached.1.ready, hreached.1.emitted⟩, hreached.2⟩
  · exact ⟨⟨hreached.1.addresses, hreached.1.ready, hreached.1.emitted⟩, hreached.2⟩

theorem Standing.compactDisassembler (h : Standing (settled n) world)
    (hdone : world.isDecoding = false) :
    Standing (settled n) world.compactDisassembler ∧ Progress world world.compactDisassembler := by
  cases n with
  | zero =>
      have hnone : world.session.disassembler = none := h.disassembler
      rw [World.compactDisassembler, hnone]
      exact ⟨h, .refl world⟩
  | succ n =>
      obtain ⟨last, disassembler, state, hcurrent⟩ := h.current
      have hrecorded := hcurrent.sound.recorded
      rw [Recorded, hcurrent.finished hdone] at hrecorded
      obtain ⟨hlast, hfound⟩ := h.worker_last hcurrent
      have hpointer : world.session.disassembler = some n := h.disassembler
      rw [World.compactDisassembler, hpointer]
      constructor
      · refine ⟨h.spaces_length, (List.length_modify ..).trans h.disassemblers_length,
          h.decodeStates_length, h.workers_length, h.generation, h.space, hpointer.symm ▸ rfl,
          h.decodeState, h.thread, ?_, ?_, h.joined, ?_, h.unstarted⟩
        · intro i found hget
          rcases ObjectTable.modify_cases hget with ⟨rfl, old, hold, rfl⟩ | ⟨-, hget⟩
          · exact h.contents i old hold
          · exact h.contents i found hget
        · intro t worker hworker
          obtain ⟨h₁, h₂, h₃, h₄, found, found', hget, hstate, hsound⟩ := h.worker t worker hworker
          by_cases ht : t = n
          · subst ht
            obtain rfl := Option.some.inj (hlast.symm.trans hworker)
            exact ⟨h₁, h₂, h₃, h₄, found.compact, found', ObjectTable.modify_self hget, hstate,
              sound_compact hsound.sound hrecorded.1, hsound.recorded⟩
          · exact ⟨h₁, h₂, h₃, h₄, found, found',
              (List.getElem?_modify_ne _ _ (Ne.symm ht)).trans hget, hstate, hsound⟩
        · intro i found hi hget
          rcases ObjectTable.modify_cases hget with ⟨rfl, -⟩ | ⟨-, hget⟩
          · exact absurd hi (Nat.not_succ_le_self _)
          · exact h.untouched i found hi hget
      · refine ⟨rfl, rfl, rfl, List.length_modify .., fun i found hget => ?_⟩
        by_cases hi : i = n
        · subst hi
          exact ⟨found.compact, ObjectTable.modify_self hget, grows_compact found⟩
        · exact ⟨found, (List.getElem?_modify_ne _ _ (Ne.symm hi)).trans hget, .refl _⟩

/-- `compact()` under an assertion that holds of settled tables and that the workers
and the compaction keep. -/
theorem safe_compact {environment : Option (Statement F) → World View → World View → Prop}
    (henvironment : ∀ label s t, environment label s t → workersMove label s t)
    {A : Statement F → World View → Prop} {Q : Except Thrown Unit → World View → Prop}
    (I : World View → Prop) (h : I world) (hsettled : ∀ s, I s → ∃ n, Standing (settled n) s)
    (hstable : ∀ label s t, I s → environment label s t → I t)
    (hcompact : ∀ s, I s → s.isDecoding = false → I s.compactDisassembler)
    (hA : ∀ label s, label ∈ [.testLoaded, .testDecoding, .compact] → I s → A label s)
    (hQ : ∀ s, I s → Q (.ok ()) s) : Safe environment A Q compact world := by
  refine .bind (.read I h (hstable _) (hA _ · (by simp)) fun s hs => ?_)
  dsimp only
  split_ifs
  · refine .bind (.read I hs (hstable _) (hA _ · (by simp)) fun s hs => ?_)
    dsimp only
    split_ifs with hdecoding
    · exact hQ s hs
    · -- Nothing moves between the test and the compaction.
      have hdone : s.isDecoding = false := by simpa using hdecoding
      refine .update_of_still (fun later hmoved => ?_) (hA _ s (by simp) hs)
        (hQ _ (hcompact s hs hdone))
      obtain ⟨n, hstanding⟩ := hsettled s hs
      exact hstanding.still_of_not_decoding hdone (henvironment _ s later hmoved)
  · exact hQ s hs

theorem safe_throwIfFileChanged
    {environment : Option (Statement F) → World View → World View → Prop}
    {A : Statement F → World View → Prop} {Q : Except Thrown Unit → World View → Prop}
    (I : World View → Prop) (h : I world)
    (hstable : ∀ label s t, I s → environment label s t → I t)
    (hA : ∀ label s, label ∈ [.testDecoding, .readState] → I s → A label s)
    (hok : ∀ s, I s → Q (.ok ()) s) (herror : ∀ exception s, I s → Q (.error exception) s) :
    Safe environment A Q throwIfFileChanged world := by
  refine .bind (.read I h (hstable _) (hA _ · (by simp)) fun s hs => ?_)
  dsimp only
  split_ifs
  · exact hok s hs
  · refine .update I hs (hstable _) (hA _ · (by simp)) fun s hs => ?_
    cases s.currentState with
    | none => exact hok s hs
    | some state =>
        dsimp only
        split_ifs
        · exact herror _ s hs
        · exact hok s hs

end Compaction

/-- What no statement of the hand-over touches. -/
structure Kept (world later : World View) : Prop where
  spaces : later.spaces = world.spaces
  disassemblers : later.disassemblers = world.disassemblers
  filePath : later.session.filePath = world.session.filePath
  format : later.session.format = world.session.format
  status : later.session.status = world.session.status

theorem kept_requestStop (world : World View) : Kept world world.requestStop := by
  rw [World.requestStop]
  split <;> exact ⟨rfl, rfl, rfl, rfl, rfl⟩

theorem kept_setRunning (world : World View) : Kept world world.setRunning := by
  rw [World.setRunning]
  split <;> exact ⟨rfl, rfl, rfl, rfl, rfl⟩

theorem kept_startWorker (world : World View) : Kept world world.startWorker := by
  rw [World.startWorker]
  split <;> exact ⟨rfl, rfl, rfl, rfl, rfl⟩

theorem view_requestStop (world : World View) : world.requestStop.view = world.view := by
  rw [World.requestStop]
  split <;> rfl

theorem view_setRunning (world : World View) : world.setRunning.view = world.view := by
  rw [World.setRunning]
  split <;> rfl

theorem view_startWorker (world : World View) : world.startWorker.view = world.view := by
  rw [World.startWorker]
  split <;> rfl

/-- The world behind the installation of a binary on top of `start`. -/
structure Adopting (start : World View) (disassembler : Disassembler) (path format : String)
    (view : View) (stage : Stage) (world : World View) : Prop where
  standing : Standing stage world
  spaces : world.spaces = start.spaces ++ [disassembler.contents]
  grows : ∀ (i : Nat) (found : Disassembler),
    (start.disassemblers ++ [disassembler])[i]? = some found →
    ∃ later, world.disassemblers[i]? = some later ∧ Grows found later
  filePath : world.session.filePath = path
  format : world.session.format = format
  status : world.session.status = start.session.status
  view : world.view = view

/-- The stage each statement finds, from the installation on. -/
inductive StageAt (n : Nat) : Statement F → Stage → Prop where
  | testLoaded : StageAt n .testLoaded (handing n)
  | requestStop : StageAt n .requestStop (handing n)
  | join : StageAt n .join (handing n)
  | replaceState : StageAt n .replaceState (joined n)
  | bumpGeneration : StageAt n .bumpGeneration (replaced n)
  | decodeStarted : StageAt n .decodeStarted (bumped n)
  | setRunning : StageAt n .setRunning (bumped n)
  | startWorker : StageAt n .startWorker (started n)
  | setStatus : StageAt n .setStatus (settled (n + 1))

section Adoption

variable {n : Nat} {start world later : World View} {disassembler : Disassembler}
  {path format : String} {view : View} {stage : Stage} {onDecodeStarted : View → View}

theorem Adopting.moves (h : Adopting start disassembler path format view stage world)
    {label : Option (Statement F)} (hmoved : workersMove label world later) :
    Adopting start disassembler path format view stage later := by
  obtain ⟨surroundings, t, hstep⟩ := hmoved
  obtain ⟨hstanding, hprogress⟩ := h.standing.moves hstep
  refine ⟨hstanding, hprogress.spaces.trans h.spaces, fun i found hfound => ?_,
    hprogress.session ▸ h.filePath, hprogress.session ▸ h.format, hprogress.session ▸ h.status,
    hprogress.view.trans h.view⟩
  obtain ⟨first, hfirst, hgrows⟩ := h.grows i found hfound
  obtain ⟨second, hsecond, hgrows'⟩ := hprogress.grows i first hfirst
  exact ⟨second, hsecond, hgrows.trans hgrows'⟩

theorem Adopting.next (h : Adopting start disassembler path format view stage world)
    {stage' : Stage} {view' : View} (hstanding : Standing stage' later) (hkept : Kept world later)
    (hview : later.view = view') :
    Adopting start disassembler path format view' stage' later :=
  ⟨hstanding, hkept.spaces.trans h.spaces, hkept.disassemblers.symm ▸ h.grows,
    hkept.filePath.trans h.filePath, hkept.format.trans h.format, hkept.status.trans h.status,
    hview⟩

theorem safe_runDecode {A : Statement F → World View → Prop}
    {Q : Except Thrown Unit → World View → Prop}
    (h : Adopting start disassembler path format start.view (handing n) world)
    (hA : ∀ label view stage later, StageAt n label stage →
      view = start.view ∨ view = onDecodeStarted start.view →
      Adopting start disassembler path format view stage later → A label later)
    (hQ : ∀ later, Adopting start disassembler path format (onDecodeStarted start.view)
      (settled (n + 1)) later → Q (.ok ()) later) :
    Safe workersMove A Q (runDecode onDecodeStarted) world := by
  have hmoves : ∀ {label : Option (Statement F)} view stage s t,
      Adopting start disassembler path format view stage s → workersMove label s t →
        Adopting start disassembler path format view stage t :=
    fun _ _ _ _ hs => hs.moves
  have hbefore := fun {label : Statement F} {stage} (hstage : StageAt n label stage) later =>
    hA label start.view stage later hstage (Or.inl rfl)
  have hbehind := fun {label : Statement F} {stage} (hstage : StageAt n label stage) later =>
    hA label (onDecodeStarted start.view) stage later hstage (Or.inr rfl)
  refine .bind (.read _ h (hmoves _ _) (hbefore .testLoaded) fun s hs => ?_)
  have hloaded : s.loaded = true := by
    rw [World.loaded, hs.standing.disassembler]
    rfl
  simp only [hloaded, if_true]
  refine .bind (.perform _ hs (hmoves _ _) (hbefore .requestStop) fun s hs => ?_)
  have hs := hs.next (Standing.requestStop hs.standing) (kept_requestStop s)
    ((view_requestStop s).trans hs.view)
  refine .bind (.await _ hs (hmoves _ _) (hbefore .join) fun s hs hjoinable => ?_)
  have hs := hs.next (Standing.detach hs.standing hjoinable) ⟨rfl, rfl, rfl, rfl, rfl⟩ hs.view
  refine .bind (.perform _ hs (hmoves _ _) (hbefore .replaceState) fun s hs => ?_)
  have hs := hs.next (Standing.replaceState hs.standing) ⟨rfl, rfl, rfl, rfl, rfl⟩ hs.view
  refine .bind (.perform _ hs (hmoves _ _) (hbefore .bumpGeneration) fun s hs => ?_)
  have hs := hs.next (Standing.bumpGeneration hs.standing) ⟨rfl, rfl, rfl, rfl, rfl⟩ hs.view
  refine .bind (.perform _ hs (hmoves _ _) (hbefore .decodeStarted) fun s hs => ?_)
  have hs := hs.next (Standing.mapView hs.standing onDecodeStarted) ⟨rfl, rfl, rfl, rfl, rfl⟩
    (congrArg onDecodeStarted hs.view)
  refine .bind (.perform _ hs (hmoves _ _) (hbehind .setRunning) fun s hs => ?_)
  have hs := hs.next (Standing.setRunning hs.standing) (kept_setRunning s)
    ((view_setRunning s).trans hs.view)
  refine .perform _ hs (hmoves _ _) (hbehind .startWorker) fun s hs => hQ _ ?_
  exact hs.next (Standing.startWorker hs.standing) (kept_startWorker s)
    ((view_startWorker s).trans hs.view)

end Adoption

/-- Behind `n` opens, with nothing but the workers having moved since `start`. -/
structure Since (n : Nat) (start world : World View) : Prop where
  standing : Standing (settled n) world
  progress : Progress start world
  still : start.isDecoding = false → world = start

theorem Since.refl {n : Nat} {start : World View} (h : Standing (settled n) start) :
    Since n start start :=
  ⟨h, .refl start, fun _ => rfl⟩

theorem Since.moves {n : Nat} {start world later : World View} (h : Since n start world)
    {label : Option (Statement F)} (hmoved : workersMove label world later) :
    Since n start later := by
  have hstill : start.isDecoding = false → later = start := by
    intro hdone
    have hsame := h.still hdone
    have hstanding := h.standing
    rw [hsame] at hstanding hmoved
    exact absurd hmoved (hstanding.still_of_not_decoding hdone)
  obtain ⟨surroundings, t, hstep⟩ := hmoved
  obtain ⟨hstanding, hprogress⟩ := h.standing.moves hstep
  exact ⟨hstanding, h.progress.trans hprogress, hstill⟩

def opens {C : Type} (history : List (C × Except Thrown Bool)) : Nat :=
  history.countP fun call => call.2.toOption == some true

@[simp] theorem opens_opened {C : Type} (call : C) (history : List (C × Except Thrown Bool)) :
    opens ((call, .ok true) :: history) = opens history + 1 := by
  simp [opens, Except.toOption]

@[simp] theorem opens_failed {C : Type} (call : C) (history : List (C × Except Thrown Bool)) :
    opens ((call, .ok false) :: history) = opens history := by
  simp [opens, Except.toOption]

@[simp] theorem opens_thrown {C : Type} (call : C) (exception : Thrown)
    (history : List (C × Except Thrown Bool)) :
    opens ((call, .error exception) :: history) = opens history := by
  simp [opens, Except.toOption]

/-- What `Session::open` goes through when it begins at `start`, behind `n` opens. -/
inductive OpenMid (onDecodeStarted : View → View) (n : Nat) (start : World View) (path : String)
    (loading : Loading) : Statement F → World View → Prop where
  | before {label : Statement F} {world : World View}
      (hlabel : label = .setStatus ∨ label = .install) (h : Since n start world) :
      OpenMid onDecodeStarted n start path loading label world
  | adopting {label : Statement F} {world : World View} {space : AddressSpace}
      {disassembler : Disassembler} {isElf isPe : Bool} {view : View} {stage : Stage}
      (hload : loading.load = .ok (space, disassembler))
      (hformat : determineFiletype loading.repeatShrank space = .ok (isElf, isPe))
      (hstage : StageAt n label stage)
      (hview : view = start.view ∨ view = onDecodeStarted start.view)
      (h : Adopting start disassembler path (if isElf then "ELF" else "PE") view stage world) :
      OpenMid onDecodeStarted n start path loading label world

inductive OpenEnd (onDecodeStarted : View → View) (n : Nat) (start : World View) (path : String)
    (loading : Loading) : Except Thrown Bool → World View → Prop where
  | failed {exception : Thrown} {world : World View} (hload : loading.load = .error exception)
      (h : Since n start world) :
      OpenEnd onDecodeStarted n start path loading (.ok false)
        (world.setStatus ("Open failed: " ++ exception.what))
  | thrown {exception : Thrown} {world : World View} (h : Since n start world) :
      OpenEnd onDecodeStarted n start path loading (.error exception) world
  | opened {world : World View} {space : AddressSpace} {disassembler : Disassembler}
      {isElf isPe : Bool} (hload : loading.load = .ok (space, disassembler))
      (hformat : determineFiletype loading.repeatShrank space = .ok (isElf, isPe))
      (h : Adopting start disassembler path (if isElf then "ELF" else "PE")
        (onDecodeStarted start.view) (settled (n + 1)) world) :
      OpenEnd onDecodeStarted n start path loading (.ok true) (world.setStatus ("Loaded " ++ path))

section Calls

variable {n : Nat} {start world later : World View} {label : Option (Statement F)}

theorem untouched_of_load {loading : Loading} {space : AddressSpace} {disassembler : Disassembler}
    (h : loading.load = .ok (space, disassembler)) :
    Untouched disassembler ∧ disassembler.contents = space := by
  obtain ⟨headers, -, -, rfl⟩ := Loading.load_eq_ok h
  exact ⟨⟨_, _, _, _, rfl⟩, rfl⟩

theorem Since.install (h : Since n start world) {disassembler : Disassembler}
    (huntouched : Untouched disassembler) (path format : String) :
    Adopting start disassembler path format start.view (handing n)
      (world.install disassembler.contents disassembler path format) := by
  refine ⟨Standing.install h.standing huntouched path format,
    congrArg (· ++ [disassembler.contents]) h.progress.spaces, ?_, rfl, rfl, ?_, h.progress.view⟩
  · intro i found hfound
    rcases ObjectTable.append_cases hfound with ⟨rfl, rfl⟩ | hfound
    · rw [← h.progress.length]
      exact ⟨found, List.getElem?_concat_length .., .refl _⟩
    · obtain ⟨later, hlater, hgrows⟩ := h.progress.grows i found hfound
      exact ⟨later, ObjectTable.append_of_some hlater, hgrows⟩
  · change world.session.status = start.session.status
    rw [h.progress.session]

theorem safe_adopt {A : Statement F → World View → Prop}
    {Q : Except Thrown Unit → World View → Prop}
    (h : Standing (settled n) start) {onDecodeStarted : View → View} {disassembler : Disassembler}
    (huntouched : Untouched disassembler) {path format : String}
    (hinstall : ∀ later, Since n start later → A .install later)
    (hA : ∀ label view stage later, StageAt n label stage →
      view = start.view ∨ view = onDecodeStarted start.view →
      Adopting start disassembler path format view stage later → A label later)
    (hQ : ∀ later, Adopting start disassembler path format (onDecodeStarted start.view)
      (settled (n + 1)) later → Q (.ok ()) later) :
    Safe workersMove A Q (adopt onDecodeStarted disassembler.contents disassembler path format)
      start := by
  refine .bind (.perform _ (Since.refl h) (fun _ _ hs => hs.moves) hinstall fun s hs => ?_)
  exact safe_runDecode (hs.install huntouched path format) hA hQ

theorem safe_openBinary (h : Standing (settled n) start) (onDecodeStarted : View → View)
    (path : String) (loading : Loading) :
    Safe workersMove (OpenMid onDecodeStarted n start path loading)
      (OpenEnd onDecodeStarted n start path loading)
      (openBinary (F := F) onDecodeStarted path loading) start := by
  have hstart := Since.refl h
  rw [openBinary]
  split
  · exact .thrown hstart
  · rename_i exception _ hload
    refine .bind (.perform _ hstart (fun _ _ hs => hs.moves)
      (fun s hs => .before (Or.inl rfl) hs) fun s hs => ?_)
    exact OpenEnd.failed hload hs
  · rename_i space disassembler hload
    obtain ⟨huntouched, rfl⟩ := untouched_of_load hload
    split
    · exact .thrown hstart
    · rename_i isElf isPe hformat
      refine .bind (safe_adopt h huntouched (fun s hs => .before (Or.inr rfl) hs)
        (fun label view stage later hstage hview hlater =>
          .adopting hload hformat hstage hview hlater) fun s hs => ?_)
      refine .bind (.perform _ hs (fun _ _ hs => hs.moves)
        (fun s hs => .adopting hload hformat .setStatus (Or.inr rfl) hs) fun s hs => ?_)
      exact OpenEnd.opened hload hformat hs

end Calls

end Voidwalk.OpenStages

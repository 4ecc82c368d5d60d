import Voidwalk.GuiSession
import Voidwalk.HeaderParsing
import Voidwalk.OpenStages

/-!
The GUI window that polls the decode. Its timer tick samples the row count and the end
of the decode at different moments, and a worker that ends between the two leaves the
window with a partial listing; the runs in which none does are shown whole.
-/

namespace Voidwalk.MainWindow

open Voidwalk.Library
open Voidwalk.Library.InterleavedThread
open Voidwalk.MappedFile
open Voidwalk.Disassembly
open Voidwalk.FileTypeDetection
open Voidwalk.HeaderParsing (nopElf)
open Voidwalk.AnalysisSession
open Voidwalk.SessionStanding
open Voidwalk.OpenStages
open Voidwalk.FrontendRows
open Voidwalk.GuiSession
open Relation (ReflTransGen)

/-- What the reads of the file during one event find. -/
structure Reads where
  unreadable : UInt64 → Bool := fun _ => false
  panesFault : Bool := false

/-- Repainting the panes may read the file too. -/
def refreshPanes (reads : Reads) : GuiProgram Unit :=
  .update (.frontend .refreshPanes) id fun _ =>
    if reads.panesFault then .error fileChanged else .ok ()

def setTimer (active : Bool) (view : GuiView) : GuiView :=
  { view with decodeTimer := active }

/-- Polls a decode that still runs, and shows one that has already ended. -/
def pollOrShow (reads : Reads) : GuiProgram Unit := do
  if ← isDecoding (.frontend .openTestsDecoding) then
    .perform (.frontend .startTimer) (World.mapView (setTimer true))
  else
    refresh reads.unreadable
    compact

def openPath (path : String) (loading : Loading) (reads : Reads) : GuiProgram Bool :=
  if path = "" then pure false
  else do
    let opened ← openBinary onDecodeStarted path loading
    pollOrShow reads
    refreshPanes reads
    pure opened

def onDecodeTick (reads : Reads) : GuiProgram Unit := do
  refresh reads.unreadable
  if ← isDecoding (.frontend .tickTestsDecoding) then refreshPanes reads
  else
    compact
    refreshPanes reads
    .perform (.frontend .stopTimer) (World.mapView (setTimer false))

inductive WindowCall where
  | openPath (path : String) (loading : Loading) (reads : Reads)
  | onDecodeTick (reads : Reads)

def program : WindowCall → GuiProgram Bool
  | .openPath path loading reads => openPath path loading reads
  | .onDecodeTick reads => do
      onDecodeTick reads
      pure false

/-- A `FileChanged` that leaves an event handler ends the program. -/
def running (history : List (WindowCall × Except Thrown Bool)) : Bool :=
  history.all fun call => call.2.isOk

/-- The user may open a file at any time; ticks come while the timer runs. -/
def mayCall (history : List (WindowCall × Except Thrown Bool)) (world : World GuiView) :
    WindowCall → Bool
  | .openPath _ _ _ => running history
  | .onDecodeTick _ => running history && world.view.decodeTimer

abbrev WindowSystem := System WindowCall (Statement GuiStatement) Thrown (World GuiView) Bool

abbrev WindowStep : WindowSystem → WindowSystem → Prop :=
  Step workersMove (fun history world call => mayCall history world call = true) program

/-- The rows of a finished decode, or the fallback of one that found none. -/
def ShowsWhole (world : World GuiView) : Prop :=
  if 0 < world.readyInstructions then
    world.view.decodedForReal = true ∧ rowCount world = world.readyInstructions
  else world.view.decodedForReal = false ∧
    world.view.fallbackRows = (buildFallback (fun _ => false) world).1

def WorkersFinished (world : World GuiView) : Prop :=
  ∀ worker ∈ world.workers, worker.phase = .finished

/-- Between two events: once the worker has finished and the timer has stopped, the
session shows everything. -/
def ShowsWholeDecode (system : WindowSystem) : Prop :=
  system.label = none → running system.past = true → system.state.loaded = true →
    WorkersFinished system.state → system.state.view.decodeTimer = false →
      ShowsWhole system.state

/-- The end of the decode does not fall between two samples of a tick that disagree
about the rows: behind `ready == 0` no row is published yet, and behind the refresh
every row is exposed. -/
def timely (label : Option (Statement GuiStatement)) (before after : World GuiView) : Bool :=
  if before.isDecoding && !after.isDecoding then
    match label with
    | some (.frontend .refreshTestsDecoding) => before.readyInstructions = 0
    | some (.frontend .tickTestsDecoding) =>
        before.view.decodedForReal && before.view.shownRows = before.readyInstructions
    | _ => true
  else true

def timelyMove (label : Option (Statement GuiStatement)) (before after : World GuiView) : Prop :=
  workersMove label before after ∧ timely label before after = true

abbrev TimelyStep : WindowSystem → WindowSystem → Prop :=
  Step timelyMove (fun history world call => mayCall history world call = true) program

section Facts

variable {n : Nat} {world later : World GuiView} {label : Option (Statement GuiStatement)}

theorem readyInstructions_of_clears (h : Standing (settled n) world)
    (hmoved : workersMove label world later) (hdone : later.isDecoding = false) :
    later.readyInstructions = world.readyInstructions := by
  obtain ⟨surroundings, t, hstep⟩ := hmoved
  have hlater := (h.moves hstep).1
  obtain ⟨worker, disassembler, state, worker', disassembler', state', hworker, hdisassembler, -,
    hsound, hadvance, rfl⟩ := h.workerStep_cases hstep
  obtain rfl := eq_succ_of_latest
    (h.thread_of_unfinished hworker (hsound.advance hadvance).2.2.2)
  obtain ⟨last, grown, final, hcurrent⟩ := hlater.current
  obtain ⟨hlast, hgrown⟩ := hlater.worker_last hcurrent
  obtain rfl := Option.some.inj (hlast.symm.trans (ObjectTable.set_self hworker))
  obtain rfl := Option.some.inj (hgrown.symm.trans (ObjectTable.set_self hdisassembler))
  have hbefore : world.currentDisassembler = some disassembler := by
    rw [World.currentDisassembler, h.disassembler]
    exact hdisassembler
  rw [World.readyInstructions, hcurrent.current_disassembler, World.readyInstructions, hbefore,
    advance_finished hadvance (hcurrent.finished hdone)]

/-- Settled tables, and a view that shows decoded rows only if there are some. -/
structure Quiet (world : World GuiView) : Prop where
  standing : ∃ n, Standing (settled n) world
  positive : world.view.decodedForReal = true → 0 < world.view.shownRows

structure Done (world : World GuiView) : Prop where
  quiet : Quiet world
  done : world.isDecoding = false
  whole : world.loaded = true → ShowsWhole world

/-- Behind the refresh of a tick: if the decode has ended, it is shown. -/
structure Sampled (world : World GuiView) : Prop where
  quiet : Quiet world
  whole : world.isDecoding = false → world.loaded = true → ShowsWhole world

/-- Behind `ready == 0`: if the decode has ended, it has found nothing. -/
structure Unpublished (world : World GuiView) : Prop where
  quiet : Quiet world
  unready : world.isDecoding = false → world.readyInstructions = 0

theorem Quiet.moves (h : Quiet world) (hmoved : timelyMove label world later) :
    Quiet later ∧ later.session = world.session ∧ later.view = world.view := by
  obtain ⟨⟨n, hstanding⟩, hpositive⟩ := h
  obtain ⟨⟨surroundings, t, hstep⟩, -⟩ := hmoved
  obtain ⟨hlater, hprogress⟩ := hstanding.moves hstep
  exact ⟨⟨⟨n, hlater⟩, hprogress.view ▸ hpositive⟩, hprogress.session, hprogress.view⟩

theorem Quiet.still (h : Quiet world) (hdone : world.isDecoding = false) :
    ¬ timelyMove label world later := by
  obtain ⟨n, hstanding⟩ := h.standing
  exact fun hmoved => hstanding.still_of_not_decoding hdone hmoved.1

theorem Quiet.mapView (h : Quiet world) {change : GuiView → GuiView}
    (hpositive : (change world.view).decodedForReal = true → 0 < (change world.view).shownRows) :
    Quiet (world.mapView change) := by
  obtain ⟨n, hstanding⟩ := h.standing
  exact ⟨⟨n, Standing.mapView hstanding change⟩, hpositive⟩

theorem Done.still (h : Done world) : ¬ timelyMove label world later :=
  h.quiet.still h.done

theorem Sampled.moves (h : Sampled world)
    (hmoved : timelyMove (some (.frontend .tickTestsDecoding)) world later) : Sampled later := by
  obtain ⟨hquiet, hsession, hview⟩ := h.quiet.moves hmoved
  refine ⟨hquiet, fun hdone hloaded => ?_⟩
  cases hdecoding : world.isDecoding with
  | false => exact absurd hmoved (h.quiet.still hdecoding)
  | true =>
      have htimely := hmoved.2
      simp only [timely, hdecoding, hdone, Bool.not_false, Bool.and_true, if_true,
        Bool.and_eq_true, decide_eq_true_eq] at htimely
      obtain ⟨hreal, hshown⟩ := htimely
      obtain ⟨n, hstanding⟩ := h.quiet.standing
      have hready := readyInstructions_of_clears hstanding hmoved.1 hdone
      have hpositive := h.quiet.positive hreal
      rw [ShowsWhole, hready, ← hshown, if_pos hpositive, hview, rowCount, hloaded, hview, hreal]
      exact ⟨rfl, rfl⟩

theorem Unpublished.moves (h : Unpublished world)
    (hmoved : timelyMove (some (.frontend .refreshTestsDecoding)) world later) :
    Unpublished later := by
  obtain ⟨hquiet, hsession, hview⟩ := h.quiet.moves hmoved
  refine ⟨hquiet, fun hdone => ?_⟩
  cases hdecoding : world.isDecoding with
  | false => exact absurd hmoved (h.quiet.still hdecoding)
  | true =>
      have htimely := hmoved.2
      simp only [timely, hdecoding, hdone, Bool.not_false, Bool.and_true, if_true,
        decide_eq_true_eq] at htimely
      obtain ⟨n, hstanding⟩ := h.quiet.standing
      rw [readyInstructions_of_clears hstanding hmoved.1 hdone, htimely]

end Facts

section Calls

variable {world : World GuiView}

theorem Quiet.exposeReady (h : Quiet world) : Quiet (exposeReady world) := by
  rw [GuiSession.exposeReady]
  split_ifs with hready
  · exact h.mapView fun _ => hready
  · exact h

theorem whole_exposeReady (hready : 0 < world.readyInstructions)
    (hloaded : (exposeReady world).loaded = true) : ShowsWhole (exposeReady world) := by
  rw [GuiSession.exposeReady, if_pos hready] at hloaded ⊢
  rw [ShowsWhole, rowCount, hloaded]
  change if 0 < world.readyInstructions then _ else _
  rw [if_pos hready]
  exact ⟨rfl, rfl⟩

theorem whole_showFallback {unreadable : UInt64 → Bool} (hready : world.readyInstructions = 0)
    (hcomplete : (buildFallback unreadable world).2 = none) :
    ShowsWhole (showFallback unreadable world) := by
  rw [ShowsWhole]
  change if 0 < world.readyInstructions then _ else _
  rw [hready]
  exact ⟨rfl, buildFallback_of_complete hcomplete⟩

/-- Once the decode has ended, nothing moves while the fallback is built. -/
theorem safe_showFallback {Q : Except Thrown Unit → World GuiView → Prop}
    {unreadable : UInt64 → Bool} (K : World GuiView → Prop) (h : Unpublished world)
    (hdone : world.isDecoding = false) (hK : K world)
    (hview : ∀ s change, (change s.view).decodeTimer = s.view.decodeTimer → K s →
      K (s.mapView change))
    (hok : ∀ s, Sampled s → K s → Q (.ok ()) s)
    (herror : ∀ exception s, Quiet s → Q (.error exception) s) :
    Safe timelyMove (fun _ _ => True) Q
      (.update (.frontend .buildFallback) (showFallback unreadable) fun world =>
        match (buildFallback unreadable world).2 with
        | none => .ok ()
        | some exception => .error exception) world := by
  have hshown : Quiet (showFallback unreadable world) := h.quiet.mapView nofun
  refine .update_of_still (fun _ => h.quiet.still hdone) trivial ?_
  cases hthrown : (buildFallback unreadable world).2 with
  | none =>
      have hwhole := whole_showFallback (h.unready hdone) hthrown
      exact hok _ ⟨hshown, fun _ _ => hwhole⟩ (hview world _ rfl hK)
  | some exception => exact herror exception _ hshown

/-- A refresh in a run whose steps are timely. `K` is whatever else holds of the session
and does not depend on the rows it shows. -/
theorem safe_refresh {Q : Except Thrown Unit → World GuiView → Prop} (unreadable : UInt64 → Bool)
    (K : World GuiView → Prop) (h : Quiet world) (hK : K world)
    (hmoves : ∀ label s t, Quiet s → K s → timelyMove label s t → K t)
    (hview : ∀ s change, (change s.view).decodeTimer = s.view.decodeTimer → K s →
      K (s.mapView change))
    (hok : ∀ s, Sampled s → K s → Q (.ok ()) s) (herror : ∀ exception s, Quiet s →
      Q (.error exception) s) :
    Safe timelyMove (fun _ _ => True) Q (refresh unreadable) world := by
  have hstable : ∀ label s t, Quiet s ∧ K s → timelyMove label s t → Quiet t ∧ K t :=
    fun label s t hs hmoved => ⟨(hs.1.moves hmoved).1, hmoves label s t hs.1 hs.2 hmoved⟩
  refine .bind (safe_throwIfFileChanged (fun s => Quiet s ∧ K s) ⟨h, hK⟩ hstable
    (fun _ _ _ _ => trivial) (fun s hs => ?_) fun exception s hs => herror exception s hs.1)
  refine .bind (.read (fun s => Quiet s ∧ K s) hs (hstable _) (fun _ _ => trivial) fun s hs => ?_)
  dsimp only
  split_ifs with hloaded
  · refine .bind (.update (fun s => Quiet s ∧ K s) hs (hstable _) (fun _ _ => trivial)
      fun s hs => ?_)
    have hexposed : K (exposeReady s) := by
      rw [exposeReady]
      split_ifs
      · exact hview s _ rfl hs.2
      · exact hs.2
    dsimp only
    split_ifs with hready
    · exact hok _ ⟨hs.1.exposeReady, fun _ => whole_exposeReady hready⟩ hexposed
    · have hnone : s.readyInstructions = 0 := Nat.eq_zero_of_not_pos hready
      rw [exposeReady, if_neg hready]
      refine .bind (.read (fun s => Unpublished s ∧ K s) ⟨⟨hs.1, fun _ => hnone⟩, hs.2⟩
        (fun s t hs hmoved => ⟨hs.1.moves hmoved, hmoves _ s t hs.1.quiet hs.2 hmoved⟩)
        (fun _ _ => trivial) fun s hs => ?_)
      dsimp only
      split_ifs with hdecoding
      · refine hok s ⟨hs.1.quiet, fun hdone => ?_⟩ hs.2
        rw [hdone] at hdecoding
        contradiction
      · exact safe_showFallback K hs.1 (by simpa using hdecoding) hs.2 hview hok herror
  · have hnot : s.loaded = false := by simpa using hloaded
    refine .perform (fun s => (Quiet s ∧ K s) ∧ s.loaded = false) ⟨hs, hnot⟩ ?_
      (fun _ _ => trivial) fun s hs => ?_
    · rintro s t ⟨hs, hnot⟩ hmoved
      refine ⟨hstable _ s t hs hmoved, ?_⟩
      rw [World.loaded, (hs.1.moves hmoved).2.1]
      exact hnot
    · refine hok _ ⟨hs.1.1.mapView (by rintro ⟨⟩), fun _ hyes => ?_⟩ (hview s _ rfl hs.1.2)
      have hnone := hs.2.symm.trans hyes
      contradiction

theorem currentDisassembler_compact (world : World GuiView) :
    world.compactDisassembler.currentDisassembler =
      world.currentDisassembler.map Disassembler.compact := by
  cases hpointer : world.session.disassembler with
  | none =>
      rw [World.compactDisassembler, hpointer, World.currentDisassembler, hpointer]
      rfl
  | some i =>
      rw [World.compactDisassembler, World.currentDisassembler, World.currentDisassembler, hpointer]
      dsimp only
      rw [hpointer]
      exact List.getElem?_modify_eq _ _ _

theorem frame_compact (world : World GuiView) :
    world.compactDisassembler.session = world.session ∧
      world.compactDisassembler.view = world.view ∧
      world.compactDisassembler.currentSpace = world.currentSpace ∧
      world.compactDisassembler.isDecoding = world.isDecoding := by
  rw [World.compactDisassembler]
  split <;> exact ⟨rfl, rfl, rfl, rfl⟩

theorem showsWhole_compact (h : ShowsWhole world) : ShowsWhole world.compactDisassembler := by
  obtain ⟨hsession, hview, hspace, -⟩ := frame_compact world
  have hready : world.compactDisassembler.readyInstructions = world.readyInstructions := by
    rw [World.readyInstructions, currentDisassembler_compact, World.readyInstructions]
    cases world.currentDisassembler <;> rfl
  have hfallback : buildFallback (fun _ => false) world.compactDisassembler =
      buildFallback (fun _ => false) world := by
    rw [buildFallback, buildFallback, currentDisassembler_compact, hspace]
    cases world.currentSpace <;> cases world.currentDisassembler <;> rfl
  rw [ShowsWhole, rowCount, World.loaded] at h ⊢
  rwa [hready, hfallback, hview, hsession]

theorem Done.compact (h : Done world) : Done world.compactDisassembler := by
  obtain ⟨⟨n, hstanding⟩, hpositive⟩ := h.quiet
  obtain ⟨hsession, hview, -, hdecoding⟩ := frame_compact world
  refine ⟨⟨⟨n, (Standing.compactDisassembler hstanding h.done).1⟩, hview ▸ hpositive⟩,
    hdecoding.trans h.done, fun hloaded => showsWhole_compact (h.whole ?_)⟩
  rwa [World.loaded, hsession] at hloaded

theorem Done.setTimer (h : Done world) (active : Bool) :
    Done (world.mapView (setTimer active)) :=
  ⟨h.quiet.mapView h.quiet.positive, h.done, h.whole⟩

/-- Where the timer is off, the decode has ended and is shown. -/
structure Polled (world : World GuiView) : Prop where
  quiet : Quiet world
  stopped : world.view.decodeTimer = false → Done world

theorem Polled.moves (h : Polled world) {later : World GuiView}
    {label : Option (Statement GuiStatement)} (hmoved : timelyMove label world later) :
    Polled later := by
  obtain ⟨hquiet, -, hview⟩ := h.quiet.moves hmoved
  refine ⟨hquiet, fun hstopped => ?_⟩
  rw [hview] at hstopped
  exact absurd hmoved (h.stopped hstopped).still

theorem Done.polled (h : Done world) : Polled world :=
  ⟨h.quiet, fun _ => h⟩

theorem safe_compact_done {Q : Except Thrown Unit → World GuiView → Prop} (h : Done world)
    (hQ : ∀ s, Done s → Q (.ok ()) s) :
    Safe timelyMove (fun _ _ => True) Q compact world :=
  safe_compact (fun _ _ _ hmoved => hmoved.1) Done h (fun _ hs => hs.quiet.standing)
    (fun _ _ _ hs hmoved => absurd hmoved hs.still) (fun _ hs _ => hs.compact)
    (fun _ _ _ _ => trivial) hQ

theorem safe_refreshPanes {Q : Except Thrown Unit → World GuiView → Prop} (reads : Reads)
    (I : World GuiView → Prop) (h : I world)
    (hmoves : ∀ label s t, I s → timelyMove label s t → I t) (hok : ∀ s, I s → Q (.ok ()) s)
    (herror : ∀ exception s, I s → Q (.error exception) s) :
    Safe timelyMove (fun _ _ => True) Q (refreshPanes reads) world := by
  refine .update I h (hmoves _) (fun _ _ => trivial) fun s hs => ?_
  split_ifs
  · exact herror _ s hs
  · exact hok s hs

/-- Between two events; behind an exception the program has ended. -/
def Between (history : List (WindowCall × Except Thrown Bool)) (world : World GuiView) : Prop :=
  Quiet world ∧ (running history = true → Polled world)

theorem between_of_polled (h : Polled world) (history : List (WindowCall × Except Thrown Bool)) :
    Between history world :=
  ⟨h.quiet, fun _ => h⟩

theorem between_of_error (h : Quiet world) (call : WindowCall) (exception : Thrown)
    (history : List (WindowCall × Except Thrown Bool)) :
    Between ((call, .error exception) :: history) world :=
  ⟨h, nofun⟩

theorem safe_pollOrShow {Q : Except Thrown Unit → World GuiView → Prop} (reads : Reads)
    (h : Quiet world) (hok : ∀ s, Polled s → Q (.ok ()) s)
    (herror : ∀ exception s, Quiet s → Q (.error exception) s) :
    Safe timelyMove (fun _ _ => True) Q (pollOrShow reads) world := by
  have hmoves : ∀ label s t, Quiet s → timelyMove label s t → Quiet t :=
    fun _ _ _ hs hmoved => (hs.moves hmoved).1
  refine .bind (.read Quiet h (hmoves _) (fun _ _ => trivial) fun s hs => ?_)
  dsimp only
  split_ifs with hdecoding
  · refine .perform Quiet hs (hmoves _) (fun _ _ => trivial) fun s hs => hok _ ?_
    exact ⟨hs.mapView hs.positive, nofun⟩
  · refine .bind (safe_refresh reads.unreadable (fun s => s.isDecoding = false) hs
      (by simpa using hdecoding) (fun _ _ _ hs hdone hmoved => absurd hmoved (hs.still hdone))
      (fun _ _ _ hdone => hdone) (fun s hs hdone => ?_) herror)
    have hdone : Done s := ⟨hs.quiet, hdone, hs.whole hdone⟩
    exact safe_compact_done hdone fun s hs => hok s hs.polled

theorem safe_openPath {history : List (WindowCall × Except Thrown Bool)} (h : Polled world)
    (path : String) (loading : Loading) (reads : Reads) :
    Safe timelyMove (fun _ _ => True)
      (fun result => Between ((.openPath path loading reads, result) :: history))
      (openPath path loading reads) world := by
  rw [openPath]
  split_ifs
  · exact between_of_polled h _
  · obtain ⟨n, hstanding⟩ := h.quiet.standing
    have hopen := safe_openBinary (F := GuiStatement) hstanding onDecodeStarted path loading
    have hopen := hopen.restrict fun _ _ _ (hmoved : timelyMove _ _ _) => hmoved.1
    refine .bind (hopen.mono (fun _ _ _ => trivial) fun result s hend => ?_)
    have hquiet : Quiet s := by
      cases hend with
      | failed hload hsince =>
          exact ⟨⟨n, Standing.setStatus hsince.standing _⟩,
            hsince.progress.view ▸ h.quiet.positive⟩
      | thrown hsince => exact ⟨⟨n, hsince.standing⟩, hsince.progress.view ▸ h.quiet.positive⟩
      | opened hload hformat hadopting =>
          refine ⟨⟨n + 1, Standing.setStatus hadopting.standing _⟩, fun hreal => ?_⟩
          have hnone := (congrArg GuiView.decodedForReal hadopting.view).symm.trans hreal
          contradiction
    cases result with
    | error exception => exact between_of_error hquiet _ _ _
    | ok opened =>
        refine .bind (safe_pollOrShow reads hquiet (fun s hs => ?_) fun exception s hs =>
          between_of_error hs _ _ _)
        exact .bind (safe_refreshPanes reads Polled hs (fun _ _ _ hs => hs.moves)
          (fun s hs => between_of_polled hs _) fun exception s hs =>
            between_of_error hs.quiet _ _ _)

theorem safe_onDecodeTick {history : List (WindowCall × Except Thrown Bool)} (h : Quiet world)
    (htimer : world.view.decodeTimer = true) (reads : Reads) :
    Safe timelyMove (fun _ _ => True)
      (fun result => Between ((.onDecodeTick reads, result) :: history))
      (program (.onDecodeTick reads)) world := by
  have hkept : ∀ label s t, Quiet s → s.view.decodeTimer = true → timelyMove label s t →
      t.view.decodeTimer = true :=
    fun _ _ _ hs hyes hmoved => (hs.moves hmoved).2.2.symm ▸ hyes
  refine .bind (.bind (safe_refresh reads.unreadable (fun s => s.view.decodeTimer = true) h htimer
    hkept (fun _ _ hsame hyes => hsame.trans hyes) (fun s hs hyes => ?_)
    fun exception s hs => between_of_error hs _ _ _))
  refine .bind (.read (fun s => Sampled s ∧ s.view.decodeTimer = true) ⟨hs, hyes⟩
    (fun s t hs hmoved => ⟨hs.1.moves hmoved, hkept _ s t hs.1.quiet hs.2 hmoved⟩)
    (fun _ _ => trivial) fun s hs => ?_)
  dsimp only
  split_ifs with hdecoding
  · refine safe_refreshPanes reads (fun s => Quiet s ∧ s.view.decodeTimer = true)
      ⟨hs.1.quiet, hs.2⟩
      (fun label s t hs hmoved => ⟨(hs.1.moves hmoved).1, hkept label s t hs.1 hs.2 hmoved⟩)
      (fun s hs => ?_) fun exception s hs => between_of_error hs.1 _ _ _
    refine between_of_polled ⟨hs.1, fun hstopped => ?_⟩ _
    exact absurd (hs.2.symm.trans hstopped) nofun
  · have hdone : s.isDecoding = false := by simpa using hdecoding
    refine .bind (safe_compact_done ⟨hs.1.quiet, hdone, hs.1.whole hdone⟩ fun s hs => ?_)
    have hstill : ∀ label s t, Done s → timelyMove label s t → Done t :=
      fun _ _ _ hs hmoved => absurd hmoved hs.still
    refine .bind (safe_refreshPanes reads Done hs hstill (fun s hs => ?_) fun exception s hs =>
      between_of_error hs.quiet _ _ _)
    exact .perform Done hs (hstill _) (fun _ _ => trivial) fun s hs =>
      between_of_polled (hs.setTimer false).polled _

end Calls

/-- In a run whose steps are all timely the window shows the whole decode once it has
stopped polling. -/
theorem showsWholeDecode_of_timely {system : WindowSystem}
    (hrun : ReflTransGen TimelyStep (.start { view := {} }) system) : ShowsWholeDecode system := by
  have hstart : Done ({ view := {} } : World GuiView) :=
    ⟨⟨⟨0, standing_start _⟩, nofun⟩, rfl, nofun⟩
  have hholds : Holds timelyMove (fun _ _ _ _ => True) Between system := by
    refine Holds.run (holds_start (between_of_polled hstart.polled _)) ?_ ?_ hrun
    · intro history s t hs hmoved
      exact ⟨(hs.1.moves hmoved).1, fun hrunning => (hs.2 hrunning).moves hmoved⟩
    · intro history s call hs hallowed
      cases call with
      | openPath path loading reads => exact safe_openPath (hs.2 hallowed) path loading reads
      | onDecodeTick reads =>
          obtain ⟨-, htimer⟩ := Bool.and_eq_true_iff.mp hallowed
          exact safe_onDecodeTick hs.1 htimer reads
  intro hlabel hrunning hloaded _ hstopped
  exact (((hholds.idle hlabel).2 hrunning).stopped hstopped).whole hloaded

/-- Plays the turns of the window and of the workers, if a step of a worker is allowed. -/
def watch (allowed : Option (Statement GuiStatement) → World GuiView → World GuiView → Bool)
    (turns : List (Turn (Surroundings × Nat) WindowCall)) : Option WindowSystem :=
  (System.start { view := {} }).play
    (fun (move : Surroundings × Nat) label world =>
      (workerStep move.1 move.2 world).filter (allowed label world))
    mayCall program turns

structure Summary where
  label : Option (Statement GuiStatement)
  running : Bool
  loaded : Bool
  finished : Bool
  decodeTimer : Bool
  ready : Nat
  rows : Nat
  deriving DecidableEq

def summary (system : WindowSystem) : Summary where
  label := system.label
  running := running system.past
  loaded := system.state.loaded
  finished := system.state.workers.all fun worker => worker.phase = .finished
  decodeTimer := system.state.view.decodeTimer
  ready := system.state.readyInstructions
  rows := rowCount system.state

/-- The file is opened, the decode ends, and the first tick shows it. -/
def promptRows : List (Turn (Surroundings × Nat) WindowCall) :=
  [.call (.openPath "nop" nopElf {})] ++ List.replicate 13 .statement ++
    List.replicate 14 (.environment ({}, 0)) ++ [.call (.onDecodeTick {})] ++
    List.replicate 10 .statement

theorem showsWholeDecode_promptRows :
    ∃ system, watch timely promptRows = some system ∧ system.state.view.decodeTimer = false ∧
      rowCount system.state = 1 := by
  have hseen : (watch timely promptRows).map summary =
      some ⟨none, true, true, true, false, 1, 1⟩ := by
    decide +kernel
  obtain ⟨system, hplayed, hsystem⟩ := Option.map_eq_some_iff.mp hseen
  simp only [summary, Summary.mk.injEq] at hsystem
  obtain ⟨hlabel, hrunning, hloaded, hfinished, hstopped, hready, -⟩ := hsystem
  have hrun : ReflTransGen TimelyStep (.start { view := {} }) system := by
    refine run_of_play (fun move label before after hmove => ?_) (fun _ _ _ hcall => hcall) hplayed
    obtain ⟨hstep, htimely⟩ := Option.filter_eq_some_iff.mp hmove
    exact ⟨⟨move.1, move.2, hstep⟩, htimely⟩
  have hshown := showsWholeDecode_of_timely hrun hlabel hrunning hloaded
    (by simpa [WorkersFinished] using hfinished) hstopped
  rw [ShowsWhole, hready] at hshown
  exact ⟨system, hplayed, hstopped, hshown.2⟩

/-- The file is opened and the first tick begins; the whole decode falls between the
two tests of `isDecoding()` in that tick. -/
def lostRows : List (Turn (Surroundings × Nat) WindowCall) :=
  [.call (.openPath "nop" nopElf {})] ++ List.replicate 13 .statement ++
    [.call (.onDecodeTick {})] ++ List.replicate 4 .statement ++
    List.replicate 14 (.environment ({}, 0)) ++ List.replicate 6 .statement

/-- The window stops polling with an empty pane although a row was decoded. -/
theorem not_showsWholeDecode_lostRows :
    ¬ ∀ system, ReflTransGen WindowStep (.start { view := {} }) system →
      ShowsWholeDecode system := by
  intro hshows
  have hseen : (watch (fun _ _ _ => true) lostRows).map summary =
      some ⟨none, true, true, true, false, 1, 0⟩ := by
    decide +kernel
  obtain ⟨system, hplayed, hsystem⟩ := Option.map_eq_some_iff.mp hseen
  simp only [summary, Summary.mk.injEq] at hsystem
  obtain ⟨hlabel, hrunning, hloaded, hfinished, hstopped, hready, hrows⟩ := hsystem
  have hrun : ReflTransGen WindowStep (.start { view := {} }) system := by
    refine run_of_play (fun move label before after hmove => ?_) (fun _ _ _ hcall => hcall) hplayed
    exact ⟨move.1, move.2, (Option.filter_eq_some_iff.mp hmove).1⟩
  have hshown := hshows system hrun hlabel hrunning hloaded
    (by simpa [WorkersFinished] using hfinished) hstopped
  rw [ShowsWhole, hready, hrows] at hshown
  exact absurd hshown.2 (by decide)

end Voidwalk.MainWindow

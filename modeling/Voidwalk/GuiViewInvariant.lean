import Voidwalk.GuiSession
import Voidwalk.HeaderParsing
import Voidwalk.OpenStages

/-!
What the GUI session's view keeps over every order of its operations and the workers'
steps: one origin for its pointers, and no row beyond the published ones.
-/

namespace Voidwalk.GuiViewInvariant

open Voidwalk.Library
open Voidwalk.Library.InterleavedThread
open Voidwalk.MappedFile
open Voidwalk.ChunkStorage
open Voidwalk.InstructionRendering
open Voidwalk.Disassembly
open Voidwalk.SweepRefinement
open Voidwalk.FileTypeDetection
open Voidwalk.HeaderParsing (nopElf)
open Voidwalk.AnalysisSession
open Voidwalk.SessionStanding
open Voidwalk.OpenStages
open Voidwalk.FrontendRows
open Voidwalk.GuiSession
open Relation (ReflTransGen)

structure Opened where
  path : String
  format : String
  space : AddressSpace
  disassembler : Disassembler

def openedBy (path : String) (loading : Loading) : Option Opened :=
  match loading.load with
  | .error _ => none
  | .ok (space, disassembler) =>
      match determineFiletype loading.repeatShrank space with
      | .error _ => none
      | .ok (isElf, _) => some
          { path := path
            format := if isElf then "ELF" else "PE"
            space := space
            disassembler := disassembler }

def lastOpened : List (GuiCall × Except Thrown Bool) → Option Opened
  | [] => none
  | (.openBinary path loading, .ok true) :: _ => openedBy path loading
  | _ :: history => lastOpened history

def ComesFrom (opened : Option Opened) (world : World GuiView) : Prop :=
  match opened with
  | none => world.session.space = none ∧ world.session.disassembler = none ∧
      world.session.filePath = "" ∧ world.session.format = ""
  | some opened => ∃ i disassembler, world.session.space = some i ∧
      world.session.disassembler = some i ∧ world.spaces[i]? = some opened.space ∧
      world.disassemblers[i]? = some disassembler ∧ Grows opened.disassembler disassembler ∧
      world.session.filePath = opened.path ∧ world.session.format = opened.format

/-- A snapshot ends below the published count of the disassembler it pins. -/
def SnapshotSound (world : World GuiView) (snapshot : Snapshot) : Prop :=
  match snapshot.disassembler with
  | none => snapshot.rows = 0
  | some i => ∃ disassembler, world.disassemblers[i]? = some disassembler ∧
      snapshot.rows ≤ disassembler.readyCount

/-- What is remembered of an earlier moment. -/
structure Earlier where
  generation : Nat
  shownRows : Nat
  snapshots : List Snapshot

/-- A moment of the session at which `n` binaries have been opened: no row shown earlier
in this generation and no snapshot taken earlier has gone. -/
structure Moment (n : Nat) (opened : Option Opened) (earlier : Earlier) (world : World GuiView) :
    Prop where
  standing : Standing (settled n) world
  origin : ComesFrom opened world
  snapshots : ∀ snapshot ∈ world.view.snapshots, SnapshotSound world snapshot
  shown_le : world.view.shownRows ≤ world.readyInstructions
  generation_le : earlier.generation ≤ n
  rows_kept : n = earlier.generation → earlier.shownRows ≤ world.view.shownRows
  snapshots_kept : earlier.snapshots ⊆ world.view.snapshots

section Moments

variable {n : Nat} {opened : Option Opened} {earlier : Earlier} {world later : World GuiView}

theorem readyInstructions_le (h : Progress world later) (hstanding : Standing (settled n) world) :
    world.readyInstructions ≤ later.readyInstructions := by
  rw [World.readyInstructions, World.readyInstructions, World.currentDisassembler,
    World.currentDisassembler, h.session]
  cases n with
  | zero =>
      rw [hstanding.disassembler]
      exact Nat.le_refl _
  | succ n =>
      rw [hstanding.disassembler]
      obtain ⟨worker, disassembler, state, hcurrent⟩ := hstanding.current
      have hfound := hcurrent.current_disassembler
      rw [World.currentDisassembler, hstanding.disassembler] at hfound
      obtain ⟨grown, hgrown, hgrows⟩ := h.grows _ disassembler hfound
      change (world.disassemblers[n]?).elim 0 _ ≤ (later.disassemblers[n]?).elim 0 _
      change world.disassemblers[n]? = _ at hfound
      rw [hfound, hgrown]
      exact hgrows.ready_le

theorem ComesFrom.progress (h : ComesFrom opened world) (hprogress : Progress world later) :
    ComesFrom opened later := by
  cases opened with
  | none =>
      rw [ComesFrom, hprogress.session]
      exact h
  | some opened =>
      obtain ⟨i, disassembler, hspace, hdisassembler, hcontents, hfound, hgrows, hnames⟩ := h
      obtain ⟨grown, hgrown, hgrows'⟩ := hprogress.grows i disassembler hfound
      rw [ComesFrom, hprogress.session, hprogress.spaces]
      exact ⟨i, grown, hspace, hdisassembler, hcontents, hgrown, hgrows.trans hgrows', hnames⟩

theorem SnapshotSound.grows {snapshot : Snapshot} (h : SnapshotSound world snapshot)
    (hgrows : ∀ (i : Nat) (found : Disassembler), world.disassemblers[i]? = some found →
      ∃ grown, later.disassemblers[i]? = some grown ∧ Grows found grown) :
    SnapshotSound later snapshot := by
  rw [SnapshotSound] at h ⊢
  cases hpointer : snapshot.disassembler with
  | none =>
      rw [hpointer] at h
      exact h
  | some i =>
      rw [hpointer] at h
      obtain ⟨disassembler, hfound, hle⟩ := h
      obtain ⟨grown, hgrown, hgrows⟩ := hgrows i disassembler hfound
      exact ⟨grown, hgrown, hle.trans hgrows.ready_le⟩

theorem Moment.progress (h : Moment n opened earlier world)
    (hstanding : Standing (settled n) later) (hprogress : Progress world later) :
    Moment n opened earlier later := by
  refine ⟨hstanding, h.origin.progress hprogress, ?_, ?_, h.generation_le, ?_, ?_⟩
  · rw [hprogress.view]
    exact fun snapshot hmem => (h.snapshots snapshot hmem).grows hprogress.grows
  · rw [hprogress.view]
    exact h.shown_le.trans (readyInstructions_le hprogress h.standing)
  · rw [hprogress.view]
    exact h.rows_kept
  · rw [hprogress.view]
    exact h.snapshots_kept

theorem Moment.moves (h : Moment n opened earlier world)
    {label : Option (Statement GuiStatement)} (hmoved : workersMove label world later) :
    Moment n opened earlier later := by
  obtain ⟨surroundings, t, hstep⟩ := hmoved
  obtain ⟨hstanding, hprogress⟩ := h.standing.moves hstep
  exact h.progress hstanding hprogress

theorem Moment.mapView (h : Moment n opened earlier world) {change : GuiView → GuiView}
    (hsnapshots : ∀ snapshot ∈ (change world.view).snapshots, SnapshotSound world snapshot)
    (hshown : (change world.view).shownRows ≤ world.readyInstructions)
    (hrows : n = earlier.generation → earlier.shownRows ≤ (change world.view).shownRows)
    (hkept : world.view.snapshots ⊆ (change world.view).snapshots) :
    Moment n opened earlier (world.mapView change) :=
  ⟨Standing.mapView h.standing change, h.origin, hsnapshots, hshown, h.generation_le, hrows,
    List.Subset.trans h.snapshots_kept hkept⟩

theorem Moment.setStatus (h : Moment n opened earlier world) (status : String) :
    Moment n opened earlier (world.setStatus status) :=
  ⟨Standing.setStatus h.standing status, h.origin, h.snapshots, h.shown_le, h.generation_le,
    h.rows_kept, h.snapshots_kept⟩

theorem Moment.exposeReady (h : Moment n opened earlier world) :
    Moment n opened earlier (exposeReady world) := by
  rw [GuiSession.exposeReady]
  split_ifs
  · exact h.mapView h.snapshots (Nat.le_refl _) (fun hn => (h.rows_kept hn).trans h.shown_le)
      (List.Subset.refl _)
  · exact h

theorem Moment.showFallback (h : Moment n opened earlier world)
    (unreadable : UInt64 → Bool) :
    Moment n opened earlier (showFallback unreadable world) :=
  h.mapView h.snapshots h.shown_le h.rows_kept (List.Subset.refl _)

theorem Moment.clearRows (h : Moment n opened earlier world)
    (hloaded : world.loaded = false) :
    Moment n opened earlier (world.mapView clearRows) := by
  have hready : world.readyInstructions = 0 := by
    rw [World.loaded, Option.isSome_eq_false_iff, Option.isNone_iff_eq_none] at hloaded
    rw [World.readyInstructions, World.currentDisassembler, hloaded]
    rfl
  have hnone := h.shown_le
  rw [hready] at hnone
  exact h.mapView h.snapshots (Nat.zero_le _) (fun hn => (h.rows_kept hn).trans hnone)
    (List.Subset.refl _)

theorem snapshotSound_takeSnapshot (h : Moment n opened earlier world) :
    SnapshotSound world (takeSnapshot world) := by
  rw [takeSnapshot]
  cases hloaded : world.loaded with
  | false => rfl
  | true =>
      obtain ⟨m, rfl⟩ := Nat.exists_eq_succ_of_ne_zero (h.standing.loaded_iff.mp hloaded)
      obtain ⟨worker, disassembler, state, hcurrent⟩ := h.standing.current
      have hpointer : world.session.disassembler = some m := h.standing.disassembler
      have hfound := hcurrent.current_disassembler
      have hshown := h.shown_le
      rw [World.readyInstructions, hcurrent.current_disassembler] at hshown
      rw [World.currentDisassembler, hpointer] at hfound
      rw [if_pos rfl, SnapshotSound, hpointer]
      refine ⟨disassembler, hfound, ?_⟩
      dsimp only
      split_ifs
      · exact hshown
      · exact Nat.zero_le _

theorem Moment.snapshot (h : Moment n opened earlier world) :
    Moment n opened earlier (world.mapView fun view =>
      { view with snapshots := takeSnapshot world :: view.snapshots }) :=
  h.mapView (List.forall_mem_cons.mpr ⟨snapshotSound_takeSnapshot h, h.snapshots⟩) h.shown_le
    h.rows_kept (List.subset_cons_self _ _)

end Moments

def justOpened : List (GuiCall × Except Thrown Bool) → Bool
  | (.openBinary _ _, .ok true) :: _ => true
  | _ => false

structure Between (earlier : Earlier) (history : List (GuiCall × Except Thrown Bool))
    (world : World GuiView) : Prop where
  moment : Moment (opens history) (lastOpened history) earlier world
  none_shown : justOpened history = true → world.view.shownRows = 0

/-- During an operation. An open under way may have installed its own binary. -/
structure During (earlier : Earlier) (history : List (GuiCall × Except Thrown Bool))
    (call : GuiCall) (world : World GuiView) : Prop where
  standing : ∃ stage, Standing stage world
  snapshots_kept : earlier.snapshots ⊆ world.view.snapshots
  snapshots : ∀ snapshot ∈ world.view.snapshots, SnapshotSound world snapshot
  origin : ComesFrom (lastOpened history) world ∨
    ∃ path loading opened, call = .openBinary path loading ∧
      openedBy path loading = some opened ∧ ComesFrom (some opened) world
  shown_le : (∀ path loading, call ≠ .openBinary path loading) →
    world.view.shownRows ≤ world.readyInstructions

section Calls

variable {history : List (GuiCall × Except Thrown Bool)} {earlier : Earlier}
  {world : World GuiView}

theorem Moment.during {n : Nat} (h : Moment n (lastOpened history) earlier world)
    (call : GuiCall) : During earlier history call world :=
  ⟨⟨_, h.standing⟩, h.snapshots_kept, h.snapshots, Or.inl h.origin, fun _ => h.shown_le⟩

theorem Between.moves (h : Between earlier history world) {later : World GuiView}
    {label : Option (Statement GuiStatement)} (hmoved : workersMove label world later) :
    Between earlier history later := by
  refine ⟨h.moment.moves hmoved, ?_⟩
  obtain ⟨surroundings, t, hstep⟩ := hmoved
  have hview := (h.moment.standing.moves hstep).2.view
  rw [hview]
  exact h.none_shown

theorem Moment.between {call : GuiCall} {result : Except Thrown Bool} (hresult : result ≠ .ok true)
    (h : Moment (opens history) (lastOpened history) earlier world) :
    Between earlier ((call, result) :: history) world := by
  match result with
  | .ok true => contradiction
  | .ok false =>
      constructor
      · rw [opens_failed]
        cases call <;> exact h
      · cases call <;> exact nofun
  | .error exception =>
      constructor
      · rw [opens_thrown]
        cases call <;> exact h
      · cases call <;> exact nofun

theorem safe_refresh {A : Statement GuiStatement → World GuiView → Prop}
    {Q : Except Thrown Unit → World GuiView → Prop} {n : Nat} {opened : Option Opened}
    (unreadable : UInt64 → Bool) (h : Moment n opened earlier world)
    (hA : ∀ label s, Moment n opened earlier s → A label s)
    (hQ : ∀ result s, Moment n opened earlier s → Q result s) :
    Safe workersMove A Q (refresh unreadable) world := by
  have hmoves : ∀ {label : Option (Statement GuiStatement)} s t,
      Moment n opened earlier s → workersMove label s t →
        Moment n opened earlier t :=
    fun _ _ hs => hs.moves
  refine .bind (safe_throwIfFileChanged (Moment n opened earlier) h (fun _ => hmoves)
    (fun _ _ _ => hA _ _) (fun s hs => ?_) fun exception s hs => hQ _ s hs)
  refine .bind (.read _ hs hmoves (hA _) fun s hs => ?_)
  dsimp only
  split_ifs with hloaded
  · refine .bind (.update _ hs hmoves (hA _) fun s hs => ?_)
    dsimp only
    split_ifs
    · exact hQ _ _ hs.exposeReady
    · refine .bind (.read _ hs.exposeReady hmoves (hA _) fun s hs => ?_)
      dsimp only
      split_ifs
      · exact hQ _ s hs
      · exact .update _ hs hmoves (hA _) fun s hs => hQ _ _ (hs.showFallback unreadable)
  · refine .perform _ hs hmoves (hA _) fun s' hs' => hQ _ _ (hs'.clearRows ?_)
    -- Whether a binary is loaded does not change between the test and here.
    rw [hs.standing.loaded_iff] at hloaded
    rwa [← Bool.not_eq_true, hs'.standing.loaded_iff]

theorem comesFrom_of_adopting {n : Nat} {start later : World GuiView} {stage : Stage}
    {view : GuiView} {label : Statement GuiStatement} {path : String} {loading : Loading}
    {space : AddressSpace} {disassembler : Disassembler} {isElf isPe : Bool}
    (hstart : start.spaces.length = n ∧ start.disassemblers.length = n)
    (hload : loading.load = .ok (space, disassembler))
    (hformat : determineFiletype loading.repeatShrank space = .ok (isElf, isPe))
    (hstage : StageAt n label stage)
    (h : Adopting start disassembler path (if isElf then "ELF" else "PE") view stage later) :
    ∃ opened, openedBy path loading = some opened ∧ ComesFrom (some opened) later := by
  have hpointer : latest stage.binaries = some n := by cases hstage <;> rfl
  obtain ⟨-, rfl⟩ := untouched_of_load hload
  refine ⟨⟨path, if isElf then "ELF" else "PE", disassembler.contents, disassembler⟩, ?_, ?_⟩
  · rw [openedBy, hload]
    dsimp only
    rw [hformat]
  · obtain ⟨grown, hgrown, hgrows⟩ := h.grows n disassembler (by
      rw [← hstart.2]
      exact List.getElem?_concat_length ..)
    refine ⟨n, grown, h.standing.space.trans hpointer, h.standing.disassembler.trans hpointer, ?_,
      hgrown, hgrows, h.filePath, h.format⟩
    rw [h.spaces, ← hstart.1]
    exact List.getElem?_concat_length ..

/-- The snapshots taken so far pin disassemblers that the new binary leaves in place. -/
theorem snapshots_of_adopting {start later : World GuiView} {stage : Stage} {view : GuiView}
    {disassembler : Disassembler} {path format : String}
    (hsound : ∀ snapshot ∈ start.view.snapshots, SnapshotSound start snapshot)
    (h : Adopting start disassembler path format view stage later)
    (hview : view.snapshots = start.view.snapshots) :
    ∀ snapshot ∈ later.view.snapshots, SnapshotSound later snapshot := by
  intro snapshot hmem
  rw [h.view, hview] at hmem
  exact (hsound snapshot hmem).grows fun i found hfound =>
    h.grows i found (ObjectTable.append_of_some hfound)

theorem during_of_openMid (h : Between earlier history world) {path : String} {loading : Loading}
    {label : Statement GuiStatement} {later : World GuiView}
    (hmid : OpenMid onDecodeStarted (opens history) world path loading label later) :
    During earlier history (.openBinary path loading) later := by
  have hstart := h.moment
  cases hmid with
  | before hlabel hsince => exact (hstart.progress hsince.standing hsince.progress).during _
  | @adopting _ _ _ _ view _ hload hformat hstage hview hadopting =>
      obtain ⟨opened, hopened, horigin⟩ := comesFrom_of_adopting
        ⟨hstart.standing.spaces_length, hstart.standing.disassemblers_length⟩ hload hformat hstage
        hadopting
      have hsnapshots : view.snapshots = world.view.snapshots := by
        rcases hview with rfl | rfl <;> rfl
      refine ⟨⟨_, hadopting.standing⟩, ?_,
        snapshots_of_adopting hstart.snapshots hadopting hsnapshots,
        Or.inr ⟨path, loading, opened, rfl, hopened, horigin⟩, ?_⟩
      · rw [hadopting.view, hsnapshots]
        exact hstart.snapshots_kept
      · exact fun hnot => absurd rfl (hnot path loading)

/-- A new binary starts with no row shown. -/
theorem between_of_opened (h : Between earlier history world) {path : String} {loading : Loading}
    {later : World GuiView} {space : AddressSpace} {disassembler : Disassembler}
    {isElf isPe : Bool} (hload : loading.load = .ok (space, disassembler))
    (hformat : determineFiletype loading.repeatShrank space = .ok (isElf, isPe))
    (hadopting : Adopting world disassembler path (if isElf then "ELF" else "PE")
      (onDecodeStarted world.view) (settled (opens history + 1)) later) :
    Between earlier ((.openBinary path loading, .ok true) :: history)
      (later.setStatus ("Loaded " ++ path)) := by
  have hstart := h.moment
  have hgeneration := hstart.generation_le
  obtain ⟨opened, hopened, horigin⟩ := comesFrom_of_adopting
    ⟨hstart.standing.spaces_length, hstart.standing.disassemblers_length⟩ hload hformat .setStatus
    hadopting
  refine ⟨Moment.setStatus ⟨?_, ?_, snapshots_of_adopting hstart.snapshots hadopting rfl,
    ?_, ?_, ?_, ?_⟩ _, fun _ => congrArg GuiView.shownRows hadopting.view⟩
  · rw [opens_opened]
    exact hadopting.standing
  · rw [lastOpened, hopened]
    exact horigin
  · rw [hadopting.view]
    exact Nat.zero_le _
  · rw [opens_opened]
    exact Nat.le_succ_of_le hgeneration
  · intro hsame
    rw [opens_opened] at hsame
    omega
  · rw [hadopting.view]
    exact hstart.snapshots_kept

theorem safe_openBinary_view (h : Between earlier history world) (path : String)
    (loading : Loading) :
    Safe workersMove (fun _ => During earlier history (.openBinary path loading))
      (fun result => Between earlier ((.openBinary path loading, result) :: history))
      (program (.openBinary path loading)) world := by
  have hstart := h.moment
  refine (safe_openBinary hstart.standing onDecodeStarted path loading).mono
    (fun _ _ => during_of_openMid h) fun result later hend => ?_
  cases hend with
  | failed hload hsince =>
      exact Moment.between nofun ((hstart.progress hsince.standing hsince.progress).setStatus _)
  | thrown hsince =>
      exact Moment.between nofun (hstart.progress hsince.standing hsince.progress)
  | opened hload hformat hadopting => exact between_of_opened h hload hformat hadopting

theorem safe_call (h : Between earlier history world) (call : GuiCall) :
    Safe workersMove (fun _ => During earlier history call)
      (fun result => Between earlier ((call, result) :: history)) (program call) world := by
  have hmoves : ∀ {label : Option (Statement GuiStatement)} s t,
      Moment (opens history) (lastOpened history) earlier s → workersMove label s t →
        Moment (opens history) (lastOpened history) earlier t :=
    fun _ _ hs => hs.moves
  cases call with
  | openBinary path loading => exact safe_openBinary_view h path loading
  | refresh unreadable =>
      refine .bind (safe_refresh unreadable h.moment (fun _ s hs => hs.during _)
        fun result s hs => ?_)
      cases result with
      | ok _ => exact Moment.between nofun hs
      | error exception => exact Moment.between nofun hs
  | snapshot =>
      exact .bind (.perform _ h.moment hmoves (fun s hs => hs.during _) fun s hs =>
        Moment.between nofun hs.snapshot)
  | compact =>
      refine .bind (safe_compact (fun _ _ _ => id) _ h.moment (fun s hs => ⟨_, hs.standing⟩)
        (fun _ => hmoves) ?_ (fun _ s _ hs => hs.during _) fun s hs => ?_)
      · intro s hs hdone
        obtain ⟨hstanding, hprogress⟩ := Standing.compactDisassembler hs.standing hdone
        exact hs.progress hstanding hprogress
      · exact Moment.between nofun hs

end Calls

section Rows

variable {α : Type}

/-- A read that stays inside the stores below the published count. -/
def ReadsPublished (real : Disassembler → Nat → Except Thrown α) : Prop :=
  ∀ disassembler stopRequested point i, Sound disassembler stopRequested point →
    i < disassembler.readyCount → (real disassembler i).isOk = true

theorem readsPublished_addressAt : ReadsPublished addressAt := by
  intro disassembler stopRequested point i h hi
  have hsize := hi.trans_le h.counts.1
  rw [addressAt, ChunkStore.element, if_pos hsize, ChunkStore.index_eq_toList _ hsize]
  rfl

theorem readsPublished_instructionWith (field : Instruction → α) :
    ReadsPublished (instructionWith field) := by
  intro disassembler stopRequested point i h hi
  have hsize := hi.trans_le (h.counts.1.trans h.counts.2)
  rw [instructionWith, ChunkStore.element, if_pos hsize, ChunkStore.index_eq_toList _ hsize]
  rfl

theorem isOk_readRow {n : Nat} {opened : Option Opened} {earlier : Earlier}
    {world : World GuiView} (h : Moment n opened earlier world) (absent : α)
    (fallback : DisasmRow → α) {real : Disassembler → Nat → Except Thrown α}
    (hreal : ReadsPublished real) (i : Nat) :
    (GuiSession.readRow absent fallback real world i).isOk = true := by
  rw [GuiSession.readRow, FrontendRows.readRow]
  split_ifs with hloaded hreally hbeyond
  · rfl
  · obtain ⟨m, rfl⟩ := Nat.exists_eq_succ_of_ne_zero (h.standing.loaded_iff.mp hloaded)
    obtain ⟨worker, disassembler, state, hcurrent⟩ := h.standing.current
    have hshown := h.shown_le
    rw [World.readyInstructions, hcurrent.current_disassembler] at hshown
    rw [hcurrent.current_disassembler]
    exact hreal _ _ _ i hcurrent.sound.sound (Nat.lt_of_lt_of_le (Nat.not_le.mp hbeyond) hshown)
  · rfl
  · rfl

theorem isOk_readSnapshotRow {stage : Stage} {world : World GuiView} (h : Standing stage world)
    {snapshot : Snapshot} (hsnapshot : SnapshotSound world snapshot) (absent : α)
    {real : Disassembler → Nat → Except Thrown α} (hreal : ReadsPublished real) (i : Nat) :
    (readSnapshotRow absent real world snapshot i).isOk = true := by
  rw [SnapshotSound] at hsnapshot
  rw [readSnapshotRow]
  cases hpointer : snapshot.disassembler with
  | none => rfl
  | some pointer =>
      rw [hpointer] at hsnapshot
      obtain ⟨disassembler, hfound, hle⟩ := hsnapshot
      obtain ⟨stopRequested, point, hsound⟩ := h.sound hfound
      dsimp only
      split_ifs with hbeyond
      · rfl
      · rw [hfound]
        exact hreal _ _ _ i hsound (Nat.lt_of_lt_of_le (Nat.not_le.mp hbeyond) hle)

end Rows

/-- No row accessor of the session leaves the stores. -/
structure SessionRowsSafe (world : World GuiView) (i : Nat) : Prop where
  rowVaddr : (rowVaddr world i).isOk = true
  rowBytes : (rowBytes world i).isOk = true
  rowText : (rowText world i).isOk = true
  rowFlow : (rowFlow world i).isOk = true
  rowTarget : (rowTarget world i).isOk = true

structure SnapshotRowsSafe (world : World GuiView) (snapshot : Snapshot) (i : Nat) : Prop where
  rowVaddr : (Snapshot.rowVaddr world snapshot i).isOk = true
  rowText : (Snapshot.rowText world snapshot i).isOk = true
  rowFlow : (Snapshot.rowFlow world snapshot i).isOk = true
  rowTarget : (Snapshot.rowTarget world snapshot i).isOk = true

theorem Moment.sessionRowsSafe {n : Nat} {opened : Option Opened} {earlier : Earlier}
    {world : World GuiView} (h : Moment n opened earlier world) (i : Nat) :
    SessionRowsSafe world i :=
  ⟨isOk_readRow h _ _ readsPublished_addressAt i,
    isOk_readRow h _ _ (readsPublished_instructionWith _) i,
    isOk_readRow h _ _ (readsPublished_instructionWith _) i,
    isOk_readRow h _ _ (readsPublished_instructionWith _) i,
    isOk_readRow h _ _ (readsPublished_instructionWith _) i⟩

theorem snapshotRowsSafe {stage : Stage} {world : World GuiView} (h : Standing stage world)
    {snapshot : Snapshot} (hsnapshot : SnapshotSound world snapshot) (i : Nat) :
    SnapshotRowsSafe world snapshot i :=
  ⟨isOk_readSnapshotRow h hsnapshot _ readsPublished_addressAt i,
    isOk_readSnapshotRow h hsnapshot _ (readsPublished_instructionWith _) i,
    isOk_readSnapshotRow h hsnapshot _ (readsPublished_instructionWith _) i,
    isOk_readSnapshotRow h hsnapshot _ (readsPublished_instructionWith _) i⟩

section Runs

variable {system later : GuiSystem} {earlier : Earlier}

theorem holds_run
    (h : Holds workersMove (fun history call _ => During earlier history call) (Between earlier)
      system)
    (hrun : ReflTransGen GuiStep system later) :
    Holds workersMove (fun history call _ => During earlier history call) (Between earlier)
      later :=
  h.run (fun _ _ _ hbetween => hbetween.moves) (fun _ _ call hbetween _ => safe_call hbetween call)
    hrun

def nothing : Earlier := ⟨0, 0, []⟩

theorem holds_reachable (hrun : ReflTransGen GuiStep (.start { view := {} }) system) :
    Holds workersMove (fun history call _ => During nothing history call) (Between nothing)
      system := by
  refine holds_run (holds_start ⟨?_, nofun⟩) hrun
  exact ⟨standing_start _, ⟨rfl, rfl, rfl, rfl⟩, nofun, Nat.zero_le _, Nat.zero_le _,
    fun _ => Nat.zero_le _, List.nil_subset _⟩

/-- From one moment between two operations on, what it shows is remembered. -/
theorem holds_since (hrun : ReflTransGen GuiStep (.start { view := {} }) system)
    (hlabel : system.label = none) :
    Holds workersMove
      (fun history call _ => During
        ⟨system.state.session.decodeGeneration, system.state.view.shownRows,
          system.state.view.snapshots⟩ history call)
      (Between ⟨system.state.session.decodeGeneration, system.state.view.shownRows,
        system.state.view.snapshots⟩) system := by
  obtain ⟨hmoment, hnone⟩ := (holds_reachable hrun).idle hlabel
  refine .of_idle hlabel ⟨?_, hnone⟩
  exact ⟨hmoment.standing, hmoment.origin, hmoment.snapshots, hmoment.shown_le,
    hmoment.standing.generation.le, fun _ => Nat.le_refl _, List.Subset.refl _⟩

/-- A failing open changes nothing but the status. -/
theorem failing_open (hrun : ReflTransGen GuiStep (.start { view := {} }) system)
    (hlabel : system.label = none) {path : String} {loading : Loading}
    (hopen : ReflTransGen GuiStep
      (system.enter (.openBinary path loading) (program (.openBinary path loading))) later)
    (hended : later.label = none) {result : Except Thrown Bool} (hresult : result ≠ .ok true)
    (hpast : later.past = (.openBinary path loading, result) :: system.past) :
    later.state.session = { system.state.session with status := later.state.session.status } ∧
      later.state.view = system.state.view := by
  obtain ⟨hmoment, -⟩ := (holds_reachable hrun).idle hlabel
  let Q : Except Thrown Bool → World GuiView → Prop := fun result world =>
    (∃ n, Standing (settled n) world) ∧ (result ≠ .ok true →
      world.session = { system.state.session with status := world.session.status } ∧
        world.view = system.state.view)
  have hsafe : Safe workersMove (fun _ _ => True) Q
      (program (.openBinary path loading)) system.state := by
    refine (safe_openBinary hmoment.standing onDecodeStarted path loading).mono
      (fun _ _ _ => trivial) ?_
    intro result world hend
    cases hend with
    | failed hload hsince =>
        refine ⟨⟨_, Standing.setStatus hsince.standing _⟩, fun _ => ⟨?_, hsince.progress.view⟩⟩
        rw [World.setStatus, hsince.progress.session]
    | thrown hsince =>
        refine ⟨⟨_, hsince.standing⟩, fun _ => ⟨?_, hsince.progress.view⟩⟩
        rw [hsince.progress.session]
    | opened hload hformat hadopting =>
        exact ⟨⟨_, Standing.setStatus hadopting.standing _⟩, fun hnot => absurd rfl hnot⟩
  refine (ended_of_run hsafe ?_ hopen hended hpast).2 hresult
  rintro result s t ⟨⟨n, hstanding⟩, hframe⟩ ⟨surroundings, i, hstep⟩
  obtain ⟨hlater, hprogress⟩ := hstanding.moves hstep
  refine ⟨⟨n, hlater⟩, fun hnot => ?_⟩
  rw [hprogress.session, hprogress.view]
  exact hframe hnot

/-- The view invariant of the GUI session, over every order of its operations and the
workers' steps. -/
theorem guiSession_view (hrun : ReflTransGen GuiStep (.start { view := {} }) system) :
    (system.label = none → ComesFrom (lastOpened system.past) system.state) ∧
    (∀ label, system.label = some label → ∃ call thread, system.active = some (call, thread) ∧
      During nothing system.history call system.state) ∧
    (system.label = none → ∀ path loading later result,
      ReflTransGen GuiStep
        (system.enter (.openBinary path loading) (program (.openBinary path loading))) later →
      later.label = none → result ≠ .ok true →
      later.past = (.openBinary path loading, result) :: system.past →
        later.state.session =
          { system.state.session with status := later.state.session.status } ∧
        later.state.view = system.state.view) ∧
    (system.label = none → system.state.view.shownRows ≤ system.state.readyInstructions ∧
      (justOpened system.past = true → system.state.view.shownRows = 0) ∧
      ∀ i, SessionRowsSafe system.state i) ∧
    (system.label = none → ∀ later, ReflTransGen GuiStep system later → later.label = none →
      later.state.session.decodeGeneration = system.state.session.decodeGeneration →
        system.state.view.shownRows ≤ later.state.view.shownRows) ∧
    (∀ snapshot ∈ system.state.view.snapshots,
      SnapshotSound system.state snapshot ∧ ∀ i, SnapshotRowsSafe system.state snapshot i) ∧
    (system.label = none → ∀ later, ReflTransGen GuiStep system later →
      system.state.view.snapshots ⊆ later.state.view.snapshots) := by
  have hholds := holds_reachable hrun
  refine ⟨fun hlabel => (hholds.idle hlabel).moment.origin, fun _ => hholds.underWay,
    fun hlabel path loading later result hopen hended hresult hpast =>
      failing_open hrun hlabel hopen hended hresult hpast, ?_, ?_, ?_, ?_⟩
  · intro hlabel
    obtain ⟨hmoment, hnone⟩ := hholds.idle hlabel
    exact ⟨hmoment.shown_le, hnone, hmoment.sessionRowsSafe⟩
  · intro hlabel later hlater hended hgeneration
    have hmoment := ((holds_run (holds_since hrun hlabel) hlater).idle hended).moment
    exact hmoment.rows_kept (hmoment.standing.generation.symm.trans hgeneration)
  · intro snapshot hmem
    cases hlabel : system.label with
    | none =>
        have hmoment := (hholds.idle hlabel).moment
        have hsound := hmoment.snapshots snapshot hmem
        exact ⟨hsound, snapshotRowsSafe hmoment.standing hsound⟩
    | some label =>
        obtain ⟨call, thread, -, hduring⟩ := hholds.underWay hlabel
        obtain ⟨stage, hstanding⟩ := hduring.standing
        have hsound := hduring.snapshots snapshot hmem
        exact ⟨hsound, snapshotRowsSafe hstanding hsound⟩
  · intro hlabel later hlater
    have hlaterHolds := holds_run (holds_since hrun hlabel) hlater
    cases hended : later.label with
    | none => exact (hlaterHolds.idle hended).moment.snapshots_kept
    | some label =>
        obtain ⟨call, thread, -, hduring⟩ := hlaterHolds.underWay hended
        exact hduring.snapshots_kept

end Runs

/-- Opens a file, shows its one row while the worker is at work, and pins it. -/
def browsing : List (Turn (Surroundings × Nat) GuiCall) :=
  [.call (.openBinary "nop" nopElf)] ++ List.replicate 10 .statement ++
    List.replicate 10 (.environment ({}, 0)) ++
    [.call (.refresh fun _ => false)] ++ List.replicate 3 .statement ++
    [.call .snapshot, .statement]

def browsed : Option GuiSystem :=
  (System.start { view := {} }).play
    (fun (move : Surroundings × Nat) _ world => workerStep move.1 move.2 world)
    (fun _ _ _ => true) program browsing

theorem guiSession_view_browsed :
    ∃ system, browsed = some system ∧ rowCount system.state = 1 ∧
      1 ≤ system.state.readyInstructions ∧ SessionRowsSafe system.state 0 := by
  have hseen : browsed.map (fun system => (system.label, rowCount system.state,
      system.state.view.shownRows)) = some (none, 1, 1) := by
    decide +kernel
  obtain ⟨system, hplayed, hsystem⟩ := Option.map_eq_some_iff.mp hseen
  simp only [Prod.mk.injEq] at hsystem
  obtain ⟨hlabel, hrows, hshown⟩ := hsystem
  have hrun : ReflTransGen GuiStep (.start { view := {} }) system :=
    run_of_play (fun move _ _ _ hmove => ⟨move.1, move.2, hmove⟩) (fun _ _ _ _ => trivial) hplayed
  obtain ⟨-, -, -, hidle, -⟩ := guiSession_view hrun
  obtain ⟨hready, -, hsafe⟩ := hidle hlabel
  rw [hshown] at hready
  exact ⟨system, hplayed, hrows, hready, hsafe 0⟩

end Voidwalk.GuiViewInvariant

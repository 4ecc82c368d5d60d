import Voidwalk.HeaderParsing
import Voidwalk.OpenStages
import Voidwalk.TuiSession

/-!
The terminal interface shows the whole decode once it stops redrawing: a frame that
counts as final has seen the worker stopped before it took any other sample.
-/

namespace Voidwalk.TuiFrames

open Voidwalk.Library.InterleavedThread
open Voidwalk.MappedFile
open Voidwalk.Disassembly
open Voidwalk.FileTypeDetection
open Voidwalk.HeaderParsing (nopElf)
open Voidwalk.AnalysisSession
open Voidwalk.SessionStanding
open Voidwalk.OpenStages
open Voidwalk.FrontendRows
open Voidwalk.TuiSession
open Relation (ReflTransGen)

def allSymbols (world : World TuiView) : List SymbolInfo :=
  if 0 < world.readyInstructions then
    match world.currentSpace, world.currentDisassembler with
    | some space, some disassembler =>
        (symbolsOf (fun _ => false) space disassembler world.readyInstructions).1
    | _, _ => []
  else []

def finalBanner (world : World TuiView) : String :=
  if 0 < world.readyInstructions then
    if world.decodeNote = "" then "" else "Decode stopped: " ++ world.decodeNote
  else if world.decodeNote = "" then stubNotice world else world.decodeNote

/-- The published rows, or the fallback where there are none. -/
def ShowsRows (world : World TuiView) : Prop :=
  if 0 < world.readyInstructions then
    world.view.real = true ∧ world.view.shown = world.readyInstructions
  else world.view.real = false ∧ world.view.fallback = (buildFallback (fun _ => false) world).1

/-- The decode has ended and everything about it is shown. -/
structure ShowsWholeDecode (world : World TuiView) : Prop where
  finished : ∀ (t : Nat) (worker : Worker), world.workers[t]? = some worker →
    worker.phase = .finished
  rows : ShowsRows world
  symbolsGen : world.view.symbolsGen = some world.session.decodeGeneration
  symbols : world.view.symbols = allSymbols world
  banner : world.view.banner = finalBanner world

section Complete

variable {unreadable : UInt64 → Bool}

theorem scanSections_of_complete {space : AddressSpace} (sections : List SectionInfo)
    (h : (scanSections unreadable space sections).2 = none) :
    scanSections (fun _ => false) space sections = scanSections unreadable space sections := by
  induction sections with
  | nil => rfl
  | cons sec later ih =>
      simp only [scanSections] at h ⊢
      split_ifs at h ⊢
      · exact ih h
      · cases hraw : bytes unreadable space sec.offset (atMost sec.size kMaxScan) with
        | error exception =>
            rw [hraw] at h
            contradiction
        | ok raw =>
            rw [hraw] at h
            rw [bytes_of_ok hraw]
            dsimp only at h ⊢
            rw [ih h]

theorem symbolsOf_of_complete {space : AddressSpace} {disassembler : Disassembler} {shown : Nat}
    (h : (symbolsOf unreadable space disassembler shown).2 = none) :
    symbolsOf (fun _ => false) space disassembler shown =
      symbolsOf unreadable space disassembler shown := by
  simp only [symbolsOf] at h ⊢
  cases htargets : callTargets disassembler shown with
  | error exception => rfl
  | ok targets =>
      rw [htargets] at h
      dsimp only at h ⊢
      rw [scanSections_of_complete _ h]

/-- A scan over all rows that has not thrown finds all symbols. -/
theorem collectSymbols_eq {world : World TuiView} (hrows : ShowsRows world)
    (h : (collectSymbols unreadable world).2 = none) :
    (collectSymbols unreadable world).1 = allSymbols world := by
  rw [ShowsRows] at hrows
  rw [collectSymbols] at h ⊢
  rw [allSymbols]
  split_ifs at hrows with hready
  · obtain ⟨hreal, hshown⟩ := hrows
    rw [if_pos hreal, hshown] at h ⊢
    rw [if_pos hready]
    cases hspace : world.currentSpace with
    | none => rfl
    | some space =>
        cases hdisassembler : world.currentDisassembler with
        | none => rfl
        | some disassembler =>
            rw [hspace, hdisassembler] at h
            exact congrArg Prod.fst (symbolsOf_of_complete h).symm
  · rw [hrows.1, if_neg hready]
    rfl

end Complete

/-- The symbols of a generation are those of all its rows once it counts as scanned. -/
structure Scanned (world : World TuiView) : Prop where
  standing : ∃ n, Standing (settled n) world
  symbols_le : ∀ generation, world.view.symbolsGen = some generation →
    generation ≤ world.session.decodeGeneration
  collected : world.view.symbolsGen = some world.session.decodeGeneration →
    world.isDecoding = false ∧ world.view.symbols = allSymbols world

structure Stale (world : World TuiView) : Prop where
  scanned : Scanned world
  refreshed_lt : world.view.refreshedGen < world.session.decodeGeneration

structure Quiet (world : World TuiView) : Prop where
  scanned : Scanned world
  refreshed_le : world.view.refreshedGen ≤ world.session.decodeGeneration
  drawn : world.view.refreshedGen = world.session.decodeGeneration → world.loaded = true →
    world.isDecoding = false ∧ ShowsWholeDecode world

section Assertions

variable {world later : World TuiView} {label : Option (Statement TuiStatement)}

theorem Scanned.still (h : Scanned world) (hdone : world.isDecoding = false) :
    ¬ workersMove label world later := by
  obtain ⟨n, hstanding⟩ := h.standing
  exact hstanding.still_of_not_decoding hdone

theorem Scanned.moves (h : Scanned world) (hmoved : workersMove label world later) :
    Scanned later ∧ later.session = world.session ∧ later.view = world.view := by
  obtain ⟨n, hstanding⟩ := h.standing
  have ⟨surroundings, t, hstep⟩ := hmoved
  obtain ⟨hlater, hprogress⟩ := hstanding.moves hstep
  refine ⟨⟨⟨n, hlater⟩, ?_, ?_⟩, hprogress.session, hprogress.view⟩
  · rw [hprogress.view, hprogress.session]
    exact h.symbols_le
  · rw [hprogress.view, hprogress.session]
    exact fun hscanned => absurd hmoved (h.still (h.collected hscanned).1)

theorem Scanned.mapView (h : Scanned world) {change : TuiView → TuiView}
    (hgeneration : (change world.view).symbolsGen = world.view.symbolsGen)
    (hsymbols : world.view.symbolsGen = some world.session.decodeGeneration →
      (change world.view).symbols = world.view.symbols) : Scanned (world.mapView change) := by
  obtain ⟨n, hstanding⟩ := h.standing
  refine ⟨⟨n, Standing.mapView hstanding change⟩, fun generation hscanned => ?_,
    fun hscanned => ?_⟩
  · exact h.symbols_le generation (hgeneration.symm.trans hscanned)
  · have hscanned := hgeneration.symm.trans hscanned
    obtain ⟨hdone, hall⟩ := h.collected hscanned
    exact ⟨hdone, (hsymbols hscanned).trans hall⟩

theorem Stale.moves (h : Stale world) (hmoved : workersMove label world later) :
    Stale later ∧ later.view = world.view := by
  obtain ⟨hscanned, hsession, hview⟩ := h.scanned.moves hmoved
  refine ⟨⟨hscanned, ?_⟩, hview⟩
  rw [hsession, hview]
  exact h.refreshed_lt

theorem Stale.mapView (h : Stale world) {change : TuiView → TuiView}
    (hgeneration : (change world.view).symbolsGen = world.view.symbolsGen)
    (hsymbols : world.view.symbolsGen = some world.session.decodeGeneration →
      (change world.view).symbols = world.view.symbols)
    (hrefreshed : (change world.view).refreshedGen = world.view.refreshedGen) :
    Stale (world.mapView change) := by
  refine ⟨h.scanned.mapView hgeneration hsymbols, ?_⟩
  change (change world.view).refreshedGen < _
  rw [hrefreshed]
  exact h.refreshed_lt

theorem Stale.loaded (h : Stale world) : world.loaded = true := by
  obtain ⟨n, hstanding⟩ := h.scanned.standing
  refine hstanding.loaded_iff.mpr ?_
  rintro rfl
  have hlt := h.refreshed_lt
  rw [hstanding.generation] at hlt
  exact Nat.not_lt_zero _ hlt

theorem Stale.quiet (h : Stale world) : Quiet world :=
  ⟨h.scanned, h.refreshed_lt.le, fun hdrawn => absurd hdrawn h.refreshed_lt.ne⟩

theorem Quiet.moves (h : Quiet world) (hmoved : workersMove label world later) : Quiet later := by
  obtain ⟨hscanned, hsession, hview⟩ := h.scanned.moves hmoved
  refine ⟨hscanned, ?_, fun hdrawn hloaded => ?_⟩
  · rw [hsession, hview]
    exact h.refreshed_le
  · rw [hsession, hview] at hdrawn
    rw [World.loaded, hsession] at hloaded
    exact absurd hmoved (h.scanned.still (h.drawn hdrawn hloaded).1)

end Assertions

section Calls

variable {α : Type} {world : World TuiView} {unreadable : UInt64 → Bool}

/-- Behind the end of the decode nothing moves between two statements. -/
theorem safe_update_done {Q : Except Thrown α → World TuiView → Prop} (h : Scanned world)
    (hdone : world.isDecoding = false) {label : Statement TuiStatement}
    {effect : World TuiView → World TuiView} {value : World TuiView → Except Thrown α}
    (hQ : Q (value world) (effect world)) :
    Safe workersMove (fun _ _ => True) Q (.update label effect value) world :=
  .update_of_still (fun _ => h.still hdone) trivial hQ

theorem safe_decodeNote_done {Q : Except Thrown String → World TuiView → Prop} (h : Scanned world)
    (hdone : world.isDecoding = false) (hQ : Q (.ok world.decodeNote) world) :
    Safe workersMove (fun _ _ => True) Q (decodeNote (F := TuiStatement)) world := by
  refine .bind (safe_update_done h hdone ?_)
  dsimp only
  rw [hdone]
  refine safe_update_done h hdone ?_
  rw [World.decodeNote, hdone] at hQ
  exact hQ

/-- What the first half of a refresh leaves behind the end of the decode. -/
structure Sampled (world : World TuiView) : Prop where
  stale : Stale world
  done : world.isDecoding = false
  rows : ShowsRows world
  banner : world.view.banner = finalBanner world

theorem Sampled.finished (h : Sampled world) (t : Nat) (worker : Worker)
    (hworker : world.workers[t]? = some worker) : worker.phase = .finished := by
  obtain ⟨n, hstanding⟩ := h.stale.scanned.standing
  exact hstanding.finished_of_not_decoding h.done t worker hworker

theorem sampled_exposeRows (h : Stale world) (hdone : world.isDecoding = false)
    (hbanner : world.view.banner = "") (hready : 0 < world.readyInstructions) :
    Sampled (world.mapView (exposeRows world.readyInstructions world.decodeNote)) := by
  refine ⟨h.mapView rfl (fun _ => rfl) rfl, hdone, ?_, ?_⟩
  · rw [ShowsRows]
    change if 0 < world.readyInstructions then _ else _
    rw [if_pos hready]
    exact ⟨rfl, rfl⟩
  · change _ = finalBanner world
    rw [finalBanner, if_pos hready]
    change (if world.decodeNote = "" then world.view.banner else _) = _
    rw [hbanner]

theorem sampled_fallback (h : Stale world) (hdone : world.isDecoding = false)
    (hready : world.readyInstructions = 0) (hcomplete : (buildFallback unreadable world).2 = none) :
    Sampled (showNotice world.decodeNote (showFallback unreadable world)) := by
  have hfallback : Stale (showFallback unreadable world) := h.mapView rfl (fun _ => rfl) rfl
  refine ⟨hfallback.mapView rfl (fun _ => rfl) rfl, hdone, ?_, ?_⟩
  · rw [ShowsRows]
    change if 0 < world.readyInstructions then _ else _
    rw [hready]
    exact ⟨rfl, buildFallback_of_complete hcomplete⟩
  · change _ = finalBanner world
    rw [finalBanner, hready]
    rfl

theorem safe_showSampled {Q : Except Thrown Unit → World TuiView → Prop} (h : Stale world)
    (hdone : world.isDecoding = false) (hbanner : world.view.banner = "")
    (hok : ∀ s, Sampled s → Q (.ok ()) s)
    (herror : ∀ exception s, Stale s → Q (.error exception) s) :
    Safe workersMove (fun _ _ => True) Q
      (showSampled unreadable false world.readyInstructions world.decodeNote) world := by
  rw [showSampled]
  split_ifs with hready hdecoding
  · exact safe_update_done h.scanned hdone (hok _ (sampled_exposeRows h hdone hbanner hready))
  · contradiction
  · have hnone : world.readyInstructions = 0 := Nat.eq_zero_of_not_pos hready
    have hfallback : Stale (showFallback unreadable world) := h.mapView rfl (fun _ => rfl) rfl
    refine .bind (safe_update_done h.scanned hdone ?_)
    cases hthrown : (buildFallback unreadable world).2 with
    | some exception => exact herror exception _ hfallback
    | none =>
        exact safe_update_done hfallback.scanned hdone
          (hok _ (sampled_fallback h hdone hnone hthrown))

theorem showsWholeDecode_of_sampled (h : Sampled world)
    (hgeneration : world.view.symbolsGen = some world.session.decodeGeneration) :
    ShowsWholeDecode world :=
  ⟨h.finished, h.rows, hgeneration, (h.stale.scanned.collected hgeneration).2, h.banner⟩

theorem safe_scanOnce {Q : Except Thrown Unit → World TuiView → Prop} (h : Sampled world)
    (hok : ∀ s, Stale s → s.isDecoding = false → ShowsWholeDecode s → Q (.ok ()) s)
    (herror : ∀ exception s, Stale s → Q (.error exception) s) :
    Safe workersMove (fun _ _ => True) Q (scanOnce unreadable false) world := by
  have hscanned := h.stale.scanned
  refine .bind (safe_update_done hscanned h.done ?_)
  dsimp only
  split_ifs with hgeneration
  · have hgeneration := eq_of_beq hgeneration
    exact hok world h.stale h.done (showsWholeDecode_of_sampled h hgeneration)
  · have hgeneration : world.view.symbolsGen ≠ some world.session.decodeGeneration := by
      simpa using hgeneration
    refine .bind (safe_update_done hscanned h.done ?_)
    have hcollected : Stale (world.mapView fun view =>
        { view with symbols := (collectSymbols unreadable world).1 }) :=
      h.stale.mapView rfl (fun hsame => absurd hsame hgeneration) rfl
    cases hthrown : (collectSymbols unreadable world).2 with
    | some exception => exact herror exception _ hcollected
    | none =>
        have hall := collectSymbols_eq h.rows hthrown
        refine safe_update_done hcollected.scanned h.done (hok _ ?_ h.done ?_)
        · obtain ⟨n, hstanding⟩ := hcollected.scanned.standing
          refine ⟨⟨⟨n, Standing.mapView hstanding _⟩, ?_, fun _ => ⟨h.done, hall⟩⟩,
            h.stale.refreshed_lt⟩
          rintro generation hsame
          exact (Option.some.inj hsame).ge
        · exact ⟨h.finished, h.rows, rfl, hall, h.banner⟩

structure Later (start world : World TuiView) : Prop where
  stale : Stale world
  done : start.isDecoding = false → world.isDecoding = false

theorem Later.moves {start later : World TuiView} {label : Option (Statement TuiStatement)}
    (h : Later start world) (hmoved : workersMove label world later) : Later start later :=
  ⟨(h.stale.moves hmoved).1, fun hdone => absurd hmoved (h.stale.scanned.still (h.done hdone))⟩

structure Cleared (start world : World TuiView) : Prop extends Later start world where
  banner : world.view.banner = ""

theorem Cleared.moves {start later : World TuiView} {label : Option (Statement TuiStatement)}
    (h : Cleared start world) (hmoved : workersMove label world later) : Cleared start later :=
  ⟨h.toLater.moves hmoved, (h.stale.moves hmoved).2.symm ▸ h.banner⟩

/-- While the decode runs a refresh may show a part of the rows, and scans nothing. -/
theorem safe_refresh_decoding {Q : Except Thrown Unit → World TuiView → Prop} (h : Stale world)
    (ready : Nat) (note : String) (hok : ∀ s, Stale s → Q (.ok ()) s) :
    Safe workersMove (fun _ _ => True) Q
      (do showSampled unreadable true ready note; scanOnce unreadable true) world := by
  have hmoves : ∀ label s t, Stale s → workersMove label s t → Stale t :=
    fun _ _ _ hs hmoved => (hs.moves hmoved).1
  refine .bind ?_
  rw [showSampled]
  split_ifs with hready hdecoding
  · exact .perform Stale h (hmoves _) (fun _ _ => trivial) fun s hs =>
      hok _ (hs.mapView rfl (fun _ => rfl) rfl)
  · exact .perform Stale h (hmoves _) (fun _ _ => trivial) fun s hs =>
      hok _ (hs.mapView rfl (fun _ => rfl) rfl)
  · exact absurd rfl hdecoding

/-- A refresh that begins behind the end of the decode shows the whole decode. -/
theorem safe_refresh {Q : Except Thrown Unit → World TuiView → Prop} (h : Stale world)
    (hwhole : ∀ s, Stale s → s.isDecoding = false → ShowsWholeDecode s → Q (.ok ()) s)
    (hpart : world.isDecoding = true → ∀ s, Stale s → Q (.ok ()) s)
    (herror : ∀ exception s, Stale s → Q (.error exception) s) :
    Safe workersMove (fun _ _ => True) Q (refresh unreadable) world := by
  have hbegins : Later world world := ⟨h, id⟩
  refine .bind (safe_throwIfFileChanged (Later world) hbegins (fun _ _ _ hs => hs.moves)
    (fun _ _ _ _ => trivial) (fun s hs => ?_) fun exception s hs => herror exception s hs.stale)
  refine .bind (.perform (Later world) hs (fun _ _ hs => hs.moves) (fun _ _ => trivial)
    fun s hs => ?_)
  have hs : Cleared world (s.mapView fun view => { view with banner := "" }) :=
    ⟨⟨hs.stale.mapView rfl (fun _ => rfl) rfl, hs.done⟩, rfl⟩
  refine .bind (.read (Cleared world) hs (fun _ _ hs => hs.moves) (fun _ _ => trivial)
    fun s hs => ?_)
  dsimp only
  rw [hs.stale.loaded]
  refine .bind (.read (Cleared world) hs (fun _ _ hs => hs.moves) (fun _ _ => trivial)
    fun s hs => ?_)
  dsimp only
  have hstale := hs.stale
  cases hdecoding : s.isDecoding with
  | true =>
      have hstarted : world.isDecoding = true := by
        by_contra hdone
        rw [hs.done (by simpa using hdone)] at hdecoding
        contradiction
      refine .bind (.read Stale hstale (fun _ _ hs hmoved => (hs.moves hmoved).1)
        (fun _ _ => trivial) fun s hs => ?_)
      exact safe_refresh_decoding hs _ _ (hpart hstarted)
  | false =>
      refine .bind (safe_update_done hstale.scanned hdecoding ?_)
      refine .bind (safe_decodeNote_done hstale.scanned hdecoding ?_)
      refine .bind (safe_showSampled hstale hdecoding hs.banner (fun s hsampled => ?_) herror)
      exact safe_scanOnce hsampled hwhole herror

theorem Quiet.setStatus (h : Quiet world) (status : String) : Quiet (world.setStatus status) := by
  obtain ⟨n, hstanding⟩ := h.scanned.standing
  refine ⟨⟨⟨n, Standing.setStatus hstanding status⟩, h.scanned.symbols_le, h.scanned.collected⟩,
    h.refreshed_le, fun hdrawn hloaded => ?_⟩
  obtain ⟨hdone, hshown⟩ := h.drawn hdrawn hloaded
  exact ⟨hdone, hshown.finished, hshown.rows, hshown.symbolsGen, hshown.symbols, hshown.banner⟩

end Calls

structure Summary where
  label : Option (Statement TuiStatement)
  loaded : Bool
  refreshedGen : Nat
  decodeGeneration : Nat
  ready : Nat
  deriving DecidableEq

def summary (system : TuiSystem) : Summary where
  label := system.label
  loaded := system.state.loaded
  refreshedGen := system.state.view.refreshedGen
  decodeGeneration := system.state.session.decodeGeneration
  ready := system.state.readyInstructions

end Voidwalk.TuiFrames

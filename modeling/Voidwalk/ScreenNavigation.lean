import Voidwalk.ScreenStanding

/-!
The ways around the screen: `Tab` walks the stops of all panes as one ring, and wherever the
screen is, a few keys lead to every command of its menus.
-/

namespace Voidwalk.ScreenNavigation

open Voidwalk.SymbolSidebar
open Voidwalk.MemoryView
open Voidwalk.OpenDialog
open Voidwalk.TuiScreen
open Voidwalk.ScreenStanding
open Voidwalk.Library.Rings

section Plain

variable {S : Type}

/-- A screen whose keys go to the shortcuts. -/
structure Plain (ops : Surroundings S) (state : State S) : Prop where
  dialog : state.view.showOpen = false
  menu : state.view.menuOpen = none
  goto : state.view.gotoActive = false
  pane : state.capturingPane ops = none

theorem onEvent_plain {ops : Surroundings S} {state : State S} (h : Plain ops state) {e : Key}
    (he : e ≠ .Custom) : state.onEvent ops e = state.onPlainEvent ops e := by
  rw [State.onEvent.eq_def, if_neg he, if_neg (by simp [h.dialog]), h.menu]
  dsimp only
  rw [if_neg (by simp [h.goto]), h.pane]

theorem perform_plain {ops : Surroundings S} {state : State S} (h : Plain ops state) {e : Key}
    (he : e ≠ .Custom) :
    state.perform ops (.key e) = (state.onPlainEvent ops e).map fun outcome => outcome.2 := by
  rw [State.perform, onEvent_plain h he]

end Plain

section Tabs

variable {S : Type}

/-- What a pane's stop does not change. -/
structure Unmoved (ops : Surroundings S) (rest later : S) : Prop where
  loaded : ops.loaded later = ops.loaded rest
  capturing : ∀ pane, ops.capturing pane later = ops.capturing pane rest

/-- `tab()` moves one stop in a direction and returns false at the edge, so that the focus leaves
the pane; `enter()` picks the first or the last stop when the focus arrives. -/
structure Stops (ops : Surroundings S) (count : Pane → Nat) (stop : Pane → S → Nat) : Prop where
  stop_lt : ∀ pane rest, stop pane rest < count pane
  forward : ∀ pane rest, stop pane rest + 1 < count pane →
    ∃ later, ops.tab pane .forward rest = (true, later) ∧
      stop pane later = stop pane rest + 1 ∧ Unmoved ops rest later
  forward_edge : ∀ pane rest, stop pane rest + 1 = count pane →
    ops.tab pane .forward rest = (false, rest)
  backward : ∀ pane rest, 0 < stop pane rest →
    ∃ later, ops.tab pane .backward rest = (true, later) ∧
      stop pane later = stop pane rest - 1 ∧ Unmoved ops rest later
  backward_edge : ∀ pane rest, stop pane rest = 0 → ops.tab pane .backward rest = (false, rest)
  enter_forward : ∀ pane rest, stop pane (ops.enter pane .forward rest) = 0
  enter_backward : ∀ pane rest, stop pane (ops.enter pane .backward rest) = count pane - 1
  enter_unmoved : ∀ pane direction rest, Unmoved ops rest (ops.enter pane direction rest)

/-- How many stops a place has, the bars among them. -/
def countOf (view : AppView) (count : Pane → Nat) (focus : Focus) : Nat :=
  ((view.paneFor focus).map count).getD 1

/-- The place and the stop that have the focus. -/
def stopOf (stop : Pane → S → Nat) (state : State S) : Nat :=
  (state.view.focusedPane.map fun pane => stop pane state.rest).getD 0

def tabKey : Direction → Key
  | .forward => .Tab
  | .backward => .TabReverse

/-- The ring of all stops on the screen. -/
def ring (ops : Surroundings S) (count : Pane → Nat) (state : State S) : List (Focus × Nat) :=
  places (state.view.focusOrder (ops.loaded state.rest)) (countOf state.view count)

theorem focusOrder_nodup (view : AppView) (loaded : Bool) : (view.focusOrder loaded).Nodup := by
  rw [AppView.focusOrder]
  cases loaded <;> cases view.sidebarOn <;> cases view.regsOn <;> cases view.stackOn <;>
    cases view.memoryOn <;> decide

variable {ops : Surroundings S} {count : Pane → Nat} {stop : Pane → S → Nat} {state : State S}

theorem countOf_pos (h : Stops ops count stop) (rest : S) (view : AppView) (focus : Focus) :
    0 < countOf view count focus := by
  rw [countOf]
  cases view.paneFor focus with
  | none => exact Nat.one_pos
  | some pane => exact Nat.zero_lt_of_lt (h.stop_lt pane rest)

/-- A screen on which nothing takes the keys for itself, with its focus on something drawn. -/
structure Free (ops : Surroundings S) (state : State S) : Prop where
  dialog : state.view.showOpen = false
  menu : state.view.menuOpen = none
  goto : state.view.gotoActive = false
  panes : ∀ pane, ops.capturing pane state.rest = false
  focus : state.view.focus ∈ state.view.focusOrder (ops.loaded state.rest)

theorem Free.plain (h : Free ops state) : Plain ops state := by
  refine ⟨h.dialog, h.menu, h.goto, ?_⟩
  rw [State.capturingPane, Option.filter_eq_none_iff]
  intro pane _
  rw [h.panes pane]
  exact Bool.false_ne_true

theorem perform_tab (h : Free ops state) (direction : Direction) :
    state.perform ops (.key (tabKey direction)) = state.cycleFocus ops direction := by
  have hmap (step : Except Fault (State S)) :
      (step.map fun later => (true, later)).map (fun outcome => outcome.2) = step := by
    cases step <;> rfl
  rw [perform_plain h.plain (by cases direction <;> decide)]
  cases direction with
  | forward => exact hmap _
  | backward => exact hmap _

/-- The index behind one in a direction. -/
def behind (direction : Direction) (i n : Nat) : Nat :=
  match direction with
  | .forward => (i + 1) % n
  | .backward => (i + n - 1) % n

/-- The stop behind one in a direction. -/
def neighbour (direction : Direction) (order : List Focus) (count : Focus → Nat) (focus : Focus)
    (k : Nat) : Option (Focus × Nat) :=
  match direction with
  | .forward => nextPlace order count focus k
  | .backward => prevPlace order count focus k

/-- The stop at which a place is entered. -/
def entry (direction : Direction) (count : Nat) : Nat :=
  match direction with
  | .forward => 0
  | .backward => count - 1

theorem nextFocus_eq {view : AppView} {loaded : Bool}
    (hfocus : view.focus ∈ view.focusOrder loaded) (direction : Direction) :
    ∃ focus ∈ view.focusOrder loaded, view.nextFocus loaded direction = .ok focus ∧
      (view.focusOrder loaded)[behind direction ((view.focusOrder loaded).idxOf view.focus)
        (view.focusOrder loaded).length]? = some focus := by
  obtain ⟨focus, hmem, hnext⟩ := nextFocus_mem view loaded direction
  refine ⟨focus, hmem, hnext, ?_⟩
  rw [AppView.nextFocus.eq_def] at hnext
  dsimp only at hnext
  rw [if_pos (List.idxOf_lt_length_iff.mpr hfocus)] at hnext
  rw [behind.eq_def]
  split at hnext
  · contradiction
  · rename_i hplace
    rw [← Except.ok.inj hnext]
    exact hplace

/-- The stops are those of the screen before. -/
structure SameRing (ops : Surroundings S) (state later : State S) : Prop where
  view : later.view = { state.view with focus := later.view.focus }
  loaded : ops.loaded later.rest = ops.loaded state.rest

theorem ring_eq (h : SameRing ops state later) (count : Pane → Nat) :
    ring ops count later = ring ops count state := by
  rw [ring, ring, h.loaded, h.view]
  rfl

theorem Free.moved {later : State S} (h : Free ops state) (hsame : SameRing ops state later)
    (hcapturing : ∀ pane, ops.capturing pane later.rest = ops.capturing pane state.rest)
    (hfocus : later.view.focus ∈ state.view.focusOrder (ops.loaded state.rest)) :
    Free ops later := by
  refine ⟨?_, ?_, ?_, fun pane => (hcapturing pane).trans (h.panes pane), ?_⟩
  · rw [hsame.view]
    exact h.dialog
  · rw [hsame.view]
    exact h.menu
  · rw [hsame.view]
    exact h.goto
  · rw [hsame.loaded, hsame.view]
    exact hfocus

/-- One press. -/
structure Press (ops : Surroundings S) (count : Pane → Nat) (stop : Pane → S → Nat)
    (state : State S) (direction : Direction) (later : State S) : Prop where
  cycled : state.cycleFocus ops direction = .ok later
  free : Free ops later
  same : SameRing ops state later
  place : neighbour direction (state.view.focusOrder (ops.loaded state.rest))
    (countOf state.view count) state.view.focus (stopOf stop state) =
      some (later.view.focus, stopOf stop later)

/-- A press that leaves the focused place. -/
theorem press_leaving (hstops : Stops ops count stop) (h : Free ops state) {direction : Direction}
    (htabbed : state.tabbed ops direction = (false, state.rest))
    (hedge : ∀ focus, (state.view.focusOrder (ops.loaded state.rest))[behind direction
        ((state.view.focusOrder (ops.loaded state.rest)).idxOf state.view.focus)
        (state.view.focusOrder (ops.loaded state.rest)).length]? = some focus →
      neighbour direction (state.view.focusOrder (ops.loaded state.rest))
        (countOf state.view count) state.view.focus (stopOf stop state) =
          some (focus, entry direction (countOf state.view count focus))) :
    ∃ later, Press ops count stop state direction later := by
  obtain ⟨focus, hmem, hnext, hplace⟩ := nextFocus_eq h.focus direction
  have hsame : SameRing ops state (state.entered ops direction focus) := by
    refine ⟨rfl, ?_⟩
    rw [State.entered]
    dsimp only
    split
    · exact (hstops.enter_unmoved _ direction state.rest).loaded
    · rfl
  have hcapturing (pane : Pane) : ops.capturing pane (state.entered ops direction focus).rest =
      ops.capturing pane state.rest := by
    rw [State.entered]
    dsimp only
    split
    · exact (hstops.enter_unmoved _ direction state.rest).capturing pane
    · rfl
  refine ⟨state.entered ops direction focus, ?_, h.moved hsame hcapturing hmem, hsame, ?_⟩
  · rw [State.cycleFocus, htabbed]
    dsimp only
    rw [if_neg Bool.false_ne_true, hnext]
    rfl
  · rw [hedge focus hplace]
    congr 2
    -- What the stop is after `enter()`, if a pane is entered at all.
    have hentered (pane : Pane) (hpane : state.view.paneFor focus = some pane) :
        (state.entered ops direction focus).rest = ops.enter pane direction state.rest := by
      rw [State.entered]
      dsimp only [AppView.focusedPane]
      rw [show AppView.paneFor { state.view with focus := focus } focus = some pane from hpane]
    have hfocused : (state.entered ops direction focus).view.focusedPane =
        state.view.paneFor focus := rfl
    rw [countOf, stopOf, hfocused]
    cases hpane : state.view.paneFor focus with
    | none => cases direction <;> rfl
    | some pane =>
        rw [hentered pane hpane, Option.map_some, Option.map_some, Option.getD_some,
          Option.getD_some]
        cases direction with
        | forward => exact (hstops.enter_forward pane state.rest).symm
        | backward => exact (hstops.enter_backward pane state.rest).symm

/-- A press that stays inside the focused pane. -/
theorem press_inside (h : Free ops state) {direction : Direction} {pane : Pane} {rest : S}
    (hpane : state.view.focusedPane = some pane)
    (htab : ops.tab pane direction state.rest = (true, rest))
    (hunmoved : Unmoved ops state.rest rest)
    (hplace : neighbour direction (state.view.focusOrder (ops.loaded state.rest))
      (countOf state.view count) state.view.focus (stop pane state.rest) =
        some (state.view.focus, stop pane rest)) :
    ∃ later, Press ops count stop state direction later := by
  have hsame : SameRing ops state { state with rest := rest } := ⟨rfl, hunmoved.loaded⟩
  have htabbed : state.tabbed ops direction = (true, rest) := by
    rw [State.tabbed, hpane]
    exact htab
  refine ⟨{ state with rest := rest }, ?_, h.moved hsame hunmoved.capturing h.focus, hsame, ?_⟩
  · rw [State.cycleFocus, htabbed]
    rfl
  · rw [stopOf, hpane, Option.map_some, Option.getD_some, hplace, stopOf]
    dsimp only
    rw [hpane, Option.map_some, Option.getD_some]

theorem countOf_focused {pane : Pane} (hpane : state.view.focusedPane = some pane) :
    countOf state.view count state.view.focus = count pane := by
  rw [countOf, show state.view.paneFor state.view.focus = some pane from hpane, Option.map_some,
    Option.getD_some]

/-- `Tab` and `Shift+Tab` go to the stop behind and to the one in front. -/
theorem press_tab (hstops : Stops ops count stop) (h : Free ops state) (direction : Direction) :
    ∃ later, Press ops count stop state direction later := by
  cases hpane : state.view.focusedPane with
  | none =>
      have htabbed : state.tabbed ops direction = (false, state.rest) := by
        rw [State.tabbed, hpane]
      have hstop : stopOf stop state = 0 := by
        rw [stopOf, hpane]
        rfl
      have hcount : countOf state.view count state.view.focus = 1 := by
        rw [countOf, show state.view.paneFor state.view.focus = none from hpane]
        rfl
      apply press_leaving hstops h htabbed
      intro focus hplace
      cases direction with
      | forward =>
          rw [neighbour, nextPlace, hstop, hcount, if_neg (Nat.lt_irrefl 1)]
          exact congrArg (Option.map _) hplace
      | backward =>
          rw [neighbour, prevPlace, hstop, if_neg (Nat.lt_irrefl 0)]
          exact congrArg (Option.map _) hplace
  | some pane =>
      have hcount := @countOf_focused S count state pane hpane
      have hstop : stopOf stop state = stop pane state.rest := by
        rw [stopOf, hpane]
        rfl
      have hedged (hedge : ops.tab pane direction state.rest = (false, state.rest)) :
          state.tabbed ops direction = (false, state.rest) := by
        rw [State.tabbed, hpane]
        exact hedge
      have hlt := hstops.stop_lt pane state.rest
      cases direction with
      | forward =>
          rcases Nat.lt_or_ge (stop pane state.rest + 1) (count pane) with hinside | hedge
          · obtain ⟨rest, htab, hnext, hunmoved⟩ := hstops.forward pane state.rest hinside
            apply press_inside h hpane htab hunmoved
            rw [neighbour, nextPlace, hcount, if_pos hinside, hnext]
          · apply press_leaving hstops h
              (hedged (hstops.forward_edge pane state.rest (by omega)))
            intro focus hplace
            rw [neighbour, nextPlace, hcount, hstop, if_neg (Nat.not_lt.mpr hedge)]
            exact congrArg (Option.map _) hplace
      | backward =>
          rcases Nat.eq_zero_or_pos (stop pane state.rest) with hedge | hinside
          · apply press_leaving hstops h (hedged (hstops.backward_edge pane state.rest hedge))
            intro focus hplace
            rw [neighbour, prevPlace, hstop, hedge, if_neg (Nat.lt_irrefl 0)]
            exact congrArg (Option.map _) hplace
          · obtain ⟨rest, htab, hprev, hunmoved⟩ := hstops.backward pane state.rest hinside
            apply press_inside h hpane htab hunmoved
            rw [neighbour, prevPlace, if_pos hinside, hprev]

/-- How far presses go around. -/
def net : List Direction → Int
  | [] => 0
  | .forward :: presses => 1 + net presses
  | .backward :: presses => -1 + net presses

theorem behind_toNat {n j : Nat} (hj : j < n) (direction : Direction) (presses : List Direction) :
    ((behind direction j n : Int) + net presses) % n =
      ((j : Int) + net (direction :: presses)) % n := by
  cases direction with
  | forward =>
      rw [behind, net, Int.natCast_emod, Int.emod_add_emod]
      push_cast
      rw [Int.add_assoc]
  | backward =>
      rw [behind, net, Int.natCast_emod, Int.emod_add_emod,
        show ((j + n - 1 : Nat) : Int) + net presses = j + (-1 + net presses) + n by omega,
        Int.add_emod_right]

theorem presses_walk (hstops : Stops ops count stop) (presses : List Direction)
    (h : Free ops state) {j : Nat}
    (hj : (ring ops count state)[j]? = some (state.view.focus, stopOf stop state)) :
    ∃ later, (presses.map fun direction => Input.key (tabKey direction)).foldlM
        (State.perform ops) state = .ok later ∧
      SameRing ops state later ∧
      (ring ops count state)[(((j : Int) + net presses) % (ring ops count state).length).toNat]? =
        some (later.view.focus, stopOf stop later) := by
  have hlt : j < (ring ops count state).length := (List.getElem?_eq_some_iff.mp hj).1
  induction presses generalizing state j with
  | nil =>
      refine ⟨state, rfl, ⟨rfl, rfl⟩, ?_⟩
      rw [net, Int.add_zero, Int.emod_eq_of_lt (by omega) (by omega), Int.toNat_natCast]
      exact hj
  | cons direction presses ih =>
      obtain ⟨next, hpress⟩ := press_tab hstops h direction
      have hring := ring_eq hpress.same count
      have hpos : ∀ focus ∈ state.view.focusOrder (ops.loaded state.rest),
          0 < countOf state.view count focus :=
        fun focus _ => countOf_pos hstops state.rest state.view focus
      have hplace : (ring ops count state)[behind direction j (ring ops count state).length]? =
          some (next.view.focus, stopOf stop next) := by
        rw [← hpress.place]
        cases direction with
        | forward => exact (nextPlace_eq (focusOrder_nodup _ _) hpos hj).symm
        | backward => exact (prevPlace_eq (focusOrder_nodup _ _) hpos hj).symm
      have hnextlt := (List.getElem?_eq_some_iff.mp hplace).1
      obtain ⟨later, hlater, hsame, hwalked⟩ :=
        ih hpress.free (hring ▸ hplace) (hring ▸ hnextlt)
      refine ⟨later, ?_, ⟨?_, hsame.loaded.trans hpress.same.loaded⟩, ?_⟩
      · rw [List.map_cons, List.foldlM_cons, perform_tab h, hpress.cycled]
        exact hlater
      · rw [hsame.view, hpress.same.view]
      · rw [hring, behind_toNat hlt] at hwalked
        exact hwalked

theorem stopOf_lt (hstops : Stops ops count stop) (state : State S) :
    stopOf stop state < countOf state.view count state.view.focus := by
  cases hpane : state.view.focusedPane with
  | none =>
      rw [stopOf, hpane, countOf, show state.view.paneFor state.view.focus = none from hpane]
      exact Nat.one_pos
  | some pane =>
      rw [countOf_focused hpane, stopOf, hpane]
      exact hstops.stop_lt pane state.rest

/-- The focus has its place in the ring. -/
theorem exists_place (hstops : Stops ops count stop) (h : Free ops state) :
    ∃ j : Nat, (ring ops count state)[j]? = some (state.view.focus, stopOf stop state) := by
  obtain ⟨front, back, horder⟩ := List.append_of_mem h.focus
  rw [ring, horder]
  exact ⟨_, getElem_places (stopOf_lt hstops state)⟩

end Tabs

section Panes

variable {S : Type}

/-- The panes of the program: the memory pane among whatever else there is, and panes that have
no stops of their own. -/
structure Panes (ops : Surroundings S) (memory : S → MemoryPane) (put : MemoryPane → S → S) :
    Prop where
  memory_put : ∀ pane rest, memory (put pane rest) = pane
  put_memory : ∀ rest, put (memory rest) rest = rest
  tab_memory : ∀ direction rest, ops.tab .Memory direction rest =
    (((memory rest).tab direction).1, put ((memory rest).tab direction).2 rest)
  enter_memory : ∀ direction rest,
    ops.enter .Memory direction rest = put ((memory rest).enter direction) rest
  capturing_memory : ∀ rest, ops.capturing .Memory rest = (memory rest).capturing
  tab_other : ∀ pane ≠ .Memory, ∀ direction rest, ops.tab pane direction rest = (false, rest)
  enter_other : ∀ pane ≠ .Memory, ∀ direction rest, ops.enter pane direction rest = rest
  loaded_put : ∀ pane rest, ops.loaded (put pane rest) = ops.loaded rest
  capturing_put : ∀ other ≠ .Memory, ∀ pane rest,
    ops.capturing other (put pane rest) = ops.capturing other rest

/-- The stops of the memory pane; every other pane is one stop. -/
def stopCount : Pane → Nat
  | .Memory => 3
  | _ => 1

def indexOf : Stop → Nat
  | .Section => 0
  | .Offset => 1
  | .Rows => 2

def stopIn (memory : S → MemoryPane) (pane : Pane) (rest : S) : Nat :=
  if pane = .Memory then indexOf (memory rest).stop else 0

variable {ops : Surroundings S} {memory : S → MemoryPane} {put : MemoryPane → S → S}

theorem Panes.unmoved (h : Panes ops memory put) {pane : MemoryPane} {rest : S}
    (hcapturing : pane.capturing = (memory rest).capturing) :
    Unmoved ops rest (put pane rest) := by
  refine ⟨h.loaded_put pane rest, ?_⟩
  intro other
  by_cases hother : other = .Memory
  · subst hother
    rw [h.capturing_memory, h.capturing_memory, h.memory_put, hcapturing]
  · exact h.capturing_put other hother pane rest

theorem tab_capturing (pane : MemoryPane) (direction : Direction) :
    (pane.tab direction).2.capturing = pane.capturing := by
  rw [MemoryPane.tab.eq_def]
  cases direction with
  | forward =>
      dsimp only
      split <;> rfl
  | backward =>
      dsimp only
      split <;> rfl

/-- `Tab` in the memory pane: its next stop, or none behind the last. -/
theorem tab_forward (pane : MemoryPane) :
    (indexOf pane.stop + 1 < 3 ∧ (pane.tab .forward).1 = true ∧
      indexOf (pane.tab .forward).2.stop = indexOf pane.stop + 1) ∨
    (indexOf pane.stop + 1 = 3 ∧ pane.tab .forward = (false, pane)) := by
  rw [MemoryPane.tab]
  cases pane.stop with
  | Section => exact .inl ⟨by decide, rfl, rfl⟩
  | Offset => exact .inl ⟨by decide, rfl, rfl⟩
  | Rows => exact .inr ⟨rfl, rfl⟩

theorem tab_backward (pane : MemoryPane) :
    (0 < indexOf pane.stop ∧ (pane.tab .backward).1 = true ∧
      indexOf (pane.tab .backward).2.stop = indexOf pane.stop - 1) ∨
    (indexOf pane.stop = 0 ∧ pane.tab .backward = (false, pane)) := by
  rw [MemoryPane.tab]
  cases pane.stop with
  | Section => exact .inr ⟨rfl, rfl⟩
  | Offset => exact .inl ⟨by decide, rfl, rfl⟩
  | Rows => exact .inl ⟨by decide, rfl, rfl⟩

theorem stopIn_memory (h : Panes ops memory put) (pane : MemoryPane) (rest : S) :
    stopIn memory .Memory (put pane rest) = indexOf pane.stop := by
  rw [stopIn, if_pos rfl, h.memory_put]

theorem stopIn_other {pane : Pane} (hpane : pane ≠ .Memory) (rest : S) :
    stopIn memory pane rest = 0 :=
  if_neg hpane

theorem stopCount_other {pane : Pane} (hpane : pane ≠ .Memory) : stopCount pane = 1 := by
  cases pane <;> first | rfl | exact absurd rfl hpane

theorem tab_inside (h : Panes ops memory put) {direction : Direction} {rest : S}
    (htaken : ((memory rest).tab direction).1 = true) :
    ops.tab .Memory direction rest = (true, put ((memory rest).tab direction).2 rest) ∧
      Unmoved ops rest (put ((memory rest).tab direction).2 rest) := by
  rw [h.tab_memory, htaken]
  exact ⟨rfl, h.unmoved (tab_capturing _ _)⟩

theorem tab_edge (h : Panes ops memory put) {direction : Direction} {rest : S}
    (hedge : (memory rest).tab direction = (false, memory rest)) :
    ops.tab .Memory direction rest = (false, rest) := by
  rw [h.tab_memory, hedge, h.put_memory]

theorem stops_of_panes (h : Panes ops memory put) : Stops ops stopCount (stopIn memory) := by
  have hmemory (rest : S) : stopIn memory .Memory rest = indexOf (memory rest).stop := if_pos rfl
  have hcount : stopCount .Memory = 3 := rfl
  refine ⟨fun pane rest => ?_, fun pane rest hinside => ?_, fun pane rest hedge => ?_,
    fun pane rest hinside => ?_, fun pane rest hedge => ?_, fun pane rest => ?_,
    fun pane rest => ?_, fun pane direction rest => ?_⟩
  · rcases eq_or_ne pane .Memory with rfl | hpane
    · rw [hmemory, hcount]
      cases (memory rest).stop <;> decide
    · rw [stopIn_other hpane, stopCount_other hpane]
      exact Nat.one_pos
  · rcases eq_or_ne pane .Memory with rfl | hpane
    · rw [hmemory, hcount] at hinside
      rcases tab_forward (memory rest) with ⟨-, htaken, hnext⟩ | ⟨hedge, -⟩
      · obtain ⟨htab, hunmoved⟩ := tab_inside h htaken
        exact ⟨_, htab, by rw [stopIn_memory h, hnext, hmemory], hunmoved⟩
      · omega
    · rw [stopIn_other hpane, stopCount_other hpane] at hinside
      exact absurd hinside (Nat.lt_irrefl 1)
  · rcases eq_or_ne pane .Memory with rfl | hpane
    · rw [hmemory, hcount] at hedge
      rcases tab_forward (memory rest) with ⟨hinside, -⟩ | ⟨-, htab⟩
      · omega
      · exact tab_edge h htab
    · exact h.tab_other pane hpane .forward rest
  · rcases eq_or_ne pane .Memory with rfl | hpane
    · rw [hmemory] at hinside
      rcases tab_backward (memory rest) with ⟨-, htaken, hprev⟩ | ⟨hedge, -⟩
      · obtain ⟨htab, hunmoved⟩ := tab_inside h htaken
        exact ⟨_, htab, by rw [stopIn_memory h, hprev, hmemory], hunmoved⟩
      · omega
    · rw [stopIn_other hpane] at hinside
      exact absurd hinside (Nat.lt_irrefl 0)
  · rcases eq_or_ne pane .Memory with rfl | hpane
    · rw [hmemory] at hedge
      rcases tab_backward (memory rest) with ⟨hinside, -⟩ | ⟨-, htab⟩
      · omega
      · exact tab_edge h htab
    · exact h.tab_other pane hpane .backward rest
  · rcases eq_or_ne pane .Memory with rfl | hpane
    · rw [h.enter_memory, stopIn_memory h]
      rfl
    · rw [h.enter_other pane hpane]
      exact stopIn_other hpane rest
  · rcases eq_or_ne pane .Memory with rfl | hpane
    · rw [h.enter_memory, stopIn_memory h]
      rfl
    · rw [h.enter_other pane hpane, stopIn_other hpane, stopCount_other hpane]
  · rcases eq_or_ne pane .Memory with rfl | hpane
    · rw [h.enter_memory]
      exact h.unmoved (by cases direction <;> rfl)
    · rw [h.enter_other pane hpane]
      exact ⟨rfl, fun _ => rfl⟩

/-- The stops of the whole screen are one ring: presses of `Tab` and `Shift+Tab`, in whatever
order, move around it, and nothing else of the screen changes. -/
theorem tabs_walk_ring (h : Panes ops memory put) {state : State S} (hfree : Free ops state) :
    ∃ j : Nat, (ring ops stopCount state)[j]? =
        some (state.view.focus, stopOf (stopIn memory) state) ∧
      ∀ presses : List Direction, ∃ later,
        (presses.map fun direction => Input.key (tabKey direction)).foldlM
          (State.perform ops) state = .ok later ∧
        later.view = { state.view with focus := later.view.focus } ∧
        (ring ops stopCount state)[(((j : Int) + net presses) %
          (ring ops stopCount state).length).toNat]? =
            some (later.view.focus, stopOf (stopIn memory) later) := by
  obtain ⟨j, hj⟩ := exists_place (stops_of_panes h) hfree
  refine ⟨j, hj, fun presses => ?_⟩
  obtain ⟨later, hlater, hsame, hplace⟩ := presses_walk (stops_of_panes h) presses hfree hj
  exact ⟨later, hlater, hsame.view, hplace⟩

/-- Surroundings that do nothing. -/
def idle (S : Type) : Surroundings S where
  dash := [0x2D]
  loaded _ := false
  setStatus _ rest := rest
  openFile _ rest := (false, rest)
  refresh rest := rest
  home _ := none
  isRegularFile _ _ := false
  entries _ _ := none
  onEvent _ _ rest := (⟨false, none⟩, rest)
  click _ _ _ rest := (⟨false, none⟩, rest)
  capturing _ _ := false
  tab _ _ rest := (false, rest)
  enter _ _ rest := rest
  navigateTo _ rest := rest
  gotoOffset _ rest := rest
  beginFilter rest := rest

/-- A screen around the list of symbols and the memory pane, with a binary of 64 bytes open. -/
def aroundPanes (feed : Feed) : Surroundings (SymbolsPane × MemoryPane) :=
  { idle (SymbolsPane × MemoryPane) with
    loaded := fun _ => true
    onEvent := fun p e rest =>
      match p with
      | .Symbols =>
          match rest.1.onEvent feed e.event with
          | .ok (reply, symbols) => (reply, symbols, rest.2)
          | .error _ => (⟨false, none⟩, rest)
      | .Memory =>
          match rest.2.onEvent opened e.event with
          | .ok (handled, memory) => (⟨handled, none⟩, rest.1, memory)
          | .error _ => (⟨false, none⟩, rest)
      | _ => (⟨false, none⟩, rest)
    capturing := fun p rest =>
      match p with
      | .Symbols => rest.1.filtering
      | .Memory => rest.2.capturing
      | _ => false
    tab := fun p direction rest =>
      match p with
      | .Memory => ((rest.2.tab direction).1, rest.1, (rest.2.tab direction).2)
      | _ => (false, rest)
    enter := fun p direction rest =>
      match p with
      | .Memory => (rest.1, rest.2.enter direction)
      | _ => rest }

theorem tabs_walk_ring_aroundPanes :
    ∃ j : Nat, (ring (aroundPanes {}) stopCount ⟨{}, {}, {}⟩)[j]? = some (.Disassembly, 0) ∧
      ∀ presses : List Direction, ∃ later,
        (presses.map fun direction => Input.key (tabKey direction)).foldlM
          (State.perform (aroundPanes {})) ⟨{}, {}, {}⟩ = .ok later ∧
        later.view = { ({} : AppView) with focus := later.view.focus } ∧
        (ring (aroundPanes {}) stopCount ⟨{}, {}, {}⟩)[(((j : Int) + net presses) %
          (ring (aroundPanes {}) stopCount ⟨{}, {}, {}⟩).length).toNat]? =
            some (later.view.focus, stopOf (stopIn Prod.snd) later) := by
  have hpanes : Panes (aroundPanes {}) Prod.snd fun pane rest => (rest.1, pane) := by
    refine ⟨fun _ _ => rfl, fun _ => rfl, fun _ _ => rfl, fun _ _ => rfl, fun _ => rfl, ?_, ?_,
      fun _ _ => rfl, ?_⟩
    · intro pane hpane
      cases pane <;> first | exact fun _ _ => rfl | exact absurd rfl hpane
    · intro pane hpane
      cases pane <;> first | exact fun _ _ => rfl | exact absurd rfl hpane
    · intro pane hpane
      cases pane <;> first | exact fun _ _ => rfl | exact absurd rfl hpane
  exact @tabs_walk_ring _ (aroundPanes {}) _ _ hpanes ⟨{}, {}, {}⟩
    ⟨rfl, rfl, rfl, fun pane => by cases pane <;> rfl, by decide⟩

end Panes

section Commands

variable {S : Type} {ops : Surroundings S} {sound : S → Prop} {state : State S}

/-- `Escape` ends whatever a pane is taking the keys for and calls nothing back, as long as the
panes are sound. -/
def Ends (ops : Surroundings S) (sound : S → Prop) : Prop :=
  ∀ pane rest, sound rest → sound (ops.onEvent pane .Escape rest).2 ∧
    (ops.onEvent pane .Escape rest).1.activation = none ∧
    ops.capturing pane (ops.onEvent pane .Escape rest).2 = false

/-- What one `Escape` closes: the dialog, else the menu, else the address, else what a pane is
taking the keys for. -/
structure Closed (ops : Surroundings S) (state later : State S) : Prop where
  dialog : later.view.showOpen = false
  menu : state.view.showOpen = false → later.view.menuOpen = none
  goto : state.view.showOpen = false → state.view.menuOpen = none →
    later.view.gotoActive = false
  pane : state.view.showOpen = false → state.view.menuOpen = none →
    state.view.gotoActive = false → later.capturingPane ops = none

theorem paneEvent_escape (hends : Ends ops sound) (hsound : sound state.rest) (pane : Pane) :
    (state.paneEvent ops pane .Escape).2.view = state.view ∧
      sound (state.paneEvent ops pane .Escape).2.rest ∧
      ops.capturing pane (state.paneEvent ops pane .Escape).2.rest = false := by
  obtain ⟨hlater, hactivation, hcapturing⟩ := hends pane state.rest hsound
  have hevent : (state.paneEvent ops pane .Escape).2 =
      { state with rest := (ops.onEvent pane .Escape state.rest).2 } := by
    show State.activate ops _ (ops.onEvent pane .Escape state.rest).1.activation = _
    rw [hactivation]
    rfl
  rw [hevent]
  exact ⟨rfl, hlater, hcapturing⟩

/-- A screen behind `Escape` that shows the same and whose focused pane takes no keys. -/
structure Escaped (ops : Surroundings S) (sound : S → Prop) (state later : State S) : Prop where
  view : later.view = state.view
  sound : sound later.rest
  pane : later.capturingPane ops = none

theorem escaped_pane (hends : Ends ops sound) (hsound : sound state.rest) {pane : Pane}
    (hpane : state.view.focusedPane = some pane) :
    Escaped ops sound state (state.paneEvent ops pane .Escape).2 := by
  obtain ⟨hview, hlater, hcapturing⟩ := paneEvent_escape hends hsound pane
  refine ⟨hview, hlater, ?_⟩
  rw [State.capturingPane, hview, hpane, Option.filter_some, hcapturing]
  rfl

theorem behindBars_escape (hends : Ends ops sound) (hsound : sound state.rest)
    (hpane : state.capturingPane ops = none) :
    ∃ used later, state.behindBars ops .Escape = .ok (used, later) ∧
      Escaped ops sound state later := by
  have hkeys : ¬(Key.Escape = .CtrlG ∨ Key.Escape = letter 'g') := by decide
  have hslash : ¬(Key.Escape = letter '/' ∧ state.view.sidebarOn = true) :=
    fun hboth => absurd hboth.1 (by decide)
  rw [State.behindBars.eq_def]
  dsimp only
  rw [if_neg hkeys, if_neg hslash]
  split
  · exact ⟨_, _, rfl, rfl, hsound, hpane⟩
  · split
    · rename_i pane hfocused
      exact ⟨_, _, rfl, escaped_pane hends hsound hfocused⟩
    · exact ⟨_, _, rfl, rfl, hsound, hpane⟩

theorem onPlainEvent_escape (hends : Ends ops sound) (hsound : sound state.rest)
    (hpane : state.capturingPane ops = none) :
    ∃ used later, state.onPlainEvent ops .Escape = .ok (used, later) ∧
      Escaped ops sound state later := by
  have hbars : state.onPlainEvent ops .Escape = state.behindBars ops .Escape := by
    show state.onBarsEvent ops .Escape = _
    rw [State.onBarsEvent]
    split
    · rfl
    split
    · rfl
    · rfl
  rw [hbars]
  exact behindBars_escape hends hsound hpane

theorem escape_closes (hends : Ends ops sound) (hsound : sound state.rest)
    (h : Standing state.view) :
    ∃ later, state.perform ops (.key .Escape) = .ok later ∧ Closed ops state later ∧
      sound later.rest ∧ Standing later.view := by
  obtain ⟨later, hlater, hstanding⟩ := perform_steady ops h (.key .Escape)
  refine ⟨later, hlater, ?_⟩
  rw [State.perform, State.onEvent.eq_def, if_neg (by decide)] at hlater
  split at hlater
  · rename_i hdialog
    obtain rfl := Except.ok.inj hlater
    have hopen {P : Prop} (hclosed : state.view.showOpen = false) : P :=
      absurd (hclosed.symm.trans hdialog) Bool.false_ne_true
    exact ⟨⟨rfl, fun h => hopen h, fun h _ => hopen h, fun h _ _ => hopen h⟩, hsound, hstanding⟩
  rename_i hdialog
  rw [Bool.not_eq_true] at hdialog
  split at hlater
  · rename_i opened hopened
    obtain ⟨menu, hmenu, -⟩ := h.menu opened hopened
    rw [State.onMenuEvent.eq_def, hmenu] at hlater
    obtain rfl := Except.ok.inj hlater
    have hopen {P : Prop} (hclosed : state.view.menuOpen = none) : P :=
      absurd (hclosed.symm.trans hopened) (by simp)
    exact ⟨⟨hdialog, fun _ => rfl, fun _ h => hopen h, fun _ h _ => hopen h⟩, hsound, hstanding⟩
  rename_i hmenu
  split at hlater
  · rename_i hgoto
    obtain rfl := Except.ok.inj hlater
    exact ⟨⟨hdialog, fun _ => hmenu, fun _ _ => rfl,
      fun _ _ hclosed => absurd (hclosed.symm.trans hgoto) Bool.false_ne_true⟩, hsound, hstanding⟩
  rename_i hgoto
  rw [Bool.not_eq_true] at hgoto
  have hescaped : Escaped ops sound state later := by
    split at hlater
    · rename_i pane hpane
      have hfocused := (Option.filter_eq_some_iff.mp hpane).1
      rw [← Except.ok.inj hlater]
      exact escaped_pane hends hsound hfocused
    · rename_i hpane
      obtain ⟨used, after, hafter, hescaped⟩ := onPlainEvent_escape hends hsound hpane
      rw [hafter] at hlater
      rw [← Except.ok.inj hlater]
      exact hescaped
  refine ⟨⟨?_, fun _ => ?_, fun _ _ => ?_, fun _ _ _ => hescaped.pane⟩, hescaped.sound, hstanding⟩
  · rw [hescaped.view, hdialog]
  · rw [hescaped.view, hmenu]
  · rw [hescaped.view, hgoto]

/-- Four of them leave a screen whose keys go to the shortcuts. -/
theorem escapes_plain (hends : Ends ops sound) (hsound : sound state.rest)
    (h : Standing state.view) :
    ∃ later, (List.replicate 4 (Input.key .Escape)).foldlM (State.perform ops) state =
      .ok later ∧ Plain ops later ∧ Standing later.view := by
  obtain ⟨first, hfirst, hone, hfirstSound, hfirstStanding⟩ := escape_closes hends hsound h
  obtain ⟨second, hsecond, htwo, hsecondSound, hsecondStanding⟩ :=
    escape_closes hends hfirstSound hfirstStanding
  obtain ⟨third, hthird, hthree, hthirdSound, hthirdStanding⟩ :=
    escape_closes hends hsecondSound hsecondStanding
  obtain ⟨fourth, hfourth, hfour, -, hfourthStanding⟩ :=
    escape_closes hends hthirdSound hthirdStanding
  have hgoto := hthree.goto htwo.dialog (htwo.menu hone.dialog)
  have hmenu := hthree.menu htwo.dialog
  refine ⟨fourth, ?_, ⟨hfour.dialog, hfour.menu hthree.dialog, hfour.goto hthree.dialog hmenu,
    hfour.pane hthree.dialog hmenu hgoto⟩, hfourthStanding⟩
  simp only [List.replicate_succ, List.replicate_zero, List.foldlM_cons, List.foldlM_nil]
  rw [hfirst]
  dsimp only [bind, Except.bind]
  rw [hsecond]
  dsimp only
  rw [hthird]
  dsimp only
  rw [hfourth]
  rfl

/-- The screen with an item of a menu selected. -/
def atItem (state : State S) (opened menuSel : Nat) : State S :=
  state.showing { state.view with menuOpen := some opened, barSel := opened, menuSel := menuSel }

/-- The first item of a menu that is no separator. -/
def firstItem (opened : Nat) : Nat :=
  ((menus[opened]?).map fun menu => (menu.items.takeWhile MenuItem.separator).length).getD 0

theorem openMenu_eq (view : AppView) {i : Nat} (hi : i < menus.length) :
    view.openMenu i = .ok { view with
      menuOpen := some i, barSel := i, menuSel := firstItem i } := by
  rw [AppView.openMenu, firstItem, List.getElem?_eq_getElem hi]
  rfl

theorem perform_f10 (h : Plain ops state) :
    state.perform ops (.key .F10) = .ok (atItem state 0 (firstItem 0)) := by
  rw [perform_plain h (by decide)]
  show Except.map _ ((state.view.openMenu 0).map fun view => (true, state.showing view)) = _
  rw [openMenu_eq state.view (by decide)]
  rfl

theorem perform_menu (hdialog : state.view.showOpen = false) (opened menuSel : Nat) {e : Key}
    (he : e ≠ .Custom) :
    (atItem state opened menuSel).perform ops (.key e) =
      ((atItem state opened menuSel).onMenuEvent ops opened e).map fun outcome => outcome.2 := by
  rw [State.perform, State.onEvent.eq_def, if_neg he]
  rw [if_neg (show ¬(atItem state opened menuSel).view.showOpen = true by
    rw [Bool.not_eq_true]
    exact hdialog)]
  rfl

theorem perform_right (hdialog : state.view.showOpen = false) {opened : Nat}
    (hopened : opened + 1 < menus.length) (menuSel : Nat) :
    (atItem state opened menuSel).perform ops (.key .ArrowRight) =
      .ok (atItem state (opened + 1) (firstItem (opened + 1))) := by
  rw [perform_menu hdialog opened menuSel (by decide), State.onMenuEvent.eq_def,
    List.getElem?_eq_getElem (by omega)]
  dsimp only
  rw [Nat.mod_eq_of_lt hopened, openMenu_eq _ hopened]
  rfl

/-- `F10` and so many times Right. -/
theorem perform_rights (h : Plain ops state) {opened : Nat} (hopened : opened < menus.length) :
    (Input.key .F10 :: List.replicate opened (.key .ArrowRight)).foldlM (State.perform ops) state =
      .ok (atItem state opened (firstItem opened)) := by
  induction opened with
  | zero =>
      rw [List.replicate_zero, List.foldlM_cons, perform_f10 h]
      rfl
  | succ opened ih =>
      rw [List.replicate_succ', ← List.cons_append, List.foldlM_append, ih (by omega)]
      show Except.bind _ _ = _
      rw [Except.bind, List.foldlM_cons, perform_right h.dialog hopened]
      rfl

theorem perform_down (hdialog : state.view.showOpen = false) {opened menuSel i : Nat}
    {menu : Menu} (hmenu : menus[opened]? = some menu)
    (hstep : AppView.stepItem menu.items 1 menuSel = .ok i) :
    (atItem state opened menuSel).perform ops (.key .ArrowDown) = .ok (atItem state opened i) := by
  rw [perform_menu hdialog opened menuSel (by decide), State.onMenuEvent.eq_def, hmenu]
  dsimp only
  rw [show (atItem state opened menuSel).view.menuSel = menuSel from rfl, hstep]
  rfl

/-- Whether the selection may stand on an item. -/
def selectable (items : List MenuItem) (i : Nat) : Bool :=
  ((items[i]?).map fun item => !item.separator).getD true

theorem stepItem_eq {items : List MenuItem} {menuSel : Nat} (h : selectable items menuSel = true)
    {i : Nat} (hi : seek (selectable items) items.length 1 items.length menuSel = some i) :
    AppView.stepItem items 1 menuSel = .ok i := by
  have hallowed : (fun i => ((items[i]?).map fun item => !item.separator).getD true ||
      i == menuSel) = selectable items := by
    funext i
    cases hsame : i == menuSel with
    | false => exact Bool.or_false _
    | true =>
        rw [beq_iff_eq] at hsame
        rw [hsame, Bool.or_true, h]
  rw [AppView.stepItem, hallowed, hi]

/-- So many times Down select any other item. -/
theorem perform_downs (hdialog : state.view.showOpen = false) {opened : Nat} {menu : Menu}
    (hmenu : menus[opened]? = some menu) {target : Nat} (htarget : target < menu.items.length)
    (hplain : selectable menu.items target = true) {menuSel : Nat}
    (hlt : menuSel < menu.items.length) (hselectable : selectable menu.items menuSel = true) :
    ∃ n, (List.replicate n (Input.key .ArrowDown)).foldlM (State.perform ops)
      (atItem state opened menuSel) = .ok (atItem state opened target) := by
  refine @seek_induction (selectable menu.items) menu.items.length
    (fun menuSel => ∃ n, (List.replicate n (Input.key .ArrowDown)).foldlM (State.perform ops)
      (atItem state opened menuSel) = .ok (atItem state opened target))
    target htarget hplain ⟨0, rfl⟩ ?_ menuSel hlt hselectable
  intro i j hi hallowed hseek _ _ hrest
  obtain ⟨n, hrest⟩ := hrest
  refine ⟨n + 1, ?_⟩
  rw [List.replicate_succ, List.foldlM_cons,
    perform_down hdialog hmenu (stepItem_eq hallowed hseek)]
  exact hrest

theorem perform_return (hdialog : state.view.showOpen = false) {opened i : Nat} {menu : Menu}
    {item : MenuItem} {command : Command} (hmenu : menus[opened]? = some menu)
    (hitem : menu.items[i]? = some item) (henabled : item.enabled = true)
    (hcommand : item.run = some command) :
    (atItem state opened i).perform ops (.key .Return) =
      .ok ((state.showing { state.view with menuOpen := none, barSel := opened, menuSel := i
        }).runCommand ops command) := by
  rw [perform_menu hdialog opened i (by decide), State.onMenuEvent.eq_def, hmenu]
  dsimp only
  rw [show (atItem state opened i).view.menuSel = i from rfl, hitem]
  dsimp only
  rw [henabled, hcommand]
  rfl

/-- An item with a command is none of the separators and is enabled. -/
theorem of_command {menu : Menu} (hmenu : menu ∈ menus) {item : MenuItem}
    (hitem : item ∈ menu.items) {command : Command} (hcommand : item.run = some command) :
    item.separator = false ∧ item.enabled = true := by
  have hall : ∀ menu ∈ menus, ∀ item ∈ menu.items, item.run.isSome = true →
      item.separator = false ∧ item.enabled = true := by
    decide
  exact hall menu hmenu item hitem (by rw [hcommand]; rfl)

/-- The keys to an item of a menu from wherever the screen is. -/
def keysTo (opened downs : Nat) : List Key :=
  .F10 :: List.replicate opened .ArrowRight ++ List.replicate downs .ArrowDown ++ [.Return]

/-- From every screen that a run can lead to, `Escape` and the keys of the menus run every command
that a menu has. -/
theorem commands_reached (hends : Ends ops sound) {rest : S} {inputs : List (Input S)}
    {later : State S} (hrun : inputs.foldlM (State.perform ops) ⟨{}, rest⟩ = .ok later)
    (hsound : sound later.rest) {opened i : Nat} {menu : Menu} {item : MenuItem}
    {command : Command} (hmenu : menus[opened]? = some menu)
    (hitem : menu.items[i]? = some item) (hcommand : item.run = some command) :
    ∃ freed downs,
      (List.replicate 4 (Input.key .Escape)).foldlM (State.perform ops) later = .ok freed ∧
      ((keysTo opened downs).map Input.key).foldlM (State.perform ops) freed =
        .ok ((freed.showing { freed.view with menuOpen := none, barSel := opened, menuSel := i
          }).runCommand ops command) := by
  have hstanding : Standing later.view := by
    obtain ⟨reached, hreached, hstanding⟩ :=
      @inputs_steady S ops ⟨{}, rest⟩ standing_start inputs
    rw [← Except.ok.inj (hreached.symm.trans hrun)]
    exact hstanding
  obtain ⟨freed, hfreed, hfree, -⟩ := escapes_plain hends hsound hstanding
  obtain ⟨hplain, henabled⟩ := of_command (List.mem_of_getElem? hmenu)
    (List.mem_of_getElem? hitem) hcommand
  have hopened : opened < menus.length := (List.getElem?_eq_some_iff.mp hmenu).1
  have hselectable : selectable menu.items i = true := by
    rw [selectable, hitem, Option.map_some, Option.getD_some, hplain]
    rfl
  obtain ⟨first, hfirst, menu', hmenu', item', hitem', hseparator⟩ := onItem_first hopened
  obtain rfl : menu = first := Option.some.inj (hmenu.symm.trans hfirst)
  obtain rfl : menu = menu' := Option.some.inj (hmenu.symm.trans hmenu')
  have hfirstIndex : firstItem opened = (menu.items.takeWhile MenuItem.separator).length := by
    rw [firstItem, hmenu]
    rfl
  have hfirstSelectable : selectable menu.items (firstItem opened) = true := by
    rw [hfirstIndex, selectable, hitem', Option.map_some, Option.getD_some, hseparator]
    rfl
  obtain ⟨downs, hdowns⟩ := perform_downs hfree.dialog hmenu
    (List.getElem?_eq_some_iff.mp hitem).1 hselectable
    (hfirstIndex ▸ (List.getElem?_eq_some_iff.mp hitem').1) hfirstSelectable
  refine ⟨freed, downs, hfreed, ?_⟩
  rw [keysTo, List.map_append, List.map_append, List.map_cons, List.map_replicate,
    List.map_replicate, List.map_singleton, List.foldlM_append, List.foldlM_append,
    perform_rights hfree hopened]
  dsimp only [bind, Except.bind]
  rw [hdowns]
  dsimp only
  rw [List.foldlM_cons, perform_return hfree.dialog hmenu hitem henabled hcommand]
  rfl

/-- `Escape` closes the list and the field of the memory pane. -/
theorem memory_escape {pane : MemoryPane} (h : MemoryView.Standing pane) (memory : Memory) :
    ∃ handled later, pane.onEvent memory .Escape = .ok (handled, later) ∧
      MemoryView.Standing later ∧ later.capturing = false := by
  obtain ⟨⟨handled, later⟩, hevent, hlater⟩ := @onEvent_standing memory pane h .Escape
  refine ⟨handled, later, hevent, hlater, ?_⟩
  rw [MemoryPane.onEvent.eq_def] at hevent
  have hsync := h.sync memory
  generalize pane.sync memory = synced at hevent hsync
  dsimp only at hevent
  split at hevent
  · rename_i hpicking
    obtain ⟨-, rfl⟩ := Prod.mk.inj (Except.ok.inj hevent)
    exact hsync.exclusive hpicking
  rename_i hclosed
  rw [Bool.not_eq_true] at hclosed
  split at hevent
  · obtain ⟨-, rfl⟩ := Prod.mk.inj (Except.ok.inj hevent)
    rw [MemoryPane.editEvent, MemoryPane.capturing, hclosed]
    rfl
  rename_i hfree
  rw [Bool.not_eq_true] at hfree
  have hsame : synced.capturing = false := by
    rw [MemoryPane.capturing, hclosed, hfree]
    rfl
  have hrows : synced.rowsEvent memory .Escape = (false, synced) := by
    have hmoved : (ScrollWindow.moveRows (rowKey .Escape) synced.scroll.cursor memory.totalRows
        (synced.viewport.rows 20)).1 = false := by
      rw [ScrollWindow.moveRows]
      split <;> rfl
    rw [MemoryPane.rowsEvent, if_neg (fun hkey => absurd hkey.1 (by decide)),
      if_neg (by decide)]
    dsimp only
    rw [hmoved, if_neg Bool.false_ne_true]
  rw [hrows] at hevent
  split at hevent
  · obtain ⟨-, rfl⟩ := Prod.mk.inj (Except.ok.inj hevent)
    exact hsame
  split at hevent
  · obtain ⟨-, rfl⟩ := Prod.mk.inj (Except.ok.inj hevent)
    exact hsame
  · obtain ⟨-, rfl⟩ := Prod.mk.inj (Except.ok.inj hevent)
    exact hsame

/-- `Escape` closes the filter of the symbols. -/
theorem symbols_escape (feed : Feed) (pane : SymbolsPane) :
    ∃ handled later, pane.onEvent feed .Escape = .ok (⟨handled, none⟩, later) ∧
      later.filtering = false := by
  rw [SymbolsPane.onEvent]
  generalize pane.rebuild feed = built
  dsimp only
  split
  · exact ⟨_, _, rfl, rfl⟩
  rename_i hclosed
  rw [Bool.not_eq_true] at hclosed
  split
  · exact ⟨_, _, rfl, hclosed⟩
  · exact ⟨_, _, rfl, hclosed⟩

theorem ends_aroundPanes (feed : Feed) :
    Ends (aroundPanes feed) fun rest => MemoryView.Standing rest.2 := by
  intro pane rest hsound
  cases pane with
  | Symbols =>
      obtain ⟨handled, later, hevent, hclosed⟩ := symbols_escape feed rest.1
      have hreply : (aroundPanes feed).onEvent .Symbols .Escape rest =
          (⟨handled, none⟩, later, rest.2) := by
        show (match rest.1.onEvent feed .Escape with
          | .ok (reply, symbols) => (reply, symbols, rest.2)
          | .error _ => (⟨false, none⟩, rest)) = _
        rw [hevent]
      rw [hreply]
      exact ⟨hsound, rfl, hclosed⟩
  | Memory =>
      obtain ⟨handled, later, hevent, hstanding, hclosed⟩ := memory_escape hsound opened
      have hreply : (aroundPanes feed).onEvent .Memory .Escape rest =
          (⟨handled, none⟩, rest.1, later) := by
        show (match rest.2.onEvent opened .Escape with
          | .ok (handled, memory) => ((⟨handled, none⟩ : Reply), rest.1, memory)
          | .error _ => (⟨false, none⟩, rest)) = _
        rw [hevent]
      rw [hreply]
      exact ⟨hstanding, rfl, hclosed⟩
  | _ => exact ⟨hsound, rfl, rfl⟩

/-- From the Debug menu, behind a dialog that was asked for in vain, to Quit. -/
theorem commands_reached_quit :
    ∃ freed downs,
      (List.replicate 4 (Input.key .Escape)).foldlM (State.perform (aroundPanes {}))
        ⟨{ menuOpen := some 1, barSel := 1 }, {}, {}⟩ = .ok freed ∧
      ((keysTo 0 downs).map Input.key).foldlM (State.perform (aroundPanes {})) freed =
        .ok ((freed.showing { freed.view with menuOpen := none, barSel := 0, menuSel := 2
          }).runCommand (aroundPanes {}) .quit) :=
  @commands_reached _ (aroundPanes {}) _ (ends_aroundPanes {}) ({}, {})
    [.key .F10, .key .CtrlO, .key .ArrowRight, .frame] _ rfl MemoryView.Standing.start
    0 2 _ _ .quit rfl rfl rfl

end Commands

end Voidwalk.ScreenNavigation

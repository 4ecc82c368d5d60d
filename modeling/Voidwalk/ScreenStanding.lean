import Voidwalk.TuiScreen

/-!
Whatever is pressed, clicked and drawn on the screen, in whatever order and over whatever panes,
its menus, buttons and completions are read inside their lists, and a frame has its focus on
something that is drawn.
-/

namespace Voidwalk.ScreenStanding

open Voidwalk.SymbolSidebar
open Voidwalk.MemoryView
open Voidwalk.OpenDialog
open Voidwalk.TuiScreen
open Voidwalk.Library.Rings

/-- A menu's item that is no separator. -/
def OnItem (opened menuSel : Nat) : Prop :=
  ∃ menu ∈ menus[opened]?, ∃ item ∈ menu.items[menuSel]?, item.separator = false

/-- What the selections of a screen stand on. -/
structure Standing (view : AppView) : Prop where
  tool : ∃ command, tools[view.toolSel]? = some (some command)
  bar : view.barSel < menus.length
  menu : ∀ opened ∈ view.menuOpen, OnItem opened view.menuSel
  comps : view.comps = [] ∨ view.compSel < view.comps.length

/-- A step that ends on a screen whose selections stand. -/
def Steady {S : Type} (step : Except Fault (State S)) : Prop :=
  ∃ later, step = .ok later ∧ Standing later.view

def SteadyOutcome {S : Type} (outcome : State.Outcome S) : Prop :=
  ∃ used later, outcome = .ok (used, later) ∧ Standing later.view

theorem standing_start : Standing {} :=
  ⟨⟨.open, rfl⟩, by decide, fun _ hopened => absurd hopened (by simp), .inl rfl⟩

theorem Standing.closeMenu {view : AppView} (h : Standing view) :
    Standing { view with menuOpen := none } :=
  ⟨h.tool, h.bar, fun _ hopened => absurd hopened (by simp), h.comps⟩

section Menus

theorem onItem_first {i : Nat} (h : i < menus.length) :
    ∃ menu, menus[i]? = some menu ∧
      OnItem i (menu.items.takeWhile MenuItem.separator).length := by
  have hall : ∀ i < menus.length, ∃ menu, menus[i]? = some menu ∧
      ∃ item, menu.items[(menu.items.takeWhile MenuItem.separator).length]? = some item ∧
        item.separator = false := by
    intro i hi
    rcases i with _ | _ | _ | _ | _ | i
    iterate 5 exact ⟨_, rfl, _, rfl, rfl⟩
    exact absurd hi (by simp [menus])
  obtain ⟨menu, hmenu, item, hitem, hseparator⟩ := hall i h
  exact ⟨menu, hmenu, menu, hmenu, item, hitem, hseparator⟩

theorem openMenu_standing {view : AppView} (h : Standing view) {i : Nat} (hi : i < menus.length) :
    ∃ later, view.openMenu i = .ok later ∧ Standing later := by
  obtain ⟨menu, hmenu, hitem⟩ := onItem_first hi
  rw [AppView.openMenu, hmenu]
  refine ⟨_, rfl, h.tool, hi, ?_, h.comps⟩
  intro opened hopened
  rw [← Option.some.inj hopened]
  exact hitem

theorem altMenu_lt {e : Key} {m : Nat} (h : altMenu e = some m) : m < menus.length := by
  rw [altMenu.eq_def] at h
  split at h
  iterate 5
    · obtain rfl := Option.some.inj h
      decide
  · contradiction

/-- Up and Down stay off the separators of a menu. -/
theorem stepItem_onItem {opened menuSel : Nat} {menu : Menu} (hmenu : menus[opened]? = some menu)
    (h : OnItem opened menuSel) (step : Nat) :
    ∃ i, AppView.stepItem menu.items step menuSel = .ok i ∧ OnItem opened i := by
  obtain ⟨menu', hmenu', item, hitem, hseparator⟩ := h
  obtain rfl : menu = menu' := Option.some.inj (hmenu.symm.trans hmenu')
  obtain ⟨hlt, -⟩ := List.getElem?_eq_some_iff.mp hitem
  obtain ⟨j, hj, hjlt, hallowed⟩ := @seek_total
    (fun i => ((menu.items[i]?).map fun item => !item.separator).getD true || i == menuSel)
    menu.items.length step menuSel hlt (by simp)
  refine ⟨j, by rw [AppView.stepItem, hj], menu, hmenu, menu.items[j],
    List.getElem?_eq_getElem hjlt, ?_⟩
  rw [List.getElem?_eq_getElem hjlt, Bool.or_eq_true] at hallowed
  rcases hallowed with hplain | hsame
  · simpa using hplain
  · rw [beq_iff_eq] at hsame
    subst hsame
    rw [List.getElem?_eq_getElem hlt] at hitem
    rw [Option.some.inj hitem]
    exact hseparator

/-- Left and Right stay on the buttons that can be pressed. -/
theorem stepTool_pressable {toolSel : Nat}
    (h : ∃ command, tools[toolSel]? = some (some command)) (step : Nat) :
    ∃ i, AppView.stepTool toolSel step = .ok i ∧ ∃ command, tools[i]? = some (some command) := by
  obtain ⟨command, hcommand⟩ := h
  obtain ⟨hlt, -⟩ := List.getElem?_eq_some_iff.mp hcommand
  obtain ⟨j, hj, hjlt, hallowed⟩ := @seek_total
    (fun i => ((tools[i]?).getD none).isSome) tools.length step toolSel hlt (by simp [hcommand])
  refine ⟨j, by rw [AppView.stepTool, hj], ?_⟩
  rw [List.getElem?_eq_getElem hjlt, Option.getD_some] at hallowed
  obtain ⟨pressed, hpressed⟩ := Option.isSome_iff_exists.mp hallowed
  exact ⟨pressed, by rw [List.getElem?_eq_getElem hjlt, hpressed]⟩

end Menus

section Steps

variable {S : Type} (ops : Surroundings S) {state : State S}

theorem Standing.activate (h : Standing state.view) (activation : Option Activation) :
    Standing (state.activate ops activation).view := by
  rcases activation with _ | vaddr | offset
  · exact h
  · exact ⟨h.tool, h.bar, h.menu, h.comps⟩
  · exact ⟨h.tool, h.bar, h.menu, h.comps⟩

theorem Standing.paneEvent (h : Standing state.view) (pane : Pane) (e : Key) :
    Standing (state.paneEvent ops pane e).2.view := by
  rw [State.paneEvent]
  apply Standing.activate
  exact h

theorem Standing.refreshCompletions (h : Standing state.view) :
    Standing (state.refreshCompletions ops).view := by
  refine ⟨h.tool, h.bar, h.menu, ?_⟩
  exact (Nat.eq_zero_or_pos _).imp List.length_eq_zero_iff.mp id

theorem Standing.beginOpen (h : Standing state.view) (seed : List UInt8) :
    Standing (state.beginOpen ops seed).view :=
  Standing.refreshCompletions ops ⟨h.tool, h.bar, h.menu, h.comps⟩

theorem Standing.complete (h : Standing state.view) (path : List UInt8) :
    Standing (state.complete ops path).view :=
  Standing.refreshCompletions ops ⟨h.tool, h.bar, h.menu, h.comps⟩

theorem Standing.openTarget (h : Standing state.view) (target : List UInt8) :
    Standing (state.openTarget ops target).view := by
  rw [State.openTarget]
  dsimp only
  split
  · exact ⟨h.tool, h.bar, h.menu, h.comps⟩
  · exact ⟨h.tool, h.bar, h.menu, h.comps⟩

theorem Standing.runCommand (h : Standing state.view) (command : Command) :
    Standing (state.runCommand ops command).view := by
  cases command with
  | «open» => exact h.beginOpen ops []
  | goto =>
      rw [State.runCommand]
      split
      · exact ⟨h.tool, h.bar, h.menu, h.comps⟩
      · exact h
  | stub name => exact h
  | settings => exact h
  | _ => exact ⟨h.tool, h.bar, h.menu, h.comps⟩

/-- The selected completion is there wherever one is asked for. -/
theorem getElem_compSel {view : AppView} (h : Standing view) (hne : view.comps ≠ []) :
    ∃ c, view.comps[view.compSel]? = some c :=
  ⟨_, List.getElem?_eq_getElem (h.comps.resolve_left hne)⟩

theorem submitOpen_steady (h : Standing state.view) : Steady (state.submitOpen ops) := by
  rw [State.submitOpen]
  split
  · split
    · rename_i hne
      obtain ⟨c, hc⟩ := getElem_compSel h hne
      rw [hc]
      refine ⟨_, rfl, ?_⟩
      split
      · exact h.complete ops _
      · exact h.openTarget ops _
    · refine ⟨_, rfl, ?_⟩
      split
      · exact h
      · exact h.openTarget ops _
  · exact ⟨_, rfl, h.openTarget ops _⟩

theorem Steady.outcome {step : Except Fault (State S)} (h : Steady step) :
    SteadyOutcome (step.map fun state => (true, state)) := by
  obtain ⟨later, hstep, hlater⟩ := h
  exact ⟨true, later, by rw [hstep]; rfl, hlater⟩

theorem openMenu_steady (h : Standing state.view) {i : Nat} (hi : i < menus.length) :
    SteadyOutcome ((state.view.openMenu i).map fun view => (true, state.showing view)) := by
  obtain ⟨later, hopened, hlater⟩ := openMenu_standing h hi
  exact ⟨true, state.showing later, by rw [hopened]; rfl, hlater⟩

theorem runTool_steady (h : Standing state.view) {i : Nat} (hi : i < tools.length) :
    Steady (state.runTool ops i) := by
  rw [State.runTool, List.getElem?_eq_getElem hi]
  split
  · contradiction
  · exact ⟨_, rfl, h⟩
  · exact ⟨_, rfl, h.runCommand ops _⟩

theorem submitGoto_standing (h : Standing state.view) :
    Standing (state.submitGoto ops).view := by
  rw [State.submitGoto]
  split
  · exact ⟨h.tool, h.bar, h.menu, h.comps⟩
  · split
    · exact ⟨h.tool, h.bar, h.menu, h.comps⟩
    · exact ⟨h.tool, h.bar, h.menu, h.comps⟩

theorem length_focusOrder_pos (view : AppView) (loaded : Bool) :
    0 < (view.focusOrder loaded).length := by
  simp [AppView.focusOrder]

theorem nextFocus_mem (view : AppView) (loaded : Bool) (direction : Direction) :
    ∃ focus ∈ view.focusOrder loaded, view.nextFocus loaded direction = .ok focus := by
  have hpos := length_focusOrder_pos view loaded
  rw [AppView.nextFocus.eq_def]
  cases direction with
  | forward =>
      dsimp only
      rw [List.getElem?_eq_getElem (Nat.mod_lt _ hpos)]
      exact ⟨_, List.getElem_mem _, rfl⟩
  | backward =>
      dsimp only
      rw [List.getElem?_eq_getElem (Nat.mod_lt _ hpos)]
      exact ⟨_, List.getElem_mem _, rfl⟩

theorem cycleFocus_steady (h : Standing state.view) (direction : Direction) :
    Steady (state.cycleFocus ops direction) := by
  rw [State.cycleFocus]
  split
  rename_i taken rest _
  dsimp only
  split
  · exact ⟨_, rfl, h⟩
  · obtain ⟨focus, -, hfocus⟩ := nextFocus_mem state.view (ops.loaded rest) direction
    rw [hfocus]
    exact ⟨_, rfl, h.tool, h.bar, h.menu, h.comps⟩

theorem onMenuBarEvent_steady (h : Standing state.view) {e : Key} {outcome : State.Outcome S}
    (houtcome : state.onMenuBarEvent e = some outcome) : SteadyOutcome outcome := by
  have hpos : 0 < menus.length := by decide
  rw [State.onMenuBarEvent.eq_def] at houtcome
  dsimp only at houtcome
  split at houtcome
  · obtain rfl := Option.some.inj houtcome
    exact ⟨_, _, rfl, h.tool, Nat.mod_lt _ hpos, h.menu, h.comps⟩
  · obtain rfl := Option.some.inj houtcome
    exact ⟨_, _, rfl, h.tool, Nat.mod_lt _ hpos, h.menu, h.comps⟩
  iterate 3
    · obtain rfl := Option.some.inj houtcome
      exact openMenu_steady h h.bar
  · contradiction

theorem onToolbarEvent_steady (h : Standing state.view) {e : Key} {outcome : State.Outcome S}
    (houtcome : state.onToolbarEvent ops e = some outcome) : SteadyOutcome outcome := by
  have hselect (step : Nat) :
      SteadyOutcome ((AppView.stepTool state.view.toolSel step).map fun toolSel =>
        (true, state.showing { state.view with toolSel := toolSel })) := by
    obtain ⟨i, hi, hpressable⟩ := stepTool_pressable h.tool step
    rw [hi]
    exact ⟨true, _, rfl, hpressable, h.bar, h.menu, h.comps⟩
  obtain ⟨command, hcommand⟩ := h.tool
  have htool := (List.getElem?_eq_some_iff.mp hcommand).1
  rw [State.onToolbarEvent.eq_def] at houtcome
  dsimp only at houtcome
  split at houtcome
  · obtain rfl := Option.some.inj houtcome
    exact hselect _
  · obtain rfl := Option.some.inj houtcome
    exact hselect _
  iterate 2
    · obtain rfl := Option.some.inj houtcome
      exact (runTool_steady ops h htool).outcome
  · contradiction

theorem onMenuEvent_steady (h : Standing state.view) {opened : Nat}
    (hopened : state.view.menuOpen = some opened) (e : Key) :
    SteadyOutcome (state.onMenuEvent ops opened e) := by
  have hitem := h.menu opened hopened
  have hpos : 0 < menus.length := by decide
  obtain ⟨menu, hmenu, item, hchosen, -⟩ := hitem
  have hselect (step : Nat) :
      SteadyOutcome ((AppView.stepItem menu.items step state.view.menuSel).map fun menuSel =>
        (true, state.showing { state.view with menuSel := menuSel })) := by
    obtain ⟨i, hi, honItem⟩ := stepItem_onItem hmenu (h.menu opened hopened) step
    rw [hi]
    refine ⟨true, _, rfl, h.tool, h.bar, ?_, h.comps⟩
    intro opened' hopened'
    obtain rfl : opened = opened' := Option.some.inj (hopened.symm.trans hopened')
    exact honItem
  rw [State.onMenuEvent.eq_def, hmenu]
  dsimp only
  split
  · exact ⟨_, _, rfl, h.closeMenu⟩
  · exact ⟨_, _, rfl, h.closeMenu⟩
  · exact openMenu_steady h (Nat.mod_lt _ hpos)
  · exact openMenu_steady h (Nat.mod_lt _ hpos)
  · exact hselect _
  · exact hselect _
  · rw [hchosen]
    dsimp only
    split
    · exact ⟨_, _, rfl, Standing.runCommand ops h.closeMenu _⟩
    · exact ⟨_, _, rfl, h.closeMenu⟩
  · split
    · rename_i m hm
      exact openMenu_steady h (altMenu_lt hm)
    · exact ⟨_, _, rfl, h⟩

theorem up_steady (h : Standing state.view) :
    Standing (if 0 < state.view.compSel then
        state.showing { state.view with compSel := state.view.compSel - 1 }
      else state).view := by
  split
  · refine ⟨h.tool, h.bar, h.menu, h.comps.imp id fun hlt => ?_⟩
    exact (Nat.sub_le _ 1).trans_lt hlt
  · exact h

theorem down_steady (h : Standing state.view) :
    Standing (if state.view.compSel + 1 < state.view.comps.length then
        state.showing { state.view with compSel := state.view.compSel + 1 }
      else state).view := by
  split
  · rename_i hnext
    exact ⟨h.tool, h.bar, h.menu, .inr hnext⟩
  · exact h

theorem onOpenEvent_steady (h : Standing state.view) (e : Key) :
    SteadyOutcome (state.onOpenEvent ops e) := by
  rw [State.onOpenEvent.eq_def]
  dsimp only
  split
  · exact ⟨_, _, rfl, h.tool, h.bar, h.menu, h.comps⟩
  · exact (submitOpen_steady ops h).outcome
  · split
    · rename_i hne
      obtain ⟨c, hc⟩ := getElem_compSel h hne
      rw [hc]
      exact ⟨_, _, rfl, h.complete ops c.path⟩
    · exact ⟨_, _, rfl, h⟩
  · exact ⟨_, _, rfl, up_steady h⟩
  · exact ⟨_, _, rfl, down_steady h⟩
  · exact ⟨_, _, rfl, Standing.refreshCompletions ops ⟨h.tool, h.bar, h.menu, h.comps⟩⟩
  · split
    · exact ⟨_, _, rfl, Standing.refreshCompletions ops ⟨h.tool, h.bar, h.menu, h.comps⟩⟩
    · exact ⟨_, _, rfl, h⟩

theorem behindBars_steady (h : Standing state.view) (e : Key) :
    SteadyOutcome (state.behindBars ops e) := by
  rw [State.behindBars.eq_def]
  dsimp only
  split
  · split
    · exact ⟨_, _, rfl, h.beginOpen ops []⟩
    · exact ⟨_, _, rfl, h.beginOpen ops _⟩
    · exact ⟨_, _, rfl, h⟩
  split
  · exact ⟨_, _, rfl, h.tool, h.bar, h.menu, h.comps⟩
  split
  · exact ⟨_, _, rfl, h.tool, h.bar, h.menu, h.comps⟩
  · split
    · exact ⟨_, _, rfl, h.paneEvent ops _ e⟩
    · exact ⟨_, _, rfl, h⟩

theorem onBarsEvent_steady (h : Standing state.view) (e : Key) :
    SteadyOutcome (state.onBarsEvent ops e) := by
  rw [State.onBarsEvent]
  split
  · cases houtcome : state.onMenuBarEvent e with
    | none => exact behindBars_steady ops h e
    | some outcome => exact onMenuBarEvent_steady h houtcome
  split
  · cases houtcome : state.onToolbarEvent ops e with
    | none => exact behindBars_steady ops h e
    | some outcome => exact onToolbarEvent_steady ops h houtcome
  · exact behindBars_steady ops h e

theorem Standing.ite {condition : Prop} [Decidable condition] {view later : AppView}
    (hview : Standing view) (hlater : Standing later) :
    Standing (if condition then view else later) := by
  split
  · exact hview
  · exact hlater

theorem Standing.switchTab {view : AppView} (h : Standing view) : Standing view.switchTab := by
  have hfocused {view : AppView} (h : Standing view) :
      Standing (if view.regsOn || view.stackOn then { view with focus := .Right } else view) :=
    .ite ⟨h.tool, h.bar, h.menu, h.comps⟩ h
  exact hfocused (.ite ⟨h.tool, h.bar, h.menu, h.comps⟩ h)

theorem Standing.validateFocus {view : AppView} (h : Standing view) (loaded : Bool) :
    Standing (view.validateFocus loaded) := by
  have hright {view : AppView} (h : Standing view) (condition : Prop) [Decidable condition]
      (tab : Tab) : Standing (if condition then { view with tab := tab } else view) :=
    .ite ⟨h.tool, h.bar, h.menu, h.comps⟩ h
  rw [AppView.validateFocus]
  apply hright
  apply hright
  exact .ite h ⟨h.tool, h.bar, h.menu, h.comps⟩

theorem onPlainEvent_steady (h : Standing state.view) (e : Key) :
    SteadyOutcome (state.onPlainEvent ops e) := by
  rw [State.onPlainEvent.eq_def]
  dsimp only
  split
  · exact ⟨_, _, rfl, h.beginOpen ops []⟩
  split
  · exact ⟨_, _, rfl, h.tool, h.bar, h.menu, h.comps⟩
  split
  iterate 4
    · exact ⟨_, _, rfl, h⟩
  · exact ⟨_, _, rfl, h.tool, h.bar, h.menu, h.comps⟩
  · exact openMenu_steady h (by decide)
  iterate 2
    · exact (cycleFocus_steady ops h _).outcome
  · split
    · rename_i m hm
      exact openMenu_steady h (altMenu_lt hm)
    · split
      · exact ⟨_, _, rfl, h.switchTab⟩
      · exact onBarsEvent_steady ops h e

theorem onGotoEvent_steady (h : Standing state.view) (e : Key) :
    SteadyOutcome (state.onGotoEvent ops e) := by
  rw [State.onGotoEvent.eq_def]
  split
  · exact ⟨_, _, rfl, h.tool, h.bar, h.menu, h.comps⟩
  · exact ⟨_, _, rfl, submitGoto_standing ops h⟩
  · exact ⟨_, _, rfl, h.tool, h.bar, h.menu, h.comps⟩

theorem onEvent_steady (h : Standing state.view) (e : Key) :
    SteadyOutcome (state.onEvent ops e) := by
  rw [State.onEvent.eq_def]
  split
  · exact ⟨_, _, rfl, h⟩
  split
  · exact onOpenEvent_steady ops h e
  split
  · rename_i opened hopened
    exact onMenuEvent_steady ops h hopened e
  split
  · exact onGotoEvent_steady ops h e
  split
  · exact ⟨_, _, rfl, h.paneEvent ops _ e⟩
  · exact onPlainEvent_steady ops h e

theorem onOpenMouse_steady (h : Standing state.view) (hits : Hits) (m : Mouse) :
    Steady (state.onOpenMouse ops hits m) := by
  rw [State.onOpenMouse.eq_def]
  dsimp only
  split
  · exact ⟨_, rfl, up_steady h⟩
  · exact ⟨_, rfl, down_steady h⟩
  split
  · split
    · exact ⟨_, rfl, h⟩
    rename_i hlisted
    rw [Nat.not_le] at hlisted
    split
    · exact ⟨_, rfl, h.tool, h.bar, h.menu, .inr hlisted⟩
    · rw [List.getElem?_eq_getElem hlisted]
      dsimp only
      split
      · exact ⟨_, rfl, h.complete ops _⟩
      · exact submitOpen_steady ops (h.complete ops _)
  split
  · exact submitOpen_steady ops h
  split
  · exact ⟨_, rfl, h.tool, h.bar, h.menu, h.comps⟩
  split
  · exact ⟨_, rfl, Standing.refreshCompletions ops ⟨h.tool, h.bar, h.menu, h.comps⟩⟩
  · exact ⟨_, rfl, h⟩

theorem onMenuMouse_steady (h : Standing state.view) {opened : Nat}
    (hopened : state.view.menuOpen = some opened) (hits : Hits) (m : Mouse) :
    SteadyOutcome (state.onMenuMouse ops hits m opened) := by
  obtain ⟨menu, hmenu, -⟩ := h.menu opened hopened
  rw [State.onMenuMouse]
  dsimp only
  split
  · exact ⟨_, _, rfl, h⟩
  rw [hmenu]
  dsimp only
  split
  · split
    · exact ⟨_, _, rfl, h.closeMenu⟩
    rename_i item hitem
    split
    · exact ⟨_, _, rfl, h.closeMenu⟩
    · rename_i hplain
      rw [Bool.not_eq_true] at hplain
      have hpicked : Standing
          ({ state.view with menuSel := (m.y - hits.drop.yMin - 1).toNat } : AppView) := by
        refine ⟨h.tool, h.bar, ?_, h.comps⟩
        intro opened' hopened'
        obtain rfl : opened = opened' := Option.some.inj (hopened.symm.trans hopened')
        exact ⟨menu, hmenu, item, hitem, hplain⟩
      exact @onMenuEvent_steady S ops (state.showing _) hpicked opened hopened .Return
  · exact ⟨_, _, rfl, h.closeMenu⟩

theorem wheel_standing (h : Standing state.view) (pane : Pane) (e : Key) (n : Nat) :
    Standing ((List.replicate n e).foldl
      (fun state e => (state.paneEvent ops pane e).2) state).view := by
  induction n generalizing state with
  | zero => exact h
  | succ n ih =>
      rw [List.replicate_succ, List.foldl_cons]
      exact ih (h.paneEvent ops pane e)

theorem Standing.paneClick (h : Standing state.view) (pane : Pane) (x y : Int) :
    Standing (state.paneClick ops pane x y).view := by
  rw [State.paneClick]
  apply Standing.activate
  exact h

theorem onPaneMouse_steady (h : Standing state.view) (hits : Hits) (m : Mouse) :
    SteadyOutcome (state.onPaneMouse ops hits m) := by
  rw [State.onPaneMouse]
  split
  · exact ⟨_, _, rfl, h⟩
  · rename_i f hf
    have hfocused : Standing ({ state.view with focus := f } : AppView) :=
      ⟨h.tool, h.bar, h.menu, h.comps⟩
    have hpane : ∃ pane, state.view.paneFor f = some pane := by
      have hmem := List.mem_of_find?_eq_some hf
      simp only [List.mem_cons, List.not_mem_nil, or_false] at hmem
      rcases hmem with rfl | rfl | rfl | rfl <;> exact ⟨_, rfl⟩
    obtain ⟨pane, hpane⟩ := hpane
    rw [hpane]
    dsimp only
    split
    · exact ⟨_, _, rfl, wheel_standing ops hfocused pane _ 3⟩
    · exact ⟨_, _, rfl, wheel_standing ops hfocused pane _ 3⟩
    · exact ⟨_, _, rfl, Standing.paneClick ops hfocused pane m.x m.y⟩

theorem onBarMouse_steady (h : Standing state.view) (hits : Hits) (m : Mouse)
    {outcome : State.Outcome S} (houtcome : state.onBarMouse ops hits m = some outcome) :
    SteadyOutcome outcome := by
  rw [State.onBarMouse] at houtcome
  split at houtcome
  · rename_i i hi
    obtain rfl := Option.some.inj houtcome
    exact (runTool_steady ops h (List.mem_range.mp (List.mem_of_find?_eq_some hi))).outcome
  split at houtcome
  · obtain rfl := Option.some.inj houtcome
    exact ⟨_, _, rfl, h.tool, h.bar, h.menu, h.comps⟩
  split at houtcome
  · obtain rfl := Option.some.inj houtcome
    exact ⟨_, _, rfl, h.beginOpen ops []⟩
  · contradiction

theorem onMouse_steady (h : Standing state.view) (hits : Hits) (m : Mouse) :
    SteadyOutcome (state.onMouse ops hits m) := by
  rw [State.onMouse]
  split
  · exact ⟨_, _, rfl, h⟩
  split
  · exact (onOpenMouse_steady ops h hits m).outcome
  dsimp only
  split
  · rename_i i _ htitle
    split
    · exact ⟨_, _, rfl, h.closeMenu⟩
    · apply openMenu_steady h
      split at htitle
      · exact List.mem_range.mp (List.mem_of_find?_eq_some htitle)
      · contradiction
  · rename_i opened _ hopened
    exact onMenuMouse_steady ops h hopened hits m
  · split
    · have hclosed : Standing ({ state.view with gotoActive := false } : AppView) :=
        ⟨h.tool, h.bar, h.menu, h.comps⟩
      cases houtcome : State.onBarMouse ops
          (state.showing { state.view with gotoActive := false }) hits m with
      | none => exact onPaneMouse_steady ops hclosed hits m
      | some outcome => exact onBarMouse_steady ops hclosed hits m houtcome
    · exact onPaneMouse_steady ops h hits m

theorem onRender_standing (h : Standing state.view) : Standing (state.onRender ops).view := by
  rw [State.onRender]
  exact h.validateFocus _

/-- One input. -/
theorem perform_steady (h : Standing state.view) (input : Input S) :
    Steady (state.perform ops input) := by
  cases input with
  | key e =>
      obtain ⟨used, later, houtcome, hlater⟩ := onEvent_steady ops h e
      exact ⟨later, by rw [State.perform, houtcome]; rfl, hlater⟩
  | mouse hits m =>
      obtain ⟨used, later, houtcome, hlater⟩ := onMouse_steady ops h hits m
      exact ⟨later, by rw [State.perform, houtcome]; rfl, hlater⟩
  | frame => exact ⟨_, rfl, onRender_standing ops h⟩
  | surroundings rest => exact ⟨_, rfl, h⟩

/-- Any number of them. -/
theorem inputs_steady (h : Standing state.view) (inputs : List (Input S)) :
    Steady (inputs.foldlM (State.perform ops) state) := by
  induction inputs generalizing state with
  | nil => exact ⟨state, rfl, h⟩
  | cons input inputs ih =>
      obtain ⟨later, hlater, hstanding⟩ := perform_steady ops h input
      rw [List.foldlM_cons, hlater]
      exact ih hstanding

end Steps

section Frames

/-- What a frame draws: the place with the focus, the tab of the dock, an item of the open menu
and a row of the completions. -/
structure Drawable (view : AppView) (loaded : Bool) : Prop where
  focus : view.focus ∈ view.focusOrder loaded
  dock : view.regsOn = true ∨ view.stackOn = true →
    if view.tab = .Registers then view.regsOn = true else view.stackOn = true
  menu : ∀ opened ∈ view.menuOpen, OnItem opened view.menuSel
  tool : ∃ command, tools[view.toolSel]? = some (some command)
  completion : view.comps ≠ [] →
    ∃ k < AppView.kShown, view.firstShown + k = view.compSel ∧
      view.shownCompletions[k]? = some view.comps[view.compSel]? ∧
      view.comps[view.compSel]?.isSome

/-- The tab that the dock comes to show. -/
theorem dock_tab (tab : Tab) (regsOn stackOn : Bool) (hdock : regsOn = true ∨ stackOn = true) :
    let shown := if tab = .Registers ∧ regsOn = false ∧ stackOn = true then .Stack else tab
    let shown := if shown = .Stack ∧ stackOn = false ∧ regsOn = true then .Registers else shown
    if shown = .Registers then regsOn = true else stackOn = true := by
  cases tab <;> cases regsOn <;> cases stackOn <;> simp at hdock ⊢

theorem validateFocus_eq (view : AppView) (loaded : Bool) :
    ∃ focus tab, view.validateFocus loaded = { view with focus := focus, tab := tab } ∧
      focus ∈ view.focusOrder loaded ∧
      (view.regsOn = true ∨ view.stackOn = true →
        if tab = .Registers then view.regsOn = true else view.stackOn = true) := by
  have hfocused : ∃ focus ∈ view.focusOrder loaded,
      (if view.focus ∈ view.focusOrder loaded then view
        else { view with focus := .Disassembly }) = { view with focus := focus } := by
    split
    · rename_i hmem
      exact ⟨view.focus, hmem, rfl⟩
    · exact ⟨.Disassembly, by simp [AppView.focusOrder], rfl⟩
  obtain ⟨focus, hfocus, hfocused⟩ := hfocused
  have hdock := dock_tab view.tab view.regsOn view.stackOn
  refine ⟨focus, _, ?_, hfocus, hdock⟩
  rw [AppView.validateFocus, hfocused]
  dsimp only
  by_cases hstack : view.tab = .Registers ∧ view.regsOn = false ∧ view.stackOn = true
  · simp only [if_pos hstack]
    split <;> rfl
  · simp only [if_neg hstack]
    split <;> rfl

theorem completion_shown {view : AppView} (h : Standing view) (hne : view.comps ≠ []) :
    ∃ k < AppView.kShown, view.firstShown + k = view.compSel ∧
      view.shownCompletions[k]? = some view.comps[view.compSel]? ∧
      view.comps[view.compSel]?.isSome := by
  have hplace : ∃ k < AppView.kShown, view.firstShown + k = view.compSel := by
    rw [AppView.firstShown]
    split
    · rename_i hfar
      refine ⟨AppView.kShown - 1, by decide, ?_⟩
      rw [AppView.kShown] at hfar ⊢
      omega
    · rename_i hnear
      exact ⟨view.compSel, Nat.not_le.mp hnear, Nat.zero_add _⟩
  obtain ⟨k, hk, hplace⟩ := hplace
  obtain ⟨c, hc⟩ := getElem_compSel h hne
  refine ⟨k, hk, hplace, ?_, by rw [hc]; rfl⟩
  rw [AppView.shownCompletions, List.getElem?_map, List.getElem?_range hk, Option.map_some,
    hplace]

theorem drawable_onRender {S : Type} (ops : Surroundings S) {state : State S}
    (h : Standing state.view) :
    Drawable (state.onRender ops).view (ops.loaded (state.onRender ops).rest) := by
  have hlater := onRender_standing ops h
  obtain ⟨focus, tab, hview, hfocus, hdock⟩ :=
    validateFocus_eq state.view (ops.loaded (ops.refresh state.rest))
  rw [State.onRender] at hlater ⊢
  dsimp only at hlater ⊢
  refine ⟨?_, ?_, hlater.menu, hlater.tool, completion_shown hlater⟩
  · rw [hview]
    exact hfocus
  · rw [hview]
    exact hdock

/-- Whatever is pressed, clicked and drawn, over panes, a session and files that do what they
like, nothing is read outside its list, no loop of the menus is endless, and the frame behind it
draws what is selected. -/
theorem frame_drawable {S : Type} (ops : Surroundings S) (rest : S) (inputs : List (Input S)) :
    ∃ later, inputs.foldlM (State.perform ops) ⟨{}, rest⟩ = .ok later ∧
      Drawable (later.onRender ops).view (ops.loaded (later.onRender ops).rest) := by
  obtain ⟨later, hlater, hstanding⟩ := @inputs_steady S ops ⟨{}, rest⟩ standing_start inputs
  exact ⟨later, hlater, drawable_onRender ops hstanding⟩

end Frames

end Voidwalk.ScreenStanding

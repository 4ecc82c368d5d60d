import Voidwalk.Library.Rings
import Voidwalk.MemoryView
import Voidwalk.OpenDialog

/-!
`tui::AppView`: the focus, the menus, the toolbar, the address field and the open dialog of the
terminal interface. The panes, the session and the file system are whatever they are; they
change between any two events.
-/

namespace Voidwalk.TuiScreen

open Voidwalk.SymbolSidebar
open Voidwalk.MemoryView
open Voidwalk.OpenDialog
open Voidwalk.Library.HexWords
open Voidwalk.Library.Rings

/-- The events that are told apart. -/
inductive Key where
  | Character (bytes : List UInt8)
  | ArrowUp | ArrowDown | ArrowLeft | ArrowRight | PageUp | PageDown | Home | End
  | Backspace | Delete | Return | Escape | Tab | TabReverse
  | F5 | F7 | F8 | F9 | F10 | CtrlB | CtrlG | CtrlO | CtrlQ | CtrlT
  | AltD | AltE | AltF | AltT | AltV | Custom | other
  deriving DecidableEq

/-- `Event::Character` of one ASCII character. -/
def letter (symbol : Char) : Key := .Character [UInt8.ofNat symbol.toNat]

/-- The event as a field knows it. -/
def Key.event : Key → Event
  | .Character bytes => .Character bytes
  | .ArrowUp => .ArrowUp
  | .ArrowDown => .ArrowDown
  | .ArrowLeft => .ArrowLeft
  | .ArrowRight => .ArrowRight
  | .PageUp => .PageUp
  | .PageDown => .PageDown
  | .Home => .Home
  | .End => .End
  | .Backspace => .Backspace
  | .Delete => .Delete
  | .Return => .Return
  | .Escape => .Escape
  | _ => .other

/-- Whether `LineEdit::handle` takes the event. -/
def Key.edits : Key → Bool
  | .Character _ | .ArrowLeft | .ArrowRight | .Home | .End | .Backspace | .Delete => true
  | _ => false

/-- Whatever ends a run that the source leaves undefined. -/
inductive Fault where
  | outOfRange | endless
  deriving DecidableEq, Repr

inductive Focus where
  | MenuBar | Toolbar | Symbols | Disassembly | Right | Memory
  deriving DecidableEq, Repr

inductive Tab where
  | Registers | Stack
  deriving DecidableEq, Repr

inductive Pane where
  | Symbols | Disassembly | Registers | Stack | Memory
  deriving DecidableEq, Repr

/-- What a menu item or a button does. -/
inductive Command where
  | open | quit | stub (name : String) | settings | goto
  | toggleSidebar | toggleRegisters | toggleStack | toggleMemory
  deriving DecidableEq, Repr

structure MenuItem where
  label : String := ""
  shortcut : String := ""
  run : Option Command := none
  enabled : Bool := true
  separator : Bool := false
  deriving DecidableEq, Repr

structure Menu where
  title : String
  items : List MenuItem
  deriving DecidableEq, Repr

def sep : MenuItem := { separator := true }

/-- The menus; `Open` and `Settings` are drawn with an ellipsis. -/
def menus : List Menu :=
  [⟨"File", [⟨"Open", "Ctrl+O", some .open, true, false⟩, sep,
      ⟨"Quit", "Ctrl+Q", some .quit, true, false⟩]⟩,
    ⟨"Debug", [⟨"Run", "F5", some (.stub "Run"), true, false⟩,
      ⟨"Step Into", "F7", some (.stub "Step Into"), true, false⟩,
      ⟨"Step Over", "F8", some (.stub "Step Over"), true, false⟩,
      ⟨"Continue", "F9", some (.stub "Continue"), true, false⟩,
      ⟨"Pause", "", some (.stub "Pause"), true, false⟩,
      ⟨"Reset", "", some (.stub "Reset"), true, false⟩]⟩,
    ⟨"Edit", [⟨"Recompile", "", none, false, false⟩]⟩,
    ⟨"View", [⟨"Symbol Sidebar", "Ctrl+B", some .toggleSidebar, true, false⟩, sep,
      ⟨"Registers", "", some .toggleRegisters, true, false⟩,
      ⟨"Stack", "", some .toggleStack, true, false⟩,
      ⟨"Memory", "", some .toggleMemory, true, false⟩]⟩,
    ⟨"Tools", [⟨"Settings", "", some .settings, true, false⟩]⟩]

/-- The buttons of the toolbar from left to right; none is disabled. -/
def tools : List (Option Command) :=
  [some .toggleSidebar, some .open, some (.stub "Run"), some (.stub "Step Into"),
    some (.stub "Step Over"), some (.stub "Continue"), some (.stub "Pause"),
    some (.stub "Reset"), none, some .goto, some .settings]

def altMenu : Key → Option Nat
  | .AltF => some 0
  | .AltD => some 1
  | .AltE => some 2
  | .AltV => some 3
  | .AltT => some 4
  | _ => none

/-- What the screen asks of its panes, of the session and of the file system. -/
structure Surroundings (S : Type) where
  dash : List UInt8
  loaded : S → Bool
  setStatus : List UInt8 → S → S
  openFile : List UInt8 → S → Bool × S
  refresh : S → S
  home : S → Option (List UInt8)
  isRegularFile : S → List UInt8 → Bool
  entries : S → List UInt8 → Option (List Entry)
  onEvent : Pane → Key → S → Reply × S
  click : Pane → Int → Int → S → Reply × S
  capturing : Pane → S → Bool
  tab : Pane → Direction → S → Bool × S
  enter : Pane → Direction → S → S
  navigateTo : UInt64 → S → S
  gotoOffset : UInt64 → S → S
  beginFilter : S → S

/-- `tui::AppView`. `menuOpen` is none where the source has -1. -/
structure AppView where
  focus : Focus := .Disassembly
  tab : Tab := .Registers
  sidebarOn : Bool := true
  regsOn : Bool := true
  stackOn : Bool := true
  memoryOn : Bool := true
  toolSel : Nat := 1
  menuOpen : Option Nat := none
  barSel : Nat := 0
  menuSel : Nat := 0
  gotoActive : Bool := false
  goto : LineEdit := {}
  showOpen : Bool := false
  openFailed : Bool := false
  execsOnly : Bool := true
  openPath : LineEdit := {}
  comps : List Completion := []
  compSel : Nat := 0
  exited : Bool := false

/-- The screen with everything around it. -/
structure State (S : Type) where
  view : AppView
  rest : S

/-- Where clickable things were drawn on the last frame. -/
structure Hits where
  menu : Nat → Area
  drop : Area
  tool : Nat → Area
  pane : Focus → Area
  tab : Tab → Area
  welcome : Area
  comps : Area
  openBtn : Area
  cancelBtn : Area
  fileType : Area

inductive Button where
  | left | wheelUp | wheelDown | other
  deriving DecidableEq

structure Mouse where
  button : Button
  x : Int
  y : Int

namespace AppView

def kShown : Nat := 5

/-- The first completion that the dialog has room for. -/
def firstShown (view : AppView) : Nat :=
  if kShown ≤ view.compSel then view.compSel - kShown + 1 else 0

/-- The rows of completions in the dialog. -/
def shownCompletions (view : AppView) : List (Option Completion) :=
  (List.range kShown).map fun k => view.comps[view.firstShown + k]?

/-- `focusOrder()`. -/
def focusOrder (view : AppView) (loaded : Bool) : List Focus :=
  [.MenuBar, .Toolbar] ++ (if loaded && view.sidebarOn then [.Symbols] else []) ++
    [.Disassembly] ++ (if view.regsOn || view.stackOn then [.Right] else []) ++
    (if view.memoryOn then [.Memory] else [])

def validateFocus (view : AppView) (loaded : Bool) : AppView :=
  let focused :=
    if view.focus ∈ view.focusOrder loaded then view else { view with focus := .Disassembly }
  let focused :=
    if focused.tab = .Registers ∧ focused.regsOn = false ∧ focused.stackOn = true then
      { focused with tab := .Stack }
    else focused
  if focused.tab = .Stack ∧ focused.stackOn = false ∧ focused.regsOn = true then
    { focused with tab := .Registers }
  else focused

/-- The place in `focusOrder()` behind the focused one in a direction. -/
def nextFocus (view : AppView) (loaded : Bool) (direction : Direction) : Except Fault Focus :=
  let order := view.focusOrder loaded
  let i := order.idxOf view.focus
  let i := if i < order.length then i else 0
  let i :=
    match direction with
    | .forward => (i + 1) % order.length
    | .backward => (i + order.length - 1) % order.length
  match order[i]? with
  | none => .error .outOfRange
  | some focus => .ok focus

def paneFor (view : AppView) : Focus → Option Pane
  | .MenuBar | .Toolbar => none
  | .Symbols => some .Symbols
  | .Disassembly => some .Disassembly
  | .Right => some (if view.tab = .Registers then .Registers else .Stack)
  | .Memory => some .Memory

def focusedPane (view : AppView) : Option Pane := view.paneFor view.focus

def switchTab (view : AppView) : AppView :=
  let switched :=
    if view.regsOn && view.stackOn then
      { view with tab := if view.tab = .Registers then .Stack else .Registers }
    else view
  if switched.regsOn || switched.stackOn then { switched with focus := .Right } else switched

/-- The first item of a menu that is no separator. -/
def openMenu (view : AppView) (i : Nat) : Except Fault AppView :=
  match menus[i]? with
  | none => .error .outOfRange
  | some menu => .ok { view with
      menuOpen := some i
      barSel := i
      menuSel := (menu.items.takeWhile MenuItem.separator).length }

/-- The open menu's next item in a direction that is no separator. -/
def stepItem (items : List MenuItem) (step menuSel : Nat) : Except Fault Nat :=
  match seek (fun i => ((items[i]?).map fun item => !item.separator).getD true || i == menuSel)
    items.length step items.length menuSel with
  | none => .error .endless
  | some i => .ok i

/-- The toolbar's next button in a direction that is not disabled. -/
def stepTool (toolSel : Nat) (step : Nat) : Except Fault Nat :=
  match seek (fun i => ((tools[i]?).getD none).isSome) tools.length step tools.length toolSel with
  | none => .error .endless
  | some i => .ok i

end AppView

namespace State

variable {S : Type} (ops : Surroundings S) (state : State S)

def setStatus (text : List UInt8) : State S :=
  { state with rest := ops.setStatus text state.rest }

def stub (name : String) : State S :=
  state.setStatus ops (bytesOf (name ++ ": not implemented yet ") ++ ops.dash ++
    bytesOf " the execution engine is WIP.")

def settings : State S :=
  state.setStatus ops (bytesOf "Settings: not available in the terminal yet " ++ ops.dash ++
    bytesOf " change them in the GUI.")

def refreshCompletions : State S :=
  let typed := unquote state.view.openPath.value
  let base := baseOf typed
  let directory := expandHome (ops.home state.rest) (if base.isEmpty then [0x2E] else base)
  { state with view := { state.view with
      compSel := 0
      comps :=
        match ops.entries state.rest directory with
        | none => []
        | some entries => completions typed state.view.execsOnly entries } }

def beginOpen (seed : List UInt8) : State S :=
  refreshCompletions ops { state with view := { state.view with
    showOpen := true, openFailed := false, openPath := LineEdit.set seed } }

/-- `openPath_.set(path); refreshCompletions();` -/
def complete (path : List UInt8) : State S :=
  refreshCompletions ops { state with view := { state.view with openPath := LineEdit.set path } }

def openTarget (target : List UInt8) : State S :=
  let (opened, rest) := ops.openFile (expandHome (ops.home state.rest) target) state.rest
  if opened then
    { view := { state.view with showOpen := false, openFailed := false, focus := .Disassembly }
      rest := rest }
  else { view := { state.view with openFailed := true }, rest := rest }

def submitOpen : Except Fault (State S) :=
  let typed := unquote state.view.openPath.value
  if typed = [] ∨
      ops.isRegularFile state.rest (expandHome (ops.home state.rest) typed) = false then
    if state.view.comps ≠ [] then
      match state.view.comps[state.view.compSel]? with
      | none => .error .outOfRange
      | some c => .ok (if c.dir then state.complete ops c.path else state.openTarget ops c.path)
    else .ok (if typed = [] then state else state.openTarget ops typed)
  else .ok (state.openTarget ops typed)

def runCommand : Command → State S
  | .open => state.beginOpen ops []
  | .quit => { state with view := { state.view with exited := true } }
  | .stub name => state.stub ops name
  | .settings => state.settings ops
  | .goto =>
      if ops.loaded state.rest then
        { state with view := { state.view with gotoActive := true, goto := LineEdit.set [] } }
      else state
  | .toggleSidebar => { state with view := { state.view with sidebarOn := !state.view.sidebarOn } }
  | .toggleRegisters => { state with view := { state.view with regsOn := !state.view.regsOn } }
  | .toggleStack => { state with view := { state.view with stackOn := !state.view.stackOn } }
  | .toggleMemory => { state with view := { state.view with memoryOn := !state.view.memoryOn } }

def runTool (i : Nat) : Except Fault (State S) :=
  match tools[i]? with
  | none => .error .outOfRange
  | some none => .ok state
  | some (some command) => .ok (state.runCommand ops command)

/-- The screen with another view of the same. -/
def showing (view : AppView) : State S := { state with view := view }

/-- What the symbols call back with. -/
def activate : Option Activation → State S
  | none => state
  | some (.onNavigate vaddr) =>
      { view := { state.view with focus := .Disassembly }
        rest := ops.setStatus (bytesOf "Jumped to 0x" ++ hexText 8 vaddr.toNat)
          (ops.navigateTo vaddr state.rest) }
  | some (.onMemory offset) =>
      { view := { state.view with memoryOn := true }
        rest := ops.setStatus (bytesOf "Showing file offset 0x" ++ hexText 8 offset.toNat)
          (ops.gotoOffset offset state.rest) }

def paneEvent (pane : Pane) (e : Key) : Bool × State S :=
  let (reply, rest) := ops.onEvent pane e state.rest
  (reply.handled, ({ state with rest := rest } : State S).activate ops reply.activation)

def paneClick (pane : Pane) (x y : Int) : State S :=
  let (reply, rest) := ops.click pane x y state.rest
  ({ state with rest := rest } : State S).activate ops reply.activation

def submitGoto : State S :=
  let closed := { state with view := { state.view with gotoActive := false } }
  let raw := trim state.view.goto.value
  if raw.isEmpty then closed
  else
    match typedNumber raw with
    | some vaddr =>
        { view := { closed.view with focus := .Disassembly }
          rest := ops.navigateTo vaddr closed.rest }
    | none => closed.setStatus ops ([0x22] ++ raw ++ bytesOf "\" is not a hex address.")

/-- The field of the focused pane that is next in a direction, if it has one. -/
def tabbed (direction : Direction) : Bool × S :=
  match state.view.focusedPane with
  | some pane => ops.tab pane direction state.rest
  | none => (false, state.rest)

/-- The screen with its focus on another place, whose pane is entered from that direction. -/
def entered (direction : Direction) (focus : Focus) : State S :=
  let view := { state.view with focus := focus }
  { view := view
    rest := match view.focusedPane with
      | some pane => ops.enter pane direction state.rest
      | none => state.rest }

def cycleFocus (direction : Direction) : Except Fault (State S) :=
  let (taken, rest) := state.tabbed ops direction
  let later := { state with rest := rest }
  if taken then .ok later
  else (state.view.nextFocus (ops.loaded rest) direction).map (later.entered ops direction)

/-- Whether an event has been used, and the screen behind it. -/
abbrev Outcome (S : Type) := Except Fault (Bool × State S)

/-- The keys of the menu bar; none leaves an event to those behind it. -/
def onMenuBarEvent (e : Key) : Option (Outcome S) :=
  let n := menus.length
  let view := state.view
  match e with
  | .ArrowLeft =>
      some (.ok (true, state.showing { view with barSel := (view.barSel + n - 1) % n }))
  | .ArrowRight => some (.ok (true, state.showing { view with barSel := (view.barSel + 1) % n }))
  | .Return | .ArrowDown | .Character [0x20] =>
      some ((view.openMenu view.barSel).map fun view => (true, state.showing view))
  | _ => none

/-- The keys of the toolbar. -/
def onToolbarEvent (e : Key) : Option (Outcome S) :=
  let select (step : Nat) : Outcome S :=
    (AppView.stepTool state.view.toolSel step).map fun toolSel =>
      (true, state.showing { state.view with toolSel := toolSel })
  match e with
  | .ArrowLeft => some (select (tools.length - 1))
  | .ArrowRight => some (select (tools.length + 1))
  | .Return | .Character [0x20] =>
      some ((state.runTool ops state.view.toolSel).map fun state => (true, state))
  | _ => none

/-- The keys while the menu `open` is open. -/
def onMenuEvent (opened : Nat) (e : Key) : Outcome S :=
  let n := menus.length
  let openMenu (i : Nat) : Outcome S :=
    (state.view.openMenu i).map fun view => (true, state.showing view)
  match menus[opened]? with
  | none => .error .outOfRange
  | some menu =>
      let select (step : Nat) : Outcome S :=
        (AppView.stepItem menu.items step state.view.menuSel).map fun menuSel =>
          (true, state.showing { state.view with menuSel := menuSel })
      let closed := state.showing { state.view with menuOpen := none }
      match e with
      | .Escape | .F10 => .ok (true, closed)
      | .ArrowLeft => openMenu ((opened + n - 1) % n)
      | .ArrowRight => openMenu ((opened + 1) % n)
      | .ArrowUp => select (menu.items.length - 1)
      | .ArrowDown => select 1
      | .Return =>
          match menu.items[state.view.menuSel]? with
          | none => .error .outOfRange
          | some item =>
              match item.enabled, item.run with
              | true, some command => .ok (true, closed.runCommand ops command)
              | _, _ => .ok (true, closed)
      | e =>
          match altMenu e with
          | some m => openMenu m
          | none => .ok (true, state)

/-- The keys while the open dialog is shown. -/
def onOpenEvent (e : Key) : Outcome S :=
  let view := state.view
  match e with
  | .Escape => .ok (true, state.showing { view with showOpen := false })
  | .Return => (state.submitOpen ops).map fun state => (true, state)
  | .Tab =>
      if view.comps ≠ [] then
        match view.comps[view.compSel]? with
        | none => .error .outOfRange
        | some c => .ok (true, state.complete ops c.path)
      else .ok (true, state)
  | .ArrowUp =>
      .ok (true, if 0 < view.compSel then state.showing { view with compSel := view.compSel - 1 }
        else state)
  | .ArrowDown =>
      .ok (true, if view.compSel + 1 < view.comps.length then
          state.showing { view with compSel := view.compSel + 1 }
        else state)
  | .CtrlT =>
      .ok (true, (state.showing { view with execsOnly := !view.execsOnly }).refreshCompletions ops)
  | e =>
      if e.edits then
        .ok (true, (state.showing { view with
          openPath := view.openPath.handle e.event, openFailed := false }).refreshCompletions ops)
      else .ok (true, state)

/-- The keys that neither the shortcuts nor the bars have taken. -/
def behindBars (e : Key) : Outcome S :=
  let view := state.view
  if !ops.loaded state.rest then
    match e with
    | .Return => .ok (true, state.beginOpen ops [])
    | .Character bytes => .ok (true, state.beginOpen ops bytes)
    | _ => .ok (false, state)
  else if e = .CtrlG ∨ e = letter 'g' then
    .ok (true, state.showing { view with gotoActive := true, goto := LineEdit.set [] })
  else if e = letter '/' ∧ view.sidebarOn = true then
    .ok (true, { view := { view with focus := .Symbols }, rest := ops.beginFilter state.rest })
  else
    match view.focusedPane with
    | some pane => .ok (state.paneEvent ops pane e)
    | none => .ok (false, state)

/-- The keys that the shortcuts have not taken. -/
def onBarsEvent (e : Key) : Outcome S :=
  if state.view.focus = .MenuBar then
    (state.onMenuBarEvent e).getD (state.behindBars ops e)
  else if state.view.focus = .Toolbar then
    (state.onToolbarEvent ops e).getD (state.behindBars ops e)
  else state.behindBars ops e

/-- The keys that nothing has taken before the shortcuts. -/
def onPlainEvent (e : Key) : Outcome S :=
  let view := state.view
  let openMenu (i : Nat) : Outcome S :=
    (view.openMenu i).map fun view => (true, state.showing view)
  if e = .CtrlO ∨ e = letter 'o' then .ok (true, state.beginOpen ops [])
  else if e = .CtrlQ ∨ e = letter 'q' then .ok (true, state.showing { view with exited := true })
  else
    match e with
    | .F5 => .ok (true, state.stub ops "Run")
    | .F7 => .ok (true, state.stub ops "Step Into")
    | .F8 => .ok (true, state.stub ops "Step Over")
    | .F9 => .ok (true, state.stub ops "Continue")
    | .CtrlB => .ok (true, state.showing { view with sidebarOn := !view.sidebarOn })
    | .F10 => openMenu 0
    | .Tab => (state.cycleFocus ops .forward).map fun state => (true, state)
    | .TabReverse => (state.cycleFocus ops .backward).map fun state => (true, state)
    | e =>
        match altMenu e with
        | some m => openMenu m
        | none =>
            if e = letter '[' ∨ e = letter ']' then .ok (true, state.showing view.switchTab)
            else state.onBarsEvent ops e

/-- The pane that wants every key, if the focused one does. -/
def capturingPane : Option Pane :=
  state.view.focusedPane.filter fun pane => ops.capturing pane state.rest

/-- The keys while an address is asked for. -/
def onGotoEvent (e : Key) : Outcome S :=
  match e with
  | .Escape => .ok (true, state.showing { state.view with gotoActive := false })
  | .Return => .ok (true, state.submitGoto ops)
  | e => .ok (true, state.showing { state.view with goto := state.view.goto.handle e.event })

/-- `OnEvent` of a key. -/
def onEvent (e : Key) : Outcome S :=
  if e = .Custom then .ok (false, state)
  else if state.view.showOpen then state.onOpenEvent ops e
  else
    match state.view.menuOpen with
    | some opened => state.onMenuEvent ops opened e
    | none =>
        if state.view.gotoActive then state.onGotoEvent ops e
        else
          match state.capturingPane ops with
          | some pane => .ok (state.paneEvent ops pane e)
          | none => state.onPlainEvent ops e

/-- The mouse while the open dialog is shown. -/
def onOpenMouse (hits : Hits) (m : Mouse) : Except Fault (State S) :=
  let view := state.view
  match m.button with
  | .wheelUp =>
      .ok (if 0 < view.compSel then state.showing { view with compSel := view.compSel - 1 }
        else state)
  | .wheelDown =>
      .ok (if view.compSel + 1 < view.comps.length then
          state.showing { view with compSel := view.compSel + 1 }
        else state)
  | _ =>
      if hits.comps.contain m.x m.y then
        let i := view.firstShown + (m.y - hits.comps.yMin).toNat
        if view.comps.length ≤ i then .ok state
        else if i ≠ view.compSel then .ok (state.showing { view with compSel := i })
        else
          match view.comps[i]? with
          | none => .error .outOfRange
          | some c =>
              let chosen := state.complete ops c.path
              if c.dir then .ok chosen else chosen.submitOpen ops
      else if hits.openBtn.contain m.x m.y then state.submitOpen ops
      else if hits.cancelBtn.contain m.x m.y then
        .ok (state.showing { view with showOpen := false })
      else if hits.fileType.contain m.x m.y then
        .ok ((state.showing { view with execsOnly := !view.execsOnly }).refreshCompletions ops)
      else .ok state

/-- The mouse while the menu `opened` is open and no title is under it. -/
def onMenuMouse (hits : Hits) (m : Mouse) (opened : Nat) : Outcome S :=
  let closed := state.showing { state.view with menuOpen := none }
  if m.button ≠ .left then .ok (true, state)
  else
    match menus[opened]? with
    | none => .error .outOfRange
    | some menu =>
        let i := m.y - hits.drop.yMin - 1
        if hits.drop.contain m.x m.y && decide (0 ≤ i) then
          match menu.items[i.toNat]? with
          | none => .ok (true, closed)
          | some item =>
              if item.separator then .ok (true, closed)
              else (state.showing { state.view with menuSel := i.toNat }).onMenuEvent ops opened
                .Return
        else .ok (true, closed)

/-- The panes under the mouse. -/
def onPaneMouse (hits : Hits) (m : Mouse) : Outcome S :=
  match [Focus.Symbols, .Disassembly, .Right, .Memory].find?
      fun f => (hits.pane f).contain m.x m.y with
  | none => .ok (false, state)
  | some f =>
      let focused := state.showing { state.view with focus := f }
      match state.view.paneFor f with
      | none => .error .outOfRange
      | some pane =>
          let wheel (e : Key) : State S :=
            (List.replicate 3 e).foldl (fun state e => (state.paneEvent ops pane e).2) focused
          match m.button with
          | .wheelUp => .ok (true, wheel .ArrowUp)
          | .wheelDown => .ok (true, wheel .ArrowDown)
          | _ => .ok (true, focused.paneClick ops pane m.x m.y)

/-- A left press on the toolbar, a tab of the dock or the welcome button; none where it is on
none of them. -/
def onBarMouse (hits : Hits) (m : Mouse) : Option (Outcome S) :=
  match (List.range tools.length).find? fun i => (hits.tool i).contain m.x m.y with
  | some i => some ((state.runTool ops i).map fun state => (true, state))
  | none =>
      match [Tab.Registers, .Stack].find? fun t => (hits.tab t).contain m.x m.y with
      | some t => some (.ok (true, state.showing { state.view with tab := t, focus := .Right }))
      | none =>
          if hits.welcome.contain m.x m.y then some (.ok (true, state.beginOpen ops []))
          else none

/-- `OnEvent` of the mouse. -/
def onMouse (hits : Hits) (m : Mouse) : Outcome S :=
  if m.button = .other then .ok (false, state)
  else if state.view.showOpen then (state.onOpenMouse ops hits m).map fun state => (true, state)
  else
    let title :=
      if m.button = .left then
        (List.range menus.length).find? fun i => (hits.menu i).contain m.x m.y
      else none
    match title, state.view.menuOpen with
    | some i, opened =>
        if opened = some i then .ok (true, state.showing { state.view with menuOpen := none })
        else (state.view.openMenu i).map fun view => (true, state.showing view)
    | none, some opened => state.onMenuMouse ops hits m opened
    | none, none =>
        if m.button = .left then
          let state := state.showing { state.view with gotoActive := false }
          (state.onBarMouse ops hits m).getD (state.onPaneMouse ops hits m)
        else state.onPaneMouse ops hits m

/-- `OnRender`, where the panes are drawn after the focus has been seen to. -/
def onRender : State S :=
  let rest := ops.refresh state.rest
  { view := state.view.validateFocus (ops.loaded rest), rest := rest }

end State

/-- An event, a frame, or a change of what is around the screen. -/
inductive Input (S : Type) where
  | key (e : Key)
  | mouse (hits : Hits) (m : Mouse)
  | frame
  | surroundings (rest : S)

/-- One input of a run. -/
def State.perform {S : Type} (ops : Surroundings S) (state : State S) :
    Input S → Except Fault (State S)
  | .key e => (state.onEvent ops e).map fun outcome => outcome.2
  | .mouse hits m => (state.onMouse ops hits m).map fun outcome => outcome.2
  | .frame => .ok (state.onRender ops)
  | .surroundings rest => .ok { state with rest := rest }

end Voidwalk.TuiScreen

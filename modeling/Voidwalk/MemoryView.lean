import Voidwalk.FrontendRows
import Voidwalk.Library.HexWords
import Voidwalk.SymbolSidebar

/-!
`tui::MemoryPane`: the hexdump, the list of sections and the field for an offset, over runs of
keys, clicks, frames and binaries.
-/

namespace Voidwalk.MemoryView

open Voidwalk.MappedFile
open Voidwalk.FrontendRows
open Voidwalk.ScrollWindow
open Voidwalk.SymbolSidebar
open Voidwalk.Library.HexWords

/-- The tab stops of the pane. -/
inductive Stop where
  | Section | Offset | Rows
  deriving DecidableEq, Repr

/-- What the pane asks of `tui::Session`. -/
structure Memory where
  loaded : Bool := false
  decodeGeneration : UInt64 := 0
  sections : List SectionInfo := []
  /-- `chosen_` is an `int`. -/
  sections_lt : sections.length < 2 ^ 31 := by decide
  binarySize : UInt64 := 0
  binarySize_lt : binarySize.toNat < 2 ^ 63 := by decide

namespace Memory

/-- The generation that the pane is to show. -/
def shownGen (memory : Memory) : UInt64 := if memory.loaded then memory.decodeGeneration else 0

/-- `MemoryPane::totalRows()`. -/
def totalRows (memory : Memory) : UInt64 :=
  if memory.loaded then (memory.binarySize + 15) / 16 else 0

end Memory

/-- `tui::MemoryPane`. `chosen` is none where the source has -1. -/
structure MemoryPane where
  viewport : Box := {}
  sections : List SectionInfo := []
  chosen : Option Nat := none
  picking : Bool := false
  pick : Scroll := {}
  editing : Bool := false
  offset : LineEdit := {}
  sectionBox : Area := {}
  offsetBox : Area := {}
  stop : Stop := .Rows
  scroll : Scroll := {}
  gen : UInt64 := 0xFFFFFFFFFFFFFFFF

/-- The keys of `moveRows` among the events. -/
def rowKey : Event → Key
  | .ArrowUp => .ArrowUp
  | .ArrowDown => .ArrowDown
  | .PageUp => .PageUp
  | .PageDown => .PageDown
  | .Home => .Home
  | .End => .End
  | _ => .other

/-- The number in the field of an offset, after `0x` if there is one; none where it is not hex
to its end. -/
def typedNumber (value : List UInt8) : Option UInt64 :=
  let digits := if [0x30, 0x78] <+: value ∨ [0x30, 0x58] <+: value then value.drop 2 else value
  match stoull digits with
  | some (number, used) => if used = digits.length then some number else none
  | none => none

/-- The direction of `Tab`, or of `Shift+Tab`. -/
inductive Direction where
  | forward | backward
  deriving DecidableEq, Repr

namespace MemoryPane

variable (memory : Memory) (pane : MemoryPane)

def sync : MemoryPane :=
  if memory.shownGen = pane.gen then pane
  else
    { pane with
      gen := memory.shownGen
      sections := memory.sections
      chosen := none
      picking := false
      editing := false
      stop := .Rows
      scroll := {} }

def gotoOffset (offset : UInt64) : MemoryPane :=
  let pane := pane.sync memory
  let rows := memory.totalRows
  if rows = 0 then pane
  else
    let row := min (offset / 16) (rows - 1)
    { pane with scroll := { cursor := row, top := row } }

def tab : Direction → Bool × MemoryPane
  | .forward =>
      match pane.stop with
      | .Section => (true, { pane with stop := .Offset })
      | .Offset => (true, { pane with stop := .Rows })
      | .Rows => (false, pane)
  | .backward =>
      match pane.stop with
      | .Section => (false, pane)
      | .Offset => (true, { pane with stop := .Section })
      | .Rows => (true, { pane with stop := .Offset })

def enter : Direction → MemoryPane
  | .forward => { pane with stop := .Section }
  | .backward => { pane with stop := .Rows }

def capturing : Bool := pane.picking || pane.editing

/-- The keys while the list of sections is open. -/
def pickEvent : Event → Except Thrown (Bool × MemoryPane)
  | .Escape => .ok (true, { pane with picking := false })
  | .ArrowUp =>
      if 0 < pane.pick.cursor then
        .ok (true, { pane with pick := { pane.pick with cursor := pane.pick.cursor - 1 } })
      else .ok (true, pane)
  | .ArrowDown =>
      if pane.pick.cursor + 1 < UInt64.ofNat pane.sections.length then
        .ok (true, { pane with pick := { pane.pick with cursor := pane.pick.cursor + 1 } })
      else .ok (true, pane)
  | .Return =>
      match pane.sections[pane.pick.cursor.toNat]? with
      | none => .error .outOfRange
      | some picked =>
          let closed := { pane with chosen := some pane.pick.cursor.toNat, picking := false }
          .ok (true, closed.gotoOffset memory picked.offset)
  | _ => .ok (true, pane)

/-- The keys while an offset is typed. -/
def editEvent : Event → MemoryPane
  | .Escape => { pane with editing := false }
  | .Return =>
      let closed := { pane with editing := false }
      match typedNumber pane.offset.value with
      | some offset => closed.gotoOffset memory offset
      | none => closed
  | e => { pane with offset := pane.offset.handle e }

/-- The keys that open a field, and those of the rows. -/
def rowsEvent (e : Event) : Bool × MemoryPane :=
  if e = .Character [0x73] ∧ pane.sections ≠ [] then
    (true, { pane with
      stop := .Section
      picking := true
      pick := { pane.pick with cursor := UInt64.ofNat (pane.chosen.getD 0) } })
  else if e = .Character [0x66] then
    (true, { pane with stop := .Offset, editing := true, offset := LineEdit.set [] })
  else
    let (moved, cursor) :=
      moveRows (rowKey e) pane.scroll.cursor memory.totalRows (pane.viewport.rows 20)
    if moved then
      (true, { pane with
        stop := .Rows
        scroll := follow { pane.scroll with cursor := cursor } memory.totalRows
          (pane.viewport.rows 20) })
    else (false, pane)

/-- The key that opens a field. -/
def fieldKey : Stop → Event
  | .Section => .Character [0x73]
  | _ => .Character [0x66]

def onEvent (e : Event) : Except Thrown (Bool × MemoryPane) :=
  let pane := pane.sync memory
  if pane.picking then pane.pickEvent memory e
  else if pane.editing then .ok (true, pane.editEvent memory e)
  else if !memory.loaded then .ok (false, pane)
  else if pane.stop ≠ .Rows then
    match e with
    -- `onEvent` once more, which gets to the rows with this key.
    | .Return | .Character [0x20] => .ok (pane.rowsEvent memory (fieldKey pane.stop))
    | .ArrowLeft | .ArrowRight =>
        .ok (true, { pane with stop := if pane.stop = .Section then .Offset else .Section })
    | .ArrowDown => .ok (true, { pane with stop := .Rows })
    | e => .ok (pane.rowsEvent memory e)
  else .ok (pane.rowsEvent memory e)

def click (x y : Int) : Except Thrown (Bool × MemoryPane) :=
  let pane := pane.sync memory
  if !memory.loaded then .ok (false, pane)
  else if pane.sectionBox.contain x y then
    let pane := { pane with editing := false, stop := .Section }
    if pane.picking then .ok (true, { pane with picking := false })
    else pane.onEvent memory (.Character [0x73])
  else if pane.offsetBox.contain x y then
    let pane := { pane with picking := false, stop := .Offset }
    if pane.editing then .ok (true, pane)
    else .ok (true, { pane with editing := true, offset := LineEdit.set [] })
  else
    let pane := { pane with editing := false }
    match rowAt pane.viewport y (if pane.picking then pane.pick.top else pane.scroll.top) with
    | none => .ok (false, pane)
    | some i =>
        if pane.picking then
          if UInt64.ofNat pane.sections.length ≤ i then .ok (false, pane)
          else { pane with pick := { pane.pick with cursor := i } }.onEvent memory .Return
        else if memory.totalRows ≤ i then .ok (false, pane)
        else .ok (true, { pane with stop := .Rows, scroll := { pane.scroll with cursor := i } })

/-- The section that the field names; none for "Jump to". -/
def label : Except Thrown (Option SectionInfo) :=
  match pane.chosen with
  | none => .ok none
  | some i =>
      match pane.sections[i]? with
      | none => .error .outOfRange
      | some picked => .ok (some picked)

/-- What a frame draws: the sections of the open list, or rows of the hexdump. -/
structure Drawn where
  label : Option SectionInfo
  sections : List SectionInfo := []
  rows : List Nat := []

/-- The pane as a frame draws it. -/
def followed : MemoryPane :=
  let pane := pane.sync memory
  let height := pane.viewport.rows 20
  if pane.picking then
    { pane with pick := follow pane.pick (UInt64.ofNat pane.sections.length) height }
  else if memory.loaded then { pane with scroll := follow pane.scroll memory.totalRows height }
  else pane

/-- The sections in the window of the list; each is looked up under its index. -/
def listed : Except Thrown (List SectionInfo) :=
  (drawnRows pane.pick (UInt64.ofNat pane.sections.length) (pane.viewport.rows 20)).mapM fun i =>
    match pane.sections[i]? with
    | none => .error .outOfRange
    | some entry => .ok entry

/-- The boxes that a frame is laid out in. A height is an `int`. -/
structure Layout where
  viewport : Box := {}
  sectionBox : Area := {}
  offsetBox : Area := {}
  rows_lt : rowsOf (viewport.rows 20) < 2 ^ 31 := by decide

/-- A frame, which draws in the old viewport and lays out the new one. -/
def render (layout : Layout) : Except Thrown (Drawn × MemoryPane) := do
  let label ← (pane.sync memory).label
  let followed := pane.followed memory
  let sections ← (if followed.picking then followed.listed else pure [])
  let rows :=
    if !followed.picking && memory.loaded then
      drawnRows followed.scroll memory.totalRows (followed.viewport.rows 20)
    else []
  pure (⟨label, sections, rows⟩, { followed with
    viewport := layout.viewport
    sectionBox := layout.sectionBox
    offsetBox := layout.offsetBox })

end MemoryPane

/-- The pane with its session. -/
structure View where
  memory : Memory := {}
  pane : MemoryPane := {}

/-- What happens to a view: the session shows another binary, or the pane is called. -/
inductive Action where
  | session (memory : Memory)
  | onEvent (e : Event)
  | click (x y : Int)
  | gotoOffset (offset : UInt64)
  | tab (direction : Direction)
  | enter (direction : Direction)
  | render (layout : MemoryPane.Layout)

namespace View

def perform (view : View) : Action → Except Thrown View
  | .session memory => .ok { view with memory := memory }
  | .onEvent e => (view.pane.onEvent view.memory e).map fun outcome =>
      { view with pane := outcome.2 }
  | .click x y => (view.pane.click view.memory x y).map fun outcome =>
      { view with pane := outcome.2 }
  | .gotoOffset offset => .ok { view with pane := view.pane.gotoOffset view.memory offset }
  | .tab direction => .ok { view with pane := (view.pane.tab direction).2 }
  | .enter direction => .ok { view with pane := view.pane.enter direction }
  | .render layout => (view.pane.render view.memory layout).map fun outcome =>
      { view with pane := outcome.2 }

end View

/-- What holds of a pane between two calls. -/
structure Standing (pane : MemoryPane) : Prop where
  length_lt : pane.sections.length < 2 ^ 31
  chosen : ∀ i ∈ pane.chosen, i < pane.sections.length
  picking : pane.picking = true → pane.pick.cursor.toNat < pane.sections.length
  exclusive : pane.picking = true → pane.editing = false
  rows_lt : rowsOf (pane.viewport.rows 20) < 2 ^ 31

section Steps

variable {memory : Memory} {pane : MemoryPane}

theorem Standing.start : Standing {} := by
  refine ⟨by decide, fun i hi => ?_, fun h => ?_, fun h => ?_, by decide⟩
  · exact absurd hi (by simp)
  · exact absurd h Bool.false_ne_true
  · exact absurd h Bool.false_ne_true

/-- A pane whose list is closed. -/
theorem Standing.closed (h : Standing pane) {later : MemoryPane}
    (hsections : later.sections = pane.sections) (hviewport : later.viewport = pane.viewport)
    (hchosen : ∀ i ∈ later.chosen, i < pane.sections.length) (hclosed : later.picking = false) :
    Standing later := by
  refine ⟨hsections ▸ h.length_lt, hsections ▸ hchosen, fun hopen => ?_, fun hopen => ?_,
    hviewport ▸ h.rows_lt⟩
  · exact absurd (hclosed.symm.trans hopen) Bool.false_ne_true
  · exact absurd (hclosed.symm.trans hopen) Bool.false_ne_true

/-- What neither list nor fields depend on may change. -/
theorem Standing.moved (h : Standing pane) {later : MemoryPane}
    (hsections : later.sections = pane.sections) (hviewport : later.viewport = pane.viewport)
    (hchosen : later.chosen = pane.chosen) (hpicking : later.picking = pane.picking)
    (hpick : later.pick = pane.pick) (hediting : later.editing = pane.editing) :
    Standing later := by
  refine ⟨hsections ▸ h.length_lt, ?_, ?_, ?_, hviewport ▸ h.rows_lt⟩
  · rw [hchosen, hsections]
    exact h.chosen
  · rw [hpicking, hpick, hsections]
    exact h.picking
  · rw [hpicking, hediting]
    exact h.exclusive

theorem Standing.sync (h : Standing pane) (memory : Memory) : Standing (pane.sync memory) := by
  rw [MemoryPane.sync]
  split
  · exact h
  · refine ⟨memory.sections_lt, fun i hi => ?_, fun hopen => ?_, fun hopen => ?_, h.rows_lt⟩
    · exact absurd hi (by simp)
    · exact absurd hopen Bool.false_ne_true
    · exact absurd hopen Bool.false_ne_true

theorem Standing.gotoOffset (h : Standing pane) (memory : Memory) (offset : UInt64) :
    Standing (pane.gotoOffset memory offset) := by
  rw [MemoryPane.gotoOffset]
  split
  · exact h.sync memory
  · exact (h.sync memory).moved rfl rfl rfl rfl rfl rfl

theorem toNat_length (h : Standing pane) :
    (UInt64.ofNat pane.sections.length).toNat = pane.sections.length :=
  UInt64.toNat_ofNat_of_lt' (h.length_lt.trans (by decide))

theorem pickEvent_standing (h : Standing pane) (hopen : pane.picking = true) (e : Event) :
    ∃ outcome, pane.pickEvent memory e = .ok outcome ∧ Standing outcome.2 := by
  have hpick := h.picking hopen
  have hlength := toNat_length h
  have hclosed : Standing { pane with picking := false } := h.closed rfl rfl h.chosen rfl
  have hkept (cursor : UInt64) (hcursor : cursor.toNat < pane.sections.length) :
      Standing { pane with pick := { pane.pick with cursor := cursor } } :=
    ⟨h.length_lt, h.chosen, fun _ => hcursor, h.exclusive, h.rows_lt⟩
  rw [MemoryPane.pickEvent.eq_def]
  split
  · exact ⟨_, rfl, hclosed⟩
  · split
    · rename_i hpos
      refine ⟨_, rfl, hkept _ ?_⟩
      have hone : 1 ≤ pane.pick.cursor := by
        rw [UInt64.le_iff_toNat_le]
        exact UInt64.lt_iff_toNat_lt.mp hpos
      rw [UInt64.toNat_sub_of_le _ _ hone]
      omega
    · exact ⟨_, rfl, h⟩
  · split
    · rename_i hnext
      exact ⟨_, rfl, hkept _ (hlength ▸ UInt64.lt_iff_toNat_lt.mp hnext)⟩
    · exact ⟨_, rfl, h⟩
  · rw [List.getElem?_eq_getElem hpick]
    refine ⟨_, rfl, Standing.gotoOffset ?_ _ _⟩
    refine h.closed rfl rfl (fun i hi => ?_) rfl
    rw [← Option.some.inj hi]
    exact hpick
  · exact ⟨_, rfl, h⟩

theorem editEvent_standing (h : Standing pane) (hclosed : pane.picking = false) (e : Event) :
    Standing (pane.editEvent memory e) := by
  rw [MemoryPane.editEvent.eq_def]
  split
  · exact h.closed rfl rfl h.chosen hclosed
  · dsimp only
    have hdone : Standing { pane with editing := false } := h.closed rfl rfl h.chosen hclosed
    split
    · exact hdone.gotoOffset _ _
    · exact hdone
  · exact h.moved rfl rfl rfl rfl rfl rfl

theorem rowsEvent_standing (h : Standing pane) (hclosed : pane.picking = false)
    (hfree : pane.editing = false) (e : Event) : Standing (pane.rowsEvent memory e).2 := by
  rw [MemoryPane.rowsEvent]
  split
  · rename_i hkey
    refine ⟨h.length_lt, h.chosen, fun _ => ?_, fun _ => hfree, h.rows_lt⟩
    show (UInt64.ofNat (pane.chosen.getD 0)).toNat < pane.sections.length
    have hfirst : pane.chosen.getD 0 < pane.sections.length := by
      cases hchosen : pane.chosen with
      | none => exact List.length_pos_of_ne_nil hkey.2
      | some i => exact h.chosen i hchosen
    rw [UInt64.toNat_ofNat_of_lt' (hfirst.trans (h.length_lt.trans (by decide)))]
    exact hfirst
  split
  · exact h.closed rfl rfl h.chosen hclosed
  · dsimp only
    split
    · exact h.closed rfl rfl h.chosen hclosed
    · exact h

theorem onEvent_standing (h : Standing pane) (e : Event) :
    ∃ outcome, pane.onEvent memory e = .ok outcome ∧ Standing outcome.2 := by
  have hsync := h.sync memory
  rw [MemoryPane.onEvent.eq_def]
  dsimp only
  split
  · rename_i hopen
    exact pickEvent_standing hsync hopen e
  rename_i hclosed
  rw [Bool.not_eq_true] at hclosed
  split
  · exact ⟨_, rfl, editEvent_standing hsync hclosed e⟩
  rename_i hfree
  rw [Bool.not_eq_true] at hfree
  have hrows (e : Event) : Standing ((pane.sync memory).rowsEvent memory e).2 :=
    rowsEvent_standing hsync hclosed hfree e
  split
  · exact ⟨_, rfl, hsync⟩
  split
  · split
    · exact ⟨_, rfl, hrows _⟩
    · exact ⟨_, rfl, hrows _⟩
    · exact ⟨_, rfl, hsync.closed rfl rfl hsync.chosen hclosed⟩
    · exact ⟨_, rfl, hsync.closed rfl rfl hsync.chosen hclosed⟩
    · exact ⟨_, rfl, hsync.closed rfl rfl hsync.chosen hclosed⟩
    · exact ⟨_, rfl, hrows _⟩
  · exact ⟨_, rfl, hrows _⟩

theorem click_standing (h : Standing pane) (x y : Int) :
    ∃ outcome, pane.click memory x y = .ok outcome ∧ Standing outcome.2 := by
  have hsync := h.sync memory
  have hunedited (stop : Stop) :
      Standing { pane.sync memory with editing := false, stop := stop } :=
    ⟨hsync.length_lt, hsync.chosen, hsync.picking, fun _ => rfl, hsync.rows_lt⟩
  rw [MemoryPane.click]
  dsimp only
  split
  · exact ⟨_, rfl, hsync⟩
  split
  · split
    · exact ⟨_, rfl, hsync.closed rfl rfl hsync.chosen rfl⟩
    · exact onEvent_standing (hunedited .Section) _
  split
  · split
    · exact ⟨_, rfl, hsync.closed rfl rfl hsync.chosen rfl⟩
    · exact ⟨_, rfl, hsync.closed rfl rfl hsync.chosen rfl⟩
  split
  · exact ⟨_, rfl, hunedited _⟩
  · rename_i i _
    split
    · rename_i hopen
      split
      · exact ⟨_, rfl, hunedited _⟩
      · rename_i hinside
        have hplain := hunedited (pane.sync memory).stop
        apply onEvent_standing
        refine ⟨hplain.length_lt, hplain.chosen, fun _ => ?_, fun _ => rfl, hplain.rows_lt⟩
        show i.toNat < (pane.sync memory).sections.length
        rw [← toNat_length hsync]
        exact Nat.not_le.mp fun hle => hinside (UInt64.le_iff_toNat_le.mpr hle)
    · rename_i hclosed
      rw [Bool.not_eq_true] at hclosed
      split
      · exact ⟨_, rfl, hunedited _⟩
      · exact ⟨_, rfl, hsync.closed rfl rfl hsync.chosen hclosed⟩

end Steps

section Frames

variable {memory : Memory} {pane : MemoryPane}

theorem toNat_totalRows (h : memory.loaded = true) :
    memory.totalRows.toNat = (memory.binarySize.toNat + 15) / 16 := by
  have hsize := memory.binarySize_lt
  have hsum : (memory.binarySize + 15).toNat = memory.binarySize.toNat + 15 := by
    rw [UInt64.toNat_add]
    exact Nat.mod_eq_of_lt (by simp only [UInt64.reduceToNat]; omega)
  rw [Memory.totalRows, if_pos h, UInt64.toNat_div, hsum]
  rfl

theorem totalRows_lt (memory : Memory) : memory.totalRows.toNat < 2 ^ 62 := by
  cases hloaded : memory.loaded with
  | false =>
      rw [Memory.totalRows, if_neg (by simp [hloaded])]
      decide
  | true =>
      have hsize := memory.binarySize_lt
      rw [toNat_totalRows hloaded]
      omega

theorem label_ok (h : Standing pane) : ∃ shown, pane.label = .ok shown := by
  rw [MemoryPane.label]
  cases hchosen : pane.chosen with
  | none => exact ⟨none, rfl⟩
  | some i =>
      dsimp only
      rw [List.getElem?_eq_getElem (h.chosen i hchosen)]
      exact ⟨_, rfl⟩

theorem pick_window (h : Standing pane) :
    Window (UInt64.ofNat pane.sections.length) (pane.viewport.rows 20)
      (follow pane.pick (UInt64.ofNat pane.sections.length) (pane.viewport.rows 20)) := by
  have hlength := h.length_lt
  have hrows := h.rows_lt
  apply window_follow
  rw [toNat_length h]
  omega

theorem scroll_window (h : Standing pane) (memory : Memory) :
    Window memory.totalRows (pane.viewport.rows 20)
      (follow pane.scroll memory.totalRows (pane.viewport.rows 20)) := by
  have htotal := totalRows_lt memory
  have hrows := h.rows_lt
  apply window_follow
  omega

/-- What a frame shows of a pane: the chosen section, and the window of the open list or that
of the hexdump. -/
structure Shows (memory : Memory) (pane : MemoryPane) (drawn : MemoryPane.Drawn)
    (later : MemoryPane) : Prop where
  label : (pane.sync memory).label = .ok drawn.label
  chosen : later.chosen = (pane.sync memory).chosen
  picking : later.picking = (pane.sync memory).picking
  list : later.picking = true →
    Window (UInt64.ofNat later.sections.length) (pane.viewport.rows 20) later.pick ∧
      drawn.rows = [] ∧
      drawn.sections.map some = (drawnRows later.pick (UInt64.ofNat later.sections.length)
        (pane.viewport.rows 20)).map fun i => later.sections[i]?
  dump : later.picking = false → memory.loaded = true →
    Window memory.totalRows (pane.viewport.rows 20) later.scroll ∧
      later.scroll =
        follow (pane.sync memory).scroll memory.totalRows (pane.viewport.rows 20) ∧
      drawn.sections = [] ∧
      drawn.rows = drawnRows later.scroll memory.totalRows (pane.viewport.rows 20)

theorem sync_viewport (pane : MemoryPane) (memory : Memory) :
    (pane.sync memory).viewport = pane.viewport := by
  rw [MemoryPane.sync]
  split
  · rfl
  · rfl

/-- Entries under indices in range are all looked up. -/
theorem listed_ok {indices : List Nat} {sections : List SectionInfo}
    (h : ∀ i ∈ indices, i < sections.length) :
    ∃ entries, (indices.mapM fun i => (match sections[i]? with
        | none => .error .outOfRange
        | some entry => .ok entry : Except Thrown SectionInfo)) = .ok entries ∧
      entries.map some = indices.map fun i => sections[i]? := by
  induction indices with
  | nil => exact ⟨[], rfl, rfl⟩
  | cons first rest ih =>
      rw [List.forall_mem_cons] at h
      obtain ⟨entries, hentries, hsome⟩ := ih h.2
      refine ⟨sections[first] :: entries, ?_, ?_⟩
      · rw [List.mapM_cons, List.getElem?_eq_getElem h.1, hentries]
        rfl
      · rw [List.map_cons, List.map_cons, hsome, List.getElem?_eq_getElem h.1]

/-- What is followed is a window, and nothing else has changed since the pane was in step. -/
structure Followed (memory : Memory) (pane followed : MemoryPane) : Prop where
  standing : Standing followed
  viewport : followed.viewport = pane.viewport
  chosen : followed.chosen = (pane.sync memory).chosen
  picking : followed.picking = (pane.sync memory).picking
  list : followed.picking = true →
    Window (UInt64.ofNat followed.sections.length) (pane.viewport.rows 20) followed.pick
  dump : followed.picking = false → memory.loaded = true →
    Window memory.totalRows (pane.viewport.rows 20) followed.scroll ∧
      followed.scroll =
        follow (pane.sync memory).scroll memory.totalRows (pane.viewport.rows 20)

theorem followed_followed (h : Standing pane) : Followed memory pane (pane.followed memory) := by
  have hsync := h.sync memory
  have hwindow := pick_window hsync
  have hscroll := scroll_window hsync memory
  have hlength := toNat_length hsync
  rw [MemoryPane.followed]
  rw [sync_viewport] at hwindow hscroll ⊢
  split
  · rename_i hopen
    have hne : UInt64.ofNat (pane.sync memory).sections.length ≠ 0 := by
      intro hzero
      rw [hzero] at hlength
      exact absurd (hlength ▸ hsync.picking hopen) (Nat.not_lt_zero _)
    have hcursor := UInt64.lt_iff_toNat_lt.mp (hwindow.cursor_lt hne)
    rw [hlength] at hcursor
    refine ⟨⟨hsync.length_lt, hsync.chosen, fun _ => hcursor, hsync.exclusive, h.rows_lt⟩, rfl,
      rfl, rfl, fun _ => hwindow, fun hclosed => ?_⟩
    exact absurd (hclosed.symm.trans hopen) Bool.false_ne_true
  rename_i hclosed
  split
  · exact ⟨hsync.moved rfl (sync_viewport pane memory).symm rfl rfl rfl rfl, rfl, rfl, rfl,
      fun hopen => absurd hopen hclosed, fun _ _ => ⟨hscroll, rfl⟩⟩
  · rename_i hnone
    exact ⟨hsync, sync_viewport pane memory, rfl, rfl, fun hopen => absurd hopen hclosed,
      fun _ hloaded => absurd hloaded hnone⟩

/-- A frame looks nothing up out of range, and what it draws is a window. -/
theorem render_ok (h : Standing pane) (layout : MemoryPane.Layout) :
    ∃ drawn later, pane.render memory layout = .ok (drawn, later) ∧ Standing later ∧
      Shows memory pane drawn later := by
  obtain ⟨label, hlabel⟩ := label_ok (h.sync memory)
  have hfollowed := @followed_followed memory pane h
  rw [MemoryPane.render, hlabel]
  generalize pane.followed memory = followed at hfollowed ⊢
  have hstanding := hfollowed.standing
  have hlaid : Standing { followed with
      viewport := layout.viewport
      sectionBox := layout.sectionBox
      offsetBox := layout.offsetBox } :=
    ⟨hstanding.length_lt, hstanding.chosen, hstanding.picking, hstanding.exclusive,
      layout.rows_lt⟩
  cases hopen : followed.picking with
  | true =>
      have hlength := toNat_length hstanding
      obtain ⟨entries, hentries, hsome⟩ := listed_ok fun i hi =>
        hlength ▸ (hfollowed.list hopen).drawn_lt i hi
      have hlisted : followed.listed = .ok entries := by
        rw [MemoryPane.listed, hfollowed.viewport]
        exact hentries
      refine ⟨⟨label, entries, []⟩, _, ?_, hlaid,
        ⟨hlabel, hfollowed.chosen, hfollowed.picking, fun _ => ?_, fun hclosed => ?_⟩⟩
      · simp only [hopen, hlisted]
        rfl
      · exact ⟨hfollowed.list hopen, rfl, hsome⟩
      · exact absurd (hclosed.symm.trans hopen) Bool.false_ne_true
  | false =>
      refine ⟨⟨label, [], if memory.loaded then
        drawnRows followed.scroll memory.totalRows (followed.viewport.rows 20) else []⟩, _, ?_,
        hlaid, ⟨hlabel, hfollowed.chosen, hfollowed.picking, fun hpicking => ?_,
          fun _ hloaded => ?_⟩⟩
      · simp only [hopen]
        rfl
      · exact absurd (hopen.symm.trans hpicking) Bool.false_ne_true
      · obtain ⟨hwindow, hscroll⟩ := hfollowed.dump hopen hloaded
        refine ⟨hwindow, hscroll, rfl, ?_⟩
        rw [if_pos hloaded, hfollowed.viewport]

end Frames

section Runs

theorem View.perform_ok {view : View} (h : Standing view.pane) (action : Action) :
    ∃ later, view.perform action = .ok later ∧ Standing later.pane := by
  cases action with
  | session memory => exact ⟨_, rfl, h⟩
  | onEvent e =>
      obtain ⟨outcome, hevent, hlater⟩ := @onEvent_standing view.memory view.pane h e
      rw [View.perform, hevent]
      exact ⟨_, rfl, hlater⟩
  | click x y =>
      obtain ⟨outcome, hclick, hlater⟩ := @click_standing view.memory view.pane h x y
      rw [View.perform, hclick]
      exact ⟨_, rfl, hlater⟩
  | gotoOffset offset => exact ⟨_, rfl, h.gotoOffset view.memory offset⟩
  | tab direction =>
      refine ⟨_, rfl, ?_⟩
      cases direction with
      | forward =>
          rw [MemoryPane.tab]
          split
          · exact h.moved rfl rfl rfl rfl rfl rfl
          · exact h.moved rfl rfl rfl rfl rfl rfl
          · exact h
      | backward =>
          rw [MemoryPane.tab]
          split
          · exact h
          · exact h.moved rfl rfl rfl rfl rfl rfl
          · exact h.moved rfl rfl rfl rfl rfl rfl
  | enter direction =>
      refine ⟨_, rfl, ?_⟩
      cases direction with
      | forward => exact h.moved rfl rfl rfl rfl rfl rfl
      | backward => exact h.moved rfl rfl rfl rfl rfl rfl
  | render layout =>
      obtain ⟨drawn, later, hrender, hlater, -⟩ := @render_ok view.memory view.pane h layout
      rw [View.perform, hrender]
      exact ⟨_, rfl, hlater⟩

theorem View.run_ok {view : View} (h : Standing view.pane) (actions : List Action) :
    ∃ later, actions.foldlM View.perform view = .ok later ∧ Standing later.pane := by
  induction actions generalizing view with
  | nil => exact ⟨view, rfl, h⟩
  | cons action actions ih =>
      obtain ⟨next, hnext, hstanding⟩ := View.perform_ok h action
      obtain ⟨later, hlater, hdone⟩ := ih hstanding
      exact ⟨later, by rw [List.foldlM_cons, hnext]; exact hlater, hdone⟩

/-- In every run the sections are only looked up in range, at most one field takes the keys,
and a frame draws a window around the cursor of the list or of the hexdump. -/
theorem frames_in_range (actions : List Action) (layout : MemoryPane.Layout) :
    ∃ view, actions.foldlM View.perform {} = .ok view ∧
      ¬ (view.pane.picking = true ∧ view.pane.editing = true) ∧
      ∃ drawn later, view.pane.render view.memory layout = .ok (drawn, later) ∧
        Shows view.memory view.pane drawn later := by
  obtain ⟨view, hrun, hstanding⟩ := @View.run_ok {} Standing.start actions
  obtain ⟨drawn, later, hrender, -, hshows⟩ := @render_ok view.memory view.pane hstanding layout
  refine ⟨view, hrun, ?_, drawn, later, hrender, hshows⟩
  rintro ⟨hpicking, hediting⟩
  exact absurd ((hstanding.exclusive hpicking).symm.trans hediting) Bool.false_ne_true

end Runs

section Jumps

variable {memory : Memory} {pane : MemoryPane}

/-- The pane behind a row of keys. -/
def press (memory : Memory) (pane : MemoryPane) (e : Event) : Except Thrown MemoryPane :=
  (pane.onEvent memory e).map fun outcome => outcome.2

def presses (memory : Memory) (events : List Event) (pane : MemoryPane) :
    Except Thrown MemoryPane :=
  events.foldlM (press memory) pane

theorem presses_cons {next : MemoryPane} {e : Event} {events : List Event}
    (h : press memory pane e = .ok next) :
    presses memory (e :: events) pane = presses memory events next := by
  rw [presses, List.foldlM_cons, h]
  rfl

theorem presses_append {next : MemoryPane} {first second : List Event}
    (h : presses memory first pane = .ok next) :
    presses memory (first ++ second) pane = presses memory second next := by
  rw [presses] at h
  rw [presses, List.foldlM_append, h]
  rfl

theorem gen_sync (pane : MemoryPane) (memory : Memory) :
    (pane.sync memory).gen = memory.shownGen := by
  rw [MemoryPane.sync]
  split
  · rename_i hsame
    exact hsame.symm
  · rfl

theorem sync_of_gen (h : pane.gen = memory.shownGen) : pane.sync memory = pane := by
  rw [MemoryPane.sync, if_pos h.symm]

theorem press_sync (pane : MemoryPane) (e : Event) :
    press memory (pane.sync memory) e = press memory pane e := by
  rw [press, press, MemoryPane.onEvent.eq_def, MemoryPane.onEvent.eq_def,
    sync_of_gen (gen_sync pane memory)]

/-- A pane of the shown binary that takes no keys for itself. -/
structure Idle (memory : Memory) (pane : MemoryPane) : Prop where
  gen : pane.gen = memory.shownGen
  picking : pane.picking = false
  editing : pane.editing = false

theorem idle_sync (h : (pane.sync memory).capturing = false) : Idle memory (pane.sync memory) := by
  rw [MemoryPane.capturing, Bool.or_eq_false_iff] at h
  exact ⟨gen_sync pane memory, h.1, h.2⟩

theorem Idle.capturing (h : Idle memory pane) : pane.capturing = false := by
  rw [MemoryPane.capturing, h.picking, h.editing]
  rfl

/-- A letter goes to the rows from every tab stop. -/
theorem Idle.press_letter (h : Idle memory pane) (hloaded : memory.loaded = true) {letter : UInt8}
    (hletter : letter ≠ 0x20) :
    press memory pane (.Character [letter]) =
      .ok (pane.rowsEvent memory (.Character [letter])).2 := by
  rw [press, MemoryPane.onEvent.eq_def]
  simp only [sync_of_gen h.gen, h.picking, h.editing, hloaded, Bool.false_eq_true, if_false,
    Bool.not_true]
  split
  · split
    · rename_i heq
      exact absurd heq (by simp)
    · rename_i heq
      exact absurd (List.cons.inj (Event.Character.inj heq)).1 hletter
    · rename_i heq
      exact absurd heq (by simp)
    · rename_i heq
      exact absurd heq (by simp)
    · rename_i heq
      exact absurd heq (by simp)
    · rfl
  · rfl

theorem handle_typed (chunks : List (List UInt8)) (field : LineEdit)
    (h : field.cursor = field.value.length) :
    (chunks.foldl (fun field bytes => field.handle (.Character bytes)) field).value =
      field.value ++ chunks.flatten := by
  induction chunks generalizing field with
  | nil => simp
  | cons bytes chunks ih =>
      have hvalue : (field.handle (.Character bytes)).value = field.value ++ bytes := by
        show field.value.take field.cursor ++ bytes ++ field.value.drop field.cursor = _
        rw [h, List.take_length, List.drop_length, List.append_nil]
      have hcursor : (field.handle (.Character bytes)).cursor =
          (field.handle (.Character bytes)).value.length := by
        rw [hvalue, List.length_append, ← h]
        rfl
      rw [List.foldl_cons, ih _ hcursor, hvalue, List.flatten_cons, List.append_assoc]

/-- An open field takes every key. -/
theorem press_editing (hgen : pane.gen = memory.shownGen) (hclosed : pane.picking = false)
    (hediting : pane.editing = true) (e : Event) :
    press memory pane e = .ok (pane.editEvent memory e) := by
  rw [press, MemoryPane.onEvent.eq_def, sync_of_gen hgen]
  dsimp only
  rw [if_neg (by simp [hclosed]), if_pos hediting]
  rfl

/-- Letters and pasted texts go to the field of the offset. -/
theorem presses_typed (chunks : List (List UInt8)) (hgen : pane.gen = memory.shownGen)
    (hclosed : pane.picking = false) (hediting : pane.editing = true) :
    presses memory (chunks.map .Character) pane = .ok { pane with
      offset :=
        chunks.foldl (fun field bytes => field.handle (.Character bytes)) pane.offset } := by
  induction chunks generalizing pane with
  | nil => rfl
  | cons bytes chunks ih =>
      rw [List.map_cons, presses_cons (press_editing hgen hclosed hediting _)]
      exact @ih { pane with offset := pane.offset.handle (.Character bytes) } hgen hclosed hediting

/-- Where the rows go for an offset. -/
def jumped (memory : Memory) (scroll : Scroll) (offset : UInt64) : Scroll :=
  if memory.totalRows = 0 then scroll
  else
    { cursor := min (offset / 16) (memory.totalRows - 1)
      top := min (offset / 16) (memory.totalRows - 1) }

theorem Idle.gotoOffset (h : Idle memory pane) (offset : UInt64) :
    Idle memory (pane.gotoOffset memory offset) ∧
      (pane.gotoOffset memory offset).scroll = jumped memory pane.scroll offset := by
  rw [MemoryPane.gotoOffset, sync_of_gen h.gen, jumped]
  split
  · exact ⟨h, rfl⟩
  · exact ⟨⟨h.gen, h.picking, h.editing⟩, rfl⟩

theorem gotoOffset_kept (hgen : pane.gen = memory.shownGen) (offset : UInt64) :
    (pane.gotoOffset memory offset).chosen = pane.chosen ∧
      (pane.gotoOffset memory offset).sections = pane.sections := by
  rw [MemoryPane.gotoOffset, sync_of_gen hgen]
  split
  · exact ⟨rfl, rfl⟩
  · exact ⟨rfl, rfl⟩

/-- An offset that is typed moves the rows, whatever else is typed leaves them. -/
theorem typed_offset (hloaded : memory.loaded = true)
    (hfree : (pane.sync memory).capturing = false) (chunks : List (List UInt8)) :
    ∃ later, presses memory (.Character [0x66] :: chunks.map .Character ++ [.Return]) pane =
        .ok later ∧ Idle memory later ∧
      later.scroll = ((typedNumber chunks.flatten).map
        (jumped memory (pane.sync memory).scroll)).getD (pane.sync memory).scroll := by
  have hidle := idle_sync hfree
  generalize hbefore : pane.sync memory = before at hidle ⊢
  have hopened : press memory pane (.Character [0x66]) = .ok { before with
      stop := .Offset, editing := true, offset := LineEdit.set [] } := by
    rw [← press_sync, hbefore, hidle.press_letter hloaded (by decide), MemoryPane.rowsEvent,
      if_neg (by simp), if_pos rfl]
  have htyped := @presses_typed memory { before with
    stop := .Offset, editing := true, offset := LineEdit.set [] } chunks hidle.gen hidle.picking rfl
  have hvalue := handle_typed chunks (LineEdit.set []) rfl
  generalize hfield : chunks.foldl (fun field bytes => field.handle (.Character bytes))
    (LineEdit.set []) = field at htyped hvalue
  have hreturn := @press_editing memory { before with
    stop := .Offset, editing := true, offset := field } hidle.gen hidle.picking rfl .Return
  rw [List.cons_append, presses_cons hopened, presses_append htyped, presses_cons hreturn]
  refine ⟨_, rfl, ?_⟩
  simp only [MemoryPane.editEvent, show field.value = chunks.flatten from hvalue]
  cases hnumber : typedNumber chunks.flatten with
  | none => exact ⟨⟨hidle.gen, hidle.picking, rfl⟩, rfl⟩
  | some offset =>
      exact @Idle.gotoOffset memory { before with
        stop := .Offset, editing := false, offset := field } ⟨hidle.gen, hidle.picking, rfl⟩ offset

/-- An open list takes every key. -/
theorem press_picking (hgen : pane.gen = memory.shownGen) (hopen : pane.picking = true)
    (e : Event) :
    press memory pane e = (pane.pickEvent memory e).map fun outcome => outcome.2 := by
  rw [press, MemoryPane.onEvent.eq_def, sync_of_gen hgen]
  dsimp only
  rw [if_pos hopen]

/-- Where the choice is after so many steps down from where it was. -/
def stepped (length first steps : Nat) : Nat := min (first + steps) (length - 1)

/-- An open list takes the arrow down. -/
theorem presses_down (hstanding : Standing pane) (hgen : pane.gen = memory.shownGen)
    (hopen : pane.picking = true) (steps : Nat) :
    ∃ cursor, presses memory (List.replicate steps .ArrowDown) pane =
        .ok { pane with pick := { pane.pick with cursor := cursor } } ∧
      cursor.toNat = stepped pane.sections.length pane.pick.cursor.toNat steps := by
  have hpick := hstanding.picking hopen
  induction steps generalizing pane with
  | zero =>
      refine ⟨pane.pick.cursor, rfl, ?_⟩
      rw [stepped]
      omega
  | succ steps ih =>
      have hlength := toNat_length hstanding
      have hlt := hstanding.length_lt
      have hnext : ∃ cursor, press memory pane .ArrowDown =
          .ok { pane with pick := { pane.pick with cursor := cursor } } ∧
            cursor.toNat = min (pane.pick.cursor.toNat + 1) (pane.sections.length - 1) := by
        have hsum : (pane.pick.cursor + 1).toNat = pane.pick.cursor.toNat + 1 := by
          rw [UInt64.toNat_add]
          exact Nat.mod_eq_of_lt (by simp only [UInt64.reduceToNat]; omega)
        rw [press_picking hgen hopen, MemoryPane.pickEvent.eq_def]
        dsimp only
        split
        · rename_i hinside
          rw [UInt64.lt_iff_toNat_lt, hlength, hsum] at hinside
          exact ⟨_, rfl, by omega⟩
        · rename_i hend
          rw [UInt64.lt_iff_toNat_lt, hlength, hsum] at hend
          exact ⟨pane.pick.cursor, rfl, by omega⟩
      obtain ⟨cursor, hpress, hcursor⟩ := hnext
      have hlater : Standing { pane with pick := { pane.pick with cursor := cursor } } := by
        refine ⟨hstanding.length_lt, hstanding.chosen, fun _ => ?_, hstanding.exclusive,
          hstanding.rows_lt⟩
        show cursor.toNat < pane.sections.length
        omega
      obtain ⟨final, hrest, hfinal⟩ := @ih { pane with
        pick := { pane.pick with cursor := cursor } } hlater hgen hopen (hlater.picking hopen)
      refine ⟨final, ?_, ?_⟩
      · rw [List.replicate_succ, presses_cons hpress]
        exact hrest
      · rw [hfinal, stepped, stepped]
        show min (cursor.toNat + steps) (pane.sections.length - 1) = _
        omega

/-- A section that is picked is the chosen one and moves the rows to its offset. -/
theorem picked_section (hstanding : Standing pane) (hloaded : memory.loaded = true)
    (hfree : (pane.sync memory).capturing = false) (hne : (pane.sync memory).sections ≠ [])
    (steps : Nat) :
    ∃ later picked, presses memory
        (.Character [0x73] :: List.replicate steps .ArrowDown ++ [.Return]) pane = .ok later ∧
      Idle memory later ∧
      later.chosen = some (stepped (pane.sync memory).sections.length
        ((pane.sync memory).chosen.getD 0) steps) ∧
      later.label = .ok (some picked) ∧
      (pane.sync memory).sections[stepped (pane.sync memory).sections.length
        ((pane.sync memory).chosen.getD 0) steps]? = some picked ∧
      later.scroll = jumped memory (pane.sync memory).scroll picked.offset := by
  have hidle := idle_sync hfree
  have hbefore := hstanding.sync memory
  generalize hsync : pane.sync memory = before at hidle hne hbefore ⊢
  have hopened : press memory pane (.Character [0x73]) = .ok { before with
      stop := .Section
      picking := true
      pick := { before.pick with cursor := UInt64.ofNat (before.chosen.getD 0) } } := by
    rw [← press_sync, hsync, hidle.press_letter hloaded (by decide), MemoryPane.rowsEvent,
      if_pos ⟨rfl, hne⟩]
  have hrows := @rowsEvent_standing memory before hbefore hidle.picking hidle.editing
    (.Character [0x73])
  rw [MemoryPane.rowsEvent, if_pos ⟨rfl, hne⟩] at hrows
  obtain ⟨cursor, hdown, hcursor⟩ := presses_down hrows hidle.gen rfl steps
  have hfirst : before.chosen.getD 0 < before.sections.length := by
    cases hchosen : before.chosen with
    | none => exact List.length_pos_of_ne_nil hne
    | some i => exact hbefore.chosen i hchosen
  have hstart : (UInt64.ofNat (before.chosen.getD 0)).toNat = before.chosen.getD 0 :=
    UInt64.toNat_ofNat_of_lt' (hfirst.trans (hbefore.length_lt.trans (by decide)))
  dsimp only at hcursor
  rw [hstart] at hcursor
  have hinside : cursor.toNat < before.sections.length := by
    rw [hcursor, stepped]
    omega
  have hreturn : press memory { before with
      stop := .Section
      picking := true
      pick := { before.pick with cursor := cursor } } .Return = .ok (MemoryPane.gotoOffset memory
        { before with
          stop := .Section
          picking := false
          pick := { before.pick with cursor := cursor }
          chosen := some cursor.toNat } before.sections[cursor.toNat].offset) := by
    rw [@press_picking memory { before with
      stop := .Section
      picking := true
      pick := { before.pick with cursor := cursor } } hidle.gen rfl, MemoryPane.pickEvent.eq_def]
    dsimp only
    rw [List.getElem?_eq_getElem hinside]
    rfl
  obtain ⟨hdone, hscroll⟩ := @Idle.gotoOffset memory { before with
    stop := .Section
    picking := false
    pick := { before.pick with cursor := cursor }
    chosen := some cursor.toNat } ⟨hidle.gen, rfl, hidle.editing⟩
      before.sections[cursor.toNat].offset
  obtain ⟨hchosen, hsections⟩ := @gotoOffset_kept memory { before with
    stop := .Section
    picking := false
    pick := { before.pick with cursor := cursor }
    chosen := some cursor.toNat } hidle.gen before.sections[cursor.toNat].offset
  dsimp only at hchosen hsections
  refine ⟨_, before.sections[cursor.toNat], ?_, hdone, ?_, ?_, ?_, hscroll⟩
  · rw [List.cons_append, presses_cons hopened, presses_append hdown, presses_cons hreturn]
    rfl
  · rw [hchosen, hcursor]
  · rw [MemoryPane.label, hchosen, hsections]
    dsimp only
    rw [List.getElem?_eq_getElem hinside]
  · rw [← hcursor, List.getElem?_eq_getElem hinside]

theorem cursor_drawn {total : UInt64} {height : Int} {scroll : Scroll} (hne : total ≠ 0)
    (hfits : total.toNat + rowsOf height < 2 ^ 64) (h : Window total height scroll) :
    scroll.cursor.toNat ∈ drawnRows scroll total height := by
  have hcursor := UInt64.lt_iff_toNat_lt.mp (h.cursor_lt hne)
  obtain ⟨hle, hlt⟩ := h.contains hne
  rw [UInt64.le_iff_toNat_le] at hle
  have htop := h.top_le
  have hlength := @length_drawnRows scroll total height (by omega)
  have hdrawn : drawnRows scroll total height =
      List.range' scroll.top.toNat (drawnRows scroll total height).length := by
    rw [drawnRows, List.length_range']
  rw [hdrawn, List.mem_range'_1]
  omega

/-- A frame draws the row of a cursor that is on a row. -/
theorem Shows.row {drawn : MemoryPane.Drawn} {shown : MemoryPane}
    (hshows : Shows memory pane drawn shown) (hstanding : Standing pane)
    (hidle : Idle memory pane) (hloaded : memory.loaded = true)
    (hrow : pane.scroll.cursor < memory.totalRows) :
    shown.scroll.cursor = pane.scroll.cursor ∧ shown.scroll.cursor.toNat ∈ drawn.rows := by
  have hsame := sync_of_gen hidle.gen
  have hclosed : shown.picking = false := by
    rw [hshows.picking, hsame]
    exact hidle.picking
  obtain ⟨hwindow, hscroll, -, hrows⟩ := hshows.dump hclosed hloaded
  have hne : memory.totalRows ≠ 0 := by
    intro hzero
    rw [hzero] at hrow
    exact absurd (UInt64.lt_iff_toNat_lt.mp hrow) (Nat.not_lt_zero _)
  have htotal := totalRows_lt memory
  have hheight := hstanding.rows_lt
  have hfits : memory.totalRows.toNat + rowsOf (pane.viewport.rows 20) < 2 ^ 64 := by omega
  have hcursor : shown.scroll.cursor = pane.scroll.cursor := by
    have hkept := (@toNat_follow pane.scroll memory.totalRows _ hne hfits).1
    rw [hsame] at hscroll
    rw [← hscroll] at hkept
    rw [UInt64.lt_iff_toNat_lt] at hrow
    apply UInt64.toNat_inj.mp
    omega
  refine ⟨hcursor, ?_⟩
  rw [hrows]
  exact cursor_drawn hne hfits hwindow

/-- The row of an offset, or the last one where the offset is not in the file. -/
def rowOf (memory : Memory) (offset : UInt64) : Nat :=
  min (offset.toNat / 16) (memory.totalRows.toNat - 1)

theorem jumped_row (hloaded : memory.loaded = true) (hsize : 0 < memory.binarySize)
    (scroll : Scroll) (offset : UInt64) :
    (jumped memory scroll offset).cursor < memory.totalRows ∧
      (jumped memory scroll offset).cursor.toNat = rowOf memory offset := by
  have hrows := toNat_totalRows hloaded
  have hpos : 0 < memory.binarySize.toNat := UInt64.lt_iff_toNat_lt.mp hsize
  have hne : memory.totalRows ≠ 0 := by
    intro hzero
    rw [hzero] at hrows
    simp only [UInt64.reduceToNat] at hrows
    omega
  have hlast := toNat_sub_one hne
  have hrow : (offset / 16).toNat = offset.toNat / 16 := UInt64.toNat_div _ _
  have hclamped : (jumped memory scroll offset).cursor.toNat = rowOf memory offset := by
    rw [jumped, if_neg hne, rowOf, ← hrow, ← hlast]
    dsimp only
    rw [Std.min_eq_if]
    split
    · rename_i hle
      exact (Nat.min_eq_left (UInt64.le_iff_toNat_le.mp hle)).symm
    · rename_i hlt
      rw [UInt64.le_iff_toNat_le, Nat.not_le] at hlt
      exact (Nat.min_eq_right hlt.le).symm
  refine ⟨?_, hclamped⟩
  rw [UInt64.lt_iff_toNat_lt, hclamped, rowOf]
  omega

theorem rowOf_inside {offset : UInt64} (hloaded : memory.loaded = true)
    (hlt : offset < memory.binarySize) : rowOf memory offset = offset.toNat / 16 := by
  rw [UInt64.lt_iff_toNat_lt] at hlt
  rw [rowOf, toNat_totalRows hloaded]
  omega

/-- An offset as it is typed: hex digits behind any zeros, capital or small, with `0x` or `0X`
in front or without. -/
def IsOffset (offset : UInt64) (text : List UInt8) : Prop :=
  ∃ digits, Spells digits offset.toNat ∧
    (text = digits ∨ text = 0x30 :: 0x78 :: digits ∨ text = 0x30 :: 0x58 :: digits)

theorem typedNumber_of_isOffset {offset : UInt64} {text : List UInt8} (h : IsOffset offset text) :
    typedNumber text = some offset := by
  obtain ⟨digits, hspells, hform⟩ := h
  have hread : (match stoull digits with
      | some (number, used) => if used = digits.length then some number else none
      | none => none) = some offset := by
    rw [hspells.stoull_eq]
    exact if_pos rfl
  rcases hform with rfl | rfl | rfl
  · have hunmarked : ¬ ([0x30, 0x78] <+: text ∨ [0x30, 0x58] <+: text) := by
      have hdigit (byte : UInt8) (hbyte : byte ∈ text) :=
        isDigit_byte byte (hspells.digits byte hbyte)
      rintro (⟨rest, htext⟩ | ⟨rest, htext⟩)
      · exact (hdigit 0x78 (by simp [← htext])).2.2.2.1 rfl
      · exact (hdigit 0x58 (by simp [← htext])).2.2.2.2 rfl
    rw [typedNumber, if_neg hunmarked]
    exact hread
  · rw [typedNumber, if_pos (Or.inl ⟨digits, rfl⟩)]
    exact hread
  · rw [typedNumber, if_pos (Or.inr ⟨digits, rfl⟩)]
    exact hread

theorem presses_standing (hstanding : Standing pane) {events : List Event} {later : MemoryPane}
    (h : presses memory events pane = .ok later) : Standing later := by
  induction events generalizing pane with
  | nil =>
      rw [← Except.ok.inj h]
      exact hstanding
  | cons e events ih =>
      obtain ⟨outcome, hevent, hnext⟩ := @onEvent_standing memory pane hstanding e
      rw [presses_cons (show press memory pane e = .ok outcome.2 by rw [press, hevent]; rfl)] at h
      exact ih hnext h

end Jumps

section Reached

variable {actions : List Action} {view : View}

theorem standing_of_run (h : actions.foldlM View.perform {} = .ok view) : Standing view.pane := by
  obtain ⟨later, hlater, hstanding⟩ := @View.run_ok {} Standing.start actions
  rw [← Except.ok.inj (hlater.symm.trans h)]
  exact hstanding

/-- An offset in the file that is typed into the field is on the row that the next frame
selects and draws. -/
theorem typed_offset_shown (hrun : actions.foldlM View.perform {} = .ok view)
    (hloaded : view.memory.loaded = true)
    (hfree : (view.pane.sync view.memory).capturing = false) (offset : UInt64)
    (hlt : offset < view.memory.binarySize) (chunks : List (List UInt8))
    (htext : IsOffset offset chunks.flatten) (layout : MemoryPane.Layout) :
    ∃ later drawn shown,
      presses view.memory (.Character [0x66] :: chunks.map .Character ++ [.Return]) view.pane =
        .ok later ∧
      later.render view.memory layout = .ok (drawn, shown) ∧
      shown.scroll.cursor.toNat = offset.toNat / 16 ∧ offset.toNat / 16 ∈ drawn.rows := by
  have hstanding := standing_of_run hrun
  obtain ⟨later, hpresses, hidle, hscroll⟩ := @typed_offset view.memory view.pane hloaded hfree
    chunks
  rw [typedNumber_of_isOffset htext] at hscroll
  have hsize : 0 < view.memory.binarySize := UInt64.lt_of_le_of_lt UInt64.zero_le hlt
  obtain ⟨hrow, hnumber⟩ := jumped_row hloaded hsize (view.pane.sync view.memory).scroll offset
  rw [rowOf_inside hloaded hlt] at hnumber
  have hcursor := congrArg Scroll.cursor hscroll
  dsimp only [Option.map_some, Option.getD_some] at hcursor
  rw [← hcursor] at hrow hnumber
  have hlater := presses_standing hstanding hpresses
  obtain ⟨drawn, shown, hrender, -, hshows⟩ := @render_ok view.memory later hlater layout
  obtain ⟨hsame, hdrawn⟩ := hshows.row hlater hidle hloaded hrow
  rw [← hsame] at hnumber
  rw [hnumber] at hdrawn
  exact ⟨later, drawn, shown, hpresses, hrender, hnumber, hdrawn⟩

/-- A section that is picked off the list is the chosen one, its name is on the field, and the
next frame selects and draws the row that it begins on, or the last one where it begins outside
the file. -/
theorem picked_section_shown (hrun : actions.foldlM View.perform {} = .ok view)
    (hloaded : view.memory.loaded = true)
    (hfree : (view.pane.sync view.memory).capturing = false)
    (hne : (view.pane.sync view.memory).sections ≠ []) (steps : Nat)
    (layout : MemoryPane.Layout) :
    let index := stepped (view.pane.sync view.memory).sections.length
      ((view.pane.sync view.memory).chosen.getD 0) steps
    ∃ picked later drawn shown,
      (view.pane.sync view.memory).sections[index]? = some picked ∧
      presses view.memory (.Character [0x73] :: List.replicate steps .ArrowDown ++ [.Return])
        view.pane = .ok later ∧
      later.render view.memory layout = .ok (drawn, shown) ∧
      later.capturing = false ∧ later.chosen = some index ∧ shown.chosen = some index ∧
      drawn.label = some picked ∧
      (0 < view.memory.binarySize →
        shown.scroll.cursor.toNat = rowOf view.memory picked.offset ∧
          shown.scroll.cursor.toNat ∈ drawn.rows) ∧
      (picked.offset < view.memory.binarySize →
        shown.scroll.cursor.toNat = picked.offset.toNat / 16) := by
  intro index
  have hstanding := standing_of_run hrun
  obtain ⟨later, picked, hpresses, hidle, hchosen, hlabel, hpicked, hscroll⟩ :=
    picked_section hstanding hloaded hfree hne steps
  have hlater := presses_standing hstanding hpresses
  obtain ⟨drawn, shown, hrender, -, hshows⟩ := @render_ok view.memory later hlater layout
  have hsame := sync_of_gen hidle.gen
  have hdrawn : 0 < view.memory.binarySize →
      shown.scroll.cursor.toNat = rowOf view.memory picked.offset ∧
        shown.scroll.cursor.toNat ∈ drawn.rows := by
    intro hsize
    obtain ⟨hrow, hnumber⟩ :=
      jumped_row hloaded hsize (view.pane.sync view.memory).scroll picked.offset
    rw [← hscroll] at hrow hnumber
    obtain ⟨hcursor, hmem⟩ := hshows.row hlater hidle hloaded hrow
    exact ⟨(congrArg UInt64.toNat hcursor).trans hnumber, hmem⟩
  refine ⟨picked, later, drawn, shown, hpicked, hpresses, hrender, hidle.capturing, hchosen, ?_,
    ?_, hdrawn, ?_⟩
  · rw [hshows.chosen, hsame, hchosen]
  · have hshown := hshows.label
    rw [hsame, hlabel] at hshown
    exact (Except.ok.inj hshown).symm
  · intro hlt
    rw [(hdrawn (UInt64.lt_of_le_of_lt UInt64.zero_le hlt)).1, rowOf_inside hloaded hlt]

/-- A binary of 64 bytes with three sections. -/
def opened : Memory where
  loaded := true
  decodeGeneration := 1
  sections := [⟨".text", 0, 0x1000, 0x20⟩, ⟨".data", 0x28, 0x2000, 0x18⟩,
    ⟨".bss", 0x1000, 0x3000, 0x10⟩]
  binarySize := 64

theorem typed_offset_shown_opened : ∃ later drawn shown,
    presses opened (.Character [0x66] :: [[0x30], [0x58], [0x32, 0x41]].map .Character ++
      [.Return]) {} = .ok later ∧
    later.render opened {} = .ok (drawn, shown) ∧
    shown.scroll.cursor.toNat = (0x2A : UInt64).toNat / 16 ∧
      (0x2A : UInt64).toNat / 16 ∈ drawn.rows :=
  @typed_offset_shown [.session opened] ⟨opened, {}⟩ rfl rfl rfl 0x2A (by decide)
    [[0x30], [0x58], [0x32, 0x41]] ⟨[0x32, 0x41],
      ⟨List.all_eq_true.mp rfl, List.cons_ne_nil _ _, rfl⟩, .inr (.inr rfl)⟩ {}

/-- The last of the sections begins behind the file. -/
theorem picked_section_shown_opened : ∃ picked later drawn shown,
    opened.sections[stepped 3 0 2]? = some picked ∧
    presses opened (.Character [0x73] :: List.replicate 2 .ArrowDown ++ [.Return]) {} =
      .ok later ∧
    later.render opened {} = .ok (drawn, shown) ∧
    later.capturing = false ∧ later.chosen = some (stepped 3 0 2) ∧
    shown.chosen = some (stepped 3 0 2) ∧ drawn.label = some picked ∧
    (0 < opened.binarySize → shown.scroll.cursor.toNat = rowOf opened picked.offset ∧
      shown.scroll.cursor.toNat ∈ drawn.rows) ∧
    (picked.offset < opened.binarySize →
      shown.scroll.cursor.toNat = picked.offset.toNat / 16) :=
  @picked_section_shown [.session opened] ⟨opened, {}⟩ rfl rfl rfl
    (fun hnone => absurd (congrArg List.length hnone) (by decide)) 2 {}

end Reached

end Voidwalk.MemoryView

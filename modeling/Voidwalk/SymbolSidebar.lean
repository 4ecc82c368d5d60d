import Mathlib.Logic.Function.Iterate
import Voidwalk.ScrollWindow
import Voidwalk.TuiSession

/-!
`tui::SymbolsPane`: the symbol list of the sidebar, its filter, and the cursor over runs of
opens, scans, keys, clicks and frames. `std::tolower` is that of the C locale.
-/

namespace Voidwalk.SymbolSidebar

open Voidwalk.MappedFile
open Voidwalk.ScrollWindow
open Voidwalk.TuiSession

/-- The events that the pane and its field tell apart. -/
inductive Event where
  | Character (bytes : List UInt8)
  | ArrowUp | ArrowDown | ArrowLeft | ArrowRight | PageUp | PageDown | Home | End
  | Backspace | Delete | Return | Escape | other
  deriving DecidableEq

def continuation (byte : UInt8) : Bool := byte &&& 0xC0 == 0x80

/-- `tui::LineEdit`. -/
structure LineEdit where
  value : List UInt8 := []
  cursor : Nat := 0
  cursor_le : cursor ≤ value.length := by exact Nat.zero_le _

namespace LineEdit

def prev (value : List UInt8) : Nat → Nat
  | 0 => 0
  | p + 1 => if continuation (value.getD p 0) then prev value p else p

def next (value : List UInt8) (cursor : Nat) : Nat :=
  cursor + 1 + ((value.drop (cursor + 1)).takeWhile continuation).length

theorem prev_le (value : List UInt8) (cursor : Nat) : prev value cursor ≤ cursor := by
  induction cursor with
  | zero => exact Nat.le_refl _
  | succ p ih =>
      rw [prev]
      split
      · exact Nat.le_succ_of_le ih
      · exact Nat.le_succ p

theorem next_le {value : List UInt8} {cursor : Nat} (h : cursor < value.length) :
    next value cursor ≤ value.length := by
  have hmore := (@List.takeWhile_sublist _ (value.drop (cursor + 1)) continuation).length_le
  rw [List.length_drop] at hmore
  rw [next]
  omega

def set (value : List UInt8) : LineEdit where
  value := value
  cursor := value.length
  cursor_le := Nat.le_refl _

def insert (field : LineEdit) (bytes : List UInt8) : LineEdit where
  value := field.value.take field.cursor ++ bytes ++ field.value.drop field.cursor
  cursor := field.cursor + bytes.length
  cursor_le := by
    have hcursor := field.cursor_le
    simp only [List.length_append, List.length_take, List.length_drop]
    omega

/-- Erases from `first` to before `last` and puts the cursor at `first`. -/
def erase (field : LineEdit) (first last : Nat) (h : first ≤ field.value.length) : LineEdit where
  value := field.value.take first ++ field.value.drop last
  cursor := first
  cursor_le := by
    rw [List.length_append, List.length_take_of_le h]
    exact Nat.le_add_right _ _

/-- The field behind an event; whether it was one for the field nobody asks. -/
def handle (field : LineEdit) : Event → LineEdit
  | .Character bytes => field.insert bytes
  | .Backspace =>
      field.erase (prev field.value field.cursor) field.cursor
        ((prev_le _ _).trans field.cursor_le)
  | .Delete =>
      if field.cursor < field.value.length then
        field.erase field.cursor (next field.value field.cursor) field.cursor_le
      else field
  | .ArrowLeft =>
      { field with
        cursor := prev field.value field.cursor
        cursor_le := (prev_le _ _).trans field.cursor_le }
  | .ArrowRight =>
      if h : field.cursor < field.value.length then
        { field with cursor := next field.value field.cursor, cursor_le := next_le h }
      else field
  | .Home => { field with cursor := 0, cursor_le := Nat.zero_le _ }
  | .End => { field with cursor := field.value.length, cursor_le := Nat.le_refl _ }
  | _ => field

end LineEdit

/-- As many symbols as an `std::vector<Item>` has room for, with the headers. -/
structure Symbols where
  symbols : List SymbolInfo := []
  fits : symbols.length + 3 < 2 ^ 63 := by decide

/-- What the pane asks of `tui::Session`. `symbolsGen` is none where the source has `~0ull`. -/
structure Feed where
  loaded : Bool := false
  decodeGeneration : Nat := 0
  symbolsGen : Option Nat := none
  symbols : Symbols := {}

namespace Feed

def scanningSymbols (feed : Feed) : Bool :=
  feed.loaded && feed.symbolsGen != some feed.decodeGeneration

/-- `adopt()` and the decode that it starts. -/
def openBinary (feed : Feed) : Feed :=
  { feed with
    loaded := true
    decodeGeneration := feed.decodeGeneration + 1
    symbols := {} }

/-- `refresh()`, where a scan collects `found` and then may throw. -/
def refresh (feed : Feed) (isDecoding : Bool) (found : Symbols) (threw : Bool) : Feed :=
  if feed.loaded then
    if !isDecoding && feed.symbolsGen != some feed.decodeGeneration then
      { feed with
        symbols := found
        symbolsGen := if threw then feed.symbolsGen else some feed.decodeGeneration }
    else feed
  else { feed with symbols := {} }

end Feed

inductive Role where
  | Text | SynString | Faint
  deriving DecidableEq

structure Item where
  group : Bool := false
  name : String
  detail : String
  role : Role := .Text
  addr : UInt64 := 0
  string : Bool := false
  deriving DecidableEq

def lower (text : List UInt8) : List UInt8 :=
  text.map fun c => if 0x41 ≤ c && c ≤ 0x5A then c + 32 else c

structure Bucket where
  kind : SymbolKind
  title : String
  role : Role

def buckets : List Bucket :=
  [⟨.Function, ".TEXT", .Text⟩, ⟨.Import, "IMPORTS", .Text⟩, ⟨.String, "STRINGS", .SynString⟩]

/-- The symbols of a bucket that the filter lets through. -/
def matching (needle : List UInt8) (symbols : List SymbolInfo) (b : Bucket) : List SymbolInfo :=
  symbols.filter fun sym =>
    sym.kind == b.kind &&
      (needle.isEmpty || decide (needle <:+: lower sym.name.toByteArray.data.toList))

def symbolItem (b : Bucket) (m : SymbolInfo) : Item where
  name := m.name
  detail := m.detail
  role := b.role
  addr := m.addr
  string := m.kind == .String

def bucketItems (needle : List UInt8) (symbols : List SymbolInfo) (b : Bucket) : List Item :=
  let found := matching needle symbols b
  if found.isEmpty then []
  else
    { group := true, name := b.title, detail := toString found.length, role := .Faint } ::
      found.map (symbolItem b)

def itemsOf (filter : List UInt8) (symbols : List SymbolInfo) : List Item :=
  buckets.flatMap (bucketItems (lower filter) symbols)

def shownOf (filter : List UInt8) (symbols : List SymbolInfo) : Nat :=
  (buckets.map fun b => (matching (lower filter) symbols b).length).sum

section Cursor

variable (items : List Item)

def size : UInt64 := UInt64.ofNat items.length

def groupAt (i : Int) : Bool :=
  if 0 ≤ i then ((items[i.toNat]?).map Item.group).getD false else false

/-- `do { i += delta; } while (i >= 0 && i < n && items_[i].group)`, `fuel` times at most. -/
def skip (delta : Int) : Nat → Int → Int
  | 0, i => i
  | fuel + 1, i => if groupAt items (i + delta) then skip delta fuel (i + delta) else i + delta

/-- Where `moveCursor(delta)` leaves the cursor. -/
def moveCursor (delta : Int) (cursor : UInt64) : UInt64 :=
  if items.isEmpty then cursor
  else
    let cursor := if size items ≤ cursor then size items - 1 else cursor
    let i := skip items delta (items.length + 1) cursor.toNat
    if 0 ≤ i ∧ i < items.length then UInt64.ofNat i.toNat
    else if groupAt items cursor.toNat then
      let i := skip items (-delta) (items.length + 1) cursor.toNat
      if 0 ≤ i ∧ i < items.length then UInt64.ofNat i.toNat else cursor
    else cursor

/-- The end of `rebuild()`: the cursor is moved off a header. -/
def leaveHeader (scroll : Scroll) : Scroll :=
  if !items.isEmpty && groupAt items (min scroll.cursor (size items - 1)).toNat then
    { scroll with cursor := moveCursor items 1 scroll.cursor }
  else scroll

end Cursor

/-- `ftxui::Box` with its columns. -/
structure Area extends Box where
  xMin : Int := 0
  xMax : Int := 0

def Area.contain (area : Area) (x y : Int) : Bool :=
  decide (area.xMin ≤ x ∧ x ≤ area.xMax ∧ area.yMin ≤ y ∧ y ≤ area.yMax)

/-- `tui::SymbolsPane`. `builtGen` is none where the source has `~0ull`. -/
structure SymbolsPane where
  viewport : Box := {}
  filter : LineEdit := {}
  filterBox : Area := {}
  filtering : Bool := false
  items : List Item := []
  shown : Nat := 0
  scroll : Scroll := {}
  builtFilter : List UInt8 := []
  builtGen : Option Nat := none
  builtScanning : Bool := false

/-- What a callback is called with. -/
inductive Activation where
  | onNavigate (vaddr : UInt64)
  | onMemory (offset : UInt64)
  deriving DecidableEq

structure Reply where
  handled : Bool
  activation : Option Activation := none
  deriving DecidableEq

namespace SymbolsPane

variable (feed : Feed) (pane : SymbolsPane)

def sameList : Bool :=
  pane.builtGen == some feed.decodeGeneration && pane.builtFilter == pane.filter.value

/-- Whether `rebuild()` returns at once. -/
def isBuilt : Bool := pane.sameList feed && pane.builtScanning == feed.scanningSymbols

def rebuild : SymbolsPane :=
  if pane.isBuilt feed then pane
  else
    let keyed := { pane with
      builtGen := some feed.decodeGeneration
      builtFilter := pane.filter.value
      builtScanning := feed.scanningSymbols }
    if feed.scanningSymbols then { keyed with items := [], shown := 0 }
    else
      let items := itemsOf pane.filter.value feed.symbols.symbols
      { keyed with
        items := items
        shown := shownOf pane.filter.value feed.symbols.symbols
        scroll := leaveHeader items (if pane.sameList feed then pane.scroll else {}) }

def beginFilter : SymbolsPane :=
  { pane with filtering := true, filter := LineEdit.set pane.filter.value }

def setCursor (cursor : UInt64) : SymbolsPane :=
  { pane with scroll := { pane.scroll with cursor := cursor } }

def onEvent (e : Event) : Except Thrown (Reply × SymbolsPane) :=
  let pane := pane.rebuild feed
  if pane.filtering then
    match e with
    | .Escape => .ok (⟨true, none⟩, { pane with filtering := false, filter := LineEdit.set [] })
    | .Return | .ArrowDown => .ok (⟨true, none⟩, { pane with filtering := false })
    | e => .ok (⟨true, none⟩, { pane with filter := pane.filter.handle e })
  else if pane.items.isEmpty then .ok (⟨false, none⟩, pane)
  else
    let page := (max 1 (pane.viewport.rows 20 - 1)).toNat
    let cursor := pane.scroll.cursor
    match e with
    | .ArrowUp => .ok (⟨true, none⟩, pane.setCursor (moveCursor pane.items (-1) cursor))
    | .ArrowDown => .ok (⟨true, none⟩, pane.setCursor (moveCursor pane.items 1 cursor))
    | .PageUp => .ok (⟨true, none⟩, pane.setCursor ((moveCursor pane.items (-1))^[page] cursor))
    | .PageDown => .ok (⟨true, none⟩, pane.setCursor ((moveCursor pane.items 1)^[page] cursor))
    | .Home => .ok (⟨true, none⟩, pane.setCursor (moveCursor pane.items 1 0))
    | .End =>
        let last := size pane.items - 1
        .ok (⟨true, none⟩, pane.setCursor
          (if groupAt pane.items last.toNat then moveCursor pane.items (-1) last else last))
    | .Return =>
        match pane.items[cursor.toNat]? with
        | none => .error .outOfRange
        | some it =>
            if it.group then .ok (⟨true, none⟩, pane)
            else if it.string then .ok (⟨true, some (.onMemory it.addr)⟩, pane)
            else .ok (⟨true, some (.onNavigate it.addr)⟩, pane)
    | _ => .ok (⟨false, none⟩, pane)

def click (x y : Int) : Except Thrown (Reply × SymbolsPane) :=
  let pane := pane.rebuild feed
  if pane.filterBox.contain x y then .ok (⟨true, none⟩, pane.beginFilter)
  else
    let pane := { pane with filtering := false }
    match rowAt pane.viewport y pane.scroll.top with
    | none => .ok (⟨false, none⟩, pane)
    | some i =>
        if size pane.items ≤ i || groupAt pane.items i.toNat then .ok (⟨false, none⟩, pane)
        else if i = pane.scroll.cursor then pane.onEvent feed .Return
        else .ok (⟨true, none⟩, pane.setCursor i)

/-- The pane behind a frame, which lays out its viewport and its field. -/
def render (viewport : Box) (filterBox : Area) : SymbolsPane :=
  let pane := pane.rebuild feed
  { pane with
    viewport := viewport
    filterBox := filterBox
    scroll :=
      if feed.scanningSymbols then pane.scroll
      else follow pane.scroll (size pane.items) (pane.viewport.rows 20) }

end SymbolsPane

/-- The sidebar with its session; `lists` are the generations and filters that a list has been
built for. -/
structure Sidebar where
  feed : Feed := {}
  pane : SymbolsPane := {}
  lists : List (Nat × List UInt8) := []

inductive Action where
  | openBinary
  | refresh (isDecoding : Bool) (found : Symbols) (threw : Bool)
  | beginFilter
  | onEvent (e : Event)
  | click (x y : Int)
  | render (viewport : Box) (filterBox : Area)

namespace Sidebar

/-- The generation and the filter that a list would be for now. -/
def current (sidebar : Sidebar) : Nat × List UInt8 :=
  (sidebar.feed.decodeGeneration, sidebar.pane.filter.value)

/-- The lists behind a call that rebuilds. -/
def listed (sidebar : Sidebar) : List (Nat × List UInt8) :=
  if sidebar.pane.isBuilt sidebar.feed || sidebar.feed.scanningSymbols then sidebar.lists
  else sidebar.current :: sidebar.lists

def rebuilt (sidebar : Sidebar) (pane : SymbolsPane) : Sidebar :=
  { sidebar with pane := pane, lists := sidebar.listed }

def perform (sidebar : Sidebar) : Action → Except Thrown Sidebar
  | .openBinary => .ok { sidebar with feed := sidebar.feed.openBinary }
  | .refresh isDecoding found threw =>
      .ok { sidebar with feed := sidebar.feed.refresh isDecoding found threw }
  | .beginFilter => .ok { sidebar with pane := sidebar.pane.beginFilter }
  | .onEvent e => (sidebar.pane.onEvent sidebar.feed e).map fun outcome =>
      sidebar.rebuilt outcome.2
  | .click x y => (sidebar.pane.click sidebar.feed x y).map fun outcome =>
      sidebar.rebuilt outcome.2
  | .render viewport filterBox =>
      .ok (sidebar.rebuilt (sidebar.pane.render sidebar.feed viewport filterBox))

/-- The states that a sidebar reaches by actions that `allowed` lets through. -/
inductive Reached (allowed : Sidebar → Action → Prop) : Sidebar → Prop where
  | start : Reached allowed {}
  | step {sidebar later : Sidebar} {action : Action} :
      Reached allowed sidebar → allowed sidebar action → sidebar.perform action = .ok later →
        Reached allowed later

end Sidebar

/-- A cursor on an item that is no header. -/
def OnSymbol (items : List Item) (cursor : UInt64) : Prop :=
  ∃ item, items[cursor.toNat]? = some item ∧ item.group = false

/-- What the next `rebuild()` and the next key leave. -/
structure Sound (sidebar : Sidebar) : Prop where
  on_symbol : (sidebar.pane.rebuild sidebar.feed).items ≠ [] →
    OnSymbol (sidebar.pane.rebuild sidebar.feed).items
      (sidebar.pane.rebuild sidebar.feed).scroll.cursor
  first_list : (sidebar.pane.rebuild sidebar.feed).items ≠ [] → sidebar.current ∉ sidebar.lists →
    (sidebar.pane.rebuild sidebar.feed).scroll.top = 0 ∧
      ∀ i < (sidebar.pane.rebuild sidebar.feed).scroll.cursor.toNat, ∀ item,
        (sidebar.pane.rebuild sidebar.feed).items[i]? = some item → item.group = true
  in_range : (∀ e thrown, sidebar.pane.onEvent sidebar.feed e ≠ .error thrown) ∧
    ∀ x y thrown, sidebar.pane.click sidebar.feed x y ≠ .error thrown

/-- No list is rebuilt during a scan while the cursor is behind the first symbol. -/
def Unmoved (sidebar : Sidebar) : Action → Prop
  | .onEvent _ | .click _ _ | .render _ _ =>
      sidebar.feed.scanningSymbols = true →
        sidebar.pane.scroll.cursor ≤ 1 ∧ sidebar.pane.scroll.top = 0
  | _ => True

section Lists

variable {items : List Item} {cursor : UInt64}

/-- Groups of a header and at least a symbol. -/
structure Grouped (items : List Item) : Prop where
  starts : items ≠ [] → ∃ header first rest, items = header :: first :: rest ∧
    header.group = true ∧ first.group = false
  ends : ∀ item, items.getLast? = some item → item.group = false

theorem Grouped.append {more : List Item} (h : Grouped items) (hmore : Grouped more) :
    Grouped (items ++ more) where
  starts hne := by
    cases items with
    | nil => exact hmore.starts hne
    | cons item items =>
        obtain ⟨header, first, rest, hitems, hheader, hfirst⟩ := h.starts (List.cons_ne_nil _ _)
        refine ⟨header, first, rest ++ more, ?_, hheader, hfirst⟩
        rw [hitems]
        rfl
  ends item hitem := by
    rw [List.getLast?_append] at hitem
    cases hlast : more.getLast? with
    | none =>
        rw [hlast] at hitem
        exact h.ends item hitem
    | some last =>
        rw [hlast] at hitem
        exact hmore.ends item (hlast.trans hitem)

theorem grouped_bucketItems (needle : List UInt8) (symbols : List SymbolInfo) (b : Bucket) :
    Grouped (bucketItems needle symbols b) := by
  rw [bucketItems]
  cases matching needle symbols b with
  | nil =>
      constructor
      · intro hne
        contradiction
      · intro item hitem
        contradiction
  | cons sym found =>
      constructor
      · intro _
        exact ⟨_, _, _, rfl, rfl, rfl⟩
      · intro item hitem
        have hmem : item ∈ (sym :: found).map (symbolItem b) := by
          apply List.mem_of_getLast?
          rw [← hitem]
          exact (List.getLast?_cons_cons).symm
        obtain ⟨m, -, rfl⟩ := List.mem_map.mp hmem
        rfl

theorem grouped_itemsOf (filter : List UInt8) (symbols : List SymbolInfo) :
    Grouped (itemsOf filter symbols) := by
  rw [itemsOf]
  induction buckets with
  | nil =>
      constructor
      · intro hne
        contradiction
      · intro item hitem
        contradiction
  | cons b buckets ih =>
      rw [List.flatMap_cons]
      exact (grouped_bucketItems _ _ b).append ih

theorem length_bucketItems_le (needle : List UInt8) (symbols : List SymbolInfo) (b : Bucket) :
    (bucketItems needle symbols b).length ≤ (symbols.filter (·.kind == b.kind)).length + 1 := by
  have hfound : (matching needle symbols b).length ≤
      (symbols.filter (·.kind == b.kind)).length := by
    rw [matching, ← List.countP_eq_length_filter, ← List.countP_eq_length_filter]
    apply List.countP_mono_left
    intro sym _ hsym
    exact (Bool.and_eq_true_iff.mp hsym).1
  rw [bucketItems]
  split
  · exact Nat.zero_le _
  · rw [List.length_cons, List.length_map]
    exact Nat.succ_le_succ hfound

/-- A list has an item for each of its symbols and at most three headers. -/
theorem length_itemsOf_le (filter : List UInt8) (symbols : List SymbolInfo) :
    (itemsOf filter symbols).length ≤ symbols.length + 3 := by
  have hkinds : (symbols.filter (·.kind == .Function)).length +
      ((symbols.filter (·.kind == .Import)).length +
        (symbols.filter (·.kind == .String)).length) = symbols.length := by
    induction symbols with
    | nil => rfl
    | cons sym symbols ih =>
        rcases sym with ⟨_ | _ | _, name, addr, detail⟩ <;> simp <;> omega
  have hfunctions := length_bucketItems_le (lower filter) symbols ⟨.Function, ".TEXT", .Text⟩
  have himports := length_bucketItems_le (lower filter) symbols ⟨.Import, "IMPORTS", .Text⟩
  have hstrings := length_bucketItems_le (lower filter) symbols ⟨.String, "STRINGS", .SynString⟩
  simp only at hfunctions himports hstrings
  rw [itemsOf, buckets]
  simp only [List.flatMap_cons, List.flatMap_nil, List.append_nil, List.length_append]
  omega

end Lists

section Moves

variable {items : List Item} {cursor : UInt64} {delta i : Int} {fuel : Nat}

theorem groupAt_eq_true_iff :
    groupAt items i = true ↔ ∃ item, 0 ≤ i ∧ items[i.toNat]? = some item ∧ item.group = true := by
  rw [groupAt]
  split
  · rename_i hi
    cases items[i.toNat]? with
    | none => simp
    | some item => simp [hi]
  · rename_i hi
    simp [hi]

theorem lt_length_of_groupAt (h : groupAt items i = true) : 0 ≤ i ∧ i < items.length := by
  obtain ⟨item, hi, hitem, -⟩ := groupAt_eq_true_iff.mp h
  have hlt := (List.getElem?_eq_some_iff.mp hitem).1
  omega

/-- The loop ends off the headers, where something bounds its turns. -/
theorem groupAt_skip {measure : Int → Nat}
    (hmeasure : ∀ i, groupAt items (i + delta) = true → measure (i + delta) < measure i)
    (hfuel : measure i < fuel) : groupAt items (skip items delta fuel i) = false := by
  induction fuel generalizing i with
  | zero => exact absurd hfuel (Nat.not_lt_zero _)
  | succ fuel ih =>
      rw [skip]
      split
      · rename_i hgroup
        exact ih (Nat.lt_of_lt_of_le (hmeasure i hgroup) (Nat.le_of_lt_succ hfuel))
      · rename_i hgroup
        exact Bool.eq_false_iff.mpr hgroup

/-- A turn forward or backward. -/
def IsStep (delta : Int) : Prop := delta = 1 ∨ delta = -1

theorem groupAt_skip_step (hdelta : IsStep delta) (hi : 0 ≤ i) (hlt : i < items.length) :
    groupAt items (skip items delta (items.length + 1) i) = false := by
  rcases hdelta with rfl | rfl
  · apply @groupAt_skip items 1 i _ fun i => (items.length - i).toNat
    · intro j hgroup
      have hbounds := lt_length_of_groupAt hgroup
      omega
    · omega
  · apply @groupAt_skip items (-1) i _ fun i => (i + 1).toNat
    · intro j hgroup
      have hbounds := lt_length_of_groupAt hgroup
      omega
    · omega

theorem toNat_size (hlength : items.length < 2 ^ 63) : (size items).toNat = items.length :=
  UInt64.toNat_ofNat_of_lt' (by rw [UInt64.size]; omega)

theorem OnSymbol.lt_length (h : OnSymbol items cursor) : cursor.toNat < items.length := by
  obtain ⟨item, hitem, -⟩ := h
  exact (List.getElem?_eq_some_iff.mp hitem).1

theorem OnSymbol.groupAt (h : OnSymbol items cursor) : groupAt items cursor.toNat = false := by
  obtain ⟨item, hitem, hgroup⟩ := h
  rw [SymbolSidebar.groupAt, if_pos (Int.natCast_nonneg _), Int.toNat_natCast, hitem]
  exact hgroup

theorem onSymbol_of_groupAt (hlt : cursor.toNat < items.length)
    (hgroup : groupAt items cursor.toNat = false) : OnSymbol items cursor := by
  refine ⟨items[cursor.toNat], List.getElem?_eq_getElem hlt, ?_⟩
  rw [SymbolSidebar.groupAt, if_pos (Int.natCast_nonneg _), Int.toNat_natCast,
    List.getElem?_eq_getElem hlt] at hgroup
  exact hgroup

/-- From a symbol the cursor moves to a symbol or stays. -/
theorem moveCursor_onSymbol (hlength : items.length < 2 ^ 63) (hdelta : IsStep delta)
    (h : OnSymbol items cursor) : OnSymbol items (moveCursor items delta cursor) := by
  have hlt := h.lt_length
  have hne : items.isEmpty = false :=
    List.isEmpty_eq_false_iff.mpr (List.ne_nil_of_length_pos (by omega))
  have hinside : ¬ size items ≤ cursor := by
    rw [UInt64.le_iff_toNat_le, toNat_size hlength]
    omega
  have hskip := @groupAt_skip_step items delta cursor.toNat hdelta (by omega) (by omega)
  rw [moveCursor, if_neg (by rw [hne]; decide)]
  simp only [if_neg hinside, h.groupAt, Bool.false_eq_true, if_false]
  split
  · rename_i hrange
    have hcursor : (UInt64.ofNat (skip items delta (items.length + 1) cursor.toNat).toNat).toNat =
        (skip items delta (items.length + 1) cursor.toNat).toNat :=
      UInt64.toNat_ofNat_of_lt' (by rw [UInt64.size]; omega)
    apply onSymbol_of_groupAt
    · rw [hcursor]
      omega
    · rw [hcursor, Int.toNat_of_nonneg hrange.1]
      exact hskip
  · exact h

theorem iterate_onSymbol (hlength : items.length < 2 ^ 63) (hdelta : IsStep delta) (n : Nat)
    (h : OnSymbol items cursor) : OnSymbol items ((moveCursor items delta)^[n] cursor) := by
  induction n generalizing cursor with
  | zero => exact h
  | succ n ih =>
      rw [Function.iterate_succ_apply]
      exact ih (moveCursor_onSymbol hlength hdelta h)

/-- The header in front of all is followed by a symbol. -/
theorem moveCursor_zero (hlength : items.length < 2 ^ 63) (h : Grouped items)
    (hne : items ≠ []) : moveCursor items 1 0 = 1 ∧ OnSymbol items 1 := by
  obtain ⟨header, first, rest, rfl, hheader, hfirst⟩ := h.starts hne
  have hone : OnSymbol (header :: first :: rest) 1 := ⟨first, rfl, hfirst⟩
  have hgroup : groupAt (header :: first :: rest) (0 + 1) = false := hone.groupAt
  have hinside : ¬ size (header :: first :: rest) ≤ 0 := by
    rw [UInt64.le_iff_toNat_le, toNat_size hlength]
    exact Nat.not_succ_le_zero _
  refine ⟨?_, hone⟩
  rw [moveCursor, if_neg (by simp)]
  simp only [if_neg hinside]
  rw [show ((0 : UInt64).toNat : Int) = 0 from rfl, skip, hgroup]
  rw [if_neg Bool.false_ne_true, if_pos ⟨by decide, by simp only [List.length_cons]; omega⟩]
  rfl

theorem last_onSymbol (hlength : items.length < 2 ^ 63) (h : Grouped items) (hne : items ≠ []) :
    OnSymbol items (size items - 1) := by
  have hpos := List.length_pos_of_ne_nil hne
  have hlast : (size items - 1).toNat = items.length - 1 := by
    rw [UInt64.toNat_sub_of_le, toNat_size hlength]
    · rfl
    · rw [UInt64.le_iff_toNat_le, toNat_size hlength]
      exact hpos
  refine ⟨items.getLast hne, ?_, h.ends _ (List.getLast?_eq_some_getLast hne)⟩
  rw [hlast, ← List.getLast?_eq_getElem?]
  exact List.getLast?_eq_some_getLast hne

/-- A cursor at the front ends on the first symbol. -/
theorem leaveHeader_front (hlength : items.length < 2 ^ 63) (h : Grouped items)
    (hne : items ≠ []) {scroll : Scroll} (hcursor : scroll.cursor ≤ 1) :
    leaveHeader items scroll = { scroll with cursor := 1 } := by
  obtain ⟨hmove, hone⟩ := moveCursor_zero hlength h hne
  have hlast := (last_onSymbol hlength h hne).lt_length
  have hlt := hone.lt_length
  have hempty : items.isEmpty = false := List.isEmpty_eq_false_iff.mpr hne
  have hle (i : UInt64) (hi : i ≤ 1) : i ≤ size items - 1 := by
    rw [UInt64.le_iff_toNat_le] at hi ⊢
    rw [UInt64.toNat_sub_of_le, toNat_size hlength]
    · exact hi.trans (Nat.le_sub_one_of_lt hlt)
    · rw [UInt64.le_iff_toNat_le, toNat_size hlength]
      exact Nat.le_of_lt hlt
  have hmin : min scroll.cursor (size items - 1) = scroll.cursor := if_pos (hle _ hcursor)
  rw [leaveHeader, hempty, Bool.not_false, Bool.true_and, hmin]
  have hcases : scroll.cursor = 0 ∨ scroll.cursor = 1 := by
    rw [UInt64.le_iff_toNat_le] at hcursor
    rcases Nat.le_one_iff_eq_zero_or_eq_one.mp hcursor with hzero | hsame
    · exact Or.inl (UInt64.toNat_inj.mp hzero)
    · exact Or.inr (UInt64.toNat_inj.mp hsame)
  rcases hcases with hzero | hsame
  · obtain ⟨header, first, rest, rfl, hheader, -⟩ := h.starts hne
    have hgroup : groupAt (header :: first :: rest) ((0 : UInt64).toNat : Int) = true := hheader
    rw [hzero, if_pos hgroup, hmove]
  · rw [hsame, hone.groupAt, if_neg Bool.false_ne_true]
    exact Scroll.ext hsame rfl

end Moves

section Rebuilds

variable {feed : Feed} {pane : SymbolsPane} {lists : List (Nat × List UInt8)}

/-- What holds of a pane between two calls, where the condition has held so far. -/
structure Invariant (pane : SymbolsPane) (lists : List (Nat × List UInt8)) : Prop where
  on_symbol : pane.items ≠ [] → OnSymbol pane.items pane.scroll.cursor
  length_lt : pane.items.length < 2 ^ 63
  grouped : Grouped pane.items
  built : pane.items ≠ [] → ∃ gen, pane.builtGen = some gen ∧ (gen, pane.builtFilter) ∈ lists
  front : pane.builtScanning = true →
    pane.items = [] ∧ pane.scroll.cursor ≤ 1 ∧ pane.scroll.top = 0

/-- The three ways of `rebuild()`. -/
theorem rebuild_cases (feed : Feed) (pane : SymbolsPane) :
    (pane.isBuilt feed = true ∧ pane.rebuild feed = pane) ∨
    (feed.scanningSymbols = true ∧
      pane.rebuild feed = { pane with
        builtGen := some feed.decodeGeneration
        builtFilter := pane.filter.value
        builtScanning := true
        items := []
        shown := 0 }) ∨
    (pane.isBuilt feed = false ∧ feed.scanningSymbols = false ∧
      pane.rebuild feed = { pane with
        builtGen := some feed.decodeGeneration
        builtFilter := pane.filter.value
        builtScanning := false
        items := itemsOf pane.filter.value feed.symbols.symbols
        shown := shownOf pane.filter.value feed.symbols.symbols
        scroll := leaveHeader (itemsOf pane.filter.value feed.symbols.symbols)
          (if pane.sameList feed then pane.scroll else {}) }) := by
  rw [SymbolsPane.rebuild]
  cases hbuilt : pane.isBuilt feed with
  | true => exact Or.inl ⟨rfl, if_pos rfl⟩
  | false =>
      cases hscanning : feed.scanningSymbols with
      | true => exact Or.inr (Or.inl ⟨rfl, rfl⟩)
      | false => exact Or.inr (Or.inr ⟨rfl, rfl, rfl⟩)

theorem isBuilt_rebuild (feed : Feed) (pane : SymbolsPane) :
    (pane.rebuild feed).isBuilt feed = true := by
  rcases rebuild_cases feed pane with ⟨hbuilt, hsame⟩ | ⟨hscanning, hcleared⟩ | ⟨_, hscanning, hnew⟩
  · rw [hsame]
    exact hbuilt
  · rw [hcleared, SymbolsPane.isBuilt, SymbolsPane.sameList, hscanning]
    simp
  · rw [hnew, SymbolsPane.isBuilt, SymbolsPane.sameList, hscanning]
    simp

theorem builtScanning_rebuild (feed : Feed) (pane : SymbolsPane) :
    (pane.rebuild feed).builtScanning = feed.scanningSymbols :=
  eq_of_beq (Bool.and_eq_true_iff.mp (isBuilt_rebuild feed pane)).2

/-- A list that is new begins with the cursor at the front. -/
theorem Invariant.new_front (h : Invariant pane lists) (hbuilt : pane.isBuilt feed = false)
    (hscanning : feed.scanningSymbols = false) :
    (if pane.sameList feed then pane.scroll else {}).cursor ≤ 1 ∧
      (if pane.sameList feed then pane.scroll else {}).top = 0 := by
  cases hsame : pane.sameList feed with
  | false => exact ⟨show (0 : UInt64) ≤ 1 by decide, rfl⟩
  | true =>
      rw [SymbolsPane.isBuilt, hsame, hscanning, Bool.true_and] at hbuilt
      have hwas : pane.builtScanning = true := by
        rw [beq_eq_false_iff_ne] at hbuilt
        exact Bool.not_eq_false _ |>.mp hbuilt
      exact (h.front hwas).2

theorem grouped_rebuild (h : Grouped pane.items) : Grouped (pane.rebuild feed).items := by
  rcases rebuild_cases feed pane with ⟨_, hsame⟩ | ⟨_, hcleared⟩ | ⟨_, _, hnew⟩
  · rw [hsame]
    exact h
  · rw [hcleared]
    exact ⟨fun hne => absurd rfl hne, fun item hitem => by contradiction⟩
  · rw [hnew]
    exact grouped_itemsOf _ _

/-- Where a list is new, the cursor is on its first symbol and nothing is scrolled. -/
theorem Invariant.new_scroll (h : Invariant pane lists) (hbuilt : pane.isBuilt feed = false)
    (hscanning : feed.scanningSymbols = false)
    (hne : itemsOf pane.filter.value feed.symbols.symbols ≠ []) :
    leaveHeader (itemsOf pane.filter.value feed.symbols.symbols)
      (if pane.sameList feed then pane.scroll else {}) = { cursor := 1, top := 0 } := by
  have hlength := length_itemsOf_le pane.filter.value feed.symbols.symbols
  have hfits := feed.symbols.fits
  obtain ⟨hcursor, htop⟩ := h.new_front hbuilt hscanning
  rw [leaveHeader_front (by omega) (grouped_itemsOf _ _) hne hcursor]
  exact Scroll.ext rfl htop

theorem front_onSymbol (filter : List UInt8) (symbols : Symbols)
    (hne : itemsOf filter symbols.symbols ≠ []) : OnSymbol (itemsOf filter symbols.symbols) 1 := by
  have hlength := length_itemsOf_le filter symbols.symbols
  have hfits := symbols.fits
  exact (moveCursor_zero (by omega) (grouped_itemsOf _ _) hne).2

end Rebuilds

section Calls

variable {sidebar : Sidebar} {feed : Feed} {pane : SymbolsPane} {lists : List (Nat × List UInt8)}

/-- A rebuild in a scan that finds the cursor at the front keeps the invariant, and so does
any other. -/
theorem Invariant.rebuild (h : Invariant sidebar.pane sidebar.lists)
    (hfront : sidebar.feed.scanningSymbols = true →
      sidebar.pane.scroll.cursor ≤ 1 ∧ sidebar.pane.scroll.top = 0) :
    Invariant (sidebar.pane.rebuild sidebar.feed) sidebar.listed := by
  rcases rebuild_cases sidebar.feed sidebar.pane with
    ⟨hbuilt, hsame⟩ | ⟨hscanning, hcleared⟩ | ⟨hbuilt, hscanning, hnew⟩
  · rw [hsame, Sidebar.listed, hbuilt, Bool.true_or, if_pos rfl]
    exact h
  · rw [hcleared]
    constructor
    · exact fun hne => absurd rfl hne
    · show 0 < 2 ^ 63
      decide
    · exact ⟨fun hne => absurd rfl hne, fun item hitem => by contradiction⟩
    · exact fun hne => absurd rfl hne
    · exact fun _ => ⟨rfl, hfront hscanning⟩
  · have hlength := length_itemsOf_le sidebar.pane.filter.value sidebar.feed.symbols.symbols
    have hfits := sidebar.feed.symbols.fits
    rw [hnew]
    constructor
    · intro hne
      show OnSymbol _ (leaveHeader _ _).cursor
      rw [h.new_scroll hbuilt hscanning hne]
      exact front_onSymbol _ _ hne
    · show (itemsOf _ _).length < 2 ^ 63
      omega
    · exact grouped_itemsOf _ _
    · intro _
      refine ⟨sidebar.feed.decodeGeneration, rfl, ?_⟩
      rw [Sidebar.listed, hbuilt, hscanning]
      exact List.mem_cons_self
    · intro hscan
      contradiction

/-- The next rebuild leaves the cursor on a symbol, and on the first of a first list. -/
theorem Invariant.next_rebuild (h : Invariant sidebar.pane sidebar.lists)
    (hne : (sidebar.pane.rebuild sidebar.feed).items ≠ []) :
    OnSymbol (sidebar.pane.rebuild sidebar.feed).items
        (sidebar.pane.rebuild sidebar.feed).scroll.cursor ∧
      (sidebar.current ∉ sidebar.lists →
        (sidebar.pane.rebuild sidebar.feed).scroll = { cursor := 1, top := 0 }) := by
  rcases rebuild_cases sidebar.feed sidebar.pane with
    ⟨hbuilt, hsame⟩ | ⟨_, hcleared⟩ | ⟨hbuilt, hscanning, hnew⟩
  · rw [hsame] at hne ⊢
    refine ⟨h.on_symbol hne, ?_⟩
    intro hnot
    obtain ⟨gen, hgen, hmem⟩ := h.built hne
    rw [SymbolsPane.isBuilt, SymbolsPane.sameList, Bool.and_eq_true_iff,
      Bool.and_eq_true_iff] at hbuilt
    rw [eq_of_beq hbuilt.1.1, Option.some.injEq] at hgen
    rw [← hgen, eq_of_beq hbuilt.1.2] at hmem
    exact absurd hmem hnot
  · rw [hcleared] at hne
    exact absurd rfl hne
  · rw [hnew] at hne ⊢
    have hscroll := h.new_scroll hbuilt hscanning hne
    refine ⟨?_, fun _ => hscroll⟩
    show OnSymbol _ (leaveHeader _ _).cursor
    rw [hscroll]
    exact front_onSymbol _ _ hne

theorem Invariant.setCursor (h : Invariant pane lists) {cursor : UInt64}
    (hcursor : OnSymbol pane.items cursor) : Invariant (pane.setCursor cursor) lists := by
  refine ⟨fun _ => hcursor, h.length_lt, h.grouped, h.built, ?_⟩
  intro hscanning
  have hlt := hcursor.lt_length
  rw [(h.front hscanning).1] at hlt
  exact absurd hlt (Nat.not_lt_zero _)

/-- A field, a mode and boxes that change leave the list and the cursor. -/
theorem Invariant.surroundings (h : Invariant pane lists) (viewport : Box) (filter : LineEdit)
    (filterBox : Area) (filtering : Bool) :
    Invariant { pane with viewport, filter, filterBox, filtering } lists :=
  ⟨h.on_symbol, h.length_lt, h.grouped, h.built, h.front⟩

/-- An event that finds the invariant behind its rebuild reads no item that is not there. -/
theorem onEvent_ok (h : Invariant (pane.rebuild feed) lists) (e : Event) :
    ∃ reply later, pane.onEvent feed e = .ok (reply, later) ∧ Invariant later lists := by
  unfold SymbolsPane.onEvent
  generalize pane.rebuild feed = built at h ⊢
  have hfield (filter : LineEdit) (filtering : Bool) :
      Invariant { built with filter, filtering } lists :=
    h.surroundings built.viewport filter built.filterBox filtering
  dsimp only
  split
  · split
    · exact ⟨_, _, rfl, hfield _ _⟩
    · exact ⟨_, _, rfl, hfield _ _⟩
    · exact ⟨_, _, rfl, hfield _ _⟩
    · exact ⟨_, _, rfl, hfield _ _⟩
  split
  · exact ⟨_, _, rfl, h⟩
  rename_i hitems
  have hne : built.items ≠ [] := fun hnone => hitems (by rw [hnone]; rfl)
  have hcursor := h.on_symbol hne
  split
  · exact ⟨_, _, rfl, h.setCursor (moveCursor_onSymbol h.length_lt (Or.inr rfl) hcursor)⟩
  · exact ⟨_, _, rfl, h.setCursor (moveCursor_onSymbol h.length_lt (Or.inl rfl) hcursor)⟩
  · exact ⟨_, _, rfl, h.setCursor (iterate_onSymbol h.length_lt (Or.inr rfl) _ hcursor)⟩
  · exact ⟨_, _, rfl, h.setCursor (iterate_onSymbol h.length_lt (Or.inl rfl) _ hcursor)⟩
  · obtain ⟨hmove, hone⟩ := moveCursor_zero h.length_lt h.grouped hne
    refine ⟨_, _, rfl, h.setCursor ?_⟩
    rw [hmove]
    exact hone
  · have hlast := last_onSymbol h.length_lt h.grouped hne
    refine ⟨_, _, rfl, h.setCursor ?_⟩
    rw [hlast.groupAt, if_neg Bool.false_ne_true]
    exact hlast
  · obtain ⟨item, hitem, hgroup⟩ := hcursor
    rw [hitem]
    dsimp only
    rw [hgroup, if_neg Bool.false_ne_true]
    split
    · exact ⟨_, _, rfl, h⟩
    · exact ⟨_, _, rfl, h⟩
  · exact ⟨_, _, rfl, h⟩

theorem onEvent_of_empty (h : (pane.rebuild feed).items = []) (e : Event) :
    ∃ outcome, pane.onEvent feed e = .ok outcome := by
  unfold SymbolsPane.onEvent
  generalize pane.rebuild feed = built at h ⊢
  dsimp only
  split
  · split
    · exact ⟨_, rfl⟩
    · exact ⟨_, rfl⟩
    · exact ⟨_, rfl⟩
    · exact ⟨_, rfl⟩
  · rw [h]
    exact ⟨_, rfl⟩

theorem click_of_empty (h : (pane.rebuild feed).items = []) (x y : Int) :
    ∃ outcome, pane.click feed x y = .ok outcome := by
  unfold SymbolsPane.click
  generalize pane.rebuild feed = built at h ⊢
  dsimp only
  split
  · exact ⟨_, rfl⟩
  split
  · exact ⟨_, rfl⟩
  · rename_i i _
    have houtside : size built.items ≤ i := by
      rw [h, UInt64.le_iff_toNat_le]
      exact Nat.zero_le _
    rw [decide_eq_true houtside, Bool.true_or, if_pos rfl]
    exact ⟨_, rfl⟩

theorem click_ok (h : Invariant (pane.rebuild feed) lists) (x y : Int) :
    ∃ reply later, pane.click feed x y = .ok (reply, later) ∧ Invariant later lists := by
  have hbuilt := isBuilt_rebuild feed pane
  rw [SymbolsPane.click]
  generalize pane.rebuild feed = built at h hbuilt ⊢
  have hclosed : Invariant { built with filtering := false } lists :=
    h.surroundings built.viewport built.filter built.filterBox false
  have hsame : ({ built with filtering := false } : SymbolsPane).rebuild feed =
      { built with filtering := false } := if_pos hbuilt
  dsimp only
  split
  · exact ⟨_, _, rfl, h.surroundings _ _ _ true⟩
  split
  · exact ⟨_, _, rfl, hclosed⟩
  rename_i i _
  split
  · exact ⟨_, _, rfl, hclosed⟩
  rename_i hsymbol
  split
  · exact onEvent_ok (by rw [hsame]; exact hclosed) .Return
  · rw [Bool.or_eq_true, not_or, decide_eq_true_eq, UInt64.le_iff_toNat_le,
      toNat_size h.length_lt, Nat.not_le] at hsymbol
    exact ⟨_, _, rfl, hclosed.setCursor
      (onSymbol_of_groupAt hsymbol.1 (Bool.eq_false_iff.mpr hsymbol.2))⟩

/-- `follow` leaves a cursor on a row. -/
theorem follow_cursor {scroll : Scroll} {total : UInt64} (h : scroll.cursor < total)
    (height : Int) : (follow scroll total height).cursor = scroll.cursor := by
  have hne : total ≠ 0 := by
    rintro rfl
    exact absurd (UInt64.lt_iff_toNat_lt.mp h) (Nat.not_lt_zero _)
  rw [follow]
  simp only [if_neg hne]
  exact if_neg (UInt64.not_le.mpr h)

theorem render_ok (h : Invariant (pane.rebuild feed) lists) (viewport : Box) (filterBox : Area) :
    Invariant (pane.render feed viewport filterBox) lists := by
  have hscan := builtScanning_rebuild feed pane
  rw [SymbolsPane.render]
  generalize pane.rebuild feed = built at h hscan ⊢
  refine ⟨?_, h.length_lt, h.grouped, h.built, ?_⟩
  · intro hne
    have hcursor := h.on_symbol hne
    show OnSymbol built.items (if _ then _ else _ : Scroll).cursor
    split
    · exact hcursor
    · rw [follow_cursor]
      · exact hcursor
      · rw [UInt64.lt_iff_toNat_lt, toNat_size h.length_lt]
        exact hcursor.lt_length
  · intro hscanning
    have hfront := h.front hscanning
    have hrunning : feed.scanningSymbols = true := hscan.symm.trans hscanning
    dsimp only
    rw [if_pos hrunning]
    exact hfront

end Calls

section Runs

variable {sidebar later : Sidebar} {action : Action}

theorem Invariant.start : Invariant {} [] := by
  refine ⟨fun hne => absurd rfl hne, by decide, ⟨fun hne => absurd rfl hne, ?_⟩,
    fun hne => absurd rfl hne, fun hscanning => by contradiction⟩
  intro item hitem
  contradiction

theorem Invariant.perform (h : Invariant sidebar.pane sidebar.lists)
    (hunmoved : Unmoved sidebar action) (hlater : sidebar.perform action = .ok later) :
    Invariant later.pane later.lists := by
  cases action with
  | openBinary | refresh isDecoding found threw =>
      rw [Sidebar.perform, Except.ok.injEq] at hlater
      rw [← hlater]
      exact h
  | beginFilter =>
      rw [Sidebar.perform, Except.ok.injEq] at hlater
      rw [← hlater]
      exact h.surroundings _ _ _ true
  | onEvent e =>
      obtain ⟨reply, pane, hevent, hinvariant⟩ := onEvent_ok (h.rebuild hunmoved) e
      rw [Sidebar.perform, hevent] at hlater
      rw [← Except.ok.inj hlater]
      exact hinvariant
  | click x y =>
      obtain ⟨reply, pane, hclick, hinvariant⟩ := click_ok (h.rebuild hunmoved) x y
      rw [Sidebar.perform, hclick] at hlater
      rw [← Except.ok.inj hlater]
      exact hinvariant
  | render viewport filterBox =>
      rw [Sidebar.perform, Except.ok.injEq] at hlater
      rw [← hlater]
      exact render_ok (h.rebuild hunmoved) viewport filterBox

theorem Invariant.reached (h : Sidebar.Reached Unmoved sidebar) :
    Invariant sidebar.pane sidebar.lists := by
  induction h with
  | start => exact Invariant.start
  | step _ hunmoved hlater ih => exact ih.perform hunmoved hlater

/-- Whether or not the next step keeps to the condition, it reads no item that is not there. -/
theorem Invariant.no_error (h : Invariant sidebar.pane sidebar.lists) :
    (∀ e thrown, sidebar.pane.onEvent sidebar.feed e ≠ .error thrown) ∧
      ∀ x y thrown, sidebar.pane.click sidebar.feed x y ≠ .error thrown := by
  have hready : (sidebar.pane.rebuild sidebar.feed).items = [] ∨
      ∃ lists, Invariant (sidebar.pane.rebuild sidebar.feed) lists := by
    rcases rebuild_cases sidebar.feed sidebar.pane with
      ⟨_, hsame⟩ | ⟨_, hcleared⟩ | ⟨_, hscanning, _⟩
    · exact Or.inr ⟨_, hsame.symm ▸ h⟩
    · exact Or.inl (congrArg SymbolsPane.items hcleared)
    · refine Or.inr ⟨_, h.rebuild fun hscan => ?_⟩
      rw [hscanning] at hscan
      contradiction
  constructor
  · intro e thrown herror
    rcases hready with hempty | ⟨lists, hinvariant⟩
    · obtain ⟨outcome, hevent⟩ := onEvent_of_empty hempty e
      rw [hevent] at herror
      contradiction
    · obtain ⟨reply, pane, hevent, -⟩ := onEvent_ok hinvariant e
      rw [hevent] at herror
      contradiction
  · intro x y thrown herror
    rcases hready with hempty | ⟨lists, hinvariant⟩
    · obtain ⟨outcome, hclick⟩ := click_of_empty hempty x y
      rw [hclick] at herror
      contradiction
    · obtain ⟨reply, pane, hclick, -⟩ := click_ok hinvariant x y
      rw [hclick] at herror
      contradiction

/-- In a run whose rebuilds during a scan all find the cursor at the front, the list's cursor
is on a symbol. -/
theorem cursor_on_symbol (h : Sidebar.Reached Unmoved sidebar) : Sound sidebar := by
  have hinvariant := Invariant.reached h
  refine ⟨fun hne => (hinvariant.next_rebuild hne).1, ?_, hinvariant.no_error⟩
  intro hne hfirst
  obtain ⟨hsymbol, hscroll⟩ := hinvariant.next_rebuild hne
  obtain ⟨header, first, rest, hitems, hheader, -⟩ :=
    (@grouped_rebuild sidebar.feed _ hinvariant.grouped).starts hne
  rw [hscroll hfirst, hitems]
  refine ⟨rfl, ?_⟩
  intro i hi item hitem
  obtain rfl : i = 0 := Nat.lt_one_iff.mp hi
  rw [List.getElem?_cons_zero, Option.some.injEq] at hitem
  rw [← hitem]
  exact hheader

/-- A binary with one function, opened and scanned. -/
def scanned : Sidebar where
  feed := {
    loaded := true
    decodeGeneration := 1
    symbolsGen := some 1
    symbols := { symbols := [⟨.Function, "entry", 0x1000, "001000"⟩] } }

theorem reached_scanned : Sidebar.Reached Unmoved scanned := by
  have hopened : Sidebar.Reached Unmoved { feed := ({} : Feed).openBinary } :=
    @Sidebar.Reached.step Unmoved {} _ .openBinary .start trivial rfl
  exact @Sidebar.Reached.step Unmoved _ _ (.refresh false scanned.feed.symbols false) hopened
    trivial rfl

theorem cursor_on_symbol_scanned : Sound scanned := cursor_on_symbol reached_scanned

/-- Three functions of a first binary. -/
def firstSymbols : Symbols where
  symbols := [⟨.Function, "entry", 0x1000, "001000"⟩, ⟨.Function, "sub_001010", 0x1010, "001010"⟩,
    ⟨.Function, "sub_001020", 0x1020, "001020"⟩]

/-- A second binary is opened with the cursor on the third symbol, and a frame is drawn before
the decode has ended. -/
def rush : List Action :=
  [.openBinary, .refresh false firstSymbols false, .render {} {}, .onEvent .ArrowDown,
    .onEvent .ArrowDown, .openBinary, .refresh true {} false, .render {} {},
    .refresh false scanned.feed.symbols false]

def rushed : Sidebar where
  feed := { scanned.feed with decodeGeneration := 2, symbolsGen := some 2 }
  pane := { scroll := { cursor := 3 }, builtGen := some 2, builtScanning := true }
  lists := [(1, [])]

theorem Sidebar.Reached.run {start : Sidebar} {allowed : Sidebar → Action → Prop}
    {actions : List Action} (hall : ∀ sidebar action, allowed sidebar action)
    (h : Reached allowed start) (hrun : actions.foldlM Sidebar.perform start = .ok later) :
    Reached allowed later := by
  induction actions generalizing start with
  | nil =>
      rw [List.foldlM_nil] at hrun
      rw [← Except.ok.inj hrun]
      exact h
  | cons action actions ih =>
      rw [List.foldlM_cons] at hrun
      obtain ⟨next, hnext, hrest⟩ := ok_of_bind hrun
      exact ih (.step h (hall _ _) hnext) hrest

theorem not_cursor_on_symbol_rushed :
    ¬ ∀ sidebar, Sidebar.Reached (fun _ _ => True) sidebar → Sound sidebar := by
  intro h
  have hreached : Sidebar.Reached (fun _ _ => True) rushed :=
    .run (fun _ _ => trivial) .start (show rush.foldlM Sidebar.perform {} = .ok rushed from rfl)
  have hne : (rushed.pane.rebuild rushed.feed).items ≠ [] := by decide
  obtain ⟨item, hitem, -⟩ := (h rushed hreached).on_symbol hne
  have hnone : (rushed.pane.rebuild rushed.feed).items[3]? = none := by decide
  have hcursor : (rushed.pane.rebuild rushed.feed).scroll.cursor.toNat = 3 := by decide
  rw [hcursor, hnone] at hitem
  contradiction

end Runs

end Voidwalk.SymbolSidebar

import Mathlib.Algebra.Ring.Nat
import Mathlib.Data.List.Range
import Mathlib.Tactic.Common

/-!
The scrolling that the panes of the terminal interface share: a cursor on a row, and a window
of rows that follows it. `size_t` has 64 bits, and its sums wrap.
-/

namespace Voidwalk.ScrollWindow

/-- `cursor_` and `top_` of a pane. -/
@[ext] structure Scroll where
  cursor : UInt64 := 0
  top : UInt64 := 0
  deriving DecidableEq, Repr

/-- The height of the window: a row at least. -/
def windowHeight (height : Int) : UInt64 :=
  UInt64.ofNat (if 0 < height then height else 1).toNat

/-- Clamps the cursor to the rows and slides `top` so that the cursor stays in the window. -/
def follow (scroll : Scroll) (total : UInt64) (height : Int) : Scroll :=
  let h := windowHeight height
  if total = 0 then { cursor := 0, top := 0 }
  else
    let cursor := if total ≤ scroll.cursor then total - 1 else scroll.cursor
    let top := if cursor < scroll.top then cursor else scroll.top
    let top := if top + h ≤ cursor then cursor - h + 1 else top
    let maxTop := if h < total then total - h else 0
    { cursor := cursor, top := if maxTop < top then maxTop else top }

/-- The events that `moveRows` knows. -/
inductive Key where
  | ArrowUp | ArrowDown | PageUp | PageDown | Home | End | other
  deriving DecidableEq, Repr

/-- Whether the key is one for a row cursor, and where the cursor is then. -/
def moveRows (key : Key) (cursor total : UInt64) (height : Int) : Bool × UInt64 :=
  if total = 0 then (false, cursor)
  else
    let page := UInt64.ofNat (if 1 < height then height - 1 else 1).toNat
    match key with
    | .ArrowUp => (true, if 0 < cursor then cursor - 1 else cursor)
    | .ArrowDown => (true, if cursor + 1 < total then cursor + 1 else cursor)
    | .PageUp => (true, if page < cursor then cursor - page else 0)
    | .PageDown => (true, if cursor + page < total then cursor + page else total - 1)
    | .Home => (true, 0)
    | .End => (true, total - 1)
    | .other => (false, cursor)

/-- The rows that a pane draws: from `top` to before `std::min(total, top + height)`. -/
def drawnRows (scroll : Scroll) (total : UInt64) (height : Int) : List Nat :=
  List.range' scroll.top.toNat
    ((min total (scroll.top + windowHeight height)).toNat - scroll.top.toNat)

/-- A pane as its keys and its surroundings change it. -/
structure Screen where
  scroll : Scroll
  total : UInt64
  height : Int

/-- What happens between two frames. -/
inductive Change where
  | key (key : Key)
  | resize (total : UInt64) (height : Int)

namespace Screen

def change (screen : Screen) : Change → Screen
  | .key key =>
      { screen with
        scroll := { screen.scroll with
          cursor := (moveRows key screen.scroll.cursor screen.total screen.height).2 } }
  | .resize total height => { screen with total := total, height := height }

def run (screen : Screen) (changes : List Change) : Screen := changes.foldl change screen

def followed (screen : Screen) : Scroll := follow screen.scroll screen.total screen.height

end Screen

/-- The height of the window as a number. -/
def rowsOf (height : Int) : Nat := (max 1 height).toNat

/-- The window contains the cursor and runs past no end. -/
structure Window (total : UInt64) (height : Int) (scroll : Scroll) : Prop where
  empty : total = 0 → scroll.cursor = 0 ∧ scroll.top = 0
  cursor_lt : total ≠ 0 → scroll.cursor < total
  contains : total ≠ 0 → scroll.top ≤ scroll.cursor ∧
    scroll.cursor.toNat < scroll.top.toNat + rowsOf height
  top_le : scroll.top.toNat ≤ total.toNat - rowsOf height
  drawn_ne : total ≠ 0 → drawnRows scroll total height ≠ []
  drawn_full : rowsOf height ≤ total.toNat →
    (drawnRows scroll total height).length = rowsOf height
  drawn_lt : ∀ row ∈ drawnRows scroll total height, row < total.toNat

section Follow

variable {scroll : Scroll} {total cursor : UInt64} {height : Int}

theorem rowsOf_pos (height : Int) : 0 < rowsOf height := by
  rw [rowsOf]
  omega

theorem toNat_windowHeight (h : rowsOf height < 2 ^ 64) :
    (windowHeight height).toNat = rowsOf height := by
  have hsame : (if 0 < height then height else 1).toNat = rowsOf height := by
    rw [rowsOf]
    split
    · omega
    · omega
  rw [windowHeight, hsame, UInt64.toNat_ofNat_of_lt' h]

theorem toNat_pos (h : total ≠ 0) : 0 < total.toNat := by
  rw [Nat.pos_iff_ne_zero]
  exact fun hzero => h (UInt64.toNat_inj.mp hzero)

theorem toNat_sub_one (h : total ≠ 0) : (total - 1).toNat = total.toNat - 1 := by
  have hone : 1 ≤ total := UInt64.le_iff_toNat_le.mpr (by exact toNat_pos h)
  rw [UInt64.toNat_sub_of_le _ _ hone]
  rfl

/-- The three clamps as one expression in numbers. -/
theorem toNat_follow (hne : total ≠ 0) (hfits : total.toNat + rowsOf height < 2 ^ 64) :
    (follow scroll total height).cursor.toNat = min scroll.cursor.toNat (total.toNat - 1) ∧
      (follow scroll total height).top.toNat =
        min (max (min scroll.top.toNat (min scroll.cursor.toNat (total.toNat - 1)))
          (min scroll.cursor.toNat (total.toNat - 1) + 1 - rowsOf height))
          (total.toNat - rowsOf height) := by
  have hheight := @toNat_windowHeight height (by omega)
  have hrows := rowsOf_pos height
  have hone := toNat_sub_one hne
  have hpos := toNat_pos hne
  rw [follow, if_neg hne]
  dsimp only
  have hcursor : (if total ≤ scroll.cursor then total - 1 else scroll.cursor).toNat =
      min scroll.cursor.toNat (total.toNat - 1) := by
    simp only [UInt64.le_iff_toNat_le]
    split
    · omega
    · omega
  generalize (if total ≤ scroll.cursor then total - 1 else scroll.cursor) = cursor at hcursor ⊢
  have hraised : (if cursor < scroll.top then cursor else scroll.top).toNat =
      min scroll.top.toNat cursor.toNat := by
    simp only [UInt64.lt_iff_toNat_lt]
    split
    · omega
    · omega
  generalize (if cursor < scroll.top then cursor else scroll.top) = raised at hraised ⊢
  have hsum : (raised + windowHeight height).toNat = raised.toNat + rowsOf height := by
    rw [UInt64.toNat_add, hheight]
    exact Nat.mod_eq_of_lt (by omega)
  have hslid : (if raised + windowHeight height ≤ cursor then cursor - windowHeight height + 1
      else raised).toNat = max raised.toNat (cursor.toNat + 1 - rowsOf height) := by
    simp only [UInt64.le_iff_toNat_le, hsum]
    split
    · rename_i hbelow
      have hle : windowHeight height ≤ cursor := by
        rw [UInt64.le_iff_toNat_le, hheight]
        omega
      rw [UInt64.toNat_add, UInt64.toNat_sub_of_le _ _ hle, hheight]
      rw [Nat.mod_eq_of_lt (by simp only [UInt64.reduceToNat]; omega)]
      simp only [UInt64.reduceToNat]
      omega
    · omega
  generalize (if raised + windowHeight height ≤ cursor then cursor - windowHeight height + 1
    else raised) = slid at hslid ⊢
  have hmax : (if windowHeight height < total then total - windowHeight height else 0).toNat =
      total.toNat - rowsOf height := by
    simp only [UInt64.lt_iff_toNat_lt, hheight]
    split
    · rename_i hlt
      rw [UInt64.toNat_sub_of_le _ _ (UInt64.le_iff_toNat_le.mpr (by omega)), hheight]
    · simp only [UInt64.reduceToNat]
      omega
  generalize (if windowHeight height < total then total - windowHeight height else 0) = maxTop
    at hmax ⊢
  refine ⟨hcursor, ?_⟩
  simp only [UInt64.lt_iff_toNat_lt]
  split
  · omega
  · omega

theorem length_drawnRows (h : scroll.top.toNat + rowsOf height < 2 ^ 64) :
    (drawnRows scroll total height).length =
      min total.toNat (scroll.top.toNat + rowsOf height) - scroll.top.toNat := by
  have hsum : (scroll.top + windowHeight height).toNat = scroll.top.toNat + rowsOf height := by
    rw [UInt64.toNat_add, toNat_windowHeight (by omega)]
    exact Nat.mod_eq_of_lt h
  have hmin : (min total (scroll.top + windowHeight height)).toNat =
      min total.toNat (scroll.top.toNat + rowsOf height) := by
    rw [← hsum]
    by_cases hle : total ≤ scroll.top + windowHeight height
    · rw [Std.min_eq_if, if_pos hle, Nat.min_eq_left (UInt64.le_iff_toNat_le.mp hle)]
    · rw [Std.min_eq_if, if_neg hle, Nat.min_eq_right]
      rw [UInt64.le_iff_toNat_le] at hle
      omega
  rw [drawnRows, List.length_range', hmin]

/-- Whatever the cursor and the window were, behind `follow` the window contains the cursor. -/
theorem window_follow (hfits : total.toNat + rowsOf height < 2 ^ 64) :
    Window total height (follow scroll total height) := by
  have hrows := rowsOf_pos height
  by_cases hzero : total = 0
  · have hfollow : follow scroll total height = { cursor := 0, top := 0 } := by
      rw [follow, if_pos hzero]
    have hlength := @length_drawnRows { cursor := 0, top := 0 } total height (by
      simp only [UInt64.reduceToNat]
      omega)
    rw [hfollow]
    simp only [hzero, UInt64.reduceToNat] at hlength ⊢
    have hnone : drawnRows { cursor := 0, top := 0 } 0 height = [] :=
      List.eq_nil_of_length_eq_zero (by omega)
    refine ⟨fun _ => ⟨rfl, rfl⟩, fun h => absurd rfl h, fun h => absurd rfl h, by simp,
      fun h => absurd rfl h, by simp only [UInt64.reduceToNat]; omega, ?_⟩
    rw [hnone]
    exact fun row hrow => absurd hrow List.not_mem_nil
  · have hpos := toNat_pos hzero
    obtain ⟨hcursor, htop⟩ := @toNat_follow scroll total height hzero hfits
    generalize follow scroll total height = after at hcursor htop ⊢
    have hlength := @length_drawnRows after total height (by omega)
    refine ⟨fun h => absurd h hzero, fun _ => ?_, fun _ => ⟨?_, ?_⟩, by omega, ?_,
      fun _ => by omega, ?_⟩
    · rw [UInt64.lt_iff_toNat_lt]
      omega
    · rw [UInt64.le_iff_toNat_le]
      omega
    · omega
    · intro _ hnil
      rw [hnil, List.length_nil] at hlength
      omega
    · intro row hrow
      have hdrawn : drawnRows after total height =
          List.range' after.top.toNat (drawnRows after total height).length := by
        rw [drawnRows, List.length_range']
      rw [hdrawn, List.mem_range'_1] at hrow
      omega

/-- A window that contains its cursor stays where it is. -/
theorem follow_of_window (hfits : total.toNat + rowsOf height < 2 ^ 64)
    (h : Window total height scroll) : follow scroll total height = scroll := by
  by_cases hzero : total = 0
  · obtain ⟨hcursor, htop⟩ := h.empty hzero
    rw [follow, if_pos hzero]
    exact Scroll.ext hcursor.symm htop.symm
  · have hcursor := UInt64.lt_iff_toNat_lt.mp (h.cursor_lt hzero)
    obtain ⟨hle, hlt⟩ := h.contains hzero
    rw [UInt64.le_iff_toNat_le] at hle
    have htop := h.top_le
    obtain ⟨hsameCursor, hsameTop⟩ := @toNat_follow scroll total height hzero hfits
    apply Scroll.ext
    · apply UInt64.toNat_inj.mp
      omega
    · apply UInt64.toNat_inj.mp
      omega

/-- A cursor on a row stays on a row, also where the sum of PageDown wraps. -/
theorem moveRows_lt (h : cursor < total) (key : Key) (height : Int) :
    (moveRows key cursor total height).2 < total := by
  have hne : total ≠ 0 := by
    rintro rfl
    exact absurd h (by rw [UInt64.lt_iff_toNat_lt]; exact Nat.not_lt_zero _)
  have hpos : 0 < total := UInt64.lt_iff_toNat_lt.mpr (toNat_pos hne)
  have hlast : total - 1 < total := by
    have htotal := toNat_pos hne
    rw [UInt64.lt_iff_toNat_lt, toNat_sub_one hne]
    omega
  have hless {distance : UInt64} (hdistance : distance ≤ cursor) : cursor - distance < total := by
    rw [UInt64.lt_iff_toNat_lt] at h ⊢
    rw [UInt64.toNat_sub_of_le _ _ hdistance]
    omega
  rw [moveRows, if_neg hne]
  generalize UInt64.ofNat (if 1 < height then height - 1 else 1).toNat = page
  cases key with
  | ArrowUp =>
      dsimp only
      split
      · rename_i hsome
        apply hless
        rw [UInt64.lt_iff_toNat_lt] at hsome
        rw [UInt64.le_iff_toNat_le]
        exact hsome
      · exact h
  | ArrowDown =>
      dsimp only
      split
      · assumption
      · exact h
  | PageUp =>
      dsimp only
      split
      · rename_i hpage
        exact hless (UInt64.le_of_lt hpage)
      · exact hpos
  | PageDown =>
      dsimp only
      split
      · assumption
      · exact hlast
  | Home => exact hpos
  | End => exact hlast
  | other => exact h

end Follow

namespace Screen

/-- What `follow` and the keys make of a screen. -/
structure Follows (screen : Screen) : Prop where
  window : Window screen.total screen.height screen.followed
  idempotent : follow screen.followed screen.total screen.height = screen.followed
  valid : screen.scroll.cursor < screen.total → ∀ keys : List Key,
    (screen.run (keys.map Change.key)).scroll.cursor < screen.total

theorem cursor_keys {screen : Screen} (h : screen.scroll.cursor < screen.total)
    (keys : List Key) : (screen.run (keys.map Change.key)).scroll.cursor < screen.total := by
  induction keys generalizing screen with
  | nil => exact h
  | cons key keys ih => exact @ih (screen.change (.key key)) (moveRows_lt h key screen.height)

end Screen

/-- Behind any run of keys and of changes to the rows and to the height, from any cursor and
any window, the window follows the cursor. -/
theorem window_follows (start : Screen) (changes : List Change)
    (hfits : (start.run changes).total.toNat + rowsOf (start.run changes).height < 2 ^ 64) :
    (start.run changes).Follows where
  window := window_follow hfits
  idempotent := follow_of_window hfits (window_follow hfits)
  valid h keys := Screen.cursor_keys h keys

theorem window_follows_shrunk :
    (({ scroll := { cursor := 90, top := 80 }, total := 100, height := 20 } : Screen).run
      [.key .PageDown, .resize 7 (-3)]).Follows :=
  window_follows { scroll := { cursor := 90, top := 80 }, total := 100, height := 20 }
    [.key .PageDown, .resize 7 (-3)] (by decide)

section Viewports

/-- The rows of `ftxui::Box`, both ends included. -/
structure Box where
  yMin : Int := 0
  yMax : Int := 0

/-- `Viewport::rows`: before the first frame the box is empty. -/
def Box.rows (box : Box) (fallback : Int) : Int :=
  let h := box.yMax - box.yMin + 1
  if box.yMax = 0 ∧ box.yMin = 0 then fallback else if 0 < h then h else 1

/-- The row under screen line `y`. -/
def rowAt (box : Box) (y : Int) (top : UInt64) : Option UInt64 :=
  if y < box.yMin ∨ box.yMax < y then none
  else some (top + UInt64.ofNat (y - box.yMin).toNat)

end Viewports

/-- `tui::DisassemblyPane`. -/
structure DisassemblyPane where
  scroll : Scroll := {}
  gen : UInt64 := 0xFFFFFFFFFFFFFFFF

/-- What the pane asks its session. -/
structure Listing where
  decodeGeneration : UInt64
  rowCount : UInt64
  rowIndexFor : UInt64 → UInt64

namespace DisassemblyPane

variable (listing : Listing) (box : Box) (pane : DisassemblyPane)

def sync : DisassemblyPane :=
  if pane.gen = listing.decodeGeneration then pane
  else { scroll := {}, gen := listing.decodeGeneration }

def clamp : DisassemblyPane :=
  { pane with scroll := follow pane.scroll listing.rowCount (box.rows 20) }

def navigateTo (vaddr : UInt64) : DisassemblyPane :=
  let pane := sync listing pane
  if listing.rowCount = 0 then pane
  else
    let cursor := listing.rowIndexFor vaddr
    let half := UInt64.ofNat (box.rows 20 / 2).toNat
    let top := if half < cursor then cursor - half else 0
    clamp listing box { pane with scroll := { cursor := cursor, top := top } }

def onEvent (key : Key) : Bool × DisassemblyPane :=
  let pane := sync listing pane
  let (moved, cursor) := moveRows key pane.scroll.cursor listing.rowCount (box.rows 20)
  if moved then
    (true, clamp listing box { pane with scroll := { pane.scroll with cursor := cursor } })
  else (false, pane)

def click (y : Int) : Bool × DisassemblyPane :=
  let pane := sync listing pane
  match rowAt box y pane.scroll.top with
  | none => (false, pane)
  | some i =>
      if listing.rowCount ≤ i then (false, pane)
      else (true, { pane with scroll := { pane.scroll with cursor := i } })

/-- The pane behind a frame; it draws the rows of its window. -/
def render : DisassemblyPane := clamp listing box (sync listing pane)

inductive Action where
  | navigateTo (vaddr : UInt64)
  | onEvent (key : Key)
  | click (y : Int)
  | render

/-- An action on a session and a box as they are then. -/
def perform (pane : DisassemblyPane) : Listing × Box × Action → DisassemblyPane
  | (listing, box, .navigateTo vaddr) => pane.navigateTo listing box vaddr
  | (listing, box, .onEvent key) => (pane.onEvent listing box key).2
  | (listing, box, .click y) => (pane.click listing box y).2
  | (listing, box, .render) => pane.render listing box

/-- A frame draws a window on its rows, whatever came before it. -/
theorem render_window (actions : List (Listing × Box × Action))
    (hfits : listing.rowCount.toNat + rowsOf (box.rows 20) < 2 ^ 64) :
    Window listing.rowCount (box.rows 20)
      ((actions.foldl perform pane).render listing box).scroll :=
  window_follow hfits

/-- The row that a click selects is one of the rows. -/
theorem cursor_click {later : DisassemblyPane} {y : Int}
    (h : pane.click listing box y = (true, later)) : later.scroll.cursor < listing.rowCount := by
  rw [click] at h
  dsimp only at h
  split at h
  · exact absurd (Prod.mk.inj h).1 Bool.false_ne_true
  split at h
  · exact absurd (Prod.mk.inj h).1 Bool.false_ne_true
  · rename_i i _ hinside
    rw [← (Prod.mk.inj h).2]
    rw [UInt64.le_iff_toNat_le] at hinside
    rw [UInt64.lt_iff_toNat_lt]
    exact Nat.not_le.mp hinside

end DisassemblyPane

end Voidwalk.ScrollWindow

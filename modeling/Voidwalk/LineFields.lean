import Mathlib.Data.List.GetD
import Voidwalk.Library.Zippers
import Voidwalk.SymbolSidebar

/-!
The edit fields of the terminal, `tui::LineEdit`: bytes with a byte offset, which over every run of
keys are a line of characters with a place between two of them.
-/

namespace Voidwalk.LineFields

open Voidwalk.SymbolSidebar
open Voidwalk.Library.Zippers

/-- One character as the terminal sends it: a byte that begins one and the bytes that
continue it. -/
def isGlyph : List UInt8 → Bool
  | [] => false
  | head :: tail => !continuation head && tail.all continuation

/-- What an event is for a line of characters. -/
def editOf : Event → Option (Edit (List UInt8))
  | .Character bytes => some (.insert bytes)
  | .Backspace => some .backspace
  | .Delete => some .delete
  | .ArrowLeft => some .left
  | .ArrowRight => some .right
  | .Home => some .home
  | .End => some .last
  | _ => none

def edited (zipper : Zipper (List UInt8)) (event : Event) : Zipper (List UInt8) :=
  match editOf event with
  | some edit => zipper.edit edit
  | none => zipper

/-- The bytes of the field are those of the line, and its offset is where the place is. -/
structure Represents (field : LineEdit) (zipper : Zipper (List UInt8)) : Prop where
  glyphs : ∀ glyph ∈ zipper.contents, isGlyph glyph = true
  value : field.value = zipper.contents.flatten
  cursor : field.cursor = zipper.back.reverse.flatten.length

/-- Every character that is typed comes whole. -/
def isWhole : Event → Bool
  | .Character bytes => isGlyph bytes
  | _ => true

section Bytes

variable {front rest glyph : List UInt8} {glyphs : List (List UInt8)}

theorem exists_of_isGlyph (h : isGlyph glyph = true) : ∃ head tail, glyph = head :: tail ∧
    continuation head = false ∧ ∀ byte ∈ tail, continuation byte = true := by
  cases glyph with
  | nil => contradiction
  | cons head tail =>
      rw [isGlyph, Bool.and_eq_true, Bool.not_eq_true', List.all_eq_true] at h
      exact ⟨head, tail, rfl, h.1, h.2⟩

theorem prev_glyph (front rest : List UInt8) (h : isGlyph glyph = true) :
    LineEdit.prev (front ++ (glyph ++ rest)) (front.length + glyph.length) = front.length := by
  obtain ⟨head, tail, rfl, hhead, htail⟩ := exists_of_isGlyph h
  suffices hback : ∀ k ≤ tail.length, LineEdit.prev (front ++ (head :: tail ++ rest))
      (front.length + k + 1) = front.length by
    exact hback tail.length (Nat.le_refl _)
  intro k
  induction k with
  | zero =>
      intro _
      change (if continuation ((front ++ (head :: tail ++ rest)).getD front.length 0) then _
        else front.length) = front.length
      rw [List.getD_append_right _ _ _ _ (Nat.le_refl _), Nat.sub_self]
      exact if_neg (by simpa using hhead)
  | succ k ih =>
      intro hk
      have hbyte : (front ++ (head :: tail ++ rest)).getD (front.length + (k + 1)) 0 ∈ tail := by
        rw [List.getD_append_right _ _ _ _ (Nat.le_add_right _ _), Nat.add_sub_cancel_left,
          List.cons_append, List.getD_cons_succ, List.getD_append _ _ _ _ hk,
          List.getD_eq_getElem _ _ hk]
        exact List.getElem_mem hk
      rw [LineEdit.prev, if_pos (htail _ hbyte)]
      exact ih (Nat.le_of_succ_le hk)

theorem head_flatten (h : ∀ glyph ∈ glyphs, isGlyph glyph = true) {byte : UInt8}
    (hbyte : glyphs.flatten.head? = some byte) : continuation byte = false := by
  cases glyphs with
  | nil => contradiction
  | cons glyph glyphs =>
      obtain ⟨head, tail, rfl, hhead, -⟩ := exists_of_isGlyph (h _ List.mem_cons_self)
      obtain rfl : head = byte := Option.some.inj hbyte
      exact hhead

theorem next_glyph (front : List UInt8) (h : ∀ item ∈ glyph :: glyphs, isGlyph item = true) :
    LineEdit.next (front ++ (glyph ++ glyphs.flatten)) front.length =
      front.length + glyph.length := by
  rw [List.forall_mem_cons] at h
  obtain ⟨head, tail, rfl, -, htail⟩ := exists_of_isGlyph h.1
  have hdrop : (front ++ (head :: tail ++ glyphs.flatten)).drop (front.length + 1) =
      tail ++ glyphs.flatten := by
    rw [List.drop_append, List.drop_of_length_le (Nat.le_succ _), Nat.add_sub_cancel_left]
    rfl
  have hstop : glyphs.flatten.takeWhile continuation = [] := by
    cases hrest : glyphs.flatten with
    | nil => rfl
    | cons byte bytes =>
        have hbyte := head_flatten h.2 (by rw [hrest]; rfl)
        rw [List.takeWhile_cons, hbyte]
        rfl
  rw [LineEdit.next, hdrop, List.takeWhile_append_of_pos htail, hstop, List.append_nil,
    List.length_cons]
  omega

theorem length_glyph_pos (h : isGlyph glyph = true) : 0 < glyph.length := by
  obtain ⟨head, tail, rfl, -, -⟩ := exists_of_isGlyph h
  exact Nat.succ_pos _

end Bytes

section Steps

variable {field : LineEdit} {zipper : Zipper (List UInt8)}

theorem represents_set {glyphs : List (List UInt8)} (h : ∀ glyph ∈ glyphs, isGlyph glyph = true) :
    Represents (LineEdit.set glyphs.flatten) (Zipper.atEnd glyphs) where
  glyphs := by rwa [Zipper.contents_atEnd]
  value := by rw [Zipper.contents_atEnd]; rfl
  cursor := by rw [Zipper.atEnd, List.reverse_reverse]; rfl

theorem glyphs_edited (h : Represents field zipper) {event : Event}
    (hwhole : isWhole event = true) :
    ∀ glyph ∈ (edited zipper event).contents, isGlyph glyph = true := by
  intro glyph hglyph
  rw [edited] at hglyph
  cases hedit : editOf event with
  | none =>
      rw [hedit] at hglyph
      exact h.glyphs glyph hglyph
  | some edit =>
      rw [hedit] at hglyph
      rcases Zipper.mem_edit hglyph with hold | rfl
      · exact h.glyphs glyph hold
      · cases event with
        | Character bytes =>
            obtain rfl : bytes = glyph := by simpa [editOf] using hedit
            exact hwhole
        | _ => simp [editOf] at hedit

/-- The character in front of the cursor. -/
theorem split_back {glyph : List UInt8} {back front : List (List UInt8)}
    (hglyph : isGlyph glyph = true)
    (hvalue : field.value = (glyph :: back).reverse.flatten ++ front.flatten)
    (hcursor : field.cursor = (glyph :: back).reverse.flatten.length) :
    field.value = back.reverse.flatten ++ (glyph ++ front.flatten) ∧
      field.value.drop field.cursor = front.flatten ∧
      LineEdit.prev field.value field.cursor = back.reverse.flatten.length := by
  have hsplit : field.value = back.reverse.flatten ++ (glyph ++ front.flatten) := by
    simpa [List.append_assoc] using hvalue
  have hplace : field.cursor = back.reverse.flatten.length + glyph.length := by simpa using hcursor
  refine ⟨hsplit, ?_, ?_⟩
  · rw [hvalue, hcursor, List.drop_left]
  · rw [hsplit, hplace]
    exact prev_glyph _ _ hglyph

/-- The character behind the cursor. -/
theorem split_front {glyph : List UInt8} {back front : List (List UInt8)}
    (hglyphs : ∀ item ∈ glyph :: front, isGlyph item = true)
    (hvalue : field.value = back.reverse.flatten ++ (glyph :: front).flatten)
    (hcursor : field.cursor = back.reverse.flatten.length) :
    field.cursor < field.value.length ∧
      LineEdit.next field.value field.cursor = back.reverse.flatten.length + glyph.length := by
  have hpos := length_glyph_pos (hglyphs glyph List.mem_cons_self)
  rw [hvalue, hcursor, List.flatten_cons]
  refine ⟨?_, next_glyph _ hglyphs⟩
  rw [List.length_append, List.length_append]
  omega

theorem bytes_handle (h : Represents field zipper) (event : Event) :
    (field.handle event).value = (edited zipper event).contents.flatten ∧
      (field.handle event).cursor = (edited zipper event).back.reverse.flatten.length := by
  obtain ⟨hglyphs, hvalue, hcursor⟩ := h
  rcases zipper with ⟨back, front⟩
  simp only [Zipper.contents, List.forall_mem_append] at hglyphs
  simp only [Zipper.contents, List.flatten_append] at hvalue
  dsimp only at hcursor
  cases event with
  | Character bytes =>
      rw [LineEdit.handle, LineEdit.insert]
      simp only [hvalue, hcursor, List.take_left, List.drop_left]
      simp [edited, editOf, Zipper.edit, Zipper.contents]
  | Backspace =>
      rw [LineEdit.handle, LineEdit.erase]
      cases back with
      | nil =>
          have hzero : field.cursor = 0 := hcursor
          simp [hzero, hvalue, LineEdit.prev, edited, editOf, Zipper.edit, Zipper.contents]
      | cons glyph back =>
          obtain ⟨hsplit, hdrop, hprev⟩ := split_back (hglyphs.1 glyph (by simp)) hvalue hcursor
          simp only [hprev, hdrop]
          rw [hsplit, List.take_left]
          simp [edited, editOf, Zipper.edit, Zipper.contents]
  | Delete =>
      rw [LineEdit.handle]
      cases front with
      | nil =>
          have hend : ¬ field.cursor < field.value.length := by simp [hvalue, hcursor]
          rw [if_neg hend]
          exact ⟨by simpa [edited, editOf, Zipper.edit, Zipper.contents] using hvalue, hcursor⟩
      | cons glyph front =>
          obtain ⟨hroom, hnext⟩ := split_front hglyphs.2 hvalue hcursor
          have hdrop : field.value.drop (LineEdit.next field.value field.cursor) =
              front.flatten := by
            rw [hnext, hvalue, List.flatten_cons, ← List.append_assoc, ← List.length_append,
              List.drop_left]
          rw [if_pos hroom, LineEdit.erase]
          simp only [hdrop]
          rw [hcursor, hvalue, List.take_left]
          simp [edited, editOf, Zipper.edit, Zipper.contents]
  | ArrowLeft =>
      rw [LineEdit.handle]
      cases back with
      | nil =>
          have hzero : field.cursor = 0 := hcursor
          simpa [hzero, LineEdit.prev, edited, editOf, Zipper.edit, Zipper.contents] using hvalue
      | cons glyph back =>
          obtain ⟨hsplit, -, hprev⟩ := split_back (hglyphs.1 glyph (by simp)) hvalue hcursor
          simp only [hprev]
          exact ⟨by simpa [edited, editOf, Zipper.edit, Zipper.contents] using hsplit, rfl⟩
  | ArrowRight =>
      rw [LineEdit.handle]
      cases front with
      | nil =>
          have hend : ¬ field.cursor < field.value.length := by simp [hvalue, hcursor]
          rw [dif_neg hend]
          exact ⟨by simpa [edited, editOf, Zipper.edit, Zipper.contents] using hvalue, hcursor⟩
      | cons glyph front =>
          obtain ⟨hroom, hnext⟩ := split_front hglyphs.2 hvalue hcursor
          rw [dif_pos hroom]
          simp only [hnext]
          exact ⟨by simpa [edited, editOf, Zipper.edit, Zipper.contents] using hvalue,
            by simp [edited, editOf, Zipper.edit]⟩
  | Home =>
      rw [LineEdit.handle]
      exact ⟨by simpa [edited, editOf, Zipper.edit, Zipper.contents] using hvalue, rfl⟩
  | End =>
      rw [LineEdit.handle]
      simp [hvalue, edited, editOf, Zipper.edit, Zipper.contents]
  | ArrowUp | ArrowDown | PageUp | PageDown | Return | Escape | other =>
      change field.value = _ ∧ field.cursor = _
      exact ⟨by simpa [edited, editOf, Zipper.contents] using hvalue, hcursor⟩

/-- One event. -/
theorem Represents.handle (h : Represents field zipper) {event : Event}
    (hwhole : isWhole event = true) :
    Represents (field.handle event) (edited zipper event) := by
  obtain ⟨hvalue, hcursor⟩ := bytes_handle h event
  exact ⟨glyphs_edited h hwhole, hvalue, hcursor⟩

/-- All the events of a run. -/
theorem Represents.run (h : Represents field zipper) {events : List Event}
    (hwhole : ∀ event ∈ events, isWhole event = true) :
    Represents (events.foldl LineEdit.handle field) (events.foldl edited zipper) := by
  induction events generalizing field zipper with
  | nil => exact h
  | cons event events ih =>
      rw [List.forall_mem_cons] at hwhole
      exact ih (h.handle hwhole.1) hwhole.2

end Steps

section Drawing

/-- What an active field draws: the bytes in front of the cursor, those in reverse video and those
behind. -/
structure DrawnField where
  before : List UInt8
  inverted : List UInt8
  after : List UInt8
  deriving DecidableEq

/-- `LineEdit::render` of an active field. -/
def render (field : LineEdit) (width : Int) : DrawnField :=
  let w := (max 1 width).toNat
  let size := field.value.length
  -- Keep the cursor in view: show the tail of a value longer than the field.
  let cut := if w ≤ size then min field.cursor (size - w + 1) else 0
  let shown := field.value.drop cut
  let cur := field.cursor - cut
  let stop := LineEdit.next shown cur
  if cur < shown.length then
    { before := shown.take cur, inverted := (shown.drop cur).take (stop - cur),
      after := shown.drop stop }
  else { before := shown.take cur, inverted := [0x20], after := [] }

/-- The cursor stands on the character behind the place, or on a blank behind the last one. It is
inside the field, and what is shown in front of it is the end of what is in front of the place. -/
structure ShowsPlace (zipper : Zipper (List UInt8)) (width : Int) (drawn : DrawnField) : Prop where
  inverted : drawn.inverted = zipper.front.head?.getD [0x20]
  after : drawn.after = zipper.front.tail.flatten
  before : drawn.before <:+ zipper.back.reverse.flatten
  inside : drawn.before.length < max 1 width
  whole : zipper.contents.flatten.length < width → drawn.before = zipper.back.reverse.flatten

/-- The bytes `shown` with the cursor at `cur` of them. -/
def drawnFrom (shown : List UInt8) (cur : Nat) : DrawnField :=
  if cur < shown.length then
    { before := shown.take cur
      inverted := (shown.drop cur).take (LineEdit.next shown cur - cur)
      after := shown.drop (LineEdit.next shown cur) }
  else { before := shown.take cur, inverted := [0x20], after := [] }

/-- What is cut off in front of what is shown. -/
theorem render_cut (field : LineEdit) (width : Int) : ∃ cut ≤ field.cursor,
    field.cursor - cut < max 1 width ∧ (field.value.length < width → cut = 0) ∧
      render field width = drawnFrom (field.value.drop cut) (field.cursor - cut) := by
  have hcursor := field.cursor_le
  refine ⟨_, ?_, ?_, ?_, rfl⟩
  · split
    · omega
    · omega
  · split
    · omega
    · omega
  · intro hshort
    exact if_neg (by omega)

theorem drawnFrom_glyphs (front : List UInt8) {glyphs : List (List UInt8)}
    (h : ∀ glyph ∈ glyphs, isGlyph glyph = true) :
    drawnFrom (front ++ glyphs.flatten) front.length =
      { before := front, inverted := glyphs.head?.getD [0x20], after := glyphs.tail.flatten } := by
  rw [drawnFrom, List.take_left, List.drop_left]
  cases glyphs with
  | nil =>
      rw [if_neg (by simp)]
      rfl
  | cons glyph glyphs =>
      have hpos := length_glyph_pos (h glyph List.mem_cons_self)
      rw [List.flatten_cons, next_glyph front h, if_pos (by simp; omega),
        Nat.add_sub_cancel_left, List.take_left, ← List.append_assoc, ← List.length_append,
        List.drop_left]
      rfl

theorem Represents.showsPlace {field : LineEdit} {zipper : Zipper (List UInt8)}
    (h : Represents field zipper) (width : Int) : ShowsPlace zipper width (render field width) := by
  obtain ⟨hglyphs, hvalue, hcursor⟩ := h
  rcases zipper with ⟨back, front⟩
  simp only [Zipper.contents, List.forall_mem_append] at hglyphs
  simp only [Zipper.contents, List.flatten_append] at hvalue
  dsimp only at hcursor
  obtain ⟨cut, hcut, hinside, hwhole, hdrawn⟩ := render_cut field width
  rw [hcursor] at hcut hinside hdrawn
  have hlength : (back.reverse.flatten.drop cut).length = back.reverse.flatten.length - cut :=
    List.length_drop
  have hshort (hfits : ((back.reverse ++ front).flatten.length : Int) < width) :
      back.reverse.flatten.drop cut = back.reverse.flatten := by
    rw [List.flatten_append, ← hvalue] at hfits
    rw [hwhole hfits, List.drop_zero]
  rw [hvalue, List.drop_append_of_le_length hcut, ← hlength, drawnFrom_glyphs _ hglyphs.2] at hdrawn
  rw [hdrawn]
  constructor
  · rfl
  · rfl
  · exact List.drop_suffix cut _
  · dsimp only
    rw [hlength]
    omega
  · exact hshort

/-- An edit field over every run of keys: it holds the characters that an editor of characters
holds, with the cursor between the same two, and draws the one behind it in reverse video. -/
theorem edits_characters (glyphs : List (List UInt8)) (events : List Event) (width : Int)
    (hglyphs : glyphs.all isGlyph = true) (hwhole : events.all isWhole = true) :
    Represents (events.foldl LineEdit.handle (LineEdit.set glyphs.flatten))
        (events.foldl edited (Zipper.atEnd glyphs)) ∧
      ShowsPlace (events.foldl edited (Zipper.atEnd glyphs)) width
        (render (events.foldl LineEdit.handle (LineEdit.set glyphs.flatten)) width) := by
  have hrun := (represents_set (List.all_eq_true.mp hglyphs)).run (List.all_eq_true.mp hwhole)
  exact ⟨hrun, hrun.showsPlace width⟩

/-- `aé` with a `b` typed in between. -/
theorem edits_characters_between :
    Represents
        ([.ArrowLeft, .Character [0x62]].foldl LineEdit.handle
          (LineEdit.set [[0x61], [0xC3, 0xA9]].flatten))
        ([.ArrowLeft, .Character [0x62]].foldl edited (Zipper.atEnd [[0x61], [0xC3, 0xA9]])) ∧
      ShowsPlace
        ([.ArrowLeft, .Character [0x62]].foldl edited (Zipper.atEnd [[0x61], [0xC3, 0xA9]])) 4
        (render ([.ArrowLeft, .Character [0x62]].foldl LineEdit.handle
          (LineEdit.set [[0x61], [0xC3, 0xA9]].flatten)) 4) :=
  edits_characters [[0x61], [0xC3, 0xA9]] [.ArrowLeft, .Character [0x62]] 4 (by decide) (by decide)

end Drawing

end Voidwalk.LineFields

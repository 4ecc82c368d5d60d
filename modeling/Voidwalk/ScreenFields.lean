import Voidwalk.ScreenNavigation

/-!
What is typed on the screen, with frames and changes of the surroundings between any two keys: a
dropped file is opened, and a typed address is gone to.
-/

namespace Voidwalk.ScreenFields

open Voidwalk.SymbolSidebar
open Voidwalk.MemoryView
open Voidwalk.OpenDialog
open Voidwalk.TuiScreen
open Voidwalk.ScreenStanding
open Voidwalk.ScreenNavigation
open Voidwalk.Library.HexWords

variable {S : Type} {ops : Surroundings S} {state : State S}

/-- A run in which these keys are pressed and no mouse is used. -/
inductive Pressed : List Key → List (Input S) → Prop where
  | nil : Pressed [] []
  | key {keys : List Key} {inputs : List (Input S)} (e : Key) (h : Pressed keys inputs) :
      Pressed (e :: keys) (.key e :: inputs)
  | frame {keys : List Key} {inputs : List (Input S)} (h : Pressed keys inputs) :
      Pressed keys (.frame :: inputs)
  | surroundings {keys : List Key} {inputs : List (Input S)} (rest : S)
      (h : Pressed keys inputs) : Pressed keys (.surroundings rest :: inputs)

section Runs

/-- Letters and pasted texts are appended to a field that takes the keys, whatever frames are
drawn and whatever happens around the screen meanwhile. -/
theorem typed_appended {P : AppView → Prop} {field : AppView → LineEdit}
    (hframe : ∀ view loaded, P view → P (view.validateFocus loaded) ∧
      field (view.validateFocus loaded) = field view)
    (hkey : ∀ (state : State S) (bytes : List UInt8), P state.view →
      ∃ later, state.perform ops (.key (.Character bytes)) = .ok later ∧ P later.view ∧
        field later.view = (field state.view).handle (.Character bytes))
    {keys : List Key} {inputs : List (Input S)} (hpressed : Pressed keys inputs)
    {chunks : List (List UInt8)} (hkeys : keys = chunks.map .Character) (h : P state.view) :
    ∃ later, inputs.foldlM (State.perform ops) state = .ok later ∧ P later.view ∧
      field later.view =
        chunks.foldl (fun field bytes => field.handle (.Character bytes)) (field state.view) := by
  induction hpressed generalizing state chunks with
  | nil =>
      obtain rfl : chunks = [] := List.map_eq_nil_iff.mp hkeys.symm
      exact ⟨state, rfl, h, rfl⟩
  | key e hpressed ih =>
      obtain ⟨bytes, more, rfl, rfl, hmore⟩ := List.map_eq_cons_iff.mp hkeys.symm
      obtain ⟨next, hnext, hstill, hfield⟩ := hkey state bytes h
      obtain ⟨later, hlater, hthen, hvalue⟩ := ih hmore.symm hstill
      refine ⟨later, ?_, hthen, ?_⟩
      · rw [List.foldlM_cons, hnext]
        exact hlater
      · rw [hvalue, hfield, List.foldl_cons]
  | frame hpressed ih =>
      obtain ⟨hstill, hfield⟩ :=
        hframe state.view (ops.loaded (ops.refresh state.rest)) h
      obtain ⟨later, hlater, hthen, hvalue⟩ := @ih (state.onRender ops) _ hkeys hstill
      exact ⟨later, hlater, hthen, hvalue.trans (by rw [State.onRender, hfield])⟩
  | surroundings rest hpressed ih =>
      obtain ⟨later, hlater, hthen, hvalue⟩ := @ih { state with rest := rest } _ hkeys h
      exact ⟨later, hlater, hthen, hvalue⟩

end Runs

section Dialog

theorem perform_dialog (h : state.view.showOpen = true) {e : Key} (he : e ≠ .Custom) :
    state.perform ops (.key e) = (state.onOpenEvent ops e).map fun outcome => outcome.2 := by
  rw [State.perform, State.onEvent.eq_def, if_neg he, if_pos h]

/-- The field of the dialog takes what is typed. -/
theorem typed_path (h : state.view.showOpen = true)
    (hend : state.view.openPath.cursor = state.view.openPath.value.length)
    {chunks : List (List UInt8)} {inputs : List (Input S)}
    (hpressed : Pressed (chunks.map .Character) inputs) :
    ∃ later, inputs.foldlM (State.perform ops) state = .ok later ∧
      later.view.showOpen = true ∧
      later.view.openPath.value = state.view.openPath.value ++ chunks.flatten := by
  obtain ⟨later, hlater, hopen, hfield⟩ := @typed_appended S ops state
    (fun view => view.showOpen = true) (fun view => view.openPath)
    (fun view loaded hopen => by
      obtain ⟨focus, tab, hview, -⟩ := validateFocus_eq view loaded
      rw [hview]
      exact ⟨hopen, rfl⟩)
    (fun state bytes hopen => by
      rw [perform_dialog hopen (fun hcustom => Key.noConfusion hcustom)]
      exact ⟨_, rfl, hopen, rfl⟩)
    _ _ hpressed chunks rfl h
  exact ⟨later, hlater, hopen, by rw [hfield, handle_typed chunks _ hend]⟩

/-- The letters that are shortcuts before a binary is open, and Space, which presses a button. -/
def shortcuts : List (List UInt8) := [[0x6F], [0x71], [0x5B], [0x5D], [0x20]]

/-- Any other letter gets past the shortcuts and the bars. -/
theorem onPlainEvent_typed {bytes : List UInt8} (h : bytes ∉ shortcuts) :
    state.onPlainEvent ops (.Character bytes) = state.behindBars ops (.Character bytes) := by
  have hletter (symbol : Char) (hsymbol : [UInt8.ofNat symbol.toNat] ∈ shortcuts) :
      Key.Character bytes ≠ letter symbol := by
    intro hsame
    rw [letter, Key.Character.injEq] at hsame
    exact h (hsame ▸ hsymbol)
  have hspace : bytes ≠ [0x20] := fun hsame => h (hsame ▸ by decide)
  have hmenuBar : state.onMenuBarEvent (.Character bytes) = none := by
    rw [State.onMenuBarEvent.eq_def]
    dsimp only
    split <;> first | rfl | simp_all
  have htoolbar : state.onToolbarEvent ops (.Character bytes) = none := by
    rw [State.onToolbarEvent.eq_def]
    dsimp only
    split <;> first | rfl | simp_all
  have hbars : state.onBarsEvent ops (.Character bytes) =
      state.behindBars ops (.Character bytes) := by
    rw [State.onBarsEvent, hmenuBar, htoolbar]
    split
    · rfl
    split
    · rfl
    · rfl
  rw [State.onPlainEvent.eq_def]
  dsimp only [altMenu]
  rw [if_neg (not_or.mpr ⟨fun hsame => Key.noConfusion hsame, hletter 'o' (by decide)⟩),
    if_neg (not_or.mpr ⟨fun hsame => Key.noConfusion hsame, hletter 'q' (by decide)⟩),
    if_neg (not_or.mpr ⟨hletter '[' (by decide), hletter ']' (by decide)⟩), hbars]

/-- Before a binary is open, such a letter opens the dialog with itself in the field. -/
theorem perform_first (h : Plain ops state) (hempty : ops.loaded state.rest = false)
    {bytes : List UInt8} (hfirst : bytes ∉ shortcuts) :
    state.perform ops (.key (.Character bytes)) = .ok (state.beginOpen ops bytes) := by
  rw [perform_plain h (fun hcustom => Key.noConfusion hcustom), onPlainEvent_typed hfirst,
    State.behindBars.eq_def, hempty]
  rfl

/-- The text of a dropped file: its path, in quotes or with nothing around it that is read over. -/
def Drops (path text : List UInt8) : Prop :=
  (∃ quote, isQuote quote = true ∧ text = quote :: path ++ [quote]) ∨
  (text = path ∧ (∀ first ∈ path.head?, isBlank first = false) ∧
    (∀ last ∈ path.getLast?, isBlank last = false) ∧
    ∀ quote inside, isQuote quote = true → path ≠ quote :: inside ++ [quote])

theorem unquote_drops {path text : List UInt8} (h : Drops path text) : unquote text = path := by
  rcases h with ⟨quote, hquote, rfl⟩ | ⟨rfl, hfirst, hlast, hplain⟩
  · exact unquote_quoted hquote path
  · exact unquote_plain hfirst hlast hplain

/-- `Return` opens the file that the field names. -/
theorem perform_submit (hopen : state.view.showOpen = true) {path : List UInt8} (hne : path ≠ [])
    (hvalue : unquote state.view.openPath.value = path)
    (hfile : ops.isRegularFile state.rest (expandHome (ops.home state.rest) path) = true) :
    state.perform ops (.key .Return) = .ok (state.openTarget ops path) := by
  have hsubmit : state.submitOpen ops = .ok (state.openTarget ops path) := by
    rw [State.submitOpen, hvalue,
      if_neg (not_or.mpr ⟨hne, fun hnone => Bool.false_ne_true (hnone.symm.trans hfile)⟩)]
  rw [perform_dialog hopen (by decide)]
  show Except.map _ ((state.submitOpen ops).map fun state => (true, state)) = _
  rw [hsubmit]
  rfl

theorem openTarget_eq (target : List UInt8) :
    (state.openTarget ops target).rest =
        (ops.openFile (expandHome (ops.home state.rest) target) state.rest).2 ∧
      ((ops.openFile (expandHome (ops.home state.rest) target) state.rest).1 = true →
        (state.openTarget ops target).view.showOpen = false ∧
          (state.openTarget ops target).view.focus = .Disassembly) ∧
      ((ops.openFile (expandHome (ops.home state.rest) target) state.rest).1 = false →
        (state.openTarget ops target).view.showOpen = state.view.showOpen ∧
          (state.openTarget ops target).view.openFailed = true) := by
  rw [State.openTarget]
  generalize ops.openFile (expandHome (ops.home state.rest) target) state.rest = outcome
  obtain ⟨opened, rest⟩ := outcome
  dsimp only
  cases opened with
  | false => exact ⟨rfl, fun hopened => absurd hopened Bool.false_ne_true, fun _ => ⟨rfl, rfl⟩⟩
  | true => exact ⟨rfl, fun _ => ⟨rfl, rfl⟩, fun hfailed => absurd hfailed.symm Bool.false_ne_true⟩

/-- A file that is dropped on the screen before a binary is open is in the field of the dialog,
and `Return` opens this file and no other, whatever its directory offers and whatever is drawn meanwhile. -/
theorem dropped_path_opened (h : Plain ops state) (hempty : ops.loaded state.rest = false)
    {path first : List UInt8} {more : List (List UInt8)} (hne : path ≠ [])
    (hdrops : Drops path (first ++ more.flatten)) (hfirst : first ∉ shortcuts)
    {inputs : List (Input S)} (hpressed : Pressed (more.map .Character) inputs) :
    ∃ later, (Input.key (.Character first) :: inputs).foldlM (State.perform ops) state =
        .ok later ∧
      later.view.showOpen = true ∧ later.view.openPath.value = first ++ more.flatten ∧
      (ops.isRegularFile later.rest (expandHome (ops.home later.rest) path) = true →
        ∃ done, later.perform ops (.key .Return) = .ok done ∧
          done.rest = (ops.openFile (expandHome (ops.home later.rest) path) later.rest).2 ∧
          ((ops.openFile (expandHome (ops.home later.rest) path) later.rest).1 = true →
            done.view.showOpen = false ∧ done.view.focus = .Disassembly) ∧
          ((ops.openFile (expandHome (ops.home later.rest) path) later.rest).1 = false →
            done.view.showOpen = true ∧ done.view.openFailed = true)) := by
  obtain ⟨later, hlater, hopen, hvalue⟩ :=
    @typed_path S ops (state.beginOpen ops first) rfl rfl more inputs hpressed
  have hpath : unquote later.view.openPath.value = path := by
    rw [hvalue]
    exact unquote_drops hdrops
  refine ⟨later, ?_, hopen, hvalue, fun hfile => ?_⟩
  · rw [List.foldlM_cons, perform_first h hempty hfirst]
    exact hlater
  · obtain ⟨hrest, hdone, hfailed⟩ := @openTarget_eq S ops later path
    exact ⟨_, perform_submit hopen hne hpath hfile, hrest, hdone,
      fun hnot => ⟨(hfailed hnot).1.trans hopen, (hfailed hnot).2⟩⟩

/-- A file system with one file, `/a`, and a session that keeps what it has opened. -/
def beforeOpen : Surroundings (Option (List UInt8)) :=
  { idle (Option (List UInt8)) with
    loaded := Option.isSome
    openFile := fun path _ => (true, some path)
    isRegularFile := fun _ path => path == [0x2F, 0x61] }

theorem dropped_path_opened_beforeOpen :
    ∃ later, [.key (.Character [0x27]), .frame, .key (.Character [0x2F]),
        .key (.Character [0x61]), .surroundings none, .key (.Character [0x27])].foldlM
        (State.perform beforeOpen) ⟨{}, none⟩ = .ok later ∧
      later.view.showOpen = true ∧ later.view.openPath.value = [0x27, 0x2F, 0x61, 0x27] ∧
      (beforeOpen.isRegularFile later.rest
          (expandHome (beforeOpen.home later.rest) [0x2F, 0x61]) = true →
        ∃ done, later.perform beforeOpen (.key .Return) = .ok done ∧
          done.rest = (beforeOpen.openFile
            (expandHome (beforeOpen.home later.rest) [0x2F, 0x61]) later.rest).2 ∧
          ((beforeOpen.openFile (expandHome (beforeOpen.home later.rest) [0x2F, 0x61])
              later.rest).1 = true →
            done.view.showOpen = false ∧ done.view.focus = .Disassembly) ∧
          ((beforeOpen.openFile (expandHome (beforeOpen.home later.rest) [0x2F, 0x61])
              later.rest).1 = false →
            done.view.showOpen = true ∧ done.view.openFailed = true)) :=
  @dropped_path_opened _ beforeOpen ⟨{}, none⟩ ⟨rfl, rfl, rfl, rfl⟩ rfl [0x2F, 0x61] [0x27]
    [[0x2F], [0x61], [0x27]] (by decide) (.inl ⟨0x27, rfl, rfl⟩) (by decide) _
    (.frame (.key _ (.key _ (.surroundings none (.key _ .nil)))))

end Dialog

section Address

/-- The address field has the keys. -/
structure Asking (view : AppView) : Prop where
  dialog : view.showOpen = false
  menu : view.menuOpen = none
  goto : view.gotoActive = true

theorem perform_asking (h : Asking state.view) {e : Key} (he : e ≠ .Custom) :
    state.perform ops (.key e) = (state.onGotoEvent ops e).map fun outcome => outcome.2 := by
  rw [State.perform, State.onEvent.eq_def, if_neg he, if_neg (by simp [h.dialog]), h.menu]
  dsimp only
  rw [if_pos h.goto]

theorem typed_address (h : Asking state.view)
    (hend : state.view.goto.cursor = state.view.goto.value.length)
    {chunks : List (List UInt8)} {inputs : List (Input S)}
    (hpressed : Pressed (chunks.map .Character) inputs) :
    ∃ later, inputs.foldlM (State.perform ops) state = .ok later ∧ Asking later.view ∧
      later.view.goto.value = state.view.goto.value ++ chunks.flatten := by
  obtain ⟨later, hlater, hasking, hfield⟩ := @typed_appended S ops state Asking
    (fun view => view.goto)
    (fun view loaded hasking => by
      obtain ⟨focus, tab, hview, -⟩ := validateFocus_eq view loaded
      rw [hview]
      exact ⟨⟨hasking.dialog, hasking.menu, hasking.goto⟩, rfl⟩)
    (fun state bytes hasking => by
      rw [perform_asking hasking (fun hcustom => Key.noConfusion hcustom)]
      exact ⟨_, rfl, ⟨hasking.dialog, hasking.menu, hasking.goto⟩, rfl⟩)
    _ _ hpressed chunks rfl h
  exact ⟨later, hlater, hasking, by rw [hfield, handle_typed chunks _ hend]⟩

/-- The keys that ask for an address. -/
def asks (e : Key) : Prop := e = .CtrlG ∨ e = letter 'g'

theorem perform_asks (h : Plain ops state) (hloaded : ops.loaded state.rest = true) {e : Key}
    (he : asks e) :
    state.perform ops (.key e) =
      .ok (state.showing { state.view with gotoActive := true, goto := LineEdit.set [] }) := by
  have hbehind : state.behindBars ops e = .ok (true, state.showing
      { state.view with gotoActive := true, goto := LineEdit.set [] }) := by
    rw [State.behindBars.eq_def, hloaded]
    exact if_pos he
  have hbars : state.onBarsEvent ops e = state.behindBars ops e := by
    rw [State.onBarsEvent]
    rcases he with rfl | rfl
    · split
      · rfl
      split <;> rfl
    · split
      · rfl
      split <;> rfl
  have hplain : state.onPlainEvent ops e = state.onBarsEvent ops e := by
    rcases he with rfl | rfl <;> rfl
  rw [perform_plain h (by rcases he with rfl | rfl <;> decide), hplain, hbars, hbehind]
  rfl

/-- An address as it is typed, with blanks around it. -/
def IsAddress (vaddr : UInt64) (text : List UInt8) : Prop :=
  ∃ front number back, text = front ++ number ++ back ∧ IsOffset vaddr number ∧
    (∀ byte ∈ front, isBlank byte = true) ∧ ∀ byte ∈ back, isBlank byte = true

theorem trim_blanks {front number back : List UInt8} (hne : number ≠ [])
    (hfront : ∀ byte ∈ front, isBlank byte = true) (hback : ∀ byte ∈ back, isBlank byte = true)
    (hnumber : ∀ byte ∈ number, isBlank byte = false) :
    trim (front ++ number ++ back) = number := by
  obtain ⟨first, rest, rfl⟩ := List.exists_cons_of_ne_nil hne
  have hleft : (front ++ (first :: rest) ++ back).dropWhile isBlank = first :: rest ++ back := by
    rw [List.append_assoc, List.dropWhile_append_of_pos hfront, List.cons_append,
      List.dropWhile_cons_of_neg (by simp [hnumber first List.mem_cons_self])]
  have hright : (first :: rest ++ back).rdropWhile isBlank = first :: rest := by
    rw [List.rdropWhile, List.reverse_append, List.dropWhile_append_of_pos]
    · have hkept : (first :: rest).reverse.dropWhile isBlank = (first :: rest).reverse := by
        rw [List.dropWhile_eq_self_iff]
        intro hpos
        rw [hnumber _ (List.mem_reverse.mp (List.getElem_mem hpos))]
        exact Bool.false_ne_true
      rw [hkept, List.reverse_reverse]
    · intro byte hbyte
      exact hback byte (List.mem_reverse.mp hbyte)
  rw [trim, hleft, hright]

theorem isBlank_of_digit {byte : UInt8} (h : isDigit byte = true) : isBlank byte = false := by
  have hspace := (isDigit_byte byte h).1
  rw [isSpace, Bool.or_eq_false_iff, beq_eq_false_iff_ne] at hspace
  have hlow : ¬(0x09 ≤ byte ∧ byte ≤ 0x0D) := by simpa using hspace.2
  rw [isBlank]
  simp only [Bool.or_eq_false_iff, beq_eq_false_iff_ne]
  refine ⟨⟨⟨hspace.1, ?_⟩, ?_⟩, ?_⟩
  all_goals
    rintro rfl
    exact hlow (by decide)

theorem number_bytes {vaddr : UInt64} {number : List UInt8} (h : IsOffset vaddr number) :
    number ≠ [] ∧ ∀ byte ∈ number, isBlank byte = false := by
  obtain ⟨digits, hspells, hform⟩ := h
  have hdigits : ∀ byte ∈ digits, isBlank byte = false :=
    fun byte hbyte => isBlank_of_digit (hspells.digits byte hbyte)
  have hmarked (letter : UInt8) (hletter : isBlank letter = false) :
      ∀ byte ∈ 0x30 :: letter :: digits, isBlank byte = false :=
    List.forall_mem_cons.mpr ⟨rfl, List.forall_mem_cons.mpr ⟨hletter, hdigits⟩⟩
  rcases hform with rfl | rfl | rfl
  · exact ⟨hspells.ne_nil, hdigits⟩
  · exact ⟨List.cons_ne_nil _ _, hmarked 0x78 rfl⟩
  · exact ⟨List.cons_ne_nil _ _, hmarked 0x58 rfl⟩

theorem submitGoto_eq {vaddr : UInt64} (h : IsAddress vaddr state.view.goto.value) :
    state.submitGoto ops =
      { view := { state.view with gotoActive := false, focus := .Disassembly }
        rest := ops.navigateTo vaddr state.rest } := by
  obtain ⟨front, number, back, htext, hnumber, hfront, hback⟩ := h
  obtain ⟨hne, hbytes⟩ := number_bytes hnumber
  have htrim : trim state.view.goto.value = number := by
    rw [htext]
    exact trim_blanks hne hfront hback hbytes
  rw [State.submitGoto, htrim, if_neg (by rw [List.isEmpty_iff]; exact hne),
    typedNumber_of_isOffset hnumber]

/-- The surroundings hold a disassembly pane with its rows and its box. -/
structure Listed (ops : Surroundings S) (listing : S → ScrollWindow.Listing)
    (box : S → ScrollWindow.Box) (pane : S → ScrollWindow.DisassemblyPane) : Prop where
  pane : ∀ vaddr rest, pane (ops.navigateTo vaddr rest) =
    (pane rest).navigateTo (listing rest) (box rest) vaddr
  listing : ∀ vaddr rest, listing (ops.navigateTo vaddr rest) = listing rest
  box : ∀ vaddr rest, box (ops.navigateTo vaddr rest) = box rest

/-- A frame behind `navigateTo` selects and draws the row that was found. -/
theorem navigateTo_drawn (listing : ScrollWindow.Listing) (box : ScrollWindow.Box)
    (pane : ScrollWindow.DisassemblyPane) {vaddr : UInt64}
    (hfits : listing.rowCount.toNat + ScrollWindow.rowsOf (box.rows 20) < 2 ^ 64)
    (hrow : listing.rowIndexFor vaddr < listing.rowCount) :
    ((pane.navigateTo listing box vaddr).render listing box).scroll.cursor =
        listing.rowIndexFor vaddr ∧
      (listing.rowIndexFor vaddr).toNat ∈ ScrollWindow.drawnRows
        ((pane.navigateTo listing box vaddr).render listing box).scroll listing.rowCount
        (box.rows 20) := by
  have hlt := UInt64.lt_iff_toNat_lt.mp hrow
  have hne : listing.rowCount ≠ 0 := by
    intro hzero
    rw [hzero] at hlt
    exact Nat.not_lt_zero _ hlt
  have hsync : (pane.sync listing).gen = listing.decodeGeneration := by
    rw [ScrollWindow.DisassemblyPane.sync]
    split
    · rename_i hsame
      exact hsame
    · rfl
  -- The pane behind `navigateTo` has been clamped once; the frame clamps it again.
  obtain ⟨scroll, hnavigated, hcursor⟩ : ∃ scroll,
      pane.navigateTo listing box vaddr = { pane.sync listing with
        scroll := ScrollWindow.follow scroll listing.rowCount (box.rows 20) } ∧
      scroll.cursor = listing.rowIndexFor vaddr := by
    rw [ScrollWindow.DisassemblyPane.navigateTo]
    dsimp only
    rw [if_neg hne]
    exact ⟨_, rfl, rfl⟩
  have hwindow := @ScrollWindow.window_follow scroll listing.rowCount (box.rows 20) hfits
  have hshown : ((pane.navigateTo listing box vaddr).render listing box).scroll =
      ScrollWindow.follow scroll listing.rowCount (box.rows 20) := by
    rw [hnavigated, ScrollWindow.DisassemblyPane.render, ScrollWindow.DisassemblyPane.sync,
      if_pos hsync, ScrollWindow.DisassemblyPane.clamp]
    exact ScrollWindow.follow_of_window hfits hwindow
  have hkept : (ScrollWindow.follow scroll listing.rowCount (box.rows 20)).cursor =
      listing.rowIndexFor vaddr := by
    have hfollow := (@ScrollWindow.toNat_follow scroll listing.rowCount _ hne hfits).1
    rw [hcursor] at hfollow
    apply UInt64.toNat_inj.mp
    omega
  rw [hshown]
  refine ⟨hkept, ?_⟩
  rw [← hkept]
  exact cursor_drawn hne hfits hwindow

/-- An address that is typed in hex, with `0x` or `0X` or without and with blanks around it,
closes its field and brings the focus and the next frame to the row that is found for it, whatever is drawn
while it is typed. -/
theorem typed_address_shown {listing : S → ScrollWindow.Listing} {box : S → ScrollWindow.Box}
    {pane : S → ScrollWindow.DisassemblyPane} (hlisted : Listed ops listing box pane)
    (h : Plain ops state) (hloaded : ops.loaded state.rest = true) {e : Key} (he : asks e)
    {vaddr : UInt64} {chunks : List (List UInt8)}
    (htext : IsAddress vaddr chunks.flatten) {inputs : List (Input S)}
    (hpressed : Pressed (chunks.map .Character) inputs) :
    ∃ later done, (Input.key e :: inputs).foldlM (State.perform ops) state = .ok later ∧
      later.perform ops (.key .Return) = .ok done ∧
      done.view.gotoActive = false ∧ done.view.focus = .Disassembly ∧
      ((listing later.rest).rowCount.toNat +
          ScrollWindow.rowsOf ((box later.rest).rows 20) < 2 ^ 64 →
        (listing later.rest).rowIndexFor vaddr < (listing later.rest).rowCount →
        ((pane done.rest).render (listing done.rest) (box done.rest)).scroll.cursor =
            (listing later.rest).rowIndexFor vaddr ∧
          ((listing later.rest).rowIndexFor vaddr).toNat ∈ ScrollWindow.drawnRows
            ((pane done.rest).render (listing done.rest) (box done.rest)).scroll
            (listing later.rest).rowCount ((box later.rest).rows 20)) := by
  have hasked := perform_asks h hloaded he
  obtain ⟨later, hlater, hasking, hvalue⟩ := @typed_address S ops (state.showing
    { state.view with gotoActive := true, goto := LineEdit.set [] })
    ⟨h.dialog, h.menu, rfl⟩ rfl chunks inputs hpressed
  have hsubmit : later.perform ops (.key .Return) = .ok (later.submitGoto ops) := by
    rw [perform_asking hasking (by decide)]
    rfl
  have hdone := @submitGoto_eq S ops later vaddr (by rw [hvalue]; exact htext)
  rw [hdone] at hsubmit
  refine ⟨later, _, ?_, hsubmit, rfl, rfl, ?_⟩
  · rw [List.foldlM_cons, hasked]
    exact hlater
  · intro hfits hrow
    rw [hlisted.pane, hlisted.listing, hlisted.box]
    exact navigateTo_drawn _ _ _ hfits hrow

/-- A hundred rows, each at its own number. -/
def rows : ScrollWindow.Listing where
  decodeGeneration := 1
  rowCount := 100
  rowIndexFor vaddr := min vaddr 99

/-- A screen around a disassembly pane with these rows. -/
def aroundRows : Surroundings ScrollWindow.DisassemblyPane :=
  { idle ScrollWindow.DisassemblyPane with
    loaded := fun _ => true
    navigateTo := fun vaddr pane => pane.navigateTo rows {} vaddr }

theorem typed_address_shown_aroundRows :
    ∃ later done, [.key .CtrlG, .key (.Character [0x20]), .frame,
        .key (.Character [0x30, 0x78, 0x32]), .key (.Character [0x61])].foldlM
        (State.perform aroundRows) ⟨{}, {}⟩ = .ok later ∧
      later.perform aroundRows (.key .Return) = .ok done ∧
      done.view.gotoActive = false ∧ done.view.focus = .Disassembly ∧
      (rows.rowCount.toNat + ScrollWindow.rowsOf (({} : ScrollWindow.Box).rows 20) < 2 ^ 64 →
        rows.rowIndexFor 0x2A < rows.rowCount →
        (done.rest.render rows {}).scroll.cursor = rows.rowIndexFor 0x2A ∧
          (rows.rowIndexFor 0x2A).toNat ∈ ScrollWindow.drawnRows
            (done.rest.render rows {}).scroll rows.rowCount
            (({} : ScrollWindow.Box).rows 20)) :=
  @typed_address_shown _ aroundRows ⟨{}, {}⟩ (fun _ => rows) (fun _ => {}) (fun pane => pane)
    ⟨fun _ _ => rfl, fun _ _ => rfl, fun _ _ => rfl⟩ ⟨rfl, rfl, rfl, rfl⟩ rfl .CtrlG (.inl rfl)
    0x2A [[0x20], [0x30, 0x78, 0x32], [0x61]]
    ⟨[0x20], [0x30, 0x78, 0x32, 0x61], [], rfl, ⟨_, spells_hexText 0 0x2A, .inr (.inl rfl)⟩,
      by simp [isBlank], by simp⟩ _
    (.key _ (.frame (.key _ (.key _ .nil))))

end Address

end Voidwalk.ScreenFields

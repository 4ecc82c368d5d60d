import Voidwalk.HexRows
import Voidwalk.SymbolExtraction

/-!
The notes beside the rows of the disassembly, `DisasmModel::noteFor` and `Session::rowNote`, and
the symbols of the sidebar that they name.
-/

namespace Voidwalk.RowNotes

open Voidwalk.MappedFile
open Voidwalk.ChunkStorage
open Voidwalk.InstructionRendering
open Voidwalk.Disassembly
open Voidwalk.AnalysisSession
open Voidwalk.FrontendRows
open Voidwalk.GuiSession
open Voidwalk.GuiSymbols
open Voidwalk.SymbolAgreement
open Voidwalk.SymbolExtraction
open Voidwalk.HexRows
open Voidwalk.TuiSession (SymbolInfo TuiView)

/-- `Session::entryPoint()`. -/
def entryPoint {View : Type} (world : World View) : UInt64 :=
  world.currentDisassembler.elim 0 Disassembler.entryAddress

/-- What the two front ends share: the note from what their accessors read of a row. -/
def noteWith {View : Type} (functionName : UInt64 → UInt64 → String)
    (rowTarget : World View → Nat → Except Thrown UInt64)
    (rowFlow : World View → Nat → Except Thrown Flow)
    (rowVaddr : World View → Nat → Except Thrown UInt64) (world : World View) (i : Nat) :
    Except Thrown String := do
  let target ← rowTarget world i
  if target = 0 then pure ""
  else match ← rowFlow world i with
    | .Call => pure (functionName target (entryPoint world))
    | .Jump | .CondJump => do
        let vaddr ← rowVaddr world i
        pure (if target < vaddr then "backward" else "")
    | .None | .Return => pure ""

/-- `DisasmModel::noteFor`. -/
def DisasmModel.noteFor : World GuiView → Nat → Except Thrown String :=
  noteWith GuiSymbols.functionName rowTarget rowFlow rowVaddr

namespace Terminal

variable {α : Type}

/-- The accessors of `tui::Session`. -/
def readRow (absent : α) (fallback : DisasmRow → α) (real : Disassembler → Nat → Except Thrown α)
    (world : World TuiView) : Nat → Except Thrown α :=
  FrontendRows.readRow absent fallback real world world.view.real world.view.shown
    world.view.fallback

def rowVaddr : World TuiView → Nat → Except Thrown UInt64 :=
  readRow 0 DisasmRow.vaddr addressAt

def rowFlow : World TuiView → Nat → Except Thrown Flow :=
  readRow .None (fun _ => .None) (instructionWith Instruction.flow)

def rowTarget : World TuiView → Nat → Except Thrown UInt64 :=
  readRow 0 (fun _ => 0) (instructionWith Instruction.target)

def rowNote : World TuiView → Nat → Except Thrown String :=
  noteWith TuiSession.functionName rowTarget rowFlow rowVaddr

end Terminal

section Names

variable {addr other entry : UInt64}

/-- The name of a function determines its address. -/
theorem functionName_injective
    (h : GuiSymbols.functionName addr entry = GuiSymbols.functionName other entry) :
    addr = other := by
  by_cases haddr : addr = entry
  · have hentry := (functionName_eq_entry_iff addr entry).mpr haddr
    rw [h, functionName_eq_entry_iff] at hentry
    rw [haddr, hentry]
  · have hother : ¬ other = entry := by
      intro hother
      have hentry := (functionName_eq_entry_iff other entry).mpr hother
      rw [← h, functionName_eq_entry_iff] at hentry
      exact haddr hentry
    rw [GuiSymbols.functionName, GuiSymbols.functionName, if_neg haddr, if_neg hother] at h
    have hdigits := congrArg String.toList h
    rw [String.toList_append, String.toList_append, hexAddr_eq, hexAddr_eq] at hdigits
    have hvalues := congrArg hexNumber (List.append_cancel_left hdigits)
    rw [hexNumber_hexUp, hexNumber_hexUp] at hvalues
    exact UInt64.toNat_inj.mp (Option.some.inj hvalues)

theorem functionName_letter (addr entry : UInt64) :
    (GuiSymbols.functionName addr entry).toList.head? = some 'e' ∨
      (GuiSymbols.functionName addr entry).toList.head? = some 's' := by
  rw [GuiSymbols.functionName]
  split
  · exact Or.inl rfl
  · rw [String.toList_append]
    exact Or.inr rfl

theorem functionName_ne {note : String} (he : note.toList.head? ≠ some 'e')
    (hs : note.toList.head? ≠ some 's') (addr entry : UInt64) :
    note ≠ GuiSymbols.functionName addr entry := by
  rintro rfl
  rcases functionName_letter addr entry with hletter | hletter
  · exact he hletter
  · exact hs hletter

end Names

section Notes

/-- The note of a row at `vaddr`. It names what a call calls, if that is known, and says that a
jump goes back if it does. -/
structure ExactNote (entry : UInt64) (row : Instruction) (vaddr : UInt64) (note : String) :
    Prop where
  call : ∀ addr, note = GuiSymbols.functionName addr entry ↔
    row.flow = .Call ∧ row.target ≠ 0 ∧ row.target = addr
  backward : note = "backward" ↔
    (row.flow = .Jump ∨ row.flow = .CondJump) ∧ row.target ≠ 0 ∧ row.target < vaddr
  noted : note = "" ∨ note = "backward" ∨ ∃ addr, note = GuiSymbols.functionName addr entry

/-- The note that both front ends derive from a row. -/
def noteOf (entry : UInt64) (row : Instruction) (vaddr : UInt64) : String :=
  if row.target = 0 then ""
  else match row.flow with
    | .Call => GuiSymbols.functionName row.target entry
    | .Jump | .CondJump => if row.target < vaddr then "backward" else ""
    | .None | .Return => ""

theorem exactNote_backward {entry vaddr : UInt64} {row : Instruction} (hcall : row.flow ≠ .Call)
    (hjump : (row.flow = .Jump ∨ row.flow = .CondJump) ∧ row.target ≠ 0 ∧ row.target < vaddr) :
    ExactNote entry row vaddr "backward" where
  call addr := iff_of_false (functionName_ne (by decide) (by decide) addr entry)
    fun h => hcall h.1
  backward := iff_of_true rfl hjump
  noted := Or.inr (Or.inl rfl)

theorem exactNote_silent {entry vaddr : UInt64} {row : Instruction}
    (hcall : ¬ (row.flow = .Call ∧ row.target ≠ 0))
    (hjump : ¬ ((row.flow = .Jump ∨ row.flow = .CondJump) ∧ row.target ≠ 0 ∧ row.target < vaddr)) :
    ExactNote entry row vaddr "" where
  call addr := iff_of_false (functionName_ne (by decide) (by decide) addr entry)
    fun h => hcall ⟨h.1, h.2.1⟩
  backward := iff_of_false (by decide) hjump
  noted := Or.inl rfl

theorem exactNote_call {entry vaddr : UInt64} {row : Instruction} (hcall : row.flow = .Call)
    (htarget : row.target ≠ 0) :
    ExactNote entry row vaddr (GuiSymbols.functionName row.target entry) where
  call addr := by
    constructor
    · intro hname
      exact ⟨hcall, htarget, functionName_injective hname⟩
    · rintro ⟨-, -, rfl⟩
      rfl
  backward := by
    refine iff_of_false (functionName_ne (by decide) (by decide) _ _).symm ?_
    rintro ⟨hjump | hjump, -⟩
    · rw [hcall] at hjump
      contradiction
    · rw [hcall] at hjump
      contradiction
  noted := Or.inr (Or.inr ⟨_, rfl⟩)

theorem exactNote_noteOf (entry : UInt64) (row : Instruction) (vaddr : UInt64) :
    ExactNote entry row vaddr (noteOf entry row vaddr) := by
  rw [noteOf]
  split
  · rename_i hzero
    exact exactNote_silent (fun h => h.2 hzero) fun h => h.2.1 hzero
  rename_i htarget
  cases hflow : row.flow with
  | Call => exact exactNote_call hflow htarget
  | Jump | CondJump =>
      dsimp only
      split
      · rename_i hback
        exact exactNote_backward (by simp [hflow]) ⟨by simp [hflow], htarget, hback⟩
      · rename_i hback
        exact exactNote_silent (by simp [hflow]) fun h => hback h.2.2
  | None | Return => exact exactNote_silent (by simp [hflow]) (by simp [hflow])

end Notes

section Sessions

variable {disassembler : Disassembler} {n i : Nat} {row : Instruction} {vaddr : UInt64}

/-- A session of the window that shows the first `n` rows. -/
structure GuiShows (world : World GuiView) (disassembler : Disassembler) (n : Nat) : Prop where
  current : world.currentDisassembler = some disassembler
  real : world.view.decodedForReal = true
  rows : world.view.shownRows = n

/-- A session of the terminal that shows the first `n` rows. -/
structure TuiShows (world : World TuiView) (disassembler : Disassembler) (n : Nat) : Prop where
  current : world.currentDisassembler = some disassembler
  real : world.view.real = true
  rows : world.view.shown = n

theorem GuiShows.readRow {world : World GuiView} (h : GuiShows world disassembler n) (hi : i < n)
    {α : Type} (absent : α) (fallback : DisasmRow → α)
    (real : Disassembler → Nat → Except Thrown α) :
    GuiSession.readRow absent fallback real world i = real disassembler i := by
  rw [GuiSession.readRow, h.real, h.rows, readRow_shown h.current hi]

theorem TuiShows.readRow {world : World TuiView} (h : TuiShows world disassembler n) (hi : i < n)
    {α : Type} (absent : α) (fallback : DisasmRow → α)
    (real : Disassembler → Nat → Except Thrown α) :
    Terminal.readRow absent fallback real world i = real disassembler i := by
  rw [Terminal.readRow, h.real, h.rows, readRow_shown h.current hi]

theorem addressAt_eq (hvaddr : disassembler.instructionAddresses.toList[i]? = some vaddr) :
    addressAt disassembler i = .ok vaddr :=
  (ChunkStore.element_eq_ok_iff _ i vaddr).mpr hvaddr

theorem noteWith_eq {View : Type} {functionName : UInt64 → UInt64 → String}
    {rowTarget rowVaddr : World View → Nat → Except Thrown UInt64}
    {rowFlow : World View → Nat → Except Thrown Flow} {world : World View}
    (hcurrent : world.currentDisassembler = some disassembler)
    (hname : functionName = GuiSymbols.functionName) (htarget : rowTarget world i = .ok row.target)
    (hflow : rowFlow world i = .ok row.flow) (hvaddr : rowVaddr world i = .ok vaddr) :
    noteWith functionName rowTarget rowFlow rowVaddr world i =
      .ok (noteOf disassembler.entryAddress row vaddr) := by
  simp only [noteWith, htarget, hflow, hvaddr, hname, entryPoint, hcurrent, Option.elim_some, bind,
    Except.bind]
  rw [noteOf]
  split
  · rfl
  · cases row.flow <;> rfl

theorem GuiShows.noteFor {world : World GuiView} (h : GuiShows world disassembler n) (hi : i < n)
    (hrow : disassembler.decodedInstructions.toList[i]? = some row)
    (hvaddr : disassembler.instructionAddresses.toList[i]? = some vaddr) :
    DisasmModel.noteFor world i = .ok (noteOf disassembler.entryAddress row vaddr) := by
  apply noteWith_eq h.current rfl
  · rw [GuiSession.rowTarget, h.readRow hi, instructionWith_eq hrow]
  · rw [GuiSession.rowFlow, h.readRow hi, instructionWith_eq hrow]
  · rw [GuiSession.rowVaddr, h.readRow hi, addressAt_eq hvaddr]

theorem TuiShows.rowNote {world : World TuiView} (h : TuiShows world disassembler n) (hi : i < n)
    (hrow : disassembler.decodedInstructions.toList[i]? = some row)
    (hvaddr : disassembler.instructionAddresses.toList[i]? = some vaddr) :
    Terminal.rowNote world i = .ok (noteOf disassembler.entryAddress row vaddr) := by
  apply noteWith_eq h.current (funext₂ fun addr entry => (functionName_eq addr entry).symm)
  · rw [Terminal.rowTarget, h.readRow hi, instructionWith_eq hrow]
  · rw [Terminal.rowFlow, h.readRow hi, instructionWith_eq hrow]
  · rw [Terminal.rowVaddr, h.readRow hi, addressAt_eq hvaddr]

/-- The functions that a sidebar lists and the notes of the rows that it was made from. -/
structure NamesSymbols (entry : UInt64) (note : Nat → Except Thrown String) (n : Nat)
    (symbols : List SymbolInfo) : Prop where
  listed : ∀ i < n, ∀ addr, note i = .ok (GuiSymbols.functionName addr entry) →
    ∃ symbol ∈ symbols, symbol.kind = .Function ∧ symbol.addr = addr ∧
      symbol.name = GuiSymbols.functionName addr entry
  noted : ∀ symbol ∈ symbols, symbol.kind = .Function → symbol.addr ≠ entry →
    ∃ i < n, note i = .ok symbol.name

theorem kind_of_mem_strings {space : AddressSpace} {sections : List SectionInfo}
    {strings : List (List SymbolInfo)}
    (h : List.Forall₂ (fun sec => ExactStrings sec (window space sec)) sections strings) :
    ∀ symbol ∈ strings.flatten, symbol.kind = .String := by
  induction h with
  | nil => exact fun symbol hmem => absurd hmem List.not_mem_nil
  | cons hfirst _ ih =>
      obtain ⟨runs, -, -, rfl⟩ := hfirst.runs
      rw [List.flatten_cons, List.forall_mem_append]
      refine ⟨?_, ih⟩
      intro symbol hmem
      obtain ⟨run, -, rfl⟩ := List.mem_map.mp hmem
      rfl

theorem mem_functions {space : AddressSpace} {entry : UInt64} {sections : List SectionInfo}
    {rows : List Instruction} {symbols : List SymbolInfo}
    (h : ExactSymbols space entry sections rows symbols) :
    ∃ functions, ExactFunctions entry rows functions ∧
      ∀ symbol, symbol ∈ functions ↔ symbol ∈ symbols ∧ symbol.kind = .Function := by
  obtain ⟨functions, strings, rfl, hfunctions, hstrings⟩ := h.parts
  refine ⟨functions, hfunctions, ?_⟩
  intro symbol
  constructor
  · intro hmem
    refine ⟨List.mem_append_left _ hmem, ?_⟩
    rw [hfunctions.shape symbol hmem]
  · rintro ⟨hmem, hfunction⟩
    rcases List.mem_append.mp hmem with hmem | hmem
    · exact hmem
    · rw [kind_of_mem_strings hstrings symbol hmem] at hfunction
      contradiction

theorem namesSymbols {note : Nat → Except Thrown String} {entry : UInt64} {space : AddressSpace}
    {sections : List SectionInfo} {rows : List Instruction} {symbols : List SymbolInfo}
    (hsymbols : ExactSymbols space entry sections rows symbols)
    (hnote : ∀ i (h : i < rows.length), ∃ vaddr, note i = .ok (noteOf entry rows[i] vaddr)) :
    NamesSymbols entry note rows.length symbols := by
  obtain ⟨functions, hfunctions, hmem⟩ := mem_functions hsymbols
  constructor
  · intro i hi addr hname
    obtain ⟨vaddr, hvalue⟩ := hnote i hi
    rw [hname, Except.ok.injEq] at hvalue
    have hexact := exactNote_noteOf entry rows[i] vaddr
    obtain ⟨hcall, hne, htarget⟩ := (hexact.call addr).mp hvalue.symm
    have hlisted : addr ≠ 0 ∧ (addr = entry ∨ ∃ row ∈ rows, row.flow = .Call ∧ row.target = addr) :=
      ⟨htarget ▸ hne, Or.inr ⟨rows[i], List.getElem_mem hi, hcall, htarget⟩⟩
    obtain ⟨symbol, hsymbol, rfl⟩ := (hfunctions.mem_iff addr).mpr hlisted
    obtain ⟨hfound, hkind⟩ := (hmem symbol).mp hsymbol
    refine ⟨symbol, hfound, hkind, rfl, ?_⟩
    exact congrArg SymbolInfo.name (hfunctions.shape symbol hsymbol)
  · intro symbol hfound hkind hentry
    have hsymbol := (hmem symbol).mpr ⟨hfound, hkind⟩
    obtain ⟨hne, heq | ⟨row, hrow, hcall, htarget⟩⟩ :=
      (hfunctions.mem_iff symbol.addr).mp ⟨symbol, hsymbol, rfl⟩
    · contradiction
    · obtain ⟨i, hi, rfl⟩ := List.getElem_of_mem hrow
      obtain ⟨vaddr, hvalue⟩ := hnote i hi
      have hname := ((exactNote_noteOf entry rows[i] vaddr).call symbol.addr).mpr
        ⟨hcall, htarget ▸ hne, htarget⟩
      refine ⟨i, hi, ?_⟩
      rw [hvalue, hname, hfunctions.shape symbol hsymbol]

/-- Both front ends have the same note for a row. It is exact, and the names among the notes are
those of the functions in the sidebar. -/
theorem notes_name_symbols (gui : World GuiView) (tui : World TuiView)
    (disassembler : Disassembler) (n : Nat) (hgui : GuiShows gui disassembler n)
    (htui : TuiShows tui disassembler n) (hrows : n ≤ disassembler.decodedInstructions.size)
    (haddresses : n ≤ disassembler.instructionAddresses.size) :
    (∀ i < n, ∃ row vaddr note, disassembler.decodedInstructions.toList[i]? = some row ∧
      disassembler.instructionAddresses.toList[i]? = some vaddr ∧
      DisasmModel.noteFor gui i = .ok note ∧ Terminal.rowNote tui i = .ok note ∧
      ExactNote disassembler.entryAddress row vaddr note) ∧
    ∀ world snapshot space unreadable symbols, Pins world snapshot space disassembler →
      snapshot.rows = n →
      GuiSymbols.collectSymbols unreadable neverStops world snapshot = .ok symbols →
      NamesSymbols disassembler.entryAddress (DisasmModel.noteFor gui) n symbols := by
  have hrow (i : Nat) (hi : i < n) : ∃ row,
      disassembler.decodedInstructions.toList[i]? = some row := by
    rw [← ChunkStore.length_toList] at hrows
    exact ⟨_, List.getElem?_eq_getElem (by omega)⟩
  have hvaddr (i : Nat) (hi : i < n) : ∃ vaddr,
      disassembler.instructionAddresses.toList[i]? = some vaddr := by
    rw [← ChunkStore.length_toList] at haddresses
    exact ⟨_, List.getElem?_eq_getElem (by omega)⟩
  constructor
  · intro i hi
    obtain ⟨row, hread⟩ := hrow i hi
    obtain ⟨vaddr, haddress⟩ := hvaddr i hi
    exact ⟨row, vaddr, _, hread, haddress, hgui.noteFor hi hread haddress,
      htui.rowNote hi hread haddress, exactNote_noteOf _ _ _⟩
  · rintro world snapshot space unreadable symbols hpins rfl hsymbols
    have hexact := exact_of_ok hpins hrows hsymbols
    have hlength : (disassembler.decodedInstructions.toList.take snapshot.rows).length =
        snapshot.rows := by
      rw [List.length_take, ChunkStore.length_toList]
      omega
    rw [← hlength]
    apply namesSymbols hexact
    intro i hi
    rw [hlength] at hi
    obtain ⟨vaddr, haddress⟩ := hvaddr i hi
    refine ⟨vaddr, hgui.noteFor hi ?_ haddress⟩
    simp

/-- A window that shows the rows of a call. -/
def callGui : World GuiView where
  disassemblers := [callDisassembler]
  session := { disassembler := some 0 }
  view := { decodedForReal := true, shownRows := 4 }

def callTui : World TuiView where
  disassemblers := [callDisassembler]
  session := { disassembler := some 0 }
  view := { real := true, shown := 4 }

theorem notes_name_symbols_call :
    DisasmModel.noteFor callGui 0 = .ok "sub_001007" ∧
      Terminal.rowNote callTui 0 = .ok "sub_001007" ∧
      ∃ symbols, collectSymbols (fun _ => false) neverStops callWorld callSnapshot = .ok symbols ∧
        NamesSymbols callDisassembler.entryAddress (DisasmModel.noteFor callGui) 4 symbols := by
  have hsizes : callDisassembler.decodedInstructions.size = 4 ∧
      callDisassembler.instructionAddresses.size = 4 := by decide +kernel
  have hsome : (collectSymbols (fun _ => false) neverStops callWorld callSnapshot).isOk = true := by
    decide +kernel
  have hnote : (Terminal.rowNote callTui 0).toOption = some "sub_001007" := by decide +kernel
  obtain ⟨symbols, hsymbols⟩ := ok_of_isOk hsome
  obtain ⟨hnotes, hnames⟩ := notes_name_symbols callGui callTui callDisassembler 4 ⟨rfl, rfl, rfl⟩
    ⟨rfl, rfl, rfl⟩ (Nat.le_of_eq hsizes.1.symm) (Nat.le_of_eq hsizes.2.symm)
  obtain ⟨row, vaddr, note, -, -, hgui, htui, -⟩ := hnotes 0 (by decide)
  rw [htui] at hnote
  obtain rfl := Option.some.inj hnote
  exact ⟨hgui, htui, symbols, hsymbols,
    hnames callWorld callSnapshot callSpace _ symbols ⟨⟨0, rfl, rfl⟩, 0, rfl, rfl⟩ rfl hsymbols⟩

end Sessions

end Voidwalk.RowNotes

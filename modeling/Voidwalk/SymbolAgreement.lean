import Mathlib.Data.List.Infix
import Voidwalk.ElfTableReads
import Voidwalk.GuiSymbols
import Voidwalk.GuiViewInvariant
import Voidwalk.HeaderParsing
import Voidwalk.MainWindow
import Voidwalk.TuiFrames

/-!
Where the two front ends derive the same symbols. They scan alike, but the terminal
interface scans nothing for a binary without decoded rows.
-/

namespace Voidwalk.SymbolAgreement

open Voidwalk.Library.InterleavedThread
open Voidwalk.MappedFile
open Voidwalk.InstructionRendering
open Voidwalk.Disassembly
open Voidwalk.AnalysisSession
open Voidwalk.FrontendRows
open Voidwalk.GuiSession
open Voidwalk.GuiSymbols
open Voidwalk.HeaderParsing (nopElf nopSpace)
open Voidwalk.GuiViewInvariant
open Voidwalk.TuiSession (SymbolInfo Scan insertTarget symbolsOf scanSections stringsOf)
open Relation (ReflTransGen)

/-- Equal, or cut at the same place and spelled with each front end's ellipsis. -/
def SameName (gui tui : String) : Prop :=
  gui = tui ∨ ∃ shown, gui = "\"" ++ (shown ++ "\u2026") ++ "\"" ∧
    tui = "\"" ++ (shown ++ "...") ++ "\""

structure SameSymbol (gui tui : SymbolInfo) : Prop where
  kind : gui.kind = tui.kind
  name : SameName gui.name tui.name
  addr : gui.addr = tui.addr
  detail : gui.detail = tui.detail

abbrev SameSymbols : List SymbolInfo → List SymbolInfo → Prop :=
  List.Forall₂ SameSymbol

section Spelling

theorem hexAddr_eq (v : UInt64) (width : Nat) : hexAddr v width = hexUp v.toNat width :=
  rfl

theorem functionName_eq (addr entry : UInt64) :
    GuiSymbols.functionName addr entry = TuiSession.functionName addr entry :=
  rfl

theorem sameName_stringName (run : List UInt8) :
    SameName (GuiSymbols.stringName run) (TuiSession.stringName run) := by
  simp only [GuiSymbols.stringName, TuiSession.stringName]
  change SameName ("\"" ++ (if TuiSession.kMaxStringDisplay < _ then _ else _) ++ "\"") _
  split
  · exact Or.inr ⟨_, rfl, rfl⟩
  · exact Or.inl rfl

end Spelling

section Scanning

/-- Two scans of the same bytes at the same place. -/
structure SameScan (gui tui : Scan) : Prop where
  run : gui.run = tui.run
  runStart : gui.runStart = tui.runStart
  found : SameSymbols gui.found tui.found

variable {sec : SectionInfo} {gui tui : Scan}

theorem SameScan.flush (h : SameScan gui tui) :
    SameScan (GuiSymbols.flush sec gui) (TuiSession.flush sec tui) := by
  refine ⟨rfl, h.runStart, ?_⟩
  simp only [GuiSymbols.flush, TuiSession.flush, h.run, h.runStart]
  change SameSymbols (if TuiSession.kMinStringLen ≤ _ then _ else _) _
  split
  · refine List.rel_append h.found (.cons ?_ .nil)
    exact ⟨rfl, sameName_stringName _, rfl, rfl⟩
  · exact h.found

theorem SameScan.scanByte (h : SameScan gui tui) (byte : UInt8) (i : Nat) :
    SameScan (GuiSymbols.scanByte sec gui byte i) (TuiSession.scanByte sec tui byte i) := by
  rw [GuiSymbols.scanByte, TuiSession.scanByte]
  change SameScan (if TuiSession.printable byte then _ else _) _
  split
  · refine ⟨?_, ?_, h.found⟩
    · rw [h.run]
    · rw [h.run, h.runStart]
  · exact h.flush

theorem sameSymbols_strings (sec : SectionInfo) (raw : List UInt8) :
    SameSymbols
      (GuiSymbols.flush sec
        (raw.zipIdx.foldl (fun scan (byte, i) => GuiSymbols.scanByte sec scan byte i) {})).found
      (stringsOf sec raw) := by
  have hscan := List.foldl_rel (l := raw.zipIdx) (r := SameScan)
    (f := fun scan (byte, i) => GuiSymbols.scanByte sec scan byte i)
    (g := fun scan (byte, i) => TuiSession.scanByte sec scan byte i)
    (a := {}) (b := {}) ⟨rfl, rfl, .nil⟩ (fun _ _ _ _ h => h.scanByte _ _)
  exact hscan.flush.found

end Scanning

section Runs

end Runs

section Reading

/-- What a read of `count` bytes gets where the file has not changed. -/
def contentsAt (space : AddressSpace) (offset count : UInt64) : List UInt8 :=
  (space.mappedData.drop offset.toNat).take count.toNat

theorem mapM_ok {α β : Type} {f : α → Except Thrown β} {g : α → β} {list : List α}
    (h : ∀ x ∈ list, f x = .ok (g x)) : list.mapM f = .ok (list.map g) := by
  induction list with
  | nil => rfl
  | cons x list ih =>
      rw [List.mapM_cons, h x List.mem_cons_self,
        ih fun y hmem => h y (List.mem_cons_of_mem _ hmem)]
      rfl

theorem length_contentsAt (space : AddressSpace) {offset : UInt64} (count : UInt64)
    (h : offset < space.size) :
    (contentsAt space offset count).length = (atMost (space.size - offset) count).toNat := by
  have hle := UInt64.le_of_lt h
  rw [contentsAt, List.length_take, List.length_drop, atMost]
  split
  · rename_i hlt
    rw [UInt64.lt_iff_toNat_lt, UInt64.toNat_sub_of_le _ _ hle, AddressSpace.toNat_size] at hlt
    rw [UInt64.toNat_sub_of_le _ _ hle, AddressSpace.toNat_size]
    omega
  · rename_i hge
    rw [UInt64.lt_iff_toNat_lt, UInt64.toNat_sub_of_le _ _ hle, AddressSpace.toNat_size] at hge
    omega

theorem bytes_readable (space : AddressSpace) (offset count : UInt64) :
    AnalysisSession.bytes (fun _ => false) space offset count =
      .ok (contentsAt space offset count) := by
  rw [AnalysisSession.bytes]
  split
  · rename_i hle
    rw [UInt64.le_iff_toNat_le, AddressSpace.toNat_size] at hle
    rw [contentsAt, List.drop_eq_nil_of_le hle, List.take_nil]
  · rename_i hlt
    rw [UInt64.not_le] at hlt
    have hlength := length_contentsAt space count hlt
    have hsize := space.fileSize_lt
    rw [UInt64.lt_iff_toNat_lt, AddressSpace.toNat_size] at hlt
    rw [← hlength, mapM_ok (g := fun i => (contentsAt space offset count)[i]?.getD 0)]
    · congr 1
      apply List.ext_getElem
      · simp
      · intro i hi hi'
        simp [List.getElem?_eq_getElem hi']
    · intro i hmem
      have hi := List.mem_range.mp hmem
      have hi' : i < (space.mappedData.drop offset.toNat).length := by
        rw [contentsAt, List.length_take] at hi
        omega
      have hinside : offset.toNat + i < space.mappedData.length := by
        rw [List.length_drop] at hi'
        omega
      have hadd : (offset + UInt64.ofNat i).toNat = offset.toNat + i := by
        rw [UInt64.toNat_add, UInt64.toNat_ofNat', Nat.mod_eq_of_lt (a := i) (by omega)]
        exact Nat.mod_eq_of_lt (by omega)
      have hread := AddressSpace.readU8_of_lt space (offset + UInt64.ofNat i) (hadd ▸ hinside)
      rw [List.getElem?_eq_getElem hi]
      simp only [AnalysisSession.readU8, Bool.false_and, Bool.false_eq_true, if_false, hread,
        contentsAt, List.getElem_take, List.getElem_drop, Option.getD_some]
      congr 2

end Reading

/-- The two objects that a snapshot holds. -/
structure Pins (world : World GuiView) (snapshot : Snapshot) (space : AddressSpace)
    (disassembler : Disassembler) : Prop where
  disassembler : ∃ pointer, snapshot.disassembler = some pointer ∧
    world.disassemblers[pointer]? = some disassembler
  space : ∃ pointer, snapshot.space = some pointer ∧ world.spaces[pointer]? = some space

section Collecting

variable {world : World GuiView} {snapshot : Snapshot} {space : AddressSpace}
  {disassembler : Disassembler}

theorem foldlM_some {α β : Type} {f : β → α → Except Thrown β}
    {g : Option β → α → Except Thrown (Option β)} {list : List α}
    (h : ∀ x ∈ list, ∀ b, g (some b) x = (f b x).map some) (b : β) :
    list.foldlM g (some b) = (list.foldlM f b).map some := by
  induction list generalizing b with
  | nil => rfl
  | cons x list ih =>
      rw [List.foldlM_cons, List.foldlM_cons, h x List.mem_cons_self]
      cases f b x with
      | error exception => rfl
      | ok next => exact ih (fun y hmem => h y (List.mem_cons_of_mem _ hmem)) next

theorem Pins.readSnapshotRow {α : Type} (h : Pins world snapshot space disassembler) (absent : α)
    (real : Disassembler → Nat → Except Thrown α) {i : Nat} (hi : i < snapshot.rows) :
    readSnapshotRow absent real world snapshot i = real disassembler i := by
  obtain ⟨pointer, hpointer, hfound⟩ := h.disassembler
  simp only [GuiSession.readSnapshotRow, hpointer, hfound]
  exact if_neg (Nat.not_le.mpr hi)

theorem Pins.callTargets (h : Pins world snapshot space disassembler) :
    GuiSymbols.callTargets neverStops world snapshot disassembler.entryAddress =
      (TuiSession.callTargets disassembler snapshot.rows).map some := by
  apply foldlM_some
  intro i hmem targets
  have hi := List.mem_range.mp hmem
  have hnever : ¬ (i &&& 0xfff = 0 ∧ neverStops (.row i) = true) := fun hstop => nomatch hstop.2
  rw [addTarget, if_neg hnever, Snapshot.rowFlow, h.readSnapshotRow _ _ hi, Snapshot.rowTarget,
    h.readSnapshotRow _ _ hi]
  cases instructionWith Instruction.flow disassembler i with
  | error exception => rfl
  | ok flow =>
      simp only [bind, Except.bind]
      split
      · cases instructionWith Instruction.target disassembler i with
        | error exception => rfl
        | ok target => rfl
      · rfl

theorem Pins.entryPoint (h : Pins world snapshot space disassembler) :
    Snapshot.entryPoint world snapshot = .ok disassembler.entryAddress := by
  obtain ⟨pointer, hpointer, hfound⟩ := h.disassembler
  simp only [Snapshot.entryPoint, hpointer, hfound]

theorem Pins.sections (h : Pins world snapshot space disassembler) :
    Snapshot.sections world snapshot = .ok (sectionsOf disassembler) := by
  obtain ⟨pointer, hpointer, hfound⟩ := h.disassembler
  simp only [Snapshot.sections, hpointer, hfound]

theorem Pins.bytes (h : Pins world snapshot space disassembler) (unreadable : UInt64 → Bool)
    (offset count : UInt64) : Snapshot.bytes world snapshot unreadable offset count =
      AnalysisSession.bytes unreadable space offset count := by
  obtain ⟨pointer, hpointer, hfound⟩ := h.space
  simp only [Snapshot.bytes, hpointer, hfound]

/-- What the terminal interface lists for the strings of a section. -/
def tuiStrings (space : AddressSpace) (sec : SectionInfo) : List SymbolInfo :=
  if (sec.name ≠ ".rodata" ∧ sec.name ≠ ".data") ∨ sec.size = 0 then []
  else stringsOf sec (contentsAt space sec.offset (atMost sec.size TuiSession.kMaxScan))

theorem scanSections_readable (space : AddressSpace) (sections : List SectionInfo) :
    scanSections (fun _ => false) space sections =
      (sections.flatMap (tuiStrings space), none) := by
  induction sections with
  | nil => rfl
  | cons sec later ih =>
      rw [scanSections, List.flatMap_cons, tuiStrings]
      split
      · rw [ih, List.nil_append]
      · rw [bytes_readable, ih]

theorem Pins.collectStrings (h : Pins world snapshot space disassembler)
    {unreadable : UInt64 → Bool} {sec : SectionInfo} {strings : List SymbolInfo}
    (hname : sec.name = ".rodata" ∨ sec.name = ".data")
    (hstrings : GuiSymbols.collectStrings unreadable world snapshot sec = .ok strings) :
    SameSymbols strings (tuiStrings space sec) := by
  have hname' : ¬ (sec.name ≠ ".rodata" ∧ sec.name ≠ ".data") :=
    fun hne => hname.elim hne.1 hne.2
  rw [GuiSymbols.collectStrings, h.bytes] at hstrings
  rw [tuiStrings]
  split at hstrings
  · rename_i hsize
    rw [if_pos (Or.inr hsize), ← Except.ok.inj hstrings]
    exact .nil
  · rename_i hsize
    obtain ⟨raw, hraw, hstrings⟩ := ok_of_bind hstrings
    have hread := bytes_of_ok hraw
    rw [bytes_readable] at hread
    rw [if_neg (not_or.mpr ⟨hname', hsize⟩), ← Except.ok.inj hstrings]
    obtain rfl := Except.ok.inj hread
    exact sameSymbols_strings sec _

theorem Pins.stringsFrom (h : Pins world snapshot space disassembler)
    {unreadable : UInt64 → Bool} {sections : List SectionInfo} {i : Nat}
    {found : Option (List SymbolInfo)}
    (hfound : GuiSymbols.stringsFrom unreadable neverStops world snapshot i sections = .ok found) :
    ∃ strings, found = some strings ∧
      SameSymbols strings (sections.flatMap (tuiStrings space)) := by
  induction sections generalizing i found with
  | nil =>
      obtain rfl := Except.ok.inj hfound
      exact ⟨[], rfl, .nil⟩
  | cons sec later ih =>
      rw [GuiSymbols.stringsFrom, if_neg nofun] at hfound
      obtain ⟨strings, hstrings, hfound⟩ := ok_of_bind hfound
      obtain ⟨rest, hrest, hfound⟩ := ok_of_bind hfound
      obtain ⟨others, rfl, hothers⟩ := ih hrest
      refine ⟨strings ++ others, (Except.ok.inj hfound).symm, List.rel_append ?_ hothers⟩
      rw [sectionStrings] at hstrings
      split at hstrings
      · rename_i hname
        exact h.collectStrings hname hstrings
      · rename_i hname
        rw [tuiStrings, if_pos (Or.inl (not_or.mp hname)), ← Except.ok.inj hstrings]
        exact .nil

/-- Whatever the sidebar lists is what the terminal interface's scan of the same rows
finds. -/
theorem Pins.collectSymbols (h : Pins world snapshot space disassembler)
    {unreadable : UInt64 → Bool} {symbols : List SymbolInfo}
    (hsymbols : GuiSymbols.collectSymbols unreadable neverStops world snapshot = .ok symbols) :
    SameSymbols symbols (symbolsOf (fun _ => false) space disassembler snapshot.rows).1 := by
  obtain ⟨pointer, hpointer, -⟩ := h.disassembler
  rw [GuiSymbols.collectSymbols, if_neg (by rw [hpointer]; exact nofun), h.entryPoint] at hsymbols
  obtain ⟨entry, hentry, hsymbols⟩ := ok_of_bind hsymbols
  obtain rfl := Except.ok.inj hentry
  obtain ⟨found, htargets, hsymbols⟩ := ok_of_bind hsymbols
  rw [h.callTargets] at htargets
  rw [symbolsOf, scanSections_readable]
  cases hcalls : TuiSession.callTargets disassembler snapshot.rows with
  | error exception =>
      rw [hcalls] at htargets
      contradiction
  | ok targets =>
      rw [hcalls] at htargets
      obtain rfl := Except.ok.inj htargets
      dsimp only at hsymbols
      rw [h.sections] at hsymbols
      obtain ⟨sections, hsections, hsymbols⟩ := ok_of_bind hsymbols
      obtain rfl := Except.ok.inj hsections
      obtain ⟨listed, hlisted, hsymbols⟩ := ok_of_bind hsymbols
      obtain ⟨strings, rfl, hstrings⟩ := h.stringsFrom hlisted
      rw [← Except.ok.inj hsymbols]
      refine List.rel_append ?_ hstrings
      rw [List.forall₂_map_left_iff, List.forall₂_map_right_iff]
      refine List.forall₂_same.mpr ?_
      intro addr _
      exact ⟨rfl, Or.inl rfl, rfl, rfl⟩

theorem ok_of_isOk {α : Type} {result : Except Thrown α} (h : result.isOk = true) :
    ∃ value, result = .ok value := by
  cases result with
  | error exception => contradiction
  | ok value => exact ⟨value, rfl⟩

theorem Pins.stringsFrom_ok (h : Pins world snapshot space disassembler)
    (sections : List SectionInfo) (i : Nat) :
    ∃ found, GuiSymbols.stringsFrom (fun _ => false) neverStops world snapshot i sections =
      .ok found := by
  induction sections generalizing i with
  | nil => exact ⟨some [], rfl⟩
  | cons sec later ih =>
      obtain ⟨rest, hrest⟩ := ih (i + 1)
      rw [GuiSymbols.stringsFrom, if_neg nofun, hrest, sectionStrings]
      split
      · rw [GuiSymbols.collectStrings, h.bytes, bytes_readable]
        split
        · exact ⟨_, rfl⟩
        · exact ⟨_, rfl⟩
      · exact ⟨_, rfl⟩

theorem Pins.collectSymbols_of_callTargets (h : Pins world snapshot space disassembler)
    {found : Option (List UInt64)}
    (hfound : GuiSymbols.callTargets neverStops world snapshot disassembler.entryAddress =
      .ok found) :
    ∃ symbols, GuiSymbols.collectSymbols (fun _ => false) neverStops world snapshot =
      .ok symbols := by
  obtain ⟨pointer, hpointer, -⟩ := h.disassembler
  rw [GuiSymbols.collectSymbols, if_neg (by rw [hpointer]; exact nofun), h.entryPoint]
  obtain ⟨listed, hlisted⟩ := h.stringsFrom_ok (sectionsOf disassembler) 0
  simp only [bind, Except.bind, hfound]
  cases found with
  | none => exact ⟨[], rfl⟩
  | some targets =>
      rw [h.sections]
      simp only [hlisted]
      cases listed with
      | none => exact ⟨[], rfl⟩
      | some strings => exact ⟨_, rfl⟩

end Collecting

section Binaries

/-- Both front ends hold the same decode of the same file. -/
structure SameBinary (guiWorld : World GuiView) (tuiWorld : World TuiSession.TuiView)
    (space : AddressSpace) (gui tui : Disassembler) : Prop where
  gui_space : guiWorld.currentSpace = some space
  tui_space : tuiWorld.currentSpace = some space
  gui_disassembler : guiWorld.currentDisassembler = some gui
  tui_disassembler : tuiWorld.currentDisassembler = some tui
  entryAddress : tui.entryAddress = gui.entryAddress
  commonSections : tui.commonSections = gui.commonSections
  readyCount : tui.readyCount = gui.readyCount
  rows : ∀ i, i < gui.readyCount →
    tui.decodedInstructions.element i = gui.decodedInstructions.element i

variable {guiWorld : World GuiView} {tuiWorld : World TuiSession.TuiView} {space : AddressSpace}
  {gui tui : Disassembler}

theorem foldlM_congr {α β : Type} {f g : β → α → Except Thrown β} {list : List α}
    (h : ∀ x ∈ list, ∀ b, f b x = g b x) (b : β) : list.foldlM f b = list.foldlM g b := by
  induction list generalizing b with
  | nil => rfl
  | cons x list ih =>
      rw [List.foldlM_cons, List.foldlM_cons, h x List.mem_cons_self]
      congr 1
      funext next
      exact ih (fun y hmem => h y (List.mem_cons_of_mem _ hmem)) next

theorem SameBinary.callTargets (h : SameBinary guiWorld tuiWorld space gui tui) :
    TuiSession.callTargets tui gui.readyCount = TuiSession.callTargets gui gui.readyCount := by
  rw [TuiSession.callTargets, TuiSession.callTargets, h.entryAddress]
  apply foldlM_congr
  intro i hmem targets
  simp only [instructionWith, h.rows i (List.mem_range.mp hmem)]

theorem SameBinary.symbolsOf (h : SameBinary guiWorld tuiWorld space gui tui) :
    TuiSession.symbolsOf (fun _ => false) space tui gui.readyCount =
      TuiSession.symbolsOf (fun _ => false) space gui gui.readyCount := by
  rw [TuiSession.symbolsOf, TuiSession.symbolsOf, h.callTargets, h.entryAddress, sectionsOf,
    sectionsOf, h.commonSections]

theorem SameBinary.allSymbols (h : SameBinary guiWorld tuiWorld space gui tui) :
    TuiFrames.allSymbols tuiWorld =
      if 0 < gui.readyCount then
        (TuiSession.symbolsOf (fun _ => false) space gui gui.readyCount).1
      else [] := by
  have hready : tuiWorld.readyInstructions = gui.readyCount := by
    rw [World.readyInstructions, h.tui_disassembler]
    exact h.readyCount
  rw [TuiFrames.allSymbols, hready, h.tui_space, h.tui_disassembler]
  dsimp only
  rw [h.symbolsOf]

end Binaries

section Openings

open Voidwalk.FileTypeDetection

/-- A session opens a file, its worker ends, and the rows are shown. -/
def guiShown (loading : Loading) (moves statements : Nat) : Option GuiSystem :=
  (System.start { view := {} }).play
    (fun (move : Surroundings × Nat) _ world => workerStep move.1 move.2 world)
    (fun _ _ _ => true) GuiSession.program
    ([.call (.openBinary "file" loading)] ++ List.replicate 10 .statement ++
      List.replicate moves (.environment ({}, 0)) ++ [.call (.refresh fun _ => false)] ++
      List.replicate statements .statement)

def tuiShown (loading : Loading) (moves statements : Nat) : Option TuiSession.TuiSystem :=
  (System.start { view := {} }).play
    (fun (move : Surroundings × Nat) _ world => workerStep move.1 move.2 world)
    (fun history _ call => TuiSession.mayCall history call) TuiSession.program
    ([.call (.openBinary "file" loading)] ++ List.replicate 10 .statement ++
      List.replicate moves (.environment ({}, 0)) ++ [.call (.onRender fun _ => false)] ++
      List.replicate statements .statement)

instance (world : World GuiView) : Decidable (MainWindow.ShowsWhole world) :=
  inferInstanceAs (Decidable (if 0 < world.readyInstructions then
    world.view.decodedForReal = true ∧ rowCount world = world.readyInstructions
  else world.view.decodedForReal = false ∧
    world.view.fallbackRows = (buildFallback (fun _ => false) world).1))

/-- The session has decoded these rows of this file. -/
def holdsRows {View : Type} (space : AddressSpace) (headers : Headers)
    (rows : List Instruction) (world : World View) : Bool :=
  world.currentSpace.any (fun found => found.mappedData = space.mappedData) &&
    world.currentDisassembler.any fun found =>
      found.entryAddress = headers.entryAddress &&
        found.commonSections = headers.commonSections &&
        found.readyCount = rows.length &&
        (List.range rows.length).all fun i =>
          (found.decodedInstructions.element i).toOption = rows[i]?

theorem exists_of_holdsRows {View : Type} {space : AddressSpace} {headers : Headers}
    {rows : List Instruction} {world : World View}
    (h : holdsRows space headers rows world = true) :
    ∃ found, world.currentSpace = some space ∧ world.currentDisassembler = some found ∧
      found.entryAddress = headers.entryAddress ∧
      found.commonSections = headers.commonSections ∧ found.readyCount = rows.length ∧
      ∀ i, i < rows.length → (found.decodedInstructions.element i).toOption = rows[i]? := by
  rw [holdsRows, Bool.and_eq_true, Option.any_eq_true, Option.any_eq_true] at h
  obtain ⟨⟨foundSpace, hspace, hbytes⟩, found, hfound, h⟩ := h
  simp only [Bool.and_eq_true, decide_eq_true_eq, List.all_eq_true, List.mem_range] at hbytes h
  obtain ⟨⟨⟨hentry, hsections⟩, hready⟩, hrows⟩ := h
  refine ⟨found, ?_, hfound, hentry, hsections, hready, hrows⟩
  rw [hspace]
  cases foundSpace
  cases space
  simp only at hbytes
  subst hbytes
  rfl

theorem eq_of_toOption {α : Type} {first second : Except Thrown α}
    (h : first.toOption = second.toOption) (hsome : second.toOption.isSome = true) :
    first = second := by
  cases first with
  | error exception =>
      rw [← h] at hsome
      contradiction
  | ok value =>
      cases second with
      | error exception => contradiction
      | ok other => exact congrArg Except.ok (Option.some.inj h)

theorem sameBinary_of_holdsRows {space : AddressSpace} {headers : Headers}
    {rows : List Instruction} {guiWorld : World GuiView} {tuiWorld : World TuiSession.TuiView}
    (hgui : holdsRows space headers rows guiWorld = true)
    (htui : holdsRows space headers rows tuiWorld = true) :
    ∃ gui tui, SameBinary guiWorld tuiWorld space gui tui ∧ gui.readyCount = rows.length := by
  obtain ⟨gui, hspace, hfound, hentry, hsections, hready, hrows⟩ := exists_of_holdsRows hgui
  obtain ⟨tui, hspace', hfound', hentry', hsections', hready', hrows'⟩ := exists_of_holdsRows htui
  refine ⟨gui, tui, ⟨hspace, hspace', hfound, hfound', ?_, ?_, ?_, ?_⟩, hready⟩
  · rw [hentry, hentry']
  · rw [hsections, hsections']
  · rw [hready, hready']
  · intro i hi
    rw [hready] at hi
    apply eq_of_toOption
    · rw [hrows i hi, hrows' i hi]
    · rw [hrows i hi, List.getElem?_eq_getElem hi]
      rfl

theorem guiShown_run {loading : Loading} {moves statements : Nat} {system : GuiSystem}
    (h : guiShown loading moves statements = some system) :
    ReflTransGen GuiStep (.start { view := {} }) system :=
  run_of_play (fun move _ _ _ hmove => ⟨move.1, move.2, hmove⟩) (fun _ _ _ _ => trivial) h

theorem tuiShown_run {loading : Loading} {moves statements : Nat}
    {system : TuiSession.TuiSystem} (h : tuiShown loading moves statements = some system) :
    ReflTransGen TuiSession.TuiStep (.start { view := {} }) system :=
  run_of_play (fun move _ _ _ hmove => ⟨move.1, move.2, hmove⟩) (fun _ _ _ hcall => hcall) h

def stubHeaders : Headers where
  arch := .aArch64
  commonSections := { text := [⟨0x401000, 0x40, 4⟩] }
  entryAddress := 0x401000

/-- An AArch64 file with an entry point: only the sidebar lists it. -/
theorem symbols_differ_stub : ∃ guiSystem tuiSystem gui tui symbols,
    ReflTransGen GuiStep (.start { view := {} }) guiSystem ∧ guiSystem.label = none ∧
      MainWindow.ShowsWhole guiSystem.state ∧ guiSystem.state.isDecoding = false ∧
      ReflTransGen TuiSession.TuiStep (.start { view := {} }) tuiSystem ∧
      tuiSystem.label = none ∧ tuiSystem.state.isDecoding = false ∧
      tuiSystem.state.view.refreshedGen = tuiSystem.state.session.decodeGeneration ∧
      SameBinary guiSystem.state tuiSystem.state ElfTableReads.twoSectionsFile64 gui tui ∧
      collectSymbols (fun _ => false) neverStops guiSystem.state
        (takeSnapshot guiSystem.state) = .ok symbols ∧
      symbols.map SymbolInfo.name = ["entry"] ∧ tuiSystem.state.view.symbols = [] ∧
      ¬ SameSymbols symbols tuiSystem.state.view.symbols := by
  have hgui : (guiShown (HeaderParsing.loadingOf ElfTableReads.twoSectionsFile64) 9 6).any
      (fun system => system.label = none && MainWindow.ShowsWhole system.state &&
        !system.state.isDecoding &&
        holdsRows ElfTableReads.twoSectionsFile64 stubHeaders [] system.state &&
        (collectSymbols (fun _ => false) neverStops system.state
          (takeSnapshot system.state)).toOption.any fun symbols =>
            symbols.map SymbolInfo.name = ["entry"]) = true := by
    decide +kernel
  have htui : (tuiShown (HeaderParsing.loadingOf ElfTableReads.twoSectionsFile64) 9 17).any
      (fun system => system.label = none && !system.state.isDecoding &&
        system.state.view.refreshedGen = system.state.session.decodeGeneration &&
        holdsRows ElfTableReads.twoSectionsFile64 stubHeaders [] system.state &&
        system.state.view.symbols = []) = true := by
    decide +kernel
  obtain ⟨guiSystem, hguiPlayed, hgui⟩ := (Option.any_eq_true _ _).mp hgui
  obtain ⟨tuiSystem, htuiPlayed, htui⟩ := (Option.any_eq_true _ _).mp htui
  simp only [Bool.and_eq_true, decide_eq_true_eq, Bool.not_eq_true'] at hgui htui
  obtain ⟨⟨⟨⟨hguiLabel, hguiWhole⟩, hguiDone⟩, hguiRows⟩, hlisted⟩ := hgui
  obtain ⟨⟨⟨⟨htuiLabel, htuiDone⟩, htuiDrawn⟩, htuiRows⟩, hnone⟩ := htui
  obtain ⟨gui, tui, hsame, -⟩ := sameBinary_of_holdsRows hguiRows htuiRows
  obtain ⟨symbols, hsymbols, hnames⟩ := (Option.any_eq_true _ _).mp hlisted
  have hcollected : collectSymbols (fun _ => false) neverStops guiSystem.state
      (takeSnapshot guiSystem.state) = .ok symbols :=
    eq_of_toOption hsymbols rfl
  refine ⟨guiSystem, tuiSystem, gui, tui, symbols, guiShown_run hguiPlayed, hguiLabel, hguiWhole,
    hguiDone, tuiShown_run htuiPlayed, htuiLabel, htuiDone, htuiDrawn, hsame, hcollected,
    of_decide_eq_true hnames, hnone, ?_⟩
  intro hsameSymbols
  rw [hnone] at hsameSymbols
  obtain rfl := List.forall₂_nil_right_iff.mp hsameSymbols
  exact absurd hnames (by decide)

end Openings

end Voidwalk.SymbolAgreement

import Voidwalk.Library.MaximalRuns
import Voidwalk.SymbolAgreement

/-!
What the sidebar lists: the entry point and the targets of the calls, and the strings of
the data sections.
-/

namespace Voidwalk.SymbolExtraction

open Voidwalk.Library.MaximalRuns
open Voidwalk.MappedFile
open Voidwalk.ChunkStorage
open Voidwalk.InstructionRendering
open Voidwalk.Disassembly
open Voidwalk.AnalysisSession
open Voidwalk.FrontendRows
open Voidwalk.GuiSession
open Voidwalk.GuiSymbols
open Voidwalk.SymbolAgreement
open Voidwalk.TuiSession (SymbolInfo Scan insertTarget)

section Strings

variable (sec : SectionInfo) (raw : List UInt8)

/-- The entry of a run, given by its place in the window and its length. -/
def stringEntry (run : Nat × Nat) : SymbolInfo where
  kind := .String
  name := stringName ((raw.drop run.1).take run.2)
  addr := sec.offset + .ofNat run.1
  detail := hexAddr (sec.vaddr + .ofNat run.1) 8

def isLong (run : Nat × Nat) : Bool :=
  kMinStringLen ≤ run.2

/-- A scan with a run open that starts at `start`. -/
structure Scanned (start length : Nat) (scan : Scan) : Prop where
  run : scan.run = (raw.drop start).take length
  le : start + length ≤ raw.length
  runStart : 0 < length → scan.runStart = start

variable {sec raw} {start length : Nat} {scan : Scan}

theorem Scanned.length_run (h : Scanned raw start length scan) : scan.run.length = length := by
  have hle := h.le
  rw [h.run, List.length_take, List.length_drop]
  omega

theorem Scanned.flush_found (h : Scanned raw start length scan) :
    (flush sec scan).found =
      scan.found ++ ((closed start length).filter isLong).map (stringEntry sec raw) := by
  rw [flush, closed]
  dsimp only
  rw [h.length_run]
  split
  · rename_i hlong
    have hpos : 0 < length := Nat.lt_of_lt_of_le (by decide) hlong
    have hkeep : isLong (start, length) = true := decide_eq_true hlong
    rw [if_pos hpos, List.filter_cons_of_pos hkeep, List.filter_nil, List.map_singleton,
      stringEntry, h.run, h.runStart hpos]
  · rename_i hshort
    have hdrop : ¬ isLong (start, length) = true := fun hlong => hshort (of_decide_eq_true hlong)
    split
    · rw [List.filter_cons_of_neg hdrop, List.filter_nil, List.map_nil, List.append_nil]
    · rw [List.filter_nil, List.map_nil, List.append_nil]

theorem Scanned.extend (h : Scanned raw start length scan) {byte : UInt8} {rest : List UInt8}
    (hdrop : raw.drop (start + length) = byte :: rest) (hbyte : printable byte = true) :
    Scanned raw start (length + 1) (scanByte sec scan byte (start + length)) := by
  have hlt : start + length < raw.length := by
    rw [← Nat.sub_pos_iff_lt, ← List.length_drop, hdrop]
    exact Nat.succ_pos _
  rw [scanByte, if_pos hbyte]
  refine ⟨?_, hlt, ?_⟩
  · have hget : (raw.drop start)[length]? = some byte := by
      rw [List.getElem?_drop, ← List.head?_drop, hdrop]
      rfl
    rw [h.run, List.take_add_one, hget]
    rfl
  · intro _
    dsimp only
    split
    · rename_i hempty
      rw [List.isEmpty_iff_length_eq_zero, h.length_run] at hempty
      rw [hempty, Nat.add_zero]
    · rename_i hsome
      apply h.runStart
      rwa [List.isEmpty_iff_length_eq_zero, h.length_run, ← ne_eq, ← Nat.pos_iff_ne_zero] at hsome

theorem Scanned.restart (hlt : start + length < raw.length) :
    Scanned raw (start + length + 1) 0 (flush sec scan) :=
  ⟨List.take_zero.symm, hlt, fun hpos => absurd hpos (Nat.lt_irrefl 0)⟩

/-- The scan from within the window on finds the runs that end there. -/
theorem Scanned.found (h : Scanned raw start length scan) {rest : List UInt8}
    (hdrop : raw.drop (start + length) = rest) :
    (flush sec ((rest.zipIdx (start + length)).foldl
      (fun scan (byte, i) => scanByte sec scan byte i) scan)).found =
      scan.found ++
        ((runsFrom printable start length rest).filter isLong).map (stringEntry sec raw) := by
  induction rest generalizing start length scan with
  | nil => exact h.flush_found
  | cons byte rest ih =>
      have hnext : raw.drop (start + length + 1) = rest := by
        rw [← List.drop_drop, hdrop, List.drop_one, List.tail_cons]
      have hlt : start + length < raw.length := by
        rw [← Nat.sub_pos_iff_lt, ← List.length_drop, hdrop]
        exact Nat.succ_pos _
      rw [List.zipIdx_cons, List.foldl_cons, runsFrom]
      dsimp only
      split
      · rename_i hbyte
        have hstep : (scanByte sec scan byte (start + length)).found = scan.found := by
          rw [scanByte, if_pos hbyte]
        rw [Nat.add_assoc, ih (h.extend hdrop hbyte) hnext, hstep]
      · rename_i hbyte
        rw [scanByte, if_neg hbyte]
        have hopen : Scanned raw (start + length + 1) 0 (flush sec scan) := Scanned.restart hlt
        have hrest := ih hopen hnext
        rw [Nat.add_zero] at hrest
        rw [hrest, h.flush_found, List.append_assoc, List.filter_append, List.map_append]

variable (sec raw)

theorem scan_found :
    (flush sec (raw.zipIdx.foldl (fun scan (byte, i) => scanByte sec scan byte i) {})).found =
      ((maximalRuns printable raw).filter isLong).map (stringEntry sec raw) := by
  have hstart : Scanned raw 0 0 {} := by
    refine ⟨rfl, Nat.zero_le _, ?_⟩
    intro hpos
    contradiction
  exact hstart.found rfl

/-- One entry for each maximal run of at least four printable bytes of the window, from
left to right. -/
structure ExactStrings (sec : SectionInfo) (raw : List UInt8) (strings : List SymbolInfo) :
    Prop where
  intro ::
  runs : ∃ runs : List (Nat × Nat),
    (runs.Pairwise fun run later => run.1 + run.2 < later.1) ∧
    (∀ run, run ∈ runs ↔ IsMaximalRun (Holds printable raw) run.1 run.2 ∧ 4 ≤ run.2) ∧
    strings = runs.map (stringEntry sec raw)

theorem exactStrings_scan :
    ExactStrings sec raw
      (flush sec (raw.zipIdx.foldl (fun scan (byte, i) => scanByte sec scan byte i) {})).found := by
  rw [scan_found]
  refine ⟨_, (maximalRuns_pairwise printable raw).filter _, ?_, rfl⟩
  intro run
  rw [List.mem_filter, mem_maximalRuns, isLong, decide_eq_true_iff]
  rfl

end Strings

section Functions

/-- The distinct addresses that are listed, in increasing order. -/
structure ExactTargets (entry : UInt64) (rows : List Instruction) (targets : List UInt64) :
    Prop where
  increasing : targets.Pairwise (· < ·)
  mem_iff : ∀ addr, addr ∈ targets ↔
    addr ≠ 0 ∧ (addr = entry ∨ ∃ row ∈ rows, row.flow = .Call ∧ row.target = addr)

theorem mem_insertTarget {targets : List UInt64} {target addr : UInt64} :
    addr ∈ insertTarget targets target ↔ addr = target ∨ addr ∈ targets := by
  rw [insertTarget]
  split
  · rename_i hmem
    constructor
    · exact Or.inr
    · rintro (rfl | hold)
      · exact hmem
      · exact hold
  · exact List.mem_orderedInsert _

theorem orderedInsert_pairwise {targets : List UInt64} (h : targets.Pairwise (· < ·))
    {target : UInt64} (hnew : target ∉ targets) :
    (targets.orderedInsert (· ≤ ·) target).Pairwise (· < ·) := by
  induction targets with
  | nil => exact List.pairwise_singleton _ _
  | cons first later ih =>
      obtain ⟨hfirst, hlater⟩ := List.pairwise_cons.mp h
      obtain ⟨hne, hnew⟩ := not_or.mp (mt List.mem_cons.mpr hnew)
      rw [List.orderedInsert_cons]
      split
      · rename_i hle
        have hlt : target < first := UInt64.lt_of_le_of_ne hle hne
        refine List.pairwise_cons.mpr ⟨?_, h⟩
        intro addr hmem
        rcases List.mem_cons.mp hmem with rfl | hmem
        · exact hlt
        · exact UInt64.lt_trans hlt (hfirst addr hmem)
      · rename_i hle
        refine List.pairwise_cons.mpr ⟨?_, ih hlater hnew⟩
        intro addr hmem
        rcases (List.mem_orderedInsert _).mp hmem with rfl | hmem
        · exact UInt64.not_le.mp hle
        · exact hfirst addr hmem

theorem insertTarget_pairwise {targets : List UInt64} (h : targets.Pairwise (· < ·))
    (target : UInt64) : (insertTarget targets target).Pairwise (· < ·) := by
  rw [insertTarget]
  split
  · exact h
  · rename_i hnew
    exact orderedInsert_pairwise h hnew

theorem exactTargets_nil (entry : UInt64) :
    ExactTargets entry [] (if entry = 0 then [] else [entry]) := by
  split
  · rename_i hzero
    refine ⟨List.Pairwise.nil, ?_⟩
    intro addr
    simp [hzero]
  · rename_i hne
    refine ⟨List.pairwise_singleton _ _, ?_⟩
    intro addr
    constructor
    · intro hmem
      obtain rfl := List.mem_singleton.mp hmem
      exact ⟨hne, Or.inl rfl⟩
    · rintro ⟨-, rfl | ⟨row, hrow, -⟩⟩
      · exact List.mem_singleton_self _
      · exact absurd hrow List.not_mem_nil

/-- A further row adds nothing unless it calls, and then its target, unless that is
unknown. -/
theorem ExactTargets.row {entry : UInt64} {rows : List Instruction} {targets : List UInt64}
    (h : ExactTargets entry rows targets) (row : Instruction) :
    ExactTargets entry (rows ++ [row])
      (if row.flow = .Call then
        if row.target = 0 then targets else insertTarget targets row.target
      else targets) := by
  have hmem : ∀ addr, (∃ other ∈ rows ++ [row], other.flow = .Call ∧ other.target = addr) ↔
      (∃ other ∈ rows, other.flow = .Call ∧ other.target = addr) ∨
        (row.flow = .Call ∧ row.target = addr) := by
    intro addr
    simp only [List.mem_append, List.mem_singleton, or_and_right, exists_or, exists_eq_left]
  split
  · rename_i hcall
    split
    · rename_i hzero
      refine ⟨h.increasing, ?_⟩
      intro addr
      rw [h.mem_iff, hmem, hzero]
      simp only [and_congr_right_iff]
      intro hne
      simp only [hne.symm, and_false, or_false]
    · rename_i hne
      refine ⟨insertTarget_pairwise h.increasing _, ?_⟩
      intro addr
      rw [mem_insertTarget, h.mem_iff, hmem]
      constructor
      · rintro (rfl | ⟨hnonzero, hold⟩)
        · exact ⟨hne, Or.inr (Or.inr ⟨hcall, rfl⟩)⟩
        · exact ⟨hnonzero, hold.imp_right Or.inl⟩
      · rintro ⟨hnonzero, hentry | hold | ⟨-, rfl⟩⟩
        · exact Or.inr ⟨hnonzero, Or.inl hentry⟩
        · exact Or.inr ⟨hnonzero, Or.inr hold⟩
        · exact Or.inl rfl
  · rename_i hcall
    refine ⟨h.increasing, ?_⟩
    intro addr
    rw [h.mem_iff, hmem]
    simp only [hcall, false_and, or_false]

theorem instructionWith_eq {disassembler : Disassembler} {i : Nat} {row : Instruction}
    (hrow : disassembler.decodedInstructions.toList[i]? = some row) {α : Type}
    (field : Instruction → α) : instructionWith field disassembler i = .ok (field row) := by
  rw [instructionWith, (ChunkStore.element_eq_ok_iff _ i row).mpr hrow]
  rfl

/-- The loop over the first `n` rows. -/
theorem callTargets_exact (disassembler : Disassembler) {n : Nat}
    (hn : n ≤ disassembler.decodedInstructions.toList.length) :
    ∃ targets, TuiSession.callTargets disassembler n = .ok targets ∧
      ExactTargets disassembler.entryAddress (disassembler.decodedInstructions.toList.take n)
        targets := by
  induction n with
  | zero => exact ⟨_, rfl, exactTargets_nil _⟩
  | succ n ih =>
      obtain ⟨targets, htargets, hexact⟩ := ih (Nat.le_of_succ_le hn)
      have hrow := List.getElem?_eq_getElem hn
      generalize disassembler.decodedInstructions.toList[n] = row at hrow
      rw [List.take_add_one, hrow]
      rw [TuiSession.callTargets] at htargets ⊢
      refine ⟨_, ?_, hexact.row row⟩
      rw [List.range_succ, List.foldlM_append, htargets]
      simp only [bind, Except.bind, List.foldlM_cons, List.foldlM_nil, pure, Except.pure,
        instructionWith_eq hrow]
      by_cases hcall : row.flow = .Call
      · simp only [if_pos hcall]
      · simp only [if_neg hcall]

/-- One entry for each listed address, in increasing order. -/
structure ExactFunctions (entry : UInt64) (rows : List Instruction) (functions : List SymbolInfo) :
    Prop where
  increasing : functions.Pairwise fun symbol later => symbol.addr < later.addr
  mem_iff : ∀ addr, (∃ symbol ∈ functions, symbol.addr = addr) ↔
    addr ≠ 0 ∧ (addr = entry ∨ ∃ row ∈ rows, row.flow = .Call ∧ row.target = addr)
  entry_iff : ∀ symbol ∈ functions, symbol.name = "entry" ↔ symbol.addr = entry
  shape : ∀ symbol ∈ functions, symbol = {
    kind := .Function
    name := functionName symbol.addr entry
    addr := symbol.addr
    detail := hexAddr symbol.addr 6 }

theorem functionName_eq_entry_iff (addr entry : UInt64) :
    functionName addr entry = "entry" ↔ addr = entry := by
  rw [functionName]
  split
  · rename_i heq
    exact iff_of_true rfl heq
  · rename_i hne
    refine iff_of_false ?_ hne
    intro hname
    have hfirst := congrArg (fun name : String => name.toList.head?) hname
    rw [String.toList_append] at hfirst
    have hletter : 's' = 'e' := Option.some.inj hfirst
    contradiction

theorem ExactTargets.functions {entry : UInt64} {rows : List Instruction} {targets : List UInt64}
    (h : ExactTargets entry rows targets) :
    ExactFunctions entry rows (targets.map fun addr => {
      kind := .Function
      name := functionName addr entry
      addr := addr
      detail := hexAddr addr 6 }) := by
  refine ⟨List.pairwise_map.mpr h.increasing, ?_, ?_, ?_⟩
  · intro addr
    rw [← h.mem_iff]
    simp
  · intro symbol hmem
    obtain ⟨addr, -, rfl⟩ := List.mem_map.mp hmem
    exact functionName_eq_entry_iff addr entry
  · intro symbol hmem
    obtain ⟨addr, -, rfl⟩ := List.mem_map.mp hmem
    rfl

end Functions

section Sidebar

variable {world : World GuiView} {snapshot : Snapshot} {space : AddressSpace}
  {disassembler : Disassembler}

/-- The part of a section that is scanned. -/
def window (space : AddressSpace) (sec : SectionInfo) : List UInt8 :=
  (space.mappedData.drop sec.offset.toNat).take (min sec.size.toNat 262144)

def isData (sec : SectionInfo) : Bool :=
  sec.name = ".rodata" || sec.name = ".data"

/-- The functions, then the strings of the data sections in the order of the table. -/
structure ExactSymbols (space : AddressSpace) (entry : UInt64) (sections : List SectionInfo)
    (rows : List Instruction) (symbols : List SymbolInfo) : Prop where
  intro ::
  parts : ∃ functions strings, symbols = functions ++ strings.flatten ∧
    ExactFunctions entry rows functions ∧
    List.Forall₂ (fun sec => ExactStrings sec (window space sec)) (sections.filter isData) strings

theorem contentsAt_atMost (space : AddressSpace) (sec : SectionInfo) :
    contentsAt space sec.offset (atMost sec.size kMaxScan) = window space sec := by
  rw [contentsAt, window, atMost]
  congr 1
  split
  · rename_i hlt
    rw [UInt64.lt_iff_toNat_lt] at hlt
    exact (min_eq_left (Nat.le_of_lt hlt)).symm
  · rename_i hge
    rw [UInt64.lt_iff_toNat_lt] at hge
    exact (min_eq_right (Nat.not_lt.mp hge)).symm

theorem exactStrings_nil (sec : SectionInfo) : ExactStrings sec [] [] :=
  exactStrings_scan sec []

theorem isData_iff (sec : SectionInfo) :
    isData sec = true ↔ sec.name = ".rodata" ∨ sec.name = ".data" := by
  rw [isData, Bool.or_eq_true, decide_eq_true_iff, decide_eq_true_iff]

theorem exact_collectStrings (h : Pins world snapshot space disassembler)
    {unreadable : UInt64 → Bool} {sec : SectionInfo} {strings : List SymbolInfo}
    (hstrings : collectStrings unreadable world snapshot sec = .ok strings) :
    ExactStrings sec (window space sec) strings := by
  rw [collectStrings, h.bytes] at hstrings
  split at hstrings
  · rename_i hsize
    have hnothing : window space sec = [] := by
      rw [window, hsize]
      exact List.take_zero
    obtain rfl := Except.ok.inj hstrings
    rw [hnothing]
    exact exactStrings_nil sec
  · obtain ⟨raw, hraw, hstrings⟩ := ok_of_bind hstrings
    have hread := bytes_of_ok hraw
    rw [bytes_readable, contentsAt_atMost] at hread
    obtain rfl := Except.ok.inj hread
    obtain rfl := Except.ok.inj hstrings
    exact exactStrings_scan sec _

/-- The section loop, without a stop. -/
theorem exact_stringsFrom (h : Pins world snapshot space disassembler)
    {unreadable : UInt64 → Bool} {sections : List SectionInfo} {i : Nat}
    {found : Option (List SymbolInfo)}
    (hfound : stringsFrom unreadable neverStops world snapshot i sections = .ok found) :
    ∃ strings, found = some strings.flatten ∧
      List.Forall₂ (fun sec => ExactStrings sec (window space sec)) (sections.filter isData)
        strings := by
  induction sections generalizing i found with
  | nil =>
      obtain rfl := Except.ok.inj hfound
      exact ⟨[], rfl, .nil⟩
  | cons sec later ih =>
      have hnever : ¬ neverStops (.section i) = true := Bool.false_ne_true
      rw [stringsFrom, if_neg hnever] at hfound
      obtain ⟨strings, hstrings, hfound⟩ := ok_of_bind hfound
      obtain ⟨rest, hrest, hfound⟩ := ok_of_bind hfound
      obtain ⟨others, rfl, hothers⟩ := ih hrest
      obtain rfl := Except.ok.inj hfound
      rw [sectionStrings] at hstrings
      split at hstrings
      · rename_i hname
        rw [List.filter_cons_of_pos ((isData_iff sec).mpr hname)]
        exact ⟨strings :: others, rfl, .cons (exact_collectStrings h hstrings) hothers⟩
      · rename_i hname
        obtain rfl := Except.ok.inj hstrings
        rw [List.filter_cons_of_neg (mt (isData_iff sec).mp hname)]
        exact ⟨others, rfl, hothers⟩

theorem exact_of_ok (h : Pins world snapshot space disassembler)
    (hrows : snapshot.rows ≤ disassembler.decodedInstructions.size)
    {unreadable : UInt64 → Bool} {symbols : List SymbolInfo}
    (hsymbols : collectSymbols unreadable neverStops world snapshot = .ok symbols) :
    ExactSymbols space disassembler.entryAddress (sectionsOf disassembler)
      (disassembler.decodedInstructions.toList.take snapshot.rows) symbols := by
  obtain ⟨pointer, hpointer, -⟩ := h.disassembler
  have hsome : ¬ snapshot.disassembler = none := by
    rw [hpointer]
    exact Option.some_ne_none pointer
  rw [← ChunkStore.length_toList] at hrows
  obtain ⟨targets, htargets, hexact⟩ := callTargets_exact disassembler hrows
  rw [collectSymbols, if_neg hsome, h.entryPoint] at hsymbols
  obtain ⟨entry, hentry, hsymbols⟩ := ok_of_bind hsymbols
  obtain rfl := Except.ok.inj hentry
  obtain ⟨found, hcalls, hsymbols⟩ := ok_of_bind hsymbols
  rw [h.callTargets, htargets] at hcalls
  obtain rfl := Except.ok.inj hcalls
  dsimp only at hsymbols
  rw [h.sections] at hsymbols
  obtain ⟨sections, hsections, hsymbols⟩ := ok_of_bind hsymbols
  obtain rfl := Except.ok.inj hsections
  obtain ⟨listed, hlisted, hsymbols⟩ := ok_of_bind hsymbols
  obtain ⟨strings, rfl, hstrings⟩ := exact_stringsFrom h hlisted
  obtain rfl := Except.ok.inj hsymbols
  exact ⟨_, strings, rfl, hexact.functions, hstrings⟩

/-- An extraction that is not stopped returns the exact list, and it returns wherever the
file can be read. -/
theorem collectSymbols_exact (h : Pins world snapshot space disassembler)
    (hrows : snapshot.rows ≤ disassembler.decodedInstructions.size) :
    (∃ symbols, collectSymbols (fun _ => false) neverStops world snapshot = .ok symbols) ∧
    ∀ unreadable symbols, collectSymbols unreadable neverStops world snapshot = .ok symbols →
      ExactSymbols space disassembler.entryAddress (sectionsOf disassembler)
        (disassembler.decodedInstructions.toList.take snapshot.rows) symbols := by
  constructor
  · rw [← ChunkStore.length_toList] at hrows
    obtain ⟨targets, htargets, -⟩ := callTargets_exact disassembler hrows
    apply h.collectSymbols_of_callTargets
    rw [h.callTargets, htargets]
    rfl
  · intro unreadable symbols hsymbols
    exact exact_of_ok h hrows hsymbols

/-- A call, padding and a return, and then a string and the start of another. -/
def callBytes : List UInt8 :=
  [0xE8, 0x02, 0x00, 0x00, 0x00, 0x90, 0x90, 0xC3,
    0x01, 0x74, 0x65, 0x78, 0x74, 0x00, 0x61, 0x62, 0x63]

theorem length_callBytes : callBytes.length < 2 ^ 64 := by decide

def callSpace : AddressSpace :=
  ⟨callBytes, length_callBytes⟩

def callDisassembler : Disassembler :=
  ((Sweep.start (.construct callSpace .x86_64
    { text := [⟨0x1000, 0, 8⟩], data := [⟨0x2008, 8, 9⟩] } 0x1000 [])).proceed 60).disassembler

def callWorld : World GuiView where
  spaces := [callSpace]
  disassemblers := [callDisassembler]
  view := {}

def callSnapshot : Snapshot where
  space := some 0
  disassembler := some 0
  rows := 4

theorem collectSymbols_exact_call :
    ∃ symbols, collectSymbols (fun _ => false) neverStops callWorld callSnapshot = .ok symbols ∧
      symbols.map SymbolInfo.name = ["entry", "sub_001007", "\"text\""] ∧
      ExactSymbols callSpace 0x1000 (sectionsOf callDisassembler)
        callDisassembler.decodedInstructions.toList symbols := by
  have hentry : callDisassembler.entryAddress = 0x1000 := by decide +kernel
  have hsize : callDisassembler.decodedInstructions.size = 4 := by decide +kernel
  have hnames : (collectSymbols (fun _ => false) neverStops callWorld callSnapshot).toOption.map
      (List.map SymbolInfo.name) = some ["entry", "sub_001007", "\"text\""] := by
    decide +kernel
  have hpins : Pins callWorld callSnapshot callSpace callDisassembler :=
    ⟨⟨0, rfl, rfl⟩, 0, rfl, rfl⟩
  obtain ⟨⟨symbols, hsymbols⟩, hexact⟩ := collectSymbols_exact hpins (Nat.le_of_eq hsize.symm)
  have hshape := hexact _ symbols hsymbols
  rw [hsymbols] at hnames
  rw [hentry, List.take_of_length_le] at hshape
  · exact ⟨symbols, hsymbols, Option.some.inj hnames, hshape⟩
  · rw [ChunkStore.length_toList, hsize]
    exact Nat.le_refl 4

end Sidebar

end Voidwalk.SymbolExtraction

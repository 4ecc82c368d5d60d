import Voidwalk.GuiSession
import Voidwalk.TuiSession

/-!
`gui::collectSymbols`, which fills the sidebar from a snapshot. It runs on a worker of
its own and may be told to stop.
-/

namespace Voidwalk.GuiSymbols

open Voidwalk.MappedFile
open Voidwalk.InstructionRendering
open Voidwalk.Disassembly
open Voidwalk.AnalysisSession
open Voidwalk.FrontendRows
open Voidwalk.GuiSession
open Voidwalk.TuiSession (SymbolKind SymbolInfo Scan insertTarget)

def kMinStringLen : Nat := 4

def kMaxStringDisplay : Nat := 28

def kMaxScan : UInt64 := 262144

/-- The digits of `std::hex << std::uppercase`, with zeros inserted in front. -/
def hexAddr (v : UInt64) (width : Nat) : String :=
  String.ofList (((Nat.toDigits 16 v.toNat).map Char.toUpper).leftpad width '0')

def functionName (addr entry : UInt64) : String :=
  if addr = entry then "entry" else "sub_" ++ hexAddr addr 6

def printable (byte : UInt8) : Bool :=
  0x20 ≤ byte && byte ≤ 0x7e

def stringName (run : List UInt8) : String :=
  let text := run.map fun byte => Char.ofNat byte.toNat
  let shown := if kMaxStringDisplay < text.length then
    String.ofList (text.take kMaxStringDisplay) ++ "\u2026" else String.ofList text
  "\"" ++ shown ++ "\""

def flush (sec : SectionInfo) (scan : Scan) : Scan where
  run := []
  runStart := scan.runStart
  found :=
    if kMinStringLen ≤ scan.run.length then
      scan.found ++ [{
        kind := .String
        name := stringName scan.run
        addr := sec.offset + .ofNat scan.runStart
        detail := hexAddr (sec.vaddr + .ofNat scan.runStart) 8 }]
    else scan.found

def scanByte (sec : SectionInfo) (scan : Scan) (byte : UInt8) (i : Nat) : Scan :=
  if printable byte then
    { scan with
      runStart := if scan.run.isEmpty then i else scan.runStart
      run := scan.run ++ [byte] }
  else flush sec scan

/-- The points at which a stop is asked for. -/
inductive Poll where
  | row (i : Nat)
  | section (i : Nat)

def neverStops : Poll → Bool :=
  fun _ => false

namespace Snapshot

variable (world : World GuiView) (snapshot : Snapshot)

def entryPoint : Except Thrown UInt64 :=
  match snapshot.disassembler with
  | none => .ok 0
  | some pointer =>
      match world.disassemblers[pointer]? with
      | none => .error .outOfRange
      | some disassembler => .ok disassembler.entryAddress

def sections : Except Thrown (List SectionInfo) :=
  match snapshot.disassembler with
  | none => .ok []
  | some pointer =>
      match world.disassemblers[pointer]? with
      | none => .error .outOfRange
      | some disassembler => .ok (sectionsOf disassembler)

def bytes (unreadable : UInt64 → Bool) (offset count : UInt64) : Except Thrown (List UInt8) :=
  match snapshot.space with
  | none => .ok []
  | some pointer =>
      match world.spaces[pointer]? with
      | none => .error .outOfRange
      | some space => AnalysisSession.bytes unreadable space offset count

end Snapshot

section Collect

variable (unreadable : UInt64 → Bool) (stop : Poll → Bool) (world : World GuiView)
  (snapshot : Snapshot)

def collectStrings (sec : SectionInfo) : Except Thrown (List SymbolInfo) := do
  if sec.size = 0 then pure []
  else
    let raw ← Snapshot.bytes world snapshot unreadable sec.offset (atMost sec.size kMaxScan)
    let scan := raw.zipIdx.foldl (fun scan (byte, i) => scanByte sec scan byte i) {}
    pure (flush sec scan).found

/-- One round of the row loop; `none` once a stop was requested. Every 4096th row polls. -/
def addTarget : Option (List UInt64) → Nat → Except Thrown (Option (List UInt64))
  | none, _ => pure none
  | some targets, i => do
      if i &&& 0xfff = 0 ∧ stop (.row i) then pure none
      else
        let flow ← Snapshot.rowFlow world snapshot i
        if flow = .Call then
          let target ← Snapshot.rowTarget world snapshot i
          pure (some (if target = 0 then targets else insertTarget targets target))
        else pure (some targets)

def callTargets (entry : UInt64) : Except Thrown (Option (List UInt64)) :=
  (List.range snapshot.rows).foldlM (addTarget stop world snapshot)
    (some (if entry = 0 then [] else [entry]))

def sectionStrings (sec : SectionInfo) : Except Thrown (List SymbolInfo) :=
  if sec.name = ".rodata" ∨ sec.name = ".data" then collectStrings unreadable world snapshot sec
  else pure []

/-- The section loop from the `i`th section on. -/
def stringsFrom : Nat → List SectionInfo → Except Thrown (Option (List SymbolInfo))
  | _, [] => pure (some [])
  | i, sec :: later => do
      if stop (.section i) then pure none
      else
        let strings ← sectionStrings unreadable world snapshot sec
        let rest ← stringsFrom (i + 1) later
        pure (rest.map fun found => strings ++ found)

/-- `collectImports` adds nothing. -/
def collectSymbols : Except Thrown (List SymbolInfo) := do
  if snapshot.disassembler = none then pure []
  else
    let entry ← Snapshot.entryPoint world snapshot
    match ← callTargets stop world snapshot entry with
    | none => pure []
    | some targets =>
        let functions := targets.map fun addr => {
          kind := .Function
          name := functionName addr entry
          addr := addr
          detail := hexAddr addr 6 }
        let sections ← Snapshot.sections world snapshot
        match ← stringsFrom unreadable stop world snapshot 0 sections with
        | none => pure []
        | some strings => pure (functions ++ strings)

end Collect

end Voidwalk.GuiSymbols

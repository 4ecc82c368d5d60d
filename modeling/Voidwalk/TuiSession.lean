import Mathlib.Data.List.Sort
import Voidwalk.FrontendRows

/-!
`tui::Session`, the view-model of the terminal interface, and the frames that
`AppView::OnRender` draws from it.
-/

namespace Voidwalk.TuiSession

open Voidwalk.Library.InterleavedThread
open Voidwalk.MappedFile
open Voidwalk.InstructionRendering
open Voidwalk.Disassembly
open Voidwalk.FileTypeDetection
open Voidwalk.AnalysisSession
open Voidwalk.FrontendRows

inductive SymbolKind where
  | Function | Import | String
  deriving DecidableEq

structure SymbolInfo where
  kind : SymbolKind
  name : String
  addr : UInt64
  detail : String
  deriving DecidableEq

/-- What `tui::Session` adds to its base, and the generation `AppView` has drawn.
`symbolsGen` is none before the first scan, where the source has `~0ull`. -/
structure TuiView where
  real : Bool := false
  shown : Nat := 0
  fallback : List DisasmRow := []
  banner : String := ""
  symbols : List SymbolInfo := []
  symbolsGen : Option Nat := none
  refreshedGen : Nat := 0

inductive TuiStatement where
  | clearBanner
  | clearRows
  | refreshTestsDone
  | readReady
  | showRows
  | buildFallback
  | testSymbols
  | collectSymbols
  | setSymbolsGen
  | frameTestsDecoding
  | frameTestsGeneration
  | frameTestsDone
  | setRefreshedGen
  deriving DecidableEq

abbrev TuiProgram (α : Type) := Program TuiStatement TuiView α

def onDecodeStarted (view : TuiView) : TuiView :=
  { view with real := false, shown := 0, fallback := [], banner := "", symbols := [] }

def functionName (addr entry : UInt64) : String :=
  if addr = entry then "entry" else "sub_" ++ hexUp addr.toNat 6

def printable (byte : UInt8) : Bool :=
  0x20 ≤ byte && byte ≤ 0x7e

def kMinStringLen : Nat := 4

def kMaxStringDisplay : Nat := 28

def kMaxScan : UInt64 := 262144

/-- The state of the string scan: the printable run under way and what was found. -/
structure Scan where
  run : List UInt8 := []
  runStart : Nat := 0
  found : List SymbolInfo := []

def stringName (run : List UInt8) : String :=
  let text := run.map fun byte => Char.ofNat byte.toNat
  let shown := if kMaxStringDisplay < text.length then
    String.ofList (text.take kMaxStringDisplay) ++ "..." else String.ofList text
  "\"" ++ shown ++ "\""

def flush (sec : SectionInfo) (scan : Scan) : Scan where
  run := []
  runStart := scan.runStart
  found :=
    if kMinStringLen ≤ scan.run.length then
      scan.found ++ [{
        kind := .String
        name := stringName scan.run
        addr := sec.offset + .ofNat scan.runStart
        detail := hexUp (sec.vaddr + .ofNat scan.runStart).toNat 8 }]
    else scan.found

def scanByte (sec : SectionInfo) (scan : Scan) (byte : UInt8) (i : Nat) : Scan :=
  if printable byte then
    { scan with
      runStart := if scan.run.isEmpty then i else scan.runStart
      run := scan.run ++ [byte] }
  else flush sec scan

def stringsOf (sec : SectionInfo) (raw : List UInt8) : List SymbolInfo :=
  (flush sec (raw.zipIdx.foldl (fun scan (byte, i) => scanByte sec scan byte i) {})).found

/-- The loop of `collectSymbols()` over the sections, with what was found before a read
threw. -/
def scanSections (unreadable : UInt64 → Bool) (space : AddressSpace) :
    List SectionInfo → List SymbolInfo × Option Thrown
  | [] => ([], none)
  | sec :: later =>
      if (sec.name ≠ ".rodata" ∧ sec.name ≠ ".data") ∨ sec.size = 0 then
        scanSections unreadable space later
      else match bytes unreadable space sec.offset (atMost sec.size kMaxScan) with
        | .error exception => ([], some exception)
        | .ok raw =>
            let (symbols, thrown) := scanSections unreadable space later
            (stringsOf sec raw ++ symbols, thrown)

def insertTarget (targets : List UInt64) (target : UInt64) : List UInt64 :=
  if target ∈ targets then targets else targets.orderedInsert (· ≤ ·) target

/-- The entry point and the targets of the calls among the rows below `shown`. Each of
these rows passes the guards of `rowFlow()` and `rowTarget()`. -/
def callTargets (disassembler : Disassembler) (shown : Nat) : Except Thrown (List UInt64) :=
  (List.range shown).foldlM (fun targets i => do
    if (← instructionWith Instruction.flow disassembler i) = .Call then
      let target ← instructionWith Instruction.target disassembler i
      pure (if target = 0 then targets else insertTarget targets target)
    else pure targets)
    (if disassembler.entryAddress = 0 then [] else [disassembler.entryAddress])

def symbolsOf (unreadable : UInt64 → Bool) (space : AddressSpace) (disassembler : Disassembler)
    (shown : Nat) : List SymbolInfo × Option Thrown :=
  match callTargets disassembler shown with
  | .error exception => ([], some exception)
  | .ok targets =>
      let functions := targets.map fun addr => {
        kind := .Function
        name := functionName addr disassembler.entryAddress
        addr := addr
        detail := hexUp addr.toNat 6 }
      let (strings, thrown) := scanSections unreadable space (sectionsOf disassembler)
      (functions ++ strings, thrown)

def collectSymbols (unreadable : UInt64 → Bool) (world : World TuiView) :
    List SymbolInfo × Option Thrown :=
  if world.view.real then
    match world.currentSpace, world.currentDisassembler with
    | some space, some disassembler =>
        symbolsOf unreadable space disassembler world.view.shown
    | _, _ => ([], none)
  else ([], none)

def architecture (world : World TuiView) : String :=
  world.currentDisassembler.elim "" fun disassembler => archName disassembler.arch

def exposeRows (ready : Nat) (note : String) (view : TuiView) : TuiView :=
  { view with
    real := true
    shown := ready
    banner := if note = "" then view.banner else "Decode stopped: " ++ note }

def stubNotice (world : World TuiView) : String :=
  "The decoder for " ++ architecture world ++
    " is a stub - showing raw .text bytes instead of real instructions."

def showNotice (note : String) (world : World TuiView) : World TuiView :=
  world.mapView fun view =>
    { view with banner := if note = "" then stubNotice world else note }

def showFallback (unreadable : UInt64 → Bool) (world : World TuiView) : World TuiView :=
  world.mapView fun view =>
    { view with real := false, fallback := (buildFallback unreadable world).1 }

def outcomeOf (thrown : Option Thrown) : Except Thrown Unit :=
  match thrown with
  | none => .ok ()
  | some exception => .error exception

/-- The rows and the banner, from the samples that a refresh has taken. -/
def showSampled (unreadable : UInt64 → Bool) (decoding : Bool) (ready : Nat) (note : String) :
    TuiProgram Unit :=
  if 0 < ready then .perform (.frontend .showRows) (World.mapView (exposeRows ready note))
  else if decoding then
    .perform (.frontend .showRows) (World.mapView fun view => { view with banner := "Decoding..." })
  else do
    .update (.frontend .buildFallback) (showFallback unreadable)
      fun world => outcomeOf (buildFallback unreadable world).2
    .perform (.frontend .showRows) (showNotice note)

def scanOnce (unreadable : UInt64 → Bool) (decoding : Bool) : TuiProgram Unit := do
  if decoding then pure ()
  else if ← .read (.frontend .testSymbols) (fun world : World TuiView =>
      world.view.symbolsGen == some world.session.decodeGeneration) then pure ()
  else
    .update (.frontend .collectSymbols)
      (fun world => world.mapView fun view =>
        { view with symbols := (collectSymbols unreadable world).1 })
      fun world => outcomeOf (collectSymbols unreadable world).2
    .perform (.frontend .setSymbolsGen) fun world => world.mapView fun view =>
      { view with symbolsGen := some world.session.decodeGeneration }

def clearRows (view : TuiView) : TuiView :=
  { view with real := false, shown := 0, fallback := [], symbols := [] }

def refresh (unreadable : UInt64 → Bool) : TuiProgram Unit := do
  throwIfFileChanged
  .perform (.frontend .clearBanner) (World.mapView fun view => { view with banner := "" })
  if ← .read .testLoaded World.loaded then
    -- `done`, read before anything else.
    let decoding ← isDecoding (.frontend .refreshTestsDone)
    let ready ← .read (.frontend .readReady) World.readyInstructions
    let note ← if decoding then pure "" else decodeNote
    showSampled unreadable decoding ready note
    scanOnce unreadable decoding
  else .perform (.frontend .clearRows) (World.mapView clearRows)

/-- `isDecoding() || refreshedGen_ != decodeGeneration()`. -/
def frameIsStale : TuiProgram Bool := do
  if ← isDecoding (.frontend .frameTestsDecoding) then pure true
  else .read (.frontend .frameTestsGeneration) fun world =>
    world.view.refreshedGen != world.session.decodeGeneration

/-- `AppView::OnRender`, as far as it touches the session; drawing follows. -/
def onRender (unreadable : UInt64 → Bool) : TuiProgram Unit := do
  if ← frameIsStale then
    let decoding ← isDecoding (.frontend .frameTestsDone)
    refresh unreadable
    if decoding then pure ()
    else .perform (.frontend .setRefreshedGen) fun world => world.mapView fun view =>
      { view with refreshedGen := world.session.decodeGeneration }
  else pure ()

/-- The constructor that `tui::start` calls with what the loader has returned. -/
def construct (path : String) (loading : Loading) (unreadable : UInt64 → Bool) :
    TuiProgram Bool :=
  match loading.load with
  | .error exception => .thrown exception
  | .ok (space, disassembler) =>
      match determineFiletype loading.repeatShrank space with
      | .error exception => .thrown exception
      | .ok (isElf, isPe) => do
          adopt onDecodeStarted space disassembler path
            (if isElf then "ELF" else if isPe then "PE" else "?")
          refresh unreadable
          pure true

inductive TuiCall where
  | construct (path : String) (loading : Loading) (unreadable : UInt64 → Bool)
  | openBinary (path : String) (loading : Loading)
  | onRender (unreadable : UInt64 → Bool)

def program : TuiCall → TuiProgram Bool
  | .construct path loading unreadable => construct path loading unreadable
  | .openBinary path loading => openBinary onDecodeStarted path loading
  | .onRender unreadable => do
      onRender unreadable
      pure false

/-- Nothing comes before the constructor. -/
def mayCall (history : List (TuiCall × Except Thrown Bool)) : TuiCall → Bool
  | .construct _ _ _ => history.isEmpty
  | .openBinary _ _ | .onRender _ => true

abbrev TuiSystem := System TuiCall (Statement TuiStatement) Thrown (World TuiView) Bool

abbrev TuiStep : TuiSystem → TuiSystem → Prop :=
  Step workersMove (fun history _ call => mayCall history call = true) program

end Voidwalk.TuiSession

import Voidwalk.FrontendRows

/-!
`gui::Session`, the view-model of the Qt panes, and the snapshots it hands out.
-/

namespace Voidwalk.GuiSession

open Voidwalk.Library.InterleavedThread
open Voidwalk.MappedFile
open Voidwalk.ChunkStorage
open Voidwalk.InstructionRendering
open Voidwalk.Disassembly
open Voidwalk.FileTypeDetection
open Voidwalk.AnalysisSession
open Voidwalk.FrontendRows

structure Snapshot where
  space : Option Nat := none
  disassembler : Option Nat := none
  rows : Nat := 0

/-- What `gui::Session` adds to its base, the snapshots that it has handed out, and
the poll timer of the window that owns it. -/
structure GuiView where
  decodedForReal : Bool := false
  shownRows : Nat := 0
  fallbackRows : List DisasmRow := []
  snapshots : List Snapshot := []
  decodeTimer : Bool := false

inductive GuiStatement where
  | readReady
  | clearRows
  | refreshTestsDecoding
  | buildFallback
  | snapshot
  | openTestsDecoding
  | tickTestsDecoding
  | refreshPanes
  | startTimer
  | stopTimer
  deriving DecidableEq

abbrev GuiProgram (α : Type) := Program GuiStatement GuiView α

def onDecodeStarted (view : GuiView) : GuiView :=
  { view with decodedForReal := false, shownRows := 0, fallbackRows := [] }

def exposeReady (world : World GuiView) : World GuiView :=
  if 0 < world.readyInstructions then
    world.mapView fun view =>
      { view with decodedForReal := true, shownRows := world.readyInstructions }
  else world

def clearRows (view : GuiView) : GuiView :=
  { view with decodedForReal := false, shownRows := 0, fallbackRows := [] }

def showFallback (unreadable : UInt64 → Bool) (world : World GuiView) : World GuiView :=
  world.mapView fun view =>
    { view with decodedForReal := false, fallbackRows := (buildFallback unreadable world).1 }

/-- Exposing rows touches nothing that another thread reads, so it is one statement with
the load of `readyCount`. -/
def refresh (unreadable : UInt64 → Bool) : GuiProgram Unit := do
  throwIfFileChanged
  if ← .read .testLoaded World.loaded then
    let ready ← .update (.frontend .readReady) exposeReady fun world =>
      .ok world.readyInstructions
    if 0 < ready then pure ()
    else if ← isDecoding (.frontend .refreshTestsDecoding) then pure ()
    else .update (.frontend .buildFallback) (showFallback unreadable) fun world =>
      match (buildFallback unreadable world).2 with
      | none => .ok ()
      | some exception => .error exception
  else .perform (.frontend .clearRows) (World.mapView clearRows)

def takeSnapshot (world : World GuiView) : Snapshot :=
  if world.loaded then
    { space := world.session.space
      disassembler := world.session.disassembler
      rows := if world.view.decodedForReal then world.view.shownRows else 0 }
  else {}

def snapshot : GuiProgram Unit :=
  .perform (.frontend .snapshot) fun world => world.mapView fun view =>
    { view with snapshots := takeSnapshot world :: view.snapshots }

inductive GuiCall where
  | openBinary (path : String) (loading : Loading)
  | refresh (unreadable : UInt64 → Bool)
  | snapshot
  | compact

/-- Each answers whether it has opened a binary. -/
def program : GuiCall → GuiProgram Bool
  | .openBinary path loading => openBinary onDecodeStarted path loading
  | .refresh unreadable => do
      refresh unreadable
      pure false
  | .snapshot => do
      snapshot
      pure false
  | .compact => do
      compact
      pure false

abbrev GuiSystem := System GuiCall (Statement GuiStatement) Thrown (World GuiView) Bool

abbrev GuiStep : GuiSystem → GuiSystem → Prop :=
  Step workersMove (fun _ _ _ => True) program

def rowCount (world : World GuiView) : Nat :=
  if world.loaded then
    if world.view.decodedForReal then world.view.shownRows else world.view.fallbackRows.length
  else 0

section Rows

variable {α : Type}

def readSnapshotRow (absent : α) (real : Disassembler → Nat → Except Thrown α)
    (world : World GuiView) (snapshot : Snapshot) (i : Nat) : Except Thrown α :=
  match snapshot.disassembler with
  | none => .ok absent
  | some pointer =>
      if snapshot.rows ≤ i then .ok absent
      else match world.disassemblers[pointer]? with
        | none => .error .outOfRange
        | some disassembler => real disassembler i

/-- The accessors of `Session`, on its own view. -/
def readRow (absent : α) (fallback : DisasmRow → α) (real : Disassembler → Nat → Except Thrown α)
    (world : World GuiView) : Nat → Except Thrown α :=
  FrontendRows.readRow absent fallback real world world.view.decodedForReal world.view.shownRows
    world.view.fallbackRows

def rowVaddr : World GuiView → Nat → Except Thrown UInt64 :=
  readRow 0 DisasmRow.vaddr addressAt

def rowBytes : World GuiView → Nat → Except Thrown String :=
  readRow "" DisasmRow.bytes (instructionWith trimmedMachineCode)

def rowText : World GuiView → Nat → Except Thrown String :=
  readRow "" DisasmRow.text (instructionWith fun row => formatDisasmText row.instructionText)

def rowFlow : World GuiView → Nat → Except Thrown Flow :=
  readRow .None (fun _ => .None) (instructionWith Instruction.flow)

def rowTarget : World GuiView → Nat → Except Thrown UInt64 :=
  readRow 0 (fun _ => 0) (instructionWith Instruction.target)

namespace Snapshot

def rowVaddr : World GuiView → Snapshot → Nat → Except Thrown UInt64 :=
  readSnapshotRow 0 addressAt

def rowText : World GuiView → Snapshot → Nat → Except Thrown String :=
  readSnapshotRow "" (instructionWith fun row => formatDisasmText row.instructionText)

def rowFlow : World GuiView → Snapshot → Nat → Except Thrown Flow :=
  readSnapshotRow .None (instructionWith Instruction.flow)

def rowTarget : World GuiView → Snapshot → Nat → Except Thrown UInt64 :=
  readSnapshotRow 0 (instructionWith Instruction.target)

end Snapshot

end Rows

end Voidwalk.GuiSession

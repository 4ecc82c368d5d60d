import Voidwalk.Library.InterleavedThread
import Voidwalk.FileTypeDetection

/-!
`voidwalk::Session`: the loaded binary and its decode worker. The UI thread's
operations are threads of atomic statements, the workers their environment. Shared
objects live in tables and pointers are indices into them.
-/

namespace Voidwalk.AnalysisSession

open Voidwalk.Library.InterleavedThread
open Voidwalk.MappedFile
open Voidwalk.Disassembly
open Voidwalk.FileTypeDetection

structure DecodeState where
  running : Bool := false
  note : String := ""
  fileChanged : Bool := false
  deriving DecidableEq

def isFileChanged : Thrown → Bool
  | .fileChanged _ => true
  | _ => false

/-- Where a worker stands around its call of `decode()`. -/
inductive Phase where
  | decoding
  /-- Has written the note of a `FileChanged`. -/
  | flagging
  | clearing
  | finished
  deriving DecidableEq

/-- A worker with the pointers it captured. `generation` is the session's when the
worker was started. -/
structure Worker where
  disassembler : Nat
  space : Nat
  state : Nat
  generation : Nat
  stopRequested : Bool
  point : Point
  phase : Phase

def Worker.advance (surroundings : Surroundings) (worker : Worker) (disassembler : Disassembler)
    (state : DecodeState) : Option (Worker × Disassembler × DecodeState) :=
  match worker.phase with
  | .decoding =>
      match worker.point with
      | .returned =>
          some ({ worker with phase := .finished }, disassembler, { state with running := false })
      -- Undefined behaviour, which no `catch` sees.
      | .thrown .outOfRange => none
      | .thrown exception => some
          ({ worker with phase := if isFileChanged exception then .flagging else .clearing },
            disassembler, { state with note := exception.what })
      | point =>
          (decodeStep surroundings worker.stopRequested disassembler point).map
            fun (later, next) => ({ worker with point := next }, later, state)
  | .flagging =>
      some ({ worker with phase := .clearing }, disassembler, { state with fileChanged := true })
  | .clearing =>
      some ({ worker with phase := .finished }, disassembler, { state with running := false })
  | .finished => none

/-- The fields of a session; what a frontend adds is the world's `view`. -/
structure Session where
  space : Option Nat := none
  disassembler : Option Nat := none
  filePath : String := ""
  format : String := ""
  status : String := ""
  decodeState : Option Nat := none
  decodeGeneration : Nat := 0
  decodeThread : Option Nat := none

structure World (View : Type) where
  spaces : List AddressSpace := []
  disassemblers : List Disassembler := []
  decodeStates : List DecodeState := []
  workers : List Worker := []
  session : Session := {}
  view : View

variable {F View : Type}

def workerStep (surroundings : Surroundings) (t : Nat) (world : World View) :
    Option (World View) := do
  let worker ← world.workers[t]?
  let disassembler ← world.disassemblers[worker.disassembler]?
  let state ← world.decodeStates[worker.state]?
  let (worker', disassembler', state') ← worker.advance surroundings disassembler state
  pure { world with
    workers := world.workers.set t worker'
    disassemblers := world.disassemblers.set worker.disassembler disassembler'
    decodeStates := world.decodeStates.set worker.state state' }

namespace World

def currentSpace (world : World View) : Option AddressSpace :=
  world.session.space.bind fun i => world.spaces[i]?

def currentDisassembler (world : World View) : Option Disassembler :=
  world.session.disassembler.bind fun i => world.disassemblers[i]?

def currentState (world : World View) : Option DecodeState :=
  world.session.decodeState.bind fun i => world.decodeStates[i]?

def loaded (world : World View) : Bool :=
  world.session.disassembler.isSome

def isDecoding (world : World View) : Bool :=
  world.currentState.any DecodeState.running

def decodeNote (world : World View) : String :=
  if world.isDecoding then "" else world.currentState.elim "" DecodeState.note

def fileChangedOutcome (world : World View) : Option Thrown :=
  if world.isDecoding then none
  else world.currentState.bind fun state =>
    if state.fileChanged then some (.fileChanged state.note) else none

def readyInstructions (world : World View) : Nat :=
  world.currentDisassembler.elim 0 Disassembler.readyCount

def setStatus (status : String) (world : World View) : World View :=
  { world with session := { world.session with status := status } }

/-- The four assignments of `adopt()`, which no other thread sees. -/
def install (space : AddressSpace) (disassembler : Disassembler) (path format : String)
    (world : World View) : World View :=
  { world with
    spaces := world.spaces ++ [space]
    disassemblers := world.disassemblers ++ [disassembler]
    session := { world.session with
      space := some world.spaces.length
      disassembler := some world.disassemblers.length
      filePath := path
      format := format } }

def requestStop (world : World View) : World View :=
  match world.session.decodeThread with
  | none => world
  | some t => { world with
      workers := world.workers.modify t fun worker => { worker with stopRequested := true } }

def joinable (world : World View) : Bool :=
  world.session.decodeThread.all fun t =>
    world.workers[t]?.all fun worker => worker.phase = .finished

def detach (world : World View) : World View :=
  { world with session := { world.session with decodeThread := none } }

def replaceState (world : World View) : World View :=
  { world with
    decodeStates := world.decodeStates ++ [{}]
    session := { world.session with decodeState := some world.decodeStates.length } }

def bumpGeneration (world : World View) : World View :=
  { world with
    session := { world.session with decodeGeneration := world.session.decodeGeneration + 1 } }

def mapView (change : View → View) (world : World View) : World View :=
  { world with view := change world.view }

def setRunning (world : World View) : World View :=
  match world.session.decodeState with
  | none => world
  | some i => { world with
      decodeStates := world.decodeStates.modify i fun state => { state with running := true } }

def startWorker (world : World View) : World View :=
  match world.session.disassembler, world.session.space, world.session.decodeState with
  | some disassembler, some space, some state => { world with
      workers := world.workers ++ [{
        disassembler := disassembler
        space := space
        state := state
        generation := world.session.decodeGeneration
        stopRequested := false
        point := .clear
        phase := .decoding }]
      session := { world.session with decodeThread := some world.workers.length } }
  | _, _, _ => world

def compactDisassembler (world : World View) : World View :=
  match world.session.disassembler with
  | none => world
  | some i => { world with
      disassemblers := world.disassemblers.modify i Disassembler.compact }

end World

/-- The statements of the UI thread; a frontend adds its own. -/
inductive Statement (F : Type) where
  | setStatus
  | install
  | testLoaded
  | requestStop
  | join
  | replaceState
  | bumpGeneration
  | decodeStarted
  | setRunning
  | startWorker
  | testDecoding
  | readState
  | compact
  | frontend (statement : F)
  deriving DecidableEq

abbrev Program (F View α : Type) := Thread (Statement F) Thrown (World View) α

def isDecoding (label : Statement F) : Program F View Bool :=
  .read label World.isDecoding

/-- The flag and the note are read behind an `isDecoding()` that was false. -/
def throwIfFileChanged : Program F View Unit := do
  if ← isDecoding .testDecoding then pure ()
  else .update .readState id fun world =>
    match world.currentState with
    | none => .ok ()
    | some state => if state.fileChanged then .error (.fileChanged state.note) else .ok ()

def decodeNote : Program F View String := do
  if ← isDecoding .testDecoding then pure ""
  else .read .readState fun world => world.currentState.elim "" DecodeState.note

def compact : Program F View Unit := do
  if ← .read .testLoaded World.loaded then
    if ← isDecoding .testDecoding then pure ()
    else .perform .compact World.compactDisassembler
  else pure ()

/-- Assigning an empty `jthread` requests the old worker's stop and joins it. -/
def runDecode (onDecodeStarted : View → View) : Program F View Unit := do
  if ← .read .testLoaded World.loaded then
    .perform .requestStop World.requestStop
    .await .join World.joinable World.detach
    .perform .replaceState World.replaceState
    .perform .bumpGeneration World.bumpGeneration
    .perform .decodeStarted (World.mapView onDecodeStarted)
    .perform .setRunning World.setRunning
    .perform .startWorker World.startWorker
  else pure ()

def adopt (onDecodeStarted : View → View) (space : AddressSpace) (disassembler : Disassembler)
    (path format : String) : Program F View Unit := do
  .perform .install (World.install space disassembler path format)
  runDecode onDecodeStarted

/-- `Session::open`. Loading is local to the call; the detection is repeated outside
the `try`. -/
def openBinary (onDecodeStarted : View → View) (path : String) (loading : Loading) :
    Program F View Bool :=
  match loading.load with
  | .error .outOfRange => .thrown .outOfRange
  | .error exception => do
      .perform .setStatus (World.setStatus ("Open failed: " ++ exception.what))
      pure false
  | .ok (newSpace, newDisassembler) =>
      match determineFiletype loading.repeatShrank newSpace with
      | .error exception => .thrown exception
      | .ok (isElf, _) => do
          adopt onDecodeStarted newSpace newDisassembler path (if isElf then "ELF" else "PE")
          .perform .setStatus (World.setStatus ("Loaded " ++ path))
          pure true

/-- `AddressSpace::read_u8` where some pages may be gone. -/
def readU8 (unreadable : UInt64 → Bool) (space : AddressSpace) (offset : UInt64) :
    Except Thrown UInt8 :=
  if unreadable offset && offset < space.size then .error fileChanged else space.readU8 offset

def atMost (count limit : UInt64) : UInt64 :=
  if count < limit then count else limit

/-- `Session::bytes`, clamped at the end of the file. -/
def bytes (unreadable : UInt64 → Bool) (space : AddressSpace) (offset count : UInt64) :
    Except Thrown (List UInt8) :=
  if space.size ≤ offset then .ok []
  else (List.range (atMost (space.size - offset) count).toNat).mapM fun i =>
    readU8 unreadable space (offset + .ofNat i)

def workersMove (_ : Option (Statement F)) (before after : World View) : Prop :=
  ∃ surroundings t, workerStep surroundings t before = some after

end Voidwalk.AnalysisSession

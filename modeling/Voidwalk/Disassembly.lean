import Mathlib.Data.List.Basic
import Mathlib.Logic.Relation
import Voidwalk.InstructionDecoding

/-!
`Disassembler` and its sweep `decode()`, one atomic step of the worker at a time.
Of the allocations of a run the two reservations may fail: only they follow sizes
that the file claims.
-/

namespace Voidwalk.Disassembly

open Voidwalk.MappedFile
open Voidwalk.ChunkStorage
open Voidwalk.InstructionRendering
open Voidwalk.InstructionDecoding

structure Header where
  vaddr : UInt64 := 0
  offset : UInt64 := 0
  size : UInt64 := 0
  deriving DecidableEq, Repr

structure Sections where
  text : List Header := []
  data : List Header := []
  readOnly : List Header := []
  bss : List Header := []
  deriving DecidableEq

inductive Arch where
  | unknown
  | x86
  | x86_64
  | arm32
  | aArch64
  deriving DecidableEq, Repr

def archName : Arch → String
  | .x86 => "x86"
  | .arm32 => "ARM32"
  | .x86_64 => "x86_64"
  | .aArch64 => "AArch64"
  | .unknown => "Unknown"

inductive Decoder where
  | x86Decoder (is64Bit : Bool)
  | arm32Decoder
  | aArch64Decoder
  deriving DecidableEq

/-- `Arch::Unknown` has no decoder: a null pointer. -/
def makeDecoder : Arch → Option Decoder
  | .x86 => some (.x86Decoder false)
  | .x86_64 => some (.x86Decoder true)
  | .arm32 => some .arm32Decoder
  | .aArch64 => some .aArch64Decoder
  | .unknown => none

/-- What the surroundings decide about one step of a sweep. -/
structure Surroundings where
  fileShrank : Bool := false
  outOfMemory : Bool := false

/-- `AddressSpace::readType` on a page that the file no longer has. -/
def fileChanged : Thrown :=
  .fileChanged "[voidwalk] : file changed on disk.\n"

/-- The decoders' `decodeLine`. A decoder that reads inside the file may find it
shrunk. -/
def Decoder.decodeLine (surroundings : Surroundings) (contents : AddressSpace)
    (fileOffset vaddr : UInt64) (store : InstructionStore) :
    Decoder → Except Thrown (UInt64 × InstructionStore)
  | .x86Decoder is64Bit =>
      if surroundings.fileShrank && fileOffset < contents.size then .error fileChanged
      else InstructionDecoding.decodeLine is64Bit contents fileOffset vaddr store
  | .arm32Decoder => .error (.runtimeError "Not implemented yet.")
  | .aArch64Decoder => .error (.runtimeError "Not implemented yet.")

/-- A `Disassembler`; `decoder` is set together with `arch`. An output stream is
what it has received. -/
structure Disassembler where
  contents : AddressSpace
  arch : Arch
  commonSections : Sections
  entryAddress : UInt64
  outputStreams : List String
  nextEmitIndex : Nat
  decodedInstructions : InstructionStore
  instructionAddresses : ChunkStore UInt64 8192
  readyCount : Nat

namespace Disassembler

def construct (contents : AddressSpace) (arch : Arch) (commonSections : Sections)
    (entryAddress : UInt64) (outputStreams : List String) : Disassembler where
  contents := contents
  arch := arch
  commonSections := commonSections
  entryAddress := entryAddress
  outputStreams := outputStreams
  nextEmitIndex := 0
  decodedInstructions := .empty
  instructionAddresses := .empty
  readyCount := 0

def decoder (disassembler : Disassembler) : Option Decoder :=
  makeDecoder disassembler.arch

def decodeLine (disassembler : Disassembler) (surroundings : Surroundings)
    (fileOffset vaddr : UInt64) : Except Thrown (UInt64 × InstructionStore) :=
  match disassembler.decoder with
  | none => .error (.runtimeError "Invalid architecture. Cannot parse.")
  | some decoder => decoder.decodeLine surroundings disassembler.contents fileOffset vaddr
      disassembler.decodedInstructions

/-- `std::hex << std::setfill('0') << std::right << std::setw(8)`. -/
def hexPadded (address : UInt64) : String :=
  let digits := Nat.toDigits 16 address.toNat
  String.ofList (List.replicate (8 - digits.length) '0' ++ digits)

/-- `std::setfill(' ') << std::left << std::setw(24)`. -/
def padRight (text : String) : String :=
  text ++ String.ofList (List.replicate (24 - text.length) ' ')

def emittedLine (address : UInt64) (instruction : Instruction) (showVaddr : Bool) : String :=
  (if showVaddr then hexPadded address ++ ":  " else "") ++
    padRight instruction.machineCode ++ " " ++ instruction.instructionText ++ "\n"

/-- Prints the row at `nextEmitIndex`. Without a stream nothing is indexed. -/
def emitDecodedLine (disassembler : Disassembler) (showVaddr : Bool) :
    Except Thrown Disassembler := do
  let outputStreams ← disassembler.outputStreams.mapM fun stream => do
    let address ← disassembler.instructionAddresses.element disassembler.nextEmitIndex
    let instruction ← disassembler.decodedInstructions.element disassembler.nextEmitIndex
    pure (stream ++ emittedLine address instruction showVaddr)
  pure { disassembler with
    outputStreams := outputStreams
    nextEmitIndex := disassembler.nextEmitIndex + 1 }

def compact (disassembler : Disassembler) : Disassembler :=
  { disassembler with
    decodedInstructions := disassembler.decodedInstructions.shrinkToFit
    instructionAddresses := disassembler.instructionAddresses.shrinkToFit }

end Disassembler

def totalTextSize (text : List Header) : UInt64 :=
  text.foldl (fun total textSection => total + textSection.size) 0

/-- The variables of the section loop's body, and the sections still to come. -/
structure Line where
  later : List Header
  sectionEnd : UInt64
  currentOffset : UInt64
  vaddr : UInt64
  deriving DecidableEq

/-- Where `decode()` stands: the statement it executes next. -/
inductive Point where
  | clear
  | reserveInstructions (totalTextSize : UInt64)
  | reserveAddresses (totalTextSize : UInt64)
  | resetReady
  | nextSection (sections : List Header)
  | nextLine (line : Line)
  | decodeLine (line : Line)
  | catchUp (line : Line) (nextOffset : UInt64)
  | publish (line : Line) (nextOffset : UInt64)
  | advance (line : Line) (nextOffset : UInt64)
  | returned
  | thrown (exception : Thrown)
  deriving DecidableEq

def decodeStep (surroundings : Surroundings) (stopRequested : Bool)
    (disassembler : Disassembler) : Point → Option (Disassembler × Point)
  | .clear => some
      ({ disassembler with
          decodedInstructions := disassembler.decodedInstructions.clear
          instructionAddresses := disassembler.instructionAddresses.clear },
        .reserveInstructions (totalTextSize disassembler.commonSections.text))
  | .reserveInstructions total =>
      if surroundings.outOfMemory then some (disassembler, .thrown .badAlloc)
      else some
        ({ disassembler with
            decodedInstructions := disassembler.decodedInstructions.reserveFor total.toNat },
          .reserveAddresses total)
  | .reserveAddresses total =>
      if surroundings.outOfMemory then some (disassembler, .thrown .badAlloc)
      else some
        ({ disassembler with
            instructionAddresses := disassembler.instructionAddresses.reserveFor total.toNat },
          .resetReady)
  | .resetReady => some
      ({ disassembler with readyCount := 0 }, .nextSection disassembler.commonSections.text)
  | .nextSection [] => some (disassembler, .returned)
  | .nextSection (textSection :: later) => some
      (disassembler, .nextLine
        { later := later
          sectionEnd := textSection.offset + textSection.size
          currentOffset := textSection.offset
          vaddr := textSection.vaddr })
  | .nextLine line =>
      if line.currentOffset < line.sectionEnd then
        -- Leaves the section, not the sweep: the next section's first test leaves it too.
        if stopRequested then some (disassembler, .nextSection line.later)
        else some (disassembler, .decodeLine line)
      else some (disassembler, .nextSection line.later)
  | .decodeLine line =>
      match disassembler.decodeLine surroundings line.currentOffset line.vaddr with
      | .error exception => some (disassembler, .thrown exception)
      | .ok (nextOffset, decodedInstructions) => some
          ({ disassembler with decodedInstructions := decodedInstructions },
            .catchUp line nextOffset)
  | .catchUp line nextOffset =>
      if disassembler.instructionAddresses.size < disassembler.decodedInstructions.size then some
        ({ disassembler with
            instructionAddresses := disassembler.instructionAddresses.pushBack line.vaddr },
          .catchUp line nextOffset)
      else some (disassembler, .publish line nextOffset)
  | .publish line nextOffset => some
      ({ disassembler with readyCount := disassembler.decodedInstructions.size },
        .advance line nextOffset)
  | .advance line nextOffset =>
      if nextOffset ≤ line.currentOffset then some (disassembler, .nextSection line.later)
      else match disassembler.emitDecodedLine true with
        | .error exception => some (disassembler, .thrown exception)
        | .ok emitted => some
            (emitted, .nextLine { line with
              vaddr := line.vaddr + (nextOffset - line.currentOffset)
              currentOffset := nextOffset })
  | .returned => none
  | .thrown _ => none

structure Sweep where
  disassembler : Disassembler
  point : Point
  stopRequested : Bool

def Sweep.start (disassembler : Disassembler) : Sweep where
  disassembler := disassembler
  point := .clear
  stopRequested := false

def Sweep.Ended (sweep : Sweep) : Prop :=
  sweep.point = .returned ∨ ∃ exception, sweep.point = .thrown exception

/-- The worker executes a statement, or another thread requests the stop. -/
inductive SweepStep : Sweep → Sweep → Prop where
  | work {sweep : Sweep} {disassembler : Disassembler} {point : Point}
      (surroundings : Surroundings)
      (h : decodeStep surroundings sweep.stopRequested sweep.disassembler sweep.point =
        some (disassembler, point)) :
      SweepStep sweep
        { disassembler := disassembler, point := point, stopRequested := sweep.stopRequested }
  | requestStop {sweep : Sweep} : SweepStep sweep { sweep with stopRequested := true }

def Sweep.proceed : Nat → Sweep → Sweep
  | 0, sweep => sweep
  | n + 1, sweep =>
      match decodeStep {} sweep.stopRequested sweep.disassembler sweep.point with
      | none => sweep
      | some (disassembler, point) => Sweep.proceed n
          { disassembler := disassembler, point := point, stopRequested := sweep.stopRequested }

theorem Sweep.proceed_run (n : Nat) (sweep : Sweep) :
    Relation.ReflTransGen SweepStep sweep (sweep.proceed n) := by
  induction n generalizing sweep with
  | zero => exact .refl
  | succ n ih =>
      rw [Sweep.proceed]
      split
      · exact .refl
      · rename_i hstep
        exact .head (.work {} hstep) (ih _)

end Voidwalk.Disassembly

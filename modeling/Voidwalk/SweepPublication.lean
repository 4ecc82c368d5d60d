import Mathlib.Data.List.Pairwise
import Mathlib.Logic.Function.Basic
import Voidwalk.SweepTiling

/-!
The sweep and its lock-free readers. A reader loads `readyCount` and indexes either
store below a count it has loaded; its steps interleave with the worker's in any
order.
-/

namespace Voidwalk.SweepPublication

open Voidwalk.Library
open Voidwalk.MappedFile
open Voidwalk.ChunkStorage
open Voidwalk.InstructionRendering
open Voidwalk.Disassembly
open Voidwalk.SectionListing
open Voidwalk.SweepRefinement
open Voidwalk.SweepTiling

structure Reader where
  loads : List Nat := []
  instructions : List (Nat × Except Thrown Instruction) := []
  addresses : List (Nat × Except Thrown UInt64) := []

structure System (ι : Type) where
  sweep : Sweep
  readers : ι → Reader

variable {ι : Type}

def System.start (disassembler : Disassembler) : System ι where
  sweep := .start disassembler
  readers := fun _ => {}

section Steps

variable [DecidableEq ι]

inductive SystemStep : System ι → System ι → Prop where
  | write {system : System ι} {later : Sweep} (h : SweepStep system.sweep later) :
      SystemStep system { system with sweep := later }
  /-- `readyInstructions()`. -/
  | load {system : System ι} (reader : ι) :
      SystemStep system { system with
        readers := Function.update system.readers reader
          { system.readers reader with
            loads := system.sweep.disassembler.readyCount :: (system.readers reader).loads } }
  /-- `getDecodedInstructions()[i]`. -/
  | readInstruction {system : System ι} (reader : ι) (i : Nat)
      (h : ∃ count ∈ (system.readers reader).loads, i < count) :
      SystemStep system { system with
        readers := Function.update system.readers reader
          { system.readers reader with
            instructions := (i, system.sweep.disassembler.decodedInstructions.index i) ::
              (system.readers reader).instructions } }
  /-- `getInstructionAddresses()[i]`. -/
  | readAddress {system : System ι} (reader : ι) (i : Nat)
      (h : ∃ count ∈ (system.readers reader).loads, i < count) :
      SystemStep system { system with
        readers := Function.update system.readers reader
          { system.readers reader with
            addresses := (i, system.sweep.disassembler.instructionAddresses.index i) ::
              (system.readers reader).addresses } }

end Steps

structure HoldsRow (disassembler : Disassembler) (i : Nat) (row : Row) : Prop where
  instruction : disassembler.decodedInstructions.index i = .ok row.instruction
  address : disassembler.instructionAddresses.index i = .ok row.address

/-- Below the published count both stores hold the listing. -/
theorem holdsRow_of_published {disassembler : Disassembler} {stopRequested : Bool} {point : Point}
    (h : Sound disassembler stopRequested point) {i : Nat} (hi : i < disassembler.readyCount) :
    ∃ row, (listed disassembler)[i]? = some row ∧ HoldsRow disassembler i row := by
  obtain ⟨hready, haddresses⟩ := h.counts
  have haddress : i < disassembler.instructionAddresses.size := hi.trans_le hready
  have hinstruction : i < disassembler.decodedInstructions.size := haddress.trans_le haddresses
  have hrow : i < (listed disassembler).length := hinstruction.trans_le h.size_le
  refine ⟨_, List.getElem?_eq_getElem hrow, ?_, ?_⟩
  · rw [ChunkStore.index_eq_ok_iff _ hinstruction, h.instructions, List.getElem?_map,
      List.getElem?_take_of_lt hinstruction, List.getElem?_eq_getElem hrow]
    rfl
  · rw [ChunkStore.index_eq_ok_iff _ haddress, h.addresses, List.getElem?_map,
      List.getElem?_take_of_lt haddress, List.getElem?_eq_getElem hrow]
    rfl

/-- What a reader may have seen of a listing while `ready` rows are published. -/
structure SeesListing (rows : List Row) (ready : Nat) (reader : Reader) : Prop where
  monotone : reader.loads.Pairwise fun newer older => older ≤ newer
  loads_le : ∀ count ∈ reader.loads, count ≤ ready
  instructions : ∀ read ∈ reader.instructions,
    ∃ row, rows[read.1]? = some row ∧ read.2 = .ok row.instruction
  addresses : ∀ read ∈ reader.addresses,
    ∃ row, rows[read.1]? = some row ∧ read.2 = .ok row.address

theorem SeesListing.mono {rows : List Row} {ready later : Nat} {reader : Reader}
    (h : SeesListing rows ready reader) (hle : ready ≤ later) : SeesListing rows later reader :=
  ⟨h.monotone, fun count hmem => (h.loads_le count hmem).trans hle, h.instructions, h.addresses⟩

/-- The sweep is sound and every reader has seen its listing. -/
structure Consistent (rows : List Row) (system : System ι) : Prop where
  sound : Sound system.sweep.disassembler system.sweep.stopRequested system.sweep.point
  listed : listed system.sweep.disassembler = rows
  readers : ∀ reader,
    SeesListing rows system.sweep.disassembler.readyCount (system.readers reader)

section Runs

variable [DecidableEq ι] {rows : List Row} {system later : System ι}

theorem Consistent.update (h : Consistent rows system) (reader : ι) {after : Reader}
    (hafter : SeesListing rows system.sweep.disassembler.readyCount after) :
    Consistent rows { system with readers := Function.update system.readers reader after } := by
  refine ⟨h.sound, h.listed, fun other => ?_⟩
  change SeesListing rows _ (Function.update system.readers reader after other)
  by_cases hother : other = reader
  · subst hother
    rw [Function.update_self]
    exact hafter
  · rw [Function.update_of_ne hother]
    exact h.readers other

omit [DecidableEq ι] in
theorem Consistent.holdsRow (h : Consistent rows system) {reader : ι} {i : Nat}
    (hi : ∃ count ∈ (system.readers reader).loads, i < count) :
    ∃ row, rows[i]? = some row ∧ HoldsRow system.sweep.disassembler i row := by
  obtain ⟨count, hmem, hlt⟩ := hi
  have hready := (h.readers reader).loads_le count hmem
  rw [← h.listed]
  exact holdsRow_of_published h.sound (hlt.trans_le hready)

theorem Consistent.step (h : Consistent rows system) (hstep : SystemStep system later) :
    Consistent rows later ∧
      system.sweep.disassembler.readyCount ≤ later.sweep.disassembler.readyCount := by
  cases hstep with
  | write hsweep =>
      obtain ⟨hsound, hgrows⟩ := sound_sweepStep h.sound hsweep
      exact ⟨⟨hsound, hgrows.listed_eq.trans h.listed,
        fun reader => (h.readers reader).mono hgrows.ready_le⟩, hgrows.ready_le⟩
  | load reader =>
      have hseen := h.readers reader
      refine ⟨h.update reader ⟨?_, ?_, hseen.instructions, hseen.addresses⟩, Nat.le_refl _⟩
      · exact List.pairwise_cons.mpr ⟨hseen.loads_le, hseen.monotone⟩
      · exact List.forall_mem_cons.mpr ⟨Nat.le_refl _, hseen.loads_le⟩
  | readInstruction reader i hi =>
      have hseen := h.readers reader
      obtain ⟨row, hrow, hholds⟩ := h.holdsRow hi
      refine ⟨h.update reader ⟨hseen.monotone, hseen.loads_le, ?_, hseen.addresses⟩,
        Nat.le_refl _⟩
      exact List.forall_mem_cons.mpr ⟨⟨row, hrow, hholds.instruction⟩, hseen.instructions⟩
  | readAddress reader i hi =>
      have hseen := h.readers reader
      obtain ⟨row, hrow, hholds⟩ := h.holdsRow hi
      refine ⟨h.update reader ⟨hseen.monotone, hseen.loads_le, hseen.instructions, ?_⟩,
        Nat.le_refl _⟩
      exact List.forall_mem_cons.mpr ⟨⟨row, hrow, hholds.address⟩, hseen.addresses⟩

theorem Consistent.run (h : Consistent rows system)
    (hrun : Relation.ReflTransGen SystemStep system later) :
    Consistent rows later ∧
      system.sweep.disassembler.readyCount ≤ later.sweep.disassembler.readyCount :=
  Runs.related (I := Consistent rows)
    (R := fun before after =>
      before.sweep.disassembler.readyCount ≤ after.sweep.disassembler.readyCount)
    (fun _ => Nat.le_refl _) (fun _ _ _ hle hle' => hle.trans hle')
    (fun _ _ hconsistent hstep => hconsistent.step hstep) hrun h

/-- The loaded counts never decrease, a row below a loaded count is in both stores
from then on, and every read of an index gives its row of the one listing. -/
theorem publication_sound (contents : AddressSpace) (arch : Arch) (commonSections : Sections)
    (entryAddress : UInt64) (outputStreams : List String) {system later : System ι}
    (hrun : Relation.ReflTransGen SystemStep
      (.start (.construct contents arch commonSections entryAddress outputStreams)) system)
    (hlater : Relation.ReflTransGen SystemStep system later) :
    (∀ reader, (later.readers reader).loads.Pairwise fun newer older => older ≤ newer) ∧
    (∀ reader, ∀ count ∈ (system.readers reader).loads, ∀ i < count,
      ∃ row, (listing contents arch commonSections.text)[i]? = some row ∧
        HoldsRow later.sweep.disassembler i row) ∧
    (∀ reader, ∀ read ∈ (later.readers reader).instructions,
      ∃ row, (listing contents arch commonSections.text)[read.1]? = some row ∧
        read.2 = .ok row.instruction) ∧
    ∀ reader, ∀ read ∈ (later.readers reader).addresses,
      ∃ row, (listing contents arch commonSections.text)[read.1]? = some row ∧
        read.2 = .ok row.address := by
  have hstart : Consistent (ι := ι) (listing contents arch commonSections.text)
      (.start (.construct contents arch commonSections entryAddress outputStreams)) :=
    ⟨sound_construct contents arch commonSections entryAddress outputStreams false, rfl,
      fun _ => ⟨.nil, nofun, nofun, nofun⟩⟩
  obtain ⟨hsystem, -⟩ := hstart.run hrun
  obtain ⟨hconsistent, hgrown⟩ := hsystem.run hlater
  refine ⟨fun reader => (hconsistent.readers reader).monotone, ?_,
    fun reader => (hconsistent.readers reader).instructions,
    fun reader => (hconsistent.readers reader).addresses⟩
  intro reader count hmem i hi
  have hready := ((hsystem.readers reader).loads_le count hmem).trans hgrown
  rw [← hconsistent.listed]
  exact holdsRow_of_published hconsistent.sound (hi.trans_le hready)

theorem writes_run {sweep later : Sweep} (readers : ι → Reader)
    (hrun : Relation.ReflTransGen SweepStep sweep later) :
    Relation.ReflTransGen SystemStep { sweep := sweep, readers := readers }
      { sweep := later, readers := readers } := by
  induction hrun with
  | refl => exact .refl
  | tail _ hstep ih => exact ih.tail (.write hstep)

end Runs

/-- A count that is loaded within the second section stands for rows of both. -/
theorem publication_sound_twoSections : ∃ first last,
    (listing twoSections.contents twoSections.arch twoSections.commonSections.text)[0]? =
      some first ∧
    (listing twoSections.contents twoSections.arch twoSections.commonSections.text)[2]? =
      some last ∧
    HoldsRow (((Sweep.start twoSections).proceed 24).proceed 9).disassembler 0 first ∧
    HoldsRow (((Sweep.start twoSections).proceed 24).proceed 9).disassembler 2 last := by
  have hready : ((Sweep.start twoSections).proceed 24).disassembler.readyCount = 3 := by
    decide +kernel
  have hwritten := writes_run (fun _ : Unit => {}) (Sweep.proceed_run 24 (.start twoSections))
  generalize (Sweep.start twoSections).proceed 24 = published at hready hwritten
  have hloaded := hwritten.tail (.load ())
  have hrest := writes_run (Function.update (fun _ : Unit => {}) ()
    { loads := [published.disassembler.readyCount] }) (Sweep.proceed_run 9 published)
  obtain ⟨-, hrows, -⟩ := publication_sound _ _ _ _ _ hloaded hrest
  have hloads := hrows () 3 (by simp [hready])
  obtain ⟨first, hfirst, hholds⟩ := hloads 0 (by decide)
  obtain ⟨last, hlast, hholds'⟩ := hloads 2 (by decide)
  exact ⟨first, last, hfirst, hlast, hholds, hholds'⟩

end Voidwalk.SweepPublication

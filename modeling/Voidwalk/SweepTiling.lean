import Voidwalk.SweepRefinement

/-!
What a call of `decode()` leaves: one run of rows a section, in table order, each
tiling its section from the first byte on, and nothing behind a stop.
-/

namespace Voidwalk.SweepTiling

open Voidwalk.Library
open Voidwalk.MappedFile
open Voidwalk.ChunkStorage
open Voidwalk.InstructionRendering
open Voidwalk.Disassembly
open Voidwalk.SectionListing
open Voidwalk.SweepRefinement

theorem take_listing_tilesFrom (contents : AddressSpace) (arch : Arch) (text : List Header)
    (count : Nat) :
    ∃ runs, List.Forall₂ (fun header => TilesFrom contents header 0) text runs ∧
      (listing contents arch text).take count = runs.flatten := by
  induction text generalizing count with
  | nil => exact ⟨[], .nil, by simp [listing]⟩
  | cons textSection text ih =>
      have htiles := (sectionRows_tilesFrom contents arch textSection).take count
      obtain ⟨runs, hruns, hflatten⟩ :=
        ih (count - (sectionRows contents arch textSection).length)
      refine ⟨(sectionRows contents arch textSection).take count :: runs, .cons htiles hruns, ?_⟩
      rw [listing, List.flatMap_cons, List.take_append, List.flatten_cons, ← hflatten]
      rfl

theorem take_listing (contents : AddressSpace) (arch : Arch) (text : List Header) (count : Nat) :
    ∃ runs, List.Forall₂ (Tiles contents) text runs ∧
      (listing contents arch text).take count = runs.flatten := by
  obtain ⟨runs, hruns, hflatten⟩ := take_listing_tilesFrom contents arch text count
  exact ⟨runs, hruns.imp fun _ _ htiles => htiles.tiles, hflatten⟩

section Stop

variable {surroundings : Surroundings} {disassembler later : Disassembler} {point : Point}

theorem stopped_step {line : Line} :
    decodeStep surroundings true disassembler point ≠ some (later, .decodeLine line) := by
  intro hstep
  cases point with
  | nextSection sections => cases sections <;> simp [decodeStep] at hstep
  | reserveInstructions | reserveAddresses | nextLine | catchUp =>
      simp only [decodeStep, if_true] at hstep
      split_ifs at hstep <;> simp at hstep
  | decodeLine | advance =>
      simp only [decodeStep] at hstep
      repeat' split at hstep
      all_goals simp at hstep
  | _ => simp [decodeStep] at hstep

/-- Once the stop is requested, only the line being decoded can still give a row. -/
theorem stopped_run {sweep later : Sweep}
    (h : Sound sweep.disassembler sweep.stopRequested sweep.point)
    (hstop : sweep.stopRequested = true) (hpoint : ∀ line, sweep.point ≠ .decodeLine line)
    (hrun : Relation.ReflTransGen SweepStep sweep later) :
    later.disassembler.decodedInstructions.toList =
      sweep.disassembler.decodedInstructions.toList := by
  refine (Runs.preserved (I := fun moment =>
    Sound moment.disassembler moment.stopRequested moment.point ∧
      (moment.stopRequested = true ∧ ∀ line, moment.point ≠ .decodeLine line) ∧
      moment.disassembler.decodedInstructions.toList =
        sweep.disassembler.decodedInstructions.toList) ?_ hrun ⟨h, ⟨hstop, hpoint⟩, rfl⟩).2.2
  rintro moment after ⟨hsound, ⟨hstop', hpoint'⟩, hsame⟩ hstep
  refine ⟨(sound_sweepStep hsound hstep).1, ?_⟩
  cases hstep with
  | requestStop => exact ⟨⟨rfl, hpoint'⟩, hsame⟩
  | work surroundings hstep =>
      have hlist := instructions_step hsound hpoint' hstep
      rw [hstop'] at hstep
      refine ⟨⟨hstop', ?_⟩, hlist.trans hsame⟩
      rintro line rfl
      exact stopped_step hstep

end Stop

/-- The rows of a finished call tile the sections, its stores and its count agree,
and no row follows the stop. -/
theorem decode_tiles (contents : AddressSpace) (arch : Arch) (commonSections : Sections)
    (entryAddress : UInt64) (outputStreams : List String) {sweep : Sweep}
    (hrun : Relation.ReflTransGen SweepStep
      (.start (.construct contents arch commonSections entryAddress outputStreams)) sweep)
    (hended : sweep.Ended) :
    (∃ runs : List (List Row), List.Forall₂ (Tiles contents) commonSections.text runs ∧
      sweep.disassembler.instructionAddresses.toList = runs.flatten.map Row.address ∧
      sweep.disassembler.decodedInstructions.toList = runs.flatten.map Row.instruction ∧
      sweep.disassembler.readyCount = runs.flatten.length) ∧
    ∀ moment, Relation.ReflTransGen SweepStep
        (.start (.construct contents arch commonSections entryAddress outputStreams)) moment →
      Relation.ReflTransGen SweepStep moment sweep →
      moment.stopRequested = true → (∀ line, moment.point ≠ .decodeLine line) →
      sweep.disassembler.decodedInstructions.toList =
        moment.disassembler.decodedInstructions.toList := by
  have hstart := sound_construct contents arch commonSections entryAddress outputStreams false
  obtain ⟨hsound, hgrows⟩ := sound_run hstart hrun
  have hlevel : Level sweep.disassembler := by
    rcases hended with hpoint | ⟨exception, hpoint⟩
    · exact (hpoint ▸ hsound.reached : Reached _ _ .returned).1
    · exact (hpoint ▸ hsound.reached : Reached _ _ (.thrown exception)).1
  constructor
  · obtain ⟨runs, hruns, hflatten⟩ := take_listing contents arch commonSections.text
      sweep.disassembler.decodedInstructions.size
    have hlisted : listed sweep.disassembler = listing contents arch commonSections.text :=
      hgrows.listed_eq
    refine ⟨runs, hruns, ?_, ?_, ?_⟩
    · rw [hsound.addresses, hlevel.addresses, hlisted, hflatten]
    · rw [hsound.instructions, hlisted, hflatten]
    · rw [← hflatten, ← hlisted, List.length_take, Nat.min_eq_left hsound.size_le, hlevel.ready]
  · intro moment hbefore hafter hstop hpoint
    exact stopped_run (sound_run hstart hbefore).1 hstop hpoint hafter

theorem length_twoSections : [(0x90 : UInt8), 0x6A, 0x05, 0xCC, 0x90, 0xC3].length < 2 ^ 64 := by
  decide

/-- NOP and PUSH in one section, NOP and RET in another, and a byte between them. -/
def twoSections : Disassembler :=
  .construct ⟨[0x90, 0x6A, 0x05, 0xCC, 0x90, 0xC3], length_twoSections⟩ .x86_64
    { text := [⟨0x1000, 0, 3⟩, ⟨0x2000, 4, 2⟩] } 0x1000 []

/-- The call that is stopped while it writes its third row. -/
def stopped : Sweep :=
  { (Sweep.start twoSections).proceed 21 with stopRequested := true }

theorem stopped_reached : Relation.ReflTransGen SweepStep (.start twoSections) stopped :=
  (Sweep.proceed_run 21 (.start twoSections)).tail .requestStop

/-- A whole call lists four rows, the stopped one three. -/
theorem decode_tiles_twoSections :
    (∃ runs : List (List Row),
      List.Forall₂ (Tiles twoSections.contents) twoSections.commonSections.text runs ∧
      [0x1000, 0x1001, 0x2000, 0x2001] = runs.flatten.map Row.address ∧
      ((Sweep.start twoSections).proceed 33).disassembler.decodedInstructions.toList =
        runs.flatten.map Row.instruction) ∧
    (stopped.proceed 12).disassembler.decodedInstructions.size = 3 := by
  have haddresses :
      ((Sweep.start twoSections).proceed 33).disassembler.instructionAddresses.toList =
        [0x1000, 0x1001, 0x2000, 0x2001] := by decide +kernel
  have hwhole : ((Sweep.start twoSections).proceed 33).Ended := Or.inl (by decide +kernel)
  have hended : (stopped.proceed 12).Ended := Or.inl (by decide +kernel)
  have hpoint : stopped.point = .catchUp ⟨[], 6, 4, 0x2000⟩ 5 := by decide +kernel
  have hsize : stopped.disassembler.decodedInstructions.size = 3 := by decide +kernel
  obtain ⟨⟨runs, hruns, hlisted, hinstructions, -⟩, -⟩ :=
    decode_tiles _ _ _ _ _ (Sweep.proceed_run 33 (.start twoSections)) hwhole
  have hrest := Sweep.proceed_run 12 stopped
  obtain ⟨-, hstop⟩ := decode_tiles _ _ _ _ _ (stopped_reached.trans hrest) hended
  refine ⟨⟨runs, hruns, haddresses.symm.trans hlisted, hinstructions⟩, ?_⟩
  rw [← ChunkStore.length_toList, hstop stopped stopped_reached hrest rfl
      (fun line => hpoint ▸ Point.noConfusion), ChunkStore.length_toList, hsize]

end Voidwalk.SweepTiling

import Voidwalk.Library.Runs
import Voidwalk.SectionListing

/-!
The sweep fills its stores with the listing, in order: every state that a call of
`decode()` on a fresh object reaches holds a prefix of it, and what is left is what
the statement to come will list.
-/

namespace Voidwalk.SweepRefinement

open Voidwalk.Library
open Voidwalk.MappedFile
open Voidwalk.ChunkStorage
open Voidwalk.InstructionRendering
open Voidwalk.Disassembly
open Voidwalk.SectionListing

def listed (disassembler : Disassembler) : List Row :=
  listing disassembler.contents disassembler.arch disassembler.commonSections.text

def remaining (disassembler : Disassembler) : List Row :=
  (listed disassembler).drop disassembler.decodedInstructions.size

def rows (disassembler : Disassembler) : List Row :=
  List.zipWith Row.mk disassembler.instructionAddresses.toList
    disassembler.decodedInstructions.toList

def lineRows (disassembler : Disassembler) (line : Line) : List Row :=
  rowsFrom disassembler.contents disassembler.arch line.sectionEnd line.currentOffset line.vaddr ++
    listing disassembler.contents disassembler.arch line.later

def lineBehind (line : Line) (nextOffset : UInt64) : Line :=
  { line with
    vaddr := line.vaddr + (nextOffset - line.currentOffset)
    currentOffset := nextOffset }

/-- No row is half way between the stores, the count and the streams. -/
structure Level (disassembler : Disassembler) : Prop where
  addresses : disassembler.instructionAddresses.size = disassembler.decodedInstructions.size
  ready : disassembler.readyCount = disassembler.decodedInstructions.size
  emitted : disassembler.nextEmitIndex = disassembler.decodedInstructions.size

/-- A line has been decoded up to `nextOffset` and its row, if any, not emitted. -/
structure Decoded (disassembler : Disassembler) (line : Line) (nextOffset : UInt64) : Prop where
  stays : nextOffset ≤ line.currentOffset →
    disassembler.nextEmitIndex = disassembler.decodedInstructions.size ∧
      remaining disassembler = listing disassembler.contents disassembler.arch line.later
  appends : ¬ nextOffset ≤ line.currentOffset →
    disassembler.nextEmitIndex + 1 = disassembler.decodedInstructions.size ∧
      remaining disassembler = lineRows disassembler (lineBehind line nextOffset)

/-- The addresses may be one row behind the instructions. -/
structure CatchingUp (disassembler : Disassembler) (line : Line) : Prop where
  ready_le : disassembler.readyCount ≤ disassembler.instructionAddresses.size
  addresses_le :
    disassembler.instructionAddresses.size ≤ disassembler.decodedInstructions.size
  instructions_le :
    disassembler.decodedInstructions.size ≤ disassembler.instructionAddresses.size + 1
  address : disassembler.instructionAddresses.size < disassembler.decodedInstructions.size →
    ((listed disassembler)[disassembler.instructionAddresses.size]?).map Row.address =
      some line.vaddr

/-- What holds where the sweep stands. Once a stop was seen the rest of the
listing is given up. -/
def Reached (disassembler : Disassembler) (stopRequested : Bool) : Point → Prop
  | .clear | .reserveInstructions _ | .reserveAddresses _ | .resetReady =>
      Level disassembler ∧ disassembler.decodedInstructions.size = 0
  | .nextSection sections => Level disassembler ∧ (stopRequested = true ∨
      remaining disassembler = listing disassembler.contents disassembler.arch sections)
  | .nextLine line => Level disassembler ∧ (stopRequested = true ∨
      remaining disassembler = lineRows disassembler line)
  | .decodeLine line => Level disassembler ∧ line.currentOffset < line.sectionEnd ∧
      remaining disassembler = lineRows disassembler line
  | .catchUp line nextOffset =>
      Decoded disassembler line nextOffset ∧ CatchingUp disassembler line
  | .publish line nextOffset => Decoded disassembler line nextOffset ∧
      disassembler.readyCount ≤ disassembler.instructionAddresses.size ∧
      disassembler.instructionAddresses.size = disassembler.decodedInstructions.size
  | .advance line nextOffset => Decoded disassembler line nextOffset ∧
      disassembler.readyCount = disassembler.decodedInstructions.size ∧
      disassembler.instructionAddresses.size = disassembler.decodedInstructions.size
  | .returned => Level disassembler ∧ (stopRequested = true ∨ remaining disassembler = [])
  | .thrown exception => Level disassembler ∧ exception ≠ .outOfRange

structure Sound (disassembler : Disassembler) (stopRequested : Bool) (point : Point) :
    Prop where
  instructions : disassembler.decodedInstructions.toList =
    ((listed disassembler).take disassembler.decodedInstructions.size).map Row.instruction
  addresses : disassembler.instructionAddresses.toList =
    ((listed disassembler).take disassembler.instructionAddresses.size).map Row.address
  reached : Reached disassembler stopRequested point

structure Grows (disassembler later : Disassembler) : Prop where
  contents : later.contents = disassembler.contents
  arch : later.arch = disassembler.arch
  sections : later.commonSections = disassembler.commonSections
  entryAddress : later.entryAddress = disassembler.entryAddress
  instructions_le :
    disassembler.decodedInstructions.size ≤ later.decodedInstructions.size
  addresses_le :
    disassembler.instructionAddresses.size ≤ later.instructionAddresses.size
  ready_le : disassembler.readyCount ≤ later.readyCount

theorem Grows.refl (disassembler : Disassembler) : Grows disassembler disassembler :=
  ⟨rfl, rfl, rfl, rfl, Nat.le_refl _, Nat.le_refl _, Nat.le_refl _⟩

theorem Grows.trans {first second third : Disassembler} (h : Grows first second)
    (h' : Grows second third) : Grows first third where
  contents := h'.contents.trans h.contents
  arch := h'.arch.trans h.arch
  sections := h'.sections.trans h.sections
  entryAddress := h'.entryAddress.trans h.entryAddress
  instructions_le := h.instructions_le.trans h'.instructions_le
  addresses_le := h.addresses_le.trans h'.addresses_le
  ready_le := h.ready_le.trans h'.ready_le

theorem Grows.listed_eq {disassembler later : Disassembler} (h : Grows disassembler later) :
    listed later = listed disassembler := by
  rw [listed, h.contents, h.arch, h.sections, listed]

theorem take_succ_of_drop_eq_cons {α : Type} {list rest : List α} {value : α} {n : Nat}
    (h : list.drop n = value :: rest) :
    list.take (n + 1) = list.take n ++ [value] ∧ list.drop (n + 1) = rest ∧
      list[n]? = some value := by
  have hget : list[n]? = some value := by
    have hhead := congrArg (fun xs : List α => xs[0]?) h
    simpa using hhead
  refine ⟨?_, ?_, hget⟩
  · rw [List.take_add_one, hget]
    rfl
  · rw [← List.drop_drop, h]
    rfl

section Facts

variable {disassembler : Disassembler} {stopRequested : Bool} {point : Point}

theorem Sound.size_le (h : Sound disassembler stopRequested point) :
    disassembler.decodedInstructions.size ≤ (listed disassembler).length := by
  have hlength := congrArg List.length h.instructions
  simp only [ChunkStore.length_toList, List.length_map, List.length_take] at hlength
  omega

theorem Sound.counts (h : Sound disassembler stopRequested point) :
    disassembler.readyCount ≤ disassembler.instructionAddresses.size ∧
      disassembler.instructionAddresses.size ≤ disassembler.decodedInstructions.size := by
  have hreached := h.reached
  cases point with
  | catchUp => exact ⟨hreached.2.ready_le, hreached.2.addresses_le⟩
  | publish => exact ⟨hreached.2.1, hreached.2.2.le⟩
  | advance => exact ⟨by rw [hreached.2.1, hreached.2.2], hreached.2.2.le⟩
  | _ => exact ⟨by rw [hreached.1.ready, hreached.1.addresses], hreached.1.addresses.le⟩

theorem Sound.rows_eq (h : Sound disassembler stopRequested point)
    (hlevel : disassembler.instructionAddresses.size = disassembler.decodedInstructions.size) :
    rows disassembler =
      (listed disassembler).take disassembler.decodedInstructions.size := by
  rw [rows, h.instructions, h.addresses, hlevel, List.zipWith_map]
  exact List.zipWith_self ▸ List.map_id _

theorem emitDecodedLine_of_rows {address : UInt64} {instruction : Instruction} (showVaddr : Bool)
    (haddress : disassembler.instructionAddresses.toList[disassembler.nextEmitIndex]? =
      some address)
    (hinstruction : disassembler.decodedInstructions.toList[disassembler.nextEmitIndex]? =
      some instruction) :
    disassembler.emitDecodedLine showVaddr = .ok { disassembler with
      outputStreams := disassembler.outputStreams.map
        (· ++ Disassembler.emittedLine address instruction showVaddr)
      nextEmitIndex := disassembler.nextEmitIndex + 1 } := by
  have haddress := (ChunkStore.element_eq_ok_iff _ _ _).mpr haddress
  have hinstruction := (ChunkStore.element_eq_ok_iff _ _ _).mpr hinstruction
  have hstreams : disassembler.outputStreams.mapM (fun stream => do
      let address ← disassembler.instructionAddresses.element disassembler.nextEmitIndex
      let instruction ← disassembler.decodedInstructions.element disassembler.nextEmitIndex
      pure (stream ++ Disassembler.emittedLine address instruction showVaddr)) =
      .ok (disassembler.outputStreams.map
        (· ++ Disassembler.emittedLine address instruction showVaddr)) := by
    rw [haddress, hinstruction]
    exact List.mapM_pure
  rw [Disassembler.emitDecodedLine, hstreams]
  rfl

/-- Printing changes the streams and their index only. -/
theorem emitDecodedLine_eq {emitted : Disassembler} {showVaddr : Bool}
    (h : disassembler.emitDecodedLine showVaddr = .ok emitted) :
    emitted = { disassembler with
      outputStreams := emitted.outputStreams
      nextEmitIndex := disassembler.nextEmitIndex + 1 } := by
  simp only [Disassembler.emitDecodedLine, bind, Except.bind] at h
  split at h
  · contradiction
  · rw [← Except.ok.inj h]

theorem Sound.moves (h : Sound disassembler stopRequested point) {next : Point}
    (hreached : Reached disassembler stopRequested next) :
    Sound disassembler stopRequested next ∧ Grows disassembler disassembler :=
  ⟨⟨h.instructions, h.addresses, hreached⟩, .refl disassembler⟩

end Facts

section Steps

variable {surroundings : Surroundings} {disassembler later : Disassembler}
  {stopRequested : Bool} {line : Line} {next : Point}

theorem sound_nextSection {sections : List Header}
    (h : Sound disassembler stopRequested (.nextSection sections))
    (hstep : decodeStep surroundings stopRequested disassembler (.nextSection sections) =
      some (later, next)) :
    Sound later stopRequested next ∧ Grows disassembler later := by
  obtain ⟨hlevel, hrest⟩ := h.reached
  cases sections with
  | nil =>
      obtain ⟨rfl, rfl⟩ := Prod.mk.inj (Option.some.inj hstep)
      exact h.moves ⟨hlevel, hrest⟩
  | cons textSection sections =>
      obtain ⟨rfl, rfl⟩ := Prod.mk.inj (Option.some.inj hstep)
      exact h.moves ⟨hlevel, hrest⟩

theorem sound_nextLine (h : Sound disassembler stopRequested (.nextLine line))
    (hstep : decodeStep surroundings stopRequested disassembler (.nextLine line) =
      some (later, next)) :
    Sound later stopRequested next ∧ Grows disassembler later := by
  obtain ⟨hlevel, hrest⟩ := h.reached
  simp only [decodeStep] at hstep
  split_ifs at hstep with hlt hstop
  · obtain ⟨rfl, rfl⟩ := Prod.mk.inj (Option.some.inj hstep)
    exact h.moves ⟨hlevel, Or.inl hstop⟩
  · obtain ⟨rfl, rfl⟩ := Prod.mk.inj (Option.some.inj hstep)
    exact h.moves ⟨hlevel, hlt, hrest.resolve_left hstop⟩
  · obtain ⟨rfl, rfl⟩ := Prod.mk.inj (Option.some.inj hstep)
    refine h.moves ⟨hlevel, hrest.imp_right fun hrest => ?_⟩
    rw [hrest, lineRows, rowsFrom_of_not_lt hlt, List.nil_append]

theorem sound_decodeLine (h : Sound disassembler stopRequested (.decodeLine line))
    (hstep : decodeStep surroundings stopRequested disassembler (.decodeLine line) =
      some (later, next)) :
    Sound later stopRequested next ∧ Grows disassembler later := by
  obtain ⟨hlevel, hlt, hrest⟩ := h.reached
  have houtcome := decodeLine_outcome disassembler surroundings line.currentOffset line.vaddr
  simp only [decodeStep] at hstep
  cases hresult : disassembler.decodeLine surroundings line.currentOffset line.vaddr with
  | error exception =>
      rw [hresult] at hstep houtcome
      obtain ⟨rfl, rfl⟩ := Prod.mk.inj (Option.some.inj hstep)
      cases houtcome with
      | throws hnot => exact h.moves ⟨hlevel, hnot⟩
  | ok result =>
      rw [hresult] at hstep houtcome
      cases houtcome with
      | stays hnone =>
          obtain ⟨rfl, rfl⟩ := Prod.mk.inj (Option.some.inj hstep)
          refine h.moves ⟨⟨fun _ => ⟨hlevel.emitted, ?_⟩, fun hnot => ?_⟩, ?_⟩
          · rw [hrest, lineRows, rowsFrom_of_none hnone, List.nil_append]
          · exact absurd (UInt64.le_refl _) hnot
          · exact ⟨(hlevel.ready.trans hlevel.addresses.symm).le, hlevel.addresses.le,
              by rw [hlevel.addresses]; omega, fun hlt => absurd hlevel.addresses hlt.ne⟩
      | @appends n instruction hsome hoccupies =>
          obtain ⟨rfl, rfl⟩ := Prod.mk.inj (Option.some.inj hstep)
          rw [lineRows, rowsFrom_of_some hlt hsome, List.cons_append] at hrest
          obtain ⟨htake, hdrop, hget⟩ := take_succ_of_drop_eq_cons hrest
          have hnot : ¬ line.currentOffset + UInt64.ofNat n ≤ line.currentOffset :=
            UInt64.not_le.mpr hoccupies.lt_next
          refine ⟨⟨?_, h.addresses, ⟨fun hle => absurd hle hnot, fun _ => ⟨?_, hdrop⟩⟩, ?_⟩,
            rfl, rfl, rfl, rfl, Nat.le_succ _, Nat.le_refl _, Nat.le_refl _⟩
          · rw [ChunkStore.toList_pushBack, h.instructions]
            change _ = List.map _ ((listed disassembler).take _)
            rw [ChunkStore.size_pushBack, htake, List.map_append]
            rfl
          · rw [hlevel.emitted]
            rfl
          · refine ⟨(hlevel.ready.trans hlevel.addresses.symm).le, ?_, ?_, fun _ => ?_⟩
            · exact hlevel.addresses.le.trans (Nat.le_succ _)
            · rw [hlevel.addresses]
              rfl
            · change ((listed disassembler)[_]?).map _ = _
              rw [hlevel.addresses, hget]
              rfl

theorem sound_catchUp {nextOffset : UInt64}
    (h : Sound disassembler stopRequested (.catchUp line nextOffset))
    (hstep : decodeStep surroundings stopRequested disassembler (.catchUp line nextOffset) =
      some (later, next)) :
    Sound later stopRequested next ∧ Grows disassembler later := by
  obtain ⟨hdecoded, hbehind⟩ := h.reached
  have haddressesLe := hbehind.addresses_le
  have hinstructionsLe := hbehind.instructions_le
  simp only [decodeStep] at hstep
  split_ifs at hstep with hlt
  · obtain ⟨rfl, rfl⟩ := Prod.mk.inj (Option.some.inj hstep)
    refine ⟨⟨h.instructions, ?_, ⟨hdecoded.stays, hdecoded.appends⟩, ?_⟩,
      rfl, rfl, rfl, rfl, Nat.le_refl _, Nat.le_succ _, Nat.le_refl _⟩
    · change _ = List.map _ ((listed disassembler).take _)
      rw [ChunkStore.toList_pushBack, ChunkStore.size_pushBack, List.take_add_one,
        List.map_append, ← h.addresses]
      have haddress := hbehind.address hlt
      cases hget : (listed disassembler)[disassembler.instructionAddresses.size]? with
      | none => rw [hget] at haddress; contradiction
      | some row =>
          rw [hget] at haddress
          rw [← Option.some.inj haddress]
          rfl
    · refine ⟨hbehind.ready_le.trans (Nat.le_succ _), hlt, ?_, fun hlt' => ?_⟩
      · exact hinstructionsLe.trans (Nat.le_succ _)
      · have hlt' : disassembler.instructionAddresses.size + 1 <
            disassembler.decodedInstructions.size := hlt'
        omega
  · obtain ⟨rfl, rfl⟩ := Prod.mk.inj (Option.some.inj hstep)
    exact h.moves ⟨hdecoded, hbehind.ready_le, by omega⟩

theorem emitDecodedLine_of_advance {nextOffset : UInt64}
    (h : Sound disassembler stopRequested (.advance line nextOffset))
    (hnot : ¬ nextOffset ≤ line.currentOffset) :
    ∃ emitted, disassembler.emitDecodedLine true = .ok emitted := by
  obtain ⟨hdecoded, -, haddresses⟩ := h.reached
  have hemitted := (hdecoded.appends hnot).1
  have hinstruction : disassembler.nextEmitIndex <
      disassembler.decodedInstructions.toList.length := by
    rw [ChunkStore.length_toList]
    omega
  have haddress : disassembler.nextEmitIndex <
      disassembler.instructionAddresses.toList.length := by
    rw [ChunkStore.length_toList]
    omega
  exact ⟨_, emitDecodedLine_of_rows true (List.getElem?_eq_getElem haddress)
    (List.getElem?_eq_getElem hinstruction)⟩

theorem sound_advance {nextOffset : UInt64}
    (h : Sound disassembler stopRequested (.advance line nextOffset))
    (hstep : decodeStep surroundings stopRequested disassembler (.advance line nextOffset) =
      some (later, next)) :
    Sound later stopRequested next ∧ Grows disassembler later := by
  obtain ⟨hdecoded, hready, haddresses⟩ := h.reached
  simp only [decodeStep] at hstep
  by_cases hle : nextOffset ≤ line.currentOffset
  · rw [if_pos hle] at hstep
    obtain ⟨rfl, rfl⟩ := Prod.mk.inj (Option.some.inj hstep)
    obtain ⟨hemitted, hrest⟩ := hdecoded.stays hle
    exact h.moves ⟨⟨haddresses, hready, hemitted⟩, Or.inr hrest⟩
  · obtain ⟨hemitted, hrest⟩ := hdecoded.appends hle
    obtain ⟨emitted, hprinted⟩ := emitDecodedLine_of_advance h hle
    rw [if_neg hle, hprinted, emitDecodedLine_eq hprinted] at hstep
    obtain ⟨rfl, rfl⟩ := Prod.mk.inj (Option.some.inj hstep)
    exact ⟨⟨h.instructions, h.addresses, ⟨haddresses, hready, hemitted⟩, Or.inr hrest⟩,
      rfl, rfl, rfl, rfl, Nat.le_refl _, Nat.le_refl _, Nat.le_refl _⟩

theorem sound_opening
    (hlevel : Level disassembler) (hempty : disassembler.decodedInstructions.size = 0)
    (hcontents : later.contents = disassembler.contents)
    (harch : later.arch = disassembler.arch)
    (hsections : later.commonSections = disassembler.commonSections)
    (hentry : later.entryAddress = disassembler.entryAddress)
    (hlater : Level later) (hstill : later.decodedInstructions.size = 0)
    (hreached : Reached later stopRequested next) :
    Sound later stopRequested next ∧ Grows disassembler later := by
  have hinstructions : later.decodedInstructions.toList = [] :=
    List.eq_nil_of_length_eq_zero (by rw [ChunkStore.length_toList, hstill])
  have haddresses : later.instructionAddresses.toList = [] :=
    List.eq_nil_of_length_eq_zero (by rw [ChunkStore.length_toList, hlater.addresses, hstill])
  refine ⟨⟨?_, ?_, hreached⟩, hcontents, harch, hsections, hentry, ?_, ?_, ?_⟩
  · rw [hinstructions, hstill]
    rfl
  · rw [haddresses, hlater.addresses, hstill]
    rfl
  · rw [hempty]
    exact Nat.zero_le _
  · rw [hlevel.addresses, hempty]
    exact Nat.zero_le _
  · rw [hlevel.ready, hempty]
    exact Nat.zero_le _

theorem sound_step {point : Point} (h : Sound disassembler stopRequested point)
    (hstep : decodeStep surroundings stopRequested disassembler point = some (later, next)) :
    Sound later stopRequested next ∧ Grows disassembler later := by
  cases point with
  | clear =>
      obtain ⟨hlevel, hempty⟩ := h.reached
      obtain ⟨rfl, rfl⟩ := Prod.mk.inj (Option.some.inj hstep)
      have hlater : Level { disassembler with
          decodedInstructions := disassembler.decodedInstructions.clear
          instructionAddresses := disassembler.instructionAddresses.clear } :=
        ⟨rfl, hlevel.ready.trans hempty, hlevel.emitted.trans hempty⟩
      exact sound_opening hlevel hempty rfl rfl rfl rfl hlater rfl ⟨hlater, rfl⟩
  | reserveInstructions total =>
      obtain ⟨hlevel, hempty⟩ := h.reached
      simp only [decodeStep] at hstep
      split_ifs at hstep
      · obtain ⟨rfl, rfl⟩ := Prod.mk.inj (Option.some.inj hstep)
        exact h.moves ⟨hlevel, by simp⟩
      · obtain ⟨rfl, rfl⟩ := Prod.mk.inj (Option.some.inj hstep)
        exact sound_opening hlevel hempty rfl rfl rfl rfl ⟨hlevel.1, hlevel.2, hlevel.3⟩ hempty
          ⟨⟨hlevel.1, hlevel.2, hlevel.3⟩, hempty⟩
  | reserveAddresses total =>
      obtain ⟨hlevel, hempty⟩ := h.reached
      simp only [decodeStep] at hstep
      split_ifs at hstep
      · obtain ⟨rfl, rfl⟩ := Prod.mk.inj (Option.some.inj hstep)
        exact h.moves ⟨hlevel, by simp⟩
      · obtain ⟨rfl, rfl⟩ := Prod.mk.inj (Option.some.inj hstep)
        exact sound_opening hlevel hempty rfl rfl rfl rfl ⟨hlevel.1, hlevel.2, hlevel.3⟩ hempty
          ⟨⟨hlevel.1, hlevel.2, hlevel.3⟩, hempty⟩
  | resetReady =>
      obtain ⟨hlevel, hempty⟩ := h.reached
      obtain ⟨rfl, rfl⟩ := Prod.mk.inj (Option.some.inj hstep)
      have hlater : Level { disassembler with readyCount := 0 } :=
        ⟨hlevel.addresses, hempty.symm, hlevel.emitted⟩
      refine sound_opening hlevel hempty rfl rfl rfl rfl hlater hempty
        ⟨hlater, Or.inr ?_⟩
      -- Nothing is listed yet, so the whole listing remains.
      change (listed disassembler).drop disassembler.decodedInstructions.size = _
      rw [hempty]
      rfl
  | nextSection sections => exact sound_nextSection h hstep
  | nextLine line => exact sound_nextLine h hstep
  | decodeLine line => exact sound_decodeLine h hstep
  | catchUp line nextOffset => exact sound_catchUp h hstep
  | publish line nextOffset =>
      obtain ⟨hdecoded, hready, haddresses⟩ := h.reached
      obtain ⟨rfl, rfl⟩ := Prod.mk.inj (Option.some.inj hstep)
      exact ⟨⟨h.instructions, h.addresses, ⟨hdecoded.stays, hdecoded.appends⟩, rfl, haddresses⟩,
        rfl, rfl, rfl, rfl, Nat.le_refl _, Nat.le_refl _, hready.trans haddresses.le⟩
  | advance line nextOffset => exact sound_advance h hstep
  | returned => contradiction
  | thrown exception => contradiction

/-- Only decoding a line changes the instructions. -/
theorem instructions_step {point : Point} (h : Sound disassembler stopRequested point)
    (hpoint : ∀ line, point ≠ .decodeLine line)
    (hstep : decodeStep surroundings stopRequested disassembler point = some (later, next)) :
    later.decodedInstructions.toList = disassembler.decodedInstructions.toList := by
  cases point with
  | clear =>
      obtain ⟨rfl, rfl⟩ := Prod.mk.inj (Option.some.inj hstep)
      have hempty : disassembler.decodedInstructions.toList = [] :=
        List.eq_nil_of_length_eq_zero (by rw [ChunkStore.length_toList, h.reached.2])
      exact hempty.symm
  | reserveInstructions | reserveAddresses | nextLine | catchUp =>
      simp only [decodeStep] at hstep
      split_ifs at hstep <;> obtain ⟨rfl, rfl⟩ := Prod.mk.inj (Option.some.inj hstep) <;> rfl
  | resetReady | publish =>
      obtain ⟨rfl, rfl⟩ := Prod.mk.inj (Option.some.inj hstep)
      rfl
  | nextSection sections =>
      cases sections <;> obtain ⟨rfl, rfl⟩ := Prod.mk.inj (Option.some.inj hstep) <;> rfl
  | decodeLine line => exact absurd rfl (hpoint line)
  | advance line nextOffset =>
      simp only [decodeStep] at hstep
      by_cases hle : nextOffset ≤ line.currentOffset
      · rw [if_pos hle] at hstep
        obtain ⟨rfl, rfl⟩ := Prod.mk.inj (Option.some.inj hstep)
        rfl
      · obtain ⟨emitted, hprinted⟩ := emitDecodedLine_of_advance h hle
        rw [if_neg hle, hprinted, emitDecodedLine_eq hprinted] at hstep
        obtain ⟨rfl, rfl⟩ := Prod.mk.inj (Option.some.inj hstep)
        rfl
  | returned => contradiction
  | thrown => contradiction

/-- A step appends at most one instruction. -/
theorem size_le_succ {point : Point} (h : Sound disassembler stopRequested point)
    (hstep : decodeStep surroundings stopRequested disassembler point = some (later, next)) :
    later.decodedInstructions.size ≤ disassembler.decodedInstructions.size + 1 := by
  by_cases hline : ∃ line, point = .decodeLine line
  · obtain ⟨line, rfl⟩ := hline
    have houtcome := decodeLine_outcome disassembler surroundings line.currentOffset line.vaddr
    simp only [decodeStep] at hstep
    cases hresult : disassembler.decodeLine surroundings line.currentOffset line.vaddr with
    | error exception =>
        rw [hresult] at hstep
        obtain ⟨rfl, rfl⟩ := Prod.mk.inj (Option.some.inj hstep)
        exact Nat.le_succ _
    | ok result =>
        rw [hresult] at hstep houtcome
        cases houtcome <;> obtain ⟨rfl, rfl⟩ := Prod.mk.inj (Option.some.inj hstep)
        · exact Nat.le_succ _
        · exact Nat.le_refl _
  · have hlength := congrArg List.length
      (instructions_step h (fun line hpoint => hline ⟨line, hpoint⟩) hstep)
    simp only [ChunkStore.length_toList] at hlength
    omega

end Steps

section Runs

variable {sweep later : Sweep}

theorem sound_sweepStep (h : Sound sweep.disassembler sweep.stopRequested sweep.point)
    (hstep : SweepStep sweep later) :
    Sound later.disassembler later.stopRequested later.point ∧
      Grows sweep.disassembler later.disassembler := by
  cases hstep with
  | work surroundings hstep => exact sound_step h hstep
  | requestStop =>
      have hreached := h.reached
      refine ⟨⟨h.instructions, h.addresses, ?_⟩, .refl _⟩
      revert hreached
      cases sweep.point with
      | nextSection | nextLine | returned => exact fun hreached => ⟨hreached.1, Or.inl rfl⟩
      | _ => exact id

/-- What holds at one moment of a sweep, holds at every later one. -/
theorem sound_run (h : Sound sweep.disassembler sweep.stopRequested sweep.point)
    (hrun : Relation.ReflTransGen SweepStep sweep later) :
    Sound later.disassembler later.stopRequested later.point ∧
      Grows sweep.disassembler later.disassembler := by
  refine Runs.related
    (I := fun sweep => Sound sweep.disassembler sweep.stopRequested sweep.point)
    (R := fun sweep later => Grows sweep.disassembler later.disassembler) ?_ ?_ ?_ hrun h
  · exact fun sweep => .refl sweep.disassembler
  · exact fun _ _ _ hgrows hgrows' => hgrows.trans hgrows'
  · exact fun _ _ hsound hstep => sound_sweepStep hsound hstep

theorem sound_construct (contents : AddressSpace) (arch : Arch) (commonSections : Sections)
    (entryAddress : UInt64) (outputStreams : List String) (stopRequested : Bool) :
    Sound (.construct contents arch commonSections entryAddress outputStreams) stopRequested
      .clear :=
  ⟨by simp [Disassembler.construct], by simp [Disassembler.construct], ⟨rfl, rfl, rfl⟩, rfl⟩

end Runs

end Voidwalk.SweepRefinement

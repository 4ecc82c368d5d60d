import Voidwalk.ElfTableReads
import Voidwalk.HeaderParsing
import Voidwalk.PeTableReads
import Voidwalk.SweepProgress

/-!
Loading a file and sweeping it end, and the file bounds the work: whatever sizes the
headers claim, nothing is read twice in one scan and nothing past the end.
-/

namespace Voidwalk.WorkBounds

open Voidwalk.Library
open Voidwalk.MappedFile
open Voidwalk.ChunkStorage
open Voidwalk.Disassembly
open Voidwalk.FileTypeDetection
open Voidwalk.FileFields
open Voidwalk.ElfTableReads
open Voidwalk.PeTableReads (peTable_onlyInvalid)
open Voidwalk.HeaderParsing
open Voidwalk.SectionListing
open Voidwalk.SweepRefinement
open Voidwalk.SweepProgress

/-- Every exception of the model derives from `std::exception`, but for the index that is
undefined behaviour. -/
abbrev Standard {α : Type} (outcome : Except Thrown α) : Prop :=
  Loops.ThrowsOnly (· ≠ .outOfRange) outcome

section Loading

variable {α : Type} {contents : AddressSpace}

theorem standard_of_onlyInvalid {outcome : Except Thrown α} (h : OnlyInvalid outcome) :
    Standard outcome := by
  refine h.mono ?_
  rintro exception rfl
  exact nofun

theorem standard_of_inside {address : UInt64} {width : Nat} {outcome : Except Thrown α}
    (h : ReadsInside contents address width outcome) : Standard outcome :=
  standard_of_onlyInvalid (onlyInvalid_of_inside h)

theorem elfSections_standard (contents : AddressSpace) (arch : Arch) :
    Standard (elfSections contents arch) := by
  rw [elfSections]
  split
  · exact (standard_of_inside (readU16_inside contents _)).bind fun _ => .throw nofun
  · split
    · exact standard_of_onlyInvalid (parseSections64_onlyInvalid {} contents)
    · exact standard_of_onlyInvalid (parseSections32_onlyInvalid {} contents)

theorem elfHeaders_standard (contents : AddressSpace) : Standard (elfHeaders contents) := by
  rw [elfHeaders]
  split
  · exact .throw nofun
  · refine (standard_of_inside (readU16_inside contents _)).bind fun machine => ?_
    refine (elfSections_standard contents _).bind fun sections => ?_
    split
    · exact (standard_of_inside (readU64_inside contents _)).bind fun _ => .pure _
    · exact ((standard_of_inside (readU32_inside contents _)).map _).bind fun _ => .pure _

theorem peSections_standard (contents : AddressSpace) (arch : Arch) (peHeaderOffset : UInt32) :
    Standard (peSections contents arch peHeaderOffset) := by
  rw [peSections]
  split
  · exact .throw nofun
  · split
    · refine standard_of_onlyInvalid (peTable_onlyInvalid ?_ {} peHeaderOffset)
      exact fun _ => onlyInvalid_of_inside (readU64_inside contents _)
    · refine standard_of_onlyInvalid (peTable_onlyInvalid ?_ {} peHeaderOffset)
      exact fun _ => (onlyInvalid_of_inside (readU32_inside contents _)).map _

theorem peHeaders_standard (contents : AddressSpace) : Standard (peHeaders contents) := by
  refine (standard_of_inside (readU32_inside contents _)).bind fun peHeaderOffset => ?_
  refine (standard_of_inside (readU32_inside contents _)).bind fun machine => ?_
  refine (peSections_standard contents _ _).bind fun ⟨commonSections, imageBase⟩ => ?_
  exact (standard_of_inside (readU32_inside contents _)).bind fun entryRva => .pure _

theorem matchesMagic_standard (contents : AddressSpace) (offset : UInt64) (magic : List UInt8) :
    Standard (matchesMagic contents offset magic) := by
  induction magic generalizing offset with
  | nil => exact .pure _
  | cons byte magic ih =>
      refine (standard_of_inside (readU8_inside contents offset)).bind fun found => ?_
      split
      · exact ih _
      · exact .pure _

theorem matchesPe_standard (contents : AddressSpace) : Standard (matchesPe contents) := by
  rw [matchesPe]
  split
  · refine (matchesMagic_standard contents _ _).bind fun matched => ?_
    split
    · refine (standard_of_inside (readU32_inside contents _)).bind fun peHeaderOffset => ?_
      dsimp only
      split
      · exact (standard_of_inside (readU32_inside contents _)).bind fun _ => .pure _
      · exact .pure _
    · exact .pure _
  · exact .pure _

theorem determineFiletype_standard (contents : AddressSpace) :
    Standard (determineFiletype false contents) := by
  have helf : Standard (matchesElf contents) := by
    rw [matchesElf]
    split
    · exact matchesMagic_standard contents _ _
    · exact .pure _
  rw [determineFiletype, Bool.false_and, if_neg nofun]
  refine helf.bind fun isElf => ?_
  split
  · exact .pure _
  · exact (matchesPe_standard contents).bind fun _ => .pure _

/-- `make_disassembler` throws standard exceptions only. -/
theorem makeDisassembler_standard (contents : AddressSpace) :
    Standard (makeDisassembler (loadingOf contents) contents) := by
  refine (determineFiletype_standard contents).bind fun ⟨isElf, isPe⟩ => ?_
  dsimp only
  split
  · refine Loops.ThrowsOnly.bind ?_ fun headers => .pure _
    refine (determineFiletype_standard contents).bind fun ⟨isElf, isPe⟩ => ?_
    dsimp only
    split
    · exact elfHeaders_standard contents
    · exact peHeaders_standard contents
  · exact .throw nofun

end Loading

section Tables

variable (contents : AddressSpace)

/-- Reading a name ends within as many reads as the file has bytes, and one more. -/
theorem readName_reads (address : UInt64) :
    (∀ n, Loops.executions (ElfSectionTable.nameBody contents address) (fun _ => true) n {} ≤
      contents.mappedData.length + 1) ∧
    Loops.run (ElfSectionTable.nameBody contents address) (contents.mappedData.length + 1) {} =
      some (ElfSectionTable.readName contents address) := by
  have hmeasure : (ElfSectionTable.nameVariant contents address).measure {} ≤
      contents.mappedData.length := Nat.sub_le _ _
  constructor
  · intro n
    have hle := Loops.executions_le_succ (p := fun _ => true)
      (ElfSectionTable.nameVariant contents address) n {}
    omega
  · exact Loops.run_eq_result _ (Nat.lt_succ_of_le hmeasure)

theorem elfEntries_le (fields : ElfSectionTable.EntryFields)
    (header : ElfSectionTable.TableHeader) (namesOffset : UInt64)
    (parsed : ElfSectionTable.Parsed) (n : Nat) :
    Loops.executions (ElfSectionTable.sectionBody fields header contents namesOffset)
      (fun state => state.sectionIndex < header.sectionCount) n { parsed := parsed } ≤ 65535 := by
  have hcount := header.sectionCount.toNat_lt
  have hle := Loops.executions_le
    (ElfSectionTable.sectionVariant fields header contents namesOffset)
    (p := fun state => state.sectionIndex < header.sectionCount) ?_ n { parsed := parsed }
  · change _ ≤ header.sectionCount.toNat - 0 at hle
    omega
  · intro state hcounts
    have hlt := UInt16.lt_iff_toNat_lt.mp (of_decide_eq_true hcounts)
    exact Nat.sub_pos_of_lt hlt

theorem peEntries_le (sectionTableOffset imageBase : UInt64) (sectionCount : UInt16)
    (common : Sections) (n : Nat) :
    Loops.executions
      (PeSectionTable.sectionBody contents sectionTableOffset imageBase sectionCount)
      (fun state => state.i < sectionCount.toNat) n { common := common } ≤ 65535 := by
  have hcount := sectionCount.toNat_lt
  have hle := Loops.executions_le
    (PeSectionTable.sectionVariant contents sectionTableOffset imageBase sectionCount)
    (p := fun state => state.i < sectionCount.toNat) ?_ n { common := common }
  · change _ ≤ sectionCount.toNat - 0 at hle
    omega
  · intro state hcounts
    exact Nat.sub_pos_of_lt (of_decide_eq_true hcounts)

end Tables

/-- A sweep with the calls of `decodeLine` made so far. -/
structure Counted where
  sweep : Sweep
  calls : Nat

def isDecodeLine : Point → Bool
  | .decodeLine _ => true
  | _ => false

/-- The sweep's statements one by one, each with what the surroundings decide. Nobody
requests a stop. -/
def Counted.play (counted : Counted) : List Surroundings → Counted
  | [] => counted
  | surroundings :: schedule =>
      match decodeStep surroundings counted.sweep.stopRequested counted.sweep.disassembler
          counted.sweep.point with
      | none => counted
      | some (disassembler, point) => Counted.play
          { sweep := { counted.sweep with disassembler := disassembler, point := point }
            calls := counted.calls + if isDecodeLine counted.sweep.point then 1 else 0 }
          schedule

/-- The calls of `decodeLine` that can still come, apart from one for each row still to
list: a section makes at most one that lists nothing. -/
def pointCalls (disassembler : Disassembler) : Point → Nat
  | .clear | .reserveInstructions _ | .reserveAddresses _ | .resetReady =>
      disassembler.commonSections.text.length
  | .nextSection sections => sections.length
  | .nextLine line | .decodeLine line => line.later.length + 1
  | .catchUp line nextOffset | .publish line nextOffset | .advance line nextOffset =>
      line.later.length + if nextOffset ≤ line.currentOffset then 0 else 1
  | .returned | .thrown _ => 0

def callsLeft (disassembler : Disassembler) (point : Point) : Nat :=
  (remaining disassembler).length + pointCalls disassembler point

section Sweeping

variable {disassembler later : Disassembler} {point next : Point} {surroundings : Surroundings}
  {stopRequested : Bool}

theorem calls_decodeLine {line : Line}
    (h : Sound disassembler stopRequested (.decodeLine line))
    (hstep : decodeStep surroundings stopRequested disassembler (.decodeLine line) =
      some (later, next)) :
    callsLeft later next + 1 ≤ callsLeft disassembler (.decodeLine line) := by
  obtain ⟨-, hlt, hrest⟩ := h.reached
  have houtcome := decodeLine_outcome disassembler surroundings line.currentOffset line.vaddr
  simp only [decodeStep] at hstep
  cases hresult : disassembler.decodeLine surroundings line.currentOffset line.vaddr with
  | error exception =>
      rw [hresult] at hstep
      obtain ⟨rfl, rfl⟩ := Prod.mk.inj (Option.some.inj hstep)
      simp only [callsLeft, pointCalls]
      omega
  | ok result =>
      rw [hresult] at hstep houtcome
      cases houtcome with
      | stays hnone =>
          obtain ⟨rfl, rfl⟩ := Prod.mk.inj (Option.some.inj hstep)
          simp only [callsLeft, pointCalls, if_pos (UInt64.le_refl _)]
          change (remaining disassembler).length + _ + 1 ≤ _
          omega
      | @appends n instruction hsome hoccupies =>
          obtain ⟨rfl, rfl⟩ := Prod.mk.inj (Option.some.inj hstep)
          rw [lineRows, rowsFrom_of_some hlt hsome, List.cons_append] at hrest
          have hlength := congrArg List.length hrest
          have hdrop := congrArg List.length (take_succ_of_drop_eq_cons hrest).2.1
          simp only [callsLeft, pointCalls, if_neg (UInt64.not_le.mpr hoccupies.lt_next)]
          change ((listed disassembler).drop _).length + _ + 1 ≤ _
          rw [ChunkStore.size_pushBack, hdrop, hlength, List.length_cons]
          omega

theorem calls_advance {line : Line} {nextOffset : UInt64}
    (h : Sound disassembler stopRequested (.advance line nextOffset))
    (hstep : decodeStep surroundings stopRequested disassembler (.advance line nextOffset) =
      some (later, next)) :
    callsLeft later next ≤ callsLeft disassembler (.advance line nextOffset) := by
  simp only [decodeStep] at hstep
  by_cases hle : nextOffset ≤ line.currentOffset
  · rw [if_pos hle] at hstep
    obtain ⟨rfl, rfl⟩ := Prod.mk.inj (Option.some.inj hstep)
    simp only [callsLeft, pointCalls, if_pos hle]
    omega
  · obtain ⟨emitted, hemitted⟩ := emitDecodedLine_of_advance h hle
    rw [if_neg hle, hemitted] at hstep
    obtain ⟨rfl, rfl⟩ := Prod.mk.inj (Option.some.inj hstep)
    rw [emitDecodedLine_eq hemitted]
    simp only [callsLeft, pointCalls, if_neg hle]
    exact Nat.le_refl _

/-- A statement pays for the call that it makes. -/
theorem step_calls (h : Sound disassembler stopRequested point)
    (hstep : decodeStep surroundings stopRequested disassembler point = some (later, next)) :
    callsLeft later next + (if isDecodeLine point then 1 else 0) ≤
      callsLeft disassembler point := by
  cases point with
  | clear =>
      obtain ⟨rfl, rfl⟩ := Prod.mk.inj (Option.some.inj hstep)
      simp only [callsLeft, pointCalls]
      change ((listed disassembler).drop 0).length + _ + 0 ≤ _
      rw [remaining, h.reached.2]
      omega
  | reserveInstructions total | reserveAddresses total =>
      simp only [decodeStep] at hstep
      split at hstep
      · obtain ⟨rfl, rfl⟩ := Prod.mk.inj (Option.some.inj hstep)
        exact Nat.add_le_add_left (Nat.zero_le _) _
      · obtain ⟨rfl, rfl⟩ := Prod.mk.inj (Option.some.inj hstep)
        exact Nat.le_refl _
  | resetReady =>
      obtain ⟨rfl, rfl⟩ := Prod.mk.inj (Option.some.inj hstep)
      exact Nat.le_refl _
  | nextSection sections =>
      cases sections with
      | nil =>
          obtain ⟨rfl, rfl⟩ := Prod.mk.inj (Option.some.inj hstep)
          exact Nat.le_refl _
      | cons textSection sections =>
          obtain ⟨rfl, rfl⟩ := Prod.mk.inj (Option.some.inj hstep)
          exact Nat.le_refl _
  | nextLine line =>
      simp only [decodeStep] at hstep
      split_ifs at hstep
      · obtain ⟨rfl, rfl⟩ := Prod.mk.inj (Option.some.inj hstep)
        exact Nat.add_le_add_left (Nat.le_succ _) _
      · obtain ⟨rfl, rfl⟩ := Prod.mk.inj (Option.some.inj hstep)
        exact Nat.le_refl _
      · obtain ⟨rfl, rfl⟩ := Prod.mk.inj (Option.some.inj hstep)
        exact Nat.add_le_add_left (Nat.le_succ _) _
  | decodeLine line => exact calls_decodeLine h hstep
  | catchUp line nextOffset =>
      simp only [decodeStep] at hstep
      split at hstep
      · obtain ⟨rfl, rfl⟩ := Prod.mk.inj (Option.some.inj hstep)
        exact Nat.le_refl _
      · obtain ⟨rfl, rfl⟩ := Prod.mk.inj (Option.some.inj hstep)
        exact Nat.le_refl _
  | publish line nextOffset =>
      obtain ⟨rfl, rfl⟩ := Prod.mk.inj (Option.some.inj hstep)
      exact Nat.le_refl _
  | advance line nextOffset => exact calls_advance h hstep
  | returned => contradiction
  | thrown exception => contradiction

end Sweeping

section Playing

variable {counted : Counted}

theorem play_cons_of_some {surroundings : Surroundings} {schedule : List Surroundings}
    {disassembler : Disassembler} {point : Point}
    (hstep : decodeStep surroundings counted.sweep.stopRequested counted.sweep.disassembler
      counted.sweep.point = some (disassembler, point)) :
    counted.play (surroundings :: schedule) = Counted.play
      { sweep := { counted.sweep with disassembler := disassembler, point := point }
        calls := counted.calls + if isDecodeLine counted.sweep.point then 1 else 0 }
      schedule := by
  rw [Counted.play, hstep]

/-- The calls of a run, and what it has become. -/
theorem play_calls (schedule : List Surroundings)
    (h : Sound counted.sweep.disassembler counted.sweep.stopRequested counted.sweep.point) :
    Relation.ReflTransGen SweepStep counted.sweep (counted.play schedule).sweep ∧
      (counted.play schedule).calls ≤
        counted.calls + callsLeft counted.sweep.disassembler counted.sweep.point := by
  induction schedule generalizing counted with
  | nil => exact ⟨.refl, Nat.le_add_right _ _⟩
  | cons surroundings schedule ih =>
      cases hstep : decodeStep surroundings counted.sweep.stopRequested
          counted.sweep.disassembler counted.sweep.point with
      | none =>
          rw [Counted.play, hstep]
          exact ⟨.refl, Nat.le_add_right _ _⟩
      | some result =>
          obtain ⟨disassembler, point⟩ := result
          rw [play_cons_of_some hstep]
          obtain ⟨hrun, hcalls⟩ := @ih
            { sweep := { counted.sweep with disassembler := disassembler, point := point }
              calls := counted.calls + if isDecodeLine counted.sweep.point then 1 else 0 }
            (sound_step h hstep).1
          have hpaid := step_calls h hstep
          refine ⟨.head (.work surroundings hstep) hrun, hcalls.trans ?_⟩
          simp only
          omega

/-- Every run with as many statements as there is work has ended. -/
theorem play_ended (schedule : List Surroundings)
    (h : Sound counted.sweep.disassembler counted.sweep.stopRequested counted.sweep.point)
    (hlong : workLeft counted.sweep.disassembler counted.sweep.point < schedule.length) :
    (counted.play schedule).sweep.Ended := by
  induction schedule generalizing counted with
  | nil => exact absurd hlong (Nat.not_lt_zero _)
  | cons surroundings schedule ih =>
      by_cases hreturned : counted.sweep.point = .returned
      · rw [Counted.play, hreturned]
        exact Or.inl hreturned
      · by_cases hthrown : ∃ exception, counted.sweep.point = .thrown exception
        · obtain ⟨exception, hthrown⟩ := hthrown
          rw [Counted.play, hthrown]
          exact Or.inr ⟨exception, hthrown⟩
        · rw [not_exists] at hthrown
          obtain ⟨disassembler, point, hstep⟩ := exists_step surroundings h hreturned hthrown
          rw [play_cons_of_some hstep]
          by_cases hends : ∃ exception, point = .thrown exception
          · obtain ⟨exception, rfl⟩ := hends
            cases schedule with
            | nil => exact Or.inr ⟨exception, rfl⟩
            | cons _ _ => exact Or.inr ⟨exception, rfl⟩
          · rw [not_exists] at hends
            have hless := step_work h hstep hends
            apply ih (sound_step h hstep).1
            rw [List.length_cons] at hlong
            simp only
            omega

end Playing

section Bounds

variable (contents : AddressSpace)

/-- A section's size, or what the file has from its offset on if that is less. -/
def availableBytes (textSection : Header) : Nat :=
  min textSection.size.toNat (contents.mappedData.length - textSection.offset.toNat)

theorem length_sectionRows_le (arch : Arch) (textSection : Header) :
    (sectionRows contents arch textSection).length ≤ availableBytes contents textSection := by
  have htiles := sectionRows_tilesFrom contents arch textSection
  generalize sectionRows contents arch textSection = rows at htiles ⊢
  cases hlength : rows.length with
  | zero => exact Nat.zero_le _
  | succ j =>
      -- The last row starts in the section and ends in the file.
      have hj : j < rows.length := by omega
      have hshows := htiles.tiles j hj
      have hbefore := htiles.length_le_byteLength j
      have hstart := hshows.starts_inside
      have hpos := hshows.length_pos
      have hend := hshows.in_file
      rw [List.length_take, Nat.min_eq_left (Nat.le_of_lt hj)] at hbefore
      rw [availableBytes]
      omega

theorem length_listing_le (arch : Arch) (text : List Header) :
    (listing contents arch text).length ≤ (text.map (availableBytes contents)).sum := by
  induction text with
  | nil => exact Nat.le_refl _
  | cons textSection later ih =>
      have hfirst := length_sectionRows_le contents arch textSection
      rw [listing, List.flatMap_cons, List.length_append, List.map_cons, List.sum_cons]
      exact Nat.add_le_add hfirst ih

theorem sum_succ (text : List Header) :
    (text.map fun textSection => availableBytes contents textSection + 1).sum =
      (text.map (availableBytes contents)).sum + text.length := by
  induction text with
  | nil => rfl
  | cons textSection later ih =>
      rw [List.map_cons, List.sum_cons, ih, List.map_cons, List.sum_cons, List.length_cons]
      omega

end Bounds

/-- A call of `decode()` from its first statement. -/
def sweeping (disassembler : Disassembler) : Counted where
  sweep := .start disassembler
  calls := 0

theorem sweep_bounds (contents : AddressSpace) (arch : Arch) (commonSections : Sections)
    (entryAddress : UInt64) (outputStreams : List String) (schedule : List Surroundings) :
    let ended := (sweeping (.construct contents arch commonSections entryAddress
      outputStreams)).play schedule
    ended.calls ≤ (commonSections.text.map fun textSection =>
      availableBytes contents textSection + 1).sum ∧
    ended.sweep.disassembler.decodedInstructions.size ≤
      (commonSections.text.map (availableBytes contents)).sum := by
  have hstart := sound_construct contents arch commonSections entryAddress outputStreams false
  have hlisting := length_listing_le contents arch commonSections.text
  obtain ⟨hrun, hcalls⟩ := @play_calls (sweeping _) schedule hstart
  obtain ⟨hsound, hgrows⟩ := sound_run hstart hrun
  constructor
  · rw [sum_succ]
    refine hcalls.trans ?_
    change 0 + (((listing contents arch commonSections.text).drop 0).length +
      commonSections.text.length) ≤ _
    rw [List.drop_zero]
    omega
  · refine hsound.size_le.trans ?_
    rw [hgrows.listed_eq]
    exact hlisting

theorem sweep_ends (disassembler : Disassembler) (h : Sound disassembler false .clear) :
    ∃ n, ∀ schedule : List Surroundings, n ≤ schedule.length →
      ((sweeping disassembler).play schedule).sweep.point = .returned ∨
      ∃ exception, ((sweeping disassembler).play schedule).sweep.point = .thrown exception ∧
        exception ≠ .outOfRange := by
  refine ⟨workLeft disassembler .clear + 1, ?_⟩
  intro schedule hlong
  obtain ⟨hrun, -⟩ := @play_calls (sweeping disassembler) schedule h
  obtain ⟨hsound, -⟩ := sound_run h hrun
  rcases @play_ended (sweeping disassembler) schedule h hlong with hreturned | ⟨exception, hthrown⟩
  · exact Or.inl hreturned
  · refine Or.inr ⟨exception, hthrown, ?_⟩
    exact (hthrown ▸ hsound.reached : Reached _ _ (.thrown exception)).2

example : ((sweeping (.construct ⟨[0x90], by decide⟩ .x86_64
    { text := [⟨0x1000, 0, 0xFFFFFFFFFFFFFFFF⟩] } 0 [])).play
      (List.replicate 24 {})).calls = 2 := by
  decide +kernel

/-- Loading and sweeping any file ends, and the file bounds the work. -/
theorem loading_ends :
    (∀ contents : AddressSpace,
      (∃ exception, makeDisassembler (loadingOf contents) contents = .error exception ∧
        exception ≠ .outOfRange) ∨
      ∃ disassembler, makeDisassembler (loadingOf contents) contents = .ok disassembler ∧
        ∃ n, ∀ schedule : List Surroundings, n ≤ schedule.length →
          ((sweeping disassembler).play schedule).sweep.point = .returned ∨
          ∃ exception, ((sweeping disassembler).play schedule).sweep.point = .thrown exception ∧
            exception ≠ .outOfRange) ∧
    (∀ (contents : AddressSpace) (address : UInt64),
      (∀ n, Loops.executions (ElfSectionTable.nameBody contents address) (fun _ => true) n {} ≤
        contents.mappedData.length + 1) ∧
      Loops.run (ElfSectionTable.nameBody contents address) (contents.mappedData.length + 1) {} =
        some (ElfSectionTable.readName contents address)) ∧
    (∀ (contents : AddressSpace) (fields : ElfSectionTable.EntryFields)
      (header : ElfSectionTable.TableHeader) (namesOffset : UInt64)
      (parsed : ElfSectionTable.Parsed) (n : Nat),
      Loops.executions (ElfSectionTable.sectionBody fields header contents namesOffset)
        (fun state => state.sectionIndex < header.sectionCount) n { parsed := parsed } ≤ 65535) ∧
    (∀ (contents : AddressSpace) (sectionTableOffset imageBase : UInt64) (sectionCount : UInt16)
      (common : Sections) (n : Nat),
      Loops.executions
        (PeSectionTable.sectionBody contents sectionTableOffset imageBase sectionCount)
        (fun state => state.i < sectionCount.toNat) n { common := common } ≤ 65535) ∧
    ∀ (contents : AddressSpace) (arch : Arch) (commonSections : Sections) (entryAddress : UInt64)
      (outputStreams : List String) (schedule : List Surroundings),
      let ended := (sweeping (.construct contents arch commonSections entryAddress
        outputStreams)).play schedule
      ended.calls ≤ (commonSections.text.map fun textSection =>
        availableBytes contents textSection + 1).sum ∧
      ended.sweep.disassembler.decodedInstructions.size ≤
        (commonSections.text.map (availableBytes contents)).sum := by
  refine ⟨?_, readName_reads, elfEntries_le, peEntries_le, sweep_bounds⟩
  intro contents
  cases hmade : makeDisassembler (loadingOf contents) contents with
  | error exception =>
      exact Or.inl ⟨exception, rfl, makeDisassembler_standard contents exception hmade⟩
  | ok disassembler =>
      refine Or.inr ⟨disassembler, rfl, sweep_ends disassembler ?_⟩
      have hload : (loadingOf contents).load = .ok (contents, disassembler) := by
        rw [Loading.load]
        change (do
          let made ← makeDisassembler (loadingOf contents) contents
          pure (contents, made)) = _
        rw [hmade]
        rfl
      obtain ⟨headers, -, -, rfl⟩ := Loading.load_eq_ok hload
      exact sound_construct _ _ _ _ _ _

end Voidwalk.WorkBounds

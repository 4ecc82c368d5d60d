import Voidwalk.SweepRefinement

/-!
An undisturbed sweep with an x86 decoder returns, and has then listed everything.
-/

namespace Voidwalk.SweepProgress

open Voidwalk.MappedFile
open Voidwalk.ChunkStorage
open Voidwalk.InstructionRendering
open Voidwalk.Disassembly
open Voidwalk.SectionListing
open Voidwalk.SweepRefinement

/-- A bound on the statements still to execute, apart from the rows still to list. -/
def pointWork (disassembler : Disassembler) : Point → Nat
  | .clear => 8 * disassembler.commonSections.text.length + 5
  | .reserveInstructions _ => 8 * disassembler.commonSections.text.length + 4
  | .reserveAddresses _ => 8 * disassembler.commonSections.text.length + 3
  | .resetReady => 8 * disassembler.commonSections.text.length + 2
  | .nextSection sections => 8 * sections.length + 1
  | .nextLine line => 8 * line.later.length + 8
  | .decodeLine line => 8 * line.later.length + 7
  | .catchUp line nextOffset =>
      8 * line.later.length + (if nextOffset ≤ line.currentOffset then 4 else 12) +
        (disassembler.decodedInstructions.size - disassembler.instructionAddresses.size)
  | .publish line nextOffset =>
      8 * line.later.length + (if nextOffset ≤ line.currentOffset then 3 else 11)
  | .advance line nextOffset =>
      8 * line.later.length + (if nextOffset ≤ line.currentOffset then 2 else 10)
  | .returned => 0
  | .thrown _ => 0

def workLeft (disassembler : Disassembler) (point : Point) : Nat :=
  8 * (remaining disassembler).length + pointWork disassembler point

section Progress

variable {disassembler later : Disassembler} {is64Bit stopRequested : Bool} {point next : Point}
  {surroundings : Surroundings}

theorem work_decodeLine {line : Line} (h : Sound disassembler stopRequested (.decodeLine line))
    (hstep : decodeStep surroundings stopRequested disassembler (.decodeLine line) =
      some (later, next)) (hno : ∀ exception, next ≠ .thrown exception) :
    workLeft later next < workLeft disassembler (.decodeLine line) := by
  obtain ⟨hlevel, hlt, hrest⟩ := h.reached
  have haddresses := hlevel.addresses
  have houtcome := decodeLine_outcome disassembler surroundings line.currentOffset line.vaddr
  simp only [decodeStep] at hstep
  cases hresult : disassembler.decodeLine surroundings line.currentOffset line.vaddr with
  | error exception =>
      rw [hresult] at hstep
      obtain ⟨rfl, rfl⟩ := Prod.mk.inj (Option.some.inj hstep)
      exact absurd rfl (hno exception)
  | ok result =>
      rw [hresult] at hstep houtcome
      cases houtcome with
      | stays hnone =>
          obtain ⟨rfl, rfl⟩ := Prod.mk.inj (Option.some.inj hstep)
          simp only [workLeft, pointWork, if_pos (UInt64.le_refl _)]
          change 8 * (remaining disassembler).length + _ < _
          omega
      | @appends n instruction hsome hoccupies =>
          obtain ⟨rfl, rfl⟩ := Prod.mk.inj (Option.some.inj hstep)
          rw [lineRows, rowsFrom_of_some hlt hsome, List.cons_append] at hrest
          have hlength := congrArg List.length hrest
          have hdrop := congrArg List.length (take_succ_of_drop_eq_cons hrest).2.1
          simp only [workLeft, pointWork, if_neg (UInt64.not_le.mpr hoccupies.lt_next),
            ChunkStore.size_pushBack]
          change 8 * ((listed disassembler).drop _).length + _ < _
          rw [ChunkStore.size_pushBack, hdrop, hlength, List.length_cons]
          omega

theorem work_catchUp {line : Line} {nextOffset : UInt64}
    (hstep : decodeStep surroundings stopRequested disassembler (.catchUp line nextOffset) =
      some (later, next)) :
    workLeft later next < workLeft disassembler (.catchUp line nextOffset) := by
  simp only [decodeStep] at hstep
  split at hstep
  · obtain ⟨rfl, rfl⟩ := Prod.mk.inj (Option.some.inj hstep)
    simp only [workLeft, pointWork, ChunkStore.size_pushBack]
    change 8 * (remaining disassembler).length + _ < _
    omega
  · obtain ⟨rfl, rfl⟩ := Prod.mk.inj (Option.some.inj hstep)
    simp only [workLeft, pointWork]
    split <;> omega

theorem work_advance {line : Line} {nextOffset : UInt64}
    (h : Sound disassembler stopRequested (.advance line nextOffset))
    (hstep : decodeStep surroundings stopRequested disassembler (.advance line nextOffset) =
      some (later, next)) :
    workLeft later next < workLeft disassembler (.advance line nextOffset) := by
  simp only [decodeStep] at hstep
  by_cases hle : nextOffset ≤ line.currentOffset
  · rw [if_pos hle] at hstep
    obtain ⟨rfl, rfl⟩ := Prod.mk.inj (Option.some.inj hstep)
    simp only [workLeft, pointWork, if_pos hle]
    omega
  · obtain ⟨emitted, hemitted⟩ := emitDecodedLine_of_advance h hle
    rw [if_neg hle, hemitted] at hstep
    obtain ⟨rfl, rfl⟩ := Prod.mk.inj (Option.some.inj hstep)
    rw [emitDecodedLine_eq hemitted]
    simp only [workLeft, pointWork, if_neg hle]
    change 8 * (remaining disassembler).length + _ < _
    omega

/-- A statement that does not throw leaves less work. -/
theorem step_work (h : Sound disassembler stopRequested point)
    (hstep : decodeStep surroundings stopRequested disassembler point = some (later, next))
    (hno : ∀ exception, next ≠ .thrown exception) :
    workLeft later next < workLeft disassembler point := by
  cases point with
  | clear =>
      obtain ⟨rfl, rfl⟩ := Prod.mk.inj (Option.some.inj hstep)
      simp only [workLeft, pointWork]
      change 8 * ((listed disassembler).drop 0).length + _ < _
      rw [remaining, h.reached.2]
      omega
  | reserveInstructions total | reserveAddresses total =>
      simp only [decodeStep] at hstep
      split at hstep
      · obtain ⟨-, rfl⟩ := Prod.mk.inj (Option.some.inj hstep)
        exact absurd rfl (hno _)
      · obtain ⟨rfl, rfl⟩ := Prod.mk.inj (Option.some.inj hstep)
        simp only [workLeft, pointWork]
        change 8 * (remaining disassembler).length + _ < _
        omega
  | resetReady =>
      obtain ⟨rfl, rfl⟩ := Prod.mk.inj (Option.some.inj hstep)
      simp only [workLeft, pointWork]
      change 8 * (remaining disassembler).length + _ < _
      omega
  | nextSection sections =>
      cases sections with
      | nil =>
          obtain ⟨rfl, rfl⟩ := Prod.mk.inj (Option.some.inj hstep)
          simp only [workLeft, pointWork]
          omega
      | cons textSection sections =>
          obtain ⟨rfl, rfl⟩ := Prod.mk.inj (Option.some.inj hstep)
          simp only [workLeft, pointWork, List.length_cons]
          omega
  | nextLine line =>
      simp only [decodeStep] at hstep
      split_ifs at hstep
      · obtain ⟨rfl, rfl⟩ := Prod.mk.inj (Option.some.inj hstep)
        simp only [workLeft, pointWork]
        omega
      · obtain ⟨rfl, rfl⟩ := Prod.mk.inj (Option.some.inj hstep)
        simp only [workLeft, pointWork]
        omega
      · obtain ⟨rfl, rfl⟩ := Prod.mk.inj (Option.some.inj hstep)
        simp only [workLeft, pointWork]
        omega
  | decodeLine line => exact work_decodeLine h hstep hno
  | catchUp line nextOffset => exact work_catchUp hstep
  | publish line nextOffset =>
      obtain ⟨rfl, rfl⟩ := Prod.mk.inj (Option.some.inj hstep)
      simp only [workLeft, pointWork]
      change 8 * (remaining disassembler).length + _ < _
      split <;> omega
  | advance line nextOffset => exact work_advance h hstep
  | returned => contradiction
  | thrown exception => contradiction

/-- A sweep that has not ended has a statement to execute. -/
theorem exists_step (surroundings : Surroundings) (h : Sound disassembler stopRequested point)
    (hreturned : point ≠ .returned) (hthrown : ∀ exception, point ≠ .thrown exception) :
    ∃ later next,
      decodeStep surroundings stopRequested disassembler point = some (later, next) := by
  cases point with
  | clear | resetReady | publish => exact ⟨_, _, rfl⟩
  | reserveInstructions | reserveAddresses | nextLine | catchUp =>
      simp only [decodeStep]
      split_ifs <;> exact ⟨_, _, rfl⟩
  | nextSection sections => cases sections <;> exact ⟨_, _, rfl⟩
  | decodeLine line =>
      simp only [decodeStep]
      split <;> exact ⟨_, _, rfl⟩
  | advance line nextOffset =>
      simp only [decodeStep]
      split_ifs
      · exact ⟨_, _, rfl⟩
      · split <;> exact ⟨_, _, rfl⟩
  | returned => exact absurd rfl hreturned
  | thrown exception => exact absurd rfl (hthrown exception)

/-- With an x86 decoder and nothing in its way, a sweep does not throw. -/
theorem step_not_thrown (harch : makeDecoder disassembler.arch = some (.x86Decoder is64Bit))
    (h : Sound disassembler stopRequested point)
    (hstep : decodeStep {} stopRequested disassembler point = some (later, next))
    (exception : Thrown) : next ≠ .thrown exception := by
  cases point with
  | clear | resetReady | publish | reserveInstructions | reserveAddresses =>
      obtain ⟨-, rfl⟩ := Prod.mk.inj (Option.some.inj hstep)
      rintro ⟨⟩
  | nextSection sections =>
      cases sections <;> obtain ⟨-, rfl⟩ := Prod.mk.inj (Option.some.inj hstep) <;> rintro ⟨⟩
  | nextLine | catchUp =>
      simp only [decodeStep] at hstep
      split_ifs at hstep <;> obtain ⟨-, rfl⟩ := Prod.mk.inj (Option.some.inj hstep) <;> rintro ⟨⟩
  | decodeLine line =>
      simp only [decodeStep] at hstep
      cases hresult : disassembler.decodeLine {} line.currentOffset line.vaddr with
      | error exception => exact absurd hresult (decodeLine_ne_error harch _ _ exception)
      | ok result =>
          rw [hresult] at hstep
          obtain ⟨-, rfl⟩ := Prod.mk.inj (Option.some.inj hstep)
          rintro ⟨⟩
  | advance line nextOffset =>
      simp only [decodeStep] at hstep
      by_cases hle : nextOffset ≤ line.currentOffset
      · rw [if_pos hle] at hstep
        obtain ⟨-, rfl⟩ := Prod.mk.inj (Option.some.inj hstep)
        rintro ⟨⟩
      · obtain ⟨emitted, hemitted⟩ := emitDecodedLine_of_advance h hle
        rw [if_neg hle, hemitted] at hstep
        obtain ⟨-, rfl⟩ := Prod.mk.inj (Option.some.inj hstep)
        rintro ⟨⟩
  | returned => contradiction
  | thrown => contradiction

end Progress

/-- The undisturbed sweep returns with nothing left to list. -/
theorem proceed_returns {sweep : Sweep} {is64Bit : Bool}
    (harch : makeDecoder sweep.disassembler.arch = some (.x86Decoder is64Bit))
    (hrunning : sweep.stopRequested = false)
    (h : Sound sweep.disassembler sweep.stopRequested sweep.point)
    (hthrown : ∀ exception, sweep.point ≠ .thrown exception) :
    ∃ n, (sweep.proceed n).point = .returned ∧
      remaining (sweep.proceed n).disassembler = [] := by
  induction hwork : workLeft sweep.disassembler sweep.point using Nat.strong_induction_on
    generalizing sweep with
  | _ work ih =>
      by_cases hreturned : sweep.point = .returned
      · refine ⟨0, hreturned, ?_⟩
        have hreached : Reached _ _ .returned := hreturned ▸ h.reached
        exact hreached.2.resolve_left (by simp [hrunning])
      · rw [hrunning] at h
        obtain ⟨later, next, hstep⟩ := exists_step {} h hreturned hthrown
        have hno := step_not_thrown harch h hstep
        have hlt := step_work h hstep hno
        obtain ⟨hsound, hgrows⟩ := sound_step h hstep
        obtain ⟨n, hpoint, hnone⟩ := @ih _ (hwork ▸ hlt)
          { disassembler := later, point := next, stopRequested := false }
          (by rw [hgrows.arch]; exact harch) rfl hsound hno rfl
        refine ⟨n + 1, ?_⟩
        rw [Sweep.proceed, hrunning, hstep]
        exact ⟨hpoint, hnone⟩

theorem proceed_lists {disassembler : Disassembler} {is64Bit : Bool}
    (harch : makeDecoder disassembler.arch = some (.x86Decoder is64Bit))
    (h : Sound disassembler false .clear) :
    ∃ n, ((Sweep.start disassembler).proceed n).point = .returned ∧
      ((Sweep.start disassembler).proceed n).disassembler.decodedInstructions.toList =
        (listed disassembler).map Row.instruction ∧
      ((Sweep.start disassembler).proceed n).disassembler.instructionAddresses.toList =
        (listed disassembler).map Row.address := by
  obtain ⟨n, hreturned, hnone⟩ := @proceed_returns (.start disassembler) is64Bit harch rfl h nofun
  have hrun := Sweep.proceed_run n (.start disassembler)
  obtain ⟨hsound, hgrows⟩ := @sound_run (.start disassembler) _ h hrun
  have hlevel : Level _ := (hreturned ▸ hsound.reached : Reached _ _ .returned).1
  have hall := List.drop_eq_nil_iff.mp hnone
  have hlisted : listed ((Sweep.start disassembler).proceed n).disassembler =
      listed disassembler := hgrows.listed_eq
  refine ⟨n, hreturned, ?_, ?_⟩
  · rw [hsound.instructions, List.take_of_length_le hall, hlisted]
  · rw [hsound.addresses, hlevel.addresses, List.take_of_length_le hall, hlisted]

end Voidwalk.SweepProgress

import Voidwalk.SweepProgress

/-!
Consecutive calls of `decode()` on one object and the streams they print to. A call
empties the stores and leaves `nextEmitIndex` where the call before it left it.
-/

namespace Voidwalk.RepeatedDecode

open Relation (ReflTransGen)
open Voidwalk.Library
open Voidwalk.MappedFile
open Voidwalk.ChunkStorage
open Voidwalk.InstructionRendering
open Voidwalk.Disassembly
open Voidwalk.SectionListing
open Voidwalk.SweepRefinement
open Voidwalk.SweepProgress

def printed (rows : List Row) : String :=
  String.join (rows.map fun row =>
    Disassembler.emittedLine row.address row.instruction true)

/-- The next statement calls `emitDecodedLine`. -/
def Emits : Point → Prop
  | .advance line nextOffset => ¬ nextOffset ≤ line.currentOffset
  | _ => False

/-- No row is on its way from the decoder to the streams, and none is left from the
call before. -/
def Settled : Point → Prop
  | .clear | .catchUp _ _ | .publish _ _ | .advance _ _ => False
  | _ => True

/-- At this moment of a call that `first` began, what is about to be read for the
streams is there, and each stream has received the rows of the call. -/
structure Streams (first : Disassembler) (moment : Sweep) : Prop where
  in_range : Emits moment.point → moment.disassembler.outputStreams ≠ [] →
    moment.disassembler.nextEmitIndex < moment.disassembler.instructionAddresses.size ∧
      moment.disassembler.nextEmitIndex < moment.disassembler.decodedInstructions.size
  received : Settled moment.point →
    moment.disassembler.outputStreams =
      first.outputStreams.map (· ++ printed (rows moment.disassembler))

/-- The calls that an object has seen, the latest first, and what they left of it.
Nothing is called after an access outside the stores. -/
inductive Calls (constructed : Disassembler) : List Sweep → Disassembler → Prop where
  | none : Calls constructed [] constructed
  | again {calls : List Sweep} {disassembler : Disassembler} {call : Sweep}
      (hcalls : Calls constructed calls disassembler)
      (hrun : ReflTransGen SweepStep (.start disassembler) call) (hended : call.Ended)
      (hdefined : call.point ≠ .thrown .outOfRange) :
      Calls constructed (call :: calls) call.disassembler

section Opening

variable {first later : Disassembler} {point next : Point}

/-- The object as a call empties it. -/
structure Cleared (first later : Disassembler) : Prop where
  instructions : later.decodedInstructions.toList = []
  addresses : later.instructionAddresses.toList = []
  rest : later = { first with
    decodedInstructions := later.decodedInstructions
    instructionAddresses := later.instructionAddresses
    readyCount := later.readyCount }

/-- A call before its first section. -/
inductive Opening (first : Disassembler) : Disassembler → Point → Prop where
  | clear : Opening first first .clear
  | reserveInstructions {later : Disassembler} (total : UInt64) (h : Cleared first later) :
      Opening first later (.reserveInstructions total)
  | reserveAddresses {later : Disassembler} (total : UInt64) (h : Cleared first later) :
      Opening first later (.reserveAddresses total)
  | resetReady {later : Disassembler} (h : Cleared first later) :
      Opening first later .resetReady
  | failed {later : Disassembler} (h : Cleared first later) :
      Opening first later (.thrown .badAlloc)

/-- The object when the section loop begins. -/
structure Opened (first later : Disassembler) : Prop where
  cleared : Cleared first later
  ready : later.readyCount = 0

theorem opening_step {surroundings : Surroundings} {stopRequested : Bool}
    {disassembler : Disassembler} (h : Opening first disassembler point)
    (hstep : decodeStep surroundings stopRequested disassembler point = some (later, next)) :
    Opening first later next ∨
      Opened first later ∧ next = .nextSection first.commonSections.text := by
  cases h with
  | clear =>
      obtain ⟨rfl, rfl⟩ := Prod.mk.inj (Option.some.inj hstep)
      exact Or.inl (.reserveInstructions _ ⟨rfl, rfl, rfl⟩)
  | reserveInstructions total h =>
      simp only [decodeStep] at hstep
      split_ifs at hstep
      · obtain ⟨rfl, rfl⟩ := Prod.mk.inj (Option.some.inj hstep)
        exact Or.inl (.failed h)
      · obtain ⟨rfl, rfl⟩ := Prod.mk.inj (Option.some.inj hstep)
        refine Or.inl (.reserveAddresses _ ⟨h.instructions, h.addresses, ?_⟩)
        rw [h.rest]
  | reserveAddresses total h =>
      simp only [decodeStep] at hstep
      split_ifs at hstep
      · obtain ⟨rfl, rfl⟩ := Prod.mk.inj (Option.some.inj hstep)
        exact Or.inl (.failed h)
      · obtain ⟨rfl, rfl⟩ := Prod.mk.inj (Option.some.inj hstep)
        refine Or.inl (.resetReady ⟨h.instructions, h.addresses, ?_⟩)
        rw [h.rest]
  | resetReady h =>
      obtain ⟨rfl, rfl⟩ := Prod.mk.inj (Option.some.inj hstep)
      refine Or.inr ⟨⟨⟨h.instructions, h.addresses, ?_⟩, rfl⟩, ?_⟩
      · rw [h.rest]
      · rw [h.rest]
  | failed h => contradiction

/-- A moment of a call is before its sections, or comes after their loop began. -/
theorem run_opens {moment : Sweep} (hrun : ReflTransGen SweepStep (.start first) moment) :
    Opening first moment.disassembler moment.point ∨
      ∃ opened stopRequested, Opened first opened ∧
        ReflTransGen SweepStep
          ⟨opened, .nextSection first.commonSections.text, stopRequested⟩ moment := by
  induction hrun with
  | refl => exact Or.inl .clear
  | @tail moment after _ hstep ih =>
      rcases ih with hopening | ⟨opened, stopRequested, hopened, hrest⟩
      · cases hstep with
        | requestStop => exact Or.inl hopening
        | @work later next surroundings hstep =>
            rcases opening_step hopening hstep with hopening | ⟨hopened, rfl⟩
            · exact Or.inl hopening
            · exact Or.inr ⟨later, _, hopened, .refl⟩
      · exact Or.inr ⟨opened, stopRequested, hopened, hrest.tail hstep⟩

/-- An undisturbed call gets to its sections. -/
theorem start_opens (first : Disassembler) :
    ∃ opened, Opened first opened ∧
      ReflTransGen SweepStep (.start first)
        ⟨opened, .nextSection first.commonSections.text, false⟩ :=
  ⟨_, ⟨⟨rfl, rfl, rfl⟩, rfl⟩, Sweep.proceed_run 4 (.start first)⟩

end Opening

section Reindex

def reindex (n : Nat) (disassembler : Disassembler) : Disassembler :=
  { disassembler with nextEmitIndex := n }

def reindexSweep (n : Nat) (sweep : Sweep) : Sweep :=
  { sweep with disassembler := reindex n sweep.disassembler }

variable {surroundings : Surroundings} {stopRequested : Bool} {disassembler later : Disassembler}
  {point next : Point} {sweep after : Sweep}

/-- Only printing reads the index or changes it, and only it reaches the streams. -/
theorem decodeStep_reindex (n : Nat) (hpoint : ¬ Emits point) :
    decodeStep surroundings stopRequested (reindex n disassembler) point =
      (decodeStep surroundings stopRequested disassembler point).map
        fun result => (reindex n result.1, result.2) := by
  cases point with
  | reserveInstructions | reserveAddresses =>
      simp only [decodeStep]
      split <;> rfl
  | nextSection sections => cases sections <;> rfl
  | nextLine line =>
      simp only [decodeStep]
      split
      · split <;> rfl
      · rfl
  | decodeLine line =>
      simp only [decodeStep]
      have hsame : (reindex n disassembler).decodeLine surroundings line.currentOffset line.vaddr =
          disassembler.decodeLine surroundings line.currentOffset line.vaddr := rfl
      rw [hsame]
      cases disassembler.decodeLine surroundings line.currentOffset line.vaddr <;> rfl
  | catchUp line nextOffset =>
      simp only [decodeStep]
      by_cases hlt : disassembler.instructionAddresses.size <
          disassembler.decodedInstructions.size
      · rw [if_pos hlt]
        exact if_pos hlt
      · rw [if_neg hlt]
        exact if_neg hlt
  | advance line nextOffset =>
      have hle : nextOffset ≤ line.currentOffset := Decidable.not_not.mp hpoint
      simp only [decodeStep, if_pos hle]
      rfl
  | _ => rfl

theorem unprinted_step (hpoint : ¬ Emits point)
    (hstep : decodeStep surroundings stopRequested disassembler point = some (later, next)) :
    later.nextEmitIndex = disassembler.nextEmitIndex ∧
      later.outputStreams = disassembler.outputStreams := by
  cases point with
  | reserveInstructions | reserveAddresses | nextLine | catchUp =>
      simp only [decodeStep] at hstep
      split_ifs at hstep <;> obtain ⟨rfl, rfl⟩ := Prod.mk.inj (Option.some.inj hstep) <;>
        exact ⟨rfl, rfl⟩
  | nextSection sections =>
      cases sections <;> obtain ⟨rfl, rfl⟩ := Prod.mk.inj (Option.some.inj hstep) <;>
        exact ⟨rfl, rfl⟩
  | clear | resetReady | publish =>
      obtain ⟨rfl, rfl⟩ := Prod.mk.inj (Option.some.inj hstep)
      exact ⟨rfl, rfl⟩
  | decodeLine line =>
      simp only [decodeStep] at hstep
      split at hstep <;> obtain ⟨rfl, rfl⟩ := Prod.mk.inj (Option.some.inj hstep) <;>
        exact ⟨rfl, rfl⟩
  | advance line nextOffset =>
      have hle : nextOffset ≤ line.currentOffset := Decidable.not_not.mp hpoint
      simp only [decodeStep, if_pos hle] at hstep
      obtain ⟨rfl, rfl⟩ := Prod.mk.inj (Option.some.inj hstep)
      exact ⟨rfl, rfl⟩
  | returned | thrown => contradiction

theorem step_reindex (n : Nat) (hpoint : ¬ Emits sweep.point) (hstep : SweepStep sweep after) :
    SweepStep (reindexSweep n sweep) (reindexSweep n after) := by
  cases hstep with
  | requestStop => exact .requestStop
  | work surroundings hstep =>
      refine .work surroundings ?_
      change decodeStep _ sweep.stopRequested (reindex n sweep.disassembler) sweep.point = _
      rw [decodeStep_reindex n hpoint, hstep]
      rfl

theorem unprinted_sweepStep (hpoint : ¬ Emits sweep.point) (hstep : SweepStep sweep after) :
    after.disassembler.nextEmitIndex = sweep.disassembler.nextEmitIndex ∧
      after.disassembler.outputStreams = sweep.disassembler.outputStreams := by
  cases hstep with
  | requestStop => exact ⟨rfl, rfl⟩
  | work surroundings hstep => exact unprinted_step hpoint hstep

/-- Until its first print a run goes the same way from any index. -/
theorem run_reindex (n : Nat) (hrun : ReflTransGen SweepStep sweep after) :
    ∃ moment, ReflTransGen SweepStep sweep moment ∧
      ReflTransGen SweepStep (reindexSweep n sweep) (reindexSweep n moment) ∧
      moment.disassembler.nextEmitIndex = sweep.disassembler.nextEmitIndex ∧
      moment.disassembler.outputStreams = sweep.disassembler.outputStreams ∧
      (moment = after ∨ Emits moment.point) := by
  induction hrun with
  | refl => exact ⟨sweep, .refl, .refl, rfl, rfl, Or.inl rfl⟩
  | @tail before after _ hstep ih =>
      obtain ⟨moment, hrun, hreindexed, hindex, hstreams, rfl | hemits⟩ := ih
      · by_cases hpoint : Emits moment.point
        · exact ⟨moment, hrun, hreindexed, hindex, hstreams, Or.inr hpoint⟩
        · obtain ⟨hindex', hstreams'⟩ := unprinted_sweepStep hpoint hstep
          exact ⟨after, hrun.tail hstep, hreindexed.tail (step_reindex n hpoint hstep),
            hindex'.trans hindex, hstreams'.trans hstreams, Or.inl rfl⟩
      · exact ⟨moment, hrun, hreindexed, hindex, hstreams, Or.inr hemits⟩

end Reindex

section Printing

variable {first disassembler : Disassembler} {sweep after moment : Sweep}

/-- The streams have received as many rows of the listing as the index counts. -/
def Received (first disassembler : Disassembler) : Prop :=
  disassembler.outputStreams = first.outputStreams.map
    (· ++ printed ((listed disassembler).take disassembler.nextEmitIndex))

theorem sound_opened (h : Opened first disassembler) (hindex : first.nextEmitIndex = 0)
    (stopRequested : Bool) :
    Sound disassembler stopRequested (.nextSection first.commonSections.text) ∧
      Received first disassembler := by
  have hinstructions := congrArg List.length h.cleared.instructions
  have haddresses := congrArg List.length h.cleared.addresses
  rw [ChunkStore.length_toList] at hinstructions haddresses
  have hemitted : disassembler.nextEmitIndex = 0 := by
    rw [h.cleared.rest]
    exact hindex
  refine ⟨⟨?_, ?_, ⟨?_, ?_, ?_⟩, Or.inr ?_⟩, ?_⟩
  · rw [h.cleared.instructions, hinstructions]
    rfl
  · rw [h.cleared.addresses, haddresses]
    rfl
  · exact haddresses.trans hinstructions.symm
  · rw [h.ready, hinstructions]
    rfl
  · rw [hemitted, hinstructions]
    rfl
  · rw [remaining, hinstructions, listed, h.cleared.rest]
    rfl
  · rw [Received, hemitted, h.cleared.rest]
    simp [printed]

theorem received_emit {line : Line} {nextOffset : UInt64} {stopRequested : Bool}
    (h : Sound disassembler stopRequested (.advance line nextOffset))
    (hreceived : Received first disassembler) (hnot : ¬ nextOffset ≤ line.currentOffset)
    {emitted : Disassembler} (hemitted : disassembler.emitDecodedLine true = .ok emitted) :
    Received first emitted := by
  obtain ⟨hdecoded, -, haddresses⟩ := h.reached
  have hindex := (hdecoded.appends hnot).1
  have hinstruction : disassembler.nextEmitIndex < disassembler.decodedInstructions.size := by
    omega
  have haddress : disassembler.nextEmitIndex < disassembler.instructionAddresses.size := by
    omega
  obtain ⟨row, hrow⟩ : ∃ row, (listed disassembler)[disassembler.nextEmitIndex]? = some row :=
    ⟨_, List.getElem?_eq_getElem (hinstruction.trans_le h.size_le)⟩
  have hprinted := @emitDecodedLine_of_rows disassembler row.address row.instruction true
    (by rw [h.addresses, List.getElem?_map, List.getElem?_take_of_lt haddress, hrow]; rfl)
    (by rw [h.instructions, List.getElem?_map, List.getElem?_take_of_lt hinstruction, hrow]; rfl)
  obtain rfl := Except.ok.inj (hprinted.symm.trans hemitted)
  change List.map _ disassembler.outputStreams = List.map
    (· ++ printed ((listed disassembler).take (disassembler.nextEmitIndex + 1))) _
  rw [hreceived, List.map_map, List.take_add_one, hrow]
  simp [printed, String.join_append, String.append_assoc, Function.comp_def]

theorem received_step {surroundings : Surroundings} {stopRequested : Bool} {point next : Point}
    {later : Disassembler} (h : Sound disassembler stopRequested point)
    (hreceived : Received first disassembler)
    (hstep : decodeStep surroundings stopRequested disassembler point = some (later, next)) :
    Received first later := by
  by_cases hpoint : Emits point
  · cases point with
    | advance line nextOffset =>
        have hnot : ¬ nextOffset ≤ line.currentOffset := hpoint
        obtain ⟨emitted, hemitted⟩ := emitDecodedLine_of_advance h hnot
        simp only [decodeStep, if_neg hnot, hemitted] at hstep
        obtain ⟨rfl, rfl⟩ := Prod.mk.inj (Option.some.inj hstep)
        exact received_emit h hreceived hnot hemitted
    | _ => exact hpoint.elim
  · obtain ⟨hindex, hstreams⟩ := unprinted_step hpoint hstep
    rw [Received, hindex, hstreams, (sound_step h hstep).2.listed_eq]
    exact hreceived

theorem received_run (h : Sound sweep.disassembler sweep.stopRequested sweep.point)
    (hreceived : Received first sweep.disassembler)
    (hrun : ReflTransGen SweepStep sweep after) :
    Sound after.disassembler after.stopRequested after.point ∧
      Received first after.disassembler := by
  refine Runs.preserved (I := fun moment =>
    Sound moment.disassembler moment.stopRequested moment.point ∧
      Received first moment.disassembler) ?_ hrun ⟨h, hreceived⟩
  rintro moment later ⟨hsound, hreceived⟩ hstep
  refine ⟨(sound_sweepStep hsound hstep).1, ?_⟩
  cases hstep with
  | requestStop => exact hreceived
  | work surroundings hstep => exact received_step hsound hreceived hstep

theorem level_of_settled {stopRequested : Bool} {point : Point}
    (h : Sound disassembler stopRequested point) (hpoint : Settled point) :
    Level disassembler := by
  have hreached := h.reached
  cases point with
  | clear | catchUp | publish | advance => exact hpoint.elim
  | _ => exact hreached.1

theorem streams_of_sound
    (h : Sound moment.disassembler moment.stopRequested moment.point)
    (hreceived : Received first moment.disassembler) : Streams first moment where
  in_range := by
    obtain ⟨disassembler, point, stopRequested⟩ := moment
    intro hpoint _
    cases point with
    | advance line nextOffset =>
        obtain ⟨hdecoded, -, haddresses⟩ := h.reached
        have hindex := (hdecoded.appends hpoint).1
        exact ⟨by omega, by omega⟩
    | _ => exact hpoint.elim
  received := by
    intro hpoint
    have hlevel := level_of_settled h hpoint
    rw [h.rows_eq hlevel.addresses, ← hlevel.emitted]
    exact hreceived

theorem rows_of_cleared (h : Cleared first disassembler) : rows disassembler = [] := by
  rw [rows, h.addresses]
  rfl

theorem streams_of_opening {point : Point} {stopRequested : Bool}
    (h : Opening first disassembler point) :
    Streams first ⟨disassembler, point, stopRequested⟩ where
  in_range := by
    intro hpoint
    cases h <;> exact hpoint.elim
  received := by
    intro hpoint
    have hcleared : Cleared first disassembler := by
      cases h with
      | clear => exact hpoint.elim
      | reserveInstructions _ h | reserveAddresses _ h | resetReady h | failed h => exact h
    change disassembler.outputStreams = _
    rw [rows_of_cleared hcleared, hcleared.rest]
    simp [printed]

/-- From index zero a call prints what it lists. -/
theorem streams_of_index_zero (hindex : first.nextEmitIndex = 0)
    (hrun : ReflTransGen SweepStep (.start first) moment) : Streams first moment := by
  rcases run_opens hrun with hopening | ⟨opened, stopRequested, hopened, hrest⟩
  · exact streams_of_opening hopening
  · obtain ⟨hsound, hreceived⟩ := sound_opened hopened hindex stopRequested
    obtain ⟨hsound, hreceived⟩ := @received_run first ⟨opened, _, stopRequested⟩ _
      hsound hreceived hrest
    exact streams_of_sound hsound hreceived

theorem opened_reindex {n : Nat} (h : Opened first disassembler) :
    Opened (reindex n first) (reindex n disassembler) := by
  refine ⟨⟨h.cleared.instructions, h.cleared.addresses, ?_⟩, h.ready⟩
  rw [h.cleared.rest]
  rfl

/-- With nothing to list a call prints nothing, from any index. -/
theorem streams_of_listed_nil (hnone : listed first = [])
    (hrun : ReflTransGen SweepStep (.start first) moment) : Streams first moment := by
  rcases run_opens hrun with hopening | ⟨opened, stopRequested, hopened, hrest⟩
  · exact streams_of_opening hopening
  · have hopenedZero : Opened (reindex 0 first) (reindex 0 opened) := opened_reindex hopened
    obtain ⟨hsound, -⟩ := sound_opened hopenedZero rfl stopRequested
    have hlisted : listed opened = [] := by
      rw [listed, hopened.cleared.rest]
      exact hnone
    obtain ⟨reached, -, hzero, -, hstreams, hmoment⟩ := run_reindex 0 hrest
    obtain ⟨hsound, hgrows⟩ := @sound_run
      (reindexSweep 0 ⟨opened, .nextSection first.commonSections.text, stopRequested⟩) _
      hsound hzero
    have hsize : reached.disassembler.decodedInstructions.size = 0 := by
      have hle := hsound.size_le
      rw [hgrows.listed_eq] at hle
      exact Nat.le_zero.mp (hle.trans (congrArg List.length hlisted).le)
    have hquiet : ¬ Emits reached.point := by
      obtain ⟨later, point, stop⟩ := reached
      intro hpoint
      cases point with
      | advance line nextOffset =>
          exact absurd ((hsound.reached.1.appends hpoint).1.trans hsize) (Nat.succ_ne_zero _)
      | _ => exact hpoint.elim
    obtain rfl : reached = moment := hmoment.resolve_right hquiet
    refine ⟨fun hpoint => absurd hpoint hquiet, fun _ => ?_⟩
    have hempty : reached.disassembler.decodedInstructions.toList = [] :=
      List.eq_nil_of_length_eq_zero (by rw [ChunkStore.length_toList, hsize])
    rw [hstreams, rows, hempty, List.zipWith_nil_right]
    change opened.outputStreams = _
    rw [hopened.cleared.rest]
    simp [printed]

/-- From any other index the first print of a call reads behind its single row. -/
theorem out_of_range {is64Bit : Bool}
    (harch : makeDecoder first.arch = some (.x86Decoder is64Bit)) (hlisted : listed first ≠ [])
    (hindex : first.nextEmitIndex ≠ 0) :
    ∃ moment, ReflTransGen SweepStep (.start first) moment ∧ Emits moment.point ∧
      moment.disassembler.outputStreams = first.outputStreams ∧
      moment.disassembler.decodedInstructions.size ≤ moment.disassembler.nextEmitIndex := by
  obtain ⟨opened, hopened, hopens⟩ := start_opens first
  have hopenedZero : Opened (reindex 0 first) (reindex 0 opened) := opened_reindex hopened
  obtain ⟨hsound, -⟩ := sound_opened hopenedZero rfl false
  have harchZero : makeDecoder (reindex 0 opened).arch = some (.x86Decoder is64Bit) := by
    rw [reindex, hopened.cleared.rest]
    exact harch
  obtain ⟨n, hreturned, hnone⟩ := @proceed_returns
    ⟨reindex 0 opened, .nextSection first.commonSections.text, false⟩ is64Bit
    harchZero rfl hsound nofun
  obtain ⟨moment, hzero, hmoment, hindexZero, hstreams, hends⟩ :=
    run_reindex first.nextEmitIndex
      (Sweep.proceed_run n ⟨reindex 0 opened, .nextSection first.commonSections.text, false⟩)
  obtain ⟨hsoundMoment, hgrows⟩ := @sound_run
    ⟨reindex 0 opened, .nextSection first.commonSections.text, false⟩ _ hsound hzero
  have hopenedFirst : reindexSweep first.nextEmitIndex
      ⟨reindex 0 opened, .nextSection first.commonSections.text, false⟩ =
      ⟨opened, .nextSection first.commonSections.text, false⟩ := by
    rw [reindexSweep, reindex, reindex, hopened.cleared.rest]
  rw [hopenedFirst] at hmoment
  have hemits : Emits moment.point := by
    rcases hends with rfl | hemits
    · -- The call has returned with every row listed, yet counted none.
      exfalso
      have hlevel : Level _ := (hreturned ▸ hsoundMoment.reached : Reached _ _ .returned).1
      have hsize := hlevel.emitted.symm.trans hindexZero
      rw [remaining, hsize, hgrows.listed_eq] at hnone
      apply hlisted
      rw [← hnone, reindex, listed, hopened.cleared.rest]
      rfl
    · exact hemits
  refine ⟨reindexSweep first.nextEmitIndex moment, hopens.trans hmoment, hemits, ?_, ?_⟩
  · change moment.disassembler.outputStreams = _
    rw [hstreams, reindex, hopened.cleared.rest]
  · obtain ⟨disassembler, point, stopRequested⟩ := moment
    cases point with
    | advance line nextOffset =>
        have hsize := (hsoundMoment.reached.1.appends hemits).1
        change disassembler.nextEmitIndex = 0 at hindexZero
        change disassembler.nextEmitIndex + 1 = disassembler.decodedInstructions.size at hsize
        change disassembler.decodedInstructions.size ≤ first.nextEmitIndex
        omega
    | _ => exact hemits.elim

theorem listed_of_not_x86
    (harch : ∀ is64Bit, makeDecoder first.arch ≠ some (.x86Decoder is64Bit)) :
    listed first = [] := by
  rw [listed, listing, List.flatMap_eq_nil_iff]
  intro textSection _
  exact rowsFrom_of_none (instructionAt_of_not_x86 harch _ _)

/-- A call streams right at every moment exactly when it begins at index zero or the
file has no line to list. -/
theorem streams_iff (hstreams : first.outputStreams ≠ []) :
    (∀ moment, ReflTransGen SweepStep (.start first) moment → Streams first moment) ↔
      first.nextEmitIndex = 0 ∨ listed first = [] := by
  constructor
  · intro hall
    by_contra hnot
    obtain ⟨hindex, hlisted⟩ := not_or.mp hnot
    by_cases hx86 : ∃ is64Bit, makeDecoder first.arch = some (.x86Decoder is64Bit)
    · obtain ⟨is64Bit, harch⟩ := hx86
      obtain ⟨moment, hrun, hemits, hsame, hbeyond⟩ := out_of_range harch hlisted hindex
      have hrange := ((hall moment hrun).in_range hemits (hsame ▸ hstreams)).2
      exact absurd hrange (Nat.not_lt.mpr hbeyond)
    · exact hlisted (listed_of_not_x86 (not_exists.mp hx86))
  · rintro (hindex | hlisted) moment hrun
    · exact streams_of_index_zero hindex hrun
    · exact streams_of_listed_nil hlisted hrun

end Printing

section History

variable {disassembler later constructed : Disassembler} {calls : List Sweep}

/-- What no statement of a call takes back. -/
structure Continues (disassembler later : Disassembler) : Prop where
  contents : later.contents = disassembler.contents
  arch : later.arch = disassembler.arch
  sections : later.commonSections = disassembler.commonSections
  index_le : disassembler.nextEmitIndex ≤ later.nextEmitIndex
  streams : disassembler.outputStreams ≠ [] → later.outputStreams ≠ []

theorem Continues.trans {third : Disassembler} (h : Continues disassembler later)
    (h' : Continues later third) : Continues disassembler third where
  contents := h'.contents.trans h.contents
  arch := h'.arch.trans h.arch
  sections := h'.sections.trans h.sections
  index_le := h.index_le.trans h'.index_le
  streams := fun hne => h'.streams (h.streams hne)

theorem Continues.listed_eq (h : Continues disassembler later) :
    listed later = listed disassembler := by
  rw [listed, h.contents, h.arch, h.sections, listed]

theorem continues_emit {showVaddr : Bool}
    (h : disassembler.emitDecodedLine showVaddr = .ok later) : Continues disassembler later := by
  have hlater := emitDecodedLine_eq h
  refine ⟨?_, ?_, ?_, ?_, ?_⟩
  · rw [hlater]
  · rw [hlater]
  · rw [hlater]
  · rw [hlater]
    exact Nat.le_succ _
  · intro hne hnil
    obtain ⟨stream, streams, hstreams⟩ := List.exists_cons_of_ne_nil hne
    simp only [Disassembler.emitDecodedLine, hstreams, List.mapM_cons, bind, Except.bind] at h
    split at h
    · contradiction
    · rename_i printed hprinted
      obtain rfl := Except.ok.inj h
      obtain rfl : printed = [] := hnil
      split at hprinted
      · contradiction
      · split at hprinted
        · contradiction
        · exact absurd (Except.ok.inj hprinted) (List.cons_ne_nil _ _)

theorem continues_step {surroundings : Surroundings} {stopRequested : Bool} {point next : Point}
    (hstep : decodeStep surroundings stopRequested disassembler point = some (later, next)) :
    Continues disassembler later := by
  have hsame : ∀ {instructions addresses ready}, later = { disassembler with
      decodedInstructions := instructions
      instructionAddresses := addresses
      readyCount := ready } → Continues disassembler later := by
    rintro _ _ _ rfl
    exact ⟨rfl, rfl, rfl, Nat.le_refl _, id⟩
  cases point with
  | reserveInstructions | reserveAddresses | nextLine | catchUp =>
      simp only [decodeStep] at hstep
      split_ifs at hstep <;> obtain ⟨rfl, rfl⟩ := Prod.mk.inj (Option.some.inj hstep) <;>
        exact hsame rfl
  | nextSection sections =>
      cases sections <;> obtain ⟨rfl, rfl⟩ := Prod.mk.inj (Option.some.inj hstep) <;>
        exact hsame rfl
  | clear | resetReady | publish =>
      obtain ⟨rfl, rfl⟩ := Prod.mk.inj (Option.some.inj hstep)
      exact hsame rfl
  | decodeLine line =>
      simp only [decodeStep] at hstep
      split at hstep <;> obtain ⟨rfl, rfl⟩ := Prod.mk.inj (Option.some.inj hstep) <;>
        exact hsame rfl
  | advance line nextOffset =>
      simp only [decodeStep] at hstep
      by_cases hle : nextOffset ≤ line.currentOffset
      · rw [if_pos hle] at hstep
        obtain ⟨rfl, rfl⟩ := Prod.mk.inj (Option.some.inj hstep)
        exact hsame rfl
      · rw [if_neg hle] at hstep
        split at hstep
        · obtain ⟨rfl, rfl⟩ := Prod.mk.inj (Option.some.inj hstep)
          exact hsame rfl
        · rename_i emitted hemitted
          obtain ⟨rfl, rfl⟩ := Prod.mk.inj (Option.some.inj hstep)
          exact continues_emit hemitted
  | returned | thrown => contradiction

theorem continues_run {sweep after : Sweep} (hrun : ReflTransGen SweepStep sweep after) :
    Continues sweep.disassembler after.disassembler := by
  induction hrun with
  | refl => exact ⟨rfl, rfl, rfl, Nat.le_refl _, id⟩
  | tail _ hstep ih =>
      cases hstep with
      | requestStop => exact ih
      | work surroundings hstep => exact ih.trans (continues_step hstep)

/-- A call that begins at index zero ends there exactly when it gave no row. -/
theorem index_of_ended {call : Sweep} (hindex : disassembler.nextEmitIndex = 0)
    (hrun : ReflTransGen SweepStep (.start disassembler) call) (hended : call.Ended) :
    call.disassembler.nextEmitIndex = 0 ↔ rows call.disassembler = [] := by
  rcases run_opens hrun with hopening | ⟨opened, stopRequested, hopened, hrest⟩
  · obtain ⟨last, point, stop⟩ := call
    rcases hended with rfl | ⟨exception, rfl⟩
    · cases hopening
    · cases hopening with
      | failed hcleared =>
          refine iff_of_true ?_ (rows_of_cleared hcleared)
          rw [hcleared.rest]
          exact hindex
  · obtain ⟨hsound, -⟩ := sound_opened hopened hindex stopRequested
    obtain ⟨hsound, -⟩ := @sound_run ⟨opened, _, stopRequested⟩ _ hsound hrest
    have hsettled : Settled call.point := by
      rcases hended with hpoint | ⟨exception, hpoint⟩ <;> rw [hpoint] <;> trivial
    have hlevel := level_of_settled hsound hsettled
    have hlength : (rows call.disassembler).length = call.disassembler.nextEmitIndex := by
      rw [hsound.rows_eq hlevel.addresses, List.length_take, Nat.min_eq_left hsound.size_le,
        hlevel.emitted]
    rw [← hlength, List.length_eq_zero_iff]

theorem calls_continue (h : Calls constructed calls disassembler) :
    Continues constructed disassembler := by
  induction h with
  | none => exact ⟨rfl, rfl, rfl, Nat.le_refl _, id⟩
  | again _ hrun _ _ ih => exact ih.trans (continues_run hrun)

theorem calls_index (h : Calls constructed calls disassembler)
    (hindex : constructed.nextEmitIndex = 0) :
    disassembler.nextEmitIndex = 0 ↔ ∀ call ∈ calls, rows call.disassembler = [] := by
  induction h with
  | none => simp [hindex]
  | @again calls before call _ hrun hended _ ih =>
      rw [List.forall_mem_cons, ← ih]
      constructor
      · intro hzero
        have hbefore : before.nextEmitIndex = 0 :=
          Nat.le_zero.mp ((continues_run hrun).index_le.trans hzero.le)
        exact ⟨(index_of_ended hbefore hrun hended).mp hzero, hbefore⟩
      · rintro ⟨hrows, hbefore⟩
        exact (index_of_ended hbefore hrun hended).mpr hrows

/-- After any calls on an object, the next one streams its rows right exactly when
none before it has given a row, or when there are none to give. -/
theorem repeated_decode_streams (contents : AddressSpace) (arch : Arch)
    (commonSections : Sections) (entryAddress : UInt64) (outputStreams : List String)
    (hstreams : outputStreams ≠ [])
    (hcalls : Calls (.construct contents arch commonSections entryAddress outputStreams) calls
      disassembler) :
    (∀ moment, ReflTransGen SweepStep (.start disassembler) moment →
      Streams disassembler moment) ↔
      (∀ call ∈ calls, rows call.disassembler = []) ∨
        listing contents arch commonSections.text = [] := by
  have hcontinues := calls_continue hcalls
  rw [streams_iff (hcontinues.streams hstreams), calls_index hcalls rfl, hcontinues.listed_eq]
  rfl

end History

/-- One NOP and one stream. -/
def nopStreamed : Disassembler :=
  .construct ⟨[0x90], length_nop⟩ .x86_64 { text := [⟨0x1000, 0, 1⟩] } 0x1000 [""]

/-- A first call that is stopped before its first row. -/
def stoppedCall : Sweep :=
  Sweep.proceed 16 { Sweep.start nopStreamed with stopRequested := true }

theorem stoppedCall_calls : Calls nopStreamed [stoppedCall] stoppedCall.disassembler := by
  refine .again .none ?_ (Or.inl (by decide +kernel)) (by decide +kernel)
  exact (ReflTransGen.single .requestStop).trans (Sweep.proceed_run 16 _)

/-- The call behind it streams the row. -/
theorem repeated_decode_streams_afterStop :
    Streams stoppedCall.disassembler ((Sweep.start stoppedCall.disassembler).proceed 16) ∧
      (rows ((Sweep.start stoppedCall.disassembler).proceed 16).disassembler).length = 1 := by
  have hnone : rows stoppedCall.disassembler = [] := by
    rw [← List.length_eq_zero_iff]
    decide +kernel
  refine ⟨?_, by decide +kernel⟩
  refine (repeated_decode_streams _ _ _ _ [""] (List.cons_ne_nil _ _) stoppedCall_calls).mpr
    (Or.inl ?_) _ (Sweep.proceed_run 16 _)
  exact List.forall_mem_singleton.mpr hnone

/-- The second call finds the index at one and a single row in its stores. -/
theorem second_call_out_of_range :
    ∃ first, Calls nopStreamed [first] first.disassembler ∧
      ∃ moment, ReflTransGen SweepStep (.start first.disassembler) moment ∧
        moment.point = .thrown .outOfRange ∧ ¬ Streams first.disassembler moment := by
  have hthrown :
      ((Sweep.start ((Sweep.start nopStreamed).proceed 16).disassembler).proceed 16).point =
        .thrown .outOfRange := by decide +kernel
  refine ⟨(Sweep.start nopStreamed).proceed 16, .again .none (Sweep.proceed_run _ _) ?_ ?_,
    _, Sweep.proceed_run 16 _, hthrown, ?_⟩
  · exact Or.inl (by decide +kernel)
  · decide +kernel
  · intro h
    have hreceived := h.received (by rw [hthrown]; trivial)
    exact absurd hreceived (by decide +kernel)

end Voidwalk.RepeatedDecode

import Voidwalk.ImmediateBytes

/-!
The control flow that a row carries is the one that its text shows: the name says of what kind
it is, and a branch to a number goes to that number.
-/

namespace Voidwalk.FlowNames

open Voidwalk.MappedFile
open Voidwalk.ChunkStorage
open Voidwalk.OpcodeRows
open Voidwalk.OneByteTables
open Voidwalk.TwoByteTables
open Voidwalk.ThreeByteTables
open Voidwalk.RowResolution
open Voidwalk.InstructionDecoding
open Voidwalk.InstructionRendering
open Voidwalk.DecodeLineContract
open Voidwalk.SelfDelimiting
open Voidwalk.MemoryRows
open Voidwalk.OperandTexts
open Voidwalk.RowTexts
open Voidwalk.RowKinds
open Voidwalk.RowLookups
open Voidwalk.LegacyWords
open Voidwalk.DecodedFields
open Voidwalk.EncodableNames
open Voidwalk.ImmediateBytes
open Voidwalk.Library.Bytes
open Voidwalk.Library.SumText
open Voidwalk.Library.SeparatedText
open Voidwalk.Library.CountingReader

/-- The names of the instructions that leave the straight line. -/
def branchNames : List (String × Flow) :=
  [("CALL", .Call), ("CALLF", .Call), ("JMP", .Jump), ("JMPF", .Jump), ("RET", .Return),
    ("RETF", .Return), ("IRET", .Return), ("IRETD", .Return), ("IRETQ", .Return)] ++
  ["JO", "JNO", "JB", "JNB", "JZ", "JNZ", "JBE", "JA", "JS", "JNS", "JP", "JNP", "JL", "JNL",
    "JLE", "JNLE", "LOOPNZ", "LOOPZ", "LOOP", "JCXZ", "JECXZ", "JRCXZ"].map (·, .CondJump)

def flowNamed (name : String) : Flow := (branchNames.lookup name).getD .None

/-- The flow that the name in a row's text stands for. -/
def shownFlow (text : String) : Flow := flowNamed (String.ofList (shownName text.toList))

/-- The number that a call or a jump names in its text, 0 where it names none. -/
def shownTarget (text : String) : Nat :=
  if shownFlow text ∈ [Flow.Call, .Jump, .CondJump] then
    ((operandTexts text.toList).head?.bind hexNumber).getD 0
  else 0

section Rows

/-- The flow of an opcode under the digit in its ModRM byte. -/
def opcodeFlow (map opcode regField : UInt8) : Flow :=
  if map = 0 then
    if opcode = 0xE8 ∨ opcode = 0x9A ∨ (opcode = 0xFF ∧ (regField = 2 ∨ regField = 3)) then .Call
    else if opcode = 0xE9 ∨ opcode = 0xEB ∨ opcode = 0xEA ∨
      (opcode = 0xFF ∧ (regField = 4 ∨ regField = 5)) then .Jump
    else if (opcode ≥ 0x70 ∧ opcode ≤ 0x7F) ∨ (opcode ≥ 0xE0 ∧ opcode ≤ 0xE3) then .CondJump
    else if opcode = 0xC2 ∨ opcode = 0xC3 ∨ opcode = 0xCA ∨ opcode = 0xCB ∨ opcode = 0xCF then
      .Return
    else .None
  else if map = 1 ∧ opcode ≥ 0x80 ∧ opcode ≤ 0x8F then .CondJump
  else .None

theorem flowOf_eq (fields : Fields) (simd : Simd) :
    flowOf fields simd = opcodeFlow simd.map fields.opcode (fields.reg &&& 7) := rfl

/-- A name of a row whose flow is `flow`, or none at all. -/
def Flows (flow : Flow) (name : String) : Prop := name = "" ∨ flowNamed name = flow

instance (flow : Flow) (name : String) : Decidable (Flows flow name) :=
  inferInstanceAs (Decidable (_ ∨ _))

/-- The first operand of a branch is a target, a far address or a place in a register or in
memory; a return takes at most an immediate. -/
def BranchOperand (flow : Flow) (mode : Addressing) : Prop :=
  mode ∈ if flow = .Return then [Addressing.None, .I] else [Addressing.J, .A, .E, .M]

instance (flow : Flow) (mode : Addressing) : Decidable (BranchOperand flow mode) :=
  inferInstanceAs (Decidable (_ ∈ _))

/-- The names and the first operand of a row whose opcode has the flow `flow`. -/
structure FlowRow (flow : Flow) (info : OpcodeInfo) : Prop where
  text : info.text = "(bad)" ∨ Flows flow info.text
  text16 : Flows flow info.text16
  text64 : Flows flow info.text64
  operand : flow ≠ .None → info.text ∉ ["", "(bad)"] →
    BranchOperand flow (firstOperand info.operands).addressingMode

instance (flow : Flow) (info : OpcodeInfo) : Decidable (FlowRow flow info) :=
  decidable_of_iff (_ ∧ _ ∧ _ ∧ _)
    ⟨fun h => ⟨h.1, h.2.1, h.2.2.1, h.2.2.2⟩, fun h => ⟨h.1, h.2, h.3, h.4⟩⟩

/-- The rows of a flow that the lookups keep. Only those without one escape to a group. -/
structure Keeps (flow : Flow) (info : OpcodeInfo) : Prop where
  row : FlowRow flow info
  ungrouped : flow ≠ .None → info.groupNumber ≤ 0

theorem flows_none (flow : Flow) : Flows flow "" := Or.inl rfl

theorem keeps_unnamed (flow : Flow) (hasImm8 : Bool) : Keeps flow (threeByteRow hasImm8) := by
  cases hasImm8 with
  | false =>
      exact ⟨⟨Or.inl rfl, flows_none _, flows_none _, fun _ h => absurd (by decide) h⟩,
        fun _ => by decide⟩
  | true =>
      exact ⟨⟨Or.inl rfl, flows_none _, flows_none _, fun _ h => absurd (by decide) h⟩,
        fun _ => by decide⟩

/-- Without a flow only the names count. -/
theorem keeps_straight {info : OpcodeInfo}
    (htext : info.text = "(bad)" ∨ Flows .None info.text) (htext16 : Flows .None info.text16)
    (htext64 : Flows .None info.text64) : Keeps .None info :=
  ⟨⟨htext, htext16, htext64, fun h => absurd rfl h⟩, fun h => absurd rfl h⟩

theorem FlowRow.straight {info : OpcodeInfo} (h : FlowRow .None info) : Keeps .None info :=
  keeps_straight h.text h.text16 h.text64

theorem Keeps.renamed {row : OpcodeInfo} (h : Keeps .None row) {name : String}
    (hname : name ∈ formNames) : Keeps .None { row with text := name } := by
  have hnames : ∀ name ∈ formNames, Flows .None name := by
    decide
  exact keeps_straight (Or.inr (hnames name hname)) h.row.text16 h.row.text64

theorem sse2Twin_eq (row : OpcodeInfo) :
    sse2Twin row = { row with
      operands := (sse2Twin row).operands, mandatoryPrefix := (sse2Twin row).mandatoryPrefix } := by
  rw [sse2Twin]
  split
  · rfl
  · rfl

theorem gatherResized_eq (opcode : UInt8) (simd : Simd) (row : OpcodeInfo) :
    gatherResized opcode simd row =
      { row with operands := (gatherResized opcode simd row).operands } := by
  rw [gatherResized]
  split
  · split
    · rfl
    · rfl
  · rfl

theorem sse2Twin_firstMode {flow : Flow} {row : OpcodeInfo}
    (h : BranchOperand flow (firstOperand row.operands).addressingMode) :
    BranchOperand flow (firstOperand (sse2Twin row).operands).addressingMode := by
  have hnone : ¬ BranchOperand flow .P ∧ ¬ BranchOperand flow .Q := by
    cases flow <;> decide
  rw [sse2Twin]
  split
  · rw [firstOperand_map, TableOperand.toXmm]
    split
    · rename_i hmmx
      rw [TableOperand.isMmx, Bool.or_eq_true, beq_iff_eq, beq_iff_eq] at hmmx
      rcases hmmx with hmode | hmode
      · exact absurd (hmode ▸ h) hnone.1
      · exact absurd (hmode ▸ h) hnone.2
    · exact h
  · exact h

theorem gatherResized_firstMode (opcode : UInt8) (simd : Simd) (row : OpcodeInfo) :
    (firstOperand (gatherResized opcode simd row).operands).addressingMode =
      (firstOperand row.operands).addressingMode := by
  rw [gatherResized]
  split
  · split
    · rfl
    · rfl
  · rfl

theorem keeps_kept (flow : Flow) :
    Kept (Keeps flow) fun entry => flow = .None → FlowRow .None entry where
  merge outer entry hgroup houter hentry := by
    by_cases hflow : flow = .None
    · subst hflow
      have hrow := hentry rfl
      rw [merge]
      split
      · exact hrow.straight
      · exact keeps_straight hrow.text hrow.text16 houter.row.text64
    · exact absurd hgroup (Int.not_lt.mpr (houter.ungrouped hflow))
  sse2Twin row h := by
    have hfirst := fun hflow hnamed => sse2Twin_firstMode (h.row.operand hflow hnamed)
    rw [sse2Twin_eq]
    exact ⟨⟨h.row.text, h.row.text16, h.row.text64, hfirst⟩, h.ungrouped⟩
  withoutNds _ h := ⟨⟨h.row.text, h.row.text16, h.row.text64, h.row.operand⟩, h.ungrouped⟩
  gatherResized opcode simd row h := by
    have hfirst := fun hflow hnamed => (gatherResized_firstMode opcode simd row) ▸
      h.row.operand hflow hnamed
    rw [gatherResized_eq]
    exact ⟨⟨h.row.text, h.row.text16, h.row.text64, hfirst⟩, h.ungrouped⟩

end Rows

section Tables

/-- The letters that the names of branches begin with. -/
def isBranchLetter (byte : UInt8) : Bool := [0x43, 0x4A, 0x4C, 0x52, 0x49].contains byte.toNat

def isStraightName : List UInt8 → Bool
  | [] => true
  | first :: _ => !isBranchLetter first

theorem flowNamed_straight {name : String} (h : isStraightName (nameBytes name) = true) :
    flowNamed name = .None := by
  have hnames : ∀ branch ∈ branchNames, isStraightName (nameBytes branch.1) = false := by
    decide
  rw [flowNamed]
  cases hlookup : branchNames.lookup name with
  | none => rfl
  | some flow =>
      obtain ⟨front, rest, hsplit, -⟩ := List.lookup_eq_some_iff.mp hlookup
      have hmem : (name, flow) ∈ branchNames := by
        rw [hsplit]
        simp
      exact absurd (h.symm.trans (hnames _ hmem)) (by decide)

def checkName (flow : Flow) (name : String) : Bool :=
  if flow == .None && isStraightName (nameBytes name) then true
  else (nameBytes name).isEmpty || flowNamed name == flow

theorem flows_of_check {flow : Flow} {name : String} (h : checkName flow name = true) :
    Flows flow name := by
  rw [checkName] at h
  split at h
  · rename_i hstraight
    rw [Bool.and_eq_true, beq_iff_eq] at hstraight
    rw [hstraight.1]
    exact Or.inr (flowNamed_straight hstraight.2)
  · rw [Bool.or_eq_true, beq_iff_eq, List.isEmpty_iff] at h
    rcases h with hempty | hflow
    · have hnone : name.toByteArray = "".toByteArray := by
        rw [ByteArray.ext_iff, ← Array.toList_inj, ← nameBytes, hempty]
        rfl
      rw [String.toByteArray_inj.mp hnone]
      exact flows_none flow
    · exact Or.inr hflow

/-- What an assignment writes keeps the flow of its index. -/
def checkUpdate (flow : Flow) : RowUpdate → Bool
  | .info row =>
      checkName flow row.text && checkName flow row.text16 && checkName flow row.text64 &&
        (flow == .None || (decide (BranchOperand flow (firstOperand row.operands).addressingMode) &&
          decide (row.groupNumber ≤ 0)))
  | .text64 name => checkName flow name
  | _ => true

theorem assigned_keeps {flow : Nat → Flow} {n : Nat} {rows : List Assignment}
    (h : ∀ assignment ∈ rows, checkUpdate (flow assignment.index) assignment.update = true)
    (i : Fin n) : Keeps (flow i) (assigned n rows i) := by
  refine assigned_induction (Keeps (flow i)) n rows i ?_ ?_
  · exact ⟨⟨Or.inr (flows_none _), flows_none _, flows_none _,
      fun _ hnamed => absurd (by decide) hnamed⟩, fun _ => by decide⟩
  rintro ⟨index, update⟩ hassignment hindex info hinfo
  have hcheck := h _ hassignment
  rw [show (Assignment.mk index update).index = i from hindex] at hcheck
  cases update with
  | info row =>
      simp only [checkUpdate, Bool.and_eq_true, Bool.or_eq_true, beq_iff_eq,
        decide_eq_true_eq] at hcheck
      obtain ⟨⟨⟨htext, htext16⟩, htext64⟩, hbranch⟩ := hcheck
      refine ⟨⟨Or.inr (flows_of_check htext), flows_of_check htext16, flows_of_check htext64, ?_⟩,
        ?_⟩
      · exact fun hflow _ => (hbranch.resolve_left hflow).1
      · exact fun hflow => (hbranch.resolve_left hflow).2
  | isInvalid => exact ⟨⟨hinfo.1.1, hinfo.1.2, hinfo.1.3, hinfo.1.4⟩, hinfo.2⟩
  | text64 name => exact ⟨⟨hinfo.1.1, hinfo.1.2, flows_of_check hcheck, hinfo.1.4⟩, hinfo.2⟩
  | default64 mode => exact ⟨⟨hinfo.1.1, hinfo.1.2, hinfo.1.3, hinfo.1.4⟩, hinfo.2⟩

/-- The flow at an index of the tables that a map has for each prefix. -/
def columnFlow (map : UInt8) (i : Nat) : Flow := opcodeFlow map (UInt8.ofNat (i % 256)) 0

/-- VEX has the columns of the map 1 first. -/
def vexFlow (i : Nat) : Flow := if i < 1024 then columnFlow 1 i else .None

/-- The rows that are only looked up for opcodes without a flow. -/
def straightRows : List (List Assignment) :=
  [Groups.rows, ThreeByte.rows, ThreeDNow.rows, x87MemRows, x87RegRows.flatten, grp1Rows, grp2Rows,
    grp3Rows, grp4Rows]

/-- Only the row of FF escapes to the group of calls and jumps. -/
def escapesToFive (assignment : Assignment) : Bool :=
  match assignment.update with
  | .info row => decide (row.groupNumber = 5 → assignment.index = 0xFF)
  | _ => true

/-- Every table, read once. -/
theorem tables_flow :
    (∀ assignment ∈ opcodeRows ++ opcodeRowsLongMode,
      checkUpdate (columnFlow 0 assignment.index) assignment.update = true) ∧
    (∀ rows ∈ [TwoByte.rows, Prefixed.rows], ∀ assignment ∈ rows,
      checkUpdate (columnFlow 1 assignment.index) assignment.update = true) ∧
    (∀ assignment ∈ Vex.rows,
      checkUpdate (vexFlow assignment.index) assignment.update = true) ∧
    (∀ rows ∈ straightRows, ∀ assignment ∈ rows,
      checkUpdate .None assignment.update = true) ∧
    (∀ slot : Fin 8,
      (opcodeFlow 0 0xFF (UInt8.ofNat slot) = .None → FlowRow .None (grp5Table slot)) ∧
        FlowRow (opcodeFlow 0 0xFF (UInt8.ofNat slot))
          (merge (opcodeTable 0xFF) (grp5Table slot))) ∧
    ∀ assignment ∈ opcodeRows ++ opcodeRowsLongMode, escapesToFive assignment = true := by
  decide +kernel

/-- FF escapes to calls and jumps, and to rows without a flow. -/
theorem grp5_flow (slot : Fin 8) :
    (opcodeFlow 0 0xFF (UInt8.ofNat slot) = .None → FlowRow .None (grp5Table slot)) ∧
      FlowRow (opcodeFlow 0 0xFF (UInt8.ofNat slot))
        (merge (opcodeTable 0xFF) (grp5Table slot)) :=
  tables_flow.2.2.2.2.1 slot

theorem straight_keeps {n : Nat} {rows : List Assignment} (h : rows ∈ straightRows) (i : Fin n) :
    Keeps .None (assigned n rows i) :=
  @assigned_keeps (fun _ => .None) n rows (tables_flow.2.2.2.1 rows h) i

/-- Only FF escapes to the group of calls and jumps. -/
theorem groupFive (i : Fin 256) (h : (opcodeTable i).groupNumber = 5) : (i : Nat) = 0xFF := by
  have hrows : ∀ assignment ∈ opcodeRows ++ opcodeRowsLongMode, ∀ row,
      assignment.update = .info row → row.groupNumber = 5 → assignment.index = 0xFF := by
    intro assignment hassignment row hrow hgroup
    have hindex := tables_flow.2.2.2.2.2 assignment hassignment
    rw [escapesToFive, hrow] at hindex
    exact of_decide_eq_true hindex hgroup
  revert h
  refine assigned_induction (fun row => row.groupNumber = 5 → (i : Nat) = 0xFF) 256 _ i
    (fun h => absurd h (by decide)) ?_
  rintro ⟨index, update⟩ hassignment hindex info hinfo
  cases update with
  | info row => exact fun hgroup => hindex ▸ hrows _ hassignment row rfl hgroup
  | isInvalid => exact hinfo
  | text64 name => exact hinfo
  | default64 mode => exact hinfo

end Tables

section Lookups

variable {opcode modRM : UInt8} {simd : Simd}

theorem opcodeFlow_digit (hopcode : opcode ≠ 0xFF) (map regField : UInt8) :
    opcodeFlow map opcode regField = opcodeFlow map opcode 0 := by
  simp only [opcodeFlow, hopcode, false_and, or_false]

/-- Only in the maps 0 and 1 are there opcodes with a flow. -/
theorem opcodeFlow_other {map : UInt8} (h : 1 < map.toNat) (regField : UInt8) :
    opcodeFlow map opcode regField = .None := by
  have hzero : map ≠ 0 := by
    rintro rfl
    exact absurd h (by decide)
  have hone : map ≠ 1 := by
    rintro rfl
    exact absurd h (by decide)
  rw [opcodeFlow, if_neg hzero, if_neg (by simp [hone])]

theorem columnFlow_of_mod {i : Nat} (h : i % 256 = opcode.toNat) (map : UInt8) :
    columnFlow map i = opcodeFlow map opcode 0 := by
  rw [columnFlow, h, UInt8.ofNat_toNat]

/-- The flow of opcodes whose rows are found apart. -/
theorem opcodeFlow_apart :
    (∀ opcode ∈ [(0x63 : UInt8), 0xC6, 0xC7], ∀ regField, opcodeFlow 0 opcode regField = .None) ∧
      ∀ opcode ∈ [(0x1E : UInt8), 0x01, 0x12, 0x16, 0x77], opcodeFlow 1 opcode 0 = .None := by
  constructor
  · intro opcode hopcode regField
    simp only [List.mem_cons, List.not_mem_nil, or_false] at hopcode
    rcases hopcode with rfl | rfl | rfl <;> exact opcodeFlow_digit (by decide) 0 regField
  · intro opcode hopcode
    simp only [List.mem_cons, List.not_mem_nil, or_false] at hopcode
    rcases hopcode with rfl | rfl | rfl | rfl | rfl <;> rfl

theorem opcodeFlow_x87 (h : isX87 opcode = true) : opcodeFlow 0 opcode 0 = .None := by
  revert opcode
  apply forall_byte
  decide +kernel

/-- The digit in the ModRM byte. -/
def digit (modRM : UInt8) : Fin 8 := ⟨(regOf modRM).toNat, regOf_lt modRM⟩

theorem ofNat_digit (modRM : UInt8) : UInt8.ofNat (digit modRM) = regOf modRM :=
  UInt8.ofNat_toNat

theorem slot_eq_digit {slot : Fin 8} (h : (slot : Nat) = (regOf modRM).toNat) :
    slot = digit modRM := Fin.ext h

/-- FF is looked up to the row of its group that the digit selects. -/
theorem resolvedInfo_escape (modRM : UInt8) (is64Bit : Bool) :
    Ensures (resolvedInfo 0xFF modRM is64Bit) fun row =>
      row = merge (opcodeTable 0xFF) (grp5Table (digit modRM)) := by
  have hgroup : (opcodeTable 0xFF).groupNumber = 5 := by decide
  have hrows : OneByte (fun _ => True) (· = grp5Table (digit modRM)) 0xFF modRM := by
    refine ⟨fun _ => ⟨fun _ => trivial, fun _ => trivial⟩, fun _ _ => trivial, fun _ _ => trivial,
      ?_⟩
    intro group rows hrows i hi hnumber slot hslot
    have hindex : i = 0xFF := Fin.ext hi
    rw [hindex, hgroup] at hnumber
    simp only [groupRows, List.mem_cons, Prod.mk.injEq, List.not_mem_nil, or_false] at hrows
    obtain rfl : rows = grp5Rows := by
      rcases hrows with h | h | h | h | h
      · exact absurd (hnumber.trans h.1) (by decide)
      · exact absurd (hnumber.trans h.1) (by decide)
      · exact absurd (hnumber.trans h.1) (by decide)
      · exact absurd (hnumber.trans h.1) (by decide)
      · exact h.2
    rw [slot_eq_digit hslot]
    rfl
  rw [resolvedInfo, if_neg (by decide), if_neg (by simp), if_neg (by simp)]
  refine Ensures.bind (P := (· = opcodeTable 0xFF)) (Ensures.at fun slot hslot => ?_)
    fun row hrow => ?_
  · have hindex : slot = 0xFF := Fin.ext (by exact_mod_cast hslot)
    rw [hindex]
  · subst hrow
    rw [if_pos (by rw [hgroup]; decide)]
    refine Ensures.bind hrows.groupEntryOf fun entry hentry => ?_
    rw [hentry]
    exact Ensures.pure rfl

theorem oneByte_flow {flow : Flow} (hflow : flow = opcodeFlow 0 opcode (regOf modRM))
    (hdigit : flow = opcodeFlow 0 opcode 0) :
    OneByte (Keeps flow) (fun entry => flow = .None → FlowRow .None entry) opcode modRM := by
  refine ⟨fun hx87 => ?_, fun row hrow => ?_, fun i hi => ?_, ?_⟩
  · rw [hdigit, opcodeFlow_x87 hx87]
    exact ⟨straight_keeps (by simp [straightRows]), straight_keeps (by simp [straightRows])⟩
  · have hnone : flow = .None := by
      rw [hflow]
      apply opcodeFlow_apart.1
      simp only [List.mem_cons, Prod.mk.injEq, List.not_mem_nil, or_false] at hrow ⊢
      tauto
    rw [hnone]
    simp only [List.mem_cons, Prod.mk.injEq, List.not_mem_nil, or_false] at hrow
    rcases hrow with ⟨-, rfl⟩ | ⟨-, rfl⟩ | ⟨-, rfl⟩
    · exact keeps_straight (by decide) (by decide) (by decide)
    · exact keeps_straight (by decide) (by decide) (by decide)
    · exact keeps_straight (by decide) (by decide) (by decide)
  · rw [hdigit, ← columnFlow_of_mod ((Nat.mod_eq_of_lt i.isLt).trans hi)]
    exact assigned_keeps tables_flow.1 i
  · intro group rows hrows i hi hnumber slot hslot hnone
    simp only [groupRows, List.mem_cons, Prod.mk.injEq, List.not_mem_nil, or_false] at hrows
    have hstraight (h : rows ∈ straightRows) : FlowRow .None (assigned 8 rows slot) :=
      (straight_keeps h slot).row
    rcases hrows with ⟨-, rfl⟩ | ⟨-, rfl⟩ | ⟨-, rfl⟩ | ⟨-, rfl⟩ | ⟨rfl, rfl⟩
    · exact hstraight (by simp [straightRows])
    · exact hstraight (by simp [straightRows])
    · exact hstraight (by simp [straightRows])
    · exact hstraight (by simp [straightRows])
    · have hescape : opcode = 0xFF := UInt8.toNat_inj.mp (hi.symm.trans (groupFive i hnumber))
      rw [slot_eq_digit hslot]
      apply (grp5_flow (digit modRM)).1
      rw [ofNat_digit, ← hescape, ← hflow, hnone]

theorem twoByte_flow {flow : Flow} (hflow : flow = opcodeFlow 1 opcode 0) :
    TwoByte (Keeps flow) (fun entry => flow = .None → FlowRow .None entry) opcode := by
  have htable (i : Fin 256) (hi : (i : Nat) = opcode.toNat) :
      Keeps flow (assigned 256 TwoByte.rows i) := by
    rw [hflow, ← columnFlow_of_mod ((Nat.mod_eq_of_lt i.isLt).trans hi)]
    exact assigned_keeps (tables_flow.2.1 _ (by simp)) i
  refine ⟨fun row hrow => ?_, fun i hi => ?_, fun i hi _ => ?_, ?_, fun i _ => ?_⟩
  · have hnone : flow = .None := by
      rw [hflow]
      apply opcodeFlow_apart.2
      simp only [List.mem_cons, Prod.mk.injEq, List.not_mem_nil, or_false] at hrow ⊢
      tauto
    rw [hnone]
    simp only [List.mem_cons, Prod.mk.injEq, List.not_mem_nil, or_false] at hrow
    rcases hrow with ⟨-, rfl⟩ | ⟨-, rfl⟩ | ⟨-, rfl⟩ | ⟨-, rfl⟩
    · exact keeps_straight (by decide) (by decide) (by decide)
    · exact keeps_straight (by decide) (by decide) (by decide)
    · exact keeps_straight (by decide) (by decide) (by decide)
    · exact keeps_straight (by decide) (by decide) (by decide)
  · have h := htable i hi
    rw [twoByteTable, nameUnnamed]
    split
    · exact ⟨⟨Or.inl rfl, h.1.2, h.1.3, fun _ hnamed => absurd (by simp) hnamed⟩, h.2⟩
    · exact h
  · rw [hflow, ← columnFlow_of_mod hi]
    exact assigned_keeps (tables_flow.2.1 _ (by simp)) i
  · intro hopcode name hname row hrow
    have hnone : flow = .None := by
      rw [hflow]
      apply opcodeFlow_apart.2
      rcases hopcode with rfl | rfl <;> simp
    subst hnone
    apply hrow.renamed
    simp only [formNames, List.mem_cons, List.not_mem_nil, or_false] at hname ⊢
    tauto
  · exact (straight_keeps (by simp [straightRows]) i).row

theorem vex_flow {flow : Flow} (hknown : KnownMap simd) (hvex : simd.vex ≠ 0)
    (hflow : flow = opcodeFlow simd.map opcode 0) :
    Vex (Keeps flow) (fun entry => flow = .None → FlowRow .None entry) opcode simd := by
  have hmap := hknown.map_pos hvex
  have hpp := hknown.pp_le
  have hopcode := opcode.toNat_lt
  refine ⟨keeps_unnamed flow, fun i hi _ => ?_, ?_, fun i _ => ?_⟩
  · have hcolumn : vexFlow i = flow := by
      rw [vexFlow, hflow]
      rcases Nat.eq_or_lt_of_le hmap with hone | hlater
      · have hmapOne : simd.map = 1 := UInt8.toNat_inj.mp hone.symm
        rw [if_pos (by omega), hmapOne]
        exact columnFlow_of_mod (by omega) 1
      · rw [if_neg (by omega), opcodeFlow_other hlater]
    rw [← hcolumn]
    exact assigned_keeps tables_flow.2.2.1 i
  · intro hrenamed name hname row hrow
    have hnone : flow = .None := by
      rw [hflow]
      rcases Nat.eq_or_lt_of_le hmap with hone | hlater
      · have hmapOne : simd.map = 1 := UInt8.toNat_inj.mp hone.symm
        rw [hmapOne]
        apply opcodeFlow_apart.2
        rcases hrenamed with rfl | rfl | rfl <;> simp
      · exact opcodeFlow_other hlater 0
    subst hnone
    apply hrow.renamed
    simp only [formNames, List.mem_cons, List.not_mem_nil, or_false] at hname ⊢
    tauto
  · exact (straight_keeps (by simp [straightRows]) i).row

theorem threeByte_flow : ThreeByte (Keeps .None) := by
  refine ⟨fun row hrow => ?_, keeps_unnamed .None, straight_keeps (by simp [straightRows])⟩
  simp only [List.mem_cons, List.not_mem_nil, or_false] at hrow
  rcases hrow with rfl | rfl
  · exact keeps_straight (by decide) (by decide) (by decide)
  · exact keeps_straight (by decide) (by decide) (by decide)

/-- The row that an opcode is looked up to names the flow of the opcode. -/
theorem rowOf_flow (hknown : KnownMap simd) {is64Bit : Bool} {row : OpcodeInfo}
    (hrow : rowOf is64Bit opcode modRM simd = .ok row) :
    FlowRow (opcodeFlow simd.map opcode (regOf modRM)) row := by
  have hkept (hdigit : opcodeFlow simd.map opcode (regOf modRM) = opcodeFlow simd.map opcode 0) :
      FlowRow (opcodeFlow simd.map opcode (regOf modRM)) row := by
    refine Keeps.row ((Kept.rowOf (keeps_kept _) (fun _ hmap => ?_) (fun _ hmap => ?_)
      (fun _ hzero hone => ?_) (fun hvex => vex_flow hknown hvex hdigit) is64Bit).of_ok row hrow)
    · rw [hmap] at hdigit ⊢
      exact oneByte_flow rfl hdigit
    · rw [hmap] at hdigit ⊢
      exact twoByte_flow hdigit
    · rw [opcodeFlow, if_neg hzero, if_neg (by simp [hone])]
      exact threeByte_flow
  by_cases hescape : opcode = 0xFF
  · subst hescape
    by_cases hmap : simd.map = 0
    · have hlegacy : simd.vex = 0 := by
        by_contra hvex
        have hpos := hknown.map_pos hvex
        rw [hmap] at hpos
        exact absurd hpos (by decide)
      rw [rowOf, if_neg (by simp [hlegacy]), if_pos hmap] at hrow
      rw [(resolvedInfo_escape modRM is64Bit).of_ok row hrow, hmap, ← ofNat_digit]
      exact (grp5_flow (digit modRM)).2
    · apply hkept
      simp only [opcodeFlow, if_neg hmap]
  · exact hkept (opcodeFlow_digit hescape _ _)

end Lookups

section Names

variable {fields : Fields} {simd : Simd}

/-- The name that is shown is one of the row's or that of a jump on the count register. -/
theorem flowNamed_mnemonicOf (hrow : FlowRow (flowOf fields simd) fields.info)
    (hnamed : isBad fields = false) : flowNamed (mnemonicOf fields simd) = flowOf fields simd := by
  rw [isBad, Bool.or_eq_false_iff, Bool.or_eq_false_iff, beq_eq_false_iff_ne,
    beq_eq_false_iff_ne] at hnamed
  rw [mnemonicOf]
  split
  · rename_i hcount
    have hflow : flowOf fields simd = .CondJump := by
      rw [flowOf_eq, hcount.1, hcount.2, opcodeFlow_digit (by decide)]
      decide
    rw [hflow]
    split
    · decide
    split
    · decide
    · decide
  split
  · rename_i hwide
    exact hrow.text64.resolve_left hwide.2
  split
  · rename_i hshort
    exact hrow.text16.resolve_left hshort.2
  · exact (hrow.text.resolve_left hnamed.2).resolve_left hnamed.1.2

end Names

section Targets

variable {fields : Fields} {simd : Simd}

/-- A text that does not begin with a digit 0 is no number. -/
def Unnumbered (text : List Char) : Prop := text.head? ≠ some '0'

instance (text : List Char) : Decidable (Unnumbered text) :=
  inferInstanceAs (Decidable (_ ≠ _))

theorem Unnumbered.hexNumber {text : List Char} (h : Unnumbered text) : hexNumber text = none := by
  rw [ImmediateBytes.hexNumber.eq_def]
  split
  · exact absurd rfl h
  · rfl

theorem Unnumbered.append {front rest : List Char} (hfront : Unnumbered front)
    (hrest : Unnumbered rest) : Unnumbered (front ++ rest) := by
  cases front with
  | nil => exact hrest
  | cons symbol front => exact hfront

theorem unnumbered_of_mem {name : String} (h : name ∈ BracketedText.renderedNames) :
    Unnumbered name.toList := by
  revert name
  decide

theorem unnumbered_memoryOperandOf (fields : Fields) (simd : Simd) :
    Unnumbered (memoryOperandOf fields simd).toList := by
  rw [memoryOperandOf]
  split
  · rw [String.toList_append, String.toList_append]
    intro hfirst
    rw [show "[".toList = ['['] from rfl] at hfirst
    exact absurd hfirst (by simp)
  · decide

theorem unnumbered_segmentTextOf (fields : Fields) (simd : Simd) :
    Unnumbered (segmentTextOf fields simd).toList := by
  rw [segmentTextOf]
  split
  · exact unnumbered_of_mem (BracketedText.prefixTable_mem _)
  · decide

/-- A register or a place in memory is not written as a number. -/
theorem hexNumber_place {operand : TableOperand} (hmode : operand.addressingMode ∈ [.E, .M])
    (value : UInt64) :
    hexNumber (operandText fields simd (segmentTextOf fields simd) value operand).toList =
      none := by
  apply Unnumbered.hexNumber
  have htext : operandText fields simd (segmentTextOf fields simd) value operand =
      if fields.mod = 3 then registerName fields fields.rm (widthOf fields operand.size)
      else segmentTextOf fields simd ++ memoryOperandOf fields simd := by
    simp only [List.mem_cons, List.not_mem_nil, or_false] at hmode
    by_cases hmod : fields.mod = 3
    · rcases hmode with hmode | hmode
      · simp only [operandText, printOperand, hmode, if_pos hmod]
        rfl
      · simp only [operandText, printOperand, hmode, if_pos hmod]
        rfl
    · rcases hmode with hmode | hmode
      · simp only [operandText, printOperand, hmode, if_neg hmod]
        rfl
      · simp only [operandText, printOperand, hmode, if_neg hmod]
        rfl
  rw [htext]
  split
  · exact unnumbered_of_mem (BracketedText.registerOf_mem _ _ _)
  · rw [String.toList_append]
    exact (unnumbered_segmentTextOf fields simd).append (unnumbered_memoryOperandOf fields simd)

theorem numberOf_colon (front rest : List Char) : numberOf 16 (front ++ ':' :: rest) = none := by
  rw [numberOf, if_neg (by simp), digitsValue, List.foldlM_append]
  cases front.foldlM (fun value digit => (digitValue 16 digit).map fun last => 16 * value + last)
      0 with
  | none => rfl
  | some value => rfl

/-- A far address is not written as one number. -/
theorem hexNumber_far {operand : TableOperand} (hmode : operand.addressingMode = .A)
    (segmentText : String) (value : UInt64) :
    hexNumber (operandText fields simd segmentText value operand).toList = none := by
  rw [operandText_far _ _ _ _ hmode, String.toList_append, String.toList_append,
    MemoryText.toList_toHex, List.append_assoc]
  exact numberOf_colon _ _

end Targets

section Texts

variable {fields : Fields} {simd : Simd} {row : Instruction}

theorem operandList_first {info : OpcodeInfo}
    (h : (firstOperand info.operands).addressingMode ≠ .None) :
    ∃ rest, operandList info = firstOperand info.operands :: rest := by
  rw [operandList, toList_operands, List.takeWhile_cons_of_pos (by simpa using h)]
  dsimp only
  split
  · exact ⟨_, rfl⟩
  · exact ⟨_, rfl⟩

/-- One empty text leaves nothing behind the tab. -/
theorem operandTexts_blank (hrow : x86_64 fields simd = .ok row) (hnamed : isBad fields = false)
    (hinfo : Texts Spelled (· ∈ operandValues) fields.info) (hblank : textsOf fields simd = [""]) :
    operandTexts row.instructionText.toList = [] := by
  obtain ⟨printed, hrun, htext⟩ := BracketedText.instructionText_x86_64 hrow hnamed
  have htexts : printed.texts = [""] :=
    ((printOperands_adds (operandList fields.info) {}).of_ok printed hrun).trans hblank
  have hname := (hinfo.mnemonicOf (by decide) simd).unsplit.1
  have hfront := ((unsplit_prefixWords fields simd printed.segmentUsed).append hname).append
    (by decide : Unsplit [' '])
  have hsplit : row.instructionText.toList =
      ((prefixWords fields simd printed.segmentUsed).toList ++ (mnemonicOf fields simd).toList ++
        [' ']) ++ ['\t'] := by
    rw [htext, htexts]
    simp only [String.toList_append, List.append_assoc]
    rfl
  rw [operandTexts, hsplit, behind_append hfront.tab]

theorem head_operandTexts (hrow : x86_64 fields simd = .ok row) (hnamed : isBad fields = false)
    (hinfo : Texts Spelled (· ∈ operandValues) fields.info) :
    (operandTexts row.instructionText.toList).head? =
      if textsOf fields simd = [""] then none
      else (textsOf fields simd).head?.map String.toList := by
  split
  · rename_i hblank
    rw [operandTexts_blank hrow hnamed hinfo hblank]
    rfl
  · rename_i hshown
    rw [(instructionText_spelled hrow hnamed hinfo).2 hshown, List.head?_map]

/-- The first operand of a branch reads as its target, or as no number. -/
theorem hexNumber_branch (hrow : x86_64 fields simd = .ok row) (hnamed : isBad fields = false)
    (hinfo : Texts Spelled (· ∈ operandValues) fields.info)
    (hmode : (firstOperand fields.info.operands).addressingMode ∈ [Addressing.J, .A, .E, .M]) :
    (operandTexts row.instructionText.toList).head?.bind hexNumber =
      if (firstOperand fields.info.operands).addressingMode = .J then
        some (fields.immediates.get 0).toNat else none := by
  obtain ⟨rest, hlist⟩ := @operandList_first fields.info (by
    intro hnone
    rw [hnone] at hmode
    exact absurd hmode (by decide))
  have htexts : ∃ later, textsOf fields simd = operandText fields simd (segmentTextOf fields simd)
      fields.immediates[0] (firstOperand fields.info.operands) :: later := by
    rw [textsOf, hlist, printedTexts]
    exact ⟨_, rfl⟩
  obtain ⟨later, htexts⟩ := htexts
  have hnone (h : hexNumber (operandText fields simd (segmentTextOf fields simd)
      fields.immediates[0] (firstOperand fields.info.operands)).toList = none) :
      (operandTexts row.instructionText.toList).head?.bind hexNumber = none := by
    rw [head_operandTexts hrow hnamed hinfo, htexts]
    split
    · rfl
    · exact h
  simp only [List.mem_cons, List.not_mem_nil, or_false] at hmode
  rcases hmode with hmode | hmode | hmode | hmode
  · rw [operandText_number _ _ _ _ (Or.inr hmode)] at htexts
    rw [if_pos hmode, head_operandTexts hrow hnamed hinfo, htexts, if_neg]
    · exact hexNumber_toHex _
    · intro hblank
      exact absurd (congrArg String.toList (List.cons.inj hblank).1)
        (by simp [MemoryText.toList_toHex])
  · rw [if_neg (by simp [hmode])]
    exact hnone (hexNumber_far hmode _ _)
  · rw [if_neg (by simp [hmode])]
    exact hnone (hexNumber_place (by simp [hmode]) _)
  · rw [if_neg (by simp [hmode])]
    exact hnone (hexNumber_place (by simp [hmode]) _)

theorem shownFlow_eq (hrow : x86_64 fields simd = .ok row) (hnamed : isBad fields = false)
    (hinfo : Texts Spelled (· ∈ operandValues) fields.info)
    (hflow : FlowRow (flowOf fields simd) fields.info) :
    shownFlow row.instructionText = flowOf fields simd := by
  rw [shownFlow, (instructionText_spelled hrow hnamed hinfo).1, String.ofList_toList]
  exact flowNamed_mnemonicOf hflow hnamed

theorem shownTarget_eq (hrow : x86_64 fields simd = .ok row) (hnamed : isBad fields = false)
    (hinfo : Texts Spelled (· ∈ operandValues) fields.info)
    (hflow : FlowRow (flowOf fields simd) fields.info) :
    shownTarget row.instructionText = (targetOf fields simd).toNat := by
  have htext : fields.info.text ∉ ["", "(bad)"] := by
    rw [isBad, Bool.or_eq_false_iff, Bool.or_eq_false_iff, beq_eq_false_iff_ne,
      beq_eq_false_iff_ne] at hnamed
    simpa using ⟨hnamed.1.2, hnamed.2⟩
  have hmode := fun hbranch => hflow.operand hbranch htext
  rw [shownTarget, shownFlow_eq hrow hnamed hinfo hflow, targetOf]
  split
  · rename_i hbranch
    have hnone : flowOf fields simd ≠ .None := by
      intro h
      rw [h] at hbranch
      exact absurd hbranch (by decide)
    have hreturn : flowOf fields simd ≠ .Return := by
      intro h
      rw [h] at hbranch
      exact absurd hbranch (by decide)
    have hfirst := hmode hnone
    rw [BranchOperand, if_neg hreturn] at hfirst
    rw [hexNumber_branch hrow hnamed hinfo hfirst]
    by_cases hrelative : (firstOperand fields.info.operands).addressingMode = .J
    · rw [if_pos hrelative, if_pos ⟨hnone, hrelative⟩]
      rfl
    · rw [if_neg hrelative, if_neg (fun h => hrelative h.2)]
      rfl
  · rename_i hother
    rw [if_neg]
    · rfl
    rintro ⟨hnone, hrelative⟩
    have hfirst := hmode hnone
    have hreturn : flowOf fields simd = .Return := by
      revert hother hnone
      cases flowOf fields simd <;> decide
    rw [BranchOperand, if_pos hreturn, hrelative] at hfirst
    exact absurd hfirst (by decide)

end Texts

section Lines

variable {is64Bit : Bool}

theorem digit_withModRM (fields : Fields) (modRM : UInt8) :
    (withModRM fields modRM).reg &&& 7 = regOf modRM := by
  have hdigit : (modRM >>> 3 &&& 7) &&& 7 = regOf modRM ∧
      ((modRM >>> 3 &&& 7) ||| 8) &&& 7 = regOf modRM := by
    revert modRM
    apply forall_byte
    decide +kernel
  rcases @rexBit_cases fields 4 1 (by simp) with h | h
  · simpa [withModRM, h] using hdigit.1
  · simpa [withModRM, h] using hdigit.2

/-- The digit that the constructor reads is that of the lookup. -/
theorem digit_addressed {locals : DecodeLocals} (hreg : locals.fields.reg = 0)
    (modRM : Option UInt8) :
    (addressed locals modRM).fields.reg &&& 7 = regOf (modRM.getD 0) := by
  cases modRM with
  | none =>
      show locals.fields.reg &&& 7 = regOf 0
      rw [hreg]
      decide
  | some modRM => exact digit_withModRM locals.fields modRM

theorem flowRow_of_decoded {opened named decoded : DecodeLocals}
    (h : Decoded is64Bit opened named decoded) :
    FlowRow (flowOf decoded.fields decoded.simd) decoded.fields.info := by
  obtain ⟨modRM, row, hfound⟩ := h.found
  have hinfo : decoded.fields.info = named.fields.info := (congrArg Fields.info h.fields :)
  have hopcode : decoded.fields.opcode = opened.fields.opcode :=
    (congrArg Fields.opcode h.fields :).trans hfound.fields_eq.1
  have hreg : decoded.fields.reg = (addressed opened modRM).fields.reg :=
    (congrArg Fields.reg h.fields :).trans hfound.fields_eq.2.2.2.2.2.2.1
  have hmap : decoded.simd.map = opened.simd.map := by
    rw [h.simd]
    exact hfound.simd_eq.2.2.1
  have hunread : opened.fields.reg = 0 := (congrArg Fields.reg h.extended.fields_eq :)
  rw [flowOf_eq, hmap, hopcode, hreg, digit_addressed hunread, hinfo]
  rcases hfound.info with hrow | ⟨-, hone, hescape, slot, hslot⟩
  · rw [hrow]
    exact rowOf_flow h.knownMap hfound.rowOf_eq
  · rw [hone, hescape, hslot, opcodeFlow_digit (by decide)]
    exact (straight_keeps (by simp [straightRows]) slot).row

/-- What is emitted for a row that is not bad has been decoded to the end. -/
theorem decoded_of_emitted {contents : AddressSpace} {fileOffset vaddr : UInt64} {fields : Fields}
    {simd : Simd} (h : emitted is64Bit contents fileOffset vaddr = some (fields, simd))
    (hnamed : isBad fields = false) :
    ∃ opened named decoded bytes, Decoded is64Bit opened named decoded ∧
      fields = { decoded.fields with bytes := bytes } ∧ simd = decoded.simd := by
  rw [emitted] at h
  cases hrun : decodeInstruction is64Bit vaddr (bytesAt contents fileOffset) .empty with
  | error stop bytes =>
      rw [hrun] at h
      cases stop with
      | limitReached =>
          obtain ⟨rfl, -⟩ := Prod.mk.inj (Option.some.inj h)
          contradiction
      | failed thrown => contradiction
  | ok locals bytes =>
      rw [hrun] at h
      obtain ⟨rfl, rfl⟩ := Prod.mk.inj (Option.some.inj h)
      have hdecoded := (@decodeInstruction_decoded (bytesAt contents fileOffset) is64Bit vaddr
        (fun _ _ => True) (fun _ _ _ _ => True)
        (fun _ _ _ _ hprefixed _ _ => (decodeOpcode_yields is64Bit hprefixed.simd).mono
          fun _ _ _ _ => Or.inr trivial)
        (fun fields _ => (decodeImmediates_yields is64Bit vaddr fields).mono
          fun _ _ _ _ => trivial)).settled (Drawn.empty _)
      rw [hrun] at hdecoded
      rcases hdecoded.2.2 with ⟨hinvalid, -⟩ | ⟨opened, middle, named, -, -, -, hvalid, -⟩
      · simp [isBad, hinvalid] at hnamed
      · exact ⟨opened, named, locals, bytes, hvalid, rfl, rfl⟩

/-- Flow and target of every row are those that its text shows. -/
theorem flow_shown (is64Bit : Bool) (contents : AddressSpace) (fileOffset vaddr : UInt64)
    (store : InstructionStore) (nextOffset : UInt64) (row : Instruction)
    (h : Appends store (decodeLine is64Bit contents fileOffset vaddr store) nextOffset row) :
    row.flow = shownFlow row.instructionText ∧
      row.target.toNat = shownTarget row.instructionText := by
  obtain ⟨fields, simd, hemitted, hrow⟩ := emitted_of_appends h
  cases hbad : isBad fields with
  | true =>
      rw [x86_64, if_pos hbad] at hrow
      rw [← Except.ok.inj hrow]
      have hshown : shownFlow "(bad)" = .None ∧ shownTarget "(bad)" = 0 := by
        decide
      exact ⟨hshown.1.symm, hshown.2.symm⟩
  | false =>
      obtain ⟨opened, named, decoded, bytes, hdecoded, rfl, rfl⟩ := decoded_of_emitted hemitted hbad
      have hspelled : Texts Spelled (· ∈ operandValues) decoded.fields.info :=
        hdecoded.rowKind spelled_rowKind
      have hflow := flowRow_of_decoded hdecoded
      obtain ⟨hcarried, htarget⟩ := flow_x86_64 hrow hbad
      rw [hcarried, htarget]
      exact ⟨(shownFlow_eq hrow hbad hspelled hflow).symm,
        (shownTarget_eq hrow hbad hspelled hflow).symm⟩

end Lines

/-- `bnd jnz`: 7F bytes back. -/
def branchBack : AddressSpace where
  mappedData := [0xF2, 0x75, 0x81]
  fileSize_lt := by decide

def branchBackRow : Instruction where
  machineCode := machineCodeOf branchBack.mappedData
  instructionText := "BND JNZ \t0x1084"
  flow := .CondJump
  target := 0x1084

theorem flow_shown_branchBack :
    branchBackRow.flow = shownFlow branchBackRow.instructionText ∧
      branchBackRow.target.toNat = shownTarget branchBackRow.instructionText :=
  flow_shown true branchBack 0 0x1100 .empty 3 branchBackRow (by decide)

end Voidwalk.FlowNames

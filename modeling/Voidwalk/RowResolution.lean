import Mathlib.Data.List.Basic
import Mathlib.Tactic.Common
import Voidwalk.OneByteTables
import Voidwalk.TwoByteTables
import Voidwalk.ThreeByteTables

/-!
The lookups over the encoding tables: each follows prefixes, groups and ModRM
special cases to the row an opcode really means. None of them can index a table
outside its bounds, and no row they return has more than two immediates.
-/

namespace Voidwalk.RowResolution

open Voidwalk.MappedFile
open Voidwalk.OpcodeRows
open Voidwalk.OneByteTables
open Voidwalk.TwoByteTables
open Voidwalk.ThreeByteTables

def regOf (modRM : UInt8) : UInt8 := (modRM >>> 3) &&& 0x07

def groupTableOf (opcode : UInt8) : Except Thrown (OpcodeTable 8) := do
  let row ← opcodeTable.at opcode.toNat
  if row.groupNumber = 1 then pure grp1Table
  else if row.groupNumber = 2 then pure grp2Table
  else if row.groupNumber = 3 then pure grp3Table
  else if row.groupNumber = 4 then pure grp4Table
  else if row.groupNumber = 5 then pure grp5Table
  else throw (.runtimeError "Opcode is not an extension group..")

def groupEntryOf (opcode reg : UInt8) : Except Thrown OpcodeInfo := do
  let table ← groupTableOf opcode
  table.at (reg &&& 0x07).toNat

def isX87 (opcode : UInt8) : Bool := opcode ≥ 0xD8 && opcode ≤ 0xDF

def x87ResolvedInfo (opcode modRM : UInt8) : Except Thrown OpcodeInfo :=
  let escapeIndex : UInt32 := opcode.toUInt32 - 0xD8
  if modRM < 0xC0 then x87MemTable.at (escapeIndex * 8 + (regOf modRM).toUInt32).toNat
  else x87RegTable.at (escapeIndex * 64 + (modRM &&& 0x3F).toUInt32).toNat

/-- One operand of a merged row. An immediate never widens to 64 bits with the
operand size, so an inherited `v` caps at `z` for an `I` operand. -/
def mergeOperand (opSize : Size) (outer entry : TableOperand) : TableOperand :=
  if entry.addressingMode = .None then outer
  else
    let inherited := if entry.addressingMode = .I ∧ opSize = .v then .z else opSize
    ⟨entry.addressingMode, if entry.size ≠ .None then entry.size else inherited, entry.value⟩

/-- A group's real row: the outer row, renamed, and given any operands and
long-mode default, by the entry ModRM.reg selected. -/
def merge (outer entry : OpcodeInfo) : OpcodeInfo :=
  if entry.text = "" then entry
  else
    let opSize :=
      if (firstOperand outer.operands).size ≠ .None then (firstOperand outer.operands).size
      else (firstOperand entry.operands).size
    { outer with
      text := entry.text
      text16 := entry.text16
      default64 := if entry.default64 ≠ .None then entry.default64 else outer.default64
      operands := Vector.zipWith (mergeOperand opSize) outer.operands entry.operands }

def movsxd : OpcodeInfo :=
  { text := "MOVSXD", hasRMByte := true, operands := slots (op .G .v) (op .E .d) {}, groupNumber := -1 }

def xabort : OpcodeInfo :=
  { text := "XABORT", hasRMByte := true, operands := slots (op .I .b) {} {}, groupNumber := -1 }

def xbegin : OpcodeInfo :=
  { text := "XBEGIN", hasRMByte := true, operands := slots (op .J .z) {} {}, groupNumber := -1 }

/-- The row for a one-byte opcode. Takes the whole ModRM byte: groups key on
its reg field, x87 needs it all. -/
def resolvedInfo (opcode modRM : UInt8) (is64Bit : Bool) : Except Thrown OpcodeInfo :=
  if isX87 opcode then x87ResolvedInfo opcode modRM
  else if is64Bit && opcode == 0x63 then pure movsxd
  else if modRM == 0xF8 && (opcode == 0xC6 || opcode == 0xC7) then
    pure (if opcode == 0xC6 then xabort else xbegin)
  else do
    let row ← opcodeTable.at opcode.toNat
    if row.groupNumber > 0 then do
      let entry ← groupEntryOf opcode (regOf modRM)
      pure (merge row entry)
    else pure row

/-- Stand-in row for an opcode of the three-byte maps the tables do not name. -/
def threeByteRow (hasImm8 : Bool) : OpcodeInfo :=
  if hasImm8 then
    { text := "(bad)", hasRMByte := true, operands := slots (op .I .b) {} {}, groupNumber := -1 }
  else { text := "(bad)", hasRMByte := true, groupNumber := -1 }

def hintRow (text : String) (mandatoryPrefix : UInt8) : OpcodeInfo :=
  { text := text, hasRMByte := true, groupNumber := -1, mandatoryPrefix := mandatoryPrefix }

def endbr64 : OpcodeInfo := hintRow "ENDBR64" 0xF3

def endbr32 : OpcodeInfo := hintRow "ENDBR32" 0xF3

def monitor : OpcodeInfo := hintRow "MONITOR" 0

def mwait : OpcodeInfo := hintRow "MWAIT" 0

def TableOperand.isMmx (operand : TableOperand) : Bool :=
  operand.addressingMode == .P || operand.addressingMode == .Q

def TableOperand.toXmm (operand : TableOperand) : TableOperand :=
  if TableOperand.isMmx operand then
    { operand with addressingMode := if operand.addressingMode = .P then .V else .W }
  else operand

/-- Under 66 an MMX row is its SSE2 twin: the same name, XMM where it had MMX. -/
def sse2Twin (row : OpcodeInfo) : OpcodeInfo :=
  if row.operands.any TableOperand.isMmx then
    { row with operands := row.operands.map TableOperand.toXmm, mandatoryPrefix := 0x66 }
  else row

def twoByteGroupEntry (group : Int) (modRM : UInt8) : Except Thrown OpcodeInfo :=
  twoByteGroupTable.at ((group - 8) * 8 + (regOf modRM).toNat)

/-- A row merged with the entry of `group`, or the row itself when it is no
group escape. -/
def followGroup (row : OpcodeInfo) (group : Int) (modRM : UInt8) : Except Thrown OpcodeInfo :=
  if row.groupNumber ≤ 0 then pure row
  else do
    let entry ← twoByteGroupEntry group modRM
    pure (merge row entry)

/-- The row before any group is followed: the prefixed one when the column in
force selects one, else the plain one. -/
def twoByteOuter (opcode pp : UInt8) : Except Thrown OpcodeInfo :=
  if pp = 0 then twoByteTable.at opcode.toNat
  else do
    let prefixed ← prefixedTable.at ((pp.toNat - 1 : Int) * 256 + opcode.toNat)
    if prefixed.text = "" then twoByteTable.at opcode.toNat else pure prefixed

def renamedIf (condition : Bool) (text : String) (info : OpcodeInfo) : OpcodeInfo :=
  if condition then { info with text := text } else info

/-- The SSE2 twin of an MMX row, and the moves between the halves of two
registers that 0F 12 / 0F 16 are without a memory operand. -/
def twoByteSpecialCases (opcode modRM pp : UInt8) (outer : OpcodeInfo) : OpcodeInfo :=
  let outer := if pp == 1 && outer.mandatoryPrefix == 0 then sse2Twin outer else outer
  renamedIf
    (outer.mandatoryPrefix == 0 && modRM ≥ 0xC0 && (opcode == 0x12 || opcode == 0x16))
    (if opcode == 0x12 then "MOVHLPS" else "MOVLHPS") outer

def twoByteResolvedInfo (opcode modRM : UInt8) (simd : Simd) : Except Thrown OpcodeInfo :=
  if opcode == 0x1E && simd.pp == 2 && (modRM == 0xFA || modRM == 0xFB) then
    pure (if modRM == 0xFA then endbr64 else endbr32)
  else if opcode == 0x01 && (modRM == 0xC8 || modRM == 0xC9) then
    pure (if modRM == 0xC8 then monitor else mwait)
  else do
    let outer ← twoByteOuter opcode simd.pp
    let outer := twoByteSpecialCases opcode modRM simd.pp outer
    -- The register forms of group 15, the fences, sit under a pseudo group.
    let group := if outer.groupNumber = 15 ∧ modRM ≥ 0xC0 then 17 else outer.groupNumber
    followGroup outer group modRM

def crc32b : OpcodeInfo :=
  { text := "CRC32", hasRMByte := true, operands := slots (op .G .y) (op .E .b) {}, groupNumber := -1,
    mandatoryPrefix := 0xF2 }

def crc32v : OpcodeInfo :=
  { text := "CRC32", hasRMByte := true, operands := slots (op .G .y) (op .E .v) {}, groupNumber := -1,
    mandatoryPrefix := 0xF2 }

def threeByteResolvedInfo (opcode : UInt8) (simd : Simd) : Except Thrown OpcodeInfo :=
  if simd.map == 2 && simd.pp == 3 && (opcode &&& 0xFE) == 0xF0 then
    pure (if opcode &&& 1 ≠ 0 then crc32v else crc32b)
  else if simd.pp > 1 then pure (threeByteRow (simd.map == 3))
  else do
    let row ← threeByteTable.at
      (((simd.map.toNat - 2 : Int) * 2 + simd.pp.toNat) * 256 + opcode.toNat)
    pure (if row.text = "" then threeByteRow (simd.map == 3) else row)

/-- VZEROALL, the scalar moves that merge vvvv only between registers, and the
register forms of 0F 12 / 0F 16. -/
def vexRenamed (opcode modRM : UInt8) (simd : Simd) (info : OpcodeInfo) : OpcodeInfo :=
  let memory := modRM < 0xC0
  let info := renamedIf (simd.map == 1 && opcode == 0x77 && simd.L ≠ 0) "VZEROALL" info
  let info := if simd.map == 1 && simd.pp ≥ 2 && (opcode == 0x10 || opcode == 0x11) && memory then
    { info with nds := false } else info
  renamedIf (simd.map == 1 && simd.pp == 0 && !memory && (opcode == 0x12 || opcode == 0x16))
    (if opcode == 0x12 then "VMOVHLPS" else "VMOVLHPS") info

def TableOperand.withSize (operand : TableOperand) (size : Size) : TableOperand :=
  { operand with size := size }

/-- W1 gathers move qwords: a dword index then fills only an XMM, a qword index
a full register. -/
def gatherResized (opcode : UInt8) (simd : Simd) (info : OpcodeInfo) : OpcodeInfo :=
  let first := firstOperand info.operands
  let second := secondOperand info.operands
  let third := thirdOperand info.operands
  if simd.map == 2 && simd.W ≠ 0 && opcode ≥ 0x90 && opcode ≤ 0x93 then
    if opcode &&& 1 ≠ 0 then
      { info with
        operands := slots (TableOperand.withSize first .None) second
          (TableOperand.withSize third .None) }
    else { info with operands := slots first (TableOperand.withSize second .dq) third }
  else info

def vexResolvedInfo (opcode modRM : UInt8) (simd : Simd) : Except Thrown OpcodeInfo := do
  let row ← vexTable.at (((simd.map.toNat - 1 : Int) * 4 + simd.pp.toNat) * 256 + opcode.toNat)
  if row.text = "" then pure (threeByteRow (simd.map == 3))
  else
    let info := gatherResized opcode simd (vexRenamed opcode modRM simd row)
    followGroup info info.groupNumber modRM

/-- What a row needs for the lookups that start from it: at most two immediates,
a group number in the range of the group tables it escapes to, and, where it
escapes, room for the immediate of the entry. -/
def EscapeShape (low high : Int) (operands : Vector TableOperand 3) (group : Int) : Prop :=
  immediateCount operands.toList ≤ 2 ∧
    (0 < group → low ≤ group ∧ group ≤ high ∧
      (firstOperand operands).addressingMode.isImmediate = false)

instance (low high : Int) (operands : Vector TableOperand 3) (group : Int) :
    Decidable (EscapeShape low high operands group) :=
  inferInstanceAs (Decidable (_ ∧ _))

def EntryShape (operands : Vector TableOperand 3) (_group : Int) : Prop :=
  (firstOperand operands).addressingMode.isImmediate = false

instance (operands : Vector TableOperand 3) (group : Int) :
    Decidable (EntryShape operands group) :=
  inferInstanceAs (Decidable (_ = _))

/-- The rows of the tables whose lookups may escape to a group, with the range of the groups. -/
def escapingRows : List (Int × Int × List Assignment) :=
  [(1, 5, opcodeRows ++ opcodeRowsLongMode), (8, 23, TwoByte.rows), (8, 23, Prefixed.rows),
    (8, 23, ThreeByte.rows), (8, 23, Vex.rows), (1, 5, x87MemRows), (1, 5, x87RegRows.flatten),
    (8, 23, ThreeDNow.rows)]

theorem escapingRows_shape :
    ∀ table ∈ escapingRows, ∀ row ∈ wholeRows table.2.2,
      EscapeShape table.1 table.2.1 row.operands row.groupNumber := by
  decide +kernel

theorem escape_shape {n : Nat} {low high : Int} {rows : List Assignment}
    (h : (low, high, rows) ∈ escapingRows) (i : Fin n) :
    EscapeShape low high (assigned n rows i).operands (assigned n rows i).groupNumber := by
  refine assigned_shape _ n rows ⟨by decide, fun hgroup => ?_⟩ (escapingRows_shape _ h) i
  exact absurd hgroup (by decide)

theorem opcodeTable_shape (i : Fin 256) :
    EscapeShape 1 5 (opcodeTable i).operands (opcodeTable i).groupNumber :=
  escape_shape (by simp [escapingRows]) i

theorem twoByteTable_shape (i : Fin 256) :
    EscapeShape 8 23 (twoByteTable i).operands (twoByteTable i).groupNumber := by
  have h : EscapeShape 8 23 (assigned 256 TwoByte.rows i).operands
      (assigned 256 TwoByte.rows i).groupNumber := escape_shape (by simp [escapingRows]) i
  rw [twoByteTable, nameUnnamed]
  split <;> exact h

theorem prefixedTable_shape (i : Fin 768) :
    EscapeShape 8 23 (prefixedTable i).operands (prefixedTable i).groupNumber :=
  escape_shape (by simp [escapingRows]) i

theorem threeByteTable_shape (i : Fin 1024) :
    EscapeShape 8 23 (threeByteTable i).operands (threeByteTable i).groupNumber :=
  escape_shape (by simp [escapingRows]) i

theorem vexTable_shape (i : Fin 3072) :
    EscapeShape 8 23 (vexTable i).operands (vexTable i).groupNumber :=
  escape_shape (by simp [escapingRows]) i

theorem x87MemTable_shape (i : Fin 64) :
    EscapeShape 1 5 (x87MemTable i).operands (x87MemTable i).groupNumber :=
  escape_shape (by simp [escapingRows]) i

theorem x87RegTable_shape (i : Fin 512) :
    EscapeShape 1 5 (x87RegTable i).operands (x87RegTable i).groupNumber :=
  escape_shape (by simp [escapingRows]) i

theorem threeDNowTable_shape (i : Fin 256) :
    EscapeShape 8 23 (threeDNowTable i).operands (threeDNowTable i).groupNumber :=
  escape_shape (by simp [escapingRows]) i

theorem twoByteGroupTable_shape (i : Fin 128) :
    EntryShape (twoByteGroupTable i).operands (twoByteGroupTable i).groupNumber :=
  assigned_shape _ 128 _ (by decide) (by decide +kernel) i

theorem grpTable_shape (rows : List Assignment)
    (hrows : rows ∈ [grp1Rows, grp2Rows, grp3Rows, grp4Rows, grp5Rows]) (i : Fin 8) :
    EntryShape (assigned 8 rows i).operands (assigned 8 rows i).groupNumber := by
  refine assigned_shape EntryShape 8 rows (by decide) ?_ i
  revert rows
  decide +kernel

theorem regOf_lt (modRM : UInt8) : (regOf modRM).toNat < 8 := by
  rw [regOf, UInt8.toNat_and]
  exact Nat.lt_succ_of_le Nat.and_le_right

theorem immediateCount_le_two {operands : Vector TableOperand 3}
    (h : (firstOperand operands).addressingMode.isImmediate = false) :
    immediateCount operands.toList ≤ 2 := by
  rw [toList_operands, immediateCount, List.countP_cons_of_neg (by simp [h])]
  exact List.countP_le_length

theorem mergeOperand_isImmediate (opSize : Size) {outer entry : TableOperand}
    (houter : outer.addressingMode.isImmediate = false)
    (hentry : entry.addressingMode.isImmediate = false) :
    (mergeOperand opSize outer entry).addressingMode.isImmediate = false := by
  rw [mergeOperand]
  split
  · exact houter
  · exact hentry

/-- A merged row has at most two immediates: neither row has one in its first
slot. -/
theorem immediateCount_merge {outer entry : OpcodeInfo}
    (houter : (firstOperand outer.operands).addressingMode.isImmediate = false)
    (hentry : (firstOperand entry.operands).addressingMode.isImmediate = false) :
    immediateCount (merge outer entry).operands.toList ≤ 2 := by
  apply immediateCount_le_two
  rw [merge]
  split
  · exact hentry
  · simpa using mergeOperand_isImmediate _ houter hentry

theorem groupTableOf_entryShape {opcode : UInt8}
    (hgroup : 0 < (opcodeTable ⟨opcode.toNat, opcode.toNat_lt⟩).groupNumber) :
    ∃ table, groupTableOf opcode = .ok table ∧
      ∀ i, EntryShape (table i).operands (table i).groupNumber := by
  obtain ⟨hlow, hhigh, -⟩ := (opcodeTable_shape ⟨opcode.toNat, opcode.toNat_lt⟩).2 hgroup
  have hrow : opcodeTable.at opcode.toNat = .ok (opcodeTable ⟨opcode.toNat, opcode.toNat_lt⟩) :=
    dif_pos ⟨Int.natCast_nonneg _, by exact_mod_cast opcode.toNat_lt⟩
  simp only [groupTableOf, hrow, bind, Except.bind]
  generalize (opcodeTable ⟨opcode.toNat, opcode.toNat_lt⟩).groupNumber = group at *
  have hcases : group = 1 ∨ group = 2 ∨ group = 3 ∨ group = 4 ∨ group = 5 := by omega
  rcases hcases with rfl | rfl | rfl | rfl | rfl
  · exact ⟨grp1Table, rfl, grpTable_shape grp1Rows (by simp)⟩
  · exact ⟨grp2Table, rfl, grpTable_shape grp2Rows (by simp)⟩
  · exact ⟨grp3Table, rfl, grpTable_shape grp3Rows (by simp)⟩
  · exact ⟨grp4Table, rfl, grpTable_shape grp4Rows (by simp)⟩
  · exact ⟨grp5Table, rfl, grpTable_shape grp5Rows (by simp)⟩

theorem groupEntryOf_entryShape {opcode : UInt8} (reg : UInt8)
    (hgroup : 0 < (opcodeTable ⟨opcode.toNat, opcode.toNat_lt⟩).groupNumber) :
    ∃ entry, groupEntryOf opcode reg = .ok entry ∧
      (firstOperand entry.operands).addressingMode.isImmediate = false := by
  obtain ⟨table, htable, hshape⟩ := groupTableOf_entryShape hgroup
  have hreg : (reg &&& 0x07).toNat < 8 := by
    rw [UInt8.toNat_and]
    exact Nat.lt_succ_of_le Nat.and_le_right
  obtain ⟨slot, hslot⟩ := table.at_eq_ok (i := (reg &&& 0x07).toNat)
    (Int.natCast_nonneg _) (by exact_mod_cast hreg)
  exact ⟨table slot, by simp only [groupEntryOf, htable]; exact hslot, hshape slot⟩

theorem x87ResolvedInfo_ok {opcode : UInt8} (modRM : UInt8) (hx87 : isX87 opcode = true) :
    ∃ info, x87ResolvedInfo opcode modRM = .ok info ∧ immediateCount info.operands.toList ≤ 2 := by
  have hescape : (opcode.toUInt32 - 0xD8).toNat = opcode.toNat - 0xD8 ∧ opcode.toNat < 0xE0 ∧
      0xD8 ≤ opcode.toNat := by
    simp only [isX87, Bool.and_eq_true, decide_eq_true_eq, ge_iff_le, UInt8.le_iff_toNat_le] at hx87
    have hlow : 0xD8 ≤ opcode.toNat := hx87.1
    have hhigh : opcode.toNat ≤ 0xDF := hx87.2
    refine ⟨?_, by omega, hlow⟩
    rw [UInt32.toNat_sub_of_le _ _ (by rw [UInt32.le_iff_toNat_le]; simpa using hlow)]
    simp
  rw [x87ResolvedInfo]
  split
  · have hreg := regOf_lt modRM
    have hindex : ((opcode.toUInt32 - 0xD8) * 8 + (regOf modRM).toUInt32).toNat < 64 := by
      have hfactor : (8 : UInt32).toNat = 8 := rfl
      rw [UInt32.toNat_add, UInt32.toNat_mul, hescape.1, UInt8.toNat_toUInt32, hfactor]
      omega
    obtain ⟨slot, hslot⟩ := x87MemTable.at_eq_ok (Int.natCast_nonneg _)
      (by exact_mod_cast hindex)
    exact ⟨_, hslot, (x87MemTable_shape slot).1⟩
  · have hrm : (modRM &&& 0x3F).toNat < 64 := by
      rw [UInt8.toNat_and]
      exact Nat.lt_succ_of_le Nat.and_le_right
    have hindex : ((opcode.toUInt32 - 0xD8) * 64 + (modRM &&& 0x3F).toUInt32).toNat < 512 := by
      have hfactor : (64 : UInt32).toNat = 64 := rfl
      rw [UInt32.toNat_add, UInt32.toNat_mul, hescape.1, UInt8.toNat_toUInt32, hfactor]
      omega
    obtain ⟨slot, hslot⟩ := x87RegTable.at_eq_ok (Int.natCast_nonneg _)
      (by exact_mod_cast hindex)
    exact ⟨_, hslot, (x87RegTable_shape slot).1⟩

/-- A one-byte opcode always resolves: `groupTableOf` is asked for groups only. -/
theorem resolvedInfo_ok (opcode modRM : UInt8) (is64Bit : Bool) :
    ∃ info, resolvedInfo opcode modRM is64Bit = .ok info ∧
      immediateCount info.operands.toList ≤ 2 := by
  have hrow : opcodeTable.at opcode.toNat = .ok (opcodeTable ⟨opcode.toNat, opcode.toNat_lt⟩) :=
    dif_pos ⟨Int.natCast_nonneg _, by exact_mod_cast opcode.toNat_lt⟩
  have hshape := opcodeTable_shape ⟨opcode.toNat, opcode.toNat_lt⟩
  rw [resolvedInfo]
  split
  · rename_i hx87
    exact x87ResolvedInfo_ok modRM hx87
  split
  · exact ⟨movsxd, rfl, by decide⟩
  split
  · refine ⟨_, rfl, ?_⟩
    split <;> decide
  rw [hrow]
  by_cases hgroup : 0 < (opcodeTable ⟨opcode.toNat, opcode.toNat_lt⟩).groupNumber
  · obtain ⟨entry, hentry, hfirst⟩ := groupEntryOf_entryShape (regOf modRM) hgroup
    refine ⟨merge _ entry, ?_, immediateCount_merge (hshape.2 hgroup).2.2 hfirst⟩
    simp only [bind, Except.bind, gt_iff_lt, if_pos hgroup, hentry]
    rfl
  · refine ⟨_, ?_, hshape.1⟩
    simp only [bind, Except.bind, gt_iff_lt, if_neg hgroup]
    rfl

theorem twoByteGroupEntry_ok {group : Int} (modRM : UInt8) (hlow : 8 ≤ group)
    (hhigh : group ≤ 23) :
    ∃ entry, twoByteGroupEntry group modRM = .ok entry ∧
      (firstOperand entry.operands).addressingMode.isImmediate = false := by
  have hreg := regOf_lt modRM
  obtain ⟨slot, hslot⟩ := twoByteGroupTable.at_eq_ok
    (i := (group - 8) * 8 + (regOf modRM).toNat) (by omega) (by omega)
  exact ⟨_, hslot, twoByteGroupTable_shape slot⟩

theorem twoByteTable_at (opcode : UInt8) :
    ∃ outer, twoByteTable.at opcode.toNat = .ok outer ∧
      EscapeShape 8 23 outer.operands outer.groupNumber := by
  have hopcode : opcode.toNat < 256 := opcode.toNat_lt
  obtain ⟨slot, hslot⟩ := twoByteTable.at_eq_ok (i := opcode.toNat) (by omega) (by omega)
  exact ⟨_, hslot, twoByteTable_shape slot⟩

theorem twoByteOuter_ok (opcode : UInt8) {pp : UInt8} (hpp : pp.toNat ≤ 3) :
    ∃ outer, twoByteOuter opcode pp = .ok outer ∧
      EscapeShape 8 23 outer.operands outer.groupNumber := by
  have hopcode : opcode.toNat < 256 := opcode.toNat_lt
  rw [twoByteOuter]
  split
  · exact twoByteTable_at opcode
  · rename_i hne
    have hpos : pp.toNat ≠ 0 := fun hzero => hne (UInt8.toNat_inj.mp hzero)
    obtain ⟨slot, hslot⟩ := prefixedTable.at_eq_ok
      (i := (pp.toNat - 1 : Int) * 256 + opcode.toNat) (by omega) (by omega)
    simp only [hslot, bind, Except.bind]
    split
    · exact twoByteTable_at opcode
    · exact ⟨_, rfl, prefixedTable_shape slot⟩

theorem toXmm_isImmediate (operand : TableOperand) :
    (TableOperand.toXmm operand).addressingMode.isImmediate =
      operand.addressingMode.isImmediate := by
  rw [TableOperand.toXmm]
  split
  · rename_i hmmx
    simp only [TableOperand.isMmx, Bool.or_eq_true, beq_iff_eq] at hmmx
    rcases hmmx with hmode | hmode <;> simp [hmode, Addressing.isImmediate]
  · rfl

theorem sse2Twin_shape {row : OpcodeInfo} {low high : Int}
    (h : EscapeShape low high row.operands row.groupNumber) :
    EscapeShape low high (sse2Twin row).operands (sse2Twin row).groupNumber := by
  rw [sse2Twin]
  split
  · simpa [EscapeShape, immediateCount, List.countP_map, Function.comp_def, toXmm_isImmediate]
      using h
  · exact h

theorem renamedIf_shape {low high : Int} (condition : Bool) (text : String) {info : OpcodeInfo}
    (h : EscapeShape low high info.operands info.groupNumber) :
    EscapeShape low high (renamedIf condition text info).operands
      (renamedIf condition text info).groupNumber := by
  rw [renamedIf]
  split <;> exact h

theorem twoByteSpecialCases_shape (opcode modRM pp : UInt8) {outer : OpcodeInfo}
    (h : EscapeShape 8 23 outer.operands outer.groupNumber) :
    EscapeShape 8 23 (twoByteSpecialCases opcode modRM pp outer).operands
      (twoByteSpecialCases opcode modRM pp outer).groupNumber := by
  refine renamedIf_shape _ _ ?_
  split
  · exact sse2Twin_shape h
  · exact h

theorem vexRenamed_shape (opcode modRM : UInt8) (simd : Simd) {info : OpcodeInfo}
    (h : EscapeShape 8 23 info.operands info.groupNumber) :
    EscapeShape 8 23 (vexRenamed opcode modRM simd info).operands
      (vexRenamed opcode modRM simd info).groupNumber := by
  refine renamedIf_shape _ _ ?_
  split <;> exact renamedIf_shape _ _ h

theorem gatherResized_shape (opcode : UInt8) (simd : Simd) {info : OpcodeInfo}
    (h : EscapeShape 8 23 info.operands info.groupNumber) :
    EscapeShape 8 23 (gatherResized opcode simd info).operands
      (gatherResized opcode simd info).groupNumber := by
  rw [gatherResized]
  split
  · split <;>
      simpa [EscapeShape, toList_operands, immediateCount, List.countP_cons,
        TableOperand.withSize] using h
  · exact h

theorem followGroup_ok {row : OpcodeInfo} {group : Int} (modRM : UInt8)
    (hshape : EscapeShape 8 23 row.operands row.groupNumber)
    (hgroup : group = row.groupNumber ∨ (8 ≤ group ∧ group ≤ 23)) :
    ∃ info, followGroup row group modRM = .ok info ∧
      immediateCount info.operands.toList ≤ 2 := by
  rw [followGroup]
  split
  · exact ⟨row, rfl, hshape.1⟩
  · obtain ⟨hlow, hhigh, hfirst⟩ := hshape.2 (by omega)
    obtain ⟨entry, hentry, hentryFirst⟩ :=
      @twoByteGroupEntry_ok group modRM (by omega) (by omega)
    exact ⟨merge row entry, by rw [hentry]; rfl, immediateCount_merge hfirst hentryFirst⟩

theorem twoByteResolvedInfo_ok (opcode modRM : UInt8) {simd : Simd} (hpp : simd.pp.toNat ≤ 3) :
    ∃ info, twoByteResolvedInfo opcode modRM simd = .ok info ∧
      immediateCount info.operands.toList ≤ 2 := by
  rw [twoByteResolvedInfo]
  split
  · refine ⟨_, rfl, ?_⟩
    split <;> decide
  split
  · refine ⟨_, rfl, ?_⟩
    split <;> decide
  obtain ⟨row, hrow, hshape⟩ := twoByteOuter_ok opcode hpp
  simp only [hrow, bind, Except.bind]
  refine followGroup_ok modRM (twoByteSpecialCases_shape opcode modRM simd.pp hshape) ?_
  split
  · exact Or.inr (by decide)
  · exact Or.inl rfl

theorem threeByteRow_immediateCount (hasImm8 : Bool) :
    immediateCount (threeByteRow hasImm8).operands.toList ≤ 2 := by
  cases hasImm8 <;> decide

theorem threeByteResolvedInfo_ok (opcode : UInt8) {simd : Simd}
    (hmap : simd.map = 2 ∨ simd.map = 3) :
    ∃ info, threeByteResolvedInfo opcode simd = .ok info ∧
      immediateCount info.operands.toList ≤ 2 := by
  have hopcode : opcode.toNat < 256 := opcode.toNat_lt
  rw [threeByteResolvedInfo]
  split
  · refine ⟨_, rfl, ?_⟩
    split <;> decide
  split
  · exact ⟨_, rfl, threeByteRow_immediateCount _⟩
  rename_i hpp
  have hpp : simd.pp.toNat ≤ 1 := by
    simpa [UInt8.lt_iff_toNat_lt] using hpp
  have hmapNat : simd.map.toNat = 2 ∨ simd.map.toNat = 3 := by
    rcases hmap with h | h <;> simp [h]
  obtain ⟨slot, hslot⟩ := threeByteTable.at_eq_ok
    (i := ((simd.map.toNat - 2 : Int) * 2 + simd.pp.toNat) * 256 + opcode.toNat)
    (by omega) (by omega)
  simp only [hslot, bind, Except.bind]
  refine ⟨_, rfl, ?_⟩
  split
  · exact threeByteRow_immediateCount _
  · exact (threeByteTable_shape slot).1

theorem vexResolvedInfo_ok (opcode modRM : UInt8) {simd : Simd} (hlow : 1 ≤ simd.map.toNat)
    (hhigh : simd.map.toNat ≤ 3) (hpp : simd.pp.toNat ≤ 3) :
    ∃ info, vexResolvedInfo opcode modRM simd = .ok info ∧
      immediateCount info.operands.toList ≤ 2 := by
  have hopcode : opcode.toNat < 256 := opcode.toNat_lt
  obtain ⟨slot, hslot⟩ := vexTable.at_eq_ok
    (i := ((simd.map.toNat - 1 : Int) * 4 + simd.pp.toNat) * 256 + opcode.toNat)
    (by omega) (by omega)
  simp only [vexResolvedInfo, hslot, bind, Except.bind]
  split
  · exact ⟨_, rfl, threeByteRow_immediateCount _⟩
  · exact followGroup_ok modRM
      (gatherResized_shape opcode simd (vexRenamed_shape opcode modRM simd (vexTable_shape slot)))
      (Or.inl rfl)

theorem threeDNowTable_ok (opcode : UInt8) :
    ∃ info, threeDNowTable.at opcode.toNat = .ok info ∧
      immediateCount info.operands.toList ≤ 2 := by
  have hopcode : opcode.toNat < 256 := opcode.toNat_lt
  obtain ⟨slot, hslot⟩ := threeDNowTable.at_eq_ok (i := opcode.toNat) (by omega) (by omega)
  exact ⟨_, hslot, (threeDNowTable_shape slot).1⟩

end Voidwalk.RowResolution

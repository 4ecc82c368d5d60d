import Voidwalk.HexDump
import Voidwalk.MemoryView
import Voidwalk.SymbolAgreement

/-!
The hexdumps of the two memory panes: the rows that they show, and the file read back from
them.
-/

namespace Voidwalk.HexRows

open Voidwalk.MappedFile
open Voidwalk.InstructionRendering
open Voidwalk.AnalysisSession
open Voidwalk.FrontendRows
open Voidwalk.MemoryView
open Voidwalk.OpcodeRows
open Voidwalk.SymbolAgreement
open Voidwalk.HexDump (shown offsetDigits groups asciiColumn)
open Voidwalk.Library
open Voidwalk.Library.Bytes
open Voidwalk.Library.SeparatedText
open Voidwalk.Library.SumText

/-- The two strings that a row is put together in. -/
structure Columns where
  hex : List Char := []
  ascii : List Char := []

/-- The body of the loop over the columns, which the panes share but for how the digits of a byte
are made. -/
def columnWith (digits : UInt8 → List Char) (raw : List UInt8) (columns : Columns) (c : Nat) :
    Columns :=
  let spaced := if 0 < c then columns.hex ++ [' '] else columns.hex
  -- The gap between the two groups of eight bytes.
  let hex := if c = 8 then spaced ++ [' '] else spaced
  match raw[c]? with
  | some byte => {
      hex := hex ++ digits byte
      ascii := columns.ascii ++
        [if 0x20 ≤ byte && byte ≤ 0x7e then Char.ofNat byte.toNat else '.'] }
  | none => { hex := hex ++ [' ', ' '], ascii := columns.ascii }

namespace MemoryPane

def column : List UInt8 → Columns → Nat → Columns :=
  columnWith fun byte => (hexUp byte.toNat 2).toList

/-- The texts of the boxes of row `r`, side by side. -/
def rowText (unreadable : UInt64 → Bool) (space : AddressSpace) (r : UInt64) :
    Except Thrown (List Char) := do
  let raw ← bytes unreadable space (r * 16) 16
  let columns := (List.range 16).foldl (column raw) {}
  pure ([' '] ++ (hexUp (r * 16).toNat 8).toList ++ [' ', ' '] ++ columns.hex ++ [' ', ' '] ++
    (['|'] ++ columns.ascii ++ ['|']))

end MemoryPane

/-- `QString("%1").arg(a, fieldWidth, 16, '0')` and `QString::toUpper`. -/
structure Qt where
  arg : Nat → Nat → List Char
  toUpper : List Char → List Char

namespace HexModel

/-- `HexModel::reload()` with a loaded binary. -/
def rows (space : AddressSpace) : Nat := min ((space.size + 15) / 16).toNat 0x7FFFFFFF

def column (qt : Qt) : List UInt8 → Columns → Nat → Columns :=
  columnWith fun b => qt.toUpper (qt.arg b.toNat 2)

/-- `HexModel::data` for the text of a valid index. -/
def data (qt : Qt) (unreadable : UInt64 → Bool) (space : AddressSpace) (row : Nat) :
    Except Thrown (Option (List Char)) :=
  if rows space ≤ row then pure none
  else do
    let base := UInt64.ofNat row * 16
    let data ← bytes unreadable space base 16
    let columns := (List.range 16).foldl (column qt data) {}
    pure (some (qt.toUpper (qt.arg base.toNat 8) ++ [' ', ' '] ++ columns.hex ++ [' ', ' ', '|'] ++
      columns.ascii ++ ['|']))

end HexModel

section Reading

/-- What Qt documents of the two for digits. -/
structure Qt.Documented (qt : Qt) : Prop where
  arg : ∀ a fieldWidth, qt.arg a fieldWidth = (Nat.toDigits 16 a).leftpad fieldWidth '0'
  toUpper : ∀ text, (∀ c ∈ text, c.toNat < 128) → qt.toUpper text = text.map Char.toUpper

/-- A number whose digits are capitals. -/
def hexNumber (digits : List Char) : Option Nat := numberOf 16 (digits.map Char.toLower)

/-- Row `r` of a hexdump of `bytes`. -/
structure ShowsRow (bytes : List UInt8) (r : Nat) (row : List Char) : Prop where
  offset : hexNumber (offsetDigits row) = some (16 * r)
  eight_le : 8 ≤ (offsetDigits row).length
  two_digits : ∀ group ∈ groups row, group.length = 2
  present : (groups row).map hexNumber =
    ((bytes.drop (16 * r)).take 16).map fun byte => some byte.toNat
  aligned : asciiColumn row = (offsetDigits row).length + 53
  ascii : row.drop (asciiColumn row) = ((bytes.drop (16 * r)).take 16).map shown ++ ['|']

end Reading

section Digits

theorem eq_of_mem_hexUp {value width : Nat} {symbol : Char}
    (h : symbol ∈ (hexUp value width).toList) :
    ∃ digit < 16, symbol = (Nat.digitChar digit).toUpper := by
  rw [hexUp, String.toList_ofList, List.mem_append] at h
  rcases h with hzero | hdigit
  · exact ⟨0, by decide, List.eq_of_mem_replicate hzero⟩
  · obtain ⟨lower, hlower, rfl⟩ := List.mem_map.mp hdigit
    obtain ⟨digit, hlt, rfl⟩ := eq_digitChar_of_mem (by decide) hlower
    exact ⟨digit, hlt, rfl⟩

theorem not_mem_hexUp {symbol : Char}
    (h : ∀ digit < 16, symbol ≠ (Nat.digitChar digit).toUpper) (value width : Nat) :
    symbol ∉ (hexUp value width).toList := by
  intro hmem
  obtain ⟨digit, hdigit, heq⟩ := eq_of_mem_hexUp hmem
  exact h digit hdigit heq

theorem lower_hexUp (value width : Nat) :
    (hexUp value width).toList.map Char.toLower = (Nat.toDigits 16 value).leftpad width '0' := by
  have hlower : ∀ digit < 16, (Nat.digitChar digit).toUpper.toLower = Nat.digitChar digit := by
    decide
  rw [hexUp, String.toList_ofList, List.map_append, List.map_replicate, List.map_map,
    List.length_map, List.leftpad]
  congr 1
  rw [List.map_congr_left, List.map_id]
  intro symbol hmem
  obtain ⟨digit, hdigit, rfl⟩ := eq_digitChar_of_mem (by decide) hmem
  exact hlower digit hdigit

theorem hexNumber_hexUp (value width : Nat) :
    hexNumber (hexUp value width).toList = some value := by
  rw [hexNumber, lower_hexUp, numberOf_leftpad (by decide) (by decide)]

theorem length_hexUp (value width : Nat) :
    (hexUp value width).toList.length = max width (Nat.toDigits 16 value).length := by
  rw [← List.length_map (f := Char.toLower), lower_hexUp, List.length_leftpad]

/-- The digits of a byte. -/
def pair (byte : UInt8) : List Char := (hexUp byte.toNat 2).toList

theorem length_pair (byte : UInt8) : (pair byte).length = 2 := by
  have hdigits : (Nat.toDigits 16 byte.toNat).length ≤ 2 := by
    revert byte
    exact forall_byte (by decide +kernel)
  rw [pair, length_hexUp, Nat.max_eq_left hdigits]

theorem symbol_eq (byte : UInt8) :
    (if 0x20 ≤ byte && byte ≤ 0x7e then Char.ofNat byte.toNat else '.') = shown byte := by
  revert byte
  exact forall_byte (by decide +kernel)

theorem toUpper_arg {qt : Qt} (hqt : qt.Documented) (value width : Nat) :
    qt.toUpper (qt.arg value width) = (hexUp value width).toList := by
  have hascii : ∀ digit < 16, (Nat.digitChar digit).toNat < 128 := by decide
  rw [hqt.arg, hqt.toUpper, hexUp, String.toList_ofList, List.leftpad, List.map_append,
    List.map_replicate, List.length_map]
  · rfl
  · intro symbol hmem
    rw [List.leftpad, List.mem_append] at hmem
    rcases hmem with hzero | hdigit
    · rw [List.eq_of_mem_replicate hzero]
      decide
    · obtain ⟨digit, hlt, rfl⟩ := eq_digitChar_of_mem (by decide) hdigit
      exact hascii digit hlt

theorem column_eq {qt : Qt} (hqt : qt.Documented) : HexModel.column qt = MemoryPane.column := by
  have hdigits : (fun b : UInt8 => qt.toUpper (qt.arg b.toNat 2)) =
      fun byte => (hexUp byte.toNat 2).toList := by
    funext byte
    exact toUpper_arg hqt byte.toNat 2
  rw [HexModel.column, hdigits, MemoryPane.column]

end Digits

section Words

/-- The words of a text with blanks between them. -/
def wordsIn (text : List Char) : List (List Char) :=
  (text.splitOn ' ').filter fun group => !group.isEmpty

theorem wordsIn_append (front text : List Char) :
    wordsIn (front ++ ' ' :: text) = wordsIn front ++ wordsIn text := by
  rw [wordsIn, List.splitOn_append_cons_self, List.filter_append]
  rfl

theorem wordsIn_word {word : List Char} (hblank : ' ' ∉ word) (hne : word ≠ []) :
    wordsIn word = [word] := by
  rw [wordsIn, List.splitOn_eq_singleton hblank]
  simp [hne]

end Words

section ColumnTexts

variable (raw : List UInt8)

/-- What stands in front of the byte of column `c`. -/
def gap (c : Nat) : List Char :=
  (if 0 < c then [' '] else []) ++ (if c = 8 then [' '] else [])

def cell : Option UInt8 → List Char
  | some byte => pair byte
  | none => [' ', ' ']

/-- The two strings after the first `n` columns. -/
def columnsOf (n : Nat) : Columns := (List.range n).foldl (MemoryPane.column raw) {}

theorem columnsOf_succ (n : Nat) :
    (columnsOf raw (n + 1)).hex = (columnsOf raw n).hex ++ (gap n ++ cell raw[n]?) ∧
      (columnsOf raw (n + 1)).ascii = (columnsOf raw n).ascii ++ (raw[n]?.map shown).toList := by
  have hstep : columnsOf raw (n + 1) = MemoryPane.column raw (columnsOf raw n) n := by
    rw [columnsOf, List.range_succ, List.foldl_append]
    rfl
  have hspaced (text : List Char) : (if n = 8 then (if 0 < n then text ++ [' '] else text) ++ [' ']
      else if 0 < n then text ++ [' '] else text) = text ++ gap n := by
    rw [gap]
    split <;> split <;> simp
  rw [hstep, MemoryPane.column, columnWith, hspaced]
  cases raw[n]? with
  | none =>
      exact ⟨List.append_assoc _ _ _, (List.append_nil _).symm⟩
  | some byte =>
      refine ⟨List.append_assoc _ _ _, ?_⟩
      exact congrArg ((columnsOf raw n).ascii ++ [·]) (symbol_eq byte)

theorem length_cell (byte : Option UInt8) : (cell byte).length = 2 := by
  cases byte with
  | none => rfl
  | some byte => exact length_pair byte

theorem blank_not_mem_pair (byte : UInt8) : ' ' ∉ pair byte := not_mem_hexUp (by decide) _ _

theorem wordsIn_cell (byte : Option UInt8) : wordsIn (cell byte) = (byte.map pair).toList := by
  cases byte with
  | none => decide
  | some byte =>
      have hne : pair byte ≠ [] := List.ne_nil_of_length_pos (by rw [length_pair]; decide)
      exact wordsIn_word (blank_not_mem_pair byte) hne

/-- The words after `n` columns are the digits of the bytes that are there. -/
theorem wordsIn_columns (n : Nat) : wordsIn (columnsOf raw n).hex = (raw.take n).map pair := by
  induction n with
  | zero => rfl
  | succ n ih =>
      have hword : wordsIn ((columnsOf raw n).hex ++ (gap n ++ cell raw[n]?)) =
          wordsIn (columnsOf raw n).hex ++ wordsIn (cell raw[n]?) := by
        rcases n with _ | n
        · rfl
        · rw [gap, if_pos (Nat.succ_pos n), List.append_assoc, List.singleton_append,
            wordsIn_append]
          congr 1
          split
          · exact wordsIn_append [] _
          · rfl
      rw [(columnsOf_succ raw n).1, hword, ih, wordsIn_cell, List.take_add_one, List.map_append,
        Option.toList_map]

theorem ascii_columns (n : Nat) : (columnsOf raw n).ascii = (raw.take n).map shown := by
  induction n with
  | zero => rfl
  | succ n ih =>
      rw [(columnsOf_succ raw n).2, ih, List.take_add_one, List.map_append, Option.toList_map]

theorem length_hex (n : Nat) :
    (columnsOf raw (n + 1)).hex.length = 3 * n + 2 + if 8 ≤ n then 1 else 0 := by
  induction n with
  | zero =>
      rw [(columnsOf_succ raw 0).1]
      exact length_cell raw[0]?
  | succ n ih =>
      rw [(columnsOf_succ raw (n + 1)).1, List.length_append, List.length_append, length_cell, ih,
        gap, if_pos (Nat.succ_pos n)]
      split <;> split <;> split <;> simp <;> omega

theorem bar_not_mem_hex (n : Nat) : '|' ∉ (columnsOf raw n).hex := by
  induction n with
  | zero => exact List.not_mem_nil
  | succ n ih =>
      have hgap : '|' ∉ gap n := by
        rw [gap]
        split <;> split <;> decide
      have hcell : '|' ∉ cell raw[n]? := by
        cases raw[n]? with
        | none => decide
        | some byte => exact not_mem_hexUp (by decide) _ _
      rw [(columnsOf_succ raw n).1]
      simp only [List.mem_append, not_or]
      exact ⟨ih, hgap, hcell⟩

end ColumnTexts

section Rows

variable {bytes : List UInt8}

theorem mapped_twice {α β γ : Type} (f : α → β) (g : β → γ) (result : Except Thrown α) :
    (result.map f).map g = result.map (g ∘ f) := by
  cases result with
  | error exception => rfl
  | ok value => rfl

/-- The row at `base` with the bytes `raw`. -/
def rowOf (base : Nat) (raw : List UInt8) : List Char :=
  ((hexUp base 8).toList ++ ' ' :: ' ' :: ((columnsOf raw 16).hex ++ [' ', ' '])) ++
    '|' :: ((columnsOf raw 16).ascii ++ ['|'])

theorem rowText_eq (unreadable : UInt64 → Bool) (space : AddressSpace) (r : UInt64) :
    MemoryPane.rowText unreadable space r =
      (AnalysisSession.bytes unreadable space (r * 16) 16).map fun raw =>
        ' ' :: rowOf (r * 16).toNat raw := by
  rw [MemoryPane.rowText]
  cases AnalysisSession.bytes unreadable space (r * 16) 16 with
  | error exception => rfl
  | ok raw =>
      refine congrArg Except.ok ?_
      simp [rowOf, columnsOf]

theorem data_eq {qt : Qt} (hqt : qt.Documented) (unreadable : UInt64 → Bool)
    (space : AddressSpace) {row : Nat} (h : row < HexModel.rows space) :
    HexModel.data qt unreadable space row =
      (AnalysisSession.bytes unreadable space (UInt64.ofNat row * 16) 16).map fun raw =>
        some (rowOf (UInt64.ofNat row * 16).toNat raw) := by
  simp only [HexModel.data, if_neg (Nat.not_le.mpr h), column_eq hqt, toUpper_arg hqt]
  cases AnalysisSession.bytes unreadable space (UInt64.ofNat row * 16) 16 with
  | error exception => rfl
  | ok raw =>
      refine congrArg (Except.ok ∘ some) ?_
      simp [rowOf, columnsOf]

theorem blank_not_mem_offset (base : Nat) : ' ' ∉ (hexUp base 8).toList :=
  not_mem_hexUp (by decide) _ _

theorem offsetDigits_rowOf (base : Nat) (raw : List UInt8) :
    offsetDigits (rowOf base raw) = (hexUp base 8).toList := by
  rw [offsetDigits, rowOf, List.append_assoc]
  exact before_append (blank_not_mem_offset base) _

theorem bar_not_mem_front (base : Nat) (raw : List UInt8) :
    '|' ∉ (hexUp base 8).toList ++ ' ' :: ' ' :: ((columnsOf raw 16).hex ++ [' ', ' ']) := by
  have hoffset : '|' ∉ (hexUp base 8).toList := not_mem_hexUp (by decide) _ _
  simp [hoffset, bar_not_mem_hex raw 16]

theorem eight_le_offset (base : Nat) : 8 ≤ (hexUp base 8).toList.length := by
  rw [length_hexUp]
  exact Nat.le_max_left _ _

theorem groups_rowOf (base : Nat) (raw : List UInt8) :
    groups (rowOf base raw) = (raw.take 16).map pair := by
  have hne : (hexUp base 8).toList ≠ [] :=
    List.ne_nil_of_length_pos (Nat.lt_of_lt_of_le (by decide) (eight_le_offset base))
  have hwords : wordsIn ((hexUp base 8).toList ++ ' ' :: ' ' :: ((columnsOf raw 16).hex ++
      [' ', ' '])) = (hexUp base 8).toList :: (raw.take 16).map pair := by
    rw [wordsIn_append, wordsIn_word (blank_not_mem_offset base) hne]
    refine congrArg ((hexUp base 8).toList :: ·) ?_
    show wordsIn ([] ++ ' ' :: ((columnsOf raw 16).hex ++ ' ' :: [' '])) = _
    rw [wordsIn_append, wordsIn_append, wordsIn_columns]
    exact List.append_nil _
  rw [groups, rowOf, before_append (bar_not_mem_front base raw)]
  exact congrArg (List.drop 1) hwords

theorem asciiColumn_rowOf (base : Nat) (raw : List UInt8) :
    asciiColumn (rowOf base raw) = (hexUp base 8).toList.length + 53 := by
  rw [asciiColumn, rowOf, List.idxOf_append_of_notMem (bar_not_mem_front base raw),
    List.idxOf_cons_self, List.length_append, List.length_cons, List.length_cons,
    List.length_append, length_hex raw 15]
  rfl

theorem drop_asciiColumn (base : Nat) (raw : List UInt8) :
    (rowOf base raw).drop (asciiColumn (rowOf base raw)) = (raw.take 16).map shown ++ ['|'] := by
  rw [asciiColumn, rowOf, List.idxOf_append_of_notMem (bar_not_mem_front base raw),
    List.idxOf_cons_self, Nat.add_zero, ← List.drop_drop, List.drop_left, ascii_columns]
  rfl

/-- The digits of bytes give the bytes back. -/
theorem map_pair (bytes : List UInt8) :
    (bytes.map pair).map hexNumber = bytes.map fun byte => some byte.toNat := by
  rw [List.map_map, List.map_congr_left]
  intro byte _
  rw [Function.comp_apply, pair, hexNumber_hexUp]

theorem showsRow (bytes : List UInt8) (r : Nat) :
    ShowsRow bytes r (rowOf (16 * r) ((bytes.drop (16 * r)).take 16)) := by
  have hwhole : ((bytes.drop (16 * r)).take 16).take 16 = (bytes.drop (16 * r)).take 16 := by
    rw [List.take_take, Nat.min_self]
  constructor
  · rw [offsetDigits_rowOf, hexNumber_hexUp]
  · rw [offsetDigits_rowOf]
    exact eight_le_offset _
  · rw [groups_rowOf]
    intro group hgroup
    obtain ⟨byte, -, rfl⟩ := List.mem_map.mp hgroup
    exact length_pair byte
  · rw [groups_rowOf, hwhole, map_pair]
  · rw [asciiColumn_rowOf, offsetDigits_rowOf]
  · rw [drop_asciiColumn, hwhole]

/-- The rows of a hexdump of `bytes`. -/
def dumpRows (bytes : List UInt8) : List (List Char) :=
  (List.range ((bytes.length + 15) / 16)).map fun r =>
    rowOf (16 * r) ((bytes.drop (16 * r)).take 16)

theorem length_dumpRows (bytes : List UInt8) :
    (dumpRows bytes).length = (bytes.length + 15) / 16 := by
  rw [dumpRows, List.length_map, List.length_range]

/-- The digits of the rows are those of the whole file. -/
theorem groups_dumpRows (bytes : List UInt8) :
    ((dumpRows bytes).flatMap groups).map hexNumber =
      bytes.map fun byte => some byte.toNat := by
  have hgroups : (dumpRows bytes).flatMap groups = bytes.map pair := by
    rw [dumpRows, List.flatMap_map, ← Chunks.flatMap_pieces (by decide : 0 < 16) pair bytes]
    apply List.flatMap_congr
    intro r _
    rw [groups_rowOf, List.take_take, Nat.min_self]
  rw [hgroups, map_pair]

end Rows

section Panes

theorem rows_eq {space : AddressSpace} (h : space.mappedData.length < 2 ^ 63) :
    HexModel.rows space = min (dumpRows space.mappedData).length 0x7FFFFFFF := by
  have hsum : (space.size + 15).toNat = space.mappedData.length + 15 := by
    rw [UInt64.toNat_add, AddressSpace.toNat_size]
    exact Nat.mod_eq_of_lt (by simp only [UInt64.reduceToNat]; omega)
  rw [HexModel.rows, UInt64.toNat_div, hsum, length_dumpRows]
  rfl

theorem toNat_base {r : Nat} (h : r < 2 ^ 60) : (UInt64.ofNat r * 16).toNat = 16 * r := by
  rw [UInt64.toNat_mul, UInt64.toNat_ofNat_of_lt' (show r < 2 ^ 64 by omega), Nat.mul_comm]
  exact Nat.mod_eq_of_lt (by simp only [UInt64.reduceToNat]; omega)

/-- The bytes that a row is drawn from. -/
theorem bytes_row (space : AddressSpace) {r : Nat} (h : r < 2 ^ 60) :
    AnalysisSession.bytes (fun _ => false) space (UInt64.ofNat r * 16) 16 =
      .ok ((space.mappedData.drop (16 * r)).take 16) := by
  rw [bytes_readable, contentsAt, toNat_base h]
  rfl

/-- Both panes show the rows of one hexdump, the terminal's a blank further right, fail in
the same reads, and the rows give the file back. -/
theorem hexdumps_agree (qt : Qt) (hqt : qt.Documented) (memory : Memory) (space : AddressSpace)
    (hloaded : memory.loaded = true) (hsize : memory.binarySize = space.size) :
    (∀ unreadable, ∀ r < HexModel.rows space, ∃ row : Except Thrown (List Char),
      HexModel.data qt unreadable space r = row.map some ∧
        MemoryPane.rowText unreadable space (.ofNat r) = row.map (' ' :: ·)) ∧
    ∃ rows : List (List Char), rows.length = memory.totalRows.toNat ∧
      HexModel.rows space = min rows.length 0x7FFFFFFF ∧
      (∀ r (h : r < rows.length), ShowsRow space.mappedData r rows[r] ∧
        MemoryPane.rowText (fun _ => false) space (.ofNat r) = .ok (' ' :: rows[r]) ∧
        (r < 0x7FFFFFFF → HexModel.data qt (fun _ => false) space r = .ok (some rows[r]))) ∧
      (rows.flatMap groups).map hexNumber =
        space.mappedData.map fun byte => some byte.toNat := by
  have hlength : space.mappedData.length < 2 ^ 63 := by
    rw [← AddressSpace.toNat_size, ← hsize]
    exact memory.binarySize_lt
  have htotal : memory.totalRows.toNat = (space.mappedData.length + 15) / 16 := by
    rw [toNat_totalRows hloaded, hsize, AddressSpace.toNat_size]
  have hrows := rows_eq hlength
  refine ⟨?_, dumpRows space.mappedData, ?_, hrows, ?_, groups_dumpRows _⟩
  · intro unreadable r hr
    refine ⟨(AnalysisSession.bytes unreadable space (UInt64.ofNat r * 16) 16).map
      (rowOf (UInt64.ofNat r * 16).toNat), ?_, ?_⟩
    · rw [data_eq hqt unreadable space hr, mapped_twice]
      rfl
    · rw [rowText_eq, mapped_twice]
      rfl
  · rw [length_dumpRows, htotal]
  · intro r hr
    have hsmall : r < 2 ^ 60 := by
      rw [length_dumpRows] at hr
      omega
    have hrow : (dumpRows space.mappedData)[r] =
        rowOf (16 * r) ((space.mappedData.drop (16 * r)).take 16) := by
      simp [dumpRows]
    rw [hrow]
    refine ⟨showsRow _ _, ?_, ?_⟩
    · rw [rowText_eq, bytes_row space hsmall, toNat_base hsmall]
      rfl
    · intro hint
      rw [data_eq hqt _ space (hrows ▸ lt_min hr hint), bytes_row space hsmall, toNat_base hsmall]
      rfl

/-- Qt as far as digits go. -/
def digitQt : Qt where
  arg a fieldWidth := (Nat.toDigits 16 a).leftpad fieldWidth '0'
  toUpper text := text.map Char.toUpper

theorem digitQt_documented : digitQt.Documented := by
  constructor
  · exact fun _ _ => rfl
  · exact fun _ _ => rfl

theorem hexdumps_agree_ramp :
    MemoryPane.rowText (fun _ => false) HexDump.ramp 1 = .ok (" 00000010  10 11".toList ++
      List.replicate 45 ' ' ++ "|..|".toList) ∧
    ∃ rows : List (List Char), rows.length = 2 ∧
      HexModel.data digitQt (fun _ => false) HexDump.ramp 0 = .ok rows.head? ∧
      (rows.flatMap groups).map hexNumber =
        HexDump.ramp.mappedData.map fun byte => some byte.toNat := by
  obtain ⟨-, rows, hlength, -, hrows, hgroups⟩ :=
    hexdumps_agree digitQt digitQt_documented { loaded := true, binarySize := 18 } HexDump.ramp rfl
      (by decide)
  have htwo : rows.length = 2 := hlength.trans (by decide)
  obtain ⟨-, -, hfirst⟩ := hrows 0 (by omega)
  refine ⟨by decide +kernel, rows, htwo, ?_, hgroups⟩
  rw [hfirst (by decide), List.head?_eq_getElem?, List.getElem?_eq_getElem]

end Panes

end Voidwalk.HexRows

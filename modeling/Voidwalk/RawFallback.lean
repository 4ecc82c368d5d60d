import Voidwalk.Library.Chunks
import Voidwalk.SymbolAgreement

/-!
The two implementations of `buildFallback()`. Both list the front of `.text`, eight
bytes a row, under one budget that the sections share.
-/

namespace Voidwalk.RawFallback

open Voidwalk.Library.Chunks
open Voidwalk.MappedFile
open Voidwalk.Disassembly
open Voidwalk.AnalysisSession
open Voidwalk.FrontendRows
open Voidwalk.SymbolAgreement

/-- `raw[i]`. -/
def byteAt (raw : List UInt8) (i : Nat) : Except Thrown UInt8 :=
  raw[i]?.elim (.error .outOfRange) .ok

/-- `for (size_t i = 0; i < length; i += 8)`, with the row that the body pushes. The
lengths are far below the range of `size_t`. -/
def rowsFrom (row : Nat → Except Thrown DisasmRow) (length i : Nat) :
    Except Thrown (List DisasmRow) :=
  if i < length then do
    let first ← row i
    let later ← rowsFrom row length (i + 8)
    pure (first :: later)
  else pure []
termination_by length - i

/-- The section loop, with the rows pushed before a read threw. -/
def sectionLoop (clamp : UInt64 → UInt64 → UInt64)
    (row : UInt64 → List UInt8 → Nat → Except Thrown DisasmRow) (unreadable : UInt64 → Bool)
    (space : AddressSpace) : UInt64 → List Header → List DisasmRow × Option Thrown
  | _, [] => ([], none)
  | budget, text :: later =>
      if budget = 0 then ([], none)
      else if text.size = 0 then sectionLoop clamp row unreadable space budget later
      else
        let total := clamp text.size budget
        match bytes unreadable space text.offset total with
        | .error exception => ([], some exception)
        | .ok raw =>
            match rowsFrom (row text.vaddr raw) raw.length 0 with
            | .error exception => ([], some exception)
            | .ok rows =>
                let (pushed, thrown) :=
                  sectionLoop clamp row unreadable space (budget - .ofNat raw.length) later
                (rows ++ pushed, thrown)

namespace Gui

/-- `snprintf("%02X")`. -/
def hexByte (b : UInt8) : String :=
  hexUp b.toNat 2

/-- One of the two loops of a row over its bytes. -/
def appendBytes (first between : String) (raw : List UInt8) (i n : Nat) (text : String) :
    Except Thrown String :=
  (List.range n).foldlM
    (fun text b => do
      let byte ← byteAt raw (i + b)
      pure (text ++ ((if b ≠ 0 then between else first) ++ hexByte byte))) text

def row (vaddr : UInt64) (raw : List UInt8) (i : Nat) : Except Thrown DisasmRow := do
  let n := if raw.length - i < 8 then raw.length - i else 8
  let bytes ← appendBytes "" " " raw i n ""
  let text ← appendBytes "0x" ", 0x" raw i n "db "
  pure { vaddr := vaddr + .ofNat i, bytes := bytes, text := text }

/-- `gui::Session::buildFallback`. -/
def buildFallback (unreadable : UInt64 → Bool) (space : AddressSpace) (text : List Header) :
    List DisasmRow × Option Thrown :=
  sectionLoop (fun size budget => if size < budget then size else budget) row unreadable space
    kMaxBytes text

end Gui

namespace Tui

/-- One round of a row's only loop over its bytes. -/
def appendByte (raw : List UInt8) (i : Nat) (row : DisasmRow) (b : Nat) :
    Except Thrown DisasmRow := do
  let byte ← byteAt raw (i + b)
  pure { row with
    bytes := row.bytes ++ ((if b ≠ 0 then " " else "") ++ hexUp byte.toNat 2)
    text := row.text ++ ((if b ≠ 0 then ", 0x" else "0x") ++ hexUp byte.toNat 2) }

def row (vaddr : UInt64) (raw : List UInt8) (i : Nat) : Except Thrown DisasmRow :=
  (List.range (min 8 (raw.length - i))).foldlM (appendByte raw i)
    { vaddr := vaddr + .ofNat i, bytes := "", text := "db " }

/-- `tui::Session::buildFallback`. -/
def buildFallback (unreadable : UInt64 → Bool) (space : AddressSpace) (text : List Header) :
    List DisasmRow × Option Thrown :=
  sectionLoop min row unreadable space kMaxBytes text

end Tui

section Rows

variable {vaddr : UInt64} {raw : List UInt8} {i : Nat}

/-- The bytes that a row has listed after `n` rounds. -/
def listed (raw : List UInt8) (i n : Nat) : List UInt8 :=
  (raw.drop i).take n

theorem byteAt_of_lt {b : Nat} (h : i + b < raw.length) :
    byteAt raw (i + b) = .ok (raw[i + b]) := by
  rw [byteAt, List.getElem?_eq_getElem h]
  rfl

theorem listed_succ {n : Nat} (h : i + n < raw.length) :
    listed raw i (n + 1) = listed raw i n ++ [raw[i + n]] := by
  rw [listed, List.take_add_one, List.getElem?_drop, List.getElem?_eq_getElem h]
  rfl

theorem listed_ne_nil {n : Nat} (h : i + n < raw.length) (hn : n ≠ 0) : listed raw i n ≠ [] := by
  intro hnil
  have hlength := congrArg List.length hnil
  rw [listed, List.length_take, List.length_drop, List.length_nil] at hlength
  omega

/-- One more round lengthens a separated list by its separator and the next element. -/
theorem intercalate_listed_succ {n : Nat} (h : i + n < raw.length) (between first : String)
    (spell : UInt8 → String) :
    between.intercalate ((listed raw i (n + 1)).map fun byte => first ++ spell byte) =
      between.intercalate ((listed raw i n).map fun byte => first ++ spell byte) ++
        ((if n ≠ 0 then between ++ first else first) ++ spell (raw[i + n])) := by
  rw [listed_succ h, List.map_append, List.map_singleton]
  by_cases hn : n = 0
  · subst hn
    simp [listed]
  · rw [if_pos hn, String.intercalate_append_of_ne_nil _ (List.cons_ne_nil _ _),
      String.intercalate_singleton, String.append_assoc, String.append_assoc]
    intro hnil
    exact listed_ne_nil h hn (List.map_eq_nil_iff.mp hnil)

theorem appendBytes_ok (between first text : String) {n : Nat} (h : i + n ≤ raw.length) :
    Gui.appendBytes first (between ++ first) raw i n text =
      .ok (text ++ between.intercalate
        ((listed raw i n).map fun byte => first ++ hexUp byte.toNat 2)) := by
  induction n with
  | zero => simp [Gui.appendBytes, listed, pure, Except.pure]
  | succ n ih =>
      have hlt : i + n < raw.length := h
      rw [Gui.appendBytes] at ih ⊢
      rw [List.range_succ, List.foldlM_append, ih (Nat.le_of_lt hlt)]
      rw [intercalate_listed_succ hlt between first fun byte => hexUp byte.toNat 2]
      simp only [bind, Except.bind, List.foldlM_cons, List.foldlM_nil, byteAt_of_lt hlt, pure,
        Except.pure, Gui.hexByte, String.append_assoc]

theorem guiRow_eq (hi : i < raw.length) :
    Gui.row vaddr raw i = .ok (fallbackRow vaddr i (listed raw i 8)) := by
  have hn : (if raw.length - i < 8 then raw.length - i else 8) = min (raw.length - i) 8 := by
    split <;> omega
  have htake : listed raw i (min (raw.length - i) 8) = listed raw i 8 := by
    rw [listed, listed, ← List.length_drop, List.take_eq_take_iff]
    omega
  have hle : i + min (raw.length - i) 8 ≤ raw.length := by omega
  have hbytes := appendBytes_ok " " "" "" hle
  have htext := appendBytes_ok ", " "0x" "db " hle
  rw [htake] at hbytes htext
  rw [Gui.row, hn]
  simp only [String.append_empty, String.empty_append] at hbytes
  rw [hbytes]
  change Except.bind _ _ = _
  rw [Except.bind]
  change Except.bind (Gui.appendBytes "0x" ", 0x" raw i _ "db ") _ = _
  rw [show (", 0x" : String) = ", " ++ "0x" from rfl, htext]
  rfl

theorem appendByte_ok {n : Nat} (h : i + n ≤ raw.length) :
    (List.range n).foldlM (Tui.appendByte raw i)
        { vaddr := vaddr + .ofNat i, bytes := "", text := "db " } =
      .ok (fallbackRow vaddr i (listed raw i n)) := by
  induction n with
  | zero => rfl
  | succ n ih =>
      have hlt : i + n < raw.length := h
      have hbytes := intercalate_listed_succ hlt " " "" fun byte => hexUp byte.toNat 2
      have htext := intercalate_listed_succ hlt ", " "0x" fun byte => hexUp byte.toNat 2
      simp only [String.append_empty, String.empty_append] at hbytes
      rw [List.range_succ, List.foldlM_append, ih (Nat.le_of_lt hlt)]
      simp only [bind, Except.bind, List.foldlM_cons, List.foldlM_nil, pure, Except.pure,
        Tui.appendByte, byteAt_of_lt hlt, fallbackRow, hbytes, htext, String.append_assoc]
      rfl

theorem tuiRow_eq (hi : i < raw.length) :
    Tui.row vaddr raw i = .ok (fallbackRow vaddr i (listed raw i 8)) := by
  have htake : listed raw i (min 8 (raw.length - i)) = listed raw i 8 := by
    rw [listed, listed, List.take_eq_take_iff, List.length_drop]
    omega
  rw [Tui.row, appendByte_ok (by omega), htake]

end Rows

section Sections

theorem rowsFrom_eq {row : Nat → Except Thrown DisasmRow} {f : Nat → DisasmRow} {length i : Nat}
    (hrow : ∀ k < length, row k = .ok (f k)) :
    rowsFrom row length i =
      .ok ((List.range ((length - i + 7) / 8)).map fun k => f (i + 8 * k)) := by
  induction i using rowsFrom.induct length with
  | case1 i hlt ih =>
      have hcount : (length - i + 7) / 8 = (length - (i + 8) + 7) / 8 + 1 := by omega
      rw [rowsFrom, if_pos hlt, hrow i hlt, ih, hcount, List.range_succ_eq_map, List.map_cons,
        List.map_map]
      change Except.ok _ = _
      congr 2
      apply List.map_congr_left
      intro k _
      rw [Function.comp_apply, Nat.mul_succ]
      congr 1
      omega
  | case2 i hge =>
      have hnone : (length - i + 7) / 8 = 0 := by omega
      rw [rowsFrom, if_neg hge, hnone]
      rfl

theorem rowsFrom_eq_sectionFallback {row : UInt64 → List UInt8 → Nat → Except Thrown DisasmRow}
    (hrow : ∀ vaddr raw i, i < raw.length →
      row vaddr raw i = .ok (fallbackRow vaddr i (listed raw i 8)))
    (vaddr : UInt64) (raw : List UInt8) :
    rowsFrom (row vaddr raw) raw.length 0 = .ok (sectionFallback vaddr raw) := by
  rw [rowsFrom_eq fun i hi => hrow vaddr raw i hi]
  simp only [sectionFallback, listed, Nat.zero_add, Nat.sub_zero]

theorem sectionLoop_eq {clamp : UInt64 → UInt64 → UInt64}
    {row : UInt64 → List UInt8 → Nat → Except Thrown DisasmRow}
    (hclamp : ∀ size budget, clamp size budget = atMost size budget)
    (hrow : ∀ vaddr raw i, i < raw.length →
      row vaddr raw i = .ok (fallbackRow vaddr i (listed raw i 8)))
    (unreadable : UInt64 → Bool) (space : AddressSpace) (budget : UInt64) (text : List Header) :
    sectionLoop clamp row unreadable space budget text =
      fallbackFrom unreadable space budget text := by
  induction text generalizing budget with
  | nil => rfl
  | cons first later ih =>
      rw [sectionLoop, fallbackFrom, hclamp]
      split
      · rfl
      · split
        · exact ih budget
        · dsimp only
          cases bytes unreadable space first.offset (atMost first.size budget) with
          | error exception => rfl
          | ok raw =>
              dsimp only
              rw [rowsFrom_eq_sectionFallback hrow, ih]

theorem gui_eq_fallbackFrom (unreadable : UInt64 → Bool) (space : AddressSpace)
    (text : List Header) :
    Gui.buildFallback unreadable space text = fallbackFrom unreadable space kMaxBytes text :=
  sectionLoop_eq (fun _ _ => rfl) (fun _ _ _ => guiRow_eq) unreadable space kMaxBytes text

theorem min_eq_atMost (size budget : UInt64) : min size budget = atMost size budget := by
  change (if size ≤ budget then size else budget) = _
  rw [atMost]
  split
  · rename_i hle
    split
    · rfl
    · rename_i hge
      exact UInt64.le_antisymm hle (UInt64.not_lt.mp hge)
  · rename_i hgt
    rw [if_neg fun hlt => hgt (UInt64.le_of_lt hlt)]

theorem tui_eq_fallbackFrom (unreadable : UInt64 → Bool) (space : AddressSpace)
    (text : List Header) :
    Tui.buildFallback unreadable space text = fallbackFrom unreadable space kMaxBytes text :=
  sectionLoop_eq min_eq_atMost (fun _ _ _ => tuiRow_eq) unreadable space kMaxBytes text

end Sections

section Contents

variable (space : AddressSpace)

/-- The bytes of the file that a section claims. -/
def inFile (header : Header) : List UInt8 :=
  contentsAt space header.offset header.size

/-- The rows of a section whose bytes come in these pieces. -/
def sectionRows (header : Header) (pieces : List (List UInt8)) : List DisasmRow :=
  pieces.mapIdx fun j piece => fallbackRow header.vaddr (8 * j) piece

/-- The sections of a table share the budget in table order, and each lists its part in
rows of eight bytes. -/
structure ListsFront (text : List Header) (rows : List DisasmRow) : Prop where
  intro ::
  listed : ∃ pieces : List (List (List UInt8)),
    List.Forall₂ (Chunked 8) (spend 4096 (text.map (inFile space))) pieces ∧
    rows = (List.zipWith sectionRows text pieces).flatten ∧
    (pieces.flatten.map List.length).sum =
      min 4096 (text.map fun header => (inFile space header).length).sum

theorem sectionFallback_eq (header : Header) (raw : List UInt8) :
    sectionFallback header.vaddr raw = sectionRows header (pieces 8 raw) := by
  have hcount : raw.length + 8 - 1 = raw.length + 7 := rfl
  apply List.ext_getElem?
  intro k
  simp only [sectionFallback, sectionRows, pieces, hcount, List.getElem?_map,
    List.getElem?_mapIdx, Option.map_map]
  by_cases hk : k < (raw.length + 7) / 8
  · rw [List.getElem?_range hk]
    rfl
  · rw [List.getElem?_eq_none (by rwa [List.length_range, ← Nat.not_lt])]
    rfl

/-- Where nothing is left of the budget the sections have no rows. -/
theorem rows_spend_zero (text : List Header) :
    (List.zipWith sectionRows text
      ((spend 0 (text.map (inFile space))).map (pieces 8))).flatten = [] := by
  rw [List.flatten_eq_nil_iff]
  intro rows hmem
  obtain ⟨i, hi, rfl⟩ := List.getElem_of_mem hmem
  simp [spend_zero, pieces_nil, sectionRows]

theorem contentsAt_atMost (header : Header) (budget : UInt64) :
    contentsAt space header.offset (atMost header.size budget) =
      (inFile space header).take budget.toNat := by
  rw [inFile, contentsAt, contentsAt, List.take_take]
  congr 1
  rw [atMost]
  split
  · rename_i hlt
    rw [UInt64.lt_iff_toNat_lt] at hlt
    omega
  · rename_i hge
    rw [UInt64.lt_iff_toNat_lt] at hge
    omega

theorem toNat_sub_length {budget : UInt64} {raw : List UInt8} {n : Nat}
    (h : raw.length = min budget.toNat n) :
    (budget - .ofNat raw.length).toNat = budget.toNat - n := by
  have hbudget := budget.toNat_lt
  have hlength : (UInt64.ofNat raw.length).toNat = raw.length :=
    UInt64.toNat_ofNat_of_lt' (by rw [UInt64.size]; omega)
  rw [UInt64.toNat_sub_of_le, hlength]
  · omega
  · rw [UInt64.le_iff_toNat_le, hlength]
    omega

/-- The section loop spends the budget as the sections claim the file. -/
theorem fallbackFrom_eq (budget : UInt64) (text : List Header) :
    fallbackFrom (fun _ => false) space budget text =
      ((List.zipWith sectionRows text
        ((spend budget.toNat (text.map (inFile space))).map (pieces 8))).flatten, none) := by
  induction text generalizing budget with
  | nil => rfl
  | cons header later ih =>
      rw [fallbackFrom]
      split
      · rename_i hbudget
        rw [hbudget, UInt64.toNat_zero, rows_spend_zero]
      · rw [List.map_cons, spend, List.map_cons, List.zipWith_cons_cons, List.flatten_cons]
        split
        · rename_i hsize
          have hnothing : inFile space header = [] := by
            rw [inFile, contentsAt, hsize, UInt64.toNat_zero, List.take_zero]
          rw [ih, hnothing, List.take_nil, pieces_nil (by decide)]
          rfl
        · have hspent : (inFile space header |>.take budget.toNat).length =
              min budget.toNat (inFile space header).length := List.length_take
          rw [bytes_readable, contentsAt_atMost]
          dsimp only
          rw [ih, toNat_sub_length hspent, sectionFallback_eq]

theorem listsFront (text : List Header) :
    ListsFront space text (fallbackFrom (fun _ => false) space kMaxBytes text).1 := by
  rw [fallbackFrom_eq]
  refine ⟨(spend 4096 (text.map (inFile space))).map (pieces 8), ?_, rfl, ?_⟩
  · rw [List.forall₂_map_right_iff]
    apply List.forall₂_same.mpr
    intro part _
    exact chunked_pieces (by decide) part
  · have hflat : ∀ parts : List (List UInt8),
        (((parts.map (pieces 8)).flatten).map List.length).sum = parts.flatten.length := by
      intro parts
      induction parts with
      | nil => rfl
      | cons part parts ih =>
          have hpart := congrArg List.length (chunked_pieces (by decide : 0 < 8) part).flatten
          rw [List.length_flatten] at hpart
          rw [List.map_cons, List.flatten_cons, List.map_append, List.sum_append, ih, hpart,
            List.flatten_cons, List.length_append]
    rw [hflat, length_flatten_spend, List.map_map]
    rfl

end Contents

section Frontends

/-- The two front ends agree, also where a read throws in between, and of a file that can
be read they list the front of `.text`. -/
theorem fallbacks_list_front (space : AddressSpace) (text : List Header) :
    (∀ unreadable, Gui.buildFallback unreadable space text =
      Tui.buildFallback unreadable space text) ∧
    ∃ rows, Gui.buildFallback (fun _ => false) space text = (rows, none) ∧
      ListsFront space text rows := by
  constructor
  · intro unreadable
    rw [gui_eq_fallbackFrom, tui_eq_fallbackFrom]
  · refine ⟨_, ?_, listsFront space text⟩
    rw [gui_eq_fallbackFrom, fallbackFrom_eq]

end Frontends

end Voidwalk.RawFallback

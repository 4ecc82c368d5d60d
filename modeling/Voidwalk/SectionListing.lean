import Mathlib.Data.List.Basic
import Mathlib.Data.List.Forall2
import Mathlib.Tactic.Common
import Voidwalk.DecodeLineContract
import Voidwalk.Disassembly

/-!
The listing a section table stands for, as a function of the file: the rows that
decoding each section from its first byte on gives. The sweep is compared with it.
-/

namespace Voidwalk.SectionListing

open Voidwalk.MappedFile
open Voidwalk.ChunkStorage
open Voidwalk.InstructionRendering
open Voidwalk.InstructionDecoding
open Voidwalk.DecodeLineContract
open Voidwalk.Disassembly

structure Row where
  address : UInt64
  instruction : Instruction

/-- The instruction at a file offset, with the offset behind it; none where
decoding makes no progress. -/
def instructionAt (contents : AddressSpace) (arch : Arch) (fileOffset vaddr : UInt64) :
    Option (UInt64 × Instruction) :=
  match makeDecoder arch with
  | none => none
  | some decoder =>
      match decoder.decodeLine {} contents fileOffset vaddr .empty with
      | .error _ => none
      | .ok (nextOffset, store) =>
          if fileOffset < nextOffset then
            store.toList.head?.map fun instruction => (nextOffset, instruction)
          else none

structure Occupies (contents : AddressSpace) (fileOffset : UInt64) (n : Nat)
    (instruction : Instruction) : Prop where
  length_pos : 1 ≤ n
  length_le : n ≤ 15
  inside : fileOffset.toNat + n ≤ contents.mappedData.length
  machineCode : instruction.machineCode =
    machineCodeOf ((contents.mappedData.drop fileOffset.toNat).take n)

theorem Occupies.toNat_next {contents : AddressSpace} {fileOffset : UInt64} {n : Nat}
    {instruction : Instruction} (h : Occupies contents fileOffset n instruction) :
    (fileOffset + UInt64.ofNat n).toNat = fileOffset.toNat + n :=
  toNat_add_ofNat (Nat.lt_of_le_of_lt h.inside contents.fileSize_lt)

theorem Occupies.lt_next {contents : AddressSpace} {fileOffset : UInt64} {n : Nat}
    {instruction : Instruction} (h : Occupies contents fileOffset n instruction) :
    fileOffset < fileOffset + UInt64.ofNat n := by
  have hpos := h.length_pos
  rw [UInt64.lt_iff_toNat_lt, h.toNat_next]
  omega

theorem AppendsRow.occupies {contents : AddressSpace} {fileOffset : UInt64} {n : Nat}
    {instruction : Instruction} {store : InstructionStore}
    {result : Except Thrown (UInt64 × InstructionStore)}
    (h : AppendsRow contents fileOffset n instruction store result) :
    Occupies contents fileOffset n instruction :=
  ⟨h.length_pos, h.length_le, h.inside, h.machineCode⟩

/-- What a line does: it throws, it finds no instruction, or it appends the one
that is there. -/
inductive LineOutcome (contents : AddressSpace) (arch : Arch) (fileOffset vaddr : UInt64)
    (store : InstructionStore) : Except Thrown (UInt64 × InstructionStore) → Prop where
  | throws {exception : Thrown} (h : exception ≠ .outOfRange) :
      LineOutcome contents arch fileOffset vaddr store (.error exception)
  | stays (h : instructionAt contents arch fileOffset vaddr = none) :
      LineOutcome contents arch fileOffset vaddr store (.ok (fileOffset, store))
  | appends {n : Nat} {instruction : Instruction}
      (h : instructionAt contents arch fileOffset vaddr =
        some (fileOffset + UInt64.ofNat n, instruction))
      (hoccupies : Occupies contents fileOffset n instruction) :
      LineOutcome contents arch fileOffset vaddr store
        (.ok (fileOffset + UInt64.ofNat n, store.pushBack instruction))

section Lines

variable {contents : AddressSpace} {arch : Arch} {is64Bit : Bool}

theorem instructionAt_x86 (harch : makeDecoder arch = some (.x86Decoder is64Bit))
    (fileOffset vaddr : UInt64) :
    (instructionAt contents arch fileOffset vaddr = none ∧
      contents.mappedData.length ≤ fileOffset.toNat + 15 ∧
      ∀ store, InstructionDecoding.decodeLine is64Bit contents fileOffset vaddr store =
        .ok (fileOffset, store)) ∨
    ∃ n instruction, instructionAt contents arch fileOffset vaddr =
        some (fileOffset + UInt64.ofNat n, instruction) ∧
      Occupies contents fileOffset n instruction ∧
      ∀ store, InstructionDecoding.decodeLine is64Bit contents fileOffset vaddr store =
        .ok (fileOffset + UInt64.ofNat n, store.pushBack instruction) := by
  rcases decodeLine_cases is64Bit contents fileOffset vaddr with
    ⟨hshort, hstays⟩ | ⟨n, instruction, happends⟩
  · refine Or.inl ⟨?_, hshort, hstays⟩
    simp [instructionAt, harch, Decoder.decodeLine, hstays]
  · have hoccupies := AppendsRow.occupies (happends .empty)
    refine Or.inr ⟨n, instruction, ?_, hoccupies, fun store => (happends store).result_eq⟩
    have hresult := (happends .empty).result_eq
    simp [instructionAt, harch, Decoder.decodeLine, hresult, hoccupies.lt_next,
      ChunkStore.toList_pushBack]

theorem instructionAt_of_not_x86 (harch : ∀ mode, makeDecoder arch ≠ some (.x86Decoder mode))
    (fileOffset vaddr : UInt64) : instructionAt contents arch fileOffset vaddr = none := by
  rw [instructionAt]
  rcases hdecoder : makeDecoder arch with _ | (mode | _ | _)
  · rfl
  · exact absurd hdecoder (harch mode)
  · rfl
  · rfl

theorem occupies_of_instructionAt {fileOffset vaddr nextOffset : UInt64}
    {instruction : Instruction}
    (h : instructionAt contents arch fileOffset vaddr = some (nextOffset, instruction)) :
    ∃ n, nextOffset = fileOffset + UInt64.ofNat n ∧
      Occupies contents fileOffset n instruction := by
  by_cases hx86 : ∃ mode, makeDecoder arch = some (.x86Decoder mode)
  · obtain ⟨mode, harch⟩ := hx86
    rcases @instructionAt_x86 contents arch mode harch fileOffset vaddr with
      ⟨hnone, -⟩ | ⟨n, found, hsome, hoccupies, -⟩
    · rw [hnone] at h
      contradiction
    · obtain ⟨rfl, rfl⟩ := Prod.mk.inj (Option.some.inj (hsome.symm.trans h))
      exact ⟨n, rfl, hoccupies⟩
  · rw [instructionAt_of_not_x86 (fun mode harch => hx86 ⟨mode, harch⟩)] at h
    contradiction

theorem decodeLine_outcome (disassembler : Disassembler) (surroundings : Surroundings)
    (fileOffset vaddr : UInt64) :
    LineOutcome disassembler.contents disassembler.arch fileOffset vaddr
      disassembler.decodedInstructions
      (disassembler.decodeLine surroundings fileOffset vaddr) := by
  rw [Disassembler.decodeLine, Disassembler.decoder]
  rcases hdecoder : makeDecoder disassembler.arch with _ | (mode | _ | _)
  · exact .throws (by simp)
  · simp only [Decoder.decodeLine]
    split
    · exact .throws (by simp [fileChanged])
    · rcases @instructionAt_x86 disassembler.contents _ mode hdecoder fileOffset vaddr with
        ⟨hnone, -, hstays⟩ | ⟨n, instruction, hsome, hoccupies, happends⟩
      · rw [hstays]
        exact .stays hnone
      · rw [happends]
        exact .appends hsome hoccupies
  · exact .throws (by simp)
  · exact .throws (by simp)

theorem decodeLine_ne_error {disassembler : Disassembler}
    (harch : makeDecoder disassembler.arch = some (.x86Decoder is64Bit))
    (fileOffset vaddr : UInt64) (exception : Thrown) :
    disassembler.decodeLine {} fileOffset vaddr ≠ .error exception := by
  rw [Disassembler.decodeLine, Disassembler.decoder, harch]
  rcases @instructionAt_x86 disassembler.contents _ is64Bit harch fileOffset vaddr with
    ⟨-, -, hstays⟩ | ⟨n, instruction, -, -, happends⟩
  · simp [Decoder.decodeLine, hstays]
  · simp [Decoder.decodeLine, happends]

end Lines

section Listing

variable (contents : AddressSpace) (arch : Arch)

def rowsFrom (sectionEnd currentOffset vaddr : UInt64) : List Row :=
  if currentOffset < sectionEnd then
    match _hfound : instructionAt contents arch currentOffset vaddr with
    | none => []
    | some (nextOffset, instruction) =>
        ⟨vaddr, instruction⟩ ::
          rowsFrom sectionEnd nextOffset (vaddr + (nextOffset - currentOffset))
  else []
termination_by contents.mappedData.length - currentOffset.toNat
decreasing_by
  obtain ⟨n, rfl, hoccupies⟩ := occupies_of_instructionAt _hfound
  have hpos := hoccupies.length_pos
  have hinside := hoccupies.inside
  rw [hoccupies.toNat_next]
  omega

/-- The rows of one section. The end is the sum that the sweep computes. -/
def sectionRows (textSection : Header) : List Row :=
  rowsFrom contents arch (textSection.offset + textSection.size) textSection.offset
    textSection.vaddr

def listing (text : List Header) : List Row :=
  text.flatMap (sectionRows contents arch)

variable {contents arch}

theorem rowsFrom_of_not_lt {sectionEnd currentOffset vaddr : UInt64}
    (h : ¬ currentOffset < sectionEnd) :
    rowsFrom contents arch sectionEnd currentOffset vaddr = [] := by
  rw [rowsFrom, if_neg h]

theorem rowsFrom_of_none {sectionEnd currentOffset vaddr : UInt64}
    (h : instructionAt contents arch currentOffset vaddr = none) :
    rowsFrom contents arch sectionEnd currentOffset vaddr = [] := by
  rw [rowsFrom]
  split
  · split
    · rfl
    · rename_i hsome
      rw [h] at hsome
      contradiction
  · rfl

theorem rowsFrom_of_some {sectionEnd currentOffset vaddr nextOffset : UInt64}
    {instruction : Instruction} (hlt : currentOffset < sectionEnd)
    (h : instructionAt contents arch currentOffset vaddr = some (nextOffset, instruction)) :
    rowsFrom contents arch sectionEnd currentOffset vaddr =
      ⟨vaddr, instruction⟩ :: rowsFrom contents arch sectionEnd nextOffset
        (vaddr + (nextOffset - currentOffset)) := by
  rw [rowsFrom, if_pos hlt]
  split
  · rename_i hnone
    rw [h] at hnone
    contradiction
  · rename_i found hsome
    obtain ⟨rfl, rfl⟩ := Prod.mk.inj (Option.some.inj (hsome.symm.trans h))
    rfl

end Listing

/-- The bytes a row shows: two digits and a space each. -/
def Row.byteLength (row : Row) : Nat :=
  row.instruction.machineCode.length / 3

def byteLength (rows : List Row) : Nat :=
  (rows.map Row.byteLength).sum

theorem byteLength_cons (row : Row) (rows : List Row) :
    byteLength (row :: rows) = row.byteLength + byteLength rows := by
  simp [byteLength]

theorem length_machineCodeOf (bytes : List UInt8) :
    (machineCodeOf bytes).length = 3 * bytes.length := by
  induction bytes with
  | nil => rfl
  | cons byte bytes ih =>
      have hjoin : machineCodeOf (byte :: bytes) = hexByte byte ++ " " ++ machineCodeOf bytes :=
        String.join_cons
      have hhex : (hexByte byte).length = 2 := by simp [hexByte]
      have hspace : (" " : String).length = 1 := rfl
      rw [hjoin, String.length_append, String.length_append, ih, hhex, hspace,
        List.length_cons]
      omega

theorem Occupies.byteLength {contents : AddressSpace} {fileOffset : UInt64} {n : Nat}
    {instruction : Instruction} (h : Occupies contents fileOffset n instruction)
    (vaddr : UInt64) : (⟨vaddr, instruction⟩ : Row).byteLength = n := by
  have hinside := h.inside
  simp only [Row.byteLength, h.machineCode, length_machineCodeOf, List.length_take,
    List.length_drop]
  omega

structure ShowsBytes (contents : AddressSpace) (textSection : Header) (position : Nat)
    (row : Row) : Prop where
  starts_inside : position < textSection.size.toNat
  address : row.address = textSection.vaddr + UInt64.ofNat position
  length_pos : 1 ≤ row.byteLength
  length_le : row.byteLength ≤ 15
  in_file : textSection.offset.toNat + position + row.byteLength ≤ contents.mappedData.length
  machineCode : row.instruction.machineCode = machineCodeOf
    ((contents.mappedData.drop (textSection.offset.toNat + position)).take row.byteLength)

/-- Rows that follow each other without gap or overlap, the first one `position`
bytes into the section. -/
inductive TilesFrom (contents : AddressSpace) (textSection : Header) :
    Nat → List Row → Prop where
  | nil {position : Nat} : TilesFrom contents textSection position []
  | cons {position : Nat} {row : Row} {rows : List Row}
      (hshows : ShowsBytes contents textSection position row)
      (hrest : TilesFrom contents textSection (position + row.byteLength) rows) :
      TilesFrom contents textSection position (row :: rows)

/-- The same from the section's first byte on, row by row. -/
def Tiles (contents : AddressSpace) (textSection : Header) (rows : List Row) : Prop :=
  ∀ j (h : j < rows.length),
    ShowsBytes contents textSection (byteLength (rows.take j)) (rows.get ⟨j, h⟩)

section Tiling

variable {contents : AddressSpace} {arch : Arch} {textSection : Header}

theorem lt_size_of_lt_end {currentOffset : UInt64} {position : Nat}
    (hoffset : currentOffset.toNat = textSection.offset.toNat + position)
    (hlt : currentOffset < textSection.offset + textSection.size) :
    position < textSection.size.toNat := by
  have hsize := textSection.size.toNat_lt
  have hstart := textSection.offset.toNat_lt
  rw [UInt64.lt_iff_toNat_lt, hoffset, UInt64.toNat_add] at hlt
  omega

theorem showsBytes_of_occupies {currentOffset : UInt64} {position n : Nat}
    {instruction : Instruction}
    (hoffset : currentOffset.toNat = textSection.offset.toNat + position)
    (hlt : currentOffset < textSection.offset + textSection.size)
    (h : Occupies contents currentOffset n instruction) :
    ShowsBytes contents textSection position
      ⟨textSection.vaddr + UInt64.ofNat position, instruction⟩ where
  starts_inside := lt_size_of_lt_end hoffset hlt
  address := rfl
  length_pos := h.byteLength _ ▸ h.length_pos
  length_le := h.byteLength _ ▸ h.length_le
  in_file := by
    rw [h.byteLength, ← hoffset]
    exact h.inside
  machineCode := by
    rw [h.byteLength, ← hoffset]
    exact h.machineCode

theorem TilesFrom.take {position : Nat} {rows : List Row}
    (h : TilesFrom contents textSection position rows) (count : Nat) :
    TilesFrom contents textSection position (rows.take count) := by
  induction h generalizing count with
  | nil =>
      rw [List.take_nil]
      exact .nil
  | cons hshows _ ih =>
      cases count with
      | zero => exact .nil
      | succ count => exact .cons hshows (ih count)

theorem TilesFrom.showsBytes {position : Nat} {rows : List Row}
    (h : TilesFrom contents textSection position rows) (j : Nat) (hj : j < rows.length) :
    ShowsBytes contents textSection (position + byteLength (rows.take j))
      (rows.get ⟨j, hj⟩) := by
  induction h generalizing j with
  | nil => exact absurd hj (Nat.not_lt_zero j)
  | cons hshows _ ih =>
      cases j with
      | zero => exact hshows
      | succ j =>
          have hrest := ih j (Nat.lt_of_succ_lt_succ hj)
          rw [List.take_succ_cons, byteLength_cons, ← Nat.add_assoc]
          exact hrest

theorem TilesFrom.length_le_byteLength {position : Nat} {rows : List Row}
    (h : TilesFrom contents textSection position rows) (count : Nat) :
    (rows.take count).length ≤ byteLength (rows.take count) := by
  induction h generalizing count with
  | nil => simp
  | cons hshows _ ih =>
      cases count with
      | zero => simp
      | succ count =>
          have hpos := hshows.length_pos
          have hrest := ih count
          rw [List.take_succ_cons, List.length_cons, byteLength_cons]
          omega

theorem TilesFrom.tiles {rows : List Row} (h : TilesFrom contents textSection 0 rows) :
    Tiles contents textSection rows := by
  intro j hj
  have hshows := h.showsBytes j hj
  rwa [Nat.zero_add] at hshows

theorem rowsFrom_tiles (currentOffset vaddr : UInt64) (position : Nat)
    (hoffset : currentOffset.toNat = textSection.offset.toNat + position)
    (hvaddr : vaddr = textSection.vaddr + UInt64.ofNat position) :
    TilesFrom contents textSection position
      (rowsFrom contents arch (textSection.offset + textSection.size) currentOffset vaddr) := by
  fun_induction rowsFrom contents arch (textSection.offset + textSection.size) currentOffset vaddr
    generalizing position with
  | case1 => exact .nil
  | case2 currentOffset vaddr hlt nextOffset instruction hfound ih =>
      obtain ⟨n, rfl, hoccupies⟩ := occupies_of_instructionAt hfound
      subst hvaddr
      refine .cons (showsBytes_of_occupies hoffset hlt hoccupies) ?_
      rw [hoccupies.byteLength]
      refine ih (position + n) ?_ ?_
      · rw [hoccupies.toNat_next, hoffset, Nat.add_assoc]
      · rw [UInt64.add_comm currentOffset, UInt64.add_sub_cancel, UInt64.ofNat_add,
          UInt64.add_assoc]
  | case3 => exact .nil

theorem sectionRows_tilesFrom (contents : AddressSpace) (arch : Arch) (textSection : Header) :
    TilesFrom contents textSection 0 (sectionRows contents arch textSection) :=
  rowsFrom_tiles _ _ 0 rfl (by simp)

end Tiling

end Voidwalk.SectionListing

import Mathlib.Data.Nat.Bitwise
import Voidwalk.ElfTableReads
import Voidwalk.EncodedValues
import Voidwalk.PeSectionTable

/-!
The PE section table as the bytes of the file encode it, and what `parseSections32` and
`parseSections64` make of it.
-/

namespace Voidwalk.PeTableReads

open Voidwalk.Library
open Voidwalk.MappedFile
open Voidwalk.MappedFile.AddressSpace
open Voidwalk.FileFields
open Voidwalk.EncodedValues
open Voidwalk.Disassembly
open Voidwalk.PeSectionTable
open Voidwalk.ElfTableReads (OnlyInvalid onlyInvalid_of_inside)

/-- The number in `width` bytes at a position of the file. -/
def field (contents : AddressSpace) (position width : Nat) : Nat :=
  littleEndian ((contents.mappedData.drop position).take width)

/-- The fields of a table entry that the readers use. -/
structure Entry where
  rva : Nat
  size : Nat
  offset : Nat
  characteristics : Nat
  deriving DecidableEq

/-- The flags of `Characteristics`, by bit. -/
def cntCode : Nat := 5
def cntInitializedData : Nat := 6
def cntUninitializedData : Nat := 7
def memExecute : Nat := 29
def memWrite : Nat := 31

namespace Entry

def has (entry : Entry) (flag : Nat) : Bool := entry.characteristics.testBit flag

def isText (entry : Entry) : Bool := entry.has cntCode || entry.has memExecute

def isBss (entry : Entry) : Bool := !entry.isText && entry.has cntUninitializedData

def isInitialized (entry : Entry) : Bool :=
  !entry.isText && !entry.has cntUninitializedData && entry.has cntInitializedData

def isData (entry : Entry) : Bool := entry.isInitialized && entry.has memWrite

def isReadOnly (entry : Entry) : Bool := entry.isInitialized && !entry.has memWrite

def isListed (entry : Entry) : Bool :=
  entry.isText || entry.isBss || entry.isData || entry.isReadOnly

end Entry

section Layout

variable (contents : AddressSpace) (peHeaderOffset : Nat)

def sectionCount : Nat := field contents (peHeaderOffset + 6) 2

def optionalHeaderSize : Nat := field contents (peHeaderOffset + 20) 2

def tableStart : Nat := peHeaderOffset + 24 + optionalHeaderSize contents peHeaderOffset

def entryAt (position : Nat) : Entry where
  rva := field contents (position + 12) 4
  size := field contents (position + 16) 4
  offset := field contents (position + 20) 4
  characteristics := field contents (position + 36) 4

def entries : List Entry :=
  (List.range (sectionCount contents peHeaderOffset)).map fun i =>
    entryAt contents (tableStart contents peHeaderOffset + i * 40)

/-- The fields that place the table and all of its entries lie within the file. -/
structure TableInside : Prop where
  header : peHeaderOffset + 22 ≤ contents.mappedData.length
  entry : ∀ i < sectionCount contents peHeaderOffset,
    tableStart contents peHeaderOffset + i * 40 + 40 ≤ contents.mappedData.length

def imageBase32 : Nat := field contents (peHeaderOffset + 52) 4

def imageBase64 : Nat := field contents (peHeaderOffset + 48) 8

end Layout

/-- What the headers of a list say. -/
def said (headers : List Header) : List (Nat × Nat × Nat) :=
  headers.map fun header => (header.vaddr.toNat, header.offset.toNat, header.size.toNat)

/-- The entries have been appended to the lists they belong to, in the order of the table. -/
structure Appended (common after : Sections) (entries : List Entry) (vaddrOf : Entry → Nat) :
    Prop where
  text : said after.text = said common.text ++
    (entries.filter Entry.isText).map fun entry => (vaddrOf entry, entry.offset, entry.size)
  data : said after.data = said common.data ++
    (entries.filter Entry.isData).map fun entry => (vaddrOf entry, entry.offset, entry.size)
  readOnly : said after.readOnly = said common.readOnly ++
    (entries.filter Entry.isReadOnly).map fun entry => (vaddrOf entry, entry.offset, entry.size)
  bss : said after.bss = said common.bss ++
    (entries.filter Entry.isBss).map fun entry => (vaddrOf entry, entry.offset, entry.size)

section Reads

variable {contents : AddressSpace} {address : UInt64}

theorem field_lt (contents : AddressSpace) (position width : Nat) :
    field contents position width < 256 ^ width := by
  refine Nat.lt_of_lt_of_le (littleEndian_lt _) (Nat.pow_le_pow_right (by decide) ?_)
  rw [List.length_take]
  exact Nat.min_le_left _ _

theorem readType_eq (contents : AddressSpace) (sizeof offset : UInt64) :
    contents.readType sizeof offset =
      if offset.toNat + sizeof.toNat ≤ contents.mappedData.length then
        .ok (field contents offset.toNat sizeof.toNat)
      else .error invalidOffset := by
  have hcheck := readType_eq_error_iff contents sizeof offset
  rw [readType]
  by_cases hinside : offset.toNat + sizeof.toNat ≤ contents.mappedData.length
  · rw [if_neg (fun hout => Nat.not_le.mpr (hcheck.mp hout) hinside), if_pos hinside, field]
  · rw [if_pos (hcheck.mpr (Nat.not_le.mp hinside)), if_neg hinside, invalidOffset]

theorem readU16_of_inside (h : address.toNat + 2 ≤ contents.mappedData.length) :
    contents.readU16 address = .ok (UInt16.ofNat (field contents address.toNat 2)) := by
  rw [readU16, readType_eq]
  exact congrArg (Except.map UInt16.ofNat) (if_pos h)

theorem readU32_of_inside (h : address.toNat + 4 ≤ contents.mappedData.length) :
    contents.readU32 address = .ok (UInt32.ofNat (field contents address.toNat 4)) := by
  rw [readU32, readType_eq]
  exact congrArg (Except.map UInt32.ofNat) (if_pos h)

theorem readU64_of_inside (h : address.toNat + 8 ≤ contents.mappedData.length) :
    contents.readU64 address = .ok (UInt64.ofNat (field contents address.toNat 8)) := by
  rw [readU64, readType_eq]
  exact congrArg (Except.map UInt64.ofNat) (if_pos h)

end Reads

section Classes

/-- A test of one flag in the source. -/
theorem flag_ne_zero {entry : Entry} (h : entry.characteristics < 2 ^ 32) (flag : Nat)
    {m : UInt32} (hmask : m.toNat = 2 ^ flag) :
    UInt32.ofNat entry.characteristics &&& m ≠ 0 ↔ entry.has flag = true := by
  rw [Ne, ← UInt32.toNat_inj, UInt32.toNat_and, UInt32.toNat_ofNat_of_lt' h, hmask,
    Nat.and_two_pow, Entry.has]
  cases entry.characteristics.testBit flag <;> simp

theorem classify_eq {entry : Entry} (h : entry.characteristics < 2 ^ 32) :
    classify (UInt32.ofNat entry.characteristics) =
      if entry.isText then .CODE
      else if entry.isBss then .BSS
      else if entry.isData then .DATA
      else if entry.isReadOnly then .RODATA
      else .NONE := by
  simp only [classify, flag_ne_zero h memExecute (m := 0x20000000) rfl, Entry.isText,
    flag_ne_zero h cntCode (m := 0x20) rfl, Entry.isBss, Entry.isData, Entry.isReadOnly,
    flag_ne_zero h cntUninitializedData (m := 0x80) rfl, Entry.isInitialized,
    flag_ne_zero h cntInitializedData (m := 0x40) rfl,
    flag_ne_zero h memWrite (m := 0x80000000) rfl]
  by_cases hcode : entry.has cntCode = true
  · simp [hcode]
  by_cases hexecute : entry.has memExecute = true
  · simp [hexecute]
  by_cases huninitialized : entry.has cntUninitializedData = true
  · simp [hcode, hexecute, huninitialized]
  by_cases hinitialized : entry.has cntInitializedData = true
  · by_cases hwrite : entry.has memWrite = true <;>
      simp [hcode, hexecute, huninitialized, hinitialized, hwrite]
  · simp [hcode, hexecute, huninitialized, hinitialized]

end Classes

section Lists

variable {common middle after : Sections} {entry : Entry} {vaddrOf : Entry → Nat}

theorem Appended.refl (common : Sections) (vaddrOf : Entry → Nat) :
    Appended common common [] vaddrOf := by
  constructor <;> simp

theorem Appended.cons {rest : List Entry} (hfirst : Appended common middle [entry] vaddrOf)
    (hrest : Appended middle after rest vaddrOf) :
    Appended common after (entry :: rest) vaddrOf where
  text := by
    rw [hrest.text, hfirst.text, List.append_assoc, ← List.map_append, ← List.filter_append]
    rfl
  data := by
    rw [hrest.data, hfirst.data, List.append_assoc, ← List.map_append, ← List.filter_append]
    rfl
  readOnly := by
    rw [hrest.readOnly, hfirst.readOnly, List.append_assoc, ← List.map_append,
      ← List.filter_append]
    rfl
  bss := by
    rw [hrest.bss, hfirst.bss, List.append_assoc, ← List.map_append, ← List.filter_append]
    rfl

/-- What a listed entry was given can be told from the lists. -/
theorem Appended.vaddr_eq {entries : List Entry} {first second : Entry → Nat}
    (hfirst : Appended common after entries first) (hsecond : Appended common after entries second)
    (hmem : entry ∈ entries) (hlisted : entry.isListed = true) : first entry = second entry := by
  have hlist (p : Entry → Bool) (hp : p entry = true)
      (h : (entries.filter p).map (fun entry => (first entry, entry.offset, entry.size)) =
        (entries.filter p).map fun entry => (second entry, entry.offset, entry.size)) :
      first entry = second entry := by
    have hentry := List.map_inj_left.mp h entry (List.mem_filter.mpr ⟨hmem, hp⟩)
    exact (Prod.mk.inj hentry).1
  simp only [Entry.isListed, Bool.or_eq_true] at hlisted
  rcases hlisted with ((htext | hbss) | hdata) | hreadOnly
  · exact hlist _ htext (List.append_cancel_left (hfirst.text.symm.trans hsecond.text))
  · exact hlist _ hbss (List.append_cancel_left (hfirst.bss.symm.trans hsecond.bss))
  · exact hlist _ hdata (List.append_cancel_left (hfirst.data.symm.trans hsecond.data))
  · exact hlist _ hreadOnly (List.append_cancel_left (hfirst.readOnly.symm.trans hsecond.readOnly))

theorem Appended.congr {entries : List Entry} {first second : Entry → Nat}
    (h : Appended common after entries first)
    (hsame : ∀ entry ∈ entries, entry.isListed = true → first entry = second entry) :
    Appended common after entries second := by
  have hlist (p : Entry → Bool) (hp : ∀ entry, p entry = true → entry.isListed = true) :
      (entries.filter p).map (fun entry => (first entry, entry.offset, entry.size)) =
        (entries.filter p).map fun entry => (second entry, entry.offset, entry.size) := by
    refine List.map_congr_left fun entry hentry => ?_
    obtain ⟨hmem, hentry⟩ := List.mem_filter.mp hentry
    rw [hsame entry hmem (hp entry hentry)]
  constructor
  · rw [h.text, hlist]
    intro entry hentry
    simp [Entry.isListed, hentry]
  · rw [h.data, hlist]
    intro entry hentry
    simp [Entry.isListed, hentry]
  · rw [h.readOnly, hlist]
    intro entry hentry
    simp [Entry.isListed, hentry]
  · rw [h.bss, hlist]
    intro entry hentry
    simp [Entry.isListed, hentry]

theorem appended_pushBack (h : entry.characteristics < 2 ^ 32) (common : Sections)
    {header : Header} (hvaddr : header.vaddr.toNat = vaddrOf entry)
    (hoffset : header.offset.toNat = entry.offset) (hsize : header.size.toNat = entry.size) :
    Appended common (pushBack (classify (UInt32.ofNat entry.characteristics)) header common)
      [entry] vaddrOf := by
  rw [classify_eq h]
  simp only [Entry.isBss, Entry.isData, Entry.isReadOnly, Entry.isInitialized]
  by_cases htext : entry.isText = true
  · constructor <;> simp [pushBack, said, Entry.isBss, Entry.isData, Entry.isReadOnly,
      Entry.isInitialized, htext, hvaddr, hoffset, hsize]
  by_cases huninitialized : entry.has cntUninitializedData = true
  · constructor <;> simp [pushBack, said, Entry.isBss, Entry.isData, Entry.isReadOnly,
      Entry.isInitialized, htext, huninitialized, hvaddr, hoffset, hsize]
  by_cases hinitialized : entry.has cntInitializedData = true
  · by_cases hwrite : entry.has memWrite = true <;> constructor <;>
      simp [pushBack, said, Entry.isBss, Entry.isData, Entry.isReadOnly, Entry.isInitialized,
        htext, huninitialized, hinitialized, hwrite, hvaddr, hoffset, hsize]
  · constructor <;> simp [pushBack, said, Entry.isBss, Entry.isData, Entry.isReadOnly,
      Entry.isInitialized, htext, huninitialized, hinitialized]

end Lists

section Loop

variable {contents : AddressSpace}

/-- The address of a section under an image base, in 64 bits. -/
def vaddrFrom (imageBase : UInt64) (entry : Entry) : Nat := (imageBase.toNat + entry.rva) % 2 ^ 64

theorem readU32_of_entry {address : UInt64} (h : address.toNat + 40 ≤ contents.mappedData.length)
    {n : Nat} (hn : n + 4 ≤ 40) :
    contents.readU32 (address + UInt64.ofNat n) =
      .ok (UInt32.ofNat (field contents (address.toNat + n) 4)) := by
  have hsize := contents.fileSize_lt
  have haddress : (address + UInt64.ofNat n).toNat = address.toNat + n :=
    toNat_add_ofNat (by omega)
  rw [readU32_of_inside (by rw [haddress]; omega), haddress]

theorem toNat_field (contents : AddressSpace) (position : Nat) :
    (UInt32.ofNat (field contents position 4)).toUInt64.toNat = field contents position 4 := by
  rw [UInt32.toNat_toUInt64, UInt32.toNat_ofNat_of_lt' (field_lt contents position 4)]

theorem readEntry_inside {address : UInt64} (h : address.toNat + 40 ≤ contents.mappedData.length)
    (imageBase : UInt64) (common : Sections) :
    ∃ next, readEntry contents address imageBase common = .ok next ∧
      Appended common next [entryAt contents address.toNat] (vaddrFrom imageBase) := by
  have hcharacteristics := readU32_of_entry h (n := 36) (by decide)
  have hrva := readU32_of_entry h (n := 12) (by decide)
  have hoffset := readU32_of_entry h (n := 20) (by decide)
  have hsize := readU32_of_entry h (n := 16) (by decide)
  refine ⟨_, ?_, @appended_pushBack (entryAt contents address.toNat) (vaddrFrom imageBase)
    (field_lt contents _ 4) common
    { vaddr := imageBase + (UInt32.ofNat (field contents (address.toNat + 12) 4)).toUInt64
      offset := (UInt32.ofNat (field contents (address.toNat + 20) 4)).toUInt64
      size := (UInt32.ofNat (field contents (address.toNat + 16) 4)).toUInt64 }
    (by rw [UInt64.toNat_add, toNat_field]; rfl) (toNat_field _ _) (toNat_field _ _)⟩
  change (contents.readU32 (address + UInt64.ofNat 36) >>= _) = _
  rw [hcharacteristics]
  by_cases hnone : classify (UInt32.ofNat (field contents (address.toNat + 36) 4)) = .NONE
  · refine (if_pos hnone).trans ?_
    rw [entryAt, hnone]
    rfl
  · refine (if_neg hnone).trans ?_
    change (contents.readU32 (address + UInt64.ofNat 12) >>= fun rva =>
      contents.readU32 (address + UInt64.ofNat 20) >>= fun offset =>
        contents.readU32 (address + UInt64.ofNat 16) >>= _) = _
    rw [hrva, hoffset, hsize]
    rfl

theorem readEntry_outside {address : UInt64} (hwrap : address.toNat + 40 < 2 ^ 64)
    (h : ¬ address.toNat + 40 ≤ contents.mappedData.length) (imageBase : UInt64)
    (common : Sections) : readEntry contents address imageBase common = .error invalidOffset := by
  have haddress : (address + UInt64.ofNat 36).toNat = address.toNat + 36 :=
    toNat_add_ofNat (by omega)
  have hread : contents.readU32 (address + UInt64.ofNat 36) = .error invalidOffset := by
    rw [readU32, readType_eq]
    refine congrArg (Except.map UInt32.ofNat) (if_neg ?_)
    rw [haddress]
    exact h
  change (contents.readU32 (address + UInt64.ofNat 36) >>= _) = _
  rw [hread]
  rfl

/-- From entry `i` on the loop appends what is left of the table, or leaves the file. -/
theorem loop_outcome {start imageBase : UInt64} {count : UInt16} (hstart : start.toNat < 2 ^ 32)
    (n : Nat) {i : Nat} (hi : i + n = count.toNat) (common : Sections) :
    ((∀ j, i ≤ j → j < count.toNat → start.toNat + j * 40 + 40 ≤ contents.mappedData.length) ∧
      ∃ after, Loops.result (sectionVariant contents start imageBase count)
          { i := i, common := common } = .ok after ∧
        Appended common after
          ((List.range' i n).map fun j => entryAt contents (start.toNat + j * 40))
          (vaddrFrom imageBase)) ∨
    (∃ j, i ≤ j ∧ j < count.toNat ∧
        ¬ start.toNat + j * 40 + 40 ≤ contents.mappedData.length) ∧
      Loops.result (sectionVariant contents start imageBase count)
        { i := i, common := common } = .error invalidOffset := by
  have hcount : count.toNat < 2 ^ 16 := count.toNat_lt
  induction n generalizing i common with
  | zero =>
      have hge : ¬ i < count.toNat := by omega
      have hbody : sectionBody contents start imageBase count { i := i, common := common } =
          .ok (.inr common) := if_neg hge
      refine Or.inl ⟨fun j hij hj => by omega, common, ?_, Appended.refl common _⟩
      exact Loops.result_of_exit _ hbody
  | succ n ih =>
      have haddress : (start + UInt64.ofNat (i * 40)).toNat = start.toNat + i * 40 :=
        toNat_add_ofNat (by omega)
      have hlt : i < count.toNat := by omega
      have hbody : sectionBody contents start imageBase count { i := i, common := common } =
          readEntry contents (start + UInt64.ofNat (i * 40)) imageBase common >>= fun common =>
            .ok (.inl { i := i + 1, common := common }) := if_pos hlt
      by_cases hinside : start.toNat + i * 40 + 40 ≤ contents.mappedData.length
      · obtain ⟨next, hentry, hfirst⟩ := readEntry_inside
          (by rwa [haddress] : (start + UInt64.ofNat (i * 40)).toNat + 40 ≤ _) imageBase common
        rw [hentry] at hbody
        rw [haddress] at hfirst
        rw [Loops.result_of_next _ hbody]
        rcases ih (i := i + 1) (by omega) next with
          ⟨hrest, after, hafter, happended⟩ | ⟨⟨j, hij, hj, hout⟩, herror⟩
        · refine Or.inl ⟨?_, after, hafter, ?_⟩
          · intro j hij hj
            rcases Nat.eq_or_lt_of_le hij with rfl | hlater
            · exact hinside
            · exact hrest j hlater hj
          · rw [List.range'_succ]
            exact hfirst.cons happended
        · exact Or.inr ⟨⟨j, by omega, hj, hout⟩, herror⟩
      · rw [readEntry_outside (by rw [haddress]; omega) (by rwa [haddress])] at hbody
        exact Or.inr ⟨⟨i, Nat.le_refl i, hlt, hinside⟩, Loops.result_of_error _ hbody⟩

end Loop

section Table

variable {contents : AddressSpace} {peHeaderOffset : UInt32}
  {readImageBase : AddressSpace → UInt32 → Except Thrown UInt64}

theorem toNat_headerAddress {delta : UInt32} (h : peHeaderOffset.toNat + delta.toNat < 2 ^ 32) :
    (peHeaderOffset + delta).toUInt64.toNat = peHeaderOffset.toNat + delta.toNat := by
  rw [UInt32.toNat_toUInt64, UInt32.toNat_add, Nat.mod_eq_of_lt h]

/-- The reads in front of the loop, where the fields that place the table are in the file. -/
theorem readTable_header (hheader : peHeaderOffset.toNat + 22 ≤ contents.mappedData.length)
    (hbound : tableStart contents peHeaderOffset.toNat < 2 ^ 32) (common : Sections) :
    ∃ (start : UInt64) (count : UInt16),
      start.toNat = tableStart contents peHeaderOffset.toNat ∧
      count.toNat = sectionCount contents peHeaderOffset.toNat ∧
      readTable contents readImageBase common peHeaderOffset =
        readImageBase contents peHeaderOffset >>= fun imageBase =>
          Loops.result (sectionVariant contents start imageBase count) { common := common } >>=
            fun common => .ok (common, imageBase) := by
  have hsize := field_lt contents (peHeaderOffset.toNat + 20) 2
  rw [tableStart, optionalHeaderSize] at hbound
  have hsix := @toNat_headerAddress peHeaderOffset 6
    (by change _ + 6 < 2 ^ 32; omega)
  have htwenty := @toNat_headerAddress peHeaderOffset 20
    (by change _ + 20 < 2 ^ 32; omega)
  have hcount : contents.readU16 (peHeaderOffset + 6).toUInt64 =
      .ok (UInt16.ofNat (sectionCount contents peHeaderOffset.toNat)) := by
    rw [readU16_of_inside (by rw [hsix]; change _ + 6 + 2 ≤ _; omega), hsix]
    rfl
  have hoptional : contents.readU16 (peHeaderOffset + 20).toUInt64 =
      .ok (UInt16.ofNat (optionalHeaderSize contents peHeaderOffset.toNat)) := by
    rw [readU16_of_inside (by rw [htwenty]; exact hheader), htwenty]
    rfl
  refine ⟨(peHeaderOffset + 24 + (UInt16.ofNat
      (optionalHeaderSize contents peHeaderOffset.toNat)).toUInt32).toUInt64,
    UInt16.ofNat (sectionCount contents peHeaderOffset.toNat), ?_, ?_, ?_⟩
  · have htwentyfour : (24 : UInt32).toNat = 24 := rfl
    rw [UInt32.toNat_toUInt64, UInt32.toNat_add, UInt32.toNat_add, UInt16.toNat_toUInt32,
      UInt16.toNat_ofNat_of_lt' (n := optionalHeaderSize contents _) (field_lt contents _ 2),
      htwentyfour, tableStart, optionalHeaderSize]
    omega
  · exact UInt16.toNat_ofNat_of_lt' (field_lt contents _ 2)
  · rw [readTable, hcount, hoptional]
    rfl

theorem readTable_ok (hbound : tableStart contents peHeaderOffset.toNat < 2 ^ 32)
    (hinside : TableInside contents peHeaderOffset.toNat) {imageBase : UInt64}
    (hbase : readImageBase contents peHeaderOffset = .ok imageBase) (common : Sections) :
    ∃ after, readTable contents readImageBase common peHeaderOffset = .ok (after, imageBase) ∧
      Appended common after (entries contents peHeaderOffset.toNat) (vaddrFrom imageBase) := by
  obtain ⟨start, count, hstart, hcount, hread⟩ :=
    @readTable_header contents peHeaderOffset readImageBase hinside.header hbound common
  rcases @loop_outcome contents start imageBase count (hstart ▸ hbound) count.toNat 0
    (Nat.zero_add _) common with
    ⟨-, after, hafter, happended⟩ | ⟨⟨j, -, hj, hout⟩, -⟩
  · refine ⟨after, ?_, ?_⟩
    · rw [hread, hbase]
      exact congrArg (· >>= fun common => .ok (common, imageBase)) hafter
    · rwa [hstart, hcount, ← List.range_eq_range'] at happended
  · rw [hcount] at hj
    rw [hstart] at hout
    exact absurd (hinside.entry j hj) hout

theorem peEntry_onlyInvalid (contents : AddressSpace) (entryOffset imageBase : UInt64)
    (common : Sections) :
    OnlyInvalid (readEntry contents entryOffset imageBase common) := by
  refine (onlyInvalid_of_inside (readU32_inside contents _)).bind fun characteristics => ?_
  dsimp only
  split
  · exact .pure _
  · refine (onlyInvalid_of_inside (readU32_inside contents _)).bind fun rva => ?_
    refine (onlyInvalid_of_inside (readU32_inside contents _)).bind fun offset => ?_
    exact (onlyInvalid_of_inside (readU32_inside contents _)).bind fun size => .pure _

theorem peTable_onlyInvalid {readImageBase : AddressSpace → UInt32 → Except Thrown UInt64}
    (hbase : ∀ peHeaderOffset, OnlyInvalid (readImageBase contents peHeaderOffset))
    (common : Sections) (peHeaderOffset : UInt32) :
    OnlyInvalid (readTable contents readImageBase common peHeaderOffset) := by
  refine (onlyInvalid_of_inside (readU16_inside contents _)).bind fun sectionCount => ?_
  refine (onlyInvalid_of_inside (readU16_inside contents _)).bind fun optionalHeaderSize => ?_
  refine (hbase peHeaderOffset).bind fun imageBase => ?_
  refine Loops.ThrowsOnly.bind (.loop _ ?_ _) fun common => .pure _
  intro state
  rw [sectionBody]
  split
  · exact (peEntry_onlyInvalid contents _ _ _).bind fun common => .pure _
  · exact .pure _

theorem error_of_onlyInvalid {α : Type} {result : Except Thrown α} (h : OnlyInvalid result)
    (hnot : ∀ value, result ≠ .ok value) : result = .error invalidOffset := by
  cases result with
  | error exception => rw [h exception rfl]
  | ok value => exact absurd rfl (hnot value)

theorem readTable_error
    (hreads : ∀ peHeaderOffset, OnlyInvalid (readImageBase contents peHeaderOffset))
    (hbase : ∀ imageBase, readImageBase contents peHeaderOffset ≠ .ok imageBase)
    (common : Sections) :
    readTable contents readImageBase common peHeaderOffset = .error invalidOffset := by
  refine error_of_onlyInvalid (peTable_onlyInvalid hreads common peHeaderOffset) ?_
  intro value hok
  obtain ⟨count, hcount, hok⟩ := ok_of_bind hok
  obtain ⟨size, hsize, hok⟩ := ok_of_bind hok
  obtain ⟨imageBase, himageBase, hok⟩ := ok_of_bind hok
  exact hbase imageBase himageBase

theorem readTable_outside (hbound : tableStart contents peHeaderOffset.toNat < 2 ^ 32)
    (hreads : ∀ peHeaderOffset, OnlyInvalid (readImageBase contents peHeaderOffset))
    (houtside : ¬ TableInside contents peHeaderOffset.toNat) (common : Sections) :
    readTable contents readImageBase common peHeaderOffset = .error invalidOffset := by
  refine error_of_onlyInvalid (peTable_onlyInvalid hreads common peHeaderOffset) ?_
  intro value hok
  have hheader : peHeaderOffset.toNat + 22 ≤ contents.mappedData.length := by
    obtain ⟨count, -, hok⟩ := ok_of_bind hok
    obtain ⟨size, hsize, -⟩ := ok_of_bind hok
    have hinside := (readU16_inside contents _).inside hsize
    rw [tableStart] at hbound
    rw [Inside, @toNat_headerAddress peHeaderOffset 20 (by change _ + 20 < 2 ^ 32; omega)] at hinside
    exact hinside
  obtain ⟨start, count, hstart, hcount, hread⟩ :=
    @readTable_header contents peHeaderOffset readImageBase hheader hbound common
  rw [hread] at hok
  obtain ⟨imageBase, -, hok⟩ := ok_of_bind hok
  obtain ⟨after, hafter, -⟩ := ok_of_bind hok
  rcases @loop_outcome contents start imageBase count (hstart ▸ hbound) count.toNat 0
    (Nat.zero_add _) common with ⟨hentries, -⟩ | ⟨-, herror⟩
  · refine houtside ⟨hheader, fun j hj => ?_⟩
    have hentry := hentries j (Nat.zero_le j) (by rwa [hcount])
    rwa [hstart] at hentry
  · rw [hafter] at herror
    exact absurd herror nofun

/-- The readers agree with other addresses exactly where these are the ones they compute. -/
theorem appended_readTable_iff (hbound : tableStart contents peHeaderOffset.toNat < 2 ^ 32)
    (hinside : TableInside contents peHeaderOffset.toNat) {imageBase : UInt64}
    (hbase : readImageBase contents peHeaderOffset = .ok imageBase) (common : Sections)
    (vaddrOf : Entry → Nat) :
    (∃ after published,
      readTable contents readImageBase common peHeaderOffset = .ok (after, published) ∧
        Appended common after (entries contents peHeaderOffset.toNat) vaddrOf) ↔
      ∀ entry ∈ entries contents peHeaderOffset.toNat, entry.isListed = true →
        vaddrFrom imageBase entry = vaddrOf entry := by
  obtain ⟨after, hread, happended⟩ := readTable_ok hbound hinside hbase common
  constructor
  · rintro ⟨after', published, hread', happended'⟩ entry hmem hlisted
    obtain ⟨rfl, -⟩ := Prod.mk.inj (Except.ok.inj (hread.symm.trans hread'))
    exact happended.vaddr_eq happended' hmem hlisted
  · intro hsame
    exact ⟨after, imageBase, hread, happended.congr hsame⟩

end Table

section Readers

variable (contents : AddressSpace) (peHeaderOffset : UInt32)

/-- `parseSections32` appends the sections of the table, each at its RVA above the header's
ImageBase. -/
def Parsed32 (common : Sections) : Prop :=
  ∃ after published, parseSections32 common contents peHeaderOffset = .ok (after, published) ∧
    Appended common after (entries contents peHeaderOffset.toNat)
      fun entry => imageBase32 contents peHeaderOffset.toNat + entry.rva

def Parsed64 (common : Sections) : Prop :=
  ∃ after published, parseSections64 common contents peHeaderOffset = .ok (after, published) ∧
    Appended common after (entries contents peHeaderOffset.toNat)
      fun entry => (imageBase64 contents peHeaderOffset.toNat + entry.rva) % 2 ^ 64

/-- The 32-bit sum that addresses the ImageBase stays within the file and, where a section
needs it, leads to the ImageBase. -/
structure BaseFound (delta : UInt32) (width : Nat) : Prop where
  inside : (peHeaderOffset + delta).toNat + width ≤ contents.mappedData.length
  same : (∃ entry ∈ entries contents peHeaderOffset.toNat, entry.isListed = true) →
    field contents (peHeaderOffset + delta).toNat width =
      field contents (peHeaderOffset.toNat + delta.toNat) width

variable {contents} {peHeaderOffset}

theorem rva_lt {entry : Entry} (hmem : entry ∈ entries contents peHeaderOffset.toNat) :
    entry.rva < 2 ^ 32 := by
  rw [entries, List.mem_map] at hmem
  obtain ⟨i, -, rfl⟩ := hmem
  exact field_lt contents _ 4

theorem readImageBase32_onlyInvalid (contents : AddressSpace) (peHeaderOffset : UInt32) :
    OnlyInvalid (readImageBase32 contents peHeaderOffset) :=
  (onlyInvalid_of_inside (readU32_inside contents _)).map _

theorem readImageBase64_onlyInvalid (contents : AddressSpace) (peHeaderOffset : UInt32) :
    OnlyInvalid (readImageBase64 contents peHeaderOffset) :=
  onlyInvalid_of_inside (readU64_inside contents _)

theorem parsed32_iff (hbound : tableStart contents peHeaderOffset.toNat < 2 ^ 32)
    (hinside : TableInside contents peHeaderOffset.toNat) (common : Sections) :
    Parsed32 contents peHeaderOffset common ↔ BaseFound contents peHeaderOffset 52 4 := by
  have haddress := UInt32.toNat_toUInt64 (peHeaderOffset + 52)
  by_cases hread : (peHeaderOffset + 52).toNat + 4 ≤ contents.mappedData.length
  · have hbase : readImageBase32 contents peHeaderOffset =
        .ok (UInt32.ofNat (field contents (peHeaderOffset + 52).toNat 4)).toUInt64 := by
      rw [readImageBase32, readU32_of_inside (by rw [haddress]; exact hread), haddress]
      rfl
    have hfound := field_lt contents (peHeaderOffset + 52).toNat 4
    have hheader := field_lt contents (peHeaderOffset.toNat + 52) 4
    refine (appended_readTable_iff hbound hinside hbase common _).trans ⟨?_, ?_⟩
    · intro hsame
      refine ⟨hread, ?_⟩
      rintro ⟨entry, hmem, hlisted⟩
      have hvaddr := hsame entry hmem hlisted
      have hrva := rva_lt hmem
      rw [vaddrFrom, toNat_field, imageBase32] at hvaddr
      change _ = field contents (peHeaderOffset.toNat + 52) 4
      omega
    · intro hfound' entry hmem hlisted
      have hrva := rva_lt hmem
      have hsame : field contents (peHeaderOffset + 52).toNat 4 =
          field contents (peHeaderOffset.toNat + 52) 4 := hfound'.same ⟨entry, hmem, hlisted⟩
      rw [vaddrFrom, toNat_field, imageBase32, hsame]
      omega
  · refine iff_of_false ?_ fun hfound => hread hfound.inside
    rintro ⟨after, published, hparsed, -⟩
    rw [parseSections32, readTable_error (readImageBase32_onlyInvalid contents)] at hparsed
    · contradiction
    · intro imageBase hbase
      have hinside := ((readU32_inside contents _).map UInt32.toUInt64).inside hbase
      rw [Inside, haddress] at hinside
      exact hread hinside

theorem parsed64_iff (hbound : tableStart contents peHeaderOffset.toNat < 2 ^ 32)
    (hinside : TableInside contents peHeaderOffset.toNat) (common : Sections) :
    Parsed64 contents peHeaderOffset common ↔ BaseFound contents peHeaderOffset 48 8 := by
  have haddress := UInt32.toNat_toUInt64 (peHeaderOffset + 48)
  by_cases hread : (peHeaderOffset + 48).toNat + 8 ≤ contents.mappedData.length
  · have hfound := field_lt contents (peHeaderOffset + 48).toNat 8
    have hheader := field_lt contents (peHeaderOffset.toNat + 48) 8
    have hbase : readImageBase64 contents peHeaderOffset =
        .ok (UInt64.ofNat (field contents (peHeaderOffset + 48).toNat 8)) := by
      rw [readImageBase64, readU64_of_inside (by rw [haddress]; exact hread), haddress]
    have htoNat : (UInt64.ofNat (field contents (peHeaderOffset + 48).toNat 8)).toNat =
        field contents (peHeaderOffset + 48).toNat 8 := UInt64.toNat_ofNat_of_lt' hfound
    refine (appended_readTable_iff hbound hinside hbase common _).trans ⟨?_, ?_⟩
    · intro hsame
      refine ⟨hread, ?_⟩
      rintro ⟨entry, hmem, hlisted⟩
      have hvaddr := hsame entry hmem hlisted
      have hrva := rva_lt hmem
      rw [vaddrFrom, htoNat, imageBase64] at hvaddr
      change _ = field contents (peHeaderOffset.toNat + 48) 8
      omega
    · intro hfound' entry hmem hlisted
      have hsame : field contents (peHeaderOffset + 48).toNat 8 =
          field contents (peHeaderOffset.toNat + 48) 8 := hfound'.same ⟨entry, hmem, hlisted⟩
      rw [vaddrFrom, htoNat, imageBase64, hsame]
  · refine iff_of_false ?_ fun hfound => hread hfound.inside
    rintro ⟨after, published, hparsed, -⟩
    rw [parseSections64, readTable_error (readImageBase64_onlyInvalid contents)] at hparsed
    · contradiction
    · intro imageBase hbase
      have hinside := (readU64_inside contents _).inside hbase
      rw [Inside, haddress] at hinside
      exact hread hinside

/-- The ImageBase is found in every image whose optional header is long enough to hold it. -/
theorem baseFound_of_optionalHeader (hbound : tableStart contents peHeaderOffset.toNat < 2 ^ 32)
    (hsize : 32 ≤ optionalHeaderSize contents peHeaderOffset.toNat)
    (hstart : tableStart contents peHeaderOffset.toNat ≤ contents.mappedData.length) :
    BaseFound contents peHeaderOffset 52 4 ∧ BaseFound contents peHeaderOffset 48 8 := by
  rw [tableStart] at hbound hstart
  have h52 : (peHeaderOffset + 52).toNat = peHeaderOffset.toNat + 52 := by
    rw [UInt32.toNat_add]
    exact Nat.mod_eq_of_lt (by change _ + 52 < 2 ^ 32; omega)
  have h48 : (peHeaderOffset + 48).toNat = peHeaderOffset.toNat + 48 := by
    rw [UInt32.toNat_add]
    exact Nat.mod_eq_of_lt (by change _ + 48 < 2 ^ 32; omega)
  constructor
  · exact ⟨by omega, fun _ => by rw [h52]; rfl⟩
  · exact ⟨by omega, fun _ => by rw [h48]; rfl⟩

end Readers

section Images

theorem said_injective : Function.Injective said := by
  refine List.map_injective_iff.mpr ?_
  rintro ⟨vaddr, offset, size⟩ ⟨vaddr', offset', size'⟩ hsame
  simp only [Prod.mk.injEq] at hsame
  obtain ⟨hvaddr, hoffset, hsize⟩ := hsame
  rw [UInt64.toNat_inj.mp hvaddr, UInt64.toNat_inj.mp hoffset, UInt64.toNat_inj.mp hsize]

theorem Appended.unique {common first second : Sections} {entries : List Entry}
    {vaddrOf : Entry → Nat} (hfirst : Appended common first entries vaddrOf)
    (hsecond : Appended common second entries vaddrOf) : first = second := by
  have htext := said_injective (hfirst.text.trans hsecond.text.symm)
  have hdata := said_injective (hfirst.data.trans hsecond.data.symm)
  have hreadOnly := said_injective (hfirst.readOnly.trans hsecond.readOnly.symm)
  have hbss := said_injective (hfirst.bss.trans hsecond.bss.symm)
  cases first
  cases second
  simp_all

/-- A PE32 and a PE32+ image that differ in the place and the width of their common
ImageBase only. -/
structure OneProgram (image32 image64 : AddressSpace) (peHeaderOffset : Nat) : Prop where
  length : image32.mappedData.length = image64.mappedData.length
  bytes : ∀ position, position < peHeaderOffset + 48 ∨ peHeaderOffset + 56 ≤ position →
    image32.mappedData[position]? = image64.mappedData[position]?
  entries : entries image32 peHeaderOffset = entries image64 peHeaderOffset
  imageBase : imageBase32 image32 peHeaderOffset = imageBase64 image64 peHeaderOffset

variable {image32 image64 : AddressSpace}

theorem field_congr {position width : Nat}
    (h : ∀ i, position ≤ i → i < position + width →
      image32.mappedData[i]? = image64.mappedData[i]?) :
    field image32 position width = field image64 position width := by
  refine congrArg littleEndian (List.ext_getElem? fun i => ?_)
  by_cases hi : i < width
  · rw [List.getElem?_take_of_lt hi, List.getElem?_take_of_lt hi, List.getElem?_drop,
      List.getElem?_drop, h _ (Nat.le_add_right _ _) (by omega)]
  · rw [List.getElem?_eq_none (by rw [List.length_take]; omega),
      List.getElem?_eq_none (by rw [List.length_take]; omega)]

section SameBytes

variable {peHeaderOffset : Nat}
  (hbytes : ∀ position, position < peHeaderOffset + 48 ∨ peHeaderOffset + 56 ≤ position →
    image32.mappedData[position]? = image64.mappedData[position]?)

include hbytes

theorem sectionCount_congr :
    sectionCount image32 peHeaderOffset = sectionCount image64 peHeaderOffset :=
  field_congr fun i _ hi => hbytes i (by omega)

theorem tableStart_congr :
    tableStart image32 peHeaderOffset = tableStart image64 peHeaderOffset :=
  congrArg (peHeaderOffset + 24 + ·) (field_congr fun i _ hi => hbytes i (by omega))

/-- The tables of two such images are the same wherever they begin behind the ImageBase. -/
theorem entries_congr (hsize : 32 ≤ optionalHeaderSize image32 peHeaderOffset) :
    entries image32 peHeaderOffset = entries image64 peHeaderOffset := by
  have hstart : peHeaderOffset + 56 ≤ tableStart image32 peHeaderOffset := by
    rw [tableStart]
    omega
  rw [entries, entries, ← sectionCount_congr hbytes, ← tableStart_congr hbytes]
  refine List.map_congr_left fun i _ => ?_
  have hfield (n width : Nat) :
      field image32 (tableStart image32 peHeaderOffset + i * 40 + n) width =
        field image64 (tableStart image32 peHeaderOffset + i * 40 + n) width :=
    field_congr fun position hposition _ => hbytes position (by omega)
  simp only [entryAt, hfield]

end SameBytes

theorem OneProgram.tableInside_iff {peHeaderOffset : Nat}
    (h : OneProgram image32 image64 peHeaderOffset) :
    TableInside image32 peHeaderOffset ↔ TableInside image64 peHeaderOffset := by
  have hcount := sectionCount_congr h.bytes
  have hstart := tableStart_congr h.bytes
  have hlength := h.length
  constructor
  · rintro ⟨hheader, hentry⟩
    exact ⟨hlength ▸ hheader, by rwa [hcount, hstart, hlength] at hentry⟩
  · rintro ⟨hheader, hentry⟩
    exact ⟨hlength ▸ hheader, by rwa [hcount, hstart, hlength]⟩

/-- What the two readers do with two images. -/
structure TablesParsed (image32 image64 : AddressSpace) (peHeaderOffset : UInt32)
    (common : Sections) : Prop where
  parsed32 : TableInside image32 peHeaderOffset.toNat → Parsed32 image32 peHeaderOffset common
  parsed64 : TableInside image64 peHeaderOffset.toNat → Parsed64 image64 peHeaderOffset common
  thrown32 : ¬ TableInside image32 peHeaderOffset.toNat →
    parseSections32 common image32 peHeaderOffset = .error invalidOffset
  thrown64 : ¬ TableInside image64 peHeaderOffset.toNat →
    parseSections64 common image64 peHeaderOffset = .error invalidOffset
  same : OneProgram image32 image64 peHeaderOffset.toNat →
    (parseSections32 common image32 peHeaderOffset).map Prod.fst =
      (parseSections64 common image64 peHeaderOffset).map Prod.fst

theorem same_of_parsed {peHeaderOffset : UInt32} {common : Sections}
    (h : OneProgram image32 image64 peHeaderOffset.toNat)
    (hparsed32 : Parsed32 image32 peHeaderOffset common)
    (hparsed64 : Parsed64 image64 peHeaderOffset common) :
    (parseSections32 common image32 peHeaderOffset).map Prod.fst =
      (parseSections64 common image64 peHeaderOffset).map Prod.fst := by
  obtain ⟨after32, published32, hread32, happended32⟩ := hparsed32
  obtain ⟨after64, published64, hread64, happended64⟩ := hparsed64
  have hbase := field_lt image32 (peHeaderOffset.toNat + 52) 4
  rw [← h.entries] at happended64
  have hcongr := happended32.congr fun entry hmem _ => by
    have hrva := rva_lt hmem
    change imageBase32 image32 peHeaderOffset.toNat + entry.rva =
      (imageBase64 image64 peHeaderOffset.toNat + entry.rva) % 2 ^ 64
    rw [← h.imageBase, imageBase32]
    omega
  rw [hread32, hread64, hcongr.unique happended64]
  rfl

end Images

/-- The readers append what the tables encode, and throw where a table leaves the file, if
and only if the 32-bit sums that address the ImageBase lead to it. -/
theorem tablesParsed_iff (image32 image64 : AddressSpace) (peHeaderOffset : UInt32)
    (common : Sections) (hbound32 : tableStart image32 peHeaderOffset.toNat < 2 ^ 32)
    (hbound64 : tableStart image64 peHeaderOffset.toNat < 2 ^ 32) :
    TablesParsed image32 image64 peHeaderOffset common ↔
      (TableInside image32 peHeaderOffset.toNat → BaseFound image32 peHeaderOffset 52 4) ∧
        (TableInside image64 peHeaderOffset.toNat → BaseFound image64 peHeaderOffset 48 8) := by
  constructor
  · intro h
    refine ⟨fun hinside => ?_, fun hinside => ?_⟩
    · exact (parsed32_iff hbound32 hinside common).mp (h.parsed32 hinside)
    · exact (parsed64_iff hbound64 hinside common).mp (h.parsed64 hinside)
  · rintro ⟨hfound32, hfound64⟩
    have hparsed32 (hinside : TableInside image32 peHeaderOffset.toNat) :=
      (parsed32_iff hbound32 hinside common).mpr (hfound32 hinside)
    have hparsed64 (hinside : TableInside image64 peHeaderOffset.toNat) :=
      (parsed64_iff hbound64 hinside common).mpr (hfound64 hinside)
    have hthrown32 (houtside : ¬ TableInside image32 peHeaderOffset.toNat) :=
      readTable_outside hbound32 (readImageBase32_onlyInvalid image32) houtside common
    have hthrown64 (houtside : ¬ TableInside image64 peHeaderOffset.toNat) :=
      readTable_outside hbound64 (readImageBase64_onlyInvalid image64) houtside common
    refine ⟨hparsed32, hparsed64, hthrown32, hthrown64, fun h => ?_⟩
    by_cases hinside : TableInside image32 peHeaderOffset.toNat
    · exact same_of_parsed h (hparsed32 hinside) (hparsed64 (h.tableInside_iff.mp hinside))
    · rw [parseSections32, parseSections64, hthrown32 hinside,
        hthrown64 fun hinside64 => hinside (h.tableInside_iff.mpr hinside64)]

section SixSections

def Entry.encode (entry : Entry) : List UInt8 :=
  FileFields.encode 12 0 ++ FileFields.encode 4 entry.rva ++
    FileFields.encode 4 entry.size ++ FileFields.encode 4 entry.offset ++
    FileFields.encode 12 0 ++ FileFields.encode 4 entry.characteristics

/-- Data, code, read-only data, a section of no kind, more code and uninitialized data. -/
def sixEntries : List Entry :=
  [⟨0x3000, 0x100, 0x800, 0xC0000040⟩, ⟨0x1000, 0x200, 0x400, 0x60000020⟩,
    ⟨0x2000, 0x80, 0x600, 0x40000040⟩, ⟨0x6000, 0x40, 0xA00, 0x42000000⟩,
    ⟨0x5000, 0x10, 0x900, 0x20000000⟩, ⟨0x4000, 0x400, 0, 0xC0000080⟩]

/-- The headers from a PE signature at offset 0 up to the ImageBase. -/
def sixHeader : List UInt8 :=
  [0x50, 0x45, 0, 0, 0x64, 0x86] ++ encode 2 6 ++ encode 12 0 ++ encode 2 32 ++ encode 26 0

theorem length_sixTable : (sixEntries.flatMap Entry.encode).length = 240 := by decide +kernel

variable {imageBase : List UInt8}

theorem length_sixSections (h : imageBase.length = 8) :
    (sixHeader ++ imageBase ++ sixEntries.flatMap Entry.encode).length = 296 := by
  rw [List.length_append, List.length_append, h, length_sixTable]
  rfl

def sixSections (imageBase : List UInt8) (h : imageBase.length = 8) : AddressSpace where
  mappedData := sixHeader ++ imageBase ++ sixEntries.flatMap Entry.encode
  fileSize_lt := (length_sixSections h).trans_lt (by decide)

theorem sixSections_bytes {other : List UInt8} (h : imageBase.length = 8)
    (hother : other.length = 8) (position : Nat)
    (hposition : position < 0 + 48 ∨ 0 + 56 ≤ position) :
    (sixSections imageBase h).mappedData[position]? =
      (sixSections other hother).mappedData[position]? := by
  have hheader : sixHeader.length = 48 := rfl
  simp only [sixSections, List.getElem?_append, List.length_append, h, hother, hheader]
  split_ifs with hfront
  · rfl
  · omega
  · rfl

end SixSections

def sixSections32 : AddressSpace := sixSections (encode 4 0 ++ encode 4 0x400000) rfl

def sixSections64 : AddressSpace := sixSections (encode 8 0x400000) rfl

theorem sixSections_oneProgram : OneProgram sixSections32 sixSections64 0 where
  length := rfl
  bytes := sixSections_bytes rfl rfl
  entries := entries_congr (sixSections_bytes rfl rfl) (by decide +kernel)
  imageBase := by decide +kernel

def sixParsed : Sections where
  text := [⟨0x401000, 0x400, 0x200⟩, ⟨0x405000, 0x900, 0x10⟩]
  data := [⟨0x403000, 0x800, 0x100⟩]
  readOnly := [⟨0x402000, 0x600, 0x80⟩]
  bss := [⟨0x404000, 0, 0x400⟩]

theorem tablesParsed_sixSections :
    TablesParsed sixSections32 sixSections64 0 {} ∧
      (parseSections32 {} sixSections32 0).map Prod.fst = .ok sixParsed ∧
      (parseSections64 {} sixSections64 0).map Prod.fst = .ok sixParsed := by
  have hparsed := (tablesParsed_iff sixSections32 sixSections64 0 {} (by decide +kernel)
    (by decide +kernel)).mpr
      ⟨fun _ => (baseFound_of_optionalHeader (by decide +kernel) (by decide +kernel)
          (by decide +kernel)).1,
        fun _ => (baseFound_of_optionalHeader (by decide +kernel) (by decide +kernel)
          (by decide +kernel)).2⟩
  have h32 : (parseSections32 {} sixSections32 0).map Prod.fst = .ok sixParsed := by
    decide +kernel
  exact ⟨hparsed, h32, (hparsed.same sixSections_oneProgram).symm.trans h32⟩

section Padded

/-- Some bytes behind a number of zeros. -/
def padded (zeros : Nat) (bytes : List UInt8) (h : zeros + bytes.length < 2 ^ 64) :
    AddressSpace where
  mappedData := List.replicate zeros 0 ++ bytes
  fileSize_lt := by
    rwa [List.length_append, List.length_replicate]

variable {zeros : Nat} {bytes : List UInt8} (h : zeros + bytes.length < 2 ^ 64)

theorem length_padded : (padded zeros bytes h).mappedData.length = zeros + bytes.length := by
  rw [padded, List.length_append, List.length_replicate]

theorem field_padded (position width : Nat) :
    field (padded zeros bytes h) (zeros + position) width =
      littleEndian ((bytes.drop position).take width) := by
  have hdrop : (List.replicate zeros 0 ++ bytes).drop (zeros + position) = bytes.drop position := by
    rw [List.drop_append, List.length_replicate, Nat.add_sub_cancel_left,
      List.drop_eq_nil_of_le (by rw [List.length_replicate]; omega), List.nil_append]
  rw [field, padded, hdrop]

theorem littleEndian_replicate (width : Nat) : littleEndian (List.replicate width 0) = 0 := by
  induction width with
  | zero => rfl
  | succ width ih =>
      rw [List.replicate_succ, littleEndian, ih]
      rfl

theorem field_padded_zeros {position width : Nat} (hinside : position + width ≤ zeros) :
    field (padded zeros bytes h) position width = 0 := by
  have htake : ((List.replicate zeros 0 ++ bytes).drop position).take width =
      List.replicate width 0 := by
    rw [List.drop_append_of_le_length (by rw [List.length_replicate]; omega),
      List.take_append_of_le_length (by rw [List.length_drop, List.length_replicate]; omega),
      List.drop_replicate, List.take_replicate, Nat.min_eq_left (by omega)]
  rw [field, padded, htake, littleEndian_replicate]

end Padded

/-- A header 25 bytes below 4 GiB, without optional header, in front of one section of code.
The sum that addresses its ImageBase, 1, wraps to 27. -/
def headerBelow4GiB : AddressSpace :=
  padded 0xFFFFFFE7
    ([0x50, 0x45, 0, 0, 0x64, 0x86] ++ encode 2 1 ++ List.replicate 44 0 ++ encode 4 1 ++
      List.replicate 4 0 ++ encode 4 0x60000020)
    (by decide)

theorem not_parsed_headerBelow4GiB :
    tableStart headerBelow4GiB 0xFFFFFFE7 < 2 ^ 32 ∧ TableInside headerBelow4GiB 0xFFFFFFE7 ∧
      ¬ Parsed32 headerBelow4GiB 0xFFFFFFE7 {} := by
  have hcount : sectionCount headerBelow4GiB 0xFFFFFFE7 = 1 :=
    (field_padded _ 6 2).trans (by decide)
  have hsize : optionalHeaderSize headerBelow4GiB 0xFFFFFFE7 = 0 :=
    (field_padded _ 20 2).trans (by decide)
  have hstart : tableStart headerBelow4GiB 0xFFFFFFE7 = 0xFFFFFFE7 + 24 := by
    rw [tableStart, hsize, Nat.add_zero]
  have hcharacteristics : (entryAt headerBelow4GiB (0xFFFFFFE7 + 24)).characteristics =
      0x60000020 := by
    simp only [entryAt, Nat.add_assoc 0xFFFFFFE7]
    exact (field_padded _ (24 + 36) 4).trans (by decide)
  have hlength : headerBelow4GiB.mappedData.length = 0xFFFFFFE7 + 64 := length_padded _
  have hbound : tableStart headerBelow4GiB 0xFFFFFFE7 < 2 ^ 32 := by
    rw [hstart]
    decide
  have hinside : TableInside headerBelow4GiB 0xFFFFFFE7 := by
    refine ⟨by rw [hlength]; decide, fun i hi => ?_⟩
    rw [hcount] at hi
    rw [hstart, hlength]
    omega
  refine ⟨hbound, hinside, fun hparsed => ?_⟩
  have hsame := ((@parsed32_iff headerBelow4GiB 0xFFFFFFE7 hbound hinside {}).mp hparsed).same
    ⟨entryAt headerBelow4GiB (0xFFFFFFE7 + 24), ?_, ?_⟩
  · have hread : field headerBelow4GiB 27 4 = 0 := field_padded_zeros _ (by decide)
    have hheader : field headerBelow4GiB (0xFFFFFFE7 + 52) 4 = 1 :=
      (field_padded _ 52 4).trans (by decide)
    exact absurd (hread.symm.trans (hsame.trans hheader)) (by decide)
  · refine List.mem_map.mpr ⟨0, ?_, ?_⟩
    · exact List.mem_range.mpr (hcount ▸ Nat.one_pos)
    · rw [Nat.zero_mul, Nat.add_zero]
      exact congrArg (entryAt headerBelow4GiB) hstart
  · simp only [Entry.isListed, Entry.isText, Entry.has, hcharacteristics]
    decide

end Voidwalk.PeTableReads

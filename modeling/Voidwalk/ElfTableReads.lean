import Voidwalk.ElfLayout

/-!
The reads of the ELF section readers. A read that leaves the file ends the reader,
and nothing else does.
-/

namespace Voidwalk.ElfTableReads

open Voidwalk.Library
open Voidwalk.MappedFile
open Voidwalk.Disassembly
open Voidwalk.FileFields
open Voidwalk.ElfSectionTable
open Voidwalk.ElfLayout

section Names

variable (contents : AddressSpace)

/-- The byte of a name at `k`, with only non-NUL bytes before it. -/
def BeforeNul (address : UInt64) (k : Nat) : Prop :=
  ∀ j, j < k →
    ∃ nameChar, contents.readU8 (address + UInt64.ofNat j) = .ok nameChar ∧ nameChar ≠ 0

/-- What is read from the names section on, given the fields of the file header. Each
address is the sum taken modulo `2 ^ 64`. -/
inductive TableReads (fields : EntryFields) (header : TableHeader) : UInt64 → Nat → Prop where
  | namesOffset :
      TableReads fields header (header.sectionTableOffset +
        header.namesSectionIndex * header.sectionEntrySize + fields.offset) fields.width
  | nameOffset {sectionIndex : UInt16} (h : sectionIndex < header.sectionCount) :
      TableReads fields header (entryAddress header sectionIndex) 4
  | sectionOffset {sectionIndex : UInt16} (h : sectionIndex < header.sectionCount) :
      TableReads fields header (entryAddress header sectionIndex + fields.offset) fields.width
  | sectionSize {sectionIndex : UInt16} (h : sectionIndex < header.sectionCount) :
      TableReads fields header (entryAddress header sectionIndex + fields.size) fields.width
  | sectionVaddr {sectionIndex : UInt16} (h : sectionIndex < header.sectionCount) :
      TableReads fields header (entryAddress header sectionIndex + fields.vaddr) fields.width
  | nameChar {sectionIndex : UInt16} {namesOffset : UInt64} {nameOffset : UInt32}
      (h : sectionIndex < header.sectionCount)
      (hnames : fields.readWord contents (header.sectionTableOffset +
        header.namesSectionIndex * header.sectionEntrySize + fields.offset) = .ok namesOffset)
      (hname : contents.readU32 (entryAddress header sectionIndex) = .ok nameOffset) {k : Nat}
      (hbefore : BeforeNul contents (namesOffset + nameOffset.toUInt64) k) :
      TableReads fields header (namesOffset + nameOffset.toUInt64 + UInt64.ofNat k) 1

def headerReads32 : List (UInt64 × Nat) := [(0x20, 4), (0x2e, 2), (0x30, 2), (0x32, 2)]

def headerReads64 : List (UInt64 × Nat) := [(0x28, 8), (0x3A, 2), (0x3C, 2), (0x3E, 2)]

def Reads32 (address : UInt64) (width : Nat) : Prop :=
  (address, width) ∈ headerReads32 ∨ ∃ header, readHeader32 contents = .ok header ∧
    TableReads contents entryFields32 header address width

def Reads64 (address : UInt64) (width : Nat) : Prop :=
  (address, width) ∈ headerReads64 ∨ ∃ header, readHeader64 contents = .ok header ∧
    ¬ (header.sectionTableOffset = 0 ∧ header.sectionCount = 0) ∧
    TableReads contents entryFields64 header address width

end Names

/-- A computation that throws nothing but the exception of a read outside the file. -/
abbrev OnlyInvalid {α : Type} (result : Except Thrown α) : Prop :=
  Loops.ThrowsOnly (· = invalidOffset) result

section OnlyInvalid

variable {α : Type} {contents : AddressSpace}

theorem onlyInvalid_of_inside {address : UInt64} {width : Nat} {result : Except Thrown α}
    (h : ReadsInside contents address width result) : OnlyInvalid result :=
  fun _ => h.error

theorem readName_onlyInvalid (contents : AddressSpace) (address : UInt64) :
    OnlyInvalid (readName contents address) := by
  apply Loops.ThrowsOnly.loop
  intro state
  refine (onlyInvalid_of_inside (readU8_inside contents _)).bind ?_
  intro nameChar
  split
  · exact .pure _
  · exact .pure _

end OnlyInvalid

section Tables

variable {contents : AddressSpace} {fields : EntryFields} {header : TableHeader}

/-- A reader's word comes from `width` bytes of the file. -/
def WordInside (fields : EntryFields) : Prop :=
  ∀ contents address, ReadsInside contents address fields.width (fields.readWord contents address)

theorem wordInside32 : WordInside entryFields32 :=
  fun contents address => (readU32_inside contents address).map UInt32.toUInt64

theorem wordInside64 : WordInside entryFields64 :=
  fun contents address => readU64_inside contents address

theorem readEntry_onlyInvalid (hword : WordInside fields) (namesOffset : UInt64)
    (sectionIndex : UInt16) (parsed : Parsed) :
    OnlyInvalid (readEntry fields header contents namesOffset sectionIndex parsed) := by
  refine (onlyInvalid_of_inside (readU32_inside contents _)).bind fun nameOffset => ?_
  refine (onlyInvalid_of_inside (hword contents _)).bind fun sectionOffset => ?_
  refine (onlyInvalid_of_inside (hword contents _)).bind fun sectionSize => ?_
  refine (onlyInvalid_of_inside (hword contents _)).bind fun sectionVaddr => ?_
  exact (readName_onlyInvalid contents _).bind fun sectionName => .pure _

theorem readTable_onlyInvalid (hword : WordInside fields) (parsed : Parsed) :
    OnlyInvalid (readTable fields header contents parsed) := by
  refine (onlyInvalid_of_inside (hword contents _)).bind fun namesOffset => ?_
  apply Loops.ThrowsOnly.loop
  intro state
  rw [sectionBody]
  split
  · exact (readEntry_onlyInvalid hword _ _ _).bind fun parsed => .pure _
  · exact .pure _

theorem readHeader32_onlyInvalid (contents : AddressSpace) :
    OnlyInvalid (readHeader32 contents) := by
  refine (onlyInvalid_of_inside (wordInside32 contents _)).bind fun _ => ?_
  refine (onlyInvalid_of_inside (readU16_inside contents _)).bind fun _ => ?_
  refine (onlyInvalid_of_inside (readU16_inside contents _)).bind fun _ => ?_
  exact (onlyInvalid_of_inside (readU16_inside contents _)).bind fun _ => .pure _

theorem readHeader64_onlyInvalid (contents : AddressSpace) :
    OnlyInvalid (readHeader64 contents) := by
  refine (onlyInvalid_of_inside (readU64_inside contents _)).bind fun _ => ?_
  refine (onlyInvalid_of_inside (readU16_inside contents _)).bind fun _ => ?_
  refine (onlyInvalid_of_inside (readU16_inside contents _)).bind fun _ => ?_
  exact (onlyInvalid_of_inside (readU16_inside contents _)).bind fun _ => .pure _

theorem parseSections32_onlyInvalid (parsed : Parsed) (contents : AddressSpace) :
    OnlyInvalid (parseSections32 parsed contents) :=
  (readHeader32_onlyInvalid contents).bind fun _ => readTable_onlyInvalid wordInside32 parsed

theorem parseSections64_onlyInvalid (parsed : Parsed) (contents : AddressSpace) :
    OnlyInvalid (parseSections64 parsed contents) := by
  refine (readHeader64_onlyInvalid contents).bind fun header => ?_
  split
  · exact .pure _
  · exact readTable_onlyInvalid wordInside64 parsed

theorem nameBody_ok {address : UInt64} {state : NameLoop} {step : NameLoop ⊕ List UInt8}
    (h : nameBody contents address state = .ok step) :
    ∃ nameChar, contents.readU8 (address + state.i) = .ok nameChar ∧
      ((nameChar = 0 ∧ step = .inr state.sectionName) ∨
        nameChar ≠ 0 ∧
          step = .inl { i := state.i + 1, sectionName := state.sectionName ++ [nameChar] }) := by
  obtain ⟨nameChar, hread, h⟩ := ok_of_bind h
  refine ⟨nameChar, hread, ?_⟩
  split at h
  · exact Or.inl ⟨‹_›, (Except.ok.inj h).symm⟩
  · exact Or.inr ⟨‹_›, (Except.ok.inj h).symm⟩

/-- A name that was read lies in the file up to its NUL. -/
theorem readName_inside {address : UInt64} {sectionName : List UInt8}
    (h : readName contents address = .ok sectionName) {k : Nat}
    (hbefore : BeforeNul contents address k) : Inside contents (address + UInt64.ofNat k) 1 := by
  have hrule := Loops.result_induction (nameVariant contents address)
    (Q := fun state outcome => ∀ n, state.i = UInt64.ofNat n → n ≤ k →
      (∃ name, outcome = .ok name) → Inside contents (address + UInt64.ofNat k) 1) ?_ ?_ ?_ {}
  · exact hrule 0 rfl (Nat.zero_le k) ⟨sectionName, h⟩
  · rintro state exception hbody n hi hle ⟨name, hok⟩
    contradiction
  · rintro state value hbody n hi hle -
    obtain ⟨nameChar, hread, ⟨rfl, -⟩ | ⟨-, hstep⟩⟩ := nameBody_ok hbody
    · rcases Nat.eq_or_lt_of_le hle with rfl | hlt
      · rw [← hi]
        exact (readU8_inside contents _).inside hread
      · obtain ⟨nameChar, hread', hne⟩ := hbefore n hlt
        rw [← hi, hread] at hread'
        exact absurd (Except.ok.inj hread').symm hne
    · contradiction
  · rintro state next outcome hbody ih n hi hle hok
    obtain ⟨nameChar, hread, ⟨-, hstep⟩ | ⟨-, hstep⟩⟩ := nameBody_ok hbody
    · contradiction
    · rcases Nat.eq_or_lt_of_le hle with rfl | hlt
      · rw [← hi]
        exact (readU8_inside contents _).inside hread
      · obtain rfl := Sum.inl.inj hstep
        refine ih (n + 1) ?_ hlt hok
        rw [UInt64.ofNat_add, ← hi]
        rfl

/-- A loop over the table that returned has read each of its entries. -/
theorem readEntry_of_loop {namesOffset : UInt64} {parsed after : Parsed}
    (h : Loops.result (sectionVariant fields header contents namesOffset) { parsed := parsed } =
      .ok after) {sectionIndex : UInt16} (hlt : sectionIndex < header.sectionCount) :
    ∃ before next,
      readEntry fields header contents namesOffset sectionIndex before = .ok next := by
  have hrule := Loops.result_induction (sectionVariant fields header contents namesOffset)
    (Q := fun state outcome => state.sectionIndex ≤ sectionIndex → (∃ after, outcome = .ok after) →
      ∃ before next,
        readEntry fields header contents namesOffset sectionIndex before = .ok next) ?_ ?_ ?_
    { parsed := parsed }
  · exact hrule (UInt16.le_iff_toNat_le.mpr (Nat.zero_le _)) ⟨after, h⟩
  · rintro state exception hbody hle ⟨after, hok⟩
    contradiction
  · rintro state value hbody hle -
    simp only [sectionBody] at hbody
    split at hbody
    · obtain ⟨parsed, -, hbody⟩ := ok_of_bind hbody
      have hnone := Except.ok.inj hbody
      contradiction
    · rename_i hend
      rw [UInt16.lt_iff_toNat_lt] at hend hlt
      rw [UInt16.le_iff_toNat_le] at hle
      omega
  · rintro state next outcome hbody ih hle hok
    obtain ⟨hbelow, hread, hindex⟩ := sectionBody_of_next fields header contents hbody
    rw [UInt16.le_iff_toNat_le] at hle
    rcases Nat.eq_or_lt_of_le hle with heq | hless
    · rw [UInt16.toNat_inj] at heq
      exact ⟨_, _, heq ▸ hread⟩
    · refine ih ?_ hok
      rw [hindex, UInt16.le_iff_toNat_le, toNat_succ_of_lt hbelow]
      exact hless

/-- The reads of an entry that was read. -/
structure EntryRead (fields : EntryFields) (header : TableHeader) (contents : AddressSpace)
    (namesOffset : UInt64) (sectionIndex : UInt16) (nameOffset : UInt32)
    (sectionName : List UInt8) : Prop where
  nameOffset_eq : contents.readU32 (entryAddress header sectionIndex) = .ok nameOffset
  sectionOffset : Inside contents (entryAddress header sectionIndex + fields.offset) fields.width
  sectionSize : Inside contents (entryAddress header sectionIndex + fields.size) fields.width
  sectionVaddr : Inside contents (entryAddress header sectionIndex + fields.vaddr) fields.width
  sectionName_eq : readName contents (namesOffset + nameOffset.toUInt64) = .ok sectionName

theorem entryRead_of_ok (hword : WordInside fields) {namesOffset : UInt64}
    {sectionIndex : UInt16} {before next : Parsed}
    (h : readEntry fields header contents namesOffset sectionIndex before = .ok next) :
    ∃ nameOffset sectionName,
      EntryRead fields header contents namesOffset sectionIndex nameOffset sectionName := by
  obtain ⟨nameOffset, hname, h⟩ := ok_of_bind h
  obtain ⟨_, hoffset, h⟩ := ok_of_bind h
  obtain ⟨_, hsize, h⟩ := ok_of_bind h
  obtain ⟨_, hvaddr, h⟩ := ok_of_bind h
  obtain ⟨sectionName, hsection, -⟩ := ok_of_bind h
  exact ⟨nameOffset, sectionName, hname, (hword contents _).inside hoffset,
    (hword contents _).inside hsize, (hword contents _).inside hvaddr, hsection⟩

/-- A table that was read has kept all its reads within the file. -/
theorem readTable_inside (hword : WordInside fields) {parsed after : Parsed}
    (h : readTable fields header contents parsed = .ok after) {address : UInt64} {width : Nat}
    (hreads : TableReads contents fields header address width) :
    Inside contents address width := by
  obtain ⟨namesOffset, hnames, hloop⟩ := ok_of_bind h
  have hentry : ∀ {sectionIndex : UInt16}, sectionIndex < header.sectionCount →
      ∃ nameOffset sectionName,
        EntryRead fields header contents namesOffset sectionIndex nameOffset sectionName := by
    intro sectionIndex hlt
    obtain ⟨before, next, hread⟩ := readEntry_of_loop hloop hlt
    exact entryRead_of_ok hword hread
  cases hreads with
  | namesOffset => exact (hword contents _).inside hnames
  | nameOffset hlt =>
      obtain ⟨nameOffset, sectionName, hread⟩ := hentry hlt
      exact (readU32_inside contents _).inside hread.nameOffset_eq
  | sectionOffset hlt =>
      obtain ⟨nameOffset, sectionName, hread⟩ := hentry hlt
      exact hread.sectionOffset
  | sectionSize hlt =>
      obtain ⟨nameOffset, sectionName, hread⟩ := hentry hlt
      exact hread.sectionSize
  | sectionVaddr hlt =>
      obtain ⟨nameOffset, sectionName, hread⟩ := hentry hlt
      exact hread.sectionVaddr
  | nameChar hlt hnames' hname hbefore =>
      obtain rfl := Except.ok.inj (hnames.symm.trans hnames')
      obtain ⟨nameOffset, sectionName, hread⟩ := hentry hlt
      obtain rfl := Except.ok.inj (hname.symm.trans hread.nameOffset_eq)
      exact readName_inside hread.sectionName_eq hbefore

theorem readHeader32_inside {found : TableHeader} (h : readHeader32 contents = .ok found)
    {address : UInt64} {width : Nat} (hreads : (address, width) ∈ headerReads32) :
    Inside contents address width := by
  obtain ⟨_, hoffset, h⟩ := ok_of_bind h
  obtain ⟨_, hentrySize, h⟩ := ok_of_bind h
  obtain ⟨_, hcount, h⟩ := ok_of_bind h
  obtain ⟨_, hnames, -⟩ := ok_of_bind h
  simp only [headerReads32, List.mem_cons, Prod.mk.injEq, List.not_mem_nil, or_false] at hreads
  rcases hreads with ⟨rfl, rfl⟩ | ⟨rfl, rfl⟩ | ⟨rfl, rfl⟩ | ⟨rfl, rfl⟩
  · exact (wordInside32 contents _).inside hoffset
  · exact (readU16_inside contents _).inside hentrySize
  · exact (readU16_inside contents _).inside hcount
  · exact (readU16_inside contents _).inside hnames

theorem readHeader64_inside {found : TableHeader} (h : readHeader64 contents = .ok found)
    {address : UInt64} {width : Nat} (hreads : (address, width) ∈ headerReads64) :
    Inside contents address width := by
  obtain ⟨_, hoffset, h⟩ := ok_of_bind h
  obtain ⟨_, hentrySize, h⟩ := ok_of_bind h
  obtain ⟨_, hcount, h⟩ := ok_of_bind h
  obtain ⟨_, hnames, -⟩ := ok_of_bind h
  simp only [headerReads64, List.mem_cons, Prod.mk.injEq, List.not_mem_nil, or_false] at hreads
  rcases hreads with ⟨rfl, rfl⟩ | ⟨rfl, rfl⟩ | ⟨rfl, rfl⟩ | ⟨rfl, rfl⟩
  · exact (wordInside64 contents _).inside hoffset
  · exact (readU16_inside contents _).inside hentrySize
  · exact (readU16_inside contents _).inside hcount
  · exact (readU16_inside contents _).inside hnames

/-- A read that leaves the file ends a computation whose success keeps it inside. -/
theorem error_of_outside {α : Type} {result : Except Thrown α}
    (h : OnlyInvalid result) {address : UInt64} {width : Nat}
    (hinside : ∀ value, result = .ok value → Inside contents address width)
    (houtside : ¬ Inside contents address width) : result = .error invalidOffset := by
  cases hresult : result with
  | error exception => rw [h exception hresult]
  | ok value => exact absurd (hinside value hresult) houtside

theorem parseSections32_error (parsed : Parsed) {address : UInt64} {width : Nat}
    (hreads : Reads32 contents address width) (houtside : ¬ Inside contents address width) :
    parseSections32 parsed contents = .error invalidOffset := by
  refine error_of_outside (parseSections32_onlyInvalid parsed contents) ?_ houtside
  intro after hok
  obtain ⟨found, hfound, htable⟩ := ok_of_bind hok
  rcases hreads with hheader | ⟨found', hfound', hreads⟩
  · exact readHeader32_inside hfound hheader
  · obtain rfl := Except.ok.inj (hfound.symm.trans hfound')
    exact readTable_inside wordInside32 htable hreads

theorem parseSections64_error (parsed : Parsed) {address : UInt64} {width : Nat}
    (hreads : Reads64 contents address width) (houtside : ¬ Inside contents address width) :
    parseSections64 parsed contents = .error invalidOffset := by
  refine error_of_outside (parseSections64_onlyInvalid parsed contents) ?_ houtside
  intro after hok
  obtain ⟨found, hfound, htable⟩ := ok_of_bind hok
  rcases hreads with hheader | ⟨found', hfound', hnot, hreads⟩
  · exact readHeader64_inside hfound hheader
  · obtain rfl := Except.ok.inj (hfound.symm.trans hfound')
    rw [if_neg hnot] at htable
    exact readTable_inside wordInside64 htable hreads

end Tables

/-- Both readers return what their layout encodes and throw where a read leaves the
file, and on one table in both layouts they agree. -/
theorem elf_tables :
    (∀ (contents : AddressSpace) (sections : List Section), Layout 8 contents sections →
      parseSections64 {} contents = .ok (encoded sections)) ∧
    (∀ (contents : AddressSpace) (sections : List Section), Layout 4 contents sections →
      parseSections32 {} contents = .ok (encoded sections)) ∧
    (∀ (contents : AddressSpace) (address : UInt64) (width : Nat),
      Reads64 contents address width → ¬ Inside contents address width →
      parseSections64 {} contents = .error invalidOffset) ∧
    (∀ (contents : AddressSpace) (address : UInt64) (width : Nat),
      Reads32 contents address width → ¬ Inside contents address width →
      parseSections32 {} contents = .error invalidOffset) ∧
    ∀ (contents64 contents32 : AddressSpace) (sections : List Section),
      Layout 8 contents64 sections → Layout 4 contents32 sections →
      parseSections64 {} contents64 = parseSections32 {} contents32 := by
  refine ⟨?_, ?_, ?_, ?_, ?_⟩
  · exact fun _ _ layout => parseSections64_eq layout
  · exact fun _ _ layout => parseSections32_eq layout
  · exact fun _ _ _ hreads houtside => parseSections64_error {} hreads houtside
  · exact fun _ _ _ hreads houtside => parseSections32_error {} hreads houtside
  · intro contents64 contents32 sections layout64 layout32
    rw [parseSections64_eq layout64, parseSections32_eq layout32]

section TwoSections

def twoSections (namesPosition : Nat) : List Section :=
  [{ name := nameBytes ".text", addr := 0x401000, offset := 0x40, size := 4 },
   { name := [], addr := 0, offset := namesPosition, size := 6 }]

def twoSectionsHeader (word : Nat) : FileHeader where
  ident := #v[0x7F, 0x45, 0x4C, 0x46, 2, 1, 1, 0, 0, 0, 0, 0, 0, 0, 0, 0]
  machine := 0xB7
  entry := 0x401000
  shoff := 40 + 3 * word
  shentsize := 16 + 6 * word
  shnum := 2
  shstrndx := 1

/-- The file header, the table right behind it and the names behind the table. -/
def twoSectionsBytes (word : Nat) : List UInt8 :=
  (twoSectionsHeader word).encode word ++
    (twoSections (72 + 15 * word)).flatMap (fun entry =>
      entry.encode word (if entry.name = [] then 5 else 0) {}) ++
    nameBytes ".text" ++ [0]

def twoSectionsFile64 : AddressSpace :=
  ⟨twoSectionsBytes 8, by decide +kernel⟩

def twoSectionsFile32 : AddressSpace :=
  ⟨twoSectionsBytes 4, by decide +kernel⟩

def twoSectionsLayout64 : Layout 8 twoSectionsFile64 (twoSections 192) where
  header := twoSectionsHeader 8
  header_holds := by decide +kernel
  shoff_lt := by decide
  shentsize_lt := by decide
  entry_size_le := by decide
  shnum_lt := by decide
  shnum_eq := rfl
  namesIndex := ⟨1, by decide⟩
  shstrndx_eq := rfl
  fits := by
    refine Fin.forall_fin_two.mpr ⟨?_, ?_⟩
    · exact ⟨by decide, by decide, by decide, by decide⟩
    · exact ⟨by decide, by decide, by decide, by decide⟩
  nameOffset := fun i => if i.val = 1 then 5 else 0
  nameOffset_lt := by decide
  other := fun _ => {}
  entry_holds := by decide +kernel
  name_holds := by decide +kernel

def twoSectionsLayout32 : Layout 4 twoSectionsFile32 (twoSections 132) where
  header := twoSectionsHeader 4
  header_holds := by decide +kernel
  shoff_lt := by decide
  shentsize_lt := by decide
  entry_size_le := by decide
  shnum_lt := by decide
  shnum_eq := rfl
  namesIndex := ⟨1, by decide⟩
  shstrndx_eq := rfl
  fits := by
    refine Fin.forall_fin_two.mpr ⟨?_, ?_⟩
    · exact ⟨by decide, by decide, by decide, by decide⟩
    · exact ⟨by decide, by decide, by decide, by decide⟩
  nameOffset := fun i => if i.val = 1 then 5 else 0
  nameOffset_lt := by decide
  other := fun _ => {}
  entry_holds := by decide +kernel
  name_holds := by decide +kernel

theorem elf_tables_twoSections :
    parseSections64 {} twoSectionsFile64 = .ok (encoded (twoSections 192)) ∧
    parseSections32 {} twoSectionsFile32 = .ok (encoded (twoSections 132)) ∧
    parseSections32 {} (⟨[], by decide⟩ : AddressSpace) = .error invalidOffset := by
  obtain ⟨h64, h32, -, houtside, -⟩ := elf_tables
  refine ⟨?_, ?_, ?_⟩
  · exact h64 _ _ twoSectionsLayout64
  · exact h32 _ _ twoSectionsLayout32
  · exact houtside _ _ _ (Or.inl List.mem_cons_self) (Nat.not_le.mpr (by decide))

end TwoSections

end Voidwalk.ElfTableReads

import Voidwalk.ElfSectionTable

/-!
The two ELF layouts of a section table, written field by field, and what the readers
make of them. One description serves both classes: they order their fields alike and
differ in the width of a word.
-/

namespace Voidwalk.ElfLayout

open Voidwalk.Library
open Voidwalk.MappedFile
open Voidwalk.Disassembly
open Voidwalk.FileFields
open Voidwalk.ElfSectionTable

/-- A section as its table entry describes it. -/
structure Section where
  name : List UInt8
  addr : Nat
  offset : Nat
  size : Nat
  deriving DecidableEq

/-- `word` is the number of bytes in an address of the class. -/
structure Section.Fits (word : Nat) (entry : Section) : Prop where
  nul_free : 0 ∉ entry.name
  addr_lt : entry.addr < 256 ^ word
  offset_lt : entry.offset < 256 ^ word
  size_lt : entry.size < 256 ^ word

/-- The fields of an entry that say nothing about where the section is. -/
structure OtherFields where
  type : Nat := 0
  flags : Nat := 0
  link : Nat := 0
  info : Nat := 0
  addralign : Nat := 0
  entsize : Nat := 0

def Section.encode (word nameOffset : Nat) (other : OtherFields) (entry : Section) : List UInt8 :=
  FileFields.encode 4 nameOffset ++ (FileFields.encode 4 other.type ++
    (FileFields.encode word other.flags ++ (FileFields.encode word entry.addr ++
      (FileFields.encode word entry.offset ++ (FileFields.encode word entry.size ++
        (FileFields.encode 4 other.link ++ (FileFields.encode 4 other.info ++
          (FileFields.encode word other.addralign ++
            FileFields.encode word other.entsize))))))))

/-- The file header. `ident` is the magic and the class bytes behind it. -/
structure FileHeader where
  ident : Vector UInt8 16
  type : Nat := 0
  machine : Nat := 0
  version : Nat := 0
  entry : Nat := 0
  phoff : Nat := 0
  shoff : Nat
  flags : Nat := 0
  ehsize : Nat := 0
  phentsize : Nat := 0
  phnum : Nat := 0
  shentsize : Nat
  shnum : Nat
  shstrndx : Nat

def FileHeader.encode (word : Nat) (header : FileHeader) : List UInt8 :=
  header.ident.toList ++ (FileFields.encode 2 header.type ++
    (FileFields.encode 2 header.machine ++ (FileFields.encode 4 header.version ++
      (FileFields.encode word header.entry ++ (FileFields.encode word header.phoff ++
        (FileFields.encode word header.shoff ++ (FileFields.encode 4 header.flags ++
          (FileFields.encode 2 header.ehsize ++ (FileFields.encode 2 header.phentsize ++
            (FileFields.encode 2 header.phnum ++ (FileFields.encode 2 header.shentsize ++
              (FileFields.encode 2 header.shnum ++
                FileFields.encode 2 header.shstrndx))))))))))))

/-- The file has a table of these sections. The table, the names and the sections may
lie anywhere and share bytes. -/
structure Layout (word : Nat) (contents : AddressSpace) (sections : List Section) where
  header : FileHeader
  header_holds : Holds contents 0 (header.encode word)
  shoff_lt : header.shoff < 256 ^ word
  shentsize_lt : header.shentsize < 256 ^ 2
  entry_size_le : 16 + 6 * word ≤ header.shentsize
  shnum_lt : header.shnum < 256 ^ 2
  shnum_eq : header.shnum = sections.length
  namesIndex : Fin sections.length
  shstrndx_eq : header.shstrndx = namesIndex
  fits : ∀ i, (sections.get i).Fits word
  nameOffset : Fin sections.length → Nat
  nameOffset_lt : ∀ i, nameOffset i < 256 ^ 4
  other : Fin sections.length → OtherFields
  entry_holds : ∀ i : Fin sections.length, Holds contents (header.shoff + header.shentsize * i)
    ((sections.get i).encode word (nameOffset i) (other i))
  name_holds : ∀ i, Holds contents ((sections.get namesIndex).offset + nameOffset i)
    ((sections.get i).name ++ [0])

def Section.header (entry : Section) : Header where
  vaddr := UInt64.ofNat entry.addr
  offset := UInt64.ofNat entry.offset
  size := UInt64.ofNat entry.size

/-- The headers of the sections of exactly this name, in table order. -/
def named (name : String) (sections : List Section) : List Header :=
  (sections.filter fun entry => entry.name = nameBytes name).map Section.header

def lastNamed (name : String) (sections : List Section) : Header :=
  (named name sections).getLastD {}

/-- What a table says. -/
def encoded (sections : List Section) : Parsed where
  common :=
    { text := named ".text" sections
      data := named ".data" sections
      readOnly := named ".rodata" sections
      bss := named ".bss" sections }
  extra :=
    { symtab := lastNamed ".symtab" sections
      dynsym := lastNamed ".dynsym" sections
      strtab := lastNamed ".strtab" sections
      dynstr := lastNamed ".dynstr" sections
      plt := lastNamed ".plt" sections
      got := lastNamed ".got" sections
      rel := {}
      ehFrame := lastNamed ".eh_frame" sections }

section Handling

def appended (name : String) (sectionName : List UInt8) (header : Header)
    (headers : List Header) : List Header :=
  headers ++ if sectionName = nameBytes name then [header] else []

def assigned (name : String) (sectionName : List UInt8) (header before : Header) : Header :=
  if sectionName = nameBytes name then header else before

/-- The handlers, field by field: each field looks at its own name only. -/
theorem handle_eq (sectionName : List UInt8) (header : Header) (parsed : Parsed) :
    handle sectionName header parsed =
      { common :=
          { text := appended ".text" sectionName header parsed.common.text
            data := appended ".data" sectionName header parsed.common.data
            readOnly := appended ".rodata" sectionName header parsed.common.readOnly
            bss := appended ".bss" sectionName header parsed.common.bss }
        extra :=
          { symtab := assigned ".symtab" sectionName header parsed.extra.symtab
            dynsym := assigned ".dynsym" sectionName header parsed.extra.dynsym
            strtab := assigned ".strtab" sectionName header parsed.extra.strtab
            dynstr := assigned ".dynstr" sectionName header parsed.extra.dynstr
            plt := assigned ".plt" sectionName header parsed.extra.plt
            got := assigned ".got" sectionName header parsed.extra.got
            rel := parsed.extra.rel
            ehFrame := assigned ".eh_frame" sectionName header parsed.extra.ehFrame } } := by
  by_cases hknown : ∃ handler ∈ sectionHandlers, sectionName = nameBytes handler.1
  · obtain ⟨handler, hmem, rfl⟩ := hknown
    simp only [sectionHandlers, List.mem_cons, List.not_mem_nil, or_false] at hmem
    rcases hmem with rfl | rfl | rfl | rfl | rfl | rfl | rfl | rfl | rfl | rfl | rfl
    all_goals simp +decide [handle, sectionHandlers, appended, assigned, appendText, appendData,
      appendReadOnly, appendBss]
  · have hnone : sectionHandlers.find?
        (fun handler => nameBytes handler.1 = sectionName) = none := by
      rw [List.find?_eq_none]
      intro handler hmem hname
      exact hknown ⟨handler, hmem, (of_decide_eq_true hname).symm⟩
    rw [handle, hnone]
    simp only [sectionHandlers, List.mem_cons, List.not_mem_nil, or_false, exists_eq_or_imp,
      exists_eq_left, not_or] at hknown
    simp [appended, assigned, hknown]

theorem named_append (name : String) (sections : List Section) (entry : Section) :
    named name (sections ++ [entry]) =
      appended name entry.name entry.header (named name sections) := by
  by_cases hname : entry.name = nameBytes name
  · simp [named, appended, hname]
  · simp [named, appended, hname]

theorem lastNamed_append (name : String) (sections : List Section) (entry : Section) :
    lastNamed name (sections ++ [entry]) =
      assigned name entry.name entry.header (lastNamed name sections) := by
  rw [lastNamed, named_append, appended, assigned, lastNamed]
  split
  · simp
  · rw [List.append_nil]

theorem encoded_append (sections : List Section) (entry : Section) :
    encoded (sections ++ [entry]) = handle entry.name entry.header (encoded sections) := by
  simp only [encoded, handle_eq, named_append, lastNamed_append]

/-- Handling a table entry by entry gives what it encodes. -/
theorem foldl_handle (sections : List Section) :
    sections.foldl (fun parsed entry => handle entry.name entry.header parsed) {} =
      encoded sections := by
  induction sections using List.reverseRecOn with
  | nil => rfl
  | append_singleton sections entry ih =>
      rw [List.foldl_append, ih, encoded_append]
      rfl

end Handling

section Reading

variable {contents : AddressSpace}

theorem nameBody_exit {address : UInt64} {state : NameLoop}
    (h : contents.readU8 (address + state.i) = .ok 0) :
    nameBody contents address state = .ok (.inr state.sectionName) := by
  rw [nameBody, h]
  rfl

theorem nameBody_next {address : UInt64} {state : NameLoop} {nameChar : UInt8}
    (h : contents.readU8 (address + state.i) = .ok nameChar) (hne : nameChar ≠ 0) :
    nameBody contents address state =
      .ok (.inl { i := state.i + 1, sectionName := state.sectionName ++ [nameChar] }) := by
  rw [nameBody, h]
  exact if_neg hne

theorem readName_from {position i : Nat} {rest before : List UInt8}
    (h : Holds contents (position + i) (rest ++ [0])) (hnul : 0 ∉ rest) :
    Loops.result (nameVariant contents (UInt64.ofNat position))
      { i := UInt64.ofNat i, sectionName := before } = .ok (before ++ rest) := by
  induction rest generalizing i before with
  | nil =>
      have hread := readU8_field h
      rw [UInt64.ofNat_add] at hread
      rw [List.append_nil]
      exact Loops.result_of_exit _ (nameBody_exit hread)
  | cons nameChar rest ih =>
      replace h : Holds contents (position + i) ([nameChar] ++ (rest ++ [0])) := h
      have hread := readU8_field h.left
      rw [UInt64.ofNat_add] at hread
      have hne : nameChar ≠ 0 := fun hzero => hnul (hzero ▸ List.mem_cons_self)
      have hbody : nameBody contents (UInt64.ofNat position)
          { i := UInt64.ofNat i, sectionName := before } =
          .ok (.inl { i := UInt64.ofNat i + 1, sectionName := before ++ [nameChar] }) :=
        nameBody_next hread hne
      rw [Loops.result_of_next _ hbody]
      have hnext := @ih (i + 1) (before ++ [nameChar]) h.right
        (fun hmem => hnul (List.mem_cons_of_mem _ hmem))
      rw [UInt64.ofNat_add, List.append_assoc] at hnext
      exact hnext

/-- A name is read up to its NUL. -/
theorem readName_of_holds {position : Nat} {name : List UInt8}
    (h : Holds contents position (name ++ [0])) (hnul : 0 ∉ name) :
    readName contents (UInt64.ofNat position) = .ok name :=
  @readName_from contents position 0 name [] h hnul

/-- The fields of a reader are where the class has them. -/
structure ReadsClass (word : Nat) (fields : EntryFields) : Prop where
  vaddr_eq : fields.vaddr = UInt64.ofNat (8 + word)
  offset_eq : fields.offset = UInt64.ofNat (8 + 2 * word)
  size_eq : fields.size = UInt64.ofNat (8 + 3 * word)
  word_pos : 0 < word
  readWord_eq : ∀ contents position value, Holds contents position (FileFields.encode word value) →
    value < 256 ^ word →
    fields.readWord contents (UInt64.ofNat position) = .ok (UInt64.ofNat value)

theorem toUInt64_ofNat32 {value : Nat} (h : value < 256 ^ 4) :
    (UInt32.ofNat value).toUInt64 = UInt64.ofNat value := by
  apply UInt64.toNat_inj.mp
  simp only [UInt32.toNat_toUInt64, UInt32.toNat_ofNat', UInt64.toNat_ofNat']
  omega

theorem toUInt64_ofNat16 {value : Nat} (h : value < 256 ^ 2) :
    (UInt16.ofNat value).toUInt64 = UInt64.ofNat value := by
  apply UInt64.toNat_inj.mp
  simp only [UInt16.toNat_toUInt64, UInt16.toNat_ofNat', UInt64.toNat_ofNat']
  omega

theorem readWord32_field {position value : Nat}
    (h : Holds contents position (FileFields.encode 4 value)) (hvalue : value < 256 ^ 4) :
    readWord32 contents (UInt64.ofNat position) = .ok (UInt64.ofNat value) := by
  rw [readWord32, readU32_field h hvalue, Except.map, toUInt64_ofNat32 hvalue]

theorem readsClass32 : ReadsClass 4 entryFields32 :=
  ⟨rfl, rfl, rfl, by decide, fun _ _ _ => readWord32_field⟩

theorem readsClass64 : ReadsClass 8 entryFields64 :=
  ⟨rfl, rfl, rfl, by decide, fun _ _ _ => readU64_field⟩

end Reading

section Tables

variable {word : Nat} {fields : EntryFields} {contents : AddressSpace} {sections : List Section}

def Layout.tableHeader (layout : Layout word contents sections) : TableHeader where
  sectionTableOffset := UInt64.ofNat layout.header.shoff
  sectionEntrySize := UInt64.ofNat layout.header.shentsize
  sectionCount := UInt16.ofNat layout.header.shnum
  namesSectionIndex := UInt64.ofNat layout.header.shstrndx

def Layout.namesOffset (layout : Layout word contents sections) : Nat :=
  (sections.get layout.namesIndex).offset

theorem Layout.index_lt (layout : Layout word contents sections) (i : Fin sections.length) :
    i.val < 256 ^ 2 :=
  i.isLt.trans (layout.shnum_eq ▸ layout.shnum_lt)

theorem Layout.entryAddress_eq (layout : Layout word contents sections)
    (i : Fin sections.length) :
    entryAddress layout.tableHeader (UInt16.ofNat i) =
      UInt64.ofNat (layout.header.shoff + layout.header.shentsize * i) := by
  rw [entryAddress, toUInt64_ofNat16 (layout.index_lt i), UInt64.ofNat_add, UInt64.ofNat_mul]
  rfl

/-- The four fields of an entry that are read, each at its own position. -/
theorem Layout.entry_fields (layout : Layout word contents sections)
    (i : Fin sections.length) :
    Holds contents (layout.header.shoff + layout.header.shentsize * i)
        (FileFields.encode 4 (layout.nameOffset i)) ∧
      Holds contents (layout.header.shoff + layout.header.shentsize * i + (8 + word))
        (FileFields.encode word (sections.get i).addr) ∧
      Holds contents (layout.header.shoff + layout.header.shentsize * i + (8 + 2 * word))
        (FileFields.encode word (sections.get i).offset) ∧
      Holds contents (layout.header.shoff + layout.header.shentsize * i + (8 + 3 * word))
        (FileFields.encode word (sections.get i).size) := by
  have hentry := layout.entry_holds i
  rw [Section.encode] at hentry
  have haddr := hentry.right.right.right
  have hoffset := haddr.right
  have hsize := hoffset.right
  simp only [length_encode] at haddr hoffset hsize
  refine ⟨hentry.left, ?_, ?_, ?_⟩
  · convert haddr.left using 1
    omega
  · convert hoffset.left using 1
    omega
  · convert hsize.left using 1
    omega

theorem Layout.readEntry_eq (layout : Layout word contents sections)
    (hclass : ReadsClass word fields) (i : Fin sections.length) (parsed : Parsed) :
    readEntry fields layout.tableHeader contents (UInt64.ofNat layout.namesOffset)
        (UInt16.ofNat i) parsed =
      .ok (handle (sections.get i).name (sections.get i).header parsed) := by
  obtain ⟨hname, haddr, hoffset, hsize⟩ := layout.entry_fields i
  have hfits := layout.fits i
  have hread := readName_of_holds (layout.name_holds i) hfits.nul_free
  rw [readEntry, layout.entryAddress_eq, hclass.offset_eq, hclass.size_eq, hclass.vaddr_eq,
    ← UInt64.ofNat_add, ← UInt64.ofNat_add, ← UInt64.ofNat_add,
    readU32_field hname (layout.nameOffset_lt i),
    hclass.readWord_eq _ _ _ hoffset hfits.offset_lt,
    hclass.readWord_eq _ _ _ hsize hfits.size_lt, hclass.readWord_eq _ _ _ haddr hfits.addr_lt]
  simp only [bind, Except.bind, toUInt64_ofNat32 (layout.nameOffset_lt i), ← UInt64.ofNat_add]
  rw [Layout.namesOffset, hread]
  rfl

theorem Layout.readTable_from (layout : Layout word contents sections)
    (hclass : ReadsClass word fields) (remaining : List Section) (i : Nat) (parsed : Parsed)
    (hdrop : sections.drop i = remaining) (hi : i ≤ sections.length) :
    Loops.result
        (sectionVariant fields layout.tableHeader contents (UInt64.ofNat layout.namesOffset))
        { sectionIndex := UInt16.ofNat i, parsed := parsed } =
      .ok (remaining.foldl (fun parsed entry => handle entry.name entry.header parsed) parsed) := by
  have hcount : layout.tableHeader.sectionCount.toNat = sections.length := by
    rw [Layout.tableHeader, UInt16.toNat_ofNat_of_lt' layout.shnum_lt, layout.shnum_eq]
  have hindex : (UInt16.ofNat i).toNat = i := by
    apply UInt16.toNat_ofNat_of_lt'
    exact lt_of_le_of_lt (layout.shnum_eq ▸ hi) layout.shnum_lt
  induction remaining generalizing i parsed with
  | nil =>
      have hend : ¬ UInt16.ofNat i < layout.tableHeader.sectionCount := by
        rw [UInt16.lt_iff_toNat_lt, hcount, hindex]
        exact Nat.not_lt.mpr (List.drop_eq_nil_iff.mp hdrop)
      apply Loops.result_of_exit
      rw [sectionBody, if_neg hend]
      rfl
  | cons entry remaining ih =>
      have hlt : i < sections.length := by
        by_contra hge
        rw [List.drop_eq_nil_of_le (Nat.le_of_not_lt hge)] at hdrop
        contradiction
      have hbelow : UInt16.ofNat i < layout.tableHeader.sectionCount := by
        rw [UInt16.lt_iff_toNat_lt, hcount, hindex]
        exact hlt
      rw [List.drop_eq_getElem_cons hlt] at hdrop
      obtain ⟨rfl, hrest⟩ := List.cons.inj hdrop
      have hbody : sectionBody fields layout.tableHeader contents
          (UInt64.ofNat layout.namesOffset) { sectionIndex := UInt16.ofNat i, parsed := parsed } =
          .ok (.inl { sectionIndex := UInt16.ofNat (i + 1)
                      parsed := handle sections[i].name sections[i].header parsed }) := by
        rw [sectionBody, if_pos hbelow, layout.readEntry_eq hclass ⟨i, hlt⟩, UInt16.ofNat_add]
        rfl
      rw [Loops.result_of_next _ hbody]
      apply ih (i + 1) _ hrest hlt
      apply UInt16.toNat_ofNat_of_lt'
      exact lt_of_le_of_lt (layout.shnum_eq ▸ hlt) layout.shnum_lt

theorem Layout.readTable_eq (layout : Layout word contents sections)
    (hclass : ReadsClass word fields) :
    readTable fields layout.tableHeader contents {} = .ok (encoded sections) := by
  obtain ⟨-, -, hoffset, -⟩ := layout.entry_fields layout.namesIndex
  have hfits := layout.fits layout.namesIndex
  have hentry : layout.tableHeader.sectionTableOffset +
      layout.tableHeader.namesSectionIndex * layout.tableHeader.sectionEntrySize =
      UInt64.ofNat (layout.header.shoff + layout.header.shentsize * layout.namesIndex) := by
    simp only [Layout.tableHeader, layout.shstrndx_eq, UInt64.ofNat_add, UInt64.ofNat_mul]
    rw [UInt64.mul_comm]
  rw [readTable, hentry, hclass.offset_eq, ← UInt64.ofNat_add,
    hclass.readWord_eq _ _ _ hoffset hfits.offset_lt, ← foldl_handle]
  exact layout.readTable_from hclass sections 0 {} rfl (Nat.zero_le _)

/-- The fields of the file header that are read. -/
structure FileHeader.FieldsAt (word : Nat) (contents : AddressSpace) (header : FileHeader) :
    Prop where
  ident : Holds contents 0 header.ident.toList
  machine : Holds contents 18 (FileFields.encode 2 header.machine)
  entry : Holds contents 24 (FileFields.encode word header.entry)
  shoff : Holds contents (24 + 2 * word) (FileFields.encode word header.shoff)
  shentsize : Holds contents (34 + 3 * word) (FileFields.encode 2 header.shentsize)
  shnum : Holds contents (36 + 3 * word) (FileFields.encode 2 header.shnum)
  shstrndx : Holds contents (38 + 3 * word) (FileFields.encode 2 header.shstrndx)

theorem FileHeader.fieldsAt {header : FileHeader} (h : Holds contents 0 (header.encode word)) :
    header.FieldsAt word contents := by
  rw [FileHeader.encode] at h
  have hmachine := h.right.right
  have hentry := hmachine.right.right
  have hshoff := hentry.right.right
  have hshentsize := hshoff.right.right.right.right.right
  have hshnum := hshentsize.right
  have hshstrndx := hshnum.right
  simp only [length_encode, Vector.length_toList] at hmachine hentry hshoff hshentsize
  simp only [length_encode, Vector.length_toList] at hshnum hshstrndx
  refine ⟨h.left, hmachine.left, hentry.left, ?_, ?_, ?_, ?_⟩
  · convert hshoff.left using 1
    omega
  · convert hshentsize.left using 1
    omega
  · convert hshnum.left using 1
    omega
  · convert hshstrndx using 1
    omega

theorem Layout.fieldsAt (layout : Layout word contents sections) :
    layout.header.FieldsAt word contents :=
  FileHeader.fieldsAt layout.header_holds

theorem Layout.shstrndx_lt (layout : Layout word contents sections) :
    layout.header.shstrndx < 256 ^ 2 := by
  rw [layout.shstrndx_eq]
  exact layout.index_lt layout.namesIndex

theorem readHeader32_eq (layout : Layout 4 contents sections) :
    readHeader32 contents = .ok layout.tableHeader := by
  obtain ⟨-, -, -, hshoff, hshentsize, hshnum, hshstrndx⟩ := layout.fieldsAt
  have hoffset := readWord32_field hshoff layout.shoff_lt
  have hentrySize := readU16_field hshentsize layout.shentsize_lt
  have hcount := readU16_field hshnum layout.shnum_lt
  have hnames := readU16_field hshstrndx layout.shstrndx_lt
  change readWord32 contents 0x20 = _ at hoffset
  change contents.readU16 0x2e = _ at hentrySize
  change contents.readU16 0x30 = _ at hcount
  change contents.readU16 0x32 = _ at hnames
  rw [readHeader32, hoffset, hentrySize, hcount, hnames]
  simp only [bind, Except.bind, toUInt64_ofNat16 layout.shentsize_lt,
    toUInt64_ofNat16 layout.shstrndx_lt]
  rfl

theorem readHeader64_eq (layout : Layout 8 contents sections) :
    readHeader64 contents = .ok layout.tableHeader := by
  obtain ⟨-, -, -, hshoff, hshentsize, hshnum, hshstrndx⟩ := layout.fieldsAt
  have hoffset := readU64_field hshoff layout.shoff_lt
  have hentrySize := readU16_field hshentsize layout.shentsize_lt
  have hcount := readU16_field hshnum layout.shnum_lt
  have hnames := readU16_field hshstrndx layout.shstrndx_lt
  change contents.readU64 0x28 = _ at hoffset
  change contents.readU16 0x3A = _ at hentrySize
  change contents.readU16 0x3C = _ at hcount
  change contents.readU16 0x3E = _ at hnames
  rw [readHeader64, hoffset, hentrySize, hcount, hnames]
  simp only [bind, Except.bind, toUInt64_ofNat16 layout.shentsize_lt,
    toUInt64_ofNat16 layout.shstrndx_lt]
  rfl

theorem parseSections32_eq (layout : Layout 4 contents sections) :
    parseSections32 {} contents = .ok (encoded sections) := by
  rw [parseSections32, readHeader32_eq layout]
  exact layout.readTable_eq readsClass32

theorem parseSections64_eq (layout : Layout 8 contents sections) :
    parseSections64 {} contents = .ok (encoded sections) := by
  -- A table with a names section is not the stripped one.
  have hcount : layout.tableHeader.sectionCount ≠ 0 := by
    intro hzero
    have hpos := layout.namesIndex.isLt
    have htoNat : layout.tableHeader.sectionCount.toNat = sections.length := by
      rw [Layout.tableHeader, UInt16.toNat_ofNat_of_lt' layout.shnum_lt, layout.shnum_eq]
    rw [hzero] at htoNat
    change 0 = _ at htoNat
    omega
  rw [parseSections64, readHeader64_eq layout]
  simp only [bind, Except.bind]
  rw [if_neg (fun h => hcount h.2)]
  exact layout.readTable_eq readsClass64

end Tables

end Voidwalk.ElfLayout

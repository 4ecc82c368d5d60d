import Voidwalk.SweepProgress
import Voidwalk.SweepTiling

/-!
Where a section ends and where its last row ends. The sweep knows the section's end,
the decoder only the file's.
-/

namespace Voidwalk.SectionBounds

open Relation (ReflTransGen)
open Voidwalk.MappedFile
open Voidwalk.ChunkStorage
open Voidwalk.InstructionRendering
open Voidwalk.Disassembly
open Voidwalk.SectionListing
open Voidwalk.SweepRefinement
open Voidwalk.SweepProgress
open Voidwalk.SweepTiling

/-- From `currentOffset` on the bytes divide into instructions of which one ends
exactly where the section does, unless the file ends within one before that. -/
inductive EndsEvenly (contents : AddressSpace) (arch : Arch) (sectionEnd : UInt64) :
    UInt64 → UInt64 → Prop where
  | atEnd {vaddr : UInt64} : EndsEvenly contents arch sectionEnd sectionEnd vaddr
  | fileEnds {currentOffset vaddr : UInt64} (hlt : currentOffset < sectionEnd)
      (h : instructionAt contents arch currentOffset vaddr = none) :
      EndsEvenly contents arch sectionEnd currentOffset vaddr
  | instruction {currentOffset vaddr nextOffset : UInt64} {found : Instruction}
      (hlt : currentOffset < sectionEnd)
      (h : instructionAt contents arch currentOffset vaddr = some (nextOffset, found))
      (hrest : EndsEvenly contents arch sectionEnd nextOffset
        (vaddr + (nextOffset - currentOffset))) :
      EndsEvenly contents arch sectionEnd currentOffset vaddr

def EndsOnInstruction (contents : AddressSpace) (arch : Arch) (textSection : Header) : Prop :=
  EndsEvenly contents arch (textSection.offset + textSection.size) textSection.offset
    textSection.vaddr

/-- The rows of a section show bytes of the file that lie in it. -/
structure ShowsInside (contents : AddressSpace) (textSection : Header) (run : List Row) :
    Prop where
  tiles : Tiles contents textSection run
  ends_inside : ∀ j (h : j < run.length),
    byteLength (run.take j) + (run.get ⟨j, h⟩).byteLength ≤ textSection.size.toNat

/-- The first rows of a listing, parted where the sweep goes on to another section. -/
def sectionRuns (contents : AddressSpace) (arch : Arch) : List Header → Nat → List (List Row)
  | [], _ => []
  | textSection :: later, count =>
      (sectionRows contents arch textSection).take count ::
        sectionRuns contents arch later
          (count - (sectionRows contents arch textSection).length)

/-- Every row in the stores at this moment lies in the section it was decoded for. -/
structure RowsInside (moment : Sweep) : Prop where
  rows_eq : rows moment.disassembler =
    (sectionRuns moment.disassembler.contents moment.disassembler.arch
      moment.disassembler.commonSections.text (rows moment.disassembler).length).flatten
  inside : List.Forall₂ (ShowsInside moment.disassembler.contents)
    moment.disassembler.commonSections.text
    (sectionRuns moment.disassembler.contents moment.disassembler.arch
      moment.disassembler.commonSections.text (rows moment.disassembler).length)

section Sections

variable {contents : AddressSpace} {arch : Arch} {textSection : Header}

theorem flatten_sectionRuns (contents : AddressSpace) (arch : Arch) (text : List Header)
    (count : Nat) :
    (sectionRuns contents arch text count).flatten = (listing contents arch text).take count := by
  induction text generalizing count with
  | nil => simp [sectionRuns, listing]
  | cons textSection text ih =>
      have happend : listing contents arch (textSection :: text) =
          sectionRows contents arch textSection ++ listing contents arch text := rfl
      rw [sectionRuns, List.flatten_cons, ih, happend, List.take_append]

theorem byteLength_append (run later : List Row) :
    byteLength (run ++ later) = byteLength run + byteLength later := by
  simp [byteLength]

theorem byteLength_take_succ {run : List Row} {j : Nat} (h : j < run.length) :
    byteLength (run.take (j + 1)) = byteLength (run.take j) + (run.get ⟨j, h⟩).byteLength := by
  rw [List.take_succ_eq_append_getElem h, byteLength_append, byteLength_cons]
  rfl

theorem byteLength_take_le (run : List Row) (count : Nat) :
    byteLength (run.take count) ≤ byteLength run := by
  conv_rhs => rw [← List.take_append_drop count run, byteLength_append]
  exact Nat.le_add_right _ _

theorem ends_inside_iff (run : List Row) (bound : Nat) :
    (∀ j (h : j < run.length),
      byteLength (run.take j) + (run.get ⟨j, h⟩).byteLength ≤ bound) ↔
      byteLength run ≤ bound := by
  constructor
  · intro h
    cases hlength : run.length with
    | zero => simp [List.eq_nil_of_length_eq_zero hlength, byteLength]
    | succ last =>
        have hlast := h last (by omega)
        rw [← byteLength_take_succ, ← hlength, List.take_length] at hlast
        exact hlast
  · intro h j hj
    rw [← byteLength_take_succ]
    exact (byteLength_take_le run (j + 1)).trans h

/-- The end that the sweep computes is where the section ends: the sum does not wrap. -/
theorem toNat_sectionEnd (hfits : textSection.offset.toNat + textSection.size.toNat < 2 ^ 64) :
    (textSection.offset + textSection.size).toNat =
      textSection.offset.toNat + textSection.size.toNat := by
  rw [UInt64.toNat_add, Nat.mod_eq_of_lt hfits]

theorem not_endsEvenly_of_lt {sectionEnd currentOffset vaddr : UInt64}
    (hlt : sectionEnd < currentOffset) :
    ¬ EndsEvenly contents arch sectionEnd currentOffset vaddr := by
  rw [UInt64.lt_iff_toNat_lt] at hlt
  intro h
  cases h with
  | atEnd => omega
  | fileEnds hlt' | instruction hlt' =>
      rw [UInt64.lt_iff_toNat_lt] at hlt'
      omega

theorem rowsFrom_inside_iff (sectionEnd currentOffset vaddr : UInt64) :
    currentOffset.toNat + byteLength (rowsFrom contents arch sectionEnd currentOffset vaddr) ≤
        sectionEnd.toNat ↔
      EndsEvenly contents arch sectionEnd currentOffset vaddr := by
  fun_induction rowsFrom contents arch sectionEnd currentOffset vaddr with
  | case1 currentOffset vaddr hlt hnone =>
      refine iff_of_true ?_ (.fileEnds hlt hnone)
      rw [UInt64.lt_iff_toNat_lt] at hlt
      simpa [byteLength] using hlt.le
  | case2 currentOffset vaddr hlt nextOffset found hfound ih =>
      obtain ⟨n, rfl, hoccupies⟩ := occupies_of_instructionAt hfound
      rw [byteLength_cons, hoccupies.byteLength, ← Nat.add_assoc, ← hoccupies.toNat_next, ih]
      constructor
      · exact .instruction hlt hfound
      · intro h
        cases h with
        | atEnd => exact absurd hlt (UInt64.lt_irrefl _)
        | fileEnds _ hnone => rw [hnone] at hfound; contradiction
        | instruction _ hfound' hrest =>
            obtain ⟨rfl, -⟩ := Prod.mk.inj (Option.some.inj (hfound.symm.trans hfound'))
            exact hrest
  | case3 currentOffset vaddr hnot =>
      rw [UInt64.not_lt, UInt64.le_iff_toNat_le] at hnot
      simp only [byteLength, List.map_nil, List.sum_nil, Nat.add_zero]
      constructor
      · intro hle
        obtain rfl : currentOffset = sectionEnd := UInt64.toNat_inj.mp (Nat.le_antisymm hle hnot)
        exact .atEnd
      · intro h
        by_contra hgt
        exact not_endsEvenly_of_lt (UInt64.lt_iff_toNat_lt.mpr (Nat.lt_of_not_le hgt)) h

/-- All rows of a section lie in it exactly when an instruction ends where it does. -/
theorem showsInside_iff
    (hfits : textSection.offset.toNat + textSection.size.toNat < 2 ^ 64) :
    ShowsInside contents textSection (sectionRows contents arch textSection) ↔
      EndsOnInstruction contents arch textSection := by
  rw [EndsOnInstruction, ← rowsFrom_inside_iff, toNat_sectionEnd hfits, Nat.add_le_add_iff_left]
  constructor
  · exact fun h => (ends_inside_iff _ _).mp h.ends_inside
  · exact fun h => ⟨(sectionRows_tilesFrom contents arch textSection).tiles,
      (ends_inside_iff _ _).mpr h⟩

end Sections

section Runs

variable {disassembler : Disassembler} {stopRequested : Bool} {point : Point}
  {contents : AddressSpace} {arch : Arch}

/-- The rows that are in both stores, the last address being there or not. -/
theorem rows_take (h : Sound disassembler stopRequested point) :
    rows disassembler =
      (listed disassembler).take disassembler.instructionAddresses.size := by
  have hle := h.counts.2
  rw [rows, h.instructions, h.addresses, List.zipWith_map]
  apply List.ext_getElem?
  intro i
  simp only [List.getElem?_zipWith, List.getElem?_take]
  by_cases hi : i < disassembler.instructionAddresses.size
  · rw [if_pos hi, if_pos (hi.trans_le hle)]
    cases (listed disassembler)[i]? <;> rfl
  · rw [if_neg hi]

theorem ShowsInside.take {textSection : Header} {run : List Row}
    (h : ShowsInside contents textSection run) (count : Nat) :
    ShowsInside contents textSection (run.take count) := by
  refine ⟨?_, (ends_inside_iff _ _).mpr
    ((byteLength_take_le run count).trans ((ends_inside_iff _ _).mp h.ends_inside))⟩
  intro j hj
  have hlt : j < run.length := hj.trans_le (List.length_take_le' _ _)
  have hshows := h.tiles j hlt
  rw [List.length_take] at hj
  rw [List.take_take, Nat.min_eq_left (by omega)]
  simpa using hshows

theorem sectionRuns_inside {text : List Header}
    (h : ∀ textSection ∈ text,
      ShowsInside contents textSection (sectionRows contents arch textSection)) (count : Nat) :
    List.Forall₂ (ShowsInside contents) text (sectionRuns contents arch text count) := by
  induction text generalizing count with
  | nil => exact .nil
  | cons textSection text ih =>
      rw [List.forall_mem_cons] at h
      exact .cons (h.1.take count) (ih h.2 _)

/-- Of the whole listing, each section has all its rows. -/
theorem sectionRuns_length (contents : AddressSpace) (arch : Arch) (text : List Header) :
    sectionRuns contents arch text (listing contents arch text).length =
      text.map (sectionRows contents arch) := by
  induction text with
  | nil => rfl
  | cons textSection text ih =>
      have happend : listing contents arch (textSection :: text) =
          sectionRows contents arch textSection ++ listing contents arch text := rfl
      rw [sectionRuns, happend, List.length_append, List.take_of_length_le (Nat.le_add_right _ _),
        Nat.add_sub_cancel_left, ih, List.map_cons]

theorem rowsInside_of_sound {moment : Sweep}
    (h : Sound moment.disassembler moment.stopRequested moment.point)
    (hinside : ∀ textSection ∈ moment.disassembler.commonSections.text,
      ShowsInside moment.disassembler.contents textSection
        (sectionRows moment.disassembler.contents moment.disassembler.arch textSection)) :
    RowsInside moment where
  rows_eq := by
    rw [flatten_sectionRuns, rows_take h, List.length_take]
    change _ = (listed moment.disassembler).take _
    rw [← List.take_eq_take_min]
  inside := sectionRuns_inside hinside _

/-- An undisturbed call lists every section whole, also with a decoder that is a stub. -/
theorem exists_whole_listing (contents : AddressSpace) (arch : Arch)
    (commonSections : Sections) (entryAddress : UInt64) (outputStreams : List String) :
    ∃ moment, ReflTransGen SweepStep
        (.start (.construct contents arch commonSections entryAddress outputStreams)) moment ∧
      rows moment.disassembler = listing contents arch commonSections.text := by
  have hstart := sound_construct contents arch commonSections entryAddress outputStreams false
  by_cases hx86 : ∃ is64Bit, makeDecoder arch = some (.x86Decoder is64Bit)
  · obtain ⟨is64Bit, harch⟩ := hx86
    obtain ⟨n, -, hinstructions, haddresses⟩ := @proceed_lists _ is64Bit harch hstart
    refine ⟨_, Sweep.proceed_run n _, ?_⟩
    rw [rows, hinstructions, haddresses, List.zipWith_map]
    exact List.zipWith_self ▸ List.map_id _
  · refine ⟨_, .refl, ?_⟩
    have hnone : listing contents arch commonSections.text = [] := by
      rw [listing, List.flatMap_eq_nil_iff]
      intro textSection _
      exact rowsFrom_of_none
        (instructionAt_of_not_x86 (fun mode harch => hx86 ⟨mode, harch⟩) _ _)
    rw [hnone]
    rfl

/-- Over all runs the sweep keeps to its sections exactly when each of them ends where
one of its instructions does. -/
theorem rows_inside_iff (contents : AddressSpace) (arch : Arch) (commonSections : Sections)
    (entryAddress : UInt64) (outputStreams : List String)
    (hfits : ∀ textSection ∈ commonSections.text,
      textSection.offset.toNat + textSection.size.toNat < 2 ^ 64) :
    (∀ moment, ReflTransGen SweepStep
        (.start (.construct contents arch commonSections entryAddress outputStreams)) moment →
      RowsInside moment) ↔
      ∀ textSection ∈ commonSections.text, EndsOnInstruction contents arch textSection := by
  have hstart := sound_construct contents arch commonSections entryAddress outputStreams false
  constructor
  · intro hall textSection hmem
    obtain ⟨moment, hrun, hrows⟩ :=
      exists_whole_listing contents arch commonSections entryAddress outputStreams
    obtain ⟨-, hgrows⟩ := sound_run hstart hrun
    have hinside := (hall moment hrun).inside
    rw [hrows, hgrows.contents, hgrows.arch, hgrows.sections] at hinside
    change List.Forall₂ (ShowsInside contents) commonSections.text
      (sectionRuns contents arch commonSections.text
        (listing contents arch commonSections.text).length) at hinside
    rw [sectionRuns_length, List.forall₂_map_right_iff, List.forall₂_same] at hinside
    exact (showsInside_iff (hfits textSection hmem)).mp (hinside textSection hmem)
  · intro hends moment hrun
    obtain ⟨hsound, hgrows⟩ := sound_run hstart hrun
    apply rowsInside_of_sound hsound
    rw [hgrows.contents, hgrows.arch, hgrows.sections]
    intro textSection hmem
    exact (showsInside_iff (hfits textSection hmem)).mpr (hends textSection hmem)

end Runs

theorem EndsEvenly.instruction_of_map {contents : AddressSpace} {arch : Arch}
    {sectionEnd currentOffset vaddr : UInt64} (nextOffset : UInt64)
    (hlt : currentOffset < sectionEnd)
    (h : (instructionAt contents arch currentOffset vaddr).map Prod.fst = some nextOffset)
    (hrest : EndsEvenly contents arch sectionEnd nextOffset
      (vaddr + (nextOffset - currentOffset))) :
    EndsEvenly contents arch sectionEnd currentOffset vaddr := by
  obtain ⟨⟨_, found⟩, hfound, rfl⟩ := Option.map_eq_some_iff.mp h
  exact .instruction hlt hfound hrest

theorem rows_inside_iff_twoSections :
    RowsInside ((Sweep.start twoSections).proceed 33) := by
  refine (rows_inside_iff _ _ _ _ _ ?_).mpr ?_ _ (Sweep.proceed_run 33 (.start twoSections))
  · decide
  · refine List.forall_mem_cons.mpr ⟨?_, List.forall_mem_singleton.mpr ?_⟩
    · refine .instruction_of_map 1 (by decide) (by decide +kernel) ?_
      exact .instruction_of_map 3 (by decide) (by decide +kernel) .atEnd
    · refine .instruction_of_map 5 (by decide) (by decide +kernel) ?_
      exact .instruction_of_map 6 (by decide) (by decide +kernel) .atEnd

theorem length_cutCall : [(0xE8 : UInt8), 0, 0, 0, 0].length < 2 ^ 64 := by decide

/-- A section of one byte that a CALL of five begins in. -/
def cutCall : Disassembler :=
  .construct ⟨[0xE8, 0, 0, 0, 0], length_cutCall⟩ .x86_64 { text := [⟨0x1000, 0, 1⟩] } 0x1000 []

theorem cutCall_outside :
    ∃ moment, ReflTransGen SweepStep (.start cutCall) moment ∧ ¬ RowsInside moment := by
  refine ⟨_, Sweep.proceed_run 16 (.start cutCall), ?_⟩
  rintro ⟨hrows, hinside⟩
  have htext : ((Sweep.start cutCall).proceed 16).disassembler.commonSections.text =
      [⟨0x1000, 0, 1⟩] := by decide +kernel
  have hbytes : byteLength (rows ((Sweep.start cutCall).proceed 16).disassembler) = 5 := by
    decide +kernel
  rw [hrows] at hbytes
  generalize sectionRuns _ _ _ _ = runs at hinside hbytes
  rw [htext] at hinside
  cases hinside with
  | cons hshows hnil =>
      cases hnil
      have hle := (ends_inside_iff _ _).mp hshows.ends_inside
      rw [List.flatten_cons, List.flatten_nil, List.append_nil] at hbytes
      rw [hbytes] at hle
      exact absurd hle (by decide)

end Voidwalk.SectionBounds

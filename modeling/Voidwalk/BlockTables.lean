import Mathlib.Algebra.Order.BigOperators.Group.List
import Mathlib.Algebra.Order.Group.Nat
import Voidwalk.SweepCompleteness

/-!
The block tables during a sweep. They are reserved from the sum of the section
sizes, which may wrap; a table that turns out too small is reallocated under its
readers.
-/

namespace Voidwalk.BlockTables

open Voidwalk.Library
open Voidwalk.MappedFile
open Voidwalk.ChunkStorage
open Voidwalk.InstructionRendering
open Voidwalk.Disassembly
open Voidwalk.SectionListing
open Voidwalk.SweepRefinement
open Voidwalk.SweepProgress
open Voidwalk.SweepCompleteness

def reservedBlocks (text : List Header) : Nat :=
  (totalTextSize text).toNat / 8192 + 1

def FindsRoom {T : Type} (reserved : Nat) (before after : ChunkStore T 8192) : Prop :=
  before.blocks.items.length < after.blocks.items.length →
    before.blocks.capacity = reserved ∧ before.blocks.items.length < reserved

/-- No step of a sweep makes a block table reallocate. -/
def NeverReallocates (disassembler : Disassembler) : Prop :=
  ∀ sweep later, Relation.ReflTransGen SweepStep (.start disassembler) sweep →
    SweepStep sweep later →
    FindsRoom (reservedBlocks disassembler.commonSections.text)
        sweep.disassembler.decodedInstructions later.disassembler.decodedInstructions ∧
      FindsRoom (reservedBlocks disassembler.commonSections.text)
        sweep.disassembler.instructionAddresses later.disassembler.instructionAddresses

def instructionCount (contents : AddressSpace) (arch : Arch) (text : List Header) : Nat :=
  (text.map fun textSection => (sectionRows contents arch textSection).length).sum

/-- The sum of the section sizes, without wrapping. -/
def claimedSize (text : List Header) : Nat :=
  (text.map fun textSection => textSection.size.toNat).sum

section Sizes

variable (contents : AddressSpace) (arch : Arch) (text : List Header)

theorem length_listing :
    (listing contents arch text).length = instructionCount contents arch text :=
  List.length_flatMap

theorem toNat_totalTextSize : (totalTextSize text).toNat = claimedSize text % 2 ^ 64 := by
  have hfold (total : UInt64) : (text.foldl (fun total textSection => total + textSection.size)
      total).toNat = (total.toNat + claimedSize text) % 2 ^ 64 := by
    induction text generalizing total with
    | nil => simp [claimedSize]
    | cons textSection text ih =>
        rw [List.foldl_cons, ih, UInt64.toNat_add]
        simp only [claimedSize, List.map_cons, List.sum_cons]
        omega
  simpa [totalTextSize] using hfold 0

theorem length_sectionRows_le (textSection : Header) :
    (sectionRows contents arch textSection).length ≤ textSection.size.toNat := by
  have htiles := sectionRows_tilesFrom contents arch textSection
  generalize sectionRows contents arch textSection = rows at htiles
  rcases Nat.eq_zero_or_pos rows.length with hnone | hpos
  · omega
  · have hlast := (htiles.showsBytes (rows.length - 1) (by omega)).starts_inside
    have hbytes := htiles.length_le_byteLength (rows.length - 1)
    rw [List.length_take] at hbytes
    omega

theorem length_sectionRows_pos {contents : AddressSpace} {arch : Arch} {textSection : Header}
    (hlt : textSection.offset < textSection.offset + textSection.size)
    (hfound : (instructionAt contents arch textSection.offset textSection.vaddr).isSome = true) :
    1 ≤ (sectionRows contents arch textSection).length := by
  obtain ⟨⟨nextOffset, instruction⟩, hsome⟩ := Option.isSome_iff_exists.mp hfound
  rw [sectionRows, rowsFrom_of_some hlt hsome]
  exact Nat.succ_le_succ (Nat.zero_le _)

theorem listing_of_not_x86 {contents : AddressSpace} {arch : Arch} {text : List Header}
    (harch : ∀ is64Bit, makeDecoder arch ≠ some (.x86Decoder is64Bit)) :
    listing contents arch text = [] := by
  refine List.flatMap_eq_nil_iff.mpr fun textSection _ => ?_
  exact rowsFrom_of_none (instructionAt_of_not_x86 harch _ _)

theorem instructionCount_le : instructionCount contents arch text ≤ claimedSize text :=
  List.sum_le_sum fun textSection _ => length_sectionRows_le contents arch textSection

/-- Sizes that do not wrap reserve enough. -/
theorem instructionCount_le_reserved (h : claimedSize text < 2 ^ 64) :
    instructionCount contents arch text ≤ 8192 * reservedBlocks text := by
  have hcount := instructionCount_le contents arch text
  rw [reservedBlocks, toNat_totalTextSize, Nat.mod_eq_of_lt h]
  omega

end Sizes

section Room

variable {reserved : Nat} {T : Type}

theorem findsRoom_same (store : ChunkStore T 8192) : FindsRoom reserved store store :=
  fun hopens => absurd hopens (Nat.lt_irrefl _)

theorem findsRoom_pushBack [Inhabited T] {store : ChunkStore T 8192} (value : T)
    (hcapacity : store.blocks.capacity = reserved) (hsize : store.size < 8192 * reserved) :
    FindsRoom reserved store (store.pushBack value) ∧
      (store.pushBack value).blocks.capacity = reserved := by
  have hroom (hslot : store.size % 8192 = 0) : store.blocks.items.length < reserved := by
    rw [store.blocks_length, blockCount_eq (by decide), if_pos hslot]
    omega
  refine ⟨fun hopens => ⟨hcapacity, ?_⟩, ?_⟩
  · rw [store.blocks_length, (store.pushBack value).blocks_length, ChunkStore.size_pushBack,
      blockCount_succ (by decide)] at hopens
    split_ifs at hopens with hslot
    · exact hroom hslot
    · exact absurd hopens (Nat.lt_irrefl _)
  · rw [store.capacity_pushBack value fun hslot => hcapacity ▸ hroom hslot, hcapacity]

theorem not_findsRoom_pushBack {store later : ChunkStore T 8192}
    (hsize : store.size = 8192 * reserved) (hlater : 8192 * reserved < later.size) :
    ¬ FindsRoom reserved store later := by
  intro hroom
  have hblocks : store.blocks.items.length = reserved := by
    rw [store.blocks_length, hsize, ← Nat.add_zero (8192 * reserved),
      blockCount_mul_add (by decide) _ _ (by decide), if_pos rfl]
  have hopened : store.blocks.items.length < later.blocks.items.length := by
    rw [hblocks, later.blocks_length, blockCount]
    omega
  exact absurd (hroom hopened).2 (by omega)

end Room

section Sweeps

variable {surroundings : Surroundings} {disassembler later : Disassembler}
  {stopRequested : Bool} {point next : Point} {reserved : Nat}

/-- The capacities of the tables where the sweep stands. -/
def Reserved (reserved : Nat) (disassembler : Disassembler) : Point → Prop
  | .clear => disassembler.decodedInstructions.blocks.capacity = 0 ∧
      disassembler.instructionAddresses.blocks.capacity = 0 ∧
      reserved = reservedBlocks disassembler.commonSections.text
  | .reserveInstructions total => disassembler.decodedInstructions.blocks.capacity = 0 ∧
      disassembler.instructionAddresses.blocks.capacity = 0 ∧ reserved = total.toNat / 8192 + 1
  | .reserveAddresses total => disassembler.decodedInstructions.blocks.capacity = reserved ∧
      disassembler.instructionAddresses.blocks.capacity = 0 ∧ reserved = total.toNat / 8192 + 1
  | .thrown _ => True
  | _ => disassembler.decodedInstructions.blocks.capacity = reserved ∧
      disassembler.instructionAddresses.blocks.capacity = reserved

theorem reserved_decodeLine {line : Line}
    (hsound : Sound disassembler stopRequested (.decodeLine line))
    (hcapacity : Reserved reserved disassembler (.decodeLine line))
    (hcount : (listed disassembler).length ≤ 8192 * reserved)
    (hstep : decodeStep surroundings stopRequested disassembler (.decodeLine line) =
      some (later, next)) :
    Reserved reserved later next ∧
      FindsRoom reserved disassembler.decodedInstructions later.decodedInstructions ∧
      FindsRoom reserved disassembler.instructionAddresses later.instructionAddresses := by
  obtain ⟨hlater, hgrows⟩ := sound_decodeLine hsound hstep
  have hlast := hlater.size_le
  rw [hgrows.listed_eq] at hlast
  have houtcome := decodeLine_outcome disassembler surroundings line.currentOffset line.vaddr
  simp only [decodeStep] at hstep
  cases hresult : disassembler.decodeLine surroundings line.currentOffset line.vaddr with
  | error exception =>
      rw [hresult] at hstep
      obtain ⟨rfl, rfl⟩ := Prod.mk.inj (Option.some.inj hstep)
      exact ⟨trivial, findsRoom_same _, findsRoom_same _⟩
  | ok result =>
      rw [hresult] at hstep houtcome
      cases houtcome with
      | stays =>
          obtain ⟨rfl, rfl⟩ := Prod.mk.inj (Option.some.inj hstep)
          exact ⟨hcapacity, findsRoom_same _, findsRoom_same _⟩
      | @appends n instruction =>
          obtain ⟨rfl, rfl⟩ := Prod.mk.inj (Option.some.inj hstep)
          rw [ChunkStore.size_pushBack] at hlast
          obtain ⟨hroom, hkept⟩ := findsRoom_pushBack instruction hcapacity.1 (by omega)
          exact ⟨⟨hkept, hcapacity.2⟩, hroom, findsRoom_same _⟩

/-- Where the listing fits in the reserved blocks, every step finds room. -/
theorem reserved_step (hsound : Sound disassembler stopRequested point)
    (hcapacity : Reserved reserved disassembler point)
    (hcount : (listed disassembler).length ≤ 8192 * reserved)
    (hstep : decodeStep surroundings stopRequested disassembler point = some (later, next)) :
    Reserved reserved later next ∧
      FindsRoom reserved disassembler.decodedInstructions later.decodedInstructions ∧
      FindsRoom reserved disassembler.instructionAddresses later.instructionAddresses := by
  cases point with
  | clear =>
      obtain ⟨rfl, rfl⟩ := Prod.mk.inj (Option.some.inj hstep)
      exact ⟨hcapacity, fun hopens => absurd hopens (Nat.not_lt_zero _),
        fun hopens => absurd hopens (Nat.not_lt_zero _)⟩
  | reserveInstructions total =>
      obtain ⟨hinstructions, haddresses, htotal⟩ := hcapacity
      simp only [decodeStep] at hstep
      split_ifs at hstep <;> obtain ⟨rfl, rfl⟩ := Prod.mk.inj (Option.some.inj hstep)
      · exact ⟨trivial, findsRoom_same _, findsRoom_same _⟩
      · refine ⟨⟨?_, haddresses, htotal⟩, findsRoom_same _, findsRoom_same _⟩
        rw [htotal]
        change max disassembler.decodedInstructions.blocks.capacity _ = _
        rw [hinstructions, Nat.zero_max]
  | reserveAddresses total =>
      obtain ⟨hinstructions, haddresses, htotal⟩ := hcapacity
      simp only [decodeStep] at hstep
      split_ifs at hstep <;> obtain ⟨rfl, rfl⟩ := Prod.mk.inj (Option.some.inj hstep)
      · exact ⟨trivial, findsRoom_same _, findsRoom_same _⟩
      · refine ⟨⟨hinstructions, ?_⟩, findsRoom_same _, findsRoom_same _⟩
        rw [htotal]
        change max disassembler.instructionAddresses.blocks.capacity _ = _
        rw [haddresses, Nat.zero_max]
  | resetReady | publish =>
      obtain ⟨rfl, rfl⟩ := Prod.mk.inj (Option.some.inj hstep)
      exact ⟨hcapacity, findsRoom_same _, findsRoom_same _⟩
  | nextSection sections =>
      cases sections <;> obtain ⟨rfl, rfl⟩ := Prod.mk.inj (Option.some.inj hstep) <;>
        exact ⟨hcapacity, findsRoom_same _, findsRoom_same _⟩
  | nextLine line =>
      simp only [decodeStep] at hstep
      split_ifs at hstep <;> obtain ⟨rfl, rfl⟩ := Prod.mk.inj (Option.some.inj hstep) <;>
        exact ⟨hcapacity, findsRoom_same _, findsRoom_same _⟩
  | decodeLine line => exact reserved_decodeLine hsound hcapacity hcount hstep
  | catchUp line nextOffset =>
      have hlast := hsound.size_le
      simp only [decodeStep] at hstep
      split_ifs at hstep with hlt <;> obtain ⟨rfl, rfl⟩ := Prod.mk.inj (Option.some.inj hstep)
      · obtain ⟨hroom, hkept⟩ := findsRoom_pushBack line.vaddr hcapacity.2 (by omega)
        exact ⟨⟨hcapacity.1, hkept⟩, findsRoom_same _, hroom⟩
      · exact ⟨hcapacity, findsRoom_same _, findsRoom_same _⟩
  | advance line nextOffset =>
      simp only [decodeStep] at hstep
      by_cases hle : nextOffset ≤ line.currentOffset
      · rw [if_pos hle] at hstep
        obtain ⟨rfl, rfl⟩ := Prod.mk.inj (Option.some.inj hstep)
        exact ⟨hcapacity, findsRoom_same _, findsRoom_same _⟩
      · obtain ⟨emitted, hprinted⟩ := emitDecodedLine_of_advance hsound hle
        rw [if_neg hle, hprinted, emitDecodedLine_eq hprinted] at hstep
        obtain ⟨rfl, rfl⟩ := Prod.mk.inj (Option.some.inj hstep)
        exact ⟨hcapacity, findsRoom_same _, findsRoom_same _⟩
  | returned => contradiction
  | thrown => contradiction

end Sweeps

section Runs

variable {contents : AddressSpace} {arch : Arch} {commonSections : Sections}
  {entryAddress : UInt64} {outputStreams : List String}

/-- A listing that fits in the reserved blocks never makes a table reallocate. -/
theorem neverReallocates_of_count
    (hcount : instructionCount contents arch commonSections.text ≤
      8192 * reservedBlocks commonSections.text) :
    NeverReallocates (.construct contents arch commonSections entryAddress outputStreams) := by
  rw [← length_listing] at hcount
  intro sweep later hrun hstep
  have hinvariant : (Sound sweep.disassembler sweep.stopRequested sweep.point ∧
      listed sweep.disassembler = listing contents arch commonSections.text) ∧
      Reserved (reservedBlocks commonSections.text) sweep.disassembler sweep.point := by
    refine Runs.preserved (I := fun sweep =>
      (Sound sweep.disassembler sweep.stopRequested sweep.point ∧
        listed sweep.disassembler = listing contents arch commonSections.text) ∧
      Reserved (reservedBlocks commonSections.text) sweep.disassembler sweep.point) ?_ hrun ?_
    · rintro before after ⟨⟨hsound, hlisted⟩, hcapacity⟩ hmove
      obtain ⟨hsound', hgrows⟩ := sound_sweepStep hsound hmove
      refine ⟨⟨hsound', hgrows.listed_eq.trans hlisted⟩, ?_⟩
      cases hmove with
      | work surroundings hwork =>
          exact (reserved_step hsound hcapacity (hlisted ▸ hcount) hwork).1
      | requestStop => exact hcapacity
    · exact ⟨⟨sound_construct contents arch commonSections entryAddress outputStreams false, rfl⟩,
        rfl, rfl, rfl⟩
  obtain ⟨⟨hsound, hlisted⟩, hcapacity⟩ := hinvariant
  cases hstep with
  | work surroundings hwork =>
      exact (reserved_step hsound hcapacity (hlisted ▸ hcount) hwork).2
  | requestStop => exact ⟨findsRoom_same _, findsRoom_same _⟩

/-- A longer one does, on the way to its end. -/
theorem not_neverReallocates_of_count
    (hcount : 8192 * reservedBlocks commonSections.text <
      instructionCount contents arch commonSections.text) :
    ¬ NeverReallocates
      (.construct contents arch commonSections entryAddress outputStreams) := by
  intro hnever
  rw [← length_listing] at hcount
  have hstart := sound_construct contents arch commonSections entryAddress outputStreams false
  obtain ⟨is64Bit, harch⟩ : ∃ is64Bit, makeDecoder arch = some (.x86Decoder is64Bit) := by
    by_contra hnot
    rw [listing_of_not_x86 fun is64Bit harch => hnot ⟨is64Bit, harch⟩] at hcount
    exact absurd hcount (Nat.not_lt_zero _)
  obtain ⟨n, -, hlists, -⟩ := proceed_lists harch hstart
  have hrun := Sweep.proceed_run n (.start
    (.construct contents arch commonSections entryAddress outputStreams))
  have hsize : _ = (listing contents arch commonSections.text).length :=
    (ChunkStore.length_toList _).symm.trans
      ((congrArg List.length hlists).trans (List.length_map _))
  obtain ⟨sweep, later, hbefore, hstep, hle, hlt⟩ := Runs.exists_crossing
    (fun sweep => sweep.disassembler.decodedInstructions.size)
    (8192 * reservedBlocks commonSections.text) hrun (Nat.zero_le _)
    (hcount.trans_eq hsize.symm)
  have hone : later.disassembler.decodedInstructions.size ≤
      sweep.disassembler.decodedInstructions.size + 1 := by
    cases hstep with
    | work surroundings hwork => exact size_le_succ (sound_run hstart hbefore).1 hwork
    | requestStop => exact Nat.le_succ _
  exact not_findsRoom_pushBack (by omega) hlt (hnever sweep later hbefore hstep).1

/-- The block tables never reallocate exactly when the instructions there are fit in what the
wrapped sum of the section sizes reserves. -/
theorem neverReallocates_iff (contents : AddressSpace) (arch : Arch)
    (commonSections : Sections) (entryAddress : UInt64) (outputStreams : List String) :
    NeverReallocates (.construct contents arch commonSections entryAddress outputStreams) ↔
      instructionCount contents arch commonSections.text ≤
        8192 * reservedBlocks commonSections.text := by
  constructor
  · intro hnever
    by_contra hmore
    exact not_neverReallocates_of_count (Nat.not_le.mp hmore) hnever
  · exact neverReallocates_of_count

/-- They fit wherever the sizes add up to less than 2^64. -/
theorem neverReallocates_of_sizes {contents : AddressSpace} {arch : Arch}
    {commonSections : Sections} (hsizes : claimedSize commonSections.text < 2 ^ 64)
    (entryAddress : UInt64) (outputStreams : List String) :
    NeverReallocates (.construct contents arch commonSections entryAddress outputStreams) :=
  neverReallocates_of_count
    (instructionCount_le_reserved contents arch commonSections.text hsizes)

end Runs

/-- A NOP in 8194 sections of 2^63 bytes each: the sizes add up to zero. -/
def wrappedSizes : Disassembler :=
  .construct ⟨[0x90], length_nop⟩ .x86_64
    { text := List.replicate 8194 ⟨0x1000, 0, 0x8000000000000000⟩ } 0x1000 []

theorem not_neverReallocates_wrappedSizes : ¬ NeverReallocates wrappedSizes := by
  refine not_neverReallocates_of_count ?_
  have hrow : 1 ≤ (sectionRows ⟨[0x90], by decide⟩ .x86_64
      ⟨0x1000, 0, 0x8000000000000000⟩).length :=
    length_sectionRows_pos (by decide) (by decide +kernel)
  have hreserved : reservedBlocks
      (List.replicate 8194 ⟨0x1000, 0, 0x8000000000000000⟩) = 1 := by
    rw [reservedBlocks, toNat_totalTextSize, claimedSize, List.map_replicate,
      List.sum_replicate]
    decide
  rw [hreserved, instructionCount, List.map_replicate, List.sum_replicate]
  exact Nat.lt_of_lt_of_le (by decide) (Nat.mul_le_mul_left 8194 hrow)

end Voidwalk.BlockTables

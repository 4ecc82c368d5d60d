import Voidwalk.SweepProgress

/-!
Which sections an unstopped sweep lists completely. A section whose end passes
2^64 has a smaller end than start in the sweep's arithmetic, and gets no row.
-/

namespace Voidwalk.SweepCompleteness

open Voidwalk.MappedFile
open Voidwalk.ChunkStorage
open Voidwalk.InstructionRendering
open Voidwalk.Disassembly
open Voidwalk.SectionListing
open Voidwalk.SweepRefinement
open Voidwalk.SweepProgress

def x86Arch (is64Bit : Bool) : Arch :=
  if is64Bit then .x86_64 else .x86

theorem makeDecoder_x86Arch (is64Bit : Bool) :
    makeDecoder (x86Arch is64Bit) = some (.x86Decoder is64Bit) := by
  cases is64Bit <;> rfl

def Covers : Nat → List Row → Nat → Prop
  | _, [], _ => False
  | start, row :: rows, byte =>
      (start ≤ byte ∧ byte < start + row.byteLength) ∨ Covers (start + row.byteLength) rows byte

/-- The bytes from `cut` to the end of the file are at most fifteen and hold no
whole instruction; there may be none. -/
structure CutTail (contents : AddressSpace) (arch : Arch) (textSection : Header) (cut : Nat) :
    Prop where
  le : cut ≤ contents.mappedData.length
  short : contents.mappedData.length ≤ cut + 15
  truncated : cut < contents.mappedData.length → textSection.offset.toNat ≤ cut ∧
    instructionAt contents arch (UInt64.ofNat cut)
      (textSection.vaddr + UInt64.ofNat (cut - textSection.offset.toNat)) = none

/-- The rows cover every byte of the section that the file has, but for a cut tail. -/
def CompletelyListed (contents : AddressSpace) (arch : Arch) (textSection : Header)
    (rows : List Row) : Prop :=
  ∃ cut, CutTail contents arch textSection cut ∧
    ∀ byte, textSection.offset.toNat ≤ byte →
      byte < min (textSection.offset.toNat + textSection.size.toNat)
        contents.mappedData.length →
      byte < cut → Covers textSection.offset.toNat rows byte

section Sections

variable {contents : AddressSpace} {arch : Arch} {textSection : Header} {is64Bit : Bool}

theorem cutTail_length (contents : AddressSpace) (arch : Arch) (textSection : Header) :
    CutTail contents arch textSection contents.mappedData.length :=
  ⟨Nat.le_refl _, Nat.le_add_right _ _, fun h => absurd h (Nat.lt_irrefl _)⟩

/-- Where nothing is decoded, at most a tail of the file is left. -/
theorem cutTail_of_none (harch : makeDecoder arch = some (.x86Decoder is64Bit))
    {currentOffset vaddr : UInt64} {position : Nat}
    (hoffset : currentOffset.toNat = textSection.offset.toNat + position)
    (hvaddr : vaddr = textSection.vaddr + UInt64.ofNat position)
    (hnone : instructionAt contents arch currentOffset vaddr = none) :
    ∃ cut, CutTail contents arch textSection cut ∧ cut ≤ currentOffset.toNat := by
  by_cases hlt : currentOffset.toNat < contents.mappedData.length
  · have hshort : contents.mappedData.length ≤ currentOffset.toNat + 15 := by
      rcases @instructionAt_x86 contents arch is64Bit harch currentOffset vaddr with
        ⟨-, hshort, -⟩ | ⟨n, instruction, hsome, -⟩
      · exact hshort
      · rw [hnone] at hsome
        contradiction
    refine ⟨currentOffset.toNat, ⟨hlt.le, hshort, fun _ => ⟨by omega, ?_⟩⟩, Nat.le_refl _⟩
    rw [UInt64.ofNat_toNat, hoffset, Nat.add_sub_cancel_left, ← hvaddr, hnone]
  · exact ⟨_, cutTail_length contents arch textSection, Nat.not_lt.mp hlt⟩

theorem rowsFrom_covers (harch : makeDecoder arch = some (.x86Decoder is64Bit))
    (hend : textSection.offset.toNat + textSection.size.toNat < 2 ^ 64)
    (currentOffset vaddr : UInt64) (position : Nat)
    (hoffset : currentOffset.toNat = textSection.offset.toNat + position)
    (hvaddr : vaddr = textSection.vaddr + UInt64.ofNat position) :
    ∃ cut, CutTail contents arch textSection cut ∧
      ∀ byte, currentOffset.toNat ≤ byte →
        byte < min (textSection.offset.toNat + textSection.size.toNat)
          contents.mappedData.length →
        byte < cut → Covers currentOffset.toNat
          (rowsFrom contents arch (textSection.offset + textSection.size) currentOffset vaddr)
          byte := by
  fun_induction rowsFrom contents arch (textSection.offset + textSection.size) currentOffset vaddr
    generalizing position with
  | case1 currentOffset vaddr hlt hnone =>
      obtain ⟨cut, htail, hcut⟩ := cutTail_of_none harch hoffset hvaddr hnone
      exact ⟨cut, htail, fun byte hfrom _ hbefore => absurd hfrom (by omega)⟩
  | case2 currentOffset vaddr hlt nextOffset instruction hfound ih =>
      obtain ⟨n, rfl, hoccupies⟩ := occupies_of_instructionAt hfound
      obtain ⟨cut, htail, hcovers⟩ := ih (position + n)
        (by rw [hoccupies.toNat_next, hoffset, Nat.add_assoc])
        (by rw [hvaddr, UInt64.add_comm currentOffset, UInt64.add_sub_cancel, UInt64.ofNat_add,
          UInt64.add_assoc])
      refine ⟨cut, htail, fun byte hfrom hinside hbefore => ?_⟩
      rw [Covers, hoccupies.byteLength]
      rcases Nat.lt_or_ge byte (currentOffset.toNat + n) with hrow | hlater
      · exact Or.inl ⟨hfrom, hrow⟩
      · rw [hoccupies.toNat_next] at hcovers
        exact Or.inr (hcovers byte hlater hinside hbefore)
  | case3 currentOffset vaddr hnot =>
      refine ⟨_, cutTail_length contents arch textSection, fun byte hfrom hinside _ => ?_⟩
      have hpassed : textSection.offset.toNat + textSection.size.toNat ≤
          currentOffset.toNat := by
        rw [UInt64.lt_iff_toNat_lt, UInt64.toNat_add, Nat.mod_eq_of_lt hend] at hnot
        exact Nat.not_lt.mp hnot
      omega

theorem sectionRows_of_wrap
    (hend : 2 ^ 64 ≤ textSection.offset.toNat + textSection.size.toNat) :
    sectionRows contents arch textSection = [] := by
  refine rowsFrom_of_not_lt ?_
  have hsize := textSection.size.toNat_lt
  have hstart := textSection.offset.toNat_lt
  rw [UInt64.lt_iff_toNat_lt, UInt64.toNat_add]
  omega

theorem not_completelyListed_of_wrap
    (hend : 2 ^ 64 ≤ textSection.offset.toNat + textSection.size.toNat)
    (hinside : textSection.offset.toNat < contents.mappedData.length)
    (hfound : instructionAt contents arch textSection.offset textSection.vaddr ≠ none) :
    ¬ CompletelyListed contents arch textSection (sectionRows contents arch textSection) := by
  rintro ⟨cut, htail, hcovers⟩
  have hsize := contents.fileSize_lt
  rw [sectionRows_of_wrap hend] at hcovers
  -- Without a row the cut cannot lie behind the first byte.
  have hcut : cut ≤ textSection.offset.toNat := by
    by_contra hbehind
    exact hcovers textSection.offset.toNat (Nat.le_refl _) (by omega) (by omega)
  obtain ⟨hfrom, hnone⟩ := htail.truncated (by omega)
  obtain rfl : cut = textSection.offset.toNat := by omega
  rw [UInt64.ofNat_toNat, Nat.sub_self] at hnone
  exact hfound (by simpa using hnone)

theorem completelyListed_iff (harch : makeDecoder arch = some (.x86Decoder is64Bit)) :
    CompletelyListed contents arch textSection (sectionRows contents arch textSection) ↔
      textSection.offset.toNat + textSection.size.toNat < 2 ^ 64 ∨
        contents.mappedData.length ≤ textSection.offset.toNat ∨
        instructionAt contents arch textSection.offset textSection.vaddr = none := by
  constructor
  · intro hlisted
    by_contra hnot
    simp only [not_or, Nat.not_lt, Nat.not_le] at hnot
    exact not_completelyListed_of_wrap hnot.1 hnot.2.1 hnot.2.2 hlisted
  · rintro (hend | hbehind | hnone)
    · exact rowsFrom_covers harch hend _ _ 0 rfl (by simp)
    · refine ⟨_, cutTail_length contents arch textSection, fun byte hfrom hinside _ => ?_⟩
      omega
    · obtain ⟨cut, htail, hcut⟩ := @cutTail_of_none contents arch textSection is64Bit harch
        textSection.offset textSection.vaddr 0 rfl (by simp) hnone
      exact ⟨cut, htail, fun byte hfrom _ hbefore => absurd hfrom (by omega)⟩

end Sections

/-- The undisturbed call returns, its stores hold the rows of the sections one
after the other, and these list every section completely. -/
def ListsEverySection (disassembler : Disassembler) : Prop :=
  ∃ n, ((Sweep.start disassembler).proceed n).point = .returned ∧
    ((Sweep.start disassembler).proceed n).disassembler.decodedInstructions.toList =
      (disassembler.commonSections.text.flatMap
        (sectionRows disassembler.contents disassembler.arch)).map Row.instruction ∧
    ((Sweep.start disassembler).proceed n).disassembler.instructionAddresses.toList =
      (disassembler.commonSections.text.flatMap
        (sectionRows disassembler.contents disassembler.arch)).map Row.address ∧
    ∀ textSection ∈ disassembler.commonSections.text,
      CompletelyListed disassembler.contents disassembler.arch textSection
        (sectionRows disassembler.contents disassembler.arch textSection)

/-- An unstopped sweep lists every section completely exactly when each section
ends below 2^64, begins behind the file, or begins with an instruction that the end
of the file cuts. -/
theorem listsEverySection_iff (contents : AddressSpace) (is64Bit : Bool)
    (commonSections : Sections) (entryAddress : UInt64) (outputStreams : List String) :
    ListsEverySection (.construct contents (x86Arch is64Bit) commonSections entryAddress
        outputStreams) ↔
      ∀ textSection ∈ commonSections.text,
        textSection.offset.toNat + textSection.size.toNat < 2 ^ 64 ∨
          contents.mappedData.length ≤ textSection.offset.toNat ∨
          instructionAt contents (x86Arch is64Bit) textSection.offset textSection.vaddr =
            none := by
  have hsections (textSection : Header) := @completelyListed_iff contents (x86Arch is64Bit)
    textSection is64Bit (makeDecoder_x86Arch is64Bit)
  obtain ⟨n, hreturned, hinstructions, haddresses⟩ := proceed_lists
    (makeDecoder_x86Arch is64Bit)
    (sound_construct contents _ commonSections entryAddress outputStreams false)
  constructor
  · rintro ⟨-, -, -, -, hlisted⟩ textSection hmem
    exact (hsections textSection).mp (hlisted textSection hmem)
  · intro hconditions
    exact ⟨n, hreturned, hinstructions, haddresses, fun textSection hmem =>
      (hsections textSection).mpr (hconditions textSection hmem)⟩

/-- Two NOPs, the second of them in a section that claims 2^64 - 1 bytes. The other section makes
the sizes add up to zero, so that no memory is wanting for the stores. -/
def oversizedSection : Disassembler :=
  .construct ⟨[0x90, 0x90], by decide⟩ .x86_64
    { text := [⟨0x1000, 1, 0xFFFFFFFFFFFFFFFF⟩, ⟨0x2000, 0, 1⟩] } 0x1000 []

example : totalTextSize oversizedSection.commonSections.text = 0 := by decide

theorem not_listsEverySection_oversizedSection : ¬ ListsEverySection oversizedSection := by
  rintro ⟨-, -, -, -, hlisted⟩
  refine not_completelyListed_of_wrap (by decide) (by decide) ?_
    (hlisted ⟨0x1000, 1, 0xFFFFFFFFFFFFFFFF⟩ List.mem_cons_self)
  decide +kernel

end Voidwalk.SweepCompleteness

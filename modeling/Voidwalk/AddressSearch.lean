import Mathlib.Order.Interval.Set.Basic
import Voidwalk.FrontendRows
import Voidwalk.Library.SegmentedSearch
import Voidwalk.SweepPublication

/-!
Go to address: the search that both front ends make for the last row up to an address.
-/

namespace Voidwalk.AddressSearch

open Voidwalk.Library.SegmentedSearch
open Voidwalk.MappedFile
open Voidwalk.ChunkStorage
open Voidwalk.Disassembly
open Voidwalk.AnalysisSession
open Voidwalk.SectionListing
open Voidwalk.SweepRefinement
open Voidwalk.SweepPublication
open Voidwalk.FrontendRows

/-- The variables of the section loop. -/
structure Search where
  best : Nat := 0
  start : Nat := 0
  bestVaddr : UInt64 := 0

section Searching

variable (rowVaddr : Nat → Except Thrown UInt64) (shown : Nat) (vaddr : UInt64)

/-- `at(i) >= s.vaddr && at(i) - s.vaddr < s.size`. -/
def startsIn (s : SectionInfo) (i : Nat) : Except Thrown Bool := do
  let address ← rowVaddr i
  if s.vaddr ≤ address then
    let again ← rowVaddr i
    pure (again - s.vaddr < s.size)
  else pure false

/-- `at(i) <= vaddr`. -/
def isUpTo (i : Nat) : Except Thrown Bool := do
  let address ← rowVaddr i
  pure (address ≤ vaddr)

/-- One round of the section loop. -/
def searchSection (search : Search) (s : SectionInfo) : Except Thrown Search :=
  if s.name ≠ ".text" ∨ shown ≤ search.start then pure search
  else do
    let stop ← split (startsIn rowVaddr s) search.start shown
    let k ← split (isUpTo rowVaddr vaddr) search.start stop
    if search.start < k then
      let last ← rowVaddr (k - 1)
      if search.bestVaddr ≤ last then
        let bestVaddr ← rowVaddr (k - 1)
        pure { best := k - 1, start := stop, bestVaddr := bestVaddr }
      else pure { search with start := stop }
    else pure { search with start := stop }

/-- `tui::Session::rowIndexFor`. -/
def rowIndexFor (sections : List SectionInfo) : Except Thrown Nat :=
  if shown = 0 then pure 0
  else do
    let search ← sections.foldlM (searchSection rowVaddr shown vaddr) {}
    pure search.best

/-- The row that `DisassemblyPane::navigateTo` selects. -/
def navigateTo (sections : List SectionInfo) : Except Thrown (Option Nat) :=
  if shown = 0 then pure none
  else do
    let search ← sections.foldlM (searchSection rowVaddr shown vaddr) {}
    pure (some search.best)

end Searching

def Inside (s : SectionInfo) (address : UInt64) : Prop :=
  s.vaddr ≤ address ∧ address - s.vaddr < s.size

/-- The rows from `n` to `m` are those that start in a section, in ascending order, and
no later row starts there. -/
structure RunOf (address : Nat → UInt64) (shown : Nat) (s : SectionInfo) (n m : Nat) : Prop where
  le : n ≤ m
  le_shown : m ≤ shown
  inside : ∀ i, n ≤ i → i < m → Inside s (address i)
  outside : ∀ i, m ≤ i → i < shown → ¬ Inside s (address i)
  ascending : ∀ i j, n ≤ i → i < j → j < m → (address i).toNat < (address j).toNat

/-- From row `n` on there is one run for each `.text` section, in the order of the list. -/
inductive Laid (address : Nat → UInt64) (shown : Nat) : Nat → List SectionInfo → Prop where
  | done : Laid address shown shown []
  | other {n : Nat} {s : SectionInfo} {later : List SectionInfo} (hname : s.name ≠ ".text")
      (hlater : Laid address shown n later) : Laid address shown n (s :: later)
  | text {n m : Nat} {s : SectionInfo} {later : List SectionInfo} (hname : s.name = ".text")
      (hrun : RunOf address shown s n m) (hlater : Laid address shown m later) :
      Laid address shown n (s :: later)

section Correctness

variable {rowVaddr : Nat → Except Thrown UInt64} {address : Nat → UInt64} {shown : Nat}
  {vaddr : UInt64}

/-- What the loop knows: the best of the rows that it has passed. -/
structure Sofar (address : Nat → UInt64) (vaddr : UInt64) (search : Search) : Prop where
  intro ::
  known : ∃ best, Greatest (fun i => (address i).toNat) search.start vaddr.toNat best ∧
    search.best = best.getD 0 ∧ search.bestVaddr = best.elim 0 address

theorem startsIn_eq {s : SectionInfo} {i : Nat} (hread : rowVaddr i = .ok (address i)) :
    startsIn rowVaddr s i =
      .ok (decide (s.vaddr ≤ address i) && decide (address i - s.vaddr < s.size)) := by
  rw [startsIn, hread]
  simp only [bind, Except.bind]
  split
  · rename_i hle
    rw [decide_eq_true hle, Bool.true_and]
    rfl
  · rename_i hlt
    rw [decide_eq_false hlt]
    rfl

theorem RunOf.turnsAt {s : SectionInfo} {n m : Nat} (h : RunOf address shown s n m)
    (hread : ∀ i, i < shown → rowVaddr i = .ok (address i)) :
    TurnsAt (startsIn rowVaddr s) n shown m := by
  refine ⟨h.le, h.le_shown, ?_, ?_⟩
  · intro i hn hm
    obtain ⟨hle, hlt⟩ := h.inside i hn hm
    rw [startsIn_eq (hread i (Nat.lt_of_lt_of_le hm h.le_shown)), decide_eq_true hle,
      decide_eq_true hlt]
    rfl
  · intro i hm hshown
    have hout : ¬ (s.vaddr ≤ address i ∧ address i - s.vaddr < s.size) :=
      h.outside i hm hshown
    rw [startsIn_eq (hread i hshown), ← Bool.decide_and, decide_eq_false hout]

theorem isUpTo_eq {i : Nat} (hread : rowVaddr i = .ok (address i)) :
    isUpTo rowVaddr vaddr i = .ok (decide ((address i).toNat ≤ vaddr.toNat)) := by
  rw [isUpTo, hread]
  rfl

/-- The loop passes the run of one section. -/
theorem searchSection_ok {search : Search} {s : SectionInfo} {m : Nat}
    (hread : ∀ i, i < shown → rowVaddr i = .ok (address i))
    (hdistinct : ∀ i j, i < j → j < shown → (address i).toNat ≠ (address j).toNat)
    (hsofar : Sofar address vaddr search) (hname : s.name = ".text")
    (hrun : RunOf address shown s search.start m) :
    ∃ later, searchSection rowVaddr shown vaddr search s = .ok later ∧ later.start = m ∧
      Sofar address vaddr later := by
  have hle := hrun.le
  have hle_shown := hrun.le_shown
  rw [searchSection]
  by_cases hshown : shown ≤ search.start
  · rw [if_pos (Or.inr hshown)]
    exact ⟨search, rfl, by omega, hsofar⟩
  · have hmore : ¬ (s.name ≠ ".text" ∨ shown ≤ search.start) :=
      not_or.mpr ⟨not_not_intro hname, hshown⟩
    obtain ⟨best, hgreatest, hbest, hbestVaddr⟩ := hsofar
    obtain ⟨turn, hturn, hturn_le, hbelow, habove⟩ :=
      @exists_turn Nat _ (fun i => (address i).toNat) vaddr.toNat _ _ hle hrun.ascending
    have hsegment : Segment (fun i => (address i).toNat) vaddr.toNat search.start turn m := by
      refine ⟨hturn, hturn_le, hrun.ascending, hbelow, habove, ?_⟩
      intro i j hi hj hm
      exact hdistinct i j (by omega) (by omega)
    have hturnsAt : TurnsAt (isUpTo rowVaddr vaddr) search.start m turn := by
      refine ⟨hturn, hturn_le, ?_, ?_⟩
      · intro i hi hlt
        rw [isUpTo_eq (hread i (by omega)), decide_eq_true (hbelow i hi hlt)]
      · intro i hi hlt
        rw [isUpTo_eq (hread i (by omega)), decide_eq_false (Nat.not_le.mpr (habove i hi hlt))]
    rw [if_neg hmore, split_eq (hrun.turnsAt hread)]
    simp only [bind, Except.bind, split_eq hturnsAt]
    by_cases hsome : search.start < turn
    · rw [if_pos hsome, hread (turn - 1) (by omega)]
      dsimp only
      by_cases htake : search.bestVaddr ≤ address (turn - 1)
      · rw [if_pos htake]
        refine ⟨_, rfl, rfl, some (turn - 1), ?_, rfl, rfl⟩
        apply hgreatest.take hsegment hsome
        rintro place rfl
        rw [hbestVaddr] at htake
        exact UInt64.le_iff_toNat_le.mp htake
      · rw [if_neg htake]
        refine ⟨_, rfl, rfl, best, ?_, hbest, hbestVaddr⟩
        rw [hbestVaddr] at htake
        cases best with
        | none => exact absurd (UInt64.le_iff_toNat_le.mpr (Nat.zero_le _)) htake
        | some place =>
            apply hgreatest.keep hsegment hsome
            rw [UInt64.le_iff_toNat_le, Nat.not_le] at htake
            exact htake
    · rw [if_neg hsome]
      obtain rfl : turn = search.start := by omega
      exact ⟨_, rfl, rfl, best, hgreatest.skip hsegment, hbest, hbestVaddr⟩

/-- The loop over all sections passes all rows. -/
theorem foldlM_searchSection {search : Search} {sections : List SectionInfo}
    (hread : ∀ i, i < shown → rowVaddr i = .ok (address i))
    (hdistinct : ∀ i j, i < j → j < shown → (address i).toNat ≠ (address j).toNat)
    (hsofar : Sofar address vaddr search) (hlaid : Laid address shown search.start sections) :
    ∃ last, sections.foldlM (searchSection rowVaddr shown vaddr) search = .ok last ∧
      last.start = shown ∧ Sofar address vaddr last := by
  induction sections generalizing search with
  | nil =>
      have hstart : search.start = shown := by
        cases hlaid
        rfl
      exact ⟨search, rfl, hstart, hsofar⟩
  | cons s later ih =>
      rw [List.foldlM_cons]
      cases hlaid with
      | other hname hlater =>
          rw [searchSection, if_pos (Or.inl hname)]
          exact ih hsofar hlater
      | text hname hrun hlater =>
          obtain ⟨next, hnext, rfl, hsofar'⟩ := searchSection_ok hread hdistinct hsofar hname hrun
          rw [hnext]
          exact ih hsofar' hlater

end Correctness

section Listings

/-- The addresses that a section claims. -/
def claimed (header : Header) : Set Nat :=
  Set.Ico header.vaddr.toNat (header.vaddr.toNat + header.size.toNat)

/-- The sections claim different addresses, and none beyond the last. -/
structure Apart (text : List Header) : Prop where
  disjoint : text.Pairwise fun header later => ∀ address ∈ claimed header, address ∉ claimed later
  bounded : ∀ header ∈ text, header.vaddr.toNat + header.size.toNat ≤ 2 ^ 64

variable {contents : AddressSpace}

theorem toNat_address {header : Header} {position : Nat} {row : Row}
    (hbounded : header.vaddr.toNat + header.size.toNat ≤ 2 ^ 64)
    (h : ShowsBytes contents header position row) :
    row.address.toNat = header.vaddr.toNat + position := by
  have hinside := h.starts_inside
  rw [h.address, toNat_add_ofNat (by omega)]

theorem TilesFrom.le_address {header : Header} {position : Nat} {rows : List Row}
    (hbounded : header.vaddr.toNat + header.size.toNat ≤ 2 ^ 64)
    (h : TilesFrom contents header position rows) :
    ∀ row ∈ rows, header.vaddr.toNat + position ≤ row.address.toNat ∧
      row.address.toNat ∈ claimed header := by
  induction h with
  | nil =>
      intro row hmem
      exact absurd hmem List.not_mem_nil
  | @cons position first rows hshows _ ih =>
      intro row hmem
      have hinside := hshows.starts_inside
      rcases List.mem_cons.mp hmem with rfl | hmem
      · rw [toNat_address hbounded hshows]
        exact ⟨Nat.le_refl _, Nat.le_add_right _ _, Nat.add_lt_add_left hinside _⟩
      · obtain ⟨hle, hclaimed⟩ := ih row hmem
        exact ⟨by omega, hclaimed⟩

theorem TilesFrom.ascending {header : Header} {position : Nat} {rows : List Row}
    (hbounded : header.vaddr.toNat + header.size.toNat ≤ 2 ^ 64)
    (h : TilesFrom contents header position rows) :
    rows.Pairwise fun row later => row.address.toNat < later.address.toNat := by
  induction h with
  | nil => exact List.Pairwise.nil
  | cons hshows hrest ih =>
      refine List.pairwise_cons.mpr ⟨?_, ih⟩
      intro later hmem
      have hpos := hshows.length_pos
      have hle := (TilesFrom.le_address hbounded hrest later hmem).1
      rw [toNat_address hbounded hshows]
      omega

theorem TilesFrom.eq_nil {header : Header} {rows : List Row} {position : Nat}
    (h : TilesFrom contents header position rows) (hsize : header.size = 0) : rows = [] := by
  cases h with
  | nil => rfl
  | cons hshows _ =>
      have hinside := hshows.starts_inside
      rw [hsize] at hinside
      exact absurd hinside (Nat.not_lt_zero _)

section Runs

variable {text : List Header} {runs : List (List Row)}

theorem exists_claimed (h : List.Forall₂ (fun header => TilesFrom contents header 0) text runs)
    (hapart : Apart text) {row : Row} (hrow : row ∈ runs.flatten) :
    ∃ header ∈ text, row.address.toNat ∈ claimed header := by
  obtain ⟨disjoint, hbounded⟩ := hapart
  clear disjoint
  induction h with
  | nil => exact absurd hrow List.not_mem_nil
  | @cons header run text runs hrun hruns ih =>
      obtain ⟨hfirst, hlater⟩ := List.forall_mem_cons.mp hbounded
      rw [List.flatten_cons, List.mem_append] at hrow
      rcases hrow with hhere | hthere
      · exact ⟨header, List.mem_cons_self, (TilesFrom.le_address hfirst hrun row hhere).2⟩
      · obtain ⟨other, hmem, hclaimed⟩ := ih hthere hlater
        exact ⟨other, List.mem_cons_of_mem _ hmem, hclaimed⟩

theorem Apart.tail {header : Header} (h : Apart (header :: text)) : Apart text :=
  ⟨(List.pairwise_cons.mp h.disjoint).2, (List.forall_mem_cons.mp h.bounded).2⟩

/-- A row of a later section does not start in the first. -/
theorem not_claimed_of_later {header : Header}
    (h : List.Forall₂ (fun header => TilesFrom contents header 0) text runs)
    (hapart : Apart (header :: text)) {row : Row} (hrow : row ∈ runs.flatten) :
    row.address.toNat ∉ claimed header := by
  intro hclaimed
  obtain ⟨other, hmem, hother⟩ := exists_claimed h hapart.tail hrow
  exact (List.pairwise_cons.mp hapart.disjoint).1 other hmem _ hclaimed hother

/-- No two rows have one address. -/
theorem distinct_flatten (h : List.Forall₂ (fun header => TilesFrom contents header 0) text runs)
    (hapart : Apart text) :
    runs.flatten.Pairwise fun row later => row.address.toNat ≠ later.address.toNat := by
  induction h with
  | nil => exact List.Pairwise.nil
  | cons hrun hruns ih =>
      have hbounded := (List.forall_mem_cons.mp hapart.bounded).1
      rw [List.flatten_cons, List.pairwise_append]
      refine ⟨?_, ih hapart.tail, ?_⟩
      · exact (TilesFrom.ascending hbounded hrun).imp Nat.ne_of_lt
      · intro row hrow later hlater heq
        apply not_claimed_of_later hruns hapart hlater
        rw [← heq]
        exact (TilesFrom.le_address hbounded hrun row hrow).2

end Runs

/-- What a row accessor returns for a row that is there. -/
def addressOf (rows : List Row) (i : Nat) : UInt64 :=
  rows[i]?.elim 0 Row.address

theorem inside_iff (header : Header) (name : String) (address : UInt64) :
    Inside { name := name, offset := header.offset, vaddr := header.vaddr, size := header.size }
      address ↔ address.toNat ∈ claimed header := by
  rw [Inside, claimed, Set.mem_Ico]
  dsimp only
  rw [UInt64.le_iff_toNat_le]
  refine and_congr_right ?_
  intro hle
  rw [UInt64.lt_iff_toNat_lt, UInt64.toNat_sub_of_le _ _ (UInt64.le_iff_toNat_le.mpr hle)]
  omega

/-- The rows of a section lie between those of the sections before and behind it. -/
theorem runOf_middle {header : Header} {before run behind : List Row}
    (hbounded : header.vaddr.toNat + header.size.toNat ≤ 2 ^ 64)
    (hrun : TilesFrom contents header 0 run)
    (hbehind : ∀ row ∈ behind, row.address.toNat ∉ claimed header) (name : String) :
    RunOf (addressOf (before ++ run ++ behind)) (before ++ run ++ behind).length
      { name := name, offset := header.offset, vaddr := header.vaddr, size := header.size }
      before.length (before ++ run).length := by
  have hhere : ∀ i (hi : i < run.length),
      addressOf (before ++ run ++ behind) (before.length + i) = run[i].address := by
    intro i hi
    rw [addressOf, List.append_assoc, List.getElem?_append_right (Nat.le_add_right _ _),
      Nat.add_sub_cancel_left, List.getElem?_append_left hi, List.getElem?_eq_getElem hi]
    rfl
  have hlength : (before ++ run ++ behind).length = (before ++ run).length + behind.length :=
    List.length_append
  refine ⟨?_, ?_, ?_, ?_, ?_⟩
  · rw [List.length_append]
    exact Nat.le_add_right _ _
  · rw [hlength]
    exact Nat.le_add_right _ _
  · intro i hle hlt
    obtain ⟨k, rfl⟩ := Nat.exists_eq_add_of_le hle
    rw [List.length_append, Nat.add_lt_add_iff_left] at hlt
    rw [hhere k hlt, inside_iff]
    exact (TilesFrom.le_address hbounded hrun _ (List.getElem_mem hlt)).2
  · intro i hle hlt hinside
    obtain ⟨k, rfl⟩ := Nat.exists_eq_add_of_le hle
    rw [hlength, Nat.add_lt_add_iff_left] at hlt
    rw [addressOf, List.getElem?_append_right (Nat.le_add_right _ _), Nat.add_sub_cancel_left,
      List.getElem?_eq_getElem hlt, inside_iff] at hinside
    exact hbehind _ (List.getElem_mem hlt) hinside
  · intro i j hle hij hj
    obtain ⟨k, rfl⟩ := Nat.exists_eq_add_of_le hle
    obtain ⟨l, rfl⟩ := Nat.exists_eq_add_of_le (Nat.le_trans hle (Nat.le_of_lt hij))
    rw [List.length_append, Nat.add_lt_add_iff_left] at hj
    rw [Nat.add_lt_add_iff_left] at hij
    rw [hhere k (Nat.lt_trans hij hj), hhere l hj]
    exact List.pairwise_iff_getElem.mp (TilesFrom.ascending hbounded hrun) k l _ hj hij

theorem laid_others (address : Nat → UInt64) (shown : Nat) {others : List SectionInfo}
    (hothers : ∀ s ∈ others, s.name ≠ ".text") : Laid address shown shown others := by
  induction others with
  | nil => exact .done
  | cons s later ih =>
      obtain ⟨hname, hlater⟩ := List.forall_mem_cons.mp hothers
      exact .other hname (ih hlater)

/-- The rows of a listing lie as the sections are shown. -/
theorem laid_namedSections {text : List Header} {runs : List (List Row)}
    (h : List.Forall₂ (fun header => TilesFrom contents header 0) text runs)
    (hapart : Apart text) {others : List SectionInfo} (hothers : ∀ s ∈ others, s.name ≠ ".text")
    (before : List Row) :
    Laid (addressOf (before ++ runs.flatten)) (before ++ runs.flatten).length before.length
      (namedSections ".text" text ++ others) := by
  induction h generalizing before with
  | nil =>
      rw [List.flatten_nil, List.append_nil]
      exact laid_others _ _ hothers
  | @cons header run text runs hrun hruns ih =>
      have hbounded := (List.forall_mem_cons.mp hapart.bounded).1
      have hlater := ih hapart.tail (before ++ run)
      rw [List.flatten_cons, ← List.append_assoc]
      rw [namedSections] at hlater ⊢
      rw [List.filter_cons]
      split
      · refine .text rfl (runOf_middle hbounded hrun ?_ ".text") hlater
        intro row hrow
        exact not_claimed_of_later hruns hapart hrow
      · rename_i hhidden
        have hsize : header.size = 0 := by
          by_contra hsize
          simp [hsize] at hhidden
        have hnone := TilesFrom.eq_nil hrun hsize
        subst hnone
        rw [List.append_nil] at hlater ⊢
        exact hlater

end Listings

/-- The place of the greatest address up to `vaddr`, and the first place where every
address is greater. -/
def FindsRow (addresses : List UInt64) (vaddr : UInt64) (index : Nat) : Prop :=
  ((∀ address ∈ addresses, vaddr < address) ∧ index = 0) ∨
  ∃ found, addresses[index]? = some found ∧ found ≤ vaddr ∧
    ∀ (i : Nat) (other : UInt64), addresses[i]? = some other → i ≠ index → other ≤ vaddr →
      other < found

theorem findsRow_of_greatest {rows : List Row} {vaddr : UInt64} {best : Option Nat}
    (h : Greatest (fun i => (addressOf rows i).toNat) rows.length vaddr.toNat best) :
    FindsRow (rows.map Row.address) vaddr (best.getD 0) := by
  have hget : ∀ i (hi : i < rows.length), addressOf rows i = rows[i].address := by
    intro i hi
    rw [addressOf, List.getElem?_eq_getElem hi]
    rfl
  cases h with
  | absent hnone =>
      refine Or.inl ⟨?_, rfl⟩
      intro address hmem
      obtain ⟨row, hrow, rfl⟩ := List.mem_map.mp hmem
      obtain ⟨i, hi, rfl⟩ := List.getElem_of_mem hrow
      rw [UInt64.lt_iff_toNat_lt, ← hget i hi]
      exact hnone i hi
  | @found place hlt hle hmax =>
      refine Or.inr ⟨rows[place].address, ?_, ?_, ?_⟩
      · rw [Option.getD_some, List.getElem?_map, List.getElem?_eq_getElem hlt]
        rfl
      · rw [UInt64.le_iff_toNat_le, ← hget place hlt]
        exact hle
      · intro i other hi hne hbound
        rw [List.getElem?_map, Option.map_eq_some_iff] at hi
        obtain ⟨row, hrow, rfl⟩ := hi
        obtain ⟨hi, rfl⟩ := List.getElem?_eq_some_iff.mp hrow
        rw [UInt64.le_iff_toNat_le, ← hget i hi] at hbound
        rw [UInt64.lt_iff_toNat_lt, ← hget i hi, ← hget place hlt]
        exact hmax i hi hne hbound

/-- The rows shown at any moment of a sweep are runs of rows, one for each section. -/
theorem exists_runs {contents : AddressSpace} {arch : Arch} {commonSections : Sections}
    {entryAddress : UInt64} {outputStreams : List String} {sweep : Sweep}
    (hrun : Relation.ReflTransGen SweepStep
      (.start (.construct contents arch commonSections entryAddress outputStreams)) sweep)
    {shown : Nat} (hshown : shown ≤ sweep.disassembler.readyCount) :
    ∃ runs, List.Forall₂ (fun header => TilesFrom contents header 0) commonSections.text runs ∧
      runs.flatten.length = shown ∧
      sweep.disassembler.instructionAddresses.toList.take shown =
        runs.flatten.map Row.address ∧
      sweep.disassembler.commonSections = commonSections := by
  obtain ⟨hsound, hgrows⟩ := sound_run
    (sound_construct contents arch commonSections entryAddress outputStreams false) hrun
  have hlisted : listed sweep.disassembler = listing contents arch commonSections.text :=
    hgrows.listed_eq
  obtain ⟨hready, hsize⟩ := hsound.counts
  have hsize_le := hsound.size_le
  obtain ⟨runs, hruns, hrows⟩ :=
    SweepTiling.take_listing_tilesFrom contents arch commonSections.text shown
  refine ⟨runs, hruns, ?_, ?_, hgrows.sections⟩
  · rw [← hrows, List.length_take, ← hlisted]
    omega
  · rw [hsound.addresses, ← List.map_take, List.take_take, Nat.min_eq_left (by omega), hlisted,
      hrows]

theorem laid_sectionsOf {contents : AddressSpace} {disassembler : Disassembler}
    {runs : List (List Row)}
    (h : List.Forall₂ (fun header => TilesFrom contents header 0)
      disassembler.commonSections.text runs)
    (hapart : Apart disassembler.commonSections.text) :
    Laid (addressOf runs.flatten) runs.flatten.length 0 (sectionsOf disassembler) := by
  rw [sectionsOf, List.append_assoc, List.append_assoc]
  refine laid_namedSections h hapart ?_ []
  intro s hs
  simp only [namedSections, List.mem_append, List.mem_map] at hs
  rcases hs with ⟨_, -, rfl⟩ | ⟨_, -, rfl⟩ | ⟨_, -, rfl⟩
  · exact (by decide : ".data" ≠ ".text")
  · exact (by decide : ".rodata" ≠ ".text")
  · exact (by decide : ".bss" ≠ ".text")

/-- At any moment of a sweep, and for any number of rows published so far, both searches
find the last row up to the address, and they read no other rows. -/
theorem search_finds_row (contents : AddressSpace) (arch : Arch) (commonSections : Sections)
    (entryAddress : UInt64) (outputStreams : List String) {sweep : Sweep}
    (hrun : Relation.ReflTransGen SweepStep
      (.start (.construct contents arch commonSections entryAddress outputStreams)) sweep)
    (hapart : Apart commonSections.text) {shown : Nat}
    (hshown : shown ≤ sweep.disassembler.readyCount) {rowVaddr : Nat → Except Thrown UInt64}
    (hread : ∀ i, i < shown → rowVaddr i = addressAt sweep.disassembler i) (vaddr : UInt64) :
    ∃ index, rowIndexFor rowVaddr shown vaddr (sectionsOf sweep.disassembler) = .ok index ∧
      navigateTo rowVaddr shown vaddr (sectionsOf sweep.disassembler) =
        .ok (if shown = 0 then none else some index) ∧
      FindsRow (sweep.disassembler.instructionAddresses.toList.take shown) vaddr index := by
  obtain ⟨runs, hruns, rfl, haddresses, hsections⟩ := exists_runs hrun hshown
  have hdistinct := distinct_flatten hruns hapart
  rw [← hsections] at hruns hapart
  have hlaid := laid_sectionsOf hruns hapart
  generalize runs.flatten = rows at haddresses hdistinct hlaid hread
  have hreads : ∀ i, i < rows.length → rowVaddr i = .ok (addressOf rows i) := by
    intro i hi
    rw [hread i hi, addressAt, ChunkStore.element_eq_ok_iff,
      ← List.getElem?_take_of_lt (i := i) hi, haddresses, List.getElem?_map, addressOf,
      List.getElem?_eq_getElem hi]
    rfl
  have hplaces : ∀ i j, i < j → j < rows.length →
      (addressOf rows i).toNat ≠ (addressOf rows j).toNat := by
    intro i j hij hj
    rw [addressOf, addressOf, List.getElem?_eq_getElem hj,
      List.getElem?_eq_getElem (Nat.lt_trans hij hj)]
    exact List.pairwise_iff_getElem.mp hdistinct i j _ hj hij
  have hsofar : Sofar (addressOf rows) vaddr {} := by
    refine ⟨none, .absent ?_, rfl, rfl⟩
    intro i hi
    exact absurd hi (Nat.not_lt_zero i)
  obtain ⟨last, hlast, hstart, best, hgreatest, hbest, -⟩ :=
    @foldlM_searchSection _ _ _ vaddr _ _ hreads hplaces hsofar hlaid
  rw [hstart] at hgreatest
  rw [haddresses, rowIndexFor, navigateTo, hlast]
  refine ⟨best.getD 0, ?_, ?_, findsRow_of_greatest hgreatest⟩
  · split
    · cases hgreatest with
      | absent => rfl
      | found hlt => omega
    · rw [← hbest]
      rfl
  · split
    · rfl
    · rw [← hbest]
      rfl

theorem length_twoNops : [(0x90 : UInt8), 0x90].length < 2 ^ 64 := by decide

/-- Two sections whose order in the file is not that of their addresses. -/
def twoNops : Disassembler :=
  .construct ⟨[0x90, 0x90], length_twoNops⟩ .x86_64
    { text := [⟨0x2000, 0, 1⟩, ⟨0x1000, 1, 1⟩] } 0x1000 []

theorem search_finds_row_twoNops :
    ∃ index, rowIndexFor (addressAt ((Sweep.start twoNops).proceed 24).disassembler) 2 0x1800
        (sectionsOf ((Sweep.start twoNops).proceed 24).disassembler) = .ok index ∧
      FindsRow (((Sweep.start twoNops).proceed 24).disassembler.instructionAddresses.toList.take 2)
        0x1800 index := by
  have happart : Apart twoNops.commonSections.text := by
    refine ⟨List.pairwise_pair.mpr ?_, ?_⟩
    · rintro n ⟨hle, -⟩ ⟨-, hlt⟩
      exact absurd (Nat.lt_of_le_of_lt hle hlt) (by decide)
    · intro header hmem
      rcases List.mem_pair.mp hmem with rfl | rfl
      · decide
      · decide
  have hready : 2 ≤ ((Sweep.start twoNops).proceed 24).disassembler.readyCount := by
    decide +kernel
  obtain ⟨index, hindex, -, hfinds⟩ := search_finds_row _ _ _ _ _
    (Sweep.proceed_run 24 (.start twoNops)) happart hready (fun _ _ => rfl) 0x1800
  exact ⟨index, hindex, hfinds⟩

end Voidwalk.AddressSearch

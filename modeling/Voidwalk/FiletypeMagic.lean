import Voidwalk.FileFields
import Voidwalk.FileTypeDetection

/-!
What `determine_filetype` finds against the magic numbers of the two formats, and the short
files that it throws on.
-/

namespace Voidwalk.FiletypeMagic

open Voidwalk.MappedFile
open Voidwalk.MappedFile.AddressSpace
open Voidwalk.FileFields
open Voidwalk.FileTypeDetection

def elfMagic : List UInt8 := [0x7F, 0x45, 0x4C, 0x46]

def dosMagic : List UInt8 := [0x4D, 0x5A]

def peMagic : List UInt8 := [0x50, 0x45, 0x00, 0x00]

def IsElfFile (contents : AddressSpace) : Prop := Holds contents 0 elfMagic

/-- The PE signature stands where the 32 bits at 3C point to. -/
def IsPeFile (contents : AddressSpace) : Prop :=
  Holds contents 0 dosMagic ∧
    ∃ peHeader < 2 ^ 32, Holds contents 0x3C (encode 4 peHeader) ∧ Holds contents peHeader peMagic

/-- The flags that `determine_filetype` leaves behind are those of the format. -/
def Detects (contents : AddressSpace) : Prop :=
  ∃ isElf isPe, determineFiletype false contents = .ok (isElf, isPe) ∧
    (isElf = true ↔ IsElfFile contents) ∧ (isPe = true ↔ IsPeFile contents) ∧
      ¬ (isElf = true ∧ isPe = true)

section Magic

variable {contents : AddressSpace} {position : Nat}

theorem holds_cons {byte : UInt8} {magic : List UInt8}
    (hinside : position < contents.mappedData.length) :
    Holds contents position (byte :: magic) ↔
      contents.mappedData[position] = byte ∧ Holds contents (position + 1) magic := by
  rw [Holds, List.drop_eq_getElem_cons hinside, List.length_cons, List.take_succ_cons,
    List.cons.injEq]
  rfl

/-- The reads of a magic number compare it with the bytes of the file. -/
theorem matchesMagic_eq {magic : List UInt8} {offset : UInt64}
    (hinside : offset.toNat + magic.length ≤ contents.mappedData.length) :
    ∃ found, matchesMagic contents offset magic = .ok found ∧
      (found = true ↔ Holds contents offset.toNat magic) := by
  induction magic generalizing offset with
  | nil => exact ⟨true, rfl, iff_of_true rfl rfl⟩
  | cons byte magic ih =>
      rw [List.length_cons] at hinside
      have hlt : offset.toNat < contents.mappedData.length := by omega
      have hsize := contents.fileSize_lt
      have hnext : (offset + 1).toNat = offset.toNat + 1 := by
        rw [UInt64.toNat_add]
        exact Nat.mod_eq_of_lt (by simp only [UInt64.reduceToNat]; omega)
      obtain ⟨found, hfound, hiff⟩ := @ih (offset + 1) (by omega)
      rw [matchesMagic, readU8_of_lt _ _ hlt, holds_cons hlt]
      simp only [bind, Except.bind]
      split
      · rename_i hsame
        exact ⟨found, hfound, by rw [hiff, hnext, and_iff_right hsame]⟩
      · rename_i hother
        exact ⟨false, rfl, iff_of_false Bool.false_ne_true fun h => hother h.1⟩

theorem readU32_holds {offset : UInt64}
    (hinside : offset.toNat + 4 ≤ contents.mappedData.length) :
    ∃ value < 2 ^ 32, contents.readU32 offset = .ok (UInt32.ofNat value) ∧
      Holds contents offset.toNat (encode 4 value) := by
  have hlength : ((contents.mappedData.drop offset.toNat).take 4).length = 4 := by
    rw [List.length_take, List.length_drop]
    omega
  have hread : contents.readU32 offset =
      .ok (UInt32.ofNat (littleEndian ((contents.mappedData.drop offset.toNat).take 4))) := by
    rw [readU32, readType, if_neg]
    · rfl
    · rw [readType_eq_error_iff]
      exact Nat.not_lt.mpr hinside
  refine ⟨_, ?_, hread, ?_⟩
  · have hlt := littleEndian_lt ((contents.mappedData.drop offset.toNat).take 4)
    rwa [hlength] at hlt
  · have hencoded := encode_littleEndian ((contents.mappedData.drop offset.toNat).take 4)
    rw [hlength] at hencoded
    rw [Holds, hencoded, hlength]

end Magic

section Formats

variable {contents : AddressSpace}

theorem size_le_iff {count : UInt64} :
    count ≤ contents.size ↔ count.toNat ≤ contents.mappedData.length := by
  rw [UInt64.le_iff_toNat_le, toNat_size]

theorem matchesElf_eq (contents : AddressSpace) :
    ∃ found, matchesElf contents = .ok found ∧ (found = true ↔ IsElfFile contents) := by
  rw [matchesElf]
  split
  · rename_i hsize
    rw [size_le_iff] at hsize
    exact @matchesMagic_eq contents elfMagic 0 hsize
  · rename_i hsize
    rw [size_le_iff] at hsize
    refine ⟨false, rfl, iff_of_false Bool.false_ne_true fun h => hsize ?_⟩
    exact h.length_le (List.cons_ne_nil _ _)

/-- What `matchesPe` does with the value at 3C. -/
def matchesSignature (contents : AddressSpace) (peHeader : UInt32) : Except Thrown Bool := do
  if peHeader.toUInt64 ≤ contents.size - 4 then
    pure ((← contents.readU32 peHeader.toUInt64) = 0x00004550)
  else pure false

theorem matchesSignature_eq {peHeader : Nat} (hheader : peHeader < 2 ^ 32)
    (hsize : 4 ≤ contents.mappedData.length) :
    ∃ found, matchesSignature contents (UInt32.ofNat peHeader) = .ok found ∧
      (found = true ↔ Holds contents peHeader peMagic) := by
  have hvalue : (UInt32.ofNat peHeader).toUInt64.toNat = peHeader := by
    rw [UInt32.toNat_toUInt64, UInt32.toNat_ofNat_of_lt' hheader]
  have hbound : (UInt32.ofNat peHeader).toUInt64 ≤ contents.size - 4 ↔
      peHeader + 4 ≤ contents.mappedData.length := by
    have hsub : (contents.size - 4).toNat = contents.mappedData.length - 4 := by
      rw [UInt64.toNat_sub_of_le _ _ (size_le_iff.mpr (by exact hsize)), toNat_size]
      rfl
    rw [UInt64.le_iff_toNat_le, hvalue, hsub]
    omega
  by_cases hinside : peHeader + 4 ≤ contents.mappedData.length
  · obtain ⟨value, hlt, hread, hholds⟩ := @readU32_holds contents
      (UInt32.ofNat peHeader).toUInt64 (by rwa [hvalue])
    rw [matchesSignature, if_pos (hbound.mpr hinside), hread]
    refine ⟨_, rfl, ?_⟩
    rw [hvalue] at hholds
    rw [decide_eq_true_eq]
    constructor
    · intro hsame
      have hmagic : value = 0x4550 := by
        have htoNat := congrArg UInt32.toNat hsame
        rwa [UInt32.toNat_ofNat_of_lt' hlt] at htoNat
      rwa [hmagic] at hholds
    · intro hmagic
      have hencoded := congrArg littleEndian (hholds.unique hmagic (length_encode _ _))
      rw [@littleEndian_encode 4 value hlt] at hencoded
      rw [hencoded]
      rfl
  · rw [matchesSignature, if_neg (mt hbound.mp hinside)]
    refine ⟨false, rfl, iff_of_false Bool.false_ne_true fun h => hinside ?_⟩
    exact h.length_le (List.cons_ne_nil _ _)

theorem matchesPe_other (h : ¬ Holds contents 0 dosMagic) : matchesPe contents = .ok false := by
  rw [matchesPe]
  split
  · rename_i hsize
    rw [size_le_iff] at hsize
    obtain ⟨found, hfound, hiff⟩ := @matchesMagic_eq contents dosMagic 0 hsize
    have hnone : found = false := by
      rw [← Bool.not_eq_true, hiff]
      exact h
    rw [dosMagic, hnone] at hfound
    rw [hfound]
    rfl
  · rfl

theorem matchesPe_dos (h : Holds contents 0 dosMagic) :
    matchesPe contents = contents.readU32 0x3C >>= matchesSignature contents := by
  have hsize := h.length_le (List.cons_ne_nil _ _)
  obtain ⟨found, hfound, hiff⟩ := @matchesMagic_eq contents dosMagic 0 hsize
  have htwo : 2 ≤ contents.size := size_le_iff.mpr hsize
  rw [matchesPe, if_pos htwo]
  rw [dosMagic, hiff.mpr h] at hfound
  rw [hfound]
  rfl

theorem matchesPe_eq
    (hlong : ¬ (Holds contents 0 dosMagic ∧ contents.mappedData.length < 0x40)) :
    ∃ found, matchesPe contents = .ok found ∧ (found = true ↔ IsPeFile contents) := by
  by_cases hdos : Holds contents 0 dosMagic
  · have hsize : 0x40 ≤ contents.mappedData.length := by
      by_contra hshort
      exact hlong ⟨hdos, Nat.not_le.mp hshort⟩
    obtain ⟨peHeader, hlt, hread, hholds⟩ := @readU32_holds contents 0x3C hsize
    obtain ⟨found, hfound, hiff⟩ := @matchesSignature_eq contents peHeader hlt (by omega)
    refine ⟨found, ?_, hiff.trans ?_⟩
    · rw [matchesPe_dos hdos, hread]
      exact hfound
    constructor
    · exact fun hmagic => ⟨hdos, peHeader, hlt, hholds, hmagic⟩
    · rintro ⟨-, other, hother, hencoded, hmagic⟩
      have hsame := congrArg littleEndian (hencoded.unique hholds (by simp))
      rw [@littleEndian_encode 4 other hother,
        @littleEndian_encode 4 peHeader hlt] at hsame
      rwa [← hsame]
  · exact ⟨false, matchesPe_other hdos, iff_of_false Bool.false_ne_true fun h => hdos h.1⟩

/-- Below 64 bytes the value at 3C is read without a check. -/
theorem matchesPe_short (hdos : Holds contents 0 dosMagic)
    (hshort : contents.mappedData.length < 0x40) :
    matchesPe contents = .error invalidOffset := by
  rcases readU32_inside contents 0x3C with ⟨hin, -⟩ | ⟨-, hthrown⟩
  · exact absurd hin (Nat.not_le.mpr hshort)
  · rw [matchesPe_dos hdos, hthrown]
    rfl

theorem not_both (helf : IsElfFile contents) : ¬ Holds contents 0 dosMagic := by
  intro hdos
  have hfront : Holds contents 0 [0x7F, 0x45] :=
    @Holds.left contents 0 [0x7F, 0x45] [0x4C, 0x46] helf
  exact absurd (hfront.unique hdos rfl) (by decide)

end Formats

/-- The type of a file is detected exactly, unless it begins with MZ and ends before the 32
bits at 3C do. -/
theorem detects_iff (contents : AddressSpace) :
    Detects contents ↔ ¬ (Holds contents 0 dosMagic ∧ contents.mappedData.length < 0x40) := by
  obtain ⟨isElf, helf, helfIff⟩ := matchesElf_eq contents
  have hrun : determineFiletype false contents =
      if isElf = true then .ok (true, false)
      else (matchesPe contents).map fun isPe => (false, isPe) := by
    rw [determineFiletype, helf]
    cases isElf with
    | true => rfl
    | false => cases matchesPe contents <;> rfl
  constructor
  · rintro ⟨_, isPe, hdetected, -⟩ ⟨hdos, hshort⟩
    have hother : isElf = false := by
      rw [← Bool.not_eq_true, helfIff]
      exact fun h => not_both h hdos
    rw [hrun, hother, if_neg Bool.false_ne_true, matchesPe_short hdos hshort] at hdetected
    contradiction
  · intro hlong
    obtain ⟨isPe, hpe, hpeIff⟩ := matchesPe_eq hlong
    cases isElf with
    | true =>
        have hnotPe : ¬ IsPeFile contents := fun h => not_both (helfIff.mp rfl) h.1
        exact ⟨true, false, hrun, helfIff, iff_of_false Bool.false_ne_true hnotPe, by simp⟩
    | false =>
        rw [if_neg Bool.false_ne_true, hpe] at hrun
        exact ⟨false, isPe, hrun, helfIff, hpeIff, by simp⟩

/-- MZ and nothing behind it. -/
def bareDos : AddressSpace where
  mappedData := [0x4D, 0x5A]
  fileSize_lt := by decide

/-- A file too short for the value at 3C throws instead of matching nothing. -/
theorem not_detects_bareDos :
    determineFiletype false bareDos = .error invalidOffset ∧ ¬ Detects bareDos := by
  have hthrown : determineFiletype false bareDos = .error invalidOffset := by decide +kernel
  refine ⟨hthrown, ?_⟩
  rintro ⟨_, _, hdetected, -⟩
  rw [hthrown] at hdetected
  contradiction

end Voidwalk.FiletypeMagic

import Mathlib.Data.List.Basic
import Mathlib.Tactic.Common
import Voidwalk.DecodeLineContract

/-!
Instructions are self-delimiting: the outcome of `decodeLine` depends on the
bytes it consumes only. The one exception is the look-ahead that tells VEX from
LES / LDS in 32-bit mode, which also happens when 15 bytes are already consumed.
-/

namespace Voidwalk.SelfDelimiting

open Voidwalk.MappedFile
open Voidwalk.ChunkStorage
open Voidwalk.OpcodeRows
open Voidwalk.OneByteTables
open Voidwalk.RowResolution
open Voidwalk.InstructionRendering
open Voidwalk.InstructionDecoding
open Voidwalk.DecodeLineContract
open Voidwalk.Library.CountingReader

section Stages

variable {source : ByteSource} {consumed : Consumed UInt8 15}

theorem readLittleEndian_local (byteCount : Nat) :
    Local source consumed fun source => readLittleEndian source byteCount :=
  Local.foldlM (fun _ _ _ => Local.bind Local.next fun _ _ => Local.pure) _ _

theorem decodeEscape_local (locals : DecodeLocals) :
    Local source consumed fun source => decodeEscape source locals := by
  refine Local.bind ?_ fun selected later => Local.pure
  refine Local.bind Local.next fun second later => Local.ite ?_ ?_
  · exact fun _ => Local.bind Local.next fun _ _ => Local.pure
  · exact fun _ => Local.pure

theorem decodeVex_local (is64Bit : Bool) (locals : DecodeLocals) (currentByte : UInt8) :
    Local source consumed fun source => decodeVex is64Bit source locals currentByte := by
  refine Local.bind Local.next fun vex1 later => Local.bind (Local.ite ?_ ?_) ?_
  · exact fun _ => Local.next
  · exact fun _ => Local.pure
  · refine fun vex2 later => Local.ite ?_ ?_
    · exact fun _ => Local.pure
    · exact fun _ => Local.bind Local.next fun _ _ => Local.pure

theorem decodeModRM_local (locals : DecodeLocals) :
    Local source consumed fun source => decodeModRM source locals := by
  refine Local.bind Local.attempt fun modRMFollows later => Local.ite ?_ ?_
  · exact fun _ => Local.bind Local.next fun _ _ => Local.pure
  · exact fun _ => Local.pure

theorem decodeMemory_local (fields : Fields) (modRM : UInt8) :
    Local source consumed fun source => decodeMemory source fields modRM := by
  refine Local.ite (fun _ => Local.bind (Local.ite ?_ ?_) ?_) fun _ => Local.pure
  · exact fun _ => Local.bind Local.next fun _ _ => Local.pure
  · exact fun _ => Local.pure
  · refine fun fields later => Local.ite ?_ ?_
    · exact fun _ => Local.bind (readLittleEndian_local _) fun _ _ => Local.pure
    · exact fun _ => Local.pure

theorem decode3DNow_local (locals : DecodeLocals) :
    Local source consumed fun source => decode3DNow source locals := by
  refine Local.ite ?_ ?_
  · exact fun _ => Local.bind Local.next fun _ _ => Local.bind Local.attempt fun _ _ => Local.pure
  · exact fun _ => Local.pure

theorem decodeImmediate_local (is64Bit : Bool) (vaddr : UInt64) (fields : Fields)
    (operand : TableOperand) :
    Local source consumed fun source => decodeImmediate is64Bit source vaddr fields operand := by
  refine Local.bind (readLittleEndian_local _) fun value later => Local.ite ?_ ?_
  · exact fun _ => Local.bind (readLittleEndian_local 2) fun _ _ => Local.pure
  · refine fun _ => Local.ite ?_ ?_
    · exact fun _ => Local.bind Local.get fun _ _ => Local.pure
    · exact fun _ => Local.ite (fun _ => Local.pure) fun _ => Local.pure

theorem decodeImmediates_local (is64Bit : Bool) (vaddr : UInt64) (fields : Fields) :
    Local source consumed fun source => decodeImmediates is64Bit vaddr source fields := by
  refine Local.bind (Local.foldlM ?_ _ _) fun _ _ => Local.pure
  intro state operand before
  by_cases h : operand.addressingMode.isImmediate = true ∧ state.2 < 2
  · simp only [immediateStep, dif_pos h]
    exact Local.bind (decodeImmediate_local is64Bit vaddr state.1 operand) fun _ _ => Local.pure
  · simp only [immediateStep, dif_neg h]
    exact Local.pure

theorem decodeOperands_local (is64Bit : Bool) (vaddr : UInt64) (locals : DecodeLocals) :
    Local source consumed fun source => decodeOperands is64Bit vaddr source locals := by
  refine Local.bind (decodeModRM_local locals) fun addressed _ => ?_
  refine Local.bind (Local.bind Local.attempt fun _ _ => Local.pure) fun resolved _ => ?_
  refine Local.bind (decodeMemory_local _ _) fun fields _ => ?_
  refine Local.bind (decode3DNow_local _) fun named _ => ?_
  exact Local.bind (decodeImmediates_local is64Bit vaddr _) fun _ _ => Local.pure

def decodeAfterPrefixes (is64Bit : Bool) (vaddr : UInt64) (source : ByteSource)
    (prefixed : DecodeLocals × UInt8) : Decoding DecodeLocals := do
  let locals ← decodeOpcode is64Bit source prefixed
  if locals.fields.isInvalid then pure locals
  else decodeOperands is64Bit vaddr source locals

def decodeAfterOpcode (is64Bit : Bool) (vaddr : UInt64) (source : ByteSource)
    (locals : DecodeLocals) : Decoding DecodeLocals :=
  if locals.fields.isInvalid then pure locals
  else decodeOperands is64Bit vaddr source locals

theorem decodeAfterOpcode_local (is64Bit : Bool) (vaddr : UInt64) (locals : DecodeLocals) :
    Local source consumed fun source => decodeAfterOpcode is64Bit vaddr source locals :=
  Local.ite (fun _ => Local.pure) fun _ => decodeOperands_local is64Bit vaddr locals

theorem decodeAfterOpcode_yields (is64Bit : Bool) (vaddr : UInt64) {locals : DecodeLocals}
    (h : locals.fields.isInvalid = true ∨ KnownMap locals.simd) :
    Yields source consumed (decodeAfterOpcode is64Bit vaddr source locals) fun _ _ => True := by
  rw [decodeAfterOpcode]
  split_ifs with hinvalid
  · exact Yields.pure trivial
  · exact (decodeOperands_yields is64Bit vaddr (h.resolve_left hinvalid)).mono
      fun _ _ _ _ => trivial

theorem hasModRM_farPointer {opcode : UInt8} (h : opcode = 0xC4 ∨ opcode = 0xC5) :
    hasModRM opcode {} = .ok true := by
  rcases h with rfl | rfl <;> decide +kernel

theorem decodeFarPointer_draws (vaddr : UInt64) {locals : DecodeLocals} {currentByte : UInt8}
    (hlocals : Unopened locals) (hbyte : currentByte = 0xC4 ∨ currentByte = 0xC5) :
    Yields source consumed
      (decodeOneByte false locals currentByte >>= decodeAfterOpcode false vaddr source)
      fun _ later => consumed.length < later.length := by
  have hmodRM := hasModRM_farPointer hbyte
  rw [← hlocals.1] at hmodRM
  have hmap : KnownMap locals.simd := by
    rw [hlocals.1]
    exact ⟨by decide, by decide, by decide⟩
  rw [decodeOneByte, if_neg (by decide), pure_bind, decodeAfterOpcode,
    if_neg (by simp [hlocals.2]), decodeOperands]
  refine Yields.bind (P := fun addressed later =>
    consumed.length < later.length ∧ KnownMap addressed.1.simd) ?_ ?_
  · rw [decodeModRM]
    refine Yields.bind (P := fun follows later => follows = true ∧ later = consumed)
      (Yields.attempt hmodRM ⟨rfl, rfl⟩) ?_
    rintro _ _ - ⟨rfl, rfl⟩
    exact Yields.nextBind fun _ _ _ => Yields.pure hmap
  · rintro addressed later - ⟨hlength, hknown⟩
    refine Yields.mono (Q := fun _ _ => True) ?_
      fun _ final hgrows _ => Nat.lt_of_lt_of_le hlength hgrows.length_le
    refine Yields.bind (resolveRow_yields false addressed.2 hknown) fun resolved _ _ hcount => ?_
    refine Yields.bind (decodeMemory_yields _ _) fun fields _ _ hinfo => ?_
    refine Yields.bind (decode3DNow_yields (by simpa [hinfo] using hcount)) fun named _ _ _ => ?_
    exact Yields.bind (decodeImmediates_yields false vaddr _) fun _ _ _ _ => Yields.pure trivial

theorem decodeAfterPrefixes_far (vaddr : UInt64) (source : ByteSource)
    {prefixed : DecodeLocals × UInt8} (hfar : prefixed.2 = 0xC4 ∨ prefixed.2 = 0xC5) :
    decodeAfterPrefixes false vaddr source prefixed = peek source >>= fun byte =>
      (if byte ≥ 0xC0 then decodeVex false source prefixed.1 prefixed.2
        else decodeOneByte false prefixed.1 prefixed.2) >>=
      decodeAfterOpcode false vaddr source := by
  have hescape : prefixed.2 ≠ 0x0F := by
    rcases hfar with h | h <;> rw [h] <;> decide
  simp only [decodeAfterPrefixes, decodeOpcode, if_neg hescape, if_pos hfar, opensVex,
    Bool.false_eq_true, if_false, bind_assoc, pure_bind, decide_eq_true_eq]
  rfl

/-- Behind the prefixes the outcome depends on the drawn bytes only, except for
a look-ahead past the limit. -/
theorem decodeAfterPrefixes_local (is64Bit : Bool) (vaddr : UInt64)
    {prefixed : DecodeLocals × UInt8} (hlocals : Unopened prefixed.1)
    (hlook : is64Bit = false → prefixed.2 = 0xC4 ∨ prefixed.2 = 0xC5 → consumed.length < 15) :
    Local source consumed fun source => decodeAfterPrefixes is64Bit vaddr source prefixed := by
  have hrest (locals : DecodeLocals) (later : Consumed UInt8 15) :=
    @decodeAfterOpcode_local source later is64Bit vaddr locals
  have honeByte (later : Consumed UInt8 15) : Local source later
      fun _ => decodeOneByte is64Bit prefixed.1 prefixed.2 :=
    Local.ite (fun _ => Local.bind Local.attempt fun _ _ => Local.ite (fun _ => Local.pure)
      fun _ => Local.pure) fun _ => Local.pure
  by_cases hescape : prefixed.2 = 0x0F
  · simp only [decodeAfterPrefixes, decodeOpcode, if_pos hescape]
    exact Local.bind (decodeEscape_local prefixed.1) hrest
  by_cases hfar : prefixed.2 = 0xC4 ∨ prefixed.2 = 0xC5
  · simp only [decodeAfterPrefixes, decodeOpcode, if_neg hescape, if_pos hfar]
    cases is64Bit with
    | true => exact Local.bind (Local.bind Local.pure fun _ _ =>
        Local.ite (fun _ => decodeVex_local true _ _) fun _ => honeByte _) hrest
    | false =>
        have hshape : (fun source => decodeAfterPrefixes false vaddr source prefixed) = _ :=
          funext fun source => decodeAfterPrefixes_far vaddr source hfar
        simp only [decodeAfterPrefixes, decodeOpcode, if_neg hescape, if_pos hfar] at hshape
        rw [hshape]
        refine Local.peekBind (hlook rfl hfar) (fun byte => ?_) fun byte => ?_
        · refine Local.bind (Local.ite ?_ ?_) hrest
          · exact fun _ => decodeVex_local false _ _
          · exact fun _ => honeByte consumed
        · split_ifs
          · refine Yields.bind (decodeVex_yields false _ _) fun locals later _ hvex => ?_
            exact (decodeAfterOpcode_yields false vaddr hvex.2).mono
              fun _ _ hgrows _ => Nat.lt_of_lt_of_le hvex.1 hgrows.length_le
          · exact decodeFarPointer_draws vaddr hlocals hfar
  · simp only [decodeAfterPrefixes, decodeOpcode, if_neg hescape, if_neg hfar]
    exact Local.bind (honeByte consumed) hrest

/-- Fourteen legacy prefixes and then C4 or C5: in 32-bit mode the look-ahead
behind them is at a sixteenth byte. -/
def FarPointerAtLimit (bytes : List UInt8) : Prop :=
  ∃ prefixes last, bytes = prefixes ++ [last] ∧ prefixes.length = 14 ∧
    (∀ byte ∈ prefixes, isPrefix byte = true) ∧ (last = 0xC4 ∨ last = 0xC5)

theorem decodeInstruction_local (is64Bit : Bool) (vaddr : UInt64)
    (hlook : is64Bit = false → ∀ bytes : Consumed UInt8 15, Drawn source bytes →
      ¬ FarPointerAtLimit bytes.symbols) :
    Local source .empty (decodeInstruction is64Bit vaddr) := by
  refine Local.bindYields (Local.scan 15 _) (decodePrefixes_yields is64Bit) ?_
  rintro prefixed later ⟨hlocals, prefixes, hsymbols, hprefixes⟩
  refine Local.of_drawn fun hdrawn => decodeAfterPrefixes_local is64Bit vaddr hlocals ?_
  intro hlegacy hfar
  by_contra hlimit
  refine hlook hlegacy later hdrawn ⟨prefixes, prefixed.2, hsymbols, ?_, ?_, hfar⟩
  · have hlength : later.length = prefixes.length + 1 := by simp [Consumed.length, hsymbols]
    have hle := later.length_le_limit
    omega
  · intro byte hbyte
    simpa [isPrefixOrRex, isRex, hlegacy] using hprefixes byte hbyte

end Stages

def Appends (store : InstructionStore) (result : Except Thrown (UInt64 × InstructionStore))
    (nextOffset : UInt64) (row : Instruction) : Prop :=
  ∃ store', result = .ok (nextOffset, store') ∧ store'.toList = store.toList ++ [row]

theorem appends_iff {store : InstructionStore}
    {result : Except Thrown (UInt64 × InstructionStore)} {nextOffset : UInt64} {row : Instruction} :
    Appends store result nextOffset row ↔
      result.map (Prod.map id ChunkStore.toList) = .ok (nextOffset, store.toList ++ [row]) := by
  rcases result with thrown | ⟨offset, later⟩
  · simp [Appends, Except.map]
  · simp [Appends, Except.map]

instance (store : InstructionStore) (result : Except Thrown (UInt64 × InstructionStore))
    (nextOffset : UInt64) (row : Instruction) : Decidable (Appends store result nextOffset row) :=
  decidable_of_iff _ appends_iff.symm

def SameBytes (contents other : AddressSpace) (fileOffset : UInt64) (n : Nat) : Prop :=
  fileOffset.toNat + n ≤ other.mappedData.length ∧
    (other.mappedData.drop fileOffset.toNat).take n =
      (contents.mappedData.drop fileOffset.toNat).take n

/-- The instruction at `fileOffset` is decoded from its own bytes: any other file
that contains them gives the same row, there are at most 15 of them, and 15
available bytes always give a row. -/
structure SelfDelimited (is64Bit : Bool) (contents : AddressSpace) (fileOffset vaddr : UInt64) :
    Prop where
  same_row : ∀ (n : Nat) (nextOffset : UInt64) (row : Instruction)
    (store store' : InstructionStore) (other : AddressSpace), 1 ≤ n →
    nextOffset.toNat = fileOffset.toNat + n →
    Appends store (decodeLine is64Bit contents fileOffset vaddr store) nextOffset row →
    SameBytes contents other fileOffset n →
    Appends store' (decodeLine is64Bit other fileOffset vaddr store') nextOffset row
  length_le : ∀ (n : Nat) (nextOffset : UInt64) (row : Instruction) (store : InstructionStore),
    1 ≤ n → nextOffset.toNat = fileOffset.toNat + n →
    Appends store (decodeLine is64Bit contents fileOffset vaddr store) nextOffset row → n ≤ 15
  row_of_fifteen : fileOffset.toNat + 15 ≤ contents.mappedData.length →
    ∀ store, ∃ nextOffset row,
      Appends store (decodeLine is64Bit contents fileOffset vaddr store) nextOffset row

theorem readU8_bytesAt (contents : AddressSpace) (fileOffset : UInt64) (i : Nat)
    (h : fileOffset.toNat + i < contents.mappedData.length) :
    bytesAt contents fileOffset i = .ok contents.mappedData[fileOffset.toNat + i] := by
  have hoffset : (fileOffset + UInt64.ofNat i).toNat = fileOffset.toNat + i :=
    toNat_add_ofNat (h.trans contents.fileSize_lt)
  rw [bytesAt, contents.readU8_of_lt _ (by rwa [hoffset])]
  simp only [hoffset]

theorem drawn_of_take {contents : AddressSpace} {fileOffset : UInt64} {bytes : Consumed UInt8 15}
    (hinside : fileOffset.toNat + bytes.length ≤ contents.mappedData.length)
    (hbytes : (contents.mappedData.drop fileOffset.toNat).take bytes.length = bytes.symbols) :
    Drawn (bytesAt contents fileOffset) bytes := by
  intro i (hi : i < bytes.length)
  rw [readU8_bytesAt contents fileOffset i (by omega)]
  simp only [← hbytes, List.getElem_take, List.getElem_drop]

section Rows

variable {is64Bit : Bool} {contents : AddressSpace} {fileOffset vaddr : UInt64}

theorem outcome_of_appends {n : Nat} {nextOffset : UInt64} {row : Instruction}
    {store : InstructionStore} (hpos : 1 ≤ n) (hnext : nextOffset.toNat = fileOffset.toNat + n)
    (h : Appends store (decodeLine is64Bit contents fileOffset vaddr store) nextOffset row)
    {outcome : EStateM.Result (Stop Thrown) (Consumed UInt8 15) DecodeLocals}
    (houtcome : decodeInstruction is64Bit vaddr (bytesAt contents fileOffset) .empty = outcome) :
    Drawn (bytesAt contents fileOffset) (consumedOf outcome) ∧ (consumedOf outcome).length = n ∧
      (∀ thrown later, outcome ≠ .error (.failed thrown) later) ∧
      ∀ store, finishLine fileOffset store outcome = .ok (nextOffset, store.pushBack row) := by
  obtain ⟨store', hresult, hlist⟩ := h
  have hyields := (@decodeInstruction_yields (bytesAt contents fileOffset)
    is64Bit vaddr).settled (Drawn.empty _)
  rw [decodeLine] at hresult
  rw [houtcome] at hyields hresult
  rcases finishLine_row fileOffset hyields with
    hfailed | ⟨hnofail, hdrawn, hone, instruction, -, hrow⟩
  · obtain ⟨thrown, later, rfl, -, hthrown⟩ := hfailed
    rw [finishLine_failed store hthrown] at hresult
    rw [← (Prod.mk.inj (Except.ok.inj hresult)).1] at hnext
    omega
  · obtain ⟨hoffset, hstore⟩ := Prod.mk.inj (Except.ok.inj ((hrow store).symm.trans hresult))
    have hlength : (fileOffset + UInt64.ofNat (consumedOf outcome).length).toNat =
        fileOffset.toNat + (consumedOf outcome).length :=
      toNat_add_ofNat ((drawn_bytesAt hdrawn hone).1.trans_lt contents.fileSize_lt)
    have hinstruction : instruction = row := by
      rw [← hstore, store.toList_pushBack] at hlist
      exact List.singleton_inj.mp (List.append_cancel_left hlist)
    refine ⟨hdrawn, ?_, hnofail, fun store => ?_⟩
    · rw [hoffset] at hlength
      omega
    · rw [← hoffset, ← hinstruction]
      exact hrow store

/-- A run that no look-ahead past the limit spoils is repeated on every file with
the same bytes. -/
theorem same_row_of_local
    (hlook : is64Bit = false →
      ¬ FarPointerAtLimit ((contents.mappedData.drop fileOffset.toNat).take 15))
    {n : Nat} {nextOffset : UInt64} {row : Instruction} {store store' : InstructionStore}
    {other : AddressSpace} (hpos : 1 ≤ n) (hnext : nextOffset.toNat = fileOffset.toNat + n)
    (h : Appends store (decodeLine is64Bit contents fileOffset vaddr store) nextOffset row)
    (hsame : SameBytes contents other fileOffset n) :
    Appends store' (decodeLine is64Bit other fileOffset vaddr store') nextOffset row := by
  obtain ⟨hdrawn, hlength, hnofail, hfinish⟩ := outcome_of_appends hpos hnext h rfl
  have hlocal := (@decodeInstruction_local (bytesAt contents fileOffset) is64Bit vaddr
    (by
      intro hlegacy bytes hbytes hfar
      obtain ⟨prefixes, last, hsymbols, hprefixes, -⟩ := id hfar
      have hfull : bytes.length = 15 := by simp [Consumed.length, hsymbols, hprefixes]
      have htake := (drawn_bytesAt hbytes (by omega)).2
      rw [hfull] at htake
      exact hlook hlegacy (htake ▸ hfar))).confined (Drawn.empty _)
  have hother : Drawn (bytesAt other fileOffset)
      (consumedOf (decodeInstruction is64Bit vaddr (bytesAt contents fileOffset) .empty)) := by
    refine drawn_of_take (hlength ▸ hsame.1) ?_
    rw [hlength, hsame.2, ← hlength]
    exact (drawn_bytesAt hdrawn (by omega)).2.symm
  have hrun : decodeInstruction is64Bit vaddr (bytesAt other fileOffset) .empty =
      decodeInstruction is64Bit vaddr (bytesAt contents fileOffset) .empty := by
    revert hlocal hother hnofail
    rcases decodeInstruction is64Bit vaddr (bytesAt contents fileOffset) .empty with
      ⟨locals, bytes⟩ | ⟨_ | thrown, bytes⟩
    · exact fun _ hlocal hother => hlocal.2.2 _ hother
    · exact fun _ hlocal hother => hlocal.2.2 _ hother
    · exact fun hnofail _ _ => absurd rfl (hnofail thrown bytes)
  exact ⟨store'.pushBack row, by rw [decodeLine, hrun, hfinish store'],
    store'.toList_pushBack row⟩

/-- Fifteen available bytes give a row: a source that goes on for ever behind
them gives one, drawn from the fifteen only. -/
theorem row_of_local
    (hlook : is64Bit = false →
      ¬ FarPointerAtLimit ((contents.mappedData.drop fileOffset.toNat).take 15))
    (hfifteen : fileOffset.toNat + 15 ≤ contents.mappedData.length) (store : InstructionStore) :
    ∃ nextOffset row,
      Appends store (decodeLine is64Bit contents fileOffset vaddr store) nextOffset row := by
  let padded : ByteSource := fun i => if i < 15 then bytesAt contents fileOffset i else .ok 0
  have hpadded (bytes : Consumed UInt8 15) (hbytes : Drawn padded bytes) :
      Drawn (bytesAt contents fileOffset) bytes := by
    intro i hi
    have hlt : i < 15 := Nat.lt_of_lt_of_le hi bytes.length_le
    simpa only [padded, if_pos hlt] using hbytes i hi
  have hlocal := (@decodeInstruction_local padded is64Bit vaddr
    (by
      intro hlegacy bytes hbytes hfar
      obtain ⟨prefixes, last, hsymbols, hprefixes, -⟩ := id hfar
      have hfull : bytes.length = 15 := by simp [Consumed.length, hsymbols, hprefixes]
      have htake := (drawn_bytesAt (hpadded bytes hbytes) (by omega)).2
      rw [hfull] at htake
      exact hlook hlegacy (htake ▸ hfar))).confined (Drawn.empty _)
  have hyields := (@decodeInstruction_yields padded is64Bit vaddr).settled
    (Drawn.empty _)
  rcases finishLine_row fileOffset hyields with
    hfailed | ⟨hnofail, hdrawn, -, instruction, -, hrow⟩
  · -- The padded source never fails.
    obtain ⟨thrown, later, -, -, hthrown⟩ := hfailed
    simp only [padded] at hthrown
    split_ifs at hthrown with hlt
    rw [readU8_bytesAt contents fileOffset _ (by omega)] at hthrown
    contradiction
  · have hrun : decodeInstruction is64Bit vaddr (bytesAt contents fileOffset) .empty =
        decodeInstruction is64Bit vaddr padded .empty := by
      revert hlocal hnofail hdrawn
      rcases decodeInstruction is64Bit vaddr padded .empty with
        ⟨locals, bytes⟩ | ⟨_ | thrown, bytes⟩
      · exact fun hlocal _ hdrawn => hlocal.2.2 _ (hpadded _ hdrawn)
      · exact fun hlocal _ hdrawn => hlocal.2.2 _ (hpadded _ hdrawn)
      · exact fun _ hnofail _ => absurd rfl (hnofail thrown bytes)
    exact ⟨_, instruction, _, by rw [decodeLine, hrun, hrow store],
      store.toList_pushBack instruction⟩

/-- Where the file ends right behind the fifteen bytes, the look-ahead fails and
no row is appended. -/
theorem decodeLine_farPointerAtLimit
    (hend : contents.mappedData.length = fileOffset.toNat + 15)
    (hfar : FarPointerAtLimit ((contents.mappedData.drop fileOffset.toNat).take 15))
    (store : InstructionStore) :
    decodeLine false contents fileOffset vaddr store = .ok (fileOffset, store) := by
  obtain ⟨prefixes, last, hbytes, hlength, hprefixes, hlast⟩ := hfar
  obtain ⟨later, hsymbols, hrun⟩ := @scanPrefixes_run (bytesAt contents fileOffset) .empty false
    prefixes last
    (fun byte hmem => by simp [isPrefixOrRex, hprefixes byte hmem])
    (by rcases hlast with rfl | rfl <;> decide +kernel) 15 { fields := { is64Bit := false } }
    (by omega) (by simp [hlength])
    (by
      intro i byte hbyte
      rw [← hbytes] at hbyte
      obtain ⟨hi, hget⟩ := List.getElem?_eq_some_iff.mp hbyte
      have hlt : fileOffset.toNat + i < contents.mappedData.length := by
        rw [List.length_take] at hi
        omega
      rw [Consumed.length_empty, Nat.zero_add, readU8_bytesAt contents fileOffset i hlt, ← hget,
        List.getElem_take, List.getElem_drop])
  have hfull : later.length = 15 := by simp [Consumed.length, hsymbols, Consumed.empty, hlength]
  have hthrown : bytesAt contents fileOffset later.length =
      .error (.lengthError "[voidwalk] : Invalid offset.\n") := by
    refine contents.readU8_of_le _ ?_
    have hsize := contents.fileSize_lt
    rw [hfull, UInt64.toNat_add, UInt64.toNat_ofNat_of_lt' (by decide), hend]
    omega
  have hpeek : peek (bytesAt contents fileOffset) later =
      .error (.failed (.lengthError "[voidwalk] : Invalid offset.\n")) later := by
    simp only [peek, hthrown]
  have hinstruction : decodeInstruction false vaddr (bytesAt contents fileOffset) .empty =
      .error (.failed (.lengthError "[voidwalk] : Invalid offset.\n")) later := by
    change (decodePrefixes false (bytesAt contents fileOffset) >>=
      decodeAfterPrefixes false vaddr (bytesAt contents fileOffset)) .empty = _
    refine (bind_of_ok hrun).trans ?_
    rw [decodeAfterPrefixes_far vaddr _ hlast]
    exact bind_of_error hpeek
  rw [decodeLine, hinstruction]
  rfl

end Rows

def truncated (contents : AddressSpace) (length : Nat) : AddressSpace where
  mappedData := contents.mappedData.take length
  fileSize_lt := by
    have := contents.fileSize_lt
    rw [List.length_take]
    omega

theorem sameBytes_truncated (contents : AddressSpace) (fileOffset : UInt64) {n length : Nat}
    (hn : n ≤ length) (hinside : fileOffset.toNat + length ≤ contents.mappedData.length) :
    SameBytes contents (truncated contents (fileOffset.toNat + length)) fileOffset n := by
  constructor
  · simp only [truncated, List.length_take]
    omega
  · simp only [truncated, List.drop_take, List.take_take]
    congr 1
    omega

theorem not_appends_unchanged {store : InstructionStore} {fileOffset nextOffset : UInt64}
    {row : Instruction} : ¬ Appends store (.ok (fileOffset, store)) nextOffset row := by
  rintro ⟨store', hresult, hlist⟩
  rw [← (Prod.mk.inj (Except.ok.inj hresult)).2] at hlist
  simpa using congrArg List.length hlist

/-- Behind 14 prefixes the far-pointer opcode needs a sixteenth byte: with it the
fifteen bytes are a row, at the end of a file they are none. -/
theorem not_selfDelimited_of_farPointerAtLimit {contents : AddressSpace}
    {fileOffset vaddr : UInt64}
    (hfar : FarPointerAtLimit ((contents.mappedData.drop fileOffset.toNat).take 15)) :
    ¬ SelfDelimited false contents fileOffset vaddr := by
  intro hself
  have hfifteen : fileOffset.toNat + 15 ≤ contents.mappedData.length := by
    obtain ⟨prefixes, last, hbytes, hlength, -⟩ := id hfar
    have hlen := congrArg List.length hbytes
    simp only [List.length_take, List.length_drop, List.length_append, List.length_singleton,
      hlength] at hlen
    omega
  have hcut := sameBytes_truncated contents fileOffset (Nat.le_refl 15) hfifteen
  have hnothing := @decodeLine_farPointerAtLimit
    (truncated contents (fileOffset.toNat + 15)) fileOffset vaddr
    (by simp only [truncated, List.length_take]; omega) (hcut.2 ▸ hfar) .empty
  rcases decodeLine_cases false contents fileOffset vaddr with hnone | ⟨n, row, happends⟩
  · obtain ⟨nextOffset, row, happends⟩ := hself.row_of_fifteen hfifteen .empty
    exact not_appends_unchanged (hnone.2 .empty ▸ happends)
  · have hrow := happends .empty
    have happends : Appends .empty (decodeLine false contents fileOffset vaddr .empty)
        (fileOffset + UInt64.ofNat n) row :=
      ⟨_, hrow.result_eq, ChunkStore.toList_pushBack _ row⟩
    have hsame := hself.same_row n _ row .empty .empty _ hrow.length_pos hrow.toNat_next happends
      (sameBytes_truncated contents fileOffset hrow.length_le hfifteen)
    exact not_appends_unchanged (hnothing ▸ hsame)

/-- Instructions are self-delimiting except where, in 32-bit mode, 14 legacy
prefixes are followed by C4 or C5. -/
theorem selfDelimited_iff (is64Bit : Bool) (contents : AddressSpace) (fileOffset vaddr : UInt64) :
    SelfDelimited is64Bit contents fileOffset vaddr ↔
      ¬ (is64Bit = false ∧
        FarPointerAtLimit ((contents.mappedData.drop fileOffset.toNat).take 15)) := by
  constructor
  · rintro hself ⟨rfl, hfar⟩
    exact not_selfDelimited_of_farPointerAtLimit hfar hself
  · intro hnot
    have hlook (hlegacy : is64Bit = false) :
        ¬ FarPointerAtLimit ((contents.mappedData.drop fileOffset.toNat).take 15) :=
      fun hfar => hnot ⟨hlegacy, hfar⟩
    exact
      { same_row := fun n nextOffset row store store' other hpos hnext hrow hsame =>
          same_row_of_local hlook hpos hnext hrow hsame
        length_le := fun n nextOffset row store hpos hnext hrow => by
          obtain ⟨-, hlength, -⟩ := outcome_of_appends hpos hnext hrow rfl
          exact hlength ▸ Consumed.length_le_limit _
        row_of_fifteen := row_of_local hlook }

/-- Fourteen operand-size prefixes in front of an LES with its ModRM byte. -/
def overlongLes : AddressSpace where
  mappedData := List.replicate 14 0x66 ++ [0xC4, 0x00]
  fileSize_lt := by decide

theorem not_selfDelimited_overlongLes : ¬ SelfDelimited false overlongLes 0 0 :=
  not_selfDelimited_of_farPointerAtLimit
    ⟨List.replicate 14 0x66, 0xC4, rfl, rfl, by decide +kernel, Or.inl rfl⟩

end Voidwalk.SelfDelimiting

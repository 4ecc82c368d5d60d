import Voidwalk.Library.Chunks
import Voidwalk.Library.FixedBuffers
import Voidwalk.Library.Loops
import Voidwalk.Library.SeparatedText
import Voidwalk.Library.SumText
import Voidwalk.OpcodeRows

/-!
`outputHex`: the lines of its dump, the buffers they are put together in, and the file read
back from them.
-/

namespace Voidwalk.HexDump

open Voidwalk.MappedFile
open Voidwalk.OpcodeRows
open Voidwalk.Library
open Voidwalk.Library.Bytes
open Voidwalk.Library.FixedBuffers
open Voidwalk.Library.SeparatedText
open Voidwalk.Library.SumText

/-- The terminator of a C string. -/
def nul : Char := Char.ofNat 0

def kHex (digit : UInt8) : Char := ("0123456789abcdef".toList ++ [nul]).getD digit.toNat nul

/-- `"%08zx  "` of an offset. -/
def offsetText (off : UInt64) : List Char :=
  (Nat.toDigits 16 off.toNat).leftpad 8 '0' ++ [' ', ' ']

/-- The characters of a C string in an array; without a terminator they run out of it. -/
def cString {size : Nat} (text : Vector Char size) : Except Thrown (List Char) :=
  if nul ∈ text.toList then .ok (text.toList.takeWhile (· != nul)) else .error .outOfRange

/-- `snprintf` to `line + n` with room for `room` characters, of which the terminator is one.
It returns the length of the whole text. -/
def snprintf (line : Vector Char 96) (n : Nat) (room : UInt64) (text : List Char) :
    Except Thrown (Vector Char 96 × Nat) :=
  if room = 0 then .ok (line, text.length)
  else
    (storeAll Thrown.outOfRange line n (text.take (room.toNat - 1) ++ [nul])).map fun written =>
      (written, text.length)

/-- The variables of one pass of the outer loop. -/
structure Pass where
  line : Vector Char 96
  n : Nat
  ascii : Vector Char 17

/-- `line[n++] = symbol`. -/
def Pass.put (pass : Pass) (symbol : Char) : Except Thrown Pass :=
  (store Thrown.outOfRange pass.line pass.n symbol).map fun written =>
    { pass with line := written, n := pass.n + 1 }

/-- `ascii[i] = symbol`. -/
def Pass.setAscii (pass : Pass) (i : Nat) (symbol : Char) : Except Thrown Pass :=
  (store Thrown.outOfRange pass.ascii i symbol).map fun written => { pass with ascii := written }

/-- The inner loop's body. -/
def column (file : AddressSpace) (off : UInt64) (pass : Pass) (i : Nat) : Except Thrown Pass := do
  let filled ←
    if off + UInt64.ofNat i < file.size then do
      let b ← file.readU8 (off + UInt64.ofNat i)
      let high ← pass.put (kHex (b >>> 4))
      let low ← high.put (kHex (b &&& 15))
      low.setAscii i (if 0x20 ≤ b && b < 0x7f then Char.ofNat b.toNat else '.')
    else do
      let high ← pass.put ' '
      let low ← high.put ' '
      low.setAscii i ' '
  filled.put ' '

/-- What a pass writes. `line` is uninitialised: it holds what was there before. -/
def outputLine (file : AddressSpace) (line : Vector Char 96) (off : UInt64) :
    Except Thrown (List Char) := do
  let headed ← snprintf line 0 96 (offsetText off)
  let pass ← (List.range 16).foldlM (column file off) ⟨headed.1, headed.2, Vector.replicate 17 nul⟩
  let text ← cString pass.ascii
  let written ← snprintf pass.line pass.n (96 - UInt64.ofNat pass.n)
    ([' ', '|'] ++ text ++ ['|', '\n'])
  load Thrown.outOfRange written.1 (pass.n + written.2)

/-- The outer loop, with the offset it is at and what it has written. -/
def body (file : AddressSpace) (stack : UInt64 → Vector Char 96) :
    Loops.Body (UInt64 × List Char) (List Char) Thrown := fun state =>
  if state.1 < file.size then
    (outputLine file (stack state.1) state.1).map fun line => .inl (state.1 + 16, state.2 ++ line)
  else .ok (.inr state.2)

/-- Everything that is written, unless the loop needs more than `fuel` passes. -/
def outputHex (file : AddressSpace) (stack : UInt64 → Vector Char 96) (fuel : Nat) :
    Option (Except Thrown (List Char)) :=
  Loops.run (body file stack) fuel (0, [])

section Reading

/-- The digits that a line starts with. -/
def offsetDigits (line : List Char) : List Char := before ' ' line

/-- The groups of symbols between the offset and the ASCII column. -/
def groups (line : List Char) : List (List Char) :=
  (((before '|' line).splitOn ' ').filter fun group => !group.isEmpty).drop 1

/-- The two symbols at position `i` of a line. -/
def cell (line : List Char) (i : Nat) : List Char :=
  (line.drop ((offsetDigits line).length + 2 + 3 * i)).take 2

/-- Where the ASCII column starts. -/
def asciiColumn (line : List Char) : Nat := line.idxOf '|' + 1

/-- How the ASCII column shows a byte. -/
def shown (byte : UInt8) : Char :=
  if 0x20 ≤ byte.toNat ∧ byte.toNat ≤ 0x7E then Char.ofNat byte.toNat else '.'

/-- Line `k` of a dump of `bytes`. -/
structure ShowsLine (bytes : List UInt8) (k : Nat) (text : List Char) : Prop where
  offset : numberOf 16 (offsetDigits text) = some (16 * k)
  eight_le : 8 ≤ (offsetDigits text).length
  two_digits : ∀ group ∈ groups text, group.length = 2
  present : ∀ i (_ : i < 16) (h : 16 * k + i < bytes.length),
    numberOf 16 (cell text i) = some bytes[16 * k + i].toNat ∧
      text[asciiColumn text + i]? = some (shown bytes[16 * k + i])
  absent : ∀ i < 16, bytes.length ≤ 16 * k + i →
    cell text i = [' ', ' '] ∧ text[asciiColumn text + i]? = some ' '
  closed : text[asciiColumn text + 16]? = some '|' ∧ text.length = asciiColumn text + 17

/-- A dump of `bytes`, from which they are read back. -/
structure Dumps (bytes : List UInt8) (output : List Char) : Prop where
  lines : ∃ lines : List (List Char), output.splitOn '\n' = lines ++ [[]] ∧
    lines.length = (bytes.length + 15) / 16 ∧
    (∀ k (h : k < lines.length), ShowsLine bytes k lines[k]) ∧
    (lines.flatMap groups).map (numberOf 16) = bytes.map (fun byte => some byte.toNat) ∧
    ∀ first ∈ lines, ∀ second ∈ lines,
      (offsetDigits first).length = (offsetDigits second).length →
        asciiColumn first = asciiColumn second

end Reading

section Passes

variable {file : AddressSpace} {off : UInt64} {pass : Pass}
variable {front rest text more : List Char}

def hexPair (byte : UInt8) : List Char :=
  [Nat.digitChar (byte.toNat / 16), Nat.digitChar (byte.toNat % 16)]

/-- The three symbols of a position, with the byte there if the file reaches so far. -/
def symbols : Option UInt8 → List Char
  | some byte => hexPair byte ++ [' ']
  | none => [' ', ' ', ' ']

def shownAt : Option UInt8 → Char
  | some byte => shown byte
  | none => ' '

theorem kHex_byte (byte : UInt8) : [kHex (byte >>> 4), kHex (byte &&& 15)] = hexPair byte := by
  revert byte
  exact forall_byte (by decide +kernel)

theorem shown_byte (byte : UInt8) :
    (if 0x20 ≤ byte && byte < 0x7f then Char.ofNat byte.toNat else '.') = shown byte := by
  revert byte
  exact forall_byte (by decide +kernel)

/-- How far the two buffers are filled in a pass. -/
structure Pass.Filled (pass : Pass) (front rest text more : List Char) : Prop where
  line_eq : pass.line.toList = front ++ rest
  n_eq : pass.n = front.length
  ascii_eq : pass.ascii.toList = text ++ more

theorem Pass.Filled.put {replaced : Char} (h : pass.Filled front (replaced :: rest) text more)
    (symbol : Char) :
    ∃ next, pass.put symbol = .ok next ∧ next.Filled (front ++ [symbol]) rest text more := by
  obtain ⟨written, hwritten, hline⟩ :=
    @store_eq _ _ _ Thrown.outOfRange pass.line front rest symbol replaced h.line_eq
  refine ⟨{ pass with line := written, n := pass.n + 1 }, ?_, ?_, ?_, h.ascii_eq⟩
  · rw [Pass.put, h.n_eq, hwritten]
    rfl
  · show written.toList = _
    rw [hline, List.append_assoc]
    rfl
  · show pass.n + 1 = _
    rw [h.n_eq, List.length_append]
    rfl

theorem Pass.Filled.setAscii {replaced : Char} (h : pass.Filled front rest text (replaced :: more))
    (symbol : Char) :
    ∃ next, pass.setAscii text.length symbol = .ok next ∧
      next.Filled front rest (text ++ [symbol]) more := by
  obtain ⟨written, hwritten, hascii⟩ :=
    @store_eq _ _ _ Thrown.outOfRange pass.ascii text more symbol replaced h.ascii_eq
  refine ⟨{ pass with ascii := written }, ?_, h.line_eq, h.n_eq, ?_⟩
  · rw [Pass.setAscii, hwritten]
    rfl
  · show written.toList = _
    rw [hascii, List.append_assoc]
    rfl

theorem Pass.Filled.position {first second third replaced : Char}
    (h : pass.Filled front (first :: second :: third :: rest) text (replaced :: more))
    (high low symbol : Char) :
    ∃ next,
      (do let afterHigh ← pass.put high
          let afterLow ← afterHigh.put low
          let filled ← afterLow.setAscii text.length symbol
          filled.put ' ') = .ok next ∧
        next.Filled (front ++ [high, low, ' ']) rest (text ++ [symbol]) more := by
  obtain ⟨afterHigh, hhigh, filledHigh⟩ := h.put high
  obtain ⟨afterLow, hlow, filledLow⟩ := filledHigh.put low
  obtain ⟨afterAscii, hascii, filledAscii⟩ := filledLow.setAscii symbol
  obtain ⟨next, hnext, filled⟩ := filledAscii.put ' '
  refine ⟨next, ?_, ?_⟩
  · rw [hhigh]
    show (afterHigh.put low >>= _) = _
    rw [hlow]
    show (afterLow.setAscii text.length symbol >>= _) = _
    rw [hascii]
    exact hnext
  · simpa using filled

/-- One column, whether the file reaches so far or not. -/
theorem Pass.Filled.column {first second third replaced : Char}
    (h : pass.Filled front (first :: second :: third :: rest) text (replaced :: more))
    (hoff : off.toNat + text.length < 2 ^ 64) :
    ∃ next, column file off pass text.length = .ok next ∧
      next.Filled (front ++ symbols file.mappedData[off.toNat + text.length]?) rest
        (text ++ [shownAt file.mappedData[off.toNat + text.length]?]) more := by
  have haddress := toNat_add_ofNat hoff
  rw [HexDump.column]
  split
  · rename_i hinside
    rw [UInt64.lt_iff_toNat_lt, haddress, AddressSpace.toNat_size] at hinside
    have hread := AddressSpace.readU8_of_lt file (off + UInt64.ofNat text.length)
      (by rwa [haddress])
    rw [hread, List.getElem?_eq_getElem hinside]
    simp only [haddress]
    have hposition := h.position (kHex (file.mappedData[off.toNat + text.length] >>> 4))
      (kHex (file.mappedData[off.toNat + text.length] &&& 15))
      (shown file.mappedData[off.toNat + text.length])
    rw [← shown_byte] at hposition
    rw [symbols, shownAt, ← kHex_byte, ← shown_byte]
    exact hposition
  · rename_i houtside
    rw [UInt64.lt_iff_toNat_lt, haddress, AddressSpace.toNat_size, Nat.not_lt] at houtside
    rw [List.getElem?_eq_none houtside]
    exact h.position ' ' ' ' ' '

/-- The inner loop from position `text.length` on. -/
theorem Pass.Filled.columns (count : Nat) {front old text blank : List Char} {pass : Pass}
    (h : pass.Filled front (old ++ rest) text (blank ++ more)) (hold : old.length = 3 * count)
    (hblank : blank.length = count) (hoff : off.toNat + text.length + count ≤ 2 ^ 64) :
    ∃ next, (List.range' text.length count).foldlM (HexDump.column file off) pass = .ok next ∧
      next.Filled
        (front ++ (List.range' text.length count).flatMap fun i =>
          symbols file.mappedData[off.toNat + i]?) rest
        (text ++ (List.range' text.length count).map fun i =>
          shownAt file.mappedData[off.toNat + i]?) more := by
  induction count generalizing front old text blank pass with
  | zero =>
      rw [List.length_eq_zero_iff] at hblank
      rw [Nat.mul_zero, List.length_eq_zero_iff] at hold
      subst hblank hold
      refine ⟨pass, rfl, ?_⟩
      simpa using h
  | succ count ih =>
      obtain ⟨first, old, rfl⟩ := List.exists_cons_of_length_eq_add_one hold
      rw [List.length_cons] at hold
      obtain ⟨second, old, rfl⟩ := List.exists_cons_of_length_eq_add_one
        (show old.length = 3 * count + 1 + 1 by omega)
      rw [List.length_cons] at hold
      obtain ⟨third, old, rfl⟩ := List.exists_cons_of_length_eq_add_one
        (show old.length = 3 * count + 1 by omega)
      rw [List.length_cons] at hold
      obtain ⟨replaced, blank, rfl⟩ := List.exists_cons_of_length_eq_add_one hblank
      obtain ⟨afterFirst, hfirst, filled⟩ := @Pass.Filled.column file off pass front
        (old ++ rest) text (blank ++ more) first second third replaced h (by omega)
      obtain ⟨next, hnext, filledAll⟩ := ih filled (by omega) (by simpa using hblank)
        (by rw [List.length_append, List.length_singleton]; omega)
      rw [List.length_append, List.length_singleton] at hnext filledAll
      refine ⟨next, ?_, ?_⟩
      · rw [List.range'_succ, List.foldlM_cons, hfirst]
        exact hnext
      · rw [List.range'_succ, List.flatMap_cons, List.map_cons]
        simpa using filledAll

end Passes

section Lines

variable {file : AddressSpace} {off : UInt64} {line : Vector Char 96}

/-- What the file holds at the sixteen positions from an offset. -/
def positions (bytes : List UInt8) (off : Nat) : List (Option UInt8) :=
  (List.range 16).map fun i => bytes[off + i]?

/-- The line of an offset, without its end. -/
def lineText (bytes : List UInt8) (off : UInt64) : List Char :=
  offsetText off ++ ((positions bytes off.toNat).flatMap symbols ++
    ([' ', '|'] ++ ((positions bytes off.toNat).map shownAt ++ ['|'])))

example : lineText [0x41, 0x0A] 0 =
    "00000000  41 0a                                            |A.              |".toList := by
  decide +kernel

theorem length_positions (bytes : List UInt8) (off : Nat) : (positions bytes off).length = 16 := by
  rw [positions, List.length_map, List.length_range]

theorem length_symbols (byte : Option UInt8) : (symbols byte).length = 3 := by
  cases byte with
  | none => rfl
  | some byte => rfl

theorem length_flatMap_symbols (bytes : List (Option UInt8)) :
    (bytes.flatMap symbols).length = 3 * bytes.length := by
  rw [List.length_flatMap]
  simp [length_symbols, Nat.mul_comm]

theorem length_offsetText (off : UInt64) :
    10 ≤ (offsetText off).length ∧ (offsetText off).length ≤ 18 := by
  have hdigits : (Nat.toDigits 16 off.toNat).length ≤ 16 :=
    (Nat.length_toDigits_le_iff (by decide) (by decide)).mpr off.toNat_lt
  rw [offsetText, List.length_append, List.length_leftpad]
  simp only [List.length_cons, List.length_nil]
  omega

theorem snprintf_eq {front old rest text : List Char} {replaced : Char} {n : Nat} {room : UInt64}
    (h : line.toList = front ++ (old ++ replaced :: rest)) (hold : old.length = text.length)
    (hn : n = front.length) (hroom : text.length < room.toNat) :
    ∃ written, snprintf line n room text = .ok (written, text.length) ∧
      written.toList = front ++ (text ++ nul :: rest) := by
  have hne : room ≠ 0 := by
    rintro rfl
    exact absurd hroom (Nat.not_lt_zero _)
  have hsplit : line.toList = front ++ ((old ++ [replaced]) ++ rest) := by
    rw [h, List.append_assoc]
    rfl
  obtain ⟨written, hwritten, hline⟩ := @storeAll_eq _ _ _ Thrown.outOfRange line front
    (old ++ [replaced]) (text ++ [nul]) rest hsplit (by simpa using hold)
  refine ⟨written, ?_, by rw [hline, List.append_assoc]; rfl⟩
  rw [snprintf, if_neg hne, List.take_of_length_le (by omega), hn, hwritten]
  rfl

theorem cString_eq {text : List Char} {ascii : Vector Char 17} (h : ascii.toList = text ++ [nul])
    (htext : nul ∉ text) : cString ascii = .ok text := by
  rw [cString, h, if_pos (by simp), List.takeWhile_append_of_pos]
  · simp
  · intro symbol hsymbol
    rw [bne_iff_ne]
    rintro rfl
    exact htext hsymbol

theorem shownAt_ne_nul (byte : Option UInt8) : shownAt byte ≠ nul := by
  cases byte with
  | none => decide
  | some byte =>
      revert byte
      exact forall_byte (by decide +kernel)

theorem exists_split {symbols : List Char} {n : Nat} (h : n ≤ symbols.length) :
    ∃ old rest, symbols = old ++ rest ∧ old.length = n :=
  ⟨symbols.take n, symbols.drop n, (List.take_append_drop n symbols).symm,
    List.length_take_of_le h⟩

/-- The buffers after the inner loop. -/
theorem columns_filled (line : Vector Char 96) (hoff : off.toNat + 16 ≤ 2 ^ 64) :
    ∃ headed pass tail,
      snprintf line 0 96 (offsetText off) = .ok (headed, (offsetText off).length) ∧
      (List.range 16).foldlM (column file off)
        ⟨headed, (offsetText off).length, Vector.replicate 17 nul⟩ = .ok pass ∧
      pass.Filled (offsetText off ++ (positions file.mappedData off.toNat).flatMap symbols) tail
        ((positions file.mappedData off.toNat).map shownAt) [nul] := by
  have hoffset := length_offsetText off
  have hline : line.toList.length = 96 := Vector.length_toList
  obtain ⟨old, rest, hsplit, hold⟩ := @exists_split line.toList (offsetText off).length (by omega)
  have hrest : rest.length = 96 - (offsetText off).length := by
    rw [hsplit, List.length_append] at hline
    omega
  obtain ⟨replaced, rest, rfl⟩ := List.exists_cons_of_ne_nil
    (List.ne_nil_of_length_pos (show 0 < rest.length by omega))
  rw [List.length_cons] at hrest
  obtain ⟨headed, hheaded, hhead⟩ := @snprintf_eq line [] old rest (offsetText off) replaced 0 96
    hsplit hold rfl (show _ < 96 by omega)
  obtain ⟨cells, tail, hcells, hcount⟩ := @exists_split (nul :: rest) 48
    (by rw [List.length_cons]; omega)
  have hfilled : (Pass.mk headed (offsetText off).length (Vector.replicate 17 nul)).Filled
      (offsetText off) (cells ++ tail) [] (List.replicate 16 nul ++ [nul]) := by
    refine ⟨?_, rfl, ?_⟩
    · rw [hhead, List.nil_append, hcells]
    · rfl
  obtain ⟨pass, hpass, filled⟩ := @Pass.Filled.columns file off tail [nul] 16 _ cells []
    (List.replicate 16 nul) _ hfilled hcount (by simp) (by simpa using hoff)
  refine ⟨headed, pass, tail, hheaded, ?_, ?_⟩
  · rw [List.range_eq_range']
    exact hpass
  · rw [positions, List.flatMap_map, List.map_map, List.range_eq_range']
    exact filled

/-- The end of a pass. -/
theorem Pass.Filled.closing {pass : Pass} {front tail text : List Char}
    (h : pass.Filled front tail text [nul]) (htext : nul ∉ text) (hlength : text.length = 16)
    (hfront : front.length ≤ 66) :
    (do let text ← cString pass.ascii
        let written ← snprintf pass.line pass.n (96 - UInt64.ofNat pass.n)
          ([' ', '|'] ++ text ++ ['|', '\n'])
        load Thrown.outOfRange written.1 (pass.n + written.2)) =
      .ok (front ++ ([' ', '|'] ++ text ++ ['|', '\n'])) := by
  have hline : pass.line.toList.length = 96 := Vector.length_toList
  have hclosing : ([' ', '|'] ++ text ++ ['|', '\n']).length = 20 := by
    rw [List.length_append, List.length_append, hlength]
    rfl
  rw [h.line_eq, List.length_append] at hline
  obtain ⟨old, rest, rfl, hold⟩ := @exists_split tail 20 (by omega)
  rw [List.length_append] at hline
  obtain ⟨replaced, rest, rfl⟩ := List.exists_cons_of_ne_nil
    (List.ne_nil_of_length_pos (show 0 < rest.length by omega))
  have hn := h.n_eq
  have hpass : (UInt64.ofNat pass.n).toNat = pass.n :=
    UInt64.toNat_ofNat_of_lt' (by rw [UInt64.size]; omega)
  have hle : UInt64.ofNat pass.n ≤ 96 := by
    rw [UInt64.le_iff_toNat_le, hpass]
    show _ ≤ 96
    omega
  have hroom : (96 - UInt64.ofNat pass.n).toNat = 96 - pass.n := by
    rw [UInt64.toNat_sub_of_le _ _ hle, hpass]
    rfl
  obtain ⟨written, hwritten, hwhole⟩ := snprintf_eq h.line_eq (hold.trans hclosing.symm) hn
    (show _ < (96 - UInt64.ofNat pass.n).toNat by omega)
  rw [← List.append_assoc] at hwhole
  rw [cString_eq h.ascii_eq htext]
  show (snprintf pass.line pass.n _ _ >>= _) = _
  rw [hwritten]
  show load Thrown.outOfRange written _ = _
  rw [hn, ← List.length_append]
  exact load_eq hwhole

/-- A pass stays within both buffers and writes the line of its offset. -/
theorem outputLine_eq (line : Vector Char 96) (hoff : off.toNat + 16 ≤ 2 ^ 64) :
    outputLine file line off = .ok (lineText file.mappedData off ++ ['\n']) := by
  obtain ⟨headed, pass, tail, hheaded, hpass, filled⟩ := @columns_filled file off line hoff
  have hoffset := length_offsetText off
  have hshown : nul ∉ (positions file.mappedData off.toNat).map shownAt := by
    rw [List.mem_map]
    rintro ⟨byte, -, hnul⟩
    exact shownAt_ne_nul byte hnul
  have hclosing := filled.closing hshown (by rw [List.length_map, length_positions])
    (by rw [List.length_append, length_flatMap_symbols, length_positions]; omega)
  rw [outputLine, hheaded]
  show ((List.range 16).foldlM (column file off) _ >>= _) = _
  rw [hpass]
  refine hclosing.trans ?_
  simp [lineText]

end Lines

section Symbols

theorem digitChar_ne {symbol : Char} (h : ∀ digit < 16, symbol ≠ Nat.digitChar digit)
    (byte : UInt8) : symbol ∉ hexPair byte := by
  have hbyte := byte.toNat_lt
  simp only [hexPair, List.mem_cons, List.not_mem_nil, or_false, not_or]
  exact ⟨h _ (by omega), h _ (by omega)⟩

/-- A symbol that is no blank and no digit is not in front of the ASCII column. -/
theorem not_mem_front {symbol : Char} (hblank : symbol ≠ ' ')
    (hdigit : ∀ digit < 16, symbol ≠ Nat.digitChar digit) (off : UInt64)
    (bytes : List (Option UInt8)) : symbol ∉ offsetText off ++ bytes.flatMap symbols := by
  rw [List.mem_append, not_or]
  constructor
  · rw [offsetText, List.leftpad, List.append_assoc, List.mem_append, List.mem_append, not_or,
      not_or]
    refine ⟨?_, not_mem_toDigits (by decide) (by decide) hdigit _, by simpa using hblank⟩
    intro hmem
    exact hdigit 0 (by decide) (List.eq_of_mem_replicate hmem)
  · rw [List.mem_flatMap]
    rintro ⟨byte, -, hmem⟩
    cases byte with
    | none => simp [symbols, hblank] at hmem
    | some byte =>
        rw [symbols, List.mem_append, List.mem_singleton] at hmem
        exact hmem.elim (digitChar_ne hdigit byte) hblank

theorem space_not_mem_digits (off : UInt64) :
    ' ' ∉ (Nat.toDigits 16 off.toNat).leftpad 8 '0' := by
  rw [List.leftpad, List.mem_append, not_or]
  refine ⟨?_, not_mem_toDigits (by decide) (by decide) (by decide) _⟩
  intro hmem
  exact absurd (List.eq_of_mem_replicate hmem) (by decide)

theorem eight_le_digits (off : UInt64) :
    8 ≤ ((Nat.toDigits 16 off.toNat).leftpad 8 '0').length := by
  rw [List.length_leftpad]
  exact Nat.le_max_left _ _

theorem numberOf_hexPair (byte : UInt8) : numberOf 16 (hexPair byte) = some byte.toNat := by
  have hbyte := byte.toNat_lt
  have hhigh := @digitValue_digitChar 16 (byte.toNat / 16) (by decide) (by omega)
  have hlow := @digitValue_digitChar 16 (byte.toNat % 16) (by decide) (by omega)
  rw [numberOf, if_neg (by simp [hexPair]), hexPair, digitsValue, List.foldlM_cons, hhigh]
  show List.foldlM _ (16 * 0 + byte.toNat / 16) _ = _
  rw [List.foldlM_cons, hlow]
  show some (16 * (16 * 0 + byte.toNat / 16) + byte.toNat % 16) = _
  congr 1
  omega

theorem newline_ne_shownAt (byte : Option UInt8) : '\n' ≠ shownAt byte := by
  cases byte with
  | none => decide
  | some byte =>
      revert byte
      exact forall_byte (by decide +kernel)

end Symbols

section Positions

variable {bytes : List (Option UInt8)} {tail : List Char}

/-- The words of the positions are the digits of the bytes that are there. -/
theorem words_positions (bytes : List (Option UInt8)) :
    ((bytes.flatMap symbols ++ [' ']).splitOn ' ').filter (fun group => !group.isEmpty) =
      bytes.filterMap (Option.map hexPair) := by
  induction bytes with
  | nil => decide
  | cons byte bytes ih =>
      cases byte with
      | none =>
          have hcons (rest : List Char) : (' ' :: rest).splitOn ' ' = [] :: rest.splitOn ' ' := by
            rw [show ' ' :: rest = [] ++ ' ' :: rest from rfl, List.splitOn_append_cons_self]
            rfl
          rw [List.flatMap_cons, symbols, List.append_assoc]
          show ((' ' :: ' ' :: ' ' :: _).splitOn ' ').filter _ = _
          rw [hcons, hcons, hcons]
          exact ih
      | some byte =>
          have hword : ' ' ∉ hexPair byte := digitChar_ne (by decide) byte
          rw [List.flatMap_cons, symbols, List.append_assoc, List.append_assoc,
            List.singleton_append, List.splitOn_append_cons_self, List.splitOn_eq_singleton hword]
          exact congrArg (hexPair byte :: ·) ih

theorem drop_positions (tail : List Char) {i : Nat} {byte : Option UInt8}
    (h : bytes[i]? = some byte) :
    ((bytes.flatMap symbols ++ tail).drop (3 * i)).take 2 = (symbols byte).take 2 := by
  induction bytes generalizing i with
  | nil => contradiction
  | cons first bytes ih =>
      rw [List.flatMap_cons, List.append_assoc]
      cases i with
      | zero =>
          rw [List.getElem?_cons_zero, Option.some.injEq] at h
          rw [Nat.mul_zero, List.drop_zero, List.take_append_of_le_length, h]
          rw [length_symbols]
          decide
      | succ i =>
          have hlength := length_symbols first
          rw [Nat.mul_succ, Nat.add_comm, ← List.drop_drop, ← hlength, List.drop_left, hlength]
          exact ih h

end Positions

section Reads

variable {bytes : List UInt8} {off : UInt64}

theorem offsetDigits_lineText (bytes : List UInt8) (off : UInt64) :
    offsetDigits (lineText bytes off) = (Nat.toDigits 16 off.toNat).leftpad 8 '0' := by
  rw [offsetDigits, lineText, offsetText, List.append_assoc]
  exact before_append (space_not_mem_digits off) _

theorem length_offsetDigits (bytes : List UInt8) (off : UInt64) :
    (offsetDigits (lineText bytes off)).length + 2 = (offsetText off).length := by
  rw [offsetDigits_lineText, offsetText, List.length_append]
  rfl

/-- The line with its ASCII column set off. -/
theorem lineText_eq (bytes : List UInt8) (off : UInt64) :
    lineText bytes off =
      (offsetText off ++ (positions bytes off.toNat).flatMap symbols ++ [' ']) ++
        '|' :: ((positions bytes off.toNat).map shownAt ++ ['|']) := by
  simp [lineText]

theorem bar_not_mem (off : UInt64) (bytes : List (Option UInt8)) :
    '|' ∉ offsetText off ++ bytes.flatMap symbols ++ [' '] := by
  rw [List.mem_append, not_or]
  exact ⟨not_mem_front (by decide) (by decide) off bytes, by decide⟩

theorem groups_lineText (bytes : List UInt8) (off : UInt64) :
    groups (lineText bytes off) =
      (positions bytes off.toNat).filterMap (Option.map hexPair) := by
  have hdigits : (!((Nat.toDigits 16 off.toNat).leftpad 8 '0').isEmpty) = true := by
    have hlength := eight_le_digits off
    rw [Bool.not_eq_true', List.isEmpty_eq_false_iff]
    exact List.ne_nil_of_length_pos (Nat.lt_of_lt_of_le (by decide) hlength)
  have hsplit : (before '|' (lineText bytes off)).splitOn ' ' =
      (Nat.toDigits 16 off.toNat).leftpad 8 '0' :: [] ::
        ((positions bytes off.toNat).flatMap symbols ++ [' ']).splitOn ' ' := by
    rw [lineText_eq, before_append (bar_not_mem off _), offsetText, List.append_assoc,
      List.append_assoc]
    show (_ ++ ' ' :: ([] ++ ' ' :: _)).splitOn ' ' = _
    rw [List.splitOn_append_cons_self, List.splitOn_append_cons_self,
      List.splitOn_eq_singleton (space_not_mem_digits off)]
    rfl
  rw [groups, hsplit, List.filter_cons, if_pos hdigits, List.filter_cons, if_neg (by decide),
    List.drop_one, List.tail_cons, words_positions]

theorem asciiColumn_lineText (bytes : List UInt8) (off : UInt64) :
    asciiColumn (lineText bytes off) = (offsetText off).length + 50 := by
  rw [asciiColumn, lineText_eq, List.idxOf_append_of_notMem (bar_not_mem off _),
    List.idxOf_cons_self, List.length_append, List.length_append, length_flatMap_symbols,
    length_positions]
  rfl

theorem getElem?_positions (bytes : List UInt8) (off : Nat) {i : Nat} (hi : i < 16) :
    (positions bytes off)[i]? = some bytes[off + i]? := by
  simp [positions, hi]

theorem cell_lineText (bytes : List UInt8) (off : UInt64) {i : Nat} (hi : i < 16) :
    cell (lineText bytes off) i = (symbols bytes[off.toNat + i]?).take 2 := by
  rw [cell, length_offsetDigits, ← List.drop_drop, lineText, List.drop_left,
    drop_positions _ (getElem?_positions bytes _ hi)]

theorem ascii_lineText (bytes : List UInt8) (off : UInt64) (i : Nat) :
    (lineText bytes off)[asciiColumn (lineText bytes off) + i]? =
      ((positions bytes off.toNat).map shownAt ++ ['|'])[i]? := by
  rw [asciiColumn_lineText, lineText, ← List.append_assoc, ← List.append_assoc,
    List.getElem?_append_right]
  · simp only [List.length_append, length_flatMap_symbols, length_positions]
    congr 1
    show (offsetText off).length + 50 + i - ((offsetText off).length + 3 * 16 + 2) = i
    omega
  · simp only [List.length_append, length_flatMap_symbols, length_positions]
    show (offsetText off).length + 3 * 16 + 2 ≤ (offsetText off).length + 50 + i
    omega

theorem shownAt_lineText (bytes : List UInt8) (off : UInt64) {i : Nat} (hi : i < 16) :
    (lineText bytes off)[asciiColumn (lineText bytes off) + i]? =
      some (shownAt bytes[off.toNat + i]?) := by
  rw [ascii_lineText, List.getElem?_append_left
    (by rw [List.length_map, length_positions]; exact hi), List.getElem?_map,
    getElem?_positions bytes _ hi, Option.map_some]

theorem showsLine (bytes : List UInt8) {k : Nat} (hk : 16 * k < 2 ^ 64) :
    ShowsLine bytes k (lineText bytes (UInt64.ofNat (16 * k))) := by
  have hoff : (UInt64.ofNat (16 * k)).toNat = 16 * k := UInt64.toNat_ofNat_of_lt' hk
  constructor
  · rw [offsetDigits_lineText, numberOf_leftpad (by decide) (by decide), hoff]
  · rw [offsetDigits_lineText]
    exact eight_le_digits _
  · rw [groups_lineText]
    intro group hgroup
    obtain ⟨byte, -, hbyte⟩ := List.mem_filterMap.mp hgroup
    obtain ⟨value, -, rfl⟩ := Option.map_eq_some_iff.mp hbyte
    rfl
  · intro i hi h
    rw [cell_lineText _ _ hi, shownAt_lineText _ _ hi, hoff, List.getElem?_eq_getElem h]
    exact ⟨numberOf_hexPair _, rfl⟩
  · intro i hi h
    rw [cell_lineText _ _ hi, shownAt_lineText _ _ hi, hoff, List.getElem?_eq_none h]
    exact ⟨rfl, rfl⟩
  · constructor
    · rw [ascii_lineText, List.getElem?_append_right (by simp [length_positions])]
      simp [length_positions]
    · rw [asciiColumn_lineText, lineText]
      simp only [List.length_append, List.length_map, length_flatMap_symbols, length_positions,
        List.length_cons, List.length_nil]

end Reads

section Dump

variable {bytes : List UInt8} {file : AddressSpace} {stack : UInt64 → Vector Char 96}

theorem filterMap_positions (bytes : List UInt8) (off : Nat) :
    (positions bytes off).filterMap (Option.map hexPair) =
      ((bytes.drop off).take 16).map hexPair := by
  have hread (n : Nat) : ((List.range n).map fun i => bytes[off + i]?).filterMap
      (Option.map hexPair) = ((bytes.drop off).take n).map hexPair := by
    induction n with
    | zero => rfl
    | succ n ih =>
        rw [List.range_succ, List.map_append, List.filterMap_append, ih, List.take_add_one,
          List.map_append, List.getElem?_drop]
        congr 1
        rw [List.map_singleton]
        cases bytes[off + n]? with
        | none => rfl
        | some byte => rfl
  exact hread 16

/-- The lines of a dump. -/
def dumpLines (bytes : List UInt8) : List (List Char) :=
  (List.range ((bytes.length + 15) / 16)).map fun k => lineText bytes (UInt64.ofNat (16 * k))

theorem splitOn_lines {lines : List (List Char)} (h : ∀ line ∈ lines, '\n' ∉ line) :
    (lines.flatMap (· ++ ['\n'])).splitOn '\n' = lines ++ [[]] := by
  induction lines with
  | nil => rfl
  | cons line lines ih =>
      rw [List.forall_mem_cons] at h
      rw [List.flatMap_cons, List.append_assoc, List.singleton_append,
        List.splitOn_append_cons_self, List.splitOn_eq_singleton h.1, ih h.2]
      rfl

theorem newline_not_mem (bytes : List UInt8) (off : UInt64) : '\n' ∉ lineText bytes off := by
  have hfront := @not_mem_front '\n' (by decide) (by decide) off
    (positions bytes off.toNat)
  rw [lineText_eq]
  intro hmem
  rcases List.mem_append.mp hmem with hleft | hright
  · rcases List.mem_append.mp hleft with hdigits | hblank
    · exact hfront hdigits
    · exact absurd hblank (by decide)
  · rcases List.mem_append.mp (List.mem_of_ne_of_mem (by decide) hright) with hshown | hbar
    · obtain ⟨byte, -, heq⟩ := List.mem_map.mp hshown
      exact newline_ne_shownAt byte heq.symm
    · exact absurd hbar (by decide)

theorem dumps (hsize : bytes.length ≤ 2 ^ 63) :
    Dumps bytes ((dumpLines bytes).flatMap (· ++ ['\n'])) := by
  have hlength : (dumpLines bytes).length = (bytes.length + 15) / 16 := by
    rw [dumpLines, List.length_map, List.length_range]
  have hoff {k : Nat} (hk : k < (bytes.length + 15) / 16) : 16 * k < 2 ^ 64 := by omega
  refine ⟨dumpLines bytes, splitOn_lines ?_, hlength, ?_, ?_, ?_⟩
  · intro line hline
    obtain ⟨k, -, rfl⟩ := List.mem_map.mp hline
    exact newline_not_mem bytes _
  · intro k hk
    have hline : (dumpLines bytes)[k] = lineText bytes (UInt64.ofNat (16 * k)) := by
      simp [dumpLines]
    rw [hline]
    exact showsLine bytes (hoff (hlength ▸ hk))
  · have hgroups : (dumpLines bytes).flatMap groups = bytes.map hexPair := by
      rw [dumpLines, List.flatMap_map, ← Chunks.flatMap_pieces (by decide : 0 < 16) hexPair bytes]
      apply List.flatMap_congr
      intro k hk
      have hk' := hoff (List.mem_range.mp hk)
      rw [groups_lineText, filterMap_positions, UInt64.toNat_ofNat_of_lt' hk']
    rw [hgroups, List.map_map]
    exact congrArg (fun f => bytes.map f) (funext numberOf_hexPair)
  · intro first hfirst second hsecond hdigits
    obtain ⟨k, -, rfl⟩ := List.mem_map.mp hfirst
    obtain ⟨l, -, rfl⟩ := List.mem_map.mp hsecond
    rw [asciiColumn_lineText, asciiColumn_lineText, ← length_offsetDigits bytes,
      ← length_offsetDigits bytes, hdigits]

/-- The outer loop from line `k` on. -/
theorem run_body (hsize : file.mappedData.length ≤ 2 ^ 63) (count extra : Nat) {k : Nat}
    (hk : k + count = (file.mappedData.length + 15) / 16) (written : List Char) :
    Loops.run (body file stack) (count + 1 + extra) (UInt64.ofNat (16 * k), written) =
      some (.ok (written ++ (List.range' k count).flatMap fun line =>
        lineText file.mappedData (UInt64.ofNat (16 * line)) ++ ['\n'])) := by
  have hoff : (UInt64.ofNat (16 * k)).toNat = 16 * k :=
    UInt64.toNat_ofNat_of_lt' (by rw [UInt64.size]; omega)
  induction count generalizing k written with
  | zero =>
      have hend : ¬ UInt64.ofNat (16 * k) < file.size := by
        rw [UInt64.lt_iff_toNat_lt, hoff, AddressSpace.toNat_size]
        omega
      rw [Nat.zero_add, Nat.add_comm, Loops.run, body, if_neg hend]
      simp
  | succ count ih =>
      have hinside : UInt64.ofNat (16 * k) < file.size := by
        rw [UInt64.lt_iff_toNat_lt, hoff, AddressSpace.toNat_size]
        omega
      have hline := @outputLine_eq file (UInt64.ofNat (16 * k)) (stack (UInt64.ofNat (16 * k)))
        (by rw [hoff]; omega)
      have hnext : UInt64.ofNat (16 * k) + 16 = UInt64.ofNat (16 * (k + 1)) := by
        rw [Nat.mul_succ, UInt64.ofNat_add]
        rfl
      have hstep : body file stack (UInt64.ofNat (16 * k), written) =
          .ok (.inl (UInt64.ofNat (16 * (k + 1)), written ++
            (lineText file.mappedData (UInt64.ofNat (16 * k)) ++ ['\n']))) := by
        rw [body, if_pos hinside, hline, ← hnext]
        rfl
      rw [show count + 1 + 1 + extra = count + 1 + extra + 1 by omega, Loops.run, hstep]
      show Loops.run _ _ _ = _
      rw [ih (by omega) _ (UInt64.toNat_ofNat_of_lt' (by rw [UInt64.size]; omega)),
        List.range'_succ, List.flatMap_cons, List.append_assoc]

/-- Whatever the line buffer holds before, no pass leaves a buffer, the loop ends, and the
file is read back from what it has written. -/
theorem outputHex_dumps (file : AddressSpace) (hsize : file.mappedData.length ≤ 2 ^ 63) :
    ∃ output, Dumps file.mappedData output ∧
      ∀ stack fuel, (file.mappedData.length + 15) / 16 < fuel →
        outputHex file stack fuel = some (.ok output) := by
  refine ⟨_, dumps hsize, ?_⟩
  intro stack fuel hfuel
  obtain ⟨extra, rfl⟩ := Nat.exists_eq_add_of_le (Nat.succ_le_of_lt hfuel)
  have hrun := @run_body file stack hsize _ extra 0 (Nat.zero_add _) []
  rw [outputHex]
  refine hrun.trans ?_
  rw [dumpLines, List.flatMap_map, List.range_eq_range']
  rfl

/-- One full line and two bytes of a second one. -/
def ramp : AddressSpace where
  mappedData := (List.range 18).map UInt8.ofNat
  fileSize_lt := by decide

theorem outputHex_dumps_ramp :
    ∃ output, Dumps ramp.mappedData output ∧
      ∀ stack fuel, 2 < fuel → outputHex ramp stack fuel = some (.ok output) :=
  outputHex_dumps ramp (by decide)

end Dump

end Voidwalk.HexDump

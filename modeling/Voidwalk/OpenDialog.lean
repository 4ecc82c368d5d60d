import Mathlib.Data.List.DropRight
import Mathlib.Data.List.Infix
import Mathlib.Data.List.Lex
import Mathlib.Tactic.Common

/-!
The dialog that opens a binary: the path in its field, and the completions that a directory
offers for it. Paths are the bytes of the platform.
-/

namespace Voidwalk.OpenDialog

/-- The bytes of a text. -/
def bytesOf (text : String) : List UInt8 := text.toByteArray.data.toList

def isBlank (byte : UInt8) : Bool :=
  byte == 0x20 || byte == 0x09 || byte == 0x0D || byte == 0x0A

def trim (s : List UInt8) : List UInt8 := (s.dropWhile isBlank).rdropWhile isBlank

def isQuote (byte : UInt8) : Bool := byte == 0x27 || byte == 0x22

/-- A dropped file arrives as pasted text, often quoted. -/
def unquote (raw : List UInt8) : List UInt8 :=
  match trim raw with
  | first :: second :: rest =>
      if isQuote first && (second :: rest).getLast? == some first then (second :: rest).dropLast
      else first :: second :: rest
  | s => s

/-- `home` is what the environment says, none where it says nothing. -/
def expandHome (home : Option (List UInt8)) (p : List UInt8) : List UInt8 :=
  match p, home with
  | [0x7E], some home => home
  | 0x7E :: 0x2F :: rest, some home => home ++ 0x2F :: rest
  | p, _ => p

def isSlash (byte : UInt8) : Bool := byte == 0x2F || byte == 0x5C

/-- The directory in front of the name that is typed. -/
def baseOf (typed : List UInt8) : List UInt8 := typed.rdropWhile fun byte => !isSlash byte

/-- The front of a name that is typed. -/
def stemOf (typed : List UInt8) : List UInt8 := typed.rtakeWhile fun byte => !isSlash byte

/-- What the file system says of an entry of a directory. `size` is none where it cannot be
asked, `ownerExec` where the status cannot. -/
structure Entry where
  name : List UInt8
  isDirectory : Bool
  isRegularFile : Bool
  size : Option UInt64
  ownerExec : Option Bool

def lower (s : List UInt8) : List UInt8 :=
  s.map fun c => if 0x41 ≤ c && c ≤ 0x5A then c + 32 else c

/-- `std::filesystem::path::extension`. -/
def extension (name : List UInt8) : List UInt8 :=
  let tail := name.rtakeWhile (· != 0x2E)
  if name = [0x2E, 0x2E] ∨ name.length ≤ tail.length + 1 then [] else 0x2E :: tail

def looksExecutable (entry : Entry) : Bool :=
  let ext := lower (extension entry.name)
  if [".exe", ".dll", ".so", ".elf", ".bin"].any fun known => ext == bytesOf known then true
  else if bytesOf ".so." <:+: entry.name then true
  else
    match entry.ownerExec with
    | none => false
    | some ownerExec => ext.isEmpty && ownerExec

structure Completion where
  path : List UInt8
  dir : Bool
  size : UInt64

/-- Whether an entry is offered for the front of a name. -/
def isOffered (stem : List UInt8) (execsOnly : Bool) (entry : Entry) : Bool :=
  decide (stem <+: entry.name) &&
    !(entry.name.head? == some 0x2E && stem.head? != some 0x2E) &&
    (entry.isDirectory || (entry.isRegularFile && (!execsOnly || looksExecutable entry)))

def completion (base : List UInt8) (entry : Entry) : Completion where
  path := base ++ entry.name ++ (if entry.isDirectory then [0x2F] else [])
  dir := entry.isDirectory
  size := if entry.isDirectory then 0 else entry.size.getD 0

def kMaxCompletions : Nat := 500

/-- The completions of a text, in the order of their paths. -/
def completions (typed : List UInt8) (execsOnly : Bool) (entries : List Entry) :
    List Completion :=
  (((entries.filter (isOffered (stemOf typed) execsOnly)).take kMaxCompletions).map
    (completion (baseOf typed))).mergeSort fun a b => !decide (b.path < a.path)

section Paths

theorem trim_of_edges {s : List UInt8} (hfirst : ∀ first ∈ s.head?, isBlank first = false)
    (hlast : ∀ last ∈ s.getLast?, isBlank last = false) : trim s = s := by
  have hfront : s.dropWhile isBlank = s := by
    cases s with
    | nil => rfl
    | cons first rest => exact List.dropWhile_cons_of_neg (by simp [hfirst first rfl])
  rw [trim, hfront, List.rdropWhile_eq_self_iff]
  intro hne
  rw [hlast _ (List.getLast?_eq_some_getLast hne)]
  exact Bool.false_ne_true

/-- A path in quotes is read without them. -/
theorem unquote_quoted {quote : UInt8} (hquote : isQuote quote = true) (path : List UInt8) :
    unquote (quote :: path ++ [quote]) = path := by
  have hblank : isBlank quote = false := by
    rw [isQuote, Bool.or_eq_true, beq_iff_eq, beq_iff_eq] at hquote
    rcases hquote with rfl | rfl <;> rfl
  have htrim : trim (quote :: path ++ [quote]) = quote :: (path ++ [quote]) := by
    rw [List.cons_append]
    apply trim_of_edges
    · intro first hfirst
      rw [← Option.some.inj hfirst]
      exact hblank
    · intro last hlast
      rw [List.getLast?_cons, List.getLast?_concat] at hlast
      rw [← Option.some.inj hlast]
      exact hblank
  rw [unquote, htrim]
  obtain ⟨second, rest, hrest⟩ := List.exists_cons_of_ne_nil
    (List.append_ne_nil_of_right_ne_nil path (List.cons_ne_nil quote []))
  rw [hrest]
  dsimp only
  rw [← hrest, List.getLast?_concat, hquote, beq_self_eq_true, Bool.and_self, if_pos rfl,
    List.dropLast_concat]

/-- A path that neither begins nor ends with a blank and is not in quotes is read as it is. -/
theorem unquote_plain {path : List UInt8} (hfirst : ∀ first ∈ path.head?, isBlank first = false)
    (hlast : ∀ last ∈ path.getLast?, isBlank last = false)
    (hplain : ∀ quote inside, isQuote quote = true → path ≠ quote :: inside ++ [quote]) :
    unquote path = path := by
  rw [unquote, trim_of_edges hfirst hlast]
  split
  · rename_i first second rest
    rw [if_neg]
    intro hquoted
    rw [Bool.and_eq_true, beq_iff_eq] at hquoted
    obtain ⟨inside, hinside⟩ := List.getLast?_eq_some_iff.mp hquoted.2
    exact hplain first inside hquoted.1 (congrArg (first :: ·) hinside)
  · rfl

end Paths

end Voidwalk.OpenDialog

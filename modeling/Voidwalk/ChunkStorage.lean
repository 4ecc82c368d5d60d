import Mathlib.Data.List.Basic
import Mathlib.Algebra.Ring.Nat
import Mathlib.Algebra.NeZero
import Mathlib.Tactic.Common
import Voidwalk.MappedFile

/-!
`ChunkStore`, the append-only sequence the decode worker fills while the
frontends read it: a table of fixed-size blocks, indexed by quotient and
remainder.
-/

namespace Voidwalk.ChunkStorage

open Voidwalk.MappedFile

/-- A `std::vector` with its capacity. `pushBack` reallocates exactly when the
vector is full; how far it then grows is the implementation's choice, and
nothing below depends on it. -/
structure StdVector (α : Type) where
  items : List α
  capacity : Nat
  length_le : items.length ≤ capacity

namespace StdVector

variable {α : Type}

def empty : StdVector α where
  items := []
  capacity := 0
  length_le := Nat.le_refl 0

def reserve (v : StdVector α) (n : Nat) : StdVector α where
  items := v.items
  capacity := max v.capacity n
  length_le := Nat.le_trans v.length_le (Nat.le_max_left _ _)

def pushBack (v : StdVector α) (value : α) : StdVector α where
  items := v.items ++ [value]
  capacity := if v.items.length < v.capacity then v.capacity else 2 * v.capacity + 1
  length_le := by
    have := v.length_le
    simp only [List.length_append, List.length_singleton]
    split <;> omega

def modifyBack (v : StdVector α) (f : α → α) : StdVector α where
  items := v.items.modify (v.items.length - 1) f
  capacity := v.capacity
  length_le := by simpa using v.length_le

def clear (v : StdVector α) : StdVector α where
  items := []
  capacity := v.capacity
  length_le := Nat.zero_le _

def shrinkToFit (v : StdVector α) : StdVector α where
  items := v.items
  capacity := v.items.length
  length_le := Nat.le_refl _

@[simp] theorem items_reserve (v : StdVector α) (n : Nat) :
    (v.reserve n).items = v.items := rfl

@[simp] theorem capacity_reserve (v : StdVector α) (n : Nat) :
    (v.reserve n).capacity = max v.capacity n := rfl

@[simp] theorem items_pushBack (v : StdVector α) (value : α) :
    (v.pushBack value).items = v.items ++ [value] := rfl

@[simp] theorem items_modifyBack (v : StdVector α) (f : α → α) :
    (v.modifyBack f).items = v.items.modify (v.items.length - 1) f := rfl

@[simp] theorem capacity_modifyBack (v : StdVector α) (f : α → α) :
    (v.modifyBack f).capacity = v.capacity := rfl

theorem capacity_pushBack_of_lt (v : StdVector α) (value : α)
    (h : v.items.length < v.capacity) : (v.pushBack value).capacity = v.capacity :=
  if_pos h

end StdVector

def blockCount (chunkSize n : Nat) : Nat :=
  (n + chunkSize - 1) / chunkSize

theorem blockCount_mul_add {chunkSize : Nat} (hpos : 0 < chunkSize) (quotient remainder : Nat)
    (h : remainder < chunkSize) :
    blockCount chunkSize (chunkSize * quotient + remainder) =
      if remainder = 0 then quotient else quotient + 1 := by
  split
  · rename_i hzero
    rw [blockCount, hzero, Nat.add_zero, Nat.add_sub_assoc hpos, Nat.mul_add_div hpos,
      Nat.div_eq_of_lt (by omega), Nat.add_zero]
  · rename_i hne
    rw [blockCount, show chunkSize * quotient + remainder + chunkSize - 1 =
      chunkSize * (quotient + 1) + (remainder - 1) by rw [Nat.mul_succ]; omega,
      Nat.mul_add_div hpos, Nat.div_eq_of_lt (by omega), Nat.add_zero]

theorem blockCount_eq {chunkSize : Nat} (hpos : 0 < chunkSize) (n : Nat) :
    blockCount chunkSize n =
      if n % chunkSize = 0 then n / chunkSize else n / chunkSize + 1 := by
  have h := blockCount_mul_add hpos (n / chunkSize) (n % chunkSize) (Nat.mod_lt n hpos)
  rwa [Nat.div_add_mod] at h

/-- A push opens a new block exactly when the last one is full. -/
theorem blockCount_succ {chunkSize : Nat} (hpos : 0 < chunkSize) (n : Nat) :
    blockCount chunkSize (n + 1) =
      if n % chunkSize = 0 then blockCount chunkSize n + 1 else blockCount chunkSize n := by
  have hsucc : blockCount chunkSize (n + 1) = n / chunkSize + 1 := by
    rw [blockCount, show n + 1 + chunkSize - 1 = n + chunkSize by omega,
      Nat.add_div_right n hpos]
  rw [hsucc, blockCount_eq hpos n]
  split <;> rfl

theorem div_lt_blockCount {chunkSize n i : Nat} (hpos : 0 < chunkSize) (hi : i < n) :
    i / chunkSize < blockCount chunkSize n := by
  rw [blockCount, Nat.lt_iff_add_one_le, Nat.le_div_iff_mul_le hpos, Nat.add_mul,
    Nat.one_mul]
  have := Nat.div_mul_le_self i chunkSize
  omega

theorem blockCount_zero (chunkSize : Nat) [NeZero chunkSize] : 0 = blockCount chunkSize 0 := by
  have := Nat.pos_of_neZero chunkSize
  simpa [blockCount] using (Nat.div_eq_of_lt (by omega)).symm

theorem mod_chunkSize_lt {chunkSize : Nat} [NeZero chunkSize] (i : Nat) :
    i % chunkSize < chunkSize :=
  Nat.mod_lt i (Nat.pos_of_neZero chunkSize)

/-- `ChunkStore<T, ChunkSize>`. A block is value-initialised when it is
allocated, so a slot not yet assigned holds `default`. The `NeZero` argument is
the class's `static_assert`. -/
structure ChunkStore (T : Type) (chunkSize : Nat) [NeZero chunkSize] where
  blocks : StdVector (Vector T chunkSize)
  size : Nat
  blocks_length : blocks.items.length = blockCount chunkSize size

namespace ChunkStore

variable {T : Type} {chunkSize : Nat} [NeZero chunkSize]

def empty : ChunkStore T chunkSize where
  blocks := .empty
  size := 0
  blocks_length := blockCount_zero chunkSize

def reserveFor (store : ChunkStore T chunkSize) (maxElements : Nat) :
    ChunkStore T chunkSize where
  blocks := store.blocks.reserve (maxElements / chunkSize + 1)
  size := store.size
  blocks_length := store.blocks_length

def pushBack [Inhabited T] (store : ChunkStore T chunkSize) (value : T) :
    ChunkStore T chunkSize :=
  let slot := store.size % chunkSize
  have hslot : slot < chunkSize := Nat.mod_lt _ (Nat.pos_of_neZero chunkSize)
  -- A new block is only ever appended to the table.
  let blocks := if slot = 0 then store.blocks.pushBack (Vector.replicate chunkSize default)
    else store.blocks
  { blocks := blocks.modifyBack fun block => block.set slot value hslot
    size := store.size + 1
    blocks_length := by
      rw [blockCount_succ (Nat.pos_of_neZero chunkSize)]
      by_cases h : slot = 0
      · simp [blocks, slot, h, store.blocks_length]
      · simp [blocks, slot, h, store.blocks_length] }

/-- `operator[]`, which checks nothing: past the last block it is undefined. -/
def index (store : ChunkStore T chunkSize) (i : Nat) : Except Thrown T :=
  match store.blocks.items[i / chunkSize]? with
  | some block =>
      have : i % chunkSize < chunkSize := mod_chunkSize_lt i
      .ok block[i % chunkSize]
  | none => .error .outOfRange

/-- `operator[]` as a reader may use it. A slot at or past `size()` holds no
element yet: a null pointer in the store of instructions. -/
def element (store : ChunkStore T chunkSize) (i : Nat) : Except Thrown T :=
  if i < store.size then store.index i else .error .outOfRange

def clear (store : ChunkStore T chunkSize) : ChunkStore T chunkSize where
  blocks := store.blocks.clear
  size := 0
  blocks_length := blockCount_zero chunkSize

def shrinkToFit (store : ChunkStore T chunkSize) : ChunkStore T chunkSize where
  blocks := store.blocks.shrinkToFit
  size := store.size
  blocks_length := store.blocks_length

@[simp] theorem size_empty : (empty : ChunkStore T chunkSize).size = 0 := rfl

@[simp] theorem size_reserveFor (store : ChunkStore T chunkSize) (maxElements : Nat) :
    (store.reserveFor maxElements).size = store.size := rfl

@[simp] theorem size_pushBack [Inhabited T] (store : ChunkStore T chunkSize) (value : T) :
    (store.pushBack value).size = store.size + 1 := rfl

@[simp] theorem size_clear (store : ChunkStore T chunkSize) : store.clear.size = 0 := rfl

@[simp] theorem size_shrinkToFit (store : ChunkStore T chunkSize) :
    store.shrinkToFit.size = store.size := rfl

@[simp] theorem index_reserveFor (store : ChunkStore T chunkSize) (maxElements i : Nat) :
    (store.reserveFor maxElements).index i = store.index i := rfl

@[simp] theorem index_shrinkToFit (store : ChunkStore T chunkSize) (i : Nat) :
    store.shrinkToFit.index i = store.index i := rfl

theorem div_lt_length_blocks (store : ChunkStore T chunkSize) {i : Nat} (hi : i < store.size) :
    i / chunkSize < store.blocks.items.length := by
  rw [store.blocks_length]
  exact div_lt_blockCount (Nat.pos_of_neZero chunkSize) hi

def get (store : ChunkStore T chunkSize) (i : Fin store.size) : T :=
  have hblock := store.div_lt_length_blocks i.isLt
  have hslot : i.val % chunkSize < chunkSize := Nat.mod_lt _ (Nat.pos_of_neZero chunkSize)
  (store.blocks.items[i.val / chunkSize])[i.val % chunkSize]

theorem index_eq_get (store : ChunkStore T chunkSize) (i : Fin store.size) :
    store.index i = .ok (store.get i) := by
  have hblock := store.div_lt_length_blocks i.isLt
  simp only [index, List.getElem?_eq_getElem hblock, get]

def toList (store : ChunkStore T chunkSize) : List T :=
  List.ofFn store.get

@[simp] theorem length_toList (store : ChunkStore T chunkSize) :
    store.toList.length = store.size := by
  simp [toList]

theorem index_eq_toList (store : ChunkStore T chunkSize) {i : Nat} (hi : i < store.size) :
    store.index i = .ok (store.toList.get ⟨i, by simpa using hi⟩) := by
  simpa [toList] using store.index_eq_get ⟨i, hi⟩

theorem index_eq_ok_iff (store : ChunkStore T chunkSize) {i : Nat} (hi : i < store.size)
    (value : T) : store.index i = .ok value ↔ store.toList[i]? = some value := by
  rw [store.index_eq_toList hi, List.getElem?_eq_getElem (by simpa using hi)]
  simp

/-- A reader gets the element of the list, and gets none exactly past its end. -/
theorem element_eq_ok_iff (store : ChunkStore T chunkSize) (i : Nat) (value : T) :
    store.element i = .ok value ↔ store.toList[i]? = some value := by
  by_cases hi : i < store.size
  · rw [element, if_pos hi, store.index_eq_ok_iff hi]
  · rw [element, if_neg hi, List.getElem?_eq_none (by simpa using hi)]
    simp

theorem index_pushBack_size [Inhabited T] (store : ChunkStore T chunkSize) (value : T) :
    (store.pushBack value).index store.size = .ok value := by
  have hpos := Nat.pos_of_neZero chunkSize
  have hlength := store.blocks_length
  rw [blockCount_eq hpos] at hlength
  by_cases hslot : store.size % chunkSize = 0
  · rw [if_pos hslot] at hlength
    simp [index, pushBack, hslot, ← hlength]
  · rw [if_neg hslot] at hlength
    have hlast : store.blocks.items.length - 1 = store.size / chunkSize := by simp [hlength]
    have hblock : store.size / chunkSize < store.blocks.items.length := by simp [hlength]
    simp [index, pushBack, hslot, hlast, List.getElem?_eq_getElem hblock]

/-- A push leaves every slot already filled as it was. -/
theorem index_pushBack_of_lt [Inhabited T] (store : ChunkStore T chunkSize) (value : T)
    {i : Nat} (hi : i < store.size) : (store.pushBack value).index i = store.index i := by
  have hpos := Nat.pos_of_neZero chunkSize
  have hblock := store.div_lt_length_blocks hi
  have hlength := store.blocks_length
  rw [blockCount_eq hpos] at hlength
  by_cases hslot : store.size % chunkSize = 0
  · simp [index, pushBack, hslot, List.getElem?_append_left hblock, Nat.ne_of_gt hblock]
  · rw [if_neg hslot] at hlength
    simp only [index, pushBack, hslot, if_false, StdVector.items_modifyBack,
      List.getElem?_modify, List.getElem?_eq_getElem hblock]
    by_cases hlast : store.blocks.items.length - 1 = i / chunkSize
    · -- The same block, but an earlier slot of it.
      have hother : store.size % chunkSize ≠ i % chunkSize := by
        intro heq
        have hdiv : store.size / chunkSize = i / chunkSize := by omega
        have hsize := Nat.div_add_mod store.size chunkSize
        have hindex := Nat.div_add_mod i chunkSize
        rw [hdiv, heq] at hsize
        omega
      simp [hlast, Vector.getElem_set_ne, hother]
    · simp [hlast]

theorem toList_pushBack [Inhabited T] (store : ChunkStore T chunkSize) (value : T) :
    (store.pushBack value).toList = store.toList ++ [value] := by
  apply List.ext_getElem
  · simp
  · intro i hi _
    have hi' : i < store.size + 1 := by simpa using hi
    have hpushed := (store.pushBack value).index_eq_toList hi'
    rcases Nat.lt_succ_iff_lt_or_eq.mp hi' with hlt | rfl
    · rw [index_pushBack_of_lt store value hlt, store.index_eq_toList hlt] at hpushed
      simpa [List.getElem_append_left, hlt] using (Except.ok.inj hpushed).symm
    · rw [index_pushBack_size] at hpushed
      simpa using (Except.ok.inj hpushed).symm

/-- A push keeps the block table where it is unless it opens a block in a full one. -/
theorem capacity_pushBack [Inhabited T] (store : ChunkStore T chunkSize) (value : T)
    (h : store.size % chunkSize = 0 → store.blocks.items.length < store.blocks.capacity) :
    (store.pushBack value).blocks.capacity = store.blocks.capacity := by
  by_cases hslot : store.size % chunkSize = 0
  · simp only [pushBack, hslot, if_true, StdVector.capacity_modifyBack]
    exact store.blocks.capacity_pushBack_of_lt _ (h hslot)
  · simp only [pushBack, hslot, if_false, StdVector.capacity_modifyBack]

@[simp] theorem toList_empty : (empty : ChunkStore T chunkSize).toList = [] := rfl

@[simp] theorem toList_clear (store : ChunkStore T chunkSize) : store.clear.toList = [] := rfl

@[simp] theorem toList_reserveFor (store : ChunkStore T chunkSize) (maxElements : Nat) :
    (store.reserveFor maxElements).toList = store.toList := rfl

@[simp] theorem toList_shrinkToFit (store : ChunkStore T chunkSize) :
    store.shrinkToFit.toList = store.toList := rfl

end ChunkStore

end Voidwalk.ChunkStorage

import Mathlib.Algebra.Order.BigOperators.Group.List
import Mathlib.Algebra.Order.Floor.Div
import Mathlib.Data.List.Nodup
import Voidwalk.ChunkStorage

/-!
`ChunkStore` with its blocks behind pointers. The pointers are forgotten to reach
the store of the other modules, and that store is a list.
-/

namespace Voidwalk.ChunkRefinement

open Voidwalk.MappedFile
open Voidwalk.ChunkStorage

/-- `std::make_unique<Block>()`: an address that no live block has. Which one is
the allocator's choice. -/
structure Allocator where
  allocate : List Nat → Nat
  allocate_notMem : ∀ live, allocate live ∉ live

/-- `ChunkStore` as it is stored: a table of owned blocks and the memory they own. -/
structure BlockTable (T : Type) (chunkSize : Nat) [NeZero chunkSize] where
  blocks : StdVector Nat
  memory : Nat → Vector T chunkSize
  size : Nat
  blocks_nodup : blocks.items.Nodup
  blocks_length : blocks.items.length = blockCount chunkSize size

theorem map_update_of_notMem {B : Type} {addresses : List Nat} {address : Nat}
    (h : address ∉ addresses) (memory : Nat → B) (block : B) :
    addresses.map (Function.update memory address block) = addresses.map memory := by
  apply List.map_congr_left
  rintro other hother
  apply Function.update_of_ne
  rintro rfl
  exact h hother

/-- A write through the last pointer changes the last block and no other. -/
theorem map_update_concat {B : Type} {addresses : List Nat} {address : Nat}
    (h : (addresses ++ [address]).Nodup) (memory : Nat → B) (f : B → B) :
    (addresses ++ [address]).map (Function.update memory address (f (memory address))) =
      ((addresses ++ [address]).map memory).modify ((addresses ++ [address]).length - 1) f := by
  have hfresh : address ∉ addresses := fun hmem =>
    (List.nodup_append.mp h).2.2 address hmem address (List.mem_singleton_self _) rfl
  rw [List.map_append, map_update_of_notMem hfresh, List.map_append]
  simp [List.modify_eq_take_cons_drop]

namespace BlockTable

variable {T : Type} {chunkSize : Nat} [NeZero chunkSize]

def empty [Inhabited T] : BlockTable T chunkSize where
  blocks := .empty
  memory := fun _ => Vector.replicate chunkSize default
  size := 0
  blocks_nodup := List.nodup_nil
  blocks_length := blockCount_zero chunkSize

def reserveFor (store : BlockTable T chunkSize) (maxElements : Nat) :
    BlockTable T chunkSize where
  blocks := store.blocks.reserve (maxElements / chunkSize + 1)
  memory := store.memory
  size := store.size
  blocks_nodup := store.blocks_nodup
  blocks_length := store.blocks_length

def clear (store : BlockTable T chunkSize) : BlockTable T chunkSize where
  blocks := store.blocks.clear
  memory := store.memory
  size := 0
  blocks_nodup := List.nodup_nil
  blocks_length := blockCount_zero chunkSize

def shrinkToFit (store : BlockTable T chunkSize) : BlockTable T chunkSize where
  blocks := store.blocks.shrinkToFit
  memory := store.memory
  size := store.size
  blocks_nodup := store.blocks_nodup
  blocks_length := store.blocks_length

/-- The table after `if (slot == 0) blocks_.push_back(std::make_unique<Block>())`. -/
def openedBlocks (allocator : Allocator) (store : BlockTable T chunkSize) : StdVector Nat :=
  if store.size % chunkSize = 0 then
    store.blocks.pushBack (allocator.allocate store.blocks.items)
  else store.blocks

def openedMemory [Inhabited T] (allocator : Allocator) (store : BlockTable T chunkSize) :
    Nat → Vector T chunkSize :=
  if store.size % chunkSize = 0 then
    Function.update store.memory (allocator.allocate store.blocks.items)
      (Vector.replicate chunkSize default)
  else store.memory

theorem openedBlocks_nodup (allocator : Allocator) (store : BlockTable T chunkSize) :
    (store.openedBlocks allocator).items.Nodup := by
  rw [openedBlocks]
  split
  · rw [StdVector.items_pushBack, List.nodup_append]
    refine ⟨store.blocks_nodup, List.nodup_singleton _, ?_⟩
    rintro address hmem other hother rfl
    rw [List.mem_singleton.mp hother] at hmem
    exact allocator.allocate_notMem _ hmem
  · exact store.blocks_nodup

theorem openedBlocks_length (allocator : Allocator) (store : BlockTable T chunkSize) :
    (store.openedBlocks allocator).items.length = blockCount chunkSize (store.size + 1) := by
  rw [openedBlocks, blockCount_succ (Nat.pos_of_neZero chunkSize)]
  split
  · rw [StdVector.items_pushBack, List.length_append, store.blocks_length, List.length_singleton]
  · exact store.blocks_length

def pushBack [Inhabited T] (allocator : Allocator) (store : BlockTable T chunkSize) (value : T) :
    BlockTable T chunkSize :=
  let slot := store.size % chunkSize
  have hslot : slot < chunkSize := Nat.mod_lt _ (Nat.pos_of_neZero chunkSize)
  let memory := store.openedMemory allocator
  { blocks := store.openedBlocks allocator
    -- `(*blocks_.back())[slot] = std::move(value)`
    memory := match (store.openedBlocks allocator).items.getLast? with
      | some address => Function.update memory address ((memory address).set slot value hslot)
      | none => memory
    size := store.size + 1
    blocks_nodup := store.openedBlocks_nodup allocator
    blocks_length := store.openedBlocks_length allocator }

/-- `operator[]`: the pointer at the quotient, then the slot at the remainder. A
pointer past the end of the table is read from nowhere. -/
def index (store : BlockTable T chunkSize) (i : Nat) : Except Thrown T :=
  match store.blocks.items[i / chunkSize]? with
  | some address =>
      have : i % chunkSize < chunkSize := mod_chunkSize_lt i
      .ok (store.memory address)[i % chunkSize]
  | none => .error .outOfRange

def front (store : BlockTable T chunkSize) : Except Thrown T :=
  store.index 0

/-- On an empty store `size_ - 1` wraps; there is no block at either index. -/
def back (store : BlockTable T chunkSize) : Except Thrown T :=
  store.index (store.size - 1)

/-- `const_iterator`: the store it walks stays the one it was made from. -/
structure ConstIterator where
  index : Nat
  deriving DecidableEq

def ConstIterator.increment (iterator : ConstIterator) : ConstIterator where
  index := iterator.index + 1

def dereference (store : BlockTable T chunkSize) (iterator : ConstIterator) : Except Thrown T :=
  store.index iterator.index

def beginIterator : ConstIterator where
  index := 0

def endIterator (store : BlockTable T chunkSize) : ConstIterator where
  index := store.size

/-- A range-for from `iterator` to `end()` visits these values and leaves the loop. -/
inductive Enumerates (store : BlockTable T chunkSize) : ConstIterator → List T → Prop where
  | done {iterator : ConstIterator} (h : iterator = store.endIterator) :
      Enumerates store iterator []
  | visit {iterator : ConstIterator} {value : T} {values : List T}
      (hne : iterator ≠ store.endIterator) (hvalue : store.dereference iterator = .ok value)
      (hrest : Enumerates store iterator.increment values) :
      Enumerates store iterator (value :: values)

/-- The store that the other modules use: each pointer replaced by its block. -/
def forget (store : BlockTable T chunkSize) : ChunkStore T chunkSize where
  blocks :=
    { items := store.blocks.items.map store.memory
      capacity := store.blocks.capacity
      length_le := by simpa using store.blocks.length_le }
  size := store.size
  blocks_length := by simpa using store.blocks_length

@[simp] theorem size_forget (store : BlockTable T chunkSize) :
    store.forget.size = store.size := rfl

theorem forget_empty [Inhabited T] :
    (empty : BlockTable T chunkSize).forget = ChunkStore.empty := rfl

theorem forget_clear (store : BlockTable T chunkSize) :
    store.clear.forget = store.forget.clear := rfl

theorem forget_reserveFor (store : BlockTable T chunkSize) (maxElements : Nat) :
    (store.reserveFor maxElements).forget = store.forget.reserveFor maxElements := rfl

theorem forget_shrinkToFit (store : BlockTable T chunkSize) :
    store.shrinkToFit.forget = store.forget.shrinkToFit := by
  simp [forget, shrinkToFit, ChunkStore.shrinkToFit, StdVector.shrinkToFit]

theorem chunkStore_ext {left right : ChunkStore T chunkSize}
    (hitems : left.blocks.items = right.blocks.items)
    (hcapacity : left.blocks.capacity = right.blocks.capacity) (hsize : left.size = right.size) :
    left = right := by
  obtain ⟨⟨items, capacity, _⟩, size, _⟩ := left
  obtain ⟨⟨items', capacity', _⟩, size', _⟩ := right
  simp only at hitems hcapacity hsize
  subst hitems hcapacity hsize
  rfl

theorem openedBlocks_ne_nil (allocator : Allocator) (store : BlockTable T chunkSize) :
    (store.openedBlocks allocator).items ≠ [] := by
  intro hnil
  have hlength := store.openedBlocks_length allocator
  have hblock := div_lt_blockCount (Nat.pos_of_neZero chunkSize) (Nat.succ_pos store.size)
  rw [hnil, List.length_nil] at hlength
  rw [Nat.zero_div] at hblock
  exact absurd hlength (Nat.ne_of_lt hblock)

/-- Opening a block is the same behind the pointers: the block it adds is new to
the memory as well. -/
theorem map_openedMemory [Inhabited T] (allocator : Allocator) (store : BlockTable T chunkSize) :
    (store.openedBlocks allocator).items.map (store.openedMemory allocator) =
      (if store.size % chunkSize = 0 then
        store.forget.blocks.pushBack (Vector.replicate chunkSize default)
      else store.forget.blocks).items := by
  rw [openedBlocks, openedMemory]
  split
  · simp [forget, map_update_of_notMem (allocator.allocate_notMem _)]
  · rfl

/-- The write of a push, behind the pointers: a modification of the last block. -/
theorem map_pushBack [Inhabited T] (allocator : Allocator) (store : BlockTable T chunkSize)
    (value : T) :
    (store.pushBack allocator value).blocks.items.map (store.pushBack allocator value).memory =
      ((store.openedBlocks allocator).items.map (store.openedMemory allocator)).modify
        ((store.openedBlocks allocator).items.length - 1) fun block =>
          block.set (store.size % chunkSize) value
            (Nat.mod_lt _ (Nat.pos_of_neZero chunkSize)) := by
  have hnodup := store.openedBlocks_nodup allocator
  obtain ⟨earlier, address, hblocks⟩ : ∃ earlier address,
      (store.openedBlocks allocator).items = earlier ++ [address] :=
    ⟨_, _, (List.dropLast_append_getLast (store.openedBlocks_ne_nil allocator)).symm⟩
  simp only [pushBack, hblocks, List.getLast?_concat]
  rw [hblocks] at hnodup
  exact map_update_concat hnodup _ fun block : Vector T chunkSize =>
    block.set (store.size % chunkSize) value (Nat.mod_lt _ (Nat.pos_of_neZero chunkSize))

theorem forget_pushBack [Inhabited T] (allocator : Allocator) (store : BlockTable T chunkSize)
    (value : T) : (store.pushBack allocator value).forget = store.forget.pushBack value := by
  apply chunkStore_ext
  · change (store.pushBack allocator value).blocks.items.map _ = _
    have hlength := congrArg List.length (store.map_openedMemory allocator)
    rw [List.length_map] at hlength
    rw [map_pushBack, map_openedMemory, hlength]
    rfl
  · by_cases hslot : store.size % chunkSize = 0
    · simp [forget, pushBack, openedBlocks, ChunkStore.pushBack, StdVector.pushBack, hslot]
    · simp [forget, pushBack, openedBlocks, ChunkStore.pushBack, hslot]
  · rfl

theorem index_forget (store : BlockTable T chunkSize) (i : Nat) :
    store.forget.index i = store.index i := by
  simp only [ChunkStore.index, index, forget, List.getElem?_map]
  cases store.blocks.items[i / chunkSize]? <;> rfl

theorem enumerates_of_index {store : BlockTable T chunkSize} (values : List T)
    {iterator : ConstIterator} (hsize : iterator.index + values.length = store.size)
    (hindex : ∀ i (h : i < values.length),
      store.index (iterator.index + i) = .ok (values.get ⟨i, h⟩)) :
    Enumerates store iterator values := by
  induction values generalizing iterator with
  | nil =>
      obtain ⟨index⟩ := iterator
      exact .done (congrArg ConstIterator.mk hsize)
  | cons value values ih =>
      rw [List.length_cons] at hsize
      refine .visit ?_ (hindex 0 (Nat.succ_pos _)) (ih ?_ ?_)
      · rintro rfl
        change store.size + _ = store.size at hsize
        omega
      · change iterator.index + 1 + values.length = store.size
        omega
      · intro i hi
        rw [ConstIterator.increment, Nat.add_assoc, Nat.add_comm 1 i]
        exact hindex (i + 1) (Nat.succ_lt_succ hi)

theorem openedBlocks_prefix (allocator : Allocator) (store : BlockTable T chunkSize) :
    store.blocks.items <+: (store.openedBlocks allocator).items := by
  rw [openedBlocks]
  split
  · exact List.prefix_append _ _
  · exact List.prefix_refl _

end BlockTable

section Runs

variable {T : Type} {chunkSize : Nat} [NeZero chunkSize]

/-- What the owner of a store may do to it. -/
inductive Operation (T : Type) where
  | pushBack (value : T)
  | clear
  | reserveFor (maxElements : Nat)
  | shrinkToFit
  deriving DecidableEq

def Operation.perform [Inhabited T] (allocator : Allocator) (store : BlockTable T chunkSize) :
    Operation T → BlockTable T chunkSize
  | .pushBack value => store.pushBack allocator value
  | .clear => store.clear
  | .reserveFor maxElements => store.reserveFor maxElements
  | .shrinkToFit => store.shrinkToFit

def run [Inhabited T] (allocator : Allocator) (operations : List (Operation T)) :
    BlockTable T chunkSize :=
  operations.foldl (Operation.perform allocator) .empty

/-- The list a store stands for. -/
def Operation.onList (values : List T) : Operation T → List T
  | .pushBack value => values ++ [value]
  | .clear => []
  | .reserveFor _ => values
  | .shrinkToFit => values

def pushedSinceClear (operations : List (Operation T)) : List T :=
  operations.foldl Operation.onList []

theorem toList_perform [Inhabited T] (allocator : Allocator) (store : BlockTable T chunkSize)
    (operation : Operation T) :
    (operation.perform allocator store).forget.toList =
      operation.onList store.forget.toList := by
  cases operation with
  | pushBack value =>
      rw [Operation.perform, BlockTable.forget_pushBack, ChunkStore.toList_pushBack]
      rfl
  | clear => rfl
  | reserveFor maxElements => rfl
  | shrinkToFit =>
      rw [Operation.perform, BlockTable.forget_shrinkToFit, ChunkStore.toList_shrinkToFit]
      rfl

theorem toList_run [Inhabited T] (allocator : Allocator) (operations : List (Operation T)) :
    (run allocator operations : BlockTable T chunkSize).forget.toList =
      pushedSinceClear operations := by
  suffices hfold : ∀ (store : BlockTable T chunkSize) (values : List T),
      store.forget.toList = values →
      (operations.foldl (Operation.perform allocator) store).forget.toList =
        operations.foldl Operation.onList values from hfold .empty [] rfl
  induction operations with
  | nil => exact fun store values hstore => hstore
  | cons operation operations ih =>
      rintro store values rfl
      exact ih _ _ (toList_perform allocator store operation)

/-- All that a user of the store can see of it, and its blocks, agree with a list. -/
structure ShowsList (store : BlockTable T chunkSize) (values : List T) : Prop where
  size_eq : store.size = values.length
  index_eq : ∀ i (h : i < values.length), store.index i = .ok (values.get ⟨i, h⟩)
  front_eq : ∀ h : values ≠ [], store.front = .ok (values.head h)
  back_eq : ∀ h : values ≠ [], store.back = .ok (values.getLast h)
  enumerates : store.Enumerates BlockTable.beginIterator values
  block_count : store.blocks.items.length = store.size ⌈/⌉ chunkSize
  block_present : ∀ i, i < store.size → i / chunkSize < store.blocks.items.length

/-- Each block stays at its address and each element at its index. -/
structure Keeps (before after : BlockTable T chunkSize) : Prop where
  blocks_prefix : before.blocks.items <+: after.blocks.items
  index_eq : ∀ i, i < before.size → after.index i = before.index i

theorem showsList_toList (store : BlockTable T chunkSize) :
    ShowsList store store.forget.toList := by
  have hindex : ∀ i (h : i < store.forget.toList.length),
      store.index i = .ok (store.forget.toList.get ⟨i, h⟩) := by
    intro i hi
    rw [← store.index_forget]
    exact store.forget.index_eq_toList (by simpa using hi)
  have hpos := Nat.pos_of_neZero chunkSize
  refine ⟨by simp, hindex, ?_, ?_, ?_, ?_, ?_⟩
  · intro hne
    rw [BlockTable.front, hindex 0 (List.length_pos_of_ne_nil hne), List.head_eq_getElem]
    rfl
  · intro hne
    have hlast := hindex (store.size - 1) (by
      have := List.length_pos_of_ne_nil hne
      simp at this ⊢
      omega)
    rw [BlockTable.back, hlast, List.getLast_eq_getElem]
    simp
  · apply BlockTable.enumerates_of_index
    · simp [BlockTable.beginIterator]
    · simpa [BlockTable.beginIterator] using hindex
  · rw [store.blocks_length, Nat.ceilDiv_eq_add_pred_div]
    rfl
  · intro i hi
    rw [store.blocks_length]
    exact div_lt_blockCount hpos hi

theorem keeps_pushBack [Inhabited T] (allocator : Allocator) (store : BlockTable T chunkSize)
    (value : T) : Keeps store (store.pushBack allocator value) where
  blocks_prefix := store.openedBlocks_prefix allocator
  index_eq := by
    intro i hi
    rw [← BlockTable.index_forget, BlockTable.forget_pushBack,
      ChunkStore.index_pushBack_of_lt _ _ hi, BlockTable.index_forget]

theorem keeps_shrinkToFit (store : BlockTable T chunkSize) : Keeps store store.shrinkToFit where
  blocks_prefix := List.prefix_refl _
  index_eq := fun _ _ => rfl

/-- Whatever is done to a new store, it is the list of the values pushed since the
last clear, and neither a push nor a shrink disturbs what is in it. -/
theorem store_refines_list [Inhabited T] (allocator : Allocator)
    (operations : List (Operation T)) :
    ShowsList (run allocator operations : BlockTable T chunkSize) (pushedSinceClear operations) ∧
    (∀ value, Keeps (run allocator operations : BlockTable T chunkSize)
      ((run allocator operations).pushBack allocator value)) ∧
    Keeps (run allocator operations : BlockTable T chunkSize)
      (run allocator operations).shrinkToFit := by
  refine ⟨?_, keeps_pushBack allocator _, keeps_shrinkToFit _⟩
  rw [← @toList_run T chunkSize _ _ allocator operations]
  exact showsList_toList _

/-- An address above all live ones. -/
def nextAbove : Allocator where
  allocate := fun live => live.sum + 1
  allocate_notMem := by
    intro live hmem
    exact absurd (List.le_sum_of_mem hmem) (Nat.not_succ_le_self _)

theorem store_refines_list_reused :
    ShowsList (run nextAbove
      [.pushBack 7, .pushBack 8, .clear, .pushBack 1, .pushBack 2, .shrinkToFit, .pushBack 3] :
        BlockTable Nat 2) [1, 2, 3] :=
  (store_refines_list nextAbove _).1

end Runs

end Voidwalk.ChunkRefinement

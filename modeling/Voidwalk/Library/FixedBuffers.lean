import Mathlib.Algebra.Ring.Nat
import Mathlib.Data.List.Basic
import Mathlib.Tactic.Common

/-!
Buffers of a fixed size that are filled through an index. A store behind the end is an error.
-/

namespace Voidwalk.Library.FixedBuffers

variable {α ε : Type} {size : Nat}

def store (outside : ε) (buffer : Vector α size) (index : Nat) (value : α) :
    Except ε (Vector α size) :=
  if h : index < size then .ok (buffer.set index value h) else .error outside

def storeAll (outside : ε) (buffer : Vector α size) (index : Nat) :
    List α → Except ε (Vector α size)
  | [] => .ok buffer
  | value :: values =>
      store outside buffer index value >>= fun stored =>
        storeAll outside stored (index + 1) values

/-- The first `count` values of a buffer. -/
def load (outside : ε) (buffer : Vector α size) (count : Nat) : Except ε (List α) :=
  if count ≤ size then .ok (buffer.toList.take count) else .error outside

variable {outside : ε} {buffer : Vector α size} {front old new rest : List α}

/-- A store behind `front` replaces one value. -/
theorem store_eq {value replaced : α} (h : buffer.toList = front ++ replaced :: rest) :
    ∃ stored, store outside buffer front.length value = .ok stored ∧
      stored.toList = front ++ value :: rest := by
  have hsize : (front ++ replaced :: rest).length = size := by
    rw [← h, Vector.length_toList]
  have hindex : front.length < size := by
    rw [List.length_append, List.length_cons] at hsize
    omega
  refine ⟨buffer.set front.length value hindex, dif_pos hindex, ?_⟩
  rw [Vector.toList_set, h, List.set_append_right _ _ (Nat.le_refl _), Nat.sub_self,
    List.set_cons_zero]

theorem storeAll_eq (h : buffer.toList = front ++ (old ++ rest))
    (hlength : old.length = new.length) :
    ∃ stored, storeAll outside buffer front.length new = .ok stored ∧
      stored.toList = front ++ (new ++ rest) := by
  induction new generalizing buffer front old with
  | nil =>
      rw [List.length_nil, List.length_eq_zero_iff] at hlength
      subst hlength
      exact ⟨buffer, rfl, h⟩
  | cons value new ih =>
      obtain ⟨replaced, old, rfl⟩ := List.exists_cons_of_length_eq_add_one hlength
      obtain ⟨first, hfirst, hvalue⟩ := @store_eq α ε size outside buffer front _ value replaced h
      have hnext : first.toList = (front ++ [value]) ++ (old ++ rest) := by
        rw [hvalue, List.append_assoc]
        rfl
      obtain ⟨stored, hstored, hvalues⟩ := ih hnext (by simpa using hlength)
      refine ⟨stored, ?_, by rw [hvalues]; simp⟩
      rw [List.length_append] at hstored
      rw [storeAll, hfirst]
      exact hstored

theorem load_eq (h : buffer.toList = front ++ rest) :
    load outside buffer front.length = .ok front := by
  have hsize : (front ++ rest).length = size := by
    rw [← h, Vector.length_toList]
  rw [List.length_append] at hsize
  rw [load, if_pos (by omega), h, List.take_left]

end Voidwalk.Library.FixedBuffers

import Mathlib.Data.List.Nodup
import Mathlib.Data.Nat.Basic
import Mathlib.Tactic.Common

/-!
Places `0` to `n - 1` in a ring, some of which may be stopped at, and the loop that walks to the
next of them. A ring whose places have stops of their own is one ring of all the stops.
-/

namespace Voidwalk.Library.Rings

variable {allowed : Nat → Bool} {n step : Nat}

/-- `do i = (i + step) % n; while (!allowed[i]);`, `fuel` times at most. -/
def seek (allowed : Nat → Bool) (n step : Nat) : Nat → Nat → Option Nat
  | 0, _ => none
  | fuel + 1, i =>
      if allowed ((i + step) % n) then some ((i + step) % n)
      else seek allowed n step fuel ((i + step) % n)

theorem add_mul_mod (i k step n : Nat) :
    ((i + step) % n + k * step) % n = (i + (k + 1) * step) % n := by
  rw [Nat.mod_add_mod, Nat.succ_mul]
  congr 1
  omega

/-- The place that is found is the first allowed one behind the start. -/
theorem seek_first {fuel i j : Nat} (h : seek allowed n step fuel i = some j) :
    ∃ k, 0 < k ∧ k ≤ fuel ∧ j = (i + k * step) % n ∧ allowed j = true ∧
      ∀ k', 0 < k' → k' < k → allowed ((i + k' * step) % n) = false := by
  induction fuel generalizing i with
  | zero => contradiction
  | succ fuel ih =>
      rw [seek] at h
      split at h
      · rename_i hallowed
        obtain rfl := Option.some.inj h
        refine ⟨1, Nat.one_pos, by omega, by rw [Nat.one_mul], hallowed, ?_⟩
        intro k' hpos hlt
        omega
      · rename_i hskipped
        obtain ⟨k, hpos, hle, hj, hallowed, hfirst⟩ := ih h
        refine ⟨k + 1, Nat.succ_pos k, by omega, ?_, hallowed, ?_⟩
        · rw [hj, add_mul_mod]
        · intro k' hpos' hlt
          rcases Nat.exists_eq_succ_of_ne_zero (Nat.pos_iff_ne_zero.mp hpos') with ⟨m, rfl⟩
          rcases Nat.eq_zero_or_pos m with rfl | hm
          · rw [Nat.one_mul]
            simpa using hskipped
          · rw [Nat.succ_eq_add_one, ← add_mul_mod]
            exact hfirst m hm (by omega)

/-- An allowed place so many steps ahead is found, or one in front of it. -/
theorem seek_isSome {fuel i k : Nat} (hpos : 0 < k) (hle : k ≤ fuel)
    (h : allowed ((i + k * step) % n) = true) : ∃ j, seek allowed n step fuel i = some j := by
  induction fuel generalizing i k with
  | zero => omega
  | succ fuel ih =>
      rw [seek]
      split
      · exact ⟨_, rfl⟩
      · rename_i hskipped
        rcases Nat.exists_eq_succ_of_ne_zero (Nat.pos_iff_ne_zero.mp hpos) with ⟨m, rfl⟩
        rcases Nat.eq_zero_or_pos m with rfl | hm
        · rw [Nat.one_mul] at h
          exact absurd h hskipped
        · rw [Nat.succ_eq_add_one, ← add_mul_mod] at h
          exact ih hm (by omega) h

/-- From an allowed place the loop comes back to it at last. -/
theorem seek_total {i : Nat} (hi : i < n) (h : allowed i = true) :
    ∃ j, seek allowed n step n i = some j ∧ j < n ∧ allowed j = true := by
  have hround : (i + n * step) % n = i := by
    rw [Nat.mul_comm, Nat.add_mul_mod_self_right, Nat.mod_eq_of_lt hi]
  have hn : 0 < n := Nat.zero_lt_of_lt hi
  obtain ⟨j, hj⟩ := @seek_isSome allowed n step n i n hn (Nat.le_refl n) (by rw [hround]; exact h)
  obtain ⟨k, -, -, hplace, hallowed, -⟩ := seek_first hj
  exact ⟨j, hj, hplace ▸ Nat.mod_lt _ hn, hallowed⟩

/-- What holds of an allowed place, and of a place if it holds of the one that the loop walks to
from there, holds of every allowed place: step by step the loop comes to all of them. -/
theorem seek_induction {P : Nat → Prop} {target : Nat} (htarget : target < n)
    (hallowed : allowed target = true) (hdone : P target)
    (hstep : ∀ i j, i < n → allowed i = true → seek allowed n 1 n i = some j → j < n →
      allowed j = true → P j → P i) {i : Nat} (hi : i < n) (h : allowed i = true) : P i := by
  have hn : 0 < n := Nat.zero_lt_of_lt hi
  -- The steps that are left to the target.
  induction hleft : (target + (n - i)) % n using Nat.strongRecOn generalizing i with
  | ind left ih =>
      have hwalk : target = (i + left) % n := by
        rw [← hleft, Nat.add_mod_mod, show i + (target + (n - i)) = target + n by omega,
          Nat.add_mod_right, Nat.mod_eq_of_lt htarget]
      rcases Nat.eq_zero_or_pos left with hzero | hpos
      · rw [hzero, Nat.add_zero, Nat.mod_eq_of_lt hi] at hwalk
        exact hwalk ▸ hdone
      · obtain ⟨j, hj, hjn, hjallowed⟩ := @seek_total allowed n 1 i hi h
        obtain ⟨k, hkpos, -, hplace, -, hfirst⟩ := seek_first hj
        rw [Nat.mul_one] at hplace
        have hkle : k ≤ left := by
          by_contra hlater
          have hskipped := hfirst left hpos (Nat.not_le.mp hlater)
          rw [Nat.mul_one, ← hwalk, hallowed] at hskipped
          contradiction
        have hleftLt : left < n := hleft ▸ Nat.mod_lt _ hn
        have hcloser : (target + (n - j)) % n = left - k := by
          rcases Nat.lt_or_ge (i + k) n with hlow | hhigh
          · rw [Nat.mod_eq_of_lt hlow] at hplace
            rcases Nat.lt_or_ge (i + left) n with hinside | haround
            · rw [Nat.mod_eq_of_lt hinside] at hwalk
              rw [show target + (n - j) = left - k + n by omega, Nat.add_mod_right,
                Nat.mod_eq_of_lt (by omega)]
            · rw [Nat.mod_eq_sub_mod haround, Nat.mod_eq_of_lt (by omega)] at hwalk
              rw [show target + (n - j) = left - k by omega, Nat.mod_eq_of_lt (by omega)]
          · rw [Nat.mod_eq_sub_mod hhigh, Nat.mod_eq_of_lt (by omega)] at hplace
            rw [Nat.mod_eq_sub_mod (by omega), Nat.mod_eq_of_lt (by omega)] at hwalk
            rw [show target + (n - j) = left - k + n by omega, Nat.add_mod_right,
              Nat.mod_eq_of_lt (by omega)]
        exact hstep i j hi h hj hjn hjallowed (ih (left - k) (by omega) hjn hjallowed hcloser)

section Stops

variable {α : Type} {order : List α} {count : α → Nat}

/-- Every place with each of its stops. -/
def places (order : List α) (count : α → Nat) : List (α × Nat) :=
  order.flatMap fun a => (List.range (count a)).map fun k => (a, k)

theorem length_places_append (front back : List α) (count : α → Nat) :
    (places (front ++ back) count).length =
      (places front count).length + (places back count).length := by
  rw [places, List.flatMap_append, List.length_append, places, places]

theorem length_places_cons (a : α) (back : List α) (count : α → Nat) :
    (places (a :: back) count).length = count a + (places back count).length := by
  rw [places, List.flatMap_cons, List.length_append, List.length_map, List.length_range, places]

theorem getElem_places {front back : List α} {a : α} {k : Nat} (hk : k < count a) :
    (places (front ++ a :: back) count)[(places front count).length + k]? = some (a, k) := by
  have hsplit : places (front ++ a :: back) count =
      places front count ++
        ((List.range (count a)).map (fun k => (a, k)) ++ places back count) := by
    rw [places, List.flatMap_append, List.flatMap_cons, places, places]
  rw [hsplit, List.getElem?_append_right (Nat.le_add_right _ _), Nat.add_sub_cancel_left,
    List.getElem?_append_left (by simpa using hk), List.getElem?_map, List.getElem?_range hk,
    Option.map_some]

/-- Where a stop stands in the ring. -/
theorem places_split {i k : Nat} {a : α} (h : (places order count)[i]? = some (a, k)) :
    ∃ front back, order = front ++ a :: back ∧ k < count a ∧
      i = (places front count).length + k := by
  induction order generalizing i with
  | nil => contradiction
  | cons b order ih =>
      rw [places, List.flatMap_cons] at h
      rcases Nat.lt_or_ge i (count b) with hhere | hlater
      · rw [List.getElem?_append_left (by simpa using hhere), List.getElem?_map,
          List.getElem?_range hhere, Option.map_some] at h
        obtain ⟨rfl, rfl⟩ := Prod.mk.inj (Option.some.inj h)
        exact ⟨[], order, rfl, hhere, (Nat.zero_add _).symm⟩
      · rw [List.getElem?_append_right (by simpa using hlater)] at h
        obtain ⟨front, back, horder, hk, hi⟩ := ih h
        refine ⟨b :: front, back, by rw [horder, List.cons_append], hk, ?_⟩
        rw [List.length_map, List.length_range] at hi
        rw [length_places_cons]
        omega

variable [DecidableEq α]

/-- The stop behind one: the next in its place, or the first of the place behind it. -/
def nextPlace (order : List α) (count : α → Nat) (a : α) (k : Nat) : Option (α × Nat) :=
  if k + 1 < count a then some (a, k + 1)
  else (order[(order.idxOf a + 1) % order.length]?).map fun b => (b, 0)

/-- The stop in front of one. -/
def prevPlace (order : List α) (count : α → Nat) (a : α) (k : Nat) : Option (α × Nat) :=
  if 0 < k then some (a, k - 1)
  else (order[(order.idxOf a + order.length - 1) % order.length]?).map fun b => (b, count b - 1)

theorem idxOf_split {front back : List α} {a : α} (hnodup : (front ++ a :: back).Nodup) :
    (front ++ a :: back).idxOf a = front.length := by
  have hnot : a ∉ front := fun hmem =>
    (List.nodup_append.mp hnodup).2.2 a hmem a List.mem_cons_self rfl
  rw [List.idxOf_append_of_notMem hnot, List.idxOf_cons_self, Nat.add_zero]

/-- Stop by stop and place by place, the ring is walked once around. -/
theorem nextPlace_eq (hnodup : order.Nodup) (hpos : ∀ a ∈ order, 0 < count a) {i k : Nat} {a : α}
    (h : (places order count)[i]? = some (a, k)) :
    nextPlace order count a k =
      (places order count)[(i + 1) % (places order count).length]? := by
  obtain ⟨front, back, rfl, hk, rfl⟩ := places_split h
  have hlength : (places (front ++ a :: back) count).length =
      (places front count).length + count a + (places back count).length := by
    rw [length_places_append, length_places_cons, Nat.add_assoc]
  rw [nextPlace]
  split
  · rename_i hinside
    rw [Nat.mod_eq_of_lt (by omega), Nat.add_assoc, getElem_places hinside]
  rename_i hedge
  rw [idxOf_split hnodup]
  cases back with
  | nil =>
      have hend : (places front count).length + k + 1 =
          (places (front ++ [a]) count).length := by
        rw [hlength, show places ([] : List α) count = [] from rfl, List.length_nil]
        omega
      rw [hend, Nat.mod_self, show front.length + 1 = (front ++ [a]).length by simp, Nat.mod_self]
      obtain ⟨first, rest, hfirst⟩ := List.exists_cons_of_ne_nil
        (List.append_ne_nil_of_right_ne_nil front (List.cons_ne_nil a []))
      have hzero := @getElem_places α count [] rest first 0
        (hpos first (by rw [hfirst]; exact List.mem_cons_self))
      rw [hfirst]
      exact hzero.symm
  | cons b back =>
      have hnext := @getElem_places α count (front ++ [a]) back b 0 (hpos b (by simp))
      have hfront : (places (front ++ [a]) count).length =
          (places front count).length + k + 1 := by
        rw [length_places_append, length_places_cons, places, places, List.flatMap_nil,
          List.length_nil]
        omega
      have hinside : (places front count).length + k + 1 <
          (places (front ++ a :: b :: back) count).length := by
        have := hpos b (by simp)
        rw [hlength, length_places_cons]
        omega
      rw [Nat.mod_eq_of_lt hinside, Nat.mod_eq_of_lt (by simp), ← hfront,
        List.getElem?_append_right (by omega)]
      rw [List.append_assoc, List.singleton_append, Nat.add_zero] at hnext
      rw [hnext]
      simp

theorem prevPlace_nextPlace (hnodup : order.Nodup) {a b : α} {k l : Nat} (ha : a ∈ order)
    (hk : k < count a) (h : nextPlace order count a k = some (b, l)) :
    prevPlace order count b l = some (a, k) := by
  rw [nextPlace] at h
  split at h
  · obtain ⟨rfl, rfl⟩ := Prod.mk.inj (Option.some.inj h)
    rw [prevPlace, if_pos (Nat.succ_pos k), Nat.add_sub_cancel]
  · rename_i hedge
    rw [Option.map_eq_some_iff] at h
    obtain ⟨b', hb, hsame⟩ := h
    obtain ⟨rfl, rfl⟩ := Prod.mk.inj hsame
    have hplace := List.idxOf_lt_length_iff.mpr ha
    have hpos : 0 < order.length := Nat.zero_lt_of_lt hplace
    have hmod : (order.idxOf a + 1) % order.length < order.length := Nat.mod_lt _ hpos
    have hindex : order.idxOf b' = (order.idxOf a + 1) % order.length := by
      rw [List.getElem?_eq_getElem hmod] at hb
      rw [← Option.some.inj hb]
      exact hnodup.idxOf_getElem _ hmod
    have hback : (order.idxOf b' + order.length - 1) % order.length = order.idxOf a := by
      rw [hindex]
      rcases Nat.lt_or_ge (order.idxOf a + 1) order.length with hinside | hend
      · rw [Nat.mod_eq_of_lt hinside,
          show order.idxOf a + 1 + order.length - 1 = order.idxOf a + order.length by omega,
          Nat.add_mod_right, Nat.mod_eq_of_lt hplace]
      · rw [show order.idxOf a + 1 = order.length by omega, Nat.mod_self, Nat.zero_add,
          Nat.mod_eq_of_lt (by omega)]
        omega
    rw [prevPlace, if_neg (Nat.lt_irrefl 0), hback, List.getElem?_eq_getElem hplace,
      List.getElem_idxOf hplace, Option.map_some, show count a - 1 = k by omega]

/-- The other way around. -/
theorem prevPlace_eq (hnodup : order.Nodup) (hpos : ∀ a ∈ order, 0 < count a) {i k : Nat} {a : α}
    (h : (places order count)[i]? = some (a, k)) :
    prevPlace order count a k =
      (places order count)[(i + (places order count).length - 1) %
        (places order count).length]? := by
  obtain ⟨hi, -⟩ := List.getElem?_eq_some_iff.mp h
  have hn : 0 < (places order count).length := Nat.zero_lt_of_lt hi
  have hj : (i + (places order count).length - 1) % (places order count).length <
      (places order count).length := Nat.mod_lt _ hn
  obtain ⟨b, l, hplace⟩ : ∃ b l, (places order count)[(i + (places order count).length - 1) %
      (places order count).length]? = some (b, l) :=
    ⟨_, _, List.getElem?_eq_getElem hj⟩
  have hround : ((i + (places order count).length - 1) % (places order count).length + 1) %
      (places order count).length = i := by
    rw [Nat.mod_add_mod, Nat.sub_add_cancel (by omega), Nat.add_mod_right, Nat.mod_eq_of_lt hi]
  have hnext := nextPlace_eq hnodup hpos hplace
  rw [hround, h] at hnext
  obtain ⟨front, back, horder, hl, -⟩ := places_split hplace
  rw [hplace]
  exact prevPlace_nextPlace hnodup (by rw [horder]; simp) hl hnext

end Stops

end Voidwalk.Library.Rings

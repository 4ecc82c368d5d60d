import Mathlib.Data.List.Basic

/-!
Tables of shared objects, in which a pointer is an index: what is found behind a
pointer after one entry was replaced or a new one appended.
-/

namespace Voidwalk.Library.ObjectTable

variable {α : Type*} {table : List α} {i j : Nat} {value found old : α} {f : α → α}

theorem set_cases (h : (table.set i value)[j]? = some found) :
    (j = i ∧ found = value) ∨ (j ≠ i ∧ table[j]? = some found) := by
  by_cases hj : j = i
  · subst hj
    rw [List.getElem?_set_self'] at h
    obtain ⟨old, -, rfl⟩ := Option.map_eq_some_iff.mp h
    exact Or.inl ⟨rfl, rfl⟩
  · rw [List.getElem?_set_ne (Ne.symm hj)] at h
    exact Or.inr ⟨hj, h⟩

theorem set_self (h : table[i]? = some old) : (table.set i value)[i]? = some value := by
  rw [List.getElem?_set_self', h]
  rfl

theorem append_cases (h : (table ++ [value])[j]? = some found) :
    (j = table.length ∧ found = value) ∨ table[j]? = some found := by
  rcases Nat.lt_trichotomy j table.length with hlt | rfl | hgt
  · rw [List.getElem?_append_left hlt] at h
    exact Or.inr h
  · rw [List.getElem?_concat_length] at h
    exact Or.inl ⟨rfl, (Option.some.inj h).symm⟩
  · rw [List.getElem?_eq_none (by simp; omega)] at h
    contradiction

theorem append_of_some (h : table[j]? = some found) : (table ++ [value])[j]? = some found := by
  rwa [List.getElem?_append_left (List.getElem?_eq_some_iff.mp h).1]

theorem modify_cases (h : (table.modify i f)[j]? = some found) :
    (j = i ∧ ∃ old, table[i]? = some old ∧ found = f old) ∨ (j ≠ i ∧ table[j]? = some found) := by
  by_cases hj : j = i
  · subst hj
    rw [List.getElem?_modify_eq] at h
    obtain ⟨old, hold, rfl⟩ := Option.map_eq_some_iff.mp h
    exact Or.inl ⟨rfl, old, hold, rfl⟩
  · rw [List.getElem?_modify_ne _ _ (Ne.symm hj)] at h
    exact Or.inr ⟨hj, h⟩

theorem modify_self (h : table[i]? = some old) : (table.modify i f)[i]? = some (f old) := by
  rw [List.getElem?_modify_eq, h]
  rfl

end Voidwalk.Library.ObjectTable

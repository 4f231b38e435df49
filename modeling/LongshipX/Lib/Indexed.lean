import Mathlib.Data.List.Basic

/-!
# Lists by position

Tables of records that are changed one place at a time.

* `ne_of_ne` : records that differ stand in different places;
* `set_cases` : what stands in a place after one was overwritten;
* `countP_set_of_some` : how counts change with it;
* `append_cases` : what stands in a place after one was added.
-/

namespace Indexed

variable {α : Type*} {l : List α} {i j : Nat} {x y z : α}

/-- Two records that differ in something. -/
theorem ne_of_ne {β : Type*} (hi : l[i]? = some x) (hj : l[j]? = some y) (f : α → β) (hne : f x ≠ f y) : i ≠ j := by
  rintro rfl
  exact hne (congrArg f (Option.some.inj (hi.symm.trans hj)))

theorem set_self (h : l[i]? = some x) : (l.set i y)[i]? = some y :=
  List.getElem?_set_self (List.getElem?_eq_some_iff.mp h).1

theorem set_of_ne (h : j ≠ i) : (l.set i y)[j]? = l[j]? := List.getElem?_set_ne (Ne.symm h)

/-- A place after one was overwritten: that one, or another as it was. -/
theorem set_cases (h : (l.set i y)[j]? = some z) : (j = i ∧ z = y) ∨ (j ≠ i ∧ l[j]? = some z) := by
  by_cases hj : j = i
  · subst hj
    have hlt := (List.getElem?_eq_some_iff.mp h).1
    rw [List.length_set] at hlt
    rw [List.getElem?_set_self hlt] at h
    exact Or.inl ⟨rfl, (Option.some.inj h).symm⟩
  · rw [set_of_ne hj] at h
    exact Or.inr ⟨hj, h⟩

/-- One record goes out of the count, the new one comes in. -/
theorem countP_set_of_some (h : l[i]? = some x) (p : α → Bool) :
    (l.set i y).countP p + (if p x = true then 1 else 0) = l.countP p + (if p y = true then 1 else 0) := by
  obtain ⟨hlt, hx⟩ := List.getElem?_eq_some_iff.mp h
  rw [List.countP_set hlt, hx]
  have hle : (if p x = true then 1 else 0) ≤ l.countP p := by
    split_ifs with hp
    · exact List.countP_pos_iff.mpr ⟨x, List.mem_of_getElem? h, hp⟩
    · exact Nat.zero_le _
  omega

/-- A count in which the two records agree stays. -/
theorem countP_set_same (h : l[i]? = some x) {p : α → Bool} (hp : p y = p x) : (l.set i y).countP p = l.countP p := by
  have hcount := countP_set_of_some (y := y) h p
  rw [hp] at hcount
  omega

/-- A place after a record was added: one as it was, or the last. -/
theorem append_cases (h : (l ++ [y])[j]? = some z) : l[j]? = some z ∨ (j = l.length ∧ z = y) := by
  by_cases hj : j < l.length
  · rw [List.getElem?_append_left hj] at h
    exact Or.inl h
  · have hlt := (List.getElem?_eq_some_iff.mp h).1
    rw [List.length_append, List.length_singleton] at hlt
    rw [List.getElem?_append_right (Nat.le_of_not_lt hj)] at h
    exact Or.inr ⟨by omega, List.mem_singleton.mp (List.mem_of_getElem? h)⟩

theorem append_old (h : l[j]? = some z) : (l ++ [y])[j]? = some z := by
  rw [List.getElem?_append_left (List.getElem?_eq_some_iff.mp h).1]
  exact h

end Indexed

import Mathlib.Data.List.Nodup

/-!
# Positions captured in a list

An entry's position is captured and the list then loses entries one at a time. The
position stays the entry's as long as nothing at or before it is removed; after that
it never is again.
-/

namespace Machine

variable {α : Type*} {l : List α} {a : α} {p q : ℕ}

/-- The position is still the entry's. -/
def Held (l : List α) (a : α) (q : ℕ) : Prop := l[q]? = some a

/-- The entry is gone or has moved to an earlier position. -/
def Passed (l : List α) (a : α) (q : ℕ) : Prop := a ∉ l.drop q

/-- An entry at its position is in the list. -/
theorem Held.mem (h : Held l a q) : a ∈ l := List.mem_of_getElem? h

/-- From its position on, the list starts with the entry. -/
theorem Held.drop_eq (h : Held l a q) : l.drop q = a :: l.drop (q + 1) := by
  obtain ⟨hlt, rfl⟩ := List.getElem?_eq_some_iff.mp h
  exact List.drop_eq_getElem_cons hlt

/-- What is removed after a position leaves it alone. -/
theorem Held.eraseIdx (h : Held l a q) (hlt : q < p) : Held (l.eraseIdx p) a q := by
  rwa [Held, List.getElem?_eraseIdx_of_lt hlt]

/-- An entry erased at or before a position takes one off what comes from there on. -/
theorem drop_eraseIdx_of_le (l : List α) (hle : p ≤ q) :
    (l.eraseIdx p).drop q = l.drop (q + 1) := by
  apply List.ext_getElem?
  intro i
  have hge : p ≤ q + i := by omega
  rw [List.getElem?_drop, List.getElem?_drop, List.getElem?_eraseIdx_of_ge hge]
  congr 1
  omega

/-- A removal at or before the position of an entry takes the position from it. -/
theorem Held.passed (hnodup : l.Nodup) (h : Held l a q) (hle : p ≤ q) :
    Passed (l.eraseIdx p) a q := by
  have hdrop := h.drop_eq ▸ hnodup.sublist (List.drop_sublist q l)
  rw [Passed, drop_eraseIdx_of_le l hle]
  exact (List.nodup_cons.mp hdrop).1

/-- Removals never move an entry to a later position. -/
theorem Passed.eraseIdx (h : Passed l a q) (p : ℕ) : Passed (l.eraseIdx p) a q := by
  intro hmem
  apply h
  exact ((List.eraseIdx_sublist l p).drop q).subset hmem

/-- An entry that has moved up is not the one at the position. -/
theorem Passed.mem_eraseIdx (h : Passed l a q) (hmem : a ∈ l) : a ∈ l.eraseIdx q := by
  rw [← List.take_append_drop q l] at hmem
  rw [List.eraseIdx_eq_take_drop_succ]
  rcases List.mem_append.mp hmem with htake | hdrop
  · exact List.mem_append_left _ htake
  · exact absurd hdrop h

end Machine

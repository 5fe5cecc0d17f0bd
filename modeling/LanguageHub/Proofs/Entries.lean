import Mathlib.Data.List.Basic

/-!
# Entries that go on

The operations of a session, the tasks of a manager and the installations of an installer are known
by their numbers, which are their places in a list. One of them going on replaces **one entry**, and
a new one comes to the end; all others stay where they are.
-/

namespace LanguageHub

variable {α : Type} {l : List α} {n k : Nat} {x y : α}

/-- An entry after one has been replaced: it is the new one, or it has not changed. -/
theorem getElem?_set_cases (h : (l.set n y)[k]? = some x) :
    (k = n ∧ x = y) ∨ (k ≠ n ∧ l[k]? = some x) := by
  rcases eq_or_ne k n with rfl | hne
  · obtain ⟨hlt, rfl⟩ := List.getElem?_eq_some_iff.mp h
    exact .inl ⟨rfl, by simp⟩
  · exact .inr ⟨hne, by simpa [List.getElem?_set_ne hne.symm] using h⟩

/-- An entry after one has come to the end. -/
theorem getElem?_concat_cases (h : (l ++ [y])[k]? = some x) : x = y ∨ l[k]? = some x := by
  rcases Nat.lt_or_ge k l.length with hlt | hge
  · exact .inr (by simpa [List.getElem?_append_left hlt] using h)
  · rw [List.getElem?_append_right hge] at h
    exact .inl (List.mem_singleton.mp (List.mem_of_getElem? h))

theorem getElem?_set_of_getElem? (h : l[n]? = some x) (y : α) : (l.set n y)[n]? = some y := by
  obtain ⟨hlt, -⟩ := List.getElem?_eq_some_iff.mp h
  simp [hlt]

end LanguageHub

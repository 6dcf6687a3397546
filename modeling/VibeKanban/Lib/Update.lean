import Mathlib

/-!
# Maps that change in one place

Result: `update_cases`, which tells a new value from an old one.
-/

namespace VibeKanban.Lib

open Function

variable {ι α : Type*} [DecidableEq ι] {f : ι → Option α} {x y : α} {i j : ι}

/-- What is found after an update is the new value, or it was there before. -/
theorem update_cases (h : Function.update f i (some x) j = some y) :
    j = i ∧ y = x ∨ j ≠ i ∧ f j = some y := by
  by_cases hj : j = i
  · rw [hj, update_self, Option.some.injEq] at h
    exact .inl ⟨hj, h.symm⟩
  · rw [update_of_ne hj] at h
    exact .inr ⟨hj, h⟩

end VibeKanban.Lib

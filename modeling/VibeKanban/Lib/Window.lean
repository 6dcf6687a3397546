import Mathlib

/-!
# Windows of consecutive numbers

A bounded log that numbers its entries one after the other and drops the oldest ones keeps the last
`n` numbers below the next one to assign (`mem_window`, `window_push`, `filter_window`).
-/

namespace VibeKanban.Lib

open List

/-- The `n` consecutive numbers that end just below `next`. -/
def window (next n : ℕ) : List ℕ := List.range' (next - n) n

variable {next n after : ℕ}

@[simp] theorem window_zero : window next 0 = [] := rfl

@[simp] theorem length_window : (window next n).length = n := length_range'

theorem mem_window (h : n ≤ next) {k : ℕ} : k ∈ window next n ↔ next - n ≤ k ∧ k < next := by
  rw [window, mem_range'_1]
  omega

theorem window_push (h : n ≤ next) : window next n ++ [next] = window (next + 1) (n + 1) := by
  have h1 : next = (next - n) + n := by omega
  have h2 : next + 1 - (n + 1) = next - n := by omega
  rw [window, window, h2, range'_concat, one_mul, ← h1]

theorem window_tail (h : n < next) : (window next (n + 1)).tail = window next n := by
  have h1 : next - (n + 1) + 1 = next - n := by omega
  rw [window, window, range'_succ, tail_cons, h1]

theorem getLast?_window (h : 0 < n) (hn : n ≤ next) :
    (window next n).getLast? = some (next - 1) := by
  obtain ⟨m, rfl⟩ : ∃ m, n = m + 1 := ⟨n - 1, by omega⟩
  have h1 : next - (m + 1) + 1 * m = next - 1 := by omega
  rw [window, range'_concat, getLast?_concat, h1]

theorem head?_window (h : 0 < n) : (window next n).head? = some (next - n) := by
  obtain ⟨m, rfl⟩ : ∃ m, n = m + 1 := ⟨n - 1, by omega⟩
  rw [window, range'_succ, head?_cons]

/-- What follows a cursor in a window is the shorter window that starts after it. -/
theorem filter_window (h : n ≤ next) :
    (window next n).filter (fun k => decide (after < k)) =
      window next (min n (next - 1 - after)) := by
  induction n with
  | zero => simp
  | succ n ih =>
    have h1 : window next (n + 1) = (next - (n + 1)) :: window next n := by
      have h2 : next - (n + 1) + 1 = next - n := by omega
      rw [window, window, range'_succ, h2]
    rw [h1, filter_cons, ih (by omega)]
    split_ifs with h2
    · have h3 : after < next - (n + 1) := by simpa using h2
      have h4 : min n (next - 1 - after) = n := by omega
      have h5 : min (n + 1) (next - 1 - after) = n + 1 := by omega
      rw [h4, h5, h1]
    · have h3 : ¬ after < next - (n + 1) := by simpa using h2
      have h4 : min n (next - 1 - after) = min (n + 1) (next - 1 - after) := by omega
      rw [h4]

/-- Some number after the cursor is missing from the window exactly when the cursor's
    successor lies before it. -/
theorem exists_lt_not_mem_window (h : n ≤ next) :
    (∃ k, after < k ∧ k < next ∧ k ∉ window next n) ↔ after + 1 < next - n := by
  constructor
  · rintro ⟨k, h1, h2, h3⟩
    rw [mem_window h] at h3
    omega
  · intro h1
    refine ⟨after + 1, by omega, by omega, ?_⟩
    rw [mem_window h]
    omega

end VibeKanban.Lib

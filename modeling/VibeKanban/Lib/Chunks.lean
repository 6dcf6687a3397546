import Mathlib

/-!
# Chunks of a list, and machines that are fed one

`chunks n xs` cuts `xs` into pieces of `n` elements; the last piece may be shorter. `flatten_chunks`
and `feed_flatMap` put them together again.
-/

namespace VibeKanban.Lib

open List

variable {α β σ : Type*}

/-! ## Chunks -/

/-- `slice::chunks`; a chunk size of zero, on which the source panics, gives no pieces. -/
def chunks (n : ℕ) (xs : List α) : List (List α) :=
  if _h : xs = [] ∨ n = 0 then [] else xs.take n :: chunks n (xs.drop n)
termination_by xs.length
decreasing_by
  have hpos : 0 < xs.length := List.length_pos_iff.2 fun heq => _h (.inl heq)
  have hn : n ≠ 0 := fun heq => _h (.inr heq)
  rw [List.length_drop]
  omega

variable {n : ℕ} {xs : List α}

@[simp] theorem chunks_nil : chunks n ([] : List α) = [] := by rw [chunks, dif_pos (.inl rfl)]

theorem chunks_of_ne_nil (hn : 0 < n) (h : xs ≠ []) :
    chunks n xs = xs.take n :: chunks n (xs.drop n) := by
  rw [chunks, dif_neg]
  rintro (hnil | hzero)
  · exact h hnil
  · omega

theorem flatten_chunks (hn : 0 < n) (xs : List α) : (chunks n xs).flatten = xs := by
  induction xs using chunks.induct n with
  | case1 xs h =>
    rcases h with rfl | hzero
    · rw [chunks_nil, flatten_nil]
    · omega
  | case2 xs h ih =>
    have hne : xs ≠ [] := fun heq => h (.inl heq)
    rw [chunks_of_ne_nil hn hne, flatten_cons, ih, take_append_drop]

theorem length_of_mem_chunks (hn : 0 < n) {piece : List α} (h : piece ∈ chunks n xs) :
    piece ≠ [] ∧ piece.length ≤ n := by
  induction xs using chunks.induct n with
  | case1 xs hnil =>
    rw [chunks, dif_pos hnil] at h
    cases h
  | case2 xs hne ih =>
    have hxs : xs ≠ [] := fun heq => hne (.inl heq)
    rw [chunks_of_ne_nil hn hxs] at h
    rcases mem_cons.1 h with rfl | hrest
    · refine ⟨?_, ?_⟩
      · rw [Ne, take_eq_nil_iff]
        exact hne ∘ Or.symm
      · exact length_take_le n xs
    · exact ih hrest

theorem chunks_ne_nil (hn : 0 < n) (h : xs ≠ []) : chunks n xs ≠ [] := by
  rw [chunks_of_ne_nil hn h]
  exact cons_ne_nil _ _

/-! ## Machines -/

/-- Feeds a machine a list of inputs: its last state, and its answer to each input. -/
def feed (step : σ → α → σ × β) (s : σ) : List α → σ × List β
  | [] => (s, [])
  | a :: as =>
    let rest := feed step (step s a).1 as
    (rest.1, (step s a).2 :: rest.2)

variable {step : σ → α → σ × β} {s s' : σ}

theorem feed_append (as bs : List α) :
    feed step s (as ++ bs) = ((feed step (feed step s as).1 bs).1,
      (feed step s as).2 ++ (feed step (feed step s as).1 bs).2) := by
  induction as generalizing s with
  | nil => rfl
  | cons a as ih => simp only [cons_append, feed, ih]

/-- Lists each of which brings the machine back to where it was. -/
theorem feed_flatMap {γ : Type*} {f : γ → List α} {g : γ → List β} {xs : List γ}
    (h : ∀ x ∈ xs, feed step s (f x) = (s, g x)) :
    feed step s (xs.flatMap f) = (s, xs.flatMap g) := by
  induction xs with
  | nil => rfl
  | cons x xs ih =>
    have hx := h x mem_cons_self
    rw [flatMap_cons, flatMap_cons, feed_append, hx]
    show ((feed step s (xs.flatMap f)).1, g x ++ (feed step s (xs.flatMap f)).2) = _
    rw [ih fun y hy => h y (mem_cons_of_mem _ hy)]

end VibeKanban.Lib

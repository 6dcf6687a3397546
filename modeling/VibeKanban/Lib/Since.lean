import Mathlib

/-!
# What has happened since

A history is a list of events, the latest one at its end. `Since p q l` says that an event with `p`
has happened in `l`, and none with `q` after it (`since_concat`).
-/

namespace VibeKanban.Lib

open List

variable {α : Type*} {p p' q : α → Prop} {l : List α} {x : α}

def Since (p q : α → Prop) (l : List α) : Prop :=
  ∃ before x after, l = before ++ x :: after ∧ p x ∧ ∀ y ∈ after, ¬ q y

theorem not_since_nil : ¬ Since p q [] := by
  rintro ⟨before, x, after, h, -⟩
  simp at h

theorem since_concat : Since p q (l ++ [x]) ↔ p x ∨ Since p q l ∧ ¬ q x := by
  constructor
  · rintro ⟨before, y, after, heq, hp, hq⟩
    cases after using reverseRecOn with
    | nil =>
      obtain ⟨-, hx⟩ := append_inj' heq rfl
      rw [(cons.inj hx).1]
      exact .inl hp
    | append_singleton after z =>
      have hassoc : l ++ [x] = (before ++ y :: after) ++ [z] := by
        rw [heq]
        simp
      obtain ⟨hl, hx⟩ := append_inj' hassoc rfl
      rw [(cons.inj hx).1]
      refine .inr ⟨⟨before, y, after, hl, hp, ?_⟩, hq z (by simp)⟩
      exact fun w hw => hq w (mem_append_left _ hw)
  · rintro (hp | ⟨⟨before, y, after, rfl, hp, hq⟩, hx⟩)
    · exact ⟨l, x, [], rfl, hp, by simp⟩
    · refine ⟨before, y, after ++ [x], by simp, hp, ?_⟩
      intro z hz
      rcases mem_append.1 hz with hz | hz
      · exact hq z hz
      · rw [mem_singleton.1 hz]
        exact hx

theorem since_concat_of_not (hp : ¬ p x) : Since p q (l ++ [x]) ↔ Since p q l ∧ ¬ q x := by
  rw [since_concat, or_iff_right hp]

/-- An event that is of neither kind changes nothing. -/
theorem since_concat_iff (hp : ¬ p x) (hq : ¬ q x) : Since p q (l ++ [x]) ↔ Since p q l := by
  rw [since_concat_of_not hp, and_iff_left hq]

theorem not_since_concat (hp : ¬ p x) (hq : q x) : ¬ Since p q (l ++ [x]) := by
  rw [since_concat_of_not hp]
  exact fun h => h.2 hq

/-- What holds of each event and of those before it. -/
theorem forall_append_cons_concat {P : List α → α → Prop}
    (h : ∀ before y after, l = before ++ y :: after → P before y) (hx : P l x) :
    ∀ before y after, l ++ [x] = before ++ y :: after → P before y := by
  intro before y after heq
  cases after using reverseRecOn with
  | nil =>
    obtain ⟨hl, hy⟩ := append_inj' heq rfl
    rw [← hl, ← (cons.inj hy).1]
    exact hx
  | append_singleton after z =>
    have hassoc : l ++ [x] = (before ++ y :: after) ++ [z] := by
      rw [heq]
      simp
    exact h before y after (append_inj' hassoc rfl).1

end VibeKanban.Lib

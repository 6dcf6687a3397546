import Mathlib

/-!
# Cutting a text

`splitOnce` cuts at the first separator and `cutAt` at the first occurrence of a word; `trim` drops
what a predicate picks from both ends. `splitOnce_append` and `cutAt_append` are their rules.
-/

namespace VibeKanban.Lib

open List

variable {α : Type*} {sep x : α} {l r w : List α} {p : α → Bool}

/-! ## At a separator -/

section Separator

variable [DecidableEq α]

/-- The parts before and after the first `sep`. -/
def splitOnce (sep : α) : List α → Option (List α × List α)
  | [] => none
  | x :: xs =>
    if x = sep then some ([], xs) else (splitOnce sep xs).map fun parts => (x :: parts.1, parts.2)

theorem splitOnce_append (h : sep ∉ l) : splitOnce sep (l ++ sep :: r) = some (l, r) := by
  induction l with
  | nil => simp [splitOnce]
  | cons x l ih =>
    have hx : x ≠ sep := fun heq => h (heq ▸ mem_cons_self)
    have hl : sep ∉ l := fun hm => h (mem_cons_of_mem _ hm)
    rw [cons_append, splitOnce, if_neg hx, ih hl]
    rfl

theorem splitOnce_eq_none_iff : splitOnce sep l = none ↔ sep ∉ l := by
  induction l with
  | nil => simp [splitOnce]
  | cons x l ih =>
    by_cases hx : x = sep
    · simp [splitOnce, hx]
    · rw [splitOnce, if_neg hx, Option.map_eq_none_iff, ih, mem_cons, not_or]
      exact ⟨fun h => ⟨Ne.symm hx, h⟩, And.right⟩

/-- The parts before and after the first occurrence of `w`. -/
def cutAt (w : List α) : List α → Option (List α × List α)
  | [] => if w = [] then some ([], []) else none
  | x :: xs =>
    if w <+: x :: xs then some ([], (x :: xs).drop w.length)
    else (cutAt w xs).map fun parts => (x :: parts.1, parts.2)

theorem cutAt_append (h : x ∉ l) : cutAt (x :: w) (l ++ (x :: w ++ r)) = some (l, r) := by
  induction l with
  | nil =>
    rw [nil_append, cons_append, cutAt, if_pos]
    · simp
    · exact prefix_append (x :: w) r
  | cons y l ih =>
    have hy : x ≠ y := fun heq => h (heq ▸ mem_cons_self)
    have hl : x ∉ l := fun hm => h (mem_cons_of_mem _ hm)
    rw [cons_append, cutAt, if_neg, ih hl]
    · rfl
    · rw [cons_prefix_cons]
      exact fun hpre => hy hpre.1

theorem cutAt_eq_none_iff : cutAt w l = none ↔ ¬ w <:+: l := by
  induction l with
  | nil => simp [cutAt, infix_nil]
  | cons y l ih =>
    rw [cutAt, infix_cons_iff, not_or]
    by_cases hpre : w <+: y :: l
    · simp [hpre]
    · rw [if_neg hpre, Option.map_eq_none_iff, ih]
      exact ⟨fun h => ⟨hpre, h⟩, And.right⟩

end Separator

/-! ## At the ends -/

/-- The text without what `p` picks at its ends. -/
def trim (p : α → Bool) (l : List α) : List α := (l.dropWhile p).rdropWhile p

theorem rdropWhile_append_cons (h : p x = false) :
    (l ++ x :: r).rdropWhile p = l ++ x :: r.rdropWhile p := by
  induction r using reverseRecOn with
  | nil => rw [rdropWhile_nil, rdropWhile_concat_neg _ _ _ (by simp [h])]
  | append_singleton r y ih =>
    have hassoc : l ++ x :: (r ++ [y]) = (l ++ x :: r) ++ [y] := by simp
    rw [hassoc]
    by_cases hy : p y = true
    · rw [rdropWhile_concat_pos _ _ _ hy, rdropWhile_concat_pos _ _ _ hy, ih]
    · rw [rdropWhile_concat_neg _ _ _ hy, rdropWhile_concat_neg _ _ _ hy, hassoc]

theorem trim_append_cons (h : p x = false) :
    trim p (l ++ x :: r) = l.dropWhile p ++ x :: r.rdropWhile p := by
  have hdrop : (l ++ x :: r).dropWhile p = l.dropWhile p ++ x :: r := by
    rw [dropWhile_append]
    split
    · next hempty =>
      rw [isEmpty_iff.1 hempty, dropWhile_cons_of_neg (by simp [h])]
      rfl
    · rfl
  rw [trim, hdrop, rdropWhile_append_cons h]

/-- What is cut off, and what is kept. -/
theorem trim_parts (p : α → Bool) (l : List α) :
    ∃ front back, l = front ++ trim p l ++ back ∧ (∀ x ∈ front, p x = true) ∧
      ∀ x ∈ back, p x = true := by
  refine ⟨l.takeWhile p, (l.dropWhile p).rtakeWhile p, ?_, ?_, ?_⟩
  · rw [trim, append_assoc, rdropWhile_append_rtakeWhile, takeWhile_append_dropWhile]
  · exact fun x hx => mem_takeWhile_imp hx
  · exact fun x hx => mem_rtakeWhile_imp hx

theorem not_of_trim_eq_cons (h : trim p l = x :: r) : p x = false := by
  obtain ⟨back, hback⟩ : trim p l <+: l.dropWhile p := rdropWhile_prefix p _
  rw [h, cons_append] at hback
  have hhead := head?_dropWhile_not p l
  rw [← hback] at hhead
  simpa using hhead

/-! ## Joined texts -/

/-- The place of one element in a joined text. -/
theorem intercalate_hole (sep : List α) (before after : List (List α)) (l r : List α) :
    ∃ front back, ∀ x, sep.intercalate (before ++ (l ++ x :: r) :: after) = front ++ x :: back := by
  induction before with
  | nil =>
    cases after with
    | nil => exact ⟨l, r, fun x => by simp [intercalate]⟩
    | cons a after =>
      refine ⟨l, r ++ sep ++ sep.intercalate (a :: after), fun x => ?_⟩
      simp [intercalate]
  | cons b before ih =>
    obtain ⟨front, back, h⟩ := ih
    refine ⟨b ++ sep ++ front, back, fun x => ?_⟩
    rw [append_assoc, append_assoc, ← h x]
    cases before with
    | nil | cons b' before => simp [intercalate]

end VibeKanban.Lib

import VibeKanban.Lib.Search

/-!
# Edits of a list by position

A list is built by edits: `add i a` inserts `a` before position `i`, which is at most the length,
and `replace i a` puts `a` at a position that is there. `InOrder` lists are built at their end.
-/

namespace VibeKanban.Lib

open List

/-- An edit of a list. -/
inductive Edit (α : Type*) where
  | add (index : ℕ) (value : α)
  | replace (index : ℕ) (value : α)

namespace Edit

variable {α : Type*}

def index : Edit α → ℕ
  | .add i _ | .replace i _ => i

def value : Edit α → α
  | .add _ a | .replace _ a => a

def isAdd : Edit α → Bool
  | .add _ _ => true
  | .replace _ _ => false

/-- The list after the edit, if its position is in range. -/
def apply (entries : List α) : Edit α → Option (List α)
  | .add i a => if i ≤ entries.length then some (entries.insertIdx i a) else none
  | .replace i a => if i < entries.length then some (entries.set i a) else none

def applyAll : List (Edit α) → List α → Option (List α)
  | [], entries => some entries
  | edit :: edits, entries => (edit.apply entries).bind (applyAll edits)

/-- The positions at which the edits add. -/
def added (edits : List (Edit α)) : List ℕ := (edits.filter isAdd).map index

/-- What the edits last wrote at a position. -/
def lastWrite (edits : List (Edit α)) (i : ℕ) : Option α :=
  (edits.reverse.find? fun edit => edit.index = i).map value

/-- Each `add` is at the number of those before it, and each `replace` at a position that was
    added. -/
structure InOrder (edits : List (Edit α)) : Prop where
  add : ∀ before i a after, edits = before ++ .add i a :: after → i = (added before).length
  once : (added edits).Nodup
  replace : ∀ before i a after, edits = before ++ .replace i a :: after → i ∈ added before

variable {edits edits' : List (Edit α)} {i j : ℕ} {a : α} {edit : Edit α}

theorem added_append : added (edits ++ edits') = added edits ++ added edits' := by simp [added]

theorem added_cons_replace : added (.replace i a :: edits) = added edits := rfl

theorem added_concat_add : added (edits ++ [.add i a]) = added edits ++ [i] := added_append

theorem added_concat_replace : added (edits ++ [.replace i a]) = added edits := by
  rw [added_append, added_cons_replace]
  simp [added]

theorem mem_added (h : edit ∈ edits) (hadd : edit.isAdd) : edit.index ∈ added edits :=
  mem_map_of_mem (mem_filter.2 ⟨h, hadd⟩)

theorem index_mem_of_mem_added (h : i ∈ added edits) : ∃ edit ∈ edits, edit.index = i := by
  obtain ⟨edit, hedit, hi⟩ := mem_map.1 h
  exact ⟨edit, (mem_filter.1 hedit).1, hi⟩

theorem applyAll_append {entries : List α} :
    applyAll (edits ++ edits') entries = (applyAll edits entries).bind (applyAll edits') := by
  induction edits generalizing entries with
  | nil => rfl
  | cons edit edits ih =>
    show (edit.apply entries).bind (applyAll (edits ++ edits')) =
      ((edit.apply entries).bind (applyAll edits)).bind (applyAll edits')
    cases edit.apply entries with
    | none => rfl
    | some entries => exact ih

theorem lastWrite_concat (edit : Edit α) : lastWrite (edits ++ [edit]) i =
      if edit.index = i then some edit.value else lastWrite edits i := by
  unfold lastWrite
  by_cases hi : edit.index = i <;> simp [hi]

namespace InOrder

theorem nil : InOrder ([] : List (Edit α)) where
  add before i a after h := by simp at h
  once := nodup_nil
  replace before i a after h := by simp at h

section

variable (h : InOrder edits)
include h

/-- The positions that are added are counted up from `0`. -/
theorem added_eq_range : added edits = range (added edits).length := by
  suffices hprefix : ∀ before after, edits = before ++ after →
      added before = range (added before).length from hprefix edits [] (append_nil _).symm
  intro before
  induction before using reverseRecOn with
  | nil => exact fun _ _ => rfl
  | append_singleton before edit ih =>
    intro after heq
    rw [append_assoc, singleton_append] at heq
    have hbefore := ih _ heq
    cases edit with
    | add i a =>
      have hi := h.add before i a after heq
      rw [added_concat_add, length_append, length_singleton, range_succ, ← hi]
      rw [← hi] at hbefore
      rw [← hbefore]
    | replace i a =>
      rw [added_concat_replace]
      exact hbefore

theorem mem_added_iff : i ∈ added edits ↔ i < (added edits).length := by
  rw [h.added_eq_range, length_range, mem_range]

theorem concat_add (hi : i = (added edits).length) (a : α) : InOrder (edits ++ [.add i a]) where
  add before j b after heq := by
    rcases concat_eq_append_cons heq with ⟨-, hedit, rfl⟩ | ⟨after, -, rfl⟩
    · injection hedit with hij
      rw [← hij, hi]
    · exact h.add before j b after rfl
  once := by
    rw [added_concat_add, nodup_append]
    refine ⟨h.once, nodup_singleton i, ?_⟩
    intro j hj k hk hjk
    rw [mem_singleton] at hk
    rw [h.mem_added_iff] at hj
    omega
  replace before j b after heq := by
    rcases concat_eq_append_cons heq with ⟨-, hedit, -⟩ | ⟨after, -, rfl⟩
    · cases hedit
    · exact h.replace before j b after rfl

theorem concat_replace (hi : i ∈ added edits) (a : α) : InOrder (edits ++ [.replace i a]) where
  add before j b after heq := by
    rcases concat_eq_append_cons heq with ⟨-, hedit, -⟩ | ⟨after, -, rfl⟩
    · cases hedit
    · exact h.add before j b after rfl
  once := by
    rw [added_concat_replace]
    exact h.once
  replace before j b after heq := by
    rcases concat_eq_append_cons heq with ⟨-, hedit, rfl⟩ | ⟨after, -, rfl⟩
    · injection hedit with hij
      rw [← hij]
      exact hi
    · exact h.replace before j b after rfl

end

/-- Edits in order before the last one. -/
theorem of_concat (h : InOrder (edits ++ [edit])) : InOrder edits where
  add before j b after heq := by
    apply h.add before j b (after ++ [edit])
    rw [heq, append_assoc, cons_append]
  once := by
    have hnodup := h.once
    rw [added_append] at hnodup
    exact hnodup.of_append_left
  replace before j b after heq := by
    apply h.replace before j b (after ++ [edit])
    rw [heq, append_assoc, cons_append]

/-- Edits in order apply, and each position holds what was last written there. -/
theorem applyAll (h : InOrder edits) : ∃ entries, applyAll edits [] = some entries ∧
    entries.length = (added edits).length ∧ ∀ i, entries[i]? = lastWrite edits i := by
  induction edits using reverseRecOn with
  | nil => exact ⟨[], rfl, rfl, fun _ => rfl⟩
  | append_singleton edits edit ih =>
    obtain ⟨entries, hentries, hlen, hwrite⟩ := ih h.of_concat
    rw [applyAll_append, hentries]
    cases edit with
    | add i a =>
      have hi : i = entries.length := by
        rw [hlen]
        exact h.add edits i a [] rfl
      refine ⟨entries ++ [a], ?_, ?_, ?_⟩
      · show (Edit.apply entries (.add i a)).bind (Edit.applyAll []) = _
        rw [Edit.apply, if_pos hi.le, hi, insertIdx_length_self]
        rfl
      · rw [added_concat_add, length_append, length_append, hlen]
        rfl
      · intro j
        rw [lastWrite_concat, ← hwrite j]
        show _ = if i = j then some a else _
        split_ifs with hij
        · rw [← hij, hi]
          exact getElem?_concat_length
        · rw [getElem?_append]
          split_ifs with hlt
          · rfl
          · rw [getElem?_eq_none (Nat.le_of_not_lt hlt), getElem?_singleton, if_neg (by omega)]
    | replace i a =>
      have hi : i < entries.length := by
        rw [hlen, ← h.of_concat.mem_added_iff]
        exact h.replace edits i a [] rfl
      refine ⟨entries.set i a, ?_, ?_, ?_⟩
      · show (Edit.apply entries (.replace i a)).bind (Edit.applyAll []) = _
        rw [Edit.apply, if_pos hi]
        rfl
      · rw [added_concat_replace, length_set, hlen]
      · intro j
        rw [lastWrite_concat, ← hwrite j, getElem?_set]
        show _ = if i = j then some a else _
        by_cases hij : i = j
        · rw [if_pos hij, if_pos hij, if_pos hi]
        · rw [if_neg hij, if_neg hij]

end InOrder

end Edit

end VibeKanban.Lib

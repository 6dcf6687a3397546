import Mathlib

/-!
# Splitting a text into lines

Texts are lists; `sep` decides which elements end a line. `splitInclusive_flatten` gives back lines.
-/

namespace VibeKanban.Lib

open List

variable {α : Type*} (sep : α → Bool)

/-- Splits after every separator; the last line may lack one. -/
def splitInclusive : List α → List (List α)
  | [] => []
  | c :: cs =>
    if sep c then [c] :: splitInclusive cs
    else
      match splitInclusive cs with
      | [] => [[c]]
      | line :: lines => (c :: line) :: lines

variable {sep}

theorem flatten_splitInclusive (text : List α) : (splitInclusive sep text).flatten = text := by
  induction text with
  | nil => rfl
  | cons c cs ih =>
    rw [splitInclusive]
    split
    · rw [flatten_cons, ih]
      rfl
    · split
      · rename_i hnil
        rw [hnil] at ih
        show c :: [] = c :: cs
        rw [← ih]
        rfl
      · rename_i line lines hcons
        rw [hcons] at ih
        show c :: (line :: lines).flatten = c :: cs
        rw [ih]

theorem mem_splitInclusive {text line : List α} (h : line ∈ splitInclusive sep text) :
    line ≠ [] ∧ ∀ c ∈ line.dropLast, sep c = false := by
  induction text generalizing line with
  | nil => cases h
  | cons c cs ih =>
    rw [splitInclusive] at h
    split at h
    · rcases mem_cons.1 h with rfl | htail
      · refine ⟨cons_ne_nil _ _, ?_⟩
        intro d hd
        cases hd
      · exact ih htail
    · rename_i hsep
      split at h
      · rw [mem_singleton.1 h]
        refine ⟨cons_ne_nil _ _, ?_⟩
        intro d hd
        cases hd
      · rename_i hcons
        rw [hcons] at ih
        rcases mem_cons.1 h with rfl | htail
        · refine ⟨cons_ne_nil _ _, ?_⟩
          obtain ⟨hne, hfirst⟩ := ih mem_cons_self
          rw [dropLast_cons_of_ne_nil hne]
          intro d hd
          rcases mem_cons.1 hd with rfl | hd
          · exact Bool.not_eq_true _ ▸ hsep
          · exact hfirst d hd
        · exact ih (mem_cons_of_mem _ htail)

/-! ## Lines that end in a separator -/

section IsLine

variable {c : α} {line rest cs : List α} {ls : List (List α)}

/-- A complete line. -/
def IsLine (c : α) (line : List α) : Prop := ∃ cs, c ∉ cs ∧ line = cs ++ [c]

theorem notMem_cons {d : α} : c ∉ d :: cs ↔ d ≠ c ∧ c ∉ cs := by rw [mem_cons, not_or, ne_comm]

theorem IsLine.append (h : IsLine c line) (hno : c ∉ cs) : IsLine c (cs ++ line) := by
  obtain ⟨ds, hds, rfl⟩ := h
  refine ⟨cs ++ ds, ?_, (append_assoc _ _ _).symm⟩
  rw [mem_append]
  exact fun h => h.elim hno hds

theorem IsLine.sep_mem (h : IsLine c line) : c ∈ line := by
  obtain ⟨ds, -, rfl⟩ := h
  exact mem_append_right _ (mem_singleton.2 rfl)

variable [DecidableEq α]

/-- A text is complete lines and a rest without a separator. -/
theorem exists_lines (c : α) (text : List α) : ∃ (ls : List (List α)) (rest : List α),
      (∀ line ∈ ls, IsLine c line) ∧ c ∉ rest ∧ text = ls.flatten ++ rest := by
  induction text with
  | nil => exact ⟨[], [], nofun, not_mem_nil, rfl⟩
  | cons d text ih =>
    obtain ⟨ls, rest, hls, hrest, rfl⟩ := ih
    by_cases hd : d = c
    · have hline : IsLine c [d] := ⟨[], not_mem_nil, by rw [hd]; rfl⟩
      exact ⟨[d] :: ls, rest, forall_mem_cons.2 ⟨hline, hls⟩, hrest, rfl⟩
    · cases ls with
      | nil => exact ⟨[], d :: rest, hls, notMem_cons.2 ⟨hd, hrest⟩, rfl⟩
      | cons line ls =>
        obtain ⟨⟨ds, hds, rfl⟩, hls'⟩ := forall_mem_cons.1 hls
        have hline : IsLine c (d :: (ds ++ [c])) := ⟨d :: ds, notMem_cons.2 ⟨hd, hds⟩, rfl⟩
        exact ⟨(d :: (ds ++ [c])) :: ls, rest, forall_mem_cons.2 ⟨hline, hls'⟩, hrest, rfl⟩

/-- The first line with its separator, and the rest. -/
def splitFirst (c : α) : List α → Option (List α × List α)
  | [] => none
  | d :: cs =>
    if d = c then some ([d], cs)
    else (splitFirst c cs).map fun parts => (d :: parts.1, parts.2)

theorem splitInclusive_append_of_isLine (h : IsLine c line) (rest : List α) :
    splitInclusive (· = c) (line ++ rest) = line :: splitInclusive (· = c) rest := by
  obtain ⟨ds, hds, rfl⟩ := h
  induction ds with
  | nil => simp [splitInclusive]
  | cons d ds ih =>
    obtain ⟨hd, hds⟩ := notMem_cons.1 hds
    have hrest := ih hds
    rw [append_assoc] at hrest
    rw [cons_append, cons_append, splitInclusive, if_neg (by simpa using hd),
      append_assoc, hrest]

theorem splitInclusive_flatten (h : ∀ line ∈ ls, IsLine c line) (rest : List α) :
    splitInclusive (· = c) (ls.flatten ++ rest) = ls ++ splitInclusive (· = c) rest := by
  induction ls with
  | nil => rfl
  | cons line ls ih =>
    rw [flatten_cons, append_assoc,
      splitInclusive_append_of_isLine (h line mem_cons_self),
      ih fun l hl => h l (mem_cons_of_mem line hl)]
    rfl

theorem splitInclusive_of_notMem (h : c ∉ line) (hne : line ≠ []) :
    splitInclusive (· = c) line = [line] := by
  induction line with
  | nil => exact absurd rfl hne
  | cons d line ih =>
    obtain ⟨hd, hno⟩ := notMem_cons.1 h
    rw [splitInclusive, if_neg (by simpa using hd)]
    by_cases hl : line = []
    · rw [hl, splitInclusive]
    · rw [ih hno hl]

theorem splitFirst_some (h : splitFirst c cs = some (line, rest)) :
    IsLine c line ∧ cs = line ++ rest := by
  induction cs generalizing line rest with
  | nil => cases h
  | cons d cs ih =>
    unfold splitFirst at h
    split_ifs at h with hd
    · cases h
      refine ⟨⟨[], not_mem_nil, ?_⟩, rfl⟩
      rw [hd]
      rfl
    · obtain ⟨⟨line', rest'⟩, hsplit, heq⟩ := Option.map_eq_some_iff.1 h
      cases heq
      obtain ⟨⟨ds, hds, rfl⟩, rfl⟩ := ih hsplit
      exact ⟨⟨d :: ds, notMem_cons.2 ⟨hd, hds⟩, rfl⟩, rfl⟩

theorem splitFirst_none (h : splitFirst c cs = none) : c ∉ cs := by
  induction cs with
  | nil => exact not_mem_nil
  | cons d cs ih =>
    unfold splitFirst at h
    split_ifs at h with hd
    exact notMem_cons.2 ⟨hd, ih (Option.map_eq_none_iff.1 h)⟩

end IsLine

end VibeKanban.Lib

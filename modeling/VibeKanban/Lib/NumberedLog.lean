import Mathlib

/-!
# Logs numbered from one, and cursors over them

An append-only log whose entries carry their own number, from 1. A cursor `n` stands for the entries
numbered up to `n`, and `sectionOf` for those between two cursors (`sectionOf_append_sectionOf`).
-/

namespace VibeKanban.Lib

open List

variable {α : Type*} {number : α → ℕ} {log more : List α} {P Q : α → Prop} {a b : α} {k m n : ℕ}

/-! ## Numbered logs -/

/-- The entries carry the numbers 1, 2, … in order. -/
def Numbered (number : α → ℕ) (log : List α) : Prop := log.map number = List.range' 1 log.length

theorem Numbered.nil : Numbered number [] := rfl

section

variable (h : Numbered number log)

include h

theorem Numbered.concat (ha : number a = log.length + 1) : Numbered number (log ++ [a]) := by
  rw [Numbered, map_append, h, length_append, length_singleton, range'_concat,
    map_singleton, ha, Nat.one_mul, Nat.add_comm 1]

theorem Numbered.number_getElem (hk : k < log.length) : number log[k] = k + 1 := by
  have h1 : (log.map number)[k]? = some (number log[k]) := by
    rw [getElem?_map, getElem?_eq_getElem hk, Option.map_some]
  rw [show log.map number = range' 1 log.length from h, getElem?_range' hk] at h1
  have h2 := Option.some.inj h1
  omega

section

variable (ha : a ∈ log)
include ha

theorem Numbered.getElem?_of_mem : log[number a - 1]? = some a := by
  obtain ⟨k, hk, rfl⟩ := getElem_of_mem ha
  rw [h.number_getElem hk, Nat.add_sub_cancel]
  exact getElem?_eq_getElem hk

theorem Numbered.number_pos : 0 < number a := by
  obtain ⟨k, hk, rfl⟩ := getElem_of_mem ha
  rw [h.number_getElem hk]
  omega

theorem Numbered.number_le : number a ≤ log.length := by
  obtain ⟨k, hk, rfl⟩ := getElem_of_mem ha
  rw [h.number_getElem hk]
  omega

/-- A number identifies its entry. -/
theorem Numbered.eq_of_number_eq (hb : b ∈ log) (hab : number a = number b) : a = b := by
  have h1 := h.getElem?_of_mem ha
  rw [hab, h.getElem?_of_mem hb] at h1
  exact (Option.some.inj h1).symm

end

end

/-! ## Properties up to a cursor -/

/-- Every entry up to the cursor `n` satisfies `P`. -/
def UpTo (number : α → ℕ) (log : List α) (n : ℕ) (P : α → Prop) : Prop :=
  ∀ a ∈ log, number a ≤ n → P a

theorem UpTo.imp (h : UpTo number log n P) (hPQ : ∀ a, P a → Q a) : UpTo number log n Q :=
  fun a ha hle => hPQ a (h a ha hle)

theorem UpTo.zero (h : Numbered number log) : UpTo number log 0 P := by
  intro a ha hle
  have hpos := h.number_pos ha
  omega

/-- What is appended beyond the cursor does not matter to it. -/
theorem UpTo.append (h : UpTo number log n P) (hmore : ∀ a ∈ more, n < number a) :
    UpTo number (log ++ more) n P := by
  intro a ha hle
  rcases mem_append.1 ha with hold | hnew
  · exact h a hold hle
  · have hlt := hmore a hnew
    omega

/-- The cursor moves over the next entry. -/
theorem UpTo.succ (h : UpTo number log n P) (hlog : Numbered number log) (ha : a ∈ log)
    (hnext : number a = n + 1) (hP : P a) : UpTo number log (number a) P := by
  intro b hb hle
  by_cases hold : number b ≤ n
  · exact h b hb hold
  · have heq : b = a := hlog.eq_of_number_eq hb ha (by omega)
    rw [heq]
    exact hP

/-! ## Sections -/

/-- The entries after the cursor `m` up to the cursor `n`. -/
def sectionOf (log : List α) (m n : ℕ) : List α := (log.drop m).take (n - m)

@[simp] theorem sectionOf_self : sectionOf log n n = [] := by
  rw [sectionOf, Nat.sub_self, take_zero]

theorem sectionOf_succ (hlog : Numbered number log) (ha : a ∈ log) (hnext : number a = n + 1)
    (hmn : m ≤ n) : sectionOf log m (number a) = sectionOf log m n ++ [a] := by
  have hget := hlog.getElem?_of_mem ha
  rw [hnext, Nat.add_sub_cancel] at hget
  have h1 : n + 1 - m = (n - m) + 1 := by omega
  have h2 : m + (n - m) = n := by omega
  rw [sectionOf, sectionOf, hnext, h1, take_add_one, getElem?_drop, h2, hget]
  rfl

theorem sectionOf_append (hn : n ≤ log.length) :
    sectionOf (log ++ more) m n = sectionOf log m n := by
  unfold sectionOf
  by_cases hm : m ≤ log.length
  · rw [drop_append_of_le_length hm, take_append_of_le_length]
    rw [length_drop]
    omega
  · rw [Nat.sub_eq_zero_of_le (by omega : n ≤ m), take_zero, take_zero]

theorem sectionOf_append_sectionOf (hkm : k ≤ m) (hmn : m ≤ n) :
    sectionOf log k m ++ sectionOf log m n = sectionOf log k n := by
  have h1 : n - k = (m - k) + (n - m) := by omega
  have h2 : k + (m - k) = m := by omega
  rw [sectionOf, sectionOf, sectionOf, h1, take_add, drop_drop, h2]

end VibeKanban.Lib

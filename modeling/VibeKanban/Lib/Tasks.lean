import Mathlib

/-!
# Tasks in flight

The tasks of a system are the elements of a list. A task that moves is replaced (`List.set`) or, at
its end, taken out (`List.eraseIdx`); the others stay (`set_perm_of_getElem?`).
-/

namespace VibeKanban.Lib

open List

variable {α : Type*} {tasks : List α} {i : ℕ} {a b c : α} {p : α → Bool}

section

variable (h : tasks[i]? = some a)

include h

theorem perm_of_getElem? : tasks.Perm (a :: tasks.eraseIdx i) := by
  obtain ⟨hi, rfl⟩ := List.getElem?_eq_some_iff.1 h
  exact (getElem_cons_eraseIdx_perm hi).symm

theorem set_perm_of_getElem? (b : α) : (tasks.set i b).Perm (b :: tasks.eraseIdx i) := by
  obtain ⟨hi, -⟩ := List.getElem?_eq_some_iff.1 h
  exact set_perm_cons_eraseIdx hi b

theorem mem_eraseIdx_iff_of_ne (hne : c ≠ a) : c ∈ tasks.eraseIdx i ↔ c ∈ tasks := by
  rw [(perm_of_getElem? h).mem_iff, mem_cons]
  exact ⟨.inr, fun hm => hm.resolve_left hne⟩

theorem mem_set_iff_of_ne (hne : c ≠ a) : c ∈ tasks.set i b ↔ c = b ∨ c ∈ tasks := by
  rw [(set_perm_of_getElem? h b).mem_iff, mem_cons, mem_eraseIdx_iff_of_ne h hne]

theorem set_eq_self : tasks.set i a = tasks := by
  obtain ⟨hi, rfl⟩ := List.getElem?_eq_some_iff.1 h
  exact set_getElem_self hi

end

theorem mem_set_of_mem (h : c ∈ tasks.set i b) : c = b ∨ c ∈ tasks :=
  (mem_or_eq_of_mem_set h).symm

section

variable (h : tasks[i]? = some a)
include h

theorem mem_set_self : b ∈ tasks.set i b := by
  rw [(set_perm_of_getElem? h b).mem_iff]
  exact mem_cons_self

theorem countP_eraseIdx :
    tasks.countP p = (tasks.eraseIdx i).countP p + if p a = true then 1 else 0 := by
  rw [(perm_of_getElem? h).countP_eq, countP_cons]

theorem countP_set' : (tasks.set i b).countP p + (if p a = true then 1 else 0) =
      tasks.countP p + if p b = true then 1 else 0 := by
  rw [(set_perm_of_getElem? h b).countP_eq, countP_cons, countP_eraseIdx h]
  omega

end

/-- The task that moves becomes the tasks of a list. -/
theorem countP_of_perm {tasks' new : List α} (h : tasks[i]? = some a)
    (hperm : tasks'.Perm (new ++ tasks.eraseIdx i)) :
    tasks'.countP p + (p a).toNat = tasks.countP p + new.countP p := by
  rw [hperm.countP_eq, countP_append, countP_eraseIdx h]
  cases p a with
  | false => simp; omega
  | true => simp; omega

end VibeKanban.Lib

import Mathlib

/-!
# First occurrences

A loop that pushes what it has not seen yet, for any key that tells what has been seen:
`nodup_foldl`, `exists_sublist`.
-/

namespace VibeKanban.Lib.Firsts

open List

variable {α κ : Type*} [DecidableEq κ] (key : α → κ)

/-- An element whose key is new is pushed. -/
def pushNew (seen : List α) (x : α) : List α := if key x ∈ seen.map key then seen else seen ++ [x]

variable {key} {x : α} {xs seen base : List α}

theorem mem_map_pushNew {k : κ} :
    k ∈ (pushNew key seen x).map key ↔ k ∈ seen.map key ∨ k = key x := by
  unfold pushNew
  split_ifs with hx
  · exact ⟨.inl, fun h => h.elim id fun hk => hk ▸ hx⟩
  · simp

theorem mem_map_foldl {k : κ} :
    k ∈ (xs.foldl (pushNew key) seen).map key ↔ k ∈ seen.map key ∨ k ∈ xs.map key := by
  induction xs generalizing seen with
  | nil => simp
  | cons x xs ih => rw [foldl_cons, ih, mem_map_pushNew, map_cons, mem_cons, or_assoc]

theorem nodup_foldl (h : (seen.map key).Nodup) : ((xs.foldl (pushNew key) seen).map key).Nodup := by
  induction xs generalizing seen with
  | nil => exact h
  | cons x xs ih =>
    apply ih
    unfold pushNew
    split_ifs with hx
    · exact h
    · rw [map_append, map_singleton, ← concat_eq_append]
      exact h.concat hx

/-- What has been seen is not pushed again. -/
theorem foldl_of_subset (h : ∀ x ∈ xs, key x ∈ seen.map key) :
    xs.foldl (pushNew key) seen = seen := by
  induction xs with
  | nil => rfl
  | cons x xs ih =>
    obtain ⟨hx, hxs⟩ := forall_mem_cons.1 h
    rw [foldl_cons, pushNew, if_pos hx, ih hxs]

/-- Different new elements are all pushed. -/
theorem foldl_of_nodup (h : ((seen ++ xs).map key).Nodup) :
    xs.foldl (pushNew key) seen = seen ++ xs := by
  induction xs generalizing seen with
  | nil => simp
  | cons x xs ih =>
    have hx : key x ∉ seen.map key := by
      rw [map_append] at h
      exact fun hmem => disjoint_of_nodup_append h hmem mem_cons_self
    rw [append_cons] at h
    rw [foldl_cons, pushNew, if_neg hx, ih h, ← append_cons]

variable (key) in
/-- The pushed elements keep their order. -/
theorem exists_sublist (xs seen : List α) :
    ∃ new, List.Sublist new xs ∧ xs.foldl (pushNew key) seen = seen ++ new := by
  induction xs generalizing seen with
  | nil => exact ⟨[], .slnil, by simp⟩
  | cons x xs ih =>
    obtain ⟨new, hsub, heq⟩ := ih (pushNew key seen x)
    rw [foldl_cons, heq, pushNew]
    split_ifs
    · exact ⟨new, hsub.cons x, rfl⟩
    · exact ⟨x :: new, hsub.cons_cons x, append_assoc ..⟩

/-- Pushing what was pushed before is pushing it anew. -/
theorem foldl_foldl (h : ∀ x ∈ seen, key x ∈ base.map key) :
    (xs.foldl (pushNew key) seen).foldl (pushNew key) base = xs.foldl (pushNew key) base := by
  induction xs generalizing seen base with
  | nil => exact foldl_of_subset h
  | cons x xs ih =>
    -- the elements before and with `x` are the first ones that are pushed
    obtain ⟨new, -, heq⟩ := exists_sublist key xs (pushNew key seen x)
    have hseen : ∀ y ∈ pushNew key seen x, key y ∈ (pushNew key base x).map key := by
      intro y hy
      rcases mem_map_pushNew.1 (mem_map_of_mem hy) with hmem | hkey
      · obtain ⟨z, hz, hzy⟩ := mem_map.1 hmem
        exact mem_map_pushNew.2 (.inl (hzy ▸ h z hz))
      · exact mem_map_pushNew.2 (.inr hkey)
    have hfirst : (pushNew key seen x).foldl (pushNew key) base = pushNew key base x := by
      rw [pushNew]
      split_ifs with hx
      · obtain ⟨y, hy, hyx⟩ := mem_map.1 hx
        rw [foldl_of_subset h, pushNew, if_pos (hyx ▸ h y hy)]
      · rw [foldl_append, foldl_of_subset h, foldl_cons, foldl_nil]
    rw [foldl_cons, foldl_cons, ← ih hseen, heq, foldl_append, foldl_append,
      hfirst, foldl_of_subset hseen]

end VibeKanban.Lib.Firsts

import VibeKanban.Lib.Table

/-!
# Association lists with distinct keys

What `List.lookup` reads where no key occurs twice: the order of the members does not matter
(`lookup_eq_of_perm`), and a lookup in a filtered list is a filtered lookup.
-/

namespace VibeKanban.Lib.Members

open Prod List

variable {κ α β : Type*} {l l₁ l₂ : List (κ × α)} {k : κ} {v : α} {m : κ × α}

theorem keyed_cons_iff : Keyed fst (m :: l) ↔ (∀ m' ∈ l, m'.1 ≠ m.1) ∧ Keyed fst l := by
  simp only [Keyed, map_cons, nodup_cons, mem_map, not_exists, not_and]

theorem keyed_filter (h : Keyed fst l) (p : κ × α → Bool) : Keyed fst (l.filter p) :=
  List.Nodup.sublist (filter_sublist.map fst) h

theorem keyed_map_snd {f : α → β} : Keyed fst (l.map fun m => (m.1, f m.2)) ↔ Keyed fst l := by
  have heq : (l.map fun m => (m.1, f m.2)).map fst = l.map fst := map_map
  rw [Keyed, heq, Keyed]

theorem value_eq_of_mem (h : Keyed fst l) {w : α} (hv : (k, v) ∈ l) (hw : (k, w) ∈ l) : v = w :=
  congrArg snd (h.eq hv hw rfl)

/-! ## Lookups -/

section Lookup

variable [DecidableEq κ]

theorem lookup_cons_self (m : κ × α) (l : List (κ × α)) : (m :: l).lookup m.1 = some m.2 := by
  rw [lookup_cons, beq_self_eq_true]

theorem lookup_cons_of_ne (h : k ≠ m.1) : (m :: l).lookup k = l.lookup k := by
  rw [lookup_cons, beq_eq_false_iff_ne.2 h]

/-- A lookup in a list whose members are changed under their keys. -/
theorem lookup_map_of_fst {f : κ × α → κ × β} (hf : ∀ m, (f m).1 = m.1) :
    (l.map f).lookup k = (l.lookup k).map fun v => (f (k, v)).2 := by
  induction l with
  | nil => rfl
  | cons m l ih =>
    by_cases hk : k = m.1
    · rw [hk, map_cons, lookup_cons_self, Option.map_some]
      have hfst : m.1 = (f m).1 := (hf m).symm
      conv_lhs => rw [hfst]
      exact lookup_cons_self (f m) _
    · have hk' : k ≠ (f m).1 := by rwa [hf]
      rw [map_cons, lookup_cons_of_ne hk', lookup_cons_of_ne hk, ih]

theorem mem_of_lookup (h : l.lookup k = some v) : (k, v) ∈ l := by
  induction l with
  | nil => simp at h
  | cons m l ih =>
    by_cases hk : k = m.1
    · rw [hk, lookup_cons_self, Option.some.injEq] at h
      rw [hk, ← h]
      exact mem_cons_self
    · rw [lookup_cons_of_ne hk] at h
      exact mem_cons_of_mem _ (ih h)

theorem lookup_eq_some_iff_mem (hl : Keyed fst l) : l.lookup k = some v ↔ (k, v) ∈ l := by
  refine ⟨mem_of_lookup, fun hmem => ?_⟩
  induction l with
  | nil => simp at hmem
  | cons m l ih =>
    rw [keyed_cons_iff] at hl
    by_cases hm : (k, v) = m
    · rw [← hm]
      exact lookup_cons_self (k, v) l
    · have hmem' : (k, v) ∈ l := (mem_cons.1 hmem).resolve_left hm
      rw [lookup_cons_of_ne (hl.1 _ hmem')]
      exact ih hl.2 hmem'

theorem lookup_eq_none_iff_notMem : l.lookup k = none ↔ k ∉ l.map fst := by
  rw [lookup_eq_none_iff, mem_map]
  constructor
  · rintro h ⟨m, hm, rfl⟩
    simpa using h m hm
  · intro h m hm
    have hne : k ≠ m.1 := fun heq => h ⟨m, hm, heq.symm⟩
    simpa using hne

theorem lookup_eq_of_perm (hl : Keyed fst l₁) (hp : l₁.Perm l₂) (k : κ) :
    l₁.lookup k = l₂.lookup k := by
  have hl₂ : Keyed fst l₂ := (hp.map fst).nodup_iff.1 hl
  ext v
  rw [lookup_eq_some_iff_mem hl, lookup_eq_some_iff_mem hl₂, hp.mem_iff]

theorem lookup_filter (hl : Keyed fst l) (p : α → Bool) (k : κ) :
    (l.filter fun m => p m.2).lookup k = (l.lookup k).filter p := by
  ext v
  rw [lookup_eq_some_iff_mem (keyed_filter hl _), mem_filter, Option.filter_eq_some_iff,
    lookup_eq_some_iff_mem hl]

theorem lookup_map_snd (f : α → β) (k : κ) :
    (l.map fun m => (m.1, f m.2)).lookup k = (l.lookup k).map f := by
  induction l with
  | nil => rfl
  | cons m l ih =>
    by_cases hk : k = m.1
    · rw [hk, map_cons, lookup_cons_self, Option.map_some]
      exact lookup_cons_self (m.1, f m.2) _
    · rw [map_cons, lookup_cons_of_ne hk, ← ih]
      exact lookup_cons_of_ne hk

end Lookup

/-! ## Sorted by key -/

section Sorting

variable [LinearOrder κ]

/-- The members in the order of their keys. -/
def sortByKey (l : List (κ × α)) : List (κ × α) := l.insertionSort fun a b => a.1 ≤ b.1

theorem sortByKey_perm (l : List (κ × α)) : (sortByKey l).Perm l := perm_insertionSort _ l

theorem pairwise_sortByKey (l : List (κ × α)) : (sortByKey l).Pairwise fun a b => a.1 ≤ b.1 := by
  exact pairwise_insertionSort _ l

theorem sortByKey_eq_of_perm (hl : Keyed fst l₁) (hp : l₁.Perm l₂) :
    sortByKey l₁ = sortByKey l₂ := by
  refine ((sortByKey_perm l₁).trans (hp.trans (sortByKey_perm l₂).symm)).eq_of_pairwise ?_
    (pairwise_sortByKey l₁) (pairwise_sortByKey l₂)
  intro a b ha hb hab hba
  have ha' : a ∈ l₁ := (sortByKey_perm l₁).mem_iff.1 ha
  have hb' : b ∈ l₁ := hp.mem_iff.2 ((sortByKey_perm l₂).mem_iff.1 hb)
  exact hl.eq ha' hb' (le_antisymm hab hba)

theorem perm_of_sortByKey_eq (h : sortByKey l₁ = sortByKey l₂) : l₁.Perm l₂ :=
  (sortByKey_perm l₁).symm.trans (h ▸ sortByKey_perm l₂)

end Sorting

end VibeKanban.Lib.Members

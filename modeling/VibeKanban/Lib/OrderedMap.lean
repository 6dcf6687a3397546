import VibeKanban.Lib.Members

/-!
# Maps ordered by their keys

A map is the list of its entries in the strict order of the keys, so two maps with the same entries
are equal. `get?_insert` and `mem_entries_iff` are its rules.
-/

namespace VibeKanban.Lib

open Members

variable {κ α : Type*} [LinearOrder κ]

@[ext]
structure OrderedMap (κ α : Type*) [LinearOrder κ] where
  entries : List (κ × α)
  sorted : entries.Pairwise fun a b => a.1 < b.1

namespace OrderedMap

instance [DecidableEq α] : DecidableEq (OrderedMap κ α) := fun a b =>
  decidable_of_iff (a.entries = b.entries) OrderedMap.ext_iff.symm

def empty : OrderedMap κ α := ⟨[], .nil⟩

def get? (m : OrderedMap κ α) (k : κ) : Option α := m.entries.lookup k

def keys (m : OrderedMap κ α) : List κ := m.entries.map Prod.fst

/-- The value of the first key that satisfies the test. -/
def find? (m : OrderedMap κ α) (p : κ → Bool) : Option α :=
  (m.entries.find? fun e => p e.1).map Prod.snd

/-! ## Insertion -/

/-- The entry takes the place of the one with its key, or stands before the first larger one. -/
def insertEntry (k : κ) (v : α) : List (κ × α) → List (κ × α)
  | [] => [(k, v)]
  | e :: entries =>
    if k < e.1 then (k, v) :: e :: entries
    else if k = e.1 then (k, v) :: entries
    else e :: insertEntry k v entries

variable {k : κ} {v : α} {entries : List (κ × α)}

theorem fst_mem_insertEntry {e : κ × α}
    (h : e ∈ insertEntry k v entries) : e = (k, v) ∨ e ∈ entries := by
  induction entries with
  | nil => exact .inl (List.mem_singleton.1 h)
  | cons e' entries ih =>
    unfold insertEntry at h
    split_ifs at h
    · exact List.mem_cons.1 h
    · rcases List.mem_cons.1 h with h | h
      · exact .inl h
      · exact .inr (List.mem_cons_of_mem _ h)
    · rcases List.mem_cons.1 h with h | h
      · exact .inr (h ▸ List.mem_cons_self)
      · exact (ih h).imp_right (List.mem_cons_of_mem _)

theorem pairwise_insertEntry (k : κ) (v : α) (h : entries.Pairwise fun a b => a.1 < b.1) :
    (insertEntry k v entries).Pairwise fun a b => a.1 < b.1 := by
  induction entries with
  | nil => exact List.pairwise_singleton _ _
  | cons e entries ih =>
    obtain ⟨he, hentries⟩ := List.pairwise_cons.1 h
    unfold insertEntry
    split_ifs with hlt heq
    · refine List.pairwise_cons.2 ⟨fun e' he' => ?_, h⟩
      rcases List.mem_cons.1 he' with rfl | he'
      · exact hlt
      · exact hlt.trans (he e' he')
    · refine List.pairwise_cons.2 ⟨fun e' he' => ?_, hentries⟩
      rw [heq]
      exact he e' he'
    · refine List.pairwise_cons.2 ⟨fun e' he' => ?_, ih hentries⟩
      rcases fst_mem_insertEntry he' with rfl | he'
      · exact lt_of_le_of_ne (not_lt.1 hlt) (Ne.symm heq)
      · exact he e' he'

def insert (m : OrderedMap κ α) (k : κ) (v : α) : OrderedMap κ α :=
  ⟨insertEntry k v m.entries, pairwise_insertEntry k v m.sorted⟩

theorem lookup_insertEntry (k k' : κ) (v : α) (entries : List (κ × α)) :
    (insertEntry k v entries).lookup k' = if k' = k then some v else entries.lookup k' := by
  induction entries with
  | nil =>
    show ((k, v) :: []).lookup k' = _
    split_ifs with h
    · rw [h]
      exact lookup_cons_self (k, v) []
    · exact lookup_cons_of_ne (m := (k, v)) h
  | cons e entries ih =>
    unfold insertEntry
    rcases eq_or_ne k' k with rfl | hk
    · rw [if_pos rfl] at ih ⊢
      split_ifs with hlt heq
      · exact lookup_cons_self (k', v) _
      · exact lookup_cons_self (k', v) _
      · rw [lookup_cons_of_ne heq, ih]
    · rw [if_neg hk] at ih ⊢
      split_ifs with hlt heq
      · exact lookup_cons_of_ne (m := (k, v)) hk
      · rw [lookup_cons_of_ne (m := (k, v)) hk, lookup_cons_of_ne (heq ▸ hk)]
      · by_cases he : k' = e.1
        · rw [he, lookup_cons_self, lookup_cons_self]
        · rw [lookup_cons_of_ne he, lookup_cons_of_ne he, ih]

theorem get?_insert (m : OrderedMap κ α) (k k' : κ) (v : α) :
    (m.insert k v).get? k' = if k' = k then some v else m.get? k' :=
  lookup_insertEntry k k' v m.entries

@[simp] theorem get?_empty (k : κ) : (empty : OrderedMap κ α).get? k = none := rfl

/-! ## Keys -/

theorem keyed (m : OrderedMap κ α) : Keyed Prod.fst m.entries :=
  List.pairwise_map.2 (m.sorted.imp fun h => h.ne)

variable {m : OrderedMap κ α}

theorem mem_entries_iff : (k, v) ∈ m.entries ↔ m.get? k = some v :=
  (lookup_eq_some_iff_mem m.keyed).symm

theorem mem_keys_iff : k ∈ m.keys ↔ ∃ v, m.get? k = some v := by
  refine ⟨fun h => ?_, fun ⟨v, hv⟩ => List.mem_map.2 ⟨(k, v), mem_entries_iff.2 hv, rfl⟩⟩
  obtain ⟨⟨k', v⟩, he, rfl⟩ := List.mem_map.1 h
  exact ⟨v, mem_entries_iff.1 he⟩

theorem mem_keys_insert {k' : κ} : k' ∈ (m.insert k v).keys ↔ k' = k ∨ k' ∈ m.keys := by
  simp only [mem_keys_iff, get?_insert]
  by_cases hk : k' = k <;> simp [hk]

end OrderedMap

end VibeKanban.Lib

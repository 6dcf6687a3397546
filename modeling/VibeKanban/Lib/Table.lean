import Mathlib

/-!
# Tables as lists of rows

A table is a list of rows; a statement acts on the rows that its condition selects. A row is looked
up by `List.find?`; `update`, `delete` and `affected` are the other statements and the number of
rows they report. `Keyed` says that a column is unique (`Keyed.eq`).
-/

namespace VibeKanban.Lib

open List

variable {α κ : Type*} {p : α → Bool} {f : α → α} {key : α → κ} {rows : List α} {a b : α}
  {Q : α → Prop} {g : α → α} {k : κ} {j : ℕ}

/-! ## Statements -/

/-- `UPDATE … SET f WHERE p`. -/
def update (p : α → Bool) (f : α → α) (rows : List α) : List α :=
  rows.map fun a => if p a then f a else a

/-- `DELETE … WHERE p`. -/
def delete (p : α → Bool) (rows : List α) : List α := rows.filter fun a => !p a

/-- The number of rows that a statement with the condition `p` reports. -/
def affected (p : α → Bool) (rows : List α) : ℕ := rows.countP p

/-- No two rows agree in the column `key`. -/
def Keyed (key : α → κ) (rows : List α) : Prop := (rows.map key).Nodup

instance [DecidableEq κ] (key : α → κ) (rows : List α) : Decidable (Keyed key rows) :=
  inferInstanceAs (Decidable (rows.map key).Nodup)

theorem mem_update : b ∈ update p f rows ↔ ∃ a ∈ rows, (if p a then f a else a) = b := mem_map

theorem length_update : (update p f rows).length = rows.length := length_map _

theorem mem_update_of_not (ha : a ∈ rows) (hp : p a = false) : a ∈ update p f rows :=
  mem_update.2 ⟨a, ha, by rw [hp]; rfl⟩

theorem mem_update_of (ha : a ∈ rows) (hp : p a = true) : f a ∈ update p f rows :=
  mem_update.2 ⟨a, ha, if_pos hp⟩

/-- The row that a row becomes. -/
theorem mem_update_ite (ha : a ∈ rows) : (if p a then f a else a) ∈ update p f rows :=
  mem_update.2 ⟨a, ha, rfl⟩

theorem forall_mem_update (h : ∀ a ∈ rows, p a = true → Q (f a))
    (hrest : ∀ a ∈ rows, p a = false → Q a) : ∀ b ∈ update p f rows, Q b := by
  intro b hb
  obtain ⟨a, ha, rfl⟩ := mem_update.1 hb
  split_ifs with hp
  · exact h a ha hp
  · exact hrest a ha (Bool.eq_false_iff.2 hp)

theorem exists_mem_update (h : ∃ a ∈ rows, Q a)
    (hf : ∀ a ∈ rows, p a = true → Q a → Q (f a)) : ∃ b ∈ update p f rows, Q b := by
  obtain ⟨a, ha, hq⟩ := h
  refine ⟨_, mem_update_ite ha, ?_⟩
  split_ifs with hp
  · exact hf a ha hp hq
  · exact hq

/-- What each row becomes. -/
theorem exists_update_of_mem {P : α → α → Prop} (hrefl : ∀ a, P a a)
    (h : ∀ a, p a = true → P a (f a)) : ∀ a ∈ rows, ∃ b ∈ update p f rows, P a b := by
  intro a ha
  by_cases hp : p a = true
  · exact ⟨f a, mem_update_of ha hp, h a hp⟩
  · exact ⟨a, mem_update_of_not ha (Bool.eq_false_iff.2 hp), hrefl a⟩

theorem update_eq_self (h : ∀ a ∈ rows, p a = false) : update p f rows = rows := by
  unfold update
  rw [map_congr_left fun a ha => if_neg (Bool.eq_false_iff.1 (h a ha)), map_id']

theorem update_id : update p (fun a => a) rows = rows := by
  unfold update
  simp

/-- Two statements on the same rows are one. -/
theorem update_update (h : ∀ a, p (f a) = p a) :
    update p g (update p f rows) = update p (fun a => g (f a)) rows := by
  unfold update
  rw [map_map]
  apply map_congr_left
  intro a _
  show (if p (if p a then f a else a) then g (if p a then f a else a) else
    if p a then f a else a) = _
  by_cases hp : p a = true
  · rw [if_pos hp, if_pos hp, h, if_pos hp]
  · rw [if_neg hp, if_neg hp, if_neg hp]

theorem mem_delete : a ∈ delete p rows ↔ a ∈ rows ∧ p a = false := by
  rw [delete, mem_filter, Bool.not_eq_true']

theorem mem_of_mem_delete (h : a ∈ delete p rows) : a ∈ rows := (mem_delete.1 h).1

/-! ## Unique columns -/

theorem Keyed.eq (h : Keyed key rows) (ha : a ∈ rows) (hb : b ∈ rows) (hk : key a = key b) :
    a = b :=
  inj_on_of_nodup_map h ha hb hk

theorem Keyed.nil : Keyed key [] := nodup_nil

section

variable (h : Keyed key rows)
include h

theorem Keyed.map_of (hg : ∀ a ∈ rows, key (g a) = key a) : Keyed key (rows.map g) := by
  have hkeys : rows.map (key ∘ g) = rows.map key := map_congr_left hg
  unfold Keyed
  rw [map_map, hkeys]
  exact h

theorem Keyed.update_of (hf : ∀ a, p a = true → key (f a) = key a) :
    Keyed key (Lib.update p f rows) := by
  unfold Keyed Lib.update
  rw [map_map]
  have hkey : key ∘ (fun a => if p a then f a else a) = key := by
    funext a
    show key (if p a then f a else a) = key a
    split
    · exact hf a ‹_›
    · rfl
  rw [hkey]
  exact h

theorem Keyed.update (hf : ∀ a, key (f a) = key a) : Keyed key (Lib.update p f rows) :=
  h.update_of fun a _ => hf a

theorem Keyed.delete : Keyed key (Lib.delete p rows) := (filter_sublist.map key).nodup h

theorem Keyed.concat (ha : ∀ b ∈ rows, key b ≠ key a) : Keyed key (rows ++ [a]) := by
  unfold Keyed
  rw [map_append, nodup_append]
  refine ⟨h, nodup_singleton _, ?_⟩
  intro k hk k' hk' heq
  obtain ⟨b, hb, rfl⟩ := mem_map.1 hk
  exact ha b hb (heq.trans (mem_singleton.1 hk'))

end

/-- Rows that are changed or dropped, so that rows with different keys keep different keys. -/
theorem Keyed.filterMap {g : α → Option α} (h : Keyed key rows)
    (hg : ∀ a ∈ rows, ∀ b ∈ rows, ∀ a' b', g a = some a' → g b = some b' → key a' = key b' →
      key a = key b) : Keyed key (rows.filterMap g) := by
  unfold Keyed Nodup at h ⊢
  rw [pairwise_map] at h ⊢
  rw [pairwise_filterMap]
  apply Pairwise.imp_of_mem _ h
  intro a b ha hb hne a' ha' b' hb' heq
  exact hne (hg a ha b hb a' b' ha' hb' heq)

section

variable (h : Keyed key rows) (hp : ∀ a, p a = true → key a = k)
include h hp

/-- A statement by a unique column reports at most one row. -/
theorem affected_le_one : affected p rows ≤ 1 := by
  have hlen : ((rows.filter p).map key).length = affected p rows := by
    rw [length_map, affected, countP_eq_length_filter]
  have hnodup : ((rows.filter p).map key).Nodup := (filter_sublist.map key).nodup h
  have hall : ∀ x ∈ (rows.filter p).map key, x = k := by
    intro x hx
    obtain ⟨a, ha, rfl⟩ := mem_map.1 hx
    exact hp a (mem_filter.1 ha).2
  match hl : (rows.filter p).map key with
  | [] => rw [← hlen, hl]; exact Nat.zero_le 1
  | [x] => rw [← hlen, hl]; exact Nat.le_refl 1
  | x :: y :: rest =>
    exfalso
    rw [hl] at hnodup hall
    have hxy : x = y := (hall x (by simp)).trans (hall y (by simp)).symm
    exact (nodup_cons.1 hnodup).1 (hxy ▸ mem_cons_self)

/-- A statement by a unique column reports one row exactly when it finds the row in the state
    that its condition asks for. -/
theorem affected_eq_one_iff : affected p rows = 1 ↔ ∃ a ∈ rows, p a = true := by
  have hle := affected_le_one h hp
  constructor
  · intro h1
    exact countP_pos_iff.1 (by rw [show rows.countP p = 1 from h1]; exact Nat.one_pos)
  · intro hex
    have hpos : 0 < affected p rows := countP_pos_iff.2 hex
    omega

end

/-! ## Optional unique columns -/

/-- No two rows have the same value in the column `f`; rows without a value are not compared. -/
def Distinct (f : α → Option κ) (rows : List α) : Prop := (rows.filterMap f).Nodup

instance [DecidableEq κ] (f : α → Option κ) (rows : List α) : Decidable (Distinct f rows) :=
  inferInstanceAs (Decidable (rows.filterMap f).Nodup)

theorem Distinct.nil {f : α → Option κ} : Distinct f [] := nodup_nil

section

variable {f : α → Option κ} (h : Distinct f rows)
include h

theorem Distinct.concat (ha : ∀ k, f a = some k → ∀ b ∈ rows, f b ≠ some k) :
    Distinct f (rows ++ [a]) := by
  unfold Distinct
  rw [filterMap_append]
  cases hf : f a with
  | none =>
    rw [filterMap_cons_none hf, filterMap_nil, append_nil]
    exact h
  | some k =>
    rw [filterMap_cons_some hf, filterMap_nil, nodup_append]
    refine ⟨h, nodup_singleton _, ?_⟩
    intro k' hk' k'' hk'' heq
    obtain ⟨b, hb, hfb⟩ := mem_filterMap.1 hk'
    rw [heq, mem_singleton.1 hk''] at hfb
    exact ha k hf b hb hfb

theorem Distinct.eq (ha : a ∈ rows) (hb : b ∈ rows) (hfa : f a = some k) (hfb : f b = some k) :
    a = b := by
  induction rows with
  | nil => cases ha
  | cons x rows ih =>
    have htail : Distinct f rows := Nodup.sublist ((sublist_cons_self x rows).filterMap f) h
    have hnew : ∀ y ∈ rows, f y = some k → f x ≠ some k := by
      intro y hy hfy hfx
      unfold Distinct at h
      rw [filterMap_cons_some hfx] at h
      exact (nodup_cons.1 h).1 (mem_filterMap.2 ⟨y, hy, hfy⟩)
    rcases mem_cons.1 ha with rfl | ha'
    · rcases mem_cons.1 hb with rfl | hb'
      · rfl
      · exact absurd hfa (hnew b hb' hfb)
    · rcases mem_cons.1 hb with rfl | hb'
      · exact absurd hfb (hnew a ha' hfa)
      · exact ih htail ha' hb'

end

/-- A column that determines a unique one is unique. -/
theorem Distinct.of_determines {κ' : Type*} {f : α → Option κ} {g : α → Option κ'}
    (h : Distinct g rows) (hdet : ∀ a ∈ rows, ∀ b ∈ rows, ∀ k, f a = some k → f b = some k →
      ∃ k', g a = some k' ∧ g b = some k') : Distinct f rows := by
  induction rows with
  | nil => exact Distinct.nil
  | cons x rows ih =>
    have htail : Distinct f rows := by
      apply ih (Nodup.sublist ((sublist_cons_self x rows).filterMap g) h)
      intro a ha b hb
      exact hdet a (mem_cons_of_mem x ha) b (mem_cons_of_mem x hb)
    unfold Distinct
    cases hf : f x with
    | none =>
      rw [filterMap_cons_none hf]
      exact htail
    | some k =>
      rw [filterMap_cons_some hf, nodup_cons]
      refine ⟨?_, htail⟩
      intro hk
      obtain ⟨b, hb, hfb⟩ := mem_filterMap.1 hk
      obtain ⟨k', hgx, hgb⟩ := hdet x mem_cons_self b (mem_cons_of_mem x hb) k hf hfb
      unfold Distinct at h
      rw [filterMap_cons_some hgx] at h
      exact (nodup_cons.1 h).1 (mem_filterMap.2 ⟨b, hb, hgb⟩)

/-! ## Look-ups -/

theorem find?_some (h : rows.find? p = some a) : a ∈ rows ∧ p a = true :=
  ⟨List.mem_of_find?_eq_some h, List.find?_some h⟩

theorem find?_none (h : rows.find? p = none) : ∀ a ∈ rows, p a = false := by
  intro a ha
  exact Bool.not_eq_true _ ▸ find?_eq_none.1 h a ha

/-- A look-up by a column that the update leaves alone finds the updated row. -/
theorem find?_update {q : α → Bool} (hf : ∀ a, q (f a) = q a) :
    (update p f rows).find? q = (rows.find? q).map fun a => if p a then f a else a := by
  have hq : (q ∘ fun a => if p a then f a else a) = q := by
    funext a
    show q (if p a then f a else a) = q a
    split
    · exact hf a
    · rfl
  rw [update, find?_map, hq]

/-- A look-up by a column that `f` keeps. -/
theorem find?_map_key [DecidableEq κ] (key : α → κ) (hf : ∀ a, key (f a) = key a) :
    (rows.map f).find? (fun a => key a = k) = (rows.find? fun a => key a = k).map f := by
  rw [find?_map]
  simp only [Function.comp_def, hf]

/-- A look-up of other rows than a statement is about. -/
theorem find?_update_ne [DecidableEq κ] {k' : κ} (h : k' ≠ k) (hf : ∀ a, key (f a) = key a) :
    (update (fun a => key a = k) f rows).find? (fun a => key a = k') =
      rows.find? fun a => key a = k' := by
  rw [find?_update fun a => by rw [hf]]
  cases hfound : rows.find? fun a => key a = k' with
  | none => rfl
  | some a =>
    have hkey : key a = k' := by simpa using List.find?_some hfound
    show some (if decide (key a = k) then f a else a) = some a
    rw [if_neg]
    simpa [hkey] using h

section

variable (h : Keyed key rows) (hp : ∀ a, p a = true → key a = k)
include h hp

/-- A look-up by a unique column finds the row that is there. -/
theorem Keyed.find?_eq (ha : a ∈ rows) (hpa : p a = true) : rows.find? p = some a := by
  cases hf : rows.find? p with
  | none =>
    rw [find?_none hf a ha] at hpa
    cases hpa
  | some b =>
    obtain ⟨hb, hpb⟩ := find?_some hf
    rw [h.eq hb ha ((hp b hpb).trans (hp a hpa).symm)]

/-- The rows are the one that a unique column selects and the others. -/
theorem Keyed.perm_delete : rows.Perm ((rows.find? p).toList ++ Lib.delete p rows) := by
  induction rows with
  | nil => exact .refl []
  | cons a rows ih =>
    obtain ⟨hnot, hrest⟩ := nodup_cons.1 h
    cases hpa : p a with
    | true =>
      have hsame : rows.filter (fun b => !p b) = rows := by
        apply filter_eq_self.2
        intro b hb
        cases hpb : p b with
        | true => exact absurd (mem_map.2 ⟨b, hb, (hp b hpb).trans (hp a hpa).symm⟩) hnot
        | false => rfl
      rw [Lib.delete, find?_cons_of_pos hpa, filter_cons_of_neg (by simp [hpa]), hsame]
      exact .refl _
    | false =>
      rw [Lib.delete, find?_cons_of_neg (by simp [hpa]), filter_cons_of_pos (by simp [hpa])]
      exact ((ih hrest).cons a).trans perm_middle.symm

end

/-! ## Rows by position -/

/-- The rows after one of them was replaced. -/
theorem getElem?_set_cases {i : ℕ} (h : (rows.set i a)[j]? = some b) :
    (j = i ∧ b = a) ∨ (j ≠ i ∧ rows[j]? = some b) := by
  rw [getElem?_set] at h
  split at h
  · rename_i hj
    split_ifs at h
    cases h
    exact .inl ⟨hj.symm, rfl⟩
  · rename_i hj
    exact .inr ⟨fun heq => hj heq.symm, h⟩

theorem getElem?_set_same {i : ℕ} (h : rows[i]? = some b) (a : α) : (rows.set i a)[i]? = some a :=
  List.getElem?_set_self (List.getElem?_eq_some_iff.1 h).1

/-- The rows after others were added at the end. -/
theorem getElem?_append_cases {added : List α} (h : (rows ++ added)[j]? = some b) :
    rows[j]? = some b ∨ (rows.length ≤ j ∧ b ∈ added) := by
  rw [getElem?_append] at h
  split_ifs at h with hj
  · exact .inl h
  · exact .inr ⟨Nat.le_of_not_lt hj, mem_of_getElem? h⟩

theorem getElem?_concat_cases (h : (rows ++ [a])[j]? = some b) :
    rows[j]? = some b ∨ (j = rows.length ∧ b = a) := by
  rw [getElem?_append] at h
  split_ifs at h
  · exact .inl h
  · rw [getElem?_singleton] at h
    split_ifs at h
    cases h
    exact .inr ⟨by omega, rfl⟩

end VibeKanban.Lib

import Mathlib

/-!
# Steps that may fail

`bind_eq_ok_iff` takes a computation apart, `foldlM_induction` and `mapM_eq_ok_iff` a loop.
-/

namespace VibeKanban.Lib

open List

universe u v

variable {ε : Type u} {α β : Type v} {x : Except ε α}

theorem bind_eq_ok_iff {f : α → Except ε β} {b : β} :
    (x >>= f) = .ok b ↔ ∃ a, x = .ok a ∧ f a = .ok b := by
  cases x with
  | error e =>
    constructor
    · intro h
      cases h
    · rintro ⟨a, h, -⟩
      cases h
  | ok a =>
    constructor
    · exact fun h => ⟨a, rfl, h⟩
    · rintro ⟨a', h, hf⟩
      cases h
      exact hf

theorem exists_ok_of_isOk (h : x.isOk = true) : ∃ a, x = .ok a := by
  cases x with
  | error e => cases h
  | ok a => exact ⟨a, rfl⟩

theorem foldlM_concat {f : β → α → Except ε β} {b b' : β} {l : List α} {a : α}
    (h : l.foldlM f b = .ok b') : (l ++ [a]).foldlM f b = f b' a := by
  rw [foldlM_append, h]
  show ([a].foldlM f b') = f b' a
  exact bind_pure _

/-- An invariant of a loop over `l`, with the elements that the loop has passed. -/
theorem foldlM_induction {f : β → α → Except ε β} {P : List α → β → Prop} {l : List α} {b b' : β}
    (hstart : P [] b)
    (hstep : ∀ done a rest b b', l = done ++ a :: rest → P done b → f b a = .ok b' →
      P (done ++ [a]) b') (h : l.foldlM f b = .ok b') : P l b' := by
  have hgen (rest : List α) : ∀ done b, l = done ++ rest → P done b →
      rest.foldlM f b = .ok b' → P l b' := by
    induction rest with
    | nil =>
      intro done b hl hP h
      rw [append_nil] at hl
      have heq : b = b' := Except.ok.inj h
      rwa [hl, ← heq]
    | cons a rest ih =>
      intro done b hl hP h
      rw [foldlM_cons, bind_eq_ok_iff] at h
      obtain ⟨b₁, hb₁, h⟩ := h
      exact ih (done ++ [a]) b₁ (by rw [hl, append_assoc]; rfl)
        (hstep done a rest b b₁ hl hP hb₁) h
  exact hgen l [] b rfl hstart h

theorem mapM_eq_ok_iff {α β : Type v} {f : α → Except ε β} {l : List α} {bs : List β} :
    l.mapM f = .ok bs ↔ List.Forall₂ (fun a b => f a = .ok b) l bs := by
  induction l generalizing bs with
  | nil =>
    rw [mapM_nil, forall₂_nil_left_iff]
    constructor
    · intro h
      exact (Except.ok.inj h).symm
    · rintro rfl
      rfl
  | cons a l ih =>
    rw [mapM_cons, bind_eq_ok_iff]
    constructor
    · rintro ⟨b, hb, h⟩
      obtain ⟨bs', hbs', h⟩ := bind_eq_ok_iff.1 h
      cases h
      exact .cons hb (ih.1 hbs')
    · rintro (_ | ⟨hb, hbs⟩)
      exact ⟨_, hb, bind_eq_ok_iff.2 ⟨_, ih.2 hbs, rfl⟩⟩

theorem mapM_eq_some_iff {α β : Type v} {f : α → Option β} {l : List α} {bs : List β} :
    l.mapM f = some bs ↔ List.Forall₂ (fun a b => f a = some b) l bs := by
  induction l generalizing bs with
  | nil =>
    rw [mapM_nil, forall₂_nil_left_iff]
    constructor
    · intro h
      exact (Option.some.inj h).symm
    · rintro rfl
      rfl
  | cons a l ih =>
    rw [mapM_cons, Option.bind_eq_bind, Option.bind_eq_some_iff]
    constructor
    · rintro ⟨b, hb, h⟩
      obtain ⟨bs', hbs', h⟩ := Option.bind_eq_some_iff.1 h
      cases h
      exact .cons hb (ih.1 hbs')
    · rintro (_ | ⟨hb, hbs⟩)
      exact ⟨_, hb, Option.bind_eq_some_iff.2 ⟨_, ih.2 hbs, rfl⟩⟩

theorem exists_of_mem_left {α β : Type*} {R : α → β → Prop} {l : List α} {bs : List β}
    (h : List.Forall₂ R l bs) {a : α} (ha : a ∈ l) : ∃ b ∈ bs, R a b := by
  induction h with
  | nil => simp at ha
  | cons hab _ ih =>
    rcases mem_cons.1 ha with rfl | ha
    · exact ⟨_, mem_cons_self, hab⟩
    · obtain ⟨b, hb, hr⟩ := ih ha
      exact ⟨b, mem_cons_of_mem _ hb, hr⟩

theorem forall₂_and {α β : Type*} {R S : α → β → Prop} {l : List α} {bs : List β}
    (h : List.Forall₂ R l bs) (h' : List.Forall₂ S l bs) :
    List.Forall₂ (fun a b => R a b ∧ S a b) l bs := by
  induction h with
  | nil => exact .nil
  | cons hab _ ih =>
    obtain _ | ⟨hab', h'⟩ := h'
    exact .cons ⟨hab, hab'⟩ (ih h')

theorem exists_of_mem_right {α β : Type*} {R : α → β → Prop} {l : List α} {bs : List β}
    (h : List.Forall₂ R l bs) {b : β} (hb : b ∈ bs) : ∃ a ∈ l, R a b := by
  obtain ⟨a, ha, hr⟩ := exists_of_mem_left h.flip hb
  exact ⟨a, ha, hr⟩

end VibeKanban.Lib

import Mathlib

/-!
# Searching for a word in a text

`w <:+: t` says that `t` contains `w`. `infix_skip` and `infix_cut` move a search past the parts of
a text that cannot take part in an occurrence.
-/

namespace VibeKanban.Lib

open List

variable {α : Type*} {x sep stop : α} {w l f r : List α} {l' r' : List α}

theorem infix_skip (hf : x ∉ f) : x :: w <:+: f ++ r ↔ x :: w <:+: r := by
  rw [infix_append_iff_ne_nil]
  constructor
  · rintro (hin | hin | ⟨l₁, l₂, hl₁, -, heq, hsuf, -⟩)
    · exact absurd (hin.subset mem_cons_self) hf
    · exact hin
    · cases l₁ with
      | nil => exact absurd rfl hl₁
      | cons y l₁ =>
        have hxy : x = y := head_eq_of_cons_eq heq
        rw [hxy] at hf
        exact absurd (hsuf.subset mem_cons_self) hf
  · intro hin
    exact .inr (.inl hin)

theorem infix_skip_cons (hx : x ≠ sep) : x :: w <:+: sep :: r ↔ x :: w <:+: r := by
  rw [infix_cons_iff, cons_prefix_cons]
  constructor
  · rintro (⟨heq, -⟩ | hin)
    · exact absurd heq hx
    · exact hin
  · exact .inr

/-- A word that ends in `stop` is no prefix of a line without `stop`, unless it runs over the end
    of the line. -/
theorem not_prefix_line (hlast : w.getLast? = some stop) (hf : stop ∉ f) (hsep : sep ∉ w) :
    ¬ w <+: f ++ sep :: r := by
  intro hpre
  induction f generalizing w with
  | nil =>
    cases w with
    | nil => cases hlast
    | cons y w =>
      rw [nil_append, cons_prefix_cons] at hpre
      exact hsep (hpre.1 ▸ mem_cons_self)
  | cons z f ih =>
    cases w with
    | nil => cases hlast
    | cons y w =>
      rw [cons_append, cons_prefix_cons] at hpre
      obtain ⟨rfl, hpre⟩ := hpre
      cases w with
      | nil =>
        cases hlast
        exact hf mem_cons_self
      | cons y' w =>
        rw [getLast?_cons_cons] at hlast
        exact ih hlast (fun hin => hf (mem_cons_of_mem _ hin))
          (fun hin => hsep (mem_cons_of_mem _ hin)) hpre

theorem infix_cut (hlast : (x :: w).getLast? = some stop) (hf : stop ∉ f) (hsep : sep ∉ w) :
    x :: w <:+: l ++ (f ++ sep :: r) ↔ x :: w <:+: l ∨ x :: w <:+: sep :: r := by
  have hstop : stop ∈ x :: w := mem_of_getLast? hlast
  rw [infix_append_iff_ne_nil]
  constructor
  · rintro (hin | hin | ⟨l₁, l₂, hl₁, hl₂, heq, -, hpre⟩)
    · exact .inl hin
    · right
      rw [infix_append_iff_ne_nil] at hin
      rcases hin with hin | hin | ⟨l₁, l₂, hl₁, hl₂, heq, -, hpre⟩
      · exact absurd (hin.subset hstop) hf
      · exact hin
      · cases l₁ with
        | nil => exact absurd rfl hl₁
        | cons y l₁ =>
          cases l₂ with
          | nil => exact absurd rfl hl₂
          | cons z l₂ =>
            rw [cons_append, cons.injEq] at heq
            rw [cons_prefix_cons] at hpre
            rw [heq.2, hpre.1] at hsep
            exact absurd (mem_append_right _ mem_cons_self) hsep
    · exfalso
      cases l₁ with
      | nil => exact hl₁ rfl
      | cons y l₁ =>
        rw [cons_append, cons.injEq] at heq
        have hlast₂ : l₂.getLast? = some stop := by
          rw [heq.1, heq.2, ← cons_append, getLast?_append_of_ne_nil _ hl₂] at hlast
          exact hlast
        rw [heq.2] at hsep
        exact not_prefix_line hlast₂ hf (fun hin => hsep (mem_append_right _ hin)) hpre
  · rintro (hin | hin)
    · exact .inl hin
    · exact .inr (.inl (infix_append_of_infix_right hin))

theorem eq_of_append_sep (hl : sep ∉ l) (hl' : sep ∉ l')
    (h : l ++ sep :: r = l' ++ sep :: r') : l = l' ∧ r = r' := by
  induction l generalizing l' with
  | nil =>
    cases l' with
    | nil => exact ⟨rfl, tail_eq_of_cons_eq h⟩
    | cons y l' =>
      rw [nil_append, cons_append, cons.injEq] at h
      exact absurd (h.1 ▸ mem_cons_self) hl'
  | cons x l ih =>
    cases l' with
    | nil =>
      rw [nil_append, cons_append, cons.injEq] at h
      exact absurd (h.1 ▸ mem_cons_self) hl
    | cons y l' =>
      rw [cons_append, cons_append, cons.injEq] at h
      obtain ⟨rfl, rfl⟩ := ih (fun hin => hl (mem_cons_of_mem x hin))
        (fun hin => hl' (mem_cons_of_mem y hin)) h.2
      exact ⟨congrArg (· :: l) h.1, rfl⟩

/-- And in one way at its last separator. -/
theorem eq_of_append_sep_right (hr : sep ∉ r) (hr' : sep ∉ r')
    (h : l ++ sep :: r = l' ++ sep :: r') : l = l' ∧ r = r' := by
  have hreverse := congrArg reverse h
  rw [reverse_append, reverse_append, reverse_cons, reverse_cons,
    append_assoc, append_assoc] at hreverse
  obtain ⟨hright, hleft⟩ := eq_of_append_sep (by simpa using hr) (by simpa using hr') hreverse
  exact ⟨reverse_injective hleft, reverse_injective hright⟩

/-- Where an element of a list that ends with `a` stands. -/
theorem concat_eq_append_cons {xs before after : List α} {a b : α}
    (h : xs ++ [a] = before ++ b :: after) : (after = [] ∧ a = b ∧ xs = before) ∨
      ∃ after', after = after' ++ [a] ∧ xs = before ++ b :: after' := by
  rcases eq_nil_or_concat' after with rfl | ⟨after', c, rfl⟩
  · obtain ⟨hxs, ha⟩ := append_inj' h rfl
    exact .inl ⟨rfl, singleton_inj.1 ha, hxs⟩
  · rw [← cons_append, ← append_assoc] at h
    obtain ⟨hxs, ha⟩ := append_inj' h rfl
    rw [singleton_inj.1 ha]
    exact .inr ⟨after', rfl, hxs⟩

end VibeKanban.Lib

import VibeKanban.Lib.Search

/-!
# Escaped strings

An encoder of strings as RFC 8259 allows it that escapes what it must: a backslash, a quote and the
control characters. `newline_infix_iff`: where an encoded text contains an escaped line break.
-/

namespace VibeKanban.Lib

open List

/-- A character that needs no escape. -/
def Plain (c : Char) : Prop := c ≠ '"' ∧ c ≠ '\\' ∧ 32 ≤ c.toNat
  deriving Decidable

structure Escaping where
  escape : Char → List Char
  plain : ∀ c, Plain c → escape c = [c]
  newline : escape '\n' = ['\\', 'n']
  backslash : escape '\\' = ['\\', '\\']
  /-- A quote and the other control characters: a backslash, then something else. -/
  other : ∀ c, ¬ Plain c → c ≠ '\n' → c ≠ '\\' →
    ∃ mark rest, escape c = '\\' :: mark :: rest ∧ mark ≠ 'n' ∧ '\\' ∉ mark :: rest

namespace Escaping

variable (e : Escaping)

/-- The content of an encoded string. -/
def content (text : List Char) : List Char := text.flatMap e.escape

/-- The encoded string, in quotes. -/
def encode (text : List Char) : List Char := '"' :: (e.content text ++ ['"'])

@[simp] theorem content_cons (c : Char) (text : List Char) :
    e.content (c :: text) = e.escape c ++ e.content text := rfl

variable {e} {word text : List Char}

/-- A character that needs an escape is encoded with a backslash in front. -/
theorem head_escape {c : Char} (h : ¬ Plain c) : ∃ rest, e.escape c = '\\' :: rest := by
  by_cases hn : c = '\n'
  · rw [hn, e.newline]
    exact ⟨_, rfl⟩
  · by_cases hb : c = '\\'
    · rw [hb, e.backslash]
      exact ⟨_, rfl⟩
    · obtain ⟨mark, rest, hescape, -, -⟩ := e.other c h hn hb
      exact ⟨_, hescape⟩

theorem prefix_content_iff (hw : ∀ c ∈ word, Plain c) :
    word <+: e.content text ↔ word <+: text := by
  induction word generalizing text with
  | nil => exact ⟨fun _ => nil_prefix, fun _ => nil_prefix⟩
  | cons x word ih =>
    have hx : Plain x := hw x mem_cons_self
    cases text with
    | nil => exact Iff.rfl
    | cons c text =>
      rw [content_cons, cons_prefix_cons]
      by_cases hc : Plain c
      · rw [e.plain c hc, singleton_append, cons_prefix_cons,
          ih fun d hd => hw d (mem_cons_of_mem _ hd)]
      · obtain ⟨rest, hrest⟩ := head_escape (e := e) hc
        rw [hrest, cons_append, cons_prefix_cons]
        constructor
        · rintro ⟨heq, -⟩
          exact absurd heq hx.2.1
        · rintro ⟨heq, -⟩
          exact absurd (heq ▸ hx) hc

/-- **Main lemma.** -/
theorem newline_infix_iff (hw : ∀ c ∈ word, Plain c) : '\\' :: 'n' :: word <:+: e.content text ↔
      '\n' :: word <:+: text ∨ '\\' :: 'n' :: word <:+: text := by
  have hn : ∀ c ∈ 'n' :: word, Plain c := by
    intro c hc
    rcases mem_cons.1 hc with rfl | hc
    · decide
    · exact hw c hc
  induction text with
  | nil =>
    show _ <:+: [] ↔ _ <:+: [] ∨ _ <:+: []
    simp only [infix_nil, cons_ne_nil, or_self]
  | cons c text ih =>
    replace ih : '\\' :: 'n' :: word <:+: e.content text ↔
      '\n' :: word <:+: text ∨ '\\' :: 'n' :: word <:+: text := ih
    rw [content_cons, infix_cons_iff, cons_prefix_cons, infix_cons_iff, cons_prefix_cons]
    by_cases hc : Plain c
    · have hcn : '\n' ≠ c := fun heq => absurd (heq ▸ hc) (by decide)
      rw [e.plain c hc]
      show _ <:+: c :: e.content text ↔ _
      rw [infix_skip_cons hc.2.1.symm, ih]
      constructor
      · rintro (hin | hin)
        · exact .inl (.inr hin)
        · exact .inr (.inr hin)
      · rintro ((⟨heq, -⟩ | hin) | ⟨heq, -⟩ | hin)
        · exact absurd heq hcn
        · exact .inl hin
        · exact absurd heq hc.2.1.symm
        · exact .inr hin
    · by_cases hnew : c = '\n'
      · subst hnew
        rw [e.newline]
        show _ <:+: '\\' :: 'n' :: e.content text ↔ _
        rw [infix_cons_iff, cons_prefix_cons, cons_prefix_cons,
          prefix_content_iff hw, infix_skip_cons (by decide), ih]
        constructor
        · rintro (⟨-, -, hpre⟩ | hin | hin)
          · exact .inl (.inl ⟨rfl, hpre⟩)
          · exact .inl (.inr hin)
          · exact .inr (.inr hin)
        · rintro ((⟨-, hpre⟩ | hin) | ⟨heq, -⟩ | hin)
          · exact .inl ⟨rfl, rfl, hpre⟩
          · exact .inr (.inl hin)
          · cases heq
          · exact .inr (.inr hin)
      · by_cases hback : c = '\\'
        · subst hback
          rw [e.backslash]
          show _ <:+: '\\' :: '\\' :: e.content text ↔ _
          rw [infix_cons_iff, cons_prefix_cons, cons_prefix_cons,
            infix_cons_iff, cons_prefix_cons, prefix_content_iff hn, ih]
          constructor
          · rintro (⟨-, heq, -⟩ | ⟨-, hpre⟩ | hin | hin)
            · cases heq
            · exact .inr (.inl ⟨rfl, hpre⟩)
            · exact .inl (.inr hin)
            · exact .inr (.inr hin)
          · rintro ((⟨heq, -⟩ | hin) | ⟨-, hpre⟩ | hin)
            · cases heq
            · exact .inr (.inr (.inl hin))
            · exact .inr (.inl ⟨rfl, hpre⟩)
            · exact .inr (.inr (.inr hin))
        · obtain ⟨mark, rest, hescape, hmark, hrest⟩ := e.other c hc hnew hback
          rw [hescape]
          show _ <:+: '\\' :: ((mark :: rest) ++ e.content text) ↔ _
          rw [infix_cons_iff, infix_skip hrest, ih, cons_append, cons_prefix_cons, cons_prefix_cons]
          constructor
          · rintro (⟨-, heq, -⟩ | hin | hin)
            · exact absurd heq.symm hmark
            · exact .inl (.inr hin)
            · exact .inr (.inr hin)
          · rintro ((⟨heq, -⟩ | hin) | ⟨heq, -⟩ | hin)
            · exact absurd heq.symm hnew
            · exact .inr (.inl hin)
            · exact absurd heq.symm hback
            · exact .inr (.inr hin)

/-- A word without quotes is searched for inside the quotes. -/
theorem infix_encode_iff {x : Char} (hw : '"' ∉ x :: word) :
    x :: word <:+: e.encode text ↔ x :: word <:+: e.content text := by
  have hx : x ≠ '"' := fun heq => hw (heq ▸ List.mem_cons_self)
  rw [encode, infix_skip_cons hx, infix_append_iff_ne_nil]
  constructor
  · rintro (hin | hin | ⟨l₁, l₂, -, hl₂, heq, -, hpre⟩)
    · exact hin
    · rw [infix_skip_cons hx, infix_nil] at hin
      cases hin
    · exfalso
      cases l₂ with
      | nil => exact hl₂ rfl
      | cons y l₂ =>
        rw [cons_prefix_cons] at hpre
        rw [heq, hpre.1] at hw
        exact hw (mem_append_right _ mem_cons_self)
  · exact .inl

end Escaping

end VibeKanban.Lib

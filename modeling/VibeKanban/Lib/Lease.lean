import Mathlib

/-!
# Leases with fencing generations

A lease is one cell: the generation of its last grant and the time at which it expires. Each grant
has a higher generation than all before it, and is given only when the cell has expired; the holder
of the newest generation may give it back early (`grant`, `giveBack`).
-/

namespace VibeKanban.Lib

open List

/-- A grant of the lease. -/
structure Grant where
  generation : ℕ
  expires : ℕ
  released : Bool

/-- It is neither expired nor given back. -/
def Grant.Live (now : ℕ) (grant : Grant) : Prop := now < grant.expires ∧ grant.released = false

/-- The holder of a generation gives its grant back. -/
def Grant.giveBack (generation : ℕ) (grant : Grant) : Grant :=
  if grant.generation = generation then { grant with released := true } else grant

/-- The cell, with the generation and the time of its lease, and all grants so far: their
    generations go up, and a live grant is the one in the cell. -/
structure Fenced (now : ℕ) (cell : Option (ℕ × ℕ)) (grants : List Grant) : Prop where
  increasing : (grants.map Grant.generation).Pairwise (· < ·)
  newest : ∀ grant ∈ grants, ∃ generation expires,
    cell = some (generation, expires) ∧ grant.generation ≤ generation
  live : ∀ grant ∈ grants, grant.Live now → cell = some (grant.generation, grant.expires)

namespace Fenced

variable {now now' generation expires : ℕ} {cell : Option (ℕ × ℕ)} {grants : List Grant}

theorem nil : Fenced now cell [] where
  increasing := List.Pairwise.nil
  newest _ h := nomatch h
  live _ h := nomatch h

section

variable (h : Fenced now cell grants)

include h

theorem tick (hle : now ≤ now') : Fenced now' cell grants where
  increasing := h.increasing
  newest := h.newest
  live grant hgrant hlive := h.live grant hgrant ⟨Nat.lt_of_le_of_lt hle hlive.1, hlive.2⟩

section

variable (hexpired : ∀ generation expires, cell = some (generation, expires) → expires ≤ now)
include hexpired

/-- An expired cell has no live grant. -/
theorem not_live : ∀ grant ∈ grants, ¬grant.Live now := by
  intro grant hgrant hlive
  have hle := hexpired _ _ (h.live grant hgrant hlive)
  have hlt := hlive.1
  omega

/-- A new generation that nobody learns of. -/
theorem takeOver (hnewer : ∀ generation' expires', cell = some (generation', expires') →
      generation' ≤ generation) :
    Fenced now (some (generation, expires)) grants where
  increasing := h.increasing
  newest grant hgrant := by
    obtain ⟨generation', expires', hcell, hle⟩ := h.newest grant hgrant
    exact ⟨generation, expires, rfl, Nat.le_trans hle (hnewer _ _ hcell)⟩
  live grant hgrant hlive := absurd hlive (h.not_live hexpired grant hgrant)

theorem grant (hnewer : ∀ generation' expires', cell = some (generation', expires') →
      generation' < generation) :
    Fenced now (some (generation, expires)) (grants ++ [⟨generation, expires, false⟩]) where
  increasing := by
    rw [map_append, pairwise_append]
    refine ⟨h.increasing, pairwise_singleton _ _, ?_⟩
    intro g hg g' hg'
    rw [map_singleton, mem_singleton] at hg'
    obtain ⟨grant, hgrant, rfl⟩ := mem_map.1 hg
    obtain ⟨generation', expires', hcell, hle⟩ := h.newest grant hgrant
    rw [hg']
    exact Nat.lt_of_le_of_lt hle (hnewer _ _ hcell)
  newest grant hgrant := by
    refine ⟨generation, expires, rfl, ?_⟩
    rcases mem_append.1 hgrant with hold | hnew
    · obtain ⟨generation', expires', hcell, hle⟩ := h.newest grant hold
      exact Nat.le_of_lt (Nat.lt_of_le_of_lt hle (hnewer _ _ hcell))
    · exact Nat.le_of_eq (congrArg Grant.generation (mem_singleton.1 hnew))
  live grant hgrant hlive := by
    rcases mem_append.1 hgrant with hold | hnew
    · exact absurd hlive (h.not_live hexpired grant hold)
    · rw [mem_singleton.1 hnew]

end

end

theorem giveBack_generation (generation : ℕ) (grant : Grant) :
    (grant.giveBack generation).generation = grant.generation := by
  unfold Grant.giveBack
  split_ifs <;> rfl

/-- The holder of the cell's generation gives the lease back: the cell may expire at any time. -/
theorem giveBack {expires' : ℕ} (h : Fenced now (some (generation, expires)) grants) :
    Fenced now (some (generation, expires')) (grants.map (Grant.giveBack generation)) where
  increasing := by
    rw [map_map, show Grant.generation ∘ Grant.giveBack generation = Grant.generation from
      funext (giveBack_generation generation)]
    exact h.increasing
  newest grant hgrant := by
    obtain ⟨grant, hold, rfl⟩ := mem_map.1 hgrant
    obtain ⟨generation', expires', hcell, hle⟩ := h.newest grant hold
    cases hcell
    exact ⟨generation, _, rfl, giveBack_generation generation grant ▸ hle⟩
  live grant hgrant hlive := by
    obtain ⟨grant, hold, rfl⟩ := mem_map.1 hgrant
    unfold Grant.giveBack at hlive
    split_ifs at hlive with heq
    · cases hlive.2
    · -- a live grant has the cell's generation
      have hcell := h.live grant hold hlive
      simp only [Option.some.injEq, Prod.mk.injEq] at hcell
      exact absurd hcell.1.symm heq

end Fenced

end VibeKanban.Lib

import Mathlib

/-!
# Runs of a transition function

A system is a partial function `step : σ → α → Option σ`: `step s a` is the state after the action
`a`, or `none` when `a` is not enabled in `s`. What the system does not determine is part of the
action. `Reachable.invariant` is the rule of invariants.
-/

namespace VibeKanban.Lib

variable {σ τ α β : Type*}

/-! ## Definitions -/

/-- The steps of `step` whose action the guard `ok` allows in the state it is taken in. -/
def Guarded (step : σ → α → Option σ) (ok : σ → α → Prop) (s s' : σ) : Prop :=
  ∃ a, ok s a ∧ step s a = some s'

/-- Runs of any length whose steps are all allowed. -/
def Runs (step : σ → α → Option σ) (ok : σ → α → Prop) : σ → σ → Prop :=
  Relation.ReflTransGen (Guarded step ok)

/-- The states at the end of an allowed run from a state satisfying `init`. -/
def Reachable (step : σ → α → Option σ) (ok : σ → α → Prop) (init : σ → Prop) (s : σ) : Prop :=
  ∃ s₀, init s₀ ∧ Runs step ok s₀ s

/-- No restriction on the steps. -/
def anyStep (_ : σ) (_ : α) : Prop := True
  deriving Decidable

/-- Performs a list of actions in order, as long as each is allowed and enabled. -/
def exec (step : σ → α → Option σ) (ok : σ → α → Prop) [∀ s a, Decidable (ok s a)] (s : σ) :
    List α → Option σ
  | [] => some s
  | a :: as =>
    if ok s a then
      match step s a with
      | some s' => exec step ok s' as
      | none => none
    else none

variable {step : σ → α → Option σ} {ok ok' : σ → α → Prop} {init : σ → Prop} {s s' s'' : σ}
  {a : α} {P : σ → Prop} {as : List α}

/-! ## Runs -/

theorem Runs.refl : Runs step ok s s := Relation.ReflTransGen.refl

theorem Runs.tail (h : Runs step ok s s') (h1 : ok s' a) (h2 : step s' a = some s'') :
    Runs step ok s s'' :=
  Relation.ReflTransGen.tail h ⟨a, h1, h2⟩

theorem Runs.head (h1 : ok s a) (h2 : step s a = some s') (h : Runs step ok s' s'') :
    Runs step ok s s'' :=
  Relation.ReflTransGen.head ⟨a, h1, h2⟩ h

theorem Runs.trans (h1 : Runs step ok s s') (h2 : Runs step ok s' s'') : Runs step ok s s'' :=
  Relation.ReflTransGen.trans h1 h2

theorem Runs.mono (hok : ∀ s a, ok s a → ok' s a) (h : Runs step ok s s') : Runs step ok' s s' :=
  Relation.ReflTransGen.mono (fun _ _ ⟨a, h1, h2⟩ => ⟨a, hok _ _ h1, h2⟩) _ _ h

/-- A property that every allowed step keeps holds at the end of a run that starts with it. -/
theorem Runs.preserves (h : Runs step ok s s')
    (hstep : ∀ s a s', P s → ok s a → step s a = some s' → P s') (hs : P s) : P s' := by
  induction h with
  | refl => exact hs
  | tail _ hlast ih =>
    obtain ⟨a, h1, h2⟩ := hlast
    exact hstep _ a _ ih h1 h2

/-! ## Reachable states -/

theorem Reachable.start (h : init s) : Reachable step ok init s := ⟨s, h, Runs.refl⟩

theorem Reachable.next (h : Reachable step ok init s) (h1 : ok s a)
    (h2 : step s a = some s') : Reachable step ok init s' := by
  obtain ⟨s₀, h0, hr⟩ := h
  exact ⟨s₀, h0, hr.tail h1 h2⟩

theorem Reachable.runs (h : Reachable step ok init s) (hr : Runs step ok s s') :
    Reachable step ok init s' := by
  obtain ⟨s₀, h0, hr0⟩ := h
  exact ⟨s₀, h0, hr0.trans hr⟩

theorem Reachable.mono (hok : ∀ s a, ok s a → ok' s a) (h : Reachable step ok init s) :
    Reachable step ok' init s := by
  obtain ⟨s₀, h0, hr⟩ := h
  exact ⟨s₀, h0, hr.mono hok⟩

theorem Reachable.imp_init {init' : σ → Prop} (h : Reachable step ok init s)
    (hinit : ∀ s, init s → init' s) : Reachable step ok init' s := by
  obtain ⟨s₀, h0, hr⟩ := h
  exact ⟨s₀, hinit s₀ h0, hr⟩

/-- The induction rule for reachable states. -/
theorem Reachable.invariant (h : Reachable step ok init s) (hinit : ∀ s, init s → P s)
    (hstep : ∀ s a s', P s → ok s a → step s a = some s' → P s') : P s := by
  obtain ⟨s₀, h0, hr⟩ := h
  exact hr.preserves hstep (hinit s₀ h0)

/-! ## Executing a list of actions -/

theorem runs_of_exec [∀ s a, Decidable (ok s a)]
    (h : exec step ok s as = some s') : Runs step ok s s' := by
  induction as generalizing s with
  | nil =>
    cases h
    exact Runs.refl
  | cons a as ih =>
    simp only [exec] at h
    split_ifs at h with hok
    split at h
    · rename_i h1
      exact Runs.head hok h1 (ih h)
    · cases h

/-- A concrete run found by execution, with what evaluating its two ends shows. -/
theorem exists_runs_of_exec [∀ s a, Decidable (ok s a)] {start : Option σ}
    {f : σ → τ} {g : σ → β} {x : τ} {y : β} (hx : start.map f = some x)
    (hy : (start.bind fun s => exec step ok s as).map g = some y) :
    ∃ s s', start = some s ∧ Runs step ok s s' ∧ f s = x ∧ g s' = y := by
  obtain ⟨s, hs, hfs⟩ := Option.map_eq_some_iff.1 hx
  obtain ⟨s', hs', hgs⟩ := Option.map_eq_some_iff.1 hy
  rw [hs, Option.bind_some] at hs'
  exact ⟨s, s', hs, runs_of_exec hs', hfs, hgs⟩

theorem reachable_of_exec [∀ s a, Decidable (ok s a)] {s₀ : σ} (h0 : init s₀)
    (h : exec step ok s₀ as = some s) : Reachable step ok init s :=
  ⟨s₀, h0, runs_of_exec h⟩

/-! ## Runs with their actions -/

/-- A run whose actions are those of the list. -/
inductive Trace (step : σ → α → Option σ) (ok : σ → α → Prop) : σ → List α → σ → Prop
  | nil {s : σ} : Trace step ok s [] s
  | cons {s s' s'' : σ} {a : α} {as : List α} (h1 : ok s a) (h2 : step s a = some s')
    (h : Trace step ok s' as s'') : Trace step ok s (a :: as) s''

/-- A simulation that takes the same actions. -/
theorem Trace.lockstep {step₂ : τ → α → Option τ} {ok₂ : τ → α → Prop}
    (R : σ → τ → Prop) (hsim : ∀ s t a s', R s t → ok s a → step s a = some s' →
      ∃ t', ok₂ t a ∧ step₂ t a = some t' ∧ R s' t')
    (h : Trace step ok s as s') {t : τ} (hR : R s t) : ∃ t', Trace step₂ ok₂ t as t' ∧ R s' t' := by
  induction h generalizing t with
  | nil => exact ⟨t, .nil, hR⟩
  | cons h1 h2 _ ih =>
    obtain ⟨t₁, hok, hstep, hR₁⟩ := hsim _ t _ _ hR h1 h2
    obtain ⟨t', htrace, hR'⟩ := ih hR₁
    exact ⟨t', .cons hok hstep htrace, hR'⟩

end VibeKanban.Lib

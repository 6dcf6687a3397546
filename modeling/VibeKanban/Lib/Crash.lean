import Mathlib

/-!
# Programs that may crash or fail

A crash stops a program between two operations, or in the middle of one that is not atomic. An
operation may also fail; the program sees the error and goes on.

`wp R Q p s` is the weakest precondition: from `s` every end of `p` is one of `Q`, and every state
that a crash leaves is one of `R` (`wp_sound`).
-/

namespace VibeKanban.Lib

/-- What an operation does, how else it may fail, and what a crash in the middle of it leaves. -/
structure Operation (σ ε ρ : Type) where
  run : σ → Except ε ρ × σ
  fails : σ → ε → σ → Prop
  torn : σ → σ → Prop

inductive Program (σ ε α : Type) : Type 1
  | ret (a : α)
  | perform {ρ : Type} (op : Operation σ ε ρ) (next : Except ε ρ → Program σ ε α)

namespace Program

variable {σ ε α β : Type}

def bind : Program σ ε α → (α → Program σ ε β) → Program σ ε β
  | ret a, f => f a
  | perform op next, f => perform op fun r => (next r).bind f

instance : Monad (Program σ ε) where
  pure := ret
  bind := bind

def call {ρ : Type} (op : Operation σ ε ρ) : Program σ ε (Except ε ρ) := perform op ret

/-- The `?` of Rust: an error ends the program. -/
def andThen {δ : Type} (p : Program σ ε (Except δ α)) (f : α → Program σ ε (Except δ β)) :
    Program σ ε (Except δ β) :=
  p.bind fun
    | .ok a => f a
    | .error e => ret (.error e)

def mapError {δ δ' : Type} (f : δ → δ') (p : Program σ ε (Except δ α)) :
    Program σ ε (Except δ' α) := p.bind fun r => ret (r.mapError f)

/-! ## Runs -/

/-- A run in which nothing fails that need not. -/
def run : Program σ ε α → σ → α × σ
  | ret a, s => (a, s)
  | perform op next, s => (next (op.run s).1).run (op.run s).2

/-- The state after so many operations, of which none fails that need not. -/
def runFor : ℕ → Program σ ε α → σ → σ
  | n + 1, perform op next, s => runFor n (next (op.run s).1) (op.run s).2
  | _, _, s => s

inductive Ends : Program σ ε α → σ → α → σ → Prop
  | ret {a : α} {s : σ} : Ends (ret a) s a s
  | step {ρ : Type} {op : Operation σ ε ρ} {next : Except ε ρ → Program σ ε α} {s s' : σ} {a : α}
    (h : Ends (next (op.run s).1) (op.run s).2 a s') : Ends (perform op next) s a s'
  | fail {ρ : Type} {op : Operation σ ε ρ} {next : Except ε ρ → Program σ ε α} {s s₁ s' : σ}
    {a : α} {e : ε} (hfails : op.fails s e s₁) (h : Ends (next (.error e)) s₁ a s') :
    Ends (perform op next) s a s'

inductive Crashes : Program σ ε α → σ → σ → Prop
  | here {p : Program σ ε α} {s : σ} : Crashes p s s
  | torn {ρ : Type} {op : Operation σ ε ρ} {next : Except ε ρ → Program σ ε α} {s s' : σ}
    (h : op.torn s s') : Crashes (perform op next) s s'
  | step {ρ : Type} {op : Operation σ ε ρ} {next : Except ε ρ → Program σ ε α} {s s' : σ}
    (h : Crashes (next (op.run s).1) (op.run s).2 s') : Crashes (perform op next) s s'
  | fail {ρ : Type} {op : Operation σ ε ρ} {next : Except ε ρ → Program σ ε α} {s s₁ s' : σ}
    {e : ε} (hfails : op.fails s e s₁) (h : Crashes (next (.error e)) s₁ s') :
    Crashes (perform op next) s s'

variable {p : Program σ ε α} {s s' : σ} {a : α}

theorem ends_run (p : Program σ ε α) (s : σ) : Ends p s (p.run s).1 (p.run s).2 := by
  induction p generalizing s with
  | ret a => exact .ret
  | perform op next ih => exact .step (ih _ _)

theorem crashes_runFor (n : ℕ) (p : Program σ ε α) (s : σ) : Crashes p s (p.runFor n s) := by
  induction n generalizing p s with
  | zero => exact .here
  | succ n ih =>
    cases p with
    | ret a => exact .here
    | perform op next => exact .step (ih _ _)

/-! ## Weakest preconditions -/

def wp (R : σ → Prop) (Q : α → σ → Prop) : Program σ ε α → σ → Prop
  | ret a, s => R s ∧ Q a s
  | perform op next, s => R s ∧ (∀ s', op.torn s s' → R s') ∧
    (next (op.run s).1).wp R Q (op.run s).2 ∧
    ∀ e s', op.fails s e s' → (next (.error e)).wp R Q s'

variable {R R' : σ → Prop} {Q Q' : α → σ → Prop}

theorem wp_crash_here (h : p.wp R Q s) : R s := by cases p <;> exact h.1

theorem wp_mono (hR : ∀ s, R s → R' s) (hQ : ∀ a s, Q a s → Q' a s) (h : p.wp R Q s) :
    p.wp R' Q' s := by
  induction p generalizing s with
  | ret a => exact ⟨hR _ h.1, hQ _ _ h.2⟩
  | perform op next ih =>
    obtain ⟨hhere, htorn, hstep, hfail⟩ := h
    exact ⟨hR _ hhere, fun s' ht => hR _ (htorn s' ht), ih _ hstep,
      fun e s' hf => ih _ (hfail e s' hf)⟩

theorem wp_pure (hR : R s) (hQ : Q a s) : (Pure.pure a : Program σ ε α).wp R Q s := ⟨hR, hQ⟩

/-- First the one program, then the other. -/
theorem wp_bind {f : α → Program σ ε β} {Q : β → σ → Prop}
    (h : p.wp R (fun a s => (f a).wp R Q s) s) : (p >>= f).wp R Q s := by
  show (p.bind f).wp R Q s
  induction p generalizing s with
  | ret a => exact h.2
  | perform op next ih =>
    obtain ⟨hhere, htorn, hstep, hfail⟩ := h
    exact ⟨hhere, htorn, ih _ hstep, fun e s' hf => ih _ (hfail e s' hf)⟩

/-- What holds at every crash also holds at the end. -/
theorem wp_and (h : p.wp R Q s) : p.wp R (fun a s => R s ∧ Q a s) s := by
  induction p generalizing s with
  | ret a => exact ⟨h.1, h.1, h.2⟩
  | perform op next ih =>
    obtain ⟨hhere, htorn, hstep, hfail⟩ := h
    exact ⟨hhere, htorn, ih _ hstep, fun e s' hf => ih _ (hfail e s' hf)⟩

theorem wp_andThen {δ : Type} {p : Program σ ε (Except δ α)}
    {f : α → Program σ ε (Except δ β)} {Q : Except δ β → σ → Prop} {Q' : Except δ α → σ → Prop}
    (h : p.wp R Q' s) (hok : ∀ a s, Q' (.ok a) s → (f a).wp R Q s)
    (herror : ∀ e s, Q' (.error e) s → Q (.error e) s) : (andThen p f).wp R Q s := by
  refine wp_bind (wp_mono (fun _ hR => hR) (fun r s' hr => ?_) (wp_and h))
  cases r with
  | ok a => exact hok a s' hr.2
  | error e => exact ⟨hr.1, herror e s' hr.2⟩

theorem wp_mapError {δ δ' : Type} {f : δ → δ'} {p : Program σ ε (Except δ α)}
    {Q : Except δ' α → σ → Prop} (h : p.wp R (fun r s => Q (r.mapError f) s) s) :
    (mapError f p).wp R Q s :=
  wp_bind (wp_mono (fun _ hR => hR) (fun _ _ hr => hr) (wp_and h))

/-- One operation, whose crashes are its torn states. -/
theorem wp_call {ρ : Type} {op : Operation σ ε ρ} {Q : Except ε ρ → σ → Prop} (hhere : R s)
    (htorn : ∀ s', op.torn s s' → R s') (hrun : R (op.run s).2 ∧ Q (op.run s).1 (op.run s).2)
    (hfail : ∀ e s', op.fails s e s' → R s' ∧ Q (.error e) s') : (call op).wp R Q s :=
  ⟨hhere, htorn, hrun, hfail⟩

theorem wp_sound (h : p.wp R Q s) :
    (∀ a s', p.Ends s a s' → Q a s') ∧ ∀ s', p.Crashes s s' → R s' := by
  constructor
  · intro a s' hends
    induction hends with
    | ret => exact h.2
    | step _ ih => exact ih h.2.2.1
    | fail hfails _ ih => exact ih (h.2.2.2 _ _ hfails)
  · intro s' hcrashes
    induction hcrashes with
    | here => exact wp_crash_here h
    | torn ht => exact h.2.1 _ ht
    | step _ ih => exact ih h.2.2.1
    | fail hfails _ ih => exact ih (h.2.2.2 _ _ hfails)

end Program

end VibeKanban.Lib

import Mathlib

/-!
# Replicas of a keyed store

A replica subscribes to a feed of messages, reads a snapshot of the store later, and applies the
messages that came since it subscribed, in their order. A message leaves a key alone or says what
the key holds from now on. `view_of_drained`: what a replica shows in the end.
-/

namespace VibeKanban.Lib

variable {κ ν μ : Type*}

structure Replica (κ ν μ : Type*) where
  /-- What the replica holds; none before its snapshot. -/
  view : Option (κ → Option ν)
  /-- The messages received and not yet applied. -/
  queue : List μ

namespace Replica

/-! ## Operations -/

section Operations

variable (effect : μ → κ → Option (Option ν))

/-- A replica that has just subscribed. -/
def subscribed : Replica κ ν μ := ⟨none, []⟩

def receive (r : Replica κ ν μ) (m : μ) : Replica κ ν μ := { r with queue := r.queue ++ [m] }

def snapshot (r : Replica κ ν μ) (rows : κ → Option ν) : Replica κ ν μ :=
  { r with view := some rows }

/-- What is held after a message. -/
def applied (m : μ) (held : κ → Option ν) : κ → Option ν := fun k => (effect m k).getD (held k)

/-- Applies the first queued message. -/
def deliver (r : Replica κ ν μ) : Option (Replica κ ν μ) :=
  match r.view, r.queue with
  | some held, m :: queue => some ⟨some (applied effect m held), queue⟩
  | _, _ => none

/-- Changes what is held at one key, if anything is. -/
def amend [DecidableEq κ] (r : Replica κ ν μ) (k : κ) (f : ν → ν) : Replica κ ν μ :=
  { r with view := r.view.map fun held k' => if k' = k then (held k').map f else held k' }

/-- What the last message of a queue that writes a key writes. -/
def latest : List μ → κ → Option (Option ν)
  | [], _ => none
  | m :: queue, k => (latest queue k).or (effect m k)

/-- What a key will hold once the queue is drained; none as long as the snapshot is to decide. -/
def outcome (r : Replica κ ν μ) (k : κ) : Option (Option ν) :=
  (latest effect r.queue k).or (r.view.map fun held => held k)

end Operations

/-! ## Outcomes -/

variable {effect : μ → κ → Option (Option ν)} {r r' : Replica κ ν μ} {k : κ} {m : μ}

theorem latest_concat (queue : List μ) :
    latest effect (queue ++ [m]) k = (effect m k).or (latest effect queue k) := by
  induction queue with
  | nil => simp [latest]
  | cons m' queue ih =>
    show (latest effect (queue ++ [m]) k).or (effect m' k) = _
    rw [ih, Option.or_assoc]
    rfl

theorem outcome_subscribed : outcome effect (subscribed : Replica κ ν μ) k = none := by
  simp [outcome, latest, subscribed]

theorem outcome_receive :
    outcome effect (r.receive m) k = (effect m k).or (outcome effect r k) := by
  show (latest effect (r.queue ++ [m]) k).or _ = _
  rw [latest_concat, Option.or_assoc]
  rfl

theorem outcome_deliver (h : r.deliver effect = some r') :
    outcome effect r' k = outcome effect r k := by
  obtain ⟨view, queue⟩ := r
  match view, queue with
  | none, _ => cases h
  | some _, [] => cases h
  | some held, m :: queue =>
    cases h
    show (latest effect queue k).or (some ((effect m k).getD (held k)))
      = ((latest effect queue k).or (effect m k)).or (some (held k))
    rw [Option.or_assoc]
    cases effect m k <;> rfl

/-- A snapshot decides the keys that no queued message writes. -/
theorem outcome_snapshot (h : r.view = none) (rows : κ → Option ν) :
    outcome effect (r.snapshot rows) k = some ((outcome effect r k).getD (rows k)) := by
  show (latest effect r.queue k).or (some (rows k)) = some (((latest effect r.queue k).or _).getD _)
  rw [h]
  cases latest effect r.queue k <;> rfl

theorem outcome_amend [DecidableEq κ] {k' : κ} {f : ν → ν} {v : Option ν}
    (h : outcome effect (r.amend k' f) k = some v) :
    outcome effect r k = some v ∨ k = k' ∧ ∃ w, outcome effect r k = some w ∧ v = w.map f := by
  obtain ⟨view, queue⟩ := r
  replace h : (latest effect queue k).or ((view.map _).map _) = some v := h
  show (latest effect queue k).or _ = _ ∨ k = k' ∧ ∃ w, (latest effect queue k).or _ = some w ∧ _
  cases hl : latest effect queue k with
  | some w =>
    rw [hl] at h
    exact .inl h
  | none =>
    rw [hl, Option.none_or] at h
    cases view with
    | none => cases h
    | some held =>
      by_cases hk : k = k'
      · refine .inr ⟨hk, held k, rfl, ?_⟩
        cases h
        exact if_pos hk
      · refine .inl ?_
        rw [← h]
        exact congrArg some (if_neg hk).symm

/-- A drained replica holds its outcome. -/
theorem view_of_drained {held : κ → Option ν} (hview : r.view = some held)
    (hqueue : r.queue = []) : outcome effect r k = some (held k) := by
  simp [outcome, latest, hview, hqueue]

end Replica

end VibeKanban.Lib

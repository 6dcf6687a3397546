import VibeKanban.Worker.Coherence

/-!
# The lifecycle of a worker job

`run_job`, `cancel`, `reap_if_silent` and `quarantine` write the state without one common guard, so
the argument goes through the journal: it accepts one terminal event, and the task that got its
event in owes the matching write.

* `terminal_job_not_revived`: a job that has ended stays so, where each call is one step.
* `journal_and_state_agree_at_rest`: journal and state agree between the calls.
-/

namespace VibeKanban.Worker

open Cluster Lib Option WorkerJob

/-- A `cancel` request is about to write `Cancelling` or `Indeterminate`. -/
def CancellationLock.writes : CancellationLock → Bool
  | .cancel (.writing _) | .cancel .writingIndeterminate => true
  | _ => false

def Action.isCancel : Action → Bool
  | .cancel _ _ => true
  | _ => false

/-- A `cancel` request that has appended `Killed` is dropped before it has written the state. -/
def CancellationLock.abandonedBy : CancellationLock → Action → Bool
  | .cancel (.writingKilled _), .dropCancel => true
  | _, _ => false

/-- `run_job` is outside of `transition`, of the hand-over and of the finish functions. -/
def RunPc.atRest : RunPc → Bool
  | .accepted | .starting | .spawned _ | .running | .closing | .done => true
  | .writingStarting | .handingOver _ | .finishing _ => false

def ReaperPc.atRest : ReaperPc → Bool
  | .unarmed | .sleeping _ | .done => true
  | .locked _ | .inspecting _ | .finishing _ => false

namespace Execution

variable {s s' : Execution} {now : Timestamp} {e : TerminalEvidence} {a : Action}

/-! ## What a step does to the state -/

/-- The writes of the state, each with the position of the task that performs it. -/
inductive Writes (s : Execution) : Action → JobState → Prop
  | starting : s.run = .writingStarting → Writes s .writeStarting .starting
  | running (child : Child) : s.run = .handingOver child → Writes s .writeRunning .running
  | cancelling (stage : CancelStage) (now : Timestamp) (fails : Bool) :
      s.cancellation = .cancel (.writing stage) → Writes s (.cancel now fails) .cancelling
  | indeterminate (now : Timestamp) (fails : Bool) :
      s.cancellation = .cancel .writingIndeterminate → Writes s (.cancel now fails) .indeterminate
  | killed (e : TerminalEvidence) (now : Timestamp) (fails : Bool) :
      s.cancellation = .cancel (.writingKilled e) → Writes s (.cancel now fails) .killed
  | finished (who : Finisher) (e : TerminalEvidence) (now : Timestamp) :
      s.Pending e → Writes s (.finish who now) e.state.jobState
  | quarantined : Writes s .quarantine .quarantined

/-- A step without a write: the terminal evidence stays, or a task appends it and owes the
    write; whoever owed a write still does. -/
structure Quiet (s s' : Execution) : Prop where
  state : s'.job.state = s.job.state
  terminal : s'.job.journal.terminal = s.job.journal.terminal ∨
    ∃ e, s.job.journal.terminal = none ∧ s'.job.journal.terminal = some e ∧ s'.Pending e
  pending : ∀ e, s.Pending e → s'.Pending e

/-- A step with a write of `st`: whoever owed a write still does, or has just paid it. -/
structure Wrote (s : Execution) (a : Action) (s' : Execution) (st : JobState) : Prop where
  writes : s.Writes a st
  state : s'.job.state = st
  terminal : s'.job.journal.terminal = s.job.journal.terminal
  pending : ∀ e, s.Pending e → s'.Pending e ∨ st = e.state.jobState

theorem pending_of_kept {e : TerminalEvidence} (h : s.Pending e)
    (hrun : s.run = .finishing (.writing e) → s'.run = s.run)
    (hreaper : s.reaper = .finishing (.writing e) → s'.reaper = s.reaper)
    (hlock : s.cancellation = .cancel (.writingKilled e) → s'.cancellation = s.cancellation) :
    s'.Pending e := by
  rcases h with h | h | h
  · exact .inl (by rw [hrun h, h])
  · exact .inr (.inl (by rw [hreaper h, h]))
  · exact .inr (.inr (by rw [hlock h, h]))

theorem Coherent.pending_unique {e e' : TerminalEvidence} (h : s.Coherent) (he : s.Pending e)
    (he' : s.Pending e') : e = e' :=
  Option.some.inj ((h.pending e he).symm.trans (h.pending e' he'))

theorem Quiet.of_kept (hstate : s'.job.state = s.job.state)
    (hterm : s'.job.journal.terminal = s.job.journal.terminal)
    (hrun : ∀ e, s.run = .finishing (.writing e) → s'.run = s.run)
    (hreaper : ∀ e, s.reaper = .finishing (.writing e) → s'.reaper = s.reaper)
    (hlock : ∀ e, s.cancellation = .cancel (.writingKilled e) →
      s'.cancellation = s.cancellation) : s.Quiet s' :=
  ⟨hstate, .inl hterm, fun e he => pending_of_kept he (hrun e) (hreaper e) (hlock e)⟩

theorem Quiet.of_append (h : s.Coherent) (hstate : s'.job.state = s.job.state)
    (hterm : s.job.journal.terminal = none) (hterm' : s'.job.journal.terminal = some e)
    (hpending : s'.Pending e) : s.Quiet s' :=
  ⟨hstate, .inr ⟨e, hterm, hterm', hpending⟩,
    fun e' he' => (not_pending_of_open h hterm e' he').elim⟩

theorem quiet_setStarting (h1 : s.setStarting now = some s') (h : s.Coherent) : s.Quiet s' := by
  unfold setStarting at h1
  split_ifs at h1 with hr
  have hterm := (h.early (by simp [hr, RunPc.early])).2
  have hpending := fun e => not_pending_of_open h hterm e
  split at h1
  · rename_i hj
    obtain ⟨-, ht', hs, -⟩ := append_eq_some hj
    cases h1
    exact ⟨hs, .inl (by rw [hterm, ht']; rfl), fun e he => (hpending e he).elim⟩
  · cases h1
    exact ⟨rfl, .inl rfl, fun e he => (hpending e he).elim⟩

theorem wrote_writeStarting (h1 : s.writeStarting = some s') (h : s.Coherent) :
    s.Wrote .writeStarting s' .starting := by
  unfold writeStarting at h1
  split_ifs at h1 with hr
  have hterm := (h.early (by simp [hr, RunPc.early])).2
  cases h1
  exact ⟨.starting hr, rfl, rfl, fun e he => (not_pending_of_open h hterm e he).elim⟩

theorem quiet_spawned {result : Except String Child} (h1 : s.spawned result = some s') :
    s.Quiet s' := by
  unfold spawned at h1
  split_ifs at h1 with hr
  split at h1 <;> cases h1 <;>
    exact Quiet.of_kept rfl rfl (by simp [hr]) (fun _ _ => rfl) (fun _ _ => rfl)

theorem quiet_handOff (h1 : s.handOff = some s') : s.Quiet s' := by
  unfold handOff at h1
  split at h1
  · rename_i hr hlock
    split_ifs at h1 <;> cases h1
    · exact Quiet.of_kept rfl rfl (by simp [hr]) (fun _ _ => rfl) (fun _ _ => rfl)
    · exact Quiet.of_kept rfl rfl (by simp [hr]) (fun _ _ => rfl) (by simp [hlock])
  · cases h1

theorem wrote_writeRunning (h1 : s.writeRunning = some s') (h : s.Coherent) :
    s.Wrote .writeRunning s' .running := by
  unfold writeRunning at h1
  split at h1
  · rename_i child hr
    have hterm := (h.early (by simp [hr, RunPc.early])).2
    cases h1
    exact ⟨.running child hr, rfl, rfl, fun e he => (not_pending_of_open h hterm e he).elim⟩
  · cases h1

theorem quiet_observe {outcome : RunOutcome} (h1 : s.observe outcome = some s') : s.Quiet s' := by
  unfold observe at h1
  rw [ite_none_right_eq_some] at h1
  obtain ⟨hr, h1⟩ := h1
  cases outcome with
  | signal result stopped | closed stopped | deadline stopped =>
    cases h1
    exact Quiet.of_kept (by simp) (by simp) (by simp [hr]) (fun _ _ => rfl) (fun _ _ => rfl)
  | waitFailed error =>
    simp only [ite_none_right_eq_some, some.injEq] at h1
    obtain ⟨-, rfl⟩ := h1
    exact Quiet.of_kept rfl rfl (by simp [hr]) (fun _ _ => rfl) (fun _ _ => rfl)
  | exited =>
    dsimp only at h1
    split at h1 <;> cases h1
    exact Quiet.of_kept rfl rfl (by simp [hr]) (fun _ _ => rfl) (fun _ _ => rfl)

theorem quiet_closed (h1 : s.closed = some s') : s.Quiet s' := by
  unfold closed at h1
  rw [ite_none_right_eq_some] at h1
  obtain ⟨hr, h1⟩ := h1
  cases h1
  exact Quiet.of_kept rfl rfl (by simp [hr]) (fun _ _ => rfl) (fun _ _ => rfl)

theorem quiet_or_wrote_finish {who : Finisher} (h1 : s.finish who now = some s')
    (h : s.Coherent) : s.Quiet s' ∨ ∃ st, s.Wrote (.finish who now) s' st := by
  cases who with simp only [finish] at h1
  | run =>
    split at h1
    · rename_i hr
      split at h1 <;> cases h1
      · rename_i hf
        left
        rcases finishStep_cases hf with ⟨h2, h3, -, h5, -⟩ | ⟨e, -, h2, h3, h4, h5, -⟩ |
          ⟨e, -, h2, -⟩
        · exact Quiet.of_kept h3 h2 (by simp [hr, h5]) (fun _ _ => rfl) (fun _ _ => rfl)
        · cases h2
          exact Quiet.of_append h h5 h3 h4 (.inl rfl)
        · cases h2
      · rename_i hf
        rcases finishStep_cases hf with ⟨h2, h3, -, h5, -⟩ | ⟨e, -, h2, -⟩ | ⟨e, rfl, -, rfl⟩
        · exact .inl (Quiet.of_kept h3 h2 (by simp [hr, h5]) (fun _ _ => rfl) (fun _ _ => rfl))
        · cases h2
        · refine .inr ⟨_, .finished .run e now (.inl hr), rfl, rfl, fun e' he' => .inr ?_⟩
          rw [h.pending_unique he' (.inl hr)]
    · cases h1
  | reaper =>
    split at h1
    · rename_i pc hr
      have hlock := (h.reaperFinishing pc hr).1
      split at h1 <;> cases h1
      · rename_i hf
        left
        rcases finishStep_cases hf with ⟨h2, h3, -, h5, -⟩ | ⟨e, -, h2, h3, h4, h5, -⟩ |
          ⟨e, -, h2, -⟩
        · exact Quiet.of_kept h3 h2 (fun _ _ => rfl) (by simp [hr, h5]) (fun _ _ => rfl)
        · cases h2
          exact Quiet.of_append h h5 h3 h4 (.inr (.inl rfl))
        · cases h2
      · rename_i hf
        rcases finishStep_cases hf with ⟨h2, h3, -, h5, -⟩ | ⟨e, -, h2, -⟩ | ⟨e, rfl, -, rfl⟩
        · exact .inl (Quiet.of_kept h3 h2 (fun _ _ => rfl) (by simp [hr, h5]) (by simp [hlock]))
        · cases h2
        · refine .inr ⟨_, .finished .reaper e now (.inr (.inl hr)), rfl, rfl, fun e' he' => .inr ?_⟩
          rw [h.pending_unique he' (.inr (.inl hr))]
    · cases h1

theorem quiet_or_wrote_cancel {fails : Bool} (h1 : s.cancel now fails = some s')
    (h : s.Coherent) : s.Quiet s' ∨ ∃ st, s.Wrote (.cancel now fails) s' st := by
  cases hlock : s.cancellation with
  | cancel pc =>
    simp only [cancel, hlock] at h1
    cases pc with dsimp only at h1
    | checking | signalling =>
      split_ifs at h1 <;> cases h1 <;>
        exact .inl (Quiet.of_kept rfl rfl (fun _ _ => rfl) (fun _ _ => rfl) (by simp [hlock]))
    | appending | appendingIndeterminate =>
      left
      split at h1
      · rename_i hj
        obtain ⟨ht, ht', hs, -⟩ := append_eq_some hj
        cases h1
        exact Quiet.of_kept hs (by rw [ht, ht']; rfl) (fun _ _ => rfl) (fun _ _ => rfl)
          (by simp [hlock])
      · cases h1
        exact Quiet.of_kept rfl rfl (fun _ _ => rfl) (fun _ _ => rfl) (by simp [hlock])
    | writing stage =>
      cases h1
      exact .inr ⟨_, .cancelling stage now fails hlock, rfl, rfl, fun e he =>
        .inl (pending_of_kept he (fun _ => rfl) (fun _ => rfl) (by simp [hlock]))⟩
    | waiting =>
      left
      repeat' split at h1
      all_goals
        cases h1
        exact Quiet.of_kept rfl rfl (fun _ _ => rfl) (fun _ _ => rfl) (by simp [hlock])
    | confirming =>
      left
      split at h1
      · rename_i hj
        obtain ⟨ht, ht', hs, -⟩ := append_eq_some hj
        cases h1
        exact Quiet.of_append h hs ht ht' (.inr (.inr rfl))
      · cases h1
        exact Quiet.of_kept rfl rfl (fun _ _ => rfl) (fun _ _ => rfl) (by simp [hlock])
    | writingKilled e =>
      have hkilled := (h.killed e hlock).2
      cases h1
      refine .inr ⟨_, .killed e now fails hlock, rfl, rfl, fun e' he' => .inr ?_⟩
      rw [h.pending_unique he' (.inr (.inr hlock)), hkilled]
      rfl
    | writingIndeterminate =>
      cases h1
      exact .inr ⟨_, .indeterminate now fails hlock, rfl, rfl, fun e he =>
        .inl (pending_of_kept he (fun _ => rfl) (fun _ => rfl) (by simp [hlock]))⟩
  | _ => simp [cancel, hlock] at h1

theorem quiet_reap (h1 : s.reap now = some s') (h : s.Coherent) : s.Quiet s' := by
  unfold reap at h1
  split at h1
  · rename_i hr
    split_ifs at h1 with hlock
    cases h1
    exact Quiet.of_kept rfl rfl (fun _ _ => rfl) (by simp [hr]) (by simp [hlock])
  · rename_i r hr
    have hlock := h.reaperLocked r (.inl hr)
    split_ifs at h1 <;> cases h1 <;>
      exact Quiet.of_kept rfl rfl (fun _ _ => rfl) (by simp [hr]) (by simp [hlock])
  · rename_i r hr
    have hlock := h.reaperLocked r (.inr hr)
    split_ifs at h1 <;> cases h1
    · exact Quiet.of_kept rfl rfl (fun _ _ => rfl) (by simp [hr]) (by simp [hlock])
    · exact Quiet.of_kept rfl (terminal_emit rfl) (fun _ _ => rfl) (by simp [hr])
        (by simp [hlock])
    all_goals exact Quiet.of_kept rfl rfl (fun _ _ => rfl) (by simp [hr]) (by simp [hlock])
  · cases h1

theorem quiet_dropCancel (h1 : s.dropCancel = some s')
    (hdrop : s.cancellation.abandonedBy .dropCancel = false) : s.Quiet s' := by
  unfold dropCancel at h1
  split at h1 <;> cases h1
  refine Quiet.of_kept rfl rfl (fun _ _ => rfl) (fun _ _ => rfl) fun e he => ?_
  rw [he] at hdrop
  cases hdrop

theorem quiet_or_wrote (h : s.Coherent) (hdrop : s.cancellation.abandonedBy a = false)
    (h1 : s.step a = some s') : s.Quiet s' ∨ ∃ st, s.Wrote a s' st := by
  cases a with
  | setStarting now => exact .inl (quiet_setStarting h1 h)
  | writeStarting => exact .inr ⟨_, wrote_writeStarting h1 h⟩
  | spawned result => exact .inl (quiet_spawned h1)
  | handOff => exact .inl (quiet_handOff h1)
  | writeRunning => exact .inr ⟨_, wrote_writeRunning h1 h⟩
  | observe outcome => exact .inl (quiet_observe h1)
  | closed => exact .inl (quiet_closed h1)
  | finish who now => exact quiet_or_wrote_finish h1 h
  | lockCancel =>
    simp only [step] at h1
    split_ifs at h1 with hlock
    cases h1
    exact .inl (Quiet.of_kept rfl rfl (fun _ _ => rfl) (fun _ _ => rfl) (by simp [hlock]))
  | cancel now fails => exact quiet_or_wrote_cancel h1 h
  | dropCancel => exact .inl (quiet_dropCancel h1 hdrop)
  | reap now => exact .inl (quiet_reap h1 h)
  | quarantine =>
    cases h1
    exact .inr ⟨_, .quarantined, rfl, rfl, fun e he => .inl he⟩
  | emit now payload =>
    simp only [step] at h1
    split_ifs at h1 with hp
    cases h1
    exact .inl ⟨rfl, .inl (terminal_emit hp), fun e he => he⟩
  | output now stderr data =>
    cases h1
    refine .inl ⟨rfl, .inl (terminal_emit ?_), fun e he => he⟩
    split_ifs <;> rfl
  | streamError now error =>
    cases h1
    exact .inl ⟨rfl, .inl (terminal_emit rfl), fun e he => he⟩
  | childChanges child =>
    simp only [step, childChanges] at h1
    split at h1 <;> cases h1
    exact .inl ⟨rfl, .inl rfl, fun e he => he⟩
  | quiesce owner =>
    cases h1
    exact .inl ⟨rfl, .inl rfl, fun e he => he⟩

/-! ## Journal and state -/

/-- The state matches the terminal evidence in the journal, up to a quarantine and up to a
    write that is still owed. -/
def Agrees (s : Execution) : Prop :=
  ∀ e, s.job.journal.terminal = some e →
    s.job.state = e.state.jobState ∨ s.job.state = .quarantined ∨ s.Pending e

/-- The step is not a cancellation's write of `Cancelling` or `Indeterminate` that lands after
    the job's end has been recorded and its state written, and does not drop a cancellation between
    its event `Killed` and the write of the state. -/
def NoStaleWrite (s : Execution) (a : Action) : Prop :=
  (a.isCancel = true → s.cancellation.writes = true →
      ∀ e ∈ s.job.journal.terminal, s.Pending e) ∧ s.cancellation.abandonedBy a = false
  deriving Decidable

theorem agrees_step (hc : s.Coherent) (ha : s.Agrees) (hok : s.NoStaleWrite a)
    (h1 : s.step a = some s') : s'.Agrees := by
  intro e he
  rcases quiet_or_wrote hc hok.2 h1 with hq | ⟨st, hw⟩
  · rcases hq.terminal with ht | ⟨e', -, ht, hp⟩
    · rw [hq.state]
      rcases ha e (ht ▸ he) with h2 | h2 | h2
      · exact .inl h2
      · exact .inr (.inl h2)
      · exact .inr (.inr (hq.pending e h2))
    · rw [ht] at he
      cases he
      exact .inr (.inr hp)
  · rw [hw.state]
    have he' : s.job.journal.terminal = some e := hw.terminal ▸ he
    have howed : s.Pending e → st = e.state.jobState ∨ s'.Pending e :=
      fun hp => (hw.pending e hp).symm
    cases hw.writes with
    | starting hr | running child hr =>
      have ht := (hc.early (by simp [hr, RunPc.early])).2
      rw [he'] at ht
      cases ht
    | cancelling stage now fails hlock | indeterminate now fails hlock =>
      have hp : s.Pending e := hok.1 rfl (by rw [hlock]; rfl) e he'
      exact (howed hp).imp id .inr
    | killed e₀ now fails hlock =>
      have ht := hc.pending e₀ (.inr (.inr hlock))
      rw [he'] at ht
      cases ht
      rw [(hc.killed e hlock).2]
      exact .inl rfl
    | finished who e₀ now hp =>
      have ht := hc.pending e₀ hp
      rw [he'] at ht
      cases ht
      exact .inl rfl
    | quarantined => exact .inr (.inl rfl)

/-- No transition, finish, cancellation, hand-over or reaping is in flight. -/
def AtRest (s : Execution) : Prop :=
  s.cancellation = .free ∧ s.run.atRest = true ∧ s.reaper.atRest = true

instance (s : Execution) : Decidable s.AtRest := inferInstanceAs (Decidable (_ ∧ _ ∧ _))

theorem not_pending_of_atRest (h : s.AtRest) (e : TerminalEvidence) : ¬ s.Pending e := by
  obtain ⟨hlock, hrun, hreaper⟩ := h
  rintro (hp | hp | hp)
  · simp [hp, RunPc.atRest] at hrun
  · simp [hp, ReaperPc.atRest] at hreaper
  · simp [hp] at hlock

/-- In every run without such a write and such a drop of a cancellation, whenever
    no task is in the middle of a call and the journal holds terminal evidence, the state is the
    one it announces or `Quarantined`, and only a child that has not been seen to exit keeps the job
    active for a drain. -/
theorem journal_and_state_agree_at_rest
    (h : Reachable step NoStaleWrite (fun s => s.Started ∧ s.Agrees) s) (hrest : s.AtRest)
    (he : s.job.journal.terminal = some e) :
    (s.job.state = e.state.jobState ∨ s.job.state = .quarantined) ∧
      (s.job.isActiveForDrain = false ↔
        s.job.child = none ∨ ∃ status, s.job.child = some (.exited status)) := by
  have hinv : s.Coherent ∧ s.Agrees :=
    Reachable.invariant (P := fun s => s.Coherent ∧ s.Agrees) h
      (fun s hs => ⟨coherent_of_started hs.1, hs.2⟩)
      fun s a s' hi hok h1 => ⟨coherent_step hi.1 h1, agrees_step hi.1 hi.2 hok h1⟩
  have hstate : s.job.state = e.state.jobState ∨ s.job.state = .quarantined := by
    rcases hinv.2 e he with h1 | h1 | h1
    · exact .inl h1
    · exact .inr h1
    · exact absurd h1 (not_pending_of_atRest hrest e)
  refine ⟨hstate, isActiveForDrain_eq_false ?_⟩
  rcases hstate with h1 | h1 <;> rw [h1]
  · exact TerminalState.isTerminal_jobState _
  · rfl

/-! ## Calls as single steps -/

end Execution

inductive Task where
  | run
  | cancel
  | reaper
  deriving DecidableEq

def Action.task : Action → Option Task
  | .setStarting _ | .writeStarting | .spawned _ | .handOff | .writeRunning | .observe _
  | .closed | .finish .run _ => some .run
  | .cancel _ _ => some .cancel
  | .reap _ | .finish .reaper _ => some .reaper
  | _ => none

/-- Inside a finish function, once it holds its claim. -/
def FinishPc.inCall : FinishPc → Bool
  | .waiting _ => false
  | .claimed _ | .appending _ | .writing _ => true

/-- Inside `set_state` or a finish function. -/
def RunPc.inCall : RunPc → Bool
  | .writingStarting => true
  | .finishing pc => pc.inCall
  | _ => false

/-- Inside `transition`. -/
def CancellationLock.inCall : CancellationLock → Bool
  | .cancel (.writing _) | .cancel (.writingKilled _) | .cancel .writingIndeterminate => true
  | _ => false

/-- Inside `finish_failed`. -/
def ReaperPc.inCall : ReaperPc → Bool
  | .finishing pc => pc.inCall
  | _ => false

namespace Execution

variable {s s' : Execution} {now : Timestamp} {e : TerminalEvidence}
  {ok : Execution → Action → Prop} {d : Dispatch} {capacity : ℕ} {stall : Option String}
  {as : List Action}

/-- Each call of `set_state`, `transition` or a finish function is one step: no other task
    moves while one is inside. -/
def CallAtomic (s : Execution) (a : Action) : Prop :=
  (s.run.inCall = true → a.task = some .run) ∧
    (s.cancellation.inCall = true → a.task = some .cancel) ∧
    (s.reaper.inCall = true → a.task = some .reaper)
  deriving Decidable

theorem CallAtomic.not_abandoned {a : Action} (h : s.CallAtomic a) :
    s.cancellation.abandonedBy a = false := by
  unfold CancellationLock.abandonedBy
  split
  · rename_i hlock
    cases h.2.1 (by rw [hlock]; rfl)
  · rfl

/-- The invariant of runs whose calls are single steps. -/
structure Settled (s : Execution) : Prop where
  coherent : s.Coherent
  writes : s.cancellation.writes = true → s.job.journal.terminal = none
  recorded : s.job.state.isTerminal = true → s.job.journal.terminal ≠ none ∨
    s.job.state = .quarantined ∨ s.job.state = .indeterminate

/-- Only a `cancel` request moves the mutex to a position that owes `Cancelling` or
    `Indeterminate`. -/
theorem writes_eq_false_of_not_cancel {a : Action} (ha : a.isCancel = false)
    (h1 : s.step a = some s') (hw : s.cancellation.writes = false) :
    s'.cancellation.writes = false := by
  cases a with
  | cancel now fails => cases ha
  | quarantine | output now stderr data | streamError now error | quiesce owner =>
    cases h1
    exact hw
  | _ =>
    simp only [step, setStarting, writeStarting, spawned, handOff, writeRunning, observe, closed,
      finish, reap, childChanges, dropCancel] at h1
    repeat' split at h1
    all_goals cases h1
    all_goals first
      | exact hw
      | rfl

/-- A `cancel` request comes to owe a write by appending an event that ends nothing. -/
theorem terminal_of_cancel_writes {fails : Bool} (h1 : s.cancel now fails = some s')
    (hw : s'.cancellation.writes = true) : s'.job.journal.terminal = none := by
  unfold cancel at h1
  dsimp only at h1
  repeat' split at h1
  all_goals cases h1
  all_goals first
    | exact (append_eq_some ‹_›).2.1
    | cases hw
    | cases ‹CancelStage› <;> cases hw

theorem settled_writes {a : Action} (hok : s.CallAtomic a)
    (h1 : s.step a = some s') (hw : s'.cancellation.writes = true) :
    s'.job.journal.terminal = none := by
  cases hc : a.isCancel with
  | true =>
    cases a with
    | cancel now fails => exact terminal_of_cancel_writes h1 hw
    | _ => cases hc
  | false =>
    -- the write that is owed belongs to a request that holds the mutex, so it moves next
    cases hw' : s.cancellation.writes with
    | true =>
      have hin : s.cancellation.inCall = true := by
        unfold CancellationLock.writes at hw'
        split at hw'
        · rename_i h2
          rw [h2]
          rfl
        · rename_i h2
          rw [h2]
          rfl
        · cases hw'
      have htask := hok.2.1 hin
      cases a with
      | cancel now fails => cases hc
      | finish who now => cases who <;> cases htask
      | _ => cases htask
    | false =>
      rw [writes_eq_false_of_not_cancel hc h1 hw'] at hw
      cases hw

theorem terminal_eq_none_of_writes {a : Action} {st : JobState} (hs : s.Settled)
    (hw : s.Writes a st) (hst : st.isTerminal = false ∨ st = .indeterminate) :
    s.job.journal.terminal = none := by
  cases hw with
  | starting hr | running child hr => exact (hs.coherent.early (by simp [hr, RunPc.early])).2
  | cancelling stage now fails hlock | indeterminate now fails hlock =>
      exact hs.writes (by simp [hlock, CancellationLock.writes])
  | killed e now fails hlock | quarantined => simp [JobState.isTerminal] at hst
  | finished who e now hp =>
    rcases hst with h | h
    · rw [TerminalState.isTerminal_jobState] at h
      cases h
    · cases he : e.state <;> simp [he, TerminalState.jobState] at h

theorem settled_step {a : Action} (hs : s.Settled) (hok : s.CallAtomic a)
    (h1 : s.step a = some s') : s'.Settled := by
  refine ⟨coherent_step hs.coherent h1, settled_writes hok h1, ?_⟩
  intro hterm
  rcases quiet_or_wrote hs.coherent hok.not_abandoned h1 with hq | ⟨st, hw⟩
  · rw [hq.state] at hterm ⊢
    rcases hq.terminal with ht | ⟨e, -, ht, -⟩ <;> rw [ht]
    · exact hs.recorded hterm
    · exact .inl (by simp)
  · rw [hw.state, hw.terminal]
    cases hw.writes with
    | starting hr | running child hr | cancelling stage now fails hlock =>
      rw [hw.state] at hterm
      cases hterm
    | indeterminate now fails hlock => exact .inr (.inr rfl)
    | killed e now fails hlock =>
      rw [hs.coherent.pending e (.inr (.inr hlock))]
      exact .inl (by simp)
    | finished who e now hp =>
      rw [hs.coherent.pending e hp]
      exact .inl (by simp)
    | quarantined => exact .inr (.inl rfl)

theorem settled_of_started (h : s.Started) : s.Settled := by
  refine ⟨coherent_of_started h, ?_, ?_⟩
  · have hlock : s.cancellation = .free := by
      rcases h with ⟨d, capacity, stall, now, h⟩ | ⟨summary, capacity, now, h⟩
      · exact (dispatch_eq_ok h).2.1
      · exact (rebuild_eq_ok h).2.1
    simp [hlock, CancellationLock.writes]
  · intro hterm
    rcases h with ⟨d, capacity, stall, now, h⟩ | ⟨summary, capacity, now, h⟩
    · rw [(dispatch_eq_ok h).2.2.2.1] at hterm
      cases hterm
    · left
      rw [EventJournal.terminal_recover (rebuild_eq_ok h).2.2.2.2]
      simp

theorem settled_of_reachable (h : Reachable step CallAtomic Started s) : s.Settled :=
  Reachable.invariant (P := Settled) h (fun _ => settled_of_started)
    fun _ _ _ hs hok h1 => settled_step hs hok h1

theorem isTerminal_runs (hs : s.Settled) (hterm : s.job.state.isTerminal = true)
    (he : s.job.journal.terminal ≠ none) (h : Runs step CallAtomic s s') :
    s'.job.state.isTerminal = true := by
  have hinv : s'.Settled ∧ s'.job.state.isTerminal = true ∧ s'.job.journal.terminal ≠ none := by
    refine Runs.preserves (P := fun s => s.Settled ∧ s.job.state.isTerminal = true ∧
      s.job.journal.terminal ≠ none) h ?_ ⟨hs, hterm, he⟩
    rintro s a s' ⟨hs, hterm, he⟩ hok h1
    refine ⟨settled_step hs hok h1, ?_⟩
    rcases quiet_or_wrote hs.coherent hok.not_abandoned h1 with hq | ⟨st, hw⟩
    · refine ⟨by rw [hq.state, hterm], ?_⟩
      rcases hq.terminal with ht | ⟨e, -, ht, -⟩ <;> rw [ht]
      · exact he
      · simp
    · rw [hw.state, hw.terminal]
      refine ⟨?_, he⟩
      by_contra hst
      exact he (terminal_eq_none_of_writes hs hw.writes (.inl (by simpa using hst)))
  exact hinv.2.1

/-- With every call of a task one step, on any run: a job that has ended
    with evidence is never moved to a state that is not terminal; and a job in a terminal state
    without evidence (`Quarantined`, `Indeterminate`) is moved out of it only by a
    cancellation's `Cancelling` or by the start-up writes of `run_job`. -/
theorem terminal_job_not_revived (h : Reachable step CallAtomic Started s)
    (hterm : s.job.state.isTerminal = true) : (s.job.journal.terminal ≠ none ∨
        s.job.state ≠ .quarantined ∧ s.job.state ≠ .indeterminate →
      ∀ s', Runs step CallAtomic s s' → s'.job.state.isTerminal = true) ∧
    ∀ a s', CallAtomic s a → s.step a = some s' → s'.job.state.isTerminal = false →
      s.job.journal.terminal = none ∧ (s.job.state = .quarantined ∨ s.job.state = .indeterminate) ∧
      (a.isCancel = true ∧ s'.job.state = .cancelling ∨
        a = .writeStarting ∧ s'.job.state = .starting ∨
        a = .writeRunning ∧ s'.job.state = .running) := by
  have hs := settled_of_reachable h
  constructor
  · intro hcase s' hr
    have he : s.job.journal.terminal ≠ none := by
      rcases hcase with he | ⟨h1, h2⟩
      · exact he
      · rcases hs.recorded hterm with he | h3 | h3
        · exact he
        · exact absurd h3 h1
        · exact absurd h3 h2
    exact isTerminal_runs hs hterm he hr
  · intro a s' hok h1 hst
    rcases quiet_or_wrote hs.coherent hok.not_abandoned h1 with hq | ⟨st, hw⟩
    · rw [hq.state, hterm] at hst
      cases hst
    · rw [hw.state] at hst
      have he := terminal_eq_none_of_writes hs hw.writes (.inl hst)
      refine ⟨he, ?_, ?_⟩
      · rcases hs.recorded hterm with h2 | h2
        · exact absurd he h2
        · exact h2
      · rw [hw.state]
        cases hw.writes with
        | starting hr => exact .inr (.inl ⟨rfl, rfl⟩)
        | running child hr => exact .inr (.inr ⟨rfl, rfl⟩)
        | cancelling stage now fails hlock => exact .inl ⟨rfl, rfl⟩
        | indeterminate now fails hlock => cases hst
        | killed e now fails hlock => cases hst
        | finished who e now hp =>
          rw [TerminalState.isTerminal_jobState] at hst
          cases hst
        | quarantined => cases hst

/-! ## Runs on concrete inputs -/

def runDispatched (ok : Execution → Action → Prop) [∀ s a, Decidable (ok s a)] (d : Dispatch)
    (capacity : ℕ) (startupStall : Option String) (as : List Action) : Option Execution :=
  match dispatch d capacity startupStall 0 with
  | .ok s => exec step ok s as
  | .error _ => none

section

variable [∀ s a, Decidable (ok s a)] (h : runDispatched ok d capacity stall as = some s)
include h

theorem reachable_runDispatched : Reachable step ok (fun s => s.Started ∧ s.Agrees) s := by
  unfold runDispatched at h
  split at h
  · rename_i h0
    refine reachable_of_exec ⟨.inl ⟨d, capacity, stall, 0, h0⟩, ?_⟩ h
    intro e he
    rw [(dispatch_eq_ok h0).2.2.2.2.2] at he
    cases he
  · cases h

theorem started_of_runDispatched : Reachable step ok Started s :=
  (reachable_runDispatched h).imp_init fun _ h0 => h0.1

end

/-- `run_job` up to the loop that observes the child. -/
def startUp : List Action :=
  [.setStarting 1, .writeStarting, .spawned (.ok .running), .handOff, .writeRunning]

/-- A cancellation stage that does not see the child exit: record, write, signal, wait. -/
def cancelStage : List Action :=
  [.cancel 2 false, .cancel 2 false, .cancel 2 false, .cancel 2 false]

def unconfirmedCancel : List Action :=
  [.lockCancel, .cancel 2 false] ++ cancelStage ++ cancelStage ++ cancelStage ++
    [.cancel 2 false, .cancel 2 false]

/-- A cancellation up to its first write of `Cancelling`. -/
def cancelBegins : List Action := [.lockCancel, .cancel 3 false, .cancel 3 false, .cancel 3 false]

/-- The child exits and `run_job` finishes the job. -/
def finishes : List Action :=
  [.childChanges (.exited ⟨some 0, none⟩), .observe .exited, .finish .run 4, .finish .run 4,
    .finish .run 4, .finish .run 4]

/-- The reaper takes the mutex, finds no output and finishes the job. -/
def reaps : List Action :=
  [.reap 4, .reap 4, .reap 4, .finish .reaper 4, .finish .reaper 4, .finish .reaper 4,
    .finish .reaper 4]

def exampleDispatch : Dispatch :=
  { executionId := 1, workerJobId := 2, workspaceId := 3, requestDigest := "digest" }

/-- A second cancellation moves a job whose first one could not be confirmed from
    `Indeterminate` to `Cancelling`; a cancellation that lands before the first transition of
    `run_job` does not stop the job from starting. -/
theorem indeterminate_job_revived :
    (∃ s s', Reachable step CallAtomic Started s ∧ Runs step CallAtomic s s' ∧
      s.job.state = .indeterminate ∧ s'.job.state = .cancelling) ∧
    ∃ s s', Reachable step CallAtomic Started s ∧ Runs step CallAtomic s s' ∧
      s.job.state = .indeterminate ∧ s'.job.state = .running := by
  constructor
  · have h1 : (runDispatched CallAtomic exampleDispatch 16 none (startUp ++ unconfirmedCancel)).map
        (fun s => s.job.state) = some .indeterminate := by decide
    have h2 : ((runDispatched CallAtomic exampleDispatch 16 none
        (startUp ++ unconfirmedCancel)).bind fun s => exec step CallAtomic s cancelBegins).map
        (fun s => s.job.state) = some .cancelling := by decide
    obtain ⟨s, s', h3, h4, h5, h6⟩ := exists_runs_of_exec h1 h2
    exact ⟨s, s', started_of_runDispatched h3, h4, h5, h6⟩
  · have h1 : (runDispatched CallAtomic exampleDispatch 16 none unconfirmedCancel).map
        (fun s => s.job.state) = some .indeterminate := by decide
    have h2 : ((runDispatched CallAtomic exampleDispatch 16 none
        unconfirmedCancel).bind fun s => exec step CallAtomic s startUp).map
        (fun s => s.job.state) = some .running := by decide
    obtain ⟨s, s', h3, h4, h5, h6⟩ := exists_runs_of_exec h1 h2
    exact ⟨s, s', started_of_runDispatched h3, h4, h5, h6⟩

/-- A job that ran to completion stays completed. -/
theorem completed_job_not_revived : ∃ s, s.job.state = .completed ∧
    ∀ s', Runs step CallAtomic s s' → s'.job.state.isTerminal = true := by
  have h1 : (runDispatched CallAtomic exampleDispatch 16 none (startUp ++ finishes)).map
      (fun s => s.job.state) = some .completed := by decide
  obtain ⟨s, h2, h3⟩ := map_eq_some_iff.1 h1
  have h4 := terminal_job_not_revived (started_of_runDispatched h2) (by rw [h3]; rfl)
  exact ⟨s, h3, h4.1 (.inr ⟨by simp [h3], by simp [h3]⟩)⟩

theorem exists_atRest (stall : Option String) (as : List Action) {evidence : TerminalState}
    {state : JobState} (h : (runDispatched anyStep exampleDispatch 16 stall as).map (fun s =>
      (decide s.AtRest, s.job.journal.terminal.map TerminalEvidence.state, s.job.state,
        s.job.isActiveForDrain)) = some (true, some evidence, state, true)) :
    ∃ s e, Reachable step anyStep Started s ∧ s.AtRest ∧ s.job.journal.terminal = some e ∧
      e.state = evidence ∧ s.job.state = state ∧ s.job.isActiveForDrain = true := by
  obtain ⟨s, hrun, h⟩ := map_eq_some_iff.1 h
  simp only [Prod.mk.injEq, decide_eq_true_eq, map_eq_some_iff] at h
  obtain ⟨hrest, ⟨e, he, hes⟩, hstate, hactive⟩ := h
  exact ⟨s, e, started_of_runDispatched hrun, hrest, he, hes, hstate, hactive⟩

/-- Three jobs at rest that stay active for a drain: one whose completion was followed by the write
    of `Cancelling` that a cancellation had owed since before, one that was reaped and whose killed
    process has not exited, and one whose cancellation was dropped after its event `Killed`. -/
theorem job_active_at_rest :
    (∃ s e, Reachable step anyStep Started s ∧ s.AtRest ∧ s.job.journal.terminal = some e ∧
      e.state = .completed ∧ s.job.state = .cancelling ∧ s.job.isActiveForDrain = true) ∧
    (∃ s e, Reachable step anyStep Started s ∧ s.AtRest ∧ s.job.journal.terminal = some e ∧
      e.state = .failed ∧ s.job.state = .failed ∧ s.job.isActiveForDrain = true) ∧
    ∃ s e, Reachable step anyStep Started s ∧ s.AtRest ∧ s.job.journal.terminal = some e ∧
      e.state = .killed ∧ s.job.state = .cancelling ∧ s.job.isActiveForDrain = true := by
  refine ⟨?_, ?_, ?_⟩
  · exact exists_atRest none (startUp ++ [.lockCancel, .cancel 3 false, .cancel 3 false] ++
      finishes ++ cancelStage) (by decide)
  · exact exists_atRest (some "300s") (startUp ++ reaps) (by decide)
  · exact exists_atRest none (startUp ++ cancelBegins ++ [.cancel 3 false,
      .childChanges (.exited ⟨none, some 9⟩), .cancel 3 false, .cancel 3 false, .dropCancel])
      (by decide)

/-- A dispatched job that ran to completion is at rest, completed and no longer active. -/
theorem completed_job_inactive_at_rest : ∃ s : Execution, s.AtRest ∧
    (s.job.state = .completed ∨ s.job.state = .quarantined) ∧ s.job.isActiveForDrain = false := by
  have h1 : (runDispatched NoStaleWrite exampleDispatch 16 none (startUp ++ finishes)).map
      (fun s => (decide s.AtRest, s.job.journal.terminal.map TerminalEvidence.state,
        s.job.child)) = some (true, some .completed, some (.exited ⟨some 0, none⟩)) := by decide
  obtain ⟨s, h2, h3⟩ := map_eq_some_iff.1 h1
  simp only [Prod.mk.injEq, decide_eq_true_eq, map_eq_some_iff] at h3
  obtain ⟨hrest, ⟨e, he, hes⟩, hchild⟩ := h3
  have h4 := journal_and_state_agree_at_rest (reachable_runDispatched h2) hrest he
  rw [hes] at h4
  exact ⟨s, hrest, h4.1, h4.2.2 (.inr ⟨_, hchild⟩)⟩

end Execution

end VibeKanban.Worker

import VibeKanban.Worker.Execution

/-!
# The positions of an execution's tasks go together

The `cancellation` mutex separates the hand-over of the child, cancellations and the reaper, and a
job whose child has not been handed over has no terminal evidence yet.

* `coherent_step`: every step keeps this.
-/

namespace VibeKanban.Worker

open Cluster Lib WorkerJob RunPc

/-! ## What the operations on the job leave unchanged -/

namespace WorkerJob

variable {job job' : WorkerJob} {now : Timestamp} {payload : ExecutionEventPayload}

@[simp] theorem state_emit : (job.emit now payload).state = job.state := rfl

@[simp] theorem child_emit : (job.emit now payload).child = job.child := rfl

theorem terminal_emit (h : terminalEvidence payload = none) :
    (job.emit now payload).journal.terminal = job.journal.terminal := by
  rcases EventJournal.append_cases job.journal now payload with h1 | ⟨-, h1⟩
  · simp [emit, h1]
  · simp [emit, h1, EventJournal.push, EventJournal.stamped, h]

theorem append_eq_some (h : job.append now payload = some job') :
    job.journal.terminal = none ∧ job'.journal.terminal = terminalEvidence payload ∧
      job'.state = job.state ∧ job'.child = job.child := by
  unfold append at h
  by_cases ho : job.journal.Open
  · rw [EventJournal.append_of_open ho] at h
    cases h
    refine ⟨ho.1, ?_, rfl, rfl⟩
    simp only [EventJournal.push, EventJournal.stamped]
    cases terminalEvidence payload with
    | none => exact ho.1
    | some evidence => rfl
  · obtain ⟨e, h1⟩ := EventJournal.append_of_not_open now payload ho
    rw [h1] at h
    cases h

@[simp] theorem state_stopChild (stopped : Option ExitStatus) :
    (job.stopChild stopped).state = job.state := by
  unfold stopChild
  split <;> rfl

@[simp] theorem journal_stopChild (stopped : Option ExitStatus) :
    (job.stopChild stopped).journal = job.journal := by
  unfold stopChild
  split <;> rfl

@[simp] theorem child_stopChild_eq_none (stopped : Option ExitStatus) :
    (job.stopChild stopped).child = none ↔ job.child = none := by
  unfold stopChild
  split <;> simp_all

/-- `is_active_for_drain` of a job in a terminal state: only a child that has not been seen
    to exit keeps it active. -/
theorem isActiveForDrain_eq_false (h : job.state.isTerminal = true) : job.isActiveForDrain = false ↔
      job.child = none ∨ ∃ status, job.child = some (.exited status) := by
  unfold isActiveForDrain
  rw [h]
  rcases job.child with _ | child
  · simp
  · cases child <;> simp [Child.tryWait]

end WorkerJob

/-- `run_job` has not handed over a child and has not given up on the spawn. -/
def RunPc.early : RunPc → Bool
  | .accepted | .writingStarting | .starting | .spawned _ | .handingOver _ => true
  | _ => false

namespace Execution

variable {s s' : Execution} {now : Timestamp} {e : TerminalEvidence}

/-! ## The invariant of the tasks -/

/-- A task has appended the terminal event with evidence `e` and owes the state's write. -/
def Pending (s : Execution) (e : TerminalEvidence) : Prop :=
  s.run = .finishing (.writing e) ∨ s.reaper = .finishing (.writing e) ∨
    s.cancellation = .cancel (.writingKilled e)
  deriving Decidable

/-- Which positions, locks, child and evidence go together. -/
structure Coherent (s : Execution) : Prop where
  early : s.run.early = true → s.job.child = none ∧ s.job.journal.terminal = none
  handingOver : ∀ child, s.run = .handingOver child → s.cancellation = .run
  reaperLocked : ∀ r, s.reaper = .locked r ∨ s.reaper = .inspecting r → s.cancellation = .reaper
  reaperFinishing : ∀ pc, s.reaper = .finishing pc → s.cancellation = .reaper ∧ s.job.child ≠ none
  confirming : ∀ exit, s.cancellation = .cancel (.confirming exit) → s.job.child ≠ none
  killed : ∀ e, s.cancellation = .cancel (.writingKilled e) → s.job.child ≠ none ∧ e.state = .killed
  pending : ∀ e, s.Pending e → s.job.journal.terminal = some e

section

variable (h : s.Coherent)
include h

/-- Steps that move no task, keep the terminal evidence and neither take away nor bring a
    child keep the invariant. -/
theorem Coherent.frame (hrun : s'.run = s.run)
    (hlock : s'.cancellation = s.cancellation) (hreaper : s'.reaper = s.reaper)
    (hterm : s'.job.journal.terminal = s.job.journal.terminal)
    (hchild : s'.job.child = none ↔ s.job.child = none) : s'.Coherent := by
  obtain ⟨h1, h2, h3, h4, h5, h6, h7⟩ := h
  have hp : ∀ e, s'.Pending e ↔ s.Pending e := by
    intro e
    rw [Pending, Pending, hrun, hlock, hreaper]
  constructor
  · rw [hrun, hterm, hchild]
    exact h1
  · rw [hrun, hlock]
    exact h2
  · rw [hreaper, hlock]
    exact h3
  · rw [hreaper, hlock, ne_eq, hchild]
    exact h4
  · rw [hlock, ne_eq, hchild]
    exact h5
  · rw [hlock, ne_eq, hchild]
    exact h6
  · intro e he
    rw [hterm]
    exact h7 e ((hp e).1 he)

/-- `run_job` moves to a position that owes nothing. -/
theorem Coherent.moveRun (hlock : s'.cancellation = s.cancellation)
    (hreaper : s'.reaper = s.reaper) (hterm : s'.job.journal.terminal = s.job.journal.terminal)
    (hchild : s'.job.child = none ↔ s.job.child = none)
    (hearly : s'.run.early = true → s.run.early = true)
    (hhand : ∀ child, s'.run ≠ .handingOver child)
    (hwriting : ∀ e, s'.run ≠ .finishing (.writing e)) : s'.Coherent := by
  obtain ⟨h1, h2, h3, h4, h5, h6, h7⟩ := h
  constructor
  · intro he
    rw [hterm, hchild]
    exact h1 (hearly he)
  · intro child hr
    exact absurd hr (hhand child)
  · rw [hreaper, hlock]
    exact h3
  · rw [hreaper, hlock, ne_eq, hchild]
    exact h4
  · rw [hlock, ne_eq, hchild]
    exact h5
  · rw [hlock, ne_eq, hchild]
    exact h6
  · rintro e (he | he | he)
    · exact absurd he (hwriting e)
    · rw [hterm]
      exact h7 e (.inr (.inl (hreaper ▸ he)))
    · rw [hterm]
      exact h7 e (.inr (.inr (hlock ▸ he)))

theorem Coherent.moveCancel (hrun : s'.run = s.run)
    (hreaper : s'.reaper = s.reaper) (hfrom : s.cancellation ≠ .run ∧ s.cancellation ≠ .reaper)
    (hterm : s'.job.journal.terminal = s.job.journal.terminal) (hchild : s'.job.child = s.job.child)
    (hconfirming : ∀ exit, s'.cancellation = .cancel (.confirming exit) → s.job.child ≠ none)
    (hkilled : ∀ e, s'.cancellation ≠ .cancel (.writingKilled e)) : s'.Coherent := by
  obtain ⟨h1, h2, h3, h4, h5, h6, h7⟩ := h
  constructor
  · rw [hrun, hterm, hchild]
    exact h1
  · intro child hr
    exact absurd (h2 child (hrun ▸ hr)) hfrom.1
  · intro r hr
    exact absurd (h3 r (hreaper ▸ hr)) hfrom.2
  · intro pc hr
    exact absurd (h4 pc (hreaper ▸ hr)).1 hfrom.2
  · rw [hchild]
    exact hconfirming
  · intro e he
    exact absurd he (hkilled e)
  · rintro e (he | he | he)
    · rw [hterm]
      exact h7 e (.inl (hrun ▸ he))
    · exact absurd (h4 _ (hreaper ▸ he)).1 hfrom.2
    · exact absurd he (hkilled e)

theorem Coherent.moveReaper (hrun : s'.run = s.run)
    (hfrom : s.cancellation = .free ∨ s.cancellation = .reaper) (hto : s'.cancellation = .reaper ∨
      s'.cancellation = .free ∧
        ((∃ r, s'.reaper = .sleeping r) ∨ s'.reaper = .done ∨ s'.reaper = .unarmed))
    (hterm : s'.job.journal.terminal = s.job.journal.terminal) (hchild : s'.job.child = s.job.child)
    (hfinishing : ∀ pc, s'.reaper = .finishing pc →
      s.job.child ≠ none ∧ ∀ e, pc ≠ .writing e) : s'.Coherent := by
  obtain ⟨h1, h2, h3, h4, h5, h6, h7⟩ := h
  constructor
  · rw [hrun, hterm, hchild]
    exact h1
  · intro child hr
    have := h2 child (hrun ▸ hr)
    rcases hfrom with hf | hf <;> simp [hf] at this
  · intro r hr
    rcases hto with ht | ⟨-, ⟨r', ht⟩ | ht | ht⟩
    · exact ht
    all_goals simp [ht] at hr
  · intro pc hr
    rw [hchild]
    rcases hto with ht | ⟨-, ⟨r', ht⟩ | ht | ht⟩
    · exact ⟨ht, (hfinishing pc hr).1⟩
    all_goals simp [ht] at hr
  · intro exit he
    rcases hto with ht | ⟨ht, -⟩ <;> simp [ht] at he
  · intro e he
    rcases hto with ht | ⟨ht, -⟩ <;> simp [ht] at he
  · rintro e (he | he | he)
    · rw [hterm]
      exact h7 e (.inl (hrun ▸ he))
    · exact absurd rfl ((hfinishing _ he).2 e)
    · rcases hto with ht | ⟨ht, -⟩ <;> simp [ht] at he

theorem not_finishing_of_unlocked (hlock : s.cancellation ≠ .reaper)
    (pc : FinishPc) : s.reaper ≠ .finishing pc :=
  fun hr => hlock (h.reaperFinishing pc hr).1

end

/-! ### `run_job` -/

theorem coherent_starting (h : s.Coherent) (he : s.run.early = true) : s.starting.Coherent := by
  have hreaper : ∀ pc, s.reaper ≠ .finishing pc :=
    fun pc hp => (h.reaperFinishing pc hp).2 (h.early he).1
  obtain ⟨h1, h2, h3, h4, h5, h6, h7⟩ := h
  constructor
  · intro _
    exact h1 he
  · intro child hc
    cases hc
  · intro r hr
    simp only [starting] at hr ⊢
    split_ifs at hr
    · simp at hr
    · exact h3 r hr
  · intro pc hp
    simp only [starting] at hp
    split_ifs at hp
    exact absurd hp (hreaper pc)
  · exact h5
  · exact h6
  · rintro e (hp | hp | hp)
    · cases hp
    · simp only [starting] at hp
      split_ifs at hp
      exact absurd hp (hreaper _)
    · exact h7 e (.inr (.inr hp))

theorem coherent_setStarting (h : s.Coherent) (h1 : s.setStarting now = some s') : s'.Coherent := by
  unfold setStarting at h1
  split_ifs at h1 with hr
  have he : s.run.early = true := by simp [hr, early]
  split at h1
  · rename_i hj
    obtain ⟨ht, ht', -, hc⟩ := append_eq_some hj
    cases h1
    refine h.moveRun rfl rfl ?_ ?_ (fun _ => he) ?_ ?_
    · rw [ht, ht']
      rfl
    · rw [hc]
    · simp
    · simp
  · cases h1
    exact coherent_starting h he

theorem coherent_writeStarting (h : s.Coherent) (h1 : s.writeStarting = some s') : s'.Coherent := by
  unfold writeStarting at h1
  split_ifs at h1 with hr
  cases h1
  refine coherent_starting (h.frame rfl rfl rfl rfl Iff.rfl) ?_
  simp [hr, early]

theorem coherent_spawned {result : Except String Child} (h : s.Coherent)
    (h1 : s.spawned result = some s') : s'.Coherent := by
  unfold spawned at h1
  split_ifs at h1 with hr
  have he : s.run.early = true := by simp [hr, early]
  split at h1 <;> cases h1 <;> exact h.moveRun rfl rfl rfl Iff.rfl (fun _ => he) (by simp) (by simp)

theorem coherent_handOff (h : s.Coherent) (h1 : s.handOff = some s') : s'.Coherent := by
  unfold handOff at h1
  split at h1
  · rename_i hr hlock
    have he : s.run.early = true := by simp [hr, early]
    split_ifs at h1
    · cases h1
      exact h.moveRun rfl rfl rfl Iff.rfl (fun _ => he) (by simp) (by simp)
    · have hreaper := not_finishing_of_unlocked h (by simp [hlock])
      have hlocked := h.reaperLocked
      cases h1
      constructor
      · intro _
        exact h.early he
      · intro _ _
        rfl
      · intro r hr
        simp [hlocked r hr] at hlock
      · intro pc hp
        exact absurd hp (hreaper pc)
      · simp
      · simp
      · rintro e (hp | hp | hp)
        · cases hp
        · exact absurd hp (hreaper _)
        · cases hp
  · cases h1

theorem coherent_writeRunning (h : s.Coherent) (h1 : s.writeRunning = some s') : s'.Coherent := by
  unfold writeRunning at h1
  split at h1
  · rename_i child hr
    have hlock := h.handingOver child hr
    have hreaper := not_finishing_of_unlocked h (by simp [hlock])
    have hlocked := h.reaperLocked
    cases h1
    constructor
    · simp [early]
    · simp
    · intro r hr
      simp [hlocked r hr] at hlock
    · intro pc hp
      exact absurd hp (hreaper pc)
    · simp
    · simp
    · rintro e (hp | hp | hp)
      · cases hp
      · exact absurd hp (hreaper _)
      · cases hp
  · cases h1

theorem coherent_observe {outcome : RunOutcome} (h : s.Coherent)
    (h1 : s.observe outcome = some s') : s'.Coherent := by
  unfold observe at h1
  rw [Option.ite_none_right_eq_some] at h1
  obtain ⟨-, h1⟩ := h1
  cases outcome with
  | signal result stopped | closed stopped | deadline stopped =>
    cases h1
    exact h.moveRun rfl rfl (by simp) (by simp) (by simp [early]) (by simp) (by simp)
  | waitFailed error =>
    simp only [Option.ite_none_right_eq_some, Option.some.injEq] at h1
    obtain ⟨-, rfl⟩ := h1
    exact h.moveRun rfl rfl rfl Iff.rfl (by simp [early]) (by simp) (by simp)
  | exited =>
    dsimp only at h1
    split at h1 <;> cases h1
    exact h.moveRun rfl rfl rfl Iff.rfl (by simp [early]) (by simp) (by simp)

theorem coherent_closed (h : s.Coherent) (h1 : s.closed = some s') : s'.Coherent := by
  unfold closed at h1
  rw [Option.ite_none_right_eq_some] at h1
  obtain ⟨-, h1⟩ := h1
  cases h1
  exact h.moveRun rfl rfl rfl Iff.rfl (by simp [early]) (by simp) (by simp)

/-! ### The finish functions -/

variable {job job' : WorkerJob}

theorem finishStep_cases {claim claim' : Option Finisher} {who : Finisher}
    {pc : FinishPc} {pc' : Option FinishPc}
    (h : finishStep job claim who now pc = some (job', claim', pc')) :
    (job'.journal.terminal = job.journal.terminal ∧ job'.state = job.state ∧
        job'.child = job.child ∧ (∀ e, pc ≠ .writing e) ∧ ∀ e, pc' ≠ some (.writing e)) ∨
      (∃ e, pc = .appending e ∧ pc' = some (.writing e) ∧ job.journal.terminal = none ∧
        job'.journal.terminal = some e ∧ job'.state = job.state ∧ job'.child = job.child) ∨
      ∃ e, pc = .writing e ∧ pc' = none ∧ job' = { job with state := e.state.jobState } := by
  cases pc with
  | waiting finish =>
    simp only [finishStep] at h
    split_ifs at h
    cases h
    exact .inl ⟨rfl, rfl, rfl, by simp, by simp⟩
  | claimed finish =>
    left
    cases finish with cases h
    | status exit | executorResult result => exact ⟨rfl, rfl, rfl, by simp, by simp⟩
    | failed exitCode reason => exact ⟨terminal_emit rfl, rfl, rfl, by simp, by simp⟩
  | appending e =>
    simp only [finishStep] at h
    split at h
    · rename_i hj
      obtain ⟨h1, h2, h3, h4⟩ := append_eq_some hj
      cases h
      rw [terminalEvidence_terminalPayload] at h2
      exact .inr (.inl ⟨e, rfl, rfl, h1, h2, h3, h4⟩)
    · cases h
      exact .inl ⟨rfl, rfl, rfl, by simp, by simp⟩
  | writing e =>
    obtain ⟨rfl, -, rfl⟩ := h
    exact .inr (.inr ⟨e, rfl, rfl, rfl⟩)

theorem not_pending_of_open (h : s.Coherent) (ht : s.job.journal.terminal = none)
    (e : TerminalEvidence) : ¬ s.Pending e := by
  intro hp
  rw [h.pending e hp] at ht
  cases ht

theorem coherent_finishRun (h : s.Coherent) (h1 : s.finish .run now = some s') : s'.Coherent := by
  simp only [finish] at h1
  split at h1
  · split at h1 <;> cases h1
    · rename_i hf
      rcases finishStep_cases hf with ⟨h2, -, h4, -, h6⟩ | ⟨e, -, h2, h3, h4, -, h6⟩ | ⟨e, -, h2, -⟩
      · refine h.moveRun rfl rfl h2 (by rw [h4]) (by simp [early]) (by simp) ?_
        intro e he
        cases he
        exact h6 e rfl
      · cases h2
        constructor
        · simp [early]
        · simp
        · exact h.reaperLocked
        · rw [h6]
          exact h.reaperFinishing
        · rw [h6]
          exact h.confirming
        · rw [h6]
          exact h.killed
        · rintro e' (hp | hp | hp)
          · cases hp
            exact h4
          · exact (not_pending_of_open h h3 e' (.inr (.inl hp))).elim
          · exact (not_pending_of_open h h3 e' (.inr (.inr hp))).elim
      · cases h2
    · rename_i hf
      rcases finishStep_cases hf with ⟨h2, -, h4, -, -⟩ | ⟨e, -, h2, -⟩ | ⟨e, -, -, rfl⟩
      · exact h.moveRun rfl rfl h2 (by rw [h4]) (by simp [early]) (by simp) (by simp)
      · cases h2
      · exact h.moveRun rfl rfl rfl Iff.rfl (by simp [early]) (by simp) (by simp)
  · cases h1

theorem coherent_finishReaper (h : s.Coherent) (h1 : s.finish .reaper now = some s') :
    s'.Coherent := by
  simp only [finish] at h1
  split at h1
  · rename_i pc hr
    obtain ⟨hlock, hchild⟩ := h.reaperFinishing pc hr
    split at h1 <;> cases h1
    · rename_i hf
      rcases finishStep_cases hf with ⟨h2, -, h4, -, h6⟩ | ⟨e, -, h2, h3, h4, -, h6⟩ | ⟨e, -, h2, -⟩
      · refine h.moveReaper rfl (.inr hlock) (.inl hlock) h2 h4 ?_
        intro pc hp
        cases hp
        exact ⟨hchild, fun e he => h6 e (by rw [he])⟩
      · cases h2
        constructor
        · intro he
          exact absurd (h.early he).1 hchild
        · exact h.handingOver
        · simp
        · intro pc hp
          rw [h6]
          exact ⟨hlock, hchild⟩
        · simp [hlock]
        · simp [hlock]
        · rintro e' (hp | hp | hp)
          · exact (not_pending_of_open h h3 e' (.inl hp)).elim
          · cases hp
            exact h4
          · simp [hlock] at hp
      · cases h2
    · rename_i hf
      rcases finishStep_cases hf with ⟨h2, -, h4, -, -⟩ | ⟨e, -, h2, -⟩ | ⟨e, -, -, rfl⟩
      · exact h.moveReaper rfl (.inr hlock) (.inr ⟨rfl, .inr (.inl rfl)⟩) h2 h4 (by simp)
      · cases h2
      · exact h.moveReaper rfl (.inr hlock) (.inr ⟨rfl, .inr (.inl rfl)⟩) rfl rfl (by simp)
  · cases h1

/-! ### `cancel` and the reaper -/

theorem coherent_cancel {fails : Bool} (h : s.Coherent) (h1 : s.cancel now fails = some s') :
    s'.Coherent := by
  cases hlock : s.cancellation with
  | cancel pc =>
    have hfrom : s.cancellation ≠ .run ∧ s.cancellation ≠ .reaper := by simp [hlock]
    simp only [cancel, hlock] at h1
    cases pc with dsimp only at h1
    | checking | signalling =>
      split_ifs at h1 <;> cases h1 <;> exact h.moveCancel rfl rfl hfrom rfl rfl nofun nofun
    | writing | writingKilled | writingIndeterminate =>
      cases h1
      exact h.moveCancel rfl rfl hfrom rfl rfl nofun nofun
    | appending | appendingIndeterminate =>
      split at h1
      · rename_i hj
        obtain ⟨ht, ht', -, hc⟩ := append_eq_some hj
        cases h1
        exact h.moveCancel rfl rfl hfrom (by rw [ht, ht']; rfl) hc nofun nofun
      · cases h1
        exact h.moveCancel rfl rfl hfrom rfl rfl nofun nofun
    | waiting stage =>
      have hafter : ∀ e, afterStage stage ≠ .confirming e := by cases stage <;> exact nofun
      have hafter' : ∀ e, afterStage stage ≠ .writingKilled e := by cases stage <;> exact nofun
      split at h1
      · cases h1
        exact h.moveCancel rfl rfl hfrom rfl rfl (by simp [hafter]) (by simp [hafter'])
      · rename_i hchild
        split at h1 <;> cases h1 <;>
          exact h.moveCancel rfl rfl hfrom rfl rfl (by simp [hchild]) (by simp [hafter'])
    | confirming exit =>
      have hchild := h.confirming exit hlock
      split at h1
      · -- the terminal event of a confirmed cancellation
        rename_i hj
        obtain ⟨ht, ht', -, hc⟩ := append_eq_some hj
        have hreaper := not_finishing_of_unlocked h hfrom.2
        cases h1
        constructor
        · intro he
          exact absurd (h.early he).1 hchild
        · intro child hr
          exact absurd (h.handingOver child hr) hfrom.1
        · intro r hr
          exact absurd (h.reaperLocked r hr) hfrom.2
        · intro pc hp
          exact absurd hp (hreaper pc)
        · exact nofun
        · intro e he
          cases he
          rw [hc]
          exact ⟨hchild, rfl⟩
        · rintro e (hp | hp | hp)
          · exact (not_pending_of_open h ht e (.inl hp)).elim
          · exact absurd hp (hreaper _)
          · cases hp
            exact ht'
      · cases h1
        exact h.moveCancel rfl rfl hfrom rfl rfl nofun nofun
  | _ => simp [cancel, hlock] at h1

theorem coherent_dropCancel (h : s.Coherent) (h1 : s.dropCancel = some s') : s'.Coherent := by
  unfold dropCancel at h1
  split at h1 <;> cases h1
  rename_i hlock
  exact h.moveCancel rfl rfl (by simp [hlock]) rfl rfl (by simp) (by simp)

theorem coherent_reap (h : s.Coherent) (h1 : s.reap now = some s') : s'.Coherent := by
  unfold reap at h1
  split at h1
  · split_ifs at h1 with hlock
    cases h1
    exact h.moveReaper rfl (.inl hlock) (.inl rfl) rfl rfl (by simp)
  · rename_i r hr
    have hlock := h.reaperLocked r (.inl hr)
    split_ifs at h1 <;> cases h1
    · exact h.moveReaper rfl (.inr hlock) (.inr ⟨rfl, by simp⟩) rfl rfl (by simp)
    · exact h.moveReaper rfl (.inr hlock) (.inl hlock) rfl rfl (by simp)
  · rename_i r hr
    have hlock := h.reaperLocked r (.inr hr)
    split_ifs at h1 with hc <;> cases h1
    · exact h.moveReaper rfl (.inr hlock) (.inr ⟨rfl, by simp⟩) rfl rfl (by simp)
    · exact h.moveReaper rfl (.inr hlock) (.inr ⟨rfl, by simp⟩)
        (terminal_emit rfl) rfl (by simp)
    · refine h.moveReaper rfl (.inr hlock) (.inl hlock) rfl rfl ?_
      intro pc hp
      cases hp
      exact ⟨hc, by simp⟩
    · exact h.moveReaper rfl (.inr hlock) (.inr ⟨rfl, by simp⟩) rfl rfl (by simp)
  · cases h1

theorem coherent_step {a : Action} (h : s.Coherent) (h1 : s.step a = some s') : s'.Coherent := by
  cases a with
  | setStarting now => exact coherent_setStarting h h1
  | writeStarting => exact coherent_writeStarting h h1
  | spawned result => exact coherent_spawned h h1
  | handOff => exact coherent_handOff h h1
  | writeRunning => exact coherent_writeRunning h h1
  | observe outcome => exact coherent_observe h h1
  | closed => exact coherent_closed h h1
  | finish who now =>
    cases who with
    | run => exact coherent_finishRun h h1
    | reaper => exact coherent_finishReaper h h1
  | lockCancel =>
    simp only [step] at h1
    split_ifs at h1 with hlock
    cases h1
    exact h.moveCancel rfl rfl (by simp [hlock]) rfl rfl (by simp) (by simp)
  | cancel now fails => exact coherent_cancel h h1
  | dropCancel => exact coherent_dropCancel h h1
  | reap now => exact coherent_reap h h1
  | quarantine | quiesce owner =>
    cases h1
    exact h.frame rfl rfl rfl rfl Iff.rfl
  | emit now payload =>
    simp only [step] at h1
    split_ifs at h1 with hp
    cases h1
    exact h.frame rfl rfl rfl (terminal_emit hp) Iff.rfl
  | output now stderr data =>
    cases h1
    refine h.frame rfl rfl rfl (terminal_emit ?_) Iff.rfl
    split_ifs <;> rfl
  | streamError now error =>
    cases h1
    exact h.frame rfl rfl rfl (terminal_emit rfl) Iff.rfl
  | childChanges child =>
    simp only [step, childChanges] at h1
    split at h1 <;> cases h1
    rename_i hc
    exact h.frame rfl rfl rfl rfl (by simp [hc])

/-! ### Starting points -/

variable {capacity : ℕ} {d : Dispatch} {stall : Option String}

section

variable (h : dispatch d capacity stall now = .ok s)
include h

theorem dispatch_eq_ok : s.run = .accepted ∧ s.cancellation = .free ∧ s.reaper = .unarmed ∧
      s.job.state = .accepted ∧ s.job.child = none ∧ s.job.journal.terminal = none := by
  unfold dispatch at h
  split at h
  · cases h
  · rename_i journal hj
    have ht : (journal.append now .accepted).2.terminal = none := by
      have hnew : journal.terminal = none := by
        unfold EventJournal.new at hj
        split_ifs at hj
        cases hj
        rfl
      rcases EventJournal.append_cases journal now .accepted with h1 | ⟨-, h1⟩ <;> rw [h1]
      all_goals exact hnew
    split at h
    · cases h
    · rename_i hok
      rw [hok] at ht
      cases h
      exact ⟨rfl, rfl, rfl, rfl, rfl, ht⟩

theorem journal_dispatch : ∃ journal, EventJournal.new d.executionId capacity = .ok journal ∧
      s.job.journal = (journal.append now .accepted).2 := by
  unfold dispatch at h
  split at h
  · cases h
  · rename_i journal hj
    split at h <;> cases h
    rename_i hok
    exact ⟨journal, hj, by rw [hok]⟩

end

theorem rebuild_eq_ok {summary : JobSummary} (h : rebuild summary capacity e = .ok s) :
    s.run = .done ∧ s.cancellation = .free ∧ s.reaper = .unarmed ∧ s.job.child = none ∧
      EventJournal.recover summary capacity e = .ok s.job.journal := by
  unfold rebuild at h
  split at h <;> cases h
  rename_i hj
  exact ⟨rfl, rfl, rfl, rfl, hj⟩

theorem coherent_of_idle (hlock : s.cancellation = .free) (hreaper : s.reaper = .unarmed)
    (hchild : s.job.child = none)
    (hrun : s.run = .accepted ∧ s.job.journal.terminal = none ∨ s.run = .done) : s.Coherent := by
  rcases hrun with ⟨hrun, hterm⟩ | hrun
  · constructor <;> simp [Pending, hrun, hlock, hreaper, hchild, hterm]
  · constructor <;> simp [Pending, hrun, hlock, hreaper, early]

theorem coherent_of_started (h : s.Started) : s.Coherent := by
  rcases h with ⟨d, capacity, stall, now, h⟩ | ⟨summary, capacity, now, h⟩
  · obtain ⟨h1, h2, h3, -, h5, h6⟩ := dispatch_eq_ok h
    exact coherent_of_idle h2 h3 h5 (.inl ⟨h1, h6⟩)
  · obtain ⟨h1, h2, h3, h4, -⟩ := rebuild_eq_ok h
    exact coherent_of_idle h2 h3 h4 (.inr h1)

end Execution

end VibeKanban.Worker

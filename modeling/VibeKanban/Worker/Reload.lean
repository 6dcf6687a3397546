import VibeKanban.Worker.Recovery

/-!
# Loading a job again and again

`with_recovery_and_drain` (`worker/src/execution.rs`, lines 425-468) gives the evidence of a saved
summary back as one event after the last sequence and saves the summary with that sequence.

* `recovery_keeps_evidence`: a load keeps what is saved, but for the sequence.
-/

namespace VibeKanban.Worker

open Cluster Lib

namespace Execution

/-! ## Loading -/

/-- The recovery of one summary: the job that is inserted, and the summary that stays in the
    store. -/
def load (capacity : ℕ) (summary : JobSummary) (now : Timestamp) :
    Except JournalError (Execution × JobSummary) :=
  match recover summary capacity now with
  | .error e => .error e
  | .ok s => .ok (s,
      { (recoveredSummary summary now).1 with lastSequence := s.job.journal.lastSequence })

/-- The summary in the store after a worker has been started at each of the times. -/
def loads (capacity : ℕ) : JobSummary → List Timestamp → Except JournalError JobSummary
  | summary, [] => .ok summary
  | summary, now :: later =>
    match load capacity summary now with
    | .error e => .error e
    | .ok loaded => loads capacity loaded.2 later

variable {summary : JobSummary} {capacity : ℕ} {now : Timestamp} {evidence : TerminalEvidence}

theorem recoveredSummary_of_terminal (hterminal : summary.terminal = some evidence)
    (hstate : summary.state.isTerminal = true) :
    recoveredSummary summary now = (summary, evidence) := by
  unfold recoveredSummary
  rw [hterminal]
  dsimp only
  rw [if_pos hstate]

theorem recoveredSummary_of_none (hterminal : summary.terminal = none) :
    recoveredSummary summary now =
      ({ summary with
          state := .interrupted
          terminal := some
            { state := .interrupted, exitCode := none, signal := none, observedAt := now } },
        { state := .interrupted, exitCode := none, signal := none, observedAt := now }) := by
  unfold recoveredSummary
  rw [hterminal]

theorem recoveredSummary_sealed (summary : JobSummary) (now : Timestamp) :
    (recoveredSummary summary now).1.state.isTerminal = true ∧
      (recoveredSummary summary now).1.terminal = some (recoveredSummary summary now).2 := by
  unfold recoveredSummary
  split
  · rename_i hterminal
    split_ifs with hstate
    · exact ⟨hstate, hterminal⟩
    · exact ⟨rfl, rfl⟩
  · exact ⟨rfl, rfl⟩

theorem journal_recover_eq_ok (summary : JobSummary) (hcapacity : 0 < capacity)
    (hsequence : summary.lastSequence + 2 ≤ u64Max) (evidence : TerminalEvidence) :
    ∃ journal, EventJournal.recover summary capacity evidence = .ok journal := by
  unfold EventJournal.recover EventJournal.new checkedAdd
  rw [if_neg hcapacity.ne']
  rw [if_pos (by omega)]
  dsimp only
  rw [if_pos (by omega)]
  exact ⟨_, rfl⟩

/-- A load counts the sequence up, and what the inserted job would persist is what is saved. -/
theorem load_eq_ok (summary : JobSummary) (hcapacity : 0 < capacity)
    (hsequence : summary.lastSequence + 2 ≤ u64Max) (now : Timestamp) :
    ∃ s, load capacity summary now = .ok (s,
        { (recoveredSummary summary now).1 with lastSequence := summary.lastSequence + 1 }) ∧
      s.job.summary =
        { (recoveredSummary summary now).1 with lastSequence := summary.lastSequence + 1 } := by
  have hlast := Restarts.lastSequence_recoveredSummary summary now
  obtain ⟨journal, hjournal⟩ := journal_recover_eq_ok (recoveredSummary summary now).1
    hcapacity (by rw [hlast]; exact hsequence) (recoveredSummary summary now).2
  have hsequence' : journal.lastSequence = summary.lastSequence + 1 := by
    rw [EventJournal.lastSequence_recover hjournal, hlast]
  have hterminal := EventJournal.terminal_recover hjournal
  unfold load recover rebuild
  rw [hjournal]
  refine ⟨_, by rw [← hsequence'], ?_⟩
  unfold WorkerJob.summary
  rw [← hsequence', hterminal, ← (recoveredSummary_sealed summary now).2]

theorem loads_of_sealed (hcapacity : 0 < capacity) (later : List Timestamp)
    (hstate : summary.state.isTerminal = true) (hterminal : summary.terminal = some evidence)
    (hsequence : summary.lastSequence + later.length + 1 ≤ u64Max) : loads capacity summary later =
      .ok { summary with lastSequence := summary.lastSequence + later.length } := by
  induction later generalizing summary with
  | nil => rfl
  | cons now later ih =>
    rw [List.length_cons] at hsequence
    obtain ⟨s, hload, -⟩ := load_eq_ok summary hcapacity (by omega) now
    rw [recoveredSummary_of_terminal hterminal hstate] at hload
    have hcount : summary.lastSequence + 1 + later.length =
        summary.lastSequence + (now :: later).length := by
      rw [List.length_cons]
      omega
    unfold loads
    rw [hload, ← hcount]
    exact ih hstate hterminal (show summary.lastSequence + 1 + later.length + 1 ≤ u64Max by omega)

/-- Whatever a summary holds: a load keeps evidence that came with a terminal
    state, and gives a job without evidence that of an interruption; loads after it leave all but
    the sequence as it is. -/
theorem recovery_keeps_evidence (summary : JobSummary) (capacity : ℕ) (hcapacity : 0 < capacity)
    (now : Timestamp) (later : List Timestamp)
    (hsequence : summary.lastSequence + later.length + 2 ≤ u64Max) :
    ∃ s first, load capacity summary now = .ok (s, first) ∧ s.job.summary = first ∧
      first.lastSequence = summary.lastSequence + 1 ∧
      (∀ evidence, summary.terminal = some evidence → summary.state.isTerminal = true →
        first.terminal = some evidence ∧ first.state = summary.state) ∧
      (summary.terminal = none → first.state = .interrupted ∧ first.terminal = some
        { state := .interrupted, exitCode := none, signal := none, observedAt := now }) ∧
      loads capacity first later =
        .ok { first with lastSequence := first.lastSequence + later.length } := by
  obtain ⟨s, hload, hpersist⟩ := load_eq_ok summary hcapacity (by omega) now
  obtain ⟨hstate, hterminal⟩ := recoveredSummary_sealed summary now
  refine ⟨s, _, hload, hpersist, rfl, ?_, ?_, ?_⟩
  · intro evidence hevidence hended
    rw [recoveredSummary_of_terminal hevidence hended]
    exact ⟨hevidence, rfl⟩
  · intro hnone
    rw [recoveredSummary_of_none hnone]
    exact ⟨rfl, rfl⟩
  · exact loads_of_sealed hcapacity later hstate hterminal
      (show summary.lastSequence + 1 + later.length + 1 ≤ u64Max by omega)

/-- A job that completed, recovered twice. -/
theorem recovery_keeps_completed :
    let evidence : TerminalEvidence :=
      { state := .completed, exitCode := some 0, signal := none, observedAt := 5 }
    let summary : JobSummary :=
      { executionId := 1, workerJobId := 2, workspaceId := 3, requestDigest := ""
        state := .completed, lastSequence := 9, terminal := some evidence }
    ∃ s first, load 16 summary 20 = .ok (s, first) ∧ first.lastSequence = 10 ∧
      first.terminal = some evidence ∧
      loads 16 first [30] = .ok { first with lastSequence := 11 } := by
  intro evidence summary
  obtain ⟨s, first, hload, -, hsequence, hkept, -, hloads⟩ :=
    recovery_keeps_evidence summary 16 (by decide) 20 [30] (by decide)
  refine ⟨s, first, hload, hsequence, (hkept evidence rfl rfl).1, ?_⟩
  rw [hloads, hsequence]
  rfl

end Execution

namespace Restarts

variable {r : Restarts} {summary first : JobSummary} {s : Execution} {now : Timestamp}

/-- The child exits, `run_job` decides on `Completed`, and a cancellation writes `Cancelling` while
    the event is appended; what the cancellation then persists has both. -/
def completedWhileCancelled : List RestartAction :=
  [.job (.childChanges (.exited { code := some 0, signal := none })), .job (.observe .exited),
    .job (.finish .run 5), .job (.finish .run 5), .job .lockCancel, .job (.cancel 6 false),
    .job (.cancel 6 false), .job (.finish .run 7), .job (.cancel 7 false)] ++ saves ++ [.crash]

def cancelledSummary : JobSummary :=
  { executionId := 1
    workerJobId := 2
    workspaceId := 3
    requestDigest := "digest"
    state := .cancelling
    lastSequence := 4
    terminal := some { state := .completed, exitCode := some 0, signal := none, observedAt := 5 } }

/-- A job that completed is recovered as interrupted, and a second load has another last
    sequence. -/
theorem completed_job_interrupted : ∃ r s first s' second,
    Reachable step anyStep Initial r ∧ r.worker = .down ∧ r.disk = some cancelledSummary ∧
      Execution.load r.capacity cancelledSummary 9 = .ok (s, first) ∧
      first.terminal.map TerminalEvidence.state = some .interrupted ∧
      Execution.load r.capacity first 10 = .ok (s', second) ∧
      second.lastSequence ≠ first.lastSequence := by
  have h1 : ((dispatched Execution.exampleDispatch 16).bind fun r => exec step anyStep r
      (startedAndSaved ++ completedWhileCancelled)).map (fun r => (r.worker, r.capacity, r.disk)) =
      some (.down, 16, some cancelledSummary) := by decide
  obtain ⟨r, hr, hout⟩ := Option.map_eq_some_iff.1 h1
  obtain ⟨r₀, h0, hexec⟩ := Option.bind_eq_some_iff.1 hr
  simp only [Prod.mk.injEq] at hout
  obtain ⟨hdown, hcapacity, hdisk⟩ := hout
  obtain ⟨s, hfirst, -⟩ := Execution.load_eq_ok cancelledSummary (by decide : 0 < 16) (by decide) 9
  obtain ⟨s', hsecond, -⟩ := Execution.load_eq_ok
    { (Execution.recoveredSummary cancelledSummary 9).1 with lastSequence := 5 }
    (by decide : 0 < 16) (show 5 + 2 ≤ u64Max by decide) 10
  rw [← hcapacity] at hfirst hsecond
  exact ⟨r, s, _, s', _, reachable_of_exec (initial_of_dispatched h0) hexec, hdown, hdisk, hfirst,
    rfl, hsecond, show (6 : ℕ) ≠ 5 by decide⟩

end Restarts

end VibeKanban.Worker

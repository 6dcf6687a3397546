import VibeKanban.Worker.Dispatches

/-!
# Worker restarts and the coordinator's cursor

A worker process persists a summary of each job at the writes of its state, may crash at any step,
and on a restart rebuilds each job from the saved summary with one terminal event
(`with_recovery_and_drain`, `worker/src/execution.rs`, lines 399-468). Output moves the tracker's
cursor without a save.

* `poll_makes_progress`: the tracker gets the terminal event, unless a recovered one lies at its
  cursor.
-/

namespace VibeKanban.Worker

open Cluster Lib EventJournal List Execution

/-! ## Model -/

/-- Where a worker process is between its start and its end, for one job. -/
inductive WorkerPhase where
  | down
  /-- the summary and evidence to recover from; `unsaved` until a changed summary is saved -/
  | loaded (summary : JobSummary) (evidence : TerminalEvidence) (unsaved : Bool)
  /-- the journal is rebuilt, its last sequence still has to be saved -/
  | rebuilt (summary : JobSummary) (execution : Execution)
  | running (execution : Execution)
  deriving DecidableEq

/-- A worker's job over restarts, with its file in the `RecoveryStore` and its tracker. -/
structure Restarts where
  capacity : ℕ
  worker : WorkerPhase
  disk : Option JobSummary
  /-- calls of `persist` that have not read the job's summary yet -/
  due : ℕ
  /-- summaries that `RecoveryStore::save` is about to rename into place -/
  saving : List JobSummary
  cursor : ℕ
  /-- the tracker has received a terminal event or resolved the job otherwise -/
  resolved : Bool

/-- The steps after which the code calls `persist`: those that write the state. -/
def Execution.persists (s : Execution) : Action → Bool
  | .writeStarting | .writeRunning | .quarantine => true
  | .cancel _ _ => s.cancellation.inCall
  | .finish .run _ =>
    match s.run with
    | .finishing (.writing _) => true
    | _ => false
  | .finish .reaper _ =>
    match s.reaper with
    | .finishing (.writing _) => true
    | _ => false
  | _ => false

inductive RestartAction where
  | job (a : Action)
  | beginSave
  | endSave (i : ℕ) (ok : Bool)
  | crash
  | load (now : Timestamp)
  | saveInterrupted
  | rebuild
  | insert
  /-- a poll of the tracker; `answered` is whether the database and the worker's inventory
      answer when the tracker needs them -/
  | poll (answered : Bool)

/-- The tracker stops at a terminal event and at `Indeterminate` (`container.rs`,
    lines 3589-3650). -/
def endsTracking : ExecutionEventPayload → Bool
  | .indeterminate _ => true
  | payload => (terminalEvidence payload).isSome

/-- What a poll does to the tracker (`container.rs`, lines 3270-3560): its cursor and whether
    it is done. A gap on a live job moves the cursor in front of the earliest retained event;
    any other gap ends the tracking, and so does a regressed journal once the inventory has
    answered. -/
def pollJournal (job : WorkerJob) (cursor : ℕ) (answered : Bool) : ℕ × Bool :=
  let batch := job.journal.replayAfter cursor
  match validateEventBatch batch with
  | .error gap =>
    if answered && !job.state.isTerminal then (gap.earliestAvailable - 1, false)
    else (cursor, true)
  | .ok () =>
    if workerJournalRegressed cursor batch.latestAvailable then (cursor, answered)
    else
      match batch.events.getLast? with
      | some event => (event.sequence, batch.events.any fun event => endsTracking event.payload)
      | none => (cursor, false)

namespace Restarts

def step (r : Restarts) : RestartAction → Option Restarts
  | .job a =>
    match r.worker with
    | .running s =>
      match s.step a with
      | some s' =>
        some { r with worker := .running s', due := if s.persists a then r.due + 1 else r.due }
      | none => none
    | _ => none
  | .beginSave =>
    match r.worker, r.due with
    | .running s, due + 1 => some { r with due := due, saving := r.saving ++ [s.job.summary] }
    | _, _ => none
  | .endSave i ok =>
    match r.saving[i]? with
    | some summary =>
      some
        { r with
          saving := r.saving.eraseIdx i
          disk := if ok then some summary else r.disk }
    | none => none
  | .crash => some { r with worker := .down, due := 0, saving := [] }
  | .load now =>
    match r.worker, r.disk with
    | .down, some summary =>
      let recovered := Execution.recoveredSummary summary now
      some { r with worker := .loaded recovered.1 recovered.2 (decide (recovered.1 ≠ summary)) }
    | _, _ => none
  | .saveInterrupted =>
    match r.worker with
    | .loaded summary evidence true =>
      some { r with worker := .loaded summary evidence false, disk := some summary }
    | _ => none
  | .rebuild =>
    match r.worker with
    | .loaded summary evidence false =>
      match Execution.rebuild summary r.capacity evidence with
      | .ok s => some { r with worker := .rebuilt summary s }
      | .error _ => some { r with worker := .down }
    | _ => none
  | .insert =>
    match r.worker with
    | .rebuilt summary s =>
      some
        { r with
          worker := .running s
          disk := some { summary with lastSequence := s.job.journal.lastSequence } }
    | _ => none
  | .poll answered =>
    if r.resolved then none
    else
      match r.worker with
      | .running s =>
        some
          { r with
            cursor := (pollJournal s.job r.cursor answered).1
            resolved := (pollJournal s.job r.cursor answered).2 }
      | _ => none

/-- A job that has just been dispatched; its tracker polls from the start. -/
def Initial (r : Restarts) : Prop :=
  ∃ d stall now s, Execution.dispatch d r.capacity stall now = .ok s ∧
    r.worker = .running s ∧ r.due = 1 ∧ r.saving = [] ∧ r.disk = none ∧
    r.cursor = 0 ∧ r.resolved = false

/-- No recovery starts from a summary whose last sequence is one below the cursor of a tracker
    that still waits for the job's end. -/
def CursorClear (r : Restarts) : RestartAction → Prop
  | .load _ => r.resolved = true ∨ ∀ saved ∈ r.disk, r.cursor ≠ saved.lastSequence + 1
  | _ => True

instance (r : Restarts) (a : RestartAction) : Decidable (r.CursorClear a) := by
  cases a <;> dsimp only [CursorClear] <;> infer_instance

end Restarts

/-! ## Polling a journal that has ended -/

/-- A poll at `cursor` delivers the terminal event, reports a gap, or is recognised as a
    regressed journal. -/
def Progress (j : EventJournal) (cursor : ℕ) : Prop :=
  let batch := j.replayAfter cursor
  (∃ event ∈ batch.events, cursor < event.sequence ∧
      (terminalEvidence event.payload).isSome = true) ∨
    batch.replayGap = true ∨ workerJournalRegressed cursor batch.latestAvailable = true
  deriving Decidable

variable {j : EventJournal}

theorem progress_iff (hj : j.Contiguous) (ht : j.TerminalLast)
    {evidence : TerminalEvidence} (hterm : j.terminal = some evidence) (cursor : ℕ) :
    Progress j cursor ↔ cursor ≠ j.lastSequence := by
  have hlatest : (j.replayAfter cursor).latestAvailable = j.lastSequence := rfl
  constructor
  · rintro (⟨event, hmem, hlt, -⟩ | hgap | hreg) rfl
    · have hmem' : event.sequence ∈ j.sequences := mem_map_of_mem (mem_filter.1 hmem).1
      rw [hj.sequences_eq, mem_window hj.length_lt.le] at hmem'
      unfold lastSequence at hlt
      omega
    · obtain ⟨seq, h1, h2, -⟩ := (replayGap_iff hj _).1 hgap
      omega
    · rw [hlatest, workerJournalRegressed, decide_eq_true_iff] at hreg
      omega
  · intro hne
    rcases Nat.lt_or_gt_of_ne hne with hlt | hgt
    · obtain ⟨event, hmem, hseq, hpayload⟩ := terminal_mem_replayAfter hj ht hterm hlt
      exact .inl ⟨event, hmem, hseq, by rw [hpayload]; rfl⟩
    · refine .inr (.inr ?_)
      rw [hlatest, workerJournalRegressed, decide_eq_true_iff]
      exact hgt

/-- A tracker that waits for the end of a job, and the journal it polls: behind the end while
    the job is live, anywhere but at the end once the journal has ended. -/
structure Waiting (j : EventJournal) (cursor : ℕ) : Prop where
  live : j.terminal = none → cursor ≤ j.lastSequence
  ended : j.terminal ≠ none → cursor ≠ j.lastSequence

variable {cursor : ℕ}

theorem waiting_append (hj : j.Contiguous)
    (hw : Waiting j cursor) (ts : Timestamp) (payload : ExecutionEventPayload) :
    Waiting (j.append ts payload).2 cursor := by
  rcases append_cases j ts payload with h | ⟨ho, h⟩ <;> rw [h]
  · exact hw
  · have hle := hw.live ho.1
    constructor <;> intro _ <;> rw [lastSequence_push _ hj] <;> omega

theorem waiting_poll {job : WorkerJob} (hj : job.journal.Contiguous)
    (ht : job.journal.TerminalLast) (hw : Waiting job.journal cursor)
    {answered : Bool} (hr : (pollJournal job cursor answered).2 = false) :
    Waiting job.journal (pollJournal job cursor answered).1 := by
  have hlen := hj.length_lt
  have hlast : job.journal.lastSequence = job.journal.nextSequence - 1 := rfl
  unfold pollJournal at hr ⊢
  dsimp only at hr ⊢
  split at hr
  · -- a gap: the tracker goes on in front of the earliest retained event
    rename_i hgap
    have hearliest := earliestAvailable_of_error hj hgap
    split_ifs at hr ⊢
    constructor
    · intro _
      omega
    · intro hterm
      have hpos := length_pos_iff.2 (events_ne_nil ht hterm)
      omega
  · split_ifs at hr ⊢ with hreg
    · exact hw
    · have hle : cursor ≤ job.journal.lastSequence := by
        have hlatest : (job.journal.replayAfter cursor).latestAvailable =
          job.journal.lastSequence := rfl
        rw [hlatest, workerJournalRegressed, decide_eq_true_iff] at hreg
        omega
      split at hr
      · rename_i event hevent
        have hmem := (mem_filter.1 (mem_of_getLast? hevent)).1
        constructor
        · intro _
          exact sequence_le_lastSequence hj hmem
        · -- a tracker behind the terminal event has just received it
          intro hterm
          obtain ⟨evidence, he⟩ := Option.ne_none_iff_exists'.1 hterm
          have hne := hw.ended hterm
          obtain ⟨final, hfinal, -, hpayload⟩ :=
            terminal_mem_replayAfter hj ht he (by omega : cursor < _)
          rw [any_eq_false] at hr
          refine absurd ?_ (hr final hfinal)
          unfold endsTracking
          split
          · rfl
          · rw [hpayload]
            rfl
      · exact hw

namespace Restarts

variable {r r' : Restarts} {s : Execution}

/-! ## Runs of a worker that restarts -/

/-- The invariant: a tracker whose job is not resolved waits, and a recovery in progress will
    not put the terminal event at its cursor. -/
structure Tracked (r : Restarts) : Prop where
  running : ∀ s, r.worker = .running s → s.job.journal.Contiguous ∧ s.job.journal.TerminalLast ∧
    (r.resolved = false → Waiting s.job.journal r.cursor)
  loaded : ∀ summary evidence unsaved, r.worker = .loaded summary evidence unsaved →
    r.resolved = false → r.cursor ≠ summary.lastSequence + 1
  rebuilt : ∀ summary s, r.worker = .rebuilt summary s → s.job.journal.Contiguous ∧
    s.job.journal.TerminalLast ∧ (r.resolved = false → Waiting s.job.journal r.cursor)

theorem tracked_of_initial (h : r.Initial) : r.Tracked := by
  obtain ⟨d, stall, now, s, hd, hw, -, -, -, hc, -⟩ := h
  refine ⟨?_, ?_, ?_⟩
  · intro s' hs'
    rw [hw] at hs'
    cases hs'
    obtain ⟨journal, hnew, hjournal⟩ := journal_dispatch hd
    have hterm := (dispatch_eq_ok hd).2.2.2.2.2
    rw [hjournal, hc]
    refine ⟨contiguous_append (contiguous_new hnew),
      terminalLast_append (terminalLast_new hnew), fun _ => ?_⟩
    rw [hjournal] at hterm
    exact ⟨fun _ => Nat.zero_le _, fun hne => absurd hterm hne⟩
  · intro summary evidence unsaved h
    rw [hw] at h
    cases h
  · intro summary s' h
    rw [hw] at h
    cases h

theorem lastSequence_recoveredSummary (summary : JobSummary) (now : Timestamp) :
    (recoveredSummary summary now).1.lastSequence = summary.lastSequence := by
  unfold recoveredSummary
  split
  · split_ifs <;> rfl
  · rfl

theorem tracked_step {a : RestartAction} (h : r.Tracked) (hok : r.CursorClear a)
    (h1 : r.step a = some r') : r'.Tracked := by
  cases a with simp only [step] at h1
  | job a =>
    split at h1
    · rename_i s hw
      obtain ⟨hj, ht, hwait⟩ := h.running s hw
      split at h1 <;> cases h1
      rename_i hs
      refine ⟨?_, by simp, by simp⟩
      intro s'' heq
      cases heq
      rcases journal_step hs with hsame | ⟨ts, p, happ⟩
      · rw [hsame]
        exact ⟨hj, ht, hwait⟩
      · rw [happ]
        exact ⟨contiguous_append hj, terminalLast_append ht,
          fun hr => waiting_append hj (hwait hr) ts p⟩
    · cases h1
  | beginSave | endSave i ok =>
    split at h1 <;> cases h1
    exact ⟨h.running, h.loaded, h.rebuilt⟩
  | crash =>
    cases h1
    exact ⟨by simp, by simp, by simp⟩
  | load now =>
    split at h1 <;> cases h1
    rename_i saved hw hdisk
    refine ⟨by simp, ?_, by simp⟩
    intro summary evidence unsaved heq hr
    cases heq
    rw [lastSequence_recoveredSummary]
    rcases hok with hres | hclear
    · rw [hres] at hr
      cases hr
    · exact hclear saved hdisk
  | saveInterrupted =>
    split at h1 <;> cases h1
    rename_i hw
    refine ⟨by simp, ?_, by simp⟩
    intro summary' evidence' unsaved heq
    cases heq
    exact h.loaded _ _ _ hw
  | rebuild =>
    split at h1
    · rename_i hw
      split at h1 <;> cases h1
      · rename_i hs
        refine ⟨by simp, by simp, ?_⟩
        intro summary' s' heq
        cases heq
        have hrec := (rebuild_eq_ok hs).2.2.2.2
        refine ⟨contiguous_recover hrec, terminalLast_recover hrec, fun hr => ⟨?_, fun _ => ?_⟩⟩
        · rw [terminal_recover hrec]
          simp
        · rw [lastSequence_recover hrec]
          exact h.loaded _ _ _ hw hr
      · exact ⟨by simp, by simp, by simp⟩
    · cases h1
  | insert =>
    split at h1 <;> cases h1
    rename_i summary s hw
    refine ⟨?_, by simp, by simp⟩
    intro s' heq
    cases heq
    exact h.rebuilt summary s hw
  | poll answered =>
    split_ifs at h1 with hres
    split at h1
    · rename_i s hw
      obtain ⟨hj, ht, hwait⟩ := h.running s hw
      cases h1
      refine ⟨?_, by simp [hw], by simp [hw]⟩
      intro s' heq
      rw [hw] at heq
      cases heq
      exact ⟨hj, ht, fun hr => waiting_poll hj ht (hwait (by simpa using hres)) hr⟩
    · cases h1

/-- In every run of a worker that persists, crashes and recovers, in which no
    recovery of an unresolved job starts from a summary one below the tracker's cursor: a
    worker that holds a terminal event which the tracker has not received answers the next poll
    with that event, a gap, or a journal recognised as regressed. -/
theorem poll_makes_progress (h : Reachable step CursorClear Initial r)
    (hw : r.worker = .running s) (hterm : s.job.journal.terminal ≠ none)
    (hr : r.resolved = false) : Progress s.job.journal r.cursor := by
  have hinv : r.Tracked := Reachable.invariant (P := Tracked) h (fun _ => tracked_of_initial)
    fun _ _ _ hi hok h1 => tracked_step hi hok h1
  obtain ⟨hj, ht, hwait⟩ := hinv.running s hw
  obtain ⟨evidence, he⟩ := Option.ne_none_iff_exists'.1 hterm
  exact (progress_iff hj ht he r.cursor).2 ((hwait hr).ended hterm)

/-! ## Runs on concrete inputs -/

def dispatched (d : Execution.Dispatch) (capacity : ℕ) : Option Restarts :=
  match Execution.dispatch d capacity none 0 with
  | .ok s => some
    { capacity := capacity, worker := .running s, disk := none, due := 1, saving := [],
      cursor := 0, resolved := false }
  | .error _ => none

theorem initial_of_dispatched {d : Execution.Dispatch} {capacity : ℕ}
    (h : dispatched d capacity = some r) : r.Initial := by
  unfold dispatched at h
  split at h <;> cases h
  rename_i s hs
  exact ⟨d, none, 0, s, hs, rfl, rfl, rfl, rfl, rfl, rfl⟩

/-- What a worker that runs a job holds: whether the job has ended, whether its tracker is
    done, and whether the tracker's next poll makes progress. -/
def outlook (r : Restarts) : Option (Bool × Bool × Bool) :=
  match r.worker with
  | .running s =>
    some (s.job.journal.terminal.isSome, r.resolved, decide (Progress s.job.journal r.cursor))
  | _ => none

theorem outlook_eq_some {ended done progress : Bool}
    (h : r.outlook = some (ended, done, progress)) :
    ∃ s, r.worker = .running s ∧ s.job.journal.terminal.isSome = ended ∧ r.resolved = done ∧
      decide (Progress s.job.journal r.cursor) = progress := by
  unfold outlook at h
  split at h
  · rename_i s hw
    simp only [Option.some.injEq, Prod.mk.injEq] at h
    exact ⟨s, hw, h⟩
  · cases h

/-- A save of the job's current summary. -/
def saves : List RestartAction := [.beginSave, .endSave 0 true]

/-- A job that is started, with its three saves; the last saved sequence is two. -/
def startedAndSaved : List RestartAction :=
  saves ++ [.job (.setStarting 1), .job .writeStarting] ++ saves ++
    [.job (.spawned (.ok .running)), .job .handOff, .job .writeRunning] ++ saves

def crashAndRecover : List RestartAction := [.crash, .load 9, .saveInterrupted, .rebuild, .insert]

/-- One event of output that the tracker has read before the crash puts the recovered event at
    the tracker's cursor: it is never delivered. -/
theorem recovered_event_not_delivered : ∃ r s, Reachable step anyStep Initial r ∧
    r.worker = .running s ∧ s.job.journal.terminal ≠ none ∧ r.resolved = false ∧
    ¬ Progress s.job.journal r.cursor := by
  have h1 : ((dispatched exampleDispatch 16).bind fun r => exec step anyStep r
      (startedAndSaved ++ [.job (.output 3 false "b25l"), .poll true] ++ crashAndRecover)).map
      outlook = some (some (true, false, false)) := by decide
  obtain ⟨r, hr, hout⟩ := Option.map_eq_some_iff.1 h1
  obtain ⟨r₀, h0, hexec⟩ := Option.bind_eq_some_iff.1 hr
  obtain ⟨s, hw, hended, hres, hprog⟩ := outlook_eq_some hout
  refine ⟨r, s, reachable_of_exec (initial_of_dispatched h0) hexec, hw, ?_, hres, ?_⟩
  · intro hterm
    rw [hterm] at hended
    cases hended
  · exact of_decide_eq_false hprog

/-- A tracker that has not read that event is served the recovered one. -/
theorem recovered_event_delivered : ∃ (r : Restarts) (s : Execution), r.worker = .running s ∧
    s.job.journal.terminal ≠ none ∧ Progress s.job.journal r.cursor := by
  have h1 : ((dispatched exampleDispatch 16).bind fun r => exec step CursorClear r
      (startedAndSaved ++ [.poll true, .job (.output 3 false "b25l")] ++ crashAndRecover)).map
      (fun r => r.outlook.map fun o => (o.1, o.2.1)) = some (some (true, false)) := by decide
  obtain ⟨r, hr, hout⟩ := Option.map_eq_some_iff.1 h1
  obtain ⟨r₀, h0, hexec⟩ := Option.bind_eq_some_iff.1 hr
  obtain ⟨⟨ended, done, progress⟩, hsome, hpair⟩ := Option.map_eq_some_iff.1 hout
  cases hpair
  obtain ⟨s, hw, hended, hres, -⟩ := outlook_eq_some hsome
  have hterm : s.job.journal.terminal ≠ none := by
    intro hterm
    rw [hterm] at hended
    cases hended
  exact ⟨r, s, hw, hterm,
    poll_makes_progress (reachable_of_exec (initial_of_dispatched h0) hexec) hw hterm hres⟩

end Restarts

end VibeKanban.Worker

import VibeKanban.Coordinator.Tracker
import VibeKanban.Lib.NumberedLog

/-!
# What the persisted cursor owes

The column `last_event_sequence` is where a later coordinator resumes: whatever lies at or below it
is never read again.

* `persisted_cursor_keeps_obligations`: it stays below each request that waits for its response, and
  below the terminal event until the process row holds an outcome.
-/

namespace VibeKanban.Coordinator

open Cluster Lib Output Worker List EventJournal Bool

/-! ## The events a worker has appended -/

/-- `history` is everything that has been appended to the journal `j`. -/
structure Follows (j : EventJournal) (history : List ExecutionEvent) : Prop where
  contiguous : j.Contiguous
  terminalLast : j.TerminalLast
  numbered : Numbered ExecutionEvent.sequence history
  length_eq : history.length = j.lastSequence
  suffix : j.events <:+ history
  open_of_none : j.terminal = none → ∀ e ∈ history, terminalEvidence e.payload = none
  terminal_last : ∀ e ∈ history, terminalEvidence e.payload ≠ none → e.sequence = j.lastSequence

variable {j : EventJournal} {history : List ExecutionEvent} {e : ExecutionEvent}
  {capacity : ℕ} {c : CoordinatorProcess} {w' : RawLogWriter} {pushed : Option ℕ}

theorem Follows.sequence_le (h : Follows j history) (he : e ∈ history) :
    e.sequence ≤ j.lastSequence := by
  rw [← h.length_eq]
  exact h.numbered.number_le he

theorem Follows.lastSequence_le (h : Follows j history) : j.lastSequence ≤ u64Max := by
  have hnext := h.contiguous.next_le
  unfold lastSequence
  omega

theorem follows_new {id : ℕ} (h : new id capacity = .ok j) : Follows j [] := by
  refine ⟨contiguous_new h, terminalLast_new h, Numbered.nil, ?_, ?_, by simp, by simp⟩
  · unfold new at h
    split_ifs at h
    cases h
    rfl
  · unfold new at h
    split_ifs at h
    cases h
    exact suffix_rfl

section

variable (h : Follows j history)
include h

theorem Follows.append (ho : j.Open) (ts : Timestamp) (payload : ExecutionEventPayload) :
    Follows (j.append ts payload).2 (history ++ [j.stamped ts payload]) := by
  have hcont : (j.append ts payload).2.Contiguous := contiguous_append h.contiguous
  have hterm : (j.append ts payload).2.TerminalLast := terminalLast_append h.terminalLast
  rw [append_of_open ho] at hcont hterm ⊢
  have hlast := lastSequence_push (j.stamped ts payload) h.contiguous
  have hnext : (j.stamped ts payload).sequence = j.lastSequence + 1 := by
    have hlt := h.contiguous.length_lt
    show j.nextSequence = j.nextSequence - 1 + 1
    omega
  refine ⟨hcont, hterm, h.numbered.concat (by rw [hnext, h.length_eq]), ?_, ?_, ?_, ?_⟩
  · rw [length_append, length_singleton, hlast, h.length_eq]
  · -- trimming drops from the front only
    unfold push
    obtain ⟨old, hold⟩ := h.suffix
    split_ifs
    · refine ⟨old ++ j.events.take 1, ?_⟩
      rw [← hold, append_assoc, append_assoc, ← append_assoc (j.events.take 1),
        ← drop_one, take_append_drop]
    · exact ⟨old, by rw [← hold, append_assoc]⟩
  · intro hnone e he
    unfold push at hnone
    dsimp only at hnone
    split at hnone
    · cases hnone
    · rename_i hpayload
      rcases mem_append.1 he with hold | hnew
      · exact h.open_of_none ho.1 e hold
      · rw [mem_singleton.1 hnew]
        exact hpayload
  · intro e he hne
    rcases mem_append.1 he with hold | hnew
    · exact absurd (h.open_of_none ho.1 e hold) hne
    · rw [mem_singleton.1 hnew, hlast, hnext]

theorem Follows.not_terminal_of_lt (he : e ∈ history)
    (hlt : e.sequence < j.nextSequence - j.events.length) : terminalEvidence e.payload = none := by
  by_contra hne
  have hseq := h.terminal_last e he hne
  have hterm : j.terminal ≠ none := fun hnone => hne (h.open_of_none hnone e he)
  have hpos := length_pos_iff.2 (events_ne_nil h.terminalLast hterm)
  unfold lastSequence at hseq
  omega

theorem Follows.replayed {after : ℕ} (hgap : (j.replayAfter after).replayGap = false) :
    (∀ e ∈ (j.replayAfter after).events, e ∈ history) ∧
      (j.replayAfter after).events.map ExecutionEvent.sequence =
        range' (after + 1) (j.replayAfter after).events.length := by
  have hseq := sequences_replayAfter h.contiguous hgap
  refine ⟨fun e he => h.suffix.subset (mem_filter.1 he).1, ?_⟩
  have hlen := congrArg length hseq
  rw [length_map, length_range'] at hlen
  rw [hseq, hlen]

end

theorem CoordinatorProcess.setWriter_eq_tracking {w : RawLogWriter}
    {t : Tracker} (h : c.setWriter w = .tracking t w') : ∃ w'', c = .tracking t w'' := by
  cases c <;> cases h
  exact ⟨_, rfl⟩

theorem CoordinatorProcess.setWriter_eq_handingOff {w : RawLogWriter}
    {t : Tracker} (h : c.setWriter w = .handingOff t pushed w') :
    ∃ w'', c = .handingOff t pushed w'' := by
  cases c <;> cases h
  exact ⟨_, rfl⟩

namespace Tracking

variable {s s' : Tracking} {t t' : Tracker} {w : RawLogWriter} {m n : ℕ}

/-! ## Obligations -/

/-- The event `k` was trimmed, and the tracker has reported the gap on a live job. -/
def Lost (s : Tracking) (k : ℕ) : Prop := ∃ gap ∈ s.gaps, gap.1 < k ∧ k < gap.2

/-- The row has held the outcome that `evidence` stands for, or that of an earlier stop. -/
def Recorded (s : Tracking) (evidence : TerminalEvidence) : Prop :=
  ∃ status ∈ s.outcomes, status = processState evidence.state ∨ status.wasStopped = true

/-- Nothing is owed for an event. -/
structure Discharged (s : Tracking) (e : ExecutionEvent) : Prop where
  answered : ∀ id, e.payload = .interactionRequested id →
    e.sequence ∈ s.delivered ∨ s.Lost e.sequence
  not_terminal : terminalEvidence e.payload = none

/-- A cursor at or below which nothing is owed. -/
structure Clear (s : Tracking) (n : ℕ) : Prop where
  le : n ≤ s.journal.lastSequence
  upTo : UpTo ExecutionEvent.sequence s.history n s.Discharged

/-- Every request up to `n` has been answered, lost, or waits in `unresolved`. -/
def Routed (s : Tracking) (n : ℕ) (unresolved : UnresolvedInteractions) : Prop :=
  UpTo ExecutionEvent.sequence s.history n fun e => ∀ id, e.payload = .interactionRequested id →
    e.sequence ∈ s.delivered ∨ s.Lost e.sequence ∨ e.sequence ∈ unresolved

def NoTerminal (s : Tracking) (n : ℕ) : Prop :=
  UpTo ExecutionEvent.sequence s.history n fun e => terminalEvidence e.payload = none

/-- The worker has ended with the outcome `status`, in an event up to `n`. -/
def Reported (s : Tracking) (n : ℕ) (status : ExecutionProcessStatus) : Prop :=
  ∃ e ∈ s.history, e.sequence ≤ n ∧
    ∃ evidence, terminalEvidence e.payload = some evidence ∧ processState evidence.state = status

/-- The worker has ended in an event up to `n`, and the row has held the outcome. -/
def Released (s : Tracking) (n : ℕ) : Prop :=
  ∃ e ∈ s.history, e.sequence ≤ n ∧
    ∃ evidence, terminalEvidence e.payload = some evidence ∧ s.Recorded evidence

theorem durableWorkerCursor_le (cursor : ℕ) (unresolved : UnresolvedInteractions) :
    durableWorkerCursor cursor unresolved ≤ cursor := by
  unfold durableWorkerCursor
  split
  · exact min_le_left _ _
  · exact le_rfl

variable {unresolved : UnresolvedInteractions} {cursor : ℕ}

theorem not_mem_of_le_durable {k : ℕ}
    (hpos : 0 < k) (hk : k ≤ durableWorkerCursor cursor unresolved) : k ∉ unresolved := by
  intro hmem
  unfold durableWorkerCursor at hk
  split at hk
  · rename_i hmin
    have hle := (min?_eq_some_iff.1 hmin).2 k hmem
    omega
  · rename_i hmin
    rw [min?_eq_none_iff] at hmin
    rw [hmin] at hmem
    cases hmem

theorem clear_durable (hf : Follows s.journal s.history) (hle : cursor ≤ s.journal.lastSequence)
    (hr : s.Routed cursor unresolved) (ht : s.NoTerminal cursor) :
    s.Clear (durableWorkerCursor cursor unresolved) := by
  have hdur := durableWorkerCursor_le cursor unresolved
  refine ⟨hdur.trans hle, fun e he hseq => ⟨fun id hid => ?_, ht e he (hseq.trans hdur)⟩⟩
  rcases hr e he (hseq.trans hdur) id hid with h | h | h
  · exact .inl h
  · exact .inr h
  · exact absurd h (not_mem_of_le_durable (hf.numbered.number_pos he) hseq)

theorem Clear.max (hm : s.Clear m) (hn : s.Clear n) : s.Clear (max m n) := by
  rcases max_choice m n with h | h <;> rw [h]
  · exact hm
  · exact hn

theorem Clear.routed (h : s.Clear n) (unresolved : UnresolvedInteractions) :
    s.Routed n unresolved := by
  refine h.upTo.imp fun e he id hid => ?_
  rcases he.answered id hid with h1 | h1
  · exact .inl h1
  · exact .inr (.inl h1)

theorem Clear.noTerminal (h : s.Clear n) : s.NoTerminal n := h.upTo.imp fun _ he => he.not_terminal

theorem clear_zero (hf : Follows s.journal s.history) : s.Clear 0 :=
  ⟨Nat.zero_le _, UpTo.zero hf.numbered⟩

/-! ## What a step adds -/

/-- Everything a run only ever adds to. -/
structure Extends (s s' : Tracking) : Prop where
  history : ∃ more, s'.history = s.history ++ more ∧ ∀ e ∈ more, s.journal.lastSequence < e.sequence
  last_le : s.journal.lastSequence ≤ s'.journal.lastSequence
  delivered : s.delivered ⊆ s'.delivered
  gaps : s.gaps ⊆ s'.gaps
  outcomes : s.outcomes ⊆ s'.outcomes

theorem Extends.upTo {P : ExecutionEvent → Prop} (h : s.Extends s')
    (hn : n ≤ s.journal.lastSequence) (hP : UpTo ExecutionEvent.sequence s.history n P) :
    UpTo ExecutionEvent.sequence s'.history n P := by
  obtain ⟨more, heq, hmore⟩ := h.history
  rw [heq]
  exact hP.append fun e he => lt_of_le_of_lt hn (hmore e he)

variable {e : ExecutionEvent} {evidence : TerminalEvidence}

theorem Extends.mem (h : s.Extends s') (he : e ∈ s.history) : e ∈ s'.history := by
  obtain ⟨more, heq, -⟩ := h.history
  rw [heq]
  exact mem_append_left _ he

theorem Lost.extends {k : ℕ} (h : s.Extends s') (hk : s.Lost k) : s'.Lost k := by
  obtain ⟨gap, hgap, hlt⟩ := hk
  exact ⟨gap, h.gaps hgap, hlt⟩

theorem Recorded.extends (h : s.Extends s') (hr : s.Recorded evidence) : s'.Recorded evidence := by
  obtain ⟨status, hmem, hst⟩ := hr
  exact ⟨status, h.outcomes hmem, hst⟩

theorem Clear.extends (h : s.Extends s') (hc : s.Clear n) : s'.Clear n := by
  refine ⟨hc.le.trans h.last_le, h.upTo hc.le (hc.upTo.imp fun e he => ⟨fun id hid => ?_,
    he.not_terminal⟩)⟩
  exact (he.answered id hid).imp (fun h1 => h.delivered h1) (Lost.extends h)

theorem Routed.extends (h : s.Extends s')
    (hn : n ≤ s.journal.lastSequence) (hr : s.Routed n unresolved) : s'.Routed n unresolved := by
  refine h.upTo hn (hr.imp fun e he id hid => ?_)
  exact (he id hid).imp (fun h1 => h.delivered h1) (Or.imp_left (Lost.extends h))

variable {status : ExecutionProcessStatus}

theorem Reported.extends (h : s.Extends s') (hr : s.Reported n status) : s'.Reported n status := by
  obtain ⟨e, he, hrest⟩ := hr
  exact ⟨e, h.mem he, hrest⟩

theorem Released.extends (h : s.Extends s') (hr : s.Released n) : s'.Released n := by
  obtain ⟨e, he, hle, evidence, hev, hrec⟩ := hr
  exact ⟨e, h.mem he, hle, evidence, hev, hrec.extends h⟩

/-! ## The invariant -/

/-- The events that a batch still holds are those after the cursor. -/
structure Served (s : Tracking) (cursor : ℕ) (events : List ExecutionEvent) : Prop where
  mem : ∀ e ∈ events, e ∈ s.history
  sequences : events.map ExecutionEvent.sequence = range' (cursor + 1) events.length

/-- A settlement records an outcome; one that acknowledges the full cursor afterwards records
    the worker's own, and one that polls again has seen no end. -/
structure Settles (s : Tracking) (cursor : ℕ) (settlement : Settlement) : Prop where
  not_running : settlement.processState ≠ .running
  reported : settlement.latestAvailable ≠ none → s.Reported cursor settlement.processState
  polls : settlement.retry = .poll → s.NoTerminal cursor

/-- What holds of the tracker's variables at each of its await points. -/
def PcSound (s : Tracking) (t : Tracker) : Prop :=
  match t.pc with
  | .polling => s.NoTerminal t.cursor
  | .gap gap | .liveGap gap =>
    gap.earliestAvailable - 1 ≤ s.journal.lastSequence ∧ s.NoTerminal (gap.earliestAvailable - 1)
  -- with one journal the cursor never runs ahead
  | .regressed _ => False
  | .batch batch =>
    s.Served t.cursor batch.events ∧ (batch.batchOutputOnly = true → s.NoTerminal t.cursor) ∧
      (batch.terminal = none → s.NoTerminal t.cursor) ∧
      ∀ status, batch.terminal = some status → s.Reported t.cursor status
  | .acking durable _ | .acked durable => s.Clear durable ∧ s.NoTerminal t.cursor
  | .gapOutcome _ status => status ≠ .running
  | .settling settlement | .recording settlement => s.Settles t.cursor settlement
  | .releasing _ => s.Released t.cursor
  | .finalizing | .done => True

/-- The invariant of a running tracker. -/
structure Sound (s : Tracking) (t : Tracker) : Prop where
  cursor_le : t.cursor ≤ s.journal.lastSequence
  routed : s.Routed t.cursor t.unresolved
  pushed : s.Clear t.pushed
  pc : s.PcSound t

/-- The invariant of a persisted cursor. -/
structure Persisted (s : Tracking) (job : ExecutionWorkerJob) : Prop where
  nonneg : 0 ≤ job.lastEventSequence
  clear : s.Clear job.lastEventSequence.toNat ∨ s.Released job.lastEventSequence.toNat

/-- The invariant of the system. -/
structure Tracked (s : Tracking) : Prop where
  follows : Follows s.journal s.history
  persisted : s.Persisted s.job
  running : s.outcomes ≠ [] → s.status ≠ .running
  status_mem : s.status ≠ .running → s.status ∈ s.outcomes
  tracking : ∀ t w, s.coordinator = .tracking t w → s.Sound t
  handingOff : ∀ t pushed w, s.coordinator = .handingOff t (some pushed) w → s.Clear pushed

theorem Sound.at {pc : TrackerPc} (hs : s.Sound t) (hpc : t.pc = pc) :
    s.PcSound { t with pc := pc } := by
  subst hpc
  exact hs.pc

theorem pcSound_extends (h : s.Extends s') (hle : t.cursor ≤ s.journal.lastSequence)
    (hpc : s.PcSound t) : s'.PcSound t := by
  have hno : ∀ {n}, n ≤ s.journal.lastSequence → s.NoTerminal n → s'.NoTerminal n :=
    fun hn => h.upTo hn
  unfold PcSound at hpc ⊢
  split at hpc
  · exact hno hle hpc
  iterate 2 exact ⟨hpc.1.trans h.last_le, hno hpc.1 hpc.2⟩
  · exact hpc
  · obtain ⟨hserved, houtput, hnone, hsome⟩ := hpc
    exact ⟨⟨fun e he => h.mem (hserved.mem e he), hserved.sequences⟩,
      fun h1 => hno hle (houtput h1), fun h1 => hno hle (hnone h1),
      fun status h1 => (hsome status h1).extends h⟩
  iterate 2 exact ⟨hpc.1.extends h, hno hle hpc.2⟩
  · exact hpc
  iterate 2
    exact ⟨hpc.not_running, fun h1 => (hpc.reported h1).extends h, fun h1 => hno hle (hpc.polls h1)⟩
  · exact hpc.extends h
  all_goals exact trivial

theorem Sound.extends (h : s.Extends s') (hs : s.Sound t) : s'.Sound t :=
  ⟨hs.cursor_le.trans h.last_le, hs.routed.extends h hs.cursor_le, hs.pushed.extends h,
    pcSound_extends h hs.cursor_le hs.pc⟩

variable {job : ExecutionWorkerJob}

theorem Persisted.extends (h : s.Extends s') (hs : s.Persisted job) : s'.Persisted job :=
  ⟨hs.nonneg, hs.clear.imp (Clear.extends h) (Released.extends h)⟩

/-! ## The tracker keeps its invariant -/

theorem sound_poll (hf : Follows s.journal s.history) (hs : s.Sound t) (hpc : t.pc = .polling) :
    s.Sound (t.poll s.journal) := by
  have ht : s.NoTerminal t.cursor := hs.at hpc
  unfold Tracker.poll
  dsimp only
  split
  · rename_i hgap
    have hearliest := earliestAvailable_of_error hf.contiguous hgap
    have hlast : s.journal.lastSequence = s.journal.nextSequence - 1 := rfl
    refine ⟨hs.cursor_le, hs.routed, hs.pushed, ?_, ?_⟩
    · rw [hearliest]
      omega
    · intro e he hle
      have hpos := hf.numbered.number_pos he
      exact hf.not_terminal_of_lt he (by omega)
  · rename_i hok
    have hreg : workerJournalRegressed t.cursor (s.journal.replayAfter t.cursor).latestAvailable =
        false := decide_eq_false (Nat.not_lt.2 hs.cursor_le)
    rw [hreg, if_neg (by simp)]
    have hgap : (s.journal.replayAfter t.cursor).replayGap = false := by
      by_contra hne
      rw [not_eq_false] at hne
      rw [validateEventBatch, if_pos hne] at hok
      cases hok
    obtain ⟨hmem, hseq⟩ := hf.replayed hgap
    exact ⟨hs.cursor_le, hs.routed, hs.pushed, ⟨hmem, hseq⟩, fun _ => ht, fun _ => ht,
      fun status h => by cases h⟩

@[simp] theorem processState_ne_running (state : TerminalState) :
    processState state ≠ .running := by
  cases state <;> simp [processState]

theorem replayGapTerminalEvidence_ne_running {known : ExecutionWorkerJob}
    {workerNodeId executionId : Uuid} {earliest : ℕ} {summary : JobSummary}
    (h : replayGapTerminalEvidence known workerNodeId executionId earliest summary =
      some (status, evidence)) : status ≠ .running := by
  unfold replayGapTerminalEvidence terminalSummaryStates at h
  split_ifs at h
  split at h
  · split_ifs at h
    cases h
    exact processState_ne_running _
  · cases h

variable {gap : ReplayGapError} {events : List ExecutionEvent} {batch : OpenBatch}

theorem sound_checkGap (hs : s.Sound t) (hpc : t.pc = .gap gap)
    (known : ExecutionWorkerJob) (workerNodeId executionId : Uuid)
    (inventory : Option (List JobSummary)) :
    s.Sound (t.checkGap known workerNodeId executionId gap inventory) := by
  have hgap := hs.at hpc
  unfold Tracker.checkGap
  split
  · exact ⟨hs.cursor_le, hs.routed, hs.pushed, fun h => by cases h⟩
  · split
    · rename_i hfind
      obtain ⟨summary, -, hsummary⟩ := exists_of_findSome?_eq_some hfind
      exact ⟨hs.cursor_le, hs.routed, hs.pushed, replayGapTerminalEvidence_ne_running hsummary⟩
    · split_ifs
      · exact ⟨hs.cursor_le, hs.routed, hs.pushed, hgap⟩
      · exact ⟨hs.cursor_le, hs.routed, hs.pushed, fun h => by cases h⟩

theorem sound_jump (hf : Follows s.journal s.history) (hs : s.Sound t)
    (hpc : t.pc = .liveGap gap) (hlost : (t.cursor, gap.earliestAvailable) ∈ s.gaps) :
    s.Sound (t.jump gap) := by
  have hgap := hs.at hpc
  have hrouted : s.Routed (gap.earliestAvailable - 1) t.unresolved := by
    intro e he hle id hid
    by_cases hold : e.sequence ≤ t.cursor
    · exact hs.routed e he hold id hid
    · have hpos := hf.numbered.number_pos he
      exact .inr (.inl ⟨_, hlost, by omega, by omega⟩)
  exact ⟨hgap.1, hrouted, hs.pushed.max (clear_durable hf hgap.1 hrouted hgap.2), hgap.2⟩

theorem workerEventIsOutput_eq_true {payload : ExecutionEventPayload}
    (h : workerEventIsOutput payload = true) :
    terminalEvidence payload = none ∧ ∀ id, payload ≠ .interactionRequested id := by
  cases payload <;> simp [workerEventIsOutput, terminalEvidence] at h ⊢

theorem Served.tail (h : s.Served n (e :: events)) :
    e ∈ s.history ∧ e.sequence = n + 1 ∧ s.Served e.sequence events := by
  have hseq := h.sequences
  simp only [map_cons, length_cons, range'_succ, cons.injEq] at hseq
  refine ⟨h.mem e mem_cons_self, hseq.1, fun e' he' => h.mem e' (mem_cons_of_mem _ he'), ?_⟩
  rw [hseq.1]
  exact hseq.2

theorem Reported.of_le (h : s.Reported m status) (hmn : m ≤ n) : s.Reported n status := by
  obtain ⟨e, he, hle, hrest⟩ := h
  exact ⟨e, he, hle.trans hmn, hrest⟩

theorem Reported.ne_running (h : s.Reported n status) : status ≠ .running := by
  obtain ⟨-, -, -, evidence, -, rfl⟩ := h
  exact processState_ne_running _

section

variable (hf : Follows s.journal s.history) (hs : s.Sound t) (hpc : t.pc = .batch batch)
include hf hs hpc

theorem sound_event (hevents : batch.events = e :: events) : s.Sound (t.event batch e events) := by
  obtain ⟨hserved, houtput, hnone, hsome⟩ := hs.at hpc
  rw [hevents] at hserved
  obtain ⟨hmem, hnext, htail⟩ := hserved.tail
  have hle : e.sequence ≤ s.journal.lastSequence := hf.sequence_le hmem
  have hno : s.NoTerminal t.cursor → terminalEvidence e.payload = none → s.NoTerminal e.sequence :=
    fun h1 h2 => UpTo.succ h1 hf.numbered hmem hnext h2
  have hrouted : ∀ unresolved, t.unresolved ⊆ unresolved →
      (∀ id, e.payload = .interactionRequested id → e.sequence ∈ unresolved) →
      s.Routed e.sequence unresolved := by
    intro unresolved hsub hnew
    refine UpTo.succ (hs.routed.imp fun e' he' id hid => ?_) hf.numbered hmem hnext
      fun id hid => .inr (.inr (hnew id hid))
    exact (he' id hid).imp_right (Or.imp_right fun h => hsub h)
  refine ⟨hle, ?_, ?_, ?_⟩
  · -- a new request joins the unresolved ones
    unfold Tracker.event
    dsimp only
    split
    · exact hrouted _ (fun k hk => mem_insert_of_mem hk) fun _ _ => mem_insert_self
    · rename_i hni
      exact hrouted _ (Subset.refl _) fun id hid => absurd hid (hni id)
  · -- the pushed sequence follows output only
    show s.Clear (if (batch.batchOutputOnly && workerEventIsOutput e.payload) = true then
      max t.pushed (durableWorkerCursor e.sequence t.unresolved) else t.pushed)
    split_ifs with hif
    · obtain ⟨h1, h2⟩ := and_eq_true_iff.1 hif
      obtain ⟨hnt, hni⟩ := workerEventIsOutput_eq_true h2
      exact hs.pushed.max (clear_durable hf hle
        (hrouted _ (Subset.refl _) fun id hid => absurd hid (hni id)) (hno (houtput h1) hnt))
    · exact hs.pushed
  · have hended : ∀ evidence, terminalEvidence e.payload = some evidence →
        workerEventIsOutput e.payload = false →
        s.Served e.sequence events ∧
          ((batch.batchOutputOnly && workerEventIsOutput e.payload) = true →
            s.NoTerminal e.sequence) ∧
          (some (processState evidence.state) = none → s.NoTerminal e.sequence) ∧
          ∀ status, some (processState evidence.state) = some status →
            s.Reported e.sequence status := by
      intro evidence hev hout
      rw [hout, Bool.and_false]
      refine ⟨htail, fun h => (by cases h), fun h => (by cases h), fun status h => ?_⟩
      cases h
      exact ⟨e, hmem, le_rfl, evidence, hev, rfl⟩
    have hgoes : terminalEvidence e.payload = none →
        s.Served e.sequence events ∧
          ((batch.batchOutputOnly && workerEventIsOutput e.payload) = true →
            s.NoTerminal e.sequence) ∧
          (batch.terminal = none → s.NoTerminal e.sequence) ∧
          ∀ status, batch.terminal = some status → s.Reported e.sequence status :=
      fun hev => ⟨htail, fun h => hno (houtput (and_eq_true_iff.1 h).1) hev,
        fun h => hno (hnone h) hev, fun status h => (hsome status h).of_le (by omega)⟩
    unfold PcSound Tracker.event
    cases hpayload : e.payload <;> rw [hpayload] at hended hgoes
    case completed evidence => exact hended evidence rfl rfl
    case failed evidence => exact hended evidence rfl rfl
    case killed evidence => exact hended evidence rfl rfl
    case interrupted evidence => exact hended evidence rfl rfl
    case indeterminate reason =>
      exact ⟨fun h => (by cases h), fun h => absurd rfl h, fun h => by cases h⟩
    all_goals exact hgoes rfl

theorem sound_endBatch : s.Sound (t.endBatch batch) := by
  obtain ⟨-, -, hnone, hsome⟩ := hs.at hpc
  unfold Tracker.endBatch
  split
  · rename_i status hterm
    have hrep := hsome status hterm
    exact ⟨hs.cursor_le, hs.routed, hs.pushed, hrep.ne_running, fun _ => hrep, fun h => by cases h⟩
  · rename_i hterm
    split_ifs
    · exact ⟨hs.cursor_le, hs.routed, hs.pushed,
        clear_durable hf hs.cursor_le hs.routed (hnone hterm), hnone hterm⟩
    · exact ⟨hs.cursor_le, hs.routed, hs.pushed, hnone hterm⟩

end

/-- An outcome that the row holds, or an earlier stop, releases the terminal event. -/
theorem Reported.released {status' : ExecutionProcessStatus} (h : s.Reported n status)
    (hmem : status' ∈ s.outcomes) (hst : status' = status ∨ status'.wasStopped = true) :
    s.Released n := by
  obtain ⟨e, he, hle, evidence, hev, hstate⟩ := h
  exact ⟨e, he, hle, evidence, hev, status', hmem, by rwa [hstate]⟩

variable {settlement : Settlement} {a : TrackingAction}

theorem settlement_sound (hs : s.Sound t)
    (hpc : t.pc = .settling settlement ∨ t.pc = .recording settlement) :
    s.Settles t.cursor settlement := hpc.elim hs.at hs.at

theorem sound_settle (hs : s.Sound t) (hpc : t.pc = .settling settlement)
    {stopped : Bool} (hst : stopped = true → ∃ status ∈ s.outcomes, status.wasStopped = true) :
    s.Sound (t.settle settlement stopped) := by
  have hset := settlement_sound hs (.inl hpc)
  unfold Tracker.settle
  split_ifs with hif
  · split
    · rename_i hlatest
      obtain ⟨status, hmem, hstop⟩ := hst (and_eq_true_iff.1 hif).2
      have hrel := (hset.reported (by rw [hlatest]; simp)).released hmem (.inr hstop)
      exact ⟨hs.cursor_le, hs.routed, hs.pushed, hrel⟩
    · exact ⟨hs.cursor_le, hs.routed, hs.pushed, trivial⟩
  · exact ⟨hs.cursor_le, hs.routed, hs.pushed, hset⟩

theorem sound_recorded (hs : s.Sound t) (hpc : t.pc = .recording settlement) (ok : Bool)
    (hok : ok = true → settlement.processState ∈ s.outcomes) :
    s.Sound (t.recorded settlement ok) := by
  have hset := settlement_sound hs (.inr hpc)
  unfold Tracker.recorded
  split_ifs with hif
  · split
    · rename_i hlatest
      have hrel := (hset.reported (by rw [hlatest]; simp)).released (hok hif) (.inl rfl)
      exact ⟨hs.cursor_le, hs.routed, hs.pushed, hrel⟩
    · exact ⟨hs.cursor_le, hs.routed, hs.pushed, trivial⟩
  · split
    iterate 2 exact ⟨hs.cursor_le, hs.routed, hs.pushed, hset⟩
    · rename_i hretry
      exact ⟨hs.cursor_le, hs.routed, hs.pushed, hset.polls hretry⟩

/-! ## The persisted cursor -/

/-- Past the end of `i64` the cast is negative. -/
theorem asI64_of_nonneg (hn : n ≤ u64Max) (h : 0 ≤ asI64 n) : asI64 n = n := by
  unfold u64Max at hn
  unfold asI64 at h ⊢
  split_ifs at h ⊢
  · rfl
  · omega

theorem acknowledgeSequence_cases (job : ExecutionWorkerJob) (sequence latest : ℤ) :
    (job.acknowledgeSequence sequence latest).lastEventSequence = job.lastEventSequence ∨
      job.lastEventSequence ≤ sequence ∧
        (job.acknowledgeSequence sequence latest).lastEventSequence = sequence := by
  unfold ExecutionWorkerJob.acknowledgeSequence
  split_ifs with h
  · exact .inr ⟨h, rfl⟩
  · exact .inl rfl

theorem lastEventSequence_le_acknowledge (job : ExecutionWorkerJob) (sequence latest : ℤ) :
    job.lastEventSequence ≤ (job.acknowledgeSequence sequence latest).lastEventSequence := by
  rcases acknowledgeSequence_cases job sequence latest with h | ⟨hle, h⟩ <;> rw [h]
  exact hle

theorem persisted_acknowledge (h : s.Persisted job) (hmax : n ≤ u64Max)
    (hn : s.Clear n ∨ s.Released n) (latest : ℤ) :
    s.Persisted (job.acknowledgeSequence (asI64 n) latest) := by
  have hnonneg := h.nonneg
  rcases acknowledgeSequence_cases job (asI64 n) latest with heq | ⟨hle, heq⟩
  · refine ⟨by rw [heq]; exact hnonneg, ?_⟩
    rw [heq]
    exact h.clear
  · have hcast := asI64_of_nonneg hmax (hnonneg.trans hle)
    refine ⟨by rw [heq]; omega, ?_⟩
    rw [heq, hcast, Int.toNat_natCast]
    exact hn

theorem Persisted.congr {job' : ExecutionWorkerJob} (h : s.Persisted job)
    (heq : job'.lastEventSequence = job.lastEventSequence) : s.Persisted job' := by
  refine ⟨by rw [heq]; exact h.nonneg, ?_⟩
  rw [heq]
  exact h.clear

/-! ## Every step keeps the invariant -/

theorem Extends.refl_of {s' : Tracking} (hj : s'.journal = s.journal) (hh : s'.history = s.history)
    (hd : s.delivered ⊆ s'.delivered) (hg : s.gaps ⊆ s'.gaps) (ho : s.outcomes ⊆ s'.outcomes) :
    s.Extends s' :=
  ⟨⟨[], by rw [hh, append_nil], by simp⟩, by rw [hj], hd, hg, ho⟩

theorem tracked_tracking (h : s.Tracked) (hj : s'.journal = s.journal)
    (hh : s'.history = s.history) (hp : s'.Persisted s'.job)
    (ho : s'.outcomes = s.outcomes) (hst : s'.status = s.status)
    (hc : s'.coordinator = .tracking t' w) (ht : s'.Sound t') : s'.Tracked := by
  refine ⟨by rw [hj, hh]; exact h.follows, hp, by rw [ho, hst]; exact h.running,
    by rw [ho, hst]; exact h.status_mem, ?_, ?_⟩
  · intro t'' w' heq
    rw [hc] at heq
    cases heq
    exact ht
  · intro t'' pushed w' heq
    rw [hc] at heq
    cases heq

theorem tracked_track (h : s.Tracked) (ht : s.Sound t') : (s.track t' w).Tracked := by
  have he : s.Extends (s.track t' w) := Extends.refl_of rfl rfl (Subset.refl _)
    (Subset.refl _) (Subset.refl _)
  exact tracked_tracking h rfl rfl (h.persisted.extends he) rfl rfl rfl (ht.extends he)

theorem extends_job (s : Tracking) (job : ExecutionWorkerJob) (c : CoordinatorProcess)
    (rawLog : List LogMsg) : s.Extends { s with job := job, coordinator := c, rawLog := rawLog } :=
  Extends.refl_of rfl rfl (Subset.refl _) (Subset.refl _) (Subset.refl _)

theorem extends_updateCompletion (s : Tracking) (status : ExecutionProcessStatus) :
    s.Extends (s.updateCompletion status) :=
  Extends.refl_of rfl rfl (Subset.refl _) (Subset.refl _) (subset_append_left _ _)

theorem tracked_updateCompletion (h : s.Tracked)
    (hne : status ≠ .running) : (s.updateCompletion status).Tracked := by
  have he := extends_updateCompletion s status
  exact ⟨h.follows, h.persisted.extends he, fun _ => hne, fun _ => mem_append_right _
    (mem_singleton.2 rfl), fun t w hc => (h.tracking t w hc).extends he,
    fun t pushed w hc => (h.handingOff t pushed w hc).extends he⟩

theorem tracked_jump (h : s.Tracked) (hs : s.Sound t) (hpc : t.pc = .liveGap gap)
    (hjob : job.lastEventSequence = s.job.lastEventSequence) :
    Tracked
      { s with
        job := job
        gaps := s.gaps ++ [(t.cursor, gap.earliestAvailable)]
        coordinator := .tracking (t.jump gap) w } := by
  obtain ⟨s₁, hs₁⟩ : ∃ s₁ : Tracking, s₁ =
      { s with
        job := job
        gaps := s.gaps ++ [(t.cursor, gap.earliestAvailable)]
        coordinator := .tracking (t.jump gap) w } := ⟨_, rfl⟩
  have he : s.Extends s₁ := by
    rw [hs₁]
    exact Extends.refl_of rfl rfl (Subset.refl _) (subset_append_left _ _) (Subset.refl _)
  have hf : Follows s₁.journal s₁.history := by
    rw [hs₁]
    exact h.follows
  have hlost : (t.cursor, gap.earliestAvailable) ∈ s₁.gaps := by
    rw [hs₁]
    exact mem_append_right _ (mem_singleton.2 rfl)
  have ht := sound_jump hf (hs.extends he) hpc hlost
  have hp := (h.persisted.extends he).congr hjob
  rw [hs₁] at ht hp
  exact tracked_tracking h rfl rfl hp rfl rfl rfl ht

theorem tracked_trackerStep {a : TrackerAction} (h : s.Tracked) (hs : s.Sound t)
    (hstep : s.trackerStep t w a = some s') : s'.Tracked := by
  have hf := h.follows
  have hmax : t.cursor ≤ u64Max := hs.cursor_le.trans hf.lastSequence_le
  cases a with simp only [trackerStep] at hstep
  | poll =>
    split at hstep <;> cases hstep
    rename_i hpc
    exact tracked_track h (sound_poll hf hs hpc)
  | checkGap inventory =>
    split at hstep <;> cases hstep
    rename_i hpc
    exact tracked_track h (sound_checkGap hs hpc _ _ _ inventory)
  | markIncomplete ok =>
    split at hstep
    · rename_i hpc
      cases hstep
      exact tracked_jump h hs hpc (by cases ok <;> rfl)
    · rename_i gap status hpc
      split_ifs at hstep <;> cases hstep
      · have he := extends_job s s.job.markOutputIncomplete
          (.tracking { t with pc := .settling (gapSettlement gap status) } w) s.rawLog
        have hstatus : status ≠ .running := hs.at hpc
        have ht : s.Sound { t with pc := .settling (gapSettlement gap status) } :=
          ⟨hs.cursor_le, hs.routed, hs.pushed, hstatus, fun h1 => absurd rfl h1,
            fun h1 => by cases h1⟩
        exact tracked_tracking h rfl rfl ((h.persisted.extends he).congr rfl) rfl rfl rfl
          (ht.extends he)
      · exact h
    · cases hstep
  | checkRegression inventory ok =>
    split at hstep
    · rename_i hpc
      exact (hs.at hpc).elim
    · cases hstep
  | event =>
    split at hstep
    · rename_i hpc
      split at hstep <;> cases hstep
      rename_i hevents
      exact tracked_track h (sound_event hf hs hpc hevents)
    · cases hstep
  | endBatch =>
    split at hstep
    · rename_i hpc
      split at hstep <;> cases hstep
      exact tracked_track h (sound_endBatch hf hs hpc)
    · cases hstep
  | acknowledgeSequence ok =>
    split at hstep <;> cases hstep
    rename_i durable latest hpc
    obtain ⟨hclear, hno⟩ := hs.at hpc
    have ht : s.Sound { t with pc := .acked durable } :=
      ⟨hs.cursor_le, hs.routed, hs.pushed, hclear, hno⟩
    have he := extends_job s
      (if ok = true then s.job.acknowledgeSequence (asI64 durable) (asI64 latest) else s.job)
      (.tracking { t with pc := .acked durable } w) s.rawLog
    refine tracked_tracking h rfl rfl (Persisted.extends he ?_) rfl rfl rfl (ht.extends he)
    cases ok
    · exact h.persisted
    · exact persisted_acknowledge h.persisted (hclear.le.trans hf.lastSequence_le) (.inl hclear) _
  | acknowledged =>
    split at hstep <;> cases hstep
    rename_i hpc
    obtain ⟨hclear, hno⟩ := hs.at hpc
    exact tracked_track h ⟨hs.cursor_le, hs.routed, hs.pushed.max hclear, hno⟩
  | readStopped ok =>
    split at hstep <;> cases hstep
    rename_i hpc
    refine tracked_track h (sound_settle hs hpc fun hst => ?_)
    have hstopped := (and_eq_true_iff.1 hst).2
    exact ⟨s.status, h.status_mem (by rintro heq; rw [heq] at hstopped; cases hstopped), hstopped⟩
  | recordOutcome ok =>
    split at hstep <;> cases hstep
    rename_i settlement hpc
    cases ok
    · exact tracked_track h (sound_recorded hs hpc false fun h1 => by cases h1)
    · have he := extends_updateCompletion s settlement.processState
      have ht := sound_recorded (hs.extends he) hpc true
        fun _ => mem_append_right _ (mem_singleton.2 rfl)
      exact tracked_track
        (tracked_updateCompletion h (settlement_sound hs (.inr hpc)).not_running) ht
  | release ok =>
    split at hstep <;> cases hstep
    rename_i latest hpc
    have hrel : s.Released t.cursor := hs.at hpc
    have ht : s.Sound { t with pc := .finalizing } := ⟨hs.cursor_le, hs.routed, hs.pushed, trivial⟩
    have he := extends_job s
      (if ok = true then s.job.acknowledgeSequence (asI64 t.cursor) (asI64 latest) else s.job)
      (.tracking { t with pc := .finalizing } w) s.rawLog
    refine tracked_tracking h rfl rfl (Persisted.extends he ?_) rfl rfl rfl (ht.extends he)
    cases ok
    · exact h.persisted
    · exact persisted_acknowledge h.persisted hmax (.inr hrel) _
  | giveUp pollFailed =>
    split at hstep <;> cases hstep
    rename_i hpc
    have hno : s.NoTerminal t.cursor := hs.at hpc
    exact tracked_track h ⟨hs.cursor_le, hs.routed, hs.pushed, fun h1 => (by cases h1),
      fun h1 => absurd rfl h1, fun _ => hno⟩
  | finish =>
    split at hstep <;> cases hstep
    exact tracked_track h ⟨hs.cursor_le, hs.routed, hs.pushed, trivial⟩

theorem tracked_of_extends (h : s.Tracked)
    (hf : Follows s'.journal s'.history) (hjob : s'.Persisted s'.job)
    (ho : s'.outcomes = s.outcomes) (hst : s'.status = s.status)
    (ht : ∀ t w, s'.coordinator = .tracking t w → s'.Sound t)
    (hh : ∀ t pushed w, s'.coordinator = .handingOff t (some pushed) w → s'.Clear pushed) :
    s'.Tracked :=
  ⟨hf, hjob, by rw [ho, hst]; exact h.running, by rw [ho, hst]; exact h.status_mem, ht, hh⟩

theorem extends_append (ts : Timestamp) (payload : ExecutionEventPayload)
    (hf : Follows s.journal s.history) (ho : s.journal.Open) :
    s.Extends
      { s with
        journal := (s.journal.append ts payload).2
        history := s.history ++ [s.journal.stamped ts payload] } := by
  have hlt := hf.contiguous.length_lt
  have hlast : (s.journal.append ts payload).2.lastSequence = s.journal.lastSequence + 1 := by
    rw [append_of_open ho]
    exact lastSequence_push _ hf.contiguous
  refine ⟨⟨_, rfl, fun e he => ?_⟩, ?_, Subset.refl _, Subset.refl _, Subset.refl _⟩
  · rw [mem_singleton.1 he]
    show s.journal.nextSequence - 1 < s.journal.nextSequence
    omega
  · show s.journal.lastSequence ≤ (s.journal.append ts payload).2.lastSequence
    omega

section

variable (h : s.Tracked)
include h

theorem tracked_setWriter (w : RawLogWriter) (rawLog : List LogMsg) :
    Tracked { s with rawLog := rawLog, coordinator := s.coordinator.setWriter w } := by
  have he := extends_job s s.job (s.coordinator.setWriter w) rawLog
  refine tracked_of_extends h h.follows (h.persisted.extends he) rfl rfl ?_ ?_
  · intro t w' heq
    obtain ⟨w'', hc⟩ := CoordinatorProcess.setWriter_eq_tracking heq
    exact (h.tracking t w'' hc).extends he
  · intro t pushed w' heq
    obtain ⟨w'', hc⟩ := CoordinatorProcess.setWriter_eq_handingOff heq
    exact (h.handingOff t pushed w'' hc).extends he

theorem tracked_process (c : CoordinatorProcess) (ht : ∀ t w, c ≠ .tracking t w)
    (hh : ∀ t pushed w, c = .handingOff t (some pushed) w → s.Clear pushed) :
    Tracked { s with coordinator := c } := by
  have he := extends_job s s.job c s.rawLog
  exact tracked_of_extends h h.follows (h.persisted.extends he) rfl rfl
    (fun t w heq => absurd heq (ht t w)) fun t pushed w heq => (hh t pushed w heq).extends he

theorem tracked_abort (hs : s.Sound t) (pushed : Option ℕ)
    (hp : pushed = none ∨ pushed = some t.pushed) (w : RawLogWriter) :
    Tracked { s with coordinator := .handingOff t pushed w } := by
  refine tracked_process h _ (fun _ _ heq => by cases heq) fun t' pushed' w' heq => ?_
  cases heq
  rcases hp with hp | hp <;> cases hp
  exact hs.pushed

theorem tracked_handOff (hc : s.coordinator = .handingOff t pushed w) (persisted : Bool) {ok : Bool}
    (hpersisted : persisted = (w.ended && ok && pushed.isSome)) (attachments : List Attachment) :
    Tracked
      { s with
        job :=
          if persisted then
            s.job.acknowledgeSequence (asI64 (pushed.getD 0)) (asI64 (pushed.getD 0))
          else s.job
        coordinator := .down
        attachments := attachments } := by
  have hp : s.Persisted (if persisted then
      s.job.acknowledgeSequence (asI64 (pushed.getD 0)) (asI64 (pushed.getD 0)) else s.job) := by
    split_ifs with hif
    · rw [hpersisted] at hif
      obtain ⟨p, hsome⟩ := Option.isSome_iff_exists.1 (and_eq_true_iff.1 hif).2
      rw [hsome] at hc ⊢
      have hclear := h.handingOff t p w hc
      exact persisted_acknowledge h.persisted (hclear.le.trans h.follows.lastSequence_le)
        (.inl hclear) _
    · exact h.persisted
  have he : ∀ job, s.Extends
      { s with job := job, coordinator := .down, attachments := attachments } := fun _ =>
    Extends.refl_of rfl rfl (Subset.refl _) (Subset.refl _) (Subset.refl _)
  exact tracked_of_extends h h.follows (Persisted.extends (he _) hp) rfl rfl
    (fun _ _ heq => by cases heq) fun _ _ _ heq => by cases heq

/-- A row that is still running has held no outcome, so everything up to its cursor is
    discharged and a new tracker may start there. -/
theorem tracked_reattach (hrun : s.status = .running) (evicted : ℕ) :
    Tracked
      { s with
        coordinator := .tracking (Tracker.start s.job.lastEventSequence.toNat)
          (RawLogWriter.resumed (s.rawLog.drop evicted))
        start := s.job.lastEventSequence.toNat } := by
  have hclear : s.Clear s.job.lastEventSequence.toNat := by
    rcases h.persisted.clear with hclear | ⟨-, -, -, -, -, status, hmem, -⟩
    · exact hclear
    · exact absurd hrun (h.running (ne_nil_of_mem hmem))
  have ht : s.Sound (Tracker.start s.job.lastEventSequence.toNat) :=
    ⟨hclear.le, hclear.routed _, hclear, hclear.noTerminal⟩
  have he : s.Extends
      { s with
        coordinator := .tracking (Tracker.start s.job.lastEventSequence.toNat)
          (RawLogWriter.resumed (s.rawLog.drop evicted))
        start := s.job.lastEventSequence.toNat } :=
    Extends.refl_of rfl rfl (Subset.refl _) (Subset.refl _) (Subset.refl _)
  exact tracked_tracking h rfl rfl (h.persisted.extends he) rfl rfl rfl (ht.extends he)

theorem tracked_step (hstep : s.step a = some s') : s'.Tracked := by
  have hf := h.follows
  cases a with simp only [step] at hstep
  | append ts payload =>
    by_cases ho : s.journal.Open
    · have he := extends_append ts payload hf ho
      have hfollows := hf.append ho ts payload
      rw [append_of_open ho] at hstep he hfollows
      cases hstep
      exact tracked_of_extends h hfollows (h.persisted.extends he) rfl rfl
        (fun t w hc => (h.tracking t w hc).extends he)
        fun t pushed w hc => (h.handingOff t pushed w hc).extends he
    · obtain ⟨e, happ⟩ := append_of_not_open ts payload ho
      rw [happ] at hstep
      cases hstep
      exact h
  | deliver sequence =>
    split at hstep
    · split_ifs at hstep
      cases hstep
      have he : s.Extends { s with delivered := sequence :: s.delivered } :=
        Extends.refl_of rfl rfl (subset_cons_self _ _) (Subset.refl _) (Subset.refl _)
      exact tracked_of_extends h hf (h.persisted.extends he) rfl rfl
        (fun t w hc => (h.tracking t w hc).extends he)
        fun t pushed w hc => (h.handingOff t pushed w hc).extends he
    · cases hstep
  | resolve sequence =>
    split at hstep
    · rename_i t w hc
      split_ifs at hstep with hdel
      cases hstep
      have hs := h.tracking t w hc
      refine tracked_track h ⟨hs.cursor_le, ?_, hs.pushed, hs.pc⟩
      -- a request that leaves the set has been answered
      refine hs.routed.imp fun e he id hid => ?_
      rcases he id hid with h1 | h1 | h1
      · exact .inl h1
      · exact .inr (.inl h1)
      · by_cases heq : e.sequence = sequence
        · exact .inl (heq ▸ hdel)
        · exact .inr (.inr (mem_filter.2 ⟨h1, by simpa using heq⟩))
    · cases hstep
  | recordOther status =>
    split_ifs at hstep with hne
    cases hstep
    exact tracked_updateCompletion h hne
  | tracker a =>
    split at hstep
    · rename_i t w hc
      exact tracked_trackerStep h (h.tracking t w hc) hstep
    · cases hstep
  | write ok =>
    split at hstep
    · split at hstep <;> cases hstep
      exact tracked_setWriter h _ _
    · cases hstep
  | writerFails =>
    split at hstep <;> cases hstep
    exact tracked_setWriter h _ s.rawLog
  | abort =>
    split at hstep
    · rename_i t w hc
      have hs := h.tracking t w hc
      split at hstep <;> cases hstep
      · exact tracked_abort h hs none (.inl rfl) _
      · exact tracked_abort h hs _ (.inr rfl) _
    · cases hstep
  | handOff ok =>
    split at hstep <;> cases hstep
    rename_i hc
    exact tracked_handOff h hc _ rfl _
  | crash =>
    split at hstep <;> cases hstep
    exact tracked_process h _ (fun _ _ heq => by cases heq) fun _ _ _ heq => by cases heq
  | reattach evicted =>
    split at hstep
    · split_ifs at hstep with hrun
      cases hstep
      exact tracked_reattach h hrun evicted
    · cases hstep

end

theorem tracked_of_initial (h : s.Initial) : s.Tracked := by
  obtain ⟨⟨id, capacity, hnew⟩, hjob, hstatus, -, hc, hhistory, -, -, houtcomes, -, -⟩ := h
  have hf : Follows s.journal s.history := by
    rw [hhistory]
    exact follows_new hnew
  refine ⟨hf, ⟨by rw [hjob], ?_⟩, fun hne => absurd houtcomes hne, fun hne => absurd hstatus hne,
    ?_, ?_⟩
  · rw [hjob]
    exact .inl (clear_zero hf)
  · intro t w heq
    rw [hc] at heq
    cases heq
    have hclear := clear_zero hf
    exact ⟨hclear.le, hclear.routed _, hclear, hclear.noTerminal⟩
  · intro t pushed w heq
    rw [hc] at heq
    cases heq

theorem tracked_of_reachable (h : Reachable step anyStep Initial s) : s.Tracked :=
  Reachable.invariant (P := Tracked) h (fun _ => tracked_of_initial)
    fun _ _ _ hi _ hstep => tracked_step hi hstep

/-! ## The persisted cursor never decreases -/

theorem lastEventSequence_le_ite (job : ExecutionWorkerJob) (ok : Bool) (sequence latest : ℤ) :
    job.lastEventSequence ≤
      (if ok = true then job.acknowledgeSequence sequence latest else job).lastEventSequence := by
  split_ifs
  · exact lastEventSequence_le_acknowledge _ _ _
  · exact le_rfl

theorem lastEventSequence_le_trackerStep {a : TrackerAction}
    (hstep : s.trackerStep t w a = some s') :
    s.job.lastEventSequence ≤ s'.job.lastEventSequence := by
  cases a with simp only [trackerStep] at hstep
  | acknowledgeSequence ok | release ok =>
    split at hstep <;> cases hstep
    exact lastEventSequence_le_ite _ _ _ _
  | _ =>
    repeat' split at hstep
    all_goals cases hstep <;> exact le_rfl

theorem lastEventSequence_le_step (hstep : s.step a = some s') :
    s.job.lastEventSequence ≤ s'.job.lastEventSequence := by
  cases a with simp only [step] at hstep
  | tracker a =>
    split at hstep
    · exact lastEventSequence_le_trackerStep hstep
    · cases hstep
  | handOff ok =>
    split at hstep <;> cases hstep
    exact lastEventSequence_le_ite _ _ _ _
  | _ =>
    repeat' split at hstep
    all_goals cases hstep <;> exact le_rfl

theorem lastEventSequence_le_of_runs (h : Runs step anyStep s s') :
    s.job.lastEventSequence ≤ s'.job.lastEventSequence :=
  h.preserves (P := fun s' => s.job.lastEventSequence ≤ s'.job.lastEventSequence)
    (fun _ _ _ hle _ hstep => hle.trans (lastEventSequence_le_step hstep)) le_rfl

/-! ## The result -/

/-- In every reachable state: an interaction request whose response has not
    reached the worker lies above the persisted cursor, unless the tracker has jumped a gap in
    which it was trimmed, or the cursor has acknowledged the worker's terminal event; a terminal
    event lies above the persisted cursor until the process row has held its outcome or that of
    a stop; and the persisted cursor never decreases afterwards. -/
theorem persisted_cursor_keeps_obligations (h : Reachable step anyStep Initial s) :
    (∀ e ∈ s.history, ∀ id, e.payload = .interactionRequested id → e.sequence ∉ s.delivered →
      s.job.lastEventSequence < e.sequence ∨ s.Lost e.sequence ∨
        ∃ e' ∈ s.history, (terminalEvidence e'.payload).isSome = true ∧
          (e'.sequence : ℤ) ≤ s.job.lastEventSequence) ∧
    (∀ e ∈ s.history, ∀ evidence, terminalEvidence e.payload = some evidence →
      s.job.lastEventSequence < e.sequence ∨ s.status ≠ .running ∧ s.Recorded evidence) ∧
    ∀ s', Runs step anyStep s s' → s.job.lastEventSequence ≤ s'.job.lastEventSequence := by
  have hinv := tracked_of_reachable h
  have hnonneg := hinv.persisted.nonneg
  refine ⟨fun e he id hid hdel => ?_, fun e he evidence hev => ?_,
    fun _ => lastEventSequence_le_of_runs⟩
  · by_cases hle : e.sequence ≤ s.job.lastEventSequence.toNat
    · rcases hinv.persisted.clear with hclear | ⟨e', he', hle', evidence, hev, -⟩
      · rcases (hclear.upTo e he hle).answered id hid with h1 | h1
        · exact absurd h1 hdel
        · exact .inr (.inl h1)
      · exact .inr (.inr ⟨e', he', by rw [hev]; rfl, by omega⟩)
    · exact .inl (by omega)
  · by_cases hle : e.sequence ≤ s.job.lastEventSequence.toNat
    · rcases hinv.persisted.clear with hclear | ⟨e', he', hle', evidence', hev', hrec⟩
      · have hnone := (hclear.upTo e he hle).not_terminal
        rw [hnone] at hev
        cases hev
      · -- a worker ends once
        have heq : e = e' := hinv.follows.numbered.eq_of_number_eq he he' (by
          rw [hinv.follows.terminal_last e he (by rw [hev]; simp),
            hinv.follows.terminal_last e' he' (by rw [hev']; simp)])
        rw [heq, hev'] at hev
        cases hev
        obtain ⟨status, hmem, hst⟩ := hrec
        exact .inr ⟨hinv.running (ne_nil_of_mem hmem), status, hmem, hst⟩
    · exact .inl (by omega)

/-! ## Runs on concrete inputs -/

/-- A fresh dispatch to a worker that retains `capacity` events. -/
def dispatched (capacity : ℕ) : Option Tracking :=
  match new 1 capacity with
  | .ok journal => some
    { journal := journal
      job :=
        { executionProcessId := 1, workerNodeId := 2, workerJobId := 3, requestDigest := ""
          lastEventSequence := 0, workerLastSequence := 0, outputComplete := true }
      status := .running, rawLog := []
      coordinator := .tracking (Tracker.start 0) (RawLogWriter.resumed [])
      history := [], delivered := [], gaps := [], outcomes := [], start := 0, attachments := [] }
  | .error _ => none

theorem initial_of_dispatched (h : dispatched capacity = some s) : s.Initial := by
  unfold dispatched at h
  split at h <;> cases h
  rename_i hnew
  exact ⟨⟨1, capacity, hnew⟩, rfl, rfl, rfl, rfl, rfl, rfl, rfl, rfl, rfl, rfl⟩

theorem reachable_of_exec_dispatched {ok : Tracking → TrackingAction → Prop}
    [∀ s a, Decidable (ok s a)] {Q : Tracking → Prop} [DecidablePred Q] (capacity : ℕ)
    (actions : List TrackingAction)
    (h : ((dispatched capacity).bind fun s => exec step ok s actions).map
      (fun s => decide (Q s)) = some true) : ∃ s, Reachable step ok Initial s ∧ Q s := by
  obtain ⟨s, hs, hQ⟩ := Option.map_eq_some_iff.1 h
  obtain ⟨s₀, h0, hexec⟩ := Option.bind_eq_some_iff.1 hs
  exact ⟨s, reachable_of_exec (initial_of_dispatched h0) hexec, of_decide_eq_true hQ⟩

/-- The tracker polls and handles a batch of `n` events. -/
def polls (n : ℕ) : List TrackingAction :=
  .tracker .poll :: replicate n (.tracker .event) ++ [.tracker .endBatch]

/-- The tracker persists a batch's durable cursor. -/
def acknowledges : List TrackingAction :=
  [.tracker (.acknowledgeSequence true), .tracker .acknowledged]

/-- The worker's summary of a job that is still running, and the tracker's way over a gap. -/
def jumpsGap (lastSequence : ℕ) : List TrackingAction :=
  [.tracker .poll,
    .tracker (.checkGap (some
      [{ executionId := 1, workerJobId := 3, workspaceId := 4, requestDigest := "",
         state := .running, lastSequence := lastSequence, terminal := none }])),
    .tracker (.markIncomplete true)]

def exampleEnd (state : TerminalState) : TerminalEvidence :=
  { state := state, exitCode := none, signal := none, observedAt := 0 }

/-- The persisted cursor passes a request that was never answered when the worker has ended, a
    request that was trimmed before it was seen, and a failure that came after a stop. -/
theorem cursor_passes_obligations : (∃ s, Reachable step anyStep Initial s ∧ ∃ e ∈ s.history,
      e.payload = .interactionRequested 7 ∧ e.sequence ∉ s.delivered ∧ s.gaps = [] ∧
        (e.sequence : ℤ) ≤ s.job.lastEventSequence) ∧
    (∃ s, Reachable step anyStep Initial s ∧ ∃ e ∈ s.history,
      e.payload = .interactionRequested 7 ∧ e.sequence ∉ s.delivered ∧ s.status = .running ∧
        (e.sequence : ℤ) ≤ s.job.lastEventSequence) ∧
    ∃ s, Reachable step anyStep Initial s ∧ ∃ e ∈ s.history,
      terminalEvidence e.payload = some (exampleEnd .failed) ∧ s.outcomes = [.killed] ∧
        (e.sequence : ℤ) ≤ s.job.lastEventSequence := by
  refine ⟨?_, ?_, ?_⟩
  · refine reachable_of_exec_dispatched 8
      ([.append 0 .accepted, .append 1 (.interactionRequested 7),
      .append 2 (.completed (exampleEnd .completed))] ++ polls 3 ++
      [.tracker (.readStopped true), .tracker (.recordOutcome true), .tracker (.release true)]) ?_
    decide
  · refine reachable_of_exec_dispatched 2 ([.append 0 (.interactionRequested 7),
      .append 1 (.stdout "YQ=="), .append 2 (.stdout "Yg==")] ++ jumpsGap 3 ++ polls 2 ++
      acknowledges) ?_
    decide
  · refine reachable_of_exec_dispatched 8 ([.append 0 .accepted,
      .append 1 (.failed (exampleEnd .failed)), .recordOther .killed] ++ polls 2 ++
      [.tracker (.readStopped true), .tracker (.release true)]) ?_
    decide

/-- A request that still waits keeps the cursor below it while output behind it is
    acknowledged. -/
theorem waiting_request_holds_cursor : ∃ s : Tracking, ∃ e ∈ s.history,
    e.payload = .interactionRequested 7 ∧ s.job.lastEventSequence < e.sequence := by
  have hrun : ∃ s, Reachable step anyStep Initial s ∧ s.gaps = [] ∧
      (∀ e ∈ s.history, terminalEvidence e.payload = none) ∧
      ∃ e ∈ s.history, e.payload = .interactionRequested 7 ∧ e.sequence ∉ s.delivered := by
    refine reachable_of_exec_dispatched 8 ([.append 0 .accepted,
      .append 1 (.interactionRequested 7), .append 2 (.stdout "YQ==")] ++ polls 3 ++
      acknowledges) ?_
    decide
  obtain ⟨s, hreach, hgaps, hopen, e, he, hid, hdel⟩ := hrun
  obtain ⟨h1, -, -⟩ := persisted_cursor_keeps_obligations hreach
  rcases h1 e he 7 hid hdel with hlt | ⟨gap, hgap, -⟩ | ⟨e', he', hterm, -⟩
  · exact ⟨s, e, he, hid, hlt⟩
  · rw [hgaps] at hgap
    cases hgap
  · rw [hopen e' he'] at hterm
    cases hterm

end Tracking

end VibeKanban.Coordinator

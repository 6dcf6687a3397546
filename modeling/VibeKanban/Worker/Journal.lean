import VibeKanban.Cluster.Protocol
import VibeKanban.Lib.Window

/-!
# The worker's event journal (`worker/src/journal.rs`)

`EventJournal` keeps, for one execution, the last `capacity` events under sequence numbers it
assigns itself, and the evidence of the execution's end. The coordinator asks for what follows a
cursor (`replayAfter`) and checks the answer with `validate_event_batch`
(`services/src/services/cluster/client.rs`, lines 655-673).

* `journal_replay_contract`: what is retained, and when a replay reports a gap.
-/

namespace VibeKanban.Worker

open Cluster Lib List

/-! ## Model of the journal -/

/-- `EventJournal` (line 15). -/
structure EventJournal where
  executionId : Uuid
  capacity : ℕ
  nextSequence : ℕ
  events : List ExecutionEvent
  terminal : Option TerminalEvidence
  deriving DecidableEq

/-- `JournalError` (line 24). -/
inductive JournalError where
  | zeroCapacity
  | sequenceExhausted
  | alreadyTerminal
  deriving DecidableEq

/-- `terminal_evidence` (lines 152-160). -/
def terminalEvidence : ExecutionEventPayload → Option TerminalEvidence
  | .completed evidence | .failed evidence | .killed evidence | .interrupted evidence =>
    some evidence
  | _ => none

/-- The event that announces `evidence` (the `match` of `recover`, lines 59-64). -/
def terminalPayload (evidence : TerminalEvidence) : ExecutionEventPayload :=
  match evidence.state with
  | .completed => .completed evidence
  | .failed => .failed evidence
  | .killed => .killed evidence
  | .interrupted => .interrupted evidence

@[simp] theorem terminalEvidence_terminalPayload (evidence : TerminalEvidence) :
    terminalEvidence (terminalPayload evidence) = some evidence := by
  unfold terminalPayload
  split <;> rfl

namespace EventJournal

/-- `EventJournal::new` (lines 34-46). -/
def new (executionId : Uuid) (capacity : ℕ) : Except JournalError EventJournal :=
  if capacity = 0 then .error .zeroCapacity
  else .ok
    { executionId := executionId
      capacity := capacity
      nextSequence := 1
      events := []
      terminal := none }

/-- `EventJournal::recover` (lines 48-76). -/
def recover (summary : JobSummary) (capacity : ℕ) (evidence : TerminalEvidence) :
    Except JournalError EventJournal :=
  match new summary.executionId capacity with
  | .error e => .error e
  | .ok journal =>
    match checkedAdd summary.lastSequence 1 with
    | none => .error .sequenceExhausted
    | some sequence =>
      match checkedAdd sequence 1 with
      | none => .error .sequenceExhausted
      | some nextSequence => .ok
        { journal with
          events := journal.events ++
            [{ executionId := summary.executionId
               sequence := sequence
               workerTimestamp := evidence.observedAt
               payload := terminalPayload evidence }]
          nextSequence := nextSequence
          terminal := some evidence }

/-- `EventJournal::last_sequence` (lines 82-84). -/
def lastSequence (j : EventJournal) : ℕ := j.nextSequence - 1

/-- The mutation of `append` (lines 111-121): trim, push, advance, record the evidence. -/
def push (j : EventJournal) (event : ExecutionEvent) (nextSequence : ℕ) : EventJournal :=
  { j with
    events := (if j.events.length = j.capacity then j.events.tail else j.events) ++ [event]
    nextSequence := nextSequence
    terminal :=
      match terminalEvidence event.payload with
      | some terminal => some terminal
      | none => j.terminal }

/-- `EventJournal::append` (lines 94-124): the result and the journal after the call. -/
def append (j : EventJournal) (workerTimestamp : Timestamp) (payload : ExecutionEventPayload) :
    Except JournalError ℕ × EventJournal :=
  if j.terminal.isSome then (.error .alreadyTerminal, j)
  else
    match checkedAdd j.nextSequence 1 with
    | none => (.error .sequenceExhausted, j)
    | some nextSequence =>
      (.ok j.nextSequence,
        j.push
          { executionId := j.executionId
            sequence := j.nextSequence
            workerTimestamp := workerTimestamp
            payload := payload }
          nextSequence)

/-- `EventJournal::replay_after` (lines 128-149). -/
def replayAfter (j : EventJournal) (after : ℕ) : EventBatch :=
  let earliestAvailable :=
    match j.events.head? with
    | some event => event.sequence
    | none => j.nextSequence
  { executionId := j.executionId
    requestedAfter := after
    earliestAvailable := earliestAvailable
    latestAvailable := j.lastSequence
    replayGap := decide (saturatingAdd after 1 < earliestAvailable)
    events := j.events.filter (fun event => decide (after < event.sequence)) }

/-- The sequence numbers of the retained events, oldest first. -/
def sequences (j : EventJournal) : List ℕ := j.events.map ExecutionEvent.sequence

end EventJournal

/-- The `WorkerClientError::ReplayGap` that `validate_event_batch` returns. -/
structure ReplayGapError where
  requestedAfter : ℕ
  earliestAvailable : ℕ

/-- The loop of `validate_event_batch` (lines 663-671). -/
def validateEvents (expected : ℕ) : List ExecutionEvent → Except ReplayGapError Unit
  | [] => .ok ()
  | event :: events =>
    if event.sequence ≠ expected then
      .error { requestedAfter := expected - 1, earliestAvailable := event.sequence }
    else validateEvents (saturatingAdd expected 1) events

/-- `validate_event_batch` (lines 655-673). -/
def validateEventBatch (batch : EventBatch) : Except ReplayGapError Unit :=
  if batch.replayGap then
    .error
      { requestedAfter := batch.requestedAfter, earliestAvailable := batch.earliestAvailable }
  else validateEvents (saturatingAdd batch.requestedAfter 1) batch.events

/-- `worker_journal_regressed` (`local-deployment/src/container.rs`, line 327). -/
def workerJournalRegressed (cursor latestAvailable : ℕ) : Bool := latestAvailable < cursor

namespace EventJournal

variable {j j' : EventJournal} {ts : Timestamp} {payload : ExecutionEventPayload}

@[simp] theorem nextSequence_push (event : ExecutionEvent) (next : ℕ) :
    (j.push event next).nextSequence = next := rfl

/-! ## What a call does -/

/-- The journal has room for one more event: it holds no terminal evidence and its
    counter has not reached the end of `u64`. -/
def Open (j : EventJournal) : Prop := j.terminal = none ∧ j.nextSequence + 1 ≤ u64Max

instance (j : EventJournal) : Decidable j.Open := inferInstanceAs (Decidable (_ ∧ _))

/-- The event that `append` stores. -/
def stamped (j : EventJournal) (ts : Timestamp) (payload : ExecutionEventPayload) :
    ExecutionEvent :=
  { executionId := j.executionId, sequence := j.nextSequence, workerTimestamp := ts,
    payload := payload }

theorem append_of_open (h : j.Open) : j.append ts payload =
      (.ok j.nextSequence, j.push (j.stamped ts payload) (j.nextSequence + 1)) := by
  have h1 : checkedAdd j.nextSequence 1 = some (j.nextSequence + 1) :=
    checkedAdd_eq_some.2 ⟨rfl, h.2⟩
  simp [append, h.1, h1, stamped]

theorem append_of_not_open (ts : Timestamp) (payload : ExecutionEventPayload) (h : ¬ j.Open) :
    ∃ e, j.append ts payload = (.error e, j) := by
  unfold append
  split_ifs with h1
  · exact ⟨_, rfl⟩
  · split
    · exact ⟨_, rfl⟩
    · rename_i h2
      obtain ⟨rfl, h3⟩ := checkedAdd_eq_some.1 h2
      exact absurd ⟨by simpa using h1, h3⟩ h

theorem append_error {e : JournalError} (h : (j.append ts payload).1 = .error e) :
    (j.append ts payload).2 = j := by
  by_cases h1 : j.Open
  · rw [append_of_open h1] at h
    cases h
  · obtain ⟨e', h2⟩ := append_of_not_open ts payload h1
    rw [h2]

theorem append_cases (j : EventJournal) (ts : Timestamp) (payload : ExecutionEventPayload) :
    (j.append ts payload).2 = j ∨
      j.Open ∧ (j.append ts payload).2 = j.push (j.stamped ts payload) (j.nextSequence + 1) := by
  by_cases h : j.Open
  · exact .inr ⟨h, by rw [append_of_open h]⟩
  · obtain ⟨e, h1⟩ := append_of_not_open ts payload h
    exact .inl (by rw [h1])

/-! ## The retained window -/

/-- The invariant of every journal: the retained sequences are consecutive, end at
    `lastSequence` and are at most `capacity` many. -/
structure Contiguous (j : EventJournal) : Prop where
  capacity_pos : 0 < j.capacity
  next_le : j.nextSequence ≤ u64Max
  length_le : j.events.length ≤ j.capacity
  length_lt : j.events.length < j.nextSequence
  sequences_eq : j.sequences = window j.nextSequence j.events.length

variable {capacity : ℕ}

theorem contiguous_new {id : ℕ} (h : new id capacity = .ok j) : j.Contiguous := by
  unfold new at h
  split_ifs at h with h1
  cases h
  refine ⟨Nat.pos_of_ne_zero h1, ?_, ?_, ?_, ?_⟩ <;> simp [sequences, u64Max]

variable {summary : JobSummary} {evidence : TerminalEvidence}

section

variable (h : recover summary capacity evidence = .ok j)
include h

theorem contiguous_recover : j.Contiguous := by
  unfold recover at h
  split at h
  · cases h
  · rename_i hnew
    split at h
    · cases h
    · rename_i hs
      split at h
      · cases h
      · rename_i hn
        obtain ⟨rfl, -⟩ := checkedAdd_eq_some.1 hs
        obtain ⟨rfl, h2⟩ := checkedAdd_eq_some.1 hn
        have hj := contiguous_new hnew
        unfold new at hnew
        split_ifs at hnew
        cases hnew
        cases h
        refine ⟨hj.capacity_pos, h2, ?_, ?_, ?_⟩
        · simp only [nil_append, length_singleton]
          omega
        · simp
        · simp [sequences, window]

theorem terminal_recover : j.terminal = some evidence := by
  unfold recover at h
  split at h
  · cases h
  · split at h
    · cases h
    · split at h <;> cases h
      rfl

end

variable {event : ExecutionEvent}

open ExecutionEvent

theorem contiguous_push (hj : j.Contiguous) (ho : j.Open)
    (he : event.sequence = j.nextSequence) : (j.push event (j.nextSequence + 1)).Contiguous := by
  have hlt := hj.length_lt
  have hle := hj.length_le
  have hpos := hj.capacity_pos
  -- a full journal drops its oldest event first
  obtain ⟨n, hn, hlen, htrim⟩ : ∃ n, n + 1 ≤ j.capacity ∧ n < j.nextSequence ∧
      (if j.events.length = j.capacity then j.events.tail else j.events).map
        sequence = window j.nextSequence n := by
    split_ifs
    · refine ⟨j.events.length - 1, by omega, by omega, ?_⟩
      have h1 : j.events.length = (j.events.length - 1) + 1 := by omega
      have h2 := hj.sequences_eq
      rw [h1] at h2
      rw [map_tail]
      change j.sequences.tail = _
      rw [h2]
      exact window_tail (by omega)
    · exact ⟨j.events.length, by omega, hlt, hj.sequences_eq⟩
  have hseq : (j.push event (j.nextSequence + 1)).sequences =
      window (j.nextSequence + 1) (n + 1) := by
    unfold sequences push
    simp only [map_append, map_cons, map_nil, htrim, he]
    exact window_push (by omega)
  have hlen' : (j.push event (j.nextSequence + 1)).events.length = n + 1 := by
    have h1 := congrArg length hseq
    rw [length_window, sequences, length_map] at h1
    exact h1
  refine ⟨hpos, ho.2, ?_, ?_, ?_⟩
  · rw [hlen']
    exact hn
  · rw [hlen', nextSequence_push]
    omega
  · rw [hlen', hseq, nextSequence_push]

theorem contiguous_append (hj : j.Contiguous) : (j.append ts payload).2.Contiguous := by
  rcases append_cases j ts payload with h | ⟨ho, h⟩ <;> rw [h]
  · exact hj
  · exact contiguous_push hj ho rfl

theorem lastSequence_recover (h : recover summary capacity evidence = .ok j) :
    j.lastSequence = summary.lastSequence + 1 := by
  unfold recover at h
  split at h
  · cases h
  · split at h
    · cases h
    · rename_i hs
      split at h
      · cases h
      · rename_i hn
        obtain ⟨rfl, -⟩ := checkedAdd_eq_some.1 hs
        obtain ⟨rfl, -⟩ := checkedAdd_eq_some.1 hn
        cases h
        rfl

theorem lastSequence_push (event : ExecutionEvent) (hj : j.Contiguous) :
    (j.push event (j.nextSequence + 1)).lastSequence = j.lastSequence + 1 := by
  have h := hj.length_lt
  unfold lastSequence
  rw [nextSequence_push]
  omega

/-! ## Replay -/

section

variable (hj : j.Contiguous) (after : ℕ)
include hj after

theorem earliestAvailable_replayAfter :
    (j.replayAfter after).earliestAvailable = j.nextSequence - j.events.length := by
  have h := hj.sequences_eq
  rw [sequences] at h
  unfold replayAfter
  cases hev : j.events with
  | nil => simp
  | cons event events =>
    have h1 := congrArg head? h
    rw [head?_window (by simp [hev]), hev] at h1
    simpa using h1

theorem saturatingAdd_lt_iff : saturatingAdd after 1 < j.nextSequence - j.events.length ↔
      after + 1 < j.nextSequence - j.events.length := by
  have h := hj.next_le
  unfold saturatingAdd
  omega

/-- The gap is reported exactly when the cursor's successor has been trimmed. -/
theorem replayGap_iff : (j.replayAfter after).replayGap = true ↔
      ∃ seq, after < seq ∧ seq ≤ j.lastSequence ∧ seq ∉ j.sequences := by
  have h1 := hj.length_lt
  have h2 : (j.replayAfter after).replayGap =
      decide (saturatingAdd after 1 < (j.replayAfter after).earliestAvailable) := rfl
  rw [h2, earliestAvailable_replayAfter hj, decide_eq_true_iff, saturatingAdd_lt_iff hj,
    ← exists_lt_not_mem_window h1.le, hj.sequences_eq]
  refine exists_congr fun k => and_congr_right fun _ => and_congr_left fun _ => ?_
  unfold lastSequence
  omega

end

variable {after : ℕ}

theorem sequences_replayAfter (hj : j.Contiguous) (hgap : (j.replayAfter after).replayGap = false) :
    (j.replayAfter after).events.map sequence =
      range' (after + 1) (j.lastSequence - after) := by
  have h1 := hj.length_lt
  have h2 : (j.replayAfter after).replayGap =
      decide (saturatingAdd after 1 < (j.replayAfter after).earliestAvailable) := rfl
  rw [h2, earliestAvailable_replayAfter hj, decide_eq_false_iff_not,
    saturatingAdd_lt_iff hj] at hgap
  have h3 : (j.replayAfter after).events.map sequence =
      j.sequences.filter (fun k => decide (after < k)) := by
    rw [sequences, filter_map]
    rfl
  have h4 : min j.events.length (j.nextSequence - 1 - after) = j.lastSequence - after := by
    unfold lastSequence
    omega
  rw [h3, hj.sequences_eq, filter_window h1.le, h4, window]
  rcases Nat.eq_zero_or_pos (j.lastSequence - after) with h5 | h5
  · rw [h5]
    rfl
  · have h6 : j.nextSequence - (j.lastSequence - after) = after + 1 := by
      omega
    rw [h6]

/-- The coordinator's loop accepts consecutive events below the end of `u64`. -/
theorem validateEvents_ok {expected : ℕ} {events : List ExecutionEvent}
    (h : events.map sequence = range' expected events.length)
    (hmax : expected + events.length ≤ u64Max) : validateEvents expected events = .ok () := by
  induction events generalizing expected with
  | nil => rfl
  | cons event events ih =>
    simp only [map_cons, length_cons, range'_succ, cons.injEq] at h hmax
    have h1 : saturatingAdd expected 1 = expected + 1 := saturatingAdd_of_le (by omega)
    rw [validateEvents, if_neg (by simpa using h.1), h1]
    exact ih h.2 (by omega)

theorem validateEventBatch_replayAfter (hj : j.Contiguous)
    (hgap : (j.replayAfter after).replayGap = false) :
    validateEventBatch (j.replayAfter after) = .ok () := by
  have hseq := sequences_replayAfter hj hgap
  have hlen : (j.replayAfter after).events.length = j.lastSequence - after := by
    have h := congrArg length hseq
    simpa using h
  have hnext := hj.next_le
  have hreq : (j.replayAfter after).requestedAfter = after := rfl
  rw [validateEventBatch, if_neg (by simp [hgap]), hreq]
  rcases Nat.eq_zero_or_pos (j.lastSequence - after) with h1 | h1
  · rw [eq_nil_of_length_eq_zero (by omega : (j.replayAfter after).events.length = 0)]
    rfl
  · rw [← hlen] at hseq
    have h2 : j.lastSequence + 1 ≤ u64Max := by
      unfold lastSequence
      have := hj.length_lt
      omega
    rw [saturatingAdd_of_le (by omega)]
    exact validateEvents_ok hseq (by omega)

/-! ## The terminal event -/

/-- The recorded evidence is that of the last event, and no event before it is terminal. -/
structure TerminalLast (j : EventJournal) : Prop where
  last : j.terminal = j.events.getLast?.bind fun event => terminalEvidence event.payload
  others : ∀ event ∈ j.events.dropLast, terminalEvidence event.payload = none

theorem terminalLast_new {id : ℕ} (h : new id capacity = .ok j) : j.TerminalLast := by
  unfold new at h
  split_ifs at h
  cases h
  constructor <;> simp

theorem terminalLast_recover (h : recover summary capacity evidence = .ok j) : j.TerminalLast := by
  unfold recover at h
  split at h
  · cases h
  · rename_i hnew
    unfold new at hnew
    split_ifs at hnew
    cases hnew
    split at h
    · cases h
    · split at h <;> cases h
      constructor <;> simp

theorem terminalLast_push {next : ℕ} (hj : j.TerminalLast)
    (ht : j.terminal = none) : (j.push event next).TerminalLast := by
  have hnone : ∀ event ∈ j.events, terminalEvidence event.payload = none := by
    intro event hmem
    have hlast := hj.last
    rw [ht] at hlast
    rcases eq_nil_or_concat j.events with h | ⟨init, final, h⟩
    · rw [h] at hmem
      cases hmem
    · rw [concat_eq_append] at h
      rw [h, getLast?_concat, Option.bind_some] at hlast
      rw [h, mem_append, mem_singleton] at hmem
      rcases hmem with hmem | rfl
      · exact hj.others event (by rwa [h, dropLast_concat])
      · exact hlast.symm
  constructor
  · simp only [push, getLast?_concat, Option.bind_some, ht]
    cases terminalEvidence event.payload <;> rfl
  · intro event' hmem
    simp only [push, dropLast_concat] at hmem
    split_ifs at hmem
    · exact hnone event' (mem_of_mem_tail hmem)
    · exact hnone event' hmem

theorem terminalLast_append (hj : j.TerminalLast) : (j.append ts payload).2.TerminalLast := by
  rcases append_cases j ts payload with h | ⟨ho, h⟩ <;> rw [h]
  · exact hj
  · exact terminalLast_push hj ho.1

/-- A cursor below the end of a journal that has ended is served the terminal event, unless
    it is told of a gap. -/
theorem terminal_mem_replayAfter (hj : j.Contiguous) (ht : j.TerminalLast)
    (hterm : j.terminal = some evidence) (hafter : after < j.lastSequence) :
    ∃ event ∈ (j.replayAfter after).events, after < event.sequence ∧
      terminalEvidence event.payload = some evidence := by
  have hlast := ht.last
  rw [hterm] at hlast
  obtain ⟨event, hevent, hpayload⟩ := Option.bind_eq_some_iff.1 hlast.symm
  have hlen : 0 < j.events.length := by
    rcases hne : j.events with _ | ⟨_, _⟩
    · rw [hne] at hevent
      cases hevent
    · simp
  have hseq : event.sequence = j.nextSequence - 1 := by
    have h1 : j.sequences.getLast? = some event.sequence := by
      rw [sequences, getLast?_map, hevent]
      rfl
    rw [hj.sequences_eq, getLast?_window hlen hj.length_lt.le] at h1
    exact (Option.some.inj h1).symm
  refine ⟨event, ?_, ?_, hpayload⟩
  · rw [replayAfter, mem_filter]
    refine ⟨mem_of_getLast? hevent, ?_⟩
    rw [decide_eq_true_iff, hseq]
    exact hafter
  · rw [hseq]
    exact hafter

theorem events_ne_nil (ht : j.TerminalLast) (hterm : j.terminal ≠ none) : j.events ≠ [] := by
  intro h
  apply hterm
  rw [ht.last, h]
  rfl

theorem sequence_le_lastSequence (hj : j.Contiguous)
    (h : event ∈ j.events) : event.sequence ≤ j.lastSequence := by
  have h1 : event.sequence ∈ j.sequences := mem_map_of_mem h
  rw [hj.sequences_eq, mem_window hj.length_lt.le] at h1
  unfold lastSequence
  omega

/-- The only error that the coordinator finds in a journal's batch is the gap it reports. -/
theorem earliestAvailable_of_error (hj : j.Contiguous) {gap : ReplayGapError}
    (h : validateEventBatch (j.replayAfter after) = .error gap) :
    gap.earliestAvailable = j.nextSequence - j.events.length := by
  cases hgap : (j.replayAfter after).replayGap with
  | false =>
    rw [validateEventBatch_replayAfter hj hgap] at h
    cases h
  | true =>
    rw [validateEventBatch, if_pos hgap] at h
    cases h
    exact earliestAvailable_replayAfter hj after

/-! ## Sequences of calls -/

/-- A journal as the worker creates one: for a new job, or for a recovered one. -/
def Constructed (j : EventJournal) : Prop :=
  (∃ id capacity, new id capacity = .ok j) ∨
    ∃ summary capacity evidence, recover summary capacity evidence = .ok j

/-- The journal after a sequence of `append` calls, successful or not. -/
def appendAll (j : EventJournal) (calls : List (Timestamp × ExecutionEventPayload)) :
    EventJournal :=
  calls.foldl (fun j call => (j.append call.1 call.2).2) j

theorem Constructed.contiguous (h : j.Constructed) : j.Contiguous := by
  rcases h with ⟨id, capacity, h⟩ | ⟨summary, capacity, evidence, h⟩
  · exact contiguous_new h
  · exact contiguous_recover h

theorem contiguous_appendAll (hj : j.Contiguous)
    (calls : List (Timestamp × ExecutionEventPayload)) : (j.appendAll calls).Contiguous := by
  induction calls generalizing j with
  | nil => exact hj
  | cons call calls ih => exact ih (contiguous_append hj)

/-- Whatever calls a journal has seen, it retains consecutive events that
    end at its last sequence, a failed call leaves it as it is, and a replay reports a gap
    exactly when an event after the cursor is gone and is otherwise complete and accepted by
    the coordinator. -/
theorem journal_replay_contract (hj : j.Constructed)
    (calls : List (Timestamp × ExecutionEventPayload)) :
    let journal := j.appendAll calls
    journal.events.length ≤ journal.lastSequence ∧
      journal.sequences =
        range' (journal.lastSequence + 1 - journal.events.length) journal.events.length ∧
      journal.events.length ≤ journal.capacity ∧
      (∀ ts payload e, (journal.append ts payload).1 = .error e →
        (journal.append ts payload).2 = journal) ∧
      ∀ after,
        ((journal.replayAfter after).replayGap = true ↔
          ∃ seq, after < seq ∧ seq ≤ journal.lastSequence ∧ seq ∉ journal.sequences) ∧
        ((journal.replayAfter after).replayGap = false →
          (journal.replayAfter after).events.map ExecutionEvent.sequence =
              range' (after + 1) (journal.lastSequence - after) ∧
            validateEventBatch (journal.replayAfter after) = .ok ()) := by
  intro journal
  have hc : journal.Contiguous := contiguous_appendAll hj.contiguous calls
  have hlt := hc.length_lt
  have hnext : journal.lastSequence + 1 = journal.nextSequence := by
    unfold lastSequence
    omega
  refine ⟨by omega, ?_, hc.length_le, fun _ _ _ => append_error, fun after => ⟨?_, ?_⟩⟩
  · rw [hnext]
    exact hc.sequences_eq
  · exact replayGap_iff hc after
  · intro hgap
    exact ⟨sequences_replayAfter hc hgap, validateEventBatch_replayAfter hc hgap⟩

/-- A journal of capacity two that has seen three events reports the gap before them. -/
theorem replay_contract_trimmed : ∃ j : EventJournal,
    let journal := j.appendAll [(10, .accepted), (11, .starting), (12, .stdout "b25l")]
    journal.sequences = [2, 3] ∧ (journal.replayAfter 0).replayGap = true ∧
      validateEventBatch (journal.replayAfter 1) = .ok () := by
  obtain ⟨j, hj⟩ : ∃ j, new 1 2 = .ok j := ⟨_, rfl⟩
  have h := journal_replay_contract (.inl ⟨1, 2, hj⟩)
    [(10, .accepted), (11, .starting), (12, .stdout "b25l")]
  cases hj
  obtain ⟨-, -, -, -, h1⟩ := h
  exact ⟨_, by decide, (h1 0).1.2 ⟨1, by decide, by decide, by decide⟩, ((h1 1).2 (by decide)).2⟩

end EventJournal

end VibeKanban.Worker

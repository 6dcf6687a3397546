import VibeKanban.Lib.Runs
import VibeKanban.Output.Decode
import VibeKanban.Worker.Journal

/-!
# The coordinator's tracker of a worker execution

`track_worker_msgs_in_store` (`local-deployment/src/container.rs`, lines 3248-3888) polls a worker's
journal, pushes its output into a `MsgStore`, routes its interaction requests, and keeps in
`last_event_sequence` where a later coordinator resumes. A raw-log writer
(`services/src/services/execution_process.rs`) follows the store; a graceful shutdown hands the
execution off (lines 6213-6353) and the next start re-attaches it (lines 3177-3240).

One step is what happens between two await points of one of these tasks, one database write, or one
step of the worker. What the model does not determine is part of the action.
-/

namespace VibeKanban.Coordinator

open Cluster Lib Output Worker

/-! ## Database rows -/

/-- `ExecutionProcessStatus` (`db/src/models/execution_process.rs`, line 43). -/
inductive ExecutionProcessStatus where
  | running
  | completed
  | failed
  | killed
  | interrupted
  | indeterminate
  deriving DecidableEq

/-- The test of `ExecutionProcess::was_stopped` (line 569). -/
def ExecutionProcessStatus.wasStopped : ExecutionProcessStatus → Bool
  | .killed | .interrupted | .completed => true
  | _ => false

/-- The process status that a terminal event stands for. -/
def processState : TerminalState → ExecutionProcessStatus
  | .completed => .completed
  | .failed => .failed
  | .killed => .killed
  | .interrupted => .interrupted

/-- `ExecutionWorkerJob` (`db/src/models/execution_worker_job.rs`, line 44): the columns
    that the tracker reads or writes. -/
structure ExecutionWorkerJob where
  executionProcessId : Uuid
  workerNodeId : Uuid
  workerJobId : Uuid
  requestDigest : String
  lastEventSequence : ℤ
  workerLastSequence : ℤ
  outputComplete : Bool
  deriving DecidableEq

/-- `as i64` of a `u64`. -/
def asI64 (n : ℕ) : ℤ := if n < 2 ^ 63 then n else n - 2 ^ 64

/-- `ExecutionWorkerJob::acknowledge_sequence` (line 154). -/
def ExecutionWorkerJob.acknowledgeSequence (job : ExecutionWorkerJob)
    (sequence workerLastSequence : ℤ) : ExecutionWorkerJob :=
  if job.lastEventSequence ≤ sequence then
    { job with
      lastEventSequence := sequence
      workerLastSequence := max job.workerLastSequence workerLastSequence }
  else job

/-- `ExecutionWorkerJob::mark_output_incomplete`. -/
def ExecutionWorkerJob.markOutputIncomplete (job : ExecutionWorkerJob) : ExecutionWorkerJob :=
  { job with outputComplete := false }

/-! ## Cursors and evidence -/

/-- `UnresolvedInteractions` (line 240): a set of sequence numbers. -/
abbrev UnresolvedInteractions := List ℕ

/-- `durable_worker_cursor` (line 246). -/
def durableWorkerCursor (cursor : ℕ) (unresolved : UnresolvedInteractions) : ℕ :=
  match unresolved.min? with
  | some earliest => min cursor (earliest - 1)
  | none => cursor

/-- `worker_event_is_output` (line 255). -/
def workerEventIsOutput : ExecutionEventPayload → Bool
  | .stdout _ | .stderr _ | .structured _ | .accepted | .starting
  | .interactionAcknowledged _ | .preview => true
  | _ => false

/-- `should_ack_worker_batch` (line 202). -/
def shouldAckWorkerBatch (cursor : ℕ) (hasTerminal : Bool) : Bool := 0 < cursor && !hasTerminal

/-- `terminal_summary_states` (line 298). -/
def terminalSummaryStates (summary : JobSummary) :
    Option (ExecutionProcessStatus × TerminalEvidence) :=
  match summary.terminal with
  | some evidence =>
    if summary.state = evidence.state.jobState then some (processState evidence.state, evidence)
    else none
  | none => none

/-- The identity checks that a summary has to pass before it counts as evidence about the
    job `known`. -/
def sameDispatch (known : ExecutionWorkerJob) (workerNodeId executionId : Uuid)
    (summary : JobSummary) : Bool :=
  known.workerNodeId = workerNodeId && known.executionProcessId = executionId &&
    summary.executionId = executionId && summary.workerJobId = known.workerJobId &&
    summary.requestDigest = known.requestDigest

/-- `replay_gap_terminal_evidence` (line 271). -/
def replayGapTerminalEvidence (known : ExecutionWorkerJob) (workerNodeId executionId : Uuid)
    (earliestAvailable : ℕ) (summary : JobSummary) :
    Option (ExecutionProcessStatus × TerminalEvidence) :=
  if sameDispatch known workerNodeId executionId summary &&
      earliestAvailable ≤ summary.lastSequence && 0 ≤ known.workerLastSequence &&
      known.workerLastSequence.toNat ≤ summary.lastSequence then
    terminalSummaryStates summary
  else none

/-- `replay_gap_job_is_live` (line 212). -/
def replayGapJobIsLive (known : ExecutionWorkerJob) (workerNodeId executionId : Uuid)
    (summary : JobSummary) : Bool :=
  sameDispatch known workerNodeId executionId summary && !summary.state.isTerminal

/-- `journal_regression_terminal_evidence` (line 334). -/
def journalRegressionTerminalEvidence (known : ExecutionWorkerJob)
    (workerNodeId executionId : Uuid) (latestAvailable : ℕ) (summary : JobSummary) :
    Option (ExecutionProcessStatus × TerminalEvidence) :=
  if sameDispatch known workerNodeId executionId summary &&
      summary.lastSequence = latestAvailable then
    terminalSummaryStates summary
  else none

/-! ## What an event pushes into the store -/

/-- `WorkerStructuredEvent` (line 1059). -/
inductive WorkerStructuredEvent where
  | log (message : LogMsg)
  | cancellationPhase (phase : CancellationPhase)
  | diagnostic (message : String)

/-- `classify_worker_structured` (line 1065). -/
def classifyWorkerStructured : StructuredJson → WorkerStructuredEvent
  | .log message => .log message
  | .cancellationPhase phase => .cancellationPhase phase
  | .workerError reason => .diagnostic ("Worker error: " ++ reason)
  | .streamError reason => .diagnostic ("Worker output stream error: " ++ reason)
  | .other json => .diagnostic ("Unrecognized worker event: " ++ json)

/-- The messages that the tracker pushes for an event (lines 3561-3650). -/
def eventMessages : ExecutionEventPayload → List LogMsg
  | .stdout dataBase64 => pushWorkerBytes Base64.standard [] dataBase64 false
  | .stderr dataBase64 => pushWorkerBytes Base64.standard [] dataBase64 true
  | .structured json =>
    match classifyWorkerStructured json with
    | .log message => [message]
    | .cancellationPhase _ => []
    | .diagnostic message => [.stderr message]
  | .indeterminate reason => [.stderr ("Worker reported an indeterminate execution: " ++ reason)]
  | _ => []

/-! ## The tracker -/

/-- Where a settlement goes on after a failed write of the process row. -/
inductive Retry where
  | write
  /-- ask again whether the row was stopped -/
  | check
  | poll

/-- An outcome that the tracker is about to record in the process row. -/
structure Settlement where
  processState : ExecutionProcessStatus
  /-- a stopped row keeps its status -/
  heedsStop : Bool
  /-- the worker's latest sequence, where the outcome comes from the terminal path, which
      acknowledges the full cursor afterwards -/
  latestAvailable : Option ℕ
  retry : Retry
  /-- what the tracker tells the chat afterwards -/
  note : List LogMsg

/-- The events of a batch that are still to be handled, with the loop's variables
    `batch_output_only` and `terminal`. -/
structure OpenBatch where
  events : List ExecutionEvent
  batchOutputOnly : Bool
  terminal : Option ExecutionProcessStatus
  latestAvailable : ℕ

/-- The await points of the tracker's task. -/
inductive TrackerPc where
  | polling
  /-- looking up the job's row and the worker's inventory after a gap -/
  | gap (gap : ReplayGapError)
  /-- recording the lost output of a job that is still live -/
  | liveGap (gap : ReplayGapError)
  /-- recording the lost output of a job that has ended -/
  | gapOutcome (gap : ReplayGapError) (processState : ExecutionProcessStatus)
  /-- looking up the row and the inventory after the journal regressed -/
  | regressed (batch : OpenBatch)
  /-- in the loop over a batch's events, which has no await point -/
  | batch (batch : OpenBatch)
  /-- persisting the durable cursor of a batch -/
  | acking (durable latestAvailable : ℕ)
  /-- acknowledging the batch to the worker -/
  | acked (durable : ℕ)
  /-- about to ask whether the row was stopped -/
  | settling (settlement : Settlement)
  /-- writing the outcome into the row -/
  | recording (settlement : Settlement)
  /-- the row holds an outcome; persisting the full cursor -/
  | releasing (latestAvailable : ℕ)
  | finalizing
  | done

/-- The tracker's variables. -/
structure Tracker where
  cursor : ℕ
  pushed : ℕ
  unresolved : UnresolvedInteractions
  regressionReported : Bool
  pc : TrackerPc

namespace Tracker

/-- The tracker of a new task that resumes after `cursor`. -/
def start (cursor : ℕ) : Tracker :=
  { cursor := cursor, pushed := cursor, unresolved := [], regressionReported := false,
    pc := .polling }

/-- `pushed.fetch_max(durable_worker_cursor(cursor, unresolved))`. -/
def fetchMax (t : Tracker) : Tracker :=
  { t with pushed := max t.pushed (durableWorkerCursor t.cursor t.unresolved) }

/-- The answer to a poll (lines 3291-3485). -/
def poll (t : Tracker) (journal : EventJournal) : Tracker :=
  let batch := journal.replayAfter t.cursor
  let opened : OpenBatch :=
    { events := batch.events, batchOutputOnly := true, terminal := none
      latestAvailable := batch.latestAvailable }
  match validateEventBatch batch with
  | .error gap => { t with pc := .gap gap }
  | .ok () =>
    if workerJournalRegressed t.cursor batch.latestAvailable then
      { t with pc := .regressed opened }
    else { t with pc := .batch opened }

/-- The verdict on a gap (lines 3302-3336); `none` when the row or the inventory could not be
    read. -/
def checkGap (t : Tracker) (known : ExecutionWorkerJob) (workerNodeId executionId : Uuid)
    (gap : ReplayGapError) (inventory : Option (List JobSummary)) : Tracker :=
  match inventory with
  | none => { t with pc := .gapOutcome gap .indeterminate }
  | some summaries =>
    match summaries.findSome?
      (replayGapTerminalEvidence known workerNodeId executionId
        (max gap.earliestAvailable t.cursor)) with
    | some (processState, _) => { t with pc := .gapOutcome gap processState }
    | none =>
      if summaries.any (replayGapJobIsLive known workerNodeId executionId) then
        { t with pc := .liveGap gap }
      else { t with pc := .gapOutcome gap .indeterminate }

/-- The tracker goes on in front of the earliest retained event (lines 3362-3367). -/
def jump (t : Tracker) (gap : ReplayGapError) : Tracker :=
  fetchMax { t with cursor := gap.earliestAvailable - 1, pc := .polling }

/-- The verdict on a regressed journal (lines 3494-3540); `none` when the row or the
    inventory could not be read. -/
def checkRegression (t : Tracker) (known : ExecutionWorkerJob) (workerNodeId executionId : Uuid)
    (batch : OpenBatch) (inventory : Option (List JobSummary)) : Tracker :=
  match inventory with
  | none => { t with pc := .polling }
  | some summaries =>
    let t := { t with regressionReported := true }
    match summaries.findSome?
      (journalRegressionTerminalEvidence known workerNodeId executionId batch.latestAvailable) with
    | some (processState, _) => { t with pc := .batch { batch with terminal := some processState } }
    | none =>
      { t with
        pc := .settling
          { processState := .indeterminate, heedsStop := true, latestAvailable := none
            retry := .poll, note := [] } }

/-- One round of the loop over a batch (lines 3546-3664), without the messages it pushes. -/
def event (t : Tracker) (batch : OpenBatch) (event : ExecutionEvent)
    (events : List ExecutionEvent) : Tracker :=
  let cursor := event.sequence
  let outputOnly := batch.batchOutputOnly && workerEventIsOutput event.payload
  let next : OpenBatch := { batch with events := events, batchOutputOnly := outputOnly }
  { t with
    cursor := cursor
    pushed :=
      if outputOnly then max t.pushed (durableWorkerCursor cursor t.unresolved) else t.pushed
    unresolved :=
      match event.payload with
      | .interactionRequested _ => t.unresolved.insert cursor
      | _ => t.unresolved
    pc :=
      match event.payload with
      | .completed evidence | .failed evidence | .killed evidence | .interrupted evidence =>
        .batch { next with terminal := some (processState evidence.state) }
      | .indeterminate _ =>
        .settling
          { processState := .indeterminate, heedsStop := false, latestAvailable := none
            retry := .write, note := [] }
      | _ => .batch next }

/-- After the loop (lines 3682-3713). -/
def endBatch (t : Tracker) (batch : OpenBatch) : Tracker :=
  let durable := durableWorkerCursor t.cursor t.unresolved
  match batch.terminal with
  | some processState =>
    { t with
      pc := .settling
        { processState := processState, heedsStop := true
          latestAvailable := some batch.latestAvailable, retry := .write, note := [] } }
  | none =>
    if shouldAckWorkerBatch t.cursor batch.terminal.isSome then
      { t with pc := .acking durable batch.latestAvailable }
    else { t with pc := .polling }

/-- After the answer of `was_stopped`. -/
def settle (t : Tracker) (settlement : Settlement) (stopped : Bool) : Tracker :=
  if settlement.heedsStop && stopped then
    match settlement.latestAvailable with
    | some latest => { t with pc := .releasing latest }
    | none => { t with pc := .finalizing }
  else { t with pc := .recording settlement }

def recorded (t : Tracker) (settlement : Settlement) (ok : Bool) : Tracker :=
  if ok then
    match settlement.latestAvailable with
    | some latest => { t with pc := .releasing latest }
    | none => { t with pc := .finalizing }
  else
    match settlement.retry with
    | .write => { t with pc := .recording settlement }
    | .check => { t with pc := .settling settlement }
    | .poll => { t with pc := .polling }

end Tracker

/-! ## The raw-log writer -/

/-- Whether a message is raw output, which the writer keeps. -/
def isRaw : LogMsg → Bool
  | .stdout _ | .stderr _ => true
  | _ => false

/-- `write_raw_logs` with its `RawHistorySkip` (`execution_process.rs`, lines 275-440): the
    messages it has not read yet, and how many raw ones among them are on disk already. -/
structure RawLogWriter where
  stream : List LogMsg
  remaining : ℕ
  ended : Bool

namespace RawLogWriter

def push (w : RawLogWriter) (messages : List LogMsg) : RawLogWriter :=
  { w with stream := w.stream ++ messages }

/-- `spawn_resumed_raw_log_writer` (line 335) on a store that holds `seeded`. -/
def resumed (seeded : List LogMsg) : RawLogWriter :=
  { stream := seeded, remaining := seeded.countP isRaw, ended := false }

/-- The writer reads `message`: itself afterwards and the lines it appends. -/
def read (w : RawLogWriter) (message : LogMsg)
    (stream : List LogMsg) : RawLogWriter × List LogMsg :=
  match message with
  | .stdout _ | .stderr _ =>
    match w.remaining with
    | remaining + 1 => ({ w with stream := stream, remaining := remaining }, [])
    | 0 => ({ w with stream := stream }, [message])
  | .finished => ({ w with stream := stream, ended := true }, [])
  | _ => ({ w with stream := stream }, [])

/-- One round of the writer's loop. -/
def next (w : RawLogWriter) : Option (RawLogWriter × List LogMsg) :=
  match w.ended, w.stream with
  | false, message :: stream => some (w.read message stream)
  | _, _ => none

end RawLogWriter

/-! ## The system -/

/-- A coordinator process, as far as this execution is concerned. -/
inductive CoordinatorProcess where
  | down
  | tracking (tracker : Tracker) (writer : RawLogWriter)
  /-- in `kill_all_running_processes`: the tracker has stopped and the store is finished -/
  | handingOff (tracker : Tracker) (pushed : Option ℕ) (writer : RawLogWriter)

namespace CoordinatorProcess

/-- The tracker of a process; after an abort its routing tasks still hold its set. -/
def tracker : CoordinatorProcess → Option Tracker
  | .down => none
  | .tracking t _ => some t
  | .handingOff t _ _ => some t

def writer : CoordinatorProcess → Option RawLogWriter
  | .down => none
  | .tracking _ w => some w
  | .handingOff _ _ w => some w

def setWriter (w : RawLogWriter) : CoordinatorProcess → CoordinatorProcess
  | .down => .down
  | .tracking t _ => .tracking t w
  | .handingOff t pushed _ => .handingOff t pushed w

end CoordinatorProcess

/-- One attachment of a coordinator that has ended in a handoff: the cursors it started and
    stopped at, the pushed sequence, and whether that was persisted. -/
structure Attachment where
  start : ℕ
  stop : ℕ
  pushed : ℕ
  persisted : Bool

/-- A worker execution, its rows and log, and the coordinator that tracks it. The fields from
    `history` on are bookkeeping that no step reads. -/
structure Tracking where
  journal : EventJournal
  job : ExecutionWorkerJob
  status : ExecutionProcessStatus
  rawLog : List LogMsg
  coordinator : CoordinatorProcess
  history : List ExecutionEvent
  /-- interaction requests whose response has reached the worker -/
  delivered : List ℕ
  /-- the gaps on a live job that the tracker has jumped -/
  gaps : List (ℕ × ℕ)
  outcomes : List ExecutionProcessStatus
  /-- the cursor from which the current attachment started -/
  start : ℕ
  attachments : List Attachment

inductive TrackerAction where
  | poll
  | checkGap (inventory : Option (List JobSummary))
  | markIncomplete (ok : Bool)
  | checkRegression (inventory : Option (List JobSummary)) (ok : Bool)
  | event
  | endBatch
  | acknowledgeSequence (ok : Bool)
  | acknowledged
  | readStopped (ok : Bool)
  | recordOutcome (ok : Bool)
  | release (ok : Bool)
  /-- the deadline for silence after a final answer has expired -/
  | giveUp (pollFailed : Bool)
  | finish
  deriving DecidableEq

inductive TrackingAction where
  | append (ts : Timestamp) (payload : ExecutionEventPayload)
  /-- the response to the request at `sequence` reaches the worker -/
  | deliver (sequence : ℕ)
  /-- the routing task of the request at `sequence` learns of that -/
  | resolve (sequence : ℕ)
  /-- another task of the coordinator records an outcome, as `stop_execution` does -/
  | recordOther (status : ExecutionProcessStatus)
  | tracker (a : TrackerAction)
  | write (ok : Bool)
  | writerFails
  | abort
  | handOff (ok : Bool)
  | crash
  /-- `evicted` is how many messages of the seeded history the store has dropped again -/
  | reattach (evicted : ℕ)
  deriving DecidableEq

namespace Tracking

/-- The coordinator goes on with `t` and `w`. -/
def track (s : Tracking) (t : Tracker) (w : RawLogWriter) : Tracking :=
  { s with coordinator := .tracking t w }

/-- `ExecutionProcess::update_completion`. -/
def updateCompletion (s : Tracking) (status : ExecutionProcessStatus) : Tracking :=
  { s with status := status, outcomes := s.outcomes ++ [status] }

/-- The note on a gap of a live job (line 3357). -/
def liveGapNote (gap : ReplayGapError) : LogMsg :=
  .stderr ("Output events " ++ toString (saturatingAdd gap.requestedAfter 1) ++ " to " ++
    toString (gap.earliestAvailable - 1) ++ " were lost while Vibe Kanban was unavailable; " ++
    "the execution is still running on its worker and output continues below")

/-- The note on a gap of a job that has ended (line 3446). -/
def gapOutcomeNote (gap : ReplayGapError) (outcome : String) : LogMsg :=
  .stderr ("Worker output replay gap after sequence " ++ toString gap.requestedAfter ++
    " (earliest retained: " ++ toString gap.earliestAvailable ++ "); output is incomplete; " ++
    outcome)

/-- The note on a regressed journal (line 3518). -/
def regressionNote (cursor : ℕ) : LogMsg :=
  .stderr ("The worker restarted while this execution was running; output after event " ++
    toString cursor ++ " may be missing")

/-- `format!("{process_state:?}")`. -/
def statusName : ExecutionProcessStatus → String
  | .running => "Running"
  | .completed => "Completed"
  | .failed => "Failed"
  | .killed => "Killed"
  | .interrupted => "Interrupted"
  | .indeterminate => "Indeterminate"

/-- The settlement of a gap (lines 3369-3452). -/
def gapSettlement (gap : ReplayGapError) (processState : ExecutionProcessStatus) : Settlement :=
  { processState := processState
    heedsStop := true
    latestAvailable := none
    retry := .check
    note :=
      [gapOutcomeNote gap
        (if processState = .indeterminate then "execution state is indeterminate"
          else "execution outcome recovered from worker terminal evidence: " ++
            statusName processState)] }

/-- The settlement of a job that stays silent after its final answer (lines 3468-3481 and
    3789-3865). -/
def silenceSettlement (pollFailed : Bool) : Settlement :=
  { processState := .indeterminate
    heedsStop := false
    latestAvailable := none
    retry := .poll
    note :=
      if pollFailed then []
      else
        [.stderr ("Final response arrived without worker terminal evidence; " ++
          "execution state is indeterminate")] }

/-- The note of a settlement is pushed once it has been carried out. -/
def settledNote (pc : TrackerPc) (settlement : Settlement) : List LogMsg :=
  match pc with
  | .finalizing => settlement.note
  | _ => []

def trackerStep (s : Tracking) (t : Tracker) (w : RawLogWriter) : TrackerAction → Option Tracking
  | .poll =>
    match t.pc with
    | .polling => some (s.track (t.poll s.journal) w)
    | _ => none
  | .checkGap inventory =>
    match t.pc with
    | .gap gap =>
      some (s.track (t.checkGap s.job s.job.workerNodeId s.job.executionProcessId gap inventory) w)
    | _ => none
  | .markIncomplete ok =>
    let job := if ok then s.job.markOutputIncomplete else s.job
    match t.pc with
    | .liveGap gap =>
      some
        { s with
          job := job
          gaps := s.gaps ++ [(t.cursor, gap.earliestAvailable)]
          coordinator := .tracking (t.jump gap) (w.push [liveGapNote gap]) }
    | .gapOutcome gap processState =>
      if ok then
        some
          { s with
            job := job
            coordinator := .tracking { t with pc := .settling (gapSettlement gap processState) } w }
      else some s
    | _ => none
  | .checkRegression inventory ok =>
    match t.pc with
    | .regressed batch =>
      let t' := t.checkRegression s.job s.job.workerNodeId s.job.executionProcessId batch inventory
      if t'.regressionReported && !t.regressionReported then
        some
          { s with
            job := if ok then s.job.markOutputIncomplete else s.job
            coordinator := .tracking t' (w.push [regressionNote t.cursor]) }
      else some (s.track t' w)
    | _ => none
  | .event =>
    match t.pc with
    | .batch batch =>
      match batch.events with
      | event :: events =>
        some (s.track (t.event batch event events) (w.push (eventMessages event.payload)))
      | [] => none
    | _ => none
  | .endBatch =>
    match t.pc with
    | .batch batch =>
      match batch.events with
      | [] => some (s.track (t.endBatch batch) w)
      | _ :: _ => none
    | _ => none
  | .acknowledgeSequence ok =>
    match t.pc with
    | .acking durable latest =>
      some
        { s with
          job := if ok then s.job.acknowledgeSequence (asI64 durable) (asI64 latest) else s.job
          coordinator := .tracking { t with pc := .acked durable } w }
    | _ => none
  | .acknowledged =>
    match t.pc with
    | .acked durable => some (s.track { t with pushed := max t.pushed durable, pc := .polling } w)
    | _ => none
  | .readStopped ok =>
    match t.pc with
    | .settling settlement =>
      let t' := t.settle settlement (ok && s.status.wasStopped)
      some (s.track t' (w.push (settledNote t'.pc settlement)))
    | _ => none
  | .recordOutcome ok =>
    match t.pc with
    | .recording settlement =>
      let t' := t.recorded settlement ok
      let s' := if ok then s.updateCompletion settlement.processState else s
      some (s'.track t' (w.push (settledNote t'.pc settlement)))
    | _ => none
  | .release ok =>
    match t.pc with
    | .releasing latest =>
      some
        { s with
          job := if ok then s.job.acknowledgeSequence (asI64 t.cursor) (asI64 latest) else s.job
          coordinator := .tracking { t with pc := .finalizing } w }
    | _ => none
  | .giveUp pollFailed =>
    match t.pc with
    | .polling => some (s.track { t with pc := .settling (silenceSettlement pollFailed) } w)
    | _ => none
  | .finish =>
    match t.pc with
    | .finalizing => some (s.track { t with pc := .done } (w.push [.finished]))
    | _ => none

def step (s : Tracking) : TrackingAction → Option Tracking
  | .append ts payload =>
    match s.journal.append ts payload with
    | (.ok _, journal) =>
      some
        { s with
          journal := journal
          history := s.history ++ [s.journal.stamped ts payload] }
    | (.error _, _) => some s
  | .deliver sequence =>
    match s.coordinator.tracker with
    | some t =>
      if sequence ∈ t.unresolved then some { s with delivered := sequence :: s.delivered } else none
    | none => none
  | .resolve sequence =>
    match s.coordinator with
    | .tracking t w =>
      if sequence ∈ s.delivered then
        some (s.track { t with unresolved := t.unresolved.filter (fun k => k ≠ sequence) } w)
      else none
    | _ => none
  | .recordOther status => if status = .running then none else some (s.updateCompletion status)
  | .tracker a =>
    match s.coordinator with
    | .tracking t w => s.trackerStep t w a
    | _ => none
  | .write ok =>
    match s.coordinator.writer with
    | some w =>
      match w.next with
      | some (w', lines) =>
        some
          { s with
            rawLog := if ok then s.rawLog ++ lines else s.rawLog
            coordinator := s.coordinator.setWriter w' }
      | none => none
    | none => none
  | .writerFails =>
    match s.coordinator.writer with
    | some w => some { s with coordinator := s.coordinator.setWriter { w with ended := true } }
    | none => none
  | .abort =>
    match s.coordinator with
    | .tracking t w =>
      match t.pc with
      | .batch _ => none
      -- the store and the pushed sequence are gone, and with them the writer
      | .done => some { s with coordinator := .handingOff t none w }
      | _ => some { s with coordinator := .handingOff t (some t.pushed) (w.push [.finished]) }
    | _ => none
  | .handOff ok =>
    match s.coordinator with
    | .handingOff t pushed w =>
      -- a writer that has not ended by the deadline leaves the cursor where it is
      let persisted := w.ended && ok && pushed.isSome
      let sequence := asI64 (pushed.getD 0)
      some
        { s with
          job := if persisted then s.job.acknowledgeSequence sequence sequence else s.job
          coordinator := .down
          attachments := s.attachments ++
            [{ start := s.start, stop := t.cursor, pushed := pushed.getD 0,
               persisted := persisted }] }
    | _ => none
  | .crash =>
    match s.coordinator with
    | .down => none
    | _ => some { s with coordinator := .down }
  | .reattach evicted =>
    match s.coordinator with
    | .down =>
      if s.status = .running then
        let cursor := s.job.lastEventSequence.toNat
        some
          { s with
            coordinator :=
              .tracking (Tracker.start cursor) (RawLogWriter.resumed (s.rawLog.drop evicted))
            start := cursor }
      else none
    | _ => none

/-- A fresh dispatch: an empty journal, and a tracker that polls from the start. -/
def Initial (s : Tracking) : Prop :=
  (∃ id capacity, EventJournal.new id capacity = .ok s.journal) ∧
    s.job.lastEventSequence = 0 ∧ s.status = .running ∧ s.rawLog = [] ∧
    s.coordinator = .tracking (Tracker.start 0) (RawLogWriter.resumed []) ∧
    s.history = [] ∧ s.delivered = [] ∧ s.gaps = [] ∧ s.outcomes = [] ∧ s.start = 0 ∧
    s.attachments = []

end Tracking

end VibeKanban.Coordinator

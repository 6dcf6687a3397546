import VibeKanban.Lib.Runs
import VibeKanban.Worker.Journal

/-!
# One execution on a worker (`worker/src/execution.rs`, `worker/src/cancellation.rs`)

A dispatched execution has a `WorkerJob` with a state, a journal and, once it is spawned, a child
process. `run_job`, `cancel` requests, `reap_if_silent`, `quarantine` and the tasks that forward
output and interactions work on it at the same time. `step` performs one lock acquisition of one of
them; an append to the journal and the write of the state that follows it (`WorkerJob::transition`)
are two steps, between which a request may be dropped.

What comes from outside is part of the action. Of the requests only the holder of the `cancellation`
mutex is represented.
-/

namespace VibeKanban.Worker

open Cluster Lib

/-! ## The job -/

/-- `std::process::ExitStatus`. -/
structure ExitStatus where
  code : Option ℤ
  signal : Option ℤ
  deriving DecidableEq

/-- `ExitStatus::success`. -/
def ExitStatus.success (status : ExitStatus) : Bool := status.code = some 0

/-- The child process as `try_wait` sees it. -/
inductive Child where
  | running
  | exited (status : ExitStatus)
  | unobservable
  deriving DecidableEq

/-- `AsyncGroupChild::try_wait`. -/
def Child.tryWait : Child → Except Unit (Option ExitStatus)
  | .running => .ok none
  | .exited status => .ok (some status)
  | .unobservable => .error ()

/-- `WorkerJob` (`execution.rs`, line 134), without its MCP configuration, interaction broker
    and process id, which no modelled function reads. -/
structure WorkerJob where
  executionId : Uuid
  workerJobId : Uuid
  workspaceId : Uuid
  requestDigest : String
  state : JobState
  journal : EventJournal
  child : Option Child
  quiescedBy : Option Uuid
  outputSeen : Bool
  deriving DecidableEq

inductive ExecutorExitResult where
  | success
  | failure
  deriving DecidableEq

namespace WorkerJob

/-- The append of `transition` (lines 1253-1258): the job if `is_ok()`. -/
def append (job : WorkerJob) (now : Timestamp) (payload : ExecutionEventPayload) :
    Option WorkerJob :=
  match job.journal.append now payload with
  | (.ok _, journal) => some { job with journal := journal }
  | (.error _, _) => none

/-- `WorkerJob::emit` (line 1284), which ignores a refused append. -/
def emit (job : WorkerJob) (now : Timestamp) (payload : ExecutionEventPayload) : WorkerJob :=
  { job with journal := (job.journal.append now payload).2 }

/-- `WorkerJob::is_active_for_drain` (lines 1189-1203). -/
def isActiveForDrain (job : WorkerJob) : Bool :=
  if !job.state.isTerminal then true
  else
    match job.child with
    | some child =>
      match child.tryWait with
      | .ok (some _) => false
      | _ => true
    | none => false

/-- `WorkerJob::summary` (lines 1215-1226). -/
def summary (job : WorkerJob) : JobSummary :=
  { executionId := job.executionId
    workerJobId := job.workerJobId
    workspaceId := job.workspaceId
    requestDigest := job.requestDigest
    state := job.state
    lastSequence := job.journal.lastSequence
    terminal := job.journal.terminal }

/-- `stop_child` (lines 1558-1563): `none` when killing or waiting failed. -/
def stopChild (job : WorkerJob) (stopped : Option ExitStatus) : WorkerJob :=
  match job.child, stopped with
  | some (.exited _), _ => job
  | some _, some status => { job with child := some (.exited status) }
  | _, _ => job

end WorkerJob

/-! ## Finishing -/

/-- `executor_terminal_state` (lines 1783-1792). -/
def executorTerminalState (current : JobState) (result : ExecutorExitResult) : TerminalState :=
  if current = .cancelling then .killed
  else
    match result with
    | .success => .completed
    | .failure => .failed

/-- The three ways in which a task finishes the job: `finish_status`,
    `finish_executor_result` and `finish_failed` (lines 1738-1814). -/
inductive Finish where
  | status (exit : ExitStatus)
  | executorResult (result : ExecutorExitResult)
  | failed (exitCode : Option ℤ) (reason : String)
  deriving DecidableEq

/-- The terminal state that a finish decides on, given the job's current state. -/
def Finish.terminalState (current : JobState) : Finish → TerminalState
  | .status exit =>
    if current = .cancelling then .killed else if exit.success then .completed else .failed
  | .executorResult result => executorTerminalState current result
  | .failed _ _ => .failed

def Finish.evidence (current : JobState) (now : Timestamp) (finish : Finish) : TerminalEvidence :=
  let terminalState := finish.terminalState current
  match finish with
  | .status exit =>
    { state := terminalState, exitCode := exit.code, signal := exit.signal, observedAt := now }
  | .executorResult _ =>
    { state := terminalState
      exitCode :=
        match terminalState with
        | .completed => some 0
        | .failed => some 1
        | _ => none
      signal := none
      observedAt := now }
  | .failed exitCode _ =>
    { state := terminalState, exitCode := exitCode, signal := none, observedAt := now }

/-- The tasks that finish a job. -/
inductive Finisher where
  | run
  | reaper
  deriving DecidableEq

/-- Where a task is inside a finish function. -/
inductive FinishPc where
  /-- waiting for `mcp_refresh_claim` -/
  | waiting (finish : Finish)
  | claimed (finish : Finish)
  | appending (evidence : TerminalEvidence)
  /-- the terminal event is in the journal, the state still has to be written -/
  | writing (evidence : TerminalEvidence)
  deriving DecidableEq

/-- One step of a finish function: the job, the claim and the next position, `none` when the
    function returns. -/
def finishStep (job : WorkerJob) (claim : Option Finisher) (who : Finisher) (now : Timestamp) :
    FinishPc → Option (WorkerJob × Option Finisher × Option FinishPc)
  | .waiting finish => if claim = none then some (job, some who, some (.claimed finish)) else none
  | .claimed finish =>
    match finish with
    | .failed _ reason =>
      some (job.emit now (.structured (.workerError reason)), claim,
        some (.appending (finish.evidence job.state now)))
    | _ => some (job, claim, some (.appending (finish.evidence job.state now)))
  | .appending evidence =>
    match job.append now (terminalPayload evidence) with
    | some job => some (job, claim, some (.writing evidence))
    | none => some (job, none, none)
  | .writing evidence => some ({ job with state := evidence.state.jobState }, none, none)

/-! ## The tasks -/

/-- Where `run_job` is (lines 1287-1474). -/
inductive RunPc where
  /-- before `set_state(Starting)` -/
  | accepted
  | writingStarting
  | starting
  /-- the spawn returned a child; waiting for the `cancellation` mutex -/
  | spawned (child : Child)
  /-- holds the mutex and has seen a state that is not terminal -/
  | handingOver (child : Child)
  /-- the loop that observes the child -/
  | running
  /-- the executor's completion channel closed and the child was stopped -/
  | closing
  | finishing (pc : FinishPc)
  | done
  deriving DecidableEq

/-- What ends the loop of `run_job`; `stopped` is the result of killing the child. -/
inductive RunOutcome where
  | signal (result : ExecutorExitResult) (stopped : Option ExitStatus)
  | closed (stopped : Option ExitStatus)
  | waitFailed (error : String)
  | exited
  | deadline (stopped : Option ExitStatus)

/-- The escalation stages of `cancel`. -/
inductive CancelStage where
  | graceful
  | terminate
  | kill
  deriving DecidableEq

/-- The phase that a stage records before its signal. -/
def CancelStage.phase : CancelStage → CancellationPhase
  | .graceful => .requested
  | .terminate => .terminatingProcessGroup
  | .kill => .killingProcessGroup

/-- Where a `cancel` request that holds the mutex is (`cancellation.rs`, lines 25-127). -/
inductive CancelPc where
  /-- before the check of `terminal_evidence` -/
  | checking
  | appending (stage : CancelStage)
  /-- the phase is in the journal, `Cancelling` still has to be written -/
  | writing (stage : CancelStage)
  | signalling (stage : CancelStage)
  | waiting (stage : CancelStage)
  | confirming (exit : ExitStatus)
  | writingKilled (evidence : TerminalEvidence)
  | appendingIndeterminate
  | writingIndeterminate
  deriving DecidableEq

/-- The holder of the `cancellation` mutex. -/
inductive CancellationLock where
  | free
  | run
  | reaper
  | cancel (pc : CancelPc)
  deriving DecidableEq

/-- Where `reap_if_silent` is (lines 1506-1550); `reported` is its `spawn_reported`. -/
inductive ReaperPc where
  | unarmed
  | sleeping (reported : Bool)
  | locked (reported : Bool)
  | inspecting (reported : Bool)
  | finishing (pc : FinishPc)
  | done
  deriving DecidableEq

/-- One execution with the tasks that work on it. -/
structure Execution where
  job : WorkerJob
  run : RunPc
  cancellation : CancellationLock
  reaper : ReaperPc
  /-- holder of `mcp_refresh_claim` -/
  claim : Option Finisher
  /-- `limits.startup_stall`, as messages print the window -/
  startupStall : Option String
  deriving DecidableEq

/-- One step of one task, with what the outside contributes to it. -/
inductive Action where
  /-- the append of `set_state(Starting)` -/
  | setStarting (now : Timestamp)
  | writeStarting
  | spawned (result : Except String Child)
  /-- `run_job` takes the mutex and checks the state -/
  | handOff
  /-- `run_job` stores the child and writes `Running` -/
  | writeRunning
  | observe (outcome : RunOutcome)
  | closed
  | finish (who : Finisher) (now : Timestamp)
  /-- a `cancel` request takes the mutex -/
  | lockCancel
  | cancel (now : Timestamp) (fails : Bool)
  /-- the connection of the `cancel` request closes, and its handler is dropped at an await -/
  | dropCancel
  | reap (now : Timestamp)
  | quarantine
  /-- `emit` by the interaction services -/
  | emit (now : Timestamp) (payload : ExecutionEventPayload)
  /-- a chunk read by `stream_output` -/
  | output (now : Timestamp) (stderr : Bool) (dataBase64 : String)
  | streamError (now : Timestamp) (error : String)
  /-- the child changes as the operating system sees it -/
  | childChanges (child : Child)
  | quiesce (owner : Option Uuid)

/-! ## One step of each task -/

namespace Execution

/-- What `set_state(Starting)` returning leads to: the reaper is armed, the spawn begins. -/
def starting (s : Execution) : Execution :=
  { s with
    run := .starting
    reaper := if s.startupStall.isSome then .sleeping false else s.reaper }

/-- `run_job` up to the hand-over of the child. -/
def setStarting (s : Execution) (now : Timestamp) : Option Execution :=
  if s.run = .accepted then
    match s.job.append now .starting with
    | some job => some { s with job := job, run := .writingStarting }
    | none => some s.starting
  else none

def writeStarting (s : Execution) : Option Execution :=
  if s.run = .writingStarting then some { s with job := { s.job with state := .starting } }.starting
  else none

def spawned (s : Execution) (result : Except String Child) : Option Execution :=
  if s.run = .starting then
    match result with
    | .ok child => some { s with run := .spawned child }
    | .error error =>
      some
        { s with
          run := .finishing (.waiting (.failed none ("failed to start process: " ++ error))) }
  else none

/-- The hand-over (lines 1374-1390): a job that has already ended is not revived, its late
    child is killed. -/
def handOff (s : Execution) : Option Execution :=
  match s.run, s.cancellation with
  | .spawned child, .free =>
    if s.job.state.isTerminal then some { s with run := .done }
    else some { s with run := .handingOver child, cancellation := .run }
  | _, _ => none

def writeRunning (s : Execution) : Option Execution :=
  match s.run with
  | .handingOver child =>
    some
      { s with
        job := { s.job with child := some child, state := .running }
        run := .running
        cancellation := .free }
  | _ => none

/-- The loop of `run_job` (lines 1419-1473). -/
def observe (s : Execution) (outcome : RunOutcome) : Option Execution :=
  if s.run = .running then
    match outcome with
    | .signal result stopped =>
      some
        { s with
          job := s.job.stopChild stopped
          run := .finishing (.waiting (.executorResult result)) }
    | .closed stopped => some { s with job := s.job.stopChild stopped, run := .closing }
    | .waitFailed error =>
      if s.job.child = some .unobservable then
        some
          { s with
            run := .finishing (.waiting (.failed none ("failed to observe process: " ++ error))) }
      else none
    | .exited =>
      match s.job.child with
      | some (.exited status) => some { s with run := .finishing (.waiting (.status status)) }
      | _ => none
    | .deadline stopped =>
      some
        { s with
          job := s.job.stopChild stopped
          run := .finishing (.waiting (.failed none "execution timeout elapsed")) }
  else none

/-- The decision after the completion channel closed (lines 1429-1438). -/
def closed (s : Execution) : Option Execution :=
  if s.run = .closing then
    some
      { s with
        run := .finishing (.waiting
          (if s.job.state = .cancelling then .executorResult .success
            else .failed none "executor completion channel closed without terminal evidence")) }
  else none

/-- A step of the finish function that `run_job` or the reaper is in. The reaper holds the
    mutex until it returns. -/
def finish (s : Execution) (who : Finisher) (now : Timestamp) : Option Execution :=
  match who with
  | .run =>
    match s.run with
    | .finishing pc =>
      match finishStep s.job s.claim .run now pc with
      | some (job, claim, some pc) =>
        some { s with job := job, claim := claim, run := .finishing pc }
      | some (job, claim, none) => some { s with job := job, claim := claim, run := .done }
      | none => none
    | _ => none
  | .reaper =>
    match s.reaper with
    | .finishing pc =>
      match finishStep s.job s.claim .reaper now pc with
      | some (job, claim, some pc) =>
        some { s with job := job, claim := claim, reaper := .finishing pc }
      | some (job, claim, none) =>
        some { s with job := job, claim := claim, reaper := .done, cancellation := .free }
      | none => none
    | _ => none

/-- What follows a stage whose wait did not see an exit. -/
def afterStage : CancelStage → CancelPc
  | .graceful => .appending .terminate
  | .terminate => .appending .kill
  | .kill => .appendingIndeterminate

/-- A step of the `cancel` request that holds the mutex; `fails` is the result of its signal. -/
def cancel (s : Execution) (now : Timestamp) (fails : Bool) : Option Execution :=
  match s.cancellation with
  | .cancel .checking =>
    if s.job.journal.terminal.isSome then some { s with cancellation := .free }
    else some { s with cancellation := .cancel (.appending .graceful) }
  | .cancel (.appending stage) =>
    match s.job.append now (.structured (.cancellationPhase stage.phase)) with
    | some job => some { s with job := job, cancellation := .cancel (.writing stage) }
    | none => some { s with cancellation := .cancel (.signalling stage) }
  | .cancel (.writing stage) =>
    some
      { s with
        job := { s.job with state := .cancelling }
        cancellation := .cancel (.signalling stage) }
  | .cancel (.signalling stage) =>
    if fails ∧ s.job.child ≠ none then some { s with cancellation := .free }
    else some { s with cancellation := .cancel (.waiting stage) }
  | .cancel (.waiting stage) =>
    match s.job.child with
    | none => some { s with cancellation := .cancel (afterStage stage) }
    | some child =>
      match child.tryWait with
      | .ok (some exit) => some { s with cancellation := .cancel (.confirming exit) }
      | .ok none => some { s with cancellation := .cancel (afterStage stage) }
      | .error _ => some { s with cancellation := .free }
  | .cancel (.confirming exit) =>
    let evidence : TerminalEvidence :=
      { state := .killed, exitCode := exit.code, signal := exit.signal, observedAt := now }
    match s.job.append now (.killed evidence) with
    | some job => some { s with job := job, cancellation := .cancel (.writingKilled evidence) }
    | none => some { s with cancellation := .free }
  | .cancel (.writingKilled _) =>
    some { s with job := { s.job with state := .killed }, cancellation := .free }
  | .cancel .appendingIndeterminate =>
    match s.job.append now (.indeterminate "process-group kill was not confirmed") with
    | some job => some { s with job := job, cancellation := .cancel .writingIndeterminate }
    | none => some { s with cancellation := .free }
  | .cancel .writingIndeterminate =>
    some { s with job := { s.job with state := .indeterminate }, cancellation := .free }
  | _ => none

def dropCancel (s : Execution) : Option Execution :=
  match s.cancellation with
  | .cancel _ => some { s with cancellation := .free }
  | _ => none

/-- The diagnostic of a spawn that has not returned (lines 1523-1527). -/
def startNotReturned (s : Execution) : String :=
  let window := s.startupStall.getD ""
  "agent start has not returned after " ++ window ++ "; the node may be under memory or IO " ++
    "pressure. The execution stays owned until the start resolves"

/-- `startup_stall_reason` (lines 1552-1556). -/
def startupStallReason (s : Execution) : String :=
  let window := s.startupStall.getD ""
  "agent produced no output within " ++ window ++ " of starting; reaped by the worker " ++
    "(the node may be under memory or IO pressure)"

/-- A step of `reap_if_silent` outside of `finish_failed`. -/
def reap (s : Execution) (now : Timestamp) : Option Execution :=
  match s.reaper with
  | .sleeping reported =>
    if s.cancellation = .free then
      some { s with cancellation := .reaper, reaper := .locked reported }
    else none
  | .locked reported =>
    if s.job.state.isTerminal || s.job.outputSeen then
      some { s with cancellation := .free, reaper := .done }
    else some { s with reaper := .inspecting reported }
  | .inspecting reported =>
    if s.job.child = none then
      some
        { s with
          job :=
            if reported then s.job
            else s.job.emit now (.structured (.workerError s.startNotReturned))
          cancellation := .free
          reaper := .sleeping true }
    else if s.job.quiescedBy = none then
      some { s with reaper := .finishing (.waiting (.failed none s.startupStallReason)) }
    else some { s with cancellation := .free, reaper := .sleeping reported }
  | _ => none

def childChanges (s : Execution) (child : Child) : Option Execution :=
  match s.job.child with
  | none => none
  | some (.exited _) => none
  | some _ => some { s with job := { s.job with child := some child } }

def step (s : Execution) : Action → Option Execution
  | .setStarting now => s.setStarting now
  | .writeStarting => s.writeStarting
  | .spawned result => s.spawned result
  | .handOff => s.handOff
  | .writeRunning => s.writeRunning
  | .observe outcome => s.observe outcome
  | .closed => s.closed
  | .finish who now => s.finish who now
  | .lockCancel =>
    if s.cancellation = .free then some { s with cancellation := .cancel .checking } else none
  | .cancel now fails => s.cancel now fails
  | .dropCancel => s.dropCancel
  | .reap now => s.reap now
  | .quarantine => some { s with job := { s.job with state := .quarantined } }
  | .emit now payload =>
    if terminalEvidence payload = none then some { s with job := s.job.emit now payload } else none
  | .output now stderr dataBase64 =>
    some
      { s with
        job :=
          { s.job.emit now (if stderr then .stderr dataBase64 else .stdout dataBase64) with
            outputSeen := true } }
  | .streamError now error =>
    some { s with job := s.job.emit now (.structured (.streamError error)) }
  | .childChanges child => s.childChanges child
  | .quiesce owner => some { s with job := { s.job with quiescedBy := owner } }

/-! ## How an execution comes to be -/

/-- The identity of a dispatched execution. -/
structure Dispatch where
  executionId : Uuid
  workerJobId : Uuid
  workspaceId : Uuid
  requestDigest : String

/-- The job that `dispatch` inserts (lines 644-667). -/
def dispatch (d : Dispatch) (capacity : ℕ) (startupStall : Option String) (now : Timestamp) :
    Except JournalError Execution :=
  match EventJournal.new d.executionId capacity with
  | .error e => .error e
  | .ok journal =>
    match journal.append now .accepted with
    | (.error e, _) => .error e
    | (.ok _, journal) => .ok
      { job :=
          { executionId := d.executionId
            workerJobId := d.workerJobId
            workspaceId := d.workspaceId
            requestDigest := d.requestDigest
            state := .accepted
            journal := journal
            child := none
            quiescedBy := none
            outputSeen := false }
        run := .accepted
        cancellation := .free
        reaper := .unarmed
        claim := none
        startupStall := startupStall }

/-- The summary and the evidence with which `with_recovery_and_drain` recovers a job
    (lines 425-441). -/
def recoveredSummary (summary : JobSummary) (now : Timestamp) : JobSummary × TerminalEvidence :=
  match summary.terminal with
  | some evidence =>
    if summary.state.isTerminal then (summary, evidence)
    else
      let evidence : TerminalEvidence :=
        { state := .interrupted, exitCode := none, signal := none, observedAt := now }
      ({ summary with state := .interrupted, terminal := some evidence }, evidence)
  | none =>
    let evidence : TerminalEvidence :=
      { state := .interrupted, exitCode := none, signal := none, observedAt := now }
    ({ summary with state := .interrupted, terminal := some evidence }, evidence)

/-- The job that `with_recovery_and_drain` inserts for a summary and its evidence
    (lines 442-465). No task runs on it. -/
def rebuild (summary : JobSummary) (capacity : ℕ) (evidence : TerminalEvidence) :
    Except JournalError Execution :=
  match EventJournal.recover summary capacity evidence with
  | .error e => .error e
  | .ok journal => .ok
    { job :=
        { executionId := summary.executionId
          workerJobId := summary.workerJobId
          workspaceId := summary.workspaceId
          requestDigest := summary.requestDigest
          state := summary.state
          journal := journal
          child := none
          quiescedBy := none
          outputSeen := false }
      run := .done
      cancellation := .free
      reaper := .unarmed
      claim := none
      startupStall := none }

def recover (summary : JobSummary) (capacity : ℕ) (now : Timestamp) :
    Except JournalError Execution :=
  rebuild (recoveredSummary summary now).1 capacity (recoveredSummary summary now).2

/-- The executions of a worker process: dispatched, or recovered from a saved summary. -/
def Started (s : Execution) : Prop :=
  (∃ d capacity stall now, dispatch d capacity stall now = .ok s) ∨
    ∃ summary capacity now, recover summary capacity now = .ok s

end Execution

end VibeKanban.Worker

import VibeKanban.Cluster.WorkerNodes
import VibeKanban.Coordinator.Tracker
import VibeKanban.Worker.Supervisor

/-!
# Dispatch and reconciliation of worker jobs

The path of a dispatch through the database (`local-deployment/src/container.rs`, lines 5230-5291),
and the reconciliation of the rows with the inventories of the workers
(`services/src/services/cluster/reconcile.rs`). A step is one statement or one call of a worker; its
answer is part of the action. Columns that are only written are left out, and a worker's job ids are
fresh. The log is not in the source: it records the statements and calls, newest first.
-/

namespace VibeKanban.Coordinator

open Cluster Lib Worker

/-! ## Rows -/

/-- `ExecutionWorkerDispatchState`. -/
inductive DispatchState where
  | pending
  | accepted
  | starting
  | running
  | cancelling
  | completed
  | failed
  | killed
  | interrupted
  | indeterminate
  | quarantined
  deriving DecidableEq

/-- `ExecutionWorkerDispatchState::is_terminal`, and the states that
    `find_nonterminal_for_worker` leaves out. -/
def DispatchState.isTerminal : DispatchState → Bool
  | .completed | .failed | .killed | .interrupted | .indeterminate | .quarantined => true
  | _ => false

/-- `dispatch_state` (`reconcile.rs`, line 255). -/
def dispatchState : JobState → DispatchState
  | .accepted => .accepted
  | .starting => .starting
  | .running => .running
  | .cancelling => .cancelling
  | .completed => .completed
  | .failed => .failed
  | .killed => .killed
  | .interrupted => .interrupted
  | .indeterminate => .indeterminate
  | .quarantined => .quarantined

/-- A row of `execution_worker_jobs` with its dispatch state. -/
structure WorkerJobRow extends ExecutionWorkerJob where
  dispatchState : DispatchState
  deriving DecidableEq

/-- A row of `execution_processes`. -/
structure ProcessRow where
  id : Uuid
  status : ExecutionProcessStatus
  deriving DecidableEq

abbrev JobRows := List WorkerJobRow

/-! ## Statements (`db/src/models/execution_worker_job.rs`) -/

def WorkerJobRow.key (job : WorkerJobRow) : Uuid := job.executionProcessId

def findByExecutionId (jobs : JobRows) (executionProcessId : Uuid) : Option WorkerJobRow :=
  jobs.find? fun job => job.key == executionProcessId

/-- The row that `create_pending` inserts; the execution ID stands in for the job ID. -/
def pendingRow (executionProcessId workerNodeId : Uuid) (requestDigest : String) : WorkerJobRow :=
  { executionProcessId := executionProcessId
    workerNodeId := workerNodeId
    workerJobId := executionProcessId
    requestDigest := requestDigest
    lastEventSequence := 0
    workerLastSequence := 0
    outputComplete := true
    dispatchState := .pending }

/-- `create_pending` (lines 73-110): `INSERT OR IGNORE`, and whether the row is one of the same
    request. -/
def createPending (jobs : JobRows) (executionProcessId workerNodeId : Uuid)
    (requestDigest : String) : JobRows × Bool :=
  match findByExecutionId jobs executionProcessId with
  | none => (jobs ++ [pendingRow executionProcessId workerNodeId requestDigest], true)
  | some job => (jobs, job.workerNodeId = workerNodeId ∧ job.requestDigest = requestDigest)

/-- `find_nonterminal_for_worker` (lines 122-136). -/
def findNonterminalForWorker (jobs : JobRows) (workerNodeId : Uuid) : JobRows :=
  jobs.filter fun job => job.workerNodeId == workerNodeId && !job.dispatchState.isTerminal

/-- `observe_worker_sequence` (lines 179-198). -/
def observeWorkerSequence (jobs : JobRows) (executionProcessId : Uuid) (workerLastSequence : ℤ) :
    JobRows :=
  update (fun job => job.key == executionProcessId)
    (fun job => { job with workerLastSequence := max job.workerLastSequence workerLastSequence })
    jobs

/-- `update_state` (lines 200-229). -/
def updateState (jobs : JobRows) (executionProcessId : Uuid) (state : DispatchState) :
    JobRows × Bool :=
  let p := fun job : WorkerJobRow => job.key == executionProcessId
  (update p (fun job => { job with dispatchState := state }) jobs, affected p jobs == 1)

/-- `record_acceptance` (lines 231-254). -/
def recordAcceptance (jobs : JobRows) (executionProcessId workerJobId : Uuid)
    (workerLastSequence : ℤ) : JobRows × Bool :=
  let p := fun job : WorkerJobRow =>
    job.key == executionProcessId && decide (job.dispatchState = .pending)
  (update p
    (fun job =>
      { job with
        workerJobId := workerJobId
        dispatchState := .accepted
        workerLastSequence := max job.workerLastSequence workerLastSequence })
    jobs, affected p jobs == 1)

/-- `ExecutionProcess::find_by_id`, as far as the status is read. -/
def findProcess (processes : List ProcessRow) (id : Uuid) : Option ExecutionProcessStatus :=
  (processes.find? fun process => process.id == id).map ProcessRow.status

/-- `ExecutionProcess::update_completion` for a row. -/
def completeProcess (processes : List ProcessRow) (id : Uuid) (status : ExecutionProcessStatus) :
    List ProcessRow :=
  update (fun process => process.id == id) (fun process => { process with status := status })
    processes

/-! ## Dispatches -/

inductive DispatchPathPc where
  /-- before `create_pending` -/
  | creating
  | sending
  /-- before the row is marked failed: an error, or an answer for another request -/
  | failing
  /-- the worker has accepted; before `record_acceptance` -/
  | accepted (workerJobId : Uuid) (lastSequence : ℕ)
  | done
  deriving DecidableEq

structure DispatchPath where
  executionId : Uuid
  workerNodeId : Uuid
  requestDigest : String
  pc : DispatchPathPc

inductive DispatchPathAction where
  | create
  | answer (reply : Except String DispatchAccepted)
  | fail
  | record
  /-- a statement fails, or the caller goes away -/
  | drop

/-! ## Reconciliation -/

structure ReconciliationReport where
  workersReached : ℕ
  workersUnreachable : List Uuid
  jobsReconciled : ℕ
  jobsMissing : ℕ
  jobsQuarantined : ℕ
  conflicts : ℕ
  jobsDeferred : ℕ

/-- What follows on the writes for one summary. -/
inductive AfterWrite where
  | quarantine
  | conflict
  | reconciled
  deriving DecidableEq

inductive SummaryPc where
  /-- before `find_by_execution_id` -/
  | looking
  /-- the row is known and the job runs; before its process is looked up -/
  | checking
  /-- before `observe_worker_sequence` -/
  | observing
  /-- the job has ended; before its process is looked up -/
  | reading (evidence : TerminalEvidence)
  /-- before `update_state` and, with a status, `update_completion` -/
  | updating (state : DispatchState) (status : Option ExecutionProcessStatus) (after : AfterWrite)
  | completing (status : ExecutionProcessStatus) (after : AfterWrite)
  /-- before the worker is asked to quarantine the job -/
  | quarantining (known : Bool)
  deriving DecidableEq

inductive ReconcilePc where
  /-- before the inventory of the first worker is fetched -/
  | fetching
  /-- the worker was not reached; before `mark_offline` -/
  | unreachable
  /-- before `find_nonterminal_for_worker` -/
  | expecting (inventory : List JobSummary)
  /-- the rows that were expected, the jobs reported so far and those still to come -/
  | comparing (expected : JobRows) (reported : List Uuid) (inventory : List JobSummary)
      (pc : SummaryPc)
  /-- rows of jobs that the inventory does not have -/
  | missing (ids : List Uuid)
  | completingMissing (id : Uuid) (ids : List Uuid)
  deriving DecidableEq

/-- `reconcile`, with the workers still to come; the first is the current one. -/
structure ReconcileTask where
  workers : List Uuid
  pc : ReconcilePc
  report : ReconciliationReport

inductive ReconcileAction where
  /-- the inventory of the first worker; none if it cannot be fetched -/
  | inventory (result : Option (List JobSummary))
  /-- the next statement; whether a request to quarantine succeeds -/
  | next (ok : Bool)
  | missing (id : Uuid)
  | abort

/-! ## The system -/

inductive ReconcileEvent where
  | dispatched (executionId : Uuid)
  /-- a dispatch has inserted its row -/
  | created (executionId : Uuid)
  | inventory (workerNodeId : Uuid)
  | expected (workerNodeId : Uuid)
  /-- a reconciliation has written a state -/
  | wrote (executionId : Uuid)
  deriving DecidableEq

structure Reconciling where
  jobs : JobRows
  processes : List ProcessRow
  nodes : List WorkerNode
  dispatches : List DispatchPath
  reconcile : Option ReconcileTask
  log : List ReconcileEvent

inductive RacingAction where
  /-- a dispatch of an execution begins: it is new, or its row is pending
      (`server/src/routes/workspaces/affinity.rs`, lines 872-875) -/
  | start (executionId workerNodeId : Uuid) (requestDigest : String)
  | dispatch (i : ℕ) (action : DispatchPathAction)
  /-- `reconcile` begins -/
  | reconcile
  | reconciling (action : ReconcileAction)
  | process (row : ProcessRow)
  /-- the tracker writes the state of a job that was accepted -/
  | track (executionId : Uuid) (state : DispatchState)

namespace Reconciling

/-! ## Steps of a dispatch -/

def setDispatch (s : Reconciling) (i : ℕ) (t : DispatchPath) : Reconciling :=
  { s with dispatches := s.dispatches.set i t }

def dispatchStep (s : Reconciling) (i : ℕ) (t : DispatchPath) :
    DispatchPathAction → Option Reconciling
  | .create =>
    if t.pc = .creating then
      let created := createPending s.jobs t.executionId t.workerNodeId t.requestDigest
      some { s.setDispatch i { t with pc := if created.2 then .sending else .done } with
        jobs := created.1
        log :=
          if (findByExecutionId s.jobs t.executionId).isNone then .created t.executionId :: s.log
          else s.log }
    else none
  | .answer reply =>
    if t.pc = .sending then
      match reply with
      | .error _ => some (s.setDispatch i { t with pc := .failing })
      | .ok accepted =>
        if accepted.executionId ≠ t.executionId ∨ accepted.requestDigest ≠ t.requestDigest then
          some (s.setDispatch i { t with pc := .failing })
        else
          some (s.setDispatch i
            { t with pc := .accepted accepted.workerJobId accepted.lastSequence })
    else none
  | .fail =>
    if t.pc = .failing then
      some { s.setDispatch i { t with pc := .done } with
        jobs := (updateState s.jobs t.executionId .failed).1 }
    else none
  | .record =>
    match t.pc with
    | .accepted workerJobId lastSequence =>
      some { s.setDispatch i { t with pc := .done } with
        jobs := (recordAcceptance s.jobs t.executionId workerJobId (asI64 lastSequence)).1 }
    | _ => none
  | .drop => some (s.setDispatch i { t with pc := .done })

def start (s : Reconciling) (executionId workerNodeId : Uuid) (requestDigest : String) :
    Option Reconciling :=
  if (∀ t ∈ s.dispatches, t.executionId = executionId → t.pc = .done) ∧
      ∀ job ∈ s.jobs, job.key = executionId → job.dispatchState = .pending then
    some { s with
      dispatches := s.dispatches ++ [⟨executionId, workerNodeId, requestDigest, .creating⟩]
      log := .dispatched executionId :: s.log }
  else none

/-! ## Steps of a reconciliation -/

def ReconcileTask.afterWrite (r : ReconcileTask) (expected : JobRows) (reported : List Uuid)
    (summary : JobSummary) (inventory : List JobSummary) : AfterWrite → ReconcileTask
  | .quarantine =>
    { r with pc := .comparing expected reported (summary :: inventory) (.quarantining true) }
  | .conflict =>
    { r with
      pc := .comparing expected (summary.executionId :: reported) inventory .looking
      report :=
        { r.report with
          conflicts := r.report.conflicts + 1
          jobsReconciled := r.report.jobsReconciled + 1 } }
  | .reconciled =>
    { r with
      pc := .comparing expected (summary.executionId :: reported) inventory .looking
      report := { r.report with jobsReconciled := r.report.jobsReconciled + 1 } }

/-- `mark_indeterminate`, and what follows on it. -/
def markIndeterminate (after : AfterWrite) : SummaryPc :=
  .updating .indeterminate (some .indeterminate) after

/-- The next statement for a summary (lines 98-133 and 157-223). -/
def summaryStep (s : Reconciling) (r : ReconcileTask) (expected : JobRows) (reported : List Uuid)
    (summary : JobSummary) (inventory : List JobSummary) (ok : Bool) :
    SummaryPc → Reconciling
  | .looking =>
    let pc := match findByExecutionId s.jobs summary.executionId with
      | none => .quarantining false
      | some known =>
        if some known.workerNodeId ≠ r.workers.head? ∨ known.workerJobId ≠ summary.workerJobId ∨
            known.requestDigest ≠ summary.requestDigest then
          markIndeterminate .quarantine
        else if summary.state.isTerminal = false then .checking
        else .observing
    { s with
      reconcile := some { r with pc := .comparing expected reported (summary :: inventory) pc } }
  | .checking =>
    let pc := match findProcess s.processes summary.executionId with
      | some status => if status ≠ .running then markIndeterminate .quarantine else .observing
      | none => .observing
    { s with
      reconcile := some { r with pc := .comparing expected reported (summary :: inventory) pc } }
  | .observing =>
    let pc :=
      if summary.state.isTerminal then
        match summary.terminal with
        | none => markIndeterminate .conflict
        | some evidence => .reading evidence
      else .updating (dispatchState summary.state) none .reconciled
    { s with
      jobs := observeWorkerSequence s.jobs summary.executionId (asI64 summary.lastSequence)
      reconcile := some { r with pc := .comparing expected reported (summary :: inventory) pc } }
  | .reading evidence =>
    match findProcess s.processes summary.executionId with
    | some .running =>
      { s with
        reconcile := some
          { r with
            pc := .comparing expected (summary.executionId :: reported) inventory .looking
            report :=
              { r.report with
                jobsDeferred := r.report.jobsDeferred + 1
                jobsReconciled := r.report.jobsReconciled + 1 } } }
    | some status =>
      let pc :=
        if status ≠ processState evidence.state then markIndeterminate .conflict
        else
          .updating (dispatchState summary.state) (some (processState evidence.state)) .reconciled
      { s with
        reconcile := some { r with pc := .comparing expected reported (summary :: inventory) pc } }
    | none =>
      { s with
        reconcile := some { r with
          pc := .comparing expected reported (summary :: inventory)
            (.updating (dispatchState summary.state) (some (processState evidence.state))
              .reconciled) } }
  | .updating state status after =>
    let updated := updateState s.jobs summary.executionId state
    { s with
      jobs := updated.1
      log := if updated.2 then .wrote summary.executionId :: s.log else s.log
      reconcile := some (match status with
        | some status =>
          { r with
            pc := .comparing expected reported (summary :: inventory) (.completing status after) }
        | none => ReconcileTask.afterWrite r expected reported summary inventory after) }
  | .completing status after =>
    { s with
      processes := completeProcess s.processes summary.executionId status
      reconcile := some (ReconcileTask.afterWrite r expected reported summary inventory after) }
  | .quarantining known =>
    let report :=
      if known then { r.report with conflicts := r.report.conflicts + 1 }
      else if ok then { r.report with jobsQuarantined := r.report.jobsQuarantined + 1 }
      else r.report
    { s with
      reconcile := some
        { r with
          pc := .comparing expected (summary.executionId :: reported) inventory .looking
          report := report } }

def ReconcileTask.nextWorker (r : ReconcileTask) : Option ReconcileTask :=
  match r.workers.tail with
  | [] => none
  | workers => some { r with workers := workers, pc := .fetching }

def reconcileStep (s : Reconciling) (r : ReconcileTask) (worker : Uuid) :
    ReconcileAction → Option Reconciling
  | .inventory result =>
    if r.pc = .fetching then
      match result with
      | none =>
        some { s with
          reconcile := some
            { r with
              pc := .unreachable
              report :=
                { r.report with
                  workersUnreachable := r.report.workersUnreachable ++ [worker] } } }
      | some inventory =>
        some { s with
          log := .inventory worker :: s.log
          reconcile := some
            { r with
              pc := .expecting inventory
              report := { r.report with workersReached := r.report.workersReached + 1 } } }
    else none
  | .next ok =>
    match r.pc with
    | .fetching => none
    | .unreachable =>
      some { s with
        nodes := (WorkerNode.markOffline worker s.nodes).1
        reconcile := ReconcileTask.nextWorker r }
    | .expecting inventory =>
      some { s with
        log := .expected worker :: s.log
        reconcile := some
          { r with
            pc := .comparing (findNonterminalForWorker s.jobs worker) [] inventory .looking } }
    | .comparing expected reported [] _ =>
      some { s with
        reconcile := some
          { r with
            pc := .missing ((expected.map WorkerJobRow.key).filter fun id => id ∉ reported) } }
    | .comparing expected reported (summary :: inventory) pc =>
      some (s.summaryStep r expected reported summary inventory ok pc)
    | .missing ids =>
      if ids = [] then some { s with reconcile := ReconcileTask.nextWorker r } else none
    | .completingMissing id ids =>
      some { s with
        processes := completeProcess s.processes id .indeterminate
        reconcile := some
          { r with
            pc := .missing ids
            report := { r.report with jobsMissing := r.report.jobsMissing + 1 } } }
  | .missing id =>
    match r.pc with
    | .missing ids =>
      if id ∈ ids then
        let updated := updateState s.jobs id .indeterminate
        some { s with
          jobs := updated.1
          log := if updated.2 then .wrote id :: s.log else s.log
          reconcile := some { r with pc := .completingMissing id (ids.erase id) } }
      else none
    | _ => none
  | .abort => some { s with reconcile := none }

/-- `reconcile` begins with the workers that are not offline (lines 66-71). -/
def begin (s : Reconciling) : Option Reconciling :=
  if s.reconcile = none then
    match (s.nodes.filter fun node => node.status ≠ .offline).map WorkerNode.id with
    | [] => some s
    | workers => some { s with reconcile := some ⟨workers, .fetching, ⟨0, [], 0, 0, 0, 0, 0⟩⟩ }
  else none

def step (s : Reconciling) : RacingAction → Option Reconciling
  | .start executionId workerNodeId requestDigest => s.start executionId workerNodeId requestDigest
  | .dispatch i a => s.dispatches[i]?.bind fun t => s.dispatchStep i t a
  | .reconcile => s.begin
  | .reconciling a =>
    s.reconcile.bind fun r => r.workers.head?.bind fun worker => s.reconcileStep r worker a
  | .process row =>
    some { s with
      processes := if (findProcess s.processes row.id).isSome then
          completeProcess s.processes row.id row.status
        else s.processes ++ [row] }
  | .track executionId state =>
    if (∃ job ∈ s.jobs, job.key = executionId ∧ job.dispatchState ≠ .pending) ∧
        state ≠ .pending then
      some { s with jobs := (updateState s.jobs executionId state).1 }
    else none

/-- The rows that an earlier process has left. -/
def Initial (s : Reconciling) : Prop :=
  Keyed WorkerJobRow.key s.jobs ∧ s.dispatches = [] ∧ s.reconcile = none ∧ s.log = []

end Reconciling

end VibeKanban.Coordinator

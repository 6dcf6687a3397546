import VibeKanban.Lib.Table
import VibeKanban.Worker.Execution

/-!
# The supervisor of a worker (`worker/src/execution.rs`, `worker/src/worker_api.rs`)

Requests to dispatch executions, the tasks of the accepted jobs, and polls of the active count
interleave. `dispatchStep` takes a request over one lock, one atomic operation or one `await`, and
gives it up where its connection can be closed. The map `jobs` is a list of jobs, one for each
execution ID.

What comes from outside is part of the action: whether signature and authority are in order, the
pressure gauge, the checks between the second look at the drain flag and the job (lines 523-634),
new identifiers, the time. Saving a job's summary changes nothing here.
-/

namespace VibeKanban.Worker

open Cluster Lib

/-! ## Requests -/

/-- `ExecutionDispatch`, as far as it is checked here, with the execution ID of the path. -/
structure ExecutionDispatch where
  executionId : Uuid
  workspaceId : Uuid
  requestDigest : String
  /-- `authority.correlation_id` -/
  correlationId : Uuid
  pathExecutionId : Uuid

structure DispatchAccepted where
  executionId : Uuid
  workerJobId : Uuid
  requestDigest : String
  state : JobState
  lastSequence : ℕ
  deriving DecidableEq

/-- `WorkerJob::accepted` (lines 1205-1213), for the state that it has read. -/
def WorkerJob.accepted (job : WorkerJob) (state : JobState) : DispatchAccepted :=
  { executionId := job.executionId
    workerJobId := job.workerJobId
    requestDigest := job.requestDigest
    state := state
    lastSequence := job.journal.lastSequence }

/-- What a request is refused with: by its handler, or by `dispatch` (`ExecutionError`). The
    errors of the checks of lines 523-634 are one constructor. -/
inductive DispatchError where
  | unauthorized
  | badRequest (message : String)
  | digestConflict (executionId : Uuid)
  | draining
  | underPressure (refusal : String)
  | unusable (message : String)
  | journal (error : JournalError)
  deriving DecidableEq

/-- Where a request is: in its handler (`worker_api.rs`, line 558), in `dispatch`
    (`execution.rs`, lines 496-692), or at its end. -/
inductive DispatchPc where
  /-- before `validate_authority` -/
  | received
  /-- waits for `jobs.write()` -/
  | waiting
  | locked
  /-- `existing.accepted()`, before the lock of the state -/
  | readingState
  /-- `existing.accepted()`, before the lock of the journal -/
  | readingSequence (state : JobState)
  /-- there is no job yet; before the first look at the drain flag -/
  | unlisted
  | unmeasured
  /-- before `admitting.fetch_add` -/
  | entering
  /-- before the second look at the drain flag -/
  | admitted
  | preparing
  /-- leaves without a job; before `ExecutionAdmission` is dropped -/
  | leaving (reply : Option (Except DispatchError DispatchAccepted))
  | unlocking (reply : Option (Except DispatchError DispatchAccepted))
  /-- the job is in the map; before `drop(admission)` -/
  | inserted (workerJobId : Uuid)
  /-- before `drop(jobs)` -/
  | released (workerJobId : Uuid)
  /-- before `persist` returns and `run_job` is spawned -/
  | persisting (workerJobId : Uuid)
  /-- at the end; `none` if the connection was closed -/
  | answered (reply : Option (Except DispatchError DispatchAccepted))
  deriving DecidableEq

structure DispatchTask where
  request : ExecutionDispatch
  pc : DispatchPc

/-- One step of a request, with what the outside contributes to it. -/
inductive DispatchAction where
  | authorize (refused : Bool)
  | lock
  | measure (refusal : Option String)
  /-- the checks of lines 523-634 end; what the job needs if they succeed -/
  | prepare (error : Option String) (workerJobId : Uuid) (startupStall : Option String)
      (now : Timestamp)
  | next
  /-- the connection was closed and the handler is dropped at an `await` -/
  | drop

/-! ## The supervisor -/

/-- A job of the map, and whether its `run_job` was spawned. -/
structure SupervisedJob where
  execution : Execution
  runJob : Bool

def SupervisedJob.executionId (job : SupervisedJob) : Uuid := job.execution.job.executionId

/-- Where an `active_execution_count` is (lines 1115-1124). -/
inductive PollPc where
  /-- before `jobs.read()` -/
  | waiting
  /-- counted up to the jobs that are left; before the lock of the next one's state -/
  | checking (left : List Uuid) (active : ℕ)
  /-- the state of the job is terminal; before the lock of its child -/
  | checkingChild (executionId : Uuid) (left : List Uuid) (active : ℕ)
  | returned (count : ℕ)
  deriving DecidableEq

/-- `u32::saturating_add`. -/
def saturatingAdd32 (a b : ℕ) : ℕ := min (a + b) (2 ^ 32 - 1)

inductive PollAction where
  | snapshot (order : List Uuid)
  | next

/-- `ExecutionSupervisor` with the requests and polls under way. -/
structure Supervisor where
  jobs : List SupervisedJob
  journalCapacity : ℕ
  admissionDraining : Bool
  admitting : UInt32
  /-- the request that holds the write lock of `jobs` -/
  writer : Option ℕ
  dispatches : List DispatchTask
  polls : List PollPc

inductive SupervisorAction where
  | request (request : ExecutionDispatch)
  | dispatch (i : ℕ) (action : DispatchAction)
  /-- a task of a job takes a step -/
  | job (executionId : Uuid) (action : Action)
  | poll
  | polling (i : ℕ) (action : PollAction)
  /-- the signals of `main.rs`, lines 40-62 -/
  | drain
  | resume

namespace Supervisor

/-- `jobs.get`. -/
def get (s : Supervisor) (executionId : Uuid) : Option SupervisedJob :=
  s.jobs.find? fun job => job.executionId == executionId

def moveTo (s : Supervisor) (i : ℕ) (t : DispatchTask) (pc : DispatchPc) : Supervisor :=
  { s with dispatches := s.dispatches.set i { t with pc := pc } }

/-- The job is made and inserted into the map (lines 643-668). -/
def insertJob (s : Supervisor) (i : ℕ) (t : DispatchTask) (workerJobId : Uuid)
    (startupStall : Option String) (now : Timestamp) : Supervisor :=
  let d : Execution.Dispatch :=
    { executionId := t.request.executionId
      workerJobId := workerJobId
      workspaceId := t.request.workspaceId
      requestDigest := t.request.requestDigest }
  match Execution.dispatch d s.journalCapacity startupStall now with
  | .error e => s.moveTo i t (.leaving (some (.error (.journal e))))
  | .ok execution =>
    { s.moveTo i t (.inserted workerJobId) with
      jobs := delete (fun job => job.executionId == t.request.executionId) s.jobs ++
        [{ execution := execution, runJob := false }] }

/-- The steps of a request that take nothing from outside. -/
def dispatchNext (s : Supervisor) (i : ℕ) (t : DispatchTask) : Option Supervisor :=
  match t.pc with
  | .locked =>
    match s.get t.request.executionId with
    | some existing =>
      if existing.execution.job.requestDigest ≠ t.request.requestDigest then
        some (s.moveTo i t (.unlocking (some (.error (.digestConflict t.request.executionId)))))
      else some (s.moveTo i t .readingState)
    | none => some (s.moveTo i t .unlisted)
  | .readingState =>
    (s.get t.request.executionId).map fun existing =>
      s.moveTo i t (.readingSequence existing.execution.job.state)
  | .readingSequence state =>
    (s.get t.request.executionId).map fun existing =>
      s.moveTo i t (.unlocking (some (.ok (existing.execution.job.accepted state))))
  | .unlisted =>
    if s.admissionDraining then some (s.moveTo i t (.unlocking (some (.error .draining))))
    else some (s.moveTo i t .unmeasured)
  | .entering => some { s.moveTo i t .admitted with admitting := s.admitting + 1 }
  | .admitted =>
    if s.admissionDraining then some (s.moveTo i t (.leaving (some (.error .draining))))
    else some (s.moveTo i t .preparing)
  | .leaving reply => some { s.moveTo i t (.unlocking reply) with admitting := s.admitting - 1 }
  | .unlocking reply => some { s.moveTo i t (.answered reply) with writer := none }
  | .inserted workerJobId =>
    some { s.moveTo i t (.released workerJobId) with admitting := s.admitting - 1 }
  | .released workerJobId => some { s.moveTo i t (.persisting workerJobId) with writer := none }
  | .persisting workerJobId =>
    some
      { s.moveTo i t (.answered (some (.ok
          { executionId := t.request.executionId
            workerJobId := workerJobId
            requestDigest := t.request.requestDigest
            state := .accepted
            lastSequence := 1 }))) with
        jobs := update (fun job => job.executionId == t.request.executionId)
          (fun job => { job with runJob := true }) s.jobs }
  | _ => none

/-- What is left of a request whose handler is dropped: the guards that it held are dropped in
    the opposite order of their making. -/
def dispatchDrop (s : Supervisor) (i : ℕ) (t : DispatchTask) : Option Supervisor :=
  match t.pc with
  | .received => some (s.moveTo i t (.answered none))
  | .waiting => some (s.moveTo i t (.answered none))
  | .readingState => some (s.moveTo i t (.unlocking none))
  | .readingSequence _ => some (s.moveTo i t (.unlocking none))
  | .preparing => some (s.moveTo i t (.leaving none))
  | .persisting _ => some (s.moveTo i t (.answered none))
  | _ => none

/-- The handler before it calls `dispatch`. -/
def authorized (request : ExecutionDispatch) (refused : Bool) : DispatchPc :=
  if refused then .answered (some (.error .unauthorized))
  else if request.executionId ≠ request.pathExecutionId ∨
      request.correlationId ≠ request.pathExecutionId then
    .answered (some (.error (.badRequest "path execution ID does not match dispatch")))
  else .waiting

def dispatchStep (s : Supervisor) (i : ℕ) (t : DispatchTask) : DispatchAction → Option Supervisor
  | .authorize refused =>
    if t.pc = .received then some (s.moveTo i t (authorized t.request refused)) else none
  | .lock =>
    if t.pc = .waiting ∧ s.writer = none then some { s.moveTo i t .locked with writer := some i }
    else none
  | .measure refusal =>
    if t.pc = .unmeasured then
      match refusal with
      | some refusal => some (s.moveTo i t (.unlocking (some (.error (.underPressure refusal)))))
      | none => some (s.moveTo i t .entering)
    else none
  | .prepare error workerJobId startupStall now =>
    if t.pc = .preparing then
      match error with
      | some message => some (s.moveTo i t (.leaving (some (.error (.unusable message)))))
      | none => some (s.insertJob i t workerJobId startupStall now)
    else none
  | .next => s.dispatchNext i t
  | .drop => s.dispatchDrop i t

/-! ## Jobs and polls -/

/-- `run_job` begins only once it was spawned; its later steps follow its position. -/
def SpawnedFor (job : SupervisedJob) : Action → Prop
  | .setStarting _ => job.runJob = true
  | _ => True

instance (job : SupervisedJob) (a : Action) : Decidable (SpawnedFor job a) := by
  cases a <;> unfold SpawnedFor <;> infer_instance

def jobStep (s : Supervisor) (executionId : Uuid) (a : Action) : Option Supervisor :=
  match s.get executionId with
  | none => none
  | some job =>
    if SpawnedFor job a then
      (job.execution.step a).map fun execution =>
        { s with
          jobs := update (fun job => job.executionId == executionId)
            (fun job => { job with execution := execution }) s.jobs }
    else none

/-- The second half of `is_active_for_drain`, for a state that was terminal. -/
def childActive (job : WorkerJob) : Bool :=
  match job.child with
  | some child =>
    match child.tryWait with
    | .ok (some _) => false
    | _ => true
  | none => false

/-- One step of `active_execution_count`. Its read lock is free when no request holds the write
    lock, and is given back at once. -/
def pollStep (s : Supervisor) (pc : PollPc) : PollAction → Option PollPc
  | .snapshot order =>
    if pc = .waiting ∧ s.writer = none ∧ order.Perm (s.jobs.map SupervisedJob.executionId) then
      some (.checking order 0)
    else none
  | .next =>
    match pc with
    | .waiting => none
    | .checking [] active => some (.returned (saturatingAdd32 active s.admitting.toNat))
    | .checking (executionId :: left) active =>
      (s.get executionId).map fun job =>
        if job.execution.job.state.isTerminal then .checkingChild executionId left active
        else .checking left (saturatingAdd32 active 1)
    | .checkingChild executionId left active =>
      (s.get executionId).map fun job =>
        if childActive job.execution.job then .checking left (saturatingAdd32 active 1)
        else .checking left active
    | .returned _ => none

def step (s : Supervisor) : SupervisorAction → Option Supervisor
  | .request request => some { s with dispatches := s.dispatches ++ [⟨request, .received⟩] }
  | .dispatch i a =>
    match s.dispatches[i]? with
    | some t => s.dispatchStep i t a
    | none => none
  | .job executionId a => s.jobStep executionId a
  | .poll => some { s with polls := s.polls ++ [.waiting] }
  | .polling i a =>
    match s.polls[i]? with
    | some pc => (s.pollStep pc a).map fun pc => { s with polls := s.polls.set i pc }
    | none => none
  | .drain => some { s with admissionDraining := true }
  | .resume => some { s with admissionDraining := false }

/-- A worker process that has recovered its jobs and has not served a request yet. -/
def Initial (s : Supervisor) : Prop :=
  Keyed SupervisedJob.executionId s.jobs ∧
    (∀ job ∈ s.jobs, ∃ summary now,
      Execution.recover summary s.journalCapacity now = .ok job.execution) ∧
    s.admitting = 0 ∧ s.writer = none ∧ s.dispatches = [] ∧ s.polls = []

end Supervisor

end VibeKanban.Worker

import VibeKanban.Lib.Runs
import VibeKanban.Ledger.Rules

/-!
# The dispatcher (`server/src/issue_comment_delivery.rs`)

Everything that writes the ledger: requests to deliver a comment, dispatch tasks, recovery, the
results of background subtasks and wake-ups. A step is one statement, or one read that a later
statement depends on.

A dispatch task holds the lock of its session (line 991) and may end anywhere. What it learns from
elsewhere is part of the action. The log is not in the source: it records resolutions, claims and
returns, newest first.
-/

namespace VibeKanban.Ledger

open Cluster Lib

/-! ## Turns, tasks and requests -/

/-- An execution with `run_reason = 'codingagent'`. -/
structure Turn where
  id : Uuid
  sessionId : Uuid
  dropped : Bool

/-- `dispatch_session` for a session, with the rows it has listed and the rows it has claimed, as
    they were listed. -/
structure DispatchTask where
  sessionId : Uuid
  due : Rows
  claimed : Rows
  /-- in `deliver_claimed` -/
  delivering : Bool
  deriving DecidableEq

/-- What becomes of a claimed row. -/
inductive Outcome where
  | delivered (executionProcessId : Uuid) (message : String) (commentUpdatedAt : Option Timestamp)
  | uncertain (executionProcessId : Uuid)
  | commentDeleted
  | unauthorized (error : String)
  | noTarget (reason : DeliveryReason)
  | retryOrFail (reason : DeliveryReason) (error : String) (now : Timestamp)

inductive TaskAction where
  /-- the first row that is due goes to `finish_pending` with one of three reasons -/
  | finish (reason : DeliveryReason)
  | wait (reason : DeliveryReason)
  /-- the first row that is due belongs to another issue -/
  | skip
  | claim
  | deliver
  | snapshot (id : Uuid) (message : String) (commentUpdatedAt : Timestamp)
  /-- `start_follow_up` made an execution -/
  | launch (turnId : Uuid)
  | settle (id : Uuid) (outcome : Outcome)
  | stop

/-- Where a `request` is (lines 752-836). -/
inductive RequestPc where
  /-- before `find_by_comment_id` -/
  | begun
  /-- in `origin_hop`, before the latest turn is read -/
  | readingTurn
  /-- in `origin_hop`, before its delivery is read -/
  | readingDelivery (turnId : Option Uuid)
  /-- the delivery of the origin's turn is known; before the write of the resolution -/
  | resolving (ancestor : Option IssueCommentDelivery)
  | done
  deriving DecidableEq

structure RequestTask where
  commentId : Uuid
  issueId : Uuid
  targetSessionId : Option Uuid
  source : DeliverySource
  existing : Option IssueCommentDelivery
  originSessionId : Option Uuid
  pc : RequestPc

/-- An argument of `resolve`: whether an agent's session posted the comment. -/
def RequestTask.agentOrigin (r : RequestTask) : Bool :=
  match r.existing with
  | some row => row.source = .mcp && row.originSessionId.isSome
  | none => r.source = .mcp && r.originSessionId.isSome

/-- The `resolution` of `request`, where the delivery that started the origin's turn is known. -/
def RequestTask.resolution (r : RequestTask) (ancestor : Option IssueCommentDelivery)
    (resolved : Except (DeliveryReason × String) ResolvedCandidates) : Resolution :=
  resolve (nextHopCount r.agentOrigin (ancestor.map fun row => row.hopCount)) resolved
    r.targetSessionId r.originSessionId

/-- A subtask that is being accepted (`next_subtask_hop`, line 855), with the turn it has read. -/
structure Acceptance where
  notificationId : Uuid
  issueId : Uuid
  parentSessionId : Uuid
  turnId : Option (Option Uuid)

/-- A `BackgroundSubtask`, with the delivery that its hop count was taken from. -/
structure Subtask where
  notificationId : Uuid
  issueId : Uuid
  parentSessionId : Uuid
  hopCount : ℤ
  ancestor : Option Uuid

/-- The `resolution` of `subtask_result` (lines 893-895). -/
def Subtask.resolution (t : Subtask)
    (resolved : Except (DeliveryReason × String) ResolvedCandidates) : Resolution :=
  resolve (nextHopCount false none) resolved (some t.parentSessionId) none

inductive EarlierAttempt where
  | launched (executionProcessId : Uuid)
  | uncertain (executionProcessId : Uuid)
  | none
  deriving DecidableEq

inductive LedgerEvent where
  /-- a resolution was written: whether an agent posted the comment, and the delivery of the turn
      that the hop count was taken from -/
  | resolved (id : Uuid) (agentOrigin : Bool) (ancestor : Option Uuid)
  | claimed (id : Uuid)
  /-- recovery made a claimed row pending -/
  | returned (id : Uuid)
  deriving DecidableEq

structure Dispatcher where
  rows : Rows
  turns : List Turn
  tasks : List DispatchTask
  requests : List RequestTask
  acceptances : List Acceptance
  subtasks : List Subtask
  log : List LedgerEvent

inductive DispatcherAction where
  /-- a dispatch task begins with rows that are due -/
  | start (sessionId : Uuid) (now : Timestamp) (due : Rows)
  | task (sessionId : Uuid) (action : TaskAction)
  | request (commentId issueId : Uuid) (targetSessionId : Option Uuid) (source : DeliverySource)
  /-- the row of the comment is looked up; the origin of a new one -/
  | find (i : ℕ) (originSessionId : Option Uuid)
  | readTurn (i : ℕ)
  | readDelivery (i : ℕ)
  /-- the resolution is written; the ID of a new row -/
  | resolve (i : ℕ) (resolved : Except (DeliveryReason × String) ResolvedCandidates) (id : Uuid)
  | dropRequest (i : ℕ)
  | accept (notificationId issueId parentSessionId : Uuid)
  | acceptTurn (i : ℕ)
  | acceptDelivery (i : ℕ)
  | subtaskResult (i : ℕ) (resolved : Except (DeliveryReason × String) ResolvedCandidates)
      (id : Uuid)
  | registerWakeup (id workspaceId sessionId : Uuid) (fireAt : Timestamp)
  | cancelWakeup (id : Uuid) (error : String)
  | deferWakeup (id : Uuid) (nextAttemptAt : Option Timestamp) (error : Option String)
  | recover (id : Uuid) (attempt : EarlierAttempt)
  | turn (id sessionId : Uuid)
  | dropTurn (id : Uuid)
  | deleteSession (id : Uuid)
  | deleteWorkspace (id : Uuid)
  | deleteExecution (id : Uuid)
  | crash

namespace Dispatcher

/-! ## Dispatch tasks -/

/-- `fail_uncertain` (lines 1207-1226). -/
def uncertainError (executionProcessId : Uuid) : String :=
  "execution " ++ toString executionProcessId ++ " was handed to a worker that never confirmed " ++
    "it started; check the session, then choose it explicitly to send the comment again"

/-- `retry_or_fail` (lines 1506-1543) for a row as it was listed. -/
def retryOrFail (rows : Rows) (row : IssueCommentDelivery) (reason : DeliveryReason)
    (error : String) (now : Timestamp) : Rows :=
  match retryDelay (row.attemptCount + 1) with
  | some delay =>
    (finishDispatch rows row.id .pending (some .retryScheduled) (some error) (some (now + delay))).1
  | none => (finishDispatch rows row.id .failed (some reason) (some error) none).1

/-- The statement with which a task leaves a claimed row. -/
def settle (rows : Rows) (row : IssueCommentDelivery) : Outcome → Rows
  | .delivered executionProcessId message commentUpdatedAt =>
    (markDelivered rows row.id executionProcessId message commentUpdatedAt).1
  | .uncertain executionProcessId =>
    (finishDispatch rows row.id .failed (some .launchUncertain)
      (some (uncertainError executionProcessId)) none).1
  | .commentDeleted => (finishDispatch rows row.id .cancelled (some .commentDeleted) none none).1
  | .unauthorized error =>
    (finishDispatch rows row.id .failed (some .unauthorized) (some error) none).1
  | .noTarget reason => (finishDispatch rows row.id .noTarget (some reason) none none).1
  | .retryOrFail reason error now => retryOrFail rows row reason error now

def setTask (s : Dispatcher) (t : DispatchTask) : Dispatcher :=
  { s with tasks := update (fun u => u.sessionId == t.sessionId) (fun _ => t) s.tasks }

/-- The steps on the first row that is due (lines 1034-1148). -/
def dueStep (s : Dispatcher) (t : DispatchTask) (row : IssueCommentDelivery) (due : Rows) :
    TaskAction → Option Dispatcher
  | .finish reason =>
    if reason = .noSessions ∨ reason = .workspaceArchived ∨ reason = .turnStopped then
      some { s.setTask { t with due := due } with
        rows := (finishPending s.rows row.id .noTarget reason).1 }
    else none
  | .wait reason =>
    if row.reason ≠ some reason ∧ row.reason ≠ some .retryScheduled then
      some { s.setTask { t with due := due } with
        rows := (setPendingReason s.rows row.id reason).1 }
    else some (s.setTask { t with due := due })
  | .skip => some (s.setTask { t with due := due })
  | .claim =>
    if (claim s.rows row.id).2 then
      some { s.setTask { t with due := due, claimed := t.claimed ++ [row] } with
        rows := (claim s.rows row.id).1
        log := .claimed row.id :: s.log }
    else some (s.setTask { t with due := due })
  | _ => none

/-- The steps of `deliver_claimed` (lines 1252-1501). -/
def deliverStep (s : Dispatcher) (t : DispatchTask) : TaskAction → Option Dispatcher
  | .snapshot id message commentUpdatedAt =>
    (t.claimed.find? fun row => row.id == id).map fun row =>
      { s with rows := (recordSnapshot s.rows row.id message commentUpdatedAt).1 }
  | .launch turnId =>
    if turnId ∈ s.turns.map Turn.id then none
    else some { s with turns := s.turns ++ [⟨turnId, t.sessionId, false⟩] }
  | .settle id outcome =>
    (t.claimed.find? fun row => row.id == id).map fun row =>
      { s.setTask { t with claimed := t.claimed.filter fun row => row.id ≠ id } with
        rows := settle s.rows row outcome }
  | _ => none

def taskStep (s : Dispatcher) (t : DispatchTask) : TaskAction → Option Dispatcher
  | .stop => some { s with tasks := delete (fun u => u.sessionId == t.sessionId) s.tasks }
  | .deliver =>
    if t.delivering = false ∧ t.due = [] then some (s.setTask { t with delivering := true })
    else none
  | a =>
    if t.delivering then deliverStep s t a
    else
      match t.due with
      | row :: due => dueStep s t row due a
      | [] => none

/-- A task takes the lock of its session and lists rows that are due; the rows of wake-ups that
    are not ready are left out (lines 1002-1021). -/
def start (s : Dispatcher) (sessionId : Uuid) (now : Timestamp) (due : Rows) : Option Dispatcher :=
  if (∀ t ∈ s.tasks, t.sessionId ≠ sessionId) ∧ due.Subperm (listDue s.rows sessionId now) then
    some { s with tasks := s.tasks ++ [⟨sessionId, due, [], false⟩] }
  else none

/-! ## Requests -/

/-- `latest_coding_agent_turn_for_session`; turns are in the order of their creation. -/
def latestTurn (s : Dispatcher) (sessionId : Uuid) : Option Uuid :=
  ((s.turns.filter fun turn => turn.sessionId == sessionId && !turn.dropped).getLast?).map Turn.id

def setRequest (s : Dispatcher) (i : ℕ) (r : RequestTask) : Dispatcher :=
  { s with requests := s.requests.set i r }

/-- The look-up of the row (lines 767-784, 806-809). -/
def find (s : Dispatcher) (i : ℕ) (r : RequestTask) (originSessionId : Option Uuid) :
    Option Dispatcher :=
  if r.pc = .begun then
    match findByCommentId s.rows r.commentId with
    | some row =>
      if row.state.isResolvable then
        some (s.setRequest i
          { r with
            existing := some row
            originSessionId := row.originSessionId
            pc := .readingTurn })
      else some (s.setRequest i { r with pc := .done })
    | none =>
      some (s.setRequest i
        { r with existing := none, originSessionId := originSessionId, pc := .readingTurn })
  else none

/-- `origin_hop` is asked for an agent's session only (lines 683-686). -/
def readTurn (s : Dispatcher) (i : ℕ) (r : RequestTask) : Option Dispatcher :=
  if r.pc = .readingTurn then
    if r.agentOrigin then
      some (s.setRequest i
        { r with pc := .readingDelivery (r.originSessionId.bind s.latestTurn) })
    else some (s.setRequest i { r with pc := .resolving none })
  else none

def readDelivery (s : Dispatcher) (i : ℕ) (r : RequestTask) : Option Dispatcher :=
  match r.pc with
  | .readingDelivery turnId =>
    some (s.setRequest i
      { r with
        pc := .resolving (turnId.bind fun turnId => findByExecutionProcessId s.rows turnId) })
  | _ => none

/-- The write of the resolution (lines 787-801, 819-833). -/
def resolveRequest (s : Dispatcher) (i : ℕ) (r : RequestTask)
    (resolved : Except (DeliveryReason × String) ResolvedCandidates) (id : Uuid) :
    Option Dispatcher :=
  match r.pc with
  | .resolving ancestor =>
    let resolution := r.resolution ancestor resolved
    match r.existing with
    | some row =>
      let applied := applyResolution s.rows row.id resolution
      some { s.setRequest i { r with pc := .done } with
        rows := applied.1
        log :=
          if applied.2 then .resolved row.id r.agentOrigin (ancestor.map fun row => row.id) :: s.log
          else s.log }
    | none =>
      if id ∈ s.rows.map IssueCommentDelivery.id then none
      else
        let new : NewIssueCommentDelivery :=
          { commentId := r.commentId
            issueId := r.issueId
            source := r.source
            originSessionId := r.originSessionId }
        let inserted := insertIfAbsent s.rows id new resolution
        some { s.setRequest i { r with pc := .done } with
          rows := inserted.1
          log :=
            if inserted.2 then .resolved id r.agentOrigin (ancestor.map fun row => row.id) :: s.log
            else s.log }
  | _ => none

/-! ## Subtasks -/

/-- `next_subtask_hop`, after the latest turn of the parent was read. -/
def acceptDelivery (s : Dispatcher) (i : ℕ) (a : Acceptance) (turnId : Option Uuid) : Dispatcher :=
  let ancestor := turnId.bind fun turnId => findByExecutionProcessId s.rows turnId
  match nextHopCount true (ancestor.map fun row => row.hopCount) with
  | .error _ => { s with acceptances := s.acceptances.eraseIdx i }
  | .ok hopCount =>
    { s with
      acceptances := s.acceptances.eraseIdx i
      subtasks := s.subtasks ++
        [⟨a.notificationId, a.issueId, a.parentSessionId, hopCount,
          ancestor.map fun row => row.id⟩] }

/-- What `subtask_result` makes of a resolution (lines 902-907). -/
def subtaskResolution (t : Subtask) (resolution : Resolution) : Resolution :=
  if 1 ≤ t.hopCount ∧ t.hopCount ≤ maxAgentHops then
    { resolution with allowStoppedTarget := false, hopCount := t.hopCount }
  else
    { resolution with
      allowStoppedTarget := false
      hopCount := t.hopCount
      state := .blocked
      reason := some .loopGuard }

/-- `subtask_result` (lines 866-937). -/
def subtaskResult (s : Dispatcher) (t : Subtask)
    (resolved : Except (DeliveryReason × String) ResolvedCandidates) (id : Uuid) :
    Option Dispatcher :=
  let resolution := t.resolution resolved
  if id ∈ s.rows.map IssueCommentDelivery.id then none
  else if resolution.state = .failed then some s
  else
    let new : NewIssueCommentDelivery :=
      { commentId := t.notificationId
        issueId := t.issueId
        source := .mcp
        originSessionId := none }
    let inserted := insertIfAbsent s.rows id new (subtaskResolution t resolution)
    some { s with
      rows := inserted.1
      log := if inserted.2 then .resolved id true t.ancestor :: s.log else s.log }

/-! ## Recovery and the rest -/

/-- `recover` for one row (lines 1548-1592). -/
def recoverRow (s : Dispatcher) (row : IssueCommentDelivery) (attempt : EarlierAttempt) :
    Dispatcher :=
  match if row.sessionId.isSome then attempt else .none with
  | .uncertain executionProcessId =>
    { s with
      rows := (finishDispatch s.rows row.id .failed (some .launchUncertain)
        (some (uncertainError executionProcessId)) none).1 }
  | .launched executionProcessId =>
    { s with
      rows := (markDelivered s.rows row.id executionProcessId (row.deliveredMessage.getD "")
        row.deliveredCommentUpdatedAt).1 }
  | .none =>
    let finished := finishDispatch s.rows row.id .pending (some .retryScheduled)
      (some "delivery was interrupted by a server restart") none
    { s with
      rows := finished.1
      log := if finished.2 then .returned row.id :: s.log else s.log }

def step (s : Dispatcher) : DispatcherAction → Option Dispatcher
  | .start sessionId now due => s.start sessionId now due
  | .task sessionId a =>
    (s.tasks.find? fun t => t.sessionId == sessionId).bind fun t => s.taskStep t a
  | .request commentId issueId targetSessionId source =>
    some { s with
      requests :=
        s.requests ++ [⟨commentId, issueId, targetSessionId, source, none, none, .begun⟩] }
  | .find i originSessionId => s.requests[i]?.bind fun r => s.find i r originSessionId
  | .readTurn i => s.requests[i]?.bind fun r => s.readTurn i r
  | .readDelivery i => s.requests[i]?.bind fun r => s.readDelivery i r
  | .resolve i resolved id => s.requests[i]?.bind fun r => s.resolveRequest i r resolved id
  | .dropRequest i => s.requests[i]?.map fun r => s.setRequest i { r with pc := .done }
  | .accept notificationId issueId parentSessionId =>
    some { s with
      acceptances := s.acceptances ++ [⟨notificationId, issueId, parentSessionId, none⟩] }
  | .acceptTurn i =>
    s.acceptances[i]?.map fun a =>
      { s with
        acceptances := s.acceptances.set i
          { a with turnId := some (s.latestTurn a.parentSessionId) } }
  | .acceptDelivery i =>
    s.acceptances[i]?.bind fun a => a.turnId.map fun turnId => s.acceptDelivery i a turnId
  | .subtaskResult i resolved id => s.subtasks[i]?.bind fun t => s.subtaskResult t resolved id
  | .registerWakeup id workspaceId sessionId fireAt =>
    if id ∈ s.rows.map IssueCommentDelivery.id ∨
        id ∈ s.rows.map IssueCommentDelivery.commentId then none
    else
      some { s with
        rows := s.rows ++ [wakeupRow id workspaceId sessionId fireAt]
        log := .resolved id false none :: s.log }
  | .cancelWakeup id error => some { s with rows := (Ledger.cancelWakeup s.rows id error).1 }
  | .deferWakeup id nextAttemptAt error =>
    some { s with rows := (Ledger.deferWakeup s.rows id nextAttemptAt error).1 }
  | .recover id attempt =>
    (s.rows.find? fun row => row.id == id).bind fun row =>
      if row.state = .dispatching then some (s.recoverRow row attempt) else none
  | .turn id sessionId =>
    if id ∈ s.turns.map Turn.id then none
    else some { s with turns := s.turns ++ [⟨id, sessionId, false⟩] }
  | .dropTurn id =>
    some { s with
      turns := update (fun turn => turn.id == id) (fun turn => { turn with dropped := true })
        s.turns }
  | .deleteSession id =>
    some { s with
      rows := update (fun row => row.sessionId == some id)
        (fun row => { row with sessionId := none }) s.rows
      turns := delete (fun turn => turn.sessionId == id) s.turns }
  | .deleteWorkspace id =>
    some { s with
      rows := update (fun row => row.workspaceId == some id)
        (fun row => { row with workspaceId := none }) s.rows }
  | .deleteExecution id =>
    some { s with
      rows := update (fun row => row.executionProcessId == some id)
        (fun row => { row with executionProcessId := none }) s.rows
      turns := delete (fun turn => turn.id == id) s.turns }
  | .crash => some { s with tasks := [], requests := [], acceptances := [] }

def Initial (s : Dispatcher) : Prop :=
  s.rows = [] ∧ s.tasks = [] ∧ s.requests = [] ∧ s.acceptances = [] ∧ s.subtasks = [] ∧ s.log = []

end Dispatcher

end VibeKanban.Ledger

import VibeKanban.Cluster.Protocol
import VibeKanban.Lib.Table

/-!
# The ledger of comment deliveries (`db/src/models/issue_comment_delivery.rs`)

One row for each issue comment that is to reach an agent. Every statement is a conditional update on
the row's state; it returns the new rows and whether it changed one.
-/

namespace VibeKanban.Ledger

open Cluster Lib

/-! ## Rows -/

/-- `IssueCommentDeliveryState`. -/
inductive DeliveryState where
  | pending
  | dispatching
  | delivered
  | needsTarget
  | noTarget
  | failed
  | blocked
  | cancelled
  deriving DecidableEq

/-- `is_resolvable` (lines 45-47). -/
def DeliveryState.isResolvable : DeliveryState → Bool
  | .needsTarget | .noTarget | .failed => true
  | _ => false

/-- `IssueCommentDeliveryReason`. -/
inductive DeliveryReason where
  | agentRunning
  | queuedMessage
  | retryScheduled
  | noLinkedWorkspace
  | workspaceOtherHost
  | workspaceArchived
  | issueTerminal
  | noSessions
  | turnStopped
  | targetNotLinked
  | ambiguous
  | selfTarget
  | loopGuard
  | commentDeleted
  | remoteUnavailable
  | unauthorized
  | startFailed
  | launchUncertain
  deriving DecidableEq

/-- `IssueCommentDeliverySource`. -/
inductive DeliverySource where
  | ui
  | mcp
  deriving DecidableEq

/-- `IssueCommentDelivery`, without its author and the times that no statement reads. -/
structure IssueCommentDelivery where
  id : Uuid
  commentId : Uuid
  issueId : Uuid
  workspaceId : Option Uuid
  sessionId : Option Uuid
  executionProcessId : Option Uuid
  state : DeliveryState
  reason : Option DeliveryReason
  error : Option String
  source : DeliverySource
  originSessionId : Option Uuid
  hopCount : ℤ
  deliveredMessage : Option String
  deliveredCommentUpdatedAt : Option Timestamp
  attemptCount : ℕ
  nextAttemptAt : Option Timestamp
  allowStoppedTarget : Bool
  deriving DecidableEq

structure NewIssueCommentDelivery where
  commentId : Uuid
  issueId : Uuid
  source : DeliverySource
  originSessionId : Option Uuid

/-- `IssueCommentDeliveryResolution`. -/
structure Resolution where
  state : DeliveryState
  reason : Option DeliveryReason
  error : Option String
  workspaceId : Option Uuid
  sessionId : Option Uuid
  hopCount : ℤ
  allowStoppedTarget : Bool

abbrev Rows := List IssueCommentDelivery

/-! ## Statements -/

/-- The row that `insert_if_absent` writes for a resolution (lines 170-205). -/
def newRow (id : Uuid) (new : NewIssueCommentDelivery) (resolution : Resolution) :
    IssueCommentDelivery :=
  { id := id
    commentId := new.commentId
    issueId := new.issueId
    workspaceId := resolution.workspaceId
    sessionId := resolution.sessionId
    executionProcessId := none
    state := resolution.state
    reason := resolution.reason
    error := resolution.error
    source := new.source
    originSessionId := new.originSessionId
    hopCount := resolution.hopCount
    deliveredMessage := none
    deliveredCommentUpdatedAt := none
    attemptCount := 0
    nextAttemptAt := none
    allowStoppedTarget := resolution.allowStoppedTarget }

def findByCommentId (rows : Rows) (commentId : Uuid) : Option IssueCommentDelivery :=
  rows.find? fun row => row.commentId == commentId

/-- `insert_if_absent`: `ON CONFLICT(comment_id) DO NOTHING`. -/
def insertIfAbsent (rows : Rows) (id : Uuid) (new : NewIssueCommentDelivery)
    (resolution : Resolution) : Rows × Bool :=
  match findByCommentId rows new.commentId with
  | some _ => (rows, false)
  | none => (rows ++ [newRow id new resolution], true)

/-- An `UPDATE` of the row with an ID, where a condition on its state holds. -/
def updateRow (rows : Rows) (id : Uuid) (from' : DeliveryState → Bool)
    (f : IssueCommentDelivery → IssueCommentDelivery) : Rows × Bool :=
  let p := fun row : IssueCommentDelivery => row.id == id && from' row.state
  (update p f rows, affected p rows == 1)

/-- `WHERE state = 'dispatching'`. -/
def isDispatching (state : DeliveryState) : Bool := state = .dispatching

/-- `WHERE state = 'pending'`. -/
def isPending (state : DeliveryState) : Bool := state = .pending

/-- `record_snapshot` (lines 209-228). -/
def recordSnapshot (rows : Rows) (id : Uuid) (message : String) (commentUpdatedAt : Timestamp) :
    Rows × Bool :=
  updateRow rows id isDispatching fun row =>
    { row with
      deliveredMessage := some message
      deliveredCommentUpdatedAt := some commentUpdatedAt }

/-- `apply_resolution` (lines 308-336), as `request` calls it: from the resolvable states. -/
def applyResolution (rows : Rows) (id : Uuid) (resolution : Resolution) : Rows × Bool :=
  updateRow rows id DeliveryState.isResolvable fun row =>
    { row with
      state := resolution.state
      reason := resolution.reason
      error := resolution.error
      workspaceId := resolution.workspaceId
      sessionId := resolution.sessionId
      hopCount := resolution.hopCount
      allowStoppedTarget := resolution.allowStoppedTarget
      attemptCount := 0
      nextAttemptAt := none }

/-- `claim` (lines 339-354). -/
def claim (rows : Rows) (id : Uuid) : Rows × Bool :=
  updateRow rows id isPending fun row =>
    { row with
      state := .dispatching
      attemptCount := row.attemptCount + 1 }

/-- `mark_delivered` (lines 357-380). -/
def markDelivered (rows : Rows) (id executionProcessId : Uuid) (deliveredMessage : String)
    (commentUpdatedAt : Option Timestamp) : Rows × Bool :=
  updateRow rows id isDispatching fun row =>
    { row with
      state := .delivered
      reason := none
      error := none
      executionProcessId := some executionProcessId
      deliveredMessage := some deliveredMessage
      deliveredCommentUpdatedAt := commentUpdatedAt
      nextAttemptAt := none }

/-- `finish_dispatch` (lines 384-406). -/
def finishDispatch (rows : Rows) (id : Uuid) (state : DeliveryState)
    (reason : Option DeliveryReason) (error : Option String) (nextAttemptAt : Option Timestamp) :
    Rows × Bool :=
  updateRow rows id isDispatching fun row =>
    { row with
      state := state
      reason := reason
      error := error
      nextAttemptAt := nextAttemptAt }

/-- `set_pending_reason` (lines 409-425). -/
def setPendingReason (rows : Rows) (id : Uuid) (reason : DeliveryReason) : Rows × Bool :=
  updateRow rows id isPending fun row => { row with reason := some reason }

/-- `finish_pending` (lines 429-448). -/
def finishPending (rows : Rows) (id : Uuid) (state : DeliveryState) (reason : DeliveryReason) :
    Rows × Bool :=
  updateRow rows id isPending fun row => { row with state := state, reason := some reason }

/-- `list_pending_for_session`, as far as the rows are due (lines 273-283, and
    `server/src/issue_comment_delivery.rs`, lines 1004-1009). -/
def listDue (rows : Rows) (sessionId : Uuid) (now : Timestamp) : Rows :=
  rows.filter fun row => row.sessionId == some sessionId && isPending row.state &&
    match row.nextAttemptAt with
    | none => true
    | some at' => at' ≤ now

/-- `ORDER BY hop_count DESC LIMIT 1`. -/
def mostHops : Rows → Option IssueCommentDelivery
  | [] => none
  | row :: rows =>
    match mostHops rows with
    | none => some row
    | some best => if row.hopCount < best.hopCount then some best else some row

/-- `find_by_execution_process_id`: of the rows that an execution delivered, one with the most
    hops (lines 260-270). -/
def findByExecutionProcessId (rows : Rows) (executionProcessId : Uuid) :
    Option IssueCommentDelivery :=
  mostHops (rows.filter fun row => row.executionProcessId == some executionProcessId)

/-! ## Wake-ups (`db/src/models/wakeup.rs`, `server/src/wakeups.rs`) -/

/-- The row that a wake-up registers (`wakeup.rs`, lines 79-82). -/
def wakeupRow (id workspaceId sessionId : Uuid) (fireAt : Timestamp) : IssueCommentDelivery :=
  { id := id
    commentId := id
    issueId := 0
    workspaceId := some workspaceId
    sessionId := some sessionId
    executionProcessId := none
    state := .pending
    reason := none
    error := none
    source := .mcp
    originSessionId := none
    hopCount := 0
    deliveredMessage := none
    deliveredCommentUpdatedAt := none
    attemptCount := 0
    nextAttemptAt := some fireAt
    allowStoppedTarget := false }

/-- `Wakeup::cancel` (lines 106-109); the row of a wake-up has the wake-up's ID. -/
def cancelWakeup (rows : Rows) (id : Uuid) (error : String) : Rows × Bool :=
  updateRow rows id isPending fun row => { row with state := .cancelled, error := some error }

/-- The deferral of a wake-up (`wakeups.rs`, lines 241, 257). -/
def deferWakeup (rows : Rows) (id : Uuid) (nextAttemptAt : Option Timestamp)
    (error : Option String) : Rows × Bool :=
  updateRow rows id isPending fun row =>
    { row with nextAttemptAt := nextAttemptAt, error := error }

end VibeKanban.Ledger

import VibeKanban.Ledger.Attempts

/-!
# Launches of comment deliveries

How a dispatch task starts a turn, and what the executions of a session say about an earlier start
(`server/src/issue_comment_delivery.rs`, lines 1150-1204, 1252-1501 and 1548-1593;
`services/src/services/container.rs`, lines 2540-2660; `local-deployment/src/container.rs`, lines
5230-5291 and 5437-5715). The actions that delete sessions or executions are left out. The launches
are not in the source: they record the rows for which an agent was started, each with the number of
its resolutions until then.
-/

namespace VibeKanban.Ledger

open Cluster Lib

/-! ## Evidence -/

/-- A `MarkedTurn` with the columns that its evidence is read from. -/
structure MarkedTurn where
  id : Uuid
  sessionId : Uuid
  /-- the comments whose markers are in the stored action -/
  comments : List Uuid
  /-- `pgid IS NOT NULL` -/
  pgid : Bool
  /-- there is a row in `execution_worker_jobs` -/
  workerJob : Bool
  /-- `accepted_at IS NOT NULL` -/
  accepted : Bool
  /-- `agent_session_id IS NOT NULL` -/
  agentSession : Bool
  agentStarted : Bool

def MarkedTurn.launched (turn : MarkedTurn) : Bool :=
  turn.pgid || turn.accepted || turn.agentSession

def MarkedTurn.uncertain (turn : MarkedTurn) : Bool := turn.workerJob

/-- `find_coding_agent_turns_with_marker` (`db/src/models/execution_process.rs`, lines 335-358);
    turns are in the order of their creation. -/
def findTurnsWithMarker (turns : List MarkedTurn) (sessionId commentId : Uuid) : List MarkedTurn :=
  turns.filter fun turn => turn.sessionId == sessionId && decide (commentId ∈ turn.comments)

/-- `earlier_attempt` (lines 1157-1179). -/
def earlierAttempt (turns : List MarkedTurn) (sessionId commentId : Uuid) : EarlierAttempt :=
  match (findTurnsWithMarker turns sessionId commentId).find? MarkedTurn.launched with
  | some turn => .launched turn.id
  | none =>
    match (findTurnsWithMarker turns sessionId commentId).find? MarkedTurn.uncertain with
    | some turn => .uncertain turn.id
    | none => .none

/-- `latest_attempt` (lines 1182-1198). -/
def latestAttempt (turns : List MarkedTurn) (sessionId commentId : Uuid) : EarlierAttempt :=
  match (findTurnsWithMarker turns sessionId commentId).getLast? with
  | some turn =>
    if turn.launched then .launched turn.id
    else if turn.uncertain then .uncertain turn.id
    else .none
  | none => .none

/-! ## The system -/

/-- Where `deliver_claimed` is. -/
inductive LaunchPc where
  /-- in the loop over the claimed rows; the rows that have no earlier attempt -/
  | checking (checked : List Uuid)
  /-- in `start_follow_up`, before the execution is created -/
  | starting
  /-- before the agent is spawned, or `create_pending` -/
  | created (turnId : Uuid)
  /-- the agent is spawned; before and after `update_pgid` -/
  | spawned (turnId : Uuid)
  /-- before the request is sent to the worker -/
  | jobCreated (turnId : Uuid)
  | sent (turnId : Uuid) (accepted : Bool)
  /-- after `record_acceptance` -/
  | accepted (turnId : Uuid)
  /-- `start_follow_up` has returned an execution -/
  | started (turnId : Uuid)
  /-- `start_follow_up` has returned an error -/
  | failed
  deriving DecidableEq

/-- A row that `recover` has listed, and what `earlier_attempt` has said about it. -/
structure Recovering where
  row : IssueCommentDelivery
  attempt : Option EarlierAttempt

structure Launching where
  ledger : Dispatcher
  turns : List MarkedTurn
  pc : Uuid → LaunchPc
  /-- the rows that `recover` still has before it; none before it runs -/
  recovery : Option (List Recovering)
  launches : List (Uuid × ℕ)

inductive LaunchAction where
  /-- requests, wake-ups, and a dispatch task until it delivers -/
  | ledger (action : DispatcherAction)
  /-- `earlier_attempt` for a claimed row -/
  | check (sessionId id : Uuid)
  /-- a row that was checked is not delivered after all -/
  | withdraw (sessionId id : Uuid) (outcome : Outcome)
  | prepare (sessionId : Uuid)
  | snapshot (sessionId id : Uuid) (message : String) (commentUpdatedAt : Timestamp)
  | create (sessionId turnId : Uuid)
  | spawn (sessionId : Uuid)
  | updatePgid (sessionId : Uuid)
  | createPending (sessionId : Uuid)
  | send (sessionId : Uuid) (accepted : Bool)
  | recordAcceptance (sessionId : Uuid)
  /-- `start_follow_up` returns -/
  | returns (sessionId : Uuid) (ok : Bool)
  | markDelivered (sessionId id : Uuid) (message : String) (commentUpdatedAt : Timestamp)
  /-- `latest_attempt` for a row whose start has failed -/
  | classify (sessionId id : Uuid) (message : String) (commentUpdatedAt : Timestamp)
      (error : String) (now : Timestamp)
  /-- a dispatch task ends, also where a statement fails or its caller goes away -/
  | stop (sessionId : Uuid)
  | report (turnId : Uuid) (agentSession accepted : Bool)
  /-- `recover` lists the claimed rows -/
  | recover
  | recoverRead
  | recoverWrite
  | recoverStop
  | crash

/-- The actions of the dispatcher that are not steps of a delivery or of recovery. -/
def DispatcherAction.isPlain : DispatcherAction → Bool
  | .task _ (.snapshot _ _ _) | .task _ (.launch _) | .task _ (.settle _ _) | .task _ .stop => false
  | .recover _ _ | .deleteSession _ | .deleteExecution _ | .crash => false
  | _ => true

def Outcome.withdraws : Outcome → Bool
  | .delivered _ _ _ | .uncertain _ => false
  | _ => true

/-- How often a row was resolved. -/
def resolutions (id : Uuid) : List LedgerEvent → ℕ
  | [] => 0
  | .resolved i _ _ :: log => if i = id then resolutions id log + 1 else resolutions id log
  | .claimed _ :: log => resolutions id log
  | .returned _ :: log => resolutions id log

namespace Launching

/-! ## Steps of a delivery -/

def setPc (s : Launching) (sessionId : Uuid) (pc : LaunchPc) : Launching :=
  { s with pc := fun id => if id = sessionId then pc else s.pc id }

def setTurn (s : Launching) (turnId : Uuid) (f : MarkedTurn → MarkedTurn) : Launching :=
  { s with turns := update (fun turn => turn.id == turnId) f s.turns }

def perform (s : Launching) (a : DispatcherAction) : Option Launching :=
  (s.ledger.step a).map fun ledger => { s with ledger := ledger }

/-- The task of a session that is in `deliver_claimed`. -/
def delivery (s : Launching) (sessionId : Uuid) : Option DispatchTask :=
  s.ledger.tasks.find? fun t => t.sessionId == sessionId && t.delivering

def claimedRow (s : Launching) (sessionId id : Uuid) : Option IssueCommentDelivery :=
  (s.delivery sessionId).bind fun t => t.claimed.find? fun row => row.id == id

def launch (s : Launching) (t : DispatchTask) (turnId : Uuid) : Launching :=
  { s.setTurn turnId fun turn => { turn with agentStarted := true } with
    launches := t.claimed.map (fun row => (row.id, resolutions row.id s.ledger.log)) ++ s.launches }

/-- The evidence of an earlier start (lines 1260-1284). -/
def check (s : Launching) (sessionId id : Uuid) (checked : List Uuid)
    (row : IssueCommentDelivery) : Option Launching :=
  match earlierAttempt s.turns sessionId row.commentId with
  | .launched executionId =>
    s.perform (.task sessionId (.settle id
      (.delivered executionId (row.deliveredMessage.getD "") row.deliveredCommentUpdatedAt)))
  | .uncertain executionId =>
    if row.allowStoppedTarget then some (s.setPc sessionId (.checking (id :: checked)))
    else s.perform (.task sessionId (.settle id (.uncertain executionId)))
  | .none => some (s.setPc sessionId (.checking (id :: checked)))

/-- The row of a start that has failed (lines 1469-1497). -/
def classify (s : Launching) (sessionId id : Uuid) (row : IssueCommentDelivery) (message : String)
    (commentUpdatedAt : Timestamp) (error : String) (now : Timestamp) : Option Launching :=
  match latestAttempt s.turns sessionId row.commentId with
  | .launched executionId =>
    s.perform (.task sessionId
      (.settle id (.delivered executionId message (some commentUpdatedAt))))
  | .uncertain executionId => s.perform (.task sessionId (.settle id (.uncertain executionId)))
  | .none => s.perform (.task sessionId (.settle id (.retryOrFail .startFailed error now)))

/-- `start_follow_up` returns: with an execution only if the agent was started. -/
def returns (s : Launching) (sessionId : Uuid) (ok : Bool) : Option Launching :=
  match s.pc sessionId with
  | .spawned turnId | .accepted turnId =>
    some (s.setPc sessionId (if ok then .started turnId else .failed))
  | .starting | .created _ | .jobCreated _ | .sent _ _ =>
    if ok then none else some (s.setPc sessionId .failed)
  | _ => none

/-! ## The steps -/

def step (s : Launching) : LaunchAction → Option Launching
  | .ledger a =>
    if a.isPlain then
      (s.perform a).map fun s' =>
        match a with
        | .start sessionId _ _ => s'.setPc sessionId (.checking [])
        | _ => s'
    else none
  | .check sessionId id =>
    match s.pc sessionId with
    | .checking checked =>
      if id ∈ checked then none
      else (s.claimedRow sessionId id).bind fun row => s.check sessionId id checked row
    | _ => none
  | .withdraw sessionId id outcome =>
    match s.pc sessionId with
    | .checking checked =>
      if id ∈ checked ∧ outcome.withdraws then s.perform (.task sessionId (.settle id outcome))
      else none
    | _ => none
  | .prepare sessionId =>
    match s.pc sessionId with
    | .checking checked =>
      (s.delivery sessionId).bind fun t =>
        if t.claimed ≠ [] ∧ ∀ row ∈ t.claimed, row.id ∈ checked then
          some (s.setPc sessionId .starting)
        else none
    | _ => none
  | .snapshot sessionId id message commentUpdatedAt =>
    if s.pc sessionId = .starting then
      s.perform (.task sessionId (.snapshot id message commentUpdatedAt))
    else none
  | .create sessionId turnId =>
    if s.pc sessionId = .starting then
      (s.delivery sessionId).bind fun t =>
        (s.perform (.task sessionId (.launch turnId))).map fun s' =>
          { s'.setPc sessionId (.created turnId) with
            turns := s.turns ++
              [⟨turnId, sessionId, t.claimed.map fun row => row.commentId, false, false, false,
                false, false⟩] }
    else none
  | .spawn sessionId =>
    match s.pc sessionId with
    | .created turnId =>
      (s.delivery sessionId).map fun t => (s.launch t turnId).setPc sessionId (.spawned turnId)
    | _ => none
  | .updatePgid sessionId =>
    match s.pc sessionId with
    | .spawned turnId => some (s.setTurn turnId fun turn => { turn with pgid := true })
    | _ => none
  | .createPending sessionId =>
    match s.pc sessionId with
    | .created turnId =>
      some ((s.setTurn turnId fun turn => { turn with workerJob := true }).setPc sessionId
        (.jobCreated turnId))
    | _ => none
  | .send sessionId accepted =>
    match s.pc sessionId with
    | .jobCreated turnId =>
      (s.delivery sessionId).map fun t =>
        (if accepted then s.launch t turnId else s).setPc sessionId (.sent turnId accepted)
    | _ => none
  | .recordAcceptance sessionId =>
    match s.pc sessionId with
    | .sent turnId true =>
      some ((s.setTurn turnId fun turn => { turn with accepted := true }).setPc sessionId
        (.accepted turnId))
    | _ => none
  | .returns sessionId ok => s.returns sessionId ok
  | .markDelivered sessionId id message commentUpdatedAt =>
    match s.pc sessionId with
    | .started turnId =>
      s.perform (.task sessionId (.settle id (.delivered turnId message (some commentUpdatedAt))))
    | _ => none
  | .classify sessionId id message commentUpdatedAt error now =>
    if s.pc sessionId = .failed then
      (s.claimedRow sessionId id).bind fun row =>
        s.classify sessionId id row message commentUpdatedAt error now
    else none
  | .stop sessionId => s.perform (.task sessionId .stop)
  | .report turnId agentSession accepted =>
    some (s.setTurn turnId fun turn =>
      { turn with
        agentSession := turn.agentSession || agentSession && turn.agentStarted
        accepted := turn.accepted || accepted && turn.workerJob && turn.agentStarted })
  | .recover =>
    if s.recovery = none then
      some { s with
        recovery := some
          ((s.ledger.rows.filter fun row => isDispatching row.state).map fun row => ⟨row, none⟩) }
    else none
  | .recoverRead =>
    match s.recovery with
    | some (⟨row, none⟩ :: rest) =>
      let attempt := match row.sessionId with
        | some sessionId => earlierAttempt s.turns sessionId row.commentId
        | none => .none
      some { s with recovery := some (⟨row, some attempt⟩ :: rest) }
    | _ => none
  | .recoverWrite =>
    match s.recovery with
    | some (⟨row, some attempt⟩ :: rest) =>
      -- the statement changes nothing if the row has left the state
      some { s with
        ledger := (s.ledger.step (.recover row.id attempt)).getD s.ledger
        recovery := some rest }
    | _ => none
  | .recoverStop => s.recovery.map fun _ => { s with recovery := some [] }
  | .crash => (s.perform .crash).map fun s' => { s' with recovery := none }

def Initial (s : Launching) : Prop :=
  s.ledger.Initial ∧ s.turns = [] ∧ s.recovery = none ∧ s.launches = []

end Launching

end VibeKanban.Ledger

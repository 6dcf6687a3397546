import VibeKanban.Ledger.Rows

/-!
# The rules of a delivery (`services/src/services/issue_comment_delivery.rs`, lines 19-199)

Which session a comment goes to, how many hops it is away from a human, and when a failed attempt is
retried; and how the dispatcher makes a resolution of them (`resolve` in
`server/src/issue_comment_delivery.rs`).
-/

namespace VibeKanban.Ledger

open Cluster

def maxAgentHops : ℤ := 2

/-! ## Targets -/

inductive AgentState where
  | running
  | waiting
  | stopped
  | neverRun
  deriving DecidableEq

structure SessionCandidate where
  workspaceId : Uuid
  sessionId : Uuid
  agentState : AgentState

inductive TargetDecision where
  | target (candidate : SessionCandidate) (explicit : Bool)
  | needsTarget
  | noTarget (reason : DeliveryReason)
  | blocked (reason : DeliveryReason)

/-- The choice of `select_target` before its guards (lines 108-137). -/
def chooseTarget (candidates : List SessionCandidate) (explicitSessionId : Option Uuid) :
    TargetDecision :=
  match explicitSessionId with
  | some explicit =>
    match candidates.find? fun c => c.sessionId == explicit with
    | some candidate => .target candidate true
    | none => .noTarget .targetNotLinked
  | none =>
    let ran := candidates.filter fun c => c.agentState ≠ .neverRun
    let running := ran.filter fun c => c.agentState = .running
    match ran, running with
    | [], _ => .noTarget .noSessions
    | [only], _ => .target only false
    | _, [onlyRunning] => .target onlyRunning false
    | _, _ => .needsTarget

/-- `select_target` (lines 103-153). -/
def selectTarget (candidates : List SessionCandidate)
    (explicitSessionId originSessionId : Option Uuid) : TargetDecision :=
  match chooseTarget candidates explicitSessionId with
  | .target candidate explicit =>
    if originSessionId = some candidate.sessionId then .blocked .selfTarget
    else if explicit = false ∧ candidate.agentState = .stopped then .noTarget .turnStopped
    else .target candidate explicit
  | other => other

/-! ## Hops and retries -/

/-- `next_hop_count` (lines 175-188). -/
def nextHopCount (agentOrigin : Bool) (originTurnHop : Option ℤ) : Except DeliveryReason ℤ :=
  if agentOrigin = false then .ok 0
  else
    let hop := match originTurnHop with
      | none => 1
      | some hop => hop + 1
    if maxAgentHops < hop then .error .loopGuard else .ok hop

/-- `retry_delay` (lines 193-199), in seconds. -/
def retryDelay (attempt : ℕ) : Option Timestamp :=
  match attempt with
  | 1 => some 15
  | 2 => some 60
  | _ => none

/-! ## Resolutions -/

/-- `ResolvedCandidates`; the errors of `resolve_candidates` are a reason and a text. -/
structure ResolvedCandidates where
  candidates : List SessionCandidate
  unavailableReason : Option DeliveryReason

/-- The `outcome` of `resolve` (lines 673-681): no target, and no hops. -/
def outcome (state : DeliveryState) (reason : DeliveryReason) (error : Option String) :
    Resolution :=
  { state := state
    reason := some reason
    error := error
    workspaceId := none
    sessionId := none
    hopCount := 0
    allowStoppedTarget := false }

/-- `resolve` (lines 666-745), from the hop count and from what the remote server and the local
    sessions say about the issue. -/
def resolve (hop : Except DeliveryReason ℤ)
    (resolved : Except (DeliveryReason × String) ResolvedCandidates)
    (explicitSessionId originSessionId : Option Uuid) : Resolution :=
  match hop with
  | .error reason => outcome .blocked reason none
  | .ok hopCount =>
    match resolved with
    | .error (reason, error) => outcome .failed reason (some error)
    | .ok resolved =>
      match resolved.unavailableReason with
      | some reason => outcome .noTarget reason none
      | none =>
        match selectTarget resolved.candidates explicitSessionId originSessionId with
        | .target candidate explicit =>
          { state := .pending
            reason := none
            error := none
            workspaceId := some candidate.workspaceId
            sessionId := some candidate.sessionId
            hopCount := hopCount
            allowStoppedTarget := explicit }
        | .needsTarget => { outcome .needsTarget .ambiguous none with hopCount := hopCount }
        | .noTarget reason => { outcome .noTarget reason none with hopCount := hopCount }
        | .blocked reason => outcome .blocked reason none

end VibeKanban.Ledger

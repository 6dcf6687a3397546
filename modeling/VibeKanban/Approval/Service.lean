import VibeKanban.Cluster.Protocol
import VibeKanban.Lib.Broadcast
import VibeKanban.Lib.Runs

/-!
# Approvals (`services/approvals.rs`)

A response, a cancellation or the timeout resolves an approval. The calls share two concurrent maps
and a broadcast channel of patches, and every operation on one of these is a step. The entry in
`pending` has the sender of the waiter's channel.

* `moves_of_step`: what each step does.
* `Owned.step`: one call at a time holds the entry of an approval.
-/

namespace VibeKanban.Approval

open Lib Cluster Broadcast Option
open Function (update update_apply)

/-! ## Types -/

structure QuestionAnswer where
  question : String
  answer : List String
  deriving DecidableEq

inductive ApprovalOutcome where
  | approved
  | denied (reason : Option String)
  | answered (answers : List QuestionAnswer)
  | timedOut
  deriving DecidableEq

/-- `PendingApproval`, without the sender. -/
structure PendingApproval where
  executionProcessId : Uuid
  toolName : String
  isQuestion : Bool
  createdAt : Timestamp
  timeoutAt : Timestamp

structure ApprovalInfo where
  approvalId : Uuid
  toolName : String
  executionProcessId : Uuid
  isQuestion : Bool
  createdAt : Timestamp
  timeoutAt : Timestamp

def PendingApproval.info (p : PendingApproval) (id : Uuid) : ApprovalInfo :=
  ⟨id, p.toolName, p.executionProcessId, p.isQuestion, p.createdAt, p.timeoutAt⟩

structure ToolContext where
  toolName : String
  executionProcessId : Uuid

inductive ApprovalError where
  | notFound
  | alreadyCompleted
  | invalidStatus

/-- `validate_approval_response` (lines 127-138). -/
def validateApprovalResponse (outcome : ApprovalOutcome) (isQuestion : Bool) :
    Except ApprovalError Unit :=
  match outcome with
  | .approved | .denied _ => if isQuestion then .error .invalidStatus else .ok ()
  | .answered _ => if isQuestion then .ok () else .error .invalidStatus
  | .timedOut => .ok ()

/-- The outcome that `cancel` records. -/
def cancelled : ApprovalOutcome := .denied (some "Cancelled")

/-- A patch of `approvals_patch` on the channel. -/
inductive ApprovalPatch where
  | created (info : ApprovalInfo)
  | resolved (id : Uuid)

/-! ## Calls -/

/-- Where a call of `create_with_waiter` is. -/
inductive CreatePos where
  | called
  | inserted
  | announced
  | returned

structure Creation where
  approval : PendingApproval
  pos : CreatePos

inductive WatchPos where
  | waiting
  | woken (outcome : ApprovalOutcome)
  /-- it has written `completed` -/
  | recorded (outcome : ApprovalOutcome)
  | removed
  | patched
  | finished
  deriving DecidableEq

/-- Where a call of `respond` is. -/
inductive RespondPos where
  | called
  | missed
  | removed (p : PendingApproval)
  /-- it has written `completed` -/
  | recorded (p : PendingApproval)
  /-- it has sent the outcome to the waiter -/
  | answered (p : PendingApproval)
  | returned (result : Except ApprovalError (ApprovalOutcome × ToolContext))

/-- The entry that a call of `respond` has removed. -/
def RespondPos.entry : RespondPos → Option PendingApproval
  | .removed p | .recorded p | .answered p => some p
  | _ => none

structure Respond where
  id : Uuid
  status : ApprovalOutcome
  pos : RespondPos

/-- Where a call of `cancel` is; the sender is dropped at its end. -/
inductive CancelPos where
  | called
  | removed
  | recorded
  | patched
  | finished
  deriving DecidableEq

structure Cancel where
  id : Uuid
  pos : CancelPos
  deriving DecidableEq

/-- Where a stream of patches is; a live one has a receiver. -/
inductive StreamPos where
  | called
  | snapshotted
  | live (rx : ℕ)

/-- A stream, with what a client holds that applies its patches. -/
structure PatchStream where
  pos : StreamPos
  client : Uuid → Option ApprovalInfo

/-- Who has the sender of an approval. -/
inductive Owner where
  | nobody
  /-- it is in `pending` -/
  | table
  | respond (k : ℕ)
  | cancel (k : ℕ)
  | watcher
  | spent
  deriving DecidableEq

/-- `Approvals` with the calls so far, each under its number, and a clock. `waiters` has what the
    waiter of an approval gets. `owner` is not in the source. -/
structure Approvals where
  pending : Uuid → Option PendingApproval
  completed : Uuid → Option ApprovalOutcome
  patches : Channel ApprovalPatch
  waiters : Uuid → Option ApprovalOutcome
  creations : Uuid → Option Creation
  watchers : Uuid → Option WatchPos
  responds : ℕ → Option Respond
  cancels : ℕ → Option Cancel
  streams : ℕ → Option PatchStream
  clock : Timestamp
  owner : Uuid → Owner

inductive ApprovalAction where
  | tick (now : Timestamp)
  /-- `create_with_waiter` with a new id -/
  | create (id : Uuid) (approval : PendingApproval)
  | creation (id : Uuid)
  /-- the watcher finds the deadline passed and the waiter without an outcome -/
  | deadline (id : Uuid)
  | watch (id : Uuid)
  | respond (k : ℕ) (id : Uuid) (status : ApprovalOutcome)
  | respondStep (k : ℕ)
  | cancel (k : ℕ) (id : Uuid)
  | cancelStep (k : ℕ)
  | stream (i : ℕ)
  | streamStep (i : ℕ)

namespace Approvals

/-- `new` (lines 77-84). -/
def new (now : Timestamp) : Approvals where
  pending _ := none
  completed _ := none
  patches := channel 64
  waiters _ := none
  creations _ := none
  watchers _ := none
  responds _ := none
  cancels _ := none
  streams _ := none
  clock := now
  owner _ := .nobody

variable (s : Approvals)

/-- `pending_infos` (lines 275-290). -/
def pendingInfos (id : Uuid) : Option ApprovalInfo := (s.pending id).map fun p => p.info id

/-- The rest of `create_with_waiter` (lines 113-124). -/
def creationStep (id : Uuid) (c : Creation) : Option Approvals :=
  match c.pos with
  | .called => some { s with
      pending := update s.pending id (some c.approval)
      creations := update s.creations id (some ⟨c.approval, .inserted⟩)
      owner := update s.owner id .table }
  | .inserted => some { s with
      patches := s.patches.send (.created (c.approval.info id))
      creations := update s.creations id (some ⟨c.approval, .announced⟩) }
  | .announced => some { s with
      watchers := update s.watchers id (some .waiting)
      creations := update s.creations id (some ⟨c.approval, .returned⟩) }
  | .returned => none

/-- The watcher is woken by its deadline (line 202). -/
def deadlineStep (id : Uuid) : Option Approvals :=
  match s.watchers id, s.waiters id, s.creations id with
  | some .waiting, none, some c =>
    if c.approval.timeoutAt ≤ s.clock then
      some { s with watchers := update s.watchers id (some (.woken .timedOut)) }
    else none
  | _, _, _ => none

/-- The watcher (lines 197-216). -/
def watchStep (id : Uuid) : WatchPos → Option Approvals
  | .waiting =>
    (s.waiters id).map fun outcome =>
      { s with watchers := update s.watchers id (some (.woken outcome)) }
  | .woken outcome => some { s with
      completed := update s.completed id (some outcome)
      watchers := update s.watchers id (some (.recorded outcome)) }
  | .recorded outcome =>
    if outcome = .timedOut ∧ (s.pending id).isSome then
      some { s with
        pending := update s.pending id none
        watchers := update s.watchers id (some .removed)
        owner := update s.owner id .watcher }
    else some { s with watchers := update s.watchers id (some .finished) }
  | .removed => some { s with
      patches := s.patches.send (.resolved id)
      watchers := update s.watchers id (some .patched) }
  | .patched => some { s with
      waiters := update s.waiters id (some .timedOut)
      watchers := update s.watchers id (some .finished)
      owner := update s.owner id .spent }
  | .finished => none

/-- Moves the call `k` of `respond`. -/
def moveRespond (k : ℕ) (r : Respond) (pos : RespondPos) : Approvals :=
  { s with responds := update s.responds k (some { r with pos := pos }) }

/-- `respond` (lines 141-175). -/
def respondAt (k : ℕ) (r : Respond) : RespondPos → Option Approvals
  | .called =>
    match s.pending r.id with
    | some p => some ({ s with
        pending := update s.pending r.id none
        owner := update s.owner r.id (.respond k) }.moveRespond k r (.removed p))
    | none => some (s.moveRespond k r .missed)
  | .missed =>
    some (s.moveRespond k r (.returned (.error
      (if (s.completed r.id).isSome then .alreadyCompleted else .notFound))))
  | .removed p =>
    match validateApprovalResponse r.status p.isQuestion with
    | .error e => some ({ s with
        pending := update s.pending r.id (some p)
        owner := update s.owner r.id .table }.moveRespond k r (.returned (.error e)))
    | .ok () => some ({ s with
        completed := update s.completed r.id (some r.status) }.moveRespond k r (.recorded p))
  | .recorded p => some ({ s with
      waiters := update s.waiters r.id (some r.status)
      owner := update s.owner r.id .spent }.moveRespond k r (.answered p))
  | .answered p => some ({ s with
      patches := s.patches.send (.resolved r.id) }.moveRespond k r
        (.returned (.ok (r.status, ⟨p.toolName, p.executionProcessId⟩))))
  | .returned _ => none

/-- Moves the call `k` of `cancel`. -/
def moveCancel (k : ℕ) (c : Cancel) (pos : CancelPos) : Approvals :=
  { s with cancels := update s.cancels k (some { c with pos := pos }) }

/-- `cancel` (lines 219-231). -/
def cancelAt (k : ℕ) (c : Cancel) : CancelPos → Option Approvals
  | .called =>
    match s.pending c.id with
    | some _ => some ({ s with
        pending := update s.pending c.id none
        owner := update s.owner c.id (.cancel k) }.moveCancel k c .removed)
    | none => some (s.moveCancel k c .finished)
  | .removed => some ({ s with
      completed := update s.completed c.id (some cancelled) }.moveCancel k c .recorded)
  | .recorded => some ({ s with
      patches := s.patches.send (.resolved c.id) }.moveCancel k c .patched)
  | .patched => some ({ s with
      waiters := update s.waiters c.id (some .timedOut)
      owner := update s.owner c.id .spent }.moveCancel k c .finished)
  | .finished => none

def applyPatch (client : Uuid → Option ApprovalInfo) : ApprovalPatch → Uuid → Option ApprovalInfo
  | .created info => update client info.approvalId (some info)
  | .resolved id => update client id none

/-- `patch_stream` (lines 233-252): the snapshot, the subscription, and an item of the stream that
    the client applies; after a lag this is a snapshot. -/
def streamAt (i : ℕ) (st : PatchStream) : StreamPos → Option Approvals
  | .called => some { s with
      streams := update s.streams i (some ⟨.snapshotted, s.pendingInfos⟩) }
  | .snapshotted => some { s with
      streams := update s.streams i (some ⟨.live s.patches.subscribe, st.client⟩) }
  | .live rx =>
    match s.patches.recv rx with
    | some (.ok patch, rx) => some { s with
        streams := update s.streams i (some ⟨.live rx, applyPatch st.client patch⟩) }
    | some (.lagged _, rx) => some { s with
        streams := update s.streams i (some ⟨.live rx, s.pendingInfos⟩) }
    | none => none

def step : ApprovalAction → Option Approvals
  | .tick now => if s.clock ≤ now then some { s with clock := now } else none
  | .create id approval =>
    if s.creations id = none then
      some { s with creations := update s.creations id (some ⟨approval, .called⟩) }
    else none
  | .creation id => (s.creations id).bind (s.creationStep id)
  | .deadline id => s.deadlineStep id
  | .watch id => (s.watchers id).bind (s.watchStep id)
  | .respond k id status =>
    if (s.responds k).isNone then
      some { s with responds := update s.responds k (some ⟨id, status, .called⟩) }
    else none
  | .respondStep k => (s.responds k).bind fun r => s.respondAt k r r.pos
  | .cancel k id =>
    if (s.cancels k).isNone then some { s with cancels := update s.cancels k (some ⟨id, .called⟩) }
    else none
  | .cancelStep k => (s.cancels k).bind fun c => s.cancelAt k c c.pos
  | .stream i =>
    if (s.streams i).isNone then
      some { s with streams := update s.streams i (some ⟨.called, fun _ => none⟩) }
    else none
  | .streamStep i => (s.streams i).bind fun st => s.streamAt i st st.pos

/-! ## The steps, one by one -/

inductive Moves : ApprovalAction → Approvals → Prop
  | tick {now : Timestamp} (hle : s.clock ≤ now) : Moves (.tick now) { s with clock := now }
  | create {id : Uuid} {approval : PendingApproval} (hnew : s.creations id = none) :
    Moves (.create id approval)
      { s with creations := update s.creations id (some ⟨approval, .called⟩) }
  | insert {id : Uuid} {approval : PendingApproval}
    (hc : s.creations id = some ⟨approval, .called⟩) :
    Moves (.creation id) { s with
      pending := update s.pending id (some approval)
      creations := update s.creations id (some ⟨approval, .inserted⟩)
      owner := update s.owner id .table }
  | announce {id : Uuid} {approval : PendingApproval}
    (hc : s.creations id = some ⟨approval, .inserted⟩) :
    Moves (.creation id) { s with
      patches := s.patches.send (.created (approval.info id))
      creations := update s.creations id (some ⟨approval, .announced⟩) }
  | spawn {id : Uuid} {approval : PendingApproval}
    (hc : s.creations id = some ⟨approval, .announced⟩) :
    Moves (.creation id) { s with
      watchers := update s.watchers id (some .waiting)
      creations := update s.creations id (some ⟨approval, .returned⟩) }
  | deadline {id : Uuid} {c : Creation} (hw : s.watchers id = some .waiting)
    (hv : s.waiters id = none) (hc : s.creations id = some c)
    (hdue : c.approval.timeoutAt ≤ s.clock) :
    Moves (.deadline id) { s with watchers := update s.watchers id (some (.woken .timedOut)) }
  | wake {id : Uuid} {o : ApprovalOutcome} (hw : s.watchers id = some .waiting)
    (hv : s.waiters id = some o) :
    Moves (.watch id) { s with watchers := update s.watchers id (some (.woken o)) }
  | watcherRecord {id : Uuid} {o : ApprovalOutcome} (hw : s.watchers id = some (.woken o)) :
    Moves (.watch id) { s with
      completed := update s.completed id (some o)
      watchers := update s.watchers id (some (.recorded o)) }
  | watcherRemove {id : Uuid} {p : PendingApproval}
    (hw : s.watchers id = some (.recorded .timedOut)) (hp : s.pending id = some p) :
    Moves (.watch id) { s with
      pending := update s.pending id none
      watchers := update s.watchers id (some .removed)
      owner := update s.owner id .watcher }
  | watcherMiss {id : Uuid} {o : ApprovalOutcome} (hw : s.watchers id = some (.recorded o))
    (hp : o = .timedOut → s.pending id = none) :
    Moves (.watch id) { s with watchers := update s.watchers id (some .finished) }
  | watcherPatch {id : Uuid} (hw : s.watchers id = some .removed) :
    Moves (.watch id) { s with
      patches := s.patches.send (.resolved id)
      watchers := update s.watchers id (some .patched) }
  | watcherSend {id : Uuid} (hw : s.watchers id = some .patched) :
    Moves (.watch id) { s with
      waiters := update s.waiters id (some .timedOut)
      watchers := update s.watchers id (some .finished)
      owner := update s.owner id .spent }
  | respond {k : ℕ} {id : Uuid} {status : ApprovalOutcome} (hnew : s.responds k = none) :
    Moves (.respond k id status)
      { s with responds := update s.responds k (some ⟨id, status, .called⟩) }
  | respondRemove {k : ℕ} {id : Uuid} {status : ApprovalOutcome} {p : PendingApproval}
    (hr : s.responds k = some ⟨id, status, .called⟩) (hp : s.pending id = some p) :
    Moves (.respondStep k) { s with
      pending := update s.pending id none
      responds := update s.responds k (some ⟨id, status, .removed p⟩)
      owner := update s.owner id (.respond k) }
  | respondMiss {k : ℕ} {id : Uuid} {status : ApprovalOutcome}
    (hr : s.responds k = some ⟨id, status, .called⟩) (hp : s.pending id = none) :
    Moves (.respondStep k)
      { s with responds := update s.responds k (some ⟨id, status, .missed⟩) }
  | respondRefuse {k : ℕ} {id : Uuid} {status : ApprovalOutcome}
    (hr : s.responds k = some ⟨id, status, .missed⟩) :
    Moves (.respondStep k) { s with
      responds := update s.responds k (some ⟨id, status, .returned (.error
        (if (s.completed id).isSome then .alreadyCompleted else .notFound))⟩) }
  | respondPutBack {k : ℕ} {id : Uuid} {status : ApprovalOutcome} {p : PendingApproval}
    {e : ApprovalError} (hr : s.responds k = some ⟨id, status, .removed p⟩)
    (hbad : validateApprovalResponse status p.isQuestion = .error e) :
    Moves (.respondStep k) { s with
      pending := update s.pending id (some p)
      responds := update s.responds k (some ⟨id, status, .returned (.error e)⟩)
      owner := update s.owner id .table }
  | respondRecord {k : ℕ} {id : Uuid} {status : ApprovalOutcome} {p : PendingApproval}
    (hr : s.responds k = some ⟨id, status, .removed p⟩)
    (hok : validateApprovalResponse status p.isQuestion = .ok ()) :
    Moves (.respondStep k) { s with
      completed := update s.completed id (some status)
      responds := update s.responds k (some ⟨id, status, .recorded p⟩) }
  | respondSend {k : ℕ} {id : Uuid} {status : ApprovalOutcome} {p : PendingApproval}
    (hr : s.responds k = some ⟨id, status, .recorded p⟩) :
    Moves (.respondStep k) { s with
      waiters := update s.waiters id (some status)
      responds := update s.responds k (some ⟨id, status, .answered p⟩)
      owner := update s.owner id .spent }
  | respondPatch {k : ℕ} {id : Uuid} {status : ApprovalOutcome} {p : PendingApproval}
    (hr : s.responds k = some ⟨id, status, .answered p⟩) :
    Moves (.respondStep k) { s with
      patches := s.patches.send (.resolved id)
      responds := update s.responds k
        (some ⟨id, status, .returned (.ok (status, ⟨p.toolName, p.executionProcessId⟩))⟩) }
  | cancel {k : ℕ} {id : Uuid} (hnew : s.cancels k = none) :
    Moves (.cancel k id) { s with cancels := update s.cancels k (some ⟨id, .called⟩) }
  | cancelRemove {k : ℕ} {id : Uuid} {p : PendingApproval}
    (hc : s.cancels k = some ⟨id, .called⟩) (hp : s.pending id = some p) :
    Moves (.cancelStep k) { s with
      pending := update s.pending id none
      cancels := update s.cancels k (some ⟨id, .removed⟩)
      owner := update s.owner id (.cancel k) }
  | cancelMiss {k : ℕ} {id : Uuid}
    (hc : s.cancels k = some ⟨id, .called⟩) (hp : s.pending id = none) :
    Moves (.cancelStep k) { s with cancels := update s.cancels k (some ⟨id, .finished⟩) }
  | cancelRecord {k : ℕ} {id : Uuid} (hc : s.cancels k = some ⟨id, .removed⟩) :
    Moves (.cancelStep k) { s with
      completed := update s.completed id (some cancelled)
      cancels := update s.cancels k (some ⟨id, .recorded⟩) }
  | cancelPatch {k : ℕ} {id : Uuid} (hc : s.cancels k = some ⟨id, .recorded⟩) :
    Moves (.cancelStep k) { s with
      patches := s.patches.send (.resolved id)
      cancels := update s.cancels k (some ⟨id, .patched⟩) }
  | cancelDrop {k : ℕ} {id : Uuid} (hc : s.cancels k = some ⟨id, .patched⟩) :
    Moves (.cancelStep k) { s with
      waiters := update s.waiters id (some .timedOut)
      cancels := update s.cancels k (some ⟨id, .finished⟩)
      owner := update s.owner id .spent }
  | stream {i : ℕ} (hnew : s.streams i = none) :
    Moves (.stream i) { s with streams := update s.streams i (some ⟨.called, fun _ => none⟩) }
  | snapshot {i : ℕ} {client : Uuid → Option ApprovalInfo}
    (hs : s.streams i = some ⟨.called, client⟩) :
    Moves (.streamStep i)
      { s with streams := update s.streams i (some ⟨.snapshotted, s.pendingInfos⟩) }
  | subscribe {i : ℕ} {client : Uuid → Option ApprovalInfo}
    (hs : s.streams i = some ⟨.snapshotted, client⟩) :
    Moves (.streamStep i)
      { s with streams := update s.streams i (some ⟨.live s.patches.subscribe, client⟩) }
  | receive {i rx rx' : ℕ} {client : Uuid → Option ApprovalInfo} {patch : ApprovalPatch}
    (hs : s.streams i = some ⟨.live rx, client⟩)
    (hrecv : s.patches.recv rx = some (.ok patch, rx')) :
    Moves (.streamStep i)
      { s with streams := update s.streams i (some ⟨.live rx', applyPatch client patch⟩) }
  | lag {i rx rx' n : ℕ} {client : Uuid → Option ApprovalInfo}
    (hs : s.streams i = some ⟨.live rx, client⟩)
    (hrecv : s.patches.recv rx = some (.lagged n, rx')) :
    Moves (.streamStep i)
      { s with streams := update s.streams i (some ⟨.live rx', s.pendingInfos⟩) }

variable {s} {s' : Approvals} {id : Uuid} {k i : ℕ} {a : ApprovalAction}

theorem moves_creation (h : s.step (.creation id) = some s') : s.Moves (.creation id) s' := by
  obtain ⟨⟨approval, pos⟩, hc, hstep⟩ := bind_eq_some_iff.1 h
  cases pos with cases hstep
  | called => exact .insert hc
  | inserted => exact .announce hc
  | announced => exact .spawn hc

theorem moves_deadline (h : s.step (.deadline id) = some s') : s.Moves (.deadline id) s' := by
  simp only [step, deadlineStep] at h
  split at h
  · rename_i hw hv hc
    split_ifs at h with hdue
    cases h
    exact .deadline hw hv hc hdue
  · cases h

theorem moves_watch (h : s.step (.watch id) = some s') : s.Moves (.watch id) s' := by
  obtain ⟨pos, hw, hstep⟩ := bind_eq_some_iff.1 h
  cases pos with
  | waiting =>
    obtain ⟨o, hv, rfl⟩ := map_eq_some_iff.1 hstep
    exact .wake hw hv
  | woken o =>
    cases hstep
    exact .watcherRecord hw
  | recorded o =>
    simp only [watchStep] at hstep
    split_ifs at hstep with hmine
    · cases hstep
      obtain ⟨p, hp⟩ := isSome_iff_exists.1 hmine.2
      rw [hmine.1] at hw
      exact .watcherRemove hw hp
    · cases hstep
      apply Moves.watcherMiss hw
      intro ho
      rw [← not_isSome_iff_eq_none]
      exact fun hp => hmine ⟨ho, hp⟩
  | removed =>
    cases hstep
    exact .watcherPatch hw
  | patched =>
    cases hstep
    exact .watcherSend hw
  | finished => cases hstep

theorem moves_respondStep (h : s.step (.respondStep k) = some s') :
    s.Moves (.respondStep k) s' := by
  obtain ⟨⟨id, status, pos⟩, hr, hstep⟩ := bind_eq_some_iff.1 h
  cases pos with
  | called =>
    simp only [respondAt] at hstep
    split at hstep <;> cases hstep
    · exact .respondRemove hr (by assumption)
    · exact .respondMiss hr (by assumption)
  | missed =>
    cases hstep
    exact .respondRefuse hr
  | removed p =>
    simp only [respondAt] at hstep
    split at hstep <;> cases hstep
    · exact .respondPutBack hr (by assumption)
    · exact .respondRecord hr (by assumption)
  | recorded p =>
    cases hstep
    exact .respondSend hr
  | answered p =>
    cases hstep
    exact .respondPatch hr
  | returned result => cases hstep

theorem moves_cancelStep (h : s.step (.cancelStep k) = some s') : s.Moves (.cancelStep k) s' := by
  obtain ⟨⟨id, pos⟩, hc, hstep⟩ := bind_eq_some_iff.1 h
  cases pos with
  | called =>
    simp only [cancelAt] at hstep
    split at hstep <;> cases hstep
    · exact .cancelRemove hc (by assumption)
    · exact .cancelMiss hc (by assumption)
  | removed =>
    cases hstep
    exact .cancelRecord hc
  | recorded =>
    cases hstep
    exact .cancelPatch hc
  | patched =>
    cases hstep
    exact .cancelDrop hc
  | finished => cases hstep

theorem moves_streamStep (h : s.step (.streamStep i) = some s') : s.Moves (.streamStep i) s' := by
  obtain ⟨⟨pos, client⟩, hs, hstep⟩ := bind_eq_some_iff.1 h
  cases pos with
  | called =>
    cases hstep
    exact .snapshot hs
  | snapshotted =>
    cases hstep
    exact .subscribe hs
  | live rx =>
    simp only [streamAt] at hstep
    split at hstep <;> cases hstep
    · exact .receive hs (by assumption)
    · exact .lag hs (by assumption)

theorem moves_of_step (h : s.step a = some s') : s.Moves a s' := by
  cases a with simp only [step] at h
  | tick now =>
    split_ifs at h with hle
    cases h
    exact .tick hle
  | create id approval =>
    split_ifs at h with hnew
    cases h
    exact .create hnew
  | creation id => exact moves_creation h
  | deadline id => exact moves_deadline h
  | watch id => exact moves_watch h
  | respond k id status =>
    split_ifs at h with hnew
    cases h
    exact .respond (isNone_iff_eq_none.1 hnew)
  | respondStep k => exact moves_respondStep h
  | cancel k id =>
    split_ifs at h with hnew
    cases h
    exact .cancel (isNone_iff_eq_none.1 hnew)
  | cancelStep k => exact moves_cancelStep h
  | stream i =>
    split_ifs at h with hnew
    cases h
    exact .stream (isNone_iff_eq_none.1 hnew)
  | streamStep i => exact moves_streamStep h

theorem step_of_moves (h : s.Moves a s') : s.step a = some s' := by
  cases h with
  | tick hle => simp [step, hle]
  | create hnew | respond hnew | cancel hnew | stream hnew => simp [step, hnew]
  | insert hc | announce hc | spawn hc => simp [step, creationStep, hc]
  | deadline hw hv hc hdue => simp [step, deadlineStep, hw, hv, hc, hdue]
  | wake hw hv => simp [step, watchStep, hw, hv]
  | watcherRemove hw hp => simp [step, watchStep, hw, hp]
  | watcherMiss hw hp =>
    simp only [step, watchStep, hw, bind_some]
    rw [if_neg]
    rintro ⟨ho, hsome⟩
    rw [hp ho] at hsome
    cases hsome
  | watcherRecord hw | watcherPatch hw | watcherSend hw => simp [step, watchStep, hw]
  | respondRemove hr hp | respondMiss hr hp => simp [step, respondAt, moveRespond, hr, hp]
  | respondPutBack hr hv | respondRecord hr hv => simp [step, respondAt, moveRespond, hr, hv]
  | respondRefuse hr | respondSend hr | respondPatch hr => simp [step, respondAt, moveRespond, hr]
  | cancelRemove hc hp | cancelMiss hc hp => simp [step, cancelAt, moveCancel, hc, hp]
  | cancelRecord hc | cancelPatch hc | cancelDrop hc => simp [step, cancelAt, moveCancel, hc]
  | snapshot hs | subscribe hs => simp [step, streamAt, hs]
  | receive hs hrecv | lag hs hrecv => simp [step, streamAt, hs, hrecv]

/-! ## Who has the sender -/

/-- The approval whose sender a call of `respond` has. -/
def responding : Option Respond → Option Uuid
  | some ⟨id, _, .removed _⟩ | some ⟨id, _, .recorded _⟩ => some id
  | _ => none

/-- The approval whose sender a call of `cancel` has. -/
def cancelling : Option Cancel → Option Uuid
  | some ⟨id, .removed⟩ | some ⟨id, .recorded⟩ | some ⟨id, .patched⟩ => some id
  | _ => none

theorem responding_eq_some {r : Option Respond} : responding r = some id ↔ ∃ status p,
    r = some ⟨id, status, .removed p⟩ ∨ r = some ⟨id, status, .recorded p⟩ := by
  unfold responding
  split <;> simp_all

theorem cancelling_eq_some {c : Option Cancel} : cancelling c = some id ↔
    c = some ⟨id, .removed⟩ ∨ c = some ⟨id, .recorded⟩ ∨ c = some ⟨id, .patched⟩ := by
  unfold cancelling
  split <;> simp_all

def watching : Option WatchPos → Bool
  | some .removed | some .patched => true
  | _ => false

/-- The entry of the approval is not in `pending` yet. -/
def uncreated : Option Creation → Bool
  | none | some ⟨_, .called⟩ => true
  | _ => false

/-- The sender of an approval is in `pending` or with the one call that has it. -/
structure Owned (s : Approvals) : Prop where
  table : ∀ id, s.owner id = .table ↔ s.pending id ≠ none
  entry : ∀ id p, s.pending id = some p → (s.creations id).map Creation.approval = some p
  nobody : ∀ id, s.owner id = .nobody ↔ uncreated (s.creations id) = true
  spawned : ∀ id, s.watchers id ≠ none ↔ (s.creations id).map Creation.pos = some .returned
  respond : ∀ id k, s.owner id = .respond k ↔ responding (s.responds k) = some id
  removed : ∀ k r p, s.responds k = some r → r.pos.entry = some p →
    (s.creations r.id).map Creation.approval = some p
  cancel : ∀ id k, s.owner id = .cancel k ↔ cancelling (s.cancels k) = some id
  watcher : ∀ id, s.owner id = .watcher ↔ watching (s.watchers id) = true
  spent : ∀ id, s.owner id = .spent ↔ s.waiters id ≠ none

theorem owned_new (now : Timestamp) : (new now).Owned := by
  constructor <;> simp [new, responding, cancelling, watching, uncreated]

theorem Owned.step (h : s.Owned) (hm : s.Moves a s') : s'.Owned := by
  obtain ⟨h1, h2, h3, h4, h5, h6, h7, h8, h9⟩ := h
  cases hm with
  | tick | stream | snapshot | subscribe | receive | lag => constructor <;> assumption
  | create | insert | announce | spawn => constructor <;> grind [update_apply, uncreated, watching]
  | deadline | wake | watcherRecord | watcherRemove | watcherMiss | watcherPatch | watcherSend =>
    constructor <;> grind [update_apply, watching]
  | respond | respondRemove | respondMiss | respondRefuse | respondRecord | respondPatch =>
    constructor <;> grind [update_apply, responding, RespondPos.entry]
  | respondPutBack hr | respondSend hr =>
    have hown := (h5 _ _).2 (congrArg responding hr)
    constructor <;> grind [update_apply, responding, RespondPos.entry]
  | cancel | cancelRemove | cancelMiss | cancelRecord | cancelPatch =>
    constructor <;> first | assumption | grind [update_apply, cancelling]
  | cancelDrop hc =>
    have hown := (h7 _ _).2 (congrArg cancelling hc)
    constructor <;> first | assumption | grind [update_apply, cancelling]

def Start (s : Approvals) : Prop := ∃ now, s = new now

end Approvals

end VibeKanban.Approval

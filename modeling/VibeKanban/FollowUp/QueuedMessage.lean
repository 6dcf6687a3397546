import VibeKanban.Cluster.Protocol
import VibeKanban.Lib.Runs

/-!
# Queued follow-ups (`services/queued_message.rs`)

The queue of a session holds one entry: a message of the user, the placeholder of a restart that
`reserve_mcp_restart` put into an empty queue, or either with a restart reserved or committed. The
four maps are modelled at one session. The waiting for the notification is left out.

* `queue_integrity`: no message is lost or delivered twice, if reservations do not overlap.
-/

namespace VibeKanban.FollowUp

open Lib Option

variable {α : Type*}

/-- A point in time (`DateTime<Utc>`). -/
abbrev DateTime := ℕ

abbrev Uuid := Cluster.Uuid

/-- `QueuedMessage` (lines 12-26); `α` is `DraftFollowUpData`. -/
structure QueuedMessage (α : Type*) where
  data : α
  queuedAt : DateTime
  restartAgent : Bool
  restartReservation : Option Uuid
  removeOnReservationCancel : Bool

/-- `QueuedMessageService` at one session (lines 42-49). -/
structure QueuedMessageService (α : Type*) where
  queue : Option (QueuedMessage α)
  blockedMcpRestarts : Bool
  workspaceMcpRestarts : Option DateTime
  cancelledWorkspaceMcpRestarts : Option DateTime

namespace QueuedMessageService

def new : QueuedMessageService α := ⟨none, false, none, none⟩

variable (s : QueuedMessageService α)

/-! ## The operations -/

/-- `queue_message` (lines 63-81). -/
def queueMessage (data : α) (now : DateTime) : QueuedMessageService α × QueuedMessage α :=
  let replacesUnclaimedRestart := s.workspaceMcpRestarts.isSome && s.queue.isSome
  let queued := ⟨data, now, replacesUnclaimedRestart, none, false⟩
  ({ s with
      queue := some queued
      workspaceMcpRestarts :=
        if replacesUnclaimedRestart then some now else s.workspaceMcpRestarts }, queued)

/-- `reserve_mcp_restart` (lines 83-110), which returns `reservation`. -/
def reserveMcpRestart (reservation : Uuid) (data : α) (now : DateTime) : QueuedMessageService α :=
  let entry : QueuedMessage α := match s.queue with
    | some entry =>
      { entry with restartReservation := some reservation, removeOnReservationCancel := false }
    | none => ⟨data, now, false, some reservation, true⟩
  { s with
    queue := some entry
    workspaceMcpRestarts :=
      if s.blockedMcpRestarts then some entry.queuedAt else s.workspaceMcpRestarts }

/-- `commit_mcp_restart` (lines 112-123). -/
def commitMcpRestart (reservation : Uuid) : QueuedMessageService α × Option DateTime :=
  match s.queue with
  | some entry =>
    if entry.restartReservation = some reservation then
      let committed := { entry with restartAgent := true, restartReservation := none }
      ({ s with queue := some committed }, some entry.queuedAt)
    else (s, none)
  | none => (s, none)

/-- `take_committed_mcp_restart` (lines 125-140). -/
def takeCommittedMcpRestart (queuedAt : DateTime) :
    QueuedMessageService α × Option (QueuedMessage α) :=
  match s.queue with
  | some entry =>
    if entry.queuedAt = queuedAt ∧ entry.restartAgent = true ∧ entry.restartReservation = none then
      ({ s with queue := none }, some entry)
    else (s, none)
  | none => (s, none)

/-- `cancel_mcp_restart` (lines 142-154). -/
def cancelMcpRestart (reservation : Uuid) : QueuedMessageService α :=
  match s.queue with
  | some entry =>
    if entry.restartReservation = some reservation then
      let released := { entry with restartReservation := none, removeOnReservationCancel := false }
      { s with queue := if entry.removeOnReservationCancel then none else some released }
    else s
  | none => s

/-- `take_mcp_restart` (lines 156-168). -/
def takeMcpRestart (reservation : Uuid) : QueuedMessageService α × Option (QueuedMessage α) :=
  match s.queue with
  | some entry =>
    if entry.restartReservation = some reservation then
      let taken : QueuedMessage α := ⟨entry.data, entry.queuedAt, true, none, false⟩
      ({ s with queue := none }, some taken)
    else (s, none)
  | none => (s, none)

/-- `cancel_queued` (lines 171-175). -/
def cancelQueued : QueuedMessageService α × Option (QueuedMessage α) :=
  ({ s with queue := none }, s.queue)

/-- `supersede_mcp_restart` (lines 177-187). -/
def supersedeMcpRestart : QueuedMessageService α :=
  match s.queue with
  | some entry =>
    let released := { entry with restartAgent := false, restartReservation := none }
    { s with queue := if entry.removeOnReservationCancel then none else some released }
  | none => s

/-- `take_queued` (lines 196-203). -/
def takeQueued : QueuedMessageService α × Option (QueuedMessage α) :=
  match s.queue with
  | some entry =>
    if entry.restartReservation = none then ({ s with queue := none }, some entry) else (s, none)
  | none => (s, none)

/-- `block_mcp_restart_start` (lines 222-228). -/
def blockMcpRestartStart : QueuedMessageService α :=
  { s with
    cancelledWorkspaceMcpRestarts := none
    blockedMcpRestarts := true
    workspaceMcpRestarts := (s.queue.map (·.queuedAt)).or s.workspaceMcpRestarts }

/-- `unblock_mcp_restart_start` (lines 230-233). -/
def unblockMcpRestartStart : QueuedMessageService α := { s with blockedMcpRestarts := false }

/-- `finish_workspace_mcp_restart` (lines 248-251). -/
def finishWorkspaceMcpRestart : QueuedMessageService α :=
  { s with workspaceMcpRestarts := none, cancelledWorkspaceMcpRestarts := none }

/-- `cancel_workspace_mcp_restart` (lines 253-259). -/
def cancelWorkspaceMcpRestart : QueuedMessageService α :=
  unblockMcpRestartStart { s with
    workspaceMcpRestarts := none
    cancelledWorkspaceMcpRestarts := s.workspaceMcpRestarts.or s.cancelledWorkspaceMcpRestarts }

/-- `cancel_deferred_mcp_restart` (lines 263-277). -/
def cancelDeferredMcpRestart : QueuedMessageService α :=
  { s with cancelledWorkspaceMcpRestarts :=
      s.workspaceMcpRestarts.or s.cancelledWorkspaceMcpRestarts }

/-- The end of `wait_for_mcp_restart_start` (lines 293-302). -/
def finishWait (queuedAt : DateTime) : QueuedMessageService α :=
  if s.cancelledWorkspaceMcpRestarts = some queuedAt then
    { s with cancelledWorkspaceMcpRestarts := none }
  else s

end QueuedMessageService

/-! ## Runs -/

/-- An operation on the session, with its arguments and what the clock and `Uuid::new_v4` say. -/
inductive Op (α : Type*) where
  | queueMessage (data : α) (now : DateTime)
  | reserveMcpRestart (reservation : Uuid) (data : α) (now : DateTime)
  | commitMcpRestart (reservation : Uuid)
  | cancelMcpRestart (reservation : Uuid)
  | takeMcpRestart (reservation : Uuid)
  | takeCommittedMcpRestart (queuedAt : DateTime)
  | supersedeMcpRestart
  | takeQueued
  | cancelQueued
  | blockMcpRestartStart
  | unblockMcpRestartStart
  | finishWorkspaceMcpRestart
  | cancelWorkspaceMcpRestart
  | cancelDeferredMcpRestart
  | finishWait (queuedAt : DateTime)

/-- The state after an operation, and the message that it returns out of the queue. -/
def QueuedMessageService.apply (s : QueuedMessageService α) :
    Op α → QueuedMessageService α × Option (QueuedMessage α)
  | .queueMessage data now => ((s.queueMessage data now).1, none)
  | .reserveMcpRestart reservation data now => (s.reserveMcpRestart reservation data now, none)
  | .commitMcpRestart reservation => ((s.commitMcpRestart reservation).1, none)
  | .cancelMcpRestart reservation => (s.cancelMcpRestart reservation, none)
  | .takeMcpRestart reservation => s.takeMcpRestart reservation
  | .takeCommittedMcpRestart queuedAt => s.takeCommittedMcpRestart queuedAt
  | .supersedeMcpRestart => (s.supersedeMcpRestart, none)
  | .takeQueued => s.takeQueued
  | .cancelQueued => s.cancelQueued
  | .blockMcpRestartStart => (s.blockMcpRestartStart, none)
  | .unblockMcpRestartStart => (s.unblockMcpRestartStart, none)
  | .finishWorkspaceMcpRestart => (s.finishWorkspaceMcpRestart, none)
  | .cancelWorkspaceMcpRestart => (s.cancelWorkspaceMcpRestart, none)
  | .cancelDeferredMcpRestart => (s.cancelDeferredMcpRestart, none)
  | .finishWait queuedAt => (s.finishWait queuedAt, none)

/-- The three operations that take a message. -/
def Op.isTake : Op α → Bool
  | .takeMcpRestart _ | .takeCommittedMcpRestart _ | .takeQueued => true
  | _ => false

def Op.resolves (s : QueuedMessageService α) : Op α → Bool
  | .commitMcpRestart reservation | .takeMcpRestart reservation =>
    s.queue.any fun entry => entry.restartReservation = some reservation
  | _ => false

/-- Who put the entry into the queue: the user, or a reservation; of the latter, whether a
reservation was committed or taken since. -/
inductive Origin where
  | user
  | placeholder (resolved : Bool)

/-- The origin of an entry that stays, after an operation that resolves a reservation or not. -/
def Origin.after (resolves : Bool) : Origin → Origin
  | .user => .user
  | .placeholder resolved => .placeholder (resolved || resolves)

/-- The service with the history of its queue. -/
structure Queued (α : Type*) where
  service : QueuedMessageService α
  origin : Origin
  anyQueued : Bool
  /-- A reservation was committed or taken. -/
  anyResolved : Bool
  uncancelled : List Uuid

namespace Queued

def start (q : Queued α) : Prop := q = ⟨.new, .user, false, false, []⟩

/-- Where the entry comes from after the operation. -/
def nextOrigin (q : Queued α) (op : Op α) : Origin :=
  match op with
  | .queueMessage _ _ => .user
  | .reserveMcpRestart _ _ _ => if q.service.queue = none then .placeholder false else q.origin
  | op => q.origin.after (op.resolves q.service)

def nextUncancelled (uncancelled : List Uuid) : Op α → List Uuid
  | .reserveMcpRestart reservation _ _ => reservation :: uncancelled
  | .cancelMcpRestart reservation => uncancelled.filter (· ≠ reservation)
  | _ => uncancelled

def isQueueMessage : Op α → Bool
  | .queueMessage _ _ => true
  | _ => false

/-- The state after the operation. -/
def next (q : Queued α) (op : Op α) : Queued α where
  service := (q.service.apply op).1
  origin := q.nextOrigin op
  anyQueued := q.anyQueued || isQueueMessage op
  anyResolved := q.anyResolved || op.resolves q.service
  uncancelled := nextUncancelled q.uncancelled op

def step (q : Queued α) (op : Op α) : Option (Queued α) := some (q.next op)

/-- No restart is reserved while the entry is a placeholder that waits for its reservation. -/
def NoOverlap (q : Queued α) (op : Op α) : Prop :=
  ∀ reservation data now, op = .reserveMcpRestart reservation data now →
    ∀ entry, q.service.queue = some entry →
      ¬ (entry.removeOnReservationCancel = true ∧ entry.restartAgent = false)

/-! ## The messages of the user -/

/-- The operation leaves the message in the queue, or replaces it by a newer one, or returns it. -/
def LeavesProperly (s : QueuedMessageService α) (m : QueuedMessage α) (op : Op α) : Prop :=
  (∃ m', (s.apply op).1.queue = some m' ∧ m'.data = m.data ∧ m'.queuedAt = m.queuedAt) ∨
  (∃ data now, op = .queueMessage data now) ∨
  ((op.isTake = true ∨ op = .cancelQueued) ∧
    ∃ m', (s.apply op).2 = some m' ∧ m'.data = m.data ∧ m'.queuedAt = m.queuedAt)

def Stays (s : QueuedMessageService α) (m : QueuedMessage α) (op : Op α) : Prop :=
  ∃ m', (s.apply op).1.queue = some m' ∧ m'.data = m.data ∧ m'.queuedAt = m.queuedAt ∧
    m'.removeOnReservationCancel = false

def Returned (s : QueuedMessageService α) (m : QueuedMessage α) (op : Op α) : Prop :=
  (s.apply op).1.queue = none ∧ (op.isTake = true ∨ op = .cancelQueued) ∧
    ∃ m', (s.apply op).2 = some m' ∧ m'.data = m.data ∧ m'.queuedAt = m.queuedAt

variable {s : QueuedMessageService α} {m m' : QueuedMessage α} {op : Op α} {q q' : Queued α}

open QueuedMessageService

theorem unmarked_cases (op : Op α) (hm : s.queue = some m)
    (hremove : m.removeOnReservationCancel = false) :
    Stays s m op ∨ (∃ data now, op = .queueMessage data now) ∨ Returned s m op := by
  have hkept (hqueue : (s.apply op).1.queue = some m) :
      Stays s m op ∨ (∃ data now, op = .queueMessage data now) ∨ Returned s m op :=
    .inl ⟨m, hqueue, rfl, rfl, hremove⟩
  cases op with
  | queueMessage data now => exact .inr (.inl ⟨data, now, rfl⟩)
  | reserveMcpRestart reservation data now =>
    refine .inl ⟨⟨m.data, m.queuedAt, m.restartAgent, some reservation, false⟩, ?_, rfl, rfl, rfl⟩
    simp [apply, reserveMcpRestart, hm]
  | commitMcpRestart reservation =>
    by_cases hr : m.restartReservation = some reservation
    · refine .inl ⟨{ m with restartAgent := true, restartReservation := none }, ?_, rfl, rfl,
        hremove⟩
      simp [apply, commitMcpRestart, hm, hr]
    · refine hkept ?_
      simp [apply, commitMcpRestart, hm, hr]
  | cancelMcpRestart reservation =>
    by_cases hr : m.restartReservation = some reservation
    · refine .inl ⟨{ m with restartReservation := none }, ?_, rfl, rfl, hremove⟩
      simp [apply, cancelMcpRestart, hm, hr, hremove]
    · refine hkept ?_
      simp [apply, cancelMcpRestart, hm, hr]
  | takeMcpRestart reservation =>
    by_cases hr : m.restartReservation = some reservation
    · refine .inr (.inr ⟨?_, .inl rfl, ⟨m.data, m.queuedAt, true, none, false⟩, ?_, rfl, rfl⟩)
      all_goals simp [apply, takeMcpRestart, hm, hr]
    · refine hkept ?_
      simp [apply, takeMcpRestart, hm, hr]
  | takeCommittedMcpRestart queuedAt =>
    by_cases hr : m.queuedAt = queuedAt ∧ m.restartAgent = true ∧ m.restartReservation = none
    · refine .inr (.inr ⟨?_, .inl rfl, m, ?_, rfl, rfl⟩)
      all_goals simp [apply, takeCommittedMcpRestart, hm, hr]
    · refine hkept ?_
      simp [apply, takeCommittedMcpRestart, hm, hr]
  | supersedeMcpRestart =>
    refine .inl ⟨{ m with restartAgent := false, restartReservation := none }, ?_, rfl, rfl,
      hremove⟩
    simp [apply, supersedeMcpRestart, hm, hremove]
  | takeQueued =>
    by_cases hr : m.restartReservation = none
    · refine .inr (.inr ⟨?_, .inl rfl, m, ?_, rfl, rfl⟩)
      all_goals simp [apply, takeQueued, hm, hr]
    · refine hkept ?_
      simp [apply, takeQueued, hm, hr]
  | cancelQueued => exact .inr (.inr ⟨rfl, .inr rfl, m, hm, rfl, rfl⟩)
  | finishWait queuedAt =>
    refine hkept ?_
    simp only [apply, finishWait]
    split <;> exact hm
  | _ => exact hkept hm

theorem leavesProperly (hm : s.queue = some m) (hremove : m.removeOnReservationCancel = false) :
    LeavesProperly s m op := by
  rcases unmarked_cases op hm hremove with hstays | hreplaced | hreturned
  · obtain ⟨m', hqueue, hdata, hat, -⟩ := hstays
    exact .inl ⟨m', hqueue, hdata, hat⟩
  · exact .inr (.inl hreplaced)
  · obtain ⟨-, hop, hreturn⟩ := hreturned
    exact .inr (.inr ⟨hop, hreturn⟩)

/-! ## The placeholders -/

/-- The operation puts an entry into the queue. -/
def isInsert : Op α → Bool
  | .queueMessage _ _ | .reserveMcpRestart _ _ _ => true
  | _ => false

theorem apply_queue_of_none (hm : s.queue = none) (hop : isInsert op = false) :
    (s.apply op).1.queue = none := by
  cases op with
  | queueMessage | reserveMcpRestart => cases hop
  | cancelQueued => rfl
  | finishWait queuedAt =>
    simp only [apply, finishWait]
    split <;> exact hm
  | commitMcpRestart | cancelMcpRestart | takeMcpRestart | takeCommittedMcpRestart
    | supersedeMcpRestart | takeQueued =>
    simp [apply, commitMcpRestart, cancelMcpRestart, takeMcpRestart,
      takeCommittedMcpRestart, supersedeMcpRestart,
      takeQueued, hm]
  | _ => exact hm

theorem eq_of_marked (hm : s.queue = some m)
    (hremove : m.removeOnReservationCancel = true) (hop : isInsert op = false)
    (hresolves : op.resolves s = false) (h : (s.apply op).1.queue = some m') :
    m' = m ∧ ∀ reservation, op = .cancelMcpRestart reservation →
      m.restartReservation ≠ some reservation := by
  have hkept (hqueue : (s.apply op).1.queue = some m)
      (hcancel : ∀ reservation, op ≠ .cancelMcpRestart reservation) :
      m' = m ∧ ∀ reservation, op = .cancelMcpRestart reservation →
        m.restartReservation ≠ some reservation := by
    rw [hqueue, some.injEq] at h
    exact ⟨h.symm, fun reservation hc => absurd hc (hcancel reservation)⟩
  cases op with
  | queueMessage | reserveMcpRestart => cases hop
  | commitMcpRestart reservation =>
    have hr : m.restartReservation ≠ some reservation := by simpa [Op.resolves, hm] using hresolves
    refine hkept ?_ nofun
    simp [apply, commitMcpRestart, hm, hr]
  | cancelMcpRestart reservation =>
    by_cases hr : m.restartReservation = some reservation
    · simp [apply, cancelMcpRestart, hm, hr, hremove] at h
    · simp only [apply, cancelMcpRestart, hm, hr, if_false, some.injEq] at h
      refine ⟨h.symm, fun reservation' hc => ?_⟩
      cases hc
      exact hr
  | takeMcpRestart reservation =>
    have hr : m.restartReservation ≠ some reservation := by simpa [Op.resolves, hm] using hresolves
    refine hkept ?_ nofun
    simp [apply, takeMcpRestart, hm, hr]
  | takeCommittedMcpRestart queuedAt =>
    simp only [apply, takeCommittedMcpRestart, hm] at h
    split at h
    · cases h
    · next hnot =>
      refine hkept ?_ nofun
      simp [apply, takeCommittedMcpRestart, hm, hnot]
  | supersedeMcpRestart => simp [apply, supersedeMcpRestart, hm, hremove] at h
  | takeQueued =>
    simp only [apply, takeQueued, hm] at h
    split at h
    · cases h
    · next hnot =>
      refine hkept ?_ nofun
      simp [apply, takeQueued, hm, hnot]
  | cancelQueued => cases h
  | finishWait queuedAt =>
    refine hkept ?_ nofun
    simp only [apply, finishWait]
    split <;> exact hm
  | _ => exact hkept hm nofun

/-! ## The invariant -/

/-- A message of the user is not marked for removal, and the history is in line with the entry. -/
structure Traced (q : Queued α) : Prop where
  user : ∀ m, q.service.queue = some m → q.origin = .user →
    m.removeOnReservationCancel = false ∧ q.anyQueued = true
  resolved : ∀ m, q.service.queue = some m → q.origin = .placeholder true → q.anyResolved = true

def Marked (q : Queued α) : Prop :=
  ∀ m, q.service.queue = some m → q.origin = .placeholder false →
    m.removeOnReservationCancel = true ∧ m.restartAgent = false ∧
      ∃ reservation ∈ q.uncancelled, m.restartReservation = some reservation

theorem entry_cases (h : (q.next op).service.queue = some m') :
    (∃ data now, op = .queueMessage data now ∧ m'.removeOnReservationCancel = false) ∨
    (∃ reservation data now, op = .reserveMcpRestart reservation data now ∧
      m' = ⟨data, now, false, some reservation, true⟩ ∧ q.nextOrigin op = .placeholder false) ∨
    (isQueueMessage op = false ∧ ∃ m, q.service.queue = some m ∧
      q.nextOrigin op = q.origin.after (op.resolves q.service)) := by
  have hstays (hop : isInsert op = false) : ∃ m, q.service.queue = some m := by
    rw [← ne_none_iff_exists']
    intro hnone
    have hnext : (q.next op).service.queue = none := apply_queue_of_none hnone hop
    rw [hnext] at h
    cases h
  cases op with
  | queueMessage data now =>
    refine .inl ⟨data, now, rfl, ?_⟩
    rw [← some.inj h]
  | reserveMcpRestart reservation data now =>
    refine .inr ?_
    cases hq : q.service.queue with
    | none =>
      refine .inl ⟨reservation, data, now, rfl, ?_, if_pos hq⟩
      have hentry : (q.next (.reserveMcpRestart reservation data now)).service.queue =
          some ⟨data, now, false, some reservation, true⟩ := by
        simp [next, apply, reserveMcpRestart, hq]
      exact some.inj (h.symm.trans hentry)
    | some m =>
      refine .inr ⟨rfl, m, rfl, ?_⟩
      have hne : q.service.queue ≠ none := by
        rw [hq]
        exact nofun
      rw [nextOrigin, if_neg hne]
      cases horigin : q.origin with
      | user => rfl
      | placeholder resolved => simp [Origin.after, Op.resolves]
  | _ =>
    obtain ⟨m, hm⟩ := hstays rfl
    exact .inr (.inr ⟨rfl, m, hm, rfl⟩)

theorem Traced.next (h : Traced q) : Traced (q.next op) := by
  constructor
  · intro m' hm' horigin
    rcases entry_cases hm' with ⟨data, now, rfl, hremove⟩ | ⟨_, _, _, _, _, hnext⟩ |
      ⟨hop, m, hm, hnext⟩
    · exact ⟨hremove, Bool.or_true _⟩
    · exact absurd (hnext.symm.trans horigin) nofun
    · have huser : q.origin = .user := by
        have hafter := hnext.symm.trans horigin
        cases horig : q.origin with
        | user => rfl
        | placeholder => simp [horig, Origin.after] at hafter
      obtain ⟨hremove, hqueued⟩ := h.user m hm huser
      refine ⟨?_, ?_⟩
      · rcases unmarked_cases op hm hremove with hstays | ⟨data, now, rfl⟩ | hreturned
        · obtain ⟨m₁, hm₁, -, -, hremove₁⟩ := hstays
          rwa [← some.inj (hm'.symm.trans hm₁)] at hremove₁
        · cases hop
        · exact absurd (hm'.symm.trans hreturned.1) nofun
      · show (q.anyQueued || isQueueMessage op) = true
        rw [hqueued, Bool.true_or]
  · intro m' hm' horigin
    show (q.anyResolved || op.resolves q.service) = true
    rcases entry_cases hm' with ⟨data, now, rfl, -⟩ | ⟨_, _, _, _, _, hnext⟩ | ⟨-, m, hm, hnext⟩
    · cases horigin
    · exact absurd (hnext.symm.trans horigin) nofun
    · have hafter := hnext.symm.trans horigin
      cases horig : q.origin with
      | user => simp [horig, Origin.after] at hafter
      | placeholder resolved =>
        rw [horig, Origin.after, Origin.placeholder.injEq, Bool.or_eq_true] at hafter
        rcases hafter with rfl | hresolves
        · rw [h.resolved m hm horig, Bool.true_or]
        · rw [hresolves, Bool.or_true]

theorem Marked.next (h : Marked q) (hok : NoOverlap q op) : Marked (q.next op) := by
  intro m' hm' horigin
  rcases entry_cases hm' with ⟨data, now, rfl, -⟩ | ⟨reservation, data, now, rfl, rfl, -⟩ |
    ⟨hop, m, hm, hnext⟩
  · cases horigin
  · exact ⟨rfl, rfl, reservation, List.mem_cons_self, rfl⟩
  · have hafter := hnext.symm.trans horigin
    have hprev : q.origin = .placeholder false ∧ op.resolves q.service = false := by
      cases horig : q.origin with
      | user => simp [horig, Origin.after] at hafter
      | placeholder resolved => simpa [horig, Origin.after] using hafter
    obtain ⟨hremove, hagent, reservation, hmem, hreservation⟩ := h m hm hprev.1
    have hinsert : isInsert op = false := by
      cases op with
      | queueMessage => cases hop
      | reserveMcpRestart reservation data now =>
        exact absurd ⟨hremove, hagent⟩ (hok reservation data now rfl m hm)
      | _ => rfl
    obtain ⟨rfl, hcancel⟩ := eq_of_marked hm hremove hinsert hprev.2 hm'
    refine ⟨hremove, hagent, reservation, ?_, hreservation⟩
    show reservation ∈ nextUncancelled q.uncancelled op
    unfold nextUncancelled
    split
    · exact List.mem_cons_of_mem _ hmem
    · next reservation' =>
      have hne : reservation ≠ reservation' := by
        rintro rfl
        exact hcancel reservation rfl hreservation
      exact List.mem_filter.2 ⟨hmem, by simpa using hne⟩
    · exact hmem

theorem traced {ok : Queued α → Op α → Prop} (h : Reachable step ok start q) : Traced q := by
  refine h.invariant ?_ ?_
  · rintro q rfl
    exact ⟨nofun, nofun⟩
  · intro q op q' hq _ hstep
    cases hstep
    exact hq.next

theorem marked (h : Reachable step NoOverlap start q) : Marked q := by
  refine h.invariant ?_ ?_
  · rintro q rfl
    exact nofun
  · intro q op q' hq hok hstep
    cases hstep
    exact hq.next hok

/-! ## The queue over its runs -/

/-- What a take returns is a message of the user, or a placeholder of which a reservation was
committed or taken. -/
def TakesProperly (q : Queued α) (op : Op α) : Prop :=
  op.isTake = true → ∀ m, (q.service.apply op).2 = some m →
    ∀ resolved, q.origin = .placeholder resolved → (resolved || op.resolves q.service) = true

theorem resolves_of_take {reservation : Uuid} (hm : q.service.queue = some m)
    (hagent : m.restartAgent = false) (hreservation : m.restartReservation = some reservation)
    (htake : op.isTake = true) (h : (q.service.apply op).2 = some m') :
    op.resolves q.service = true := by
  cases op with
  | takeMcpRestart reservation' =>
    by_cases hr : reservation = reservation'
    · simp [Op.resolves, hm, hreservation, hr]
    · simp [apply, takeMcpRestart, hm, hreservation, hr] at h
  | takeCommittedMcpRestart queuedAt => simp [apply, takeCommittedMcpRestart, hm, hagent] at h
  | takeQueued => simp [apply, takeQueued, hm, hreservation] at h
  | _ => cases htake

/-- In every run a message of the user leaves the queue only by being returned or replaced; where
no restart is reserved while the queue has a placeholder that waits for its reservation, no
placeholder is returned unless a reservation was committed or taken, and the queue is empty once
every reservation was cancelled and nothing was queued. -/
theorem queue_integrity (q : Queued α) (op : Op α) :
    (Reachable step anyStep start q → ∀ m, q.service.queue = some m → q.origin = .user →
      LeavesProperly q.service m op) ∧ (Reachable step NoOverlap start q → TakesProperly q op ∧
      (q.anyQueued = false → q.anyResolved = false → q.uncancelled = [] →
        q.service.queue = none)) := by
  refine ⟨fun hq m hm horigin => ?_, fun hq => ⟨fun htake m' hm' resolved horigin => ?_,
    fun hqueued hresolved huncancelled => ?_⟩⟩
  · exact leavesProperly hm ((traced hq).user m hm horigin).1
  · cases resolved with
    | true => exact Bool.true_or _
    | false =>
      rw [Bool.false_or]
      cases hm : q.service.queue with
      | none =>
        cases op with
        | takeMcpRestart | takeCommittedMcpRestart | takeQueued =>
          simp [apply, takeMcpRestart, takeCommittedMcpRestart, takeQueued, hm] at hm'
        | _ => cases htake
      | some m =>
        obtain ⟨-, hagent, reservation, -, hreservation⟩ := marked hq m hm horigin
        exact resolves_of_take hm hagent hreservation htake hm'
  · by_contra hne
    obtain ⟨m, hm⟩ := ne_none_iff_exists'.1 hne
    cases horigin : q.origin with
    | user =>
      have hany := ((traced hq).user m hm horigin).2
      rw [hqueued] at hany
      cases hany
    | placeholder resolved =>
      cases resolved with
      | true =>
        have hany := (traced hq).resolved m hm horigin
        rw [hresolved] at hany
        cases hany
      | false =>
        obtain ⟨-, -, reservation, hmem, -⟩ := marked hq m hm horigin
        rw [huncancelled] at hmem
        cases hmem

/-- Two restarts are reserved and both are cancelled; the placeholder is in the queue and is then
taken as a message of the user. -/
theorem overlapping_reservations : ∃ q : Queued String, Reachable step anyStep start q ∧
      (q.anyQueued = false ∧ q.anyResolved = false ∧ q.uncancelled = [] ∧ q.service.queue ≠ none) ∧
      ¬ TakesProperly q .takeQueued := by
  have hexec : exec step anyStep ⟨.new, .user, false, false, []⟩
      [.reserveMcpRestart 1 "Continue" 10, .reserveMcpRestart 2 "Continue" 11,
        .cancelMcpRestart 1, .cancelMcpRestart 2] =
      some ⟨⟨some ⟨"Continue", 10, false, none, false⟩, false, none, none⟩,
        .placeholder false, false, false, []⟩ := by rfl
  refine ⟨_, reachable_of_exec rfl hexec, ⟨rfl, rfl, rfl, nofun⟩, fun h => ?_⟩
  exact absurd (h rfl _ rfl false rfl) nofun

end Queued

end VibeKanban.FollowUp

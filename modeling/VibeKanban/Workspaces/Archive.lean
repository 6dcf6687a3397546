import VibeKanban.Cluster.WorkerNodes
import VibeKanban.Coordinator.Tracker
import VibeKanban.Ledger.Wakeups
import VibeKanban.Lib.Json

/-!
# Archiving workspaces (`db/src/models/workspace.rs`, lines 811-969)

A completion event is recorded as an archive intent, which may be acknowledged; an automatic archive
needs an intent that is not. `update` with `archived = false` is the manual unarchive: it stores its
time and acknowledges every intent of the workspace. `Wakeup::insert` (`db/src/models/wakeup.rs`,
lines 45-85) unarchives a workspace and acknowledges nothing. A step is one transaction, or one
setting of the clock, which can also be set back.

* `archive_admission`: when an automatic archive succeeds.
-/

namespace VibeKanban.Workspaces

open Cluster Coordinator Ledger Lib
open List hiding find?_some

/-! ## Times -/

/-- What writes a time: `chrono`, `datetime('now', 'subsec')` or `datetime('now')`. -/
inductive Form where
  | utc
  | subsec
  | seconds
  deriving DecidableEq

/-- A time in a text column: its form, and the reading of the clock in nanoseconds. -/
structure Stamp where
  form : Form
  reading : Instant
  deriving DecidableEq

/-- The time that the text says. -/
def Stamp.instant (t : Stamp) : Instant :=
  match t.form with
  | .utc => t.reading
  | .subsec => t.reading / 1000000 * 1000000
  | .seconds => t.reading / 1000000000 * 1000000000

/-- SQLite's `julianday`, in milliseconds as SQLite computes it: none of a date outside its
    calendar, which begins in the year −4713 and ends with the year 9999. -/
def julianday (t : Instant) : Option ℤ :=
  let iJD := (t + 500000) / 1000000 + 210866760000000
  if 0 ≤ iJD ∧ iJD ≤ 464269060799999 then some iJD else none

/-- `julianday(unarchived_at) >= julianday(triggered_at)`. -/
def covers (unarchivedAt triggeredAt : Instant) : Bool :=
  match julianday unarchivedAt, julianday triggeredAt with
  | some u, some t => t ≤ u
  | _, _ => false

/-! ## Rows -/

/-- A row of `workspaces`, as far as archiving looks at it. -/
structure Workspace where
  id : Uuid
  name : Option String
  archived : Bool
  pinned : Bool
  worktreeDeleted : Bool
  updatedAt : Stamp
  deriving DecidableEq

/-- `ArchiveIntent`, a row of `workspace_archive_intents`. -/
structure ArchiveIntent where
  workspaceId : Uuid
  triggerKey : String
  rule : String
  triggeredAt : Stamp
  archivedAt : Option Stamp
  acknowledged : Bool
  deriving DecidableEq

def ArchiveIntent.key (i : ArchiveIntent) : Uuid × String := (i.workspaceId, i.triggerKey)

/-- A row of `workspace_archive_overrides`. -/
structure ArchiveOverride where
  workspaceId : Uuid
  unarchivedAt : Instant
  deriving DecidableEq

/-- `ExecutionProcessRunReason` (`execution_process.rs`, line 58). -/
inductive RunReason where
  | setupScript
  | cleanupScript
  | archiveScript
  | codingAgent
  | devServer
  | backgroundHelper
  deriving DecidableEq

/-- A row of `execution_processes`; `executorAction` is none where the text is no JSON. -/
structure ExecutionProcess where
  id : Uuid
  sessionId : Uuid
  runReason : RunReason
  executorAction : Option JsonValue
  status : ExecutionProcessStatus

inductive MergeStatus where
  | open
  | merged
  | closed
  | unknown
  deriving DecidableEq

/-- A row of `pull_requests`. -/
structure PullRequest where
  prUrl : String
  workspaceId : Option Uuid
  prStatus : MergeStatus

/-- The tables, the workspace of each session, and the clock. -/
structure Tables where
  now : Instant
  workspaces : List Workspace
  intents : List ArchiveIntent
  overrides : List ArchiveOverride
  sessions : Uuid → Option Uuid
  processes : List ExecutionProcess
  wakeups : List Wakeup
  deliveries : Rows
  pullRequests : List PullRequest

/-! ## Conditions of the automatic archive (lines 863-890) -/

/-- `substr(text, 1, n)`. -/
def substr (n : ℕ) (text : String) : List Char := text.toList.take n

/-- The rule comes from the remote side. -/
def isRemote (rule : String) : Bool :=
  substr 6 rule = "issue_".toList || substr 7 rule = "remote_".toList ||
    rule = "legacy_remote_archive"

/-- The action is a script with a poller (lines 878-882). -/
def isPoller (executorAction : Option JsonValue) : Bool :=
  match executorAction.bind (·.get "typ") with
  | some typ =>
    (match typ.get "type" with
      | some (.string type) => type = "ScriptRequest"
      | _ => false) &&
    match typ.get "poller" with
    | some (.object _) => true
    | _ => false
  | none => false

def ExecutionProcess.holds (p : ExecutionProcess) : Bool :=
  p.status = .running &&
    (p.runReason = .codingAgent || p.runReason = .backgroundHelper && isPoller p.executorAction)

namespace Tables

def hasWorkspace (s : Tables) (id : Uuid) : Bool := s.workspaces.any fun w => w.id == id

def hasOpenPr (s : Tables) (id : Uuid) : Bool :=
  s.pullRequests.any fun pr => pr.workspaceId == some id && pr.prStatus = .open

def eligibleIntent (s : Tables) (allowRemote : Bool) (i : ArchiveIntent) : Bool :=
  !i.acknowledged && (allowRemote || !isRemote i.rule) &&
    (i.rule ≠ "pr_merged" || !s.hasOpenPr i.workspaceId)

def hasRunning (s : Tables) (id : Uuid) : Bool :=
  s.processes.any fun p => s.sessions p.sessionId == some id && p.holds

/-- A wake-up of the workspace is pending or dispatching. -/
def hasWakeup (s : Tables) (id : Uuid) : Bool :=
  s.wakeups.any fun w => w.workspaceId == id &&
    s.deliveries.any fun d => d.commentId == w.id && Schedule.isOpen d.state

/-- The condition of the `UPDATE` that admits an archive. -/
def admits (s : Tables) (id : Uuid) (allowRemote : Bool) (w : Workspace) : Bool :=
  w.id == id && !w.archived && !w.pinned &&
    (s.intents.any fun i => i.workspaceId == w.id && s.eligibleIntent allowRemote i) &&
    !s.hasRunning w.id && !s.hasWakeup w.id

variable (text : Stamp → String)

/-- `ORDER BY triggered_at DESC, trigger_key`. -/
def Before (i j : ArchiveIntent) : Prop :=
  text j.triggeredAt < text i.triggeredAt ∨
    text i.triggeredAt = text j.triggeredAt ∧ i.triggerKey ≤ j.triggerKey
  deriving Decidable

/-- The intent that an archive is attributed to (line 902). -/
def attributed (s : Tables) (id : Uuid) (allowRemote : Bool) : Option ArchiveIntent :=
  ((s.intents.filter fun i => i.workspaceId == id && s.eligibleIntent allowRemote i).insertionSort
    (Before text)).head?

/-- `try_archive_with_remote_intents` (lines 856-907): the tables, and whether it has archived the
    workspace. -/
def tryArchive (s : Tables) (id : Uuid) (allowRemote : Bool) : Tables × Bool :=
  let archived := affected (s.admits id allowRemote) s.workspaces = 1
  let s' := { s with
    workspaces := update (s.admits id allowRemote)
      (fun w => { w with archived := true, updatedAt := ⟨.subsec, s.now⟩ }) s.workspaces }
  if archived then
    ({ s' with
        intents := update
          (fun i => i.workspaceId == id &&
            (s'.attributed text id allowRemote).map ArchiveIntent.triggerKey == some i.triggerKey)
          (fun i => { i with archivedAt := some ⟨.utc, s.now⟩ }) s'.intents }, true)
  else (s', false)

/-! ## The other statements -/

/-- `record_archive_intent` (lines 811-825); none where the workspace does not exist. -/
def recordArchiveIntent (s : Tables) (id : Uuid) (triggerKey rule : String)
    (triggeredAt : Instant) : Option Tables :=
  if s.intents.any fun i => i.key == (id, triggerKey) then some s
  else if s.hasWorkspace id = false then none
  else
    let acknowledged := s.overrides.any fun o =>
      o.workspaceId == id && covers o.unarchivedAt triggeredAt
    some { s with
      intents := s.intents ++ [⟨id, triggerKey, rule, ⟨.utc, triggeredAt⟩, none, acknowledged⟩] }

/-- `acknowledge_archive_intent` (lines 836-845). -/
def acknowledgeArchiveIntent (s : Tables) (id : Uuid) (triggerKey : String) : Tables :=
  { s with
    intents := update (fun i => i.key == (id, triggerKey))
      (fun i => { i with acknowledged := true }) s.intents }

/-- `set_archived` (lines 909-924). -/
def setArchived (s : Tables) (id : Uuid) (archived : Bool) : Tables :=
  { s with
    workspaces := update (fun w => w.id == id)
      (fun w => { w with archived := archived, updatedAt := ⟨.subsec, s.now⟩ }) s.workspaces }

/-- `INSERT … ON CONFLICT(workspace_id) DO UPDATE` of the override. -/
def upsertOverride (s : Tables) (id : Uuid) : List ArchiveOverride :=
  if s.overrides.any fun o => o.workspaceId == id then
    update (fun o => o.workspaceId == id) (fun o => { o with unarchivedAt := s.now }) s.overrides
  else s.overrides ++ [⟨id, s.now⟩]

/-- What `update` writes first to unarchive a workspace (lines 939-948). -/
def unarchive (s : Tables) (id : Uuid) : Tables :=
  { s with
    overrides := s.upsertOverride id
    intents := update (fun i => i.workspaceId == id) (fun i => { i with acknowledged := true })
      s.intents }

/-- The `UPDATE` of the workspace itself (lines 949-961). -/
def setFields (s : Tables) (id : Uuid) (archived pinned : Option Bool) (name : Option String) :
    Tables :=
  { s with
    workspaces := update (fun w => w.id == id)
      (fun w => { w with
        archived := archived.getD w.archived
        pinned := pinned.getD w.pinned
        name := if name.isSome then name.filter (· ≠ "") else w.name
        updatedAt := ⟨.subsec, s.now⟩ }) s.workspaces }

/-- What `update` writes last to archive a workspace (lines 962-965). -/
def attributeManual (s : Tables) (id : Uuid) : Tables :=
  { s with
    intents := update
      (fun i => i.workspaceId == id && i.rule = "manual_archive" && i.archivedAt.isNone &&
        !i.acknowledged)
      (fun i => { i with archivedAt := some ⟨.utc, s.now⟩ }) s.intents }

/-- `update` (lines 928-969); none where a workspace is unarchived that does not exist. -/
def updateWorkspace (s : Tables) (id : Uuid) (archived pinned : Option Bool)
    (name : Option String) : Option Tables :=
  match archived with
  | some false =>
    if s.hasWorkspace id then some ((s.unarchive id).setFields id archived pinned name) else none
  | some true => some ((s.setFields id archived pinned name).attributeManual id)
  | none => some (s.setFields id archived pinned name)

/-- The intent that `Wakeup::insert` records for a workspace that was archived before there were
    intents (`wakeup.rs`, lines 61-64). -/
def recordLegacy (s : Tables) (id : Uuid) : List ArchiveIntent :=
  match s.workspaces.find? fun w => w.id == id && w.archived with
  | some w =>
    if s.intents.any fun i => i.workspaceId == id && !i.acknowledged then s.intents
    else if s.intents.any fun i => i.key == (id, "legacy") then s.intents
    else
      s.intents ++ [⟨id, "legacy", "legacy_archive_unknown", w.updatedAt, some w.updatedAt, false⟩]
  | none => s.intents

/-- `COUNT(*)` of a session's wake-ups. -/
def total (s : Tables) (sessionId : Uuid) : ℕ := s.wakeups.countP fun w => w.sessionId == sessionId

/-- `COUNT(*)` of a session's wake-ups, joined with their deliveries that are pending or
    dispatching. -/
def pending (s : Tables) (sessionId : Uuid) : ℕ :=
  (s.wakeups.map fun w => s.deliveries.countP fun d =>
    w.sessionId == sessionId && d.commentId == w.id && Schedule.isOpen d.state).sum

/-- The worktree exists and the session belongs to the workspace. -/
def eligible (s : Tables) (workspaceId sessionId : Uuid) : Bool :=
  (s.workspaces.any fun w => w.id == workspaceId && !w.worktreeDeleted) &&
    s.sessions sessionId == some workspaceId

/-- `Wakeup::insert` (`wakeup.rs`, lines 45-85): the error, or whether the limits allow the
    wake-up. -/
def insertWakeup (s : Tables) (w : Wakeup) : Except String (Option Tables) :=
  if maxLifetime ≤ s.total w.sessionId ∨ maxPending ≤ s.pending w.sessionId then .ok none
  else if s.eligible w.workspaceId w.sessionId = false then
    .error ("Wake-up target is unavailable: restore its worktree and use a session belonging to " ++
      "this workspace")
  else if (s.wakeups.any fun v => v.id == w.id) ||
      s.deliveries.any fun d => d.id == w.id || d.commentId == w.id then
    .error "UNIQUE constraint failed"
  else
    .ok (some { s with
      intents := s.recordLegacy w.workspaceId
      workspaces := update (fun v => v.id == w.workspaceId)
        (fun v => { v with archived := false, updatedAt := ⟨.subsec, s.now⟩ }) s.workspaces
      wakeups := s.wakeups ++ [w]
      deliveries := s.deliveries ++ [wakeupRow w.id w.workspaceId w.sessionId w.fireAt] })

/-- A workspace that is created (lines 606-627). -/
def create (s : Tables) (id : Uuid) (name : Option String) : Option Tables :=
  if s.hasWorkspace id then none
  else some { s with
    workspaces := s.workspaces ++ [⟨id, name, false, false, false, ⟨.subsec, s.now⟩⟩] }

/-- The other statements that write `updated_at`; some write `worktree_deleted`. -/
def touch (s : Tables) (id : Uuid) (worktreeDeleted : Option Bool) (form : Form) : Tables :=
  { s with
    workspaces := update (fun w => w.id == id)
      (fun w => { w with
        worktreeDeleted := worktreeDeleted.getD w.worktreeDeleted
        updatedAt := ⟨form, s.now⟩ }) s.workspaces }

/-- `PullRequest::create` (`pull_request.rs`, lines 25-62). -/
def createPr (s : Tables) (prUrl : String) (workspaceId : Option Uuid) : List PullRequest :=
  if s.pullRequests.any fun pr => pr.prUrl == prUrl then
    update (fun pr => pr.prUrl == prUrl)
      (fun pr => { pr with workspaceId := pr.workspaceId <|> workspaceId }) s.pullRequests
  else s.pullRequests ++ [⟨prUrl, workspaceId, .open⟩]

end Tables

/-! ## Steps -/

inductive Action where
  | clock (now : Instant)
  | create (id : Uuid) (name : Option String)
  | touch (id : Uuid) (worktreeDeleted : Option Bool) (form : Form)
  | recordArchiveIntent (id : Uuid) (triggerKey rule : String) (triggeredAt : Instant)
  | acknowledgeArchiveIntent (id : Uuid) (triggerKey : String)
  | setArchived (id : Uuid) (archived : Bool)
  | update (id : Uuid) (archived pinned : Option Bool) (name : Option String)
  | tryArchive (id : Uuid) (allowRemote : Bool)
  | insertWakeup (w : Wakeup)
  /-- what the dispatcher, a cancellation or `reconcile` makes of a delivery -/
  | setDelivery (id : Uuid) (state : DeliveryState)
  | createSession (id workspaceId : Uuid)
  | startProcess (p : ExecutionProcess)
  | setProcess (id : Uuid) (status : ExecutionProcessStatus)
  | createPr (prUrl : String) (workspaceId : Option Uuid)
  | setPr (prUrl : String) (status : MergeStatus)

namespace Tables

variable (text : Stamp → String) {t u : Instant}

/-- One step; a transaction that fails is rolled back and is no step. -/
def step (s : Tables) : Action → Option Tables
  | .clock now => some { s with now := now }
  | .create id name => s.create id name
  | .touch id worktreeDeleted form => some (s.touch id worktreeDeleted form)
  | .recordArchiveIntent id triggerKey rule triggeredAt =>
    s.recordArchiveIntent id triggerKey rule triggeredAt
  | .acknowledgeArchiveIntent id triggerKey => some (s.acknowledgeArchiveIntent id triggerKey)
  | .setArchived id archived => some (s.setArchived id archived)
  | .update id archived pinned name => s.updateWorkspace id archived pinned name
  | .tryArchive id allowRemote => some (s.tryArchive text id allowRemote).1
  | .insertWakeup w =>
    match s.insertWakeup w with
    | .ok (some s') => some s'
    | _ => none
  | .setDelivery id state =>
    some { s with
      deliveries := update (fun d => d.id == id) (fun d => { d with state := state }) s.deliveries }
  | .createSession id workspaceId =>
    if s.sessions id = none ∧ s.hasWorkspace workspaceId then
      some { s with sessions := Function.update s.sessions id (some workspaceId) }
    else none
  | .startProcess p => some { s with processes := s.processes ++ [p] }
  | .setProcess id status =>
    some { s with
      processes := update (fun p => p.id == id) (fun p => { p with status := status }) s.processes }
  | .createPr prUrl workspaceId => some { s with pullRequests := s.createPr prUrl workspaceId }
  | .setPr prUrl status =>
    some { s with
      pullRequests := update (fun pr => pr.prUrl == prUrl)
        (fun pr => { pr with prStatus := status }) s.pullRequests }

def isUnarchive (id : Uuid) : Action → Bool
  | .update id' (some false) _ _ => id' == id
  | _ => false

/-- No intent is recorded and no workspace was unarchived yet. -/
structure Initial (s : Tables) : Prop where
  workspaces : Keyed Workspace.id s.workspaces
  intents : s.intents = []
  overrides : s.overrides = []

/-! ## What a step does to the intents -/

def IsLegacy (i : ArchiveIntent) : Prop :=
  i.triggerKey = "legacy" ∧ i.rule = "legacy_archive_unknown"

def Later (overrides : List ArchiveOverride) (i : ArchiveIntent) : Prop :=
  ∀ o ∈ overrides, o.workspaceId = i.workspaceId →
    covers o.unarchivedAt i.triggeredAt.instant = false

def Stays (s s' : Tables) (i : ArchiveIntent) : Prop :=
  (∃ j ∈ s.intents, j.acknowledged = false ∧ j.key = i.key ∧ j.rule = i.rule ∧
      j.triggeredAt = i.triggeredAt) ∧
    ∀ o ∈ s'.overrides, o.workspaceId = i.workspaceId → o ∈ s.overrides

/-- What a step does to the workspaces. -/
structure WorkspacesMove (s s' : Tables) : Prop where
  keyed : Keyed Workspace.id s.workspaces → Keyed Workspace.id s'.workspaces
  stamped : ∀ w' ∈ s'.workspaces, (∃ w ∈ s.workspaces, w.id = w'.id ∧
    w.updatedAt = w'.updatedAt) ∨ w'.updatedAt.reading = s.now

/-- What a step does to the intents, the overrides and the workspaces. -/
structure Moves (s s' : Tables) : Prop where
  keyed : Keyed ArchiveIntent.key s.intents → Keyed ArchiveIntent.key s'.intents
  kept : ∀ j ∈ s.intents, ∃ i ∈ s'.intents, i.key = j.key ∧ (j.acknowledged → i.acknowledged)
  intents : ∀ i ∈ s'.intents, i.acknowledged = false → Stays s s' i ∨ Later s'.overrides i ∨
    IsLegacy i ∧ ∃ w ∈ s.workspaces, w.id = i.workspaceId ∧ w.updatedAt = i.triggeredAt
  overrides : ∀ o ∈ s.overrides, ∃ o' ∈ s'.overrides, o'.workspaceId = o.workspaceId
  unarchived : ∀ o ∈ s'.overrides, o ∈ s.overrides ∨ o.unarchivedAt = s.now ∧
    ∃ pinned name, s.updateWorkspace o.workspaceId (some false) pinned name = some s'
  workspaces : WorkspacesMove s s'

/-- What a statement may do to an intent. -/
structure SameTrigger (i i' : ArchiveIntent) : Prop where
  key : i'.key = i.key
  rule : i'.rule = i.rule
  triggeredAt : i'.triggeredAt = i.triggeredAt
  acknowledged : i.acknowledged = true → i'.acknowledged = true

section Moves

variable {s s' : Tables} {p : ArchiveIntent → Bool} {f : ArchiveIntent → ArchiveIntent} {id : Uuid}
  {text : Stamp → String}

theorem SameTrigger.refl (i : ArchiveIntent) : SameTrigger i i := ⟨rfl, rfl, rfl, fun h => h⟩

theorem archivedAt_sameTrigger (archivedAt : Option Stamp) (i : ArchiveIntent) :
    SameTrigger i { i with archivedAt := archivedAt } :=
  ⟨rfl, rfl, rfl, fun h => h⟩

theorem acknowledged_sameTrigger (i : ArchiveIntent) :
    SameTrigger i { i with acknowledged := true } :=
  ⟨rfl, rfl, rfl, fun _ => rfl⟩

theorem exists_sameTrigger (hf : ∀ i, SameTrigger i (f i)) {i : ArchiveIntent}
    (hi : i ∈ update p f s.intents) : ∃ j ∈ s.intents, SameTrigger j i := by
  obtain ⟨j, hj, rfl⟩ := mem_update.1 hi
  refine ⟨j, hj, ?_⟩
  split
  · exact hf j
  · exact .refl j

theorem Moves.of_update (hf : ∀ i, SameTrigger i (f i))
    (hintents : s'.intents = update p f s.intents) (hoverrides : s'.overrides = s.overrides)
    (hw : WorkspacesMove s s') : Moves s s' := by
  refine ⟨?_, ?_, ?_, ?_, fun o ho => .inl (hoverrides ▸ ho), hw⟩
  · intro hkeyed
    rw [hintents]
    exact hkeyed.update fun i => (hf i).key
  · intro j hj
    rw [hintents]
    obtain ⟨i, hi, hsame⟩ := exists_update_of_mem (p := p) SameTrigger.refl (fun i _ => hf i) j hj
    exact ⟨i, hi, hsame.key, hsame.acknowledged⟩
  · intro i hi hack
    rw [hintents] at hi
    obtain ⟨j, hj, hsame⟩ := exists_sameTrigger hf hi
    have hfalse : j.acknowledged = false := by
      apply Bool.eq_false_iff.2
      intro htrue
      rw [hsame.acknowledged htrue] at hack
      cases hack
    refine .inl ⟨⟨j, hj, hfalse, hsame.key.symm, hsame.rule.symm, hsame.triggeredAt.symm⟩, ?_⟩
    intro o ho _
    rwa [hoverrides] at ho
  · intro o ho
    rw [hoverrides]
    exact ⟨o, ho, rfl⟩

theorem update_false {α : Type*} {g : α → α} (rows : List α) :
    update (fun _ => false) g rows = rows :=
  update_eq_self fun _ _ => rfl

theorem Moves.of_eq (hintents : s'.intents = s.intents) (hoverrides : s'.overrides = s.overrides)
    (hw : WorkspacesMove s s') : Moves s s' := by
  have hupdate : s'.intents = update (fun _ => false) (fun i => i) s.intents := by
    rw [update_false, hintents]
  exact Moves.of_update SameTrigger.refl hupdate hoverrides hw

/-- Where a statement writes `updated_at`, it writes the time. -/
theorem WorkspacesMove.of_update {q : Workspace → Bool} {g : Workspace → Workspace}
    (hw : s'.workspaces = update q g s.workspaces) (hid : ∀ w, (g w).id = w.id)
    (hnow : ∀ w, (g w).updatedAt.reading = s.now) : WorkspacesMove s s' := by
  refine ⟨?_, ?_⟩
  · intro hkeyed
    rw [hw]
    exact hkeyed.update hid
  · rw [hw]
    apply forall_mem_update
    · intro w _ _
      exact .inr (hnow w)
    · intro w hmem _
      exact .inl ⟨w, hmem, rfl, rfl⟩

theorem WorkspacesMove.refl (hw : s'.workspaces = s.workspaces) : WorkspacesMove s s' := by
  refine ⟨fun hkeyed => hw ▸ hkeyed, ?_⟩
  intro w hmem
  rw [hw] at hmem
  exact .inl ⟨w, hmem, rfl, rfl⟩

theorem Moves.elsewhere (hintents : s'.intents = s.intents)
    (hoverrides : s'.overrides = s.overrides) (hw : s'.workspaces = s.workspaces) : Moves s s' :=
  Moves.of_eq hintents hoverrides (.refl hw)

variable {name : Option String}

theorem create_moves (h : s.create id name = some s') : Moves s s' := by
  unfold create at h
  split_ifs at h with hany
  cases h
  refine Moves.of_eq rfl rfl ⟨?_, ?_⟩
  · intro hkeyed
    apply hkeyed.concat
    intro w hw heq
    exact hany (any_eq_true.2 ⟨w, hw, beq_iff_eq.2 heq⟩)
  · intro w hw
    rcases mem_append.1 hw with hw | hw
    · exact .inl ⟨w, hw, rfl, rfl⟩
    · obtain rfl := mem_singleton.1 hw
      exact .inr rfl

theorem tryArchive_moves {allowRemote : Bool} : Moves s (s.tryArchive text id allowRemote).1 := by
  unfold tryArchive
  dsimp only
  split_ifs
  · exact Moves.of_update (archivedAt_sameTrigger (some ⟨.utc, s.now⟩)) rfl rfl
      (.of_update rfl (fun _ => rfl) fun _ => rfl)
  · exact Moves.of_eq rfl rfl (.of_update rfl (fun _ => rfl) fun _ => rfl)

theorem recordArchiveIntent_moves {triggerKey rule : String} {triggeredAt : Instant}
    (h : s.recordArchiveIntent id triggerKey rule triggeredAt = some s') : Moves s s' := by
  unfold recordArchiveIntent at h
  split_ifs at h with hkey <;> cases h
  · exact Moves.elsewhere rfl rfl rfl
  · refine ⟨?_, ?_, ?_, fun o ho => ⟨o, ho, rfl⟩, fun o ho => .inl ho, .refl rfl⟩
    · intro hkeyed
      apply hkeyed.concat
      intro j hj heq
      exact hkey (any_eq_true.2 ⟨j, hj, beq_iff_eq.2 heq⟩)
    · intro j hj
      exact ⟨j, mem_append_left _ hj, rfl, fun h => h⟩
    · intro i hi hack
      rcases mem_append.1 hi with hi | hi
      · exact .inl ⟨⟨i, hi, hack, rfl, rfl, rfl⟩, fun o ho _ => ho⟩
      · obtain rfl := mem_singleton.1 hi
        have hall := any_eq_false.1 hack
        refine .inr (.inl fun o ho hid => ?_)
        have hnot := hall o ho
        have heq : (o.workspaceId == id) = true := beq_iff_eq.2 hid
        rw [heq, Bool.true_and] at hnot
        exact Bool.eq_false_iff.2 hnot

theorem recordLegacy_cases (s : Tables) (id : Uuid) : s.recordLegacy id = s.intents ∨
    ∃ w ∈ s.workspaces, w.id = id ∧ (∀ j ∈ s.intents, j.key ≠ (id, "legacy")) ∧
      s.recordLegacy id = s.intents ++
        [⟨id, "legacy", "legacy_archive_unknown", w.updatedAt, some w.updatedAt, false⟩] := by
  unfold recordLegacy
  split
  · rename_i w hfind
    obtain ⟨hw, hsel⟩ := find?_some hfind
    split_ifs with hopen hkey
    · exact .inl rfl
    · exact .inl rfl
    · refine .inr ⟨w, hw, beq_iff_eq.1 (Bool.and_eq_true_iff.1 hsel).1, ?_, rfl⟩
      intro j hj heq
      exact hkey (any_eq_true.2 ⟨j, hj, beq_iff_eq.2 heq⟩)
  · exact .inl rfl

theorem insertWakeup_moves {w : Wakeup} (h : s.insertWakeup w = .ok (some s')) : Moves s s' := by
  unfold insertWakeup at h
  split_ifs at h <;> cases h
  rcases recordLegacy_cases s w.workspaceId with hsame | ⟨v, hv, hid, hfresh, hlegacy⟩
  · exact Moves.of_eq hsame rfl (.of_update rfl (fun _ => rfl) fun _ => rfl)
  · refine ⟨?_, ?_, ?_, fun o ho => ⟨o, ho, rfl⟩, fun o ho => .inl ho,
      .of_update rfl (fun _ => rfl) fun _ => rfl⟩
    · intro hkeyed
      show Keyed _ (s.recordLegacy w.workspaceId)
      rw [hlegacy]
      exact hkeyed.concat hfresh
    · intro j hj
      refine ⟨j, ?_, rfl, fun h => h⟩
      show j ∈ s.recordLegacy w.workspaceId
      rw [hlegacy]
      exact mem_append_left _ hj
    · intro i hi hack
      replace hi : i ∈ s.recordLegacy w.workspaceId := hi
      rw [hlegacy] at hi
      rcases mem_append.1 hi with hi | hi
      · exact .inl ⟨⟨i, hi, hack, rfl, rfl, rfl⟩, fun o ho _ => ho⟩
      · obtain rfl := mem_singleton.1 hi
        exact .inr (.inr ⟨⟨rfl, rfl⟩, v, hv, hid, rfl⟩)

variable {o : ArchiveOverride} {pinned : Option Bool}

theorem upsertOverride_other (ho : o ∈ s.upsertOverride id)
    (hne : o.workspaceId ≠ id) : o ∈ s.overrides := by
  unfold upsertOverride at ho
  split_ifs at ho
  · obtain ⟨o', ho', rfl⟩ := mem_update.1 ho
    by_cases hid : (o'.workspaceId == id) = true
    · rw [if_pos hid] at hne
      exact absurd (beq_iff_eq.1 hid) hne
    · rwa [if_neg hid]
  · rcases mem_append.1 ho with ho | ho
    · exact ho
    · obtain rfl := mem_singleton.1 ho
      exact absurd rfl hne

theorem upsertOverride_self (ho : o ∈ s.upsertOverride id)
    (hid : o.workspaceId = id) : o.unarchivedAt = s.now := by
  unfold upsertOverride at ho
  split_ifs at ho with hany
  · obtain ⟨o', ho', rfl⟩ := mem_update.1 ho
    by_cases hid' : (o'.workspaceId == id) = true
    · rw [if_pos hid']
    · rw [if_neg hid'] at hid
      exact absurd (beq_iff_eq.2 hid) hid'
  · rcases mem_append.1 ho with ho | ho
    · exact absurd (any_eq_true.2 ⟨o, ho, by simpa using hid⟩) hany
    · obtain rfl := mem_singleton.1 ho
      rfl

theorem exists_upsertOverride (s : Tables) (id : Uuid) :
    ∃ o ∈ s.upsertOverride id, o.workspaceId = id := by
  unfold upsertOverride
  split_ifs with hany
  · obtain ⟨o, ho, hid⟩ := any_eq_true.1 hany
    exact ⟨_, mem_update_of ho hid, beq_iff_eq.1 hid⟩
  · exact ⟨_, mem_append_right _ (mem_singleton.2 rfl), rfl⟩

theorem mem_upsertOverride (ho : o ∈ s.overrides) :
    ∃ o' ∈ s.upsertOverride id, o'.workspaceId = o.workspaceId := by
  unfold upsertOverride
  split_ifs
  · refine ⟨_, mem_update_ite ho, ?_⟩
    split <;> rfl
  · exact ⟨o, mem_append_left _ ho, rfl⟩

/-- The manual unarchive acknowledges the intents of its workspace and leaves the others. -/
theorem unarchive_moves
    (h : s.updateWorkspace id (some false) pinned name = some s') : Moves s s' := by
  have hstep := h
  simp only [updateWorkspace] at h
  split_ifs at h
  cases h
  refine ⟨?_, ?_, ?_, ?_, ?_, ?_⟩
  · intro hkeyed
    exact hkeyed.update fun _ => rfl
  · intro j hj
    refine ⟨_, mem_update_ite hj, ?_⟩
    split
    · exact ⟨rfl, fun _ => rfl⟩
    · exact ⟨rfl, fun h => h⟩
  · intro i hi hack
    obtain ⟨j, hj, rfl⟩ := mem_update.1 hi
    by_cases hid : (j.workspaceId == id) = true
    · rw [if_pos hid] at hack
      cases hack
    · rw [if_neg hid] at hack ⊢
      refine .inl ⟨⟨j, hj, hack, rfl, rfl, rfl⟩, fun o ho heq => ?_⟩
      apply upsertOverride_other ho
      rw [heq]
      exact fun h => hid (beq_iff_eq.2 h)
  · exact fun o ho => mem_upsertOverride ho
  · intro o ho
    by_cases hid : o.workspaceId = id
    · exact .inr ⟨upsertOverride_self ho hid, pinned, name, hid ▸ hstep⟩
    · exact .inl (upsertOverride_other ho hid)
  · exact .of_update rfl (fun _ => rfl) fun _ => rfl

theorem updateWorkspace_moves {archived : Option Bool}
    (h : s.updateWorkspace id archived pinned name = some s') : Moves s s' := by
  match archived with
  | some false => exact unarchive_moves h
  | some true =>
    cases h
    exact Moves.of_update (archivedAt_sameTrigger (some ⟨.utc, s.now⟩)) rfl rfl
      (.of_update rfl (fun _ => rfl) fun _ => rfl)
  | none =>
    cases h
    exact Moves.of_eq rfl rfl (.of_update rfl (fun _ => rfl) fun _ => rfl)

theorem step_moves {a : Action} (h : s.step text a = some s') : Moves s s' := by
  cases a with
  | clock now | setDelivery id state | startProcess p | setProcess id status
  | createPr prUrl workspaceId | setPr prUrl status =>
    cases h
    exact Moves.elsewhere rfl rfl rfl
  | create id name => exact create_moves h
  | touch id worktreeDeleted form | setArchived id archived =>
    cases h
    exact Moves.of_eq rfl rfl (.of_update rfl (fun _ => rfl) fun _ => rfl)
  | recordArchiveIntent id triggerKey rule triggeredAt => exact recordArchiveIntent_moves h
  | acknowledgeArchiveIntent id triggerKey =>
    cases h
    exact Moves.of_update acknowledged_sameTrigger rfl rfl (.refl rfl)
  | update id archived pinned name => exact updateWorkspace_moves h
  | tryArchive id allowRemote =>
    cases h
    exact tryArchive_moves
  | insertWakeup w =>
    simp only [step] at h
    split at h <;> cases h
    exact insertWakeup_moves ‹_›
  | createSession id workspaceId =>
    simp only [step] at h
    split_ifs at h
    cases h
    exact Moves.elsewhere rfl rfl rfl

end Moves

/-! ## What holds since a manual unarchive -/

/-- The clock was read for the time `t` on the way from `s₁` to `s`. -/
def ReadSince (s₁ s : Tables) (t : Stamp) : Prop :=
  ∃ m, Runs (step text) anyStep s₁ m ∧ Runs (step text) anyStep m s ∧ t.reading = m.now

/-- The workspace `id` was unarchived in `s₁`, and `s` came later. -/
structure Since (s₁ : Tables) (id : Uuid) (s : Tables) : Prop where
  runs : Runs (step text) anyStep s₁ s
  overridden : ∃ o ∈ s.overrides, o.workspaceId = id
  kept : ∀ j ∈ s₁.intents, j.workspaceId = id →
    ∃ i ∈ s.intents, i.key = j.key ∧ i.acknowledged = true
  intents : ∀ i ∈ s.intents, i.workspaceId = id → i.acknowledged = false →
    Later s.overrides i ∨ IsLegacy i ∧ ReadSince text s₁ s i.triggeredAt
  workspaces : ∀ w ∈ s.workspaces, w.id = id → ReadSince text s₁ s w.updatedAt

section Since

variable {s s' s₁ : Tables} {id : Uuid} {text : Stamp → String}

theorem ReadSince.step {t : Stamp} {a : Action} (h : ReadSince text s₁ s t)
    (hstep : s.step text a = some s') : ReadSince text s₁ s' t := by
  obtain ⟨m, hbefore, hafter, hread⟩ := h
  exact ⟨m, hbefore, hafter.tail trivial hstep, hread⟩

theorem Since.unarchive {pinned : Option Bool} {name : Option String}
    (h : s.updateWorkspace id (some false) pinned name = some s') : Since text s' id s' := by
  simp only [updateWorkspace] at h
  split_ifs at h
  cases h
  refine ⟨Runs.refl, exists_upsertOverride s id, ?_, ?_, ?_⟩
  · intro j hj hid
    obtain ⟨i, hi, rfl⟩ := mem_update.1 hj
    refine ⟨_, hj, rfl, ?_⟩
    by_cases heq : (i.workspaceId == id) = true
    · rw [if_pos heq]
    · rw [if_neg heq] at hid
      exact absurd (beq_iff_eq.2 hid) heq
  · intro i hi hid hack
    obtain ⟨j, hj, rfl⟩ := mem_update.1 hi
    by_cases heq : (j.workspaceId == id) = true
    · rw [if_pos heq] at hack
      cases hack
    · rw [if_neg heq] at hid
      exact absurd (beq_iff_eq.2 hid) heq
  · intro w hw hid
    refine ⟨_, Runs.refl, Runs.refl, ?_⟩
    obtain ⟨v, hv, rfl⟩ := mem_update.1 hw
    by_cases heq : (v.id == id) = true
    · rw [if_pos heq]
      rfl
    · rw [if_neg heq] at hid
      exact absurd (beq_iff_eq.2 hid) heq

theorem Since.step {a : Action} (h : Since text s₁ id s)
    (hstep : Tables.step text s a = some s') : Since text s₁ id s' := by
  have hmoves := step_moves hstep
  have hruns := h.runs.tail trivial hstep
  refine ⟨hruns, ?_, ?_, ?_, ?_⟩
  · obtain ⟨o, ho, hid⟩ := h.overridden
    obtain ⟨o', ho', heq⟩ := hmoves.overrides o ho
    exact ⟨o', ho', heq.trans hid⟩
  · intro j hj hid
    obtain ⟨i, hi, hkey, hack⟩ := h.kept j hj hid
    obtain ⟨i', hi', hkey', hack'⟩ := hmoves.kept i hi
    exact ⟨i', hi', hkey'.trans hkey, hack' hack⟩
  · intro i hi hid hack
    rcases hmoves.intents i hi hack with ⟨⟨j, hj, hjack, hkey, hrule, hat⟩, hover⟩ | hlater |
      ⟨hlegacy, w, hw, hwid, hat⟩
    · -- the intent was there
      have hws : j.workspaceId = i.workspaceId := congrArg Prod.fst hkey
      have htrigger : j.triggerKey = i.triggerKey := congrArg Prod.snd hkey
      rcases h.intents j hj (hws.trans hid) hjack with hlater | ⟨⟨hlegacy, hlrule⟩, hread⟩
      · left
        intro o ho ho'
        rw [← hat]
        exact hlater o (hover o ho ho') (ho'.trans hws.symm)
      · right
        refine ⟨⟨htrigger.symm.trans hlegacy, hrule.symm.trans hlrule⟩, ?_⟩
        rw [← hat]
        exact hread.step hstep
    · exact .inl hlater
    · -- a wake-up recorded it
      right
      refine ⟨hlegacy, ?_⟩
      rw [← hat]
      exact (h.workspaces w hw (hwid.trans hid)).step hstep
  · intro w' hw' hid
    rcases hmoves.workspaces.stamped w' hw' with ⟨w, hw, hwid, hat⟩ | hnow
    · rw [← hat]
      exact (h.workspaces w hw (hwid.trans hid)).step hstep
    · exact ⟨s, h.runs, Runs.refl.tail trivial hstep, hnow⟩

theorem Since.of_runs (h : Since text s₁ id s) (hruns : Runs (Tables.step text) anyStep s s') :
    Since text s₁ id s' :=
  hruns.preserves (fun _ _ _ h _ hstep => h.step hstep) h

end Since

/-! ## Keys, and the last manual unarchive -/

section Reachable

variable {s s' : Tables} {id : Uuid} {text : Stamp → String}

/-- The primary keys. -/
structure Unique (s : Tables) : Prop where
  workspaces : Keyed Workspace.id s.workspaces
  intents : Keyed ArchiveIntent.key s.intents

theorem unique_of_reachable (h : Reachable (step text) anyStep Initial s) : s.Unique := by
  refine h.invariant ?_ ?_
  · intro s h
    refine ⟨h.workspaces, ?_⟩
    rw [h.intents]
    exact Keyed.nil
  · intro s a s' hunique _ hstep
    have hmoves := step_moves hstep
    exact ⟨hmoves.workspaces.keyed hunique.workspaces, hmoves.keyed hunique.intents⟩

/-- The override `o` was written by the last manual unarchive of its workspace. -/
def LastUnarchive (text : Stamp → String) (s : Tables) (o : ArchiveOverride) : Prop :=
  ∃ s₀ s₁ pinned name, Reachable (step text) anyStep Initial s₀ ∧
    s₀.updateWorkspace o.workspaceId (some false) pinned name = some s₁ ∧
    Runs (step text) (fun _ a => isUnarchive o.workspaceId a = false) s₁ s ∧
    o.unarchivedAt = s₀.now

theorem unarchivedAt_eq {pinned : Option Bool} {name : Option String} {o : ArchiveOverride}
    (h : s.updateWorkspace id (some false) pinned name = some s') (ho : o ∈ s'.overrides)
    (hid : o.workspaceId = id) : o.unarchivedAt = s.now := by
  simp only [updateWorkspace] at h
  split_ifs at h
  cases h
  exact upsertOverride_self ho hid

theorem isUnarchive_iff {a : Action} :
    isUnarchive id a = true ↔ ∃ pinned name, a = .update id (some false) pinned name := by
  constructor
  · intro h
    unfold isUnarchive at h
    split at h
    · obtain rfl := beq_iff_eq.1 h
      exact ⟨_, _, rfl⟩
    · cases h
  · rintro ⟨pinned, name, rfl⟩
    exact beq_self_eq_true id

theorem lastUnarchive_of_reachable (h : Reachable (step text) anyStep Initial s) :
    ∀ o ∈ s.overrides, LastUnarchive text s o := by
  have hall : Reachable (step text) anyStep Initial s ∧
      ∀ o ∈ s.overrides, LastUnarchive text s o := by
    apply h.invariant (P := fun s => Reachable (step text) anyStep Initial s ∧
      ∀ o ∈ s.overrides, LastUnarchive text s o)
    · intro s hinit
      refine ⟨.start hinit, fun o ho => ?_⟩
      rw [hinit.overrides] at ho
      cases ho
    · intro s a s' ⟨hreach, hlast⟩ _ hstep
      refine ⟨hreach.next trivial hstep, fun o ho => ?_⟩
      by_cases hun : isUnarchive o.workspaceId a = true
      · obtain ⟨pinned, name, rfl⟩ := isUnarchive_iff.1 hun
        exact ⟨s, s', pinned, name, hreach, hstep, Runs.refl, unarchivedAt_eq hstep ho rfl⟩
      · rcases (step_moves hstep).unarchived o ho with hold | ⟨hnow, pinned, name, hstep'⟩
        · obtain ⟨s₀, s₁, pinned, name, hreach₀, hstep₀, hruns, hnow⟩ := hlast o hold
          exact ⟨s₀, s₁, pinned, name, hreach₀, hstep₀,
            hruns.tail (Bool.eq_false_iff.2 hun) hstep, hnow⟩
        · exact ⟨s, s', pinned, name, hreach, hstep', Runs.refl, hnow⟩
  exact hall.2

end Reachable

/-! ## The automatic archive -/

section TryArchive

variable {s s' : Tables} {id : Uuid} {text : Stamp → String} {allowRemote : Bool}

theorem attributed_mem {i : ArchiveIntent} (h : s.attributed text id allowRemote = some i) :
    i ∈ s.intents ∧ i.workspaceId = id ∧ s.eligibleIntent allowRemote i = true := by
  have hmem := (mem_insertionSort _).1 (mem_of_head? h)
  obtain ⟨hi, hsel⟩ := mem_filter.1 hmem
  obtain ⟨hid, heligible⟩ := Bool.and_eq_true_iff.1 hsel
  exact ⟨hi, beq_iff_eq.1 hid, heligible⟩

theorem exists_attributed (text : Stamp → String) (h : ∃ i ∈ s.intents, i.workspaceId = id ∧
    s.eligibleIntent allowRemote i = true) : ∃ i, s.attributed text id allowRemote = some i := by
  obtain ⟨i, hi, hid, heligible⟩ := h
  have hmem : i ∈ (s.intents.filter fun i => i.workspaceId == id &&
      s.eligibleIntent allowRemote i).insertionSort (Before text) := by
    apply (mem_insertionSort _).2
    exact mem_filter.2 ⟨hi, Bool.and_eq_true_iff.2 ⟨beq_iff_eq.2 hid, heligible⟩⟩
  exact Option.isSome_iff_exists.1 (isSome_head?.2 (ne_nil_of_mem hmem))

/-- What `try_archive_with_remote_intents` checks. -/
structure Admitted (s : Tables) (id : Uuid) (allowRemote : Bool) : Prop where
  workspace : ∃ w ∈ s.workspaces, w.id = id ∧ w.archived = false ∧ w.pinned = false
  processes : ∀ p ∈ s.processes, s.sessions p.sessionId = some id → p.status = .running →
    p.runReason ≠ .codingAgent ∧
      (p.runReason = .backgroundHelper → isPoller p.executorAction = false)
  wakeups : ∀ v ∈ s.wakeups, v.workspaceId = id → ∀ d ∈ s.deliveries, d.commentId = v.id →
    d.state ≠ .pending ∧ d.state ≠ .dispatching
  intent : ∃ i ∈ s.intents, i.workspaceId = id ∧ s.eligibleIntent allowRemote i = true

theorem Admitted.of_admits {w : Workspace} (hw : w ∈ s.workspaces)
    (h : s.admits id allowRemote w = true) : Admitted s id allowRemote := by
  simp only [admits, Bool.and_eq_true, beq_iff_eq, Bool.not_eq_true', any_eq_true] at h
  obtain ⟨⟨⟨⟨⟨rfl, harchived⟩, hpinned⟩, hintent⟩, hrunning⟩, hwakeup⟩ := h
  refine ⟨⟨w, hw, rfl, harchived, hpinned⟩, ?_, ?_, hintent⟩
  · intro p hp hsession hrun
    have hnot := any_eq_false.1 hrunning p hp
    simp only [hsession, beq_self_eq_true, Bool.true_and, ExecutionProcess.holds, hrun,
      decide_true, Bool.or_eq_true, decide_eq_true_eq, Bool.and_eq_true, not_or, not_and,
      Bool.not_eq_true] at hnot
    exact hnot
  · intro v hv hid d hd hcomment
    have hnot := any_eq_false.1 hwakeup v hv
    have hopen : ¬ Schedule.isOpen d.state = true := by
      intro hopen
      apply hnot
      refine Bool.and_eq_true_iff.2 ⟨beq_iff_eq.2 hid, any_eq_true.2 ⟨d, hd, ?_⟩⟩
      exact Bool.and_eq_true_iff.2 ⟨beq_iff_eq.2 hcomment, hopen⟩
    simp only [Schedule.isOpen, Bool.or_eq_true, decide_eq_true_eq, not_or] at hopen
    exact hopen

theorem update_attributed {f : ArchiveIntent → ArchiveIntent} {i : ArchiveIntent}
    (hunique : s.Unique) (hi : i ∈ s.intents) (hid : i.workspaceId = id)
    (hattributed : s.attributed text id allowRemote = some i) :
    update (fun j => j.workspaceId == id &&
      (s.attributed text id allowRemote).map ArchiveIntent.triggerKey == some j.triggerKey) f
      s.intents = update (fun j => j = i) f s.intents := by
  have hiff : ∀ j ∈ s.intents, (j.workspaceId == id &&
      (s.attributed text id allowRemote).map ArchiveIntent.triggerKey == some j.triggerKey) =
      decide (j = i) := by
    intro j hj
    rw [hattributed, Option.map_some, Bool.eq_iff_iff, Bool.and_eq_true, decide_eq_true_eq]
    constructor
    · rintro ⟨hjid, hkey⟩
      have hkey' : i.triggerKey = j.triggerKey := Option.some.inj (beq_iff_eq.1 hkey)
      apply hunique.intents.eq hj hi
      show (j.workspaceId, j.triggerKey) = (i.workspaceId, i.triggerKey)
      rw [hkey', beq_iff_eq.1 hjid, hid]
    · rintro rfl
      exact ⟨beq_iff_eq.2 hid, beq_self_eq_true _⟩
  apply map_congr_left
  intro j hj
  by_cases heq : j = i
  · have hsel := (hiff j hj).trans (decide_eq_true heq)
    exact (if_pos hsel).trans (if_pos (decide_eq_true heq)).symm
  · have hsel := (hiff j hj).trans (decide_eq_false heq)
    exact (if_neg (Bool.eq_false_iff.1 hsel)).trans
      (if_neg (Bool.eq_false_iff.1 (decide_eq_false heq))).symm

theorem tryArchive_true (hunique : s.Unique) (h : s.tryArchive text id allowRemote = (s', true)) :
    Admitted s id allowRemote ∧ ∃ i ∈ s.intents, i.workspaceId = id ∧
      s.eligibleIntent allowRemote i = true ∧
      s'.intents = update (fun j => j = i) (fun j => { j with archivedAt := some ⟨.utc, s.now⟩ })
        s.intents := by
  unfold tryArchive at h
  dsimp only at h
  split_ifs at h with haffected
  · obtain ⟨w, hw, hadmits⟩ : ∃ w ∈ s.workspaces, s.admits id allowRemote w = true := by
      apply countP_pos_iff.1
      unfold affected at haffected
      omega
    have hadmitted := Admitted.of_admits hw hadmits
    obtain ⟨i, hattributed⟩ := exists_attributed text hadmitted.intent
    obtain ⟨hi, hid, heligible⟩ := attributed_mem hattributed
    refine ⟨hadmitted, i, hi, hid, heligible, ?_⟩
    cases h
    exact update_attributed (s := s) hunique hi hid hattributed
  · exact absurd (congrArg Prod.snd h) Bool.false_ne_true

theorem tryArchive_false (hunique : s.Unique)
    (h : s.tryArchive text id allowRemote = (s', false)) : s' = s := by
  unfold tryArchive at h
  dsimp only at h
  split_ifs at h with haffected
  · exact absurd (congrArg Prod.snd h) (by simp)
  · cases h
    have hle := affected_le_one (p := s.admits id allowRemote) hunique.workspaces (k := id) ?_
    · have hnone : update (s.admits id allowRemote)
          (fun w => { w with archived := true, updatedAt := ⟨.subsec, s.now⟩ }) s.workspaces =
          s.workspaces := by
        apply update_eq_self
        have hzero : s.workspaces.countP (s.admits id allowRemote) = 0 := by
          unfold affected at haffected hle
          omega
        intro w hw
        exact Bool.eq_false_iff.2 (countP_eq_zero.1 hzero w hw)
      rw [hnone]
    · intro w hw
      simp only [admits, Bool.and_eq_true, beq_iff_eq] at hw
      exact hw.1.1.1.1.1

end TryArchive

/-! ## Admission over runs -/

theorem julianday_mono {t' u' : ℤ} (ht : julianday t = some t')
    (hu : julianday u = some u') (h : t ≤ u) : t' ≤ u' := by
  unfold julianday at ht hu
  dsimp only at ht hu
  split_ifs at ht hu
  cases ht
  cases hu
  have hms : (t + 500000) / 1000000 ≤ (u + 500000) / 1000000 :=
    Int.ediv_le_ediv (by decide) (Int.add_le_add_right h 500000)
  exact Int.add_le_add_right hms _

/-- Of two dates that SQLite reads, the one that is not covered is later. -/
theorem lt_of_not_covers (h : covers u t = false) (ht : (julianday t).isSome)
    (hu : (julianday u).isSome) : u < t := by
  obtain ⟨t', ht'⟩ := Option.isSome_iff_exists.1 ht
  obtain ⟨u', hu'⟩ := Option.isSome_iff_exists.1 hu
  by_contra hle
  have hmono := julianday_mono ht' hu' (Int.not_lt.1 hle)
  unfold covers at h
  rw [ht', hu'] at h
  exact absurd hmono (of_decide_eq_false h)

/-- The intent was recorded after the manual unarchive that led from `s₀` to `s₁`. -/
structure RecordedAfter (text : Stamp → String) (s₀ s₁ s : Tables) (i : ArchiveIntent) : Prop where
  fresh : ∀ j ∈ s₀.intents, j.key ≠ i.key
  /-- it was triggered after the last manual unarchive; or a wake-up recorded it, with an
      `updated_at` since this manual unarchive -/
  later : (∃ o ∈ s.overrides, o.workspaceId = i.workspaceId ∧
      covers o.unarchivedAt i.triggeredAt.instant = false) ∨
    IsLegacy i ∧ ReadSince text s₁ s i.triggeredAt
  /-- where it was triggered at or before this manual unarchive, a later one has stored an earlier
      time -/
  not_before : (julianday i.triggeredAt.instant).isSome → i.triggeredAt.instant ≤ s₀.now →
    ¬ IsLegacy i → ∃ o ∈ s.overrides, o.workspaceId = i.workspaceId ∧
      ((julianday o.unarchivedAt).isSome → o.unarchivedAt < s₀.now)

theorem recordedAfter_of_since {text : Stamp → String} {s₀ s₁ s : Tables} {id : Uuid}
    (hunique : s.Unique) (hkept : ∀ j ∈ s₀.intents, ∃ i ∈ s₁.intents, i.key = j.key)
    (hsince : Since text s₁ id s) {i : ArchiveIntent} (hi : i ∈ s.intents)
    (hid : i.workspaceId = id) (hack : i.acknowledged = false) : RecordedAfter text s₀ s₁ s i := by
  have hlater : (∃ o ∈ s.overrides, o.workspaceId = i.workspaceId ∧
      covers o.unarchivedAt i.triggeredAt.instant = false) ∨
      IsLegacy i ∧ ReadSince text s₁ s i.triggeredAt := by
    obtain ⟨o, ho, hoid⟩ := hsince.overridden
    rcases hsince.intents i hi hid hack with hlater | hlegacy
    · exact .inl ⟨o, ho, hoid.trans hid.symm, hlater o ho (hoid.trans hid.symm)⟩
    · exact .inr hlegacy
  refine ⟨?_, hlater, ?_⟩
  · intro j hj hkey
    obtain ⟨j', hj', hkey'⟩ := hkept j hj
    have hjid : j'.workspaceId = id := (congrArg Prod.fst (hkey'.trans hkey)).trans hid
    obtain ⟨j'', hj'', hkey'', hack''⟩ := hsince.kept j' hj' hjid
    have heq := hunique.intents.eq hj'' hi (hkey''.trans (hkey'.trans hkey))
    rw [heq, hack] at hack''
    exact Bool.noConfusion hack''
  · intro hdate hle hnot
    rcases hlater with ⟨o, ho, hoid, hcovers⟩ | ⟨hlegacy, -⟩
    · refine ⟨o, ho, hoid, fun ho' => ?_⟩
      exact Int.lt_of_lt_of_le (lt_of_not_covers hcovers hdate ho') hle
    · exact absurd hlegacy hnot

/-- An automatic archive succeeds only in a state that `Admitted` describes, and it writes
    `archived_at` to one intent that is eligible; and whatever follows a manual unarchive, an intent
    that is not acknowledged was recorded after it. -/
theorem archive_admission (text : Stamp → String) {s : Tables}
    (h : Reachable (step text) anyStep Initial s) (id : Uuid) :
    (∀ allowRemote s', s.tryArchive text id allowRemote = (s', true) →
      Admitted s id allowRemote ∧ ∃ i ∈ s.intents, i.workspaceId = id ∧
        s.eligibleIntent allowRemote i = true ∧ s'.intents = update (fun j => j = i)
          (fun j => { j with archivedAt := some ⟨.utc, s.now⟩ }) s.intents) ∧
    (∀ allowRemote s', s.tryArchive text id allowRemote = (s', false) → s' = s) ∧
    (∀ o ∈ s.overrides, LastUnarchive text s o) ∧
    ∀ pinned name s₁, s.updateWorkspace id (some false) pinned name = some s₁ →
      ∀ s₂, Runs (step text) anyStep s₁ s₂ → ∀ i ∈ s₂.intents, i.workspaceId = id →
        i.acknowledged = false → RecordedAfter text s s₁ s₂ i := by
  have hunique := unique_of_reachable h
  refine ⟨fun _ _ => tryArchive_true hunique, fun _ _ => tryArchive_false hunique,
    lastUnarchive_of_reachable h, ?_⟩
  intro pinned name s₁ hstep s₂ hruns i hi hid hack
  have hstep' : step text s (.update id (some false) pinned name) = some s₁ := hstep
  have hreach := (h.next trivial hstep').runs hruns
  refine recordedAfter_of_since (unique_of_reachable hreach) ?_
    ((Since.unarchive hstep).of_runs hruns) hi hid hack
  intro j hj
  obtain ⟨i, hi, hkey, -⟩ := (unarchive_moves hstep).kept j hj
  exact ⟨i, hi, hkey⟩

def empty : Tables := ⟨0, [], [], [], fun _ => none, [], [], [], []⟩

theorem initial_empty : Initial empty := ⟨Keyed.nil, rfl, rfl⟩

/-- A merge that is recorded after a manual unarchive, and archives the workspace. -/
theorem archive_admission_merged : ∃ s s₁ s₂ : Tables,
    s.updateWorkspace 1 (some false) none none = some s₁ ∧
    (s₂.tryArchive (fun t => toString t.reading) 1 false).2 = true ∧ Admitted s₂ 1 false ∧
    ∃ i ∈ s₂.intents, i.triggerKey = "merge" ∧
      RecordedAfter (fun t => toString t.reading) s s₁ s₂ i := by
  have hexec : ((exec (step fun t => toString t.reading) anyStep empty
      [.clock 1000000, .create 1 none]).bind fun s =>
        (s.updateWorkspace 1 (some false) none none).bind fun s₁ =>
          (exec (step fun t => toString t.reading) anyStep s₁
            [.clock 3000000, .recordArchiveIntent 1 "merge" "pr_merged" 3000000]).map fun s₂ =>
              decide ((s₂.tryArchive (fun t => toString t.reading) 1 false).2 = true ∧
                ∃ i ∈ s₂.intents, i.triggerKey = "merge" ∧ i.workspaceId = 1 ∧
                  i.acknowledged = false)) = some true := by
    decide +kernel
  obtain ⟨s, hs, hrest⟩ := Option.bind_eq_some_iff.1 hexec
  obtain ⟨s₁, hs₁, hrest⟩ := Option.bind_eq_some_iff.1 hrest
  obtain ⟨s₂, hs₂, hend⟩ := Option.map_eq_some_iff.1 hrest
  obtain ⟨harchive, i, hi, hkey, hid, hack⟩ := of_decide_eq_true hend
  have hreach := reachable_of_exec initial_empty hs
  have hruns := runs_of_exec hs₂
  have hstep : step (fun t => toString t.reading) s (.update 1 (some false) none none) = some s₁ :=
    hs₁
  obtain ⟨-, -, -, hrecorded⟩ := archive_admission _ hreach 1
  obtain ⟨hadmitted, -⟩ := archive_admission _ ((hreach.next trivial hstep).runs hruns) 1
  exact ⟨s, s₁, s₂, hs₁, harchive, (hadmitted false _ (Prod.ext rfl harchive)).1, i, hi, hkey,
    hrecorded none none s₁ hs₁ s₂ hruns i hi hid hack⟩

/-- A workspace that is unarchived by hand at 10.7 s and archived again at 10.75 s, and whose
    worktree is restored in the same second. -/
def rearchived : List Action :=
  [.clock 10700000000, .create 1 none, .createSession 2 1, .update 1 (some false) none none,
    .clock 10750000000, .setArchived 1 true, .clock 10800000000, .touch 1 (some false) .seconds,
    .insertWakeup ⟨3, 1, 2, 20, "continue", none, none, none, 10⟩, .setDelivery 3 .delivered]

/-- Once its wake-up is delivered, it is archived by an intent that was triggered, by its time,
    before the manual unarchive. -/
theorem legacy_before_unarchive :
    ∃ s, Reachable (step fun t => toString t.reading) anyStep Initial s ∧
      (s.tryArchive (fun t => toString t.reading) 1 true).2 = true ∧ s.intents ≠ [] ∧
      s.overrides = [⟨1, 10700000000⟩] ∧ ∀ i ∈ s.intents, i.triggeredAt.instant < 10700000000 := by
  have hexec : (exec (step fun t => toString t.reading) anyStep empty rearchived).map
      (fun s => decide ((s.tryArchive (fun t => toString t.reading) 1 true).2 = true ∧
        s.intents ≠ [] ∧ s.overrides = [⟨1, 10700000000⟩] ∧
        ∀ i ∈ s.intents, i.triggeredAt.instant < 10700000000)) = some true := by
    decide +kernel
  obtain ⟨s, hs, hdecide⟩ := Option.map_eq_some_iff.1 hexec
  exact ⟨s, reachable_of_exec initial_empty hs, of_decide_eq_true hdecide⟩

end Tables

end VibeKanban.Workspaces

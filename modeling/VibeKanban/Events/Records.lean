import VibeKanban.Lib.Cut
import VibeKanban.Workspaces.Archive

/-!
# The rows behind the event streams (`db/src/models`)

The four tables with hooks (`HookTables`, `services/events/types.rs`, line 25) are one list of rows,
each with its `rowid`; a row is looked up by its `rowid` or by its key. A workspace is shown with
two flags computed from the processes of its sessions (`workspace.rs`, lines 1145-1342).

* `content_rename`: naming a workspace changes nothing else.
-/

namespace VibeKanban.Events

open Coordinator Lib Workspaces
open Delivery (Text isWhitespace)

abbrev Uuid := ℕ

abbrev Instant := ℕ

/-! ## Records -/

/-- A row of `workspaces`; the columns that nothing here reads are `columns`. -/
structure Workspace where
  id : Uuid
  archived : Bool
  name : Option Text
  updatedAt : Instant
  columns : Text
  deriving DecidableEq

/-- `ExecutorActionField`: what `extract_first_prompt_from_executor_action` walks through. -/
inductive ExecutorAction where
  /-- A request with a prompt: initial, follow-up or review. -/
  | request (prompt : Text)
  | script
  | scriptThen (nextAction : ExecutorAction)
  /-- `ExecutorActionField::Other`. -/
  | other
  deriving DecidableEq

/-- `extract_first_prompt_from_executor_action`. -/
def ExecutorAction.extractFirstPrompt : ExecutorAction → Option Text
  | .request prompt => some prompt
  | .script => none
  | .scriptThen next => next.extractFirstPrompt
  | .other => none

/-- A row of `execution_processes`. -/
structure ExecutionProcess where
  id : Uuid
  sessionId : Uuid
  runReason : RunReason
  executorAction : ExecutorAction
  status : ExecutionProcessStatus
  dropped : Bool
  createdAt : Instant
  columns : Text
  deriving DecidableEq

/-- `ScratchType`, the tags of `ScratchPayload` (`scratch.rs`, line 312). -/
inductive ScratchType where
  | draftTask
  | draftFollowUp
  | draftWorkspace
  | draftIssue
  | previewSettings
  | workspaceNotes
  | uiPreferences
  | projectRepoDefaults
  deriving DecidableEq

/-- A row of `scratch`; `columns` holds the data of the payload and the times. -/
structure Scratch where
  id : Uuid
  scratchType : ScratchType
  columns : Text
  deriving DecidableEq

/-- A row of `browser_sessions`. -/
structure BrowserSession where
  id : Uuid
  workspaceId : Uuid
  columns : Text
  deriving DecidableEq

/-- A row of `sessions`, which has no hooks. -/
structure Session where
  id : Uuid
  workspaceId : Uuid
  createdAt : Instant

/-- `HookTables` (`types.rs`, line 25). -/
inductive HookTables where
  | workspaces
  | executionProcesses
  | scratch
  | browserSessions
  deriving DecidableEq

/-- `RecordTypes` (`types.rs`, line 38), the records that are there. -/
inductive RecordTypes where
  | workspace (workspace : Workspace)
  | executionProcess (process : ExecutionProcess)
  | scratch (scratch : Scratch)
  | browserSession (session : BrowserSession)

/-- The primary keys of the four tables. -/
inductive Key where
  | workspaces (id : Uuid)
  | executionProcesses (id : Uuid)
  | scratch (id : Uuid) (scratchType : ScratchType)
  | browserSessions (id : Uuid)
  deriving DecidableEq

namespace RecordTypes

def table : RecordTypes → HookTables
  | workspace _ => .workspaces
  | executionProcess _ => .executionProcesses
  | scratch _ => .scratch
  | browserSession _ => .browserSessions

def key : RecordTypes → Key
  | workspace w => .workspaces w.id
  | executionProcess p => .executionProcesses p.id
  | scratch s => .scratch s.id s.scratchType
  | browserSession b => .browserSessions b.id

/-- The session of a process and the workspace of a browser session, which no statement changes. -/
def owner : RecordTypes → Option Uuid
  | workspace _ => none
  | executionProcess p => some p.sessionId
  | scratch _ => none
  | browserSession b => some b.workspaceId

def workspace? : RecordTypes → Option Workspace
  | workspace w => some w
  | _ => none

def executionProcess? : RecordTypes → Option ExecutionProcess
  | executionProcess p => some p
  | _ => none

def scratch? : RecordTypes → Option Scratch
  | scratch s => some s
  | _ => none

def browserSession? : RecordTypes → Option BrowserSession
  | browserSession b => some b
  | _ => none

end RecordTypes

structure Row where
  rowid : ℤ
  record : RecordTypes

def Row.key (row : Row) : Key := row.record.key

/-- What `rowid` is unique with. -/
def Row.place (row : Row) : HookTables × ℤ := (row.record.table, row.rowid)

structure Database where
  rows : List Row
  sessions : List Session

structure WorkspaceWithStatus where
  workspace : Workspace
  isRunning : Bool
  isErrored : Bool
  deriving DecidableEq

/-- What the streams carry of a row. -/
inductive Content where
  | workspace (workspace : WorkspaceWithStatus)
  | executionProcess (process : ExecutionProcess)
  | scratch (scratch : Scratch)
  | browserSession (session : BrowserSession)
  deriving DecidableEq

/-- The record of a content, without the flags of a workspace. -/
def Content.record : Content → RecordTypes
  | workspace w => .workspace w.workspace
  | executionProcess p => .executionProcess p
  | scratch s => .scratch s
  | browserSession b => .browserSession b

def Content.key (c : Content) : Key := c.record.key

/-! ## Queries -/

namespace Database

variable (d : Database)

/-- `find_by_rowid` of the four models. -/
def findByRowid (table : HookTables) (rowid : ℤ) : Option RecordTypes :=
  (d.rows.find? fun row => row.place = (table, rowid)).map Row.record

def find (k : Key) : Option Row := d.rows.find? fun row => row.key = k

def executionProcesses : List ExecutionProcess :=
  d.rows.filterMap fun row => row.record.executionProcess?

def processesOf (workspaceId : Uuid) : List (Session × ExecutionProcess) :=
  (d.sessions.filter fun s => s.workspaceId = workspaceId).flatMap fun s =>
    (d.executionProcesses.filter fun p => p.sessionId = s.id).map fun p => (s, p)

/-- `ep.run_reason IN ('setupscript','cleanupscript','codingagent')`. -/
def countsForStatus : RunReason → Bool
  | .setupScript | .cleanupScript | .codingAgent => true
  | _ => false

/-- `is_running` and `is_errored` of the query (lines 1274-1294). -/
def withStatus (w : Workspace) : WorkspaceWithStatus :=
  let processes := ((d.processesOf w.id).map Prod.snd).filter fun p => countsForStatus p.runReason
  { workspace := w
    isRunning := processes.any fun p => p.status = .running
    isErrored :=
      match (processes.insertionSort fun p q => q.createdAt ≤ p.createdAt).head? with
      | some p => p.status = .failed || p.status = .killed
      | none => false }

/-- The query of `find_by_id_with_status`. -/
def findByIdWithStatus (id : Uuid) : Option WorkspaceWithStatus :=
  (d.find (.workspaces id)).bind fun row => row.record.workspace?.map d.withStatus

def getFirstUserMessage (workspaceId : Uuid) : Option Text :=
  ((d.processesOf workspaceId).insertionSort fun a b =>
    a.1.createdAt < b.1.createdAt ∨
      a.1.createdAt = b.1.createdAt ∧ a.2.createdAt ≤ b.2.createdAt).findSome? fun a =>
        a.2.executorAction.extractFirstPrompt

def contentOf : RecordTypes → Content
  | .workspace w => .workspace (d.withStatus w)
  | .executionProcess p => .executionProcess p
  | .scratch s => .scratch s
  | .browserSession b => .browserSession b

def content (k : Key) : Option Content := (d.find k).map fun row => d.contentOf row.record

/-- `ExecutionProcess::find_by_session_id`; the order is not kept by the map that is sent. -/
def findBySessionId (sessionId : Uuid) (showSoftDeleted : Bool) : List ExecutionProcess :=
  d.executionProcesses.filter fun p => p.sessionId = sessionId && (showSoftDeleted || !p.dropped)

/-- `Scratch::find_by_id`. -/
def findScratch (id : Uuid) (scratchType : ScratchType) : Option Scratch :=
  (d.find (.scratch id scratchType)).bind fun row => row.record.scratch?

def workspaces : List Workspace := d.rows.filterMap fun row => row.record.workspace?

/-- The query of `find_all_with_status` (lines 1145-1227), before workspaces are named. -/
def findAllWithStatus (archived : Option Bool) (limit : Option ℕ) : List WorkspaceWithStatus :=
  let sorted := d.workspaces.insertionSort fun a b => b.updatedAt ≤ a.updatedAt
  let selected := (sorted.map d.withStatus).filter fun w => archived.all (· == w.workspace.archived)
  match limit with
  | none => selected
  | some n => selected.take n

/-- `BrowserSession::find_by_workspace` with `include_closed`. -/
def findByWorkspace (workspaceId : Uuid) : List BrowserSession :=
  (d.rows.filterMap fun row => row.record.browserSession?).filter fun b =>
    b.workspaceId = workspaceId

end Database

/-! ## Names for workspaces -/

def workspaceNameMaxLen : ℕ := 60

/-- `truncate_to_name`; `rfind` is the last blank of the part that is kept. -/
def truncateToName (prompt : Text) (maxLen : ℕ) : Text :=
  let trimmed := trim isWhitespace prompt
  if trimmed.length ≤ maxLen then trimmed
  else
    let truncated := trimmed.take maxLen
    if ' ' ∈ truncated then ((truncated.reverse.dropWhile (· ≠ ' ')).drop 1).reverse ++ "...".toList
    else truncated ++ "...".toList

/-- `Workspace::update(id, None, None, Some(name))`: an empty name is stored as `NULL`. -/
def RecordTypes.named (id : Uuid) (name : Text) (now : Instant) : RecordTypes → RecordTypes
  | .workspace w =>
    if w.id = id then
      .workspace { w with name := if name = [] then none else some name, updatedAt := now }
    else .workspace w
  | record => record

def Row.named (id : Uuid) (name : Text) (now : Instant) (row : Row) : Row :=
  { row with record := row.record.named id name now }

def Database.rename (d : Database) (id : Uuid) (name : Text) (now : Instant) : Database :=
  { d with rows := d.rows.map (Row.named id name now) }

/-! ## Rows and contents -/

variable {d : Database} {k : Key} {c : Content} {row : Row} {record : RecordTypes} {id : Uuid}
  {table : HookTables} {rowid : ℤ}

@[simp] theorem Database.record_contentOf : (d.contentOf record).record = record := by
  cases record <;> rfl

@[simp] theorem Database.key_contentOf : (d.contentOf record).key = record.key := by
  rw [Content.key, Database.record_contentOf]

/-- The two unique columns. -/
structure Database.Sound (d : Database) : Prop where
  keys : Keyed Row.key d.rows
  places : Keyed Row.place d.rows

namespace Database

theorem find_eq_some (h : d.find k = some row) : row ∈ d.rows ∧ row.key = k := by
  obtain ⟨hmem, hk⟩ := find?_some h
  exact ⟨hmem, of_decide_eq_true hk⟩

theorem Sound.find (h : d.Sound) (hrow : row ∈ d.rows) : d.find row.key = some row :=
  h.keys.find?_eq (fun _ ha => of_decide_eq_true ha) hrow (decide_eq_true rfl)

theorem Sound.content (h : d.Sound) (hrow : row ∈ d.rows) :
    d.content row.key = some (d.contentOf row.record) := by
  rw [Database.content, h.find hrow]
  rfl

theorem content_eq_some (h : d.content k = some c) :
    ∃ row ∈ d.rows, row.key = k ∧ d.contentOf row.record = c := by
  obtain ⟨row, hfind, hc⟩ := Option.map_eq_some_iff.1 h
  obtain ⟨hmem, hk⟩ := find_eq_some hfind
  exact ⟨row, hmem, hk, hc⟩

theorem content_eq_some_iff (h : d.Sound) :
    d.content k = some c ↔ ∃ row ∈ d.rows, row.key = k ∧ d.contentOf row.record = c := by
  refine ⟨content_eq_some, ?_⟩
  rintro ⟨row, hmem, rfl, rfl⟩
  exact h.content hmem

theorem content_key (h : d.content k = some c) : c.key = k := by
  obtain ⟨row, _, rfl, rfl⟩ := content_eq_some h
  exact key_contentOf

theorem findByRowid_eq_some (h : d.findByRowid table rowid = some record) :
    ∃ row ∈ d.rows, row.place = (table, rowid) ∧ row.record = record := by
  obtain ⟨row, hfind, hrecord⟩ := Option.map_eq_some_iff.1 h
  obtain ⟨hmem, hplace⟩ := find?_some hfind
  exact ⟨row, hmem, of_decide_eq_true hplace, hrecord⟩

theorem Sound.findByRowid (h : d.Sound) (hrow : row ∈ d.rows) :
    d.findByRowid row.record.table row.rowid = some row.record := by
  have hfind : d.rows.find? (fun r => r.place = (row.record.table, row.rowid)) = some row :=
    h.places.find?_eq (fun _ ha => of_decide_eq_true ha) hrow (decide_eq_true rfl)
  rw [Database.findByRowid, hfind]
  rfl

theorem findByRowid_content (h : d.Sound) (hrow : d.findByRowid table rowid = some record) :
    d.content record.key = some (d.contentOf record) := by
  obtain ⟨row, hmem, _, rfl⟩ := findByRowid_eq_some hrow
  exact h.content hmem

theorem record_of_workspaces (h : record.key = .workspaces id) :
    ∃ w, record = .workspace w ∧ w.id = id := by
  cases record with
  | workspace w => exact ⟨w, rfl, Key.workspaces.inj h⟩
  | _ => cases h

open RecordTypes

theorem content_workspaces :
    d.content (.workspaces id) = (d.findByIdWithStatus id).map .workspace := by
  rw [findByIdWithStatus, content]
  cases hfind : d.find (.workspaces id) with
  | none => rfl
  | some row =>
    obtain ⟨w, hw, _⟩ := record_of_workspaces (find_eq_some hfind).2
    simp [hw, contentOf, workspace?]

/-! ## Naming -/

variable {name : Text} {now : Instant}

theorem key_named : (record.named id name now).key = record.key := by
  cases record with
  | workspace w =>
    simp only [named]
    split <;> rfl
  | _ => rfl

theorem table_named : (record.named id name now).table = record.table := by
  cases record with
  | workspace w =>
    simp only [named]
    split <;> rfl
  | _ => rfl

theorem owner_named : (record.named id name now).owner = record.owner := by
  cases record with
  | workspace w =>
    simp only [named]
    split <;> rfl
  | _ => rfl

theorem named_of_ne (h : record.key ≠ .workspaces id) : record.named id name now = record := by
  cases record with
  | workspace w => exact if_neg fun heq => h (congrArg Key.workspaces heq)
  | _ => rfl

theorem Sound.rename (h : d.Sound) : (d.rename id name now).Sound where
  keys := h.keys.map_of fun _ _ => key_named
  places := h.places.map_of fun _ _ => congrArg (·, _) table_named

theorem executionProcess?_named :
    (record.named id name now).executionProcess? = record.executionProcess? := by
  cases record with
  | workspace w =>
    simp only [named]
    split <;> rfl
  | _ => rfl

theorem find_rename : (d.rename id name now).find k = (d.find k).map (Row.named id name now) := by
  have hkey : (fun row : Row => decide (row.key = k)) ∘ Row.named id name now =
      fun row => decide (row.key = k) := by
    funext row
    exact congrArg (fun key => decide (key = k)) key_named
  show (d.rows.map (Row.named id name now)).find? _ = (d.rows.find? _).map _
  rw [List.find?_map, hkey]

theorem findByRowid_rename : (d.rename id name now).findByRowid table rowid =
    (d.findByRowid table rowid).map (named id name now) := by
  have hplace : (fun row : Row => decide (row.place = (table, rowid))) ∘ Row.named id name now =
      fun row => decide (row.place = (table, rowid)) := by
    funext row
    exact congrArg (fun t => decide ((t, row.rowid) = (table, rowid))) table_named
  show ((d.rows.map (Row.named id name now)).find? _).map _ = ((d.rows.find? _).map _).map _
  rw [List.find?_map, hplace, Option.map_map, Option.map_map]
  rfl

theorem executionProcesses_rename :
    (d.rename id name now).executionProcesses = d.executionProcesses := by
  show (d.rows.map (Row.named id name now)).filterMap _ = d.rows.filterMap _
  rw [List.filterMap_map]
  congr 1
  funext row
  exact executionProcess?_named

theorem contentOf_rename : (d.rename id name now).contentOf record = d.contentOf record := by
  cases record with
  | workspace w =>
    simp only [contentOf, withStatus, processesOf, executionProcesses_rename]
    rfl
  | _ => rfl

theorem content_rename (hk : k ≠ .workspaces id) :
    (d.rename id name now).content k = d.content k := by
  rw [content, content, find_rename]
  cases hfind : d.find k with
  | none => rfl
  | some row =>
    have hne : row.record.key ≠ .workspaces id := by
      rw [show row.record.key = k from (find_eq_some hfind).2]
      exact hk
    simp only [Option.map_some, Row.named, named_of_ne hne, contentOf_rename]

/-! ## Queries with a condition -/

end Database

/-- The content of a key among those that were read. -/
def lookup (contents : List Content) (k : Key) : Option Content := contents.find? fun c => c.key = k

end VibeKanban.Events

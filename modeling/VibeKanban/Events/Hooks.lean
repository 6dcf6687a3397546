import VibeKanban.Events.Streams

/-!
# Database hooks and event streams (`services/events.rs`, `services/events/streams.rs`)

SQLite has one writer: a transaction works on its own copy and readers see what was committed. A
deletion pushes its patch at once; an insertion or an update spawns a task that reads the row by its
`rowid` from the committed database and pushes a patch later.

A client subscribes, reads its snapshot and applies the patches from its queue. A client that lags
is dropped and subscribes again.

* `Consistent.step`: what every step keeps.
-/

namespace VibeKanban.Events

open Delivery (Text)
open Lib Option

/-! ## State -/

/-- The open transaction. -/
structure Transaction where
  database : Database
  deleted : List Key

inductive Task where
  /-- `find_by_rowid`. -/
  | spawned (table : HookTables) (rowid : ℤ) (operation : Operation)
  /-- `find_by_id_with_status`. -/
  | located (workspaceId : Uuid) (operation : Operation)
  /-- The end of `find_by_id_with_status`: the workspace has no name. -/
  | naming (workspace : WorkspaceWithStatus) (operation : Operation)
  /-- `push_patch`; a process has its session to follow. -/
  | fetched (operation : Operation) (content : Content) (sessionId : Option Uuid)
  /-- `push_workspace_update_for_session`: `Session::find_by_id`. -/
  | following (sessionId : Uuid)
  /-- The fallback for a record that was not found. -/
  | missing (table : HookTables) (rowid : ℤ) (operation : Operation)
  | done
  deriving DecidableEq

structure Client where
  stream : Stream
  replica : Replica Key Content Patch
  /-- The workspaces that its snapshot has still to go through. -/
  unnamed : List Uuid

structure System where
  database : Database
  transaction : Option Transaction
  tasks : List Task
  entryCount : ℕ
  clients : List Client

inductive Action where
  | begin
  | insert (row : Row)
  | update (record : RecordTypes)
  | delete (k : Key)
  | insertSession (session : Session)
  | deleteSession (id : Uuid)
  | commit
  | rollback
  /-- The next step of a task. -/
  | work (i : ℕ) (now : Instant)
  /-- The next read of a task fails. -/
  | fail (i : ℕ)
  | subscribe (stream : Stream)
  | snapshot (i : ℕ)
  /-- The snapshot of a client goes on with the next workspace. -/
  | name (i : ℕ) (now : Instant)
  | deliver (i : ℕ)
  /-- A stream that lags ends with an error. -/
  | lag (i : ℕ)

/-! ## Statements -/

namespace Database

def insert (d : Database) (row : Row) : Database := { d with rows := d.rows ++ [row] }

/-- The row with the key of `record` becomes `record`. -/
def set (d : Database) (record : RecordTypes) : Database :=
  { d with
    rows := Lib.update (fun row => row.key = record.key) (fun row => { row with record }) d.rows }

def delete (d : Database) (k : Key) : Database :=
  { d with rows := Lib.delete (fun row => row.key = k) d.rows }

end Database

/-! ## Steps -/

namespace Client

def receive (c : Client) (patch : Patch) : Client :=
  { c with replica := c.replica.receive patch }

/-- Before its snapshot only the queue counts. -/
def outcome (c : Client) (k : Key) : Option (Option Content) :=
  Replica.outcome c.stream.effect c.replica k

end Client

namespace System

variable (s : System)

/-- The state before the first client and the first statement. -/
structure Initial (s : System) : Prop where
  sound : s.database.Sound
  transaction : s.transaction = none
  tasks : s.tasks = []
  clients : s.clients = []

/-- `push_patch`. -/
def push (patch : Patch) : System :=
  { s with clients := s.clients.map fun c => c.receive patch }

def setTask (i : ℕ) (t : Task) : System := { s with tasks := s.tasks.set i t }

def spawn (t : Task) : System := { s with tasks := s.tasks ++ [t] }

def deleted : List Key :=
  match s.transaction with
  | some tx => tx.deleted
  | none => []

/-- The new copy of the transaction after a statement. -/
def write (tx : Transaction) (d : Database) : System :=
  { s with transaction := some { tx with database := d } }

/-- The step of a task after `find_by_rowid` (lines 140-214). -/
def located (table : HookTables) (rowid : ℤ) (operation : Operation) : Option RecordTypes → Task
  | some (.workspace w) => .located w.id operation
  | some (.executionProcess p) => .fetched operation (.executionProcess p) (some p.sessionId)
  | some (.scratch r) => .fetched operation (.scratch r) none
  | some (.browserSession b) => .fetched operation (.browserSession b) none
  | none =>
    match table with
    | .workspaces | .browserSessions => .done
    | .executionProcesses | .scratch => .missing table rowid operation

/-- The task after the query of `find_by_id_with_status`. -/
def withStatus (operation : Operation) : Option WorkspaceWithStatus → Task
  | some w =>
    if w.workspace.name = none then .naming w operation
    else .fetched operation (.workspace w) none
  | none => .done

/-- `ws.workspace.name = Some(name)`. -/
def nameWorkspace (name : Text) (w : WorkspaceWithStatus) : WorkspaceWithStatus :=
  { w with workspace := { w.workspace with name := some name } }

def newName (d : Database) (workspaceId : Uuid) : Option Text :=
  (d.getFirstUserMessage workspaceId).map fun prompt => truncateToName prompt workspaceNameMaxLen

/-- The next step of the task at `i`. -/
def work (i : ℕ) (now : Instant) : Task → Option System
  | .spawned table rowid operation =>
    some (s.setTask i (located table rowid operation (s.database.findByRowid table rowid)))
  | .located workspaceId operation =>
    some (s.setTask i (withStatus operation (s.database.findByIdWithStatus workspaceId)))
  | .naming w operation =>
    match newName s.database w.workspace.id with
    | none => some (s.setTask i (.fetched operation (.workspace w) none))
    | some name =>
      -- `BEGIN IMMEDIATE` waits for the open transaction
      if s.transaction.isSome then none
      else
        some { s.setTask i (.fetched operation (.workspace (nameWorkspace name w)) none) with
          database := s.database.rename w.workspace.id name now }
  | .fetched operation content sessionId =>
    some ((s.push (hookPatch operation content)).setTask i (match sessionId with
      | some sessionId => .following sessionId
      | none => .done))
  | .following sessionId =>
    some (s.setTask i (match s.database.sessions.find? fun session => session.id = sessionId with
      | some session => .located session.workspaceId .update
      | none => .done))
  | .missing table rowid operation =>
    some { (s.push (entryPatch (s.entryCount + 1) operation table rowid)).setTask i .done with
      entryCount := s.entryCount + 1 }
  | .done => none

def reads : Task → Bool
  | .spawned .. | .located .. | .naming .. | .following .. => true
  | .fetched .. | .missing .. | .done => false

def setClient (i : ℕ) (c : Client) : System := { s with clients := s.clients.set i c }

/-- The ids that `find_all_with_status` goes through for names. -/
def unnamed (d : Database) : Stream → List Uuid
  | .workspaces archived limit =>
    ((d.findAllWithStatus archived limit).filter fun w => w.workspace.name.isNone).map
      fun w => w.workspace.id
  | _ => []

def nameContent (name : Text) : Content → Content
  | .workspace w => .workspace (nameWorkspace name w)
  | content => content

/-- The next workspace of a snapshot. The update is a transaction of its own over the pool with
    hooks, which is left open here and ends like every other one. -/
def nameNext (i : ℕ) (c : Client) (now : Instant) (id : Uuid) (rest : List Uuid) : Option System :=
  match newName s.database id with
  | none => some (s.setClient i { c with unnamed := rest })
  | some name =>
    if s.transaction.isSome then none
    else
      let named := s.setClient i
        { c with
          replica := c.replica.amend (.workspaces id) (nameContent name)
          unnamed := rest }
      let opened := named.write ⟨s.database, []⟩ (s.database.rename id name now)
      match s.database.find (.workspaces id) with
      | none => some opened
      | some row => some (opened.spawn (.spawned .workspaces row.rowid .update))

def step : Action → Option System
  | .begin =>
    match s.transaction with
    | none => some { s with transaction := some ⟨s.database, []⟩ }
    | some _ => none
  | .insert row => do
    let tx ← s.transaction
    if tx.database.rows.all fun r => r.key ≠ row.key && r.place ≠ row.place then
      some ((s.write tx (tx.database.insert row)).spawn
        (.spawned row.record.table row.rowid .insert))
    else none
  | .update record => do
    let tx ← s.transaction
    let row ← tx.database.find record.key
    -- no statement changes the session of a process or the workspace of a browser session
    if row.record.owner = record.owner then
      some ((s.write tx (tx.database.set record)).spawn (.spawned record.table row.rowid .update))
    else none
  | .delete k => do
    let tx ← s.transaction
    let _ ← tx.database.find k
    some { s.push (removePatch k) with
      transaction := some ⟨tx.database.delete k, k :: tx.deleted⟩ }
  | .insertSession session => do
    let tx ← s.transaction
    some (s.write tx { tx.database with sessions := tx.database.sessions ++ [session] })
  | .deleteSession id => do
    let tx ← s.transaction
    some (s.write tx
      { tx.database with
        sessions := Lib.delete (fun session => session.id = id) tx.database.sessions })
  | .commit => do
    let tx ← s.transaction
    some { s with database := tx.database, transaction := none }
  | .rollback => do
    let _ ← s.transaction
    some { s with transaction := none }
  | .work i now => do
    let t ← s.tasks[i]?
    s.work i now t
  | .fail i => do
    let t ← s.tasks[i]?
    if reads t then some (s.setTask i .done) else none
  | .subscribe stream => some { s with clients := s.clients ++ [⟨stream, Replica.subscribed, []⟩] }
  | .snapshot i => do
    let c ← s.clients[i]?
    match c.replica.view with
    | some _ => none
    | none =>
      some (s.setClient i
        { c with
          replica := c.replica.snapshot (c.stream.snapshot s.database)
          unnamed := unnamed s.database c.stream })
  | .name i now => do
    let c ← s.clients[i]?
    match c.unnamed with
    | [] => none
    | id :: rest => s.nameNext i c now id rest
  | .deliver i => do
    let c ← s.clients[i]?
    match c.unnamed with
    | [] => do
      let replica ← c.replica.deliver c.stream.effect
      some (s.setClient i { c with replica })
    | _ :: _ => none
  | .lag i => do
    let _ ← s.clients[i]?
    some { s with clients := s.clients.eraseIdx i }

end System

/-! ## What statements keep -/

variable {d : Database} {row : Row} {record : RecordTypes} {k : Key}

theorem table_of_key {r r' : RecordTypes} (h : r.key = r'.key) : r.table = r'.table := by
  cases r <;> cases r' <;> first | rfl | cases h

namespace Database

theorem Sound.insert (h : d.Sound) (hkey : ∀ r ∈ d.rows, r.key ≠ row.key)
    (hplace : ∀ r ∈ d.rows, r.place ≠ row.place) : (d.insert row).Sound where
  keys := h.keys.concat hkey
  places := h.places.concat hplace

theorem Sound.set (h : d.Sound) : (d.set record).Sound where
  keys := h.keys.update_of fun _ ha => (of_decide_eq_true ha).symm
  places := by
    refine h.places.update_of fun a ha => ?_
    have hkey : a.record.key = record.key := of_decide_eq_true ha
    exact congrArg (·, a.rowid) (table_of_key hkey.symm)

theorem Sound.delete (h : d.Sound) : (d.delete k).Sound where
  keys := h.keys.delete
  places := h.places.delete

def Keeps (d d' : Database) (k : Key) : Prop :=
  ∀ row ∈ d.rows, row.key = k → ∃ row' ∈ d'.rows, row'.key = k ∧
    row'.record.owner = row.record.owner

theorem Keeps.refl (d : Database) (k : Key) : d.Keeps d k := fun row hrow hk => ⟨row, hrow, hk, rfl⟩

theorem Keeps.trans {d' d'' : Database} (h : d.Keeps d' k) (h' : d'.Keeps d'' k) :
    d.Keeps d'' k := by
  intro row hrow hk
  obtain ⟨row', hrow', hk', ho'⟩ := h row hrow hk
  obtain ⟨row'', hrow'', hk'', ho''⟩ := h' row' hrow' hk'
  exact ⟨row'', hrow'', hk'', ho''.trans ho'⟩

theorem keeps_insert : d.Keeps (d.insert row) k :=
  fun r hr hk => ⟨r, List.mem_append_left _ hr, hk, rfl⟩

theorem keeps_set (hd : d.Sound) (hfind : d.find record.key = some row)
    (ho : row.record.owner = record.owner) : d.Keeps (d.set record) k := by
  intro r hr hk
  obtain ⟨hrow, hkey⟩ := find_eq_some hfind
  by_cases heq : r.key = record.key
  · refine ⟨{ r with record }, mem_update_of hr (decide_eq_true heq), heq.symm.trans hk, ?_⟩
    rw [hd.keys.eq hr hrow (heq.trans hkey.symm)]
    exact ho.symm
  · exact ⟨r, mem_update_of_not hr (decide_eq_false heq), hk, rfl⟩

theorem keeps_delete {k' : Key} (hk : k ≠ k') : d.Keeps (d.delete k') k :=
  fun r hr hr' => ⟨r, mem_delete.2 ⟨hr, decide_eq_false (hr' ▸ hk)⟩, hr', rfl⟩

theorem keeps_rename {id : Uuid} {name : Text} {now : Instant} : d.Keeps (d.rename id name now) k :=
  fun r hr hk => ⟨r.named id name now, List.mem_map_of_mem hr, key_named.trans hk, owner_named⟩

end Database

namespace System

variable {s s' : System} {a : Action} {tx : Transaction}

/-- The committed database and the copy of the transaction. -/
structure Consistent (s : System) : Prop where
  database : s.database.Sound
  copy : ∀ tx, s.transaction = some tx → tx.database.Sound
  keeps : ∀ tx, s.transaction = some tx → ∀ k ∉ tx.deleted, s.database.Keeps tx.database k

theorem Initial.consistent (h : Initial s) : s.Consistent where
  database := h.sound
  copy := by simp [h.transaction]
  keeps := by simp [h.transaction]

theorem Consistent.of_eq (h : s.Consistent) (hd : s'.database = s.database)
    (ht : s'.transaction = s.transaction) : s'.Consistent where
  database := hd ▸ h.database
  copy := by
    rw [ht]
    exact h.copy
  keeps := by
    rw [ht, hd]
    exact h.keeps

theorem Consistent.statement (h : s.Consistent) {tx' : Transaction}
    (ht : s.transaction = some tx) (hd : s'.database = s.database)
    (ht' : s'.transaction = some tx') (hsound : tx'.database.Sound)
    (hkeeps : ∀ k ∉ tx'.deleted, k ∉ tx.deleted ∧ tx.database.Keeps tx'.database k) :
    s'.Consistent where
  database := hd ▸ h.database
  copy := by
    intro tx'' h''
    rw [ht'] at h''
    cases h''
    exact hsound
  keeps := by
    intro tx'' h''
    rw [ht'] at h''
    cases h''
    rw [hd]
    intro k hk
    exact (h.keeps tx ht k (hkeeps k hk).1).trans (hkeeps k hk).2

theorem Consistent.sessions (h : s.Consistent) (ht : s.transaction = some tx)
    (sessions : List Session) : (s.write tx { tx.database with sessions }).Consistent :=
  h.statement ht rfl rfl ⟨(h.copy tx ht).keys, (h.copy tx ht).places⟩
    fun k hk => ⟨hk, Database.Keeps.refl tx.database k⟩

theorem work_database {i : ℕ} {now : Instant} {t : Task} (h : s.work i now t = some s') :
    s'.transaction = s.transaction ∧ (s'.database = s.database ∨
      ∃ id name, s.transaction = none ∧ s'.database = s.database.rename id name now) := by
  cases t with
  | naming w operation =>
    simp only [work] at h
    split at h
    · cases h
      exact ⟨rfl, .inl rfl⟩
    · split_ifs at h with ht
      cases h
      exact ⟨rfl, .inr ⟨_, _, by simpa using ht, rfl⟩⟩
  | done => cases h
  | _ =>
    cases h
    exact ⟨rfl, .inl rfl⟩

theorem nameNext_database {i : ℕ} {c : Client} {now : Instant} {id : Uuid} {rest : List Uuid}
    (h : s.nameNext i c now id rest = some s') :
    s'.database = s.database ∧ (s'.transaction = s.transaction ∨ ∃ name, s.transaction = none ∧
        s'.transaction = some ⟨s.database.rename id name now, []⟩) := by
  simp only [nameNext] at h
  split at h
  · cases h
    exact ⟨rfl, .inl rfl⟩
  · split_ifs at h with ht
    split at h
    all_goals
      cases h
      exact ⟨rfl, .inr ⟨_, by simpa using ht, rfl⟩⟩

theorem Consistent.step (h : s.Consistent) (hstep : s.step a = some s') : s'.Consistent := by
  cases a with
  | begin =>
    simp only [System.step] at hstep
    split at hstep <;> cases hstep
    refine ⟨h.database, ?_, ?_⟩
    · intro tx htx
      cases htx
      exact h.database
    · intro tx htx k _
      cases htx
      exact .refl _ k
  | insert row =>
    obtain ⟨tx, htx, hstep⟩ := bind_eq_some_iff.1 hstep
    split_ifs at hstep with hnew
    cases hstep
    have hfresh : ∀ r ∈ tx.database.rows, r.key ≠ row.key ∧ r.place ≠ row.place := by
      simpa using hnew
    exact h.statement htx rfl rfl
      ((h.copy tx htx).insert (fun r hr => (hfresh r hr).1) fun r hr => (hfresh r hr).2)
      fun k hk => ⟨hk, Database.keeps_insert⟩
  | update record =>
    obtain ⟨tx, htx, hstep⟩ := bind_eq_some_iff.1 hstep
    obtain ⟨row, hfind, hstep⟩ := bind_eq_some_iff.1 hstep
    split_ifs at hstep with ho
    cases hstep
    exact h.statement htx rfl rfl (h.copy tx htx).set
      fun k hk => ⟨hk, Database.keeps_set (h.copy tx htx) hfind ho⟩
  | delete k =>
    obtain ⟨tx, htx, hstep⟩ := bind_eq_some_iff.1 hstep
    obtain ⟨row, hfind, hstep⟩ := bind_eq_some_iff.1 hstep
    cases hstep
    refine h.statement htx rfl rfl (h.copy tx htx).delete fun k' hk' => ?_
    rw [List.mem_cons, not_or] at hk'
    exact ⟨hk'.2, Database.keeps_delete hk'.1⟩
  | insertSession session | deleteSession id =>
    obtain ⟨tx, htx, hstep⟩ := bind_eq_some_iff.1 hstep
    cases hstep
    exact h.sessions htx _
  | commit =>
    obtain ⟨tx, htx, hstep⟩ := bind_eq_some_iff.1 hstep
    cases hstep
    exact ⟨h.copy tx htx, by simp, by simp⟩
  | rollback =>
    obtain ⟨tx, htx, hstep⟩ := bind_eq_some_iff.1 hstep
    cases hstep
    exact ⟨h.database, by simp, by simp⟩
  | work i now =>
    obtain ⟨t, _, hstep⟩ := bind_eq_some_iff.1 hstep
    obtain ⟨htx, hd | ⟨id, name, hnone, hd⟩⟩ := work_database hstep
    · exact h.of_eq hd htx
    · rw [hnone] at htx
      exact ⟨hd ▸ h.database.rename, by simp [htx], by simp [htx]⟩
  | fail i | snapshot i =>
    obtain ⟨t, _, hstep⟩ := bind_eq_some_iff.1 hstep
    split at hstep <;> cases hstep
    exact h.of_eq rfl rfl
  | subscribe stream =>
    cases hstep
    exact h.of_eq rfl rfl
  | name i now =>
    obtain ⟨c, _, hstep⟩ := bind_eq_some_iff.1 hstep
    split at hstep
    · cases hstep
    · obtain ⟨hd, htx | ⟨name, hnone, htx⟩⟩ := nameNext_database hstep
      · exact h.of_eq hd htx
      · refine ⟨hd ▸ h.database, ?_, ?_⟩
        · intro tx htx'
          rw [htx] at htx'
          cases htx'
          exact h.database.rename
        · intro tx htx' k _
          rw [htx] at htx'
          cases htx'
          rw [hd]
          exact Database.keeps_rename
  | deliver i =>
    obtain ⟨c, _, hstep⟩ := bind_eq_some_iff.1 hstep
    split at hstep
    · obtain ⟨r, _, hstep⟩ := bind_eq_some_iff.1 hstep
      cases hstep
      exact h.of_eq rfl rfl
    · cases hstep
  | lag i =>
    obtain ⟨c, _, hstep⟩ := bind_eq_some_iff.1 hstep
    cases hstep
    exact h.of_eq rfl rfl

end System

end VibeKanban.Events

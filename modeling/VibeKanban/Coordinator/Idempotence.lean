import VibeKanban.Coordinator.Reconciler

/-!
# Reconciling twice (`services/src/services/cluster/reconcile.rs`, lines 86-241)

One application of `reconcile_worker`, statement after statement, on rows with the columns that it
writes. The report and the quarantine call are left out. The jobs of a worker are a map by
execution.

* `reconcileWorker_twice`: a second application changes only times.
-/

namespace VibeKanban.Coordinator

open Cluster Lib Worker List

/-! ## Rows -/

/-- A row of `execution_worker_jobs`. -/
structure JobRecord extends WorkerJobRow where
  terminalEvidence : Option TerminalEvidence
  acceptedAt : Option Timestamp
  completedAt : Option Timestamp
  updatedAt : Timestamp
  deriving DecidableEq

/-- A row of `execution_processes`. -/
structure ProcessRecord extends ProcessRow where
  exitCode : Option ℤ
  completedAt : Option Timestamp
  deriving DecidableEq

def JobRecord.key (job : JobRecord) : Uuid := job.executionProcessId

def ProcessRecord.key (process : ProcessRecord) : Uuid := process.id

/-- The rows, and how often the clock has been read. -/
structure Database where
  jobs : List JobRecord
  processes : List ProcessRecord
  readings : ℕ

/-- The summaries of the jobs of a worker. -/
structure Inventory where
  summaries : List JobSummary
  keyed : Keyed JobSummary.executionId summaries

def Inventory.executions (inventory : Inventory) : List Uuid :=
  inventory.summaries.map JobSummary.executionId

/-! ## Statements -/

variable (now : ℕ → Timestamp)

/-- `observe_worker_sequence`, on a row. -/
def JobRecord.observe (sequence : ℤ) (at_ : Timestamp) (job : JobRecord) : JobRecord :=
  { job with
    workerLastSequence := max job.workerLastSequence sequence
    updatedAt := at_ }

/-- `update_state`, on a row; `completed_at` is `COALESCE(?, completed_at)`. -/
def JobRecord.updateState (state : DispatchState) (evidence : Option TerminalEvidence)
    (completedAt : Option Timestamp) (at_ : Timestamp) (job : JobRecord) : JobRecord :=
  { job with
    dispatchState := state
    terminalEvidence := evidence
    acceptedAt := if state = .accepted ∧ job.acceptedAt = none then some at_ else job.acceptedAt
    completedAt := completedAt.or job.completedAt
    updatedAt := at_ }

/-- `update_completion`, on a row. -/
def ProcessRecord.updateCompletion (status : ExecutionProcessStatus) (exitCode : Option ℤ)
    (at_ : Timestamp) (process : ProcessRecord) : ProcessRecord :=
  { process with
    status := status
    exitCode := exitCode
    completedAt := if status = .running then none else some at_ }

namespace Database

variable (db : Database)

def findByExecutionId (id : Uuid) : Option JobRecord := db.jobs.find? fun job => job.key = id

/-- `ExecutionProcess::find_by_id` -/
def findById (id : Uuid) : Option ProcessRecord :=
  db.processes.find? fun process => process.key = id

def observeWorkerSequence (id : Uuid) (sequence : ℤ) : Database :=
  { db with
    jobs := update (fun job => job.key = id) (.observe sequence (now db.readings)) db.jobs
    readings := db.readings + 1 }

def updateState (id : Uuid) (state : DispatchState) (evidence : Option TerminalEvidence)
    (completedAt : Option Timestamp) : Database :=
  { db with
    jobs := update (fun job => job.key = id)
      (.updateState state evidence completedAt (now db.readings)) db.jobs
    readings := db.readings + 1 }

def updateCompletion (id : Uuid) (status : ExecutionProcessStatus) (exitCode : Option ℤ) :
    Database :=
  { db with
    processes := update (fun process => process.key = id)
      (.updateCompletion status exitCode (now db.readings)) db.processes
    readings := db.readings + 1 }

/-! ## Reconciliation -/

/-- `mark_indeterminate` (lines 225-241). -/
def markIndeterminate (id : Uuid) : Database :=
  let completedAt := now db.readings
  let db := { db with readings := db.readings + 1 }
  (db.updateState now id .indeterminate none (some completedAt)).updateCompletion now id
    .indeterminate none

/-- `apply_worker_evidence` (lines 156-223). -/
def applyWorkerEvidence (summary : JobSummary) : Database :=
  let id := summary.executionId
  let db := db.observeWorkerSequence now id (asI64 summary.lastSequence)
  let workerState := dispatchState summary.state
  if summary.state.isTerminal then
    match summary.terminal with
    | none => db.markIndeterminate now id
    | some evidence =>
      let processState := processState evidence.state
      match db.findById id with
      | some process =>
        if process.status = .running then db
        else if process.status ≠ processState then db.markIndeterminate now id
        else
          (db.updateState now id workerState (some evidence)
            (some evidence.observedAt)).updateCompletion now id processState evidence.exitCode
      | none =>
        (db.updateState now id workerState (some evidence)
          (some evidence.observedAt)).updateCompletion now id processState evidence.exitCode
  else db.updateState now id workerState none none

/-- The loop of `reconcile_worker` for a summary (lines 98-134). -/
def reconcileSummary (worker : Uuid) (summary : JobSummary) : Database :=
  match db.findByExecutionId summary.executionId with
  | none => db
  | some known =>
    if known.workerNodeId ≠ worker ∨ known.workerJobId ≠ summary.workerJobId ∨
        known.requestDigest ≠ summary.requestDigest then
      db.markIndeterminate now summary.executionId
    else if summary.state.isTerminal = false ∧
        ∃ process ∈ db.findById summary.executionId, process.status ≠ .running then
      db.markIndeterminate now summary.executionId
    else db.applyWorkerEvidence now summary

/-- The executions whose jobs `find_nonterminal_for_worker` returns. -/
def expected (worker : Uuid) : List Uuid :=
  (db.jobs.filter fun job => job.workerNodeId = worker ∧ job.dispatchState.isTerminal = false).map
    fun job => job.key

/-- `reconcile_worker` (lines 86-140). -/
def reconcileWorker (worker : Uuid) (inventory : Inventory) : Database :=
  let missing := (db.expected worker).filter (· ∉ inventory.executions)
  missing.foldl (fun db id => db.markIndeterminate now id)
    (inventory.summaries.foldl (fun db summary => db.reconcileSummary now worker summary) db)

end Database

/-! ## Verdicts -/

/-- What the branches for a summary come to. -/
inductive Verdict where
  /-- the execution has no job row -/
  | skip
  /-- its rows are marked, after the sequence is observed or without that -/
  | conflict (observed : Bool)
  | defer
  | complete (evidence : TerminalEvidence)
  | follow

/-- The verdict on a summary whose execution has these rows. -/
def judge (worker : Uuid) (summary : JobSummary) (known : Option JobRecord)
    (process : Option ProcessRecord) : Verdict :=
  match known with
  | none => .skip
  | some known =>
    if known.workerNodeId ≠ worker ∨ known.workerJobId ≠ summary.workerJobId ∨
        known.requestDigest ≠ summary.requestDigest then
      .conflict false
    else if summary.state.isTerminal = false ∧ ∃ row ∈ process, row.status ≠ .running then
      .conflict false
    else if summary.state.isTerminal then
      match summary.terminal with
      | none => .conflict true
      | some evidence =>
        match process with
        | some process =>
          if process.status = .running then .defer
          else if process.status ≠ processState evidence.state then .conflict true
          else .complete evidence
        | none => .complete evidence
    else .follow

namespace Verdict

variable (summary : JobSummary) (readings : ℕ)

/-- What becomes of the job row, when the clock has been read `readings` times. -/
def writeJob (verdict : Verdict) (job : JobRecord) : JobRecord :=
  let observe := job.observe (asI64 summary.lastSequence) (now readings)
  match verdict with
  | .skip => job
  | .conflict false =>
    job.updateState .indeterminate none (some (now readings)) (now (readings + 1))
  | .conflict true =>
    observe.updateState .indeterminate none (some (now (readings + 1))) (now (readings + 2))
  | .defer => observe
  | .complete evidence =>
    observe.updateState (dispatchState summary.state) (some evidence) (some evidence.observedAt)
      (now (readings + 1))
  | .follow => observe.updateState (dispatchState summary.state) none none (now (readings + 1))

def writeProcess (verdict : Verdict) (process : ProcessRecord) : ProcessRecord :=
  match verdict with
  | .skip | .defer | .follow => process
  | .conflict false => process.updateCompletion .indeterminate none (now (readings + 2))
  | .conflict true => process.updateCompletion .indeterminate none (now (readings + 3))
  | .complete evidence =>
    process.updateCompletion (processState evidence.state) evidence.exitCode (now (readings + 2))

variable {now summary readings} {verdict : Verdict} {job : JobRecord} {process : ProcessRecord}

@[simp] theorem writeJob_keeps : (verdict.writeJob now summary readings job).key = job.key ∧
      (verdict.writeJob now summary readings job).workerNodeId = job.workerNodeId ∧
      (verdict.writeJob now summary readings job).workerJobId = job.workerJobId ∧
      (verdict.writeJob now summary readings job).requestDigest = job.requestDigest := by
  cases verdict with
  | conflict observed => cases observed <;> exact ⟨rfl, rfl, rfl, rfl⟩
  | _ => exact ⟨rfl, rfl, rfl, rfl⟩

@[simp] theorem writeProcess_key :
    (verdict.writeProcess now readings process).key = process.key := by
  cases verdict with
  | conflict observed => cases observed <;> rfl
  | _ => rfl

end Verdict

/-- `b` is `a`, perhaps with new times; rows of other executions are as they were. -/
structure JobRecord.Restamped (executions : List Uuid) (a b : JobRecord) : Prop where
  rest : b = { a with completedAt := b.completedAt, updatedAt := b.updatedAt }
  completedAt : a.dispatchState ≠ .indeterminate → b.completedAt = a.completedAt
  completed : b.completedAt.isSome = a.completedAt.isSome
  elsewhere : a.key ∉ executions → b = a

structure ProcessRecord.Restamped (executions : List Uuid) (a b : ProcessRecord) : Prop where
  rest : b = { a with completedAt := b.completedAt }
  running : a.status = .running → b = a
  completed : b.completedAt.isSome = a.completedAt.isSome
  elsewhere : a.key ∉ executions → b = a

section Restamped

variable {executions : List Uuid}

theorem JobRecord.Restamped.refl (a : JobRecord) : a.Restamped executions a where
  rest := rfl
  completedAt _ := rfl
  completed := rfl
  elsewhere _ := rfl

theorem ProcessRecord.Restamped.refl (a : ProcessRecord) : a.Restamped executions a where
  rest := rfl
  running _ := rfl
  completed := rfl
  elsewhere _ := rfl

theorem Verdict.writeJob_restamped {job : JobRecord} (verdict : Verdict) (summary : JobSummary)
    (readings later : ℕ) (h : job.key ∈ executions) :
    (verdict.writeJob now summary readings job).Restamped executions
      (verdict.writeJob now summary later (verdict.writeJob now summary readings job)) where
  rest := by
    -- `accepted_at` is set once
    by_cases haccepted : dispatchState summary.state = .accepted ∧ job.acceptedAt = none
    all_goals
      cases verdict with
      | conflict observed =>
        cases observed <;> simp [writeJob, JobRecord.updateState, JobRecord.observe]
      | skip => rfl
      | _ => simp [writeJob, JobRecord.updateState, JobRecord.observe, haccepted]
  completedAt hstate := by
    cases verdict with
    | conflict observed => cases observed <;> exact absurd rfl hstate
    | _ => rfl
  completed := by
    cases verdict with
    | conflict observed => cases observed <;> rfl
    | _ => rfl
  elsewhere hkey := absurd (by rwa [writeJob_keeps.1]) hkey

theorem Verdict.writeProcess_restamped {process : ProcessRecord} (verdict : Verdict)
    (readings later : ℕ) (h : process.key ∈ executions) :
    (verdict.writeProcess now readings process).Restamped executions
      (verdict.writeProcess now later (verdict.writeProcess now readings process)) where
  rest := by
    cases verdict with
    | conflict observed => cases observed <;> rfl
    | _ => rfl
  running hstate := by
    cases verdict with
    | conflict observed => cases observed <;> cases hstate
    | complete evidence =>
      have hne : processState evidence.state ≠ .running := by
        cases evidence.state <;> simp [processState]
      exact absurd hstate hne
    | _ => rfl
  completed := by
    cases verdict with
    | conflict observed => cases observed <;> rfl
    | complete evidence =>
      simp only [writeProcess, ProcessRecord.updateCompletion]
      split <;> rfl
    | _ => rfl
  elsewhere hid := absurd (by rwa [writeProcess_key]) hid

end Restamped

open Verdict

theorem judge_write (worker : Uuid) (summary : JobSummary) (known : Option JobRecord)
    (process : Option ProcessRecord) (readings : ℕ) : judge worker summary
        (known.map ((judge worker summary known process).writeJob now summary readings))
        (process.map ((judge worker summary known process).writeProcess now readings)) =
      judge worker summary known process := by
  cases known with
  | none => rfl
  | some known =>
    by_cases hknown : known.workerNodeId ≠ worker ∨ known.workerJobId ≠ summary.workerJobId ∨
        known.requestDigest ≠ summary.requestDigest
    · simp [judge, hknown]
    by_cases hended : summary.state.isTerminal = true
    · cases hterminal : summary.terminal with
      | none => simp [judge, hknown, hended, hterminal]
      | some evidence =>
        cases process with
        | none => simp [judge, hknown, hended, hterminal]
        | some process =>
          by_cases hrunning : process.status = .running
          · simp [judge, hknown, hended, hterminal, hrunning, writeProcess]
          by_cases hstatus : process.status = processState evidence.state
          -- what is written is what the evidence says, which is never `indeterminate`
          · have hstate : processState evidence.state ≠ .running := hstatus ▸ hrunning
            simp [judge, hknown, hended, hterminal, hstatus, hstate, writeProcess,
              ProcessRecord.updateCompletion]
          · have hstate :
                (.indeterminate : ExecutionProcessStatus) ≠ processState evidence.state := by
              cases evidence.state <;> simp [processState]
            simp [judge, hknown, hended, hterminal, hrunning, hstatus, hstate,
              writeProcess, ProcessRecord.updateCompletion]
    · rw [Bool.not_eq_true] at hended
      cases process with
      | none => simp [judge, hknown, hended]
      | some process =>
        by_cases hrunning : process.status = .running
        · simp [judge, hknown, hended, hrunning, writeProcess]
        · simp [judge, hknown, hended, hrunning, writeProcess,
            ProcessRecord.updateCompletion]

namespace Database

variable {now} {db : Database} {worker : Uuid} {summary : JobSummary} {id : Uuid}

def verdict (db : Database) (worker : Uuid) (summary : JobSummary) : Verdict :=
  judge worker summary (db.findByExecutionId summary.executionId) (db.findById summary.executionId)

theorem reconcileSummary_eq (db : Database) (worker : Uuid) (summary : JobSummary) :
    (db.reconcileSummary now worker summary).jobs =
        update (fun job => job.key = summary.executionId)
          ((db.verdict worker summary).writeJob now summary db.readings) db.jobs ∧
      (db.reconcileSummary now worker summary).processes =
        update (fun process => process.key = summary.executionId)
          ((db.verdict worker summary).writeProcess now db.readings) db.processes := by
  unfold reconcileSummary verdict judge
  cases hknown : db.findByExecutionId summary.executionId with
  | none => exact ⟨update_id.symm, update_id.symm⟩
  | some known =>
    dsimp only
    split
    · exact ⟨rfl, rfl⟩
    split
    · exact ⟨rfl, rfl⟩
    unfold applyWorkerEvidence
    split
    · cases hterminal : summary.terminal with
      | none => exact ⟨update_update fun _ => rfl, rfl⟩
      | some evidence =>
        have hprocess : (db.observeWorkerSequence now summary.executionId
            (asI64 summary.lastSequence)).findById summary.executionId =
              db.findById summary.executionId := rfl
        dsimp only
        rw [hprocess]
        cases db.findById summary.executionId with
        | none => exact ⟨update_update fun _ => rfl, rfl⟩
        | some process =>
          dsimp only
          split
          · exact ⟨rfl, update_id.symm⟩
          split
          all_goals exact ⟨update_update fun _ => rfl, rfl⟩
    · exact ⟨update_update fun _ => rfl, update_id.symm⟩

/-! ## The rows after an application -/

/-- What becomes of a row, where the summary of its execution writes `f`. -/
def written {α : Type} (f : JobSummary → α → α) (k : α → Uuid) (summaries : List JobSummary)
    (row : α) : α :=
  match summaries.find? fun summary => summary.executionId = k row with
  | none => row
  | some summary => f summary row

section Written

variable {α : Type} {f g : JobSummary → α → α} {k : α → Uuid} {summaries : List JobSummary}
  {row : α}

theorem written_of_not_mem (h : k row ∉ summaries.map JobSummary.executionId) :
    written f k summaries row = row := by
  have hnone : (summaries.find? fun summary => summary.executionId = k row) = none := by
    rw [find?_eq_none]
    intro summary hmem hkey
    exact h (mem_map.2 ⟨summary, hmem, of_decide_eq_true hkey⟩)
  unfold written
  rw [hnone]

theorem written_of_mem (h : Keyed JobSummary.executionId summaries) (hmem : summary ∈ summaries)
    (hkey : summary.executionId = k row) : written f k summaries row = f summary row := by
  have hsome : (summaries.find? fun summary => summary.executionId = k row) = some summary :=
    h.find?_eq (k := k row) (fun _ h => of_decide_eq_true h) hmem (decide_eq_true hkey)
  unfold written
  rw [hsome]

theorem written_key (hf : ∀ summary row, k (f summary row) = k row) :
    k (written f k summaries row) = k row := by
  unfold written
  split
  · rfl
  · exact hf _ _

theorem map_written_cons {rows : List α} (h : Keyed JobSummary.executionId (summary :: summaries))
    (hkey : ∀ row, k (f summary row) = k row)
    (hfg : ∀ other ∈ summaries, g other = f other) :
    (update (fun row => k row = summary.executionId) (f summary) rows).map
        (written g k summaries) = rows.map (written f k (summary :: summaries)) := by
  have hfirst : summary.executionId ∉ summaries.map JobSummary.executionId := (nodup_cons.1 h).1
  unfold update
  rw [map_map]
  apply map_congr_left
  intro row _
  show written g k summaries (if decide (k row = summary.executionId) then _ else row) = _
  by_cases hrow : k row = summary.executionId
  · rw [if_pos (decide_eq_true hrow), written_of_not_mem (by rw [hkey, hrow]; exact hfirst),
      written_of_mem h mem_cons_self hrow.symm]
  · rw [if_neg (by simpa using hrow)]
    unfold written
    rw [find?_cons_of_neg (by simpa using Ne.symm hrow)]
    cases hfound : summaries.find? fun summary => summary.executionId = k row with
    | none => rfl
    | some other => exact congrFun (hfg other (mem_of_find?_eq_some hfound)) row

end Written

theorem verdict_reconcileSummary {other : JobSummary}
    (h : other.executionId ≠ summary.executionId) :
    (db.reconcileSummary now worker summary).verdict worker other = db.verdict worker other := by
  have hjobs : (db.reconcileSummary now worker summary).findByExecutionId other.executionId =
      db.findByExecutionId other.executionId := by
    unfold findByExecutionId
    rw [(reconcileSummary_eq db worker summary).1]
    exact find?_update_ne h fun _ => writeJob_keeps.1
  have hprocesses : (db.reconcileSummary now worker summary).findById other.executionId =
      db.findById other.executionId := by
    unfold findById
    rw [(reconcileSummary_eq db worker summary).2]
    exact find?_update_ne h fun _ => writeProcess_key
  unfold verdict
  rw [hjobs, hprocesses]

variable (now) in
theorem foldl_reconcileSummary {summaries : List JobSummary}
    (h : Keyed JobSummary.executionId summaries) (db : Database) (worker : Uuid) :
    ∃ clock : JobSummary → ℕ,
      (summaries.foldl (fun db summary => db.reconcileSummary now worker summary) db).jobs =
          db.jobs.map (written (fun summary =>
            (db.verdict worker summary).writeJob now summary (clock summary))
            JobRecord.key summaries) ∧
        (summaries.foldl (fun db summary => db.reconcileSummary now worker summary) db).processes =
          db.processes.map (written (fun summary =>
            (db.verdict worker summary).writeProcess now (clock summary))
            ProcessRecord.key summaries) := by
  induction summaries generalizing db with
  | nil => exact ⟨fun _ => 0, (map_id _).symm, (map_id _).symm⟩
  | cons summary summaries ih =>
    obtain ⟨clock, hjobs, hprocesses⟩ :=
      ih (nodup_cons.1 h).2 (db.reconcileSummary now worker summary)
    have hother : ∀ other ∈ summaries, other.executionId ≠ summary.executionId := by
      intro other hmem heq
      exact (nodup_cons.1 h).1 (mem_map.2 ⟨other, hmem, heq⟩)
    have hclock : ∀ other ∈ summaries,
        Function.update clock summary db.readings other = clock other :=
      fun other hmem => Function.update_of_ne (fun heq => hother other hmem (by rw [heq])) _ _
    refine ⟨Function.update clock summary db.readings, ?_, ?_⟩
    · rw [foldl_cons, hjobs, (reconcileSummary_eq db worker summary).1]
      have hfirst : (db.verdict worker summary).writeJob now summary db.readings =
          (db.verdict worker summary).writeJob now summary
            (Function.update clock summary db.readings summary) := by
        rw [Function.update_self]
      rw [hfirst]
      refine map_written_cons (k := JobRecord.key)
        (f := fun other => (db.verdict worker other).writeJob now other
          (Function.update clock summary db.readings other))
        (g := fun other => ((db.reconcileSummary now worker summary).verdict worker other).writeJob
          now other (clock other)) h (fun _ => writeJob_keeps.1) ?_
      intro other hmem
      rw [verdict_reconcileSummary (hother other hmem), hclock other hmem]
    · rw [foldl_cons, hprocesses, (reconcileSummary_eq db worker summary).2]
      have hfirst : (db.verdict worker summary).writeProcess now db.readings =
          (db.verdict worker summary).writeProcess now
            (Function.update clock summary db.readings summary) := by
        rw [Function.update_self]
      rw [hfirst]
      refine map_written_cons (k := ProcessRecord.key)
        (f := fun other => (db.verdict worker other).writeProcess now
          (Function.update clock summary db.readings other))
        (g := fun other => ((db.reconcileSummary now worker summary).verdict worker
          other).writeProcess now (clock other)) h (fun _ => writeProcess_key) ?_
      intro other hmem
      rw [verdict_reconcileSummary (hother other hmem), hclock other hmem]

variable (now) in
theorem foldl_markIndeterminate (ids : List Uuid) (db : Database) :
    ∃ (f : JobRecord → JobRecord) (g : ProcessRecord → ProcessRecord),
      (ids.foldl (fun db id => db.markIndeterminate now id) db).jobs = db.jobs.map f ∧
      (ids.foldl (fun db id => db.markIndeterminate now id) db).processes = db.processes.map g ∧
      (∀ job, (f job).key = job.key ∧ (job.key ∉ ids → f job = job) ∧
        (job.key ∈ ids → (f job).dispatchState = .indeterminate)) ∧
      ∀ process, (g process).key = process.key ∧ (process.key ∉ ids → g process = process) := by
  induction ids generalizing db with
  | nil =>
    refine ⟨id, id, (map_id _).symm, (map_id _).symm, ?_, ?_⟩
    · intro job
      exact ⟨rfl, fun _ => rfl, nofun⟩
    · intro process
      exact ⟨rfl, fun _ => rfl⟩
  | cons id ids ih =>
    obtain ⟨f, g, hjobs, hprocesses, hf, hg⟩ := ih (db.markIndeterminate now id)
    refine ⟨fun job => f (if job.key = id then job.updateState .indeterminate none
        (some (now db.readings)) (now (db.readings + 1)) else job),
      fun process => g (if process.key = id then process.updateCompletion .indeterminate none
        (now (db.readings + 2)) else process), ?_, ?_, ?_, ?_⟩
    · rw [foldl_cons, hjobs]
      simp [markIndeterminate, updateState, updateCompletion, update, Function.comp_def]
    · rw [foldl_cons, hprocesses]
      simp [markIndeterminate, updateState, updateCompletion, update, Function.comp_def]
    · intro job
      dsimp only
      split_ifs with hkey
      · obtain ⟨hsame, hkeeps, hmarks⟩ := hf (job.updateState .indeterminate none
          (some (now db.readings)) (now (db.readings + 1)))
        refine ⟨hsame, fun h => absurd (hkey ▸ mem_cons_self) h, fun _ => ?_⟩
        by_cases hrest : id ∈ ids
        · exact hmarks (hkey ▸ hrest)
        · rw [hkeeps (hkey ▸ hrest)]
          rfl
      · obtain ⟨hsame, hkeeps, hmarks⟩ := hf job
        refine ⟨hsame, fun h => hkeeps fun hmem => h (mem_cons_of_mem _ hmem), fun h => ?_⟩
        exact hmarks ((mem_cons.1 h).resolve_left hkey)
    · intro process
      dsimp only
      split_ifs with hid
      · exact ⟨(hg _).1, fun h => absurd (hid ▸ mem_cons_self) h⟩
      · exact ⟨(hg _).1, fun h => (hg _).2 fun hmem => h (mem_cons_of_mem _ hmem)⟩

def missing (db : Database) (worker : Uuid) (inventory : Inventory) : List Uuid :=
  (db.expected worker).filter (· ∉ inventory.executions)

theorem mem_missing {inventory : Inventory} : id ∈ db.missing worker inventory ↔
      (∃ job ∈ db.jobs, job.workerNodeId = worker ∧ job.dispatchState.isTerminal = false ∧
        job.key = id) ∧ id ∉ inventory.executions := by
  simp [missing, expected, and_assoc]

variable (now) in
theorem reconcileWorker_rows (db : Database) (worker : Uuid) (inventory : Inventory) :
    ∃ (clock : JobSummary → ℕ) (f : JobRecord → JobRecord) (g : ProcessRecord → ProcessRecord),
      (db.reconcileWorker now worker inventory).jobs = db.jobs.map (fun job =>
          f (written (fun summary =>
            (db.verdict worker summary).writeJob now summary (clock summary))
            JobRecord.key inventory.summaries job)) ∧
      (db.reconcileWorker now worker inventory).processes = db.processes.map (fun process =>
          g (written (fun summary =>
            (db.verdict worker summary).writeProcess now (clock summary))
            ProcessRecord.key inventory.summaries process)) ∧
      (∀ job, (f job).key = job.key ∧ (job.key ∉ db.missing worker inventory → f job = job) ∧
        (job.key ∈ db.missing worker inventory → (f job).dispatchState = .indeterminate)) ∧
      ∀ process, (g process).key = process.key ∧
        (process.key ∉ db.missing worker inventory → g process = process) := by
  obtain ⟨clock, hjobs, hprocesses⟩ := foldl_reconcileSummary now inventory.keyed db worker
  obtain ⟨f, g, hmarked, hcompleted, hf, hg⟩ :=
    foldl_markIndeterminate now (db.missing worker inventory)
      (inventory.summaries.foldl (fun db summary => db.reconcileSummary now worker summary) db)
  refine ⟨clock, f, g, ?_, ?_, hf, hg⟩
  · exact hmarked.trans (by rw [hjobs, map_map]; rfl)
  · exact hcompleted.trans (by rw [hprocesses, map_map]; rfl)

theorem missing_reconcileWorker (db : Database) (worker : Uuid) (inventory : Inventory) :
    (db.reconcileWorker now worker inventory).missing worker inventory = [] := by
  obtain ⟨clock, f, g, hjobs, -, hf, -⟩ := reconcileWorker_rows now db worker inventory
  rw [eq_nil_iff_forall_not_mem]
  intro id hmem
  obtain ⟨⟨job, hjob, hworker, hstate, hkey⟩, hid⟩ := mem_missing.1 hmem
  rw [hjobs] at hjob
  obtain ⟨before, hbefore, rfl⟩ := mem_map.1 hjob
  rw [(hf _).1, written_key fun _ _ => writeJob_keeps.1] at hkey
  rw [written_of_not_mem (by rw [hkey]; exact hid)] at hworker hstate
  by_cases hmissing : before.key ∈ db.missing worker inventory
  · rw [(hf before).2.2 hmissing] at hstate
    cases hstate
  · rw [(hf before).2.1 hmissing] at hworker hstate
    exact hmissing (mem_missing.2 ⟨⟨before, hbefore, hworker, hstate, rfl⟩, by rwa [hkey]⟩)

theorem verdict_reconcileWorker {inventory : Inventory} (hsummary : summary ∈ inventory.summaries) :
    (db.reconcileWorker now worker inventory).verdict worker summary =
      db.verdict worker summary := by
  obtain ⟨clock, f, g, hjobs, hprocesses, hf, hg⟩ := reconcileWorker_rows now db worker inventory
  have hid : summary.executionId ∈ inventory.executions := mem_map.2 ⟨summary, hsummary, rfl⟩
  have hmissing : summary.executionId ∉ db.missing worker inventory :=
    fun h => (mem_missing.1 h).2 hid
  have hknown : (db.reconcileWorker now worker inventory).findByExecutionId summary.executionId =
      (db.findByExecutionId summary.executionId).map
        ((db.verdict worker summary).writeJob now summary (clock summary)) := by
    unfold findByExecutionId
    rw [hjobs, find?_map_key JobRecord.key fun job =>
      (hf _).1.trans (written_key fun _ _ => writeJob_keeps.1)]
    apply Option.map_congr
    intro job hjob
    have hkey : job.key = summary.executionId := by simpa using List.find?_some hjob
    rw [written_of_mem inventory.keyed hsummary hkey.symm,
      (hf _).2.1 (by rw [writeJob_keeps.1, hkey]; exact hmissing)]
  have hprocess : (db.reconcileWorker now worker inventory).findById summary.executionId =
      (db.findById summary.executionId).map
        ((db.verdict worker summary).writeProcess now (clock summary)) := by
    unfold findById
    rw [hprocesses, find?_map_key ProcessRecord.key fun process =>
      (hg _).1.trans (written_key fun _ _ => writeProcess_key)]
    apply Option.map_congr
    intro process hprocess
    have hkey : process.key = summary.executionId := by simpa using List.find?_some hprocess
    rw [written_of_mem inventory.keyed hsummary hkey.symm,
      (hg _).2 (by rw [writeProcess_key, hkey]; exact hmissing)]
  unfold verdict
  rw [hknown, hprocess]
  exact judge_write now worker summary _ _ _

end Database

open Database in
/-- **Reconciling twice.** -/
theorem reconcileWorker_twice (db : Database) (worker : Uuid) (inventory : Inventory) :
    let first := db.reconcileWorker now worker inventory
    let second := first.reconcileWorker now worker inventory
    Forall₂ (JobRecord.Restamped inventory.executions) first.jobs second.jobs ∧
      Forall₂ (ProcessRecord.Restamped inventory.executions) first.processes second.processes := by
  intro first second
  obtain ⟨clock, f, g, hjobs, hprocesses, hf, hg⟩ := reconcileWorker_rows now db worker inventory
  obtain ⟨later, f', g', hjobs', hprocesses', hf', hg'⟩ :=
    reconcileWorker_rows now first worker inventory
  have hnone : first.missing worker inventory = [] := missing_reconcileWorker db worker inventory
  constructor
  · rw [show second.jobs = _ from hjobs', forall₂_map_right_iff, forall₂_same]
    intro job hjob
    rw [(hf' _).2.1 (by rw [hnone]; exact not_mem_nil)]
    by_cases hmem : job.key ∈ inventory.executions
    · obtain ⟨summary, hsummary, hkey⟩ := mem_map.1 hmem
      rw [show first.jobs = _ from hjobs] at hjob
      obtain ⟨before, -, rfl⟩ := mem_map.1 hjob
      rw [(hf _).1, written_key fun _ _ => writeJob_keeps.1] at hkey hmem
      have hfirst : f (written (fun summary => (db.verdict worker summary).writeJob now summary
          (clock summary)) JobRecord.key inventory.summaries before) =
            (db.verdict worker summary).writeJob now summary (clock summary) before := by
        rw [written_of_mem inventory.keyed hsummary hkey]
        refine (hf _).2.1 fun h => (mem_missing.1 h).2 ?_
        rwa [writeJob_keeps.1]
      rw [hfirst, written_of_mem inventory.keyed hsummary
        (hkey.trans writeJob_keeps.1.symm), verdict_reconcileWorker hsummary]
      exact writeJob_restamped _ _ _ _ _ hmem
    · rw [written_of_not_mem hmem]
      exact .refl _
  · rw [show second.processes = _ from hprocesses', forall₂_map_right_iff, forall₂_same]
    intro process hprocess
    rw [(hg' _).2 (by rw [hnone]; exact not_mem_nil)]
    by_cases hmem : process.key ∈ inventory.executions
    · obtain ⟨summary, hsummary, hkey⟩ := mem_map.1 hmem
      rw [show first.processes = _ from hprocesses] at hprocess
      obtain ⟨before, -, rfl⟩ := mem_map.1 hprocess
      rw [(hg _).1, written_key fun _ _ => writeProcess_key] at hkey hmem
      have hfirst : g (written (fun summary => (db.verdict worker summary).writeProcess now
          (clock summary)) ProcessRecord.key inventory.summaries before) =
            (db.verdict worker summary).writeProcess now (clock summary) before := by
        rw [written_of_mem inventory.keyed hsummary hkey]
        refine (hg _).2 fun h => (mem_missing.1 h).2 ?_
        rwa [writeProcess_key]
      rw [hfirst, written_of_mem inventory.keyed hsummary
        (hkey.trans writeProcess_key.symm), verdict_reconcileWorker hsummary]
      exact writeProcess_restamped _ _ _ _ hmem
    · rw [written_of_not_mem hmem]
      exact .refl _

/-- An execution that its worker has completed, reconciled twice: its times move. -/
theorem reconcileWorker_restamps :
    let evidence : TerminalEvidence :=
      { state := .completed, exitCode := some 0, signal := none, observedAt := 7 }
    let db : Database :=
      { jobs :=
          [{ executionProcessId := 1, workerNodeId := 2, workerJobId := 3, requestDigest := "",
             lastEventSequence := 4, workerLastSequence := 4, outputComplete := true,
             dispatchState := .completed, terminalEvidence := some evidence,
             acceptedAt := some 5, completedAt := some 7, updatedAt := 8 }]
        processes := [{ id := 1, status := .completed, exitCode := some 0, completedAt := some 9 }]
        readings := 10 }
    let inventory : Inventory :=
      { summaries :=
          [{ executionId := 1, workerJobId := 3, workspaceId := 6, requestDigest := "",
             state := .completed, lastSequence := 4, terminal := some evidence }]
        keyed := by decide }
    let first := db.reconcileWorker id 2 inventory
    let second := first.reconcileWorker id 2 inventory
    first.jobs ≠ second.jobs ∧ first.processes ≠ second.processes := by
  decide +kernel

end VibeKanban.Coordinator

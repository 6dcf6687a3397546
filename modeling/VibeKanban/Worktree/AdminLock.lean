import VibeKanban.Lib.Lease
import VibeKanban.Lib.Runs

/-!
# The lock of a repository's administration (`db/src/models/repository_admin_lock.rs`,
`worktree-manager/src/worktree_manager.rs`, 286-423)

An operation on the worktrees of a repository first gets a mutex of its process, then a lease of the
database: one conditional upsert, tried until a deadline. The guard gives back the lease of its own
generation. Processes share the database and a clock. One step is a look at the clock, a statement,
or the end of a sleep or of an operation. A statement may be executed without its answer, and a call
that is dropped leaves its statement behind.

* `fencing`: in every reachable state the lock is fenced.
-/

namespace VibeKanban.Worktree

open Lib List Function

/-! ## The table -/

/-- A row of `repository_admin_locks`. Times are in nanoseconds; the database compares their
    texts, which has the same result. -/
structure RepositoryAdminLock where
  repoId : ℕ
  generation : ℕ
  operationId : ℕ
  acquiredAt : ℕ
  leaseExpiresAt : ℕ
  deriving DecidableEq

def i64Max : ℕ := 2 ^ 63 - 1

/-- `generation + 1` of SQLite: from the end of its integers on a real number, which stays. -/
def nextGeneration (generation : ℕ) : ℕ :=
  if generation ≤ i64Max then generation + 1 else generation

namespace RepositoryAdminLock

/-- The row that the upsert of `acquire` writes, if it does (lines 29-44). -/
def acquire (row : Option RepositoryAdminLock) (repoId operationId now leaseExpiresAt : ℕ) :
    Option RepositoryAdminLock :=
  match row with
  | none => some ⟨repoId, 1, operationId, now, leaseExpiresAt⟩
  | some lock =>
    if lock.leaseExpiresAt ≤ now ∨ lock.operationId = operationId then
      some ⟨repoId, nextGeneration lock.generation, operationId, now, leaseExpiresAt⟩
    else none

/-- The row that the update of `release` writes, if it does (lines 61-66). -/
def release (row : Option RepositoryAdminLock) (generation operationId : ℕ) :
    Option RepositoryAdminLock :=
  match row with
  | some lock =>
    if lock.generation = generation ∧ lock.operationId = operationId then
      some { lock with leaseExpiresAt := lock.acquiredAt }
    else none
  | none => none

def cell (lock : RepositoryAdminLock) : ℕ × ℕ := (lock.generation, lock.leaseExpiresAt)

end RepositoryAdminLock

/-! ## The operations -/

/-- The errors of `WorktreeError` that the lock has; `other` are those of an operation. -/
inductive WorktreeError where
  | invalidPath (path : String)
  | invalidLeaseDuration
  | database
  | repositoryLockBusy (repositoryId : ℕ)
  | repositoryLockLost (repositoryId : ℕ)
  | other (message : String)
  deriving DecidableEq

abbrev Outcome := Except WorktreeError Unit

instance : DecidableEq Outcome
  | .ok (), .ok () => isTrue rfl
  | .error e, .error e' => if h : e = e' then isTrue (by rw [h]) else isFalse (by simpa using h)
  | .ok (), .error _ => isFalse nofun
  | .error _, .ok () => isFalse nofun

/-- `finish_fenced_operation`, after the release. -/
def finishFencedOperation (operation release : Outcome) : Outcome :=
  match operation with
  | .error error => .error error
  | .ok () => release

inductive Statement where
  | acquire (operationId now : ℕ)
  | release (record : RepositoryAdminLock)
  deriving DecidableEq

inductive Phase where
  | queued
  | trying (operationId deadline : ℕ)
  /-- the upsert, with the time that was read -/
  | acquiring (operationId deadline now : ℕ)
  | sleeping (operationId deadline wakeAt : ℕ)
  /-- the operation runs under the guard -/
  | working (record : RepositoryAdminLock)
  | releasing (record : RepositoryAdminLock) (operation : Outcome)
  | done (result : Outcome)
  | dropped (statement : Option Statement)
  deriving DecidableEq

def Phase.local : Phase → Bool
  | .trying _ _ | .acquiring _ _ _ | .sleeping _ _ _ | .working _ | .releasing _ _ => true
  | .queued | .done _ | .dropped _ => false

structure Task where
  process : ℕ
  repositoryId : ℕ
  phase : Phase

/-- A guard that was handed out. -/
structure Issued where
  lock : RepositoryAdminLock
  released : Bool

def Issued.mark (record : RepositoryAdminLock) (guard : Issued) : Issued :=
  if guard.lock.repoId = record.repoId ∧ guard.lock.generation = record.generation then
    { guard with released := true }
  else guard

/-- The processes and the database. `issued` is not in the source. -/
structure System where
  clock : ℕ
  rows : ℕ → Option RepositoryAdminLock
  tasks : List Task
  operationIds : List ℕ
  issued : List Issued

/-- What becomes of a statement: its answer comes back or is lost, or it is not executed. -/
inductive Answer where
  | received
  | lost
  | failed

inductive Action where
  | tick (clock : ℕ)
  | call (process repositoryId : ℕ) (repositoryPath : String)
  /-- it gets the mutex of its process, and a new `operation_id` -/
  | enter (i operationId : ℕ)
  | readClock (i : ℕ)
  | acquire (i : ℕ) (answer : Answer)
  | wake (i : ℕ)
  | finish (i : ℕ) (operation : Outcome)
  | release (i : ℕ) (answer : Answer)
  | drop (i : ℕ)
  /-- a statement that was left behind is executed -/
  | execute (i : ℕ)
  | crash (process : ℕ)

/-- The largest `TimeDelta`. -/
def timeDeltaMax : ℕ := i64Max * 10 ^ 6

def retryInterval : ℕ := 10 ^ 8

namespace System

def setPhase (s : System) (i : ℕ) (task : Task) (phase : Phase) : System :=
  { s with tasks := s.tasks.set i { task with phase := phase } }

def setRow (s : System) (repoId : ℕ) (row : Option RepositoryAdminLock) : System :=
  { s with rows := update s.rows repoId row }

def markReleased (s : System) (record : RepositoryAdminLock) : System :=
  { s with issued := s.issued.map (Issued.mark record) }

/-- The statement of a release, with `rows_affected() == 1`. -/
def runRelease (s : System) (record : RepositoryAdminLock) : System × Bool :=
  match RepositoryAdminLock.release (s.rows record.repoId) record.generation record.operationId with
  | some lock => ((s.setRow record.repoId (some lock)).markReleased record, true)
  | none => (s, false)

variable (leaseDuration : ℕ → ℕ)

/-- The statement of an acquisition at the time `now`. -/
def runAcquire (s : System) (task : Task) (operationId now : ℕ) :
    System × Option RepositoryAdminLock :=
  match RepositoryAdminLock.acquire (s.rows task.repositoryId) task.repositoryId operationId now
    (now + leaseDuration task.process) with
  | some lock => (s.setRow task.repositoryId (some lock), some lock)
  | none => (s, none)

/-- One step; `leaseDuration` is that of the process's manager. -/
def step (s : System) : Action → Option System
  | .tick clock => if s.clock ≤ clock then some { s with clock := clock } else none
  | .call process repositoryId repositoryPath =>
    let phase := if repositoryPath.toList.head? = some '/' then .queued
      else .done (.error (.invalidPath repositoryPath))
    some { s with tasks := s.tasks ++ [⟨process, repositoryId, phase⟩] }
  | .enter i operationId => do
    let task ← s.tasks[i]?
    if task.phase = .queued ∧ operationId ∉ s.operationIds ∧ ∀ other ∈ s.tasks,
        other.process = task.process → other.repositoryId = task.repositoryId →
          other.phase.local = false then
      if leaseDuration task.process ≤ timeDeltaMax then
        let s := s.setPhase i task (.trying operationId (s.clock + leaseDuration task.process))
        return { s with operationIds := operationId :: s.operationIds }
      else return s.setPhase i task (.done (.error .invalidLeaseDuration))
    else none
  | .readClock i => do
    let task ← s.tasks[i]?
    match task.phase with
    | .trying operationId deadline =>
      return s.setPhase i task (.acquiring operationId deadline s.clock)
    | _ => none
  | .acquire i answer => do
    let task ← s.tasks[i]?
    match task.phase with
    | .acquiring operationId deadline now =>
      match answer with
      | .failed => return s.setPhase i task (.done (.error .database))
      | .lost =>
        return (s.runAcquire leaseDuration task operationId now).1.setPhase i task
          (.done (.error .database))
      | .received =>
        match s.runAcquire leaseDuration task operationId now with
        | (s, some lock) =>
          -- the answer's generation is read as an `i64`
          if lock.generation ≤ i64Max then
            let s := s.setPhase i task (.working lock)
            return { s with issued := s.issued ++ [⟨lock, false⟩] }
          else return s.setPhase i task (.done (.error .database))
        | (s, none) =>
          if deadline ≤ s.clock then
            return s.setPhase i task (.done (.error (.repositoryLockBusy task.repositoryId)))
          else
            return s.setPhase i task
              (.sleeping operationId deadline (min deadline (s.clock + retryInterval)))
    | _ => none
  | .wake i => do
    let task ← s.tasks[i]?
    match task.phase with
    | .sleeping operationId deadline wakeAt =>
      if wakeAt ≤ s.clock then return s.setPhase i task (.trying operationId deadline) else none
    | _ => none
  | .finish i operation => do
    let task ← s.tasks[i]?
    match task.phase with
    | .working record => return s.setPhase i task (.releasing record operation)
    | _ => none
  | .release i answer => do
    let task ← s.tasks[i]?
    match task.phase with
    | .releasing record operation =>
      match answer with
      | .failed =>
        return s.setPhase i task (.done (finishFencedOperation operation (.error .database)))
      | .lost =>
        return (s.runRelease record).1.setPhase i task
          (.done (finishFencedOperation operation (.error .database)))
      | .received =>
        let (s, released) := s.runRelease record
        let release := if released then .ok () else .error (.repositoryLockLost record.repoId)
        return s.setPhase i task (.done (finishFencedOperation operation release))
    | _ => none
  | .drop i => do
    let task ← s.tasks[i]?
    match task.phase with
    | .done _ | .dropped _ => none
    | .acquiring operationId _ now =>
      return s.setPhase i task (.dropped (some (.acquire operationId now)))
    | .releasing record _ => return s.setPhase i task (.dropped (some (.release record)))
    | _ => return s.setPhase i task (.dropped none)
  | .execute i => do
    let task ← s.tasks[i]?
    match task.phase with
    | .dropped (some (.acquire operationId now)) =>
      return (s.runAcquire leaseDuration task operationId now).1.setPhase i task (.dropped none)
    | .dropped (some (.release record)) =>
      return (s.runRelease record).1.setPhase i task (.dropped none)
    | _ => none
  | .crash process =>
    some { s with tasks := s.tasks.map fun task =>
      if task.process = process then { task with phase := .dropped none } else task }

def start : System := ⟨0, fun _ => none, [], [], []⟩

end System

/-! ## The invariant -/

def Issued.grant (guard : Issued) : Grant :=
  ⟨guard.lock.generation, guard.lock.leaseExpiresAt, guard.released⟩

/-- The `operation_id` with which it has still to run an upsert. -/
def Phase.operationId? : Phase → Option ℕ
  | .trying operationId _ | .acquiring operationId _ _ | .sleeping operationId _ _
  | .dropped (some (.acquire operationId _)) => some operationId
  | _ => none

/-- The time that it has read for the upsert. -/
def Phase.readAt? : Phase → Option ℕ
  | .acquiring _ _ now | .dropped (some (.acquire _ now)) => some now
  | _ => none

namespace System

def grants (s : System) (repoId : ℕ) : List Grant :=
  (s.issued.filter (·.lock.repoId = repoId)).map Issued.grant

/-- The call has still to run an upsert with the `operation_id`. -/
def Pending (s : System) (i operationId : ℕ) : Prop :=
  ∃ task, s.tasks[i]? = some task ∧ task.phase.operationId? = some operationId

/-- Each row is a fenced lease; an `operation_id` belongs to one call, and no row has it before
    the call's upsert; a time that was read is past. -/
structure Consistent (s : System) : Prop where
  fenced : ∀ repoId, Fenced s.clock ((s.rows repoId).map RepositoryAdminLock.cell) (s.grants repoId)
  used : ∀ i operationId, s.Pending i operationId → operationId ∈ s.operationIds
  unwritten : ∀ i operationId, s.Pending i operationId →
    ∀ repoId lock, s.rows repoId = some lock → lock.operationId ≠ operationId
  unique : ∀ i j operationId, s.Pending i operationId → s.Pending j operationId → i = j
  written : ∀ repoId lock, s.rows repoId = some lock → lock.operationId ∈ s.operationIds
  past : ∀ task ∈ s.tasks, ∀ now, task.phase.readAt? = some now → now ≤ s.clock

variable {s s' : System} {i : ℕ} {task : Task} {phase : Phase}
  {lock record : RepositoryAdminLock} {leaseDuration : ℕ → ℕ}

/-! ## Frames -/

open RepositoryAdminLock

theorem getElem?_setPhase (h : s.tasks[i]? = some task) (j : ℕ) :
    (s.setPhase i task phase).tasks[j]? =
      if i = j then some { task with phase := phase } else s.tasks[j]? := by
  show (s.tasks.set i _)[j]? = _
  obtain ⟨hlt, -⟩ := List.getElem?_eq_some_iff.1 h
  rw [List.getElem?_set]
  split_ifs <;> rfl

theorem pending_setPhase (h : s.tasks[i]? = some task) (j operationId : ℕ) :
    (s.setPhase i task phase).Pending j operationId ↔
      if i = j then phase.operationId? = some operationId else s.Pending j operationId := by
  unfold Pending
  rw [getElem?_setPhase h]
  split_ifs
  · simp
  · rfl

theorem mem_setPhase {other : Task} (h : other ∈ (s.setPhase i task phase).tasks) :
    other = { task with phase := phase } ∨ other ∈ s.tasks :=
  (mem_or_eq_of_mem_set h).symm

theorem Consistent.of_pending (h : s.Consistent) {tasks : List Task}
    (hpending : ∀ j operationId, Pending { s with tasks := tasks } j operationId →
      s.Pending j operationId)
    (hpast : ∀ task ∈ tasks, ∀ now, task.phase.readAt? = some now → now ≤ s.clock) :
    ({ s with tasks := tasks } : System).Consistent := by
  refine ⟨h.fenced, ?_, ?_, ?_, h.written, hpast⟩
  · exact fun j operationId hj => h.used j operationId (hpending j operationId hj)
  · exact fun j operationId hj => h.unwritten j operationId (hpending j operationId hj)
  · intro j k operationId hj hk
    exact h.unique j k operationId (hpending j operationId hj) (hpending k operationId hk)

/-- A call goes on with the `operation_id` that it has, or with none. -/
theorem Consistent.setPhase (h : s.Consistent) (hi : s.tasks[i]? = some task)
    (hop : ∀ operationId, phase.operationId? = some operationId →
      task.phase.operationId? = some operationId)
    (hpast : ∀ now, phase.readAt? = some now → now ≤ s.clock) :
    (s.setPhase i task phase).Consistent := by
  apply h.of_pending
  · intro j operationId hj
    have hj := (pending_setPhase hi j operationId).1 hj
    split_ifs at hj with hij
    · exact hij ▸ ⟨task, hi, hop operationId hj⟩
    · exact hj
  · intro other hother now hnow
    rcases mem_setPhase hother with rfl | hold
    · exact hpast now hnow
    · exact h.past other hold now hnow

/-! ## Acquisition -/

variable {repoId operationId now leaseExpiresAt : ℕ}
  {row : Option RepositoryAdminLock} {generation : ℕ}

theorem acquire_spec (h : acquire row repoId operationId now leaseExpiresAt = some lock) :
    lock.repoId = repoId ∧ lock.operationId = operationId ∧
      lock.leaseExpiresAt = leaseExpiresAt ∧ ∀ old, row = some old →
        (old.leaseExpiresAt ≤ now ∨ old.operationId = operationId) ∧
          lock.generation = nextGeneration old.generation := by
  unfold acquire at h
  cases row with
  | none =>
    cases h
    exact ⟨rfl, rfl, rfl, nofun⟩
  | some old =>
    dsimp only at h
    split_ifs at h with hfree
    cases h
    refine ⟨rfl, rfl, rfl, ?_⟩
    intro old' hold
    cases hold
    exact ⟨hfree, rfl⟩

theorem le_nextGeneration (generation : ℕ) : generation ≤ nextGeneration generation := by
  unfold nextGeneration
  split_ifs <;> omega

theorem lt_of_nextGeneration (h : nextGeneration generation ≤ i64Max) :
    generation < nextGeneration generation := by
  unfold nextGeneration at h ⊢
  split_ifs at h ⊢ <;> omega

theorem grants_append (s : System) (lock : RepositoryAdminLock) (repoId : ℕ) :
    ({ s with issued := s.issued ++ [⟨lock, false⟩] } : System).grants repoId =
      s.grants repoId ++
        if lock.repoId = repoId then [⟨lock.generation, lock.leaseExpiresAt, false⟩] else [] := by
  unfold grants
  split_ifs with heq
  · simp [heq, Issued.grant]
  · simp [heq]

section

variable (h : s.Consistent)

include h

/-- A row is written whose `operation_id` no call has any more, and whose lease is fenced. -/
theorem Consistent.setRow (issued : List Issued)
    (hused : lock.operationId ∈ s.operationIds) (hidle : ∀ j, ¬s.Pending j lock.operationId)
    (hfenced : Fenced s.clock (some lock.cell) (grants { s with issued := issued } repoId))
    (hother : ∀ repoId', repoId' ≠ repoId →
      grants { s with issued := issued } repoId' = s.grants repoId') :
    ({ s.setRow repoId (some lock) with issued := issued } : System).Consistent := by
  refine ⟨?_, h.used, ?_, h.unique, ?_, h.past⟩
  · intro repoId'
    show Fenced s.clock ((update s.rows repoId (some lock) repoId').map _)
      (grants { s with issued := issued } repoId')
    by_cases heq : repoId' = repoId
    · rw [heq, update_self]
      exact hfenced
    · rw [update_of_ne heq, hother repoId' heq]
      exact h.fenced repoId'
  · intro j operationId hj repoId' lock' hrow
    replace hrow : update s.rows repoId (some lock) repoId' = some lock' := hrow
    by_cases heq : repoId' = repoId
    · rw [heq, update_self] at hrow
      cases hrow
      rintro rfl
      exact hidle j hj
    · rw [update_of_ne heq] at hrow
      exact h.unwritten j operationId hj repoId' lock' hrow
  · intro repoId' lock' hrow
    replace hrow : update s.rows repoId (some lock) repoId' = some lock' := hrow
    by_cases heq : repoId' = repoId
    · rw [heq, update_self] at hrow
      cases hrow
      exact hused
    · rw [update_of_ne heq] at hrow
      exact h.written repoId' lock' hrow

theorem Consistent.acquire_expired (hi : s.Pending i operationId) (hpast : now ≤ s.clock)
    (hacquire : acquire (s.rows repoId) repoId operationId now leaseExpiresAt = some lock) :
    (∀ generation expires, (s.rows repoId).map cell = some (generation, expires) →
      expires ≤ s.clock) ∧
    ∀ generation expires, (s.rows repoId).map cell = some (generation, expires) →
      lock.generation = nextGeneration generation := by
  obtain ⟨-, -, -, hold⟩ := acquire_spec hacquire
  constructor
  · intro generation expires hcell
    obtain ⟨old, hrow, heq⟩ := Option.map_eq_some_iff.1 hcell
    cases heq
    rcases (hold old hrow).1 with hexpired | hsame
    · exact Nat.le_trans hexpired hpast
    · exact absurd hsame (h.unwritten i operationId hi repoId old hrow)
  · intro generation expires hcell
    obtain ⟨old, hrow, heq⟩ := Option.map_eq_some_iff.1 hcell
    cases heq
    exact (hold old hrow).2

section

variable (hi : s.tasks[i]? = some task) (hop : task.phase.operationId? = some operationId)
include hi hop

/-- Once a call's upsert has run, nobody has its `operation_id` to run another. -/
theorem Consistent.not_pending (hnone : phase.operationId? = none) (j : ℕ) :
    ¬(s.setPhase i task phase).Pending j operationId := by
  rw [pending_setPhase hi]
  split_ifs with hij
  · rw [hnone]
    nofun
  · exact fun hj => hij (h.unique i j operationId ⟨task, hi, hop⟩ hj)

theorem Consistent.runAcquire (hpast : now ≤ s.clock)
    (hnone : phase.operationId? = none) (hread : phase.readAt? = none) :
    ((s.runAcquire leaseDuration task operationId now).1.setPhase i task phase).Consistent := by
  have hphase : (s.setPhase i task phase).Consistent :=
    h.setPhase hi (fun _ hsome => nomatch hnone.symm.trans hsome)
      (fun _ hsome => nomatch hread.symm.trans hsome)
  unfold System.runAcquire
  split
  · rename_i lock hacquire
    obtain ⟨hexpired, hnewer⟩ := h.acquire_expired ⟨task, hi, hop⟩ hpast hacquire
    obtain ⟨-, hlockop, -, -⟩ := acquire_spec hacquire
    have hfenced : Fenced s.clock (some lock.cell) (s.grants task.repositoryId) := by
      apply (h.fenced task.repositoryId).takeOver hexpired
      intro generation expires hcell
      rw [hnewer generation expires hcell]
      exact le_nextGeneration generation
    apply hphase.setRow s.issued _ _ hfenced fun _ _ => rfl
    · rw [hlockop]
      exact h.used i operationId ⟨task, hi, hop⟩
    · rw [hlockop]
      exact h.not_pending hi hop hnone
  · exact hphase

theorem Consistent.granted (hpast : now ≤ s.clock) (hacquire : acquire (s.rows task.repositoryId)
      task.repositoryId operationId now leaseExpiresAt = some lock)
    (hread : lock.generation ≤ i64Max) :
    ({ (s.setPhase i task (.working lock)).setRow task.repositoryId (some lock) with
        issued := s.issued ++ [⟨lock, false⟩] } : System).Consistent := by
  have hphase : (s.setPhase i task (.working lock)).Consistent := h.setPhase hi nofun nofun
  obtain ⟨hexpired, hnewer⟩ := h.acquire_expired ⟨task, hi, hop⟩ hpast hacquire
  obtain ⟨hrepo, hlockop, -, -⟩ := acquire_spec hacquire
  apply hphase.setRow
  · rw [hlockop]
    exact h.used i operationId ⟨task, hi, hop⟩
  · rw [hlockop]
    exact h.not_pending hi hop rfl
  · show Fenced s.clock (some lock.cell)
      (grants { s with issued := s.issued ++ [⟨lock, false⟩] } task.repositoryId)
    rw [grants_append, if_pos hrepo]
    apply (h.fenced task.repositoryId).grant hexpired
    intro generation expires hcell
    have heq := hnewer generation expires hcell
    rw [heq] at hread ⊢
    exact lt_of_nextGeneration hread
  · intro repoId hne
    show grants { s with issued := s.issued ++ [⟨lock, false⟩] } repoId = s.grants repoId
    rw [grants_append, if_neg (by rw [hrepo]; exact Ne.symm hne), append_nil]

end

end

variable {s₁ : System}

theorem runAcquire_eq_some (h : s.runAcquire leaseDuration task operationId now = (s₁, some lock)) :
    s₁ = s.setRow task.repositoryId (some lock) ∧
      acquire (s.rows task.repositoryId) task.repositoryId operationId now
        (now + leaseDuration task.process) = some lock := by
  unfold System.runAcquire at h
  split at h <;> cases h
  rename_i hacquire
  exact ⟨rfl, hacquire⟩

theorem runAcquire_eq_none
    (h : s.runAcquire leaseDuration task operationId now = (s₁, none)) : s₁ = s := by
  unfold System.runAcquire at h
  split at h <;> cases h
  rfl

/-! ## Release -/

theorem mark_lock (record : RepositoryAdminLock) (guard : Issued) :
    (guard.mark record).lock = guard.lock := by
  unfold Issued.mark
  split_ifs <;> rfl

theorem grant_mark (record : RepositoryAdminLock) (guard : Issued) : (guard.mark record).grant =
      if guard.lock.repoId = record.repoId then guard.grant.giveBack record.generation
      else guard.grant := by
  unfold Issued.mark Grant.giveBack Issued.grant
  by_cases hrepo : guard.lock.repoId = record.repoId
  · by_cases hgeneration : guard.lock.generation = record.generation
    all_goals simp [hrepo, hgeneration]
  · simp [hrepo]

theorem grants_markReleased (s : System) (record : RepositoryAdminLock) (repoId : ℕ) :
    (s.markReleased record).grants repoId =
      if repoId = record.repoId then (s.grants repoId).map (Grant.giveBack record.generation)
      else s.grants repoId := by
  have hfilter : (s.issued.map (Issued.mark record)).filter (·.lock.repoId = repoId) =
      (s.issued.filter (·.lock.repoId = repoId)).map (Issued.mark record) := by
    rw [filter_map]
    congr 2
    funext guard
    rw [comp_apply, mark_lock]
  unfold grants markReleased
  rw [hfilter, map_map]
  have hguard : ∀ guard ∈ s.issued.filter (·.lock.repoId = repoId), guard.lock.repoId = repoId :=
    fun guard hguard => of_decide_eq_true (mem_filter.1 hguard).2
  split_ifs with heq
  · rw [map_map]
    apply map_congr_left
    intro guard hmem
    rw [comp_apply, grant_mark, if_pos ((hguard guard hmem).trans heq), comp_apply]
  · apply map_congr_left
    intro guard hmem
    rw [comp_apply, grant_mark, if_neg]
    rw [hguard guard hmem]
    exact heq

theorem release_spec (h : release row generation operationId = some lock) :
    ∃ old, row = some old ∧ old.generation = generation ∧ old.operationId = operationId ∧
      lock = { old with leaseExpiresAt := old.acquiredAt } := by
  unfold release at h
  cases row with
  | none => cases h
  | some old =>
    dsimp only at h
    split_ifs at h with heq
    cases h
    exact ⟨old, rfl, heq.1, heq.2, rfl⟩

theorem Consistent.runRelease (h : s.Consistent) (record : RepositoryAdminLock) :
    (s.runRelease record).1.Consistent := by
  unfold System.runRelease
  split
  · rename_i hrelease
    obtain ⟨old, hrow, hgeneration, -, rfl⟩ := release_spec hrelease
    have hfenced := h.fenced record.repoId
    rw [hrow] at hfenced
    apply h.setRow (s.markReleased record).issued
    · exact h.written record.repoId old hrow
    · exact fun j hj => h.unwritten j _ hj record.repoId old hrow rfl
    · show Fenced s.clock _ ((s.markReleased record).grants record.repoId)
      rw [grants_markReleased, if_pos rfl, ← hgeneration]
      exact hfenced.giveBack
    · intro repoId hne
      show (s.markReleased record).grants repoId = _
      rw [grants_markReleased, if_neg hne]
  · exact h

theorem runRelease_tasks (s : System) (record : RepositoryAdminLock) :
    (s.runRelease record).1.tasks = s.tasks := by
  unfold System.runRelease
  split <;> rfl

theorem Consistent.released (h : s.Consistent) (hi : s.tasks[i]? = some task)
    (record : RepositoryAdminLock) (hnone : phase.operationId? = none)
    (hread : phase.readAt? = none) :
    ((s.runRelease record).1.setPhase i task phase).Consistent := by
  apply (h.runRelease record).setPhase
  · rw [runRelease_tasks]
    exact hi
  · exact fun _ hsome => nomatch hnone.symm.trans hsome
  · exact fun _ hsome => nomatch hread.symm.trans hsome

/-! ## Steps -/

theorem Consistent.of_tasks (h : s.Consistent) {tasks : List Task}
    (htasks : ∀ (j : ℕ) (task : Task), tasks[j]? = some task → s.tasks[j]? = some task ∨
      (task.phase.operationId? = none ∧ task.phase.readAt? = none)) :
    ({ s with tasks := tasks } : System).Consistent := by
  apply h.of_pending
  · rintro j operationId ⟨task, hj, hop⟩
    rcases htasks j task hj with hold | ⟨hnone, -⟩
    · exact ⟨task, hold, hop⟩
    · exact nomatch hnone.symm.trans hop
  · intro task htask now hnow
    obtain ⟨j, hj⟩ := mem_iff_getElem?.1 htask
    rcases htasks j task hj with hold | ⟨-, hnone⟩
    · exact h.past task (mem_of_getElem? hold) now hnow
    · exact nomatch hnone.symm.trans hnow

theorem Consistent.enter (h : s.Consistent) (hi : s.tasks[i]? = some task) {deadline : ℕ}
    (hnew : operationId ∉ s.operationIds) : ({ s.setPhase i task (.trying operationId deadline) with
        operationIds := operationId :: s.operationIds } : System).Consistent := by
  have hpending : ∀ j operationId', (s.setPhase i task (.trying operationId deadline)).Pending j
      operationId' → s.Pending j operationId' ∨ (j = i ∧ operationId' = operationId) := by
    intro j operationId' hj
    rw [pending_setPhase hi] at hj
    split_ifs at hj with hij
    · exact .inr ⟨hij.symm, (Option.some.inj hj).symm⟩
    · exact .inl hj
  refine ⟨h.fenced, ?_, ?_, ?_, ?_, ?_⟩
  · intro j operationId' hj
    rcases hpending j operationId' hj with hold | ⟨-, rfl⟩
    · exact mem_cons_of_mem _ (h.used j operationId' hold)
    · exact mem_cons_self
  · intro j operationId' hj repoId lock hrow
    rcases hpending j operationId' hj with hold | ⟨-, rfl⟩
    · exact h.unwritten j operationId' hold repoId lock hrow
    · rintro rfl
      exact hnew (h.written repoId lock hrow)
  · intro j k operationId' hj hk
    rcases hpending j operationId' hj with hold | ⟨rfl, rfl⟩
    · rcases hpending k operationId' hk with hold' | ⟨rfl, rfl⟩
      · exact h.unique j k operationId' hold hold'
      · exact absurd (h.used j operationId' hold) hnew
    · rcases hpending k _ hk with hold' | ⟨rfl, -⟩
      · exact absurd (h.used k _ hold') hnew
      · rfl
  · exact fun repoId lock hrow => mem_cons_of_mem _ (h.written repoId lock hrow)
  · intro other hother now hnow
    rcases mem_setPhase hother with rfl | hold
    · cases hnow
    · exact h.past other hold now hnow

/-- What a step does: the clock or some calls go on, an `operation_id` is drawn, the upsert or the
    delete of a call runs. -/
inductive Moves (leaseDuration : ℕ → ℕ) (s : System) (a : Action) : System → Prop
  | tick {clock : ℕ} (le : s.clock ≤ clock) : Moves leaseDuration s a { s with clock := clock }
  | idle {tasks : List Task}
      (kept : ∀ (j : ℕ) (task : Task), tasks[j]? = some task → s.tasks[j]? = some task ∨
        (task.phase.operationId? = none ∧ task.phase.readAt? = none) ∧
          task.phase ≠ .done (.ok ())) :
      Moves leaseDuration s a { s with tasks := tasks }
  | enter {i operationId deadline : ℕ} {task : Task} (mem : s.tasks[i]? = some task)
      (new : operationId ∉ s.operationIds) :
      Moves leaseDuration s a { s.setPhase i task (.trying operationId deadline) with
        operationIds := operationId :: s.operationIds }
  | goOn {i : ℕ} {task : Task} {phase : Phase} (mem : s.tasks[i]? = some task)
      (operation : ∀ operationId, phase.operationId? = some operationId →
        task.phase.operationId? = some operationId)
      (read : ∀ now, phase.readAt? = some now → now = s.clock ∨ task.phase.readAt? = some now)
      (notOk : phase ≠ .done (.ok ())) : Moves leaseDuration s a (s.setPhase i task phase)
  | acquire {i operationId now : ℕ} {task : Task} {phase : Phase} (mem : s.tasks[i]? = some task)
      (operation : task.phase.operationId? = some operationId)
      (read : task.phase.readAt? = some now) (noOperation : phase.operationId? = none)
      (noRead : phase.readAt? = none) (notOk : phase ≠ .done (.ok ())) :
      Moves leaseDuration s a
        ((s.runAcquire leaseDuration task operationId now).1.setPhase i task phase)
  | grant {i operationId now leaseExpiresAt : ℕ} {task : Task} {lock : RepositoryAdminLock}
      (mem : s.tasks[i]? = some task) (operation : task.phase.operationId? = some operationId)
      (read : task.phase.readAt? = some now)
      (acquired : acquire (s.rows task.repositoryId) task.repositoryId
        operationId now leaseExpiresAt = some lock) (readable : lock.generation ≤ i64Max) :
      Moves leaseDuration s a
        { (s.setPhase i task (.working lock)).setRow task.repositoryId (some lock) with
          issued := s.issued ++ [⟨lock, false⟩] }
  | release {i : ℕ} {task : Task} {record : RepositoryAdminLock} {phase : Phase}
      (mem : s.tasks[i]? = some task) (noOperation : phase.operationId? = none)
      (noRead : phase.readAt? = none)
      (ok : phase = .done (.ok ()) → task.phase = .releasing record (.ok ()) ∧
        a = .release i .received ∧ (s.runRelease record).2 = true) :
      Moves leaseDuration s a ((s.runRelease record).1.setPhase i task phase)

variable {a : Action} {task' : Task}

theorem moves_of_step (hstep : s.step leaseDuration a = some s') : s.Moves leaseDuration a s' := by
  cases a with
  | tick clock =>
    simp only [System.step] at hstep
    split_ifs at hstep with hle
    cases hstep
    exact .tick hle
  | call process repositoryId repositoryPath =>
    cases hstep
    refine .idle fun j task hj => ?_
    rw [getElem?_append] at hj
    split at hj
    · rename_i hlt
      exact .inl hj
    · rw [mem_singleton.1 (mem_of_getElem? hj)]
      right
      split_ifs <;> exact ⟨⟨rfl, rfl⟩, nofun⟩
  | crash process =>
    cases hstep
    refine .idle fun j task hj => ?_
    rw [getElem?_map] at hj
    obtain ⟨task', hj', rfl⟩ := Option.map_eq_some_iff.1 hj
    split_ifs
    · exact .inr ⟨⟨rfl, rfl⟩, nofun⟩
    · exact .inl hj'
  | enter i operationId =>
    obtain ⟨task, hi, hstep⟩ := Option.bind_eq_some_iff.1 hstep
    split_ifs at hstep with henabled <;> cases hstep
    · exact .enter hi henabled.2.1
    · exact .goOn hi nofun nofun nofun
  | readClock i =>
    obtain ⟨task, hi, hstep⟩ := Option.bind_eq_some_iff.1 hstep
    split at hstep <;> cases hstep
    rename_i hphase
    refine .goOn hi (fun _ hop => hphase ▸ hop) ?_ nofun
    rintro now ⟨⟩
    exact .inl rfl
  | acquire i answer =>
    obtain ⟨task, hi, hstep⟩ := Option.bind_eq_some_iff.1 hstep
    split at hstep
    · rename_i operationId deadline now hphase
      have hop : task.phase.operationId? = some operationId := by rw [hphase]; rfl
      have hread : task.phase.readAt? = some now := by rw [hphase]; rfl
      cases answer with
      | failed =>
        cases hstep
        exact .goOn hi nofun nofun nofun
      | lost =>
        cases hstep
        exact .acquire hi hop hread rfl rfl nofun
      | received =>
        dsimp only at hstep
        split at hstep
        · rename_i hrun
          split_ifs at hstep with hreadable
          · obtain ⟨rfl, hacquire⟩ := runAcquire_eq_some hrun
            cases hstep
            exact .grant hi hop hread hacquire hreadable
          · cases hstep
            have hmove : s.Moves leaseDuration (.acquire i .received)
                ((s.runAcquire leaseDuration task operationId now).1.setPhase i task
                  (.done (.error .database))) := .acquire hi hop hread rfl rfl nofun
            rw [hrun] at hmove
            exact hmove
        · rename_i hrun
          rw [runAcquire_eq_none hrun] at hstep
          split_ifs at hstep <;> cases hstep
          · exact .goOn hi nofun nofun nofun
          · exact .goOn hi (fun _ hsome => hop.trans hsome) nofun nofun
    · cases hstep
  | wake i =>
    obtain ⟨task, hi, hstep⟩ := Option.bind_eq_some_iff.1 hstep
    split at hstep
    · rename_i hphase
      split_ifs at hstep
      cases hstep
      exact .goOn hi (fun _ hop => hphase ▸ hop) nofun nofun
    · cases hstep
  | finish i operation =>
    obtain ⟨task, hi, hstep⟩ := Option.bind_eq_some_iff.1 hstep
    split at hstep <;> cases hstep
    exact .goOn hi nofun nofun nofun
  | release i answer =>
    simp only [System.step] at hstep
    obtain ⟨task, hi, hstep⟩ := Option.bind_eq_some_iff.1 hstep
    split at hstep
    · rename_i record operation hphase
      cases answer with cases hstep
      | failed =>
        refine .goOn hi nofun nofun ?_
        cases operation <;> nofun
      | lost =>
        refine .release hi rfl rfl ?_
        cases operation <;> nofun
      | received =>
        refine .release hi rfl rfl fun hok => ?_
        cases operation with
        | ok _ =>
          refine ⟨hphase, rfl, ?_⟩
          cases hreleased : (s.runRelease record).2 with
          | true => rfl
          | false =>
            simp only [hreleased] at hok
            cases hok
        | error error => cases hok
    · cases hstep
  | drop i =>
    obtain ⟨task, hi, hstep⟩ := Option.bind_eq_some_iff.1 hstep
    split at hstep
    · cases hstep
    · cases hstep
    · rename_i hphase
      cases hstep
      exact .goOn hi (fun _ hop => hphase ▸ hop) (fun _ hread => .inr (hphase ▸ hread)) nofun
    all_goals
      cases hstep
      exact .goOn hi nofun nofun nofun
  | execute i =>
    obtain ⟨task, hi, hstep⟩ := Option.bind_eq_some_iff.1 hstep
    split at hstep <;> cases hstep
    · rename_i hphase
      exact .acquire hi (by rw [hphase]; rfl) (by rw [hphase]; rfl) rfl rfl nofun
    · exact .release hi rfl rfl nofun

theorem Consistent.step (h : s.Consistent) (hstep : s.step leaseDuration a = some s') :
    s'.Consistent := by
  have hpast : ∀ {i : ℕ} {task : Task} {now : ℕ}, s.tasks[i]? = some task →
      task.phase.readAt? = some now → now ≤ s.clock :=
    fun hi hread => h.past _ (mem_of_getElem? hi) _ hread
  cases moves_of_step hstep with
  | tick hle =>
    exact ⟨fun repoId => (h.fenced repoId).tick hle, h.used, h.unwritten, h.unique, h.written,
      fun task htask now hnow => Nat.le_trans (h.past task htask now hnow) hle⟩
  | idle kept => exact h.of_tasks fun j task hj => (kept j task hj).imp_right And.left
  | enter mem new => exact h.enter mem new
  | goOn mem operation read =>
    apply h.setPhase mem operation
    intro now hnow
    rcases read now hnow with rfl | hold
    · exact Nat.le_refl _
    · exact hpast mem hold
  | acquire mem operation read noOperation noRead =>
    exact h.runAcquire mem operation (hpast mem read) noOperation noRead
  | grant mem operation read acquired readable =>
    exact h.granted mem operation (hpast mem read) acquired readable
  | release mem noOperation noRead => exact h.released mem _ noOperation noRead

theorem consistent_start : start.Consistent where
  fenced _ := .nil
  used i operationId h := by
    obtain ⟨task, hi, -⟩ := h
    cases hi
  unwritten i operationId h := by
    obtain ⟨task, hi, -⟩ := h
    cases hi
  unique i j operationId h := by
    obtain ⟨task, hi, -⟩ := h
    cases hi
  written _ _ h := nomatch h
  past _ h := nomatch h

/-- The lease has been given to somebody else since. -/
def TakenOver (s : System) (record : RepositoryAdminLock) : Prop :=
  ∃ lock, s.rows record.repoId = some lock ∧ record.generation < lock.generation

/-- No newer generation has been written or handed out. -/
def Newest (s : System) (record : RepositoryAdminLock) : Prop :=
  (∃ lock, s.rows record.repoId = some lock ∧ lock.generation = record.generation) ∧
    ∀ guard ∈ s.issued, guard.lock.repoId = record.repoId →
      guard.lock.generation ≤ record.generation

/-- What the lock guarantees in a state: for each repository the generations are handed out in
    increasing order; the lease of at most one guard is neither expired nor released; a release
    after a takeover changes no row, and the operation reports the loss unless it has failed
    itself; an operation that comes to its end with success had the newest generation. -/
structure Fencing (leaseDuration : ℕ → ℕ) (s : System) : Prop where
  increasing : s.issued.Pairwise fun guard guard' =>
    guard.lock.repoId = guard'.lock.repoId → guard.lock.generation < guard'.lock.generation
  exclusive : ∀ (i j : ℕ) (guard guard' : Issued), s.issued[i]? = some guard →
    s.issued[j]? = some guard' → guard.lock.repoId = guard'.lock.repoId → guard.grant.Live s.clock →
    guard'.grant.Live s.clock →
      i = j
  lost : ∀ (i : ℕ) (task : Task) record operation s', s.tasks[i]? = some task →
    task.phase = .releasing record operation → s.TakenOver record →
    s.step leaseDuration (.release i .received) = some s' →
      s'.rows = s.rows ∧ (operation = .ok () → s'.tasks[i]? =
        some { task with phase := .done (.error (.repositoryLockLost record.repoId)) })
  kept : ∀ record, s.TakenOver record → (s.runRelease record).1 = s
  newest : ∀ a s' (i : ℕ) (task' : Task), s.step leaseDuration a = some s' →
    s'.tasks[i]? = some task' → task'.phase = .done (.ok ()) → s.tasks[i]? ≠ some task' →
      ∃ task record, s.tasks[i]? = some task ∧ task.phase = .releasing record (.ok ()) ∧
        a = .release i .received ∧ s.Newest record

theorem Consistent.increasing (h : s.Consistent) : s.issued.Pairwise fun guard guard' =>
    guard.lock.repoId = guard'.lock.repoId → guard.lock.generation < guard'.lock.generation := by
  have hrepo : ∀ repoId, s.issued.Pairwise fun guard guard' => guard.lock.repoId = repoId →
      guard'.lock.repoId = repoId → guard.lock.generation < guard'.lock.generation := by
    intro repoId
    have hincreasing := (h.fenced repoId).increasing
    unfold grants at hincreasing
    rw [map_map, pairwise_map, pairwise_filter] at hincreasing
    simpa [Issued.grant] using hincreasing
  rw [pairwise_iff_getElem]
  intro i j hi hj hij heq
  exact pairwise_iff_getElem.1 (hrepo s.issued[i].lock.repoId) i j hi hj hij rfl heq.symm

theorem Consistent.exclusive (h : s.Consistent) {i j : ℕ} {guard guard' : Issued}
    (hi : s.issued[i]? = some guard) (hj : s.issued[j]? = some guard')
    (hrepo : guard.lock.repoId = guard'.lock.repoId) (hlive : guard.grant.Live s.clock)
    (hlive' : guard'.grant.Live s.clock) : i = j := by
  have hfenced := h.fenced guard.lock.repoId
  have hmem : guard.grant ∈ s.grants guard.lock.repoId :=
    List.mem_map_of_mem (List.mem_filter.2 ⟨List.mem_of_getElem? hi, decide_eq_true rfl⟩)
  have hmem' : guard'.grant ∈ s.grants guard.lock.repoId :=
    List.mem_map_of_mem (List.mem_filter.2 ⟨List.mem_of_getElem? hj, decide_eq_true hrepo.symm⟩)
  -- both are the lease of the row
  have hcell := (hfenced.live _ hmem hlive).symm.trans (hfenced.live _ hmem' hlive')
  have hgeneration : guard.lock.generation = guard'.lock.generation :=
    (Prod.mk.inj (Option.some.inj hcell)).1
  have hincreasing := List.pairwise_iff_getElem.1 h.increasing
  obtain ⟨hilt, rfl⟩ := List.getElem?_eq_some_iff.1 hi
  obtain ⟨hjlt, rfl⟩ := List.getElem?_eq_some_iff.1 hj
  rcases Nat.lt_trichotomy i j with hlt | heq | hgt
  · exact absurd hgeneration (Nat.ne_of_lt (hincreasing i j hilt hjlt hlt hrepo))
  · exact heq
  · exact absurd hgeneration.symm (Nat.ne_of_lt (hincreasing j i hjlt hilt hgt hrepo.symm))

theorem runRelease_of_takenOver (h : s.TakenOver record) : s.runRelease record = (s, false) := by
  obtain ⟨lock, hrow, hlt⟩ := h
  unfold System.runRelease release
  rw [hrow]
  dsimp only
  rw [if_neg fun heq => Nat.ne_of_gt hlt heq.1]

theorem lost (hi : s.tasks[i]? = some task) {operation : Outcome}
    (hphase : task.phase = .releasing record operation) (hover : s.TakenOver record)
    (hstep : s.step leaseDuration (.release i .received) = some s') :
    s'.rows = s.rows ∧ (operation = .ok () → s'.tasks[i]? =
      some { task with phase := .done (.error (.repositoryLockLost record.repoId)) }) := by
  simp only [System.step, hi, Option.bind_eq_bind, Option.bind_some, hphase,
    runRelease_of_takenOver hover] at hstep
  cases hstep
  refine ⟨rfl, ?_⟩
  rintro rfl
  rw [getElem?_setPhase hi, if_pos rfl]
  rfl

theorem Consistent.newest (h : s.Consistent) (hrelease : (s.runRelease record).2 = true) :
    s.Newest record := by
  unfold System.runRelease at hrelease
  split at hrelease
  · rename_i hrow
    obtain ⟨old, hrow, hgeneration, -, -⟩ := release_spec hrow
    refine ⟨⟨old, hrow, hgeneration⟩, ?_⟩
    intro guard hguard hrepo
    have hmem : guard.grant ∈ s.grants record.repoId :=
      mem_map_of_mem (mem_filter.2 ⟨hguard, decide_eq_true hrepo⟩)
    obtain ⟨generation, expires, hcell, hle⟩ := (h.fenced record.repoId).newest _ hmem
    rw [hrow] at hcell
    cases hcell
    exact hgeneration ▸ hle
  · cases hrelease

theorem changed {j : ℕ} (htasks : s₁.tasks = s.tasks)
    (hi : s.tasks[i]? = some task) (hget : (s₁.setPhase i task phase).tasks[j]? = some task')
    (hne : s.tasks[j]? ≠ some task') : i = j ∧ task' = { task with phase := phase } := by
  rw [getElem?_setPhase (htasks ▸ hi), htasks] at hget
  split_ifs at hget with hij
  · exact ⟨hij, (Option.some.inj hget).symm⟩
  · exact absurd hget hne

theorem runAcquire_tasks (s : System) (task : Task) (operationId now : ℕ) :
    (s.runAcquire leaseDuration task operationId now).1.tasks = s.tasks := by
  unfold System.runAcquire
  split <;> rfl

theorem ok_of_step (hstep : s.step leaseDuration a = some s')
    (hget : s'.tasks[i]? = some task') (hok : task'.phase = .done (.ok ()))
    (hne : s.tasks[i]? ≠ some task') : ∃ task record, s.tasks[i]? = some task ∧
      task.phase = .releasing record (.ok ()) ∧ a = .release i .received ∧
      (s.runRelease record).2 = true := by
  cases moves_of_step hstep with
  | tick le => exact absurd hget hne
  | idle kept =>
    rcases kept i task' hget with hold | ⟨-, hnot⟩
    · exact absurd hold hne
    · exact absurd hok hnot
  | enter mem new =>
    obtain ⟨rfl, rfl⟩ := changed (rfl : s.tasks = s.tasks) mem hget hne
    cases hok
  | goOn mem operation read notOk =>
    obtain ⟨rfl, rfl⟩ := changed rfl mem hget hne
    exact absurd hok notOk
  | @acquire j operationId now task phase mem operation read noOperation noRead notOk =>
    obtain ⟨rfl, rfl⟩ := changed (runAcquire_tasks s task operationId now) mem hget hne
    exact absurd hok notOk
  | grant mem operation read acquired readable =>
    obtain ⟨rfl, rfl⟩ := changed (s := s) rfl mem hget hne
    cases hok
  | @release j task record phase mem noOperation noRead ok =>
    obtain ⟨rfl, rfl⟩ := changed (runRelease_tasks s record) mem hget hne
    exact ⟨task, record, mem, ok hok⟩

/-- In every reachable state of any number of processes, the lock is fenced. -/
theorem fencing (h : Reachable (step leaseDuration) anyStep (· = start) s) :
    s.Fencing leaseDuration := by
  have hconsistent : s.Consistent := by
    apply h.invariant
    · rintro s rfl
      exact consistent_start
    · exact fun s a s' hs _ hstep => hs.step hstep
  refine ⟨hconsistent.increasing, fun i j guard guard' => hconsistent.exclusive, ?_, ?_, ?_⟩
  · exact fun i task record operation s' hi hphase hover hstep => lost hi hphase hover hstep
  · intro record hover
    rw [runRelease_of_takenOver hover]
  · intro a s' i task' hstep hget hok hne
    obtain ⟨task, record, hi, hphase, ha, hreleased⟩ := ok_of_step hstep hget hok hne
    exact ⟨task, record, hi, hphase, ha, hconsistent.newest hreleased⟩

/-- Two processes with leases of ten nanoseconds: the first one's lease runs out while it works. -/
def exampleTakeover : List Action :=
  [.call 0 7 "/repo", .enter 0 1, .readClock 0, .acquire 0 .received, .tick 5, .call 1 7 "/repo",
    .enter 1 2, .readClock 1, .acquire 1 .received, .tick 15, .wake 1, .readClock 1,
    .acquire 1 .received, .finish 0 (.ok ()), .release 0 .received, .finish 1 (.ok ()),
    .release 1 .received]

/-- The first process is told that it has lost the lock, the second one holds the newest lease. -/
theorem fencing_takeover : ∃ s : System, s.Fencing (fun _ => 10) ∧
    s.tasks.map Task.phase = [.done (.error (.repositoryLockLost 7)), .done (.ok ())] ∧
    s.issued.map (fun guard => (guard.lock.generation, guard.released)) =
      [(1, false), (2, true)] := by
  have hexec : (exec (step fun _ => 10) anyStep start exampleTakeover).map
      (fun s => (s.tasks.map Task.phase,
        s.issued.map fun guard => (guard.lock.generation, guard.released))) =
      some ([.done (.error (.repositoryLockLost 7)), .done (.ok ())], [(1, false), (2, true)]) := by
    decide +kernel
  obtain ⟨s, hs, heq⟩ := Option.map_eq_some_iff.1 hexec
  exact ⟨s, fencing (reachable_of_exec rfl hs), (Prod.mk.inj heq).1, (Prod.mk.inj heq).2⟩

end System

end VibeKanban.Worktree

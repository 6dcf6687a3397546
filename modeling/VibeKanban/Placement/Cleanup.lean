import VibeKanban.Coordinator.Reconciler
import VibeKanban.Lib.Json
import VibeKanban.Lib.Tasks

/-!
# The cleanup fence of clustered workspaces (`db/src/models/workspace.rs`, 184-406,
`local-deployment/src/container.rs`, 2176-2343)

A cleanup of a workspace on a worker claims its placement (`begin_cleanup`), removes the directory,
records that it is deleted and gives the placement back, while affinity requests and other cleanups
run their statements on the same row. A step is a statement, which may be executed without its
answer, the removal of a directory or a crash. `updated_at` is left out.

* `fence_kept`: nobody else gets the placement of a workspace that is cleaned up, under `Respects`.
-/

namespace VibeKanban.Placement

open Lib Cluster Coordinator Option Function List

/-! ## The statements -/

inductive WorkspacePlacementState where
  | local
  | reserved
  | provisioning
  | ready
  | failed
  | cleaning
  deriving DecidableEq

/-- The columns of a workspace's placement, with `worktree_deleted`. -/
structure WorkspacePlacement where
  workerNodeId : Option Uuid
  placementState : WorkspacePlacementState
  placedAt : Option Instant
  placementReason : Option String
  requestedWorkerNodeId : Option Uuid
  placementConstraints : Option JsonValue
  worktreeDeleted : Bool

namespace WorkspacePlacement

variable (row : WorkspacePlacement)

/-- The row after `reserve`, if its condition holds (lines 193-204). -/
def reserve (workerNodeId : Uuid) (requestedWorkerNodeId : Option Uuid)
    (constraints : Option JsonValue) (reason : Option String) (now : Instant) :
    Option WorkspacePlacement :=
  if row.placementState = .local ∧ row.workerNodeId = none then
    some { row with
      workerNodeId := some workerNodeId
      placementState := .reserved
      placedAt := some now
      placementReason := reason
      requestedWorkerNodeId := requestedWorkerNodeId
      placementConstraints := constraints }
  else none

/-- `reassign` (lines 227-240) -/
def reassign (expectedWorkerNodeId : Option Uuid) (workerNodeId : Uuid)
    (requestedWorkerNodeId : Option Uuid) (reason : String) (now : Instant) :
    Option WorkspacePlacement :=
  if row.placementState ≠ .local ∧ row.workerNodeId = expectedWorkerNodeId then
    some { row with
      workerNodeId := some workerNodeId
      placementState := .ready
      placedAt := some now
      placementReason := some reason
      requestedWorkerNodeId := requestedWorkerNodeId }
  else none

/-- `reassign_to_coordinator` (lines 264-276) -/
def reassignToCoordinator (expectedWorkerNodeId : Option Uuid) (reason : String) (now : Instant) :
    Option WorkspacePlacement :=
  if row.workerNodeId = expectedWorkerNodeId then
    some { row with
      workerNodeId := none
      placementState := .local
      placedAt := some now
      placementReason := some reason
      requestedWorkerNodeId := none }
  else none

/-- The transitions that `transition` allows (lines 292-304). -/
def allowed : WorkspacePlacementState → WorkspacePlacementState → Bool
  | .reserved, .provisioning | .provisioning, .ready | .provisioning, .failed => true
  | _, _ => false

/-- `transition` (lines 285-324) -/
def transition (expected next : WorkspacePlacementState) (reason : Option String) :
    Option WorkspacePlacement :=
  if allowed expected next ∧ row.placementState = expected then
    some { row with
      placementState := next
      placementReason := reason.or row.placementReason }
  else none

/-- The states of jobs that do not hold a cleanup up. -/
def finishedStates : List DispatchState := [.completed, .failed, .killed]

/-- `begin_cleanup` (lines 331-354); `jobs` are the states of the workspace's jobs. -/
def beginCleanup (workers : List WorkerNode) (jobs : List DispatchState) (now : Instant) :
    Option WorkspacePlacement :=
  if row.placementState = .ready ∧
      (workers.any fun worker => row.workerNodeId = some worker.id ∧ worker.status = .online ∧
        worker.mountStatus = .healthy ∧ worker.leaseExpiresAt.any (now < ·)) ∧
      jobs.all (· ∈ finishedStates) then
    some { row with placementState := .cleaning }
  else none

/-- `finish_cleanup` (lines 369-378) -/
def finishCleanup : Option WorkspacePlacement :=
  if row.placementState = .cleaning ∧ row.worktreeDeleted = true then
    some { row with placementState := .ready }
  else none

/-- `cancel_cleanup` (lines 392-401) -/
def cancelCleanup : Option WorkspacePlacement :=
  if row.placementState = .cleaning ∧ row.worktreeDeleted = false then
    some { row with placementState := .ready }
  else none

/-- `mark_worktree_deleted` (lines 484-487) -/
def markWorktreeDeleted : Option WorkspacePlacement := some { row with worktreeDeleted := true }

/-- `clear_worktree_deleted` (lines 497-500) -/
def clearWorktreeDeleted : Option WorkspacePlacement := some { row with worktreeDeleted := false }

end WorkspacePlacement

/-! ## The system -/

inductive Phase where
  | sweeping
  /-- before `begin_cleanup` -/
  | claiming
  /-- in `cleanup_workspace`, which removes the directory -/
  | removing
  | marking
  | finishing
  | cancelling
  | ended
  deriving DecidableEq

/-- A cleanup. The last two fields are not in the source: the worker that its `begin_cleanup` saw,
    and whether its `finish_cleanup` or `cancel_cleanup` has been executed. -/
structure Cleanup where
  process : ℕ
  workspaceId : Uuid
  hasContainer : Bool
  phase : Phase
  claim : Option (Option Uuid)
  released : Bool
  deriving DecidableEq

/-- It has claimed the placement and not given it up. -/
def Cleanup.holds (call : Cleanup) : Bool := call.claim.isSome && !call.released

structure System where
  rows : Uuid → Option WorkspacePlacement
  workers : List WorkerNode
  jobs : Uuid → List DispatchState
  cleanups : List Cleanup

/-- What becomes of a statement: its answer comes back or is lost, or it is not executed. -/
inductive Answer where
  | received
  | lost
  | failed
  deriving DecidableEq

inductive Action where
  | reserve (id workerNodeId : Uuid) (requestedWorkerNodeId : Option Uuid)
    (constraints : Option JsonValue) (reason : Option String) (now : Instant)
  | reassign (id : Uuid) (expectedWorkerNodeId : Option Uuid) (workerNodeId : Uuid)
    (requestedWorkerNodeId : Option Uuid) (reason : String) (now : Instant)
  | reassignToCoordinator (id : Uuid) (expectedWorkerNodeId : Option Uuid) (reason : String)
    (now : Instant)
  | transition (id : Uuid) (expected next : WorkspacePlacementState) (reason : Option String)
  | clearDeleted (id : Uuid)
  | setWorkers (workers : List WorkerNode)
  | setJobs (id : Uuid) (jobs : List DispatchState)
  /-- the sweep comes to an expired workspace that may be cleaned up -/
  | sweep (process : ℕ) (id : Uuid) (hasContainer : Bool)
  /-- `delete` -/
  | delete (process : ℕ) (id : Uuid) (hasContainer : Bool)
  /-- the sweep looks at the placement -/
  | find (i : ℕ)
  | begin (i : ℕ) (now : Instant) (answer : Answer)
  | remove (i : ℕ) (succeeded : Bool)
  | mark (i : ℕ) (answer : Answer)
  | finish (i : ℕ) (answer : Answer)
  | cancel (i : ℕ) (answer : Answer)
  | crash (process : ℕ)

namespace System

/-- A statement on the row of a workspace, and whether it affects it. -/
def run (s : System) (id : Uuid) (f : WorkspacePlacement → Option WorkspacePlacement) :
    System × Bool :=
  match (s.rows id).bind f with
  | some row => ({ s with rows := update s.rows id (some row) }, true)
  | none => (s, false)

def setCleanup (s : System) (i : ℕ) (call : Cleanup) : System :=
  { s with cleanups := s.cleanups.set i call }

/-- `cleanup_workspace` is called: without a container there is nothing to do (line 2177). -/
def cleanupPhase (hasContainer : Bool) : Phase := if hasContainer then .removing else .ended

def step (s : System) : Action → Option System
  | .reserve id workerNodeId requestedWorkerNodeId constraints reason now =>
    some (s.run id (·.reserve workerNodeId requestedWorkerNodeId constraints reason now)).1
  | .reassign id expectedWorkerNodeId workerNodeId requestedWorkerNodeId reason now =>
    some (s.run id
      (·.reassign expectedWorkerNodeId workerNodeId requestedWorkerNodeId reason now)).1
  | .reassignToCoordinator id expectedWorkerNodeId reason now =>
    some (s.run id (·.reassignToCoordinator expectedWorkerNodeId reason now)).1
  | .transition id expected next reason => some (s.run id (·.transition expected next reason)).1
  | .clearDeleted id => some (s.run id (·.clearWorktreeDeleted)).1
  | .setWorkers workers => some { s with workers := workers }
  | .setJobs id jobs => some { s with jobs := update s.jobs id jobs }
  | .sweep process id hasContainer =>
    some { s with cleanups := s.cleanups ++ [⟨process, id, hasContainer, .sweeping, none, false⟩] }
  | .delete process id hasContainer =>
    some { s with
      cleanups := s.cleanups ++
        [⟨process, id, hasContainer, cleanupPhase hasContainer, none, false⟩] }
  | .find i => do
    let call ← s.cleanups[i]?
    if call.phase = .sweeping then
      if ((s.rows call.workspaceId).bind (·.workerNodeId)).isSome then
        return s.setCleanup i { call with phase := .claiming }
      else return s.setCleanup i { call with phase := cleanupPhase call.hasContainer }
    else none
  | .begin i now answer => do
    let call ← s.cleanups[i]?
    if call.phase = .claiming then
      if answer = .failed then return s.setCleanup i { call with phase := .ended }
      else
        let worker := (s.rows call.workspaceId).bind (·.workerNodeId)
        match s.run call.workspaceId (·.beginCleanup s.workers (s.jobs call.workspaceId) now) with
        | (s, true) =>
          let phase := if answer = .received then cleanupPhase call.hasContainer else .ended
          return s.setCleanup i { call with phase := phase, claim := some worker }
        | (s, false) => return s.setCleanup i { call with phase := .ended }
    else none
  | .remove i succeeded => do
    let call ← s.cleanups[i]?
    if call.phase = .removing then
      return s.setCleanup i { call with phase := if succeeded then .marking else .cancelling }
    else none
  | .mark i answer => do
    let call ← s.cleanups[i]?
    if call.phase = .marking then
      let phase := if answer = .received then .finishing else .cancelling
      if answer = .failed then return s.setCleanup i { call with phase := phase }
      else
        let s := (s.run call.workspaceId (·.markWorktreeDeleted)).1
        return s.setCleanup i { call with phase := phase }
    else none
  | .finish i answer => do
    let call ← s.cleanups[i]?
    if call.phase = .finishing then
      if answer = .failed then return s.setCleanup i { call with phase := .ended }
      else
        let s := (s.run call.workspaceId (·.finishCleanup)).1
        return s.setCleanup i { call with phase := .ended, released := true }
    else none
  | .cancel i answer => do
    let call ← s.cleanups[i]?
    if call.phase = .cancelling then
      if answer = .failed then return s.setCleanup i { call with phase := .ended }
      else
        let s := (s.run call.workspaceId (·.cancelCleanup)).1
        return s.setCleanup i { call with phase := .ended, released := true }
    else none
  | .crash process =>
    some { s with cleanups := s.cleanups.map fun call =>
      if call.process = process then { call with phase := .ended } else call }

/-- Placements of any kind, of which none is being cleaned up. -/
def Idle (s : System) : Prop :=
  s.cleanups = [] ∧ ∀ id row, s.rows id = some row → row.placementState ≠ .cleaning

/-- The placement that a cleanup has claimed is `cleaning`, on the worker that the cleanup saw. -/
def Fenced (s : System) : Prop :=
  ∀ call ∈ s.cleanups, call.released = false → ∀ worker, call.claim = some worker →
    ∃ row, s.rows call.workspaceId = some row ∧ row.placementState = .cleaning ∧
      row.workerNodeId = worker

/-- A cleanup has claimed the placement and not given it up. -/
def held (s : System) (id : Uuid) : Bool :=
  s.cleanups.any fun call => call.workspaceId = id && call.holds

/-- While a cleanup has claimed the placement, an affinity change expects another worker than the
    one there, and the statement at the end of another cleanup does not match the row. -/
def Respects (s : System) : Action → Prop
  | .reassign id expected _ _ _ _ | .reassignToCoordinator id expected _ _ =>
    s.held id = true → ∀ row ∈ s.rows id, row.workerNodeId ≠ expected
  | .finish i answer => ∀ call ∈ s.cleanups[i]?, call.phase = .finishing → answer ≠ .failed →
    call.holds = false → s.held call.workspaceId = true →
      ∀ row ∈ s.rows call.workspaceId, row.worktreeDeleted = false
  | .cancel i answer => ∀ call ∈ s.cleanups[i]?, call.phase = .cancelling → answer ≠ .failed →
    call.holds = false → s.held call.workspaceId = true →
      ∀ row ∈ s.rows call.workspaceId, row.worktreeDeleted = true
  | _ => True

/-! ## The invariant -/

/-- The fence stands, at most one cleanup has claimed a placement, and a cleanup that has not come
    to its claim has none. -/
structure Consistent (s : System) : Prop where
  fenced : s.Fenced
  unique : ∀ (i j : ℕ) (call call' : Cleanup), s.cleanups[i]? = some call →
    s.cleanups[j]? = some call' → call.workspaceId = call'.workspaceId → call.holds = true →
      call'.holds = true → i = j
  unclaimed : ∀ call ∈ s.cleanups, call.phase = .sweeping ∨ call.phase = .claiming →
    call.claim = none ∧ call.released = false

variable {s s' : System} {id : Uuid} {i : ℕ} {call : Cleanup}
  {f : WorkspacePlacement → Option WorkspacePlacement}

open Cleanup

theorem holds_iff : call.holds = true ↔
    ∃ worker, call.claim = some worker ∧ call.released = false := by
  unfold holds
  rw [Bool.and_eq_true, isSome_iff_exists, Bool.not_eq_true']
  constructor
  · rintro ⟨⟨worker, hclaim⟩, hreleased⟩
    exact ⟨worker, hclaim, hreleased⟩
  · rintro ⟨worker, hclaim, hreleased⟩
    exact ⟨⟨worker, hclaim⟩, hreleased⟩

theorem held_iff : s.held id = true ↔
    ∃ call ∈ s.cleanups, call.workspaceId = id ∧ call.holds = true := by
  simp [held]

theorem not_held_iff : s.held id = false ↔
    ∀ call ∈ s.cleanups, call.workspaceId = id → call.holds = false := by
  rw [← Bool.not_eq_true, held_iff]
  simp

theorem Fenced.cleaning (h : s.Fenced) (hheld : s.held id = true) :
    ∃ row, s.rows id = some row ∧ row.placementState = .cleaning := by
  obtain ⟨call, hmem, rfl, hholds⟩ := held_iff.1 hheld
  obtain ⟨worker, hclaim, hreleased⟩ := holds_iff.1 hholds
  obtain ⟨row, hrow, hstate, -⟩ := h call hmem hreleased worker hclaim
  exact ⟨row, hrow, hstate⟩

variable {row : WorkspacePlacement}

theorem Fenced.not_held (h : s.Fenced) (hrow : s.rows id = some row)
    (hstate : row.placementState ≠ .cleaning) : s.held id = false := by
  rw [← Bool.not_eq_true]
  intro hheld
  obtain ⟨row', hrow', hcleaning⟩ := h.cleaning hheld
  rw [hrow] at hrow'
  cases hrow'
  exact hstate hcleaning

theorem run_cases (s : System) (id : Uuid) (f : WorkspacePlacement → Option WorkspacePlacement) :
    s.run id f = (s, false) ∨ ∃ row row', s.rows id = some row ∧ f row = some row' ∧
      s.run id f = ({ s with rows := update s.rows id (some row') }, true) := by
  unfold run
  cases hrow : (s.rows id).bind f with
  | none => exact .inl rfl
  | some row' =>
    obtain ⟨row, hid, hf⟩ := bind_eq_some_iff.1 hrow
    exact .inr ⟨row, row', hid, hf, rfl⟩

theorem run_cleanups (s : System) (id : Uuid)
    (f : WorkspacePlacement → Option WorkspacePlacement) :
    (s.run id f).1.cleanups = s.cleanups := by
  rcases run_cases s id f with heq | ⟨row, row', -, -, heq⟩ <;> rw [heq]

theorem Consistent.write (h : s.Consistent) (hfree : s.held id = false)
    (row : Option WorkspacePlacement) :
    ({ s with rows := update s.rows id row } : System).Consistent where
  fenced call hmem hreleased worker hclaim := by
    obtain ⟨row₁, hrow₁, hcleaning, hworker⟩ := h.fenced call hmem hreleased worker hclaim
    have hne : call.workspaceId ≠ id := by
      rintro heq
      have hholds := not_held_iff.1 hfree call hmem heq
      rw [holds_iff.2 ⟨worker, hclaim, hreleased⟩] at hholds
      cases hholds
    exact ⟨row₁, by rw [← hrow₁]; exact update_of_ne hne _ _, hcleaning, hworker⟩
  unique := h.unique
  unclaimed := h.unclaimed

variable {row' : WorkspacePlacement} {now : Instant}

section

variable (h : s.Consistent)
include h

theorem Consistent.rewrite (hrow : s.rows id = some row)
    (hstate : row'.placementState = row.placementState)
    (hworker : row'.workerNodeId = row.workerNodeId) :
    ({ s with rows := update s.rows id (some row') } : System).Consistent where
  fenced call hmem hreleased worker hclaim := by
    obtain ⟨row₁, hrow₁, hcleaning, hworker₁⟩ := h.fenced call hmem hreleased worker hclaim
    by_cases heq : call.workspaceId = id
    · rw [heq, hrow] at hrow₁
      cases hrow₁
      refine ⟨row', ?_, hstate.trans hcleaning, hworker.trans hworker₁⟩
      rw [heq]
      exact update_self _ _ _
    · exact ⟨row₁, by rw [← hrow₁]; exact update_of_ne heq _ _, hcleaning, hworker₁⟩
  unique := h.unique
  unclaimed := h.unclaimed

theorem Consistent.run_of_write (hwrite : ∀ row row', s.rows id = some row →
    f row = some row' → ({ s with rows := update s.rows id (some row') } : System).Consistent) :
    (s.run id f).1.Consistent := by
  rcases run_cases s id f with heq | ⟨row, row', hrow, hrow', heq⟩ <;> rw [heq]
  · exact h
  · exact hwrite row row' hrow hrow'

/-- A statement that does not match a `cleaning` row. -/
theorem Consistent.run (hf : ∀ row row', f row = some row' → row.placementState ≠ .cleaning) :
    (s.run id f).1.Consistent :=
  h.run_of_write fun row row' hrow hrow' => h.write (h.fenced.not_held hrow (hf row row' hrow')) _

theorem Consistent.run_of_held (hf : s.held id = true → ∀ row ∈ s.rows id, f row = none) :
    (s.run id f).1.Consistent := by
  apply h.run_of_write
  intro row row' hrow hrow'
  apply h.write
  rw [← Bool.not_eq_true]
  intro hheld
  rw [hf hheld row hrow] at hrow'
  cases hrow'

theorem Consistent.run_rewrite (hf : ∀ row row', f row = some row' →
    row'.placementState = row.placementState ∧ row'.workerNodeId = row.workerNodeId) :
    (s.run id f).1.Consistent := by
  apply h.run_of_write
  intro row row' hrow hrow'
  obtain ⟨hstate, hworker⟩ := hf row row' hrow'
  exact h.rewrite hrow hstate hworker

end

/-- The fields of a cleanup that the fence is about. -/
def key (call : Cleanup) : Uuid × Option (Option Uuid) × Bool :=
  (call.workspaceId, call.claim, call.released)

section

variable (h : s.Consistent) {phase : Phase}

include h

theorem Consistent.of_keys {cleanups : List Cleanup} (hkeys : cleanups.map key = s.cleanups.map key)
    (hunclaimed : ∀ call ∈ cleanups, call.phase = .sweeping ∨ call.phase = .claiming →
      call.claim = none ∧ call.released = false) :
    ({ s with cleanups := cleanups } : System).Consistent := by
  have hget : ∀ (j : ℕ) (call : Cleanup), cleanups[j]? = some call →
      ∃ call₀, s.cleanups[j]? = some call₀ ∧ key call = key call₀ := by
    intro j call hj
    have hmap : (cleanups.map key)[j]? = some (key call) := by rw [getElem?_map, hj]; rfl
    rw [hkeys, getElem?_map] at hmap
    obtain ⟨call₀, hj₀, heq⟩ := map_eq_some_iff.1 hmap
    exact ⟨call₀, hj₀, heq.symm⟩
  have hholds : ∀ call call₀ : Cleanup, key call = key call₀ →
      call.workspaceId = call₀.workspaceId ∧ call.claim = call₀.claim ∧
        call.released = call₀.released := by
    intro call call₀ heq
    simpa [key] using heq
  refine ⟨?_, ?_, hunclaimed⟩
  · intro call hmem hreleased worker hclaim
    obtain ⟨j, hj⟩ := mem_iff_getElem?.1 hmem
    obtain ⟨call₀, hj₀, heq⟩ := hget j call hj
    obtain ⟨hid, hclaim₀, hreleased₀⟩ := hholds call call₀ heq
    rw [hid]
    exact h.fenced call₀ (mem_of_getElem? hj₀) (hreleased₀ ▸ hreleased) worker
      (hclaim₀ ▸ hclaim)
  · intro j k call call' hj hk hid hcall hcall'
    obtain ⟨call₀, hj₀, heq⟩ := hget j call hj
    obtain ⟨call₁, hk₁, heq'⟩ := hget k call' hk
    obtain ⟨hid₀, hclaim₀, hreleased₀⟩ := hholds call call₀ heq
    obtain ⟨hid₁, hclaim₁, hreleased₁⟩ := hholds call' call₁ heq'
    apply h.unique j k call₀ call₁ hj₀ hk₁
    · rw [← hid₀, ← hid₁, hid]
    · rw [← hcall, holds, holds, hclaim₀, hreleased₀]
    · rw [← hcall', holds, holds, hclaim₁, hreleased₁]

theorem Consistent.setPhase (hi : s.cleanups[i]? = some call)
    (hphase : phase = .sweeping ∨ phase = .claiming →
      call.phase = .sweeping ∨ call.phase = .claiming) :
    (s.setCleanup i { call with phase := phase }).Consistent := by
  apply h.of_keys
  · have hmap : (s.cleanups.map key)[i]? = some (key call) := by rw [getElem?_map, hi]; rfl
    rw [map_set]
    exact set_eq_self hmap
  · intro call' hmem hearly
    rcases mem_or_eq_of_mem_set hmem with hold | rfl
    · exact h.unclaimed call' hold hearly
    · exact h.unclaimed call (mem_of_getElem? hi) (hphase hearly)

theorem Consistent.concat (hclaim : call.claim = none) (hreleased : call.released = false) :
    ({ s with cleanups := s.cleanups ++ [call] } : System).Consistent := by
  have hholds : call.holds = false := by
    rw [holds, hclaim]
    rfl
  have hold : ∀ (j : ℕ) (call' : Cleanup), (s.cleanups ++ [call])[j]? = some call' →
      call'.holds = true → s.cleanups[j]? = some call' := by
    intro j call' hj hcall'
    rw [getElem?_append] at hj
    split_ifs at hj
    · exact hj
    · rw [mem_singleton.1 (mem_of_getElem? hj), hholds] at hcall'
      cases hcall'
  refine ⟨?_, ?_, ?_⟩
  · intro call' hmem hreleased' worker hclaim'
    rcases mem_append.1 hmem with hmem | hmem
    · exact h.fenced call' hmem hreleased' worker hclaim'
    · rw [mem_singleton.1 hmem, hclaim] at hclaim'
      cases hclaim'
  · intro j k call₁ call₂ hj hk hid hcall₁ hcall₂
    exact h.unique j k call₁ call₂ (hold j call₁ hj hcall₁) (hold k call₂ hk hcall₂) hid hcall₁
      hcall₂
  · intro call' hmem hearly
    rcases mem_append.1 hmem with hmem | hmem
    · exact h.unclaimed call' hmem hearly
    · rw [mem_singleton.1 hmem]
      exact ⟨hclaim, hreleased⟩

theorem Consistent.begin (hi : s.cleanups[i]? = some call) {worker : Option Uuid}
    (hrow : s.rows call.workspaceId = some row) (hstate : row.placementState ≠ .cleaning)
    (hcleaning : row'.placementState = .cleaning) (hworker : row'.workerNodeId = worker)
    (hphase : phase ≠ .sweeping ∧ phase ≠ .claiming) :
    ({ s with
        rows := update s.rows call.workspaceId (some row')
        cleanups := s.cleanups.set i { call with phase := phase, claim := some worker } } :
      System).Consistent := by
  have hfree := not_held_iff.1 (h.fenced.not_held hrow hstate)
  refine ⟨?_, ?_, ?_⟩
  · intro call' hmem hreleased worker' hclaim
    rcases mem_or_eq_of_mem_set hmem with hold | rfl
    · have hne : call'.workspaceId ≠ call.workspaceId := by
        intro heq
        have hholds := hfree call' hold heq
        rw [holds_iff.2 ⟨worker', hclaim, hreleased⟩] at hholds
        cases hholds
      obtain ⟨row₁, hrow₁, hrest⟩ := h.fenced call' hold hreleased worker' hclaim
      exact ⟨row₁, by rw [← hrow₁]; exact update_of_ne hne _ _, hrest⟩
    · cases hclaim
      exact ⟨row', update_self _ _ _, hcleaning, hworker⟩
  · intro j k call₁ call₂ hj hk hid hcall₁ hcall₂
    rcases getElem?_set_cases hj with ⟨rfl, rfl⟩ | ⟨-, hj₁⟩
    · rcases getElem?_set_cases hk with ⟨rfl, -⟩ | ⟨-, hk₂⟩
      · rfl
      · rw [hfree call₂ (mem_of_getElem? hk₂) hid.symm] at hcall₂
        cases hcall₂
    · rcases getElem?_set_cases hk with ⟨rfl, rfl⟩ | ⟨-, hk₂⟩
      · rw [hfree call₁ (mem_of_getElem? hj₁) hid] at hcall₁
        cases hcall₁
      · exact h.unique j k call₁ call₂ hj₁ hk₂ hid hcall₁ hcall₂
  · intro call' hmem hearly
    rcases mem_or_eq_of_mem_set hmem with hold | rfl
    · exact h.unclaimed call' hold hearly
    · exact absurd hearly (by rintro (heq | heq); exacts [hphase.1 heq, hphase.2 heq])

theorem Consistent.release (hi : s.cleanups[i]? = some call)
    (hf : call.holds = false → s.held call.workspaceId = true →
      ∀ row ∈ s.rows call.workspaceId, f row = none) : ((s.run call.workspaceId f).1.setCleanup i
      { call with phase := .ended, released := true }).Consistent := by
  -- without its own claim the placement is free
  have hcleanups : ∀ rows, (∀ call' ∈ s.cleanups, call'.released = false → ∀ worker,
      call'.claim = some worker → call'.workspaceId ≠ call.workspaceId ∨ call.holds = false →
      ∃ row, rows call'.workspaceId = some row ∧ row.placementState = .cleaning ∧
        row.workerNodeId = worker) →
      (System.setCleanup { s with rows := rows } i
        { call with phase := .ended, released := true }).Consistent := by
    intro rows hrows
    refine ⟨?_, ?_, ?_⟩
    · intro call' hmem hreleased worker hclaim
      obtain ⟨j, hj⟩ := mem_iff_getElem?.1 hmem
      rcases getElem?_set_cases hj with ⟨rfl, rfl⟩ | ⟨hne, hj'⟩
      · cases hreleased
      · apply hrows call' (mem_of_getElem? hj') hreleased worker hclaim
        cases hholds : call.holds with
        | false => exact .inr rfl
        | true =>
          refine .inl fun heq => hne ?_
          exact h.unique j i call' call hj' hi heq (holds_iff.2 ⟨worker, hclaim, hreleased⟩) hholds
    · intro j k call₁ call₂ hj hk hid hcall₁ hcall₂
      rcases getElem?_set_cases hj with ⟨rfl, rfl⟩ | ⟨-, hj₁⟩
      · simp [holds] at hcall₁
      · rcases getElem?_set_cases hk with ⟨rfl, rfl⟩ | ⟨-, hk₂⟩
        · simp [holds] at hcall₂
        · exact h.unique j k call₁ call₂ hj₁ hk₂ hid hcall₁ hcall₂
    · intro call' hmem hearly
      rcases mem_or_eq_of_mem_set hmem with hold | rfl
      · exact h.unclaimed call' hold hearly
      · rcases hearly with hearly | hearly <;> cases hearly
  rcases run_cases s call.workspaceId f with heq | ⟨row, row', hrow, hrow', heq⟩ <;> rw [heq]
  · exact hcleanups s.rows fun call' hmem hreleased worker hclaim _ =>
      h.fenced call' hmem hreleased worker hclaim
  · apply hcleanups
    intro call' hmem hreleased worker hclaim hother
    have hne : call'.workspaceId ≠ call.workspaceId := by
      rcases hother with hne | hholds
      · exact hne
      · intro hid
        have hheld : s.held call.workspaceId = true :=
          held_iff.2 ⟨call', hmem, hid, holds_iff.2 ⟨worker, hclaim, hreleased⟩⟩
        rw [hf hholds hheld row hrow] at hrow'
        cases hrow'
    obtain ⟨row₁, hrow₁, hrest⟩ := h.fenced call' hmem hreleased worker hclaim
    exact ⟨row₁, by rw [← hrow₁]; exact update_of_ne hne _ _, hrest⟩

end

theorem cleanupPhase_late (hasContainer : Bool) :
    cleanupPhase hasContainer ≠ .sweeping ∧ cleanupPhase hasContainer ≠ .claiming := by
  cases hasContainer with
  | true | false => exact ⟨nofun, nofun⟩

open WorkspacePlacement

theorem beginCleanup_spec {workers : List WorkerNode}
    {jobs : List DispatchState} (h : row.beginCleanup workers jobs now = some row') :
    row.placementState = .ready ∧ row' = { row with placementState := .cleaning } := by
  unfold beginCleanup at h
  split_ifs at h with hready
  cases h
  exact ⟨hready.1, rfl⟩

variable {answer : Answer}

theorem Consistent.begin_step (h : s.Consistent)
    (hstep : s.step (.begin i now answer) = some s') : s'.Consistent := by
  obtain ⟨call, hi, hstep⟩ := bind_eq_some_iff.1 hstep
  split at hstep
  swap
  · cases hstep
  split at hstep
  · rename_i hfailed
    cases hstep
    exact h.setPhase hi nofun
  · rcases run_cases s call.workspaceId (·.beginCleanup s.workers (s.jobs call.workspaceId) now)
      with heq | ⟨row, row', hrow, hrow', heq⟩
    · rw [heq] at hstep
      cases hstep
      exact h.setPhase hi nofun
    · rw [heq] at hstep
      obtain ⟨hready, rfl⟩ := beginCleanup_spec hrow'
      cases hstep
      apply h.begin hi hrow
      · rw [hready]
        nofun
      · rfl
      · rw [hrow]
        rfl
      · split_ifs
        · exact cleanupPhase_late call.hasContainer
        · exact ⟨nofun, nofun⟩

theorem Consistent.step {a : Action} (h : s.Consistent) (hok : s.Respects a)
    (hstep : s.step a = some s') : s'.Consistent := by
  cases a with
  | reserve id workerNodeId requested constraints reason now =>
    cases hstep
    apply h.run
    intro row row' hrow'
    unfold reserve at hrow'
    split_ifs at hrow' with hlocal
    rw [hlocal.1]
    nofun
  | reassign id expected workerNodeId requested reason now =>
    cases hstep
    apply h.run_of_held
    intro hheld row hrow
    unfold reassign
    rw [if_neg fun heq => hok hheld row hrow heq.2]
  | reassignToCoordinator id expected reason now =>
    cases hstep
    apply h.run_of_held
    intro hheld row hrow
    unfold reassignToCoordinator
    rw [if_neg (hok hheld row hrow)]
  | transition id expected next reason =>
    cases hstep
    apply h.run
    intro row row' hrow'
    unfold transition at hrow'
    split_ifs at hrow' with hallowed
    rintro hcleaning
    rw [← hallowed.2, hcleaning] at hallowed
    cases next <;> exact absurd hallowed.1 (by decide)
  | clearDeleted id =>
    cases hstep
    apply h.run_rewrite
    intro row row' hrow'
    cases hrow'
    exact ⟨rfl, rfl⟩
  | setWorkers workers | setJobs id jobs =>
    cases hstep
    exact ⟨h.fenced, h.unique, h.unclaimed⟩
  | sweep process id hasContainer | delete process id hasContainer =>
    cases hstep
    exact h.concat rfl rfl
  | find i =>
    obtain ⟨call, hi, hstep⟩ := bind_eq_some_iff.1 hstep
    split_ifs at hstep with hphase
    all_goals
      cases hstep
      exact h.setPhase hi fun _ => .inl hphase
  | begin i now answer => exact h.begin_step hstep
  | remove i succeeded =>
    obtain ⟨call, hi, hstep⟩ := bind_eq_some_iff.1 hstep
    split_ifs at hstep
    all_goals
      cases hstep
      exact h.setPhase hi nofun
  | mark i answer =>
    obtain ⟨call, hi, hstep⟩ := bind_eq_some_iff.1 hstep
    have hmarked : (s.run call.workspaceId (·.markWorktreeDeleted)).1.Consistent := by
      apply h.run_rewrite
      intro row row' hrow'
      cases hrow'
      exact ⟨rfl, rfl⟩
    split at hstep
    swap
    · cases hstep
    by_cases hfailed : answer = .failed
    · rw [if_pos hfailed] at hstep
      cases hstep
      apply h.setPhase hi
      split_ifs <;> nofun
    · rw [if_neg hfailed] at hstep
      cases hstep
      apply hmarked.setPhase
      · rw [run_cleanups]
        exact hi
      · split_ifs <;> nofun
  | finish i answer | cancel i answer =>
    obtain ⟨call, hi, hstep⟩ := bind_eq_some_iff.1 hstep
    split_ifs at hstep with hphase hfailed <;> cases hstep
    · exact h.setPhase hi nofun
    · apply h.release hi
      intro hholds hheld row hrow
      have hdeleted := hok call hi hphase hfailed hholds hheld row hrow
      simp [finishCleanup, cancelCleanup, hdeleted]
  | crash process =>
    cases hstep
    apply h.of_keys
    · rw [List.map_map]
      apply map_congr_left
      intro call _
      rw [comp_apply]
      split_ifs <;> rfl
    · intro call hmem hearly
      obtain ⟨call', hmem', rfl⟩ := mem_map.1 hmem
      by_cases hprocess : call'.process = process
      · rw [if_pos hprocess] at hearly
        rcases hearly with hearly | hearly <;> cases hearly
      · rw [if_neg hprocess] at hearly ⊢
        exact h.unclaimed call' hmem' hearly

/-- In a run of steps that meet the condition, a placement that a cleanup has claimed stays
    `cleaning`, on the worker that the cleanup saw, until the cleanup gives it up. -/
theorem fence_kept (h : Reachable step Respects Idle s) : s.Fenced := by
  have hconsistent : s.Consistent := by
    apply h.invariant
    · rintro s ⟨hnone, -⟩
      have hempty : ∀ call, call ∉ s.cleanups := by simp [hnone]
      exact ⟨fun call hmem => absurd hmem (hempty call),
        fun i j call _ hi => absurd (mem_of_getElem? hi) (hempty call),
        fun call hmem => absurd hmem (hempty call)⟩
    · exact fun s a s' hs hok hstep => hs.step hok hstep
  exact hconsistent.fenced

instance (s : System) (a : Action) : Decidable (s.Respects a) := by
  cases a <;> dsimp only [Respects] <;> infer_instance

/-- Workspace 1 is ready on worker 1, which is online. -/
def example1 : System where
  rows id := if id = 1 then some ⟨some 1, .ready, none, none, none, none, false⟩ else none
  workers := [⟨1, "worker", .online, "1", "1", "\x7b\x7d", "\x7b\x7d", "\x7b\x7d", .healthy, none,
    none, some 100⟩]
  jobs _ := []
  cleanups := []

theorem idle_example1 : example1.Idle := by
  refine ⟨rfl, ?_⟩
  intro id row hrow
  replace hrow : (if id = 1 then some _ else none) = some row := hrow
  split_ifs at hrow
  cases hrow
  nofun

def placement (s : System) : Option (Option Uuid × WorkspacePlacementState) :=
  (s.rows 1).map fun row => (row.workerNodeId, row.placementState)

/-- A sweep cleans the workspace up; an affinity request that expects another worker fails. -/
theorem fence_kept_sweep : ∃ s : System, s.Fenced ∧ s.placement = some (some 1, .cleaning) ∧
    s.cleanups = [⟨0, 1, true, .marking, some (some 1), false⟩] := by
  have hexec : (exec step Respects example1 [.sweep 0 1 true, .find 0, .begin 0 50 .received,
      .reassign 1 none 2 none "manual worker affinity update" 51, .remove 0 true]).map
      (fun s => (s.placement, s.cleanups)) =
      some (some (some 1, .cleaning), [⟨0, 1, true, .marking, some (some 1), false⟩]) := by
    decide +kernel
  obtain ⟨s, hs, heq⟩ := map_eq_some_iff.1 hexec
  exact ⟨s, fence_kept (reachable_of_exec idle_example1 hs), (Prod.mk.inj heq).1,
    (Prod.mk.inj heq).2⟩

/-- An affinity request makes the workspace ready on another worker while its directory is being
    removed. -/
theorem fence_ignored : ∃ s, Reachable step anyStep Idle s ∧ ¬s.Fenced := by
  have hexec : (exec step anyStep example1 [.sweep 0 1 true, .find 0, .begin 0 50 .received,
      .reassign 1 (some 1) 2 none "manual worker affinity update" 51]).map
      (fun s => (s.placement, s.cleanups)) =
      some (some (some 2, .ready), [⟨0, 1, true, .removing, some (some 1), false⟩]) := by
    decide +kernel
  obtain ⟨s, hs, heq⟩ := map_eq_some_iff.1 hexec
  obtain ⟨hplacement, hcleanups⟩ := Prod.mk.inj heq
  refine ⟨s, reachable_of_exec idle_example1 hs, ?_⟩
  intro hfenced
  obtain ⟨row, hrow, hstate, -⟩ := hfenced _ (by rw [hcleanups]; exact mem_cons_self) rfl _ rfl
  replace hrow : s.rows 1 = some row := hrow
  rw [placement, hrow, map_some, hstate] at hplacement
  exact nomatch (Prod.mk.inj (some.inj hplacement)).2

end System

end VibeKanban.Placement

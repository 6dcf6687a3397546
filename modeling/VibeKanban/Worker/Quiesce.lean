import VibeKanban.Worker.Dispatches

/-!
# Pausing an execution (`worker/src/execution.rs`, lines 987-1087)

An operation stops the processes of an execution and owns its quiesce until it resumes them, or
until the lease of its call runs out. The mutex `quiesced_by` is held over the signal.

* `quiesce_owned`: how an execution gets and loses its owner.
-/

namespace VibeKanban.Worker

open Cluster Lib Option
open List hiding find?_some

/-! ## Requests and leases -/

inductive QuiesceResult where
  | ok
  | notFound
  | digestConflict
  deriving DecidableEq

/-- Where `set_quiesced` or `resume_quiesced` is. -/
inductive QuiescePc where
  /-- before the check of the workspace and the state; a lease still sleeps -/
  | begun
  /-- waits for the mutex `quiesced_by` -/
  | waiting
  /-- holds the mutex, before the check of the owner -/
  | locked
  /-- holds the mutex; `kill` is running -/
  | signalling
  | returned (result : QuiesceResult)
  /-- the request's connection was closed -/
  | dropped
  deriving DecidableEq

/-- A call of `set_quiesced`, or the timer of one with the `resume_quiesced` that follows it. A
    timer does what a call with `quiesced = false` does. -/
structure QuiesceTask where
  executionId : Uuid
  workspaceId : Uuid
  operationId : Uuid
  quiesced : Bool
  /-- for a timer: when its call spawned it -/
  lease : Option ℕ
  pc : QuiescePc

def QuiescePc.holdsMutex : QuiescePc → Bool
  | .locked | .signalling => true
  | _ => false

def leaseSeconds : ℕ := 15 * 60

/-- A worker with the calls and timers under way, and the time in seconds. -/
structure Quiescing where
  supervisor : Supervisor
  tasks : List QuiesceTask
  clock : ℕ

inductive QuiesceAction where
  | request (executionId workspaceId operationId : Uuid) (quiesced : Bool)
  /-- the state of the job is checked; a timer has slept -/
  | check (i : ℕ)
  | lock (i : ℕ)
  | decide (i : ℕ)
  /-- `kill` returned; whether it was found and successful -/
  | signalled (i : ℕ) (success : Bool)
  | drop (i : ℕ)
  | supervisor (action : SupervisorAction)
  | tick (seconds : ℕ)

namespace Quiescing

def moveTo (s : Quiescing) (i : ℕ) (t : QuiesceTask) (pc : QuiescePc) : Quiescing :=
  { s with tasks := s.tasks.set i { t with pc := pc } }

/-- Lines 995-1005; lines 1059-1066 for a timer. -/
def check (s : Quiescing) (i : ℕ) (t : QuiesceTask) : Option Quiescing :=
  if t.pc = .begun ∧ (∀ started ∈ t.lease, started + leaseSeconds ≤ s.clock) then
    match s.supervisor.get t.executionId with
    | none => some (s.moveTo i t (.returned .notFound))
    | some job =>
      if job.execution.job.workspaceId ≠ t.workspaceId ∨
          (t.quiesced = true ∧ job.execution.job.state ≠ .running) ∨
          (t.quiesced = false ∧ job.execution.job.state.isTerminal = true) then
        some (s.moveTo i t (.returned .notFound))
      else some (s.moveTo i t .waiting)
  else none

def MutexFree (s : Quiescing) (executionId : Uuid) : Prop :=
  ∀ t ∈ s.tasks, t.executionId = executionId → t.pc.holdsMutex = false
  deriving Decidable

def lock (s : Quiescing) (i : ℕ) (t : QuiesceTask) : Option Quiescing :=
  if t.pc = .waiting ∧ s.MutexFree t.executionId then some (s.moveTo i t .locked) else none

/-- Lines 1007-1019; lines 1068-1070 for a timer. -/
def decideOwner (s : Quiescing) (i : ℕ) (t : QuiesceTask) (job : SupervisedJob) : Quiescing :=
  let owner := job.execution.job.quiescedBy
  if t.quiesced then
    if owner = none then s.moveTo i t .signalling
    else if owner = some t.operationId then s.moveTo i t (.returned .ok)
    else s.moveTo i t (.returned .digestConflict)
  else if owner = some t.operationId then s.moveTo i t .signalling
  else s.moveTo i t (.returned .digestConflict)

def decide (s : Quiescing) (i : ℕ) (t : QuiesceTask) : Option Quiescing :=
  if t.pc = .locked then (s.supervisor.get t.executionId).map fun job => s.decideOwner i t job
  else none

/-- The write of the owner, and the timer of a call that paused the execution (lines 1020-1051,
    1071-1086). Without a child there is no process to signal. -/
def signalled (s : Quiescing) (i : ℕ) (t : QuiesceTask) (success : Bool) : Option Quiescing :=
  if t.pc = .signalling then
    match s.supervisor.get t.executionId with
    | none => none
    | some job =>
      if success = true ∧ job.execution.job.child ≠ none then
        (s.supervisor.jobStep t.executionId
            (.quiesce (if t.quiesced then some t.operationId else none))).map
          fun supervisor =>
            { s.moveTo i t (.returned .ok) with
              supervisor := supervisor
              tasks := (s.moveTo i t (.returned .ok)).tasks ++
                if t.quiesced then
                  [{ t with quiesced := false, lease := some s.clock, pc := .begun }]
                else [] }
      else some (s.moveTo i t (.returned .notFound))
  else none

/-- A request, not a timer, can be dropped at an `await`. -/
def drop (s : Quiescing) (i : ℕ) (t : QuiesceTask) : Option Quiescing :=
  match t.lease, t.pc with
  | some _, _ => none
  | none, .returned _ => none
  | none, .dropped => none
  | none, _ => some (s.moveTo i t .dropped)

/-- The steps of the rest of the worker; the owner of a quiesce is written above only. -/
def supervise (s : Quiescing) (a : SupervisorAction) : Option Quiescing :=
  match a with
  | .job _ (.quiesce _) => none
  | a => (s.supervisor.step a).map fun supervisor => { s with supervisor := supervisor }

def step (s : Quiescing) : QuiesceAction → Option Quiescing
  | .request executionId workspaceId operationId quiesced =>
    some { s with
      tasks := s.tasks ++ [⟨executionId, workspaceId, operationId, quiesced, none, .begun⟩] }
  | .check i => s.tasks[i]?.bind fun t => s.check i t
  | .lock i => s.tasks[i]?.bind fun t => s.lock i t
  | .decide i => s.tasks[i]?.bind fun t => s.decide i t
  | .signalled i success => s.tasks[i]?.bind fun t => s.signalled i t success
  | .drop i => s.tasks[i]?.bind fun t => s.drop i t
  | .supervisor a => s.supervise a
  | .tick seconds => some { s with clock := s.clock + seconds }

/-- A worker process that serves its first request. -/
def Initial (s : Quiescing) : Prop := s.supervisor.Initial ∧ s.tasks = []

end Quiescing

/-! ## Who writes the owner -/

namespace Supervisor

variable {s s' : Supervisor}

/-- The operation that owns the quiesce of an execution. -/
def owner (s : Supervisor) (executionId : Uuid) : Option Uuid :=
  (s.get executionId).bind fun job => job.execution.job.quiescedBy

theorem Sound.get_eq (h : s.Sound) {job : SupervisedJob} (hjob : job ∈ s.jobs) :
    s.get job.executionId = some job :=
  h.keyed_jobs.find?_eq (fun _ hp => beq_iff_eq.1 hp) hjob (beq_self_eq_true _)

theorem Sound.owner_eq (h : s'.Sound)
    (hold : ∀ job ∈ s.jobs, ∃ job' ∈ s'.jobs, job'.executionId = job.executionId ∧
      job'.execution.job.quiescedBy = job.execution.job.quiescedBy)
    (hnew : ∀ job' ∈ s'.jobs, (∃ job ∈ s.jobs, job.executionId = job'.executionId) ∨
      job'.execution.job.quiescedBy = none) (id : Uuid) : s'.owner id = s.owner id := by
  unfold owner
  cases hget : s.get id with
  | some job =>
    obtain ⟨hmem, hid⟩ := find?_some hget
    obtain ⟨job', hmem', hid', hquiesced⟩ := hold job hmem
    have hget' := h.get_eq hmem'
    rw [hid', beq_iff_eq.1 hid] at hget'
    rw [hget']
    exact hquiesced
  | none =>
    cases hget' : s'.get id with
    | none => rfl
    | some job' =>
      obtain ⟨hmem', hid'⟩ := find?_some hget'
      rcases hnew job' hmem' with ⟨job, hmem, hid⟩ | hquiesced
      · have hno := find?_none hget job hmem
        rw [hid] at hno
        exact absurd (hid'.symm.trans hno) nofun
      · exact hquiesced

theorem Sound.owner_step (h : s.Sound) {a : SupervisorAction}
    (ha : ∀ id owner, a ≠ .job id (.quiesce owner)) (h1 : s.step a = some s') (id : Uuid) :
    s'.owner id = s.owner id := by
  apply (h.next h1).owner_eq
  all_goals rcases step_cases h1 with ⟨r, -, rfl⟩ | ⟨i, t, d, pc, -, ht, hm⟩ |
    ⟨id', act, rfl, hjob⟩ | ⟨draining, polls, rfl, -⟩
  · exact fun job hjob => ⟨job, hjob, rfl, rfl⟩
  · intro job hjob
    rcases hm.jobs with hjobs | ⟨hpc, new, w, -, -, -, hjobs⟩ | ⟨-, hjobs⟩
    · rw [hjobs]
      exact ⟨job, hjob, rfl, rfl⟩
    · have hne := h.sawNoJob i t ht (by rw [hpc]; rfl) _ (mem_map_of_mem hjob)
      rw [hjobs]
      exact ⟨job, mem_append_left _ (mem_delete.2 ⟨hjob, beq_eq_false_iff_ne.2 hne⟩), rfl, rfl⟩
    · rw [hjobs]
      refine ⟨_, mem_update.2 ⟨job, hjob, rfl⟩, ?_⟩
      split_ifs
      all_goals exact ⟨rfl, rfl⟩
  · obtain ⟨job, execution, hget, -, hstep, rfl⟩ := jobStep_eq_some hjob
    intro other hother
    have hkeeps := Execution.keeps_step (fun o heq => ha id' o (by rw [heq])) hstep
    refine ⟨_, mem_update.2 ⟨other, hother, rfl⟩, ?_⟩
    split_ifs with hid
    · have heq := h.get_eq hother
      rw [beq_iff_eq.1 hid, hget] at heq
      cases heq
      exact ⟨congrArg Prod.fst hkeeps.identity, hkeeps.quiescedBy⟩
    · exact ⟨rfl, rfl⟩
  · exact fun job hjob => ⟨job, hjob, rfl, rfl⟩
  · exact fun job hjob => .inl ⟨job, hjob, rfl⟩
  · intro job' hjob'
    rcases hm.jobs with hjobs | ⟨-, new, w, -, -, hquiesced, hjobs⟩ | ⟨-, hjobs⟩
    · rw [hjobs] at hjob'
      exact .inl ⟨job', hjob', rfl⟩
    · rw [hjobs] at hjob'
      rcases mem_append.1 hjob' with hmem | hmem
      · exact .inl ⟨job', mem_of_mem_delete hmem, rfl⟩
      · rw [mem_singleton.1 hmem]
        exact .inr hquiesced
    · rw [hjobs] at hjob'
      obtain ⟨job, hjob, rfl⟩ := mem_update.1 hjob'
      refine .inl ⟨job, hjob, ?_⟩
      split_ifs <;> rfl
  · obtain ⟨job, execution, hget, -, hstep, rfl⟩ := jobStep_eq_some hjob
    intro job' hjob'
    obtain ⟨other, hother, rfl⟩ := mem_update.1 hjob'
    refine .inl ⟨other, hother, ?_⟩
    split_ifs with hid
    · obtain ⟨-, hid'⟩ := find?_some hget
      rw [beq_iff_eq.1 hid, ← beq_iff_eq.1 hid']
      exact (congrArg Prod.fst (Execution.frame_step hstep).identity).symm
    · rfl
  · exact fun job hjob => .inl ⟨job, hjob, rfl⟩

theorem Sound.jobStep (h : s.Sound) {id : Uuid} {a : Action} (h1 : s.jobStep id a = some s') :
    s'.Sound :=
  h.next (a := .job id a) h1

theorem Sound.owner_quiesce (h : s.Sound) {id : Uuid} {o : Option Uuid}
    (h1 : s.jobStep id (.quiesce o) = some s') :
    s'.owner id = o ∧ ∀ id', id' ≠ id → s'.owner id' = s.owner id' := by
  have h' := h.jobStep h1
  obtain ⟨job, execution, hget, -, hstep, rfl⟩ := jobStep_eq_some h1
  cases hstep
  obtain ⟨hmem, hid⟩ := find?_some hget
  constructor
  · have hnew := h'.get_eq (mem_update_of (p := fun job => job.executionId == id) hmem hid)
    rw [show id = job.executionId from (beq_iff_eq.1 hid).symm] at hnew ⊢
    exact congrArg (fun j => bind j fun job => job.execution.job.quiescedBy) hnew
  · intro id' hne
    unfold owner
    cases hget' : s.get id' with
    | some other =>
      obtain ⟨hother, hid'⟩ := find?_some hget'
      have hp : (other.executionId == id) = false := by
        rw [beq_iff_eq.1 hid']
        exact beq_eq_false_iff_ne.2 hne
      have hstays := h'.get_eq (mem_update_of_not
        (f := fun job' : SupervisedJob => { job' with execution := _ }) hother hp)
      rw [beq_iff_eq.1 hid'] at hstays
      rw [hstays]
    | none =>
      cases hget'' : Supervisor.get _ id' with
      | none => rfl
      | some job' =>
        obtain ⟨hmem', hid'⟩ := find?_some hget''
        obtain ⟨other, hother, heq⟩ := mem_update.1 hmem'
        have hsame : job'.executionId = other.executionId := by
          rw [← heq]
          split_ifs with hp
          · exact (beq_iff_eq.1 hid).trans (beq_iff_eq.1 hp).symm
          · rfl
        have hno := find?_none hget' other hother
        rw [← hsame] at hno
        exact absurd (hid'.symm.trans hno) nofun

end Supervisor

/-! ## The steps -/

namespace Quiescing

variable {s s' : Quiescing} {i : ℕ} {t : QuiesceTask} {pc : QuiescePc} {a : QuiesceAction}

/-- A call or timer that moves to `pc` and writes nothing. -/
structure TaskMove (s : Quiescing) (t : QuiesceTask) (pc : QuiescePc) : Prop where
  running : ∀ r, t.pc ≠ .returned r
  mutex : pc.holdsMutex = true → t.pc.holdsMutex = true ∨ s.MutexFree t.executionId
  signalling : pc = .signalling →
    s.supervisor.owner t.executionId = if t.quiesced then none else some t.operationId
  woken : ∀ started ∈ t.lease, t.pc = .begun → started + leaseSeconds ≤ s.clock

theorem move_check (h : s.check i t = some s') : ∃ pc, s.TaskMove t pc ∧ s' = s.moveTo i t pc := by
  simp only [check, ite_none_right_eq_some] at h
  obtain ⟨⟨hpc, hslept⟩, h⟩ := h
  have hmove : ∀ pc : QuiescePc, pc.holdsMutex = false → s.TaskMove t pc := by
    intro pc hnot
    refine ⟨?_, ?_, ?_, fun started hs _ => hslept started hs⟩
    · intro r hr
      rw [hpc] at hr
      cases hr
    · intro hm
      rw [hnot] at hm
      cases hm
    · rintro rfl
      cases hnot
  split at h
  · cases h
    exact ⟨_, hmove _ rfl, rfl⟩
  · split_ifs at h
    all_goals
      cases h
      exact ⟨_, hmove _ rfl, rfl⟩

theorem move_lock (h : s.lock i t = some s') : ∃ pc, s.TaskMove t pc ∧ s' = s.moveTo i t pc := by
  simp only [lock, ite_none_right_eq_some, some.injEq] at h
  obtain ⟨⟨hpc, hfree⟩, rfl⟩ := h
  refine ⟨.locked, ⟨?_, fun _ => .inr hfree, nofun, ?_⟩, rfl⟩
  · rw [hpc]
    exact nofun
  · rw [hpc]
    exact fun _ _ => nofun

theorem move_decide (h : s.decide i t = some s') :
    ∃ pc, s.TaskMove t pc ∧ s' = s.moveTo i t pc := by
  simp only [decide, ite_none_right_eq_some] at h
  obtain ⟨hpc, h⟩ := h
  obtain ⟨job, hget, rfl⟩ := map_eq_some_iff.1 h
  have howner : s.supervisor.owner t.executionId = job.execution.job.quiescedBy := by
    unfold Supervisor.owner
    rw [hget]
    rfl
  have hmove : ∀ pc : QuiescePc, (pc = .signalling →
      s.supervisor.owner t.executionId = if t.quiesced then none else some t.operationId) →
      s.TaskMove t pc := by
    intro pc hsig
    refine ⟨?_, fun _ => .inl (by rw [hpc]; rfl), hsig, ?_⟩
    · rw [hpc]
      exact nofun
    · rw [hpc]
      exact fun _ _ => nofun
  unfold decideOwner
  dsimp only
  split_ifs with hq hnone hown hown
  · exact ⟨_, hmove _ (fun _ => by rw [howner, hnone, if_pos hq]), rfl⟩
  · exact ⟨.returned .ok, hmove _ nofun, rfl⟩
  · exact ⟨.returned .digestConflict, hmove _ nofun, rfl⟩
  · exact ⟨_, hmove _ (fun _ => by rw [howner, hown, if_neg hq]), rfl⟩
  · exact ⟨.returned .digestConflict, hmove _ nofun, rfl⟩

theorem move_drop (h : s.drop i t = some s') : ∃ pc, s.TaskMove t pc ∧ s' = s.moveTo i t pc := by
  unfold drop at h
  split at h <;> cases h
  rename_i hlease hreturned _
  refine ⟨.dropped, ⟨?_, nofun, nofun, ?_⟩, rfl⟩
  · exact fun r hr => hreturned r hr
  · rw [hlease]
    exact nofun

/-- What one step does. The owner is written by a call or timer whose signal succeeded. -/
theorem step_cases (h : s.step a = some s') :
    (∃ e w o q, s' = { s with tasks := s.tasks ++ [⟨e, w, o, q, none, .begun⟩] }) ∨
    (∃ i t pc, s.tasks[i]? = some t ∧ s.TaskMove t pc ∧ s' = s.moveTo i t pc) ∨
    (∃ i t supervisor, a = .signalled i true ∧ s.tasks[i]? = some t ∧ t.pc = .signalling ∧
      s.supervisor.jobStep t.executionId
        (.quiesce (if t.quiesced then some t.operationId else none)) = some supervisor ∧
      s' = { s with
        supervisor := supervisor
        tasks := s.tasks.set i { t with pc := .returned .ok } ++
          if t.quiesced then [{ t with quiesced := false, lease := some s.clock, pc := .begun }]
          else [] }) ∨
    (∃ act supervisor, (∀ id o, act ≠ .job id (.quiesce o)) ∧
      s.supervisor.step act = some supervisor ∧ s' = { s with supervisor := supervisor }) ∨
    ∃ seconds, s' = { s with clock := s.clock + seconds } := by
  cases a with
  | request e w o q => exact .inl ⟨e, w, o, q, (some.inj h).symm⟩
  | check i | lock i | decide i | drop i =>
    obtain ⟨t, ht, h⟩ := bind_eq_some_iff.1 h
    obtain ⟨pc, hm, rfl⟩ : ∃ pc, s.TaskMove t pc ∧ s' = s.moveTo i t pc := by
      first
        | exact move_check h
        | exact move_lock h
        | exact move_decide h
        | exact move_drop h
    exact .inr (.inl ⟨i, t, pc, ht, hm, rfl⟩)
  | signalled i success =>
    obtain ⟨t, ht, h⟩ := bind_eq_some_iff.1 h
    simp only [signalled, ite_none_right_eq_some] at h
    obtain ⟨hpc, h⟩ := h
    split at h
    · cases h
    · rename_i job _
      split at h
      · rename_i hsent
        obtain ⟨supervisor, hjob, rfl⟩ := map_eq_some_iff.1 h
        rw [hsent.1]
        exact .inr (.inr (.inl ⟨i, t, supervisor, rfl, ht, hpc, hjob, rfl⟩))
      · cases h
        refine .inr (.inl ⟨i, t, .returned .notFound, ht, ⟨?_, nofun, nofun, ?_⟩, rfl⟩)
        · rw [hpc]
          exact nofun
        · rw [hpc]
          exact fun _ _ => nofun
  | supervisor act =>
    simp only [step, supervise] at h
    split at h
    · cases h
    · rename_i hother
      obtain ⟨supervisor, hstep, rfl⟩ := map_eq_some_iff.1 h
      exact .inr (.inr (.inr (.inl ⟨act, supervisor, fun id o heq => hother id o heq, hstep, rfl⟩)))
  | tick seconds => exact .inr (.inr (.inr (.inr ⟨seconds, (some.inj h).symm⟩)))

/-! ## The invariant -/

def Paused (s : Quiescing) (executionId operationId : Uuid) : Prop :=
  ∃ u ∈ s.tasks, u.lease = none ∧ u.quiesced = true ∧ u.executionId = executionId ∧
    u.operationId = operationId ∧ u.pc = .returned .ok

/-- What holds in every state that a worker process reaches. -/
structure Sound (s : Quiescing) : Prop where
  supervisor : s.supervisor.Sound
  exclusive : ∀ (i j : ℕ) (t u : QuiesceTask), s.tasks[i]? = some t → s.tasks[j]? = some u →
    t.executionId = u.executionId → t.pc.holdsMutex = true → u.pc.holdsMutex = true → i = j
  /-- the owner that the holder of the mutex has seen is still there -/
  signalling : ∀ t ∈ s.tasks, t.pc = .signalling →
    s.supervisor.owner t.executionId = if t.quiesced then none else some t.operationId
  lease : ∀ t ∈ s.tasks, ∀ started ∈ t.lease, t.quiesced = false ∧
    (t.pc ≠ .begun → started + leaseSeconds ≤ s.clock) ∧ s.Paused t.executionId t.operationId

theorem Paused.moveTo {e o : Uuid} (h : s.Paused e o) (ht : s.tasks[i]? = some t)
    (hrunning : ∀ r, t.pc ≠ .returned r) : (s.moveTo i t pc).Paused e o := by
  obtain ⟨u, hu, hlease, hq, he, ho, hpc⟩ := h
  obtain ⟨j, hj⟩ := mem_iff_getElem?.1 hu
  have hne : i ≠ j := by
    rintro rfl
    rw [ht] at hj
    cases hj
    exact hrunning _ hpc
  refine ⟨u, ?_, hlease, hq, he, ho, hpc⟩
  exact mem_of_getElem? ((getElem?_set_ne hne).trans hj)

section

variable (h : s.Sound)
include h

theorem Sound.exclusive_moveTo (ht : s.tasks[i]? = some t)
    (hmutex : pc.holdsMutex = true → t.pc.holdsMutex = true ∨ s.MutexFree t.executionId)
    {j k : ℕ} {u v : QuiesceTask} (hu : (s.tasks.set i { t with pc := pc })[j]? = some u)
    (hv : (s.tasks.set i { t with pc := pc })[k]? = some v)
    (he : u.executionId = v.executionId) (hul : u.pc.holdsMutex = true)
    (hvl : v.pc.holdsMutex = true) : j = k := by
  have hother : ∀ {j : ℕ} {u : QuiesceTask}, s.tasks[j]? = some u →
      u.executionId = t.executionId → u.pc.holdsMutex = true → pc.holdsMutex = true → j = i := by
    intro j u hu he hul hpc
    rcases hmutex hpc with hheld | hfree
    · exact h.exclusive j i u t hu ht he hul hheld
    · rw [hfree u (mem_of_getElem? hu) he] at hul
      cases hul
  rcases getElem?_set_cases hu with ⟨hj, rfl⟩ | ⟨hj, hu'⟩
  · rcases getElem?_set_cases hv with ⟨hk, rfl⟩ | ⟨hk, hv'⟩
    · exact hj.trans hk.symm
    · exact absurd (hother hv' he.symm hvl hul) hk
  · rcases getElem?_set_cases hv with ⟨hk, rfl⟩ | ⟨hk, hv'⟩
    · exact absurd (hother hu' he hul hvl) hj
    · exact h.exclusive j k u v hu' hv' he hul hvl

theorem Sound.moveTo (ht : s.tasks[i]? = some t) (hm : s.TaskMove t pc) :
    (s.moveTo i t pc).Sound where
  supervisor := h.supervisor
  exclusive := fun _ _ _ _ hu hv => h.exclusive_moveTo ht hm.mutex hu hv
  signalling := by
    intro u hu hpc
    obtain ⟨j, hj⟩ := mem_iff_getElem?.1 hu
    rcases getElem?_set_cases hj with ⟨-, rfl⟩ | ⟨-, hj⟩
    · exact hm.signalling hpc
    · exact h.signalling u (mem_of_getElem? hj) hpc
  lease := by
    intro u hu started hs
    obtain ⟨j, hj⟩ := mem_iff_getElem?.1 hu
    rcases getElem?_set_cases hj with ⟨-, rfl⟩ | ⟨-, hj⟩
    · obtain ⟨hq, hslept, hpaused⟩ := h.lease t (mem_of_getElem? ht) started hs
      refine ⟨hq, fun _ => ?_, hpaused.moveTo ht hm.running⟩
      by_cases hpc : t.pc = .begun
      · exact hm.woken started hs hpc
      · exact hslept hpc
    · obtain ⟨hq, hslept, hpaused⟩ := h.lease u (mem_of_getElem? hj) started hs
      exact ⟨hq, hslept, hpaused.moveTo ht hm.running⟩

theorem Sound.added {added : List QuiesceTask} (hnot : ∀ t ∈ added, t.pc.holdsMutex = false)
    (hlease : ∀ t ∈ added, ∀ started ∈ t.lease, t.quiesced = false ∧
      (t.pc ≠ .begun → started + leaseSeconds ≤ s.clock) ∧ s.Paused t.executionId t.operationId) :
    Sound { s with tasks := s.tasks ++ added } := by
  have hpaused : ∀ {e o : Uuid}, s.Paused e o →
      Paused { s with tasks := s.tasks ++ added } e o := by
    rintro e o ⟨u, hu, hrest⟩
    exact ⟨u, mem_append_left _ hu, hrest⟩
  constructor
  · exact h.supervisor
  · intro j k u v hu hv he hul hvl
    rcases getElem?_append_cases hu with hu | ⟨-, hu⟩
    · rcases getElem?_append_cases hv with hv | ⟨-, hv⟩
      · exact h.exclusive j k u v hu hv he hul hvl
      · rw [hnot v hv] at hvl
        cases hvl
    · rw [hnot u hu] at hul
      cases hul
  · intro t ht hpc
    rcases mem_append.1 ht with ht | ht
    · exact h.signalling t ht hpc
    · have hheld := hnot t ht
      rw [hpc] at hheld
      cases hheld
  · intro t ht started hs
    rcases mem_append.1 ht with ht | ht
    · obtain ⟨hq, hslept, hp⟩ := h.lease t ht started hs
      exact ⟨hq, hslept, hpaused hp⟩
    · obtain ⟨hq, hslept, hp⟩ := hlease t ht started hs
      exact ⟨hq, hslept, hpaused hp⟩

theorem Sound.written (ht : s.tasks[i]? = some t) (hpc : t.pc = .signalling)
    {supervisor : Supervisor} {o : Option Uuid}
    (hjob : s.supervisor.jobStep t.executionId (.quiesce o) = some supervisor) :
    Sound { s with
      supervisor := supervisor
      tasks := s.tasks.set i { t with pc := .returned .ok } } := by
  have hrunning : ∀ r, t.pc ≠ .returned r := by
    rw [hpc]
    exact nofun
  obtain ⟨-, hothers⟩ := h.supervisor.owner_quiesce hjob
  have hpaused : ∀ {e o : Uuid}, s.Paused e o → (s.moveTo i t (.returned .ok)).Paused e o :=
    fun hp => hp.moveTo ht hrunning
  constructor
  · exact h.supervisor.jobStep hjob
  · intro j k u v hu hv
    apply h.exclusive_moveTo ht _ hu hv
    intro hheld
    cases hheld
  · intro u hu hupc
    obtain ⟨j, hj⟩ := mem_iff_getElem?.1 hu
    rcases getElem?_set_cases hj with ⟨-, rfl⟩ | ⟨hne, hj⟩
    · cases hupc
    · have hexec : u.executionId ≠ t.executionId := by
        intro he
        exact hne (h.exclusive j i u t hj ht he (by rw [hupc]; rfl) (by rw [hpc]; rfl))
      show supervisor.owner u.executionId = _
      rw [hothers _ hexec]
      exact h.signalling u (mem_of_getElem? hj) hupc
  · intro u hu started hs
    obtain ⟨j, hj⟩ := mem_iff_getElem?.1 hu
    rcases getElem?_set_cases hj with ⟨-, rfl⟩ | ⟨-, hj⟩
    · obtain ⟨hq, hslept, hp⟩ := h.lease t (mem_of_getElem? ht) started hs
      exact ⟨hq, fun _ => hslept (by rw [hpc]; exact nofun), hpaused hp⟩
    · obtain ⟨hq, hslept, hp⟩ := h.lease u (mem_of_getElem? hj) started hs
      exact ⟨hq, hslept, hpaused hp⟩

theorem Sound.next (h1 : s.step a = some s') : s'.Sound := by
  rcases step_cases h1 with ⟨e, w, o, q, rfl⟩ | ⟨i, t, pc, ht, hm, rfl⟩ |
    ⟨i, t, supervisor, -, ht, hpc, hjob, rfl⟩ | ⟨act, supervisor, hact, hstep, rfl⟩ |
    ⟨seconds, rfl⟩
  · refine h.added ?_ ?_
    · intro t ht
      rw [mem_singleton.1 ht]
      rfl
    · intro t ht started hs
      rw [mem_singleton.1 ht] at hs
      cases hs
  · exact h.moveTo ht hm
  · have hwritten := h.written ht hpc hjob
    split_ifs with hq
    · refine hwritten.added ?_ ?_
      · intro u hu
        rw [mem_singleton.1 hu]
        rfl
      · intro u hu started hs
        rw [mem_singleton.1 hu] at hs ⊢
        refine ⟨rfl, fun hne => absurd rfl hne, { t with pc := .returned .ok }, ?_, ?_, hq, rfl,
          rfl, rfl⟩
        · exact mem_of_getElem? (List.getElem?_set_self (List.getElem?_eq_some_iff.1 ht).1)
        · -- a timer does not pause, so `t` is a call
          cases hl : t.lease with
          | none => rfl
          | some started' =>
            have hfalse := (h.lease t (mem_of_getElem? ht) started' hl).1
            rw [hq] at hfalse
            cases hfalse
    · rw [append_nil]
      exact hwritten
  · have howner := h.supervisor.owner_step hact hstep
    constructor
    · exact h.supervisor.next hstep
    · exact h.exclusive
    · intro t ht hpc
      exact (howner _).trans (h.signalling t ht hpc)
    · exact h.lease
  · constructor
    · exact h.supervisor
    · exact h.exclusive
    · exact h.signalling
    · intro t ht started hs
      obtain ⟨hq, hslept, hp⟩ := h.lease t ht started hs
      exact ⟨hq, fun hpc => (hslept hpc).trans (Nat.le_add_right _ _), hp⟩

end

theorem sound_of_initial (h : s.Initial) : s.Sound := by
  obtain ⟨hsupervisor, htasks⟩ := h
  have hnone : ∀ t, t ∉ s.tasks := by
    intro t ht
    rw [htasks] at ht
    cases ht
  constructor
  · exact Supervisor.sound_of_initial hsupervisor
  · exact fun i j t u ht => absurd (mem_of_getElem? ht) (hnone t)
  all_goals exact fun t ht => absurd ht (hnone t)

theorem sound_of_reachable (h : Reachable step anyStep Initial s) : s.Sound :=
  h.invariant (fun _ h₀ => sound_of_initial h₀) fun _ _ _ hs _ h1 => hs.next h1

/-! ## The result -/

/-- In every run of requests, leases, jobs and dispatches, a step changes the
    owner of an execution's quiesce in two ways only. A request of an operation pauses an execution
    that has no owner. Or the owner's own request resumes it, or a lease of the owner that began at
    least 15 minutes before, by a call that paused the execution. -/
theorem quiesce_owned (h : Reachable step anyStep Initial s) {a : QuiesceAction}
    (h1 : s.step a = some s') (id : Uuid) : s'.supervisor.owner id = s.supervisor.owner id ∨
    ∃ i t, a = .signalled i true ∧ s.tasks[i]? = some t ∧ t.executionId = id ∧
      ((t.quiesced = true ∧ t.lease = none ∧ s.supervisor.owner id = none ∧
          s'.supervisor.owner id = some t.operationId) ∨
        (t.quiesced = false ∧ s.supervisor.owner id = some t.operationId ∧
          s'.supervisor.owner id = none ∧
          ∀ started ∈ t.lease, started + leaseSeconds ≤ s.clock ∧ s.Paused id t.operationId)) := by
  have hsound := sound_of_reachable h
  rcases step_cases h1 with ⟨e, w, o, q, rfl⟩ | ⟨i, t, pc, ht, hm, rfl⟩ |
    ⟨i, t, supervisor, ha, ht, hpc, hjob, rfl⟩ | ⟨act, supervisor, hact, hstep, rfl⟩ |
    ⟨seconds, rfl⟩
  · exact .inl rfl
  · exact .inl rfl
  · obtain ⟨hown, hothers⟩ := hsound.supervisor.owner_quiesce hjob
    have hmem := mem_of_getElem? ht
    have hseen := hsound.signalling t hmem hpc
    by_cases hid : t.executionId = id
    · right
      refine ⟨i, t, ha, ht, hid, ?_⟩
      rw [hid] at hseen hown
      by_cases hq : t.quiesced = true
      · left
        rw [if_pos hq] at hseen hown
        refine ⟨hq, ?_, hseen, hown⟩
        cases hl : t.lease with
        | none => rfl
        | some started =>
          have hfalse := (hsound.lease t hmem started hl).1
          rw [hq] at hfalse
          cases hfalse
      · right
        rw [if_neg hq] at hseen hown
        refine ⟨Bool.eq_false_of_not_eq_true hq, hseen, hown, ?_⟩
        intro started hs
        obtain ⟨-, hslept, hpaused⟩ := hsound.lease t hmem started hs
        rw [hid] at hpaused
        exact ⟨hslept (by rw [hpc]; exact nofun), hpaused⟩
    · exact .inl (hothers id (Ne.symm hid))
  · exact .inl (hsound.supervisor.owner_step hact hstep id)
  · exact .inl rfl

/-- A worker with one running job, the execution `1` of the workspace `2`. -/
def exampleStart : List QuiesceAction := Supervisor.exampleJob.map .supervisor

/-- The `i`-th call or timer runs through. -/
def exampleCall (i : ℕ) : List QuiesceAction := [.check i, .lock i, .decide i, .signalled i true]

def exampleWorker : Quiescing := ⟨Supervisor.exampleWorker, [], 0⟩

theorem initial_exampleWorker : exampleWorker.Initial := by
  refine ⟨⟨Keyed.nil, ?_, rfl, rfl, rfl, rfl⟩, rfl⟩
  intro job hjob
  cases hjob

def examplePaused : Quiescing :=
  (exec step anyStep exampleWorker (exampleStart ++ [.request 1 2 9 true, .check 0, .lock 0,
    .decide 0])).getD exampleWorker

/-- The operation `9` pauses the execution. -/
theorem operation_owns : ∃ s', examplePaused.step (.signalled 0 true) = some s' ∧
    s'.supervisor.owner 1 = some 9 ∧ (s'.supervisor.owner 1 = examplePaused.supervisor.owner 1 ∨
    ∃ i t, QuiesceAction.signalled 0 true = .signalled i true ∧
      examplePaused.tasks[i]? = some t ∧ t.executionId = 1 ∧
      ((t.quiesced = true ∧ t.lease = none ∧ examplePaused.supervisor.owner 1 = none ∧
          s'.supervisor.owner 1 = some t.operationId) ∨
        (t.quiesced = false ∧ examplePaused.supervisor.owner 1 = some t.operationId ∧
          s'.supervisor.owner 1 = none ∧ ∀ started ∈ t.lease,
            started + leaseSeconds ≤ examplePaused.clock ∧
              examplePaused.Paused 1 t.operationId))) := by
  have hrun : exec step anyStep exampleWorker (exampleStart ++ [.request 1 2 9 true, .check 0,
      .lock 0, .decide 0]) = some examplePaused := rfl
  have hstep : examplePaused.step (.signalled 0 true) = some _ := rfl
  exact ⟨_, hstep, rfl, quiesce_owned (reachable_of_exec initial_exampleWorker hrun) hstep 1⟩

/-- A request for another execution, up to its reply. -/
def exampleOther : List QuiesceAction :=
  ([.request ⟨5, 6, "b", 5, 5⟩, .dispatch 1 (.authorize false), .dispatch 1 .lock,
    .dispatch 1 .next, .dispatch 1 .next, .dispatch 1 (.measure none), .dispatch 1 .next,
    .dispatch 1 .next, .dispatch 1 (.prepare none 8 none 0), .dispatch 1 .next, .dispatch 1 .next,
    .dispatch 1 .next] : List SupervisorAction).map .supervisor

def exampleOwned : Quiescing :=
  (exec step anyStep exampleWorker (exampleStart ++ [.request 1 2 9 true] ++ exampleCall 0)).getD
    exampleWorker

/-- The operation pauses, resumes, and pauses again 800 seconds after the first time; 100 seconds
    later the timer of its first call wakes up. -/
def exampleAgain : Quiescing :=
  (exec step anyStep exampleOwned ([.request 1 2 9 false] ++ exampleCall 2 ++ [.tick 800,
    .request 1 2 9 true] ++ exampleCall 3 ++ [.tick 100, .check 1, .lock 1, .decide 1])).getD
    exampleWorker

/-- A dispatch is accepted while an operation owns an execution; and the timer of one call resumes
    the quiesce of a later call of the same operation, whose own lease has 800 seconds left. -/
theorem quiesce_cut_short :
    (∃ s s', Reachable step anyStep Initial s ∧ Runs step anyStep s s' ∧
      s.supervisor.owner 1 = some 9 ∧ s.supervisor.jobs.length = 1 ∧
      s'.supervisor.owner 1 = some 9 ∧ s'.supervisor.jobs.length = 2) ∧
    ∃ s s', Reachable step anyStep Initial s ∧ s.step (.signalled 1 true) = some s' ∧
      s.tasks[1]?.map (fun t => t.lease) = some (some 0) ∧
      s.tasks[4]?.map (fun t => (t.executionId, t.operationId, t.lease)) = some (1, 9, some 800) ∧
      s.clock = 900 ∧ s.supervisor.owner 1 = some 9 ∧ s'.supervisor.owner 1 = none := by
  have hrun : exec step anyStep exampleWorker (exampleStart ++ [.request 1 2 9 true] ++
      exampleCall 0) = some exampleOwned := rfl
  have howned := reachable_of_exec initial_exampleWorker hrun
  constructor
  · have hother : exec step anyStep exampleOwned exampleOther = some _ := rfl
    exact ⟨_, _, howned, runs_of_exec hother, rfl, rfl, rfl, rfl⟩
  · have hagain : exec step anyStep exampleOwned ([.request 1 2 9 false] ++ exampleCall 2 ++
        [.tick 800, .request 1 2 9 true] ++ exampleCall 3 ++
        [.tick 100, .check 1, .lock 1, .decide 1]) = some exampleAgain := rfl
    have hstep : exampleAgain.step (.signalled 1 true) = some _ := rfl
    exact ⟨_, _, howned.runs (runs_of_exec hagain), hstep, rfl, rfl, rfl, rfl, rfl⟩

end Quiescing

end VibeKanban.Worker

import VibeKanban.Worker.Lifecycle
import VibeKanban.Worker.Supervisor

/-!
# Dispatch is exactly once per execution

The write lock of `jobs` is held from the lookup of a job to its insertion.

* `dispatch_exactly_once`: a request that found no job is the only one that inserts one, and all
  accepting replies for an execution name its job.
-/

namespace VibeKanban.Worker

open Cluster Lib Option WorkerJob
open List hiding find?_some

/-! ## What the tasks of a job leave unchanged -/

namespace WorkerJob

variable {job job' : WorkerJob} {now : Timestamp} {payload : ExecutionEventPayload}

/-- What a reply says about a job, apart from its progress. -/
def identity (job : WorkerJob) : Uuid × Uuid × String :=
  (job.executionId, job.workerJobId, job.requestDigest)

/-- A step of a task: the job stays the same one, and a child that is not active does not become
    so in a terminal state. -/
structure Frame (before after : WorkerJob) : Prop where
  identity : after.identity = before.identity
  child : after.state.isTerminal = true → Supervisor.childActive before = false →
    Supervisor.childActive after = false

/-- The same for a step that does not pause or resume the execution. -/
structure Keeps (before after : WorkerJob) : Prop extends Frame before after where
  quiescedBy : after.quiescedBy = before.quiescedBy

/-- The journal gets one event at most, and nothing else happens to it. -/
structure Advances (before after : WorkerJob) : Prop extends Keeps before after where
  journal : after.journal = before.journal ∨ ∃ ts p, after.journal = (before.journal.append ts p).2

theorem Advances.of_child (hid : job'.identity = job.identity) (hchild : job'.child = job.child)
    (hquiesced : job'.quiescedBy = job.quiescedBy) (hjournal : job'.journal = job.journal ∨
      ∃ ts p, job'.journal = (job.journal.append ts p).2) : Advances job job' where
  identity := hid
  quiescedBy := hquiesced
  journal := hjournal
  child := by
    intro _ h
    unfold Supervisor.childActive at h ⊢
    rw [hchild]
    exact h

theorem Advances.refl : Advances job job := .of_child rfl rfl rfl (.inl rfl)

theorem Advances.emit : Advances job (job.emit now payload) :=
  .of_child rfl rfl rfl (.inr ⟨now, payload, rfl⟩)

theorem Advances.of_append (h : job.append now payload = some job') : Advances job job' := by
  unfold append at h
  split at h <;> cases h
  rename_i hj
  exact .of_child rfl rfl rfl (.inr ⟨now, payload, by rw [hj]⟩)

theorem Advances.stopChild (stopped : Option ExitStatus) :
    Advances job (job.stopChild stopped) := by
  unfold WorkerJob.stopChild
  split
  · exact .refl
  · exact ⟨⟨⟨rfl, fun _ _ => rfl⟩, rfl⟩, .inl rfl⟩
  · exact .refl

theorem Advances.finishStep {claim claim' : Option Finisher} {who : Finisher} {pc : FinishPc}
    {pc' : Option FinishPc} (h : finishStep job claim who now pc = some (job', claim', pc')) :
    Advances job job' := by
  cases pc with
  | waiting finish =>
    simp only [Worker.finishStep] at h
    split_ifs at h
    cases h
    exact .refl
  | claimed finish =>
    cases finish <;> cases h
    · exact .of_child rfl rfl rfl (.inl rfl)
    · exact .of_child rfl rfl rfl (.inl rfl)
    · exact .emit
  | appending e =>
    simp only [Worker.finishStep] at h
    split at h <;> cases h
    · rename_i hj
      exact .of_append hj
    · exact .refl
  | writing e =>
    cases h
    exact .of_child rfl rfl rfl (.inl rfl)

end WorkerJob

namespace Execution

variable {s s' : Execution} {now : Timestamp} {a : Action}

theorem advances_cancel {fails : Bool} (h1 : s.cancel now fails = some s') :
    Advances s.job s'.job := by
  unfold cancel at h1
  dsimp only at h1
  repeat' split at h1
  all_goals cases h1
  all_goals first
    | exact .refl
    | exact .of_child rfl rfl rfl (.inl rfl)
    | exact .of_append ‹_›

section

variable (ha : ∀ owner, a ≠ .quiesce owner) (h1 : s.step a = some s')
include ha h1

/-- The hand-over of the child writes `Running`; every other step that changes the child of a job
    only ends it. -/
theorem advances_step : Advances s.job s'.job := by
  cases a with
  | setStarting now =>
    simp only [step, setStarting] at h1
    split_ifs at h1
    split at h1 <;> cases h1
    · rename_i hj
      exact .of_append hj
    · exact .refl
  | writeStarting =>
    simp only [step, writeStarting] at h1
    split_ifs at h1
    cases h1
    exact .of_child rfl rfl rfl (.inl rfl)
  | spawned result | handOff | closed | lockCancel | dropCancel =>
    simp only [step, spawned, handOff, closed, dropCancel] at h1
    repeat' split at h1
    all_goals cases h1 <;> exact .refl
  | writeRunning =>
    simp only [step, writeRunning] at h1
    split at h1 <;> cases h1
    refine ⟨⟨⟨rfl, ?_⟩, rfl⟩, .inl rfl⟩
    intro h
    cases h
  | observe outcome =>
    simp only [step, observe, ite_none_right_eq_some] at h1
    obtain ⟨-, h1⟩ := h1
    repeat' split at h1
    all_goals cases h1
    all_goals first
      | exact .refl
      | exact .stopChild _
  | finish who now =>
    cases who with simp only [step, finish] at h1
    | run | reaper =>
      repeat' split at h1
      all_goals cases h1
      all_goals
        rename_i hf
        exact .finishStep hf
  | cancel now fails => exact advances_cancel h1
  | reap now =>
    simp only [step, reap] at h1
    repeat' split at h1
    all_goals cases h1
    all_goals first
      | exact .of_child rfl rfl rfl (.inl rfl)
      | exact .emit
  | quarantine =>
    cases h1
    exact .of_child rfl rfl rfl (.inl rfl)
  | emit now payload =>
    simp only [step] at h1
    split_ifs at h1
    cases h1
    exact .emit
  | output now stderr data =>
    cases h1
    exact .of_child rfl rfl rfl (.inr ⟨_, _, rfl⟩)
  | streamError now error =>
    cases h1
    exact .emit
  | childChanges child =>
    simp only [step, childChanges] at h1
    split at h1 <;> cases h1
    rename_i before hexited hchild
    refine ⟨⟨⟨rfl, ?_⟩, rfl⟩, .inl rfl⟩
    intro _ h
    -- a child that is not active has exited, and such a child does not change
    unfold Supervisor.childActive at h
    rw [hchild] at h
    cases before with
    | running | unobservable => cases h
    | exited status => exact absurd rfl (hexited status)
  | quiesce owner => exact absurd rfl (ha owner)

theorem keeps_step : Keeps s.job s'.job := (advances_step ha h1).toKeeps

end

theorem journal_step (h1 : s.step a = some s') : s'.job.journal = s.job.journal ∨
      ∃ ts p, s'.job.journal = (s.job.journal.append ts p).2 := by
  by_cases ha : ∀ owner, a ≠ .quiesce owner
  · exact (advances_step ha h1).journal
  · simp only [not_forall, ne_eq, not_not] at ha
    obtain ⟨owner, rfl⟩ := ha
    cases h1
    exact .inl rfl

theorem frame_step (h1 : s.step a = some s') : Frame s.job s'.job := by
  by_cases ha : ∀ owner, a ≠ .quiesce owner
  · exact (keeps_step ha h1).toFrame
  · simp only [not_forall, ne_eq, not_not] at ha
    obtain ⟨owner, rfl⟩ := ha
    cases h1
    exact ⟨rfl, fun _ h => h⟩

end Execution

/-! ## Positions of a request -/

namespace DispatchPc

/-- The request holds the write lock of `jobs`. -/
@[simp] def holdsLock : DispatchPc → Bool
  | .received | .waiting | .persisting _ | .answered _ => false
  | _ => true

/-- The request is counted in `admitting`. -/
@[simp] def inAdmission : DispatchPc → Bool
  | .admitted | .preparing | .leaving _ | .inserted _ => true
  | _ => false

/-- The request saw that its execution has no job, and may still insert one. -/
@[simp] def sawNoJob : DispatchPc → Bool
  | .unlisted | .unmeasured | .entering | .admitted | .preparing => true
  | _ => false

/-- The request found a job with its digest, and has not read all of the reply. -/
@[simp] def replaying : DispatchPc → Bool
  | .readingState | .readingSequence _ => true
  | _ => false

/-- The request passed its first look at the drain flag and is not yet past the admission. -/
@[simp] def pastFlag : DispatchPc → Bool
  | .unmeasured | .entering | .admitted | .preparing | .leaving _ | .inserted _ => true
  | _ => false

/-- What the request replies, once that is known. -/
@[simp] def reply : DispatchPc → Option (Except DispatchError DispatchAccepted)
  | .leaving reply | .unlocking reply | .answered reply => reply
  | _ => none

@[simp] def acceptedId : Option (Except DispatchError DispatchAccepted) → Option Uuid
  | some (.ok accepted) => some accepted.workerJobId
  | _ => none

/-- The worker job ID that the request replies or is going to reply. -/
@[simp] def workerJobId : DispatchPc → Option Uuid
  | .inserted workerJobId | .released workerJobId | .persisting workerJobId => some workerJobId
  | .leaving reply | .unlocking reply | .answered reply => acceptedId reply
  | _ => none

/-- The request inserted its job, so that it is not refused any more. -/
@[simp] def pastRefusal : DispatchPc → Bool
  | .inserted _ | .released _ | .persisting _ | .answered none | .answered (some (.ok _)) => true
  | _ => false

end DispatchPc

namespace Supervisor

variable {s s' : Supervisor} {i : ℕ} {t : DispatchTask}

def identities (s : Supervisor) : List (Uuid × Uuid × String) :=
  s.jobs.map fun job => job.execution.job.identity

/-- What one step of the request `t` can do: it moves to `pc`, and what it changes besides follows
    from where it was and where it is. -/
structure DispatchMove (s : Supervisor) (i : ℕ) (t : DispatchTask) (pc : DispatchPc)
    (s' : Supervisor) : Prop where
  dispatches : s'.dispatches = s.dispatches.set i { t with pc := pc }
  polls : s'.polls = s.polls
  draining : s'.admissionDraining = s.admissionDraining
  /-- the lock is taken when it is free, and given back only by its holder -/
  writer : t.pc.holdsLock = pc.holdsLock ∧ s'.writer = s.writer ∨
    t.pc.holdsLock = false ∧ pc.holdsLock = true ∧ s.writer = none ∧ s'.writer = some i ∨
    t.pc.holdsLock = true ∧ pc.holdsLock = false ∧ s'.writer = none
  admitting : t.pc.inAdmission = pc.inAdmission ∧ s'.admitting = s.admitting ∨
    t.pc.inAdmission = false ∧ pc.inAdmission = true ∧ s'.admitting = s.admitting + 1 ∨
    t.pc.inAdmission = true ∧ pc.inAdmission = false ∧ s'.admitting = s.admitting - 1
  jobs : s'.jobs = s.jobs ∨
    (t.pc = .preparing ∧ ∃ job workerJobId, pc = .inserted workerJobId ∧
      job.execution.job.identity = (t.request.executionId, workerJobId, t.request.requestDigest) ∧
      job.execution.job.quiescedBy = none ∧
      s'.jobs = delete (fun job => job.executionId == t.request.executionId) s.jobs ++ [job]) ∨
    ((∃ workerJobId, t.pc = .persisting workerJobId) ∧
      s'.jobs = update (fun job => job.executionId == t.request.executionId)
        (fun job => { job with runJob := true }) s.jobs)
  sawNoJob : pc.sawNoJob = true → t.pc.sawNoJob = true ∨ s.get t.request.executionId = none
  replaying : pc.replaying = true → t.pc.replaying = true ∨
    ∃ existing, s.get t.request.executionId = some existing ∧
      existing.execution.job.requestDigest = t.request.requestDigest
  workerJobId : ∀ w, pc.workerJobId = some w → t.pc.workerJobId = some w ∨
    (t.request.executionId, w, t.request.requestDigest) ∈ s'.identities ∨
    (t.pc.replaying = true ∧ ∃ existing, s.get t.request.executionId = some existing ∧
      existing.execution.job.workerJobId = w)
  pastFlag : pc.pastFlag = true →
    t.pc.pastFlag = true ∨ (t.pc = .unlisted ∧ s.admissionDraining = false)
  accepted : ∀ a, pc.reply = some (.ok a) → t.pc.reply = some (.ok a) ∨
    (a.executionId = t.request.executionId ∧ a.requestDigest = t.request.requestDigest) ∨
    (t.pc.replaying = true ∧ ∃ existing, s.get t.request.executionId = some existing ∧
      a.executionId = existing.execution.job.executionId ∧
      a.requestDigest = existing.execution.job.requestDigest)
  pastRefusal : t.pc.pastRefusal = true → pc.pastRefusal = true

variable {pc : DispatchPc} {stall : Option String}

theorem move_moveTo (hlock : t.pc.holdsLock = pc.holdsLock)
    (hadm : t.pc.inAdmission = pc.inAdmission)
    (hnone : pc.sawNoJob = true → t.pc.sawNoJob = true ∨ s.get t.request.executionId = none)
    (hreplay : pc.replaying = true → t.pc.replaying = true ∨
      ∃ existing, s.get t.request.executionId = some existing ∧
        existing.execution.job.requestDigest = t.request.requestDigest)
    (hflag : pc.pastFlag = true →
      t.pc.pastFlag = true ∨ (t.pc = .unlisted ∧ s.admissionDraining = false))
    (hid : pc.workerJobId = none) (hreply : ∀ a, pc.reply ≠ some (.ok a))
    (hpast : t.pc.pastRefusal = true → pc.pastRefusal = true) :
    ∃ pc', DispatchMove s i t pc' (s.moveTo i t pc) :=
  ⟨pc,
    { dispatches := rfl
      polls := rfl
      draining := rfl
      writer := .inl ⟨hlock, rfl⟩
      admitting := .inl ⟨hadm, rfl⟩
      jobs := .inl rfl
      sawNoJob := hnone
      replaying := hreplay
      workerJobId := fun _ hw => absurd (hid.symm.trans hw) nofun
      pastFlag := hflag
      accepted := fun a ha => absurd ha (hreply a)
      pastRefusal := hpast }⟩

theorem move_authorize {refused : Bool} (h : s.dispatchStep i t (.authorize refused) = some s') :
    ∃ pc, DispatchMove s i t pc s' := by
  simp only [dispatchStep, ite_none_right_eq_some, some.injEq] at h
  obtain ⟨hpc, rfl⟩ := h
  unfold authorized
  split_ifs <;> apply move_moveTo <;> simp [hpc]

theorem move_lock (h : s.dispatchStep i t .lock = some s') : ∃ pc, DispatchMove s i t pc s' := by
  simp only [dispatchStep, ite_none_right_eq_some, some.injEq] at h
  obtain ⟨⟨hpc, hfree⟩, rfl⟩ := h
  refine ⟨.locked, ?_⟩
  constructor <;> simp [hpc, hfree, moveTo]

theorem move_measure {refusal : Option String}
    (h : s.dispatchStep i t (.measure refusal) = some s') : ∃ pc, DispatchMove s i t pc s' := by
  simp only [dispatchStep, ite_none_right_eq_some] at h
  obtain ⟨hpc, h⟩ := h
  split at h
  all_goals
    cases h
    apply move_moveTo <;> simp [hpc]

theorem dispatch_identity {d : Execution.Dispatch} {capacity : ℕ}
    {now : Timestamp} {execution : Execution}
    (h : Execution.dispatch d capacity stall now = .ok execution) :
    execution.job.identity = (d.executionId, d.workerJobId, d.requestDigest) ∧
      execution.job.quiescedBy = none := by
  unfold Execution.dispatch at h
  split at h
  · cases h
  · split at h <;> cases h
    exact ⟨rfl, rfl⟩

theorem move_prepare {error : Option String} {w : Uuid} {now : Timestamp}
    (h : s.dispatchStep i t (.prepare error w stall now) = some s') :
    ∃ pc, DispatchMove s i t pc s' := by
  simp only [dispatchStep, ite_none_right_eq_some] at h
  obtain ⟨hpc, h⟩ := h
  split at h <;> cases h
  · apply move_moveTo <;> simp [hpc]
  · unfold insertJob
    dsimp only
    split
    · apply move_moveTo <;> simp [hpc]
    · rename_i execution hdispatch
      refine ⟨.inserted w, ?_⟩
      constructor
      case jobs =>
        obtain ⟨hid, hquiesced⟩ := dispatch_identity hdispatch
        exact .inr (.inl ⟨hpc, _, w, rfl, hid, hquiesced, rfl⟩)
      case workerJobId =>
        intro w' hw
        cases hw
        refine .inr (.inl (mem_map.2 ⟨⟨execution, false⟩, ?_, (dispatch_identity hdispatch).1⟩))
        exact mem_append_right _ (mem_singleton_self _)
      all_goals simp [hpc, moveTo]

theorem move_drop (h : s.dispatchStep i t .drop = some s') : ∃ pc, DispatchMove s i t pc s' := by
  simp only [dispatchStep, dispatchDrop] at h
  split at h
  all_goals cases h
  all_goals rename_i hpc
  all_goals apply move_moveTo <;> simp [hpc]

theorem move_next (h : s.dispatchStep i t .next = some s') : ∃ pc, DispatchMove s i t pc s' := by
  simp only [dispatchStep, dispatchNext] at h
  split at h
  · rename_i hpc
    split at h
    · rename_i hget
      split_ifs at h with hdigest <;> cases h
      · apply move_moveTo <;> simp [hpc]
      · apply move_moveTo <;> simp [hpc, hget, not_not.1 hdigest]
    · rename_i hget
      cases h
      apply move_moveTo <;> simp [hpc, hget]
  · rename_i hpc
    obtain ⟨existing, hget, rfl⟩ := map_eq_some_iff.1 h
    apply move_moveTo <;> simp [hpc]
  · rename_i state hpc
    obtain ⟨existing, hget, rfl⟩ := map_eq_some_iff.1 h
    refine ⟨.unlocking (some (.ok (existing.execution.job.accepted state))), ?_⟩
    constructor
    case workerJobId =>
      intro w hw
      cases hw
      exact .inr (.inr ⟨by rw [hpc]; rfl, existing, hget, rfl⟩)
    case accepted =>
      intro a ha
      cases ha
      exact .inr (.inr ⟨by rw [hpc]; rfl, existing, hget, rfl, rfl⟩)
    all_goals simp [hpc, moveTo]
  · rename_i hpc
    split_ifs at h with hdraining <;> cases h
    · apply move_moveTo <;> simp [hpc]
    · apply move_moveTo <;> simp [hpc, hdraining]
  · rename_i hpc
    cases h
    refine ⟨.admitted, ?_⟩
    constructor <;> simp [hpc, moveTo]
  · rename_i hpc
    split_ifs at h
    all_goals
      cases h
      apply move_moveTo <;> simp [hpc]
  · rename_i reply hpc
    cases h
    refine ⟨.unlocking reply, ?_⟩
    constructor
    case workerJobId =>
      intro w hw
      exact .inl (by rw [hpc]; exact hw)
    case accepted =>
      intro a ha
      exact .inl (by rw [hpc]; exact ha)
    all_goals simp [hpc, moveTo]
  · rename_i reply hpc
    cases h
    refine ⟨.answered reply, ?_⟩
    constructor
    case workerJobId =>
      intro w hw
      exact .inl (by rw [hpc]; exact hw)
    case accepted =>
      intro a ha
      exact .inl (by rw [hpc]; exact ha)
    all_goals simp [hpc, moveTo]
  · rename_i w hpc
    cases h
    refine ⟨.released w, ?_⟩
    constructor <;> simp [hpc, moveTo]
  · rename_i w hpc
    cases h
    refine ⟨.persisting w, ?_⟩
    constructor <;> simp [hpc, moveTo]
  · rename_i w hpc
    cases h
    refine ⟨.answered (some (.ok
      ⟨t.request.executionId, w, t.request.requestDigest, .accepted, 1⟩)), ?_⟩
    constructor
    case jobs => exact .inr (.inr ⟨⟨w, hpc⟩, rfl⟩)
    all_goals simp [hpc, moveTo]
  · cases h

theorem dispatchMove_of_step {a : DispatchAction} (h : s.dispatchStep i t a = some s') :
    ∃ pc, DispatchMove s i t pc s' := by
  cases a with
  | authorize refused => exact move_authorize h
  | lock => exact move_lock h
  | measure refusal => exact move_measure h
  | prepare error w stall now => exact move_prepare h
  | next => exact move_next h
  | drop => exact move_drop h

/-! ## The invariant -/

variable {id : Uuid}

theorem mem_identities {job : SupervisedJob} (h : s.get id = some job) :
    job.execution.job.identity ∈ s.identities ∧ job.execution.job.executionId = id := by
  obtain ⟨hmem, hid⟩ := find?_some h
  exact ⟨mem_map_of_mem hmem, beq_iff_eq.1 hid⟩

theorem not_mem_identities (h : s.get id = none) : ∀ x ∈ s.identities, x.1 ≠ id := by
  intro x hx
  obtain ⟨job, hjob, rfl⟩ := mem_map.1 hx
  exact beq_eq_false_iff_ne.1 (find?_none h job hjob)

/-- What holds in every state that a worker process reaches. -/
structure Sound (s : Supervisor) : Prop where
  keyed : (s.identities.map Prod.fst).Nodup
  writer : ∀ (i : ℕ) (t : DispatchTask), s.dispatches[i]? = some t →
    (t.pc.holdsLock = true ↔ s.writer = some i)
  bounded : ∀ i, s.writer = some i → i < s.dispatches.length
  sawNoJob : ∀ (i : ℕ) (t : DispatchTask), s.dispatches[i]? = some t → t.pc.sawNoJob = true →
    ∀ x ∈ s.identities, x.1 ≠ t.request.executionId
  replaying : ∀ (i : ℕ) (t : DispatchTask), s.dispatches[i]? = some t → t.pc.replaying = true →
    ∃ w, (t.request.executionId, w, t.request.requestDigest) ∈ s.identities
  workerJobId :
    ∀ (i : ℕ) (t : DispatchTask), s.dispatches[i]? = some t → ∀ w, t.pc.workerJobId = some w →
    (t.request.executionId, w, t.request.requestDigest) ∈ s.identities
  accepted : ∀ (i : ℕ) (t : DispatchTask), s.dispatches[i]? = some t →
    ∀ a, t.pc.reply = some (.ok a) →
    a.executionId = t.request.executionId ∧ a.requestDigest = t.request.requestDigest
  admitted : ∀ (i : ℕ) (t : DispatchTask), s.dispatches[i]? = some t → t.pc.inAdmission = true →
    s.admitting = 1
  idle : (∀ (i : ℕ) (t : DispatchTask), s.dispatches[i]? = some t → t.pc.inAdmission = false) →
    s.admitting = 0

theorem holdsLock_of_inAdmission (h : pc.inAdmission = true) : pc.holdsLock = true := by
  cases pc with
  | admitted => rfl
  | preparing => rfl
  | leaving reply => rfl
  | inserted w => rfl
  | _ => cases h

theorem holdsLock_of_sawNoJob (h : pc.sawNoJob = true) : pc.holdsLock = true := by
  cases pc with
  | unlisted => rfl
  | unmeasured => rfl
  | entering => rfl
  | admitted => rfl
  | preparing => rfl
  | _ => cases h

variable {j : ℕ} {u : DispatchTask}

theorem Sound.eq_of_holdsLock (h : s.Sound)
    (ht : s.dispatches[i]? = some t) (hu : s.dispatches[j]? = some u)
    (htl : t.pc.holdsLock = true) (hul : u.pc.holdsLock = true) : j = i := by
  have hi := (h.writer i t ht).1 htl
  have hj := (h.writer j u hu).1 hul
  rw [hi] at hj
  exact (some.inj hj).symm

theorem Sound.eq_of_key (h : s.Sound) {x y : Uuid × Uuid × String} (hx : x ∈ s.identities)
    (hy : y ∈ s.identities) (hxy : x.1 = y.1) : x = y :=
  inj_on_of_nodup_map h.keyed hx hy hxy

section

variable (hm : DispatchMove s i t pc s')
include hm

theorem DispatchMove.task (hu : s'.dispatches[j]? = some u) :
    (j = i ∧ u = { t with pc := pc }) ∨ (j ≠ i ∧ s.dispatches[j]? = some u) := by
  rw [hm.dispatches] at hu
  exact getElem?_set_cases hu

theorem DispatchMove.other (hj : j ≠ i) (hu : s.dispatches[j]? = some u) :
    s'.dispatches[j]? = some u := by
  rw [hm.dispatches, getElem?_set_ne hj.symm]
  exact hu

theorem DispatchMove.self (ht : s.dispatches[i]? = some t) :
    s'.dispatches[i]? = some { t with pc := pc } := by
  rw [hm.dispatches]
  exact List.getElem?_set_self (List.getElem?_eq_some_iff.1 ht).1

end

theorem Sound.identities_move (h : s.Sound) (ht : s.dispatches[i]? = some t)
    (hm : DispatchMove s i t pc s') :
    s'.identities = s.identities ∨ (t.pc = .preparing ∧ ∃ w, pc = .inserted w ∧
      s'.identities = s.identities ++ [(t.request.executionId, w, t.request.requestDigest)]) := by
  rcases hm.jobs with hjobs | ⟨hpc, job, w, hpc', hid, -, hjobs⟩ | ⟨-, hjobs⟩
  · left
    unfold identities
    rw [hjobs]
  · refine .inr ⟨hpc, w, hpc', ?_⟩
    have hnew := h.sawNoJob i t ht (by rw [hpc]; rfl)
    have hdelete : delete (fun job => job.executionId == t.request.executionId) s.jobs =
        s.jobs := by
      apply filter_eq_self.2
      intro other hother
      have hne : other.executionId ≠ t.request.executionId := hnew _ (mem_map_of_mem hother)
      show (!(other.executionId == t.request.executionId)) = true
      rw [beq_eq_false_iff_ne.2 hne]
      rfl
    unfold identities
    rw [hjobs, hdelete, map_append, map_singleton, hid]
  · left
    unfold identities
    rw [hjobs]
    unfold update
    rw [List.map_map]
    apply map_congr_left
    intro job _
    show (if _ then _ else _ : SupervisedJob).execution.job.identity = _
    split_ifs <;> rfl

variable {pc : DispatchPc}

section

variable (h : s.Sound)

include h

section

variable (ht : s.dispatches[i]? = some t)
include ht

theorem Sound.identities_subset (hm : DispatchMove s i t pc s') :
    ∀ x ∈ s.identities, x ∈ s'.identities := by
  intro x hx
  rcases h.identities_move ht hm with hids | ⟨-, w, -, hids⟩ <;> rw [hids]
  · exact hx
  · exact mem_append_left _ hx

theorem Sound.keyed_move (hm : DispatchMove s i t pc s') : (s'.identities.map Prod.fst).Nodup := by
  rcases h.identities_move ht hm with hids | ⟨hpc, w, -, hids⟩
  · rw [hids]
    exact h.keyed
  · rw [hids, map_append, map_singleton]
    refine Nodup.append h.keyed (nodup_singleton _) ?_
    intro x hx hmem
    obtain ⟨y, hy, rfl⟩ := mem_map.1 hx
    exact h.sawNoJob i t ht (by rw [hpc]; rfl) y hy (mem_singleton.1 hmem)

theorem Sound.writer_move (hm : DispatchMove s i t pc s')
    (hu : s'.dispatches[j]? = some u) : u.pc.holdsLock = true ↔ s'.writer = some j := by
  rcases hm.task hu with ⟨rfl, rfl⟩ | ⟨hj, hu⟩
  · rcases hm.writer with ⟨hlock, hw⟩ | ⟨-, hlock, -, hw⟩ | ⟨-, hlock, hw⟩
    · rw [← hlock, hw]
      exact h.writer j t ht
    · rw [hlock, hw]
      exact ⟨fun _ => rfl, fun _ => rfl⟩
    · rw [hlock, hw]
      exact ⟨nofun, nofun⟩
  · have hwj := h.writer j u hu
    rcases hm.writer with ⟨-, hw⟩ | ⟨-, -, hfree, hw⟩ | ⟨hlock, -, hw⟩
    · rw [hw]
      exact hwj
    · rw [hfree] at hwj
      rw [hw]
      exact ⟨fun hl => absurd (hwj.1 hl) nofun, fun hl => absurd (some.inj hl) hj.symm⟩
    · rw [hw]
      exact ⟨fun hl => absurd (h.eq_of_holdsLock ht hu hlock hl) hj, nofun⟩

theorem Sound.sawNoJob_move (hm : DispatchMove s i t pc s')
    (hu : s'.dispatches[j]? = some u) (hsaw : u.pc.sawNoJob = true) :
    ∀ x ∈ s'.identities, x.1 ≠ u.request.executionId := by
  rcases hm.task hu with ⟨rfl, rfl⟩ | ⟨hj, hu⟩
  · rcases h.identities_move ht hm with hids | ⟨-, w, hpc', -⟩
    · rw [hids]
      rcases hm.sawNoJob hsaw with hbefore | hnone
      · exact h.sawNoJob j t ht hbefore
      · exact not_mem_identities hnone
    · rw [hpc'] at hsaw
      cases hsaw
  · rcases h.identities_move ht hm with hids | ⟨hpc, w, -, -⟩
    · rw [hids]
      exact h.sawNoJob j u hu hsaw
    · exact absurd (h.eq_of_holdsLock ht hu (by rw [hpc]; rfl) (holdsLock_of_sawNoJob hsaw)) hj

theorem Sound.identity_of_replaying (hreplay : t.pc.replaying = true) {existing : SupervisedJob}
    (hget : s.get t.request.executionId = some existing) :
    existing.execution.job.executionId = t.request.executionId ∧
      existing.execution.job.requestDigest = t.request.requestDigest ∧
      existing.execution.job.identity ∈ s.identities := by
  obtain ⟨w, hw⟩ := h.replaying i t ht hreplay
  obtain ⟨hmem, hid⟩ := mem_identities hget
  exact ⟨hid, congrArg (fun x => x.2.2) (h.eq_of_key hmem hw hid), hmem⟩

theorem Sound.workerJobId_move (hm : DispatchMove s i t pc s')
    (hu : s'.dispatches[j]? = some u) {w : Uuid} (hw : u.pc.workerJobId = some w) :
    (u.request.executionId, w, u.request.requestDigest) ∈ s'.identities := by
  rcases hm.task hu with ⟨rfl, rfl⟩ | ⟨-, hu⟩
  · rcases hm.workerJobId w hw with hbefore | hnew | ⟨hreplay, existing, hget, rfl⟩
    · exact h.identities_subset ht hm _ (h.workerJobId j t ht w hbefore)
    · exact hnew
    · obtain ⟨hid, hdigest, hmem⟩ := h.identity_of_replaying ht hreplay hget
      apply h.identities_subset ht hm
      show (t.request.executionId, existing.execution.job.workerJobId,
        t.request.requestDigest) ∈ s.identities
      rw [← hid, ← hdigest]
      exact hmem
  · exact h.identities_subset ht hm _ (h.workerJobId j u hu w hw)

theorem Sound.admitted_move (hm : DispatchMove s i t pc s')
    (hu : s'.dispatches[j]? = some u) (hin : u.pc.inAdmission = true) : s'.admitting = 1 := by
  have hholder := (h.writer_move ht hm hu).1 (holdsLock_of_inAdmission hin)
  -- whoever is in admission holds the lock, before the step and after it
  have halone : ∀ (k : ℕ) (v : DispatchTask), k ≠ j → s'.dispatches[k]? = some v →
      v.pc.inAdmission = false := by
    intro k v hk hv
    by_contra hne
    have hkl := (h.writer_move ht hm hv).1
      (holdsLock_of_inAdmission (Bool.eq_true_of_not_eq_false hne))
    rw [hholder] at hkl
    exact hk (some.inj hkl).symm
  rcases hm.task hu with ⟨rfl, rfl⟩ | ⟨hj, hu₀⟩
  · rcases hm.admitting with ⟨hsame, ha⟩ | ⟨hout, -, ha⟩ | ⟨-, hout, -⟩
    · rw [ha]
      exact h.admitted j t ht (hsame.trans hin)
    · have hidle : s.admitting = 0 := by
        apply h.idle
        intro k v hv
        by_cases hk : k = j
        · subst hk
          rw [ht] at hv
          cases hv
          exact hout
        · exact halone k v hk (hm.other hk hv)
      rw [ha, hidle]
      rfl
    · rw [show ({ t with pc := pc } : DispatchTask).pc.inAdmission = false from hout] at hin
      cases hin
  · have hpc : pc.inAdmission = false := halone i _ hj.symm (hm.self ht)
    have ht' : t.pc.inAdmission = false := by
      by_contra hne
      exact hj (h.eq_of_holdsLock ht hu₀
        (holdsLock_of_inAdmission (Bool.eq_true_of_not_eq_false hne))
        (holdsLock_of_inAdmission hin))
    rcases hm.admitting with ⟨-, ha⟩ | ⟨-, hin', -⟩ | ⟨hin', -, -⟩
    · rw [ha]
      exact h.admitted j u hu₀ hin
    · rw [hpc] at hin'
      cases hin'
    · rw [ht'] at hin'
      cases hin'

theorem Sound.idle_move (hm : DispatchMove s i t pc s')
    (hout : ∀ (j : ℕ) (u : DispatchTask), s'.dispatches[j]? = some u → u.pc.inAdmission = false) :
    s'.admitting = 0 := by
  have hpc : pc.inAdmission = false := hout i _ (hm.self ht)
  rcases hm.admitting with ⟨hsame, ha⟩ | ⟨-, hin, -⟩ | ⟨hin, -, ha⟩
  · rw [ha]
    apply h.idle
    intro j u hu
    by_cases hj : j = i
    · subst hj
      rw [ht] at hu
      cases hu
      exact hsame.trans hpc
    · exact hout j u (hm.other hj hu)
  · rw [hpc] at hin
    cases hin
  · rw [ha, h.admitted i t ht hin]
    rfl

theorem Sound.move (hm : DispatchMove s i t pc s') : s'.Sound where
  keyed := h.keyed_move ht hm
  writer := fun _ _ hu => h.writer_move ht hm hu
  bounded := by
    intro j hj
    rw [hm.dispatches, length_set]
    rcases hm.writer with ⟨-, hw⟩ | ⟨-, -, -, hw⟩ | ⟨-, -, hw⟩
    · exact h.bounded j (hw.symm.trans hj)
    · rw [hw] at hj
      cases hj
      exact (List.getElem?_eq_some_iff.1 ht).1
    · rw [hw] at hj
      cases hj
  sawNoJob := fun _ _ hu => h.sawNoJob_move ht hm hu
  replaying := by
    intro j u hu hreplay
    rcases hm.task hu with ⟨rfl, rfl⟩ | ⟨-, hu⟩
    · rcases hm.replaying hreplay with hbefore | ⟨existing, hget, hdigest⟩
      · obtain ⟨w, hw⟩ := h.replaying j t ht hbefore
        exact ⟨w, h.identities_subset ht hm _ hw⟩
      · obtain ⟨hmem, hid⟩ := mem_identities hget
        refine ⟨existing.execution.job.workerJobId, h.identities_subset ht hm _ ?_⟩
        rw [← hid, ← hdigest]
        exact hmem
    · obtain ⟨w, hw⟩ := h.replaying j u hu hreplay
      exact ⟨w, h.identities_subset ht hm _ hw⟩
  workerJobId := fun _ _ hu _ hw => h.workerJobId_move ht hm hu hw
  accepted := by
    intro j u hu a ha
    rcases hm.task hu with ⟨rfl, rfl⟩ | ⟨-, hu⟩
    · rcases hm.accepted a ha with hbefore | hown | ⟨hreplay, existing, hget, hid, hdigest⟩
      · exact h.accepted j t ht a hbefore
      · exact hown
      · obtain ⟨hid', hdigest', -⟩ := h.identity_of_replaying ht hreplay hget
        exact ⟨hid.trans hid', hdigest.trans hdigest'⟩
    · exact h.accepted j u hu a ha
  admitted := fun _ _ hu hin => h.admitted_move ht hm hu hin
  idle := fun hout => h.idle_move ht hm hout

end

/-- The invariant says nothing about polls, the flag and the progress of the jobs. -/
theorem Sound.congr (hids : s'.identities = s.identities)
    (hdispatches : s'.dispatches = s.dispatches) (hwriter : s'.writer = s.writer)
    (hadmitting : s'.admitting = s.admitting) : s'.Sound := by
  constructor
  · rw [hids]
    exact h.keyed
  · rw [hdispatches, hwriter]
    exact h.writer
  · rw [hdispatches, hwriter]
    exact h.bounded
  · rw [hdispatches, hids]
    exact h.sawNoJob
  · rw [hdispatches, hids]
    exact h.replaying
  · rw [hdispatches, hids]
    exact h.workerJobId
  · rw [hdispatches]
    exact h.accepted
  · rw [hdispatches, hadmitting]
    exact h.admitted
  · rw [hdispatches, hadmitting]
    exact h.idle

theorem Sound.keyed_jobs : Keyed SupervisedJob.executionId s.jobs := by
  have hkeyed := h.keyed
  unfold identities at hkeyed
  rw [List.map_map] at hkeyed
  exact hkeyed

end

theorem jobStep_eq_some {a : Action} (h : s.jobStep id a = some s') :
    ∃ job execution, s.get id = some job ∧ SpawnedFor job a ∧
      job.execution.step a = some execution ∧
      s' = { s with
        jobs := update (fun job => job.executionId == id)
          (fun job => { job with execution := execution }) s.jobs } := by
  unfold jobStep at h
  split at h
  · cases h
  · rename_i job hget
    split_ifs at h with hspawned
    obtain ⟨execution, hstep, rfl⟩ := map_eq_some_iff.1 h
    exact ⟨job, execution, hget, hspawned, hstep, rfl⟩

theorem Sound.identities_jobStep (h : s.Sound) {a : Action}
    (h1 : s.jobStep id a = some s') : s'.identities = s.identities := by
  obtain ⟨job, execution, hget, -, hstep, rfl⟩ := jobStep_eq_some h1
  show (update _ _ s.jobs).map _ = _
  unfold update
  rw [List.map_map]
  apply List.map_congr_left
  intro other hother
  show (if _ then _ else _ : SupervisedJob).execution.job.identity = _
  split_ifs with hid
  · -- the only job with this ID is the one that took the step
    obtain ⟨hmem, hjob⟩ := find?_some hget
    have heq : other = job :=
      h.keyed_jobs.eq hother hmem ((beq_iff_eq.1 hid).trans (beq_iff_eq.1 hjob).symm)
    rw [heq]
    exact (Execution.frame_step hstep).identity
  · rfl

theorem Sound.request (h : s.Sound) (r : ExecutionDispatch) :
    Sound { s with dispatches := s.dispatches ++ [⟨r, .received⟩] } := by
  have hnew : ∀ (j : ℕ) (u : DispatchTask),
      (s.dispatches ++ [⟨r, .received⟩])[j]? = some u →
        s.dispatches[j]? = some u ∨ (s.dispatches.length ≤ j ∧ u = ⟨r, .received⟩) := by
    intro j u hu
    rcases getElem?_append_cases hu with hold | ⟨hj, hmem⟩
    · exact .inl hold
    · exact .inr ⟨hj, mem_singleton.1 hmem⟩
  constructor
  · exact h.keyed
  · intro j u hu
    rcases hnew j u hu with hold | ⟨hj, rfl⟩
    · exact h.writer j u hold
    · exact ⟨nofun, fun hw => absurd (h.bounded _ hw) (not_lt.2 hj)⟩
  · intro j hw
    rw [length_append]
    exact Nat.lt_add_right _ (h.bounded j hw)
  · intro j u hu hsaw
    rcases hnew j u hu with hold | ⟨-, rfl⟩
    · exact h.sawNoJob j u hold hsaw
    · cases hsaw
  · intro j u hu hreplay
    rcases hnew j u hu with hold | ⟨-, rfl⟩
    · exact h.replaying j u hold hreplay
    · cases hreplay
  · intro j u hu w hw
    rcases hnew j u hu with hold | ⟨-, rfl⟩
    · exact h.workerJobId j u hold w hw
    · cases hw
  · intro j u hu a ha
    rcases hnew j u hu with hold | ⟨-, rfl⟩
    · exact h.accepted j u hold a ha
    · cases ha
  · intro j u hu hin
    rcases hnew j u hu with hold | ⟨-, rfl⟩
    · exact h.admitted j u hold hin
    · cases hin
  · intro hout
    apply h.idle
    intro j u hu
    exact hout j u (by rw [List.getElem?_append_left (List.getElem?_eq_some_iff.1 hu).1]; exact hu)

/-- What one step of the worker does: a request arrives or moves, a job takes a step, or nothing
    changes that the map and the requests depend on. -/
theorem step_cases {a : SupervisorAction} (h : s.step a = some s') :
    (∃ r, a = .request r ∧ s' = { s with dispatches := s.dispatches ++ [⟨r, .received⟩] }) ∨
    (∃ i t d pc, a = .dispatch i d ∧ s.dispatches[i]? = some t ∧ DispatchMove s i t pc s') ∨
    (∃ id act, a = .job id act ∧ s.jobStep id act = some s') ∨
    (∃ draining polls, s' = { s with admissionDraining := draining, polls := polls } ∧
      (∀ i d, a ≠ .dispatch i d)) := by
  cases a with
  | request r => exact .inl ⟨r, rfl, (some.inj h).symm⟩
  | dispatch i d =>
    simp only [step] at h
    split at h
    · rename_i t ht
      obtain ⟨pc, hm⟩ := dispatchMove_of_step h
      exact .inr (.inl ⟨i, t, d, pc, rfl, ht, hm⟩)
    · cases h
  | job id act => exact .inr (.inr (.inl ⟨id, act, rfl, h⟩))
  | poll | drain | resume => exact .inr (.inr (.inr ⟨_, _, (some.inj h).symm, nofun⟩))
  | polling i p =>
    simp only [step] at h
    split at h
    · obtain ⟨pc, -, rfl⟩ := map_eq_some_iff.1 h
      exact .inr (.inr (.inr ⟨_, _, rfl, nofun⟩))
    · cases h

theorem Sound.next (h : s.Sound) {a : SupervisorAction} (h1 : s.step a = some s') : s'.Sound := by
  rcases step_cases h1 with ⟨r, -, rfl⟩ | ⟨i, t, d, pc, -, ht, hm⟩ | ⟨id, act, -, hjob⟩ |
    ⟨draining, polls, rfl, -⟩
  · exact h.request r
  · exact h.move ht hm
  · have hids := h.identities_jobStep hjob
    obtain ⟨job, execution, -, -, -, rfl⟩ := jobStep_eq_some hjob
    exact h.congr hids rfl rfl rfl
  · exact h.congr rfl rfl rfl rfl

theorem sound_of_initial (h : s.Initial) : s.Sound := by
  obtain ⟨hkeyed, -, hadmitting, hwriter, hdispatches, -⟩ := h
  have hnone : ∀ (i : ℕ) (t : DispatchTask), s.dispatches[i]? ≠ some t := by
    intro i t ht
    rw [hdispatches] at ht
    cases ht
  constructor
  · unfold identities
    rw [List.map_map]
    exact hkeyed
  · exact fun i t ht => absurd ht (hnone i t)
  · intro i hi
    rw [hwriter] at hi
    cases hi
  all_goals first
    | exact fun i t ht => absurd ht (hnone i t)
    | exact fun _ => hadmitting

theorem sound_of_reachable (h : Reachable step anyStep Initial s) : s.Sound :=
  h.invariant (fun _ h₀ => sound_of_initial h₀) fun _ _ _ hs _ h1 => hs.next h1

/-! ## The result -/

theorem pastRefusal_runs {i : ℕ} (hr : Runs step anyStep s s') {t : DispatchTask}
    (ht : s.dispatches[i]? = some t) (hpast : t.pc.pastRefusal = true) :
    ∃ t', s'.dispatches[i]? = some t' ∧ t'.pc.pastRefusal = true := by
  apply hr.preserves (P := fun s => ∃ t, s.dispatches[i]? = some t ∧ t.pc.pastRefusal = true)
  · rintro s₁ a s₂ ⟨u, hu, hup⟩ - h1
    rcases step_cases h1 with ⟨r, -, rfl⟩ | ⟨j, v, d, pc, -, hv, hm⟩ | ⟨id, act, -, hjob⟩ |
      ⟨draining, polls, rfl, -⟩
    · refine ⟨u, ?_, hup⟩
      show (s₁.dispatches ++ _)[i]? = some u
      rw [List.getElem?_append_left (List.getElem?_eq_some_iff.1 hu).1]
      exact hu
    · by_cases hj : i = j
      · subst hj
        rw [hv] at hu
        cases hu
        exact ⟨_, hm.self hv, hm.pastRefusal hup⟩
      · exact ⟨u, hm.other hj hu, hup⟩
    · obtain ⟨job, execution, -, -, -, rfl⟩ := jobStep_eq_some hjob
      exact ⟨u, hu, hup⟩
    · exact ⟨u, hu, hup⟩
  · exact ⟨t, ht, hpast⟩

theorem not_refused_of_jobs_ne {i : ℕ} {d : DispatchAction} (h1 : s.step (.dispatch i d) = some s')
    (hjobs : s'.jobs ≠ s.jobs) {s'' : Supervisor} (hr : Runs step anyStep s' s'')
    {t : DispatchTask} (ht : s''.dispatches[i]? = some t) (e : DispatchError) :
    t.pc ≠ .answered (some (.error e)) := by
  have hpast : ∃ u, s'.dispatches[i]? = some u ∧ u.pc.pastRefusal = true := by
    rcases step_cases h1 with ⟨r, h, -⟩ | ⟨j, u, d', pc, heq, hu, hm⟩ | ⟨id, act, h, -⟩ |
      ⟨draining, polls, -, hne⟩
    · cases h
    · cases heq
      refine ⟨_, hm.self hu, ?_⟩
      rcases hm.jobs with hsame | ⟨-, job, w, hpc, -⟩ | ⟨⟨w, hpc⟩, -⟩
      · exact absurd hsame hjobs
      · rw [hpc]
        rfl
      · exact hm.pastRefusal (by rw [hpc]; rfl)
    · cases h
    · exact absurd rfl (hne i d)
  obtain ⟨u, hu, hup⟩ := hpast
  obtain ⟨t', ht', hp⟩ := pastRefusal_runs hr hu hup
  rw [ht] at ht'
  cases ht'
  intro hpc
  rw [hpc] at hp
  cases hp

/-- In every state of every run: the map has at most one job for an execution
    ID; all replies that accept an execution ID have the same worker job ID and digest; a request
    whose step changes the map is not refused in any later state; and the count of admissions is
    zero before a request enters admission and after it leaves it, however it leaves it. -/
theorem dispatch_exactly_once (h : Reachable step anyStep Initial s) :
    Keyed SupervisedJob.executionId s.jobs ∧
    (∀ t ∈ s.dispatches, ∀ u ∈ s.dispatches, ∀ a b, t.pc = .answered (some (.ok a)) →
      u.pc = .answered (some (.ok b)) → a.executionId = b.executionId →
      a.workerJobId = b.workerJobId ∧ a.requestDigest = b.requestDigest) ∧
    (∀ i d s', s.step (.dispatch i d) = some s' → s'.jobs ≠ s.jobs →
      ∀ s'', Runs step anyStep s' s'' → ∀ t e, s''.dispatches[i]? = some t →
        t.pc ≠ .answered (some (.error e))) ∧
    (∀ i d s' t t', s.step (.dispatch i d) = some s' → s.dispatches[i]? = some t →
      s'.dispatches[i]? = some t' →
      (t.pc.inAdmission = false → t'.pc.inAdmission = true → s.admitting = 0) ∧
      (t.pc.inAdmission = true → t'.pc.inAdmission = false → s'.admitting = 0)) := by
  have hsound := sound_of_reachable h
  refine ⟨hsound.keyed_jobs, ?_, ?_, ?_⟩
  · intro t ht u hu a b ha hb hab
    obtain ⟨i, hi⟩ := mem_iff_getElem?.1 ht
    obtain ⟨j, hj⟩ := mem_iff_getElem?.1 hu
    obtain ⟨haid, had⟩ := hsound.accepted i t hi a (by rw [ha]; rfl)
    obtain ⟨hbid, hbd⟩ := hsound.accepted j u hj b (by rw [hb]; rfl)
    have hmem := hsound.workerJobId i t hi a.workerJobId (by rw [ha]; rfl)
    have hmem' := hsound.workerJobId j u hj b.workerJobId (by rw [hb]; rfl)
    have hid : t.request.executionId = u.request.executionId := haid.symm.trans (hab.trans hbid)
    have heq := hsound.eq_of_key hmem hmem' hid
    exact ⟨congrArg (fun x => x.2.1) heq,
      had.trans ((congrArg (fun x => x.2.2) heq).trans hbd.symm)⟩
  · intro i d s' h1 hjobs s'' hr t e ht
    exact not_refused_of_jobs_ne h1 hjobs hr ht e
  · intro i d s' t t' h1 ht ht'
    rcases step_cases h1 with ⟨r, heq, -⟩ | ⟨j, u, d', pc, heq, hu, hm⟩ | ⟨id, act, heq, -⟩ |
      ⟨draining, polls, -, hne⟩
    · cases heq
    · cases heq
      rw [ht] at hu
      cases hu
      rw [hm.self ht] at ht'
      cases ht'
      constructor
      · intro hout hin
        have hone := hsound.admitted_move ht hm (hm.self ht) hin
        rcases hm.admitting with ⟨hsame, -⟩ | ⟨-, -, ha⟩ | ⟨-, hout', -⟩
        · rw [hout] at hsame
          exact absurd (hsame.trans hin) nofun
        · rw [ha] at hone
          calc s.admitting = s.admitting + 1 - 1 := (UInt32.add_sub_cancel _ _).symm
            _ = 0 := by rw [hone]; rfl
        · exact absurd (hout'.symm.trans hin) nofun
      · intro hin hout
        have hone := hsound.admitted i t ht hin
        rcases hm.admitting with ⟨hsame, -⟩ | ⟨-, hin', -⟩ | ⟨-, -, ha⟩
        · rw [hin] at hsame
          exact absurd (hsame.trans hout) nofun
        · exact absurd (hout.symm.trans hin') nofun
        · rw [ha, hone]
          rfl
    · cases heq
    · exact absurd rfl (hne i d)

def exampleWorker : Supervisor :=
  { jobs := []
    journalCapacity := 4
    admissionDraining := false
    admitting := 0
    writer := none
    dispatches := []
    polls := [] }

/-- A request for the execution `1` with a digest. -/
def exampleRequest (digest : String) : ExecutionDispatch :=
  { executionId := 1
    workspaceId := 2
    requestDigest := digest
    correlationId := 1
    pathExecutionId := 1 }

def exampleCopies : List SupervisorAction :=
  [.request (exampleRequest "a"), .request (exampleRequest "a"), .request (exampleRequest "b"),
    .dispatch 0 (.authorize false), .dispatch 1 (.authorize false), .dispatch 2 (.authorize false),
    .dispatch 0 .lock, .dispatch 0 .next, .dispatch 0 .next, .dispatch 0 (.measure none),
    .dispatch 0 .next, .dispatch 0 .next, .dispatch 0 (.prepare none 7 none 0), .dispatch 0 .next,
    .dispatch 0 .next, .dispatch 1 .lock, .dispatch 1 .next, .dispatch 1 .next, .dispatch 1 .next,
    .dispatch 1 .next, .dispatch 2 .lock, .dispatch 2 .next, .dispatch 2 .next, .dispatch 0 .next]

def exampleJob : List SupervisorAction :=
  [.request (exampleRequest "a"), .dispatch 0 (.authorize false), .dispatch 0 .lock,
    .dispatch 0 .next, .dispatch 0 .next, .dispatch 0 (.measure none), .dispatch 0 .next,
    .dispatch 0 .next, .dispatch 0 (.prepare none 7 none 0), .dispatch 0 .next, .dispatch 0 .next,
    .dispatch 0 .next] ++ (Execution.startUp.map fun a => .job 1 a)

/-- A request, its copy and a request with another digest at the same time. -/
theorem copies_accepted_once : ∃ s, exec step anyStep exampleWorker exampleCopies = some s ∧
    s.dispatches.map (fun t => t.pc) =
      [.answered (some (.ok ⟨1, 7, "a", .accepted, 1⟩)),
        .answered (some (.ok ⟨1, 7, "a", .accepted, 1⟩)),
        .answered (some (.error (.digestConflict 1)))] ∧
    Keyed SupervisedJob.executionId s.jobs := by
  have hinit : exampleWorker.Initial := by
    refine ⟨Keyed.nil, ?_, rfl, rfl, rfl, rfl⟩
    intro job hjob
    cases hjob
  have hrun : exec step anyStep exampleWorker exampleCopies = some _ := rfl
  exact ⟨_, hrun, by decide, (dispatch_exactly_once (reachable_of_exec hinit hrun)).1⟩

end Supervisor

end VibeKanban.Worker

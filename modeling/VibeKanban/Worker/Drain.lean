import VibeKanban.Worker.Dispatches

/-!
# Draining a worker

A release handoff sets the drain flag (`main.rs`) and then polls `active_execution_count` until it
is zero (`execution.rs`, lines 1115-1124). The count reads the map, then the jobs one after the
other, and last the requests in admission, while requests and jobs go on.

* `drain_safe`: a poll that returns zero under the flag is right.
-/

namespace VibeKanban.Worker

open Cluster Lib Option

namespace Supervisor

variable {s s' : Supervisor} {i : ℕ} {t : DispatchTask} {pc : DispatchPc}

/-- The step of a job takes it from a terminal state to one that is not. (The hand-over of a child
    to a job, which stores the child and writes `Running`, is one step.) -/
def revives (s : Supervisor) (id : Uuid) (a : Action) : Bool :=
  match s.get id with
  | some job =>
    match job.execution.step a with
    | some execution => job.execution.job.state.isTerminal && !execution.job.state.isTerminal
    | none => false
  | none => false

/-- The steps of a drain: admission is not resumed, and no job that has ended is revived. -/
def DuringDrain (s : Supervisor) : SupervisorAction → Prop
  | .resume => False
  | .job id a => s.revives id a = false
  | _ => True

instance (s : Supervisor) (a : SupervisorAction) : Decidable (s.DuringDrain a) := by
  cases a <;> unfold DuringDrain <;> infer_instance

/-! ## Requests after the flag was set -/

/-- Admission is over: every request that comes to the drain flag will see it. -/
def Closed (s : Supervisor) : Prop :=
  s.admissionDraining = true ∧
    ∀ (i : ℕ) (t : DispatchTask), s.dispatches[i]? = some t → t.pc.pastFlag = false

theorem holdsLock_of_pastFlag (h : pc.pastFlag = true) : pc.holdsLock = true := by
  cases pc with
  | unmeasured => rfl
  | entering => rfl
  | admitted => rfl
  | preparing => rfl
  | leaving reply => rfl
  | inserted w => rfl
  | _ => cases h

theorem pastFlag_of_inAdmission (h : pc.inAdmission = true) : pc.pastFlag = true := by
  cases pc with
  | admitted => rfl
  | preparing => rfl
  | leaving reply => rfl
  | inserted w => rfl
  | _ => cases h

/-- While no request holds the write lock, none is past the flag. -/
theorem Sound.closed (h : s.Sound) (hdraining : s.admissionDraining = true)
    (hfree : s.writer = none) : s.Closed := by
  refine ⟨hdraining, ?_⟩
  intro i t ht
  by_contra hpast
  have hholder := (h.writer i t ht).1 (holdsLock_of_pastFlag (Bool.eq_true_of_not_eq_false hpast))
  rw [hfree] at hholder
  cases hholder

theorem Closed.move (hc : s.Closed) (ht : s.dispatches[i]? = some t)
    (hm : DispatchMove s i t pc s') : s'.Closed := by
  refine ⟨hm.draining.trans hc.1, ?_⟩
  intro j u hu
  rcases hm.task hu with ⟨rfl, rfl⟩ | ⟨-, hu⟩
  · by_contra hpast
    rcases hm.pastFlag (Bool.eq_true_of_not_eq_false hpast) with hbefore | ⟨-, hclear⟩
    · rw [hc.2 j t ht] at hbefore
      cases hbefore
    · rw [hc.1] at hclear
      cases hclear
  · exact hc.2 j u hu

/-! ## What becomes of the jobs -/

def Inactive (job : SupervisedJob) : Prop := job.execution.job.isActiveForDrain = false

def Ended (job : SupervisedJob) : Prop := job.execution.job.state.isTerminal = true

theorem inactive_iff {job : SupervisedJob} :
    Inactive job ↔ Ended job ∧ childActive job.execution.job = false := by
  unfold Inactive Ended WorkerJob.isActiveForDrain childActive
  by_cases hterminal : job.execution.job.state.isTerminal = true
  · rw [hterminal]
    rcases job.execution.job.child with _ | child
    · exact ⟨fun h => ⟨rfl, h⟩, fun h => h.2⟩
    · cases child <;> exact ⟨fun h => ⟨rfl, h⟩, fun h => h.2⟩
  · rw [Bool.eq_false_iff.2 hterminal]
    exact ⟨fun h => absurd h nofun, fun h => absurd h.1 nofun⟩

/-- A later state of the worker: admission stays over, and every job is one of before, ended or
    inactive if it was. -/
structure Later (s s' : Supervisor) : Prop where
  closed : s.Closed → s'.Closed
  jobs : s.Closed → ∀ job' ∈ s'.jobs, ∃ job ∈ s.jobs, job'.executionId = job.executionId ∧
    (Ended job → Ended job') ∧ (Inactive job → Inactive job')

theorem later_of_jobs_eq (hjobs : s'.jobs = s.jobs) (hclosed : s.Closed → s'.Closed) :
    Later s s' where
  closed := hclosed
  jobs := by
    intro _ job hjob
    rw [hjobs] at hjob
    exact ⟨job, hjob, rfl, id, id⟩

theorem later_move (ht : s.dispatches[i]? = some t) (hm : DispatchMove s i t pc s') :
    Later s s' where
  closed := fun hc => hc.move ht hm
  jobs := by
    intro hc job' hjob'
    rcases hm.jobs with hjobs | ⟨hpc, -⟩ | ⟨-, hjobs⟩
    · rw [hjobs] at hjob'
      exact ⟨job', hjob', rfl, id, id⟩
    · have hpast := hc.2 i t ht
      rw [hpc] at hpast
      cases hpast
    · rw [hjobs] at hjob'
      obtain ⟨job, hjob, rfl⟩ := mem_update.1 hjob'
      refine ⟨job, hjob, ?_⟩
      split_ifs
      all_goals exact ⟨rfl, id, id⟩

theorem later_job (h : s.Sound) {id : Uuid} {a : Action} (hok : s.revives id a = false)
    (h1 : s.jobStep id a = some s') : Later s s' := by
  obtain ⟨job, execution, hget, -, hstep, rfl⟩ := jobStep_eq_some h1
  unfold revives at hok
  rw [hget] at hok
  dsimp only at hok
  rw [hstep] at hok
  have hends : job.execution.job.state.isTerminal = true →
      execution.job.state.isTerminal = true := by
    intro hterm
    simp only [hterm, Bool.true_and, Bool.not_eq_false'] at hok
    exact hok
  have hframe := Execution.frame_step hstep
  constructor
  · exact fun hc => hc
  · intro _ job' hjob'
    obtain ⟨other, hother, rfl⟩ := mem_update.1 hjob'
    refine ⟨other, hother, ?_⟩
    split_ifs with hid
    · obtain ⟨hmem, hjob⟩ := find?_some hget
      have heq : other = job :=
        h.keyed_jobs.eq hother hmem ((beq_iff_eq.1 hid).trans (beq_iff_eq.1 hjob).symm)
      rw [heq]
      refine ⟨congrArg Prod.fst hframe.identity, hends, ?_⟩
      intro hinactive
      obtain ⟨hterm, hchild⟩ := inactive_iff.1 hinactive
      exact inactive_iff.2 ⟨hends hterm, hframe.child (hends hterm) hchild⟩
    · exact ⟨rfl, fun hterm => hterm, fun hinactive => hinactive⟩

variable {a : SupervisorAction}

theorem later_step (h : s.Sound) (hok : s.DuringDrain a)
    (h1 : s.step a = some s') : Later s s' := by
  cases a with
  | request r =>
    cases h1
    refine later_of_jobs_eq rfl fun hc => ⟨hc.1, ?_⟩
    intro j u hu
    have hmem := List.mem_of_getElem? hu
    rcases List.mem_append.1 hmem with hold | hnew
    · obtain ⟨k, hk⟩ := List.mem_iff_getElem?.1 hold
      exact hc.2 k u hk
    · rw [List.mem_singleton.1 hnew]
      rfl
  | dispatch i d =>
    simp only [step] at h1
    split at h1
    · rename_i ht
      obtain ⟨pc, hm⟩ := dispatchMove_of_step h1
      exact later_move ht hm
    · cases h1
  | job id act => exact later_job h hok h1
  | poll =>
    cases h1
    exact later_of_jobs_eq rfl fun hc => hc
  | polling i p =>
    simp only [step] at h1
    split at h1
    · obtain ⟨pc, -, rfl⟩ := map_eq_some_iff.1 h1
      exact later_of_jobs_eq rfl fun hc => hc
    · cases h1
  | drain =>
    cases h1
    exact later_of_jobs_eq rfl fun hc => ⟨rfl, hc.2⟩
  | resume => cases hok

/-! ## What a poll has seen -/

/-- What holds of the jobs when a poll that began under the drain flag is at `pc`. -/
def Observed (s : Supervisor) : PollPc → Prop
  | .waiting => True
  | .checking left active => s.Closed ∧
    (active = 0 → ∀ job ∈ s.jobs, job.executionId ∉ left → Inactive job)
  | .checkingChild id left active => s.Closed ∧
    (active = 0 → ∀ job ∈ s.jobs, job.executionId ≠ id → job.executionId ∉ left → Inactive job) ∧
    ∀ job ∈ s.jobs, job.executionId = id → Ended job
  | .returned count => s.Closed ∧ (count = 0 → ∀ job ∈ s.jobs, Inactive job)

variable {poll : PollPc}

theorem Observed.later (ho : s.Observed poll) (hl : Later s s') : s'.Observed poll := by
  cases poll with
  | waiting => trivial
  | checking left active =>
    obtain ⟨hc, hjobs⟩ := ho
    refine ⟨hl.closed hc, ?_⟩
    intro h0 job' hjob' hleft
    obtain ⟨job, hjob, hid, -, hinactive⟩ := hl.jobs hc job' hjob'
    rw [hid] at hleft
    exact hinactive (hjobs h0 job hjob hleft)
  | checkingChild id left active =>
    obtain ⟨hc, hjobs, hended⟩ := ho
    refine ⟨hl.closed hc, ?_, ?_⟩
    · intro h0 job' hjob' hne hleft
      obtain ⟨job, hjob, hid, -, hinactive⟩ := hl.jobs hc job' hjob'
      rw [hid] at hne hleft
      exact hinactive (hjobs h0 job hjob hne hleft)
    · intro job' hjob' heq
      obtain ⟨job, hjob, hid, hend, -⟩ := hl.jobs hc job' hjob'
      exact hend (hended job hjob (hid.symm.trans heq))
  | returned count =>
    obtain ⟨hc, hjobs⟩ := ho
    refine ⟨hl.closed hc, ?_⟩
    intro h0 job' hjob'
    obtain ⟨job, hjob, -, -, hinactive⟩ := hl.jobs hc job' hjob'
    exact hinactive (hjobs h0 job hjob)

theorem saturatingAdd32_eq_zero {a b : ℕ} (h : saturatingAdd32 a b = 0) : a = 0 ∧ b = 0 := by
  unfold saturatingAdd32 at h
  omega

theorem Observed.pollStep (h : s.Sound) (hdraining : s.admissionDraining = true)
    {poll' : PollPc} (ho : s.Observed poll) {p : PollAction}
    (h1 : s.pollStep poll p = some poll') : s.Observed poll' := by
  cases p with
  | snapshot order =>
    simp only [Supervisor.pollStep, ite_none_right_eq_some, some.injEq] at h1
    obtain ⟨⟨-, hfree, hperm⟩, rfl⟩ := h1
    refine ⟨h.closed hdraining hfree, ?_⟩
    intro _ job hjob hleft
    exact absurd (hperm.mem_iff.2 (List.mem_map_of_mem hjob)) hleft
  | next =>
    cases poll with
    | waiting => cases h1
    | checking left active =>
      obtain ⟨hc, hjobs⟩ := ho
      cases left with
      | nil =>
        cases h1
        refine ⟨hc, ?_⟩
        intro h0 job hjob
        exact hjobs (saturatingAdd32_eq_zero h0).1 job hjob List.not_mem_nil
      | cons id left =>
        obtain ⟨job, hget, rfl⟩ := map_eq_some_iff.1 h1
        obtain ⟨hmem, hid⟩ := find?_some hget
        split_ifs with hterm
        · refine ⟨hc, ?_, ?_⟩
          · intro h0 other hother hne hleft
            refine hjobs h0 other hother ?_
            rw [List.mem_cons, not_or]
            exact ⟨hne, hleft⟩
          · intro other hother heq
            rw [h.keyed_jobs.eq hother hmem (heq.trans (beq_iff_eq.1 hid).symm)]
            exact hterm
        · refine ⟨hc, ?_⟩
          intro h0
          exact absurd (saturatingAdd32_eq_zero h0).2 one_ne_zero
    | checkingChild id left active =>
      obtain ⟨hc, hjobs, hended⟩ := ho
      obtain ⟨job, hget, rfl⟩ := map_eq_some_iff.1 h1
      obtain ⟨hmem, hid⟩ := find?_some hget
      split_ifs with hchild <;> refine ⟨hc, ?_⟩
      · intro h0
        exact absurd (saturatingAdd32_eq_zero h0).2 one_ne_zero
      · intro h0 other hother hleft
        by_cases heq : other.executionId = id
        · have hsame : other = job :=
            h.keyed_jobs.eq hother hmem (heq.trans (beq_iff_eq.1 hid).symm)
          rw [hsame] at heq ⊢
          exact inactive_iff.2 ⟨hended job hmem heq, Bool.eq_false_of_not_eq_true hchild⟩
        · exact hjobs h0 other hother heq hleft
    | returned count => cases h1

/-- The poll at index `p` under the drain flag. -/
structure Polled (p : ℕ) (s : Supervisor) : Prop where
  sound : s.Sound
  draining : s.admissionDraining = true
  observed : ∃ poll, s.polls[p]? = some poll ∧ s.Observed poll

theorem draining_step (hdraining : s.admissionDraining = true)
    (hok : s.DuringDrain a) (h1 : s.step a = some s') : s'.admissionDraining = true := by
  cases a with
  | dispatch i d =>
    rcases step_cases h1 with ⟨r, heq, -⟩ | ⟨j, u, d', pc, -, -, hm⟩ | ⟨id, act, heq, -⟩ |
      ⟨draining, polls, -, hne⟩
    · cases heq
    · exact hm.draining.trans hdraining
    · cases heq
    · exact absurd rfl (hne i d)
  | job id act =>
    obtain ⟨job, execution, -, -, -, rfl⟩ := jobStep_eq_some h1
    exact hdraining
  | polling i p =>
    simp only [step] at h1
    split at h1
    · obtain ⟨pc, -, rfl⟩ := map_eq_some_iff.1 h1
      exact hdraining
    · cases h1
  | request r | poll =>
    cases h1
    exact hdraining
  | drain =>
    cases h1
    rfl
  | resume => cases hok

theorem polls_step (h1 : s.step a = some s') {p : ℕ} (hp : s.polls[p]? = some poll) :
    s'.polls[p]? = some poll ∨
      ∃ act poll', s.pollStep poll act = some poll' ∧ s'.polls[p]? = some poll' ∧
        s' = { s with polls := s.polls.set p poll' } := by
  cases a with
  | dispatch i d =>
    rcases step_cases h1 with ⟨r, heq, -⟩ | ⟨j, u, d', pc, -, -, hm⟩ | ⟨id, act, heq, -⟩ |
      ⟨draining, polls, -, hne⟩
    · cases heq
    · rw [hm.polls]
      exact .inl hp
    · cases heq
    · exact absurd rfl (hne i d)
  | job id act =>
    obtain ⟨job, execution, -, -, -, rfl⟩ := jobStep_eq_some h1
    exact .inl hp
  | polling i act =>
    simp only [step] at h1
    split at h1
    · rename_i hi
      obtain ⟨poll', hstep, rfl⟩ := map_eq_some_iff.1 h1
      by_cases heq : i = p
      · subst heq
        rw [hp] at hi
        cases hi
        exact .inr ⟨act, poll', hstep,
          List.getElem?_set_self (List.getElem?_eq_some_iff.1 hp).1, rfl⟩
      · left
        show (s.polls.set i poll')[p]? = some poll
        rw [List.getElem?_set_ne heq]
        exact hp
    · cases h1
  | poll =>
    cases h1
    left
    show (s.polls ++ _)[p]? = some poll
    rw [List.getElem?_append_left (List.getElem?_eq_some_iff.1 hp).1]
    exact hp
  | request r | drain | resume =>
    cases h1
    exact .inl hp

theorem Polled.next {p : ℕ} (h : Polled p s) (hok : s.DuringDrain a)
    (h1 : s.step a = some s') : Polled p s' := by
  refine ⟨h.sound.next h1, draining_step h.draining hok h1, ?_⟩
  obtain ⟨poll, hp, ho⟩ := h.observed
  have hl := later_step h.sound hok h1
  rcases polls_step h1 hp with hsame | ⟨act, poll', hstep, hp', -⟩
  · exact ⟨poll, hsame, ho.later hl⟩
  · exact ⟨poll', hp', (ho.pollStep h.sound h.draining hstep).later hl⟩

/-! ## The result -/

/-- All jobs are inactive and admission is over. -/
structure Drained (ids : List (Uuid × Uuid × String)) (s : Supervisor) : Prop where
  sound : s.Sound
  closed : s.Closed
  inactive : ∀ job ∈ s.jobs, Inactive job
  identities : s.identities = ids

theorem Drained.next {ids : List (Uuid × Uuid × String)} (h : Drained ids s)
    (hok : s.DuringDrain a) (h1 : s.step a = some s') : Drained ids s' := by
  have hl := later_step h.sound hok h1
  refine ⟨h.sound.next h1, hl.closed h.closed, ?_, ?_⟩
  · intro job' hjob'
    obtain ⟨job, hjob, -, -, hinactive⟩ := hl.jobs h.closed job' hjob'
    exact hinactive (h.inactive job hjob)
  · rw [← h.identities]
    rcases step_cases h1 with ⟨r, -, rfl⟩ | ⟨i, t, d, pc, -, ht, hm⟩ | ⟨id, act, -, hjob⟩ |
      ⟨draining, polls, rfl, -⟩
    · rfl
    · rcases h.sound.identities_move ht hm with hids | ⟨hpc, -⟩
      · exact hids
      · have hpast := h.closed.2 i t ht
        rw [hpc] at hpast
        cases hpast
    · exact h.sound.identities_jobStep hjob
    · rfl

/-- A poll begins under the drain flag and returns zero, in a run that neither
    resumes admission nor revives a job that has ended, with any steps of requests, jobs and other
    polls in between. Then in every later state of the run no job is active, no request is in
    admission, and the map has the same jobs. -/
theorem drain_safe {s₀ s₁ s₂ s₃ : Supervisor} (h₀ : Reachable step anyStep Initial s₀)
    (hflag : s₀.admissionDraining = true) (hpoll : s₀.step .poll = some s₁)
    (h₁ : Runs step DuringDrain s₁ s₂) (hzero : s₂.polls[s₀.polls.length]? = some (.returned 0))
    (h₂ : Runs step DuringDrain s₂ s₃) :
    (∀ job ∈ s₃.jobs, job.execution.job.isActiveForDrain = false) ∧
      (∀ t ∈ s₃.dispatches, t.pc.inAdmission = false) ∧ s₃.identities = s₂.identities := by
  have hsound := sound_of_reachable h₀
  have hstart : Polled s₀.polls.length s₁ := by
    refine ⟨hsound.next hpoll, draining_step hflag (show s₀.DuringDrain .poll from trivial) hpoll,
      .waiting, ?_, trivial⟩
    cases hpoll
    exact List.getElem?_concat_length
  have hend : Polled s₀.polls.length s₂ :=
    h₁.preserves (fun _ _ _ hp hok h1 => hp.next hok h1) hstart
  obtain ⟨poll, hp, ho⟩ := hend.observed
  rw [hzero] at hp
  cases hp
  have hdrained : Drained s₂.identities s₃ := by
    apply h₂.preserves (P := Drained s₂.identities)
    · exact fun _ _ _ hd hok h1 => hd.next hok h1
    · exact ⟨hend.sound, ho.1, ho.2 rfl, rfl⟩
  refine ⟨hdrained.inactive, ?_, hdrained.identities⟩
  intro t ht
  obtain ⟨i, hi⟩ := List.mem_iff_getElem?.1 ht
  by_contra hin
  have hpast := hdrained.closed.2 i t hi
  rw [pastFlag_of_inAdmission (Bool.eq_true_of_not_eq_false hin)] at hpast
  cases hpast

def examplePoll : List SupervisorAction :=
  Execution.finishes.map (fun a => .job 1 a) ++
    [.polling 0 (.snapshot [1]), .polling 0 .next, .polling 0 .next, .polling 0 .next]

def exampleLate : List SupervisorAction :=
  [.request ⟨5, 2, "c", 5, 5⟩, .dispatch 1 (.authorize false), .dispatch 1 .lock,
    .dispatch 1 .next, .dispatch 1 .next, .dispatch 1 .next]

def exampleDraining : Supervisor :=
  (exec step anyStep exampleWorker (exampleJob ++ [.drain])).getD exampleWorker

def examplePolled : Supervisor :=
  (exec step DuringDrain { exampleDraining with polls := [.waiting] } examplePoll).getD
    exampleWorker

def exampleDrained : Supervisor := (exec step DuringDrain examplePolled exampleLate).getD
  exampleWorker

/-- A drain that waits for a job and refuses a request. -/
theorem drained_worker_refuses :
    exampleDrained.dispatches.map (fun t => t.pc) =
      [.answered (some (.ok ⟨1, 7, "a", .accepted, 1⟩)), .answered (some (.error .draining))] ∧
    ∀ job ∈ exampleDrained.jobs, job.execution.job.isActiveForDrain = false := by
  have hinit : exampleWorker.Initial := by
    refine ⟨Keyed.nil, ?_, rfl, rfl, rfl, rfl⟩
    intro job hjob
    cases hjob
  have h₀ : exec step anyStep exampleWorker (exampleJob ++ [.drain]) = some exampleDraining := rfl
  have h₁ : exec step DuringDrain { exampleDraining with polls := [.waiting] } examplePoll =
      some examplePolled := rfl
  have h₂ : exec step DuringDrain examplePolled exampleLate = some exampleDrained := rfl
  exact ⟨by decide, (drain_safe (reachable_of_exec hinit h₀) rfl rfl (runs_of_exec h₁) rfl
    (runs_of_exec h₂)).1⟩

end Supervisor

end VibeKanban.Worker

import VibeKanban.Cluster.WorkerNodes
import VibeKanban.Lib.Binary64
import VibeKanban.Lib.Json

/-!
# Placement on worker nodes (`services/src/services/cluster/scheduler.rs`)

The scheduler takes the eligible worker of the least score. A worker that refuses admission is
meant to come after every other one; this is a penalty of 1000 on its score, and a worker without
metrics has an infinite score.

* `select_prefers_admitting_iff`: when a refusing worker is selected only where every eligible one
  refuses.
-/

namespace VibeKanban.Cluster

open Lib List Binary64

/-! ## Workers -/

/-- `WorkerNode`, as far as the scheduler reads it, with its JSON columns read. -/
structure Candidate where
  id : Uuid
  status : WorkerNodeStatus
  capabilities : JsonValue
  resourceSnapshot : JsonValue
  mountStatus : WorkerMountStatus
  leaseExpiresAt : Option Instant
  deriving DecidableEq

inductive IneligibleReason where
  | notOnline
  | unhealthyMount
  | missingOrExpiredLease
  | missingExecutor
  deriving DecidableEq

inductive SchedulingError where
  | noEligibleWorkers (executorProfile : String)
  | requestedWorkerNotFound (workerNodeId : Uuid)
  | requestedWorkerIneligible (workerNodeId : Uuid) (reason : IneligibleReason)
  deriving DecidableEq

/-- `advertises_executor_profile` (line 259); the executor is what stands before the first colon. -/
def advertisesExecutorProfile (advertised requested : String) : Bool :=
  advertised = requested ∨
    ':' ∉ advertised.toList ∧ ':' ∈ requested.toList ∧
      requested.toList.takeWhile (· ≠ ':') = advertised.toList

/-- `eligibility` (line 118). -/
def eligibility (worker : Candidate) (executorProfile : String) (now : Instant) :
    Except IneligibleReason Unit :=
  if worker.status ≠ .online then .error .notOnline
  else if worker.mountStatus ≠ .healthy then .error .unhealthyMount
  else if ∀ leaseExpiresAt ∈ worker.leaseExpiresAt, leaseExpiresAt ≤ now then
    .error .missingOrExpiredLease
  else if ∃ profiles ∈ (worker.capabilities.get "executor_profiles").bind JsonValue.asArray,
      ∃ advertised ∈ profiles.filterMap JsonValue.asStr,
        advertisesExecutorProfile advertised executorProfile then
    .ok ()
  else .error .missingExecutor

def Candidate.eligible (executorProfile : String) (now : Instant) (worker : Candidate) : Bool :=
  (eligibility worker executorProfile now).isOk

/-- Whether the worker reports `admission_refusing` (lines 91-95). -/
def Candidate.refusing (worker : Candidate) : Bool :=
  match worker.resourceSnapshot.get "admission_refusing" with
  | some (.bool refusing) => refusing
  | _ => false

/-! ## Scores -/

/-- Two doubles that are not negative, nor infinite. -/
structure SchedulingWeights where
  load : ℚ≥0
  activeExecutions : ℚ≥0

def admissionRefusingPenalty : WithTop ℚ≥0 := 1000

variable (value : String → ℚ)

/-- `Value::as_f64`, where `value` is the double of the text of a number. -/
def asF64 : JsonValue → Option ℚ
  | .number text => some (value text)
  | _ => none

/-- `metric` (line 270). -/
def metric (worker : Candidate) (name : String) : Option ℚ≥0 :=
  (((worker.resourceSnapshot.get name).bind (asF64 value)).filter (0 ≤ ·)).map Rat.toNNRat

namespace SchedulingWeights

variable (weights : SchedulingWeights)

/-- `score` (line 81). -/
def score (worker : Candidate) : WithTop ℚ≥0 :=
  let penalty := if worker.refusing then admissionRefusingPenalty else 0
  match metric value worker "load_1m", metric value worker "active_execution_count" with
  | some load, some activeExecutions =>
    add (add (mul weights.load load) (mul weights.activeExecutions activeExecutions)) penalty
  | _, _ => ⊤

/-- What `select` compares. -/
def rank (worker : Candidate) : WithTop ℚ≥0 ×ₗ Uuid := toLex (weights.score value worker, worker.id)

/-- `select` (line 48). -/
def select (workers : List Candidate) (executorProfile : String) (requestedWorkerId : Option Uuid)
    (now : Instant) : Except SchedulingError Candidate :=
  match requestedWorkerId with
  | some workerNodeId =>
    match workers.find? fun worker => worker.id = workerNodeId with
    | none => .error (.requestedWorkerNotFound workerNodeId)
    | some worker =>
      match eligibility worker executorProfile now with
      | .ok () => .ok worker
      | .error reason => .error (.requestedWorkerIneligible workerNodeId reason)
  | none =>
    match (workers.filter (·.eligible executorProfile now)).argmin (weights.rank value) with
    | some worker => .ok worker
    | none => .error (.noEligibleWorkers executorProfile)

/-! ## What is selected -/

variable {value weights} {workers : List Candidate} {executorProfile : String} {now : Instant}
  {worker : Candidate}

theorem select_none_eq_ok_iff : weights.select value workers executorProfile none now = .ok worker ↔
      worker ∈ (workers.filter (·.eligible executorProfile now)).argmin (weights.rank value) := by
  unfold select
  dsimp only
  split
  · rename_i hchosen
    rw [hchosen, Except.ok.injEq, Option.mem_some]
  · rename_i hchosen
    rw [hchosen]
    exact ⟨nofun, nofun⟩

/-- The selected worker is eligible, and no eligible one ranks before it. -/
theorem select_spec (h : weights.select value workers executorProfile none now = .ok worker) :
    worker ∈ workers ∧ worker.eligible executorProfile now = true ∧
      ∀ other ∈ workers, other.eligible executorProfile now = true →
        weights.rank value worker ≤ weights.rank value other := by
  rw [select_none_eq_ok_iff] at h
  obtain ⟨hmem, heligible⟩ := mem_filter.1 (argmin_mem h)
  refine ⟨hmem, heligible, ?_⟩
  intro other hother heligible'
  exact le_of_mem_argmin (mem_filter.2 ⟨hother, heligible'⟩) h

theorem exists_select_iff :
    (∃ worker, weights.select value workers executorProfile none now = .ok worker) ↔
      ∃ worker ∈ workers, worker.eligible executorProfile now = true := by
  constructor
  · rintro ⟨worker, h⟩
    exact ⟨worker, (select_spec h).1, (select_spec h).2.1⟩
  · rintro ⟨worker, hmem, heligible⟩
    have hne : workers.filter (·.eligible executorProfile now) ≠ [] :=
      ne_nil_of_mem (mem_filter.2 ⟨hmem, heligible⟩)
    obtain ⟨chosen, hchosen⟩ :=
      Option.ne_none_iff_exists'.1 (fun h => hne (argmin_eq_none.1 h) :
        (workers.filter (·.eligible executorProfile now)).argmin (weights.rank value) ≠ none)
    exact ⟨chosen, select_none_eq_ok_iff.2 hchosen⟩

theorem select_eq_error (h : ∀ worker ∈ workers, ¬ worker.eligible executorProfile now = true) :
    weights.select value workers executorProfile none now =
      .error (.noEligibleWorkers executorProfile) := by
  have hnil : workers.filter (·.eligible executorProfile now) = [] := filter_eq_nil_iff.2 h
  unfold select
  rw [hnil]
  rfl

theorem select_perm {others : List Candidate} (hkeyed : Keyed Candidate.id workers)
    (hperm : others.Perm workers) : weights.select value others executorProfile none now =
      weights.select value workers executorProfile none now := by
  by_cases hsome : ∃ worker ∈ workers, worker.eligible executorProfile now = true
  · have hother : ∃ worker ∈ others, worker.eligible executorProfile now = true := by
      obtain ⟨worker, hmem, heligible⟩ := hsome
      exact ⟨worker, hperm.mem_iff.2 hmem, heligible⟩
    obtain ⟨worker, hworker⟩ := exists_select_iff.2 hsome
    obtain ⟨other, hother⟩ := exists_select_iff.2 hother
    obtain ⟨hmem, heligible, hleast⟩ := select_spec hworker
    obtain ⟨hmem', heligible', hleast'⟩ := select_spec hother
    -- each ranks no later than the other, and the rank tells the identifier
    have hrank : weights.rank value worker = weights.rank value other :=
      le_antisymm (hleast other (hperm.mem_iff.1 hmem') heligible')
        (hleast' worker (hperm.mem_iff.2 hmem) heligible)
    have hid : worker.id = other.id := congrArg (fun rank => (ofLex rank).2) hrank
    rw [hworker, hother, hkeyed.eq hmem (hperm.mem_iff.1 hmem') hid]
  · have hnone : ∀ worker ∈ workers, ¬ worker.eligible executorProfile now = true :=
      fun worker hmem heligible => hsome ⟨worker, hmem, heligible⟩
    rw [select_eq_error hnone,
      select_eq_error fun worker hmem => hnone worker (hperm.mem_iff.1 hmem)]

/-! ## Refusing workers -/

/-- The weighted sum of the metrics; a missing one counts as infinite. -/
def weightedLoad (value : String → ℚ) (weights : SchedulingWeights) (worker : Candidate) :
    WithTop ℚ≥0 :=
  match metric value worker "load_1m", metric value worker "active_execution_count" with
  | some load, some activeExecutions =>
    add (mul weights.load load) (mul weights.activeExecutions activeExecutions)
  | _, _ => ⊤

/-- When an admitting worker comes before a refusing one: its weighted load is below that of the
    other one and 1000, or the same, and its identifier is lower. -/
def Precedes (value : String → ℚ) (weights : SchedulingWeights) (admitting refusing : Candidate) :
    Prop :=
  let load := weights.weightedLoad value admitting
  let bound := add (weights.weightedLoad value refusing) admissionRefusingPenalty
  load < bound ∨ load = bound ∧ admitting.id < refusing.id

theorem score_eq (worker : Candidate) : weights.score value worker =
    add (weights.weightedLoad value worker)
      (if worker.refusing then admissionRefusingPenalty else 0) := by
  unfold score weightedLoad
  dsimp only
  split <;> rfl

theorem weightedLoad_add_zero (worker : Candidate) :
    add (weights.weightedLoad value worker) 0 = weights.weightedLoad value worker := by
  unfold weightedLoad
  split
  · exact add_add_zero _ _
  · rfl

theorem rank_lt_rank_iff {admitting refusing : Candidate} (hadmitting : ¬ admitting.refusing = true)
    (hrefusing : refusing.refusing = true) :
    weights.rank value admitting < weights.rank value refusing ↔
      weights.Precedes value admitting refusing := by
  unfold rank Precedes
  rw [Prod.Lex.toLex_lt_toLex, score_eq, score_eq, if_pos hrefusing, if_neg hadmitting,
    weightedLoad_add_zero]

def RefusingLast (value : String → ℚ) (weights : SchedulingWeights) (workers : List Candidate)
    (executorProfile : String) (now : Instant) : Prop :=
  (∃ worker ∈ workers, worker.eligible executorProfile now = true ∧ ¬ worker.refusing = true) →
    ∀ refusing ∈ workers, refusing.eligible executorProfile now = true → refusing.refusing = true →
      ∃ admitting ∈ workers, admitting.eligible executorProfile now = true ∧
        ¬ admitting.refusing = true ∧ weights.Precedes value admitting refusing

/-- The workers that there are to choose from: the identifier is the key of their table. -/
structure Candidates where
  workers : List Candidate
  keyed : Keyed Candidate.id workers

theorem refusing_selected_iff (hkeyed : Keyed Candidate.id workers) :
    (∀ worker, weights.select value workers executorProfile none now = .ok worker →
        worker.refusing = true → ∀ other ∈ workers, other.eligible executorProfile now = true →
          other.refusing = true) ↔ weights.RefusingLast value workers executorProfile now := by
  constructor
  · intro h hsome refusing hmem heligible hrefusing
    obtain ⟨other, hother, heligible', hadmitting⟩ := hsome
    obtain ⟨worker, hworker⟩ := exists_select_iff.2 ⟨other, hother, heligible'⟩
    obtain ⟨hmem', heligible'', hleast⟩ := select_spec hworker
    have hworker' : ¬ worker.refusing = true :=
      fun hrefuses => hadmitting (h worker hworker hrefuses other hother heligible')
    refine ⟨worker, hmem', heligible'', hworker', ?_⟩
    rw [← rank_lt_rank_iff hworker' hrefusing]
    apply lt_of_le_of_ne (hleast refusing hmem heligible)
    intro hrank
    have hid : worker.id = refusing.id := congrArg (fun rank => (ofLex rank).2) hrank
    exact hworker' (hkeyed.eq hmem' hmem hid ▸ hrefusing)
  · intro h worker hworker hrefusing other hother heligible
    by_contra hadmitting
    obtain ⟨hmem, heligible', hleast⟩ := select_spec hworker
    obtain ⟨first, hfirst, heligible'', hadmits, hprecedes⟩ :=
      h ⟨other, hother, heligible, hadmitting⟩ worker hmem heligible' hrefusing
    exact absurd (hleast first hfirst heligible'')
      (not_le_of_gt ((rank_lt_rank_iff hadmits hrefusing).2 hprecedes))

/-- **Placement.** -/
theorem select_prefers_admitting_iff (value : String → ℚ) (weights : SchedulingWeights)
    (candidates : Candidates) (executorProfile : String) (now : Instant) :
    let select := fun workers => weights.select value workers executorProfile none now
    let workers := candidates.workers
    (((∃ worker, select workers = .ok worker) ↔
          ∃ worker ∈ workers, worker.eligible executorProfile now = true) ∧
        (∀ worker, select workers = .ok worker → worker.refusing = true →
          ∀ other ∈ workers, other.eligible executorProfile now = true → other.refusing = true) ∧
        ∀ others : List Candidate, others.Perm workers → select others = select workers) ↔
      weights.RefusingLast value workers executorProfile now := by
  intro select workers
  rw [← refusing_selected_iff candidates.keyed]
  exact ⟨fun h => h.2.1, fun h => ⟨exists_select_iff, h, fun _ hperm =>
    select_perm candidates.keyed hperm⟩⟩

/-- An online worker with a lease that runs the agent `codex`. -/
def codexWorker (id : Uuid) (resourceSnapshot : JsonValue) : Candidate :=
  { id := id
    status := .online
    capabilities := .object [("executor_profiles", .array [.string "codex"])]
    resourceSnapshot := resourceSnapshot
    mountStatus := .healthy
    leaseExpiresAt := some 30 }

/-- Three placements on a refusing worker: the other one has reported no metrics, has a load that
    is higher by more than 1000, or the same load, in which the penalty is lost. -/
theorem select_refusing :
    let value : String → ℚ :=
      fun text => if text = "1001" then 1001 else if text = "1e20" then 10 ^ 20 else 0
    let metrics (load : String) := [("load_1m", JsonValue.number load),
      ("active_execution_count", JsonValue.number "0")]
    let refusing (load : String) :=
      codexWorker 1 (.object (metrics load ++ [("admission_refusing", .bool true)]))
    let silent := codexWorker 2 (.object [])
    let busy (load : String) := codexWorker 2 (.object (metrics load))
    let weights : SchedulingWeights := { load := 1, activeExecutions := 1 }
    (weights.select value [refusing "0", silent] "codex" none 0 = .ok (refusing "0") ∧
        silent.eligible "codex" 0 = true ∧ silent.refusing = false) ∧
      (weights.select value [refusing "0", busy "1001"] "codex" none 0 = .ok (refusing "0") ∧
        (busy "1001").eligible "codex" 0 = true ∧ (busy "1001").refusing = false) ∧
      weights.select value [refusing "1e20", busy "1e20"] "codex" none 0 = .ok (refusing "1e20") ∧
        (busy "1e20").eligible "codex" 0 = true ∧ (busy "1e20").refusing = false := by
  decide +kernel

end SchedulingWeights

end VibeKanban.Cluster

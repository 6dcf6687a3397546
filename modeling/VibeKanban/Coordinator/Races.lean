import VibeKanban.Coordinator.Reconciler

/-!
# Races of dispatches with a reconciliation

A reconciliation compares two reads: the inventory of a worker, and after it the rows that the
worker is expected to have. A row may be inserted between the two, or written before its dispatch
records the acceptance.

* `reconciliation_races`: when a row is marked as missing, and when `record_acceptance` fails.
-/

namespace VibeKanban.Coordinator

open Cluster Lib Worker WorkerJobRow Option
open List hiding find?_some

/-! ## What the log says -/

/-- Whether the row of an execution was inserted after the last event of a kind. -/
def createdSince (mark : ReconcileEvent) (id : Uuid) : List ReconcileEvent → Bool
  | [] => false
  | e :: log =>
    if e = .created id then true
    else if e = mark then false
    else createdSince mark id log

/-- Whether a reconciliation has written the row of an execution since its last dispatch began. -/
def wroteSince (id : Uuid) : List ReconcileEvent → Bool
  | [] => false
  | .dispatched i :: log => if i = id then false else wroteSince id log
  | .wrote i :: log => if i = id then true else wroteSince id log
  | .created _ :: log => wroteSince id log
  | .inventory _ :: log => wroteSince id log
  | .expected _ :: log => wroteSince id log

variable {mark : ReconcileEvent} {id : Uuid} {e : ReconcileEvent}

theorem createdSince_mark {log : List ReconcileEvent}
    (h : mark ≠ .created id) : createdSince mark id (mark :: log) = false := by
  unfold createdSince
  rw [if_neg h, if_pos rfl]

theorem createdSince_cons {log : List ReconcileEvent}
    (he : e ≠ .created id) (h : createdSince mark id log = false) :
    createdSince mark id (e :: log) = false := by
  unfold createdSince
  rw [if_neg he]
  split_ifs
  · rfl
  · exact h

/-! ## What is kept of the rows and the log -/

def HasRow (jobs : JobRows) (id : Uuid) : Prop := ∃ job ∈ jobs, job.key = id
  deriving Decidable

variable {jobs : JobRows}

theorem findByExecutionId_none (h : findByExecutionId jobs id = none) :
    ∀ job ∈ jobs, job.key ≠ id := by
  intro job hjob heq
  have hnot := find?_none h job hjob
  rw [heq, beq_self_eq_true] at hnot
  cases hnot

theorem findByExecutionId_some {job : WorkerJobRow}
    (h : findByExecutionId jobs id = some job) : job ∈ jobs ∧ job.key = id :=
  ⟨(find?_some h).1, beq_iff_eq.1 (find?_some h).2⟩

theorem updateState_reports {state : DispatchState} (hkey : Keyed key jobs) :
    (updateState jobs id state).2 = decide (HasRow jobs id) := by
  have hiff := affected_eq_one_iff (p := fun job => job.key == id) hkey fun _ hp => beq_iff_eq.1 hp
  show (affected _ jobs == 1) = _
  rw [Bool.eq_iff_iff, beq_iff_eq, hiff, decide_eq_true_iff]
  simp only [HasRow, beq_iff_eq]

theorem updateState_absent {state : DispatchState}
    (h : ∀ job ∈ jobs, job.key ≠ id) : (updateState jobs id state).1 = jobs := by
  apply update_eq_self
  intro job hjob
  exact beq_eq_false_iff_ne.2 (h job hjob)

/-- No row is gone, and no row that was there is inserted. -/
structure Later (jobs : JobRows) (log : List ReconcileEvent) (jobs' : JobRows)
    (log' : List ReconcileEvent) : Prop where
  row : ∀ id, HasRow jobs id → HasRow jobs' id
  created : ∀ mark id, HasRow jobs id → createdSince mark id log = false →
    createdSince mark id log' = false

variable {jobs jobs' : JobRows} {log log' : List ReconcileEvent}
  {p : WorkerJobRow → Bool} {f : WorkerJobRow → WorkerJobRow} {row : WorkerJobRow}

theorem HasRow.update
    (hf : ∀ job, (f job).key = job.key) (h : HasRow jobs id) : HasRow (Lib.update p f jobs) id := by
  apply exists_mem_update h
  intro job _ _ hkey
  exact (hf job).trans hkey

theorem Later.refl : Later jobs log jobs log := ⟨fun _ h => h, fun _ _ _ h => h⟩

theorem Later.noted (he : ∀ id, e ≠ .created id) : Later jobs log jobs (e :: log) :=
  ⟨fun _ h => h, fun _ id _ h => createdSince_cons (he id) h⟩

theorem Later.update
    (hf : ∀ job, (f job).key = job.key) : Later jobs log (Lib.update p f jobs) log :=
  ⟨fun _ h => h.update hf, fun _ _ _ h => h⟩

theorem Later.inserted (h : ∀ job ∈ jobs, job.key ≠ row.key) :
    Later jobs log (jobs ++ [row]) (.created row.key :: log) := by
  constructor
  · rintro id ⟨job, hjob, hkey⟩
    exact ⟨job, mem_append_left _ hjob, hkey⟩
  · rintro mark id ⟨job, hjob, hkey⟩ hcreated
    apply createdSince_cons _ hcreated
    intro heq
    cases heq
    exact h job hjob hkey

/-! ## What a reconciliation writes -/

inductive Writes (jobs : JobRows) (log : List ReconcileEvent) :
    JobRows → List ReconcileEvent → Prop where
  | none : Writes jobs log jobs log
  | noted {e : ReconcileEvent} (worker : Uuid)
    (event : e = .inventory worker ∨ e = .expected worker) :
      Writes jobs log jobs (e :: log)
  | observed (id : Uuid) (sequence : ℤ) :
    Writes jobs log (observeWorkerSequence jobs id sequence) log
  | wrote (id : Uuid) {state : DispatchState} (written : state ≠ .pending) :
      Writes jobs log (updateState jobs id state).1
        (if (updateState jobs id state).2 then .wrote id :: log else log)

section

variable (h : Writes jobs log jobs' log')

include h

theorem Writes.hasRow (hrow : HasRow jobs id) : HasRow jobs' id := by
  cases h with
  | none => exact hrow
  | noted worker event => exact hrow
  | observed id sequence | wrote id written => exact hrow.update fun _ => rfl

theorem Writes.createdSince
    (hcreated : createdSince mark id log = false) : createdSince mark id log' = false := by
  cases h with
  | none | observed id sequence => exact hcreated
  | noted worker event =>
    apply createdSince_cons _ hcreated
    rcases event with rfl | rfl <;> exact nofun
  | wrote id written =>
    split_ifs
    · exact createdSince_cons nofun hcreated
    · exact hcreated

theorem Writes.later : Later jobs log jobs' log' :=
  ⟨fun _ hrow => h.hasRow hrow, fun _ _ _ hcreated => h.createdSince hcreated⟩

theorem Writes.keyed (hkey : Keyed key jobs) : Keyed key jobs' := by
  cases h with
  | none => exact hkey
  | noted worker event => exact hkey
  | observed id sequence | wrote id written => exact hkey.update fun _ => rfl

end

/-- The executions that a reconciliation may mark as missing. -/
def ReconcilePc.expectedIds : ReconcilePc → List Uuid
  | .comparing expected _ _ _ => expected.map key
  | .missing ids => ids
  | .completingMissing _ ids => ids
  | _ => []

/-- The inventory of the current worker was fetched. -/
def ReconcilePc.fetched : ReconcilePc → Bool
  | .fetching | .unreachable => false
  | _ => true

/-- No state that is about to be written is `pending`. -/
def ReconcilePc.writesState : ReconcilePc → Prop
  | .comparing _ _ _ (.updating state _ _) => state ≠ .pending
  | _ => True

theorem dispatchState_ne_pending (state : JobState) : dispatchState state ≠ .pending := by
  cases state <;> exact nofun

namespace Reconciling

variable {s s' : Reconciling}

/-- What a step of a reconciliation does: it goes on with the expected rows of the current worker,
    with those that it has just read, or without any. -/
structure ReconcileMove (s : Reconciling) (r : ReconcileTask) (worker : Uuid) (s' : Reconciling) :
    Prop where
  writes : Writes s.jobs s.log s'.jobs s'.log
  dispatches : s'.dispatches = s.dispatches
  next : ∀ r', s'.reconcile = some r' → r'.pc.writesState ∧
    ((r'.workers = r.workers ∧ r.pc.fetched = true ∧ r'.pc.expectedIds ⊆ r.pc.expectedIds) ∨
      (r'.workers = r.workers ∧ r'.pc.fetched = true ∧ s'.log = .inventory worker :: s.log ∧
        r'.pc.expectedIds = []) ∨
      (r'.workers = r.workers ∧ r.pc.fetched = true ∧ s'.log = .expected worker :: s.log ∧
        r'.pc.expectedIds = (findNonterminalForWorker s.jobs worker).map key) ∨
      (r'.pc.fetched = false ∧ r'.pc.expectedIds = []))

variable {r : ReconcileTask} {worker : Uuid} {expected : JobRows} {reported : List Uuid}
  {inventory : List JobSummary} {pc : SummaryPc} {summary : JobSummary}

theorem ReconcileMove.compare {r' : ReconcileTask}
    {reported' : List Uuid} {inventory' : List JobSummary} {pc' : SummaryPc}
    (hpc : r.pc = .comparing expected reported inventory pc)
    (hwrites : Writes s.jobs s.log s'.jobs s'.log) (hdispatches : s'.dispatches = s.dispatches)
    (hnext : s'.reconcile = some r') (hworkers : r'.workers = r.workers)
    (hpc' : r'.pc = .comparing expected reported' inventory' pc')
    (hstate : (ReconcilePc.comparing expected reported' inventory' pc').writesState) :
    ReconcileMove s r worker s' := by
  refine ⟨hwrites, hdispatches, ?_⟩
  intro r'' hr''
  rw [hnext] at hr''
  cases hr''
  rw [hpc, hpc']
  exact ⟨hstate, .inl ⟨hworkers, rfl, Subset.refl _⟩⟩

theorem afterWrite_move
    {after : AfterWrite} (hpc : r.pc = .comparing expected reported (summary :: inventory) pc)
    (hwrites : Writes s.jobs s.log s'.jobs s'.log) (hdispatches : s'.dispatches = s.dispatches)
    (hnext : s'.reconcile =
      some (ReconcileTask.afterWrite r expected reported summary inventory after)) :
    ReconcileMove s r worker s' := by
  cases after with
  | quarantine | conflict | reconciled =>
      exact .compare hpc hwrites hdispatches hnext rfl rfl trivial

theorem summaryStep_move {ok : Bool}
    (hpc : r.pc = .comparing expected reported (summary :: inventory) pc)
    (hstate : r.pc.writesState) :
    ReconcileMove s r worker (s.summaryStep r expected reported summary inventory ok pc) := by
  cases pc with
  | looking =>
    refine .compare hpc .none rfl rfl rfl rfl ?_
    split
    · trivial
    · split_ifs
      · exact nofun
      · trivial
      · trivial
  | checking =>
    refine .compare hpc .none rfl rfl rfl rfl ?_
    split
    · split_ifs
      · exact nofun
      · trivial
    · trivial
  | observing =>
    refine .compare hpc (.observed summary.executionId (asI64 summary.lastSequence))
      rfl rfl rfl rfl ?_
    split_ifs
    · split
      · exact nofun
      · trivial
    · exact dispatchState_ne_pending summary.state
  | reading evidence =>
    simp only [summaryStep]
    split
    · exact .compare hpc .none rfl rfl rfl rfl trivial
    · refine .compare hpc .none rfl rfl rfl rfl ?_
      split_ifs
      · exact nofun
      · exact dispatchState_ne_pending summary.state
    · exact .compare hpc .none rfl rfl rfl rfl (dispatchState_ne_pending summary.state)
  | updating state status after =>
    rw [hpc] at hstate
    cases status with
    | none => exact afterWrite_move hpc (.wrote summary.executionId hstate) rfl rfl
    | some status => exact .compare hpc (.wrote summary.executionId hstate) rfl rfl rfl rfl trivial
  | completing status after => exact afterWrite_move hpc .none rfl rfl
  | quarantining known => exact .compare hpc .none rfl rfl rfl rfl trivial

theorem nextWorker_move
    (hjobs : s'.jobs = s.jobs) (hlog : s'.log = s.log) (hdispatches : s'.dispatches = s.dispatches)
    (hnext : s'.reconcile = ReconcileTask.nextWorker r) : ReconcileMove s r worker s' := by
  refine ⟨by rw [hjobs, hlog]; exact .none, hdispatches, ?_⟩
  intro r' hr'
  rw [hnext] at hr'
  unfold ReconcileTask.nextWorker at hr'
  split at hr' <;> cases hr'
  exact ⟨trivial, .inr (.inr (.inr ⟨rfl, rfl⟩))⟩

theorem reconcileStep_move {a : ReconcileAction}
    (hstate : r.pc.writesState) (h : s.reconcileStep r worker a = some s') :
    ReconcileMove s r worker s' := by
  cases a with
  | inventory result =>
    simp only [reconcileStep] at h
    split_ifs at h
    cases result with cases h
    | none =>
      refine ⟨.none, rfl, ?_⟩
      rintro r' ⟨⟩
      exact ⟨trivial, .inr (.inr (.inr ⟨rfl, rfl⟩))⟩
    | some inventory =>
      refine ⟨.noted worker (.inl rfl), rfl, ?_⟩
      rintro r' ⟨⟩
      exact ⟨trivial, .inr (.inl ⟨rfl, rfl, rfl, rfl⟩)⟩
  | next ok =>
    simp only [reconcileStep] at h
    split at h
    · cases h
    · cases h
      exact nextWorker_move rfl rfl rfl rfl
    · rename_i hpc
      cases h
      refine ⟨.noted worker (.inr rfl), rfl, ?_⟩
      rintro r' ⟨⟩
      exact ⟨trivial, .inr (.inr (.inl ⟨rfl, hpc ▸ rfl, rfl, rfl⟩))⟩
    · rename_i hpc
      cases h
      refine ⟨.none, rfl, ?_⟩
      rintro r' ⟨⟩
      refine ⟨trivial, .inl ⟨rfl, hpc ▸ rfl, ?_⟩⟩
      rw [hpc]
      exact filter_subset_self _
    · rename_i hpc
      cases h
      exact summaryStep_move hpc hstate
    · split_ifs at h
      cases h
      exact nextWorker_move rfl rfl rfl rfl
    · rename_i hpc
      cases h
      refine ⟨.none, rfl, ?_⟩
      rintro r' ⟨⟩
      refine ⟨trivial, .inl ⟨rfl, hpc ▸ rfl, ?_⟩⟩
      rw [hpc]
      exact Subset.refl _
  | missing id =>
    simp only [reconcileStep] at h
    split at h
    · rename_i ids hpc
      split at h <;> cases h
      refine ⟨.wrote id nofun, rfl, ?_⟩
      rintro r' ⟨⟩
      refine ⟨trivial, .inl ⟨rfl, hpc ▸ rfl, ?_⟩⟩
      rw [hpc]
      exact erase_subset
    · cases h
  | abort =>
    cases h
    refine ⟨.none, rfl, ?_⟩
    intro r' hr'
    cases hr'

/-! ## What a dispatch writes -/

inductive DispatchWrites (jobs : JobRows) (log : List ReconcileEvent) (id : Uuid) :
    JobRows → List ReconcileEvent → Prop where
  | none : DispatchWrites jobs log id jobs log
  | inserted {row : WorkerJobRow} (absent : ∀ job ∈ jobs, job.key ≠ row.key) (own : row.key = id)
      (pending : row.dispatchState = .pending) :
      DispatchWrites jobs log id (jobs ++ [row]) (.created row.key :: log)
  | wrote {p : WorkerJobRow → Bool} {f : WorkerJobRow → WorkerJobRow}
      (own : ∀ job, p job = true → job.key = id) (keyed : ∀ job, (f job).key = job.key) :
      DispatchWrites jobs log id (update p f jobs) log

variable {id : Uuid}

section

variable (h : DispatchWrites jobs log id jobs' log')
include h

theorem DispatchWrites.later : Later jobs log jobs' log' := by
  cases h with
  | none => exact Later.refl
  | inserted absent own pending => exact Later.inserted absent
  | wrote own keyed => exact Later.update keyed

theorem DispatchWrites.keyed (hkey : Keyed key jobs) : Keyed key jobs' := by
  cases h with
  | none => exact hkey
  | inserted absent own pending => exact hkey.concat absent
  | wrote own keyed => exact hkey.update keyed

end

/-- A dispatch writes nothing that tells whether a reconciliation has written. -/
theorem DispatchWrites.wroteSince {i : Uuid} (h : DispatchWrites jobs log id jobs' log') :
    wroteSince i log' = wroteSince i log := by
  cases h <;> rfl

/-! ## Dispatches in flight -/

/-- The row of a dispatch is pending until a reconciliation writes it. -/
structure InFlight (jobs : JobRows) (log : List ReconcileEvent) (t : DispatchPath) : Prop where
  row : t.pc ≠ .creating → HasRow jobs t.executionId
  pending : ∀ job ∈ jobs, job.key = t.executionId →
    (job.dispatchState = .pending ↔ wroteSince t.executionId log = false)
  wrote : wroteSince t.executionId log = true → HasRow jobs t.executionId

variable {t : DispatchPath}

theorem InFlight.of_log (h : InFlight jobs log t)
    (hlog : wroteSince t.executionId log' = wroteSince t.executionId log) :
    InFlight jobs log' t := by
  refine ⟨h.row, ?_, ?_⟩
  · rw [hlog]
    exact h.pending
  · rw [hlog]
    exact h.wrote

theorem InFlight.update (h : InFlight jobs log t) (hkey : ∀ job, (f job).key = job.key)
    (hstate : ∀ job ∈ jobs, p job = true → job.key = t.executionId →
      ((f job).dispatchState = .pending ↔ job.dispatchState = .pending)) :
    InFlight (Lib.update p f jobs) log t := by
  refine ⟨fun hpc => (h.row hpc).update hkey, ?_, fun hwrote => (h.wrote hwrote).update hkey⟩
  apply forall_mem_update
  · intro job hjob hp hid
    rw [hkey job] at hid
    exact (hstate job hjob hp hid).trans (h.pending job hjob hid)
  · intro job hjob _ hid
    exact h.pending job hjob hid

variable {state : DispatchState}

/-- `update_state` of a row that is not pending, or of another execution. -/
theorem InFlight.stateSet (h : InFlight jobs log t)
    (hstate : ∀ job ∈ jobs, job.key = id → id = t.executionId →
      (state = .pending ↔ job.dispatchState = .pending)) :
    InFlight (updateState jobs id state).1 log t := by
  refine h.update (fun _ => rfl : ∀ job : WorkerJobRow,
    key { job with dispatchState := state } = job.key) ?_
  intro job hjob hp hid
  have hkey : job.key = id := beq_iff_eq.1 hp
  exact hstate job hjob hkey (hkey.symm.trans hid)

theorem InFlight.inserted (h : InFlight jobs log t)
    (hrow : row.key ≠ t.executionId) : InFlight (jobs ++ [row]) log t := by
  have hmem : ∀ id, HasRow jobs id → HasRow (jobs ++ [row]) id := by
    rintro id ⟨job, hjob, hid⟩
    exact ⟨job, mem_append_left _ hjob, hid⟩
  refine ⟨fun hpc => hmem _ (h.row hpc), ?_, fun hwrote => hmem _ (h.wrote hwrote)⟩
  intro job hjob hid
  rcases mem_append.1 hjob with hjob | hnew
  · exact h.pending job hjob hid
  · rw [mem_singleton.1 hnew] at hid
    exact absurd hid hrow

variable {t' : DispatchPath}

theorem InFlight.created (h : InFlight jobs log t)
    (habsent : ∀ job ∈ jobs, job.key ≠ t.executionId) (hkey : row.key = t.executionId)
    (hpending : row.dispatchState = .pending) (hown : t'.executionId = t.executionId) :
    InFlight (jobs ++ [row]) (.created row.key :: log) t' := by
  have hrow : HasRow (jobs ++ [row]) t.executionId := ⟨row, mem_append_right _ mem_cons_self, hkey⟩
  have hwrote : wroteSince t.executionId log = false := by
    by_contra hwrote
    obtain ⟨job, hjob, hid⟩ := h.wrote (Bool.eq_true_of_not_eq_false hwrote)
    exact habsent job hjob hid
  rw [← hown] at hrow hwrote
  refine ⟨fun _ => hrow, ?_, fun _ => hrow⟩
  intro job hjob hid
  rcases mem_append.1 hjob with hjob | hnew
  · exact absurd (hid.trans hown) (habsent job hjob)
  · rw [mem_singleton.1 hnew]
    exact iff_of_true hpending hwrote

section

variable (h : InFlight jobs log t)

include h

theorem InFlight.stateWritten (hkey : Keyed key jobs) (hstate : state ≠ .pending) :
    InFlight (updateState jobs id state).1
      (if (updateState jobs id state).2 then .wrote id :: log else log) t := by
  by_cases hid : t.executionId = id
  · rw [updateState_reports hkey, ← hid]
    by_cases hrow : HasRow jobs t.executionId
    · rw [if_pos (decide_eq_true hrow)]
      have hrow' : HasRow (updateState jobs t.executionId state).1 t.executionId :=
        hrow.update fun _ => rfl
      have hwrote : wroteSince t.executionId (.wrote t.executionId :: log) = true := if_pos rfl
      refine ⟨fun _ => hrow', ?_, fun _ => hrow'⟩
      rw [hwrote]
      apply forall_mem_update
      · intro job _ _ _
        exact iff_of_false hstate nofun
      · intro job _ hp hjob
        rw [hjob, beq_self_eq_true] at hp
        cases hp
    · rw [if_neg (mt of_decide_eq_true hrow)]
      rw [updateState_absent fun job hjob heq => hrow ⟨job, hjob, heq⟩]
      exact h
  · have hrows : InFlight (updateState jobs id state).1 log t := by
      apply h.stateSet
      intro _ _ _ heq
      exact absurd heq.symm hid
    apply hrows.of_log
    split_ifs
    · exact if_neg fun heq => hid heq.symm
    · rfl

theorem InFlight.reconciled (hkey : Keyed key jobs) (hwrites : Writes jobs log jobs' log') :
    InFlight jobs' log' t := by
  cases hwrites with
  | none => exact h
  | noted worker event =>
    apply h.of_log
    rcases event with rfl | rfl <;> rfl
  | observed id sequence => exact h.update (fun _ => rfl) fun _ _ _ _ => Iff.rfl
  | wrote id written => exact h.stateWritten hkey written

theorem InFlight.other
    (hid : id ≠ t.executionId) (hwrites : DispatchWrites jobs log id jobs' log') :
    InFlight jobs' log' t := by
  apply InFlight.of_log _ hwrites.wroteSince
  cases hwrites with
  | none => exact h
  | inserted absent own pending => exact h.inserted (own ▸ hid)
  | wrote own keyed =>
    apply h.update keyed
    intro job _ hp hkey
    exact absurd ((own job hp).symm.trans hkey) hid

theorem InFlight.tracked (hkey : Keyed key jobs)
    (haccepted : ∃ job ∈ jobs, job.key = id ∧ job.dispatchState ≠ .pending)
    (hstate : state ≠ .pending) : InFlight (updateState jobs id state).1 log t := by
  apply h.stateSet
  intro job hjob hid _
  obtain ⟨job', hjob', hid', haccepted⟩ := haccepted
  have heq : job = job' := hkey.eq hjob hjob' (hid.trans hid'.symm)
  rw [heq]
  exact iff_of_false hstate haccepted

end

/-- What a step of a dispatch does: it writes its own row, and is in flight until it ends. -/
structure DispatchMove (s : Reconciling) (i : ℕ) (t t' : DispatchPath) (s' : Reconciling) :
    Prop where
  dispatches : s'.dispatches = s.dispatches.set i t'
  own : t'.executionId = t.executionId
  reconcile : s'.reconcile = s.reconcile
  writes : DispatchWrites s.jobs s.log t.executionId s'.jobs s'.log
  rests : t.pc = .done → s'.jobs = s.jobs ∧ s'.log = s.log
  goes : t'.pc ≠ .done → t.pc ≠ .done ∧ (InFlight s.jobs s.log t → InFlight s'.jobs s'.log t')

theorem InFlight.goOn (h : InFlight jobs log t)
    (hown : t'.executionId = t.executionId) (hrow : HasRow jobs t.executionId) :
    InFlight jobs log t' := by
  rw [← hown] at hrow
  refine ⟨fun _ => hrow, ?_, fun _ => hrow⟩
  rw [hown]
  exact h.pending

variable {i : ℕ}

theorem dispatchStep_move {a : DispatchPathAction}
    (h : s.dispatchStep i t a = some s') : ∃ t', DispatchMove s i t t' s' := by
  cases a with simp only [dispatchStep] at h
  | create =>
    split at h
    · rename_i hpc
      have hcreating : t.pc ≠ .done := by
        rw [hpc]
        exact nofun
      cases h
      cases hfind : findByExecutionId s.jobs t.executionId with
      | none =>
        have habsent := findByExecutionId_none hfind
        have hcreated : createPending s.jobs t.executionId t.workerNodeId t.requestDigest =
            (s.jobs ++ [pendingRow t.executionId t.workerNodeId t.requestDigest], true) := by
          rw [createPending, hfind]
        rw [hcreated]
        refine ⟨_, rfl, rfl, rfl, .inserted habsent rfl rfl,
          fun hdone => absurd hdone hcreating, ?_⟩
        intro _
        exact ⟨hcreating, fun hin => hin.created habsent rfl rfl rfl⟩
      | some job =>
        obtain ⟨hjob, hkey⟩ := findByExecutionId_some hfind
        have hcreated : (createPending s.jobs t.executionId t.workerNodeId t.requestDigest).1 =
            s.jobs := by
          rw [createPending, hfind]
        rw [hcreated]
        refine ⟨_, rfl, rfl, rfl, .none, fun hdone => absurd hdone hcreating, ?_⟩
        intro _
        exact ⟨hcreating, fun hin => hin.goOn rfl ⟨job, hjob, hkey⟩⟩
    · cases h
  | answer reply =>
    split_ifs at h with hpc
    have hsending : t.pc ≠ .creating ∧ t.pc ≠ .done := by
      rw [hpc]
      exact ⟨nofun, nofun⟩
    have hmove : ∀ pc, DispatchMove s i t { t with pc := pc }
        (s.setDispatch i { t with pc := pc }) := fun pc =>
      ⟨rfl, rfl, rfl, .none, fun _ => ⟨rfl, rfl⟩,
        fun _ => ⟨hsending.2, fun hin => hin.goOn rfl (hin.row hsending.1)⟩⟩
    split at h
    · cases h
      exact ⟨_, hmove _⟩
    · split_ifs at h
      all_goals
        cases h
        exact ⟨_, hmove _⟩
  | fail =>
    split_ifs at h with hpc
    cases h
    refine ⟨_, rfl, rfl, rfl, .wrote (fun _ hp => beq_iff_eq.1 hp) fun _ => rfl, ?_,
      fun hdone => absurd rfl hdone⟩
    rw [hpc]
    exact nofun
  | record =>
    split at h <;> cases h
    rename_i hpc
    refine ⟨_, rfl, rfl, rfl, .wrote ?_ fun _ => rfl, ?_, fun hdone => absurd rfl hdone⟩
    · intro job hp
      exact beq_iff_eq.1 (Bool.and_eq_true_iff.1 hp).1
    · rw [hpc]
      exact nofun
  | drop =>
    cases h
    exact ⟨_, rfl, rfl, rfl, .none, fun _ => ⟨rfl, rfl⟩, fun hdone => absurd rfl hdone⟩

/-! ## Every run -/

/-- What holds however dispatches and reconciliations are interleaved. -/
structure Sound (s : Reconciling) : Prop where
  keyed : Keyed key s.jobs
  states : ∀ r, s.reconcile = some r → r.pc.writesState
  expected : ∀ r worker, s.reconcile = some r → r.workers.head? = some worker →
    ∀ id ∈ r.pc.expectedIds, HasRow s.jobs id ∧ createdSince (.expected worker) id s.log = false
  flights : ∀ t ∈ s.dispatches, t.pc ≠ .done → InFlight s.jobs s.log t
  /-- no two dispatches of one execution are in flight -/
  single : ∀ (i j : ℕ) t u, s.dispatches[i]? = some t → s.dispatches[j]? = some u →
    t.pc ≠ .done → u.pc ≠ .done → t.executionId = u.executionId → i = j

theorem Sound.initial (h : Initial s) : Sound s := by
  obtain ⟨hkey, hdispatches, hreconcile, _⟩ := h
  refine ⟨hkey, ?_, ?_, ?_, ?_⟩
  · rw [hreconcile]
    exact nofun
  · rw [hreconcile]
    exact nofun
  · rw [hdispatches]
    exact nofun
  · rw [hdispatches]
    intro i j t u ht
    cases ht

theorem Sound.expectedLater (h : Sound s)
    (hlater : Later s.jobs s.log jobs' log') (hr : s.reconcile = some r)
    (hworker : r.workers.head? = some worker) (hid : id ∈ r.pc.expectedIds) :
    HasRow jobs' id ∧ createdSince (.expected worker) id log' = false := by
  obtain ⟨hrow, hcreated⟩ := h.expected r worker hr hworker id hid
  exact ⟨hlater.row id hrow, hlater.created _ id hrow hcreated⟩

variable {executionId : Uuid}
  {workerNodeId workerJobId : Uuid} {requestDigest : String} {a : RacingAction}

theorem Sound.start (h : Sound s)
    (hs : s.start executionId workerNodeId requestDigest = some s') : Sound s' := by
  unfold Reconciling.start at hs
  split_ifs at hs with hnew
  obtain ⟨hdone, hpending⟩ := hnew
  cases hs
  refine ⟨h.keyed, h.states, ?_, ?_, ?_⟩
  · intro r worker hr hworker id hid
    exact h.expectedLater (Later.noted nofun) hr hworker hid
  · intro t ht hpc
    rcases mem_append.1 ht with ht | ht
    · apply (h.flights t ht hpc).of_log
      exact if_neg fun heq => hpc (hdone t ht heq.symm)
    · rw [mem_singleton.1 ht]
      have hwrote : wroteSince executionId (.dispatched executionId :: s.log) = false := if_pos rfl
      refine ⟨fun hcreating => absurd rfl hcreating, ?_, ?_⟩
      · intro job hjob hkey
        exact iff_of_true (hpending job hjob hkey) hwrote
      · intro hwrote'
        rw [hwrote] at hwrote'
        cases hwrote'
  · intro i j t u ht hu htpc hupc heq
    rcases getElem?_append_cases ht with ht' | ⟨hi, ht'⟩
    · rcases getElem?_append_cases hu with hu' | ⟨_, hu'⟩
      · exact h.single i j t u ht' hu' htpc hupc heq
      · rw [mem_singleton.1 hu'] at heq
        exact absurd (hdone t (mem_of_getElem? ht') heq) htpc
    · rcases getElem?_append_cases hu with hu' | ⟨hj, _⟩
      · rw [mem_singleton.1 ht'] at heq
        exact absurd (hdone u (mem_of_getElem? hu') heq.symm) hupc
      · have hilt := (List.getElem?_eq_some_iff.1 ht).1
        have hjlt := (List.getElem?_eq_some_iff.1 hu).1
        rw [length_append, length_singleton] at hilt hjlt
        omega

theorem Sound.dispatch (h : Sound s) (ht : s.dispatches[i]? = some t)
    (hmove : DispatchMove s i t t' s') : Sound s' := by
  obtain ⟨hdispatches, hown, hreconcile, hwrites, hrests, hgoes⟩ := hmove
  refine ⟨hwrites.keyed h.keyed, ?_, ?_, ?_, ?_⟩
  · rw [hreconcile]
    exact h.states
  · intro r worker hr hworker id hid
    rw [hreconcile] at hr
    exact h.expectedLater hwrites.later hr hworker hid
  · intro u hu hupc
    rw [hdispatches] at hu
    obtain ⟨j, hj⟩ := mem_iff_getElem?.1 hu
    rcases getElem?_set_cases hj with ⟨_, rfl⟩ | ⟨hji, hj⟩
    · obtain ⟨htpc, hin⟩ := hgoes hupc
      exact hin (h.flights t (mem_of_getElem? ht) htpc)
    · have hflight := h.flights u (mem_of_getElem? hj) hupc
      by_cases htpc : t.pc = .done
      · obtain ⟨hjobs, hlog⟩ := hrests htpc
        rw [hjobs, hlog]
        exact hflight
      · apply hflight.other _ hwrites
        intro heq
        exact hji (h.single j i u t hj ht hupc htpc heq.symm)
  · rw [hdispatches]
    intro j k u v hu hv hupc hvpc heq
    rcases getElem?_set_cases hu with ⟨hj, rfl⟩ | ⟨_, hu'⟩
    · rcases getElem?_set_cases hv with ⟨hk, _⟩ | ⟨_, hv'⟩
      · exact hj.trans hk.symm
      · exact hj.trans (h.single i k t v ht hv' (hgoes hupc).1 hvpc (hown.symm.trans heq))
    · rcases getElem?_set_cases hv with ⟨hk, rfl⟩ | ⟨_, hv'⟩
      · exact (h.single j i u t hu' ht hupc (hgoes hvpc).1 (heq.trans hown)).trans hk.symm
      · exact h.single j k u v hu' hv' hupc hvpc heq

theorem hasRow_of_nonterminal
    (h : id ∈ (findNonterminalForWorker jobs worker).map key) : HasRow jobs id := by
  obtain ⟨job, hjob, hkey⟩ := mem_map.1 h
  exact ⟨job, (mem_filter.1 hjob).1, hkey⟩

theorem Sound.reconciling (h : Sound s)
    (hr : s.reconcile = some r) (hworker : r.workers.head? = some worker)
    (hmove : ReconcileMove s r worker s') : Sound s' := by
  obtain ⟨hwrites, hdispatches, hnext⟩ := hmove
  refine ⟨hwrites.keyed h.keyed, fun r' hr' => (hnext r' hr').1, ?_, ?_, ?_⟩
  · intro r' worker' hr' hworker' id hid
    rcases (hnext r' hr').2 with ⟨hworkers, _, hids⟩ | ⟨_, _, _, hids⟩ | ⟨hworkers, _, hlog, hids⟩ |
      ⟨_, hids⟩
    · rw [hworkers] at hworker'
      exact h.expectedLater hwrites.later hr hworker' (hids hid)
    · rw [hids] at hid
      cases hid
    · rw [hids] at hid
      rw [hworkers, hworker] at hworker'
      cases hworker'
      refine ⟨hwrites.hasRow (hasRow_of_nonterminal hid), ?_⟩
      rw [hlog]
      exact createdSince_mark nofun
    · rw [hids] at hid
      cases hid
  · rw [hdispatches]
    intro t ht hpc
    exact (h.flights t ht hpc).reconciled h.keyed hwrites
  · rw [hdispatches]
    exact h.single

theorem Sound.begin (h : Sound s) (hs : s.begin = some s') : Sound s' := by
  unfold Reconciling.begin at hs
  split_ifs at hs
  split at hs <;> cases hs
  · exact h
  · refine ⟨h.keyed, ?_, ?_, h.flights, h.single⟩
    · rintro r ⟨⟩
      trivial
    · rintro r worker ⟨⟩ _ id hid
      cases hid

theorem Sound.track (h : Sound s)
    (haccepted : ∃ job ∈ s.jobs, job.key = executionId ∧ job.dispatchState ≠ .pending)
    (hstate : state ≠ .pending) :
    Sound { s with jobs := (updateState s.jobs executionId state).1 } := by
  refine ⟨h.keyed.update fun _ => rfl, h.states, ?_, ?_, h.single⟩
  · intro r worker hr hworker id hid
    exact h.expectedLater (Later.update fun _ => rfl) hr hworker hid
  · intro t ht hpc
    exact (h.flights t ht hpc).tracked h.keyed haccepted hstate

theorem Sound.step (h : Sound s) (hs : s.step a = some s') : Sound s' := by
  cases a with
  | start executionId workerNodeId requestDigest => exact h.start hs
  | dispatch i a =>
    obtain ⟨t, ht, hstep⟩ := bind_eq_some_iff.1 hs
    obtain ⟨t', hmove⟩ := dispatchStep_move hstep
    exact h.dispatch ht hmove
  | reconcile => exact h.begin hs
  | reconciling a =>
    obtain ⟨r, hr, hs⟩ := bind_eq_some_iff.1 hs
    obtain ⟨worker, hworker, hstep⟩ := bind_eq_some_iff.1 hs
    exact h.reconciling hr hworker (reconcileStep_move (h.states r hr) hstep)
  | process row =>
    cases hs
    exact ⟨h.keyed, h.states, h.expected, h.flights, h.single⟩
  | track executionId state =>
    simp only [Reconciling.step] at hs
    split_ifs at hs with hcond
    cases hs
    exact h.track hcond.1 hcond.2

/-! ## Runs in which dispatches and reconciliations do not overlap -/

/-- Nothing is dispatched while a reconciliation runs (`local-deployment/src/lib.rs` awaits the
    reconciliation before it serves requests). -/
def Separate (s : Reconciling) : RacingAction → Prop
  | .start _ _ _ => s.reconcile = none
  | .reconcile => ∀ t ∈ s.dispatches, t.pc = .done
  | _ => True

instance (s : Reconciling) (a : RacingAction) : Decidable (Separate s a) := by
  cases a <;> dsimp only [Separate] <;> infer_instance

/-- What the separation adds: nothing is in flight while a reconciliation runs, and a dispatch in
    flight was never written by one. -/
structure Separated (s : Reconciling) : Prop extends Sound s where
  apart : ∀ r, s.reconcile = some r → ∀ t ∈ s.dispatches, t.pc = .done
  untouched : ∀ t ∈ s.dispatches, t.pc ≠ .done → wroteSince t.executionId s.log = false
  quiet : ∀ r worker, s.reconcile = some r → r.workers.head? = some worker → r.pc.fetched = true →
    ∀ id, createdSince (.inventory worker) id s.log = false

theorem Separated.initial (h : Initial s) : Separated s := by
  have hsound := Sound.initial h
  obtain ⟨_, hdispatches, hreconcile, _⟩ := h
  refine ⟨hsound, ?_, ?_, ?_⟩
  · rw [hreconcile]
    exact nofun
  · rw [hdispatches]
    exact nofun
  · rw [hreconcile]
    exact nofun

section

variable (h : Separated s)
include h

theorem Separated.start (hfree : s.reconcile = none)
    (hs : s.start executionId workerNodeId requestDigest = some s') : Separated s' := by
  have hsound := h.toSound.start hs
  unfold Reconciling.start at hs
  split_ifs at hs
  cases hs
  refine ⟨hsound, ?_, ?_, ?_⟩
  · intro r hr
    rw [show s.reconcile = some r from hr] at hfree
    cases hfree
  · intro t ht hpc
    show (if executionId = t.executionId then false else wroteSince t.executionId s.log) = false
    split_ifs with heq
    · rfl
    · rcases mem_append.1 ht with ht | ht
      · exact h.untouched t ht hpc
      · rw [mem_singleton.1 ht] at heq
        exact absurd rfl heq
  · intro r worker hr
    rw [show s.reconcile = some r from hr] at hfree
    cases hfree

theorem Separated.dispatch (ht : s.dispatches[i]? = some t) (hmove : DispatchMove s i t t' s') :
    Separated s' := by
  have hsound := h.toSound.dispatch ht hmove
  obtain ⟨hdispatches, hown, hreconcile, hwrites, hrests, hgoes⟩ := hmove
  refine ⟨hsound, ?_, ?_, ?_⟩
  · rw [hreconcile, hdispatches]
    intro r hr u hu
    have hdone := h.apart r hr
    rcases mem_or_eq_of_mem_set hu with hu | rfl
    · exact hdone u hu
    · by_contra hpc
      exact (hgoes hpc).1 (hdone t (mem_of_getElem? ht))
  · rw [hdispatches]
    intro u hu hpc
    rw [hwrites.wroteSince]
    rcases mem_or_eq_of_mem_set hu with hu | rfl
    · exact h.untouched u hu hpc
    · rw [hown]
      exact h.untouched t (mem_of_getElem? ht) (hgoes hpc).1
  · rw [hreconcile]
    intro r worker hr
    rw [(hrests (h.apart r hr t (mem_of_getElem? ht))).2]
    exact h.quiet r worker hr

theorem Separated.reconciling (hr : s.reconcile = some r) (hworker : r.workers.head? = some worker)
    (hmove : ReconcileMove s r worker s') : Separated s' := by
  have hsound := h.toSound.reconciling hr hworker hmove
  obtain ⟨hwrites, hdispatches, hnext⟩ := hmove
  refine ⟨hsound, ?_, ?_, ?_⟩
  · rw [hdispatches]
    intro _ _
    exact h.apart r hr
  · rw [hdispatches]
    intro t ht hpc
    exact absurd (h.apart r hr t ht) hpc
  · intro r' worker' hr' hworker' hfetched' id
    rcases (hnext r' hr').2 with ⟨hworkers, hfetched, _⟩ | ⟨hworkers, _, hlog, _⟩ |
      ⟨hworkers, hfetched, _⟩ | ⟨hfetched, _⟩
    · rw [hworkers] at hworker'
      exact hwrites.createdSince (h.quiet r worker' hr hworker' hfetched id)
    · rw [hworkers, hworker] at hworker'
      cases hworker'
      rw [hlog]
      exact createdSince_mark nofun
    · rw [hworkers] at hworker'
      exact hwrites.createdSince (h.quiet r worker' hr hworker' hfetched id)
    · rw [hfetched] at hfetched'
      cases hfetched'

theorem Separated.begin (hdone : ∀ t ∈ s.dispatches, t.pc = .done)
    (hs : s.begin = some s') : Separated s' := by
  have hsound := h.toSound.begin hs
  unfold Reconciling.begin at hs
  split_ifs at hs
  split at hs <;> cases hs
  · exact h
  · refine ⟨hsound, fun _ _ => hdone, h.untouched, ?_⟩
    rintro r worker ⟨⟩ _ hfetched
    cases hfetched

theorem Separated.step (ha : Separate s a) (hs : s.step a = some s') : Separated s' := by
  cases a with
  | start executionId workerNodeId requestDigest => exact h.start ha hs
  | dispatch i a =>
    obtain ⟨t, ht, hstep⟩ := bind_eq_some_iff.1 hs
    obtain ⟨t', hmove⟩ := dispatchStep_move hstep
    exact h.dispatch ht hmove
  | reconcile => exact h.begin ha hs
  | reconciling a =>
    obtain ⟨r, hr, hs⟩ := bind_eq_some_iff.1 hs
    obtain ⟨worker, hworker, hstep⟩ := bind_eq_some_iff.1 hs
    exact h.reconciling hr hworker (reconcileStep_move (h.states r hr) hstep)
  | process row =>
    have hsound := h.toSound.step hs
    cases hs
    exact ⟨hsound, h.apart, h.untouched, h.quiet⟩
  | track executionId state =>
    have hsound := h.toSound.step hs
    simp only [Reconciling.step] at hs
    split_ifs at hs
    cases hs
    exact ⟨hsound, h.apart, h.untouched, h.quiet⟩

end

/-! ## The races -/

theorem missing_expected (hr : s.reconcile = some r) (hworker : r.workers.head? = some worker)
    (hs : s.step (.reconciling (.missing id)) = some s') :
    id ∈ r.pc.expectedIds ∧ r.pc.fetched = true := by
  have hstep : s.reconcileStep r worker (.missing id) = some s' := by
    simp only [Reconciling.step, hr, bind_some, hworker] at hs
    exact hs
  simp only [reconcileStep] at hstep
  split at hstep
  · rename_i ids hpc
    by_cases hid : id ∈ ids
    · rw [hpc]
      exact ⟨hid, rfl⟩
    · rw [if_neg hid] at hstep
      cases hstep
  · cases hstep

/-- `record_acceptance` reports whether the row is pending. -/
theorem recordAcceptance_reports {sequence : ℤ} (hkey : Keyed key jobs) :
    (recordAcceptance jobs id workerJobId sequence).2 = true ↔
      ∃ job ∈ jobs, job.key = id ∧ job.dispatchState = .pending := by
  have hiff := affected_eq_one_iff
    (p := fun job => job.key == id && decide (job.dispatchState = .pending)) hkey
    fun _ hp => beq_iff_eq.1 (Bool.and_eq_true_iff.1 hp).1
  show (affected _ jobs == 1) = true ↔ _
  rw [beq_iff_eq, hiff]
  simp only [Bool.and_eq_true, beq_iff_eq, decide_eq_true_eq]

theorem Sound.acceptance {lastSequence : ℕ} (h : Sound s)
    (ht : t ∈ s.dispatches) (hpc : t.pc = .accepted workerJobId lastSequence) :
    (recordAcceptance s.jobs t.executionId workerJobId (asI64 lastSequence)).2 = true ↔
      wroteSince t.executionId s.log = false := by
  have hflight := h.flights t ht (by rw [hpc]; exact nofun)
  obtain ⟨job, hjob, hkey⟩ := hflight.row (by rw [hpc]; exact nofun)
  rw [recordAcceptance_reports h.keyed]
  constructor
  · rintro ⟨job', hjob', hkey', hpending⟩
    exact (hflight.pending job' hjob' hkey').1 hpending
  · intro hwrote
    exact ⟨job, hjob, hkey, (hflight.pending job hjob hkey).2 hwrote⟩

theorem Sound.reachable (h : Reachable Reconciling.step anyStep Initial s) : Sound s :=
  h.invariant (fun _ => Sound.initial) fun _ _ _ hsound _ hs => hsound.step hs

theorem Separated.reachable (h : Reachable Reconciling.step Separate Initial s) : Separated s :=
  h.invariant (fun _ => Separated.initial) fun _ _ _ hseparated ha hs => hseparated.step ha hs

/-- In every run, a row that is marked as missing was not inserted after the expected rows were
    read, and `record_acceptance` succeeds for an accepted dispatch exactly if no reconciliation has
    written its row since the dispatch began. Where they do not overlap, a row that is marked as
    missing was not inserted after the inventory was fetched either, and `record_acceptance`
    succeeds for every accepted dispatch. -/
theorem reconciliation_races (s : Reconciling) : (Reachable step anyStep Initial s →
      (∀ r worker id s', s.reconcile = some r → r.workers.head? = some worker →
        s.step (.reconciling (.missing id)) = some s' →
        createdSince (.expected worker) id s.log = false) ∧
      ∀ t ∈ s.dispatches, ∀ workerJobId lastSequence, t.pc = .accepted workerJobId lastSequence →
        ((recordAcceptance s.jobs t.executionId workerJobId (asI64 lastSequence)).2 = true ↔
          wroteSince t.executionId s.log = false)) ∧ (Reachable step Separate Initial s →
      (∀ r worker id s', s.reconcile = some r → r.workers.head? = some worker →
        s.step (.reconciling (.missing id)) = some s' →
        createdSince (.inventory worker) id s.log = false) ∧
      ∀ t ∈ s.dispatches, ∀ workerJobId lastSequence, t.pc = .accepted workerJobId lastSequence →
        (recordAcceptance s.jobs t.executionId workerJobId (asI64 lastSequence)).2 = true) := by
  constructor
  · intro h
    have hsound := Sound.reachable h
    constructor
    · intro r worker id s' hr hworker hs
      exact (hsound.expected r worker hr hworker id (missing_expected hr hworker hs).1).2
    · intro t ht workerJobId lastSequence hpc
      exact hsound.acceptance ht hpc
  · intro h
    have hseparated := Separated.reachable h
    constructor
    · intro r worker id s' hr hworker hs
      exact hseparated.quiet r worker hr hworker (missing_expected hr hworker hs).2 id
    · intro t ht workerJobId lastSequence hpc
      apply (hseparated.toSound.acceptance ht hpc).2
      apply hseparated.untouched t ht
      rw [hpc]
      exact nofun

/-! ## Runs -/

def exampleNode : WorkerNode := ⟨2, "", .online, "", "", "", "", "", .healthy, none, none, none⟩

/-- A worker, with a job that an earlier process has left. -/
def exampleReconciling : Reconciling := ⟨[pendingRow 8 2 "b"], [], [exampleNode], [], none, []⟩

theorem initial_exampleReconciling : Initial exampleReconciling := by
  refine ⟨?_, rfl, rfl, rfl⟩
  decide

def exampleAnswer : RacingAction := .dispatch 0 (.answer (.ok ⟨1, 7, "a", .accepted, 1⟩))

/-- The worker knows no job; after that, an execution is dispatched. -/
def exampleCompared : Reconciling :=
  (exec step Separate exampleReconciling
    [.reconcile, .reconciling (.inventory (some [])), .reconciling (.next true),
      .reconciling (.next true)]).getD exampleReconciling

def exampleAccepted : Reconciling :=
  (exec step Separate exampleCompared
    [.reconciling (.missing 8), .reconciling (.next true), .reconciling (.next true),
      .start 1 2 "a", .dispatch 0 .create, exampleAnswer]).getD exampleCompared

/-- The job of the earlier process is missing, and the acceptance is recorded. -/
theorem acceptance_recorded : createdSince (.inventory 2) 8 exampleCompared.log = false ∧
    exampleAccepted.jobs.map (fun job => job.dispatchState) = [.indeterminate, .pending] ∧
    (recordAcceptance exampleAccepted.jobs 1 7 (asI64 1)).2 = true := by
  have hcompared : exec step Separate exampleReconciling
      [.reconcile, .reconciling (.inventory (some [])), .reconciling (.next true),
        .reconciling (.next true)] = some exampleCompared := rfl
  have haccepted : exec step Separate exampleCompared
      [.reconciling (.missing 8), .reconciling (.next true), .reconciling (.next true),
        .start 1 2 "a", .dispatch 0 .create, exampleAnswer] = some exampleAccepted := rfl
  have hreach : Reachable step Separate Initial exampleCompared :=
    reachable_of_exec initial_exampleReconciling hcompared
  have hreach' := hreach.runs (runs_of_exec haccepted)
  refine ⟨?_, rfl, ?_⟩
  · exact ((reconciliation_races exampleCompared).2 hreach).1 _ 2 8 _ rfl rfl rfl
  · apply ((reconciliation_races exampleAccepted).2 hreach').2 ⟨1, 2, "a", .accepted 7 1⟩ _ 7 1 rfl
    exact mem_cons_self

/-- A job that the worker has accepted is recorded as indeterminate, since its row was inserted
    between the inventory and the read of the expected rows, and its acceptance is lost. -/
theorem running_job_lost : ∃ s r s', Reachable step anyStep Initial s ∧ s.reconcile = some r ∧
      r.workers.head? = some 2 ∧ s.step (.reconciling (.missing 1)) = some s' ∧
      createdSince (.inventory 2) 1 s.log = true ∧ (∃ t ∈ s'.dispatches, t.pc = .accepted 7 1 ∧
        (recordAcceptance s'.jobs t.executionId 7 (asI64 1)).2 = false) := by
  have hrun : exec step anyStep exampleReconciling
      [.reconcile, .reconciling (.inventory (some [])), .start 1 2 "a", .dispatch 0 .create,
        .reconciling (.next true), exampleAnswer, .reconciling (.next true)] = some _ := rfl
  refine ⟨_, _, _, reachable_of_exec initial_exampleReconciling hrun, rfl, rfl, rfl, rfl, ?_⟩
  exact ⟨⟨1, 2, "a", .accepted 7 1⟩, List.mem_cons_self, rfl, rfl⟩

end Reconciling

end VibeKanban.Coordinator

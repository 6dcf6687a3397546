import VibeKanban.Ledger.Dispatcher

/-!
# What a step of the dispatcher writes

The invariants of the ledger are proved from the effects of the steps.

* `effect_of_step`: every action has one of a few effects on the rows, the tasks and the log.
-/

namespace VibeKanban.Ledger

open Cluster Lib Option

/-! ## Statements on one row -/

section

variable {rows : Rows} {id : Uuid} {from' : DeliveryState → Bool}
  {f : IssueCommentDelivery → IssueCommentDelivery} {Q : IssueCommentDelivery → Prop}

theorem selects_iff {r : IssueCommentDelivery} :
    (r.id == id && from' r.state) = true ↔ r.id = id ∧ from' r.state = true := by
  rw [Bool.and_eq_true, beq_iff_eq]

theorem forall_updateRow (h : ∀ r ∈ rows, r.id = id → from' r.state = true → Q (f r))
    (hrest : ∀ r ∈ rows, (r.id = id → from' r.state = false) → Q r) :
    ∀ r ∈ (updateRow rows id from' f).1, Q r := by
  apply forall_mem_update
  · intro r hr hp
    obtain ⟨hid, hfrom⟩ := selects_iff.1 hp
    exact h r hr hid hfrom
  · intro r hr hp
    apply hrest r hr
    intro hid
    by_contra hfrom
    rw [selects_iff.2 ⟨hid, Bool.not_eq_false _ ▸ hfrom⟩] at hp
    cases hp

theorem exists_updateRow (h : ∃ r ∈ rows, Q r)
    (hf : ∀ r ∈ rows, r.id = id → from' r.state = true → Q r → Q (f r)) :
    ∃ r ∈ (updateRow rows id from' f).1, Q r := by
  apply exists_mem_update h
  intro r hr hp
  obtain ⟨hid, hfrom⟩ := selects_iff.1 hp
  exact hf r hr hid hfrom

theorem updateRow_applied (hkey : Keyed IssueCommentDelivery.id rows) :
    (updateRow rows id from' f).2 = true ↔ ∃ r ∈ rows, r.id = id ∧ from' r.state = true := by
  show (affected _ rows == 1) = true ↔ _
  rw [beq_iff_eq, affected_eq_one_iff hkey (k := id) fun r hp => (selects_iff.1 hp).1]
  exact exists_congr fun r => and_congr_right fun _ => selects_iff

theorem updateRow_not_applied (hkey : Keyed IssueCommentDelivery.id rows)
    (h : (updateRow rows id from' f).2 ≠ true) : (updateRow rows id from' f).1 = rows := by
  apply update_eq_self
  intro r hr
  by_contra hp
  apply h
  rw [updateRow_applied hkey]
  exact ⟨r, hr, selects_iff.1 (Bool.not_eq_false _ ▸ hp)⟩

end

/-! ## Rows that stay as they are -/

/-- What no statement but a resolution, a claim or the end of a dispatch changes in a row; a
    deleted session or execution is forgotten. -/
structure Kept (r r' : IssueCommentDelivery) : Prop where
  id : r'.id = r.id
  commentId : r'.commentId = r.commentId
  hopCount : r'.hopCount = r.hopCount
  attemptCount : r'.attemptCount = r.attemptCount
  sessionId : r'.sessionId = r.sessionId ∨ r'.sessionId = none
  execution : r'.executionProcessId = r.executionProcessId ∨ r'.executionProcessId = none

theorem Kept.refl (r : IssueCommentDelivery) : Kept r r := ⟨rfl, rfl, rfl, rfl, .inl rfl, .inl rfl⟩

/-- A statement that changes no state. -/
def Touches (rows rows' : Rows) : Prop :=
  ∃ p f, (∀ r, Kept r (f r) ∧ (f r).state = r.state) ∧ rows' = update p f rows

theorem Touches.refl (rows : Rows) : Touches rows rows := by
  refine ⟨fun _ => false, fun r => r, fun r => ⟨Kept.refl r, rfl⟩, ?_⟩
  exact (update_eq_self fun _ _ => rfl).symm

theorem Touches.update {rows : Rows} {p : IssueCommentDelivery → Bool}
    {f : IssueCommentDelivery → IssueCommentDelivery}
    (h : ∀ r, Kept r (f r) ∧ (f r).state = r.state) : Touches rows (Lib.update p f rows) :=
  ⟨p, f, h, rfl⟩

/-- How a row leaves `dispatching`. -/
structure Finished (r r' : IssueCommentDelivery) : Prop where
  id : r'.id = r.id
  commentId : r'.commentId = r.commentId
  hopCount : r'.hopCount = r.hopCount
  attemptCount : r'.attemptCount = r.attemptCount
  sessionId : r'.sessionId = r.sessionId
  execution : r'.state = .delivered ∨ r'.executionProcessId = r.executionProcessId
  left : r'.state ≠ .dispatching

/-- The outcomes after which a row may be claimed again. -/
def Outcome.retries : Outcome → Bool
  | .retryOrFail _ _ _ => true
  | _ => false

namespace Dispatcher

/-! ## The end of a dispatch -/

theorem retryDelay_le {attempt : ℕ} {delay : Timestamp} (h : retryDelay attempt = some delay) :
    attempt ≤ 2 := by
  unfold retryDelay at h
  split at h
  · omega
  · omega
  · cases h

theorem finishDispatch_finishes (rows : Rows) (id : Uuid) (state : DeliveryState)
    (reason : Option DeliveryReason) (error : Option String) (nextAttemptAt : Option Timestamp)
    (h : state ≠ .dispatching) : ∃ f, (finishDispatch rows id state reason error nextAttemptAt).1 =
        (updateRow rows id isDispatching f).1 ∧
      (∀ r, Finished r (f r)) ∧ ∀ r, (f r).state = state :=
  ⟨_, rfl, fun _ => ⟨rfl, rfl, rfl, rfl, rfl, .inr rfl, h⟩, fun _ => rfl⟩

theorem markDelivered_finishes (rows : Rows) (id executionProcessId : Uuid) (message : String)
    (commentUpdatedAt : Option Timestamp) :
    ∃ f, (markDelivered rows id executionProcessId message commentUpdatedAt).1 =
        (updateRow rows id isDispatching f).1 ∧
      (∀ r, Finished r (f r)) ∧ ∀ r, (f r).state = .delivered :=
  ⟨_, rfl, fun _ => ⟨rfl, rfl, rfl, rfl, rfl, .inl rfl, nofun⟩, fun _ => rfl⟩

/-- A task leaves a claimed row for good, or makes it pending after its first or second attempt. -/
theorem settle_finishes (rows : Rows) (row : IssueCommentDelivery) (outcome : Outcome) :
    ∃ f, settle rows row outcome = (updateRow rows row.id isDispatching f).1 ∧
      (∀ r, Finished r (f r)) ∧
      ((∀ r, (f r).state ≠ .pending) ∨ outcome.retries = true ∧ row.attemptCount ≤ 1) := by
  have hend (state : DeliveryState) (reason : Option DeliveryReason) (error : Option String)
      (h : state ≠ .dispatching ∧ state ≠ .pending) :
      ∃ f, (finishDispatch rows row.id state reason error none).1 =
          (updateRow rows row.id isDispatching f).1 ∧
        (∀ r, Finished r (f r)) ∧
        ((∀ r, (f r).state ≠ .pending) ∨ outcome.retries = true ∧ row.attemptCount ≤ 1) := by
    obtain ⟨f, hf, hfinished, hstate⟩ :=
      finishDispatch_finishes rows row.id state reason error none h.1
    exact ⟨f, hf, hfinished, .inl fun r => hstate r ▸ h.2⟩
  cases outcome with
  | delivered executionProcessId message commentUpdatedAt =>
    obtain ⟨f, hf, hfinished, hstate⟩ :=
      markDelivered_finishes rows row.id executionProcessId message commentUpdatedAt
    exact ⟨f, hf, hfinished, .inl fun r => hstate r ▸ nofun⟩
  | uncertain executionProcessId | commentDeleted | unauthorized error | noTarget reason =>
      exact hend _ _ _ ⟨nofun, nofun⟩
  | retryOrFail reason error now =>
    show ∃ f, retryOrFail rows row reason error now = _ ∧ _
    unfold retryOrFail
    cases hdelay : retryDelay (row.attemptCount + 1) with
    | none => exact hend _ _ _ ⟨nofun, nofun⟩
    | some delay =>
      obtain ⟨f, hf, hfinished, hstate⟩ := finishDispatch_finishes rows row.id .pending
        (some .retryScheduled) (some error) (some (now + delay)) nofun
      have hle := retryDelay_le hdelay
      exact ⟨f, hf, hfinished, .inr ⟨rfl, by omega⟩⟩

/-! ## Resolutions -/

/-- The resolutions that the dispatcher may write: whether an agent posted the comment, the
    delivery that the hop count was taken from, the state and the hop count. -/
inductive Resolves (s : Dispatcher) : Bool → Option Uuid → DeliveryState → ℤ → Prop where
  | request {r : RequestTask} {ancestor : Option IssueCommentDelivery} (mem : r ∈ s.requests)
      (pc : r.pc = .resolving ancestor)
      (resolved : Except (DeliveryReason × String) ResolvedCandidates) :
      Resolves s r.agentOrigin (ancestor.map fun row => row.id)
        (r.resolution ancestor resolved).state
        (r.resolution ancestor resolved).hopCount
  | subtask {t : Subtask} (mem : t ∈ s.subtasks)
      (resolved : Except (DeliveryReason × String) ResolvedCandidates) :
      Resolves s true t.ancestor (subtaskResolution t (t.resolution resolved)).state
        (subtaskResolution t (t.resolution resolved)).hopCount
  | wakeup : Resolves s false none .pending 0

/-- A resolution leaves the row to nobody, and one without an answer from the server leaves no row
    pending. -/
theorem resolve_state (hop : Except DeliveryReason ℤ)
    (resolved : Except (DeliveryReason × String) ResolvedCandidates)
    (explicitSessionId originSessionId : Option Uuid) :
    let state := (Ledger.resolve hop resolved explicitSessionId originSessionId).state
    (state ≠ .dispatching ∧ state ≠ .delivered) ∧ state ≠ .cancelled ∧
      (resolved.toOption = none → state ≠ .pending) := by
  unfold Ledger.resolve
  split
  · simp [outcome]
  · split
    · simp [outcome]
    · split
      · simp [outcome]
      · split <;> simp [outcome, Except.toOption]

variable {agentOrigin : Bool} {ancestor : Option Uuid}

theorem Resolves.state {s : Dispatcher}
    {state : DeliveryState} {hopCount : ℤ} (h : Resolves s agentOrigin ancestor state hopCount) :
    state ≠ .dispatching ∧ state ≠ .delivered := by
  cases h with
  | request mem pc resolved => exact (resolve_state _ _ _ _).1
  | subtask mem resolved =>
    unfold subtaskResolution
    split
    · exact (resolve_state _ _ _ _).1
    · exact ⟨nofun, nofun⟩
  | wakeup => exact ⟨nofun, nofun⟩

/-! ## Effects -/

inductive Effect (s : Dispatcher) :
    DispatcherAction → Rows → List DispatchTask → List LedgerEvent → Prop where
  | touched {a : DispatcherAction} {rows : Rows} (touches : Touches s.rows rows) :
      Effect s a rows s.tasks s.log
  | started {σ : Uuid} {now : Timestamp} {due : Rows} (free : ∀ t ∈ s.tasks, t.sessionId ≠ σ)
      (listed : due.Subperm (listDue s.rows σ now)) :
      Effect s (.start σ now due) s.rows (s.tasks ++ [⟨σ, due, [], false⟩]) s.log
  | stopped {σ : Uuid} :
      Effect s (.task σ .stop) s.rows (delete (fun u => u.sessionId == σ) s.tasks) s.log
  | crashed : Effect s .crash s.rows [] s.log
  | passed {a : TaskAction} {t : DispatchTask} {due : Rows} {delivering : Bool} {rows : Rows}
      (mem : t ∈ s.tasks) (rest : due.Sublist t.due) (touches : Touches s.rows rows) :
      Effect s (.task t.sessionId a) rows
        (s.setTask { t with due := due, delivering := delivering }).tasks s.log
  | finished {reason : DeliveryReason} {t : DispatchTask} {row : IssueCommentDelivery} {due : Rows}
      (mem : t ∈ s.tasks) (first : t.due = row :: due) :
      Effect s (.task t.sessionId (.finish reason)) (finishPending s.rows row.id .noTarget reason).1
        (s.setTask { t with due := due }).tasks s.log
  | claimed {t : DispatchTask} {row : IssueCommentDelivery} {due : Rows} (mem : t ∈ s.tasks)
      (first : t.due = row :: due) (applied : (claim s.rows row.id).2 = true) :
      Effect s (.task t.sessionId .claim) (claim s.rows row.id).1
        (s.setTask { t with due := due, claimed := t.claimed ++ [row] }).tasks
        (.claimed row.id :: s.log)
  | settled {t : DispatchTask} {row : IssueCommentDelivery} {outcome : Outcome}
      {f : IssueCommentDelivery → IssueCommentDelivery} (mem : t ∈ s.tasks)
      (held : row ∈ t.claimed) (finished : ∀ r, Finished r (f r))
      (retried : (∀ r, (f r).state ≠ .pending) ∨ row.attemptCount ≤ 1) :
      Effect s (.task t.sessionId (.settle row.id outcome))
        (updateRow s.rows row.id isDispatching f).1
        (s.setTask { t with claimed := t.claimed.filter fun c => c.id ≠ row.id }).tasks s.log
  | cancelled {id : Uuid} {error : String} :
      Effect s (.cancelWakeup id error) (Ledger.cancelWakeup s.rows id error).1 s.tasks s.log
  | inserted {a : DispatcherAction} {row : IssueCommentDelivery} {agentOrigin : Bool}
      {ancestor : Option Uuid} (fresh : ∀ r ∈ s.rows, r.id ≠ row.id)
      (first : ∀ r ∈ s.rows, r.commentId ≠ row.commentId)
      (resolves : Resolves s agentOrigin ancestor row.state row.hopCount)
      (attempts : row.attemptCount = 0) (execution : row.executionProcessId = none) :
      Effect s a (s.rows ++ [row]) s.tasks (.resolved row.id agentOrigin ancestor :: s.log)
  | resolved {i : ℕ} {resolved : Except (DeliveryReason × String) ResolvedCandidates}
      {newId : Uuid} {r : RequestTask} {row : IssueCommentDelivery} {resolution : Resolution}
      {agentOrigin : Bool} {ancestor : Option Uuid} (request : s.requests[i]? = some r)
      (existing : r.existing = some row)
      (resolves : Resolves s agentOrigin ancestor resolution.state resolution.hopCount)
      (applied : (applyResolution s.rows row.id resolution).2 = true) :
      Effect s (.resolve i resolved newId) (applyResolution s.rows row.id resolution).1 s.tasks
        (.resolved row.id agentOrigin ancestor :: s.log)
  | recovered {id : Uuid} {attempt : EarlierAttempt}
      {f : IssueCommentDelivery → IssueCommentDelivery} (finished : ∀ r, Finished r (f r))
      (final : ∀ r, (f r).state ≠ .pending) :
      Effect s (.recover id attempt) (updateRow s.rows id isDispatching f).1 s.tasks s.log
  | returned {id : Uuid} {attempt : EarlierAttempt}
      {f : IssueCommentDelivery → IssueCommentDelivery} (finished : ∀ r, Finished r (f r)) :
      Effect s (.recover id attempt) (updateRow s.rows id isDispatching f).1 s.tasks
        (.returned id :: s.log)

variable {s s' : Dispatcher} {a : DispatcherAction}
  {t : DispatchTask} {row : IssueCommentDelivery}
  {resolved : Except (DeliveryReason × String) ResolvedCandidates}

theorem Effect.unchanged {a : DispatcherAction} : Effect s a s.rows s.tasks s.log :=
  .touched (Touches.refl s.rows)

/-! ## The effects of a dispatch task -/

theorem effect_of_dueStep {due : Rows}
    {a : TaskAction} (ht : t ∈ s.tasks) (hfirst : t.due = row :: due)
    (h : s.dueStep t row due a = some s') :
    Effect s (.task t.sessionId a) s'.rows s'.tasks s'.log := by
  have hrest : due.Sublist t.due := hfirst ▸ List.sublist_cons_self row due
  cases a with
  | finish reason =>
    simp only [dueStep] at h
    split_ifs at h
    cases h
    exact .finished ht hfirst
  | wait reason =>
    simp only [dueStep] at h
    split_ifs at h <;> cases h
    · exact .passed ht hrest
        (Touches.update fun r => ⟨⟨rfl, rfl, rfl, rfl, .inl rfl, .inl rfl⟩, rfl⟩)
    · exact .passed ht hrest (Touches.refl s.rows)
  | skip =>
    cases h
    exact .passed ht hrest (Touches.refl s.rows)
  | claim =>
    simp only [dueStep] at h
    split_ifs at h with happlied <;> cases h
    · exact .claimed ht hfirst happlied
    · exact .passed ht hrest (Touches.refl s.rows)
  | deliver => cases h
  | snapshot id message commentUpdatedAt => cases h
  | launch turnId => cases h
  | settle id outcome => cases h
  | stop => cases h

theorem effect_of_deliverStep {a : TaskAction} (ht : t ∈ s.tasks)
    (h : s.deliverStep t a = some s') : Effect s (.task t.sessionId a) s'.rows s'.tasks s'.log := by
  cases a with
  | snapshot id message commentUpdatedAt =>
    obtain ⟨row, hrow, rfl⟩ := map_eq_some_iff.1 h
    exact .touched (Touches.update fun r => ⟨⟨rfl, rfl, rfl, rfl, .inl rfl, .inl rfl⟩, rfl⟩)
  | launch turnId =>
    simp only [deliverStep] at h
    split_ifs at h
    cases h
    exact .unchanged
  | settle id outcome =>
    obtain ⟨row, hrow, rfl⟩ := map_eq_some_iff.1 h
    obtain ⟨hmem, hid⟩ := find?_some hrow
    obtain rfl := beq_iff_eq.1 hid
    obtain ⟨f, hsettle, hfinished, hretried⟩ := settle_finishes s.rows row outcome
    show Effect s _ (settle s.rows row outcome) _ _
    rw [hsettle]
    exact .settled ht hmem hfinished (hretried.imp_right And.right)
  | finish reason => cases h
  | wait reason => cases h
  | skip => cases h
  | claim => cases h
  | deliver => cases h
  | stop => cases h

theorem effect_of_taskStep {a : TaskAction} (ht : t ∈ s.tasks)
    (h : s.taskStep t a = some s') : Effect s (.task t.sessionId a) s'.rows s'.tasks s'.log := by
  unfold taskStep at h
  split at h
  · cases h
    exact .stopped
  · split_ifs at h
    cases h
    exact .passed ht (List.Sublist.refl _) (Touches.refl s.rows)
  · split_ifs at h
    · exact effect_of_deliverStep ht h
    · split at h
      · exact effect_of_dueStep ht ‹_› h
      · cases h

/-! ## The effects of requests, subtasks and recovery -/

theorem findByCommentId_none {rows : Rows} {commentId : Uuid}
    (h : findByCommentId rows commentId = none) : ∀ r ∈ rows, r.commentId ≠ commentId := by
  intro r hr heq
  have hnot := find?_none h r hr
  rw [heq, beq_self_eq_true] at hnot
  cases hnot

theorem effect_of_insert {a : DispatcherAction} {id : Uuid} {new : NewIssueCommentDelivery}
    {resolution : Resolution} (hid : id ∉ s.rows.map IssueCommentDelivery.id)
    (hresolves : Resolves s agentOrigin ancestor resolution.state resolution.hopCount) :
    Effect s a (insertIfAbsent s.rows id new resolution).1 s.tasks
      (if (insertIfAbsent s.rows id new resolution).2 then
        .resolved id agentOrigin ancestor :: s.log else s.log) := by
  unfold insertIfAbsent
  cases hfind : findByCommentId s.rows new.commentId with
  | some row => exact .unchanged
  | none =>
    have hfresh : ∀ r ∈ s.rows, r.id ≠ (newRow id new resolution).id := by
      intro r hr heq
      exact hid (List.mem_map.2 ⟨r, hr, heq⟩)
    exact .inserted hfresh (findByCommentId_none hfind) hresolves rfl rfl

theorem effect_of_resolveRequest {i : ℕ} {r : RequestTask} {id : Uuid}
    (hkey : Keyed IssueCommentDelivery.id s.rows) (hr : s.requests[i]? = some r)
    (h : s.resolveRequest i r resolved id = some s') :
    Effect s (.resolve i resolved id) s'.rows s'.tasks s'.log := by
  unfold resolveRequest at h
  split at h
  · rename_i ancestor hpc
    have hresolves := Resolves.request (List.mem_of_getElem? hr) hpc resolved
    split at h
    · rename_i row hrow
      cases h
      by_cases happlied : (applyResolution s.rows row.id (r.resolution ancestor resolved)).2 = true
      · show Effect s _ _ _ (if _ then _ else _)
        rw [if_pos happlied]
        exact .resolved hr hrow hresolves happlied
      · show Effect s _ _ _ (if _ then _ else _)
        rw [if_neg happlied]
        show Effect s _ (applyResolution s.rows row.id (r.resolution ancestor resolved)).1 _ _
        rw [show (applyResolution s.rows row.id (r.resolution ancestor resolved)).1 = s.rows from
          updateRow_not_applied hkey happlied]
        exact .unchanged
    · split_ifs at h with hid
      cases h
      exact effect_of_insert hid hresolves
  · cases h

theorem effect_of_subtaskResult {i : ℕ} {t : Subtask} {id : Uuid}
    (ht : t ∈ s.subtasks) (h : s.subtaskResult t resolved id = some s') :
    Effect s (.subtaskResult i resolved id) s'.rows s'.tasks s'.log := by
  simp only [subtaskResult] at h
  split at h
  · rename_i hid
    cases h
  · rename_i hid
    split at h
    · rename_i hfailed
      cases h
      exact .unchanged
    · cases h
      exact effect_of_insert hid (.subtask ht resolved)

theorem effect_of_recoverRow {attempt : EarlierAttempt}
    (hkey : Keyed IssueCommentDelivery.id s.rows) (hrow : row ∈ s.rows)
    (hstate : row.state = .dispatching) :
    Effect s (.recover row.id attempt) (s.recoverRow row attempt).rows
      (s.recoverRow row attempt).tasks (s.recoverRow row attempt).log := by
  unfold recoverRow
  split
  · obtain ⟨f, hf, hfinished, hfinal⟩ := finishDispatch_finishes s.rows row.id .failed
      (some .launchUncertain) (some (uncertainError _)) none nofun
    show Effect s _ (finishDispatch s.rows row.id _ _ _ _).1 _ _
    rw [hf]
    exact .recovered hfinished fun r => hfinal r ▸ nofun
  · obtain ⟨f, hf, hfinished, hfinal⟩ := markDelivered_finishes s.rows row.id _
      (row.deliveredMessage.getD "") row.deliveredCommentUpdatedAt
    show Effect s _ (markDelivered s.rows row.id _ _ _).1 _ _
    rw [hf]
    exact .recovered hfinished fun r => hfinal r ▸ nofun
  · have happlied : (finishDispatch s.rows row.id .pending (some .retryScheduled)
        (some "delivery was interrupted by a server restart") none).2 = true :=
      (updateRow_applied hkey).2 ⟨row, hrow, rfl, decide_eq_true hstate⟩
    obtain ⟨f, hf, hfinished, _⟩ := finishDispatch_finishes s.rows row.id .pending
      (some .retryScheduled) (some "delivery was interrupted by a server restart") none nofun
    show Effect s _ (finishDispatch s.rows row.id _ _ _ _).1 _ (if _ then _ else _)
    rw [if_pos happlied, hf]
    exact .returned hfinished

/-! ## The effect of a step -/

theorem effect_of_step (hkey : Keyed IssueCommentDelivery.id s.rows) (h : s.step a = some s') :
    Effect s a s'.rows s'.tasks s'.log := by
  cases a with
  | start sessionId now due =>
    simp only [step, start] at h
    split_ifs at h with hstart
    cases h
    exact .started hstart.1 hstart.2
  | task sessionId a =>
    obtain ⟨t, ht, htask⟩ := bind_eq_some_iff.1 h
    obtain ⟨hmem, hid⟩ := find?_some ht
    obtain rfl := beq_iff_eq.1 hid
    exact effect_of_taskStep hmem htask
  | request commentId issueId targetSessionId source
  | accept notificationId issueId parentSessionId | dropTurn id =>
    cases h
    exact .unchanged
  | find i originSessionId | readTurn i | readDelivery i =>
    obtain ⟨r, hr, h⟩ := bind_eq_some_iff.1 h
    simp only [find, readTurn, readDelivery] at h
    repeat' split at h
    all_goals cases h <;> exact .unchanged
  | resolve i resolved id =>
    obtain ⟨r, hr, h⟩ := bind_eq_some_iff.1 h
    exact effect_of_resolveRequest hkey hr h
  | dropRequest i | acceptTurn i =>
    obtain ⟨r, hr, rfl⟩ := map_eq_some_iff.1 h
    exact .unchanged
  | acceptDelivery i =>
    obtain ⟨acceptance, hr, h⟩ := bind_eq_some_iff.1 h
    obtain ⟨turnId, hturn, rfl⟩ := map_eq_some_iff.1 h
    unfold acceptDelivery
    dsimp only
    cases nextHopCount true _ with
    | error reason | ok hopCount => exact .unchanged
  | subtaskResult i resolved id =>
    obtain ⟨t, ht, h⟩ := bind_eq_some_iff.1 h
    exact effect_of_subtaskResult (List.mem_of_getElem? ht) h
  | registerWakeup id workspaceId sessionId fireAt =>
    simp only [step] at h
    split_ifs at h with hnew
    cases h
    obtain ⟨hid, hcomment⟩ := not_or.1 hnew
    have hfresh : ∀ r ∈ s.rows, r.id ≠ id := by
      intro r hr heq
      exact hid (List.mem_map.2 ⟨r, hr, heq⟩)
    have hfirst : ∀ r ∈ s.rows, r.commentId ≠ id := by
      intro r hr heq
      exact hcomment (List.mem_map.2 ⟨r, hr, heq⟩)
    have hinserted : Effect s (.registerWakeup id workspaceId sessionId fireAt)
        (s.rows ++ [wakeupRow id workspaceId sessionId fireAt]) s.tasks
        (.resolved id false none :: s.log) := .inserted hfresh hfirst .wakeup rfl rfl
    exact hinserted
  | cancelWakeup id error =>
    cases h
    exact .cancelled
  | deferWakeup id nextAttemptAt error | deleteWorkspace id =>
    cases h
    exact .touched (Touches.update fun r => ⟨⟨rfl, rfl, rfl, rfl, .inl rfl, .inl rfl⟩, rfl⟩)
  | recover id attempt =>
    obtain ⟨row, hrow, hrecover⟩ := bind_eq_some_iff.1 h
    obtain ⟨hmem, hid⟩ := find?_some hrow
    obtain rfl := beq_iff_eq.1 hid
    split_ifs at hrecover with hstate
    cases hrecover
    exact effect_of_recoverRow hkey hmem hstate
  | turn id sessionId =>
    simp only [step] at h
    split_ifs at h
    cases h
    exact .unchanged
  | deleteSession id =>
    cases h
    exact .touched (Touches.update fun r => ⟨⟨rfl, rfl, rfl, rfl, .inr rfl, .inl rfl⟩, rfl⟩)
  | deleteExecution id =>
    cases h
    exact .touched (Touches.update fun r => ⟨⟨rfl, rfl, rfl, rfl, .inl rfl, .inr rfl⟩, rfl⟩)
  | crash =>
    cases h
    exact .crashed

end Dispatcher

end VibeKanban.Ledger

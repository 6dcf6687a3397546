import VibeKanban.Ledger.Attempts

/-!
# Hops of a delivery

The hop count of a row is set when the row is resolved: 0 where no agent posted the comment, and
otherwise one more than that of the latest delivery to the origin session.

* `agent_chains_bounded`: along the deliveries that hop counts were taken from, the hop count falls
  by one at each step.
-/

namespace VibeKanban.Ledger

open Cluster Lib Option List

/-! ## The hop count of a resolution -/

variable {agentOrigin : Bool} {hop : ℤ}

theorem nextHopCount_ok {originTurnHop : Option ℤ}
    (h : nextHopCount agentOrigin originTurnHop = .ok hop) : (agentOrigin = false ∧ hop = 0) ∨
      (agentOrigin = true ∧ hop ≤ maxAgentHops ∧ hop = originTurnHop.getD 0 + 1) := by
  unfold nextHopCount at h
  split_ifs at h with hagent
  · cases h
    exact .inl ⟨hagent, rfl⟩
  · refine .inr ⟨Bool.eq_true_of_not_eq_false hagent, ?_⟩
    cases originTurnHop with
    | none | some turnHop =>
      simp only at h
      split_ifs at h with hmax
      cases h
      exact ⟨Int.not_lt.1 hmax, rfl⟩

theorem resolve_pending {hop : Except DeliveryReason ℤ}
    {resolved : Except (DeliveryReason × String) ResolvedCandidates}
    {explicitSessionId originSessionId : Option Uuid}
    (h : (resolve hop resolved explicitSessionId originSessionId).state = .pending) :
    hop = .ok (resolve hop resolved explicitSessionId originSessionId).hopCount := by
  unfold resolve outcome at h ⊢
  cases hop with
  | error reason => cases h
  | ok hopCount =>
    cases resolved with
    | error e => cases h
    | ok resolved =>
      dsimp only at h ⊢
      cases hreason : resolved.unavailableReason with rw [hreason] at h
      | some reason => cases h
      | none =>
        dsimp only at h ⊢
        split at h
        · rfl
        all_goals cases h

/-! ## The delivery with the most hops -/

variable {rows : Rows} {row : IssueCommentDelivery}

theorem mostHops_mem {best : IssueCommentDelivery} (h : mostHops rows = some best) :
    best ∈ rows := by
  induction rows generalizing best with
  | nil => cases h
  | cons row rows ih =>
    unfold mostHops at h
    cases hrest : mostHops rows with rw [hrest] at h
    | none =>
      cases h
      exact mem_cons_self
    | some other =>
      dsimp only at h
      split_ifs at h <;> cases h
      · exact mem_cons_of_mem row (ih hrest)
      · exact mem_cons_self

theorem le_mostHops (h : row ∈ rows) :
    ∃ best, mostHops rows = some best ∧ row.hopCount ≤ best.hopCount := by
  induction rows with
  | nil => cases h
  | cons first rows ih =>
    unfold mostHops
    cases hrest : mostHops rows with
    | none =>
      rcases mem_cons.1 h with rfl | hmem
      · exact ⟨row, rfl, Int.le_refl _⟩
      · obtain ⟨best, hbest, _⟩ := ih hmem
        rw [hrest] at hbest
        cases hbest
    | some other =>
      by_cases hlt : first.hopCount < other.hopCount
      · refine ⟨other, if_pos hlt, ?_⟩
        rcases mem_cons.1 h with rfl | hmem
        · exact Int.le_of_lt hlt
        · obtain ⟨best, hbest, hle⟩ := ih hmem
          rw [hrest] at hbest
          cases hbest
          exact hle
      · refine ⟨first, if_neg hlt, ?_⟩
        rcases mem_cons.1 h with rfl | hmem
        · exact Int.le_refl _
        · obtain ⟨best, hbest, hle⟩ := ih hmem
          rw [hrest] at hbest
          cases hbest
          exact Int.le_trans hle (Int.not_lt.1 hlt)

theorem findByExecutionProcessId_some {executionProcessId : Uuid}
    (h : findByExecutionProcessId rows executionProcessId = some row) :
    row ∈ rows ∧ row.executionProcessId = some executionProcessId := by
  obtain ⟨hmem, hid⟩ := mem_filter.1 (mostHops_mem h)
  exact ⟨hmem, beq_iff_eq.1 hid⟩

namespace Dispatcher

variable {s s' : Dispatcher} {a : DispatcherAction} {turnId : Option Uuid}

/-! ## What requests and subtasks have read -/

def HasTurn (s : Dispatcher) (q : IssueCommentDelivery) : Prop :=
  q ∈ s.rows ∧ q.executionProcessId ≠ none

theorem hasTurn_of_find {q : IssueCommentDelivery}
    (h : (turnId.bind fun turnId => findByExecutionProcessId s.rows turnId) = some q) :
    s.HasTurn q := by
  obtain ⟨executionProcessId, _, hfind⟩ := bind_eq_some_iff.1 h
  obtain ⟨hmem, hid⟩ := findByExecutionProcessId_some hfind
  refine ⟨hmem, ?_⟩
  rw [hid]
  exact nofun

theorem taskStep_frame {t : DispatchTask} {a : TaskAction} (h : s.taskStep t a = some s') :
    s'.requests = s.requests ∧ s'.subtasks = s.subtasks := by
  have hdeliver (h : s.deliverStep t a = some s') :
      s'.requests = s.requests ∧ s'.subtasks = s.subtasks := by
    unfold deliverStep at h
    repeat' split at h
    all_goals first
      | cases h <;> exact ⟨rfl, rfl⟩
      | obtain ⟨row, _, rfl⟩ := map_eq_some_iff.1 h
        exact ⟨rfl, rfl⟩
  have hdue (row : IssueCommentDelivery) (due : Rows) (h : s.dueStep t row due a = some s') :
      s'.requests = s.requests ∧ s'.subtasks = s.subtasks := by
    unfold dueStep at h
    repeat' split at h
    all_goals cases h <;> exact ⟨rfl, rfl⟩
  unfold taskStep at h
  split at h
  · cases h
    exact ⟨rfl, rfl⟩
  · split_ifs at h
    cases h
    exact ⟨rfl, rfl⟩
  · split_ifs at h
    · exact hdeliver h
    · split at h
      · exact hdue _ _ h
      · cases h

/-- What requests and subtasks know about a delivery they knew before, or have just read. -/
structure Reads (s s' : Dispatcher) : Prop where
  requests : ∀ r ∈ s'.requests, ∀ q, r.pc = .resolving (some q) → r ∈ s.requests ∨ s.HasTurn q
  subtasks : ∀ t ∈ s'.subtasks, t ∈ s.subtasks ∨ ∃ ancestor : Option IssueCommentDelivery,
    (∀ q ∈ ancestor, s.HasTurn q) ∧
      nextHopCount true (ancestor.map fun row => row.hopCount) = .ok t.hopCount ∧
      t.ancestor = ancestor.map fun row => row.id

theorem Reads.same (hrequests : s'.requests = s.requests) (hsubtasks : s'.subtasks = s.subtasks) :
    Reads s s' := by
  constructor
  · intro r hr _ _
    rw [hrequests] at hr
    exact .inl hr
  · intro t ht
    rw [hsubtasks] at ht
    exact .inl ht

theorem Reads.set {i : ℕ} {r' : RequestTask} (hrequests : s'.requests = s.requests.set i r')
    (hread : ∀ q, r'.pc ≠ .resolving (some q) ∨ s.HasTurn q)
    (hsubtasks : s'.subtasks = s.subtasks) : Reads s s' := by
  constructor
  · intro r hr q hq
    rw [hrequests] at hr
    rcases mem_or_eq_of_mem_set hr with hold | rfl
    · exact .inl hold
    · exact (hread q).imp (fun hnot => absurd hq hnot) id
  · intro t ht
    rw [hsubtasks] at ht
    exact .inl ht

theorem reads_acceptDelivery {i : ℕ} {acceptance : Acceptance} :
    Reads s (s.acceptDelivery i acceptance turnId) := by
  unfold acceptDelivery
  dsimp only
  split
  · exact .same rfl rfl
  · rename_i hhop
    refine ⟨fun r hr _ _ => .inl hr, ?_⟩
    intro t ht
    rcases mem_append.1 ht with hold | hlast
    · exact .inl hold
    · obtain rfl := mem_singleton.1 hlast
      exact .inr ⟨_, fun q hq => hasTurn_of_find hq, hhop, rfl⟩

theorem reads_of_step (h : s.step a = some s') : Reads s s' := by
  cases a with
  | task sessionId a =>
    obtain ⟨t, _, htask⟩ := bind_eq_some_iff.1 h
    exact .same (taskStep_frame htask).1 (taskStep_frame htask).2
  | request commentId issueId targetSessionId source =>
    cases h
    refine ⟨?_, fun t ht => .inl ht⟩
    intro r hr q hq
    rcases mem_append.1 hr with hold | hlast
    · exact .inl hold
    · rw [mem_singleton.1 hlast] at hq
      cases hq
  | find i originSessionId | readTurn i | resolve i resolved id =>
    obtain ⟨r, _, h⟩ := bind_eq_some_iff.1 h
    simp only [find, readTurn, resolveRequest] at h
    repeat' split at h
    all_goals cases h <;> exact .set rfl (fun _ => .inl (by rintro ⟨⟩)) rfl
  | readDelivery i =>
    obtain ⟨r, _, hread⟩ := bind_eq_some_iff.1 h
    unfold readDelivery at hread
    split at hread <;> cases hread
    rename_i turnId hpc
    refine .set rfl ?_ rfl
    intro q
    by_cases hq : (turnId.bind fun turnId => findByExecutionProcessId s.rows turnId) = some q
    · exact .inr (hasTurn_of_find hq)
    · exact .inl fun hpc => hq (RequestPc.resolving.inj hpc)
  | dropRequest i =>
    obtain ⟨r, _, rfl⟩ := map_eq_some_iff.1 h
    exact .set rfl (fun _ => .inl (by rintro ⟨⟩)) rfl
  | acceptTurn i =>
    obtain ⟨acceptance, _, rfl⟩ := map_eq_some_iff.1 h
    exact .same rfl rfl
  | acceptDelivery i =>
    obtain ⟨acceptance, _, haccept⟩ := bind_eq_some_iff.1 h
    obtain ⟨turnId, _, rfl⟩ := map_eq_some_iff.1 haccept
    exact reads_acceptDelivery
  | subtaskResult i resolved id =>
    obtain ⟨t, _, hsubtask⟩ := bind_eq_some_iff.1 h
    simp only [subtaskResult] at hsubtask
    split_ifs at hsubtask <;> cases hsubtask <;> exact .same rfl rfl
  | start sessionId now due | registerWakeup id workspaceId sessionId fireAt | turn id sessionId =>
    simp only [step, start] at h
    split_ifs at h
    cases h
    exact .same rfl rfl
  | recover id attempt =>
    obtain ⟨row, _, hrecover⟩ := bind_eq_some_iff.1 h
    split_ifs at hrecover
    cases hrecover
    unfold recoverRow
    split <;> exact .same rfl rfl
  | crash =>
    cases h
    refine ⟨?_, fun t ht => .inl ht⟩
    intro r hr
    cases hr
  | _ =>
    cases h
    exact .same rfl rfl

/-! ## Where the hop counts come from -/

end Dispatcher

/-- The states in which a row is on its way to an agent, or was delivered. -/
def DeliveryState.isActive : DeliveryState → Bool
  | .pending | .dispatching | .delivered => true
  | _ => false

/-- The last resolution of a row: whether an agent posted the comment, and the delivery that the hop
    count was taken from. -/
def lastResolved (id : Uuid) : List LedgerEvent → Option (Bool × Option Uuid)
  | [] => none
  | .resolved i agentOrigin ancestor :: log =>
    if i = id then some (agentOrigin, ancestor) else lastResolved id log
  | .claimed _ :: log => lastResolved id log
  | .returned _ :: log => lastResolved id log

/-- A hop count that is right for the delivery it was taken from. -/
def Sourced (rows : Rows) : Bool → Option Uuid → ℤ → Prop
  | false, _, hop => hop = 0
  | true, none, hop => hop = 1
  | true, some ancestor, hop => 1 ≤ hop ∧ hop ≤ maxAgentHops ∧
      ∃ q ∈ rows, q.id = ancestor ∧ q.state = .delivered ∧ hop = q.hopCount + 1

variable {ancestor : Option Uuid}

theorem Sourced.bounds
    (h : Sourced rows agentOrigin ancestor hop) : 0 ≤ hop ∧ hop ≤ maxAgentHops := by
  unfold Sourced at h
  unfold maxAgentHops at h ⊢
  split at h
  · omega
  · omega
  · obtain ⟨hlow, hhigh, _⟩ := h
    omega

def KeepsDelivered (rows rows' : Rows) : Prop :=
  ∀ q ∈ rows, q.state = .delivered →
    ∃ q' ∈ rows', q'.id = q.id ∧ q'.state = .delivered ∧ q'.hopCount = q.hopCount

theorem Sourced.mono {rows' : Rows}
    (hkeeps : KeepsDelivered rows rows') (h : Sourced rows agentOrigin ancestor hop) :
    Sourced rows' agentOrigin ancestor hop := by
  unfold Sourced at h ⊢
  split at h
  · exact h
  · exact h
  · obtain ⟨hlow, hhigh, q, hq, hid, hdelivered, hhop⟩ := h
    obtain ⟨q', hq', hid', hdelivered', hhop'⟩ := hkeeps q hq hdelivered
    exact ⟨hlow, hhigh, q', hq', hid'.trans hid, hdelivered', hhop'.symm ▸ hhop⟩

/-- A row whose hop count is right, if it may still reach an agent or has reached one. -/
def HopOk (rows : Rows) (log : List LedgerEvent) (r : IssueCommentDelivery) : Prop :=
  r.state.isActive = true →
    ∃ agentOrigin ancestor, lastResolved r.id log = some (agentOrigin, ancestor) ∧
      Sourced rows agentOrigin ancestor r.hopCount

variable {rows rows' : Rows}

variable {id : Uuid} {log : List LedgerEvent} {e : LedgerEvent}

theorem lastResolved_other (h : e.id ≠ id) : lastResolved id (e :: log) = lastResolved id log := by
  cases e with
  | resolved i agentOrigin ancestor => exact if_neg h
  | claimed i => rfl
  | returned i => rfl

variable {r : IssueCommentDelivery}
  {f : IssueCommentDelivery → IssueCommentDelivery} {from' : DeliveryState → Bool}

theorem HopOk.other (h : HopOk rows log r) (hid : r.id ≠ e.id) : HopOk rows (e :: log) r := by
  intro hactive
  rw [lastResolved_other hid.symm]
  exact h hactive

theorem HopOk.kept {r' : IssueCommentDelivery} (h : HopOk rows log r)
    (hid : r'.id = r.id) (hhop : r'.hopCount = r.hopCount) (hactive : r.state.isActive = true) :
    HopOk rows log r' := by
  intro _
  rw [hid, hhop]
  exact h hactive

theorem HopOk.mono
    (hkeeps : KeepsDelivered rows rows') (h : HopOk rows log r) : HopOk rows' log r := by
  intro hactive
  obtain ⟨agentOrigin, ancestor, hlast, hsourced⟩ := h hactive
  exact ⟨agentOrigin, ancestor, hlast, hsourced.mono hkeeps⟩

theorem HopOk.resolved (hid : r.id = id)
    (h : r.state.isActive = true → Sourced rows agentOrigin ancestor r.hopCount) :
    HopOk rows (.resolved id agentOrigin ancestor :: log) r :=
  fun hactive => ⟨agentOrigin, ancestor, if_pos hid.symm, h hactive⟩

theorem HopOk.touches {p : IssueCommentDelivery → Bool}
    (hf : ∀ r, Kept r (f r) ∧ (f r).state = r.state) (h : ∀ r ∈ rows, HopOk rows' log r) :
    ∀ r ∈ update p f rows, HopOk rows' log r := by
  apply forall_mem_update
  · intro r hr _ hactive
    exact (h r hr).kept (hf r).1.id (hf r).1.hopCount ((hf r).2 ▸ hactive) hactive
  · exact fun r hr _ => h r hr

theorem HopOk.updateRow (hfrom : ∀ state, from' state = true → state.isActive = true)
    (hf : ∀ r, (f r).id = r.id ∧ (f r).hopCount = r.hopCount) (h : ∀ r ∈ rows, HopOk rows' log r) :
    ∀ r ∈ (Ledger.updateRow rows id from' f).1, HopOk rows' log r := by
  apply forall_updateRow
  · exact fun r hr _ hstate => (h r hr).kept (hf r).1 (hf r).2 (hfrom _ hstate)
  · exact fun r hr _ => h r hr

namespace Dispatcher

variable {s s' : Dispatcher} {a : DispatcherAction}

structure Hops (s : Dispatcher) : Prop where
  executions : ∀ r ∈ s.rows, r.executionProcessId ≠ none → r.state = .delivered
  rows : ∀ r ∈ s.rows, HopOk s.rows s.log r
  requests : ∀ r ∈ s.requests, ∀ q, r.pc = .resolving (some q) →
    ∃ q' ∈ s.rows, q'.id = q.id ∧ q'.state = .delivered ∧ q'.hopCount = q.hopCount
  subtasks : ∀ t ∈ s.subtasks, Sourced s.rows true t.ancestor t.hopCount

theorem keepsDelivered_step (hunique : Unique s) (h : s.step a = some s') :
    KeepsDelivered s.rows s'.rows := by
  intro q hq hdelivered
  obtain ⟨q', hq', hfollows⟩ := (effect_of_step hunique.ids h).follows q hq
  refine ⟨q', hq', hfollows.id, (hfollows.final (.inl hdelivered)).trans hdelivered, ?_⟩
  rcases hfollows.hopCount with heq | ⟨hresolvable, _⟩
  · exact heq
  · rw [hdelivered] at hresolvable
    cases hresolvable

theorem Hops.sourced (h : Hops s) {ancestor : Option IssueCommentDelivery} {agentOrigin : Bool}
    {hop : ℤ}
    (hread : ∀ q ∈ ancestor, ∃ q' ∈ s.rows, q'.id = q.id ∧ q'.state = .delivered ∧
      q'.hopCount = q.hopCount)
    (hnext : nextHopCount agentOrigin (ancestor.map fun row => row.hopCount) = .ok hop) :
    Sourced s.rows agentOrigin (ancestor.map fun row => row.id) hop := by
  rcases nextHopCount_ok hnext with ⟨rfl, rfl⟩ | ⟨rfl, hmax, hhop⟩
  · exact rfl
  · cases ancestor with
    | none => exact hhop
    | some q =>
      obtain ⟨q', hq', hid, hdelivered, hcount⟩ := hread q rfl
      obtain ⟨_, _, _, hsourced⟩ := h.rows q' hq' (hdelivered ▸ rfl)
      have hlow := hsourced.bounds.1
      have hsucc : hop = q'.hopCount + 1 := by
        rw [hcount]
        exact hhop
      exact ⟨by omega, hmax, q', hq', hid, hdelivered, hsucc⟩

variable {state : DeliveryState} {tasks : List DispatchTask} {chain : Rows}

theorem Hops.resolves (h : Hops s) {agentOrigin : Bool} {ancestor : Option Uuid}
    {hop : ℤ} (hresolves : Resolves s agentOrigin ancestor state hop)
    (hactive : state.isActive = true) : Sourced s.rows agentOrigin ancestor hop := by
  have hnot := hresolves.state
  have hpending : state = .pending := by
    unfold DeliveryState.isActive at hactive
    split at hactive
    · rfl
    · exact absurd rfl hnot.1
    · exact absurd rfl hnot.2
    · cases hactive
  cases hresolves with
  | @request r ancestor mem pc resolved =>
    apply h.sourced
    · intro q hq
      exact h.requests r mem q (pc.trans (congrArg _ hq))
    · exact resolve_pending hpending
  | @subtask t mem resolved =>
    have hhop : (subtaskResolution t (t.resolution resolved)).hopCount = t.hopCount := by
      unfold subtaskResolution
      split <;> rfl
    rw [hhop]
    exact h.subtasks t mem
  | wakeup => exact rfl

/-! ## The hop counts after a step -/

theorem executions_updateRow {id : Uuid} (hfrom : from' .delivered = false)
    (hf : ∀ r, (f r).state = .delivered ∨ (f r).executionProcessId = r.executionProcessId)
    (h : ∀ r ∈ rows, r.executionProcessId ≠ none → r.state = .delivered) :
    ∀ r ∈ (updateRow rows id from' f).1, r.executionProcessId ≠ none → r.state = .delivered := by
  apply forall_updateRow
  · intro r hr _ hstate hexecution
    rcases hf r with hdelivered | hsame
    · exact hdelivered
    · rw [hsame] at hexecution
      rw [h r hr hexecution, hfrom] at hstate
      cases hstate
  · exact fun r hr _ => h r hr

theorem executions_touches (ht : Touches rows rows')
    (h : ∀ r ∈ rows, r.executionProcessId ≠ none → r.state = .delivered) :
    ∀ r ∈ rows', r.executionProcessId ≠ none → r.state = .delivered := by
  obtain ⟨p, f, hf, rfl⟩ := ht
  apply forall_mem_update
  · intro r hr _ hexecution
    rw [(hf r).2]
    apply h r hr
    rcases (hf r).1.execution with hsame | hnone
    · rw [← hsame]
      exact hexecution
    · exact absurd hnone hexecution
  · exact fun r hr _ => h r hr

theorem Hops.executions_step {log : List LedgerEvent} (h : Hops s)
    (heffect : Effect s a rows tasks log) :
    ∀ r ∈ rows, r.executionProcessId ≠ none → r.state = .delivered := by
  cases heffect with
  | touched touches | passed mem rest touches => exact executions_touches touches h.executions
  | started free listed | stopped | crashed => exact h.executions
  | finished mem first | claimed mem first applied | cancelled =>
      exact executions_updateRow rfl (fun _ => .inr rfl) h.executions
  | settled mem held finished retried | recovered finished final | returned finished =>
    exact executions_updateRow rfl (fun r => (finished r).execution) h.executions
  | inserted fresh first resolves attempts execution =>
    intro r hr hexecution
    rcases mem_append.1 hr with hold | hlast
    · exact h.executions r hold hexecution
    · rw [mem_singleton.1 hlast] at hexecution
      exact absurd execution hexecution
  | resolved request existing resolves applied =>
    exact executions_updateRow rfl (fun _ => .inr rfl) h.executions

theorem isActive_of_pending (h : isPending state = true) : state.isActive = true := by
  rw [isPending_iff.1 h]
  rfl

theorem isActive_of_dispatching (h : isDispatching state = true) : state.isActive = true := by
  rw [isDispatching_iff.1 h]
  rfl

theorem Effect.hopOk {after : Rows} {log : List LedgerEvent}
    (h : Effect s a rows tasks log) (hkey : Keyed IssueCommentDelivery.id s.rows)
    (hold : ∀ r ∈ s.rows, HopOk after s.log r)
    (hresolves : ∀ agentOrigin ancestor state hop, Resolves s agentOrigin ancestor state hop →
      state.isActive = true → Sourced after agentOrigin ancestor hop) :
    ∀ r ∈ rows, HopOk after log r := by
  cases h with
  | touched touches | passed mem rest touches =>
    obtain ⟨p, f, hf, rfl⟩ := touches
    exact HopOk.touches hf hold
  | started free listed => exact hold
  | stopped => exact hold
  | crashed => exact hold
  | finished mem first | claimed mem first applied | cancelled =>
    exact HopOk.updateRow (fun _ => isActive_of_pending) (fun _ => ⟨rfl, rfl⟩) hold
  | settled mem held finished retried | recovered finished final | returned finished =>
    exact HopOk.updateRow (fun _ => isActive_of_dispatching)
      (fun r => ⟨(finished r).id, (finished r).hopCount⟩) hold
  | inserted fresh first resolves attempts execution =>
    intro r hr
    rcases mem_append.1 hr with hmem | hlast
    · exact (hold r hmem).other (fresh r hmem)
    · obtain rfl := mem_singleton.1 hlast
      exact HopOk.resolved rfl (hresolves _ _ _ _ resolves)
  | resolved request existing resolves applied =>
    apply forall_updateRow
    · intro r hr hid _
      exact HopOk.resolved hid (hresolves _ _ _ _ resolves)
    · intro r hr hnot
      exact (hold r hr).other (not_selected hkey applied hr hnot)

theorem Hops.step (h : Hops s) (hunique : Unique s) (hstep : s.step a = some s') : Hops s' := by
  have hkeeps := keepsDelivered_step hunique hstep
  have heffect := effect_of_step hunique.ids hstep
  have hreads := reads_of_step hstep
  -- what was read as the delivery of a turn is a delivered row
  have hturn : ∀ q, s.HasTurn q → ∃ q' ∈ s.rows, q'.id = q.id ∧ q'.state = .delivered ∧
      q'.hopCount = q.hopCount :=
    fun q hq => ⟨q, hq.1, rfl, h.executions q hq.1 hq.2, rfl⟩
  constructor
  · exact h.executions_step heffect
  · apply heffect.hopOk hunique.ids
    · exact fun r hr => (h.rows r hr).mono hkeeps
    · exact fun _ _ _ _ hresolves hactive => (h.resolves hresolves hactive).mono hkeeps
  · intro r hr q hq
    have hbefore : ∃ q' ∈ s.rows, q'.id = q.id ∧ q'.state = .delivered ∧
        q'.hopCount = q.hopCount := by
      rcases hreads.requests r hr q hq with hold | hread
      · exact h.requests r hold q hq
      · exact hturn q hread
    obtain ⟨q', hq', hid, hdelivered, hhop⟩ := hbefore
    obtain ⟨q'', hq'', hid', hdelivered', hhop'⟩ := hkeeps q' hq' hdelivered
    exact ⟨q'', hq'', hid'.trans hid, hdelivered', hhop'.trans hhop⟩
  · intro t ht
    rcases hreads.subtasks t ht with hold | ⟨ancestor, hread, hnext, hancestor⟩
    · exact (h.subtasks t hold).mono hkeeps
    · rw [hancestor]
      exact (h.sourced (fun q hq => hturn q (hread q hq)) hnext).mono hkeeps

theorem Hops.initial (h : Initial s) : Hops s := by
  obtain ⟨hrows, _, hrequests, _, hsubtasks, _⟩ := h
  constructor
  · intro r hr
    rw [hrows] at hr
    cases hr
  · intro r hr
    rw [hrows] at hr
    cases hr
  · intro r hr
    rw [hrequests] at hr
    cases hr
  · intro t ht
    rw [hsubtasks] at ht
    cases ht

theorem hops_of_reachable {ok : Dispatcher → DispatcherAction → Prop}
    (h : Reachable step ok Initial s) : Hops s := by
  have hboth : Unique s ∧ Hops s :=
    h.invariant (P := fun s => Unique s ∧ Hops s) (fun _ h0 => ⟨Unique.initial h0, Hops.initial h0⟩)
      fun _ _ _ hs _ hstep => ⟨hs.1.step hstep, hs.2.step hs.1 hstep⟩
  exact hboth.2

/-! ## Chains of agent comments -/

/-- Rows that are on their way or were delivered, each for a comment of an agent; the hop count of
    each was taken from the next one. -/
structure AgentChain (s : Dispatcher) (chain : Rows) : Prop where
  mem : ∀ r ∈ chain, r ∈ s.rows ∧ r.state.isActive = true
  agent : ∀ r ∈ chain, ∃ ancestor, lastResolved r.id s.log = some (true, ancestor)
  linked : chain.IsChain fun r q => lastResolved r.id s.log = some (true, some q.id)

theorem AgentChain.length_le_hopCount (hops : Hops s) (hunique : Unique s)
    {r : IssueCommentDelivery} (h : AgentChain s (r :: chain)) :
    ((r :: chain).length : ℤ) ≤ r.hopCount := by
  induction chain generalizing r with
  | nil =>
    obtain ⟨hmem, hactive⟩ := h.mem r mem_cons_self
    obtain ⟨ancestor, hagent⟩ := h.agent r mem_cons_self
    obtain ⟨agentOrigin, ancestor', hlast, hsourced⟩ := hops.rows r hmem hactive
    rw [hagent] at hlast
    cases hlast
    cases ancestor with
    | none => exact Int.le_of_eq hsourced.symm
    | some q => exact hsourced.1
  | cons q chain ih =>
    obtain ⟨hmem, hactive⟩ := h.mem r mem_cons_self
    obtain ⟨hlink, hchain⟩ := isChain_cons_cons.1 h.linked
    obtain ⟨agentOrigin, ancestor, hlast, hsourced⟩ := hops.rows r hmem hactive
    rw [hlink] at hlast
    cases hlast
    obtain ⟨_, _, q', hq', hid, _, hhop⟩ := hsourced
    obtain rfl := hunique.ids.eq hq' (h.mem q (by simp)).1 hid
    have htail : AgentChain s (q' :: chain) :=
      ⟨fun x hx => h.mem x (mem_cons_of_mem r hx),
        fun x hx => h.agent x (mem_cons_of_mem r hx), hchain⟩
    have hle := ih htail
    rw [length_cons, hhop]
    push_cast
    omega

theorem AgentChain.length_le (hops : Hops s) (hunique : Unique s)
    (h : AgentChain s chain) : (chain.length : ℤ) ≤ maxAgentHops := by
  cases chain with
  | nil => exact Int.le_of_lt (by decide)
  | cons r chain =>
    obtain ⟨hmem, hactive⟩ := h.mem r mem_cons_self
    obtain ⟨_, _, _, hsourced⟩ := hops.rows r hmem hactive
    exact Int.le_trans (h.length_le_hopCount hops hunique) hsourced.bounds.2

theorem more_hops {r : RequestTask} {turnId : Uuid} {q : IssueCommentDelivery}
    {resolved : Except (DeliveryReason × String) ResolvedCandidates}
    (hagent : r.agentOrigin = true) (hq : q ∈ s.rows) (hturn : q.executionProcessId = some turnId)
    (h : (r.resolution (findByExecutionProcessId s.rows turnId) resolved).state = .pending) :
    q.hopCount + 1 ≤ (r.resolution (findByExecutionProcessId s.rows turnId) resolved).hopCount := by
  have hmem : q ∈ s.rows.filter fun row => row.executionProcessId == some turnId :=
    mem_filter.2 ⟨hq, beq_iff_eq.2 hturn⟩
  obtain ⟨best, hbest, hle⟩ := le_mostHops hmem
  have hfind : findByExecutionProcessId s.rows turnId = some best := hbest
  rw [hfind] at h ⊢
  rcases nextHopCount_ok (resolve_pending h) with ⟨hhuman, _⟩ | ⟨_, _, hhop⟩
  · rw [hagent] at hhuman
    cases hhuman
  · have hsucc : (r.resolution (some best) resolved).hopCount = best.hopCount + 1 := hhop
    omega

/-- In every run the hop count of a row changes only when a request resolves a
    resolvable row again. A row that is on its way or was delivered has at most `maxAgentHops` hops:
    none if its comment was no agent's, and otherwise one more than the delivery that the ledger
    had for the turn that was read. A comment resolved when the ledger has a delivery for this turn
    has more hops than that delivery, or is not delivered. So no chain of agent comments is longer
    than `maxAgentHops`. -/
theorem agent_chains_bounded {s : Dispatcher} (h : Reachable step anyStep Initial s) :
    (∀ a s', s.step a = some s' → ∀ r ∈ s.rows, ∃ r' ∈ s'.rows, r'.id = r.id ∧
      (r'.hopCount = r.hopCount ∨
        (r.state.isResolvable = true ∧ ∃ i resolved newId, a = .resolve i resolved newId))) ∧
    (∀ r ∈ s.rows, r.state.isActive = true → 0 ≤ r.hopCount ∧ r.hopCount ≤ maxAgentHops ∧
      ∃ agentOrigin ancestor, lastResolved r.id s.log = some (agentOrigin, ancestor) ∧
        Sourced s.rows agentOrigin ancestor r.hopCount) ∧
    (∀ (r : RequestTask) (turnId : Uuid) (q : IssueCommentDelivery)
      (resolved : Except (DeliveryReason × String) ResolvedCandidates),
      r.agentOrigin = true → q ∈ s.rows → q.executionProcessId = some turnId →
      (r.resolution (findByExecutionProcessId s.rows turnId) resolved).state = .pending →
      q.hopCount + 1 ≤ (r.resolution (findByExecutionProcessId s.rows turnId) resolved).hopCount) ∧
    ∀ chain, AgentChain s chain → (chain.length : ℤ) ≤ maxAgentHops := by
  have hunique := unique_of_reachable h
  have hhops := hops_of_reachable h
  refine ⟨?_, ?_, ?_, ?_⟩
  · intro a s' hstep r hr
    obtain ⟨r', hr', hfollows⟩ := (effect_of_step hunique.ids hstep).follows r hr
    exact ⟨r', hr', hfollows.id, hfollows.hopCount⟩
  · intro r hr hactive
    obtain ⟨agentOrigin, ancestor, hlast, hsourced⟩ := hhops.rows r hr hactive
    exact ⟨hsourced.bounds.1, hsourced.bounds.2, agentOrigin, ancestor, hlast, hsourced⟩
  · intro r turnId q resolved hagent hq hturn hpending
    exact more_hops hagent hq hturn hpending
  · intro chain hchain
    exact hchain.length_le hhops hunique

/-! ## Examples -/

/-- A request of an agent, the `i`-th one, up to the write of its resolution. -/
def exampleReads (i : ℕ) (commentId : Uuid) (originSessionId : Option Uuid) :
    List DispatcherAction :=
  [.request commentId 5 none .mcp, .find i originSessionId, .readTurn i, .readDelivery i]

def exampleTarget (sessionId : Uuid) : Except (DeliveryReason × String) ResolvedCandidates :=
  .ok ⟨[⟨20, sessionId, .waiting⟩], none⟩

def examplePending : Dispatcher :=
  (exec step anyStep exampleLedger
    (exampleReads 0 1 (some 9) ++ [.resolve 0 (exampleTarget 3) 101])).getD exampleLedger

/-- The comment `1` of an agent starts the turn `10` of the session `3`, whose agent posts the
    comment `2`. -/
def exampleReply (s : Dispatcher) : List DispatcherAction :=
  [.start 3 0 (listDue s.rows 3 0), .task 3 .claim, .task 3 .deliver, .task 3 (.launch 10),
    .task 3 (.settle 101 (.delivered 10 "a" none))] ++ exampleReads 1 2 (some 3) ++
    [.resolve 1 (exampleTarget 4) 102]

def exampleReplied : Dispatcher :=
  (exec step anyStep examplePending (exampleReply examplePending)).getD exampleLedger

theorem reachable_exampleReplied : Reachable step anyStep Initial exampleReplied := by
  have hpending : exec step anyStep exampleLedger
      (exampleReads 0 1 (some 9) ++ [.resolve 0 (exampleTarget 3) 101]) = some examplePending := rfl
  have hreply : exec step anyStep examplePending (exampleReply examplePending) =
      some exampleReplied := rfl
  exact (reachable_of_exec initial_exampleLedger hpending).runs (runs_of_exec hreply)

theorem agentChain_exampleReplied : AgentChain exampleReplied exampleReplied.rows.reverse := by
  constructor
  · decide
  · intro r hr
    have hcases : lastResolved r.id exampleReplied.log = some (true, some 101) ∨
        lastResolved r.id exampleReplied.log = some (true, none) := by
      revert r
      decide
    rcases hcases with h | h
    all_goals exact ⟨_, h⟩
  · decide

/-- The two comments are a chain with the largest number of hops. -/
theorem longest_chain : exampleReplied.rows.reverse.map (fun r => r.hopCount) = [2, 1] ∧
    (exampleReplied.rows.reverse.length : ℤ) ≤ maxAgentHops :=
  ⟨rfl, (agent_chains_bounded reachable_exampleReplied).2.2.2 _ agentChain_exampleReplied⟩

/-- The second comment finds no target; a user starts the turn `11` of the session `3`; then the
    comment is requested again. -/
def exampleRetry (s : Dispatcher) : List DispatcherAction :=
  [.task 3 .stop, .start 4 0 (listDue s.rows 4 0), .task 4 (.finish .workspaceArchived),
    .turn 11 3] ++ exampleReads 2 2 none

def exampleRetried : Dispatcher :=
  (exec step anyStep exampleReplied (exampleRetry exampleReplied)).getD exampleLedger

/-- The second resolution of a comment lowers its hop count, to that of the delivery whose turn
    posted the comment. -/
theorem resolved_to_fewer_hops : ∃ s', Reachable step anyStep Initial exampleRetried ∧
    exampleRetried.step (.resolve 2 (exampleTarget 4) 103) = some s' ∧
    exampleRetried.rows.map (fun r => (r.commentId, r.state, r.hopCount, r.executionProcessId)) =
      [(1, .delivered, 1, some 10), (2, .noTarget, 2, none)] ∧
    s'.rows.map (fun r => (r.commentId, r.state, r.hopCount, r.executionProcessId)) =
      [(1, .delivered, 1, some 10), (2, .pending, 1, none)] := by
  have hretry : exec step anyStep exampleReplied (exampleRetry exampleReplied) =
      some exampleRetried := rfl
  have hresolve : exampleRetried.step (.resolve 2 (exampleTarget 4) 103) = some _ := rfl
  exact ⟨_, reachable_exampleReplied.runs (runs_of_exec hretry), hresolve, rfl, rfl⟩

end Dispatcher

end VibeKanban.Ledger

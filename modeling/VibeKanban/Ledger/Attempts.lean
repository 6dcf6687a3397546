import VibeKanban.Ledger.Effects

/-!
# The states and the attempts of a delivery

A row is claimed by one dispatch task at a time, and what the task has listed or claimed is what the
row still holds.

* `ledger_state_machine`: how the state of a row changes, and that the number of attempts is that of
  the claims since the row was last resolved.
* `second_claim`, `fourth_claim`: where recovery gives a row back.
-/

namespace VibeKanban.Ledger

open Cluster Lib List DispatchTask

/-! ## Claims and returns -/

/-- How often a row was claimed since it was last resolved. -/
def claims (id : Uuid) : List LedgerEvent → ℕ
  | [] => 0
  | .resolved i _ _ :: log => if i = id then 0 else claims id log
  | .claimed i :: log => if i = id then claims id log + 1 else claims id log
  | .returned _ :: log => claims id log

/-- How often recovery made a row pending since it was last resolved. -/
def returns (id : Uuid) : List LedgerEvent → ℕ
  | [] => 0
  | .resolved i _ _ :: log => if i = id then 0 else returns id log
  | .claimed _ :: log => returns id log
  | .returned i :: log => if i = id then returns id log + 1 else returns id log

def LedgerEvent.id : LedgerEvent → Uuid
  | .resolved id _ _ => id
  | .claimed id => id
  | .returned id => id

variable {id : Uuid} {e : LedgerEvent} {log : List LedgerEvent}

theorem claims_other (h : e.id ≠ id) : claims id (e :: log) = claims id log := by
  cases e with
  | resolved i agentOrigin ancestor | claimed i => exact if_neg h
  | returned i => rfl

theorem returns_other (h : e.id ≠ id) : returns id (e :: log) = returns id log := by
  cases e with
  | resolved i agentOrigin ancestor | returned i => exact if_neg h
  | claimed i => rfl

/-- What the log says about the attempts in a row. -/
structure Counted (log : List LedgerEvent) (r : IssueCommentDelivery) : Prop where
  attempts : r.attemptCount = claims r.id log
  bound : r.attemptCount ≤ 3 + returns r.id log
  pending : r.state = .pending → r.attemptCount ≤ 2 + returns r.id log

variable {r : IssueCommentDelivery} {agentOrigin : Bool} {ancestor : Option Uuid}

theorem Counted.other (h : Counted log r) (hid : r.id ≠ e.id) : Counted (e :: log) r where
  attempts := by rw [claims_other hid.symm]; exact h.attempts
  bound := by rw [returns_other hid.symm]; exact h.bound
  pending := by rw [returns_other hid.symm]; exact h.pending

theorem Counted.kept {r' : IssueCommentDelivery} (h : Counted log r)
    (hid : r'.id = r.id) (hattempts : r'.attemptCount = r.attemptCount)
    (hstate : r'.state = .pending → r.attemptCount ≤ 2 + returns r.id log) : Counted log r' where
  attempts := by rw [hid, hattempts]; exact h.attempts
  bound := by rw [hid, hattempts]; exact h.bound
  pending := by rw [hid, hattempts]; exact hstate

theorem Counted.resolved (hid : r.id = id) (h : r.attemptCount = 0) :
    Counted (.resolved id agentOrigin ancestor :: log) r where
  attempts := by rw [h]; exact (if_pos hid.symm).symm
  bound := by rw [h]; exact Nat.zero_le _
  pending := by rw [h]; exact fun _ => Nat.zero_le _

theorem Counted.returned (h : Counted log r) : Counted (.returned id :: log) r := by
  have hle : returns r.id log ≤ returns r.id (.returned id :: log) := by
    show _ ≤ if id = r.id then _ else _
    split_ifs
    · exact Nat.le_succ _
    · exact Nat.le_refl _
  exact ⟨h.attempts, Nat.le_trans h.bound (Nat.add_le_add_left hle 3),
    fun hpending => Nat.le_trans (h.pending hpending) (Nat.add_le_add_left hle 2)⟩

/-! ## What a task holds -/

namespace Dispatcher

/-- The row of an entry that a task of a session has listed: pending as it was, or cancelled; the
    session may be deleted since. -/
structure Due (σ : Uuid) (d r : IssueCommentDelivery) : Prop where
  id : r.id = d.id
  state : (r.state = .pending ∧ r.attemptCount = d.attemptCount ∧
    (r.sessionId = some σ ∨ r.sessionId = none)) ∨ r.state = .cancelled

/-- The row of an entry that a task has claimed. -/
structure Claimed (c r : IssueCommentDelivery) : Prop where
  id : r.id = c.id
  state : r.state = .dispatching
  attempts : r.attemptCount = c.attemptCount + 1

end Dispatcher

def DispatchTask.held (t : DispatchTask) : Rows := t.due ++ t.claimed

theorem DispatchTask.mem_held {t : DispatchTask} {e : IssueCommentDelivery} :
    e ∈ t.held ↔ e ∈ t.due ∨ e ∈ t.claimed := mem_append

namespace Dispatcher

/-- The rows behind the entries of the tasks, which are never the same row twice. -/
structure Held (rows : Rows) (tasks : List DispatchTask) : Prop where
  due : ∀ t ∈ tasks, ∀ d ∈ t.due, ∃ r ∈ rows, Due t.sessionId d r
  claimed : ∀ t ∈ tasks, ∀ c ∈ t.claimed, ∃ r ∈ rows, Claimed c r
  distinct : ∀ t ∈ tasks, (t.held.map IssueCommentDelivery.id).Nodup
  apart : ∀ t ∈ tasks, ∀ u ∈ tasks, t.sessionId ≠ u.sessionId →
    ∀ d ∈ t.held, ∀ e ∈ u.held, d.id ≠ e.id

variable {rows rows' : Rows} {tasks : List DispatchTask} {s s' : Dispatcher} {a : DispatcherAction}

theorem Held.nil (rows : Rows) : Held rows [] where
  due := nofun
  claimed := nofun
  distinct := nofun
  apart := nofun

variable {σ : Uuid} {r r' : IssueCommentDelivery} {d c : IssueCommentDelivery}

theorem Due.kept (h : Due σ d r) (hkept : Kept r r')
    (hstate : r'.state = r.state) : Due σ d r' := by
  refine ⟨hkept.id.trans h.id, ?_⟩
  rw [hstate, hkept.attemptCount]
  rcases h.state with ⟨hpending, hattempts, hsession⟩ | hcancelled
  · refine .inl ⟨hpending, hattempts, ?_⟩
    rcases hkept.sessionId with heq | hnone
    · rw [heq]
      exact hsession
    · exact .inr hnone
  · exact .inr hcancelled

theorem Claimed.kept (h : Claimed c r) (hkept : Kept r r')
    (hstate : r'.state = r.state) : Claimed c r' :=
  ⟨hkept.id.trans h.id, hstate.trans h.state, hkept.attemptCount.trans h.attempts⟩

section

variable (h : Held rows tasks)
include h

theorem Held.transfer (hdue : ∀ t ∈ tasks, ∀ d ∈ t.due, (∃ r ∈ rows, Due t.sessionId d r) →
      ∃ r ∈ rows', Due t.sessionId d r)
    (hclaimed : ∀ t ∈ tasks, ∀ c ∈ t.claimed, (∃ r ∈ rows, Claimed c r) →
      ∃ r ∈ rows', Claimed c r) : Held rows' tasks where
  due t ht d hd := hdue t ht d hd (h.due t ht d hd)
  claimed t ht c hc := hclaimed t ht c hc (h.claimed t ht c hc)
  distinct := h.distinct
  apart := h.apart

theorem Held.touches (ht : Touches rows rows') : Held rows' tasks := by
  obtain ⟨p, f, hf, rfl⟩ := ht
  apply h.transfer
  · intro t _ d _ hex
    exact exists_mem_update hex fun r _ _ hr => hr.kept (hf r).1 (hf r).2
  · intro t _ c _ hex
    exact exists_mem_update hex fun r _ _ hr => hr.kept (hf r).1 (hf r).2

theorem Held.append (row : IssueCommentDelivery) : Held (rows ++ [row]) tasks := by
  apply h.transfer
  · rintro t _ d _ ⟨r, hr, hdue⟩
    exact ⟨r, mem_append_left _ hr, hdue⟩
  · rintro t _ c _ ⟨r, hr, hclaimed⟩
    exact ⟨r, mem_append_left _ hr, hclaimed⟩

end

variable {t : DispatchTask}

theorem Held.setTask {t' : DispatchTask} (h : Held rows s.tasks) (ht : t ∈ s.tasks)
    (hσ : t'.sessionId = t.sessionId) (hheld : t'.held.Subperm t.held)
    (hdue : ∀ d ∈ t'.due, ∃ r ∈ rows', Due t.sessionId d r)
    (hclaimed : ∀ c ∈ t'.claimed, ∃ r ∈ rows', Claimed c r)
    (hothers : ∀ u ∈ s.tasks, u.sessionId ≠ t.sessionId →
      (∀ d ∈ u.due, ∃ r ∈ rows', Due u.sessionId d r) ∧ ∀ c ∈ u.claimed, ∃ r ∈ rows', Claimed c r) :
    Held rows' (s.setTask t').tasks := by
  have hcases : ∀ u ∈ (s.setTask t').tasks, u = t' ∨ (u ∈ s.tasks ∧ u.sessionId ≠ t.sessionId) := by
    apply forall_mem_update
    · exact fun _ _ _ => .inl rfl
    · intro u hu hp
      refine .inr ⟨hu, ?_⟩
      rw [← hσ]
      exact beq_eq_false_iff_ne.1 hp
  constructor
  · intro u hu
    rcases hcases u hu with rfl | ⟨hmem, hne⟩
    · rw [hσ]
      exact hdue
    · exact (hothers u hmem hne).1
  · intro u hu
    rcases hcases u hu with rfl | ⟨hmem, hne⟩
    · exact hclaimed
    · exact (hothers u hmem hne).2
  · intro u hu
    rcases hcases u hu with rfl | ⟨hmem, hne⟩
    · obtain ⟨l, hperm, hsub⟩ := hheld
      exact (hperm.map _).nodup_iff.1 ((hsub.map _).nodup (h.distinct t ht))
    · exact h.distinct u hmem
  · intro u hu v hv hne d hd e he
    rcases hcases u hu with rfl | ⟨hu', hut⟩
    · rcases hcases v hv with rfl | ⟨hv', hvt⟩
      · exact absurd rfl hne
      · exact h.apart t ht v hv' hvt.symm d (hheld.subset hd) e he
    · rcases hcases v hv with rfl | ⟨hv', hvt⟩
      · exact h.apart u hu' t ht hut d hd e (hheld.subset he)
      · exact h.apart u hu' v hv' hne d hd e he

/-! ## Statements on other rows -/

section

variable {id : Uuid} {from' : DeliveryState → Bool}
  {f : IssueCommentDelivery → IssueCommentDelivery}

theorem Due.elsewhere {σ : Uuid} (hne : d.id ≠ id)
    (h : ∃ r ∈ rows, Due σ d r) : ∃ r ∈ (updateRow rows id from' f).1, Due σ d r := by
  apply exists_updateRow h
  intro r _ hid _ hdue
  exact absurd (hdue.id.symm.trans hid) hne

theorem Claimed.elsewhere (hne : c.id ≠ id)
    (h : ∃ r ∈ rows, Claimed c r) : ∃ r ∈ (updateRow rows id from' f).1, Claimed c r := by
  apply exists_updateRow h
  intro r _ hid _ hclaimed
  exact absurd (hclaimed.id.symm.trans hid) hne

theorem Held.others {t : DispatchTask} {row : IssueCommentDelivery} (h : Held rows tasks)
    (ht : t ∈ tasks) (hrow : row ∈ t.held) : ∀ u ∈ tasks, u.sessionId ≠ t.sessionId →
      (∀ d ∈ u.due, ∃ r ∈ (updateRow rows row.id from' f).1, Due u.sessionId d r) ∧
        ∀ c ∈ u.claimed, ∃ r ∈ (updateRow rows row.id from' f).1, Claimed c r := by
  intro u hu hne
  constructor
  · intro d hd
    exact Due.elsewhere (h.apart u hu t ht hne d (mem_held.2 (.inl hd)) row hrow) (h.due u hu d hd)
  · intro c hc
    exact Claimed.elsewhere
      (h.apart u hu t ht hne c (mem_held.2 (.inr hc)) row hrow) (h.claimed u hu c hc)

end

variable {row : IssueCommentDelivery} {due : Rows}

theorem Held.beside_first (h : Held rows tasks) (ht : t ∈ tasks) (hfirst : t.due = row :: due) :
    ∀ e ∈ due ++ t.claimed, e.id ≠ row.id := by
  have hnodup := h.distinct t ht
  unfold held at hnodup
  rw [hfirst, cons_append, map_cons, nodup_cons] at hnodup
  intro e he heq
  exact hnodup.1 (mem_map.2 ⟨e, he, heq⟩)

/-! ## The invariant -/

/-- Recovery acts on rows whose claimant is gone; it runs when the server has started. -/
def RecoversOrphans (s : Dispatcher) : DispatcherAction → Prop
  | .recover id _ => ∀ t ∈ s.tasks, id ∉ t.claimed.map IssueCommentDelivery.id
  | _ => True

instance (s : Dispatcher) (a : DispatcherAction) : Decidable (RecoversOrphans s a) := by
  unfold RecoversOrphans
  split <;> infer_instance

/-- No two rows have one ID or one comment, and no two tasks one session. -/
structure Unique (s : Dispatcher) : Prop where
  ids : Keyed IssueCommentDelivery.id s.rows
  comments : Keyed IssueCommentDelivery.commentId s.rows
  sessions : Keyed sessionId s.tasks

/-- What the tasks hold and what the rows count. -/
structure Attempts (s : Dispatcher) : Prop where
  held : Held s.rows s.tasks
  counted : ∀ r ∈ s.rows, Counted s.log r

/-- The rows are the old ones and perhaps a new one, each with its ID and its comment. -/
def Continues (rows rows' : Rows) : Prop :=
  (∃ p f, (∀ r, (f r).id = r.id ∧ (f r).commentId = r.commentId) ∧ rows' = update p f rows) ∨
    ∃ row, (∀ r ∈ rows, r.id ≠ row.id) ∧ (∀ r ∈ rows, r.commentId ≠ row.commentId) ∧
      rows' = rows ++ [row]

variable {f : IssueCommentDelivery → IssueCommentDelivery}

theorem Continues.update {p : IssueCommentDelivery → Bool}
    (h : ∀ r, (f r).id = r.id ∧ (f r).commentId = r.commentId) :
    Continues rows (Lib.update p f rows) := .inl ⟨p, f, h, rfl⟩

theorem Touches.continues (h : Touches rows rows') : Continues rows rows' := by
  obtain ⟨p, f, hf, rfl⟩ := h
  exact Continues.update fun r => ⟨(hf r).1.id, (hf r).1.commentId⟩

variable {tasks : List DispatchTask} {log : List LedgerEvent} {state : DeliveryState}

theorem Effect.continues (h : Effect s a rows tasks log) : Continues s.rows rows := by
  have hsame := Touches.continues (Touches.refl s.rows)
  cases h with
  | touched touches | passed mem rest touches => exact Touches.continues touches
  | started free listed => exact hsame
  | stopped => exact hsame
  | crashed => exact hsame
  | finished mem first | claimed mem first applied | cancelled
  | resolved request existing resolves applied => exact Continues.update fun r => ⟨rfl, rfl⟩
  | settled mem held finished retried | recovered finished final | returned finished =>
    exact Continues.update fun r => ⟨(finished r).id, (finished r).commentId⟩
  | inserted fresh first resolves attempts execution => exact .inr ⟨_, fresh, first, rfl⟩

theorem keyed_setTask (h : Keyed sessionId s.tasks) : Keyed sessionId (s.setTask t).tasks := by
  apply h.update_of
  intro u hu
  exact (beq_iff_eq.1 hu).symm

theorem Effect.sessions (h : Effect s a rows tasks log) (hkey : Keyed sessionId s.tasks) :
    Keyed sessionId tasks := by
  cases h with
  | started free listed => exact hkey.concat free
  | stopped => exact hkey.delete
  | crashed => exact Keyed.nil
  | passed mem rest touches | finished mem first | claimed mem first applied
  | settled mem held finished retried => exact keyed_setTask hkey
  | _ => exact hkey

theorem Unique.step (h : Unique s) (hstep : s.step a = some s') : Unique s' := by
  have heffect := effect_of_step h.ids hstep
  refine ⟨?_, ?_, heffect.sessions h.sessions⟩
  · rcases heffect.continues with ⟨p, f, hf, heq⟩ | ⟨row, hid, hcomment, heq⟩ <;> rw [heq]
    · exact h.ids.update fun r => (hf r).1
    · exact h.ids.concat hid
  · rcases heffect.continues with ⟨p, f, hf, heq⟩ | ⟨row, hid, hcomment, heq⟩ <;> rw [heq]
    · exact h.comments.update fun r => (hf r).2
    · exact h.comments.concat hcomment

/-! ## What the tasks hold after a step -/

theorem Held.attempts_of_claim
    (h : Held s.rows s.tasks) (hkey : Keyed IssueCommentDelivery.id s.rows) (ht : t ∈ s.tasks)
    (hfirst : t.due = row :: due) (hr : r ∈ s.rows) (hid : r.id = row.id)
    (hpending : r.state = .pending) : r.attemptCount = row.attemptCount := by
  obtain ⟨r', hr', hdue⟩ := h.due t ht row (hfirst ▸ mem_cons_self)
  obtain rfl := hkey.eq hr hr' (hid.trans hdue.id.symm)
  rcases hdue.state with ⟨_, hattempts, _⟩ | hcancelled
  · exact hattempts
  · rw [hpending] at hcancelled
    cases hcancelled

theorem isDispatching_iff : isDispatching state = true ↔ state = .dispatching := decide_eq_true_iff

theorem isPending_iff : isPending state = true ↔ state = .pending := decide_eq_true_iff

variable {id : Uuid}

theorem Due.of_dispatching (h : ∃ r ∈ rows, Due σ d r) :
    ∃ r ∈ (updateRow rows id isDispatching f).1, Due σ d r := by
  apply exists_updateRow h
  intro r _ _ hdispatching hdue
  exfalso
  rw [isDispatching_iff] at hdispatching
  rcases hdue.state with ⟨hpending, _⟩ | hcancelled
  · exact DeliveryState.noConfusion (hdispatching.symm.trans hpending)
  · exact DeliveryState.noConfusion (hdispatching.symm.trans hcancelled)

theorem Held.started {now : Timestamp} (h : Held s.rows s.tasks)
    (hkey : Keyed IssueCommentDelivery.id s.rows) (hfree : ∀ t ∈ s.tasks, t.sessionId ≠ σ)
    (hlisted : due.Subperm (listDue s.rows σ now)) :
    Held s.rows (s.tasks ++ [⟨σ, due, [], false⟩]) := by
  have hdue : ∀ d ∈ due, d ∈ s.rows ∧ d.sessionId = some σ ∧ d.state = .pending := by
    intro d hd
    obtain ⟨hmem, hcond⟩ := mem_filter.1 (hlisted.subset hd)
    rw [Bool.and_eq_true, Bool.and_eq_true, beq_iff_eq, isPending_iff] at hcond
    exact ⟨hmem, hcond.1.1, hcond.1.2⟩
  have hnew : (⟨σ, due, [], false⟩ : DispatchTask).held = due := append_nil due
  -- an entry of another task is not pending for this session
  have hother : ∀ t ∈ s.tasks, ∀ d ∈ t.held, ∀ e ∈ due, d.id ≠ e.id := by
    intro t ht d hd e he heq
    obtain ⟨hmem, hsession, hpending⟩ := hdue e he
    rcases mem_held.1 hd with hd | hd
    · obtain ⟨r, hr, hr'⟩ := h.due t ht d hd
      obtain rfl := hkey.eq hr hmem (hr'.id.trans heq)
      rcases hr'.state with ⟨_, _, hsome | hnone⟩ | hcancelled
      · rw [hsession, Option.some.injEq] at hsome
        exact hfree t ht hsome.symm
      · rw [hsession] at hnone
        cases hnone
      · rw [hpending] at hcancelled
        cases hcancelled
    · obtain ⟨r, hr, hr'⟩ := h.claimed t ht d hd
      obtain rfl := hkey.eq hr hmem (hr'.id.trans heq)
      have hdispatching := hr'.state
      rw [hpending] at hdispatching
      cases hdispatching
  constructor
  · intro t ht d hd
    rcases mem_append.1 ht with hold | hlast
    · exact h.due t hold d hd
    · obtain rfl := mem_singleton.1 hlast
      obtain ⟨hmem, hsession, hpending⟩ := hdue d hd
      exact ⟨d, hmem, rfl, .inl ⟨hpending, rfl, .inl hsession⟩⟩
  · intro t ht c hc
    rcases mem_append.1 ht with hold | hlast
    · exact h.claimed t hold c hc
    · obtain rfl := mem_singleton.1 hlast
      cases hc
  · intro t ht
    rcases mem_append.1 ht with hold | hlast
    · exact h.distinct t hold
    · obtain rfl := mem_singleton.1 hlast
      rw [hnew]
      obtain ⟨l, hperm, hsub⟩ := hlisted
      have hsub' : l.Sublist s.rows := hsub.trans filter_sublist
      exact (hperm.map _).nodup_iff.1 ((hsub'.map _).nodup hkey)
  · intro t ht u hu hne d hd e he
    rcases mem_append.1 ht with hold | hlast
    · rcases mem_append.1 hu with hold' | hlast'
      · exact h.apart t hold u hold' hne d hd e he
      · obtain rfl := mem_singleton.1 hlast'
        rw [hnew] at he
        exact hother t hold d hd e he
    · obtain rfl := mem_singleton.1 hlast
      rw [hnew] at hd
      rcases mem_append.1 hu with hold' | hlast'
      · exact (hother u hold' e he d hd).symm
      · obtain rfl := mem_singleton.1 hlast'
        exact absurd rfl hne

theorem Held.afterClaim
    (h : Held s.rows s.tasks) (hkey : Keyed IssueCommentDelivery.id s.rows) (ht : t ∈ s.tasks)
    (hfirst : t.due = row :: due) (happlied : (Ledger.claim s.rows row.id).2 = true) :
    Held (Ledger.claim s.rows row.id).1
      (s.setTask { t with due := due, claimed := t.claimed ++ [row] }).tasks := by
  have hrow : row ∈ t.held := mem_held.2 (.inl (hfirst ▸ mem_cons_self))
  have hbeside := h.beside_first ht hfirst
  apply h.setTask ht
  · rfl
  · show (due ++ (t.claimed ++ [row])).Subperm (t.due ++ t.claimed)
    rw [hfirst, ← append_assoc]
    exact (perm_append_singleton row (due ++ t.claimed)).subperm
  · intro d hd
    exact Due.elsewhere (hbeside d (mem_append_left _ hd))
      (h.due t ht d (hfirst ▸ mem_cons_of_mem row hd))
  · intro c hc
    rcases mem_append.1 hc with hold | hlast
    · exact Claimed.elsewhere (hbeside c (mem_append_right _ hold)) (h.claimed t ht c hold)
    · obtain rfl := mem_singleton.1 hlast
      obtain ⟨r, hr, hid, hpending⟩ := (updateRow_applied hkey).1 happlied
      have hattempts := h.attempts_of_claim hkey ht hfirst hr hid (isPending_iff.1 hpending)
      refine ⟨_, mem_update_of hr (selects_iff.2 ⟨hid, hpending⟩), hid, rfl, ?_⟩
      show r.attemptCount + 1 = c.attemptCount + 1
      rw [hattempts]
  · exact h.others ht hrow

theorem Held.settled (h : Held s.rows s.tasks) (ht : t ∈ s.tasks) (hrow : row ∈ t.claimed) :
    Held (updateRow s.rows row.id isDispatching f).1
      (s.setTask { t with claimed := t.claimed.filter fun c => c.id ≠ row.id }).tasks := by
  apply h.setTask ht
  · rfl
  · exact ((filter_sublist (l := t.claimed)).append_left t.due).subperm
  · intro d hd
    exact Due.of_dispatching (h.due t ht d hd)
  · intro c hc
    obtain ⟨hmem, hne⟩ := mem_filter.1 hc
    exact Claimed.elsewhere (of_decide_eq_true hne) (h.claimed t ht c hmem)
  · exact h.others ht (mem_held.2 (.inr hrow))

theorem Claimed.of_other_state {from' : DeliveryState → Bool} (hfrom : from' .dispatching = false)
    (h : ∃ r ∈ rows, Claimed c r) : ∃ r ∈ (updateRow rows id from' f).1, Claimed c r := by
  apply exists_updateRow h
  intro r _ _ hstate hclaimed
  rw [hclaimed.state, hfrom] at hstate
  cases hstate

theorem Held.step (h : Held s.rows s.tasks) (hunique : Unique s) (hok : RecoversOrphans s a)
    (hstep : s.step a = some s') : Held s'.rows s'.tasks := by
  have heffect := effect_of_step hunique.ids hstep
  generalize s'.rows = rows, s'.tasks = tasks, s'.log = log at heffect
  cases heffect with
  | touched touches => exact h.touches touches
  | started free listed => exact h.started hunique.ids free listed
  | stopped =>
    exact ⟨fun t ht => h.due t (mem_of_mem_delete ht), 
      fun t ht => h.claimed t (mem_of_mem_delete ht),
      fun t ht => h.distinct t (mem_of_mem_delete ht),
      fun t ht u hu => h.apart t (mem_of_mem_delete ht) u (mem_of_mem_delete hu)⟩
  | crashed => exact Held.nil s.rows
  | @passed _ t _ _ _ mem rest touches =>
    have h' := h.touches touches
    apply h'.setTask mem
    · rfl
    · exact (rest.append_right _).subperm
    · intro d hd
      exact h'.due t mem d (rest.subset hd)
    · exact h'.claimed t mem
    · intro u hu _
      exact ⟨h'.due u hu, h'.claimed u hu⟩
  | @finished reason t row due mem first =>
    have hbeside := h.beside_first mem first
    apply h.setTask mem
    · rfl
    · exact ((first ▸ sublist_cons_self row due : due.Sublist t.due).append_right _).subperm
    · intro d hd
      exact Due.elsewhere (hbeside d (mem_append_left _ hd))
        (h.due t mem d (first ▸ mem_cons_of_mem row hd))
    · intro c hc
      exact Claimed.of_other_state rfl (h.claimed t mem c hc)
    · exact h.others mem (mem_held.2 (.inl (first ▸ mem_cons_self)))
  | claimed mem first applied => exact h.afterClaim hunique.ids mem first applied
  | settled mem held finished retried => exact h.settled mem held
  | cancelled =>
    apply h.transfer
    · intro t _ d _ hex
      apply exists_updateRow hex
      intro r _ _ _ hdue
      exact ⟨hdue.id, .inr rfl⟩
    · intro t _ c _ hex
      exact Claimed.of_other_state rfl hex
  | inserted fresh first resolves attempts execution => exact h.append _
  | resolved request existing resolves applied =>
    apply h.transfer
    · intro t _ d _ hex
      apply exists_updateRow hex
      intro r _ _ hresolvable hdue
      rcases hdue.state with ⟨hpending, _⟩ | hcancelled
      · rw [hpending] at hresolvable
        cases hresolvable
      · rw [hcancelled] at hresolvable
        cases hresolvable
    · intro t _ c _ hex
      exact Claimed.of_other_state rfl hex
  | recovered finished final | returned finished =>
    apply h.transfer
    · intro t _ d _ hex
      exact Due.of_dispatching hex
    · intro t ht c hc hex
      exact Claimed.elsewhere (fun heq => hok t ht (heq ▸ mem_map_of_mem hc)) hex

/-! ## What the rows count after a step -/

theorem Counted.touches (h : ∀ r ∈ rows, Counted log r)
    (ht : Touches rows rows') : ∀ r ∈ rows', Counted log r := by
  obtain ⟨p, f, hf, rfl⟩ := ht
  apply forall_mem_update
  · intro r hr _
    exact (h r hr).kept (hf r).1.id (hf r).1.attemptCount
      fun hpending => (h r hr).pending ((hf r).2 ▸ hpending)
  · exact fun r hr _ => h r hr

theorem not_selected {from' : DeliveryState → Bool}
    (hkey : Keyed IssueCommentDelivery.id rows) (happlied : (updateRow rows id from' f).2 = true)
    (hr : r ∈ rows) (hnot : r.id = id → from' r.state = false) : r.id ≠ id := by
  intro hid
  obtain ⟨r', hr', hid', hfrom⟩ := (updateRow_applied hkey).1 happlied
  obtain rfl := hkey.eq hr hr' (hid.trans hid'.symm)
  rw [hnot hid] at hfrom
  cases hfrom

theorem Counted.claimed (hkey : Keyed IssueCommentDelivery.id s.rows)
    (h : ∀ r ∈ s.rows, Counted s.log r) (happlied : (Ledger.claim s.rows id).2 = true) :
    ∀ r ∈ (Ledger.claim s.rows id).1, Counted (.claimed id :: s.log) r := by
  apply forall_updateRow
  · intro r hr hid hpending
    have hlast := (h r hr).pending (isPending_iff.1 hpending)
    have hclaims : claims r.id (.claimed id :: s.log) = claims r.id s.log + 1 := if_pos hid.symm
    constructor
    · show r.attemptCount + 1 = claims r.id (.claimed id :: s.log)
      rw [hclaims, (h r hr).attempts]
    · show r.attemptCount + 1 ≤ 3 + returns r.id s.log
      omega
    · exact nofun
  · intro r hr hnot
    exact (h r hr).other (not_selected hkey happlied hr hnot)

theorem Counted.applied {resolution : Resolution} (hkey : Keyed IssueCommentDelivery.id s.rows)
    (h : ∀ r ∈ s.rows, Counted s.log r)
    (happlied : (applyResolution s.rows id resolution).2 = true) :
    ∀ r ∈ (applyResolution s.rows id resolution).1,
      Counted (.resolved id agentOrigin ancestor :: s.log) r := by
  apply forall_updateRow
  · intro r hr hid _
    exact Counted.resolved hid rfl
  · intro r hr hnot
    exact (h r hr).other (not_selected hkey happlied hr hnot)

theorem Attempts.counted_step (h : Attempts s) (hunique : Unique s) (hstep : s.step a = some s') :
    ∀ r ∈ s'.rows, Counted s'.log r := by
  have heffect := effect_of_step hunique.ids hstep
  generalize s'.rows = rows, s'.tasks = tasks, s'.log = log at heffect
  cases heffect with
  | touched touches | passed mem rest touches => exact Counted.touches h.counted touches
  | started free listed | stopped | crashed => exact h.counted
  | finished mem first | cancelled =>
    apply forall_updateRow
    · exact fun r hr _ _ => (h.counted r hr).kept rfl rfl nofun
    · exact fun r hr _ => h.counted r hr
  | claimed mem first applied => exact Counted.claimed hunique.ids h.counted applied
  | @settled t row _ f mem held finished retried =>
    apply forall_updateRow
    · intro r hr hid _
      apply (h.counted r hr).kept (finished r).id (finished r).attemptCount
      intro hpending
      obtain ⟨r', hr', hclaimed⟩ := h.held.claimed t mem row held
      obtain rfl := hunique.ids.eq hr hr' (hid.trans hclaimed.id.symm)
      have hattempts := hclaimed.attempts
      rcases retried with hfinal | hle
      · exact absurd hpending (hfinal r)
      · omega
    · exact fun r hr _ => h.counted r hr
  | inserted fresh first resolves attempts execution =>
    intro r hr
    rcases mem_append.1 hr with hold | hlast
    · exact (h.counted r hold).other (fresh r hold)
    · obtain rfl := mem_singleton.1 hlast
      exact Counted.resolved rfl attempts
  | resolved request existing resolves applied =>
    exact Counted.applied hunique.ids h.counted applied
  | recovered finished final =>
    apply forall_updateRow
    · intro r hr _ _
      exact (h.counted r hr).kept (finished r).id (finished r).attemptCount
        fun hpending => absurd hpending (final r)
    · exact fun r hr _ => h.counted r hr
  | @returned id _ f finished =>
    apply forall_updateRow
    · intro r hr hid _
      apply (h.counted r hr).returned.kept (finished r).id (finished r).attemptCount
      intro _
      have hreturns : returns r.id (.returned id :: s.log) = returns r.id s.log + 1 :=
        if_pos hid.symm
      have hbound := (h.counted r hr).bound
      omega
    · exact fun r hr _ => (h.counted r hr).returned

theorem Attempts.step (h : Attempts s) (hunique : Unique s) (hok : RecoversOrphans s a)
    (hstep : s.step a = some s') : Attempts s' :=
  ⟨h.held.step hunique hok hstep, h.counted_step hunique hstep⟩

/-! ## How a row changes its state -/

/-- The actions that may change the state of a row: a pending row may go anywhere; a resolvable row
    is resolved again by a request; a claimed row is left by a task that has claimed it, or by
    recovery. -/
inductive Leaves (s : Dispatcher) (r : IssueCommentDelivery) : DispatcherAction → Prop where
  | pending {a : DispatcherAction} (state : r.state = .pending) : Leaves s r a
  | resolved {i : ℕ} {resolved : Except (DeliveryReason × String) ResolvedCandidates}
      {newId : Uuid} {request : RequestTask} {row : IssueCommentDelivery}
      (state : r.state.isResolvable = true) (requested : s.requests[i]? = some request)
      (existing : request.existing = some row) (id : r.id = row.id) :
      Leaves s r (.resolve i resolved newId)
  | settled {t : DispatchTask} {outcome : Outcome} (state : r.state = .dispatching)
      (mem : t ∈ s.tasks) (held : r.id ∈ t.claimed.map IssueCommentDelivery.id) :
      Leaves s r (.task t.sessionId (.settle r.id outcome))
  | recovered {attempt : EarlierAttempt} (state : r.state = .dispatching) :
      Leaves s r (.recover r.id attempt)

/-- What a row becomes in a step. -/
structure Follows (s : Dispatcher) (a : DispatcherAction) (r r' : IssueCommentDelivery) : Prop where
  id : r'.id = r.id
  state : r'.state = r.state ∨ Leaves s r a
  hopCount : r'.hopCount = r.hopCount ∨
    (r.state.isResolvable = true ∧ ∃ i resolved newId, a = .resolve i resolved newId)

theorem Follows.refl (r : IssueCommentDelivery) : Follows s a r r := ⟨rfl, .inl rfl, .inl rfl⟩

theorem Touches.follows (h : Touches rows rows') : ∀ r ∈ rows, ∃ r' ∈ rows', Follows s a r r' := by
  obtain ⟨p, f, hf, rfl⟩ := h
  apply exists_update_of_mem Follows.refl
  exact fun r _ => ⟨(hf r).1.id, .inl (hf r).2, .inl (hf r).1.hopCount⟩

theorem Effect.follows
    (h : Effect s a rows tasks log) : ∀ r ∈ s.rows, ∃ r' ∈ rows, Follows s a r r' := by
  have hsame : ∀ r ∈ s.rows, ∃ r' ∈ s.rows, Follows s a r r' := fun r hr => ⟨r, hr, Follows.refl r⟩
  cases h with
  | touched touches | passed mem rest touches => exact Touches.follows touches
  | started free listed => exact hsame
  | stopped => exact hsame
  | crashed => exact hsame
  | finished mem first | claimed mem first applied | cancelled =>
    apply exists_update_of_mem Follows.refl
    intro r hp
    exact ⟨rfl, .inr (.pending (isPending_iff.1 (selects_iff.1 hp).2)), .inl rfl⟩
  | settled mem held finished retried =>
    apply exists_update_of_mem Follows.refl
    intro r hp
    obtain ⟨hid, hstate⟩ := selects_iff.1 hp
    refine ⟨(finished r).id, .inr ?_, .inl (finished r).hopCount⟩
    rw [← hid]
    exact .settled (isDispatching_iff.1 hstate) mem (hid ▸ mem_map_of_mem held)
  | inserted fresh first resolves attempts execution =>
    exact fun r hr => ⟨r, mem_append_left _ hr, Follows.refl r⟩
  | resolved request existing resolves applied =>
    apply exists_update_of_mem Follows.refl
    intro r hp
    obtain ⟨hid, hstate⟩ := selects_iff.1 hp
    exact ⟨rfl, .inr (.resolved hstate request existing hid), .inr ⟨hstate, _, _, _, rfl⟩⟩
  | recovered finished final | returned finished =>
    apply exists_update_of_mem Follows.refl
    intro r hp
    obtain ⟨rfl, hstate⟩ := selects_iff.1 hp
    exact ⟨(finished r).id, .inr (.recovered (isDispatching_iff.1 hstate)),
      .inl (finished r).hopCount⟩

theorem Leaves.not_final (h : Leaves s r a) :
    r.state ≠ .delivered ∧ r.state ≠ .blocked ∧ r.state ≠ .cancelled := by
  cases h with
  | pending state | settled state mem held | recovered state =>
    rw [state]
    exact ⟨nofun, nofun, nofun⟩
  | resolved state requested existing id =>
    refine ⟨?_, ?_, ?_⟩ <;> intro heq <;> rw [heq] at state <;> cases state

theorem Follows.final (h : Follows s a r r')
    (hfinal : r.state = .delivered ∨ r.state = .blocked ∨ r.state = .cancelled) :
    r'.state = r.state := by
  rcases h.state with hsame | hleaves
  · exact hsame
  · obtain ⟨hdelivered, hblocked, hcancelled⟩ := hleaves.not_final
    rcases hfinal with heq | heq | heq
    · exact absurd heq hdelivered
    · exact absurd heq hblocked
    · exact absurd heq hcancelled

/-! ## Every run -/

theorem Unique.initial (h : Initial s) : Unique s := by
  obtain ⟨hrows, htasks, _⟩ := h
  constructor
  · rw [hrows]
    exact Keyed.nil
  · rw [hrows]
    exact Keyed.nil
  · rw [htasks]
    exact Keyed.nil

theorem Attempts.initial (h : Initial s) : Attempts s := by
  obtain ⟨hrows, htasks, _⟩ := h
  constructor
  · rw [htasks]
    exact Held.nil s.rows
  · intro r hr
    rw [hrows] at hr
    cases hr

theorem unique_of_reachable {ok : Dispatcher → DispatcherAction → Prop}
    (h : Reachable step ok Initial s) : Unique s :=
  h.invariant (fun _ h0 => Unique.initial h0) fun _ _ _ hs _ hstep => hs.step hstep

theorem attempts_of_reachable (h : Reachable step RecoversOrphans Initial s) : Attempts s := by
  have hboth : Unique s ∧ Attempts s :=
    h.invariant (P := fun s => Unique s ∧ Attempts s)
      (fun _ h0 => ⟨Unique.initial h0, Attempts.initial h0⟩)
      fun _ _ _ hs hok hstep => ⟨hs.1.step hstep, hs.2.step hs.1 hok hstep⟩
  exact hboth.2

theorem Held.claimant {u : DispatchTask} (h : Held s.rows s.tasks)
    (hkey : Keyed sessionId s.tasks) (ht : t ∈ s.tasks) (hu : u ∈ s.tasks)
    (hidt : id ∈ t.claimed.map IssueCommentDelivery.id)
    (hidu : id ∈ u.claimed.map IssueCommentDelivery.id) : t = u := by
  obtain ⟨c, hc, rfl⟩ := mem_map.1 hidt
  obtain ⟨d, hd, heq⟩ := mem_map.1 hidu
  by_contra hne
  have hsession : t.sessionId ≠ u.sessionId := fun hsame => hne (hkey.eq ht hu hsame)
  exact h.apart t ht u hu hsession c (mem_held.2 (.inr hc)) d (mem_held.2 (.inr hd)) heq.symm

/-- In every run there is one row for each comment, and a step changes the state
    of a row only as `Leaves` says; so never that of a delivered, blocked or cancelled one. Where
    recovery acts on rows whose claimant is gone, a claimed row has one claimant, and since its last
    resolution a row was claimed at most three times and once more for each time that recovery made
    it pending. -/
theorem ledger_state_machine (s : Dispatcher) : (Reachable step anyStep Initial s →
      Keyed IssueCommentDelivery.commentId s.rows ∧
        ∀ a s', s.step a = some s' → ∀ r ∈ s.rows, ∃ r' ∈ s'.rows, r'.id = r.id ∧
          (r'.state = r.state ∨ Leaves s r a) ∧
          ((r.state = .delivered ∨ r.state = .blocked ∨ r.state = .cancelled) →
            r'.state = r.state)) ∧ (Reachable step RecoversOrphans Initial s →
      (∀ t ∈ s.tasks, ∀ u ∈ s.tasks, ∀ id ∈ t.claimed.map IssueCommentDelivery.id,
        id ∈ u.claimed.map IssueCommentDelivery.id → t = u) ∧
      ∀ r ∈ s.rows, r.attemptCount = claims r.id s.log ∧
        claims r.id s.log ≤ 3 + returns r.id s.log) := by
  constructor
  · intro h
    have hunique := unique_of_reachable h
    refine ⟨hunique.comments, ?_⟩
    intro a s' hstep r hr
    obtain ⟨r', hr', hfollows⟩ := (effect_of_step hunique.ids hstep).follows r hr
    exact ⟨r', hr', hfollows.id, hfollows.state, hfollows.final⟩
  · intro h
    have hunique := unique_of_reachable h
    have hattempts := attempts_of_reachable h
    refine ⟨?_, ?_⟩
    · intro t ht u hu id hidt hidu
      exact hattempts.held.claimant hunique.sessions ht hu hidt hidu
    · intro r hr
      have hcounted := hattempts.counted r hr
      exact ⟨hcounted.attempts, hcounted.attempts ▸ hcounted.bound⟩

/-! ## Examples -/

/-- A request for the comment `1` is resolved to the session `3`. -/
def exampleRequest : List DispatcherAction :=
  [.request 1 5 none .ui, .find 0 none, .readTurn 0, .resolve 0 (.ok ⟨[⟨4, 3, .waiting⟩], none⟩) 7]

def exampleLedger : Dispatcher := ⟨[], [], [], [], [], [], []⟩

theorem initial_exampleLedger : exampleLedger.Initial := ⟨rfl, rfl, rfl, rfl, rfl, rfl⟩

def exampleResolved : Dispatcher :=
  (exec step RecoversOrphans exampleLedger exampleRequest).getD exampleLedger

/-- A task of the session claims the row; the server stops, and recovery makes the row pending. -/
def exampleInterrupted (s : Dispatcher) : List DispatcherAction :=
  [.start 3 0 (listDue s.rows 3 0), .task 3 .claim, .crash, .recover 7 .none]

def exampleNext (s : Dispatcher) : Dispatcher :=
  (exec step RecoversOrphans s (exampleInterrupted s)).getD exampleLedger

def exampleFirst : Dispatcher := exampleNext exampleResolved

def exampleThird : Dispatcher := exampleNext (exampleNext exampleFirst)

def exampleClaim (s : Dispatcher) : List DispatcherAction :=
  [.start 3 0 (listDue s.rows 3 0), .task 3 .claim]

def exampleSecondClaim : Dispatcher :=
  (exec step RecoversOrphans exampleFirst (exampleClaim exampleFirst)).getD exampleLedger

theorem reachable_exampleFirst : Reachable step RecoversOrphans Initial exampleFirst := by
  have hrequest : exec step RecoversOrphans exampleLedger exampleRequest = some exampleResolved :=
    rfl
  have hfirst : exec step RecoversOrphans exampleResolved (exampleInterrupted exampleResolved) =
      some exampleFirst := rfl
  exact (reachable_of_exec initial_exampleLedger hrequest).runs (runs_of_exec hfirst)

/-- After a restart the row is claimed a second time, and nothing else is claimed. -/
theorem second_claim :
    exampleSecondClaim.rows.map (fun r => (r.state, r.attemptCount)) = [(.dispatching, 2)] ∧
    Keyed IssueCommentDelivery.commentId exampleSecondClaim.rows ∧
    ∀ r ∈ exampleSecondClaim.rows, r.attemptCount = claims r.id exampleSecondClaim.log ∧
      claims r.id exampleSecondClaim.log ≤ 3 + returns r.id exampleSecondClaim.log := by
  have hclaim : exec step RecoversOrphans exampleFirst (exampleClaim exampleFirst) =
      some exampleSecondClaim := rfl
  have hreach : Reachable step RecoversOrphans Initial exampleSecondClaim :=
    reachable_exampleFirst.runs (runs_of_exec hclaim)
  have hany : Reachable step anyStep Initial exampleSecondClaim := hreach.mono fun _ _ _ => trivial
  exact ⟨rfl, ((ledger_state_machine exampleSecondClaim).1 hany).1,
    ((ledger_state_machine exampleSecondClaim).2 hreach).2⟩

/-- Three restarts let a row be claimed four times without a request in between. -/
theorem fourth_claim : ∃ s s', Reachable step RecoversOrphans Initial s ∧
    Runs step RecoversOrphans s s' ∧ claims 7 s.log = 0 ∧ claims 7 s'.log = 4 ∧
    s'.log.filter (fun e => e = .resolved 7 false none) =
      s.log.filter (fun e => e = .resolved 7 false none) ∧
    s'.rows.map (fun r => (r.state, r.attemptCount)) = [(.dispatching, 4)] := by
  have hrequest : exec step RecoversOrphans exampleLedger exampleRequest = some exampleResolved :=
    rfl
  have hfirst : exec step RecoversOrphans exampleResolved (exampleInterrupted exampleResolved) =
      some exampleFirst := rfl
  have hsecond : exec step RecoversOrphans exampleFirst (exampleInterrupted exampleFirst) =
      some (exampleNext exampleFirst) := rfl
  have hthird : exec step RecoversOrphans (exampleNext exampleFirst)
      (exampleInterrupted (exampleNext exampleFirst)) = some exampleThird := rfl
  have hclaim : exec step RecoversOrphans exampleThird (exampleClaim exampleThird) = some _ := rfl
  have hruns := (((runs_of_exec hfirst).trans (runs_of_exec hsecond)).trans
    (runs_of_exec hthird)).trans (runs_of_exec hclaim)
  exact ⟨exampleResolved, _, reachable_of_exec initial_exampleLedger hrequest, hruns, rfl, rfl, rfl,
    rfl⟩

end Dispatcher

end VibeKanban.Ledger

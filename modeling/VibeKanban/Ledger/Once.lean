import VibeKanban.Ledger.Launches

/-!
# Comments are sent once

A row that is pending was not launched since it was resolved; a row that is claimed was not launched
before its task starts an agent; and for a claimed row without a task there is evidence, so that
recovery does not make it pending.

* `comments_launched_once`: a row is launched once for each time that it was resolved, if a delivery
  that is cut off leaves evidence and recovery begins before a row is claimed.
-/

namespace VibeKanban.Ledger

open Cluster Lib Option Dispatcher DispatchTask Nat
open List hiding find?_some

/-! ## Evidence of an earlier start -/

def MarkedTurn.Evident (turn : MarkedTurn) : Prop := turn.launched = true ∨ turn.uncertain = true
  deriving Decidable

section

variable {turns : List MarkedTurn} {sessionId commentId : Uuid} {turn : MarkedTurn}

theorem mem_findTurnsWithMarker : turn ∈ findTurnsWithMarker turns sessionId commentId ↔
    turn ∈ turns ∧ turn.sessionId = sessionId ∧ commentId ∈ turn.comments := by
  rw [findTurnsWithMarker, mem_filter, Bool.and_eq_true, beq_iff_eq, decide_eq_true_iff]

/-- A turn with evidence is found by `earlier_attempt`. -/
theorem earlierAttempt_ne_none (hmem : turn ∈ turns) (hsession : turn.sessionId = sessionId)
    (hcomment : commentId ∈ turn.comments) (hevident : turn.Evident) :
    earlierAttempt turns sessionId commentId ≠ .none := by
  have hfound : turn ∈ findTurnsWithMarker turns sessionId commentId :=
    mem_findTurnsWithMarker.2 ⟨hmem, hsession, hcomment⟩
  unfold earlierAttempt
  split
  · exact nofun
  · rename_i hlaunched
    have hnot := find?_none hlaunched turn hfound
    split
    · exact nofun
    · rename_i huncertain
      have hnot' := find?_none huncertain turn hfound
      rcases hevident with h | h
      · rw [h] at hnot
        cases hnot
      · rw [h] at hnot'
        cases hnot'

def LastOf (turns : List MarkedTurn) (sessionId : Uuid) (turn : MarkedTurn) : Prop :=
  turn.sessionId = sessionId ∧ ∃ before after, turns = before ++ turn :: after ∧
    ∀ other ∈ after, other.sessionId ≠ sessionId

theorem LastOf.mem (h : LastOf turns sessionId turn) : turn ∈ turns := by
  obtain ⟨_, before, after, rfl, _⟩ := h
  exact mem_append_right before mem_cons_self

theorem LastOf.concat (h : turn.sessionId = sessionId) : LastOf (turns ++ [turn]) sessionId turn :=
  ⟨h, turns, [], rfl, nofun⟩

theorem LastOf.append {other : MarkedTurn} (h : LastOf turns sessionId turn)
    (hother : other.sessionId ≠ sessionId) : LastOf (turns ++ [other]) sessionId turn := by
  obtain ⟨hsession, before, after, rfl, hafter⟩ := h
  refine ⟨hsession, before, after ++ [other], ?_, ?_⟩
  · rw [append_assoc, cons_append]
  · intro o ho
    rcases mem_append.1 ho with ho | ho
    · exact hafter o ho
    · rw [mem_singleton.1 ho]
      exact hother

theorem LastOf.update {p : MarkedTurn → Bool} {f : MarkedTurn → MarkedTurn}
    (hf : ∀ turn, (f turn).sessionId = turn.sessionId) (h : LastOf turns sessionId turn) :
    LastOf (Lib.update p f turns) sessionId (if p turn then f turn else turn) := by
  obtain ⟨hsession, before, after, rfl, hafter⟩ := h
  refine ⟨?_, Lib.update p f before, Lib.update p f after, ?_, ?_⟩
  · split_ifs
    · exact (hf turn).trans hsession
    · exact hsession
  · unfold Lib.update
    rw [map_append, map_cons]
  · apply forall_mem_update
    · intro other hother _
      rw [hf other]
      exact hafter other hother
    · exact fun other hother _ => hafter other hother

/-- The last turn of the session is the one that `latest_attempt` reads. -/
theorem latestAttempt_ne_none (h : LastOf turns sessionId turn)
    (hcomment : commentId ∈ turn.comments) (hevident : turn.Evident) :
    latestAttempt turns sessionId commentId ≠ .none := by
  obtain ⟨hsession, before, after, rfl, hafter⟩ := h
  have hlast : (findTurnsWithMarker (before ++ turn :: after) sessionId commentId).getLast? =
      some turn := by
    unfold findTurnsWithMarker
    have hnone : (after.filter fun turn =>
        turn.sessionId == sessionId && decide (commentId ∈ turn.comments)) = [] := by
      rw [filter_eq_nil_iff]
      intro other hother hboth
      rw [Bool.and_eq_true, beq_iff_eq] at hboth
      exact hafter other hother hboth.1
    have hturn : (turn.sessionId == sessionId && decide (commentId ∈ turn.comments)) = true := by
      rw [Bool.and_eq_true, beq_iff_eq, decide_eq_true_iff]
      exact ⟨hsession, hcomment⟩
    rw [filter_append, filter_cons, if_pos hturn, hnone, getLast?_concat]
  unfold latestAttempt
  rw [hlast]
  show (if turn.launched then _ else _) ≠ _
  split_ifs with hlaunched huncertain
  · exact nofun
  · exact nofun
  · rcases hevident with h | h
    · exact absurd h hlaunched
    · exact absurd h huncertain

end

/-! ## Resolutions -/

theorem resolutions_resolved {id : Uuid} {agentOrigin : Bool} {ancestor : Option Uuid}
    {log : List LedgerEvent} :
    resolutions id (.resolved id agentOrigin ancestor :: log) = resolutions id log + 1 := if_pos rfl

theorem resolutions_other {id : Uuid} {e : LedgerEvent} {log : List LedgerEvent} (h : e.id ≠ id) :
    resolutions id (e :: log) = resolutions id log := by
  cases e with
  | resolved i agentOrigin ancestor => exact if_neg h
  | claimed i => rfl
  | returned i => rfl

theorem resolutions_le (id : Uuid) (e : LedgerEvent) (log : List LedgerEvent) :
    resolutions id log ≤ resolutions id (e :: log) := by
  cases e with
  | resolved i agentOrigin ancestor =>
    show _ ≤ if i = id then _ else _
    split_ifs
    · exact le_succ _
    · exact le_refl _
  | claimed i | returned i => exact le_refl _

namespace Dispatcher

variable {s s' : Dispatcher} {a : DispatcherAction}

variable {rows : Rows} {tasks : List DispatchTask} {log : List LedgerEvent}

theorem Effect.resolutions_le
    (h : Effect s a rows tasks log) (id : Uuid) : resolutions id s.log ≤ resolutions id log := by
  cases h with
  | claimed mem first applied | inserted fresh first resolves attempts execution
  | resolved request existing resolves applied | returned finished =>
      exact Ledger.resolutions_le id _ _
  | _ => exact le_refl _

theorem id_of_update {p : IssueCommentDelivery → Bool}
    {f : IssueCommentDelivery → IssueCommentDelivery} (hf : ∀ r, (f r).id = r.id) :
    ∀ r' ∈ update p f rows, ∃ r ∈ rows, r.id = r'.id := by
  apply forall_mem_update
  · exact fun r hr _ => ⟨r, hr, (hf r).symm⟩
  · exact fun r hr _ => ⟨r, hr, rfl⟩

theorem Effect.resolved_new (h : Effect s a rows tasks log) :
    ∀ r' ∈ rows, (∃ r ∈ s.rows, r.id = r'.id) ∨ 1 ≤ resolutions r'.id log := by
  have hsame : ∀ r' ∈ s.rows, (∃ r ∈ s.rows, r.id = r'.id) ∨ 1 ≤ resolutions r'.id log :=
    fun r hr => .inl ⟨r, hr, rfl⟩
  have hupdate : ∀ p f, (∀ r, IssueCommentDelivery.id (f r) = r.id) → ∀ r' ∈ update p f s.rows,
      (∃ r ∈ s.rows, r.id = r'.id) ∨ 1 ≤ resolutions r'.id log :=
    fun p f hf r hr => .inl (id_of_update hf r hr)
  have htouches : ∀ rows', Touches s.rows rows' → ∀ r' ∈ rows',
      (∃ r ∈ s.rows, r.id = r'.id) ∨ 1 ≤ resolutions r'.id log := by
    rintro _ ⟨p, f, hf, rfl⟩
    exact hupdate p f fun r => (hf r).1.id
  cases h with
  | touched touches | passed mem rest touches => exact htouches _ touches
  | finished mem first | claimed mem first applied | cancelled
  | resolved request existing resolves applied => exact hupdate _ _ fun _ => rfl
  | settled mem held finished retried | recovered finished final | returned finished =>
      exact hupdate _ _ fun r => (finished r).id
  | inserted fresh first resolves attempts execution =>
    intro r hr
    rcases mem_append.1 hr with hold | hnew
    · exact .inl ⟨r, hold, rfl⟩
    · rw [mem_singleton.1 hnew, resolutions_resolved]
      exact .inr (le_add_left 1 _)
  | _ => exact hsame

theorem resolved_of_reachable {ok : Dispatcher → DispatcherAction → Prop}
    (h : Reachable step ok Initial s) : ∀ r ∈ s.rows, 1 ≤ resolutions r.id s.log := by
  have hboth : Unique s ∧ ∀ r ∈ s.rows, 1 ≤ resolutions r.id s.log := by
    apply h.invariant (P := fun s => Unique s ∧ ∀ r ∈ s.rows, 1 ≤ resolutions r.id s.log)
    · intro s hinitial
      refine ⟨Unique.initial hinitial, ?_⟩
      rw [hinitial.1]
      intro r hr
      cases hr
    · intro s a s' hs _ hstep
      refine ⟨hs.1.step hstep, ?_⟩
      have heffect := effect_of_step hs.1.ids hstep
      intro r' hr'
      rcases heffect.resolved_new r' hr' with ⟨r, hr, hid⟩ | hnew
      · rw [← hid]
        exact le_trans (hs.2 r hr) (heffect.resolutions_le r.id)
      · exact hnew
  exact hboth.2

variable {r : IssueCommentDelivery}

theorem Effect.resolved_again (hkey : Keyed IssueCommentDelivery.id s.rows)
    (h : Effect s a rows tasks log) (hr : r ∈ s.rows)
    (hagain : resolutions r.id log ≠ resolutions r.id s.log) :
    r.state.isResolvable = true ∧ ∃ i resolved newId, a = .resolve i resolved newId := by
  cases h with
  | claimed mem first applied => exact absurd rfl hagain
  | inserted fresh first resolves attempts execution =>
    exact absurd (resolutions_other fun heq => fresh r hr heq.symm) hagain
  | @resolved i resolved newId request row resolution agentOrigin ancestor _ _ _ applied =>
    by_cases hid : row.id = r.id
    · obtain ⟨r', hr', hid', hstate⟩ := (updateRow_applied hkey).1 applied
      obtain rfl := hkey.eq hr hr' (hid.symm.trans hid'.symm)
      exact ⟨hstate, i, resolved, newId, rfl⟩
    · have hother : resolutions r.id (.resolved row.id agentOrigin ancestor :: s.log) =
          resolutions r.id s.log := resolutions_other hid
      exact absurd hother hagain
  | returned finished => exact absurd rfl hagain
  | _ => exact absurd rfl hagain

/-! ## Steps that settle nothing -/

/-- Neither a row is settled nor recovered, nor a task ended. -/
def Quiet : DispatcherAction → Prop
  | .task _ (.settle _ _) | .task _ .stop | .recover _ _ | .crash => False
  | _ => True

theorem quiet_of_isPlain (h : a.isPlain = true) : Quiet a := by
  unfold Quiet
  split <;> trivial

/-- Where a row comes from: it is the old one, or a claimed one, or one that was just resolved. -/
inductive Comes (s : Dispatcher) (tasks : List DispatchTask) (log : List LedgerEvent)
    (r' : IssueCommentDelivery) : Prop where
  | kept {r : IssueCommentDelivery} (mem : r ∈ s.rows) (id : r.id = r'.id)
      (commentId : r.commentId = r'.commentId)
      (sessionId : r'.sessionId = r.sessionId ∨ r'.sessionId = none)
      (state : r'.state = r.state ∨ (r'.state ≠ .pending ∧
        (r'.state = .dispatching → ∃ t ∈ tasks, r'.id ∈ t.claimed.map IssueCommentDelivery.id)))
  | resolved (resolutions : resolutions r'.id log = Ledger.resolutions r'.id s.log + 1)
      (state : r'.state ≠ .dispatching)

theorem Comes.same (h : r ∈ s.rows) : Comes s tasks log r := .kept h rfl rfl (.inl rfl) (.inl rfl)

theorem Touches.comes (h : Touches s.rows rows) : ∀ r' ∈ rows, Comes s tasks log r' := by
  obtain ⟨p, f, hf, rfl⟩ := h
  apply forall_mem_update
  · intro r hr _
    obtain ⟨hkept, hstate⟩ := hf r
    exact .kept hr hkept.id.symm hkept.commentId.symm hkept.sessionId (.inl hstate)
  · exact fun r hr _ => .same hr

theorem Effect.comes
    (hquiet : Quiet a) (h : Effect s a rows tasks log) : ∀ r' ∈ rows, Comes s tasks log r' := by
  cases h with
  | touched touches | passed mem rest touches => exact Touches.comes touches
  | started free listed => exact fun r hr => .same hr
  | stopped | crashed | settled mem held finished retried | recovered finished final
  | returned finished => exact hquiet.elim
  | finished mem first | cancelled =>
    apply forall_updateRow
    · exact fun r hr _ _ => .kept hr rfl rfl (.inl rfl) (.inr ⟨nofun, nofun⟩)
    · exact fun r hr _ => .same hr
  | @claimed t row due mem first applied =>
    apply forall_updateRow
    · intro r hr hid _
      refine .kept hr rfl rfl (.inl rfl) (.inr ⟨nofun, fun _ => ?_⟩)
      refine ⟨_, mem_update_of mem (beq_self_eq_true _), ?_⟩
      rw [map_append, mem_append]
      exact .inr (mem_singleton.2 hid)
    · exact fun r hr _ => .same hr
  | inserted fresh first resolves attempts execution =>
    intro r hr
    rcases mem_append.1 hr with hold | hnew
    · exact .same hold
    · rw [mem_singleton.1 hnew]
      exact .resolved resolutions_resolved resolves.state.1
  | @resolved i resolved newId request row resolution agentOrigin ancestor _ _ resolves applied =>
    apply forall_updateRow
    · intro r hr hid _
      refine .resolved ?_ resolves.state.1
      show resolutions r.id _ = _
      rw [hid]
      exact resolutions_resolved
    · exact fun r hr _ => .same hr

/-- What becomes of a row: only a resolvable one gets another session. -/
structure Goes (r r' : IssueCommentDelivery) : Prop where
  id : r'.id = r.id
  commentId : r'.commentId = r.commentId
  sessionId : r'.sessionId = r.sessionId ∨ r'.sessionId = none ∨ r.state.isResolvable = true
  dispatching : r.state = .dispatching → r'.state = .dispatching

theorem Goes.refl (r : IssueCommentDelivery) : Goes r r := ⟨rfl, rfl, .inl rfl, fun h => h⟩

variable {id : Uuid}

theorem Goes.of_state {r' : IssueCommentDelivery} {from' : DeliveryState → Bool}
    (hfrom : from' .dispatching = false) (hr : (r.id == id && from' r.state) = true)
    (hid : r'.id = r.id) (hcomment : r'.commentId = r.commentId)
    (hsession : r'.sessionId = r.sessionId ∨ r'.sessionId = none ∨ r.state.isResolvable = true) :
    Goes r r' := by
  refine ⟨hid, hcomment, hsession, ?_⟩
  intro hstate
  have hselected := (selects_iff.1 hr).2
  rw [hstate, hfrom] at hselected
  cases hselected

theorem Touches.goes {rows' : Rows} (h : Touches rows rows') :
    ∀ r ∈ rows, ∃ r' ∈ rows', Goes r r' := by
  obtain ⟨p, f, hf, rfl⟩ := h
  apply exists_update_of_mem Goes.refl
  intro r _
  obtain ⟨hkept, hstate⟩ := hf r
  refine ⟨hkept.id, hkept.commentId, ?_, fun h => hstate.trans h⟩
  rcases hkept.sessionId with hsame | hnone
  · exact .inl hsame
  · exact .inr (.inl hnone)

theorem Effect.goes
    (hquiet : Quiet a) (h : Effect s a rows tasks log) : ∀ r ∈ s.rows, ∃ r' ∈ rows, Goes r r' := by
  have hsame : ∀ r ∈ s.rows, ∃ r' ∈ s.rows, Goes r r' := fun r hr => ⟨r, hr, Goes.refl r⟩
  cases h with
  | touched touches | passed mem rest touches => exact Touches.goes touches
  | started free listed => exact hsame
  | stopped | crashed | settled mem held finished retried | recovered finished final
  | returned finished => exact hquiet.elim
  | finished mem first | claimed mem first applied | cancelled =>
    exact exists_update_of_mem Goes.refl fun r hp => .of_state rfl hp rfl rfl (.inl rfl)
  | inserted fresh first resolves attempts execution =>
    exact fun r hr => ⟨r, mem_append_left _ hr, Goes.refl r⟩
  | resolved request existing resolves applied =>
    apply exists_update_of_mem Goes.refl
    intro r hp
    exact .of_state rfl hp rfl rfl (.inr (.inr (selects_iff.1 hp).2))

inductive Took (s : Dispatcher) (a : DispatcherAction) (t' : DispatchTask) : Prop where
  | kept (mem : t' ∈ s.tasks)
  | moved {t : DispatchTask} (mem : t ∈ s.tasks) (session : t'.sessionId = t.sessionId)
      (held : ∀ e ∈ t'.held, e ∈ t.held) (idle : t.delivering = false)
  | began {σ : Uuid} {now : Timestamp} {due : Rows} (action : a = .start σ now due)
      (task : t' = ⟨σ, due, [], false⟩) (listed : due.Subperm (listDue s.rows σ now))

theorem taskStep_delivering {t : DispatchTask} {a : TaskAction}
    (hquiet : Quiet (.task t.sessionId a)) (hdelivering : t.delivering = true)
    (h : s.taskStep t a = some s') : s'.tasks = s.tasks := by
  unfold taskStep at h
  split at h
  · exact hquiet.elim
  · split_ifs at h with hcond
    rw [hdelivering] at hcond
    cases hcond.1
  · rw [if_pos hdelivering] at h
    cases a with
    | snapshot id message commentUpdatedAt =>
      obtain ⟨row, _, rfl⟩ := map_eq_some_iff.1 h
      rfl
    | launch turnId =>
      simp only [deliverStep] at h
      split_ifs at h
      cases h
      rfl
    | settle id outcome => exact hquiet.elim
    | _ => cases h

theorem mem_setTask {t u : DispatchTask} (h : u ∈ (s.setTask t).tasks) : u = t ∨ u ∈ s.tasks := by
  obtain ⟨v, hv, rfl⟩ := mem_update.1 h
  split_ifs
  · exact .inl rfl
  · exact .inr hv

section

variable (hunique : Unique s) (hquiet : Quiet a) (h : s.step a = some s')
include hunique hquiet h

theorem step_took : ∀ t' ∈ s'.tasks, Took s a t' := by
  have heffect := effect_of_step hunique.ids h
  -- a task that delivers keeps what it has
  by_cases hdelivers : s'.tasks = s.tasks
  · rw [hdelivers]
    exact fun t' ht' => .kept ht'
  · have hidle : ∀ t ∈ s.tasks, ∀ a', a = .task t.sessionId a' → t.delivering = false := by
      intro t ht a' ha
      by_contra hdelivering
      apply hdelivers
      subst ha
      obtain ⟨u, hu, hstep⟩ := bind_eq_some_iff.1 h
      obtain ⟨hmem, hid⟩ := find?_some hu
      obtain rfl := hunique.sessions.eq hmem ht (beq_iff_eq.1 hid)
      exact taskStep_delivering hquiet (Bool.eq_true_of_not_eq_false hdelivering) hstep
    clear hdelivers
    generalize s'.rows = rows, s'.tasks = tasks, s'.log = log at heffect
    cases heffect with
    | started free listed =>
      intro t' ht'
      rcases mem_append.1 ht' with hold | hnew
      · exact .kept hold
      · exact .began rfl (mem_singleton.1 hnew) listed
    | stopped | crashed | settled mem held finished retried | recovered finished final
    | returned finished => exact hquiet.elim
    | @passed _ t due _ _ mem rest touches =>
      intro t' ht'
      rcases mem_setTask ht' with rfl | hold
      · refine .moved mem rfl ?_ (hidle t mem _ rfl)
        intro e he
        rcases mem_held.1 he with he | he
        · exact mem_held.2 (.inl (rest.subset he))
        · exact mem_held.2 (.inr he)
      · exact .kept hold
    | @finished _ t row due mem first =>
      intro t' ht'
      rcases mem_setTask ht' with rfl | hold
      · refine .moved mem rfl ?_ (hidle t mem _ rfl)
        intro e he
        rcases mem_held.1 he with he | he
        · exact mem_held.2 (.inl (first ▸ mem_cons_of_mem row he))
        · exact mem_held.2 (.inr he)
      · exact .kept hold
    | @claimed t row due mem first applied =>
      intro t' ht'
      rcases mem_setTask ht' with rfl | hold
      · refine .moved mem rfl ?_ (hidle t mem _ rfl)
        intro e he
        rcases mem_held.1 he with he | he
        · exact mem_held.2 (.inl (first ▸ mem_cons_of_mem row he))
        · rcases mem_append.1 he with he | he
          · exact mem_held.2 (.inr he)
          · rw [mem_singleton.1 he]
            exact mem_held.2 (.inl (first ▸ mem_cons_self))
      · exact .kept hold
    | _ => exact fun t' ht' => .kept ht'

theorem step_claims : ∀ t ∈ s.tasks, ∃ t' ∈ s'.tasks, ∀ c ∈ t.claimed, c ∈ t'.claimed := by
  have heffect := effect_of_step hunique.ids h
  generalize s'.rows = rows, s'.tasks = tasks, s'.log = log at heffect
  have hset : ∀ t t' : DispatchTask, t ∈ s.tasks → t'.sessionId = t.sessionId →
      (∀ c ∈ t.claimed, c ∈ t'.claimed) →
      ∀ u ∈ s.tasks, ∃ u' ∈ (s.setTask t').tasks, ∀ c ∈ u.claimed, c ∈ u'.claimed := by
    intro t t' ht hsession hclaimed u hu
    refine ⟨_, mem_update_ite hu, ?_⟩
    split_ifs with hid
    · obtain rfl := hunique.sessions.eq hu ht ((beq_iff_eq.1 hid).trans hsession)
      exact hclaimed
    · exact fun c hc => hc
  cases heffect with
  | started free listed => exact fun t ht => ⟨t, mem_append_left _ ht, fun c hc => hc⟩
  | stopped | crashed | settled mem held finished retried | recovered finished final
  | returned finished => exact hquiet.elim
  | passed mem rest touches | finished mem first => exact hset _ _ mem rfl fun c hc => hc
  | claimed mem first applied => exact hset _ _ mem rfl fun c hc => mem_append_left _ hc
  | _ => exact fun t ht => ⟨t, ht, fun c hc => hc⟩

end

/-! ## Steps that settle a row -/

theorem settled_of_step {σ : Uuid} {outcome : Outcome}
    (h : s.step (.task σ (.settle id outcome)) = some s') :
    ∃ t ∈ s.tasks, ∃ row ∈ t.claimed, ∃ f, t.sessionId = σ ∧ row.id = id ∧
      (∀ r, Finished r (f r)) ∧ (outcome.retries = false → ∀ r, (f r).state ≠ .pending) ∧
      s'.rows = (updateRow s.rows id isDispatching f).1 ∧
      s'.tasks = (s.setTask { t with claimed := t.claimed.filter fun c => c.id ≠ id }).tasks ∧
      s'.log = s.log := by
  obtain ⟨t, ht, hstep⟩ := bind_eq_some_iff.1 h
  obtain ⟨hmem, hσ⟩ := find?_some ht
  simp only [taskStep] at hstep
  split_ifs at hstep with hdelivering
  · obtain ⟨row, hrow, rfl⟩ := map_eq_some_iff.1 hstep
    obtain ⟨hheld, hid⟩ := find?_some hrow
    obtain ⟨f, hsettle, hends, hfinal⟩ := settle_finishes s.rows row outcome
    refine ⟨t, hmem, row, hheld, f, beq_iff_eq.1 hσ, beq_iff_eq.1 hid, hends, ?_, ?_, rfl, rfl⟩
    · intro hretries
      rw [hretries] at hfinal
      exact hfinal.resolve_right nofun
    · rw [← beq_iff_eq.1 hid]
      exact hsettle
  · split at hstep
    all_goals cases hstep

theorem recovered_of_step {attempt : EarlierAttempt} (h : s.step (.recover id attempt) = some s') :
    ∃ r ∈ s.rows, ∃ f, r.id = id ∧ r.state = .dispatching ∧ (∀ r, Finished r (f r)) ∧
      (attempt ≠ .none → r.sessionId ≠ none → ∀ r, (f r).state ≠ .pending) ∧
      s'.rows = (updateRow s.rows id isDispatching f).1 ∧ s'.tasks = s.tasks ∧
      ∀ i, resolutions i s'.log = resolutions i s.log := by
  obtain ⟨r, hr, hrecover⟩ := bind_eq_some_iff.1 h
  obtain ⟨hmem, hid⟩ := find?_some hr
  obtain rfl := beq_iff_eq.1 hid
  split_ifs at hrecover with hstate
  cases hrecover
  unfold recoverRow
  split
  · obtain ⟨f, hf, hends, hfinal⟩ := finishDispatch_finishes s.rows r.id .failed
      (some .launchUncertain) (some (uncertainError _)) none nofun
    exact ⟨r, hmem, f, rfl, hstate, hends, fun _ _ r => hfinal r ▸ nofun, hf, rfl, fun _ => rfl⟩
  · obtain ⟨f, hf, hends, hfinal⟩ :=
      markDelivered_finishes s.rows r.id _ (r.deliveredMessage.getD "")
      r.deliveredCommentUpdatedAt
    exact ⟨r, hmem, f, rfl, hstate, hends, fun _ _ r => hfinal r ▸ nofun, hf, rfl, fun _ => rfl⟩
  · rename_i hnone
    obtain ⟨f, hf, hends, _⟩ := finishDispatch_finishes s.rows r.id .pending
      (some .retryScheduled) (some "delivery was interrupted by a server restart") none nofun
    refine ⟨r, hmem, f, rfl, hstate, hends, ?_, hf, rfl, ?_⟩
    · intro hattempt hsession
      rw [if_pos (isSome_iff_ne_none.2 hsession)] at hnone
      exact absurd hnone hattempt
    · intro i
      dsimp only
      split_ifs <;> rfl

end Dispatcher

/-! ## What a delivery has reached -/

def LaunchPc.before : LaunchPc → Bool
  | .checking _ | .starting | .created _ | .jobCreated _ | .sent _ false => true
  | _ => false

def LaunchPc.turnId : LaunchPc → Option Uuid
  | .created turnId | .spawned turnId | .jobCreated turnId | .sent turnId _ | .accepted turnId
  | .started turnId => some turnId
  | _ => none

/-- The row of an entry: with its comment and its session, unless that was deleted. -/
structure Behind (σ : Uuid) (e r : IssueCommentDelivery) : Prop where
  id : r.id = e.id
  commentId : r.commentId = e.commentId
  sessionId : r.sessionId = some σ ∨ r.sessionId = none

/-- The rows that a task holds were not launched before it starts an agent, and its execution is
    the last of the session. -/
structure Progress (rows : Rows) (turns : List MarkedTurn) (spent : Uuid → Prop) (pc : LaunchPc)
    (t : DispatchTask) : Prop where
  idle : t.delivering = false → ∃ checked, pc = .checking checked
  unlaunched : pc.before = true → ∀ e ∈ t.held, ¬ spent e.id
  behind : ∀ e ∈ t.held, ∃ r ∈ rows, Behind t.sessionId e r
  turn : ∀ turnId, pc.turnId = some turnId → ∃ turn, LastOf turns t.sessionId turn ∧
    turn.id = turnId ∧ (∀ c ∈ t.claimed, c.commentId ∈ turn.comments) ∧
    (pc.before = false → turn.agentStarted = true)
  failed : pc = .failed → ∀ c ∈ t.claimed, spent c.id → ∃ turn, LastOf turns t.sessionId turn ∧
    c.commentId ∈ turn.comments ∧ turn.Evident

/-- What never changes in a turn, and what is never lost. -/
structure Grows (f : MarkedTurn → MarkedTurn) : Prop where
  id : ∀ turn, (f turn).id = turn.id
  sessionId : ∀ turn, (f turn).sessionId = turn.sessionId
  comments : ∀ turn, (f turn).comments = turn.comments
  agentStarted : ∀ turn, turn.agentStarted = true → (f turn).agentStarted = true
  evident : ∀ turn, turn.Evident → (f turn).Evident

section

variable {rows rows' : Rows} {turns turns' : List MarkedTurn} {spent spent' : Uuid → Prop}
  {pc : LaunchPc} {t t' : DispatchTask}

theorem Progress.mono (h : Progress rows turns spent pc t)
    (hrows : ∀ e ∈ t.held, ∀ r ∈ rows, Behind t.sessionId e r →
      ∃ r' ∈ rows', Behind t.sessionId e r')
    (hspent : ∀ e ∈ t.held, spent' e.id → spent e.id) : Progress rows' turns spent' pc t where
  idle := h.idle
  unlaunched hpc e he hlaunched := h.unlaunched hpc e he (hspent e he hlaunched)
  behind e he := by
    obtain ⟨r, hr, hbehind⟩ := h.behind e he
    exact hrows e he r hr hbehind
  turn := h.turn
  failed hpc c hc hlaunched := h.failed hpc c hc (hspent c (mem_held.2 (.inr hc)) hlaunched)

theorem Progress.fewer (h : Progress rows turns spent pc t) (hsession : t'.sessionId = t.sessionId)
    (hdelivering : t'.delivering = t.delivering) (hheld : ∀ e ∈ t'.held, e ∈ t.held)
    (hclaimed : ∀ c ∈ t'.claimed, c ∈ t.claimed) : Progress rows turns spent pc t' := by
  constructor
  · rw [hdelivering]
    exact h.idle
  · exact fun hpc e he => h.unlaunched hpc e (hheld e he)
  · rw [hsession]
    exact fun e he => h.behind e (hheld e he)
  · rw [hsession]
    intro turnId hturn
    obtain ⟨turn, hlast, hid, hcomments, hstarted⟩ := h.turn turnId hturn
    exact ⟨turn, hlast, hid, fun c hc => hcomments c (hclaimed c hc), hstarted⟩
  · rw [hsession]
    exact fun hpc c hc => h.failed hpc c (hclaimed c hc)

theorem Grows.ite {f : MarkedTurn → MarkedTurn} (hf : Grows f) (p : MarkedTurn → Bool) :
    Grows fun turn => if p turn then f turn else turn := by
  constructor <;> intro turn
  · split_ifs
    · exact hf.id turn
    · rfl
  · split_ifs
    · exact hf.sessionId turn
    · rfl
  · split_ifs
    · exact hf.comments turn
    · rfl
  · split_ifs
    · exact hf.agentStarted turn
    · exact fun h => h
  · split_ifs
    · exact hf.evident turn
    · exact fun h => h

theorem Progress.grown (h : Progress rows turns spent pc t) (p : MarkedTurn → Bool)
    {f : MarkedTurn → MarkedTurn} (hf : Grows f) : Progress rows (update p f turns) spent pc t := by
  have hg := hf.ite p
  constructor
  · exact h.idle
  · exact h.unlaunched
  · exact h.behind
  · intro turnId hturn
    obtain ⟨turn, hlast, hid, hcomments, hstarted⟩ := h.turn turnId hturn
    refine ⟨_, hlast.update hf.sessionId, (hg.id turn).trans hid, ?_, ?_⟩
    · rw [hg.comments turn]
      exact hcomments
    · exact fun hpc => hg.agentStarted turn (hstarted hpc)
  · intro hpc c hc hlaunched
    obtain ⟨turn, hlast, hcomment, hevident⟩ := h.failed hpc c hc hlaunched
    refine ⟨_, hlast.update hf.sessionId, ?_, hg.evident turn hevident⟩
    rw [hg.comments turn]
    exact hcomment

theorem Progress.append (h : Progress rows turns spent pc t) {other : MarkedTurn}
    (hother : other.sessionId ≠ t.sessionId) : Progress rows (turns ++ [other]) spent pc t := by
  constructor
  · exact h.idle
  · exact h.unlaunched
  · exact h.behind
  · intro turnId hturn
    obtain ⟨turn, hlast, hturn⟩ := h.turn turnId hturn
    exact ⟨turn, hlast.append hother, hturn⟩
  · intro hpc c hc hlaunched
    obtain ⟨turn, hlast, hevident⟩ := h.failed hpc c hc hlaunched
    exact ⟨turn, hlast.append hother, hevident⟩

theorem grows_agentStarted : Grows fun turn => { turn with agentStarted := true } :=
  ⟨fun _ => rfl, fun _ => rfl, fun _ => rfl, fun _ _ => rfl, fun _ h => h⟩

theorem Progress.delivering (h : Progress rows turns spent pc t)
    (hpc : ∀ checked, pc ≠ .checking checked) : t.delivering = true := by
  by_contra hidle
  obtain ⟨checked, heq⟩ := h.idle (Bool.eq_false_iff.2 hidle)
  exact hpc checked heq

theorem Progress.advance {pc' : LaunchPc} (h : Progress rows turns spent pc t)
    (hdelivering : t.delivering = true) (hbefore : pc'.before = pc.before)
    (hturn : ∀ turnId, pc'.turnId = some turnId → pc.turnId = some turnId)
    (hfailed : pc' ≠ .failed) : Progress rows turns spent pc' t := by
  refine ⟨?_, ?_, h.behind, ?_, fun heq => absurd heq hfailed⟩
  · rw [hdelivering]
    exact nofun
  · rw [hbefore]
    exact h.unlaunched
  · rw [hbefore]
    exact fun turnId heq => h.turn turnId (hturn turnId heq)

theorem Progress.fail (h : Progress rows turns spent pc t)
    (hdelivering : t.delivering = true) (hturn : pc.before = false → pc.turnId ≠ none)
    (htraced : t.claimed ≠ [] → ∀ turn ∈ turns, pc.turnId = some turn.id →
      turn.agentStarted = true → turn.Evident) : Progress rows turns spent .failed t := by
  refine ⟨?_, nofun, h.behind, nofun, ?_⟩
  · rw [hdelivering]
    exact nofun
  · intro _ c hc hlaunched
    by_cases hbefore : pc.before = true
    · exact absurd hlaunched (h.unlaunched hbefore c (mem_held.2 (.inr hc)))
    · obtain ⟨turnId, hturnId⟩ := ne_none_iff_exists'.1 (hturn (Bool.eq_false_iff.2 hbefore))
      obtain ⟨turn, hlast, rfl, hcomments, hstarted⟩ := h.turn turnId hturnId
      exact ⟨turn, hlast, hcomments c hc, htraced (ne_nil_of_mem hc) turn hlast.mem hturnId
        (hstarted (Bool.eq_false_iff.2 hbefore))⟩

end

namespace Launching

variable {s s' : Launching}

/-- The row was launched since it was last resolved. -/
def Spent (s : Launching) (id : Uuid) : Prop := (id, resolutions id s.ledger.log) ∈ s.launches

/-- What a task has left to do leaves a trace: an agent that it has started has evidence. -/
def Traced (s : Launching) (t : DispatchTask) : Prop :=
  t.claimed ≠ [] → ∀ turn ∈ s.turns, (s.pc t.sessionId).turnId = some turn.id →
    turn.agentStarted = true → turn.Evident
  deriving Decidable

/-- A delivery that is cut off has left evidence of its agent, and recovery begins before a row is
    claimed. -/
def KeepsEvidence (s : Launching) : LaunchAction → Prop
  | .returns sessionId false | .stop sessionId =>
    ∀ t ∈ s.ledger.tasks, t.sessionId = sessionId → s.Traced t
  | .crash => ∀ t ∈ s.ledger.tasks, s.Traced t
  | .recover => ∀ t ∈ s.ledger.tasks, t.claimed = []
  | _ => True

instance (s : Launching) : (a : LaunchAction) → Decidable (KeepsEvidence s a)
  | .returns sessionId false | .stop sessionId =>
    inferInstanceAs (Decidable (∀ t ∈ s.ledger.tasks, t.sessionId = sessionId → s.Traced t))
  | .crash => inferInstanceAs (Decidable (∀ t ∈ s.ledger.tasks, s.Traced t))
  | .recover => inferInstanceAs (Decidable (∀ t ∈ s.ledger.tasks, t.claimed = []))
  | .returns _ true | .ledger _ | .check _ _ | .withdraw _ _ _ | .prepare _ | .snapshot _ _ _ _
  | .create _ _ | .spawn _ | .updatePgid _ | .createPending _ | .send _ _ | .recordAcceptance _
  | .markDelivered _ _ _ _ | .classify _ _ _ _ _ _ | .report _ _ _ | .recoverRead | .recoverWrite
  | .recoverStop => inferInstanceAs (Decidable True)

/-! ## The invariant -/

def Proven (s : Launching) (r : IssueCommentDelivery) : Prop :=
  s.Spent r.id → ∀ σ, r.sessionId = some σ →
    ∃ turn ∈ s.turns, turn.sessionId = σ ∧ r.commentId ∈ turn.comments ∧ turn.Evident

def Unclaimed (tasks : List DispatchTask) (id : Uuid) : Prop :=
  ∀ t ∈ tasks, id ∉ t.claimed.map IssueCommentDelivery.id

/-- A row that recovery has before it: still claimed, and by no task. -/
structure Recovers (s : Launching) (item : Recovering) (r : IssueCommentDelivery) : Prop where
  id : r.id = item.row.id
  commentId : r.commentId = item.row.commentId
  sessionId : r.sessionId = item.row.sessionId ∨ r.sessionId = none
  state : r.state = .dispatching
  unclaimed : Unclaimed s.ledger.tasks r.id
  read : item.attempt = some .none → r.sessionId ≠ none → ¬ s.Spent r.id

structure Once (s : Launching) : Prop where
  ledger : Reachable Dispatcher.step Dispatcher.RecoversOrphans Dispatcher.Initial s.ledger
  nodup : s.launches.Nodup
  bounded : ∀ id n, (id, n) ∈ s.launches → 1 ≤ n ∧ n ≤ resolutions id s.ledger.log
  pending : ∀ r ∈ s.ledger.rows, r.state = .pending → r.sessionId ≠ none → ¬ s.Spent r.id
  progress : ∀ t ∈ s.ledger.tasks, Progress s.ledger.rows s.turns s.Spent (s.pc t.sessionId) t
  orphans : ∀ r ∈ s.ledger.rows, r.state = .dispatching → Unclaimed s.ledger.tasks r.id → s.Proven r
  distinct : ∀ items, s.recovery = some items → (items.map fun item => item.row.id).Nodup
  recovery : ∀ items, s.recovery = some items → ∀ item ∈ items, ∃ r ∈ s.ledger.rows,
    s.Recovers item r

theorem Once.initial (h : Initial s) : Once s := by
  obtain ⟨hledger, _, hrecovery, hlaunches⟩ := h
  obtain ⟨hrows, htasks, _⟩ := id hledger
  refine ⟨Reachable.start hledger, ?_, ?_, ?_, ?_, ?_, ?_, ?_⟩
  · rw [hlaunches]
    exact nodup_nil
  · rw [hlaunches]
    intro id n hmem
    cases hmem
  · rw [hrows]
    intro r hr
    cases hr
  · rw [htasks]
    intro t ht
    cases ht
  · rw [hrows]
    intro r hr
    cases hr
  all_goals
    rw [hrecovery]
    intro items heq
    cases heq

theorem Once.unique (h : Once s) : Dispatcher.Unique s.ledger := unique_of_reachable h.ledger

theorem Once.held (h : Once s) : Dispatcher.Held s.ledger.rows s.ledger.tasks :=
  (attempts_of_reachable h.ledger).held

variable {id : Uuid}

theorem Once.not_spent_of_resolved (h : Once s) (hlaunches : s'.launches = s.launches)
    (hresolved : resolutions id s'.ledger.log = resolutions id s.ledger.log + 1) :
    ¬ s'.Spent id := by
  unfold Spent
  rw [hlaunches, hresolved]
  intro hmem
  have hle := (h.bounded id _ hmem).2
  omega

theorem Once.spent_of_step (h : Once s) (hlaunches : s'.launches = s.launches)
    (hle : resolutions id s.ledger.log ≤ resolutions id s'.ledger.log) (hspent : s'.Spent id) :
    s.Spent id := by
  unfold Spent at hspent ⊢
  rw [hlaunches] at hspent
  have hge := (h.bounded id _ hspent).2
  rw [le_antisymm hge hle] at hspent
  exact hspent

variable {t : DispatchTask} {e r : IssueCommentDelivery}

theorem Once.state_of_held (h : Once s)
    (ht : t ∈ s.ledger.tasks) (he : e ∈ t.held) (hr : r ∈ s.ledger.rows) (hid : r.id = e.id) :
    r.state.isResolvable = false ∧ (r.state = .dispatching → e ∈ t.claimed) := by
  have hkey := h.unique.ids
  rcases mem_held.1 he with he | he
  · obtain ⟨r', hr', hdue⟩ := h.held.due t ht e he
    obtain rfl := hkey.eq hr hr' (hid.trans hdue.id.symm)
    rcases hdue.state with ⟨hpending, _⟩ | hcancelled
    · rw [hpending]
      exact ⟨rfl, nofun⟩
    · rw [hcancelled]
      exact ⟨rfl, nofun⟩
  · obtain ⟨r', hr', hclaimed⟩ := h.held.claimed t ht e he
    obtain rfl := hkey.eq hr hr' (hid.trans hclaimed.id.symm)
    rw [hclaimed.state]
    exact ⟨rfl, fun _ => he⟩

/-! ## Steps of the dispatcher -/

variable {ledger : Dispatcher} {a : DispatcherAction}

theorem recoversOrphans_of_quiet (h : Quiet a) : RecoversOrphans ledger a := by
  unfold RecoversOrphans
  split
  · exact h.elim
  · trivial

theorem Once.behind_goes {r' : IssueCommentDelivery} (h : Once s)
    (ht : t ∈ s.ledger.tasks) (he : e ∈ t.held) (hr : r ∈ s.ledger.rows)
    (hbehind : Behind t.sessionId e r) (hgoes : Goes r r') : Behind t.sessionId e r' := by
  refine ⟨hgoes.id.trans hbehind.id, hgoes.commentId.trans hbehind.commentId, ?_⟩
  rcases hgoes.sessionId with hsame | hnone | hresolvable
  · rw [hsame]
    exact hbehind.sessionId
  · exact .inr hnone
  · rw [(h.state_of_held ht he hr hbehind.id).1] at hresolvable
    cases hresolvable

/-- A claimed row that no task has claimed is claimed by none after the step. -/
theorem Once.unclaimed_of_took (h : Once s) (hr : r ∈ s.ledger.rows)
    (hstate : r.state = .dispatching) (hunclaimed : Unclaimed s.ledger.tasks r.id)
    (htook : ∀ t' ∈ ledger.tasks, Took s.ledger a t') : Unclaimed ledger.tasks r.id := by
  intro t' ht' hmem
  cases htook t' ht' with
  | kept mem => exact hunclaimed t' mem hmem
  | @moved t mem session held idle =>
    obtain ⟨c, hc, hid⟩ := mem_map.1 hmem
    have hheld := held c (mem_held.2 (.inr hc))
    have hclaimed := (h.state_of_held mem hheld hr hid.symm).2 hstate
    exact hunclaimed t mem (mem_map.2 ⟨c, hclaimed, hid⟩)
  | began action task listed =>
    rw [task] at hmem
    cases hmem

theorem Once.quiet {pc : Uuid → LaunchPc} (h : Once s)
    (hquiet : Dispatcher.Quiet a) (hstep : s.ledger.step a = some ledger)
    (hpc : ∀ t ∈ s.ledger.tasks, pc t.sessionId = s.pc t.sessionId)
    (hnew : ∀ σ now due, a = .start σ now due → pc σ = .checking []) :
    Once { s with ledger := ledger, pc := pc } := by
  have hunique := h.unique
  have heffect := Dispatcher.effect_of_step hunique.ids hstep
  have hcomes := heffect.comes hquiet
  have hgoes := heffect.goes hquiet
  have htook := Dispatcher.step_took hunique hquiet hstep
  have hspent : ∀ id, Spent { s with ledger := ledger, pc := pc } id → s.Spent id :=
    fun id => h.spent_of_step rfl (heffect.resolutions_le id)
  refine ⟨h.ledger.next (recoversOrphans_of_quiet hquiet) hstep, h.nodup, ?_, ?_, ?_, ?_,
    h.distinct, ?_⟩
  · intro id n hmem
    obtain ⟨hpos, hle⟩ := h.bounded id n hmem
    exact ⟨hpos, le_trans hle (heffect.resolutions_le id)⟩
  · intro r' hr' hpending hsession
    cases hcomes r' hr' with
    | @kept r mem id commentId sessionId state =>
      rcases state with hsame | ⟨hnot, _⟩
      · rw [← id]
        intro hlaunched
        apply h.pending r mem (hsame.symm.trans hpending) _ (hspent r.id hlaunched)
        rcases sessionId with hsame | hnone
        · rw [← hsame]
          exact hsession
        · exact absurd hnone hsession
      · exact absurd hpending hnot
    | resolved resolutions state => exact h.not_spent_of_resolved rfl resolutions
  · intro t' ht'
    have hbehind : ∀ t ∈ s.ledger.tasks, ∀ e ∈ t.held, ∀ r ∈ s.ledger.rows,
        Behind t.sessionId e r → ∃ r' ∈ ledger.rows, Behind t.sessionId e r' := by
      intro t ht e he r hr hbehind
      obtain ⟨r', hr', hgo⟩ := hgoes r hr
      exact ⟨r', hr', h.behind_goes ht he hr hbehind hgo⟩
    cases htook t' ht' with
    | kept mem =>
      show Progress ledger.rows s.turns _ (pc t'.sessionId) t'
      rw [hpc t' mem]
      exact (h.progress t' mem).mono (hbehind t' mem) fun e _ => hspent e.id
    | @moved t mem session held idle =>
      have hprogress := (h.progress t mem).mono (hbehind t mem) fun e _ => hspent e.id
      obtain ⟨checked, hchecking⟩ := hprogress.idle idle
      show Progress ledger.rows s.turns _ (pc t'.sessionId) t'
      rw [session, hpc t mem]
      refine ⟨fun _ => ⟨checked, hchecking⟩, ?_, ?_, ?_, ?_⟩
      · exact fun hbefore e he => hprogress.unlaunched hbefore e (held e he)
      · rw [session]
        exact fun e he => hprogress.behind e (held e he)
      all_goals
        rw [hchecking]
        exact nofun
    | @began σ now due action task listed =>
      have hdue : ∀ e ∈ due, e ∈ s.ledger.rows ∧ e.sessionId = some σ ∧ e.state = .pending := by
        intro e he
        obtain ⟨hmem, hcond⟩ := mem_filter.1 (listed.subset he)
        rw [Bool.and_eq_true, Bool.and_eq_true, beq_iff_eq, Dispatcher.isPending_iff] at hcond
        exact ⟨hmem, hcond.1.1, hcond.1.2⟩
      have hheld : ∀ e ∈ t'.held, e ∈ due := by
        rw [task]
        intro e he
        rcases mem_held.1 he with he | he
        · exact he
        · cases he
      show Progress ledger.rows s.turns _ (pc t'.sessionId) t'
      rw [show t'.sessionId = σ by rw [task], hnew σ now due action]
      refine ⟨fun _ => ⟨[], rfl⟩, ?_, ?_, nofun, nofun⟩
      · intro _ e he hlaunched
        obtain ⟨hmem, hsession, hpending⟩ := hdue e (hheld e he)
        exact h.pending e hmem hpending (by rw [hsession]; exact nofun) (hspent e.id hlaunched)
      · intro e he
        obtain ⟨hmem, hsession, hpending⟩ := hdue e (hheld e he)
        obtain ⟨r', hr', hgo⟩ := hgoes e hmem
        refine ⟨r', hr', hgo.id, hgo.commentId, ?_⟩
        rw [show t'.sessionId = σ by rw [task]]
        rcases hgo.sessionId with hsame | hnone | hresolvable
        · exact .inl (hsame.trans hsession)
        · exact .inr hnone
        · rw [hpending] at hresolvable
          cases hresolvable
  · intro r' hr' hdispatching hunclaimed
    cases hcomes r' hr' with
    | @kept r mem id commentId sessionId state =>
      rcases state with hsame | ⟨_, hclaimed⟩
      · have hunclaimed' : Unclaimed s.ledger.tasks r.id := by
          intro t ht hmem
          obtain ⟨t', ht', hclaims⟩ := Dispatcher.step_claims hunique hquiet hstep t ht
          obtain ⟨c, hc, hcid⟩ := mem_map.1 hmem
          exact hunclaimed t' ht' (mem_map.2 ⟨c, hclaims c hc, hcid.trans id⟩)
        intro hlaunched σ hσ
        rw [← commentId]
        apply h.orphans r mem (hsame.symm.trans hdispatching) hunclaimed'
          (hspent r.id (id ▸ hlaunched))
        rcases sessionId with hsame | hnone
        · exact hsame.symm.trans hσ
        · rw [hnone] at hσ
          cases hσ
      · obtain ⟨t', ht', hmem⟩ := hclaimed hdispatching
        exact absurd hmem (hunclaimed t' ht')
    | resolved resolutions state => exact absurd hdispatching state
  · intro items hitems item hitem
    obtain ⟨r, hr, hrecovers⟩ := h.recovery items hitems item hitem
    obtain ⟨r', hr', hgo⟩ := hgoes r hr
    have hunclaimed := h.unclaimed_of_took hr hrecovers.state hrecovers.unclaimed htook
    refine ⟨r', hr', hgo.id.trans hrecovers.id, hgo.commentId.trans hrecovers.commentId, ?_,
      hgo.dispatching hrecovers.state, hgo.id ▸ hunclaimed, ?_⟩
    · rcases hgo.sessionId with hsame | hnone | hresolvable
      · rw [hsame]
        exact hrecovers.sessionId
      · exact .inr hnone
      · rw [hrecovers.state] at hresolvable
        cases hresolvable
    · intro hread hsession
      rw [hgo.id]
      intro hlaunched
      apply hrecovers.read hread _ (hspent r.id hlaunched)
      rcases hgo.sessionId with hsame | hnone | hresolvable
      · rw [← hsame]
        exact hsession
      · exact absurd hnone hsession
      · rw [hrecovers.state] at hresolvable
        cases hresolvable

/-! ## Steps that settle a row -/

variable {σ : Uuid} {items : List Recovering}

theorem behind_ends {rows : Rows} {f : IssueCommentDelivery → IssueCommentDelivery}
    (hends : ∀ r, Finished r (f r)) (hr : r ∈ rows) (h : Behind σ e r) :
    ∃ r' ∈ (updateRow rows id isDispatching f).1, Behind σ e r' := by
  apply exists_updateRow ⟨r, hr, h⟩
  intro r _ _ _ hbehind
  exact ⟨(hends r).id.trans hbehind.id, (hends r).commentId.trans hbehind.commentId,
    (hends r).sessionId.symm ▸ hbehind.sessionId⟩

theorem Once.recovers_ends {f : IssueCommentDelivery → IssueCommentDelivery} {item : Recovering}
    (h : Once s)
    (hitems : s.recovery = some items) (hitem : item ∈ items) (hother : item.row.id ≠ id)
    (hrows : ledger.rows = (updateRow s.ledger.rows id isDispatching f).1)
    (htasks : Unclaimed s.ledger.tasks item.row.id → Unclaimed ledger.tasks item.row.id)
    (hspent : ∀ i, Spent s' i → s.Spent i) (hledger : s'.ledger = ledger) :
    ∃ r ∈ s'.ledger.rows, s'.Recovers item r := by
  obtain ⟨r, hr, hrecovers⟩ := h.recovery items hitems item hitem
  have hunclaimed := hrecovers.unclaimed
  rw [hrecovers.id] at hunclaimed
  refine ⟨r, ?_, hrecovers.id, hrecovers.commentId, hrecovers.sessionId, hrecovers.state, ?_, ?_⟩
  · rw [hledger, hrows]
    apply mem_update_of_not hr
    rw [Bool.and_eq_false_iff]
    exact .inl (beq_eq_false_iff_ne.2 (hrecovers.id ▸ hother))
  · rw [hledger, hrecovers.id]
    exact htasks hunclaimed
  · exact fun hread hsession hlaunched => hrecovers.read hread hsession (hspent r.id hlaunched)

variable {outcome : Outcome}

theorem Once.settled (h : Once s) (hretry : outcome.retries = true → ¬ s.Spent id)
    (hs : s.perform (.task σ (.settle id outcome)) = some s') : Once s' := by
  obtain ⟨ledger, hstep, rfl⟩ := map_eq_some_iff.1 hs
  obtain ⟨t, ht, row, hrow, f, hσ, hid, hends, hfinal, hrows, htasks, hlog⟩ :=
    Dispatcher.settled_of_step hstep
  have hunique := h.unique
  have hspent : ∀ i, Spent { s with ledger := ledger } i → s.Spent i := by
    intro i hlaunched
    unfold Spent at hlaunched ⊢
    rw [← hlog]
    exact hlaunched
  -- no task gets a row
  have hclaims : ∀ t' ∈ ledger.tasks, ∃ u ∈ s.ledger.tasks, t'.sessionId = u.sessionId ∧
      t'.delivering = u.delivering ∧ (∀ e ∈ t'.held, e ∈ u.held) ∧
      ∀ c ∈ t'.claimed, c ∈ u.claimed := by
    rw [htasks]
    intro t' ht'
    rcases Dispatcher.mem_setTask ht' with rfl | hold
    · refine ⟨t, ht, rfl, rfl, ?_, fun c hc => mem_of_mem_filter hc⟩
      intro e he
      rcases mem_held.1 he with he | he
      · exact mem_held.2 (.inl he)
      · exact mem_held.2 (.inr (mem_of_mem_filter he))
    · exact ⟨t', hold, rfl, rfl, fun e he => he, fun c hc => hc⟩
  have hok : Dispatcher.RecoversOrphans s.ledger (.task σ (.settle id outcome)) := trivial
  refine ⟨h.ledger.next hok hstep, h.nodup, ?_, ?_, ?_, ?_, h.distinct, ?_⟩
  · rw [hlog]
    exact h.bounded
  · rw [hrows]
    apply forall_updateRow
    · intro r hr hrid _ hpending _ hlaunched
      by_cases hretries : outcome.retries = true
      · apply hretry hretries
        rw [(hends r).id, hrid] at hlaunched
        exact hspent id hlaunched
      · exact absurd hpending (hfinal (Bool.eq_false_iff.2 hretries) r)
    · exact fun r hr _ hpending hsession hlaunched =>
        h.pending r hr hpending hsession (hspent r.id hlaunched)
  · intro t' ht'
    obtain ⟨u, hu, hsession, hdelivering, hheld, hclaimed⟩ := hclaims t' ht'
    show Progress ledger.rows s.turns _ (s.pc t'.sessionId) t'
    rw [hsession]
    have hprogress := (h.progress u hu).fewer hsession hdelivering hheld hclaimed
    apply hprogress.mono
    · rw [hrows]
      exact fun e _ r hr hbehind => behind_ends hends hr hbehind
    · exact fun e _ => hspent e.id
  · rw [hrows]
    apply forall_updateRow
    · exact fun r _ _ _ hdispatching => absurd hdispatching (hends r).left
    · intro r hr hnot hdispatching hunclaimed
      have hother : r.id ≠ id := by
        intro hrid
        have hstate := hnot hrid
        rw [hdispatching] at hstate
        cases hstate
      have hunclaimed' : Unclaimed s.ledger.tasks r.id := by
        intro u hu hmem
        obtain ⟨c, hc, hcid⟩ := mem_map.1 hmem
        rw [htasks] at hunclaimed
        apply hunclaimed _ (mem_update_ite hu)
        rw [List.mem_map]
        refine ⟨c, ?_, hcid⟩
        split_ifs with hsession
        · obtain rfl := hunique.sessions.eq hu ht (beq_iff_eq.1 hsession)
          rw [mem_filter]
          exact ⟨hc, decide_eq_true (hcid ▸ hother)⟩
        · exact hc
      exact fun hlaunched => h.orphans r hr hdispatching hunclaimed' (hspent r.id hlaunched)
  · intro items hitems item hitem
    obtain ⟨r, _, hrecovers⟩ := h.recovery items hitems item hitem
    apply h.recovers_ends hitems hitem _ hrows _ hspent rfl
    · intro heq
      apply hrecovers.unclaimed t ht
      exact mem_map.2 ⟨row, hrow, hid.trans (heq.symm.trans hrecovers.id.symm)⟩
    · intro hunclaimed t' ht' hmem
      obtain ⟨u, hu, _, _, _, hclaimed⟩ := hclaims t' ht'
      obtain ⟨c, hc, hcid⟩ := mem_map.1 hmem
      exact hunclaimed u hu (mem_map.2 ⟨c, hclaimed c hc, hcid⟩)

theorem Once.settledFinal (h : Once s)
    (hfinal : outcome.retries = false) (hs : s.perform (.task σ (.settle id outcome)) = some s') :
    Once s' := by
  apply h.settled _ hs
  intro hretries
  rw [hfinal] at hretries
  cases hretries

/-! ## Steps of a delivery -/

theorem delivery_some (h : s.delivery σ = some t) :
    t ∈ s.ledger.tasks ∧ t.sessionId = σ ∧ t.delivering = true := by
  obtain ⟨hmem, hcond⟩ := find?_some h
  rw [Bool.and_eq_true, beq_iff_eq] at hcond
  exact ⟨hmem, hcond⟩

variable {row : IssueCommentDelivery}

theorem claimedRow_some (h : s.claimedRow σ id = some row) :
    ∃ t ∈ s.ledger.tasks, t.sessionId = σ ∧ t.delivering = true ∧ row ∈ t.claimed ∧
      row.id = id := by
  obtain ⟨t, ht, hrow⟩ := bind_eq_some_iff.1 h
  obtain ⟨hmem, hσ, hdelivering⟩ := delivery_some ht
  obtain ⟨hheld, hid⟩ := find?_some hrow
  exact ⟨t, hmem, hσ, hdelivering, hheld, beq_iff_eq.1 hid⟩

theorem Once.moved {turns : List MarkedTurn} {pc : Uuid → LaunchPc} (h : Once s)
    (hturns : ∀ turn ∈ s.turns, ∃ turn' ∈ turns, turn'.sessionId = turn.sessionId ∧
      turn'.comments = turn.comments ∧ (turn.Evident → turn'.Evident))
    (hprogress : ∀ t ∈ s.ledger.tasks, Progress s.ledger.rows turns s.Spent (pc t.sessionId) t) :
    Once { s with turns := turns, pc := pc } := by
  refine ⟨h.ledger, h.nodup, h.bounded, h.pending, hprogress, ?_, h.distinct, ?_⟩
  · intro r hr hstate hunclaimed hlaunched σ hσ
    obtain ⟨turn, hturn, hsession, hcomment, hevident⟩ :=
      h.orphans r hr hstate hunclaimed hlaunched σ hσ
    obtain ⟨turn', hturn', hsession', hcomments, hgrown⟩ := hturns turn hturn
    exact ⟨turn', hturn', hsession'.trans hsession, hcomments ▸ hcomment, hgrown hevident⟩
  · intro items hitems item hitem
    obtain ⟨r, hr, hrecovers⟩ := h.recovery items hitems item hitem
    exact ⟨r, hr, hrecovers.id, hrecovers.commentId, hrecovers.sessionId, hrecovers.state,
      hrecovers.unclaimed, hrecovers.read⟩

theorem grown_turns {p : MarkedTurn → Bool} {f : MarkedTurn → MarkedTurn} (hf : Grows f) :
    ∀ turn ∈ s.turns, ∃ turn' ∈ update p f s.turns, turn'.sessionId = turn.sessionId ∧
      turn'.comments = turn.comments ∧ (turn.Evident → turn'.Evident) := by
  apply exists_update_of_mem
  · exact fun turn => ⟨rfl, rfl, fun hevident => hevident⟩
  · exact fun turn _ => ⟨hf.sessionId turn, hf.comments turn, hf.evident turn⟩

variable {pc : LaunchPc}

theorem Once.progress_setPc {turns : List MarkedTurn}
    (h : Once s) (ht : t ∈ s.ledger.tasks) (hown : Progress s.ledger.rows turns s.Spent pc t)
    (hothers : ∀ u ∈ s.ledger.tasks, u.sessionId ≠ t.sessionId →
      Progress s.ledger.rows turns s.Spent (s.pc u.sessionId) u) :
    ∀ u ∈ s.ledger.tasks, Progress s.ledger.rows turns s.Spent
      (if u.sessionId = t.sessionId then pc else s.pc u.sessionId) u := by
  intro u hu
  split_ifs with hsession
  · obtain rfl := h.unique.sessions.eq hu ht hsession
    exact hown
  · exact hothers u hu hsession

theorem Once.setPc (h : Once s)
    (hown : ∀ t ∈ s.ledger.tasks, t.sessionId = σ → Progress s.ledger.rows s.turns s.Spent pc t) :
    Once (s.setPc σ pc) := by
  apply h.moved
  · exact fun turn hturn => ⟨turn, hturn, rfl, rfl, fun hevident => hevident⟩
  · intro t ht
    split_ifs with hσ
    · exact hown t ht hσ
    · exact h.progress t ht

variable {turnId : Uuid}
  {rest : List Recovering} {checked : List Uuid} {message error : String}
  {commentUpdatedAt now : Timestamp} {b : TaskAction}

theorem Once.setTurn {f : MarkedTurn → MarkedTurn} (h : Once s) (hf : Grows f) :
    Once (s.setTurn turnId f) := by
  apply h.moved
  · exact grown_turns hf
  · exact fun t ht => (h.progress t ht).grown _ hf

theorem Once.advance (h : Once s)
    (hdelivering : ∀ t ∈ s.ledger.tasks, t.sessionId = σ → t.delivering = true)
    (hbefore : pc.before = (s.pc σ).before)
    (hturn : ∀ turnId, pc.turnId = some turnId → (s.pc σ).turnId = some turnId)
    (hfailed : pc ≠ .failed) : Once (s.setPc σ pc) := by
  apply h.setPc
  rintro t ht rfl
  exact (h.progress t ht).advance (hdelivering t ht rfl) hbefore hturn hfailed

theorem spent_launch (h : (s.launch t turnId).Spent id) :
    id ∈ t.claimed.map IssueCommentDelivery.id ∨ s.Spent id := by
  rcases mem_append.1 h with hnew | hold
  · obtain ⟨row, hrow, heq⟩ := mem_map.1 hnew
    exact .inl (mem_map.2 ⟨row, hrow, (Prod.mk.inj heq).1⟩)
  · exact .inr hold

theorem Once.not_claimed {u : DispatchTask} (h : Once s)
    (ht : t ∈ s.ledger.tasks) (hu : u ∈ s.ledger.tasks) (hne : u.sessionId ≠ t.sessionId)
    (he : e ∈ u.held) : e.id ∉ t.claimed.map IssueCommentDelivery.id := by
  intro hmem
  obtain ⟨c, hc, hid⟩ := mem_map.1 hmem
  exact h.held.apart u hu t ht hne e he c (mem_held.2 (.inr hc)) hid.symm

section

variable (h : Once s) (ht : t ∈ s.ledger.tasks)
include h ht

theorem Once.claimed_dispatching (hr : r ∈ s.ledger.rows)
    (hmem : r.id ∈ t.claimed.map IssueCommentDelivery.id) : r.state = .dispatching := by
  obtain ⟨c, hc, hid⟩ := mem_map.1 hmem
  obtain ⟨r', hr', hclaimed⟩ := h.held.claimed t ht c hc
  obtain rfl := h.unique.ids.eq hr hr' (hid.symm.trans hclaimed.id.symm)
  exact hclaimed.state

theorem Once.launches_nodup (hfresh : ∀ e ∈ t.held, ¬ s.Spent e.id) :
    (s.launch t turnId).launches.Nodup := by
  have hids : (t.claimed.map IssueCommentDelivery.id).Nodup :=
    ((sublist_append_right t.due t.claimed).map _).nodup (h.held.distinct t ht)
  apply nodup_append.2
  refine ⟨?_, h.nodup, ?_⟩
  · apply Nodup.of_map Prod.fst
    rw [List.map_map]
    exact hids
  · intro p hp q hq heq
    obtain ⟨c, hc, rfl⟩ := mem_map.1 hp
    rw [← heq] at hq
    exact hfresh c (mem_held.2 (.inr hc)) hq

theorem Once.launched (hbefore : (s.pc t.sessionId).before = true)
    (hturn : (s.pc t.sessionId).turnId = some turnId) (hafter : pc.before = false)
    (hturn' : pc.turnId = some turnId) : Once ((s.launch t turnId).setPc t.sessionId pc) := by
  have hown := h.progress t ht
  have hdelivering : t.delivering = true := by
    apply hown.delivering
    intro checked heq
    rw [heq] at hturn
    cases hturn
  have hspent : ∀ id, Spent ((s.launch t turnId).setPc t.sessionId pc) id →
      id ∈ t.claimed.map IssueCommentDelivery.id ∨ s.Spent id :=
    fun id hlaunched => @spent_launch s id t turnId hlaunched
  have hnodup : (s.launch t turnId).launches.Nodup := h.launches_nodup ht (hown.unlaunched hbefore)
  refine ⟨h.ledger, hnodup, ?_, ?_, ?_, ?_, h.distinct, ?_⟩
  · intro id n hmem
    rcases mem_append.1 hmem with hnew | hold
    · obtain ⟨row, hrow, heq⟩ := mem_map.1 hnew
      cases heq
      obtain ⟨r, hr, hbehind⟩ := hown.behind row (mem_held.2 (.inr hrow))
      exact ⟨hbehind.id ▸ Dispatcher.resolved_of_reachable h.ledger r hr, le_refl _⟩
    · exact h.bounded id n hold
  · intro r hr hpending hsession hlaunched
    rcases hspent _ hlaunched with hmem | hold
    · rw [h.claimed_dispatching ht hr hmem] at hpending
      cases hpending
    · exact h.pending r hr hpending hsession hold
  · intro u hu
    show Progress s.ledger.rows _ _ (if u.sessionId = t.sessionId then pc else s.pc u.sessionId) u
    split_ifs with hsession
    · obtain rfl := h.unique.sessions.eq hu ht hsession
      refine ⟨?_, ?_, hown.behind, ?_, ?_⟩
      · rw [hdelivering]
        exact nofun
      · rw [hafter]
        exact nofun
      · rw [hturn']
        rintro _ ⟨⟩
        obtain ⟨turn, hlast, hid, hcomments, _⟩ := hown.turn turnId hturn
        refine ⟨_, hlast.update grows_agentStarted.sessionId, ?_⟩
        rw [if_pos (beq_iff_eq.2 hid)]
        exact ⟨hid, hcomments, fun _ => rfl⟩
      · intro heq
        rw [heq] at hturn'
        cases hturn'
    · apply ((h.progress u hu).grown _ grows_agentStarted).mono
      · exact fun e _ r hr hbehind => ⟨r, hr, hbehind⟩
      · intro e he hlaunched
        rcases hspent _ hlaunched with hmem | hold
        · exact absurd hmem (h.not_claimed ht hu hsession he)
        · exact hold
  · intro r hr hstate hunclaimed hlaunched σ hσ
    rcases hspent _ hlaunched with hmem | hold
    · exact absurd hmem (hunclaimed t ht)
    · obtain ⟨turn, hturn, hsession, hcomment, hevident⟩ :=
        h.orphans r hr hstate hunclaimed hold σ hσ
      obtain ⟨turn', hturn', hsession', hcomments, hevident'⟩ :=
        grown_turns (p := fun turn => turn.id == turnId) grows_agentStarted turn hturn
      exact ⟨turn', hturn', hsession'.trans hsession, hcomments ▸ hcomment, hevident' hevident⟩
  · intro items hitems item hitem
    obtain ⟨r, hr, hrecovers⟩ := h.recovery items hitems item hitem
    refine ⟨r, hr, hrecovers.id, hrecovers.commentId, hrecovers.sessionId, hrecovers.state,
      hrecovers.unclaimed, ?_⟩
    intro hread hsession hlaunched
    rcases hspent _ hlaunched with hmem | hold
    · exact hrecovers.unclaimed t ht hmem
    · exact hrecovers.read hread hsession hold

end

/-! ## The end of tasks -/

theorem turnId_of_after (hbefore : pc.before = false) (hfailed : pc ≠ .failed) :
    pc.turnId ≠ none := by
  cases pc with
  | checking checked | starting => cases hbefore
  | failed => exact absurd rfl hfailed
  | _ => exact nofun

theorem Once.proven_of_traced (h : Once s)
    (ht : t ∈ s.ledger.tasks) (htraced : s.Traced t) (hr : r ∈ s.ledger.rows)
    (hmem : r.id ∈ t.claimed.map IssueCommentDelivery.id) : s.Proven r := by
  obtain ⟨c, hc, hid⟩ := mem_map.1 hmem
  have hheld : c ∈ t.held := mem_held.2 (.inr hc)
  have hprogress := h.progress t ht
  obtain ⟨r', hr', hbehind⟩ := hprogress.behind c hheld
  obtain rfl := h.unique.ids.eq hr hr' (hid.symm.trans hbehind.id.symm)
  intro hlaunched σ hσ
  rw [hbehind.id] at hlaunched
  have hsession : t.sessionId = σ := by
    rcases hbehind.sessionId with hsome | hnone
    · exact some.inj (hsome.symm.trans hσ)
    · rw [hnone] at hσ
      cases hσ
  by_cases hbefore : (s.pc t.sessionId).before = true
  · exact absurd hlaunched (hprogress.unlaunched hbefore c hheld)
  · rw [Bool.not_eq_true] at hbefore
    rw [hbehind.commentId]
    by_cases hfailed : s.pc t.sessionId = .failed
    · obtain ⟨turn, hlast, hcomment, hevident⟩ := hprogress.failed hfailed c hc hlaunched
      exact ⟨turn, hlast.mem, hlast.1.trans hsession, hcomment, hevident⟩
    · obtain ⟨turnId, hturnId⟩ := ne_none_iff_exists'.1 (turnId_of_after hbefore hfailed)
      obtain ⟨turn, hlast, rfl, hcomments, hstarted⟩ := hprogress.turn turnId hturnId
      exact ⟨turn, hlast.mem, hlast.1.trans hsession, hcomments c hc,
        htraced (ne_nil_of_mem hc) turn hlast.mem hturnId (hstarted hbefore)⟩

theorem Once.dropped (h : Once s)
    (hok : Dispatcher.RecoversOrphans s.ledger a) (hstep : s.ledger.step a = some ledger)
    (hrows : ledger.rows = s.ledger.rows) (hlog : ledger.log = s.ledger.log)
    (htasks : ∀ t ∈ ledger.tasks, t ∈ s.ledger.tasks)
    (htraced : ∀ t ∈ s.ledger.tasks, t ∈ ledger.tasks ∨ s.Traced t) :
    Once { s with ledger := ledger } := by
  have hspent : Spent { s with ledger := ledger } = s.Spent := by
    unfold Spent
    rw [hlog]
  refine ⟨h.ledger.next hok hstep, h.nodup, ?_, ?_, ?_, ?_, h.distinct, ?_⟩
  · rw [hlog]
    exact h.bounded
  · rw [hrows, hspent]
    exact h.pending
  · rw [hrows, hspent]
    exact fun t ht => h.progress t (htasks t ht)
  · rw [hrows]
    intro r hr hstate hunclaimed hlaunched
    rw [hspent] at hlaunched
    by_cases hclaimed : Unclaimed s.ledger.tasks r.id
    · exact h.orphans r hr hstate hclaimed hlaunched
    · unfold Unclaimed at hclaimed
      simp only [not_forall, not_not] at hclaimed
      obtain ⟨t, ht, hmem⟩ := hclaimed
      rcases htraced t ht with hkept | htraced
      · exact absurd hmem (hunclaimed t hkept)
      · exact h.proven_of_traced ht htraced hr hmem hlaunched
  · rw [hrows]
    intro items hitems item hitem
    obtain ⟨r, hr, hrecovers⟩ := h.recovery items hitems item hitem
    refine ⟨r, hr, hrecovers.id, hrecovers.commentId, hrecovers.sessionId, hrecovers.state, ?_, ?_⟩
    · exact fun t ht => hrecovers.unclaimed t (htasks t ht)
    · rw [hspent]
      exact hrecovers.read

theorem Once.stopped (h : Once s) (htraced : ∀ t ∈ s.ledger.tasks, t.sessionId = σ → s.Traced t)
    (hs : s.perform (.task σ .stop) = some s') : Once s' := by
  obtain ⟨ledger, hstep, rfl⟩ := map_eq_some_iff.1 hs
  have hok : RecoversOrphans s.ledger (.task σ .stop) := trivial
  obtain ⟨t, ht, htask⟩ := bind_eq_some_iff.1 hstep
  have hσ := beq_iff_eq.1 (find?_some ht).2
  cases htask
  apply h.dropped hok hstep rfl rfl
  · exact fun u hu => mem_of_mem_delete hu
  · intro u hu
    by_cases hsession : u.sessionId = σ
    · exact .inr (htraced u hu hsession)
    · refine .inl (mem_delete.2 ⟨hu, ?_⟩)
      rw [hσ]
      exact beq_eq_false_iff_ne.2 hsession

/-! ## Recovery -/

theorem Once.setRecovery {recovery : Option (List Recovering)} (h : Once s)
    (hdistinct : ∀ items, recovery = some items → (items.map fun item => item.row.id).Nodup)
    (hrecovery : ∀ items, recovery = some items → ∀ item ∈ items, ∃ r ∈ s.ledger.rows,
      s.Recovers item r) : Once { s with recovery := recovery } := by
  refine ⟨h.ledger, h.nodup, h.bounded, h.pending, h.progress, h.orphans, hdistinct, ?_⟩
  intro items hitems item hitem
  obtain ⟨r, hr, hrecovers⟩ := hrecovery items hitems item hitem
  exact ⟨r, hr, hrecovers.id, hrecovers.commentId, hrecovers.sessionId, hrecovers.state,
    hrecovers.unclaimed, hrecovers.read⟩

theorem Once.recoverFewer (h : Once s)
    (hitems : s.recovery = some items) (hrest : rest.Sublist items) :
    Once { s with recovery := some rest } := by
  apply h.setRecovery
  · rintro _ ⟨⟩
    exact (hrest.map _).nodup (h.distinct items hitems)
  · rintro _ ⟨⟩ item hitem
    exact h.recovery items hitems item (hrest.subset hitem)

theorem Once.recover (h : Once s) (hfree : ∀ t ∈ s.ledger.tasks, t.claimed = []) :
    Once { s with
      recovery := some
        ((s.ledger.rows.filter fun row => isDispatching row.state).map
          fun row => ⟨row, none⟩) } := by
  apply h.setRecovery
  · rintro _ ⟨⟩
    rw [List.map_map]
    exact (filter_sublist.map IssueCommentDelivery.id).nodup h.unique.ids
  · rintro _ ⟨⟩ item hitem
    obtain ⟨row, hrow, rfl⟩ := mem_map.1 hitem
    obtain ⟨hmem, hstate⟩ := mem_filter.1 hrow
    refine ⟨row, hmem, rfl, rfl, .inl rfl, isDispatching_iff.1 hstate, ?_, nofun⟩
    intro t ht hclaimed
    rw [hfree t ht] at hclaimed
    cases hclaimed

theorem Once.recoverRead (h : Once s) (hitems : s.recovery = some (⟨row, none⟩ :: rest)) :
    Once { s with
      recovery := some
        (⟨row, some (match row.sessionId with
          | some sessionId => earlierAttempt s.turns sessionId row.commentId
          | none => .none)⟩ :: rest) } := by
  apply h.setRecovery
  · rintro _ ⟨⟩
    have hdistinct := h.distinct _ hitems
    exact hdistinct
  · rintro _ ⟨⟩ item hitem
    rcases mem_cons.1 hitem with rfl | hitem
    · obtain ⟨r, hr, hrecovers⟩ := h.recovery _ hitems _ mem_cons_self
      refine ⟨r, hr, hrecovers.id, hrecovers.commentId, hrecovers.sessionId, hrecovers.state,
        hrecovers.unclaimed, ?_⟩
      intro hread hsession hlaunched
      obtain ⟨σ, hσ⟩ := ne_none_iff_exists'.1 hsession
      obtain ⟨turn, hturn, hturnσ, hcomment, hevident⟩ :=
        h.orphans r hr hrecovers.state hrecovers.unclaimed hlaunched σ hσ
      rw [hrecovers.commentId] at hcomment
      have hrow : row.sessionId = some σ := by
        rcases hrecovers.sessionId with hsame | hnone
        · exact hsame.symm.trans hσ
        · exact absurd hnone hsession
      simp only [hrow, some.injEq] at hread
      exact earlierAttempt_ne_none hturn hturnσ hcomment hevident hread
    · exact h.recovery _ hitems item (mem_cons_of_mem _ hitem)

theorem Once.recovered {attempt : EarlierAttempt} (h : Once s)
    (hstep : s.ledger.step (.recover id attempt) = some ledger)
    (hunclaimed : Unclaimed s.ledger.tasks id)
    (hnone : attempt = .none → ∀ r ∈ s.ledger.rows, r.id = id → r.sessionId ≠ none → ¬ s.Spent id)
    (hother : ∀ items, s.recovery = some items → ∀ item ∈ items, item.row.id ≠ id) :
    Once { s with ledger := ledger } := by
  obtain ⟨r₀, hr₀, f, hid, hstate, hends, hfinal, hrows, htasks, hlog⟩ :=
    Dispatcher.recovered_of_step hstep
  have hspent : Spent { s with ledger := ledger } = s.Spent := by
    funext i
    unfold Spent
    rw [hlog i]
  have hok : Dispatcher.RecoversOrphans s.ledger (.recover id attempt) := hunclaimed
  refine ⟨h.ledger.next hok hstep, h.nodup, ?_, ?_, ?_, ?_, h.distinct, ?_⟩
  · intro i n hmem
    rw [hlog i]
    exact h.bounded i n hmem
  · rw [hrows, hspent]
    apply forall_updateRow
    · intro r hr hrid _ hpending hsession
      obtain rfl := h.unique.ids.eq hr hr₀ (hrid.trans hid.symm)
      rw [(hends r).sessionId] at hsession
      rw [(hends r).id, hid]
      by_cases hattempt : attempt = .none
      · exact hnone hattempt r hr hid hsession
      · exact absurd hpending (hfinal hattempt hsession r)
    · exact fun r hr _ => h.pending r hr
  · rw [hrows, htasks, hspent]
    intro t ht
    apply (h.progress t ht).mono
    · exact fun e _ r hr hbehind => behind_ends hends hr hbehind
    · exact fun e _ hlaunched => hlaunched
  · rw [hrows, htasks]
    apply forall_updateRow
    · exact fun r _ _ _ hdispatching => absurd hdispatching (hends r).left
    · intro r hr _ hdispatching hunclaimed hlaunched
      rw [hspent] at hlaunched
      exact h.orphans r hr hdispatching hunclaimed hlaunched
  · intro items hitems item hitem
    apply h.recovers_ends hitems hitem (hother items hitems item hitem) hrows _ _ rfl
    · rw [htasks]
      exact fun hunclaimed => hunclaimed
    · rw [hspent]
      exact fun i hlaunched => hlaunched

/-! ## Every step -/

section

variable (h : Once s)
include h

theorem tasks_of_launch (ht : s.delivery σ = some t)
    (hstep : s.ledger.step (.task σ (.launch turnId)) = some ledger) :
    ledger.tasks = s.ledger.tasks := by
  obtain ⟨hmem, hσ, hdelivering⟩ := delivery_some ht
  obtain ⟨u, hu, htask⟩ := bind_eq_some_iff.1 hstep
  obtain ⟨humem, huσ⟩ := find?_some hu
  obtain rfl := h.unique.sessions.eq humem hmem ((beq_iff_eq.1 huσ).trans hσ.symm)
  exact taskStep_delivering (a := .launch turnId) trivial hdelivering htask

theorem Once.create (hpc : s.pc σ = .starting) (ht : s.delivery σ = some t)
    (hstep : s.ledger.step (.task σ (.launch turnId)) = some ledger) :
    Once { (s.setPc σ (.created turnId)) with
      ledger := ledger
      turns := s.turns ++
        [⟨turnId, σ, t.claimed.map fun row => row.commentId, false, false, false, false,
          false⟩] } := by
  obtain ⟨hmem, rfl, hdelivering⟩ := delivery_some ht
  have hquiet : Once { s with ledger := ledger } :=
    h.quiet (a := .task t.sessionId (.launch turnId)) trivial hstep (fun _ _ => rfl) nofun
  have htasks := tasks_of_launch h ht hstep
  have hmem' : t ∈ ledger.tasks := htasks ▸ hmem
  apply hquiet.moved
  · exact fun turn hturn => ⟨turn, mem_append_left _ hturn, rfl, rfl, fun hevident => hevident⟩
  · apply hquiet.progress_setPc hmem'
    · have hown := hquiet.progress t hmem'
      rw [show Launching.pc { s with ledger := ledger } t.sessionId = .starting from hpc] at hown
      refine ⟨?_, hown.unlaunched, hown.behind, ?_, nofun⟩
      · rw [hdelivering]
        exact nofun
      · rintro _ ⟨⟩
        refine ⟨_, LastOf.concat rfl, rfl, ?_, nofun⟩
        exact fun c hc => mem_map_of_mem hc
    · intro u hu hsession
      exact (hquiet.progress u hu).append fun heq => hsession heq.symm

theorem Once.delivering (hpc : ∀ checked, s.pc σ ≠ .checking checked) :
    ∀ t ∈ s.ledger.tasks, t.sessionId = σ → t.delivering = true := by
  rintro t ht rfl
  exact (h.progress t ht).delivering hpc

theorem Once.goOn {pc' : LaunchPc} (hpc : s.pc σ = pc)
    (hchecking : ∀ checked, pc ≠ .checking checked)
    (hbefore : pc'.before = pc.before)
    (hturn : ∀ turnId, pc'.turnId = some turnId → pc.turnId = some turnId)
    (hfailed : pc' ≠ .failed) :
    Once (s.setPc σ pc') := by
  subst hpc
  exact h.advance (h.delivering hchecking) hbefore hturn hfailed

theorem Once.not_spent_of_before (hbefore : (s.pc σ).before = true)
    (hs : s.perform (.task σ (.settle id outcome)) = some s') : ¬ s.Spent id := by
  obtain ⟨ledger, hstep, _⟩ := map_eq_some_iff.1 hs
  obtain ⟨t, ht, row, hrow, f, rfl, rfl, _⟩ := settled_of_step hstep
  exact (h.progress t ht).unlaunched hbefore row (mem_held.2 (.inr hrow))

theorem Once.plain (hs : s.step (.ledger a) = some s') : Once s' := by
  simp only [step] at hs
  split_ifs at hs with hplain
  obtain ⟨s₁, hperform, rfl⟩ := map_eq_some_iff.1 hs
  obtain ⟨ledger, hstep, rfl⟩ := map_eq_some_iff.1 hperform
  have hquiet := quiet_of_isPlain hplain
  split
  · apply h.quiet hquiet hstep
    · intro t ht
      simp only [Dispatcher.step, Dispatcher.start] at hstep
      split_ifs at hstep with hfree
      exact if_neg (hfree.1 t ht)
    · rintro _ _ _ ⟨⟩
      exact if_pos rfl
  · rename_i hnot
    apply h.quiet hquiet hstep
    · exact fun _ _ => rfl
    · exact fun σ now due heq => absurd heq (hnot σ now due)

theorem Once.checkStep (hpc : s.pc σ = .checking checked) (hrow : s.claimedRow σ id = some row)
    (hs : s.check σ id checked row = some s') : Once s' := by
  obtain ⟨t, ht, hσ, hdelivering, _⟩ := claimedRow_some hrow
  have hready : Once (s.setPc σ (.checking (id :: checked))) := by
    apply h.advance
    · intro u hu huσ
      rw [h.unique.sessions.eq hu ht (huσ.trans hσ.symm)]
      exact hdelivering
    · rw [hpc]
      rfl
    all_goals exact nofun
  unfold check at hs
  split at hs
  · exact h.settledFinal rfl hs
  · split_ifs at hs
    · cases hs
      exact hready
    · exact h.settledFinal rfl hs
  · cases hs
    exact hready

theorem Once.classifyStep (hpc : s.pc σ = .failed) (hrow : s.claimedRow σ id = some row)
    (hs : s.classify σ id row message commentUpdatedAt error now = some s') : Once s' := by
  obtain ⟨t, ht, rfl, _, hheld, rfl⟩ := claimedRow_some hrow
  unfold classify at hs
  split at hs
  · exact h.settledFinal rfl hs
  · exact h.settledFinal rfl hs
  · rename_i hnone
    apply h.settled _ hs
    intro _ hlaunched
    obtain ⟨turn, hlast, hcomment, hevident⟩ := (h.progress t ht).failed hpc row hheld hlaunched
    exact latestAttempt_ne_none hlast hcomment hevident hnone

end

theorem Once.returnsStep {ok : Bool} (h : Once s) (hok : KeepsEvidence s (.returns σ ok))
    (hs : s.returns σ ok = some s') : Once s' := by
  have hfail : (∀ checked, s.pc σ ≠ .checking checked) →
      ((s.pc σ).before = false → (s.pc σ).turnId ≠ none) → ok = false →
      Once (s.setPc σ .failed) := by
    rintro hchecking hturn rfl
    apply h.setPc
    rintro t ht rfl
    exact (h.progress t ht).fail (h.delivering hchecking t ht rfl) hturn (hok t ht rfl)
  have hstart : ∀ turnId, (s.pc σ).turnId = some turnId → (s.pc σ).before = false →
      Once (s.setPc σ (if ok then .started turnId else .failed)) := by
    intro turnId hturn hbefore
    have hchecking : ∀ checked, s.pc σ ≠ .checking checked := by
      intro checked heq
      rw [heq] at hturn
      cases hturn
    cases ok with
    | true =>
      apply h.advance (h.delivering hchecking)
      · rw [hbefore]
        rfl
      · rintro _ ⟨⟩
        exact hturn
      · exact nofun
    | false =>
      apply hfail hchecking _ rfl
      intro _
      rw [hturn]
      exact nofun
  have hend : ∀ pc, s.pc σ = pc → (∀ checked, pc ≠ .checking checked) →
      (pc.before = false → pc.turnId ≠ none) →
      (if ok then none else some (s.setPc σ .failed)) = some s' → Once s' := by
    rintro pc rfl hchecking hturn heq
    split_ifs at heq with hfalse
    cases heq
    exact hfail hchecking hturn (Bool.eq_false_iff.2 hfalse)
  unfold returns at hs
  split at hs
  case h_1 turnId hpc | h_2 turnId hpc =>
    cases hs
    exact hstart turnId (by rw [hpc]; rfl) (by rw [hpc]; rfl)
  case h_3 hpc => exact hend _ hpc nofun nofun hs
  case h_7 => cases hs
  case h_4 hpc | h_5 hpc | h_6 hpc => exact hend _ hpc nofun (fun _ => nofun) hs

theorem grows_pgid : Grows fun turn => { turn with pgid := true } :=
  ⟨fun _ => rfl, fun _ => rfl, fun _ => rfl, fun _ h => h, fun _ _ => .inl rfl⟩

theorem grows_workerJob : Grows fun turn => { turn with workerJob := true } :=
  ⟨fun _ => rfl, fun _ => rfl, fun _ => rfl, fun _ h => h, fun _ _ => .inr rfl⟩

theorem grows_columns (agentSession accepted : MarkedTurn → Bool) :
    Grows fun turn =>
      { turn with
        agentSession := turn.agentSession || agentSession turn
        accepted := turn.accepted || accepted turn } := by
  refine ⟨fun _ => rfl, fun _ => rfl, fun _ => rfl, fun _ h => h, ?_⟩
  intro turn hevident
  rcases hevident with hlaunched | huncertain
  · refine .inl ?_
    simp only [MarkedTurn.launched, Bool.or_eq_true] at hlaunched ⊢
    tauto
  · exact .inr huncertain

theorem grows_accepted : Grows fun turn => { turn with accepted := true } :=
  ⟨fun _ => rfl, fun _ => rfl, fun _ => rfl, fun _ h => h,
    fun turn _ => .inl (by simp [MarkedTurn.launched])⟩

theorem Once.recoverWriteStep (h : Once s) (hs : s.step .recoverWrite = some s') : Once s' := by
  simp only [step] at hs
  split at hs <;> cases hs
  rename_i row attempt rest hitems
  obtain ⟨r, hr, hrecovers⟩ := h.recovery _ hitems _ mem_cons_self
  have hrest : Once { s with recovery := some rest } :=
    h.recoverFewer hitems (sublist_cons_self _ rest)
  cases hstep : s.ledger.step (.recover row.id attempt) with
  | none => exact hrest
  | some ledger =>
    apply hrest.recovered hstep
    · exact hrecovers.id ▸ hrecovers.unclaimed
    · rintro rfl r' hr' hid hsession
      obtain rfl := h.unique.ids.eq hr hr' (hrecovers.id.trans hid.symm)
      rw [← hid]
      exact hrecovers.read rfl hsession
    · rintro _ ⟨⟩ item hitem heq
      have hdistinct := h.distinct _ hitems
      rw [map_cons, nodup_cons] at hdistinct
      exact hdistinct.1 (mem_map.2 ⟨item, hitem, heq⟩)

theorem Once.step {a : LaunchAction} (h : Once s) (hok : KeepsEvidence s a)
    (hs : s.step a = some s') : Once s' := by
  cases a with simp only [Launching.step] at hs
  | ledger a => exact h.plain hs
  | check σ id =>
    split at hs
    · rename_i hpc
      split_ifs at hs
      obtain ⟨row, hrow, hcheck⟩ := bind_eq_some_iff.1 hs
      exact h.checkStep hpc hrow hcheck
    · cases hs
  | withdraw σ id outcome =>
    split at hs
    · rename_i hpc
      split_ifs at hs
      exact h.settled (fun _ => h.not_spent_of_before (by rw [hpc]; rfl) hs) hs
    · cases hs
  | prepare σ =>
    split at hs
    · rename_i hpc
      obtain ⟨t, ht, hs⟩ := bind_eq_some_iff.1 hs
      obtain ⟨hmem, hσ, hdelivering⟩ := delivery_some ht
      split_ifs at hs
      cases hs
      apply h.advance
      · intro u hu huσ
        rw [h.unique.sessions.eq hu hmem (huσ.trans hσ.symm)]
        exact hdelivering
      · rw [hpc]
        rfl
      all_goals exact nofun
    · cases hs
  | snapshot σ id message commentUpdatedAt =>
    split_ifs at hs
    obtain ⟨ledger, hstep, rfl⟩ := map_eq_some_iff.1 hs
    exact h.quiet (a := .task σ (.snapshot id message commentUpdatedAt)) trivial hstep
      (fun _ _ => rfl) nofun
  | create σ turnId =>
    split_ifs at hs with hpc
    obtain ⟨t, ht, hs⟩ := bind_eq_some_iff.1 hs
    obtain ⟨s₁, hperform, rfl⟩ := map_eq_some_iff.1 hs
    obtain ⟨ledger, hstep, rfl⟩ := map_eq_some_iff.1 hperform
    exact h.create hpc ht hstep
  | spawn σ =>
    split at hs
    · rename_i hpc
      obtain ⟨t, ht, rfl⟩ := map_eq_some_iff.1 hs
      obtain ⟨hmem, rfl, _⟩ := delivery_some ht
      exact h.launched hmem (by rw [hpc]; rfl) (by rw [hpc]; rfl) rfl rfl
    · cases hs
  | updatePgid σ =>
    split at hs <;> cases hs
    exact h.setTurn grows_pgid
  | createPending σ =>
    split at hs <;> cases hs
    rename_i turnId hpc
    exact (h.setTurn grows_workerJob).goOn hpc nofun rfl (fun _ h => h) nofun
  | send σ accepted =>
    split at hs
    · rename_i hpc
      obtain ⟨t, ht, rfl⟩ := map_eq_some_iff.1 hs
      obtain ⟨hmem, rfl, _⟩ := delivery_some ht
      cases accepted with
      | true => exact h.launched hmem (by rw [hpc]; rfl) (by rw [hpc]; rfl) rfl rfl
      | false => exact h.goOn hpc nofun rfl (fun _ h => h) nofun
    · cases hs
  | recordAcceptance σ =>
    split at hs <;> cases hs
    rename_i turnId hpc
    exact (h.setTurn grows_accepted).goOn hpc nofun rfl (fun _ h => h) nofun
  | returns σ ok => exact h.returnsStep hok hs
  | markDelivered σ id message commentUpdatedAt =>
    split at hs
    · exact h.settledFinal rfl hs
    · cases hs
  | classify σ id message commentUpdatedAt error now =>
    split_ifs at hs with hpc
    obtain ⟨row, hrow, hclassify⟩ := bind_eq_some_iff.1 hs
    exact h.classifyStep hpc hrow hclassify
  | stop σ => exact h.stopped hok hs
  | report turnId agentSession accepted =>
    cases hs
    exact h.setTurn (grows_columns _ _)
  | recover =>
    split_ifs at hs
    cases hs
    exact h.recover hok
  | recoverRead =>
    split at hs <;> cases hs
    rename_i hitems
    exact h.recoverRead hitems
  | recoverWrite => exact h.recoverWriteStep hs
  | recoverStop =>
    obtain ⟨items, hitems, rfl⟩ := map_eq_some_iff.1 hs
    exact h.recoverFewer hitems (nil_sublist items)
  | crash =>
    obtain ⟨s₁, hperform, rfl⟩ := map_eq_some_iff.1 hs
    obtain ⟨ledger, hstep, rfl⟩ := map_eq_some_iff.1 hperform
    have hdropped : Once { s with ledger := ledger } := by
      have hledger := hstep
      cases hstep
      exact h.dropped (a := .crash) trivial hledger rfl rfl nofun fun t ht => .inr (hok t ht)
    exact hdropped.setRecovery nofun nofun

/-! ## Every run -/

theorem task_ne_resolve (i : ℕ)
    (resolved : Except (DeliveryReason × String) ResolvedCandidates) (newId : Uuid) :
    DispatcherAction.task σ b ≠ .resolve i resolved newId := by
  intro heq
  cases heq

/-- Some step of the dispatcher leads to a ledger, and it resolves no row. -/
def Resolvefree (d d' : Dispatcher) : Prop :=
  ∃ a, d.step a = some d' ∧ ∀ i resolved newId, a ≠ .resolve i resolved newId

theorem resolvefree_of_task {s₁ : Launching}
    (hperform : s.perform (.task σ b) = some s₁) : Resolvefree s.ledger s₁.ledger := by
  obtain ⟨ledger, hstep, rfl⟩ := map_eq_some_iff.1 hperform
  exact ⟨.task σ b, hstep, task_ne_resolve⟩

theorem setPc_of_returns {ok : Bool} (h : s.returns σ ok = some s') : ∃ pc, s' = s.setPc σ pc := by
  unfold returns at h
  repeat' split at h
  all_goals cases h <;> exact ⟨_, rfl⟩

theorem ledger_of_check (hcheck : s.check σ id checked row = some s') :
    s'.ledger = s.ledger ∨ Resolvefree s.ledger s'.ledger := by
  unfold check at hcheck
  split at hcheck
  · exact .inr (resolvefree_of_task hcheck)
  · split_ifs at hcheck
    · cases hcheck
      exact .inl rfl
    · exact .inr (resolvefree_of_task hcheck)
  · cases hcheck
    exact .inl rfl

theorem ledger_of_classify
    (hclassify : s.classify σ id row message commentUpdatedAt error now = some s') :
    Resolvefree s.ledger s'.ledger := by
  unfold classify at hclassify
  split at hclassify
  all_goals exact resolvefree_of_task hclassify

theorem ledger_of_step {a : LaunchAction} (h : s.step a = some s') :
    s'.ledger = s.ledger ∨ Resolvefree s.ledger s'.ledger ∨
      ∃ a', a = .ledger a' ∧ s.ledger.step a' = some s'.ledger := by
  cases a with simp only [step] at h
  | ledger a =>
    split_ifs at h
    obtain ⟨s₁, hperform, rfl⟩ := map_eq_some_iff.1 h
    obtain ⟨ledger, hstep, rfl⟩ := map_eq_some_iff.1 hperform
    refine .inr (.inr ⟨a, rfl, ?_⟩)
    split
    all_goals exact hstep
  | check σ id =>
    split at h
    · split_ifs at h
      obtain ⟨row, _, hcheck⟩ := bind_eq_some_iff.1 h
      exact (ledger_of_check hcheck).imp_right .inl
    · cases h
  | withdraw σ id outcome | snapshot σ id message commentUpdatedAt
  | markDelivered σ id message commentUpdatedAt =>
    repeat' split at h
    all_goals first
      | exact .inr (.inl (resolvefree_of_task h))
      | cases h
  | prepare σ =>
    split at h
    · obtain ⟨t, _, h⟩ := bind_eq_some_iff.1 h
      split_ifs at h
      cases h
      exact .inl rfl
    · cases h
  | create σ turnId =>
    split_ifs at h
    obtain ⟨t, _, h⟩ := bind_eq_some_iff.1 h
    obtain ⟨s₁, hperform, rfl⟩ := map_eq_some_iff.1 h
    have hresolvefree : Resolvefree s.ledger s₁.ledger := resolvefree_of_task hperform
    exact .inr (.inl hresolvefree)
  | spawn σ =>
    split at h
    · obtain ⟨t, _, rfl⟩ := map_eq_some_iff.1 h
      exact .inl rfl
    · cases h
  | send σ accepted =>
    split at h
    · obtain ⟨t, _, rfl⟩ := map_eq_some_iff.1 h
      cases accepted
      all_goals exact .inl rfl
    · cases h
  | updatePgid σ | createPending σ | recordAcceptance σ | recoverRead | recover =>
    split at h <;> cases h
    exact .inl rfl
  | returns σ ok =>
    obtain ⟨pc, rfl⟩ := setPc_of_returns h
    exact .inl rfl
  | classify σ id message commentUpdatedAt error now =>
    split_ifs at h
    obtain ⟨row, _, hclassify⟩ := bind_eq_some_iff.1 h
    exact .inr (.inl (ledger_of_classify hclassify))
  | stop σ => exact .inr (.inl (resolvefree_of_task h))
  | report turnId agentSession accepted =>
    cases h
    exact .inl rfl
  | recoverWrite =>
    split at h <;> cases h
    rename_i row attempt rest _
    show (s.ledger.step (.recover row.id attempt)).getD s.ledger = s.ledger ∨ _
    cases hstep : s.ledger.step (.recover row.id attempt) with
    | none => exact .inl rfl
    | some ledger =>
      refine .inr (.inl ⟨.recover row.id attempt, ?_, ?_⟩)
      · simp only [hstep, getD_some]
      · intro i resolved newId heq
        cases heq
  | recoverStop =>
    obtain ⟨items, _, rfl⟩ := map_eq_some_iff.1 h
    exact .inl rfl
  | crash =>
    obtain ⟨s₁, hperform, rfl⟩ := map_eq_some_iff.1 h
    obtain ⟨ledger, hstep, rfl⟩ := map_eq_some_iff.1 hperform
    refine .inr (.inl ⟨.crash, hstep, ?_⟩)
    intro i resolved newId heq
    cases heq

theorem once_of_reachable (h : Reachable Launching.step KeepsEvidence Initial s) : Once s :=
  h.invariant (fun _ => Once.initial) fun _ _ _ honce hok hs => honce.step hok hs

/-- Where a delivery that is cut off leaves evidence of its agent, and recovery begins before a row
    is claimed: the comment of a row is launched at most once for each time that the row was
    resolved, and the row is resolved again only by a request, in a state from which it may be. -/
theorem comments_launched_once (h : Reachable Launching.step KeepsEvidence Initial s) :
    Keyed IssueCommentDelivery.commentId s.ledger.rows ∧ s.launches.Nodup ∧
    (∀ id n, (id, n) ∈ s.launches → 1 ≤ n ∧ n ≤ resolutions id s.ledger.log) ∧
    ∀ a s', s.step a = some s' → ∀ r ∈ s.ledger.rows,
      resolutions r.id s'.ledger.log ≠ resolutions r.id s.ledger.log → r.state.isResolvable = true ∧
        ∃ i resolved newId, a = .ledger (.resolve i resolved newId) := by
  have honce := once_of_reachable h
  refine ⟨honce.unique.comments, honce.nodup, honce.bounded, ?_⟩
  intro a s' hs r hr hagain
  rcases ledger_of_step hs with heq | ⟨a', hstep, hnot⟩ | ⟨a', rfl, hstep⟩
  · rw [heq] at hagain
    exact absurd rfl hagain
  · have heffect := effect_of_step honce.unique.ids hstep
    obtain ⟨_, i, resolved, newId, rfl⟩ := heffect.resolved_again honce.unique.ids hr hagain
    exact absurd rfl (hnot i resolved newId)
  · have heffect := effect_of_step honce.unique.ids hstep
    obtain ⟨hstate, i, resolved, newId, rfl⟩ := heffect.resolved_again honce.unique.ids hr hagain
    exact ⟨hstate, i, resolved, newId, rfl⟩

/-! ## Examples -/

def exampleLaunching : Launching := ⟨exampleLedger, [], fun _ => .checking [], none, []⟩

theorem initial_exampleLaunching : exampleLaunching.Initial :=
  ⟨initial_exampleLedger, rfl, rfl, rfl⟩

/-- The request for the comment `1` is resolved to the session `3`. -/
def exampleRequested : Launching :=
  (exec step KeepsEvidence exampleLaunching (exampleRequest.map .ledger)).getD exampleLaunching

/-- A task of the session claims the row and spawns a local agent in a new execution. -/
def exampleDelivery (s : Launching) (turnId : Uuid) : List LaunchAction :=
  [.ledger (.start 3 0 (listDue s.ledger.rows 3 0)), .ledger (.task 3 .claim),
    .ledger (.task 3 .deliver), .check 3 7, .prepare 3, .create 3 turnId, .spawn 3]

/-- The server stops, and the next one recovers. -/
def exampleRestart : List LaunchAction := [.crash, .recover, .recoverRead, .recoverWrite]

/-- The server stops after the process group is recorded. -/
def exampleRecorded : Launching :=
  (exec step KeepsEvidence exampleRequested
    (exampleDelivery exampleRequested 50 ++ .updatePgid 3 :: exampleRestart)).getD exampleLaunching

/-- Recovery finds the agent that was started, and the comment is not sent again. -/
theorem recovered_launch :
    exampleRecorded.ledger.rows.map (fun r => (r.commentId, r.state, r.executionProcessId)) =
      [(1, .delivered, some 50)] ∧
    exampleRecorded.launches = [(7, 1)] ∧ resolutions 7 exampleRecorded.ledger.log = 1 ∧
    exampleRecorded.launches.Nodup := by
  have hrequest : exec step KeepsEvidence exampleLaunching (exampleRequest.map .ledger) =
      some exampleRequested := rfl
  have hrestart : exec step KeepsEvidence exampleRequested
      (exampleDelivery exampleRequested 50 ++ .updatePgid 3 :: exampleRestart) =
      some exampleRecorded := rfl
  have hreach : Reachable step KeepsEvidence Initial exampleRecorded :=
    (reachable_of_exec initial_exampleLaunching hrequest).runs (runs_of_exec hrestart)
  exact ⟨rfl, rfl, rfl, (comments_launched_once hreach).2.1⟩

/-- The server stops before the process group is recorded. -/
def exampleUnrecorded : Launching :=
  (exec step anyStep exampleRequested (exampleDelivery exampleRequested 50 ++ exampleRestart)).getD
    exampleLaunching

/-- The next server finds no evidence of the agent and sends the comment in a second execution,
    although the row was resolved once. -/
theorem comment_launched_twice : ∃ s, Reachable step anyStep Initial s ∧
    s.launches = [(7, 1), (7, 1)] ∧ ¬ s.launches.Nodup ∧ resolutions 7 s.ledger.log = 1 ∧
    s.turns.map (fun turn => (turn.id, turn.comments, turn.agentStarted)) =
      [(50, [1], true), (51, [1], true)] := by
  have hrequest : exec step anyStep exampleLaunching (exampleRequest.map .ledger) =
      some exampleRequested := rfl
  have hrestart : exec step anyStep exampleRequested
      (exampleDelivery exampleRequested 50 ++ exampleRestart) = some exampleUnrecorded := rfl
  have hagain : exec step anyStep exampleUnrecorded (exampleDelivery exampleUnrecorded 51) =
      some _ := rfl
  have hruns := (runs_of_exec hrestart).trans (runs_of_exec hagain)
  exact ⟨_, (reachable_of_exec initial_exampleLaunching hrequest).runs hruns, rfl, by decide, rfl,
    rfl⟩

end Launching

end VibeKanban.Ledger

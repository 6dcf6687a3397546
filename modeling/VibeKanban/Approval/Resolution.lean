import VibeKanban.Approval.Service

/-!
# How an approval is resolved (`services/approvals.rs`)

`respond` removes the entry before it validates the status and puts it back when the status is
invalid; the watcher writes `completed` before it removes the entry.

* `resolvedOnce_of_reachable`: an approval is resolved once, in the runs in which neither meets
  another call at the wrong moment.
-/

namespace VibeKanban.Approval

open Lib Cluster Option
open Function (update update_apply update_of_ne update_self update_comm update_idem
  update_eq_self_iff)

/-- The call has written `completed`. -/
def RespondPos.won : RespondPos → Bool
  | .recorded _ | .answered _ | .returned (.ok _) => true
  | _ => false

/-- The call has sent the outcome to the waiter. -/
def RespondPos.sent : RespondPos → Bool
  | .answered _ | .returned (.ok _) => true
  | _ => false

theorem RespondPos.won_of_sent {pos : RespondPos} (h : pos.sent = true) : pos.won = true := by
  revert h
  unfold sent won
  split <;> simp

/-- The watcher has written `completed`. -/
def hasRecorded : Option WatchPos → Bool
  | some (.recorded _) | some .removed | some .patched | some .finished => true
  | _ => false

/-- What the watcher has written to `completed` while the sender is still to be had. -/
def watcherOutcome : Option WatchPos → Option ApprovalOutcome
  | some (.recorded o) => some o
  | some .removed | some .patched | some .finished => some .timedOut
  | _ => none

def fetchedRespond : Option Respond → Bool
  | some ⟨_, _, .removed _⟩ => true
  | _ => false

def fetchedCancel : Option Cancel → Bool
  | some ⟨_, .removed⟩ => true
  | _ => false

namespace Approvals

variable (s : Approvals)

/-! ## Every run -/

/-- A call of `respond` has sent the outcome to the waiter. -/
def Sent (id : Uuid) (o : ApprovalOutcome) : Prop :=
  ∃ k r, s.responds k = some r ∧ r.id = id ∧ r.status = o ∧ r.pos.sent = true

/-- What holds in every run. -/
structure Answered (s : Approvals) : Prop where
  unique : ∀ k k' r r', s.responds k = some r → s.responds k' = some r' →
    r.pos.won = true → r'.pos.won = true → r.id = r'.id → k = k'
  sent : ∀ k r, s.responds k = some r → r.pos.sent = true → s.waiters r.id = some r.status
  result : ∀ k r o ctx, s.responds k = some r → r.pos = .returned (.ok (o, ctx)) → o = r.status
  woken : ∀ id o, s.watchers id = some (.woken o) ∨ s.watchers id = some (.recorded o) →
    o = .timedOut ∨ s.waiters id = some o
  waiter : ∀ id o, s.waiters id = some o → o = .timedOut ∨ s.Sent id o

variable {s} {s' : Approvals} {id : Uuid} {k : ℕ} {a : ApprovalAction}
  {o : ApprovalOutcome} {r : Respond}

theorem answered_new (now : Timestamp) : (new now).Answered := by constructor <;> simp [new]

/-- Nobody has the sender of an approval that a call of `respond` has won. -/
theorem Answered.owner_won (h : s.Answered) (ho : s.Owned)
    (hr : s.responds k = some r) (hwon : r.pos.won = true) :
    s.owner r.id = .respond k ∨ s.owner r.id = .spent := by
  obtain ⟨id, status, pos⟩ := r
  cases pos with
  | recorded p => exact .inl ((ho.respond _ _).2 (congrArg responding hr))
  | answered p =>
    right
    rw [ho.spent, h.sent k _ hr rfl]
    exact some_ne_none _
  | returned result =>
    right
    cases result with
    | ok v =>
      rw [ho.spent, h.sent k _ hr rfl]
      exact some_ne_none _
    | error e => cases hwon
  | called | missed | removed => cases hwon

theorem waiters_step (ho : s.Owned) (hm : s.Moves a s') (h : s.waiters id = some o) :
    s'.waiters id = some o := by
  have hspent : s.owner id = .spent := (ho.spent id).2 (by rw [h]; exact some_ne_none _)
  cases hm with
  | watcherSend hw =>
    have hown := (ho.watcher _).2 (congrArg watching hw)
    grind [update_apply]
  | respondSend hr =>
    have hown := (ho.respond _ _).2 (congrArg responding hr)
    grind [update_apply]
  | cancelDrop hc =>
    have hown := (ho.cancel _ _).2 (congrArg cancelling hc)
    grind [update_apply]
  | _ => exact h

theorem responds_step (hm : s.Moves a s') (hr : s.responds k = some r) :
    ∃ pos, s'.responds k = some { r with pos := pos } ∧ (r.pos.sent = true → pos.sent = true) := by
  cases hm with
  | @respond k' _ _ hnew =>
    have hk : k ≠ k' := by
      rintro rfl
      rw [hr] at hnew
      cases hnew
    exact ⟨r.pos, (update_of_ne hk _ _).trans hr, fun hsent => hsent⟩
  | @respondRemove k' _ _ _ hr' | @respondMiss k' _ _ hr' | @respondRefuse k' _ _ hr'
  | @respondPutBack k' _ _ _ _ hr' | @respondRecord k' _ _ _ hr' | @respondSend k' _ _ _ hr'
  | @respondPatch k' _ _ _ hr' =>
    by_cases hk : k = k'
    · subst hk
      rw [hr'] at hr
      cases hr
      exact ⟨_, update_self _ _ _, by simp [RespondPos.sent]⟩
    · exact ⟨r.pos, (update_of_ne hk _ _).trans hr, fun hsent => hsent⟩
  | _ => exact ⟨r.pos, hr, fun hsent => hsent⟩

theorem Sent.step (h : s.Sent id o) (hm : s.Moves a s') : s'.Sent id o := by
  obtain ⟨k, r, hr, hid, hstatus, hsent⟩ := h
  obtain ⟨pos, hr', hkeep⟩ := responds_step hm hr
  exact ⟨k, _, hr', hid, hstatus, hkeep hsent⟩

theorem waiters_of_step (hm : s.Moves a s') (h : s'.waiters id = some o) :
    s.waiters id = some o ∨ o = .timedOut ∨ s'.Sent id o := by
  cases hm with
  | watcherSend | cancelDrop => grind [update_apply]
  | @respondSend k id' status p hr =>
    by_cases hid : id = id'
    · subst hid
      right
      right
      cases (update_self id _ s.waiters).symm.trans h
      exact ⟨k, ⟨id, _, .answered p⟩, update_self _ _ _, rfl, rfl, rfl⟩
    · exact .inl ((update_of_ne hid _ _).symm.trans h)
  | _ => exact .inl h

theorem Answered.step (h : s.Answered) (ho : s.Owned) (hm : s.Moves a s') : s'.Answered := by
  have hwaiter : ∀ id o, s'.waiters id = some o → o = .timedOut ∨ s'.Sent id o := by
    intro id o hv
    rcases waiters_of_step hm hv with hold | hnew
    · exact (h.waiter id o hold).imp_right fun hsent => hsent.step hm
    · exact hnew
  have hkeep : ∀ id o, s.waiters id = some o → s'.waiters id = some o :=
    fun _ _ hv => waiters_step ho hm hv
  have hwon := fun k r => h.owner_won ho (k := k) (r := r)
  obtain ⟨h1, h2, h3, h4, -⟩ := h
  refine ⟨?_, ?_, ?_, ?_, hwaiter⟩ <;> clear hwaiter
  · cases hm with
    | respond | respondRemove | respondMiss | respondRefuse | respondPutBack | respondSend
    | respondPatch => grind [update_apply, RespondPos.won]
    | respondRecord hr =>
      have hown := (ho.respond _ _).2 (congrArg responding hr)
      grind [update_apply, RespondPos.won]
    | _ => exact h1
  · cases hm with
    | respond | respondRemove | respondMiss | respondRefuse | respondPutBack | respondRecord
    | respondSend | respondPatch | watcherSend | cancelDrop => grind [update_apply, RespondPos.sent]
    | _ => exact h2
  · cases hm with
    | respond | respondRemove | respondMiss | respondRefuse | respondPutBack | respondRecord
    | respondSend | respondPatch => grind [update_apply]
    | _ => exact h3
  · cases hm with
    | spawn | deadline | wake | watcherRecord | watcherRemove | watcherMiss | watcherPatch
    | watcherSend | respondSend | cancelDrop => grind [update_apply]
    | _ => exact h4

/-! ## Orderly runs -/

/-- A call of `respond` has the entry of the approval and will put it back. -/
def Withheld (s : Approvals) (id : Uuid) : Prop :=
  ∃ k status p e, s.responds k = some ⟨id, status, .removed p⟩ ∧
    validateApprovalResponse status p.isQuestion = .error e

/-- The action looks for the entry of the approval in `pending`. -/
def Consults (s : Approvals) : ApprovalAction → Uuid → Prop
  | .watch id', id => id' = id ∧ s.watchers id = some (.recorded .timedOut)
  | .respondStep k, id => ∃ status, s.responds k = some ⟨id, status, .called⟩
  | .cancelStep k, id => s.cancels k = some ⟨id, .called⟩
  | .streamStep i, _ => ∃ st, s.streams i = some st ∧ (st.pos = .called ∨
      ∃ rx n rx', st.pos = .live rx ∧ s.patches.recv rx = some (.lagged n, rx'))
  | _, _ => False

/-- The action writes to `completed` what will not be the outcome of the waiter: the watcher
    another outcome than that of the answer, `cancel` what the watcher has written already. -/
def Overwrites (s : Approvals) : ApprovalAction → Prop
  | .watch id => ∃ o k r, s.watchers id = some (.woken o) ∧ s.responds k = some r ∧ r.id = id ∧
      r.pos.won = true ∧ r.status ≠ o
  | .cancelStep k => ∃ id, s.cancels k = some ⟨id, .removed⟩ ∧ hasRecorded (s.watchers id) = true
  | _ => False

/-- The action does not meet another call at the wrong moment. -/
def Orderly (s : Approvals) (a : ApprovalAction) : Prop :=
  (∀ id, s.Consults a id → ¬s.Withheld id) ∧ ¬s.Overwrites a

/-- Nobody has decided yet. -/
def undecided (s : Approvals) (id : Uuid) : Bool :=
  match s.owner id with
  | .nobody | .table | .watcher => true
  | .respond k => fetchedRespond (s.responds k)
  | .cancel k => fetchedCancel (s.cancels k)
  | _ => false

/-- What holds in the orderly runs. -/
structure Agreed (s : Approvals) : Prop where
  won : ∀ k r, s.responds k = some r → r.pos.won = true → s.completed r.id = some r.status
  cancelled : ∀ k id, s.cancels k = some ⟨id, .recorded⟩ ∨ s.cancels k = some ⟨id, .patched⟩ →
    hasRecorded (s.watchers id) = true → s.completed id = some .timedOut
  undecided : ∀ id, s.undecided id = true → s.completed id = watcherOutcome (s.watchers id)
  stored : ∀ id o, hasRecorded (s.watchers id) = true → s.waiters id = some o →
    s.completed id = some o
  finished : ∀ id, s.watchers id = some .finished → s.owner id ≠ .table ∧ ¬s.Withheld id

theorem agreed_new (now : Timestamp) : (new now).Agreed := by
  constructor <;> simp [new, undecided, watcherOutcome]

theorem Orderly.not_withheld (h : s.Orderly a) (hc : s.Consults a id) : ¬s.Withheld id := h.1 id hc

/-- The watcher does not overwrite the outcome of an answer. -/
theorem Orderly.status_eq (h : s.Orderly (.watch id)) (hw : s.watchers id = some (.woken o))
    (hr : s.responds k = some r) (hid : r.id = id) (hwon : r.pos.won = true) :
    r.status = o := by
  by_contra hne
  exact h.2 ⟨o, k, r, hw, hr, hid, hwon, hne⟩

theorem Orderly.not_recorded (h : s.Orderly (.cancelStep k))
    (hc : s.cancels k = some ⟨id, .removed⟩) : hasRecorded (s.watchers id) = false := by
  rw [← Bool.not_eq_true]
  exact fun hrec => h.2 ⟨id, hc, hrec⟩

section

variable (h : s.Agreed) (hans : s.Answered) (ho : s.Owned) (hord : s.Orderly a) (hm : s.Moves a s')
include h hans ho hord hm

theorem Agreed.won_step (hr : s'.responds k = some r) (hwon : r.pos.won = true) :
    s'.completed r.id = some r.status := by
  have howner := fun k r => hans.owner_won ho (k := k) (r := r)
  have hold := h.won
  cases hm with
  | watcherRecord hw =>
    have hsame := fun k r => hord.status_eq hw (k := k) (r := r)
    grind [update_apply]
  | cancelRecord hc =>
    have hown := (ho.cancel _ _).2 (congrArg cancelling hc)
    grind [update_apply]
  | respondRecord hr' =>
    have hown := (ho.respond _ _).2 (congrArg responding hr')
    grind [update_apply]
  | respond | respondRemove | respondMiss | respondRefuse | respondPutBack | respondSend
  | respondPatch => grind [update_apply, RespondPos.won]
  | _ => exact h.won k r hr hwon

theorem Agreed.cancelled_step
    (hc : s'.cancels k = some ⟨id, .recorded⟩ ∨ s'.cancels k = some ⟨id, .patched⟩)
    (hrec : hasRecorded (s'.watchers id) = true) : s'.completed id = some .timedOut := by
  have hold := h.cancelled
  have hown : ∀ k id, s.cancels k = some ⟨id, .recorded⟩ ∨ s.cancels k = some ⟨id, .patched⟩ →
      s.owner id = .cancel k := by
    rintro k id (hc | hc)
    all_goals exact (ho.cancel _ _).2 (congrArg cancelling hc)
  have hspent := ho.spent
  have hwoken := hans.woken
  cases hm with
  | spawn | deadline | wake | watcherRecord | watcherMiss
  | watcherRemove hw | watcherPatch hw | watcherSend hw => grind [update_apply, hasRecorded]
  | cancelRecord hc' =>
    have hnot := hord.not_recorded hc'
    grind [update_apply]
  | respondRecord hr' =>
    have hown' := (ho.respond _ _).2 (congrArg responding hr')
    grind [update_apply]
  | cancel | cancelRemove | cancelMiss | cancelPatch | cancelDrop => grind [update_apply]
  | _ => exact h.cancelled k id hc hrec

end

theorem undecided_iff : s.undecided id = true ↔
    s.owner id = .nobody ∨ s.owner id = .table ∨ s.owner id = .watcher ∨
      (∃ k, s.owner id = .respond k ∧ fetchedRespond (s.responds k) = true) ∨
      ∃ k, s.owner id = .cancel k ∧ fetchedCancel (s.cancels k) = true := by
  unfold Approvals.undecided
  split <;> simp_all

theorem undecided_of_step (ho : s.Owned) (hm : s.Moves a s') (hu : s'.undecided id = true) :
    s.undecided id = true := by
  rw [undecided_iff] at hu ⊢
  have hnobody := ho.nobody id
  have htable := ho.table id
  cases hm with
  | insert hc =>
    have hown := (ho.nobody _).2 (congrArg uncreated hc)
    grind [update_apply]
  | watcherRemove | watcherSend => grind [update_apply]
  | respondPutBack hr =>
    have hown := (ho.respond _ _).2 (congrArg responding hr)
    grind [update_apply, fetchedRespond]
  | respondRemove hr =>
    have hown := ho.respond id
    grind [update_apply, responding]
  | respond | respondMiss | respondRefuse | respondRecord | respondSend | respondPatch =>
    grind [update_apply, fetchedRespond]
  | cancelRemove hc =>
    have hown := ho.cancel id
    grind [update_apply, cancelling]
  | cancel | cancelMiss | cancelRecord | cancelPatch | cancelDrop =>
    grind [update_apply, fetchedCancel]
  | _ => exact hu

theorem Agreed.undecided_step (h : s.Agreed) (hans : s.Answered) (ho : s.Owned)
    (hm : s.Moves a s') (hu : s'.undecided id = true) :
    s'.completed id = watcherOutcome (s'.watchers id) := by
  have hold := h.undecided id (undecided_of_step ho hm hu)
  cases hm with
  | spawn hc =>
    have hspawned := ho.spawned
    grind [update_apply, watcherOutcome]
  | deadline | wake | watcherRecord | watcherRemove | watcherPatch | watcherSend =>
    grind [update_apply, watcherOutcome]
  | watcherMiss =>
    have hwoken := hans.woken
    have hspent := ho.spent
    rw [undecided_iff] at hu
    grind [update_apply, watcherOutcome]
  | @respondRecord k id' status p hr =>
    have hown := (ho.respond _ _).2 (congrArg responding hr)
    have hne : id ≠ id' := by
      rintro rfl
      simp [Approvals.undecided, hown, fetchedRespond] at hu
    exact (update_of_ne hne _ _).trans hold
  | @cancelRecord k id' hc =>
    have hown := (ho.cancel _ _).2 (congrArg cancelling hc)
    have hne : id ≠ id' := by
      rintro rfl
      simp [Approvals.undecided, hown, fetchedCancel] at hu
    exact (update_of_ne hne _ _).trans hold
  | _ => exact hold

theorem Agreed.stored_step (h : s.Agreed) (hans : s.Answered) (ho : s.Owned) (hord : s.Orderly a)
    (hm : s.Moves a s') (hrec : hasRecorded (s'.watchers id) = true)
    (hv : s'.waiters id = some o) : s'.completed id = some o := by
  have hold := h.stored id
  have hspent := ho.spent
  cases hm with
  | watcherRecord hw =>
    have hsame := fun k r => hord.status_eq hw (k := k) (r := r)
    have hwaiter := hans.waiter
    have hwoken := hans.woken
    unfold Sent at hwaiter
    grind [update_apply, hasRecorded, RespondPos.won_of_sent]
  | spawn | deadline | wake | watcherRemove | watcherMiss | watcherPatch =>
    grind [update_apply, hasRecorded]
  | watcherSend hw =>
    have hown := (ho.watcher _).2 (congrArg watching hw)
    have hundecided := h.undecided
    grind [update_apply, hasRecorded, Approvals.undecided, watcherOutcome]
  | respondRecord hr =>
    have hown := (ho.respond _ _).2 (congrArg responding hr)
    grind [update_apply]
  | respondSend hr =>
    have hwon := h.won _ _ hr rfl
    grind [update_apply]
  | cancelRecord hc =>
    have hown := (ho.cancel _ _).2 (congrArg cancelling hc)
    grind [update_apply]
  | cancelDrop hc =>
    have hcancelled := h.cancelled _ _ (.inr hc)
    grind [update_apply]
  | _ => exact hold o hrec hv

theorem Withheld.owner_respond (h : s.Withheld id) (ho : s.Owned) :
    ∃ k, s.owner id = .respond k := by
  obtain ⟨k, status, p, e, hr, -⟩ := h
  exact ⟨k, (ho.respond _ _).2 (congrArg responding hr)⟩

/-- Only an entry in `pending` can be withheld. -/
theorem withheld_of_step (hm : s.Moves a s') (h : s'.Withheld id) :
    s.Withheld id ∨ s.pending id ≠ none := by
  obtain ⟨k, status, p, e, hr, hbad⟩ := h
  unfold Withheld
  cases hm with
  | respond | respondRemove | respondMiss | respondRefuse | respondPutBack | respondRecord
  | respondSend | respondPatch => grind [update_apply]
  | _ => exact .inl ⟨k, status, p, e, hr, hbad⟩

section

variable (h : s.Agreed) (hans : s.Answered) (ho : s.Owned) (hord : s.Orderly a) (hm : s.Moves a s')
include h hans ho hord hm

theorem Agreed.finished_step (hw : s'.watchers id = some .finished) :
    s'.owner id ≠ .table ∧ ¬s'.Withheld id := by
  have hold := h.finished id
  have htable := ho.table id
  have hspent := ho.spent id
  have hkept := fun hh : s'.Withheld id => withheld_of_step hm hh
  have hwithheld := fun hh : s.Withheld id => hh.owner_respond ho
  cases hm with
  | insert hc | spawn hc =>
    have hspawned := ho.spawned
    grind [update_apply]
  | deadline | wake | watcherRecord | watcherRemove | watcherPatch
  | respondRemove | respondRecord | respondSend | cancelRemove | cancelDrop => grind [update_apply]
  | @watcherMiss id' o hw' hp =>
    by_cases hid : id = id'
    · rw [← hid] at hw' hp hord
      show s.owner id ≠ .table ∧ ¬s.Withheld id
      by_cases htimeout : o = .timedOut
      · refine ⟨fun h => htable.1 h (hp htimeout), hord.not_withheld ⟨rfl, ?_⟩⟩
        rw [hw', htimeout]
      · have hv := (hans.woken id o (.inr hw')).resolve_left htimeout
        grind
    · exact hold ((update_of_ne hid _ _).symm.trans hw)
  | watcherSend hw' =>
    have hown := (ho.watcher _).2 (congrArg watching hw')
    grind [update_apply]
  | respondPutBack hr hbad =>
    have hmine : s.Withheld _ := ⟨_, _, _, _, hr, hbad⟩
    grind [update_apply]
  | _ => grind

theorem Agreed.step : s'.Agreed where
  won _ _ := h.won_step hans ho hord hm
  cancelled _ _ := h.cancelled_step hans ho hord hm
  undecided _ := h.undecided_step hans ho hm
  stored _ _ := h.stored_step hans ho hord hm
  finished _ := h.finished_step hans ho hord hm

end

/-! ## An invalid status -/

/-- The call `k` of `respond` puts the entry back. -/
def putBack (s : Approvals) (k : ℕ) (id : Uuid) (status : ApprovalOutcome) (p : PendingApproval)
    (e : ApprovalError) : Approvals :=
  { s with
    pending := update s.pending id (some p)
    responds := update s.responds k (some ⟨id, status, .returned (.error e)⟩)
    owner := update s.owner id .table }

variable {status : ApprovalOutcome} {p : PendingApproval} {e : ApprovalError}

theorem responds_of_ne (hm : s.Moves a s') (hr : s.responds k = some r)
    (hne : a ≠ .respondStep k) : s'.responds k = some r := by
  cases hm with
  | respond | respondRemove | respondMiss | respondRefuse | respondPutBack | respondRecord
  | respondSend | respondPatch => grind [update_apply]
  | _ => exact hr

theorem Moves.of_eq {t : Approvals} (hm : s.Moves a t) (heq : s' = t) : s.Moves a s' := heq ▸ hm

theorem Moves.putBack (hm : s.Moves a s') (ho : s.Owned) (hord : s.Orderly a)
    (hr : s.responds k = some ⟨id, status, .removed p⟩)
    (hbad : validateApprovalResponse status p.isQuestion = .error e) (hne : a ≠ .respondStep k) :
    (s.putBack k id status p e).Moves a (s'.putBack k id status p e) := by
  have hown := (ho.respond id k).2 (congrArg responding hr)
  have hwithheld : s.Withheld id := ⟨k, status, p, e, hr, hbad⟩
  have hk : ∀ {k'}, a = .respondStep k' → k' ≠ k := fun ha hk => hne (hk ▸ ha)
  have hid : ∀ {id'}, s.Consults a id' → id' ≠ id := by
    rintro id' hc rfl
    exact hord.not_withheld hc hwithheld
  have howner : ∀ {id' owner}, s.owner id' = owner → owner ≠ .respond k → id' ≠ id := by
    rintro id' owner hother howner rfl
    exact howner (hother.symm.trans hown)
  cases hm with
  | tick hle => exact .tick hle
  | create hnew => exact .create hnew
  | @insert id' _ hc =>
    have hid := howner ((ho.nobody _).2 (congrArg uncreated hc)) nofun
    refine of_eq (.insert hc) ?_
    simp only [Approvals.putBack, update_comm hid]
  | announce hc => exact .announce hc
  | spawn hc => exact .spawn hc
  | deadline hw hv hc hdue => exact .deadline hw hv hc hdue
  | wake hw hv => exact .wake hw hv
  | watcherRecord hw => exact .watcherRecord hw
  | @watcherRemove id' p' hw hp =>
    have hid := hid ⟨rfl, hw⟩
    refine of_eq (.watcherRemove hw ((update_of_ne hid _ _).trans hp)) ?_
    simp only [Approvals.putBack, update_comm hid]
  | @watcherMiss id' o hw hp =>
    apply Moves.watcherMiss (s := s.putBack k id status p e) hw
    rintro rfl
    have hid := hid ⟨rfl, hw⟩
    exact (update_of_ne hid _ _).trans (hp rfl)
  | watcherPatch hw => exact .watcherPatch hw
  | @watcherSend id' hw =>
    have hid := howner ((ho.watcher _).2 (congrArg watching hw)) nofun
    refine of_eq (.watcherSend hw) ?_
    simp only [Approvals.putBack, update_comm hid]
  | @respond k' _ _ hnew =>
    have hk : k' ≠ k := by
      rintro rfl
      rw [hr] at hnew
      cases hnew
    refine of_eq (.respond ((update_of_ne hk _ _).trans hnew)) ?_
    simp only [Approvals.putBack, update_comm hk]
  | @respondRemove k' id' _ p' hr' hp =>
    have hk := hk rfl
    have hid := hid ⟨_, hr'⟩
    refine of_eq (.respondRemove ((update_of_ne hk _ _).trans hr')
      ((update_of_ne hid _ _).trans hp)) ?_
    simp only [Approvals.putBack, update_comm hid, update_comm hk]
  | @respondMiss k' id' _ hr' hp =>
    have hk := hk rfl
    have hid := hid ⟨_, hr'⟩
    refine of_eq (.respondMiss ((update_of_ne hk _ _).trans hr')
      ((update_of_ne hid _ _).trans hp)) ?_
    simp only [Approvals.putBack, update_comm hk]
  | @respondRefuse k' id' _ hr' =>
    have hk := hk rfl
    refine of_eq (.respondRefuse ((update_of_ne hk _ _).trans hr')) ?_
    simp only [Approvals.putBack, update_comm hk]
    rfl
  | @respondPutBack k' id' _ p' e' hr' hbad' =>
    have hk := hk rfl
    have hid := howner ((ho.respond _ _).2 (congrArg responding hr')) fun heq =>
      hk (Owner.respond.inj heq)
    refine of_eq (.respondPutBack ((update_of_ne hk _ _).trans hr') hbad') ?_
    simp only [Approvals.putBack, update_comm hid, update_comm hk]
  | @respondRecord k' id' _ p' hr' hok =>
    have hk := hk rfl
    refine of_eq (.respondRecord ((update_of_ne hk _ _).trans hr') hok) ?_
    simp only [Approvals.putBack, update_comm hk]
  | @respondSend k' id' _ p' hr' =>
    have hk := hk rfl
    have hid := howner ((ho.respond _ _).2 (congrArg responding hr')) fun heq =>
      hk (Owner.respond.inj heq)
    refine of_eq (.respondSend ((update_of_ne hk _ _).trans hr')) ?_
    simp only [Approvals.putBack, update_comm hid, update_comm hk]
  | @respondPatch k' id' _ p' hr' =>
    have hk := hk rfl
    refine of_eq (.respondPatch ((update_of_ne hk _ _).trans hr')) ?_
    simp only [Approvals.putBack, update_comm hk]
  | cancel hnew => exact .cancel hnew
  | @cancelRemove k' id' p' hc hp =>
    have hid := hid hc
    refine of_eq (.cancelRemove hc ((update_of_ne hid _ _).trans hp)) ?_
    simp only [Approvals.putBack, update_comm hid]
  | @cancelMiss k' id' hc hp =>
    have hid := hid hc
    exact .cancelMiss hc ((update_of_ne hid _ _).trans hp)
  | cancelRecord hc => exact .cancelRecord hc
  | cancelPatch hc => exact .cancelPatch hc
  | @cancelDrop k' id' hc =>
    have hid := howner ((ho.cancel _ _).2 (congrArg cancelling hc)) nofun
    refine of_eq (.cancelDrop hc) ?_
    simp only [Approvals.putBack, update_comm hid]
  | stream hnew => exact .stream hnew
  | snapshot hs => exact absurd hwithheld (hord.not_withheld ⟨_, hs, .inl rfl⟩)
  | subscribe hs => exact .subscribe hs
  | receive hs hrecv => exact .receive hs hrecv
  | lag hs hrecv => exact absurd hwithheld (hord.not_withheld ⟨_, hs, .inr ⟨_, _, _, rfl, hrecv⟩⟩)

theorem withheld_putBack {id' : Uuid} (h : (s.putBack k id status p e).Withheld id') :
    s.Withheld id' := by
  obtain ⟨k', status', p', e', hr, hbad⟩ := h
  have hk : k' ≠ k := by
    rintro rfl
    cases (update_self _ _ _).symm.trans hr
  exact ⟨k', status', p', e', (update_of_ne hk _ _).symm.trans hr, hbad⟩

theorem Orderly.putBack (hord : s.Orderly a) (hne : a ≠ .respondStep k) :
    (s.putBack k id status p e).Orderly a := by
  constructor
  · intro id' hc hwithheld
    have hown := withheld_putBack hwithheld
    refine absurd hown (hord.not_withheld ?_)
    cases a with
    | respondStep k' =>
      obtain ⟨status', hr⟩ := hc
      have hk : k' ≠ k := fun hk => hne (hk ▸ rfl)
      exact ⟨status', (update_of_ne hk _ _).symm.trans hr⟩
    | _ => exact hc
  · intro hover
    apply hord.2
    cases a with
    | watch id' =>
      obtain ⟨o, k', r, hw, hr, hid, hwon, hstatus⟩ := hover
      have hk : k' ≠ k := by
        rintro rfl
        cases (update_self _ _ _).symm.trans hr
        cases hwon
      exact ⟨o, k', r, hw, (update_of_ne hk _ _).symm.trans hr, hid, hwon, hstatus⟩
    | _ => exact hover

/-- The two runs, with and without the entry in `pending`, go in lockstep. -/
theorem step_putBack (hbad : validateApprovalResponse status p.isQuestion = .error e)
    (s t : Approvals) (a : ApprovalAction) (s' : Approvals)
    (h : s.Owned ∧ s.responds k = some ⟨id, status, .removed p⟩ ∧ t = s.putBack k id status p e)
    (hok : s.Orderly a ∧ a ≠ .respondStep k) (hstep : s.step a = some s') :
    ∃ t', (t.Orderly a ∧ a ≠ .respondStep k) ∧ t.step a = some t' ∧
      s'.Owned ∧ s'.responds k = some ⟨id, status, .removed p⟩ ∧
      t' = s'.putBack k id status p e := by
  obtain ⟨ho, hr, rfl⟩ := h
  obtain ⟨hord, hne⟩ := hok
  have hm := moves_of_step hstep
  exact ⟨_, ⟨hord.putBack hne, hne⟩, step_of_moves (hm.putBack ho hord hr hbad hne),
    ho.step hm, responds_of_ne hm hr hne, rfl⟩

/-- A call with an invalid status is not observed: it ends as it would have ended at once, and the
    steps that others take meanwhile are the same without it. -/
theorem trace_putBack (ho : s.Owned) (hr : s.responds k = some ⟨id, status, .called⟩)
    (hp : s.pending id = some p)
    (hbad : validateApprovalResponse status p.isQuestion = .error e) :
    ∃ s₁, s.step (.respondStep k) = some s₁ ∧ ∀ as s',
      Trace step (fun s a => s.Orderly a ∧ a ≠ .respondStep k) s₁ as s' →
      ∃ t, s'.step (.respondStep k) = some t ∧
        Trace step (fun s a => s.Orderly a ∧ a ≠ .respondStep k)
          (s.moveRespond k ⟨id, status, .called⟩ (.returned (.error e))) as t := by
  have hremove := Moves.respondRemove hr hp
  refine ⟨_, step_of_moves hremove, ?_⟩
  intro as s' htrace
  obtain ⟨t, ht, -, hr', rfl⟩ := htrace.lockstep
    (fun s t => s.Owned ∧ s.responds k = some ⟨id, status, .removed p⟩ ∧
      t = s.putBack k id status p e)
    (step_putBack hbad) ⟨ho.step hremove, update_self _ _ _, rfl⟩
  refine ⟨_, step_of_moves (.respondPutBack hr' hbad), ?_⟩
  convert ht using 1
  · have hpending : update s.pending id (some p) = s.pending := update_eq_self_iff.2 hp.symm
    have howner : update s.owner id .table = s.owner :=
      update_eq_self_iff.2 ((ho.table id).2 (by rw [hp]; exact some_ne_none _)).symm
    simp only [moveRespond, putBack, update_idem, hpending, howner]
  · rfl

/-! ## Resolved once -/

/-- No step of a call on the approval can be taken. -/
structure Quiet (s : Approvals) (id : Uuid) : Prop where
  created : s.creations id ≠ none
  creation : s.step (.creation id) = none
  deadline : s.step (.deadline id) = none
  watch : s.step (.watch id) = none
  respond : ∀ k r, s.responds k = some r → r.id = id → s.step (.respondStep k) = none
  cancel : ∀ k c, s.cancels k = some c → c.id = id → s.step (.cancelStep k) = none

/-- The deadline of the approval has passed. -/
def Due (s : Approvals) (id : Uuid) : Prop :=
  ∃ c, s.creations id = some c ∧ c.approval.timeoutAt ≤ s.clock

section

variable (h : s.Quiet id)

include h

theorem Quiet.no_moves : ¬s.Moves (.watch id) s' ∧ ¬s.Moves (.creation id) s' ∧
    ¬s.Moves (.deadline id) s' := by
  refine ⟨?_, ?_, ?_⟩
  · intro hm
    cases h.watch.symm.trans (step_of_moves hm)
  · intro hm
    cases h.creation.symm.trans (step_of_moves hm)
  · intro hm
    cases h.deadline.symm.trans (step_of_moves hm)

theorem Quiet.returned : ∃ approval, s.creations id = some ⟨approval, .returned⟩ := by
  obtain ⟨⟨approval, pos⟩, hc⟩ := ne_none_iff_exists'.1 h.created
  cases pos with
  | called => exact absurd (.insert hc) h.no_moves.2.1
  | inserted => exact absurd (.announce hc) h.no_moves.2.1
  | announced => exact absurd (.spawn hc) h.no_moves.2.1
  | returned => exact ⟨approval, hc⟩

section

variable (ho : s.Owned)
include ho

theorem Quiet.watching :
    (s.watchers id = some .waiting ∧ s.waiters id = none) ∨ s.watchers id = some .finished := by
  obtain ⟨approval, hc⟩ := h.returned
  obtain ⟨pos, hw⟩ := ne_none_iff_exists'.1 ((ho.spawned id).2 (by rw [hc]; rfl))
  cases pos with
  | waiting =>
    cases hv : s.waiters id with
    | none => exact .inl ⟨hw, rfl⟩
    | some o => exact absurd (.wake hw hv) h.no_moves.1
  | woken o => exact absurd (.watcherRecord hw) h.no_moves.1
  | recorded o =>
    exfalso
    by_cases hp : o = .timedOut → s.pending id = none
    · exact h.no_moves.1 (.watcherMiss hw hp)
    · obtain ⟨rfl, hsome⟩ := Classical.not_imp.1 hp
      obtain ⟨p, hp⟩ := ne_none_iff_exists'.1 hsome
      exact h.no_moves.1 (.watcherRemove hw hp)
  | removed => exact absurd (.watcherPatch hw) h.no_moves.1
  | patched => exact absurd (.watcherSend hw) h.no_moves.1
  | finished => exact .inr hw

/-- When nothing is under way the sender is in `pending` or spent. -/
theorem Quiet.owner : s.owner id = .table ∨ s.owner id = .spent := by
  cases howner : s.owner id with
  | table => exact .inl rfl
  | spent => exact .inr rfl
  | nobody =>
    obtain ⟨approval, hc⟩ := h.returned
    rw [ho.nobody, hc] at howner
    cases howner
  | watcher =>
    rw [ho.watcher] at howner
    rcases h.watching ho with ⟨hw, -⟩ | hw
    all_goals
      rw [hw] at howner
      cases howner
  | respond k =>
    exfalso
    obtain ⟨status, p, hr | hr⟩ := responding_eq_some.1 ((ho.respond id k).1 howner)
    · cases hv : validateApprovalResponse status p.isQuestion with
      | ok => cases (h.respond k _ hr rfl).symm.trans (step_of_moves (.respondRecord hr hv))
      | error e => cases (h.respond k _ hr rfl).symm.trans (step_of_moves (.respondPutBack hr hv))
    · cases (h.respond k _ hr rfl).symm.trans (step_of_moves (.respondSend hr))
  | cancel k =>
    exfalso
    rcases cancelling_eq_some.1 ((ho.cancel id k).1 howner) with hc | hc | hc
    · cases (h.cancel k _ hc rfl).symm.trans (step_of_moves (.cancelRecord hc))
    · cases (h.cancel k _ hc rfl).symm.trans (step_of_moves (.cancelPatch hc))
    · cases (h.cancel k _ hc rfl).symm.trans (step_of_moves (.cancelDrop hc))

/-- When nothing is under way the waiter and `completed` have the same outcome. -/
theorem Quiet.stored (hagreed : s.Agreed) : s.completed id = s.waiters id := by
  rcases h.owner ho with htable | hspent
  · have hundecided := hagreed.undecided id (by rw [Approvals.undecided, htable])
    rcases h.watching ho with ⟨hw, hv⟩ | hw
    · rw [hundecided, hw, hv]
      rfl
    · exact absurd htable (hagreed.finished id hw).1
  · obtain ⟨o, hv⟩ := ne_none_iff_exists'.1 ((ho.spent id).1 hspent)
    rcases h.watching ho with ⟨-, hnone⟩ | hw
    · cases hnone.symm.trans hv
    · rw [hv]
      exact hagreed.stored id o (by rw [hw]; rfl) hv

theorem Quiet.expired (hagreed : s.Agreed) (hdue : s.Due id) :
    s.pending id = none ∧ s.waiters id ≠ none := by
  have hfinished : s.watchers id = some .finished := by
    rcases h.watching ho with ⟨hw, hv⟩ | hw
    · obtain ⟨c, hc, hle⟩ := hdue
      exact absurd (.deadline hw hv hc hle) h.no_moves.2.2
    · exact hw
  have hspent := (h.owner ho).resolve_left (hagreed.finished id hfinished).1
  refine ⟨?_, (ho.spent id).1 hspent⟩
  by_contra hsome
  cases ((ho.table id).2 hsome).symm.trans hspent

end

end

theorem waiters_runs {ok : Approvals → ApprovalAction → Prop} (ho : s.Owned)
    (h : Runs step ok s s') (hv : s.waiters id = some o) : s'.waiters id = some o := by
  have hboth : s'.Owned ∧ s'.waiters id = some o := by
    apply h.preserves (P := fun s => s.Owned ∧ s.waiters id = some o) ?_ ⟨ho, hv⟩
    rintro s a s' ⟨ho, hv⟩ - hstep
    exact ⟨ho.step (moves_of_step hstep), waiters_step ho (moves_of_step hstep) hv⟩
  exact hboth.2

/-- The approval is resolved once: its waiter gets one outcome, which is what the one answer that
    succeeds returns and what `completed` has when nothing is under way; a call with an invalid
    status is not observed; after the deadline the approval is resolved. -/
structure ResolvedOnce (s : Approvals) (id : Uuid) : Prop where
  answer : ∀ k r o ctx, s.responds k = some r → r.id = id → r.pos = .returned (.ok (o, ctx)) →
    s.waiters id = some o
  once : ∀ k k' r r' v v', s.responds k = some r → s.responds k' = some r' → r.id = id →
    r'.id = id → r.pos = .returned (.ok v) → r'.pos = .returned (.ok v') → k = k'
  final : ∀ s' o, Runs step anyStep s s' → s.waiters id = some o → s'.waiters id = some o
  stored : s.Quiet id → s.completed id = s.waiters id
  expired : s.Quiet id → s.Due id → s.pending id = none ∧ s.waiters id ≠ none
  invalid : ∀ k status p e, s.responds k = some ⟨id, status, .called⟩ → s.pending id = some p →
    validateApprovalResponse status p.isQuestion = .error e →
    ∃ s₁, s.step (.respondStep k) = some s₁ ∧ ∀ as s',
      Trace step (fun s a => s.Orderly a ∧ a ≠ .respondStep k) s₁ as s' →
      ∃ t, s'.step (.respondStep k) = some t ∧
        Trace step (fun s a => s.Orderly a ∧ a ≠ .respondStep k)
          (s.moveRespond k ⟨id, status, .called⟩ (.returned (.error e))) as t

theorem agreed_of_reachable (h : Reachable step Orderly Start s) :
    s.Owned ∧ s.Answered ∧ s.Agreed := by
  apply h.invariant (P := fun s => s.Owned ∧ s.Answered ∧ s.Agreed)
  · rintro s ⟨now, rfl⟩
    exact ⟨owned_new now, answered_new now, agreed_new now⟩
  · rintro s a s' ⟨ho, hans, hagreed⟩ hord hstep
    have hm := moves_of_step hstep
    exact ⟨ho.step hm, hans.step ho hm, hagreed.step hans ho hord hm⟩

/-- In the orderly runs every approval is resolved once. -/
theorem resolvedOnce_of_reachable (h : Reachable step Orderly Start s) (id : Uuid) :
    s.ResolvedOnce id := by
  obtain ⟨ho, hans, hagreed⟩ := agreed_of_reachable h
  refine ⟨?_, ?_, ?_, fun hq => hq.stored ho hagreed, fun hq => hq.expired ho hagreed, ?_⟩
  · intro k r o ctx hr hid hpos
    rw [hans.result k r o ctx hr hpos, ← hid]
    exact hans.sent k r hr (by rw [hpos]; rfl)
  · intro k k' r r' v v' hr hr' hid hid' hpos hpos'
    exact hans.unique k k' r r' hr hr' (by rw [hpos]; rfl) (by rw [hpos']; rfl)
      (hid.trans hid'.symm)
  · exact fun s' o hruns hv => waiters_runs ho hruns hv
  · exact fun k status p e hr hp hbad => trace_putBack ho hr hp hbad

/-- The action is no cancellation and no deadline, and asks or answers no question. -/
def plain : ApprovalAction → Bool
  | .create _ approval => !approval.isQuestion
  | .respond _ _ (.answered _) | .deadline _ | .cancel _ _ => false
  | _ => true

/-- What holds in the plain runs. -/
structure Plain (s : Approvals) : Prop where
  created : ∀ id c, s.creations id = some c → c.approval.isQuestion = false
  pending : ∀ id p, s.pending id = some p → p.isQuestion = false
  valid : ∀ k r, s.responds k = some r → validateApprovalResponse r.status false = .ok ()
  removed : ∀ k id status p, s.responds k = some ⟨id, status, .removed p⟩ → p.isQuestion = false
  cancels : ∀ k, s.cancels k = none
  woken : ∀ id o, s.watchers id = some (.woken o) → s.waiters id = some o

theorem Plain.step (h : s.Plain) (ho : s.Owned) (ha : plain a = true) (hm : s.Moves a s') :
    s'.Plain := by
  have hwoken : ∀ id o, s.watchers id = some (.woken o) → s'.waiters id = some o :=
    fun id o hw => waiters_step ho hm (h.woken id o hw)
  obtain ⟨h1, h2, h3, h4, h5, -⟩ := h
  cases hm with
  | deadline | cancel => cases ha
  | cancelRemove hc | cancelMiss hc | cancelRecord hc | cancelPatch hc | cancelDrop hc =>
    cases (h5 _).symm.trans hc
  | @respond k id status hnew =>
    have hvalid : validateApprovalResponse status false = .ok () := by
      cases status with
      | answered answers => cases ha
      | _ => rfl
    constructor <;> grind [update_apply]
  | create => constructor <;> grind [update_apply, plain]
  | _ => constructor <;> grind [update_apply]

theorem Plain.orderly (h : s.Plain) (ho : s.Owned) (hans : s.Answered) : s.Orderly a := by
  constructor
  · rintro id - ⟨k, status, p, e, hr, herr⟩
    rw [h.removed k id status p hr] at herr
    cases (h.valid k _ hr).symm.trans herr
  · intro hover
    cases a with
    | watch id =>
      obtain ⟨o, k, r, hw, hr, rfl, hwon, hne⟩ := hover
      have hv := h.woken r.id o hw
      obtain ⟨id, status, pos⟩ := r
      have hsent (hsent : pos.sent = true) : False := by
        cases hv.symm.trans (hans.sent k _ hr hsent)
        exact hne rfl
      cases pos with
      | recorded p =>
        have hown := (ho.respond _ _).2 (congrArg responding hr)
        rw [(ho.spent id).2 (by rw [hv]; exact some_ne_none _)] at hown
        cases hown
      | answered p => exact hsent rfl
      | returned result =>
        cases result with
        | ok v => exact hsent rfl
        | error e => cases hwon
      | called | missed | removed => cases hwon
    | cancelStep k =>
      obtain ⟨id, hc, -⟩ := hover
      cases (h.cancels k).symm.trans hc
    | _ => exact hover

theorem reachable_of_plain (h : Reachable step (fun _ a => plain a = true) Start s) :
    Reachable step Orderly Start s := by
  have hall : (s.Owned ∧ s.Answered ∧ s.Plain) ∧ Reachable step Orderly Start s := by
    apply h.invariant
      (P := fun s => (s.Owned ∧ s.Answered ∧ s.Plain) ∧ Reachable step Orderly Start s)
    · rintro s ⟨now, rfl⟩
      exact ⟨⟨owned_new now, answered_new now, by constructor <;> simp [new]⟩, .start ⟨now, rfl⟩⟩
    · rintro s a s' ⟨⟨ho, hans, hplain⟩, hs⟩ ha hstep
      have hm := moves_of_step hstep
      exact ⟨⟨ho.step hm, hans.step ho hm, hplain.step ho ha hm⟩,
        hs.next (hplain.orderly ho hans) hstep⟩
  exact hall.2

/-- An approval whose deadline is at 10. -/
def exampleApproval : PendingApproval := ⟨1, "bash", false, 0, 10⟩

/-- The approval 7 is approved; another answer is too late. -/
def exampleAnswered : List ApprovalAction :=
  [.create 7 exampleApproval, .creation 7, .creation 7, .creation 7, .respond 0 7 .approved,
    .respond 1 7 (.denied none), .respondStep 0, .respondStep 1, .respondStep 0, .respondStep 0,
    .watch 7, .respondStep 1, .watch 7, .respondStep 0, .watch 7, .tick 10]

theorem answered_resolvedOnce : ∃ s : Approvals, s.ResolvedOnce 7 ∧ s.Quiet 7 ∧ s.Due 7 ∧
    s.responds 0 = some ⟨7, .approved, .returned (.ok (.approved, ⟨"bash", 1⟩))⟩ ∧
    s.responds 1 = some ⟨7, .denied none, .returned (.error .alreadyCompleted)⟩ ∧
    s.waiters 7 = some .approved ∧ s.completed 7 = some .approved := by
  have hreachable := reachable_of_plain (reachable_of_exec ⟨0, rfl⟩
    (show exec step (fun _ a => plain a = true) (new 0) exampleAnswered = some _ from rfl))
  refine ⟨_, resolvedOnce_of_reachable hreachable 7,
    ⟨(by rintro ⟨⟩), rfl, rfl, rfl, ?_, by rintro _ _ ⟨⟩⟩, ⟨_, rfl, Nat.le_refl 10⟩, rfl, rfl, rfl,
    rfl⟩
  rintro k r hr -
  by_cases h0 : k = 0
  · rw [h0]
    rfl
  · by_cases h1 : k = 1
    · rw [h1]
      rfl
    · simp [h0, h1, new, moveRespond] at hr

/-- The watcher does not find the entry while a call with an invalid status has it. -/
def exampleLost : List ApprovalAction :=
  [.create 7 exampleApproval, .creation 7, .creation 7, .creation 7, .tick 10, .deadline 7,
    .watch 7, .respond 0 7 (.answered []), .respondStep 0, .watch 7, .respondStep 0]

/-- The watcher writes `completed` after the answer. -/
def exampleOverwritten : List ApprovalAction :=
  [.create 7 exampleApproval, .creation 7, .creation 7, .creation 7, .tick 10, .deadline 7,
    .respond 0 7 .approved, .respondStep 0, .respondStep 0, .watch 7, .watch 7, .respondStep 0,
    .respondStep 0]

/-- A timeout is lost; `completed` has another outcome than the answer and the waiter. -/
theorem lost_and_overwritten :
    (∃ s : Approvals, Reachable step anyStep Start s ∧ s.Quiet 7 ∧ s.Due 7 ∧
      s.pending 7 = some exampleApproval ∧ s.waiters 7 = none ∧ s.completed 7 = some .timedOut) ∧
    ∃ s : Approvals, Reachable step anyStep Start s ∧ s.Quiet 7 ∧ s.Due 7 ∧
      s.responds 0 = some ⟨7, .approved, .returned (.ok (.approved, ⟨"bash", 1⟩))⟩ ∧
      s.waiters 7 = some .approved ∧ s.completed 7 = some .timedOut := by
  have hlost : exec step anyStep (new 0) exampleLost = some _ := rfl
  have hoverwritten : exec step anyStep (new 0) exampleOverwritten = some _ := rfl
  refine ⟨⟨_, reachable_of_exec ⟨0, rfl⟩ hlost, ⟨(by rintro ⟨⟩), rfl, rfl, rfl, ?_,
    by rintro _ _ ⟨⟩⟩, ⟨_, rfl, Nat.le_refl 10⟩, rfl, rfl, rfl⟩, _,
    reachable_of_exec ⟨0, rfl⟩ hoverwritten, ⟨(by rintro ⟨⟩), rfl, rfl, rfl, ?_,
    by rintro _ _ ⟨⟩⟩, ⟨_, rfl, Nat.le_refl 10⟩, rfl, rfl, rfl⟩
  all_goals
    rintro k r hr -
    by_cases hk : k = 0
    · rw [hk]
      rfl
    · simp [hk, new, moveRespond] at hr

end Approvals

end VibeKanban.Approval

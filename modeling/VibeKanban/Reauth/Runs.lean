import VibeKanban.Lib.Runs
import VibeKanban.Lib.Since
import VibeKanban.Lib.Tasks
import VibeKanban.Reauth.Registry

/-!
# Re-authentication runs (`services/src/services/reauth/mod.rs`)

`start` and `start_expired` claim targets, and a task executes what it has claimed, one target after
another. Sign-ins with the shared Entra account take turns, and stop after a refusal. Which engines
succeed, how long they take and who asks for a run is up to the environment.

* `reauth_runs`: one run at a time for a target, in the runs in which nothing panics.
-/

namespace VibeKanban.Reauth

open Lib List Option

/-! ## The system -/

/-- What happens, as far as it is asked about. -/
inductive Event where
  | started (id : ReauthTargetId) (trigger : ReauthTrigger) (requestedAt : ℕ)
  | engineStarted (id : ReauthTargetId) (trigger : ReauthTrigger) (requestedAt : ℕ)
  | refusalRecorded (at' : ℕ)
  | signedIn
  | finished (id : ReauthTargetId) (outcome : ReauthRunOutcome)
  | escalated (id : ReauthTargetId)
  deriving DecidableEq

/-- How far `execute` has come with the first target of a task. -/
inductive Phase where
  | idle
  /-- it has read who asked for the run, and when, and waits for its turn -/
  | waiting (trigger : ReauthTrigger) (requestedAt : ℕ)
  | engine
  | verifying (note : Option String)
  | finishing (outcome : ReauthRunOutcome) (message : Option String)

/-- A task, with the targets that it has claimed and not finished. -/
structure Task where
  queue : List ReauthTargetId
  phase : Phase

/-- The log is not in the source. -/
structure State where
  states : Registry
  entraRefusal : Option EntraRefusal
  /-- the task that holds `entra_run_lock` -/
  entraRun : Option ℕ
  tasks : List Task
  /-- what `start_expired` has found and not claimed yet -/
  found : List (ReauthTrigger × List ReauthTargetId)
  now : ℕ
  log : List Event

inductive Action where
  | start (id : ReauthTargetId) (trigger : ReauthTrigger) (now : ℕ)
  /-- the probes of `start_expired` end, which began at a time before; they say which targets are
      unauthenticated -/
  | discover (trigger : ReauthTrigger) (expired : List ReauthTargetId) (began now : ℕ)
  | startExpired (k now : ℕ)
  /-- `execute` begins with the next target of a task -/
  | begin (i now : ℕ)
  /-- it has its turn, and looks whether the shared sign-in was refused -/
  | gate (i : ℕ)
  | say (i : ℕ) (line : String)
  | engineEnds (i : ℕ) (result : Except ReauthError (Option String)) (now : ℕ)
  /-- the engine is stopped after `ENGINE_TIMEOUT` -/
  | timesOut (i now : ℕ)
  | verified (i : ℕ) (result : Except String Unit)
  | finish (i now interval : ℕ)
  /-- the engine or the verification panics, and ends the task -/
  | panics (i : ℕ)

/-- The claims of a batch: the reports, and the targets whose runs the caller owns. -/
def claimAll (states : Registry) (trigger : ReauthTrigger) (now : ℕ) :
    List ReauthTargetId → Registry × List (ReauthTargetId × ReauthRun) × List ReauthTargetId
  | [] => (states, [], [])
  | id :: ids =>
    match claim states id trigger now with
    | (states, .started run) =>
      let (states, reports, owned) := claimAll states trigger now ids
      (states, (id, run) :: reports, id :: owned)
    | (states, .joined run) | (states, .blocked run) =>
      let (states, reports, owned) := claimAll states trigger now ids
      (states, (id, run) :: reports, owned)

namespace State

variable (refusalIn : String → Option String)

/-- The claims of `start` and of `start_expired`, and the task that they spawn. -/
def spawn (s : State) (trigger : ReauthTrigger) (ids : List ReauthTargetId) (now : ℕ) : State :=
  let (states, _, owned) := claimAll s.states trigger now ids
  { s with
    states := states
    tasks := if owned = [] then s.tasks else s.tasks ++ [⟨owned, .idle⟩]
    now := now
    log := s.log ++ owned.map fun id => .started id trigger now }

def setTask (s : State) (i : ℕ) (task : Task) : State := { s with tasks := s.tasks.set i task }

/-- The turn of a task ends with its run, or with the task. -/
def release (s : State) (i : ℕ) : State :=
  { s with entraRun := if s.entraRun = some i then none else s.entraRun }

/-- `execute`, with the engine's result (lines 979-1003). -/
def engineEnds (s : State) (i : ℕ) (id : ReauthTargetId) (queue : List ReauthTargetId)
    (result : Except ReauthError (Option String)) (now : ℕ) : State :=
  match result with
  | .ok note =>
    let s := s.setTask i ⟨queue, .verifying note⟩
    if usesEntra id then
      { s with entraRefusal := none, now := now, log := s.log ++ [.signedIn] }
    else { s with now := now }
  | .error err =>
    let err := normalizeRefusal refusalIn err
    match err.refusal with
    | some reason =>
      let s := s.setTask i ⟨queue, .finishing .refused (some err.text)⟩
      if usesEntra id then
        { s with
          entraRefusal := some ⟨reason, now⟩
          now := now
          log := s.log ++ [.refusalRecorded now] }
      else { s with now := now }
    | none => { s.setTask i ⟨queue, .finishing .failed (some err.text)⟩ with now := now }

def step (s : State) : Action → Option State
  | .start id trigger now => if s.now ≤ now then some (s.spawn trigger [id] now) else none
  | .discover trigger expired began now =>
    if began ≤ now ∧ s.now ≤ now then
      some { s with
        found := s.found ++
          [(trigger, expired.filter fun id => selectable (s.states id) trigger began)]
        now := now }
    else none
  | .startExpired k now =>
    match s.found[k]? with
    | some (trigger, ids) =>
      if s.now ≤ now then some { s.spawn trigger ids now with found := s.found.eraseIdx k }
      else none
    | none => none
  | .begin i now =>
    match s.tasks[i]? with
    | some ⟨id :: ids, .idle⟩ =>
      if s.now ≤ now then
        let (trigger, requestedAt) := (s.states.entry id).request.getD (.manual, now)
        some { s.setTask i ⟨id :: ids, .waiting trigger requestedAt⟩ with now := now }
      else none
    | _ => none
  | .gate i =>
    match s.tasks[i]? with
    | some ⟨id :: ids, .waiting trigger requestedAt⟩ =>
      if usesEntra id then
        if s.entraRun = none then
          let s := { s with entraRun := some i }
          match entraGate trigger s.entraRefusal requestedAt with
          | some reason => some (s.setTask i ⟨id :: ids, .finishing .refused (some reason)⟩)
          | none => some { s.setTask i ⟨id :: ids, .engine⟩ with
              log := s.log ++ [.engineStarted id trigger requestedAt] }
        else none
      else some { s.setTask i ⟨id :: ids, .engine⟩ with
          log := s.log ++ [.engineStarted id trigger requestedAt] }
    | _ => none
  | .say i line =>
    match s.tasks[i]? with
    | some ⟨id :: _, _⟩ => some { s with states := appendTranscript s.states id line }
    | _ => none
  | .engineEnds i result now =>
    match s.tasks[i]? with
    | some ⟨id :: ids, .engine⟩ =>
      if s.now ≤ now then some (s.engineEnds refusalIn i id (id :: ids) result now) else none
    | _ => none
  | .timesOut i now =>
    match s.tasks[i]? with
    | some ⟨id :: ids, .engine⟩ =>
      if s.now ≤ now then
        let message := "the sign-in did not finish within 20 minutes"
        some { s.setTask i ⟨id :: ids, .finishing .failed (some message)⟩ with now := now }
      else none
    | _ => none
  | .verified i result =>
    match s.tasks[i]? with
    | some ⟨id :: ids, .verifying note⟩ =>
      match result with
      | .ok () => some (s.setTask i ⟨id :: ids, .finishing .succeeded note⟩)
      | .error why => some (s.setTask i ⟨id :: ids, .finishing .verificationFailed (some why)⟩)
    | _ => none
  | .finish i now interval =>
    match s.tasks[i]? with
    | some ⟨id :: ids, .finishing outcome message⟩ =>
      if s.now ≤ now then
        let (states, escalate) := Reauth.finish s.states id outcome message now interval
        some { (s.setTask i ⟨ids, .idle⟩).release i with
          states := states
          now := now
          log := s.log ++ .finished id outcome :: if escalate then [.escalated id] else [] }
      else none
    | _ => none
  | .panics i =>
    match s.tasks[i]? with
    | some ⟨_ :: _, .engine⟩ | some ⟨_ :: _, .verifying _⟩ =>
      some ((s.setTask i ⟨[], .idle⟩).release i)
    | _ => none

def Initial (s : State) : Prop :=
  (∀ id, s.states id = none) ∧ s.entraRefusal = none ∧ s.entraRun = none ∧ s.tasks = [] ∧
    s.found = [] ∧ s.log = []

/-- No engine and no verification panics. -/
def Returns (_ : State) : Action → Prop
  | .panics _ => False
  | _ => True

instance (s : State) (action : Action) : Decidable (s.Returns action) := by
  cases action
  all_goals
    simp only [Returns]
    infer_instance

def Running (s : State) (id : ReauthTargetId) : Prop := (s.states.entry id).running = true
  deriving Decidable

def queued (s : State) : List ReauthTargetId := s.tasks.flatMap Task.queue

end State

/-! ## What is asked for -/

def Event.Starts (id : ReauthTargetId) : Event → Prop
  | .started id' _ _ => id' = id
  | _ => False

def Event.StartsManually (id : ReauthTargetId) : Event → Prop
  | .started id' trigger _ => id' = id ∧ trigger = .manual
  | _ => False

def Event.Finishes (id : ReauthTargetId) : Event → Prop
  | .finished id' _ => id' = id
  | _ => False

/-- What may happen after a history. -/
def Permitted (before : List Event) : Event → Prop
  -- one run a target, and after a refusal the operator's
  | .started id trigger _ => ¬ Since (Event.Starts id) (Event.Finishes id) before ∧
      (Since (· = .finished id .refused) (Event.StartsManually id) before → trigger = .manual)
  -- for the run in progress, and unless an Entra sign-in has been refused
  | .engineStarted id trigger requestedAt =>
    Since (· = .started id trigger requestedAt) (Event.Finishes id) before ∧
      (usesEntra id = true → ∀ at', Since (· = .refusalRecorded at') (· = .signedIn) before →
        trigger = .manual ∧ at' < requestedAt)
  -- once between two successes
  | .escalated id => ¬ Since (· = .escalated id) (· = .finished id .succeeded) before
  | _ => True

/-- Every run that is in progress is one of a task. -/
def Settled (s : State) : Prop :=
  ∀ id, s.Running id ∨ Since (Event.Starts id) (Event.Finishes id) s.log → id ∈ s.queued

/-! ## The registry and the history -/

/-- What the registry says of the history, where `queue` are the targets that tasks have claimed. -/
structure Consistent (states : Registry) (log : List Event) (queue : List ReauthTargetId) :
    Prop where
  permitted : ∀ before e after, log = before ++ e :: after → Permitted before e
  progress : ∀ id, Since (Event.Starts id) (Event.Finishes id) log ↔
    (states.entry id).running = true
  current : ∀ id, (states.entry id).running = true → ∃ trigger requestedAt,
    (states.entry id).request = some (trigger, requestedAt) ∧
      Since (· = .started id trigger requestedAt) (Event.Finishes id) log
  refused : ∀ id, Since (· = .finished id .refused) (Event.StartsManually id) log →
    (states.entry id).refused = true ∧ (states.entry id).running = false
  escalated : ∀ id, Since (· = .escalated id) (· = .finished id .succeeded) log →
    (states.entry id).escalated = true
  nodup : queue.Nodup
  running : ∀ id ∈ queue, (states.entry id).running = true

section Registry

variable {states states' : Registry} {log : List Event} {queue queue' : List ReauthTargetId}
  {id : ReauthTargetId} {trigger : ReauthTrigger} {now : ℕ}

theorem Consistent.perm (h : Consistent states log queue) (hperm : queue.Perm queue') :
    Consistent states log queue' where
  permitted := h.permitted
  progress := h.progress
  current := h.current
  refused := h.refused
  escalated := h.escalated
  nodup := hperm.nodup_iff.1 h.nodup
  running := fun id hid => h.running id (hperm.mem_iff.2 hid)

theorem Consistent.congr (h : Consistent states log queue)
    (heq : ∀ id, (states'.entry id).running = (states.entry id).running ∧
      (states'.entry id).request = (states.entry id).request ∧
      (states'.entry id).refused = (states.entry id).refused ∧
      (states'.entry id).escalated = (states.entry id).escalated) :
    Consistent states' log queue where
  permitted := h.permitted
  progress := fun id => by
    rw [(heq id).1]
    exact h.progress id
  current := fun id => by
    rw [(heq id).1, (heq id).2.1]
    exact h.current id
  refused := fun id => by
    rw [(heq id).1, (heq id).2.2.1]
    exact h.refused id
  escalated := fun id => by
    rw [(heq id).2.2.2]
    exact h.escalated id
  nodup := h.nodup
  running := fun id hid => by
    rw [(heq id).1]
    exact h.running id hid

def Event.Quiet : Event → Prop
  | .engineStarted .. | .refusalRecorded _ | .signedIn => True
  | _ => False

section

variable (h : Consistent states log queue)
include h

theorem Consistent.quiet {e : Event} (hquiet : e.Quiet)
    (hpermitted : Permitted log e) : Consistent states (log ++ [e]) queue := by
  have hstarts : ∀ id, ¬ Event.Starts id e := by
    intro id h
    cases e <;> first | exact h | exact hquiet
  have hfinishes : ∀ id, ¬ Event.Finishes id e := by
    intro id h
    cases e <;> first | exact h | exact hquiet
  have hmanual : ∀ id, ¬ Event.StartsManually id e := by
    intro id h
    cases e <;> first | exact h | exact hquiet
  have hfinished : ∀ id outcome, e ≠ .finished id outcome := by
    rintro id outcome rfl
    exact hquiet
  have hescalated : ∀ id, e ≠ .escalated id := by
    rintro id rfl
    exact hquiet
  constructor
  · exact forall_append_cons_concat h.permitted hpermitted
  · intro id
    rw [since_concat_iff (hstarts id) (hfinishes id)]
    exact h.progress id
  · intro id hrunning
    obtain ⟨trigger, requestedAt, hrequest, hsince⟩ := h.current id hrunning
    exact ⟨trigger, requestedAt, hrequest, since_concat.2 (.inr ⟨hsince, hfinishes id⟩)⟩
  · intro id hsince
    exact h.refused id ((since_concat.1 hsince).resolve_left (hfinished id _)).1
  · intro id hsince
    exact h.escalated id ((since_concat.1 hsince).resolve_left (hescalated id)).1
  · exact h.nodup
  · exact h.running

theorem Consistent.start {state : TargetState}
    (hfree : (states.entry id).running = true → (states.entry id).lastRun = none)
    (hmanual : (states.entry id).refused = true → trigger = .manual)
    (hrunning : state.running = true) (hescalated : state.escalated = (states.entry id).escalated)
    (hrequest : state.request = some (trigger, now)) :
    Consistent (Function.update states id (some state)) (log ++ [.started id trigger now])
      (queue ++ [id]) := by
  have hidle : (states.entry id).running ≠ true := by
    intro hrun
    obtain ⟨trigger', requestedAt, hrequest', -⟩ := h.current id hrun
    rw [TargetState.request, hfree hrun] at hrequest'
    cases hrequest'
  have hnew : id ∉ queue := fun hid => hidle (h.running id hid)
  constructor
  · refine forall_append_cons_concat h.permitted ⟨?_, ?_⟩
    · rw [h.progress id]
      exact hidle
    · exact fun hsince => hmanual (h.refused id hsince).1
  · intro other
    rw [since_concat]
    by_cases heq : other = id
    · rw [heq, entry_update_self]
      exact ⟨fun _ => hrunning, fun _ => .inl rfl⟩
    · rw [entry_update_of_ne heq, ← h.progress other]
      constructor
      · rintro (hstarts | ⟨hsince, -⟩)
        · exact absurd hstarts.symm heq
        · exact hsince
      · exact fun hsince => .inr ⟨hsince, fun hfinishes => hfinishes⟩
  · intro other hrun
    by_cases heq : other = id
    · rw [heq, entry_update_self]
      exact ⟨trigger, now, hrequest, since_concat.2 (.inl rfl)⟩
    · rw [entry_update_of_ne heq] at hrun ⊢
      obtain ⟨trigger', requestedAt, hrequest', hsince⟩ := h.current other hrun
      exact ⟨trigger', requestedAt, hrequest',
        since_concat.2 (.inr ⟨hsince, fun hfinishes => hfinishes⟩)⟩
  · intro other hsince
    obtain ⟨hsince, hnot⟩ := (since_concat_of_not (by simp)).1 hsince
    obtain ⟨hrefused, hrun⟩ := h.refused other hsince
    by_cases heq : other = id
    · rw [heq] at hrefused hnot
      exact absurd ⟨rfl, hmanual hrefused⟩ hnot
    · rw [entry_update_of_ne heq]
      exact ⟨hrefused, hrun⟩
  · intro other hsince
    have hold := h.escalated other ((since_concat_iff (by simp) (by simp)).1 hsince)
    by_cases heq : other = id
    · rw [heq, entry_update_self, hescalated, ← heq]
      exact hold
    · rw [entry_update_of_ne heq]
      exact hold
  · rw [nodup_append]
    refine ⟨h.nodup, nodup_singleton _, ?_⟩
    rintro x hx y hy rfl
    exact hnew (mem_singleton.1 hy ▸ hx)
  · intro other hmem
    rcases mem_append.1 hmem with hother | hother
    · have hne : other ≠ id := by
        rintro rfl
        exact hnew hother
      rw [entry_update_of_ne hne]
      exact h.running other hother
    · rw [mem_singleton.1 hother, entry_update_self]
      exact hrunning

theorem Consistent.claimAll (trigger : ReauthTrigger) (now : ℕ) (ids : List ReauthTargetId) :
    Consistent (claimAll states trigger now ids).1
      (log ++ (claimAll states trigger now ids).2.2.map fun id => .started id trigger now)
      (queue ++ (claimAll states trigger now ids).2.2) := by
  induction ids generalizing states log queue with
  | nil => simpa [Reauth.claimAll] using h
  | cons id ids ih =>
    have hcases := claim_cases states id trigger now
    unfold Reauth.claimAll
    generalize hclaim : claim states id trigger now = decided at hcases
    obtain ⟨after, decision⟩ := decided
    rcases hcases with ⟨hsame, hnot⟩ |
      ⟨run, state, heq, hfree, hmanual, hrunning, -, hescalated, hrequest⟩
    · have hafter : Consistent after log queue := by
        apply h.congr
        intro id
        rw [show after.entry = states.entry from hsame]
        exact ⟨rfl, rfl, rfl, rfl⟩
      cases decision with
      | started run => exact absurd rfl (hnot run)
      | joined run | blocked run => exact ih hafter
    · cases heq
      have hstart := ih (h.start hfree hmanual hrunning hescalated hrequest)
      rw [append_assoc, append_assoc] at hstart
      exact hstart

end

theorem claimAll_running {request : ReauthTrigger × ℕ} (hrun : (states.entry id).running = true)
    (hrequest : (states.entry id).request = some request) (ids : List ReauthTargetId) :
    ((claimAll states trigger now ids).1.entry id).request = some request := by
  induction ids generalizing states with
  | nil => exact hrequest
  | cons other ids ih =>
    have hcases := claim_cases states other trigger now
    unfold Reauth.claimAll
    generalize hclaim : claim states other trigger now = decided at hcases
    obtain ⟨after, decision⟩ := decided
    rcases hcases with ⟨hsame, hnot⟩ | ⟨run, state, heq, hfree, -⟩
    · have hentry : after.entry = states.entry := hsame
      have hrest : ((Reauth.claimAll after trigger now ids).1.entry id).request = some request :=
        ih (by rw [hentry]; exact hrun) (by rw [hentry]; exact hrequest)
      cases decision <;> exact hrest
    · cases heq
      have hne : id ≠ other := by
        rintro rfl
        rw [TargetState.request, hfree hrun] at hrequest
        cases hrequest
      exact ih (by rw [entry_update_of_ne hne]; exact hrun)
        (by rw [entry_update_of_ne hne]; exact hrequest)

theorem Consistent.finish (h : Consistent states log (id :: queue)) (outcome : ReauthRunOutcome)
    (message : Option String) (now interval : ℕ) :
    Consistent (finish states id outcome message now interval).1 (log ++ .finished id outcome ::
        if (finish states id outcome message now interval).2 then [.escalated id] else [])
      queue := by
  obtain ⟨state, escalate, heq, hrunning, hrequest, hrefused, hescalated, hescalate⟩ :=
    finish_cases states id outcome message now interval
  rw [heq]
  obtain ⟨hnew, hnodup⟩ := nodup_cons.1 h.nodup
  have hprogress : (states.entry id).running = true := h.running id mem_cons_self
  have hnotrefused : ¬ Since (· = .finished id .refused) (Event.StartsManually id) log := by
    intro hsince
    rw [(h.refused id hsince).2] at hprogress
    cases hprogress
  have hfinished : Consistent (Function.update states id (some state))
      (log ++ [.finished id outcome]) queue := by
    constructor
    · exact forall_append_cons_concat h.permitted trivial
    · intro other
      rw [since_concat_of_not (fun hstarts => hstarts)]
      by_cases hother : other = id
      · rw [hother, entry_update_self, hrunning]
        exact ⟨fun hsince => absurd rfl hsince.2, nofun⟩
      · rw [entry_update_of_ne hother, ← h.progress other]
        exact ⟨And.left, fun hsince => ⟨hsince, fun hid => hother hid.symm⟩⟩
    · intro other hrun
      by_cases hother : other = id
      · rw [hother, entry_update_self, hrunning] at hrun
        cases hrun
      · rw [entry_update_of_ne hother] at hrun ⊢
        obtain ⟨trigger, requestedAt, hrequest, hsince⟩ := h.current other hrun
        exact ⟨trigger, requestedAt, hrequest,
          since_concat.2 (.inr ⟨hsince, fun hid => hother hid.symm⟩)⟩
    · intro other hsince
      rcases since_concat.1 hsince with hlast | ⟨hsince, -⟩
      · obtain ⟨rfl, rfl⟩ := Event.finished.inj hlast
        rw [entry_update_self]
        exact ⟨hrefused (by decide) (.inl rfl), hrunning⟩
      · by_cases hother : other = id
        · exact absurd (hother ▸ hsince) hnotrefused
        · rw [entry_update_of_ne hother]
          exact h.refused other hsince
    · intro other hsince
      obtain ⟨hsince, hnot⟩ := (since_concat_of_not (by simp)).1 hsince
      by_cases hother : other = id
      · rw [hother, entry_update_self]
        rw [hother] at hsince hnot
        refine hescalated (fun hsucceeded => hnot (by rw [hsucceeded])) (h.escalated id hsince)
      · rw [entry_update_of_ne hother]
        exact h.escalated other hsince
    · exact hnodup
    · intro other hother
      have hne : other ≠ id := by
        rintro rfl
        exact hnew hother
      rw [entry_update_of_ne hne]
      exact h.running other (mem_cons_of_mem _ hother)
  cases hflag : escalate with
  | false => exact hfinished
  | true =>
    obtain ⟨hfailed, hfirst, hnow⟩ := hescalate hflag
    rw [if_pos rfl, ← singleton_append (l := [Event.escalated id]), ← append_assoc]
    constructor
    · refine forall_append_cons_concat hfinished.permitted ?_
      intro hsince
      obtain ⟨hsince, -⟩ := (since_concat_of_not (by simp)).1 hsince
      rw [h.escalated id hsince] at hfirst
      cases hfirst
    · intro other
      rw [since_concat_iff (fun hstarts => hstarts) (fun hfinishes => hfinishes)]
      exact hfinished.progress other
    · intro other hrun
      obtain ⟨trigger, requestedAt, hrequest, hsince⟩ := hfinished.current other hrun
      exact ⟨trigger, requestedAt, hrequest,
        (since_concat_iff (by simp) (fun hfinishes => hfinishes)).2 hsince⟩
    · intro other
      rw [since_concat_iff (by simp) (fun hstarts => hstarts)]
      exact hfinished.refused other
    · intro other hsince
      rcases since_concat.1 hsince with hlast | ⟨hsince, -⟩
      · rw [Event.escalated.inj hlast, entry_update_self]
        exact hnow
      · exact hfinished.escalated other hsince
    · exact hfinished.nodup
    · exact hfinished.running

end Registry

/-! ## The shared sign-in and the tasks -/

/-- The refusal that is kept is the last one. -/
structure Latched (refusal : Option EntraRefusal) (now : ℕ) (log : List Event) : Prop where
  kept : ∀ at', Since (· = .refusalRecorded at') (· = .signedIn) log →
    ∃ r, refusal = some r ∧ at' ≤ r.at'
  past : ∀ r, refusal = some r → r.at' ≤ now

variable {refusal : Option EntraRefusal} {now : ℕ} {log : List Event} {now' requestedAt : ℕ}

theorem Latched.concat
    {e : Event} (h : Latched refusal now log) (he : ∀ at', e ≠ .refusalRecorded at')
    (hnow : now ≤ now') : Latched refusal now' (log ++ [e]) where
  kept := fun at' hsince => h.kept at' ((since_concat.1 hsince).resolve_left (he at')).1
  past := fun r hr => (h.past r hr).trans hnow

theorem Latched.append {events : List Event}
    (h : Latched refusal now log) (he : ∀ e ∈ events, ∀ at', e ≠ .refusalRecorded at')
    (hnow : now ≤ now') : Latched refusal now' (log ++ events) := by
  induction events generalizing log with
  | nil =>
    rw [append_nil]
    exact ⟨h.kept, fun r hr => (h.past r hr).trans hnow⟩
  | cons e events ih =>
    have hfirst := h.concat (he e mem_cons_self) le_rfl
    have hrest := ih hfirst fun e' he' => he e' (mem_cons_of_mem _ he')
    rw [append_assoc] at hrest
    exact hrest

/-- A run that asks for the sign-in after a refusal is the operator's, and is newer. -/
theorem Latched.of_gate {trigger : ReauthTrigger} (h : Latched refusal now log)
    (hgate : entraGate trigger refusal requestedAt = none) :
    ∀ at', Since (· = .refusalRecorded at') (· = .signedIn) log →
      trigger = .manual ∧ at' < requestedAt := by
  intro at' hsince
  obtain ⟨r, rfl, hle⟩ := h.kept at' hsince
  unfold entraGate at hgate
  dsimp only at hgate
  split_ifs at hgate with hreset
  obtain ⟨hmanual, hlt⟩ := of_decide_eq_true hreset
  exact ⟨hmanual, hle.trans_lt hlt⟩

/-- What a task knows of the run that it executes. -/
def Task.Fits (states : Registry) (task : Task) : Prop :=
  match task.phase with
  | .waiting trigger requestedAt => ∃ id ids, task.queue = id :: ids ∧
      (states.entry id).request = some (trigger, requestedAt)
  | _ => True

variable {task : Task} {tasks : List Task}

theorem Task.Fits.congr {states states' : Registry} (h : task.Fits states)
    (heq : ∀ id ∈ task.queue, (states'.entry id).request = (states.entry id).request) :
    task.Fits states' := by
  obtain ⟨queue, phase⟩ := task
  cases phase with
  | waiting trigger requestedAt =>
    obtain ⟨id, ids, rfl, hrequest⟩ := h
    exact ⟨id, ids, rfl, (heq id mem_cons_self).trans hrequest⟩
  | idle => trivial
  | engine => trivial
  | verifying note => trivial
  | finishing outcome message => trivial

open Reauth.Task

theorem queued_set_perm {i : ℕ} {task' : Task} (h : tasks[i]? = some task) :
    ((tasks.set i task').flatMap queue).Perm
      (task'.queue ++ (tasks.eraseIdx i).flatMap queue) := by
  have hperm := (set_perm_of_getElem? h task').flatMap_right queue
  rwa [flatMap_cons] at hperm

theorem queued_perm {i : ℕ} (h : tasks[i]? = some task) :
    (tasks.flatMap queue).Perm (task.queue ++ (tasks.eraseIdx i).flatMap queue) := by
  have hperm := (perm_of_getElem? h).flatMap_right queue
  rwa [flatMap_cons] at hperm

/-! ## The invariant -/

structure Inv (s : State) : Prop where
  consistent : Consistent s.states s.log s.queued
  latched : Latched s.entraRefusal s.now s.log
  fits : ∀ task ∈ s.tasks, task.Fits s.states

section Steps

variable {refusalIn : String → Option String} {s s' : State} {i : ℕ} {id : ReauthTargetId}
  {ids : List ReauthTargetId} {phase : Phase}

theorem Inv.initial (h : s.Initial) : Inv s := by
  obtain ⟨hstates, hrefusal, -, htasks, -, hlog⟩ := h
  have hentry : ∀ id, s.states.entry id = {} := by
    intro id
    simp [Registry.entry, hstates]
  have hnever : ∀ p q : Event → Prop, ¬ Since p q s.log := by
    intro p q
    rw [hlog]
    exact not_since_nil
  refine ⟨⟨?_, ?_, ?_, ?_, ?_, ?_, ?_⟩, ⟨?_, ?_⟩, ?_⟩
  · rw [hlog]
    intro before e after heq
    exact absurd heq (by simp)
  · intro id
    rw [hentry]
    exact ⟨fun hsince => absurd hsince (hnever _ _), (by rintro ⟨⟩)⟩
  · intro id hrun
    rw [hentry] at hrun
    cases hrun
  iterate 2 exact fun id hsince => absurd hsince (hnever _ _)
  iterate 2 simp [State.queued, htasks]
  · exact fun at' hsince => absurd hsince (hnever _ _)
  · rw [hrefusal]
    exact fun _ h => by cases h
  · simp [htasks]

theorem queued_setTask (h : s.tasks[i]? = some ⟨ids, phase⟩) (phase' : Phase) :
    ((s.setTask i ⟨ids, phase'⟩).queued).Perm s.queued :=
  (queued_set_perm h).trans (queued_perm h).symm

theorem fits_set {states : Registry} {new : Task}
    (h : ∀ task ∈ tasks, task.Fits states) (hnew : new.Fits states) :
    ∀ task ∈ tasks.set i new, task.Fits states := by
  intro task htask
  rcases mem_set_of_mem htask with rfl | htask
  · exact hnew
  · exact h task htask

variable {now : ℕ} {action : Action}

section

variable (h : Inv s)

include h

theorem Inv.spawn (trigger : ReauthTrigger) (ids : List ReauthTargetId)
    (hnow : s.now ≤ now) : Inv (s.spawn trigger ids now) := by
  have hclaims := h.consistent.claimAll trigger now ids
  have hsame : ∀ id ∈ s.queued, ((claimAll s.states trigger now ids).1.entry id).request =
      (s.states.entry id).request := by
    intro id hid
    have hrun := h.consistent.running id hid
    obtain ⟨trigger', requestedAt, hrequest, -⟩ := h.consistent.current id hrun
    rw [hrequest]
    exact claimAll_running hrun hrequest ids
  unfold State.spawn
  generalize hclaimed : claimAll s.states trigger now ids = claimed at hclaims hsame
  obtain ⟨states, reports, owned⟩ := claimed
  have hqueue : (if owned = [] then s.tasks else s.tasks ++ [⟨owned, .idle⟩]).flatMap queue =
      s.queued ++ owned := by
    split
    · rename_i hnil
      rw [hnil, append_nil]
      rfl
    · rw [flatMap_append]
      simp [State.queued]
  refine ⟨?_, ?_, ?_⟩
  · show Consistent states _ (flatMap _ _)
    rw [hqueue]
    exact hclaims
  · refine h.latched.append ?_ hnow
    intro e he at'
    obtain ⟨id, -, rfl⟩ := mem_map.1 he
    exact nofun
  · have hold : ∀ task ∈ s.tasks, task.Fits states := by
      intro task htask
      apply (h.fits task htask).congr
      exact fun id hid => hsame id (mem_flatMap.2 ⟨task, htask, hid⟩)
    intro task htask
    dsimp only at htask
    split at htask
    · exact hold task htask
    · rcases mem_append.1 htask with htask | htask
      · exact hold task htask
      · rw [mem_singleton.1 htask]
        trivial

theorem Inv.startEngine {trigger : ReauthTrigger}
    (htask : s.tasks[i]? = some ⟨id :: ids, .waiting trigger requestedAt⟩)
    (hgate : usesEntra id = true → entraGate trigger s.entraRefusal requestedAt = none)
    (entraRun : Option ℕ) :
    Inv { s.setTask i ⟨id :: ids, .engine⟩ with
      entraRun := entraRun
      log := s.log ++ [.engineStarted id trigger requestedAt] } := by
  have hmem : id ∈ s.queued := mem_flatMap.2 ⟨_, mem_of_getElem? htask, mem_cons_self⟩
  obtain ⟨trigger', requestedAt', hrequest, hsince⟩ :=
    h.consistent.current id (h.consistent.running id hmem)
  obtain ⟨id', ids', hqueue, hread⟩ := h.fits _ (mem_of_getElem? htask)
  obtain ⟨rfl, rfl⟩ := cons.inj hqueue
  rw [hrequest] at hread
  obtain ⟨rfl, rfl⟩ := Prod.mk.inj (some.inj hread)
  have hpermitted : Permitted s.log (.engineStarted id trigger' requestedAt') :=
    ⟨hsince, fun hentra => h.latched.of_gate (hgate hentra)⟩
  have hconsistent := h.consistent.quiet (e := .engineStarted id trigger' requestedAt') trivial
    hpermitted
  exact ⟨hconsistent.perm (queued_setTask htask .engine).symm, h.latched.concat nofun le_rfl,
    fits_set h.fits trivial⟩

theorem Inv.setTask (htask : s.tasks[i]? = some ⟨ids, phase⟩) (phase' : Phase)
    (hfits : Task.Fits s.states ⟨ids, phase'⟩) : Inv (s.setTask i ⟨ids, phase'⟩) :=
  ⟨h.consistent.perm (queued_setTask htask phase').symm, h.latched, fits_set h.fits hfits⟩

theorem Inv.later (hnow : s.now ≤ now) (entraRun : Option ℕ)
    (found : List (ReauthTrigger × List ReauthTargetId)) :
    Inv { s with now := now, entraRun := entraRun, found := found } :=
  ⟨h.consistent, ⟨h.latched.kept, fun r hr => (h.latched.past r hr).trans hnow⟩, h.fits⟩

theorem Inv.record (hnow : s.now ≤ now) (reason : String) :
    Inv { s with
      entraRefusal := some ⟨reason, now⟩
      now := now
      log := s.log ++ [.refusalRecorded now] } where
  consistent := h.consistent.quiet trivial trivial
  latched := by
    constructor
    · intro at' hsince
      refine ⟨_, rfl, ?_⟩
      rcases since_concat.1 hsince with heq | ⟨hsince, -⟩
      · exact (Event.refusalRecorded.inj heq).ge
      · obtain ⟨r, hr, hle⟩ := h.latched.kept at' hsince
        exact (hle.trans (h.latched.past r hr)).trans hnow
    · intro r hr
      rw [← some.inj hr]
  fits := h.fits

theorem Inv.signIn (now : ℕ) :
    Inv { s with entraRefusal := none, now := now, log := s.log ++ [.signedIn] } where
  consistent := h.consistent.quiet trivial trivial
  latched := by
    constructor
    · exact fun at' hsince => absurd hsince (not_since_concat nofun rfl)
    · exact nofun
  fits := h.fits

theorem Inv.engineEnds (htask : s.tasks[i]? = some ⟨ids, phase⟩)
    (hnow : s.now ≤ now) (id : ReauthTargetId) (result : Except ReauthError (Option String)) :
    Inv (s.engineEnds refusalIn i id ids result now) := by
  have hverifying : ∀ note, Inv (s.setTask i ⟨ids, .verifying note⟩) :=
    fun note => h.setTask htask (.verifying note) trivial
  have hfinishing : ∀ outcome message, Inv (s.setTask i ⟨ids, .finishing outcome message⟩) :=
    fun outcome message => h.setTask htask (.finishing outcome message) trivial
  unfold State.engineEnds
  split <;> dsimp only
  · split
    · exact (hverifying _).signIn now
    · exact (hverifying _).later hnow _ _
  · split
    · split
      · exact (hfinishing _ _).record hnow _
      · exact (hfinishing _ _).later hnow _ _
    · exact (hfinishing _ _).later hnow _ _

theorem Inv.finish {outcome : ReauthRunOutcome} {message : Option String}
    (htask : s.tasks[i]? = some ⟨id :: ids, phase⟩) (hnow : s.now ≤ now)
    (interval : ℕ) (entraRun : Option ℕ) :
    Inv { s.setTask i ⟨ids, .idle⟩ with
      entraRun := entraRun
      states := (finish s.states id outcome message now interval).1
      now := now
      log := s.log ++ .finished id outcome ::
        if (finish s.states id outcome message now interval).2 then [.escalated id] else [] } := by
  have hconsistent := (h.consistent.perm (queued_perm htask)).finish outcome message now interval
  have hqueue : (s.setTask i ⟨ids, .idle⟩).queued.Perm
      (ids ++ (s.tasks.eraseIdx i).flatMap queue) := queued_set_perm htask
  refine ⟨hconsistent.perm hqueue.symm, ?_, ?_⟩
  · refine h.latched.append ?_ hnow
    intro e he at'
    rcases mem_cons.1 he with rfl | he
    · exact nofun
    · split at he
      · rw [mem_singleton.1 he]
        exact nofun
      · cases he
  · obtain ⟨state, escalate, heq, -, hrequest, -⟩ :=
      finish_cases s.states id outcome message now interval
    intro task htask'
    rw [heq]
    have hsame : ∀ other,
        (Registry.entry (Function.update s.states id (some state)) other).request =
          (s.states.entry other).request := by
      intro other
      by_cases hother : other = id
      · rw [hother, entry_update_self, hrequest]
      · rw [entry_update_of_ne hother]
    rcases mem_set_of_mem htask' with rfl | htask'
    · trivial
    · exact (h.fits task htask').congr fun other _ => hsame other

theorem Inv.panics (htask : s.tasks[i]? = some ⟨ids, phase⟩)
    (entraRun : Option ℕ) : Inv { s.setTask i ⟨[], .idle⟩ with entraRun := entraRun } := by
  have hold := h.consistent.perm (queued_perm htask)
  have hsub : (s.tasks.eraseIdx i).flatMap queue ⊆
      ids ++ (s.tasks.eraseIdx i).flatMap queue := subset_append_right _ _
  have hdropped : Consistent s.states s.log ((s.tasks.eraseIdx i).flatMap queue) :=
    { hold with
      nodup := (nodup_append.1 hold.nodup).2.1
      running := fun id hid => hold.running id (hsub hid) }
  have hqueue : (s.setTask i ⟨[], .idle⟩).queued.Perm
      ([] ++ (s.tasks.eraseIdx i).flatMap queue) := queued_set_perm htask
  exact ⟨hdropped.perm hqueue.symm, h.latched, fits_set h.fits trivial⟩

end

theorem Inv.step (h : Inv s) (hstep : s.step refusalIn action = some s') : Inv s' := by
  cases action with dsimp only [State.step] at hstep
  | start id trigger now =>
    split_ifs at hstep with hnow
    cases hstep
    exact h.spawn trigger [id] hnow
  | discover trigger expired began now =>
    split_ifs at hstep with hnow
    cases hstep
    exact h.later hnow.2 s.entraRun _
  | startExpired k now =>
    split at hstep
    · split_ifs at hstep with hnow
      cases hstep
      exact (h.spawn _ _ hnow).later le_rfl s.entraRun _
    · cases hstep
  | begin i now =>
    split at hstep
    · rename_i id ids htask
      split_ifs at hstep with hnow
      cases hstep
      have hmem : id ∈ s.queued := mem_flatMap.2 ⟨_, mem_of_getElem? htask, mem_cons_self⟩
      obtain ⟨trigger, requestedAt, hrequest, -⟩ :=
        h.consistent.current id (h.consistent.running id hmem)
      rw [hrequest]
      exact (h.setTask htask (.waiting _ _) ⟨id, ids, rfl, hrequest⟩).later hnow s.entraRun s.found
    · cases hstep
  | gate i =>
    split at hstep
    · rename_i htask
      split_ifs at hstep with hentra
      · split at hstep <;> cases hstep
        · exact (h.setTask htask (.finishing _ _) trivial).later le_rfl (some i) s.found
        · rename_i hgate
          exact h.startEngine htask (fun _ => hgate) (some i)
      · cases hstep
        exact h.startEngine htask (fun hyes => absurd hyes hentra) s.entraRun
    · cases hstep
  | say i line =>
    split at hstep <;> cases hstep
    rename_i id ids phase htask
    refine ⟨h.consistent.congr fun other => appendTranscript_spec s.states id other line,
      h.latched, ?_⟩
    intro task hmem
    apply (h.fits task hmem).congr
    exact fun other _ => (appendTranscript_spec s.states id other line).2.1
  | engineEnds i result now =>
    split at hstep
    · rename_i htask
      split_ifs at hstep with hnow
      cases hstep
      exact h.engineEnds htask hnow _ result
    · cases hstep
  | timesOut i now =>
    split at hstep
    · rename_i htask
      split_ifs at hstep with hnow
      cases hstep
      exact (h.setTask htask (.finishing _ _) trivial).later hnow s.entraRun s.found
    · cases hstep
  | verified i result =>
    split at hstep
    · rename_i htask
      split at hstep
      all_goals
        cases hstep
        exact h.setTask htask (.finishing _ _) trivial
    · cases hstep
  | finish i now interval =>
    split at hstep
    · rename_i htask
      split at hstep <;> cases hstep
      exact h.finish htask ‹_› interval _
    · cases hstep
  | panics i =>
    split at hstep <;> cases hstep
    all_goals exact h.panics ‹_› _

/-! ## No target is left behind -/

theorem settled_iff (h : Inv s) : Settled s ↔ ∀ id, s.Running id → id ∈ s.queued := by
  constructor
  · exact fun hsettled id hrun => hsettled id (.inl hrun)
  · rintro hsettled id (hrun | hsince)
    · exact hsettled id hrun
    · exact hsettled id ((h.consistent.progress id).1 hsince)

def AllQueued (s : State) : Prop :=
  ∀ id, Since (Event.Starts id) (Event.Finishes id) s.log → id ∈ s.queued

theorem Inv.settled (h : Inv s) (hall : AllQueued s) : Settled s :=
  (settled_iff h).2 fun id hrun => hall id ((h.consistent.progress id).2 hrun)

theorem since_append_started {log : List Event} {trigger : ReauthTrigger}
    {owned : List ReauthTargetId} (h : Since (Event.Starts id) (Event.Finishes id)
      (log ++ owned.map fun id => .started id trigger now)) :
    id ∈ owned ∨ Since (Event.Starts id) (Event.Finishes id) log := by
  induction owned using reverseRecOn with
  | nil => exact .inr (by simpa using h)
  | append_singleton owned other ih =>
    rw [map_append, ← append_assoc] at h
    rcases since_concat.1 h with hstarts | ⟨hsince, -⟩
    · exact .inl (mem_append_right _ (mem_singleton.2 (hstarts : other = id).symm))
    · exact (ih hsince).imp_left fun hid => mem_append_left _ hid

section

variable (h : AllQueued s)
include h

theorem AllQueued.spawn (trigger : ReauthTrigger) (ids : List ReauthTargetId)
    (now : ℕ) : AllQueued (s.spawn trigger ids now) := by
  intro id hsince
  have hqueue : (s.spawn trigger ids now).queued =
      s.queued ++ (claimAll s.states trigger now ids).2.2 := by
    unfold State.spawn State.queued
    dsimp only
    split
    · rename_i hnil
      rw [hnil, append_nil]
    · rw [flatMap_append]
      simp
  rw [hqueue]
  rcases since_append_started hsince with howned | hsince
  · exact mem_append_right _ howned
  · exact mem_append_left _ (h id hsince)

theorem AllQueued.moves (htask : s.tasks[i]? = some ⟨ids, phase⟩)
    {phase' : Phase} (htasks : s'.tasks = s.tasks.set i ⟨ids, phase'⟩)
    (hlog : s'.log = s.log ∨ ∃ e : Event, e.Quiet ∧ s'.log = s.log ++ [e]) : AllQueued s' := by
  have hqueue : s'.queued.Perm s.queued := by
    unfold State.queued
    rw [htasks]
    exact queued_setTask htask phase'
  intro id hsince
  rw [hqueue.mem_iff]
  apply h id
  rcases hlog with hlog | ⟨e, hquiet, hlog⟩
  · rwa [hlog] at hsince
  · rw [hlog] at hsince
    refine ((since_concat.1 hsince).resolve_left ?_).1
    intro hstarts
    cases e <;> first | exact hstarts | exact hquiet

theorem AllQueued.engineEnds (htask : s.tasks[i]? = some ⟨ids, phase⟩)
    (now : ℕ) (id : ReauthTargetId) (result : Except ReauthError (Option String)) :
    AllQueued (s.engineEnds refusalIn i id ids result now) := by
  unfold State.engineEnds
  split <;> dsimp only
  · split
    · exact h.moves htask rfl (.inr ⟨.signedIn, trivial, rfl⟩)
    · exact h.moves htask rfl (.inl rfl)
  · split
    · split
      · exact h.moves htask rfl (.inr ⟨.refusalRecorded now, trivial, rfl⟩)
      · exact h.moves htask rfl (.inl rfl)
    · exact h.moves htask rfl (.inl rfl)

theorem AllQueued.finish (htask : s.tasks[i]? = some ⟨id :: ids, phase⟩)
    {outcome : ReauthRunOutcome} {escalate : Bool} (htasks : s'.tasks = s.tasks.set i ⟨ids, .idle⟩)
    (hlog : s'.log = s.log ++ .finished id outcome :: if escalate then [.escalated id] else []) :
    AllQueued s' := by
  have hqueue : s'.queued.Perm (ids ++ (s.tasks.eraseIdx i).flatMap queue) := by
    unfold State.queued
    rw [htasks]
    exact queued_set_perm htask
  intro other hsince
  rw [hlog] at hsince
  have hfinished : Since (Event.Starts other) (Event.Finishes other)
      (s.log ++ [.finished id outcome]) := by
    cases escalate with
    | false => exact hsince
    | true =>
      rw [if_pos rfl, ← singleton_append (l := [Event.escalated id]), ← append_assoc] at hsince
      exact ((since_concat.1 hsince).resolve_left fun hstarts => hstarts).1
  obtain ⟨hsince, hnot⟩ := (since_concat.1 hfinished).resolve_left fun hstarts => hstarts
  have hmem := (queued_perm htask).mem_iff.1 (h other hsince)
  rcases mem_cons.1 hmem with rfl | hmem
  · exact absurd rfl hnot
  · exact hqueue.mem_iff.2 hmem

theorem AllQueued.step (hreturns : s.Returns action)
    (hstep : s.step refusalIn action = some s') : AllQueued s' := by
  cases action with dsimp only [State.step] at hstep
  | start id trigger now =>
    split_ifs at hstep
    cases hstep
    exact h.spawn trigger [id] now
  | startExpired k now =>
    split at hstep
    · split_ifs at hstep
      cases hstep
      exact h.spawn _ _ now
    · cases hstep
  | begin i now | timesOut i now =>
    split at hstep
    · rename_i htask
      split_ifs at hstep
      cases hstep
      exact h.moves htask rfl (.inl rfl)
    · cases hstep
  | gate i =>
    split at hstep
    · rename_i htask
      split_ifs at hstep
      · split at hstep <;> cases hstep
        · exact h.moves htask rfl (.inl rfl)
        · exact h.moves htask rfl (.inr ⟨.engineStarted _ _ _, trivial, rfl⟩)
      · cases hstep
        exact h.moves htask rfl (.inr ⟨.engineStarted _ _ _, trivial, rfl⟩)
    · cases hstep
  | discover trigger expired began now | say i line =>
    split at hstep <;> cases hstep
    exact h
  | engineEnds i result now =>
    split at hstep
    · rename_i htask
      split_ifs at hstep
      cases hstep
      exact h.engineEnds htask now _ result
    · cases hstep
  | verified i result =>
    split at hstep
    · rename_i htask
      split at hstep
      all_goals
        cases hstep
        exact h.moves htask rfl (.inl rfl)
    · cases hstep
  | finish i now interval =>
    split at hstep
    · rename_i htask
      split at hstep <;> cases hstep
      exact h.finish htask rfl rfl
    · cases hstep
  | panics i => exact hreturns.elim

end

/-- After a panic the target of the task is running, and no task will end its run. -/
theorem Inv.not_settled_of_panics (h : Inv s) (hstep : s.step refusalIn (.panics i) = some s') :
    ¬ Settled s' := by
  have hleft : ∀ {id ids phase}, s.tasks[i]? = some ⟨id :: ids, phase⟩ →
      ¬ Settled ((s.setTask i ⟨[], .idle⟩).release i) := by
    intro id ids phase htask hsettled
    have hmem : id ∈ s.queued := mem_flatMap.2 ⟨_, mem_of_getElem? htask, mem_cons_self⟩
    have hqueued := hsettled id (.inl (h.consistent.running id hmem))
    have hrest := (queued_set_perm htask).mem_iff.1 hqueued
    have hnodup := (queued_perm htask).nodup_iff.1 h.consistent.nodup
    exact (nodup_cons.1 hnodup).1 (mem_append_right _ hrest)
  dsimp only [State.step] at hstep
  split at hstep <;> cases hstep
  all_goals exact hleft ‹_›

end Steps

/-! ## Main results -/

section

variable {refusalIn : String → Option String} {s : State}

/-- As long as no engine and no verification panics, a target has one run at a
    time, a refusal is retried by the operator only, an escalation comes once between two
    successes, and no target is left running. A panic leaves one. -/
theorem reauth_runs (h : Reachable (State.step refusalIn) State.Returns State.Initial s) :
    (∀ before e after, s.log = before ++ e :: after → Permitted before e) ∧ Settled s ∧
      ∀ i s', s.step refusalIn (.panics i) = some s' → ¬ Settled s' := by
  have hinv : Inv s ∧ AllQueued s := by
    apply h.invariant (P := fun s => Inv s ∧ AllQueued s)
    · intro s hinitial
      refine ⟨Inv.initial hinitial, ?_⟩
      intro id hsince
      rw [hinitial.2.2.2.2.2] at hsince
      exact absurd hsince not_since_nil
    · exact fun s action s' ⟨hinv, hall⟩ hreturns hstep =>
        ⟨hinv.step hstep, hall.step hreturns hstep⟩
  exact ⟨hinv.1.consistent.permitted, hinv.1.settled hinv.2,
    fun i s' hstep => hinv.1.not_settled_of_panics hstep⟩

end

/-! ## Two runs -/

def exampleStart : State := ⟨fun _ => none, none, none, [], [], 0, []⟩

def exampleTarget : ReauthTargetId := .sgsc "dp"

/-- A sign-in is refused, and tried again by the operator. -/
def exampleActions : List Action :=
  [.start exampleTarget .agent 1, .begin 0 1, .gate 0,
    .engineEnds 0 (.error (.entra (.refused "wrong password"))) 2, .finish 0 3 minInterval,
    .start exampleTarget .agent 4, .start exampleTarget .manual 5, .begin 1 5, .gate 1,
    .engineEnds 1 (.ok none) 6, .verified 1 (.ok ()), .finish 1 7 minInterval]

theorem reauth_runs_example : ∃ s : State,
    s.log = [.started exampleTarget .agent 1, .engineStarted exampleTarget .agent 1,
        .refusalRecorded 2, .finished exampleTarget .refused, .escalated exampleTarget,
        .started exampleTarget .manual 5, .engineStarted exampleTarget .manual 5, .signedIn,
        .finished exampleTarget .succeeded] ∧
      (∀ before e after, s.log = before ++ e :: after → Permitted before e) ∧ Settled s ∧
      ∀ i s', s.step (fun _ => none) (.panics i) = some s' → ¬ Settled s' := by
  have hrun : (exec (State.step fun _ => none) State.Returns exampleStart exampleActions).map
      State.log = some [.started exampleTarget .agent 1, .engineStarted exampleTarget .agent 1,
        .refusalRecorded 2, .finished exampleTarget .refused, .escalated exampleTarget,
        .started exampleTarget .manual 5, .engineStarted exampleTarget .manual 5, .signedIn,
        .finished exampleTarget .succeeded] := by
    decide +kernel
  obtain ⟨s, hexec, hlog⟩ := map_eq_some_iff.1 hrun
  exact ⟨s, hlog, reauth_runs ⟨exampleStart, ⟨fun _ => rfl, rfl, rfl, rfl, rfl, rfl⟩,
    runs_of_exec hexec⟩⟩

/-- An engine panics, and the operator's run joins the one that will never end. -/
theorem target_left_running : ∃ s : State,
    Reachable (State.step fun _ => none) anyStep State.Initial s ∧ s.Running exampleTarget ∧
      s.queued = [] ∧ ¬ Settled s := by
  have hrun : (exec (State.step fun _ => none) anyStep exampleStart
      [.start exampleTarget .agent 1, .begin 0 1, .gate 0, .panics 0,
        .start exampleTarget .manual 2]).map
      (fun s => (decide (s.Running exampleTarget), s.queued)) = some (true, []) := by
    decide +kernel
  obtain ⟨s, hexec, hs⟩ := map_eq_some_iff.1 hrun
  obtain ⟨hrunning, hqueued⟩ := Prod.mk.inj hs
  refine ⟨s, ⟨exampleStart, ⟨fun _ => rfl, rfl, rfl, rfl, rfl, rfl⟩, runs_of_exec hexec⟩,
    of_decide_eq_true hrunning, hqueued, ?_⟩
  intro hsettled
  have hmem := hsettled exampleTarget (.inl (of_decide_eq_true hrunning))
  rw [hqueued] at hmem
  cases hmem

end VibeKanban.Reauth

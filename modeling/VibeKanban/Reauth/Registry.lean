import Mathlib

/-!
# The registry of re-authentication runs (`services/src/services/reauth/mod.rs`)

Each target has the state of its last run.

* `claim_cases`: `claim` starts a run unless one is in progress or the target was refused.
* `finish_cases`: how a run has ended, and whether the operator is paged.
-/

namespace VibeKanban.Reauth

open Function

/-! ## Targets and outcomes -/

inductive CliToolId where
  | aws
  | az
  | op
  | gam
  | mgcBeta
  | acli
  | gws
  | graphPowershell10
  deriving DecidableEq

inductive ReauthTargetId where
  | awsSession (name : String)
  | awsProfile (name : String)
  | cliTool (id : CliToolId)
  | sgsc (backend : String)
  deriving DecidableEq

inductive ReauthRunOutcome where
  | running
  | succeeded
  | failed
  | verificationFailed
  | refused
  deriving DecidableEq

inductive ReauthTrigger where
  | manual
  | agent
  | sweep
  deriving DecidableEq

structure ReauthRun where
  startedAt : ℕ
  finishedAt : Option ℕ
  outcome : ReauthRunOutcome
  trigger : ReauthTrigger
  message : Option String
  transcript : List String
  alreadyRunning : Bool

structure TargetState where
  lastRun : Option ReauthRun := none
  running : Bool := false
  refused : Bool := false
  consecutiveFailures : ℕ := 0
  nextEligible : Option ℕ := none
  escalated : Bool := false

abbrev Registry := ReauthTargetId → Option TargetState

/-! ## Claims -/

inductive Claim where
  | started (run : ReauthRun)
  | joined (run : ReauthRun)
  | blocked (run : ReauthRun)

/-- `states.entry(id).or_default()` -/
def Registry.entry (states : Registry) (id : ReauthTargetId) : TargetState := (states id).getD {}

def newRun (trigger : ReauthTrigger) (now : ℕ) : ReauthRun where
  startedAt := now
  finishedAt := none
  outcome := .running
  trigger := trigger
  message := none
  transcript := []
  alreadyRunning := false

def blockedRun (state : TargetState) (trigger : ReauthTrigger) (now : ℕ) : ReauthRun where
  startedAt := now
  finishedAt := some now
  outcome := .refused
  trigger := trigger
  message :=
    let reason := (state.lastRun.bind ReauthRun.message).getD "refused"
    some ("not retried: an earlier attempt was refused (" ++ reason ++
      "). Fix the credential, then re-run it from Settings.")
  transcript := []
  alreadyRunning := false

/-- `claim` (line 299). -/
def claim (states : Registry) (id : ReauthTargetId) (trigger : ReauthTrigger) (now : ℕ) :
    Registry × Claim :=
  let state := states.entry id
  match state.running, state.lastRun with
  | true, some run => (update states id (some state), .joined { run with alreadyRunning := true })
  | _, _ =>
    if state.refused ∧ trigger ≠ .manual then
      (update states id (some state), .blocked (blockedRun state trigger now))
    else
      -- a manual run resets the refusal
      (update states id (some { state with
        refused := false
        running := true
        lastRun := some (newRun trigger now) }), .started (newRun trigger now))

/-! ## The sweep (`sweep.rs`) -/

def minInterval : ℕ := 300

/-- Times are in seconds. -/
def maxBackoff : ℕ := 6 * 60 * 60

def escalateAfter : ℕ := 3

/-- `next_eligible` (line 39). -/
def nextEligible (now failures interval : ℕ) : ℕ :=
  now + min (interval * 2 ^ min (failures - 1) 16) maxBackoff

/-- `should_escalate` (line 50). -/
def shouldEscalate (refused : Bool) (failures : ℕ) (alreadyEscalated : Bool) : Bool :=
  !alreadyEscalated && (refused || escalateAfter ≤ failures)

/-- `selectable` (line 801). -/
def selectable (state : Option TargetState) (trigger : ReauthTrigger) (now : ℕ) : Bool :=
  match state with
  | none => true
  | some state =>
    if state.refused ∧ trigger ≠ .manual then false
    else trigger ≠ .sweep ∨ ∀ at' ∈ state.nextEligible, at' ≤ now

/-! ## The end of a run -/

def TargetState.settle (state : TargetState) (outcome : ReauthRunOutcome) (message : Option String)
    (now : ℕ) : TargetState :=
  { state with
    running := false
    lastRun := state.lastRun.map fun run =>
      { run with outcome := outcome, finishedAt := some now, message := message } }

def TargetState.noteRefusal (state : TargetState) (outcome : ReauthRunOutcome) : TargetState :=
  if outcome = .refused then { state with refused := true } else state

/-- The sweep waits longer after each failure of its own. -/
def TargetState.noteFailure (state : TargetState) (trigger : ReauthTrigger)
    (now sweepInterval : ℕ) : TargetState :=
  if trigger = .sweep then
    let failures := (state.consecutiveFailures + 1) % 2 ^ 32
    { state with
      consecutiveFailures := failures
      nextEligible := some (Reauth.nextEligible now failures sweepInterval) }
  else state

/-- `finish` (line 357); the flag says whether to escalate. -/
def finish (states : Registry) (id : ReauthTargetId) (outcome : ReauthRunOutcome)
    (message : Option String) (now sweepInterval : ℕ) : Registry × Bool :=
  let state := states.entry id
  let trigger := (state.lastRun.map ReauthRun.trigger).getD .manual
  let state := state.settle outcome message now
  if outcome = .succeeded then
    (update states id (some { state with
      consecutiveFailures := 0
      nextEligible := none
      escalated := false
      refused := false }), false)
  else
    let state := (state.noteRefusal outcome).noteFailure trigger now sweepInterval
    if shouldEscalate (outcome = .refused) state.consecutiveFailures state.escalated then
      (update states id (some { state with escalated := true }), true)
    else (update states id (some state), false)

def transcriptCap : ℕ := 200

/-- `append_transcript` (line 407). -/
def appendTranscript (states : Registry) (id : ReauthTargetId) (line : String) : Registry :=
  match states id with
  | none => states
  | some state =>
    match state.lastRun with
    | none => states
    | some run =>
      if run.transcript.length < transcriptCap then
        update states id (some { state with
          lastRun := some { run with transcript := run.transcript ++ [line] } })
      else states

/-! ## Entra -/

inductive EntraError where
  | config (message : String)
  | browser (message : String)
  | onePassword (message : String)
  | auth (message : String)
  | flowTimeout
  | badCode
  | refused (message : String)
  | io (message : String)

def EntraError.text : EntraError → String
  | .config message => "Entra minting is not configured: " ++ message
  | .browser message => "browser service error: " ++ message
  | .onePassword message => "1Password Connect error: " ++ message
  | .auth message => "Entra returned " ++ message
  | .flowTimeout => "the Entra sign-in flow timed out"
  | .badCode => "Entra rejected the one-time code"
  | .refused message => message
  | .io message => message

inductive ReauthError where
  | invalidTarget (message : String)
  | notConfigured (message : String)
  | busy (message : String)
  | entra (error : EntraError)
  | failed (message : String)

def ReauthError.text : ReauthError → String
  | .invalidTarget message => "invalid re-auth target: " ++ message
  | .notConfigured message => "not configured: " ++ message
  | .busy message => message
  | .entra error => error.text
  | .failed message => message

/-- `is_refusal`, with the reason. -/
def ReauthError.refusal : ReauthError → Option String
  | .entra (.refused reason) => some reason
  | _ => none

/-- `normalize_refusal` (line 1033), for `entra_mint::refusal_in`. -/
def normalizeRefusal (refusalIn : String → Option String) (err : ReauthError) : ReauthError :=
  if err.refusal.isSome then err
  else
    match refusalIn err.text with
    | some reason => .entra (.refused (reason ++ ": " ++ err.text))
    | none => err

/-- `uses_entra` (line 1045). -/
def usesEntra (id : ReauthTargetId) : Bool := id ≠ .cliTool .acli

structure EntraRefusal where
  reason : String
  at' : ℕ

/-- `entra_gate` (line 1095). -/
def entraGate (trigger : ReauthTrigger) (refusal : Option EntraRefusal) (requestedAt : ℕ) :
    Option String :=
  match refusal with
  | none => none
  | some refusal =>
    let operatorReset : Bool := trigger = .manual ∧ refusal.at' < requestedAt
    if operatorReset then none
    else some ("not attempted: the shared Entra sign-in was refused (" ++ refusal.reason ++
      "). Fix the credential, then re-run a target from Settings.")

/-! ## What the operations do -/

section

variable {states : Registry} {id id' : ReauthTargetId} {state : TargetState}
  {trigger : ReauthTrigger} {now : ℕ}

@[simp] theorem entry_update_self : Registry.entry (update states id (some state)) id = state := by
  simp [Registry.entry]

theorem entry_update_of_ne (h : id' ≠ id) :
    Registry.entry (update states id (some state)) id' = states.entry id' := by
  simp [Registry.entry, update_of_ne h]

theorem entry_update_entry :
    Registry.entry (update states id (some (states.entry id))) = states.entry := by
  funext other
  by_cases h : other = id
  · rw [h, entry_update_self]
  · rw [entry_update_of_ne h]

def TargetState.request (state : TargetState) : Option (ReauthTrigger × ℕ) :=
  state.lastRun.map fun run => (run.trigger, run.startedAt)

theorem claim_cases (states : Registry) (id : ReauthTargetId) (trigger : ReauthTrigger) (now : ℕ) :
    ((claim states id trigger now).1.entry = states.entry ∧
        ∀ run, (claim states id trigger now).2 ≠ .started run) ∨
      ∃ run state, claim states id trigger now = (update states id (some state), .started run) ∧
        ((states.entry id).running = true → (states.entry id).lastRun = none) ∧
        ((states.entry id).refused = true → trigger = .manual) ∧
        state.running = true ∧ state.refused = false ∧
        state.escalated = (states.entry id).escalated ∧ state.request = some (trigger, now) := by
  unfold claim
  dsimp only
  split
  · exact .inl ⟨entry_update_entry, nofun⟩
  · rename_i hfree
    split_ifs with hrefused
    · exact .inl ⟨entry_update_entry, nofun⟩
    · refine .inr ⟨_, _, rfl, ?_, ?_, rfl, rfl, rfl, rfl⟩
      · intro hrunning
        cases hrun : (states.entry id).lastRun with
        | none => rfl
        | some run => exact absurd hrun (hfree run hrunning)
      · intro h
        by_contra hne
        exact hrefused ⟨h, hne⟩

theorem noteFailure_spec (state : TargetState) (trigger : ReauthTrigger) (now interval : ℕ) :
    (state.noteFailure trigger now interval).running = state.running ∧
      (state.noteFailure trigger now interval).request = state.request ∧
      (state.noteFailure trigger now interval).refused = state.refused ∧
      (state.noteFailure trigger now interval).escalated = state.escalated := by
  unfold TargetState.noteFailure
  split
  all_goals exact ⟨rfl, rfl, rfl, rfl⟩

theorem noteRefusal_spec (state : TargetState) (outcome : ReauthRunOutcome) :
    (state.noteRefusal outcome).running = state.running ∧
      (state.noteRefusal outcome).request = state.request ∧
      (outcome = .refused ∨ state.refused = true → (state.noteRefusal outcome).refused = true) ∧
      (state.noteRefusal outcome).escalated = state.escalated := by
  unfold TargetState.noteRefusal
  split
  · exact ⟨rfl, rfl, fun _ => rfl, rfl⟩
  · rename_i hne
    exact ⟨rfl, rfl, fun h => h.resolve_left hne, rfl⟩

theorem settle_spec (state : TargetState) (outcome : ReauthRunOutcome) (message : Option String)
    (now : ℕ) : (state.settle outcome message now).running = false ∧
      (state.settle outcome message now).request = state.request ∧
      (state.settle outcome message now).refused = state.refused ∧
      (state.settle outcome message now).escalated = state.escalated := by
  refine ⟨rfl, ?_, rfl, rfl⟩
  unfold TargetState.settle TargetState.request
  rw [Option.map_map]
  rfl

theorem finish_cases (states : Registry) (id : ReauthTargetId) (outcome : ReauthRunOutcome)
    (message : Option String) (now interval : ℕ) :
    ∃ state escalate, finish states id outcome message now interval =
        (update states id (some state), escalate) ∧
      state.running = false ∧ state.request = (states.entry id).request ∧
      (outcome ≠ .succeeded → outcome = .refused ∨ (states.entry id).refused = true →
        state.refused = true) ∧
      (outcome ≠ .succeeded → (states.entry id).escalated = true → state.escalated = true) ∧
      (escalate = true → outcome ≠ .succeeded ∧ (states.entry id).escalated = false ∧
        state.escalated = true) := by
  obtain ⟨hrunning, hrequest, hrefused, hescalated⟩ :=
    settle_spec (states.entry id) outcome message now
  unfold finish
  dsimp only
  generalize (states.entry id).settle outcome message now = settled at *
  generalize ((states.entry id).lastRun.map ReauthRun.trigger).getD .manual = trigger
  obtain ⟨hrunning', hrequest', hrefused', hescalated'⟩ := noteRefusal_spec settled outcome
  obtain ⟨hrunning'', hrequest'', hrefused'', hescalated''⟩ :=
    noteFailure_spec (settled.noteRefusal outcome) trigger now interval
  generalize (settled.noteRefusal outcome).noteFailure trigger now interval = state at *
  split_ifs with hsucceeded hescalate
  · exact ⟨_, _, rfl, hrunning, hrequest, fun h => absurd hsucceeded h,
      fun h => absurd hsucceeded h, nofun⟩
  · refine ⟨_, _, rfl, hrunning''.trans (hrunning'.trans hrunning), ?_, ?_, fun _ _ => rfl, ?_⟩
    · exact hrequest''.trans (hrequest'.trans hrequest)
    · intro _ h
      show state.refused = true
      rw [hrefused'']
      exact hrefused' (h.imp_right hrefused.trans)
    · intro _
      refine ⟨hsucceeded, ?_, rfl⟩
      rw [hescalated'', hescalated', hescalated] at hescalate
      simpa using (Bool.and_eq_true_iff.1 hescalate).1
  · refine ⟨_, _, rfl, ?_, ?_, ?_, ?_, nofun⟩
    · rw [hrunning'', hrunning', hrunning]
    · exact hrequest''.trans (hrequest'.trans hrequest)
    · intro _ h
      rw [hrefused'']
      exact hrefused' (h.imp_right hrefused.trans)
    · intro _ h
      rw [hescalated'', hescalated', hescalated, h]

/-- A line of the transcript changes neither the flags nor the request. -/
theorem appendTranscript_spec (states : Registry) (id id' : ReauthTargetId) (line : String) :
    let state := (appendTranscript states id line).entry id'
    state.running = (states.entry id').running ∧ state.request = (states.entry id').request ∧
      state.refused = (states.entry id').refused ∧
      state.escalated = (states.entry id').escalated := by
  unfold appendTranscript
  split
  · exact ⟨rfl, rfl, rfl, rfl⟩
  · rename_i state hstate
    split
    · exact ⟨rfl, rfl, rfl, rfl⟩
    · rename_i hrun
      split
      · by_cases h : id' = id
        · have hentry : states.entry id' = state := by simp [Registry.entry, h, hstate]
          rw [hentry, h, entry_update_self]
          exact ⟨rfl, by simp [TargetState.request, hrun], rfl, rfl⟩
        · rw [entry_update_of_ne h]
          exact ⟨rfl, rfl, rfl, rfl⟩
      · exact ⟨rfl, rfl, rfl, rfl⟩

end

end VibeKanban.Reauth

import VibeKanban.Browser.Arbiter
import VibeKanban.Lib.Runs
import VibeKanban.Lib.Tasks

/-!
# Audit and live state of a browser session (`services/browser/session.rs`, `mod.rs`)

A transition is made under the lock of the arbiter, published after the lock is released, and then
handed to `audit`. A call is the list of what it will do next; it may end where it waits. One step
is a critical section, a publication, a hand-over, or the end of a wait.

The idempotency of `execute` is a free end here. `increments` is not in the source. The rollback of
`create_session` is left out.

* `control_complete`: each increment is audited once and published, if all steps are `Timely`.
-/

namespace VibeKanban.Browser

open Lib Cluster List ControlArbiter

/-! ## Calls -/

structure BrowserControlState where
  controller : BrowserController
  generation : ℕ
  leaseExpiresAt : Option Time

def ControlArbiter.state (a : ControlArbiter) : BrowserControlState :=
  ⟨a.controller, a.generation, a.leaseExpiresAt⟩

/-- Whose control the system releases. -/
inductive Holder where
  | execution (executionId : Uuid)
  | connection (connectionId : Uuid)

/-- The predicates of `release_for_execution` and `release_for_connection` (`mod.rs` 423-446). -/
def Holder.holds : Holder → BrowserController → Bool
  | .execution executionId, .agent e => e = executionId
  | .connection connectionId, .human _ c => c = connectionId
  | _, _ => false

def Holder.reason : Holder → ControlTransitionReason
  | .execution _ => .executionCompleted
  | .connection _ => .disconnected

/-- What a call does next. -/
inductive Instr where
  /-- `expire_and_audit`, and the same in `sweep_once` -/
  | expireAndAudit
  | ensureOpen
  | acquire (principal : ControlPrincipal) (takeFromAgent force : Bool) (expected : Option ℕ)
  | release (principal : ControlPrincipal) (expected : Option ℕ)
  | transfer (principal : ControlPrincipal) (target : TransferTarget) (expected : ℕ)
  | releaseIf (holder : Holder)
  | controlState
  /-- the look at the control before a command, and the acquisition it may lead to -/
  | autoAcquire (principal : ControlPrincipal)
  | closePermitted (principal : ControlPrincipal) (force : Bool)
  | admitCommand (principal : ControlPrincipal) (expected : Option ℕ)
  | close
  | markClosed
  | publish (state : BrowserControlState)
  | audit (transition : Transition)
  /-- it waits, or looks at something else; it may end here -/
  | pause

inductive ServiceOp where
  | getControl
  | acquireControl (principal : ControlPrincipal) (takeFromAgent force : Bool) (expected : Option ℕ)
  | releaseControl (principal : ControlPrincipal) (expected : Option ℕ)
  | transferControl (principal : ControlPrincipal) (target : TransferTarget) (expected : ℕ)
  | releaseFor (holder : Holder)
  | executeAction (principal : ControlPrincipal) (expected : Option ℕ) (autoAcquire : Bool)
  | closeSession (principal : ControlPrincipal) (force : Bool)
  | closeForWorkspace
  | sweepOnce

/-- The calls for one session (`mod.rs` 276-329, 368-446, 501-542, 709-735). -/
def ServiceOp.body : ServiceOp → List Instr
  | .getControl => [.expireAndAudit, .controlState]
  | .acquireControl principal takeFromAgent force expected =>
    [.expireAndAudit, .ensureOpen, .acquire principal takeFromAgent force expected, .controlState]
  | .releaseControl principal expected =>
    [.expireAndAudit, .ensureOpen, .release principal expected, .controlState]
  | .transferControl principal target expected =>
    .expireAndAudit :: (match target with
      | .agent _ => [.pause]
      | .none => []) ++ [.ensureOpen, .transfer principal target expected, .controlState]
  | .releaseFor holder => [.releaseIf holder]
  | .executeAction principal expected autoAcquire =>
    .expireAndAudit :: (if autoAcquire then [.autoAcquire principal] else []) ++
      [.ensureOpen, .pause, .admitCommand principal expected, .pause]
  | .closeSession principal force => [.expireAndAudit, .closePermitted principal force, .close]
  | .closeForWorkspace => [.close]
  | .sweepOnce => [.expireAndAudit, .pause, .close]

/-! ## Steps -/

/-- The control of a session; `published` is the control in the live state, `closed` its status. -/
structure SessionControl where
  control : ControlArbiter
  published : BrowserControlState
  closed : Bool
  clock : Time
  calls : List (List Instr)
  audited : List Transition
  increments : List Transition

inductive ControlAction where
  | tick (now : Time)
  | call (op : ServiceOp)
  | advance (i : ℕ)
  /-- a call ends where it waits -/
  | leave (i : ℕ)

namespace SessionControl

def new (leaseTtl now : Time) : SessionControl where
  control := ControlArbiter.new leaseTtl
  published := (ControlArbiter.new leaseTtl).state
  closed := false
  clock := now
  calls := []
  audited := []
  increments := []

variable (s : SessionControl) (i : ℕ) (rest : List Instr)

/-- The call `i` is left with `call`. -/
def go (call : List Instr) : SessionControl := { s with calls := s.calls.set i call }

def expired : SessionControl :=
  { s with
    control := (s.control.expireIfLapsed s.clock).1
    increments := s.increments ++ (s.control.expireIfLapsed s.clock).2.toList }

/-- Publishes what the lazy expiry has changed (`control_state`, lines 193-203). -/
def lazily (call : List Instr) : List Instr :=
  if (s.control.expireIfLapsed s.clock).2.isSome then
    .publish (s.control.expireIfLapsed s.clock).1.state :: call
  else call

/-- A transition that is published and audited (lines 300-322). -/
def transitioned (result : ControlArbiter × Option Transition) : SessionControl :=
  match result with
  | (control, some t) =>
    { s with control := control, increments := s.increments ++ [t] }.go i
      (.publish control.state :: .audit t :: .pause :: rest)
  | (_, none) => s.go i rest

/-- `acquire`, `release` or `transfer` and the audit of their transition (lines 245-296). -/
def answered (result : ControlArbiter × Except BrowserSessionError Transition) : SessionControl :=
  match result with
  | (control, .ok t) =>
    let changed := t.generation ≠ s.expired.control.generation
    { s with
      control := control
      increments := s.expired.increments ++ (if changed then [t] else []) }.go i
        (.publish control.state :: .audit t :: .pause :: rest)
  | (control, .error _) => { s.expired with control := control }.go i []

/-- What a call does, before `rest`. -/
def run : Instr → SessionControl
  | .expireAndAudit => s.transitioned i rest (s.control.expireIfLapsed s.clock)
  | .ensureOpen => s.go i (if s.closed then [] else rest)
  | .acquire principal takeFromAgent force expected =>
    s.answered i rest (s.control.acquire principal s.clock takeFromAgent force expected)
  | .release principal expected => s.answered i rest (s.control.release principal s.clock expected)
  | .transfer principal target expected =>
    s.answered i rest (s.control.transfer principal s.clock target expected)
  | .releaseIf holder =>
    s.transitioned i rest (s.control.releaseIf s.clock holder.holds holder.reason)
  | .controlState => s.expired.go i (s.lazily rest)
  | .autoAcquire principal =>
    s.expired.go i (s.lazily (if s.expired.control.controller.isNone then
      .ensureOpen :: .acquire principal false false none :: rest else rest))
  | .closePermitted principal force =>
    let controller := s.expired.control.controller
    s.expired.go i (s.lazily
      (if force || controller.isNone || principal.controls controller then rest else []))
  | .admitCommand principal expected =>
    match s.control.admitCommand principal s.clock expected with
    | (control, .ok _) =>
      { s.expired with control := control }.go i (.publish control.state :: rest)
    | (control, .error _) => { s.expired with control := control }.go i []
  | .close =>
    match s.control.releaseIf s.clock (fun _ => true) .closed with
    | (control, some t) =>
      { s with control := control, increments := s.increments ++ [t] }.go i
        (.publish control.state :: .pause :: .pause :: .markClosed :: .audit t :: .pause :: rest)
    | (_, none) => s.go i (.pause :: .pause :: .markClosed :: rest)
  | .markClosed => { s with closed := true }.go i rest
  | .publish state => { s with published := state }.go i rest
  | .audit t => { s with audited := s.audited ++ [t] }.go i rest
  | .pause => s.go i rest

def step : ControlAction → Option SessionControl
  | .tick now => some { s with clock := now }
  | .call op => some { s with calls := s.calls ++ [op.body] }
  | .advance i =>
    match s.calls[i]? with
    | some (instr :: rest) => some (s.run i rest instr)
    | _ => none
  | .leave i =>
    match s.calls[i]? with
    | some (.pause :: _) => some (s.go i [])
    | _ => none

/-! ## The condition -/

end SessionControl

/-- It expires a lapsed lease without handing the transition to `audit`. -/
def Instr.expires : Instr → Bool
  | .acquire .. | .release .. | .transfer .. | .controlState | .autoAcquire _ | .closePermitted .. |
    .admitCommand .. => true
  | _ => false

/-- It is answered without a transition (`arbiter.rs` 136-143, 177-185), and audited. -/
def Instr.repeats (control : ControlArbiter) : Instr → Bool
  | .acquire principal _ _ expected =>
    !control.mismatches expected && principal.controls control.controller
  | .release _ expected => !control.mismatches expected && control.controller.isNone
  | _ => false

/-- It continues what a critical section has begun. -/
def Instr.settles : Instr → Bool
  | .markClosed | .publish _ | .audit _ | .pause => true
  | _ => false

/-- The transition that it hands over. -/
def Instr.audits : Instr → Option Transition
  | .audit t => some t
  | _ => none

def Instr.publishes : Instr → Option BrowserControlState
  | .publish state => some state
  | _ => none

def audits (call : List Instr) : List Transition := call.filterMap Instr.audits

namespace SessionControl

/-- What the call `i` does next. -/
def next? (s : SessionControl) (i : ℕ) : Option Instr := (s.calls[i]?).bind head?

/-- What a step needs: the generation does not wrap, a lease lapses in no operation but
`expire_and_audit`, nobody acquires the control that it has or releases one that nobody has, no call
publishes after a later transition was published, and no call is given up with a transition that it
will audit. -/
def Timely (s : SessionControl) : ControlAction → Prop
  | .advance i =>
    s.control.generation < u64Max ∧
      (∀ instr ∈ s.next? i, instr.repeats s.control = false ∧
        (instr.expires = true → s.control.lapsed s.clock = false)) ∧
      ∀ state ∈ (s.next? i).bind Instr.publishes, s.published.generation ≤ state.generation
  | .leave i => ∀ call ∈ s.calls[i]?, audits call = []
  | _ => True

instance (s : SessionControl) : ∀ a, Decidable (s.Timely a) := fun a => by
  cases a <;> dsimp only [Timely] <;> infer_instance

def Quiet (s : SessionControl) : Prop := ∀ call ∈ s.calls, call = []

instance (s : SessionControl) : Decidable s.Quiet :=
  inferInstanceAs (Decidable (∀ call ∈ _, call = []))

end SessionControl

/-! ## The shape of a call -/

/-- Nothing is published but at once, and nothing is audited later than before the next critical
section. -/
def Tidy : List Instr → Prop
  | [] => True
  | instr :: rest =>
    (∀ state, .publish state ∉ rest) ∧ Tidy rest ∧ (instr.settles = false → audits rest = [])

theorem audits_cons_of_none {instr : Instr} {rest : List Instr} (h : instr.audits = none) :
    audits (instr :: rest) = audits rest := by
  simp [audits, h]

theorem audits_audit {t : Transition} {rest : List Instr} :
    audits (.audit t :: rest) = t :: audits rest := by
  simp [audits, Instr.audits]

/-- A call with nothing to publish or to audit. -/
structure Clean (call : List Instr) : Prop where
  tidy : Tidy call
  audits : audits call = []
  publish : ∀ state, .publish state ∉ call

/-- It is part of a call that has not begun. -/
def Instr.begins : Instr → Bool
  | .markClosed | .publish _ | .audit _ => false
  | _ => true

theorem begins_body (op : ServiceOp) : op.body.all Instr.begins = true := by
  cases op with
  | transferControl principal target expected => cases target <;> rfl
  | executeAction principal expected autoAcquire => cases autoAcquire <;> rfl
  | _ => rfl

theorem Clean.nil : Clean [] := ⟨trivial, rfl, fun _ => not_mem_nil⟩

theorem Clean.cons {instr : Instr} {rest : List Instr} (h : Clean rest)
    (hbegins : instr.begins = true) : Clean (instr :: rest) := by
  have hnone : instr.audits = none := by
    cases instr with
    | audit t => cases hbegins
    | _ => rfl
  refine ⟨⟨h.publish, h.tidy, fun _ => h.audits⟩, ?_, ?_⟩
  · rw [audits_cons_of_none hnone, h.audits]
  · intro state hmem
    rcases mem_cons.1 hmem with rfl | hmem
    · cases hbegins
    · exact h.publish state hmem

theorem clean_of_all {call : List Instr} (h : call.all Instr.begins = true) : Clean call := by
  induction call with
  | nil => exact Clean.nil
  | cons instr call ih =>
    rw [all_cons, Bool.and_eq_true] at h
    exact (ih h.2).cons h.1

theorem clean_body (op : ServiceOp) : Clean op.body := clean_of_all (begins_body op)

/-! ## The operations, if no lease has lapsed -/

namespace ControlArbiter

variable {a : ControlArbiter} {principal : ControlPrincipal} {now : Time} {expected : Option ℕ}

theorem wrappingAdd_one {n : ℕ} (h : n < u64Max) : wrappingAdd n 1 = n + 1 := by
  unfold u64Max at h
  exact Nat.mod_eq_of_lt (by omega)

theorem expireIfLapsed_of_not (h : a.lapsed now = false) : a.expireIfLapsed now = (a, none) := by
  rw [expireIfLapsed, h, if_neg Bool.false_ne_true]

def Answers (a : ControlArbiter) (now : Time)
    (result : ControlArbiter × Except BrowserSessionError Transition) : Prop :=
  (∃ e, result = (a, .error e)) ∨
    ∃ controller reason, result =
      (a.moved now controller, .ok ((a.moved now controller).unchanged reason))

section

variable (h : a.lapsed now = false)
include h

theorem acquire_answers (takeFromAgent force : Bool)
    (hrepeats : (Instr.acquire principal takeFromAgent force expected).repeats a = false) :
    a.Answers now (a.acquire principal now takeFromAgent force expected) := by
  unfold acquire
  rw [expireIfLapsed_of_not h]
  dsimp only
  split_ifs with hstale hcontrols
  · exact .inl ⟨_, rfl⟩
  · simp [Instr.repeats, hstale, hcontrols] at hrepeats
  · exact .inl ⟨_, rfl⟩
  · exact .inr ⟨_, _, rfl⟩

theorem release_answers (hrepeats : (Instr.release principal expected).repeats a = false) :
    a.Answers now (a.release principal now expected) := by
  unfold release
  rw [expireIfLapsed_of_not h]
  dsimp only
  split_ifs with hstale hnone
  · exact .inl ⟨_, rfl⟩
  · simp [Instr.repeats, hstale, hnone] at hrepeats
  · exact .inl ⟨_, rfl⟩
  · exact .inr ⟨_, _, rfl⟩

theorem transfer_answers (target : TransferTarget) (expected : ℕ) :
    a.Answers now (a.transfer principal now target expected) := by
  unfold transfer
  rw [expireIfLapsed_of_not h]
  dsimp only
  split_ifs
  · exact .inl ⟨_, rfl⟩
  · exact .inl ⟨_, rfl⟩
  · exact .inl ⟨_, rfl⟩
  · exact .inr ⟨_, _, rfl⟩

end

theorem admitCommand_answers (principal : ControlPrincipal) (expected : Option ℕ)
    (h : a.lapsed now = false) : (∃ e, a.admitCommand principal now expected = (a, .error e)) ∨
      a.admitCommand principal now expected = (a.renewed now, .ok a.generation) := by
  unfold admitCommand
  rw [expireIfLapsed_of_not h]
  dsimp only
  split_ifs
  · exact .inl ⟨_, rfl⟩
  · exact .inl ⟨_, rfl⟩
  · exact .inr rfl

def Transitions (a : ControlArbiter) (now : Time) (result : ControlArbiter × Option Transition) :
    Prop :=
  result = (a, none) ∨ ∃ controller reason, result =
    (a.moved now controller, some ((a.moved now controller).unchanged reason))

theorem expireIfLapsed_transitions : a.Transitions now (a.expireIfLapsed now) := by
  unfold expireIfLapsed
  split_ifs
  · exact .inr ⟨_, _, rfl⟩
  · exact .inl rfl

theorem releaseIf_transitions (predicate : BrowserController → Bool)
    (reason : ControlTransitionReason) : a.Transitions now (a.releaseIf now predicate reason) := by
  unfold releaseIf
  split_ifs
  · exact .inl rfl
  · exact .inr ⟨_, _, rfl⟩
  · exact .inl rfl

end ControlArbiter

namespace SessionControl

variable {s s' : SessionControl} {i : ℕ} {instr : Instr} {call rest next : List Instr}
  {made : List Transition} {state : BrowserControlState}

/-! ## Critical sections -/

/-- What a step of the call `i` under the lock leaves behind: the call goes on with `next`; the
transition that was made, if any, is to be published and audited. -/
structure Section (s s' : SessionControl) (i : ℕ) (next : List Instr) (made : List Transition) :
    Prop where
  calls : s'.calls = s.calls.set i next
  tidy : Tidy next
  audits : audits next = made
  increments : s'.increments = s.increments ++ made
  audited : s'.audited = s.audited
  published : s'.published = s.published
  control : (made = [] ∧ s'.control.controller = s.control.controller ∧
      s'.control.generation = s.control.generation) ∨
    ∃ controller reason, s'.control = s.control.moved s.clock controller ∧
      made = [s'.control.unchanged reason] ∧ .publish s'.control.state ∈ next
  publish : ∀ state, .publish state ∈ next → state = s'.control.state

theorem section_of_kept {next : List Instr} (hcall : Clean next)
    (hs : s' = s.go i next) : Section s s' i next [] := by
  subst hs
  exact ⟨rfl, hcall.tidy, hcall.audits, by simp [go], rfl, rfl,
    .inl ⟨rfl, rfl, rfl⟩, fun state hmem => absurd hmem (hcall.publish state)⟩

theorem expired_of_not (h : s.control.lapsed s.clock = false) : s.expired = s := by
  rw [expired, expireIfLapsed_of_not h]
  simp

theorem lazily_of_not (h : s.control.lapsed s.clock = false) : s.lazily call = call := by
  rw [lazily, expireIfLapsed_of_not h]
  rfl

theorem tidy_transition (state : BrowserControlState) (t : Transition) (h : Clean rest) :
    Tidy (.publish state :: .audit t :: .pause :: rest) ∧
      audits (.publish state :: .audit t :: .pause :: rest) = [t] := by
  constructor
  · simp [Tidy, h.tidy, h.publish, Instr.settles]
  · rw [audits_cons_of_none rfl, audits_audit, audits_cons_of_none rfl, h.audits]

theorem eq_of_publish_mem {state' : BrowserControlState}
    (h : Tidy (.publish state' :: next)) (hmem : .publish state ∈ Instr.publish state' :: next) :
    state = state' := by
  rcases mem_cons.1 hmem with heq | hmem
  · exact Instr.publish.inj heq
  · exact absurd hmem (h.1 state)

theorem section_transitioned {result : ControlArbiter × Option Transition} (h : Clean rest)
    (hresult : s.control.Transitions s.clock result) :
    ∃ next made, Section s (s.transitioned i rest result) i next made := by
  rcases hresult with rfl | ⟨controller, reason, rfl⟩
  · exact ⟨_, _, section_of_kept h rfl⟩
  · obtain ⟨htidy, haudits⟩ := tidy_transition (s.control.moved s.clock controller).state
      ((s.control.moved s.clock controller).unchanged reason) h
    exact ⟨_, [_], rfl, htidy, haudits, rfl, rfl, rfl,
      .inr ⟨controller, reason, rfl, rfl, mem_cons_self⟩,
      fun state hmem => eq_of_publish_mem htidy hmem⟩

theorem section_answered {result : ControlArbiter × Except BrowserSessionError Transition}
    (h : Clean rest)
    (hlapsed : s.control.lapsed s.clock = false) (hfit : s.control.generation < u64Max)
    (hresult : s.control.Answers s.clock result) :
    ∃ next made, Section s (s.answered i rest result) i next made := by
  rcases hresult with ⟨e, rfl⟩ | ⟨controller, reason, rfl⟩
  · refine ⟨[], [], ?_⟩
    apply section_of_kept Clean.nil
    rw [answered, expired_of_not hlapsed]
  · obtain ⟨htidy, haudits⟩ := tidy_transition (s.control.moved s.clock controller).state
      ((s.control.moved s.clock controller).unchanged reason) h
    have hchanged : ((s.control.moved s.clock controller).unchanged reason).generation ≠
        s.expired.control.generation := by
      rw [expired_of_not hlapsed]
      show wrappingAdd s.control.generation 1 ≠ s.control.generation
      rw [wrappingAdd_one hfit]
      omega
    refine ⟨_, [_], rfl, htidy, haudits, ?_, rfl, rfl,
      .inr ⟨controller, reason, rfl, rfl, mem_cons_self⟩,
      fun state hmem => eq_of_publish_mem htidy hmem⟩
    show s.expired.increments ++ (if _ then _ else _) = _
    rw [if_pos hchanged, expired_of_not hlapsed]

/-- **A step under the lock** leaves a call that publishes and audits what it has made and nothing
else, if it is meant to expire a lease or none has lapsed, and is not answered without a
transition. -/
theorem critical_section (i : ℕ) (hcall : Tidy (instr :: rest))
    (hsettles : instr.settles = false) (hfit : s.control.generation < u64Max)
    (hrepeats : instr.repeats s.control = false)
    (hlapsed : instr.expires = true → s.control.lapsed s.clock = false) :
    ∃ next made, Section s (s.run i rest instr) i next made := by
  have h : Clean rest := ⟨hcall.2.1, hcall.2.2 hsettles, hcall.1⟩
  cases instr with
  | expireAndAudit => exact section_transitioned h expireIfLapsed_transitions
  | ensureOpen =>
    refine ⟨_, _, section_of_kept ?_ rfl⟩
    split
    · exact Clean.nil
    · exact h
  | acquire principal takeFromAgent force expected =>
    exact section_answered h (hlapsed rfl) hfit
      (acquire_answers (hlapsed rfl) takeFromAgent force hrepeats)
  | release principal expected =>
    exact section_answered h (hlapsed rfl) hfit (release_answers (hlapsed rfl) hrepeats)
  | transfer principal target expected =>
    exact section_answered h (hlapsed rfl) hfit (transfer_answers (hlapsed rfl) target expected)
  | releaseIf holder => exact section_transitioned h (releaseIf_transitions _ _)
  | controlState =>
    refine ⟨_, _, section_of_kept h ?_⟩
    show s.expired.go i (s.lazily rest) = _
    rw [expired_of_not (hlapsed rfl), lazily_of_not (hlapsed rfl)]
  | autoAcquire principal =>
    have hnext : Clean (if s.control.controller.isNone then
        .ensureOpen :: .acquire principal false false none :: rest else rest) := by
      split
      · exact (h.cons rfl).cons rfl
      · exact h
    refine ⟨_, _, section_of_kept hnext ?_⟩
    · show s.expired.go i (s.lazily (if s.expired.control.controller.isNone then _ else _)) = _
      rw [expired_of_not (hlapsed rfl), lazily_of_not (hlapsed rfl)]
  | closePermitted principal force =>
    have hnext : Clean (if force || s.control.controller.isNone ||
        principal.controls s.control.controller then rest else []) := by
      split
      · exact h
      · exact Clean.nil
    refine ⟨_, _, section_of_kept hnext ?_⟩
    · show s.expired.go i (s.lazily (if force || s.expired.control.controller.isNone ||
        principal.controls s.expired.control.controller then _ else _)) = _
      rw [expired_of_not (hlapsed rfl), lazily_of_not (hlapsed rfl)]
  | admitCommand principal expected =>
    show ∃ next made, Section s
      (match s.control.admitCommand principal s.clock expected with
      | (control, .ok _) =>
        { s.expired with control := control }.go i (.publish control.state :: rest)
      | (control, .error _) => { s.expired with control := control }.go i []) i next made
    rw [expired_of_not (hlapsed rfl)]
    rcases admitCommand_answers principal expected (hlapsed rfl) with
      ⟨e, hadmitted⟩ | hadmitted
    · rw [hadmitted]
      exact ⟨_, _, section_of_kept Clean.nil rfl⟩
    · rw [hadmitted]
      have htidy : Tidy (.publish (s.control.renewed s.clock).state :: rest) :=
        ⟨h.publish, h.tidy, nofun⟩
      exact ⟨_, [], rfl, htidy, h.audits, (append_nil _).symm, rfl, rfl,
        .inl ⟨rfl, rfl, rfl⟩, fun state hmem => eq_of_publish_mem htidy hmem⟩
  | close =>
    show ∃ next made, Section s
      (match s.control.releaseIf s.clock (fun _ => true) .closed with
      | (control, some t) =>
        { s with control := control, increments := s.increments ++ [t] }.go i
          (.publish control.state :: .pause :: .pause :: .markClosed :: .audit t :: .pause :: rest)
      | (_, none) => s.go i (.pause :: .pause :: .markClosed :: rest)) i next made
    have hresult : s.control.Transitions s.clock
        (s.control.releaseIf s.clock (fun _ => true) .closed) :=
      releaseIf_transitions _ _
    rcases hresult with hrelease | ⟨controller, reason, hrelease⟩ <;> rw [hrelease]
    · refine ⟨_, _, section_of_kept ⟨?_, ?_, ?_⟩ rfl⟩
      · simp [Tidy, h.tidy, h.publish, Instr.settles]
      · rw [audits_cons_of_none rfl, audits_cons_of_none rfl, audits_cons_of_none rfl, h.audits]
      · simp [h.publish]
    · have htidy : Tidy (.publish (s.control.moved s.clock controller).state :: .pause :: .pause ::
          .markClosed :: .audit ((s.control.moved s.clock controller).unchanged reason) :: .pause ::
          rest) := by
        simp [Tidy, h.tidy, h.publish, Instr.settles]
      refine ⟨_, [_], rfl, htidy, ?_, rfl, rfl, rfl,
        .inr ⟨controller, reason, rfl, rfl, mem_cons_self⟩,
        fun state hmem => eq_of_publish_mem htidy hmem⟩
      rw [audits_cons_of_none rfl, audits_cons_of_none rfl, audits_cons_of_none rfl,
        audits_cons_of_none rfl, audits_audit, audits_cons_of_none rfl, h.audits]
  | markClosed | publish state | audit t | pause => cases hsettles

/-! ## The invariant -/

/-- Each transition is audited or about to be; the newest state is published or about to be, and
what is about to be published is not newer. -/
structure Inv (s : SessionControl) : Prop where
  tidy : ∀ call ∈ s.calls, Tidy call
  audited : (s.audited ++ s.calls.flatMap audits).Perm s.increments
  numbers : s.increments.map Transition.generation = range' 1 s.control.generation
  published_le : s.published.generation ≤ s.control.generation
  published_eq : s.published.generation = s.control.generation →
    s.published.controller = s.control.controller
  publish : ∀ call ∈ s.calls, ∀ state, .publish state ∈ call →
    state.generation ≤ s.control.generation ∧
      (state.generation = s.control.generation → state.controller = s.control.controller)
  newest : s.published.generation < s.control.generation →
    ∃ call ∈ s.calls, ∃ state, .publish state ∈ call ∧ state.generation = s.control.generation

theorem inv_new (leaseTtl now : Time) : (new leaseTtl now).Inv where
  tidy := by simp [new]
  audited := by simp [new]
  numbers := rfl
  published_le := le_refl _
  published_eq _ := rfl
  publish := by simp [new]
  newest h := absurd h (lt_irrefl _)

/-- A call that hands over `handed` and will hand over what it did, and `added`. -/
theorem audited_perm {old : List Transition} (next : List Instr) (handed added : List Transition)
    (h : (s.audited ++ s.calls.flatMap audits).Perm old) (hcall : s.calls[i]? = some call)
    (hnext : (handed ++ audits next).Perm (audits call ++ added)) :
    (s.audited ++ handed ++ (s.calls.set i next).flatMap audits).Perm (old ++ added) := by
  have hset := (set_perm_of_getElem? hcall next).flatMap_right audits
  have hold := (perm_of_getElem? hcall).flatMap_right audits
  rw [flatMap_cons] at hset hold
  rw [perm_iff_count] at *
  intro t
  have h1 := h t
  have h2 := hnext t
  have h3 := hset t
  have h4 := hold t
  simp only [count_append] at h1 h2 h3 h4 ⊢
  omega

theorem exists_of_set {P : List Instr → Prop} (h : ∃ call ∈ s.calls, P call)
    (hcall : s.calls[i]? = some call) (hnot : ¬ P call) : ∃ call ∈ s.calls.set i next, P call := by
  obtain ⟨call', hmem, hP⟩ := h
  have hne : call' ≠ call := fun heq => hnot (heq ▸ hP)
  exact ⟨call', (mem_set_iff_of_ne hcall hne).2 (.inr hmem), hP⟩

theorem Inv.of_kept (handed : List Transition) (h : s.Inv) (hcall : s.calls[i]? = some call)
    (hhanded : handed ++ audits next = audits call) (hnext : Tidy next)
    (hpublish : ∀ state, .publish state ∉ next) (hpublish' : ∀ state, .publish state ∉ call)
    (closed : Bool) :
    Inv { s with
      closed := closed
      audited := s.audited ++ handed
      calls := s.calls.set i next } where
  tidy call' hmem := by
    rcases mem_set_of_mem hmem with rfl | hmem
    · exact hnext
    · exact h.tidy call' hmem
  audited := by
    have hperm := audited_perm next handed [] h.audited hcall (by rw [hhanded, append_nil])
    rwa [append_nil] at hperm
  numbers := h.numbers
  published_le := h.published_le
  published_eq := h.published_eq
  publish call' hmem state hstate := by
    rcases mem_set_of_mem hmem with rfl | hmem
    · exact absurd hstate (hpublish state)
    · exact h.publish call' hmem state hstate
  newest hlt := exists_of_set (h.newest hlt) hcall fun ⟨state, hmem, _⟩ => hpublish' state hmem

theorem Inv.of_publish (h : s.Inv) (hcall : s.calls[i]? = some (.publish state :: rest))
    (hle : s.published.generation ≤ state.generation) :
    Inv ({ s with published := state }.go i rest) := by
  have hmem : .publish state :: rest ∈ s.calls := mem_of_getElem? hcall
  obtain ⟨hnone, htidy, -⟩ := h.tidy _ hmem
  obtain ⟨hnew, heq⟩ := h.publish _ hmem state mem_cons_self
  refine ⟨?_, ?_, h.numbers, hnew, heq, ?_, ?_⟩
  · intro call' hmem'
    rcases mem_set_of_mem hmem' with rfl | hmem'
    · exact htidy
    · exact h.tidy call' hmem'
  · have hperm := audited_perm rest [] [] h.audited hcall
      (by rw [audits_cons_of_none rfl, append_nil, nil_append])
    rwa [append_nil, append_nil] at hperm
  · intro call' hmem' state' hstate'
    rcases mem_set_of_mem hmem' with rfl | hmem'
    · exact absurd hstate' (hnone state')
    · exact h.publish call' hmem' state' hstate'
  · intro hlt
    have hlt : state.generation < s.control.generation := hlt
    apply exists_of_set (h.newest (lt_of_le_of_lt hle hlt)) hcall
    rintro ⟨state', hmem', hgeneration⟩
    rcases mem_cons.1 hmem' with heq' | hmem'
    · rw [Instr.publish.inj heq'] at hgeneration
      omega
    · exact hnone state' hmem'

theorem Inv.of_section (h : s.Inv) (hcall : s.calls[i]? = some call) (haudits : audits call = [])
    (hpublish : ∀ state, .publish state ∉ call) (hfit : s.control.generation < u64Max)
    (hsection : Section s s' i next made) : s'.Inv := by
  have haudited : (s'.audited ++ s'.calls.flatMap audits).Perm s'.increments := by
    have hperm := audited_perm next [] made h.audited hcall
      (by rw [haudits, hsection.audits, List.nil_append])
    rw [hsection.audited, hsection.calls, hsection.increments]
    rwa [List.append_nil] at hperm
  have htidy : ∀ call ∈ s'.calls, Tidy call := by
    rw [hsection.calls]
    intro call' hmem
    rcases mem_set_of_mem hmem with rfl | hmem
    · exact hsection.tidy
    · exact h.tidy call' hmem
  rcases hsection.control with ⟨rfl, hcontroller, hgeneration⟩ |
    ⟨controller, reason, hcontrol, rfl, hpublish'⟩
  · refine ⟨htidy, haudited, ?_, ?_, ?_, ?_, ?_⟩
    · rw [hsection.increments, List.append_nil, hgeneration]
      exact h.numbers
    · rw [hsection.published, hgeneration]
      exact h.published_le
    · rw [hsection.published, hgeneration, hcontroller]
      exact h.published_eq
    · rw [hsection.calls]
      intro call' hmem state hstate
      rcases mem_set_of_mem hmem with rfl | hmem
      · rw [hsection.publish state hstate]
        exact ⟨le_refl _, fun _ => rfl⟩
      · rw [hgeneration, hcontroller]
        exact h.publish call' hmem state hstate
    · rw [hsection.published, hgeneration, hsection.calls]
      intro hlt
      exact exists_of_set (h.newest hlt) hcall fun ⟨state, hmem, _⟩ => hpublish state hmem
  · have hgeneration : s'.control.generation = s.control.generation + 1 := by
      rw [hcontrol]
      exact wrappingAdd_one hfit
    refine ⟨htidy, haudited, ?_, ?_, ?_, ?_, ?_⟩
    · rw [hsection.increments, List.map_append, h.numbers, hgeneration, List.range'_1_concat,
        Nat.add_comm 1, ← hgeneration]
      rfl
    · rw [hsection.published, hgeneration]
      exact Nat.le_succ_of_le h.published_le
    · rw [hsection.published, hgeneration]
      intro heq
      have := h.published_le
      omega
    · rw [hsection.calls]
      intro call' hmem state hstate
      rcases mem_set_of_mem hmem with rfl | hmem
      · rw [hsection.publish state hstate]
        exact ⟨le_refl _, fun _ => rfl⟩
      · have hle := (h.publish call' hmem state hstate).1
        exact ⟨by omega, fun heq => by omega⟩
    · intro _
      rw [hsection.calls]
      obtain ⟨hi, -⟩ := List.getElem?_eq_some_iff.1 hcall
      exact ⟨next, List.mem_set hi next, s'.control.state, hpublish', rfl⟩

/-! ## Every run -/

theorem Inv.advance (h : s.Inv) (hcall : s.calls[i]? = some (instr :: rest))
    (htimely : s.Timely (.advance i)) : Inv (s.run i rest instr) := by
  obtain ⟨hfit, hnextok, hstate⟩ := htimely
  have hnext : s.next? i = some instr := by
    rw [next?, hcall]
    rfl
  have htidy : Tidy (instr :: rest) := h.tidy _ (mem_of_getElem? hcall)
  have hnone : (∀ state, instr ≠ .publish state) → ∀ state, .publish state ∉ instr :: rest := by
    intro hne state hmem
    rcases mem_cons.1 hmem with heq | hmem
    · exact hne state heq.symm
    · exact htidy.1 state hmem
  by_cases hsettles : instr.settles = true
  · cases instr with
    | markClosed =>
      have hinv := h.of_kept [] hcall (audits_cons_of_none rfl).symm htidy.2.1 htidy.1
        (hnone fun _ => nofun) true
      simpa [run, go] using hinv
    | publish state =>
      apply h.of_publish hcall
      apply hstate
      rw [hnext]
      rfl
    | audit t =>
      exact h.of_kept [t] hcall audits_audit.symm htidy.2.1 htidy.1 (hnone fun _ => nofun) s.closed
    | pause =>
      have hinv := h.of_kept [] hcall (audits_cons_of_none rfl).symm htidy.2.1 htidy.1
        (hnone fun _ => nofun) s.closed
      simpa [run, go] using hinv
    | _ => cases hsettles
  · rw [Bool.not_eq_true] at hsettles
    have hne : ∀ state, instr ≠ .publish state := by
      rintro state rfl
      cases hsettles
    have haudits : audits (instr :: rest) = [] := by
      rw [audits_cons_of_none, htidy.2.2 hsettles]
      cases instr with
      | audit t => cases hsettles
      | _ => rfl
    obtain ⟨hrepeats, hlapsed⟩ := hnextok instr hnext
    obtain ⟨next, made, hsection⟩ := critical_section i htidy hsettles hfit hrepeats hlapsed
    exact h.of_section hcall haudits (hnone hne) hfit hsection

theorem Inv.step (h : s.Inv) {a : ControlAction} (htimely : s.Timely a)
    (hstep : s.step a = some s') : s'.Inv := by
  cases a with
  | tick now =>
    cases hstep
    exact ⟨h.tidy, h.audited, h.numbers, h.published_le, h.published_eq, h.publish, h.newest⟩
  | call op =>
    cases hstep
    obtain ⟨htidy, haudits, hpublish⟩ := clean_body op
    refine ⟨?_, ?_, h.numbers, h.published_le, h.published_eq, ?_, ?_⟩
    · intro call hmem
      rcases mem_append.1 hmem with hmem | hmem
      · exact h.tidy call hmem
      · exact mem_singleton.1 hmem ▸ htidy
    · show (s.audited ++ (s.calls ++ [op.body]).flatMap audits).Perm _
      rw [flatMap_append, flatMap_singleton, haudits, append_nil]
      exact h.audited
    · intro call hmem state hstate
      rcases mem_append.1 hmem with hmem | hmem
      · exact h.publish call hmem state hstate
      · rw [mem_singleton.1 hmem] at hstate
        exact absurd hstate (hpublish state)
    · intro hlt
      obtain ⟨call, hmem, hcall⟩ := h.newest hlt
      exact ⟨call, mem_append_left _ hmem, hcall⟩
  | advance i =>
    simp only [SessionControl.step] at hstep
    split at hstep
    · next instr rest hcall =>
      cases hstep
      exact h.advance hcall htimely
    · cases hstep
  | leave i =>
    simp only [SessionControl.step] at hstep
    split at hstep
    · next rest hcall =>
      cases hstep
      have htidy : Tidy (.pause :: rest) := h.tidy _ (mem_of_getElem? hcall)
      have hnone : ∀ state, Instr.publish state ∉ .pause :: rest := by
        intro state hmem
        rcases mem_cons.1 hmem with heq | hmem
        · cases heq
        · exact htidy.1 state hmem
      have haudits : [] ++ audits [] = audits (.pause :: rest) := (htimely _ hcall).symm
      have hinv := h.of_kept [] hcall haudits Clean.nil.tidy Clean.nil.publish hnone s.closed
      simpa [go] using hinv
    · cases hstep

def Fresh (s : SessionControl) : Prop := ∃ leaseTtl now, s = new leaseTtl now

theorem inv_of_reachable (h : Reachable step Timely Fresh s) : s.Inv := by
  apply h.invariant
  · rintro s ⟨leaseTtl, now, rfl⟩
    exact inv_new leaseTtl now
  · exact fun s a s' hs htimely hstep => hs.step htimely hstep

theorem published_run (hne : ∀ state, instr ≠ .publish state) :
    (s.run i rest instr).published = s.published := by
  have htransitioned : ∀ result, (s.transitioned i rest result).published = s.published := by
    rintro ⟨control, t⟩
    cases t <;> rfl
  have hanswered : ∀ result, (s.answered i rest result).published = s.published := by
    rintro ⟨control, t⟩
    cases t <;> rfl
  cases instr with
  | publish state => exact absurd rfl (hne state)
  | expireAndAudit | releaseIf holder => exact htransitioned _
  | acquire principal takeFromAgent force expected | release principal expected
  | transfer principal target expected => exact hanswered _
  | admitCommand principal expected | close =>
    rw [run]
    split <;> rfl
  | _ => rfl

theorem published_step {a : ControlAction} (htimely : s.Timely a) (hstep : s.step a = some s') :
    s.published.generation ≤ s'.published.generation := by
  cases a with
  | tick now | call op =>
    cases hstep
    exact le_refl _
  | advance i =>
    simp only [step] at hstep
    split at hstep
    · next instr rest hcall =>
      cases hstep
      by_cases hpublish : ∃ state, instr = .publish state
      · obtain ⟨state, rfl⟩ := hpublish
        apply htimely.2.2
        rw [next?, hcall]
        rfl
      · rw [published_run fun state heq => hpublish ⟨state, heq⟩]
    · cases hstep
  | leave i =>
    simp only [step] at hstep
    split at hstep <;> cases hstep
    exact le_refl _

/-- How many steps an instruction leads to, at most. -/
def steps : Instr → ℕ
  | .autoAcquire _ | .close => 7
  | .expireAndAudit | .acquire .. | .release .. | .transfer .. | .releaseIf _ => 4
  | .controlState | .closePermitted .. | .admitCommand .. => 2
  | .ensureOpen | .markClosed | .publish _ | .audit _ | .pause => 1

def totalSteps (call : List Instr) : ℕ := (call.map steps).sum

theorem totalSteps_cons : totalSteps (instr :: rest) = steps instr + totalSteps rest := by
  simp [totalSteps]

theorem totalSteps_lazily : totalSteps (s.lazily call) ≤ 1 + totalSteps call := by
  unfold lazily
  split
  · rw [totalSteps_cons, steps]
  · omega

theorem totalSteps_run (s : SessionControl) (i : ℕ) (instr : Instr) (rest : List Instr) :
    ∃ next, (s.run i rest instr).calls = s.calls.set i next ∧
    totalSteps next < totalSteps (instr :: rest) := by
  have htransitioned : ∀ result, ∃ next, (s.transitioned i rest result).calls = s.calls.set i next ∧
      totalSteps next < 4 + totalSteps rest := by
    rintro ⟨control, t⟩
    cases t with
    | none => exact ⟨rest, rfl, by omega⟩
    | some t =>
      refine ⟨_, rfl, ?_⟩
      rw [totalSteps_cons, totalSteps_cons, totalSteps_cons]
      simp only [steps]
      omega
  have hanswered : ∀ result, ∃ next, (s.answered i rest result).calls = s.calls.set i next ∧
      totalSteps next < 4 + totalSteps rest := by
    rintro ⟨control, t⟩
    cases t with
    | error e => exact ⟨[], rfl, by simp [totalSteps]⟩
    | ok t =>
      refine ⟨_, rfl, ?_⟩
      rw [totalSteps_cons, totalSteps_cons, totalSteps_cons]
      simp only [steps]
      omega
  rw [totalSteps_cons]
  cases instr with
  | expireAndAudit | releaseIf holder => exact htransitioned _
  | acquire principal takeFromAgent force expected | release principal expected
  | transfer principal target expected => exact hanswered _
  | ensureOpen =>
    refine ⟨_, rfl, ?_⟩
    split
    · simp [totalSteps, steps]
    · simp [steps]
  | controlState =>
    refine ⟨_, rfl, lt_of_le_of_lt totalSteps_lazily ?_⟩
    simp only [steps]
    omega
  | autoAcquire principal =>
    refine ⟨_, rfl, lt_of_le_of_lt totalSteps_lazily ?_⟩
    split
    · rw [totalSteps_cons, totalSteps_cons]
      simp only [steps]
      omega
    · simp only [steps]
      omega
  | closePermitted principal force =>
    refine ⟨_, rfl, lt_of_le_of_lt totalSteps_lazily ?_⟩
    split
    · simp only [steps]
      omega
    · simp only [totalSteps, steps, map_nil, sum_nil]
      omega
  | admitCommand principal expected =>
    rw [run]
    split
    · exact ⟨_, rfl, by simp [totalSteps, steps]⟩
    · exact ⟨[], rfl, by simp [totalSteps, steps]⟩
  | close =>
    rw [run]
    split
    all_goals exact ⟨_, rfl, by simp [totalSteps, steps]; omega⟩
  | _ => exact ⟨rest, rfl, by simp [steps]⟩

/-- What holds in a state, and of what may follow. -/
structure Complete (s : SessionControl) : Prop where
  increments : s.increments.map Transition.generation = range' 1 s.control.generation
  /-- each is audited once, and nothing else is -/
  audited : s.Quiet → s.audited.Perm s.increments
  published : s.Quiet → s.published.controller = s.control.controller ∧
    s.published.generation = s.control.generation
  forward : ∀ s', Runs step Timely s s' → s.published.generation ≤ s'.published.generation
  /-- an operation in flight can go on, and comes to its end -/
  ends : ∀ i instr rest, s.calls[i]? = some (instr :: rest) → ∃ s' next,
    step s (.advance i) = some s' ∧ s'.calls = s.calls.set i next ∧
      totalSteps next < totalSteps (instr :: rest)

/-- **Control is audited and published completely** in the runs whose steps meet the condition. -/
theorem control_complete (s : SessionControl) (h : Reachable step Timely Fresh s) : s.Complete := by
  have hinv := inv_of_reachable h
  refine ⟨hinv.numbers, ?_, ?_, ?_, ?_⟩
  · intro hquiet
    have hnil : s.calls.flatMap audits = [] := by
      rw [flatMap_eq_nil_iff]
      intro call hmem
      rw [hquiet call hmem]
      rfl
    have haudited := hinv.audited
    rwa [hnil, append_nil] at haudited
  · intro hquiet
    have heq : s.published.generation = s.control.generation := by
      apply le_antisymm hinv.published_le
      rw [← not_lt]
      intro hlt
      obtain ⟨call, hmem, state, hstate, -⟩ := hinv.newest hlt
      rw [hquiet call hmem] at hstate
      cases hstate
    exact ⟨hinv.published_eq heq, heq⟩
  · intro s' hruns
    apply hruns.preserves (P := fun s' => s.published.generation ≤ s'.published.generation)
    · exact fun s₁ a s₂ hle htimely hstep => le_trans hle (published_step htimely hstep)
    · exact le_refl _
  · intro i instr rest hcall
    obtain ⟨next, hnext, hlt⟩ := totalSteps_run s i instr rest
    refine ⟨s.run i rest instr, next, ?_, hnext, hlt⟩
    rw [step, hcall]

def exampleControl : List ControlAction :=
  [.call (.acquireControl (.agent 1) false false none), .advance 0, .advance 0, .advance 0,
    .advance 0, .advance 0, .advance 0, .advance 0, .tick 5,
    .call (.releaseControl (.agent 1) (some 1)), .advance 1, .advance 1, .advance 1, .advance 1,
    .advance 1, .advance 1, .advance 1]

/-- Both transitions are audited. -/
theorem acquired_and_released : ∃ s, exec step Timely (new 60 0) exampleControl = some s ∧
    s.Quiet ∧ s.audited = [⟨.agent 1, 1, .acquire⟩, ⟨.none, 2, .release⟩] ∧ s.Complete := by
  have hexec : ∃ s, exec step Timely (new 60 0) exampleControl = some s ∧ s.Quiet ∧
      s.audited = [⟨.agent 1, 1, .acquire⟩, ⟨.none, 2, .release⟩] := by
    refine ⟨_, rfl, ?_, rfl⟩
    decide
  obtain ⟨s, hs, hquiet, haudited⟩ := hexec
  exact ⟨s, hs, hquiet, haudited, control_complete s (reachable_of_exec ⟨60, 0, rfl⟩ hs)⟩

/-- The lease of an agent lapses after `expire_and_audit`, within an admission: no `publish`, and
no `audit`. -/
def lateLapse : List ControlAction :=
  [.call (.acquireControl (.agent 1) false false none), .advance 0, .advance 0, .advance 0,
    .advance 0, .advance 0, .advance 0, .advance 0, .tick 59,
    .call (.executeAction (.agent 1) none false), .advance 1, .advance 1, .advance 1, .tick 60,
    .advance 1]

/-- A human takes over before the state of the agent's acquisition is published. -/
def overtaken : List ControlAction :=
  [.call (.acquireControl (.agent 1) false false none), .advance 0, .advance 0, .advance 0,
    .call (.acquireControl (.human "u" 2) true false none), .advance 1, .advance 1, .advance 1,
    .advance 1, .advance 1, .advance 1, .advance 1, .advance 0, .advance 0, .advance 0, .advance 0]

def renewal : List ControlAction :=
  [.call (.acquireControl (.agent 1) false false none), .advance 0, .advance 0, .advance 0,
    .advance 0, .advance 0, .advance 0, .advance 0,
    .call (.acquireControl (.agent 1) false false none), .advance 1, .advance 1, .advance 1,
    .advance 1, .advance 1, .advance 1, .advance 1]

/-- With nothing in flight: an expiry that is neither audited nor published; a published generation
that went back from 2 to 1; and a transition that was audited twice. -/
theorem incomplete_control :
    (exec step anyStep (new 60 0) lateLapse).map (fun s => (decide s.Quiet,
      s.control.controller, s.control.generation, s.increments, s.audited)) =
        some (true, .none, 2, [⟨.agent 1, 1, .acquire⟩, ⟨.none, 2, .expired⟩],
          [⟨.agent 1, 1, .acquire⟩]) ∧
    (exec step anyStep (new 60 0) lateLapse).map (fun s => (s.published.controller,
      s.published.generation)) = some (.agent 1, 1) ∧
    (exec step anyStep (new 60 0) (overtaken.take 10)).map (fun s => s.published.generation) =
      some 2 ∧
    (exec step anyStep (new 60 0) overtaken).map (fun s => (decide s.Quiet, s.control.controller,
      s.control.generation, s.published.controller, s.published.generation)) =
        some (true, .human "u" 2, 2, .agent 1, 1) ∧
    (exec step anyStep (new 60 0) renewal).map (fun s => (decide s.Quiet, s.increments,
      s.audited)) = some (true, [⟨.agent 1, 1, .acquire⟩],
        [⟨.agent 1, 1, .acquire⟩, ⟨.agent 1, 1, .acquire⟩]) := by
  refine ⟨?_, ?_, ?_, ?_, ?_⟩ <;> decide +kernel

end SessionControl

end VibeKanban.Browser

import VibeKanban.Browser.Arbiter
import VibeKanban.Lib.Json
import VibeKanban.Lib.Runs

/-!
# A browser session (`services/browser/session.rs`)

Commands are reserved by their id, admitted under the control lease, queued at the command gate,
checked again and performed by the driver. One step is one critical section, or what happens at an
await point, where a request may be dropped.

* `control_safe`: a command is performed for the controller, up to 2^64 transitions.
-/

namespace VibeKanban.Browser

open Lib Cluster ControlArbiter Option

/-! ## The commands that were executed -/

def idempotencyCapacity : ℕ := 256

structure BrowserActionResult where
  commandId : Uuid
  generation : ℕ
  value : Option JsonValue
  currentUrl : Option String

abbrev IdemOutcome := Except BrowserSessionError BrowserActionResult

/-- A request is known by its position among the requests of the session; so is the channel on
    which the owner of a command announces the outcome. -/
inductive IdemEntry where
  | inFlight (owner : ℕ)
  | done (outcome : IdemOutcome)

/-- `IdempotencyCache`; `order` has the oldest command first. -/
structure IdempotencyCache where
  entries : Uuid → Option IdemEntry
  order : List Uuid

namespace IdempotencyCache

def new : IdempotencyCache := ⟨fun _ => none, []⟩

def setEntry (cache : IdempotencyCache) (id : Uuid) (entry : Option IdemEntry) : IdempotencyCache :=
  { cache with entries := Function.update cache.entries id entry }

/-- The loop of `record_done` (lines 60-64). -/
def evict (entries : Uuid → Option IdemEntry) : List Uuid → IdempotencyCache
  | [] => ⟨entries, []⟩
  | id :: order =>
    if idempotencyCapacity < (id :: order).length then evict (Function.update entries id none) order
    else ⟨entries, id :: order⟩

/-- `record_done` (lines 55-65). -/
def recordDone (cache : IdempotencyCache) (id : Uuid) (outcome : IdemOutcome) : IdempotencyCache :=
  evict (Function.update cache.entries id (some (.done outcome)))
    (if id ∈ cache.order then cache.order else cache.order ++ [id])

end IdempotencyCache

/-! ## Requests -/

inductive DriverError where
  | unavailable (message : String)
  | gone
  | timeout
  | protocol (message : String)

/-- `map_driver_error` (lines 524-531). -/
def mapDriverError : DriverError → BrowserSessionError
  | .unavailable message => .browserUnavailable message
  | .timeout => .timeout
  | .gone => .sessionClosed
  | .protocol message => .driver message

/-- The driver has got the command, or may have (lines 461-464). -/
def executed : BrowserSessionError → Bool
  | .driver _ | .timeout => true
  | _ => false

/-- Where a call of `execute` is. -/
inductive ExecutePos where
  | called
  | opened
  | waiting (owner : ℕ)
  | owning
  /-- it is admitted at a generation and waits for the gate -/
  | queued (generation : ℕ)
  | gated (generation : ℕ)
  | rechecked (generation : ℕ)
  | ready (generation : ℕ)
  | performing (generation : ℕ)
  | paging (generation : ℕ) (value : Option JsonValue)
  /-- `finish` is about to run -/
  | finishing (executed : Bool) (outcome : IdemOutcome)
  | finished (outcome : IdemOutcome)
  | returned (outcome : IdemOutcome)
  /-- it was dropped, and its guard has not run yet -/
  | dropping
  | dropped

def ExecutePos.holdsGate : ExecutePos → Bool
  | .gated _ | .rechecked _ | .ready _ | .performing _ | .paging _ _ => true
  | _ => false

def ExecutePos.hasHandle : ExecutePos → Bool
  | .ready _ | .performing _ | .paging _ _ => true
  | _ => false

structure Request where
  principal : ControlPrincipal
  commandId : Uuid
  expectedGeneration : Option ℕ
  pos : ExecutePos

/-- Where a call of `close` is. -/
inductive ClosePos where
  | called
  | released
  | gated
  | taken
  | finished
  | dropped

def ClosePos.holdsGate : ClosePos → Bool
  | .gated | .taken => true
  | _ => false

/-- Who holds the command gate. -/
inductive GateHolder where
  | request (i : ℕ)
  | closer (j : ℕ)
  deriving DecidableEq

/-- What happens to a command: the driver starts to perform it, answers that it has not reached the
    browser, or the outcome is recorded. -/
inductive CommandEvent where
  | started (id : Uuid)
  | unreached (id : Uuid)
  | recorded (id : Uuid)
  deriving DecidableEq

/-- `SessionRuntime`, with the calls of `execute` and `close` so far and a clock. `closed` is
    the status of the live state, `handle` says that the handle is there. `events` is not in
    the source. -/
structure SessionRuntime where
  control : ControlArbiter
  handle : Bool
  gate : Option GateHolder
  idempotency : IdempotencyCache
  closed : Bool
  clock : Time
  requests : List Request
  closers : List ClosePos
  events : List CommandEvent

inductive RequestAction where
  | ensureOpen
  | reserve
  | wake
  | admission
  | lockGate
  | recheck
  | currentHandle
  | perform
  | answer (result : Except DriverError (Option JsonValue))
  /-- `DRIVER_OP_TIMEOUT` is over -/
  | timeout
  | page (url : Option String)
  | finish
  | leave
  /-- the future of the request is dropped -/
  | drop
  /-- `IdemOwnerGuard::drop` -/
  | dropGuard

inductive CloseAction where
  | release
  | lockGate
  | takeHandle
  | finish
  | drop

inductive SessionAction where
  | tick (now : Time)
  | control (op : ControlOp)
  | execute (principal : ControlPrincipal) (commandId : Uuid) (expected : Option ℕ)
  | request (i : ℕ) (action : RequestAction)
  | close
  | closer (j : ℕ) (action : CloseAction)

namespace SessionRuntime

/-- `new` (lines 116-163). -/
def new (leaseTtl now : Time) : SessionRuntime where
  control := ControlArbiter.new leaseTtl
  handle := true
  gate := none
  idempotency := IdempotencyCache.new
  closed := false
  clock := now
  requests := []
  closers := []
  events := []

/-- Moves the request `i`. -/
def moveRequest (s : SessionRuntime) (i : ℕ) (r : Request) (pos : ExecutePos) : SessionRuntime :=
  { s with requests := s.requests.set i { r with pos := pos } }

/-- Gives the gate back, if it is held by `holder`. -/
def openGate (s : SessionRuntime) (holder : GateHolder) : SessionRuntime :=
  { s with gate := if s.gate = some holder then none else s.gate }

def setCache (s : SessionRuntime) (cache : IdempotencyCache) : SessionRuntime :=
  { s with idempotency := cache }

def note (s : SessionRuntime) (event : CommandEvent) : SessionRuntime :=
  { s with events := s.events ++ [event] }

/-- The reservation of a command (lines 338-349). -/
def reserve (s : SessionRuntime) (i : ℕ) (r : Request) : SessionRuntime :=
  match s.idempotency.entries r.commandId with
  | some (.done outcome) => s.moveRequest i r (.returned outcome)
  | some (.inFlight owner) => s.moveRequest i r (.waiting owner)
  | none =>
    (s.setCache (s.idempotency.setEntry r.commandId (some (.inFlight i)))).moveRequest i r .owning

/-- What a waiting request gets from the owner: the outcome, or a timeout when the owner is
    gone (lines 354-364). -/
def outcomeOf (s : SessionRuntime) (owner : ℕ) : Option IdemOutcome :=
  match (s.requests[owner]?).map Request.pos with
  | some (.returned outcome) => some outcome
  | some .dropped => some (.error .timeout)
  | _ => none

/-- `finish` (lines 374-384). -/
def finish (s : SessionRuntime) (i : ℕ) (r : Request) (isExecuted : Bool) (outcome : IdemOutcome) :
    SessionRuntime :=
  if isExecuted then
    ((s.setCache (s.idempotency.recordDone r.commandId outcome)).note
      (.recorded r.commandId)).moveRequest i r (.finished outcome)
  else (s.setCache (s.idempotency.setEntry r.commandId none)).moveRequest i r (.finished outcome)

/-- The end of a `perform` with an error. -/
def failed (s : SessionRuntime) (i : ℕ) (r : Request) (e : BrowserSessionError) : SessionRuntime :=
  let s := if executed e then s else s.note (.unreached r.commandId)
  s.moveRequest i r (.finishing (executed e) (.error e))

/-- One step of `execute` (lines 326-468), or of dropping it. -/
def requestStep (s : SessionRuntime) (i : ℕ) (r : Request) :
    ExecutePos → RequestAction → Option SessionRuntime
  | .called, .ensureOpen =>
    some (s.moveRequest i r (if s.closed then .returned (.error .sessionClosed) else .opened))
  | .opened, .reserve => some (s.reserve i r)
  | .waiting owner, .wake =>
    (s.outcomeOf owner).map fun outcome => s.moveRequest i r (.returned outcome)
  | .owning, .admission =>
    let (control, admitted) := s.control.admitCommand r.principal s.clock r.expectedGeneration
    let s := { s with control := control }
    match admitted with
    | .ok generation => some (s.moveRequest i r (.queued generation))
    | .error e => some (s.moveRequest i r (.finishing false (.error e)))
  | .queued generation, .lockGate =>
    if s.gate = none then
      some ({ s with gate := some (.request i) }.moveRequest i r (.gated generation))
    else none
  | .gated generation, .recheck =>
    match s.control.recheckGeneration generation with
    | .ok () => some (s.moveRequest i r (.rechecked generation))
    | .error e => some (s.moveRequest i r (.finishing false (.error e)))
  | .rechecked generation, .currentHandle =>
    some (s.moveRequest i r (if s.handle then .ready generation
      else .finishing false (.error .sessionClosed)))
  | .ready generation, .perform =>
    some ((s.note (.started r.commandId)).moveRequest i r (.performing generation))
  | .performing generation, .answer (.ok value) =>
    some (s.moveRequest i r (.paging generation value))
  | .performing _, .answer (.error e) => some (s.failed i r (mapDriverError e))
  | .performing _, .timeout => some (s.failed i r .timeout)
  | .paging generation value, .page url =>
    some (s.moveRequest i r (.finishing true (.ok ⟨r.commandId, generation, value, url⟩)))
  | .finishing isExecuted outcome, .finish => some (s.finish i r isExecuted outcome)
  | .finished outcome, .leave =>
    some ((s.openGate (.request i)).moveRequest i r (.returned outcome))
  | .waiting _, .drop => some (s.moveRequest i r .dropped)
  | .queued _, .drop | .performing _, .drop | .paging _ _, .drop =>
    some ((s.openGate (.request i)).moveRequest i r .dropping)
  | .dropping, .dropGuard =>
    match s.idempotency.entries r.commandId with
    | some (.inFlight _) =>
      some ((s.setCache (s.idempotency.setEntry r.commandId none)).moveRequest i r .dropped)
    | _ => some (s.moveRequest i r .dropped)
  | _, _ => none

/-- One step of `close` (lines 502-522), or of dropping it. -/
def closeStep (s : SessionRuntime) (j : ℕ) : ClosePos → CloseAction → Option SessionRuntime
  | .called, .release =>
    some { s with
      control := s.control.apply s.clock (.releaseIf (fun _ => true) .closed)
      closers := s.closers.set j .released }
  | .released, .lockGate =>
    if s.gate = none then
      some { s with gate := some (.closer j), closers := s.closers.set j .gated }
    else none
  | .gated, .takeHandle => some { s with handle := false, closers := s.closers.set j .taken }
  | .taken, .finish =>
    some { (s.openGate (.closer j)) with closed := true, closers := s.closers.set j .finished }
  | .released, .drop => some { s with closers := s.closers.set j .dropped }
  | .taken, .drop => some { (s.openGate (.closer j)) with closers := s.closers.set j .dropped }
  | _, _ => none

def step (s : SessionRuntime) : SessionAction → Option SessionRuntime
  | .tick now => if s.clock ≤ now then some { s with clock := now } else none
  | .control op => some { s with control := s.control.apply s.clock op }
  | .execute principal commandId expected =>
    some { s with requests := s.requests ++ [⟨principal, commandId, expected, .called⟩] }
  | .request i action => (s.requests[i]?).bind fun r => s.requestStep i r r.pos action
  | .close => some { s with closers := s.closers ++ [.called] }
  | .closer j action => (s.closers[j]?).bind fun pos => s.closeStep j pos action

/-! ## The control lease -/

variable {s s' : SessionRuntime} {i : ℕ} {r : Request}

theorem reserve_control : (s.reserve i r).control = s.control := by
  unfold reserve
  split <;> rfl

theorem finish_control {isExecuted : Bool} {outcome : IdemOutcome} :
    (s.finish i r isExecuted outcome).control = s.control := by
  unfold finish
  split_ifs <;> rfl

theorem failed_control {e : BrowserSessionError} : (s.failed i r e).control = s.control := by
  unfold failed
  split_ifs <;> rfl

variable {pos : ExecutePos} {action : RequestAction}

theorem requestStep_control (h : s.requestStep i r pos action = some s') :
    s'.control = s.control ∨ ∃ principal expected,
      s'.control = (s.control.admitCommand principal s.clock expected).1 := by
  unfold requestStep at h
  split at h
  case h_1 => cases h; exact .inl rfl
  case h_2 => cases h; exact .inl reserve_control
  case h_3 =>
    obtain ⟨outcome, -, rfl⟩ := map_eq_some_iff.1 h
    exact .inl rfl
  case h_4 =>
    dsimp only at h
    split at h <;> cases h <;> exact .inr ⟨_, _, rfl⟩
  case h_5 | h_6 | h_19 => split at h <;> cases h <;> exact .inl rfl
  case h_10 | h_11 => cases h; exact .inl failed_control
  case h_13 => cases h; exact .inl finish_control
  case h_20 => cases h
  all_goals
    cases h
    exact .inl rfl

variable {j : ℕ}

theorem closeStep_control {pos : ClosePos} {action : CloseAction}
    (h : s.closeStep j pos action = some s') : s'.control = s.control ∨
      s'.control = s.control.apply s.clock (.releaseIf (fun _ => true) .closed) := by
  unfold closeStep at h
  split at h
  case h_1 => cases h; exact .inr rfl
  case h_2 =>
    split_ifs at h
    cases h
    exact .inl rfl
  case h_7 => cases h
  all_goals
    cases h
    exact .inl rfl

variable {a : SessionAction}

theorem step_control (h : s.step a = some s') : s'.control = s.control ∨
    (∃ op, s'.control = s.control.apply s.clock op ∧
      ∀ principal target expected, op = .transfer principal target expected → a = .control op) ∨
    ∃ principal expected, s'.control = (s.control.admitCommand principal s.clock expected).1 := by
  cases a with
  | tick now =>
    simp only [step] at h
    split_ifs at h
    cases h
    exact .inl rfl
  | control op =>
    cases h
    exact .inr (.inl ⟨op, rfl, fun _ _ _ _ => rfl⟩)
  | execute principal commandId expected | close => cases h; exact .inl rfl
  | request i action =>
    obtain ⟨r, -, hr⟩ := bind_eq_some_iff.1 h
    rcases requestStep_control hr with heq | heq
    · exact .inl heq
    · exact .inr (.inr heq)
  | closer j action =>
    obtain ⟨pos, -, hpos⟩ := bind_eq_some_iff.1 h
    rcases closeStep_control hpos with heq | heq
    · exact .inl heq
    · exact .inr (.inl ⟨_, heq, nofun⟩)

theorem step_follows (h : s.step a = some s') : s.control.Follows s'.control := by
  rcases step_control h with heq | ⟨op, heq, -⟩ | ⟨principal, expected, heq⟩ <;> rw [heq]
  · exact .refl
  · exact apply_follows op
  · exact admitCommand_follows

theorem control_follows (h : Runs step anyStep s s') : s.control.Follows s'.control :=
  h.preserves (P := fun s' => s.control.Follows s'.control)
    (fun _ _ _ hfollows _ hstep => hfollows.trans (step_follows hstep)) .refl

def Fresh (s : SessionRuntime) : Prop := ∃ leaseTtl now, s = new leaseTtl now

theorem numbered_of_reachable (h : Reachable step anyStep Fresh s) : s.control.Numbered := by
  obtain ⟨_, ⟨leaseTtl, now, rfl⟩, hruns⟩ := h
  exact (control_follows hruns).numbered rfl

/-! ## The gate and the handle -/

/-- Who is past the gate holds it, and the handle is there for who has it. -/
structure Gated (s : SessionRuntime) : Prop where
  requests : ∀ (k : ℕ) (r : Request), s.requests[k]? = some r → r.pos.holdsGate = true →
    s.gate = some (.request k)
  handle : ∀ (k : ℕ) (r : Request), s.requests[k]? = some r → r.pos.hasHandle = true →
    s.handle = true
  closers : ∀ (j : ℕ) (pos : ClosePos), s.closers[j]? = some pos → pos.holdsGate = true →
    s.gate = some (.closer j)

theorem gated_new (leaseTtl now : Time) : (new leaseTtl now).Gated where
  requests _ _ hr := nomatch hr
  handle _ _ hr := nomatch hr
  closers _ _ hpos := nomatch hpos

theorem Gated.of_eq (h : s.Gated) (hrequests : s'.requests = s.requests)
    (hgate : s'.gate = s.gate) (hhandle : s'.handle = s.handle)
    (hclosers : s'.closers = s.closers) : s'.Gated := by
  obtain ⟨h1, h2, h3⟩ := h
  constructor
  · rw [hrequests, hgate]
    exact h1
  · rw [hrequests, hhandle]
    exact h2
  · rw [hclosers, hgate]
    exact h3

theorem Gated.moveRequest (h : s.Gated) (i : ℕ) (r : Request)
    (hgate : pos.holdsGate = true → s.gate = some (.request i))
    (hhandle : pos.hasHandle = true → s.handle = true) : (s.moveRequest i r pos).Gated where
  requests k r' hr' hpos := by
    rcases getElem?_set_cases hr' with ⟨rfl, rfl⟩ | ⟨-, hold⟩
    · exact hgate hpos
    · exact h.requests k r' hold hpos
  handle k r' hr' hpos := by
    rcases getElem?_set_cases hr' with ⟨rfl, rfl⟩ | ⟨-, hold⟩
    · exact hhandle hpos
    · exact h.handle k r' hold hpos
  closers := h.closers

theorem Gated.enter (h : s.Gated) (hfree : s.gate = none) (i : ℕ) (r : Request) (g : ℕ) :
    ({ s with gate := some (.request i) }.moveRequest i r (.gated g)).Gated where
  requests k r' hr' hpos := by
    rcases getElem?_set_cases hr' with ⟨rfl, rfl⟩ | ⟨-, hold⟩
    · rfl
    · have hgate := h.requests k r' hold hpos
      rw [hfree] at hgate
      cases hgate
  handle k r' hr' hpos := by
    rcases getElem?_set_cases hr' with ⟨rfl, rfl⟩ | ⟨-, hold⟩
    · cases hpos
    · exact h.handle k r' hold hpos
  closers j pos hpos hholds := by
    have hgate := h.closers j pos hpos hholds
    rw [hfree] at hgate
    cases hgate

theorem gate_openGate {holder holder' : GateHolder} (h : s.gate = some holder')
    (hne : holder' ≠ holder) : (s.openGate holder).gate = some holder' := by
  show (if s.gate = some holder then none else s.gate) = some holder'
  rw [if_neg]
  · exact h
  · intro heq
    rw [h] at heq
    exact hne (some.inj heq)

section

variable (h : s.Gated)

include h

theorem Gated.leave (i : ℕ) (r : Request)
    (hgate : pos.holdsGate = false) (hhandle : pos.hasHandle = false) :
    ((s.openGate (.request i)).moveRequest i r pos).Gated where
  requests k r' hr' hpos := by
    rcases getElem?_set_cases hr' with ⟨rfl, rfl⟩ | ⟨hne, hold⟩
    · rw [show ({ r with pos := pos } : Request).pos = pos from rfl, hgate] at hpos
      cases hpos
    · exact gate_openGate (h.requests k r' hold hpos) fun heq => hne (GateHolder.request.inj heq)
  handle k r' hr' hpos := by
    rcases getElem?_set_cases hr' with ⟨rfl, rfl⟩ | ⟨-, hold⟩
    · rw [show ({ r with pos := pos } : Request).pos = pos from rfl, hhandle] at hpos
      cases hpos
    · exact h.handle k r' hold hpos
  closers j pos' hpos' hholds := gate_openGate (h.closers j pos' hpos' hholds) (by simp)

theorem Gated.outside (i : ℕ) (r : Request)
    (hgate : pos.holdsGate = false) (hhandle : pos.hasHandle = false) :
    (s.moveRequest i r pos).Gated := by
  apply h.moveRequest i r
  · intro hpos
    rw [hgate] at hpos
    cases hpos
  · intro hpos
    rw [hhandle] at hpos
    cases hpos

theorem Gated.setCache (cache : IdempotencyCache) : (s.setCache cache).Gated :=
  h.of_eq rfl rfl rfl rfl

theorem Gated.note (event : CommandEvent) : (s.note event).Gated := h.of_eq rfl rfl rfl rfl

theorem Gated.failed (i : ℕ) (r : Request) (e : BrowserSessionError) : (s.failed i r e).Gated := by
  unfold SessionRuntime.failed
  split_ifs
  · exact h.outside i r rfl rfl
  · exact (h.note _).outside i r rfl rfl

theorem Gated.requestStep (hr : s.requests[i]? = some r)
    (hstep : s.requestStep i r r.pos action = some s') : s'.Gated := by
  have hgate := h.requests i r hr
  have hhandle := h.handle i r hr
  generalize r.pos = pos at hstep hgate hhandle
  unfold SessionRuntime.requestStep at hstep
  split at hstep
  case h_1 =>
    cases hstep
    apply h.outside i r <;> split_ifs <;> rfl
  case h_2 =>
    cases hstep
    unfold SessionRuntime.reserve
    split
    · exact h.outside i r rfl rfl
    · exact h.outside i r rfl rfl
    · exact (h.setCache _).outside i r rfl rfl
  case h_3 =>
    obtain ⟨outcome, -, rfl⟩ := map_eq_some_iff.1 hstep
    exact h.outside i r rfl rfl
  case h_4 =>
    dsimp only at hstep
    split at hstep <;> cases hstep <;> apply Gated.outside _ i r rfl rfl <;>
      exact h.of_eq rfl rfl rfl rfl
  case h_5 =>
    split_ifs at hstep with hfree
    cases hstep
    exact h.enter hfree i r _
  case h_6 =>
    split at hstep <;> cases hstep
    · exact h.moveRequest i r (fun _ => hgate rfl) nofun
    · exact h.outside i r rfl rfl
  case h_7 =>
    cases hstep
    apply h.moveRequest i r
    · exact fun _ => hgate rfl
    · split_ifs with hhave
      · exact fun _ => hhave
      · exact nofun
  case h_8 =>
    cases hstep
    exact (h.note _).moveRequest i r (fun _ => hgate rfl) fun _ => hhandle rfl
  case h_9 =>
    cases hstep
    exact h.moveRequest i r (fun _ => hgate rfl) fun _ => hhandle rfl
  case h_10 | h_11 =>
    cases hstep
    exact h.failed i r _
  case h_12 | h_15 =>
    cases hstep
    exact h.outside i r rfl rfl
  case h_13 =>
    cases hstep
    unfold SessionRuntime.finish
    split_ifs
    · exact ((h.setCache _).note _).outside i r rfl rfl
    · exact (h.setCache _).outside i r rfl rfl
  case h_19 =>
    split at hstep <;> cases hstep
    · exact (h.setCache _).outside i r rfl rfl
    · exact h.outside i r rfl rfl
  case h_20 => cases hstep
  all_goals
    cases hstep
    exact h.leave i r rfl rfl

theorem Gated.setCloser (j : ℕ) (pos : ClosePos)
    (hgate : pos.holdsGate = true → s.gate = some (.closer j)) :
    Gated { s with closers := s.closers.set j pos } where
  requests := h.requests
  handle := h.handle
  closers k pos' hpos' hholds := by
    rcases getElem?_set_cases hpos' with ⟨rfl, rfl⟩ | ⟨-, hold⟩
    · exact hgate hholds
    · exact h.closers k pos' hold hholds

theorem Gated.leaveCloser (j : ℕ) (pos : ClosePos) (hgate : pos.holdsGate = false) :
    Gated { s.openGate (.closer j) with closers := s.closers.set j pos } where
  requests k r hr hpos := gate_openGate (h.requests k r hr hpos) (by simp)
  handle := h.handle
  closers k pos' hpos' hholds := by
    rcases getElem?_set_cases hpos' with ⟨rfl, rfl⟩ | ⟨hne, hold⟩
    · rw [hgate] at hholds
      cases hholds
    · exact gate_openGate (h.closers k pos' hold hholds) fun heq => hne (GateHolder.closer.inj heq)

theorem Gated.closeStep {pos : ClosePos} (hpos : s.closers[j]? = some pos)
    {action : CloseAction} (hstep : s.closeStep j pos action = some s') : s'.Gated := by
  have hholds := h.closers j pos hpos
  unfold SessionRuntime.closeStep at hstep
  split at hstep
  case h_1 =>
    cases hstep
    exact (h.setCloser j .released nofun).of_eq rfl rfl rfl rfl
  case h_2 =>
    split_ifs at hstep with hfree
    cases hstep
    refine ⟨?_, h.handle, ?_⟩
    · intro k r hr hpos
      have hgate := h.requests k r hr hpos
      rw [hfree] at hgate
      cases hgate
    · intro k pos' hpos' hholds'
      rcases getElem?_set_cases hpos' with ⟨rfl, -⟩ | ⟨-, hold⟩
      · rfl
      · have hgate := h.closers k pos' hold hholds'
        rw [hfree] at hgate
        cases hgate
  case h_3 =>
    cases hstep
    -- a request with the handle would hold the gate
    have hnone : ∀ (k : ℕ) (r : Request), s.requests[k]? = some r →
        r.pos.hasHandle = true → False := by
      intro k r hr hhandle
      have hgate : r.pos.holdsGate = true := by
        cases hposr : r.pos <;> rw [hposr] at hhandle <;> first | rfl | cases hhandle
      have hheld := h.requests k r hr hgate
      rw [hholds rfl] at hheld
      cases hheld
    have hset := h.setCloser j .taken fun _ => hholds rfl
    exact ⟨hset.requests, fun k r hr hhandle => (hnone k r hr hhandle).elim, hset.closers⟩
  case h_4 =>
    cases hstep
    exact (h.leaveCloser j .finished rfl).of_eq rfl rfl rfl rfl
  case h_5 =>
    cases hstep
    exact h.setCloser j .dropped nofun
  case h_6 =>
    cases hstep
    exact h.leaveCloser j .dropped rfl
  case h_7 => cases hstep

theorem Gated.step (hstep : s.step a = some s') : s'.Gated := by
  cases a with
  | tick now =>
    simp only [SessionRuntime.step] at hstep
    split_ifs at hstep
    cases hstep
    exact h.of_eq rfl rfl rfl rfl
  | control op =>
    cases hstep
    exact h.of_eq rfl rfl rfl rfl
  | execute principal commandId expected =>
    cases hstep
    refine ⟨?_, ?_, h.closers⟩
    · intro k r hr hpos
      rcases getElem?_concat_cases hr with hold | ⟨-, rfl⟩
      · exact h.requests k r hold hpos
      · cases hpos
    · intro k r hr hpos
      rcases getElem?_concat_cases hr with hold | ⟨-, rfl⟩
      · exact h.handle k r hold hpos
      · cases hpos
  | request i action =>
    obtain ⟨r, hr, hstep⟩ := bind_eq_some_iff.1 hstep
    exact h.requestStep hr hstep
  | close =>
    cases hstep
    refine ⟨h.requests, h.handle, ?_⟩
    intro j pos hpos hholds
    rcases getElem?_concat_cases hpos with hold | ⟨-, rfl⟩
    · exact h.closers j pos hold hholds
    · cases hholds
  | closer j action =>
    obtain ⟨pos, hpos, hstep⟩ := bind_eq_some_iff.1 hstep
    exact h.closeStep hpos hstep

end

theorem gated_of_reachable (h : Reachable step anyStep Fresh s) : s.Gated := by
  apply h.invariant
  · rintro s ⟨leaseTtl, now, rfl⟩
    exact gated_new leaseTtl now
  · exact fun s a s' hs _ hstep => hs.step hstep

/-! ## What reaches the driver -/

/-- The commands that the driver has started to perform. -/
def started (s : SessionRuntime) : List Uuid :=
  s.events.filterMap fun event =>
    match event with
    | .started id => some id
    | _ => none

theorem started_note_unreached (id : Uuid) : (s.note (.unreached id)).started = s.started := by
  unfold started note
  rw [List.filterMap_append]
  exact List.append_nil _

theorem started_note_recorded (id : Uuid) : (s.note (.recorded id)).started = s.started := by
  unfold started note
  rw [List.filterMap_append]
  exact List.append_nil _

theorem requestStep_handle (h : s.requestStep i r pos action = some s') : s'.handle = s.handle ∧
      (s'.started = s.started ∨ pos.hasHandle = true) := by
  unfold requestStep at h
  split at h
  case h_2 =>
    cases h
    unfold reserve
    split <;> exact ⟨rfl, .inl rfl⟩
  case h_3 =>
    obtain ⟨outcome, -, rfl⟩ := map_eq_some_iff.1 h
    exact ⟨rfl, .inl rfl⟩
  case h_4 =>
    dsimp only at h
    split at h <;> cases h <;> exact ⟨rfl, .inl rfl⟩
  case h_5 | h_6 | h_19 => split at h <;> cases h <;> exact ⟨rfl, .inl rfl⟩
  case h_8 =>
    cases h
    exact ⟨rfl, .inr rfl⟩
  case h_10 =>
    cases h
    unfold failed
    split_ifs
    · exact ⟨rfl, .inl rfl⟩
    · exact ⟨rfl, .inl (started_note_unreached _)⟩
  case h_13 =>
    cases h
    unfold finish
    split_ifs
    · exact ⟨rfl, .inl (started_note_recorded _)⟩
    · exact ⟨rfl, .inl rfl⟩
  case h_20 => cases h
  all_goals
    cases h
    exact ⟨rfl, .inl rfl⟩

theorem closeStep_handle {pos : ClosePos} {action : CloseAction}
    (h : s.closeStep j pos action = some s') :
    (s.handle = false → s'.handle = false) ∧ s'.started = s.started := by
  unfold closeStep at h
  split at h
  case h_2 =>
    split_ifs at h
    cases h
    exact ⟨id, rfl⟩
  case h_3 =>
    cases h
    exact ⟨fun _ => rfl, rfl⟩
  case h_7 => cases h
  all_goals
    cases h
    exact ⟨id, rfl⟩

theorem Gated.step_closed (h : s.Gated) (hclosed : s.handle = false)
    (hstep : s.step a = some s') : s'.handle = false ∧ s'.started = s.started := by
  cases a with
  | tick now =>
    simp only [SessionRuntime.step] at hstep
    split_ifs at hstep
    cases hstep
    exact ⟨hclosed, rfl⟩
  | control op | execute principal commandId expected | close =>
    cases hstep
    exact ⟨hclosed, rfl⟩
  | request i action =>
    obtain ⟨r, hr, hstep⟩ := bind_eq_some_iff.1 hstep
    obtain ⟨heq, hstarted⟩ := requestStep_handle hstep
    refine ⟨heq.trans hclosed, hstarted.resolve_right ?_⟩
    intro hhandle
    rw [h.handle i r hr hhandle] at hclosed
    cases hclosed
  | closer j action =>
    obtain ⟨pos, hpos, hstep⟩ := bind_eq_some_iff.1 hstep
    obtain ⟨hhandle, hstarted⟩ := closeStep_handle hstep
    exact ⟨hhandle hclosed, hstarted⟩

/-! ## Control safety -/

/-- What holds in a state of a session about all that may follow, as long as the generation has
    not wrapped: there are at most `u64::MAX` transitions. -/
structure ControlSafe (s : SessionRuntime) : Prop where
  generation : ∀ s', Runs step anyStep s s' → s'.control.transitions ≤ u64Max →
    s.control.generation ≤ s'.control.generation ∧
      (s'.control.generation = s.control.generation → s'.control.controller = s.control.controller)
  /-- an agent becomes the controller by a transfer, or when nobody holds an unexpired lease -/
  agent : ∀ a s' executionId, step s a = some s' →
    s'.control.controller = .agent executionId → s.control.controller ≠ .agent executionId →
      s.control.controller = .none ∨ s.control.lapsed s.clock = true ∨
        ∃ principal target expected, a = .control (.transfer principal target expected) ∧
          principal.controls s.control.controller = true
  /-- who was admitted and passes the check later has been the controller since -/
  admitted : ∀ i r s₁ g, s.requests[i]? = some r → s.requestStep i r r.pos .admission = some s₁ →
    s₁.requests[i]? = some { r with pos := .queued g } →
      ∀ s' s'', Runs step anyStep s₁ s' → Runs step anyStep s' s'' →
        s''.control.transitions ≤ u64Max → s''.control.recheckGeneration g = .ok () →
          s'.control.controller = r.principal.toController
  /-- after the handle was taken no command reaches the driver -/
  closed : s.handle = false → ∀ s', Runs step anyStep s s' → s'.started = s.started

section

variable (h : Reachable step anyStep Fresh s) (hruns : Runs step anyStep s s')
  (hfit : s'.control.transitions ≤ u64Max)
include h hruns hfit

theorem generation_le : s.control.generation = s.control.transitions ∧
      s'.control.generation = s'.control.transitions ∧
      s.control.transitions ≤ s'.control.transitions := by
  have hle := (control_follows hruns).transitions_le
  exact ⟨(numbered_of_reachable h).generation_eq (le_trans hle hfit),
    (numbered_of_reachable (h.runs hruns)).generation_eq hfit, hle⟩

theorem controller_of_step_eq (heq : s'.control.generation = s.control.generation) :
    s'.control.controller = s.control.controller := by
  obtain ⟨h1, h2, -⟩ := generation_le h hruns hfit
  apply (control_follows hruns).controller_eq
  omega

end

theorem admit_queued {s₁ : SessionRuntime} {g : ℕ} (hr : s.requests[i]? = some r)
    (hstep : s.requestStep i r r.pos .admission = some s₁)
    (hqueued : s₁.requests[i]? = some { r with pos := .queued g }) :
    s₁.control.generation = g ∧ s₁.control.controller = r.principal.toController := by
  generalize r.pos = pos at hstep
  cases pos <;> simp only [requestStep, reduceCtorEq] at hstep
  split at hstep <;> cases hstep
  · rename_i g' hadmitted
    have hset : (s.requests.set i { r with pos := .queued g' })[i]? =
        some { r with pos := .queued g } := hqueued
    rw [getElem?_set_same hr] at hset
    cases hset
    exact admitCommand_ok hadmitted
  · have hset : (s.requests.set i { r with pos := .finishing false _ })[i]? =
        some { r with pos := .queued g } := hqueued
    rw [getElem?_set_same hr] at hset
    cases hset

theorem agent_of_step {executionId : Uuid} (hstep : s.step a = some s')
    (hagent : s'.control.controller = .agent executionId)
    (hne : s.control.controller ≠ .agent executionId) :
    s.control.controller = .none ∨ s.control.lapsed s.clock = true ∨
      ∃ principal target expected, a = .control (.transfer principal target expected) ∧
        principal.controls s.control.controller = true := by
  rcases step_control hstep with heq | ⟨op, heq, htransfer⟩ | ⟨principal, expected, heq⟩
  · rw [heq] at hagent
    exact absurd hagent hne
  · rw [heq] at hagent
    rcases agent_controller hagent hne with
      hnone | hlapsed | ⟨principal, target, expected, hop, hholder⟩
    · exact .inl hnone
    · exact .inr (.inl hlapsed)
    · have ha := htransfer principal target expected hop
      rw [hop] at ha
      exact .inr (.inr ⟨principal, target, expected, ha, hholder⟩)
  · rw [heq, controller_admitCommand, controller_expireIfLapsed] at hagent
    split_ifs at hagent
    exact absurd hagent hne

/-- Every reachable state of a session is safe. -/
theorem control_safe (h : Reachable step anyStep Fresh s) : s.ControlSafe where
  generation s' hruns hfit := by
    obtain ⟨h1, h2, hle⟩ := generation_le h hruns hfit
    exact ⟨by omega, controller_of_step_eq h hruns hfit⟩
  agent a s' executionId hstep hagent hne := agent_of_step hstep hagent hne
  admitted i r s₁ g hr hstep hqueued s' s'' hruns hruns' hfit hcheck := by
    obtain ⟨hgen, hcontroller⟩ := admit_queued hr hstep hqueued
    have hreach : Reachable step anyStep Fresh s₁ := by
      apply h.next (a := .request i .admission) trivial
      show (s.requests[i]?).bind _ = some s₁
      rw [hr]
      exact hstep
    have hsame : s''.control.generation = g := by
      unfold recheckGeneration at hcheck
      split_ifs at hcheck with hne
      exact (not_not.1 hne).symm
    obtain ⟨h1, h2, -⟩ := generation_le hreach (hruns.trans hruns') hfit
    -- the number of transitions is the same at both ends, so also in between
    have hle := (control_follows hruns).transitions_le
    have hle' := (control_follows hruns').transitions_le
    rw [(control_follows hruns).controller_eq (by omega), hcontroller]
  closed hclosed s' hruns := by
    have hall : s'.Gated ∧ s'.handle = false ∧ s'.started = s.started := by
      apply hruns.preserves (P := fun s' => s'.Gated ∧ s'.handle = false ∧ s'.started = s.started)
      · rintro s₁ a s₂ ⟨hgated, hhandle, hstarted⟩ - hstep
        obtain ⟨hhandle', hstarted'⟩ := hgated.step_closed hhandle hstep
        exact ⟨hgated.step hstep, hhandle', hstarted'.trans hstarted⟩
      · exact ⟨gated_of_reachable h, hclosed, rfl⟩
    exact hall.2.2

def exampleAdmission : List SessionAction :=
  [.control (.acquire (.agent 1) false false none), .execute (.agent 1) 7 (some 1),
    .request 0 .ensureOpen, .request 0 .reserve, .request 0 .admission]

/-- The admitted command waits at generation 1, and what follows is safe. -/
theorem admission_safe : ∃ s, exec step anyStep (new 60 0) exampleAdmission = some s ∧
    s.control.generation = 1 ∧ s.control.controller = .agent 1 ∧ s.ControlSafe := by
  have hexec : ∃ s, exec step anyStep (new 60 0) exampleAdmission = some s ∧
      s.control.generation = 1 ∧ s.control.controller = .agent 1 := ⟨_, rfl, rfl, rfl⟩
  obtain ⟨s, hs, hgen, hcontroller⟩ := hexec
  exact ⟨s, hs, hgen, hcontroller, control_safe (reachable_of_exec ⟨60, 0, rfl⟩ hs)⟩

theorem exists_transition (s : SessionRuntime) : ∃ a s', step s a = some s' ∧
    s'.control.transitions = s.control.transitions + 1 := by
  by_cases hnone : s.control.controller = .none
  · refine ⟨.control (.acquire (.agent 1) false false none), _, rfl, ?_⟩
    have hlapsed : s.control.lapsed s.clock = false := by
      unfold lapsed
      rw [hnone]
      rfl
    show (s.control.acquire (.agent 1) s.clock false false none).1.transitions = _
    unfold acquire
    dsimp only
    rw [expireIfLapsed_fst, hlapsed, if_neg Bool.false_ne_true,
      mismatches, if_neg Bool.false_ne_true, hnone]
    rfl
  · refine ⟨.control (.releaseIf (fun _ => true) .closed), _, rfl, ?_⟩
    show (s.control.releaseIf s.clock (fun _ => true) .closed).1.transitions = _
    unfold releaseIf
    rw [if_neg, if_pos rfl]
    · rfl
    · intro h
      cases hc : s.control.controller <;> rw [hc] at h hnone <;> first | exact hnone rfl | cases h

theorem exists_reachable_transitions (n : ℕ) : ∃ s, Reachable step anyStep Fresh s ∧
    s.control.transitions = n := by
  induction n with
  | zero => exact ⟨new 60 0, Reachable.start ⟨60, 0, rfl⟩, rfl⟩
  | succ n ih =>
    obtain ⟨s, hreach, hn⟩ := ih
    obtain ⟨a, s', hstep, hs'⟩ := exists_transition s
    exact ⟨s', hreach.next trivial hstep, by rw [hs', hn]⟩

/-- After 2^64 transitions the generation is 0 again. -/
theorem generation_wraps : ∃ s s', Reachable step anyStep Fresh s ∧ Runs step anyStep s s' ∧
    s.control.generation = u64Max ∧ s'.control.generation = 0 := by
  obtain ⟨s, hreach, hn⟩ := exists_reachable_transitions u64Max
  obtain ⟨a, s', hstep, hs'⟩ := exists_transition s
  refine ⟨s, s', hreach, Runs.refl.tail trivial hstep, ?_, ?_⟩
  · rw [(numbered_of_reachable hreach).generation_eq (le_of_eq hn), hn]
  · rw [numbered_of_reachable (hreach.next trivial hstep), hs', hn]
    decide

end SessionRuntime

end VibeKanban.Browser

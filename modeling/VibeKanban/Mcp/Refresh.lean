import VibeKanban.Cluster.Protocol
import VibeKanban.Lib.Runs
import VibeKanban.Lib.Tasks

/-!
# The generations of an MCP refresh (`services/mcp_refresh.rs`)

`McpRefreshCoordinator` keeps three maps under three locks: the states, the counters of the
generations and the generations that a restart was the last to mark. They are modelled at one
session. An operation takes as many steps as it takes locks one after the other.

The types of `executors/mcp_refresh.rs` are modelled with all their fields.

* `generation_discipline`: what each step does to the generations.
-/

namespace VibeKanban.Mcp.Refresh

open Lib List Option

/-! ## The data (`executors/mcp_refresh.rs`) -/

/-- A point in time (`DateTime<Utc>`). -/
abbrev DateTime := ℕ

inductive McpRefreshStatus where
  | pendingNextTurn
  | refreshed
  | partiallyRefreshed
  | busy
  | unsupported
  | failed
  deriving DecidableEq

inductive McpRefreshErrorCategory where
  | executableUnavailable
  | processLaunchFailed
  | initializeFailed
  | authenticationFailed
  | capabilityListFailed
  | invalidCapabilitySchema
  | timeout
  | refreshInProgress
  | activeCall
  | materializationFailed
  | reloadFailed
  | unsupported
  | internal

structure McpRefreshError where
  category : McpRefreshErrorCategory
  message : String
  remediation : String
  retryable : Bool

/-- `safe_executor_error` (lines 132-213). -/
def safeExecutorError (category : McpRefreshErrorCategory) : McpRefreshError :=
  match category with
  | .authenticationFailed => ⟨category, "The MCP server requires authentication.",
    "Reconnect or renew the server credentials, then refresh again.", true⟩
  | .timeout => ⟨category, "The MCP refresh timed out.",
    "Check that the server is responsive, then retry.", true⟩
  | .refreshInProgress => ⟨category, "An MCP refresh is already in progress.",
    "Wait for the current refresh to finish, then retry.", true⟩
  | .activeCall => ⟨category, "An MCP tool call is active.",
    "Retry after the active tool call finishes.", true⟩
  | .materializationFailed => ⟨category,
    "Vibe Kanban could not materialize the latest MCP settings.",
    "Retry. If the problem continues, inspect the worker's secret-safe logs.", true⟩
  | .reloadFailed => ⟨category, "Codex could not reload the refreshed MCP configuration.",
    "Retry after Codex is ready, or continue in a fresh turn.", true⟩
  | .unsupported => ⟨category, "This executor cannot refresh MCP tools in place.",
    "Call restart_session to preserve the conversation and rediscover MCP tools in a fresh " ++
      "executor process.", false⟩
  | .executableUnavailable => ⟨category, "The configured MCP executable or package is unavailable.",
    "Install the configured package or correct its command, then retry.", true⟩
  | .processLaunchFailed => ⟨category, "The MCP server could not be started.",
    "Check the server command and local runtime, then retry.", true⟩
  | .initializeFailed => ⟨category, "The MCP server did not complete initialization.",
    "Check server compatibility and startup health, then retry.", true⟩
  | .capabilityListFailed => ⟨category, "The refreshed MCP capability inventory could not be read.",
    "Check the server logs for a tools/list failure, then retry.", true⟩
  | .invalidCapabilitySchema => ⟨category, "The MCP server returned an invalid capability schema.",
    "Update or fix the MCP server, then retry.", true⟩
  | .internal => ⟨category, "Vibe Kanban could not complete the MCP refresh.",
    "Retry. If the problem continues, inspect secret-safe server logs.", true⟩

inductive McpServerRefreshStatus where
  | connecting
  | ready
  | connectedNoTools
  | failedRetained
  | failedUnavailable
  | notRegistered
  | removed
  | disabled
  deriving DecidableEq

structure McpDiscoveryObservation where
  code : McpRefreshErrorCategory
  observedAt : DateTime

structure McpServerRefreshSnapshot where
  serverId : String
  status : McpServerRefreshStatus
  toolCount : Option ℕ
  toolNames : Option (List String)
  toolSchemaFingerprint : Option String
  resourceCount : Option ℕ
  promptCount : Option ℕ
  restartOccurred : Option Bool
  discoveryAttempts : ℕ
  observedErrors : List McpDiscoveryObservation
  firstObservedAt : Option DateTime
  lastObservedAt : Option DateTime
  terminalAt : Option DateTime
  error : Option McpRefreshError

structure McpRefreshResult where
  status : McpRefreshStatus
  retryable : Bool
  generation : ℕ
  requestedAt : DateTime
  lastSuccessfulRefreshAt : Option DateTime
  configuredServerIds : List String
  servers : List McpServerRefreshSnapshot
  error : Option McpRefreshError

/-! ## The servers of a result -/

/-- `is_unsuccessful_server` (lines 18-26). -/
def isUnsuccessfulServer (server : McpServerRefreshSnapshot) : Bool :=
  match server.status with
  | .connectedNoTools | .failedRetained | .failedUnavailable | .notRegistered => true
  | _ => false

/-- `sort` and `dedup` of the configured ids. -/
def sortIds (ids : List String) : List String := ids.dedup.insertionSort (· ≤ ·)

def sortServers (servers : List McpServerRefreshSnapshot) : List McpServerRefreshSnapshot :=
  servers.insertionSort fun a b => a.serverId ≤ b.serverId

/-- A configured server that was not observed (lines 54-72 and 370-388). -/
def notRegistered (serverId : String) (restartOccurred : Bool) (now : DateTime) :
    McpServerRefreshSnapshot where
  serverId := serverId
  status := .notRegistered
  toolCount := some 0
  toolNames := some []
  toolSchemaFingerprint := none
  resourceCount := none
  promptCount := none
  restartOccurred := some restartOccurred
  discoveryAttempts := 1
  observedErrors := []
  firstObservedAt := some now
  lastObservedAt := some now
  terminalAt := some now
  error := some (safeExecutorError .capabilityListFailed)

/-- The servers with the configured ones that were not observed. -/
def addMissing (restartOccurred : Bool) (now : DateTime) (servers : List McpServerRefreshSnapshot)
    (ids : List String) : List McpServerRefreshSnapshot :=
  ids.foldl (fun servers id =>
    if servers.any (·.serverId = id) then servers
    else servers ++ [notRegistered id restartOccurred now]) servers

/-- A server whose connection is awaited (lines 194-211). -/
def connecting (now : DateTime) (serverId : String) : McpServerRefreshSnapshot where
  serverId := serverId
  status := .connecting
  toolCount := none
  toolNames := none
  toolSchemaFingerprint := none
  resourceCount := none
  promptCount := none
  restartOccurred := none
  discoveryAttempts := 0
  observedErrors := []
  firstObservedAt := some now
  lastObservedAt := some now
  terminalAt := none
  error := none

def saturatingAdd (max n : ℕ) : ℕ := min (n + 1) max

def u32Max : ℕ := 2 ^ 32 - 1

def u64Max : ℕ := 2 ^ 64 - 1

/-- A server that failed (lines 278-291). -/
def failServer (category : McpRefreshErrorCategory) (now : DateTime)
    (server : McpServerRefreshSnapshot) : McpServerRefreshSnapshot :=
  { server with
    status := .failedUnavailable
    toolCount := some 0
    toolNames := some []
    toolSchemaFingerprint := none
    resourceCount := none
    promptCount := none
    discoveryAttempts := saturatingAdd u32Max server.discoveryAttempts
    lastObservedAt := some now
    terminalAt := some now
    observedErrors := server.observedErrors ++ [⟨category, now⟩]
    error := some (safeExecutorError category) }

/-- A server that failed without having been observed (lines 293-313). -/
def failedServer (category : McpRefreshErrorCategory) (now : DateTime) (serverId : String) :
    McpServerRefreshSnapshot where
  serverId := serverId
  status := .failedUnavailable
  toolCount := some 0
  toolNames := some []
  toolSchemaFingerprint := none
  resourceCount := none
  promptCount := none
  restartOccurred := none
  discoveryAttempts := 1
  observedErrors := [⟨category, now⟩]
  firstObservedAt := some now
  lastObservedAt := some now
  terminalAt := some now
  error := some (safeExecutorError category)

/-- `iter_mut().find(..)` and a change of what was found. -/
def modifyFirst (p : McpServerRefreshSnapshot → Bool)
    (f : McpServerRefreshSnapshot → McpServerRefreshSnapshot) :
    List McpServerRefreshSnapshot → List McpServerRefreshSnapshot
  | [] => []
  | server :: servers => if p server then f server :: servers else server :: modifyFirst p f servers

/-- One id of the loop of `fail` (lines 262-314). -/
def failId (fresh : Bool) (category : McpRefreshErrorCategory) (now : DateTime)
    (servers : List McpServerRefreshSnapshot) (id : String) : List McpServerRefreshSnapshot :=
  if servers.any (·.serverId = id) then
    modifyFirst (·.serverId = id) (fun server =>
      if fresh = false ∧ server.status ≠ .connecting ∧ server.status ≠ .notRegistered then server
      else failServer category now server) servers
  else servers ++ [failedServer category now id]

/-! ## The coordinator -/

/-- `McpRefreshCoordinator` at one session (lines 11-16). -/
structure McpRefreshCoordinator where
  states : Option McpRefreshResult
  generations : Option ℕ
  restartGenerations : Option ℕ

namespace McpRefreshCoordinator

variable (c : McpRefreshCoordinator)

/-- `entry(session_id).or_default()` and `saturating_add(1)` (lines 79-84 and 184-189). -/
def nextGeneration : ℕ := saturatingAdd u64Max (c.generations.getD 0)

/-- The state that `observe_inventory` leaves in place (lines 42-49). -/
def owned (executionStartedAt : DateTime) : Option McpRefreshResult :=
  c.states.filter fun current => current.status = .pendingNextTurn ∨
    current.status ≠ .unsupported ∧ executionStartedAt < current.requestedAt

/-- `observe_inventory` (lines 33-102), in one step under the lock of the states. -/
def observeInventory (executionStartedAt : DateTime) (configuredServerIds : List String)
    (servers : List McpServerRefreshSnapshot) (now : DateTime) :
    McpRefreshCoordinator × McpRefreshResult :=
  match c.owned executionStartedAt with
  | some current => (c, current)
  | none =>
    let ids := sortIds configuredServerIds
    let servers := sortServers (addMissing false now servers ids)
    let anyUnsuccessful := servers.any isUnsuccessfulServer
    let result : McpRefreshResult :=
      { status := if anyUnsuccessful then .partiallyRefreshed else .refreshed
        retryable := false
        generation := c.nextGeneration
        requestedAt := executionStartedAt
        lastSuccessfulRefreshAt := if anyUnsuccessful then none else some now
        configuredServerIds := ids
        servers := servers
        error := none }
    ({ c with states := some result, generations := some c.nextGeneration }, result)

/-- `request_inner` (lines 165-242), in one step under the lock of the states. -/
def requestInner (supported : Bool) (configuredServerIds : List String) (supersedePending : Bool)
    (now : DateTime) : McpRefreshCoordinator × McpRefreshResult :=
  let ids := sortIds configuredServerIds
  match c.states.filter fun current =>
      current.status = .pendingNextTurn ∧ supersedePending = false with
  | some current =>
    (c, { current with
      status := .busy
      retryable := true
      error := some (safeExecutorError .refreshInProgress) })
  | none =>
    let previous := (c.states.map (·.servers)).getD []
    let fresh := ids.filter fun id => previous.all (·.serverId ≠ id)
    let result : McpRefreshResult :=
      { status := if supported then .pendingNextTurn else .unsupported
        retryable := false
        generation := c.nextGeneration
        requestedAt := now
        lastSuccessfulRefreshAt := c.states.bind (·.lastSuccessfulRefreshAt)
        configuredServerIds := ids
        servers := if supported then previous ++ fresh.map (connecting now) else previous
        error := if supported then none else some (safeExecutorError .unsupported) }
    ({ c with states := some result, generations := some c.nextGeneration }, result)

/-- `is_restart_generation` (lines 161-163). -/
def isRestartGeneration (generation : ℕ) : Bool := c.restartGenerations = some generation

/-- `fail` after it has read the marker (lines 252-322). -/
def failState (fresh : Bool) (expectedGeneration : ℕ) (category : McpRefreshErrorCategory)
    (now : DateTime) : McpRefreshCoordinator × Option McpRefreshResult :=
  match c.states with
  | none => (c, none)
  | some state =>
    if state.generation ≠ expectedGeneration then (c, none)
    else
      let ids := if fresh then
          sortIds (state.configuredServerIds ++ state.servers.map (·.serverId))
        else state.configuredServerIds
      let failed := { state with
        servers := ids.foldl (failId fresh category now) state.servers
        status := .failed
        retryable := true
        error := some (safeExecutorError category) }
      ({ c with states := some failed }, some failed)

/-- `unsupported` (lines 336-343). -/
def unsupported : McpRefreshCoordinator × Option McpRefreshResult :=
  match c.states with
  | none => (c, none)
  | some state =>
    let state := { state with
      status := .unsupported
      retryable := false
      error := some (safeExecutorError .unsupported) }
    ({ c with states := some state }, some state)

/-- `confirm` (lines 346-403). -/
def confirm (expectedGeneration : ℕ) (servers : List McpServerRefreshSnapshot) (now : DateTime) :
    McpRefreshCoordinator × Option McpRefreshResult :=
  match c.states with
  | none => (c, none)
  | some state =>
    if state.generation ≠ expectedGeneration then (c, none)
    else if state.status ≠ .pendingNextTurn then (c, some state)
    else
      let servers := sortServers (addMissing true now servers state.configuredServerIds)
      let anyUnsuccessful := servers.any isUnsuccessfulServer
      let state := { state with
        status := if anyUnsuccessful then .partiallyRefreshed else .refreshed
        retryable := false
        servers := servers
        error := none
        lastSuccessfulRefreshAt :=
          if anyUnsuccessful then state.lastSuccessfulRefreshAt else some now }
      ({ c with states := some state }, some state)

/-- `remove` (lines 409-411). -/
def remove : McpRefreshCoordinator := { c with states := none }

end McpRefreshCoordinator

/-! ## Operations that overlap -/

/-- An operation between two of its locks. -/
inductive Task where
  /-- `request` will remove the marker (lines 137-139). -/
  | unmark (generation : ℕ)
  /-- `request_restart` will write the marker (lines 154-157). -/
  | mark (generation : ℕ)
  /-- `fail` has read whether the generation is one of a restart (lines 250-251). -/
  | fail (fresh : Bool) (expectedGeneration : ℕ) (category : McpRefreshErrorCategory)
  /-- `observe_failure` has observed and will call `fail` (lines 123-125). -/
  | observed (generation : ℕ) (category : McpRefreshErrorCategory)

/-- The coordinator with the operations in flight; `assigned` is the history of the generations
that were assigned, each with whether it was by `request_restart`. -/
structure Session where
  coordinator : McpRefreshCoordinator
  tasks : List Task
  assigned : List (ℕ × Bool)

/-- An operation that begins, or a task that goes on. -/
inductive Act where
  | observeInventory (executionStartedAt : DateTime) (configuredServerIds : List String)
      (servers : List McpServerRefreshSnapshot) (now : DateTime)
  | observeFailure (executionStartedAt : DateTime) (configuredServerIds : List String)
      (category : McpRefreshErrorCategory) (now : DateTime)
  | request (supported : Bool) (configuredServerIds : List String) (now : DateTime)
  | requestRestart (configuredServerIds : List String) (now : DateTime)
  | confirm (expectedGeneration : ℕ) (servers : List McpServerRefreshSnapshot) (now : DateTime)
  | fail (expectedGeneration : ℕ) (category : McpRefreshErrorCategory)
  | unsupported
  | remove
  | task (i : ℕ) (now : DateTime)

namespace Session

def start : Session := ⟨⟨none, none, none⟩, [], []⟩

variable (s : Session)

/-- `observe_inventory` and what it returns. -/
def observe (executionStartedAt : DateTime) (configuredServerIds : List String)
    (servers : List McpServerRefreshSnapshot) (now : DateTime) : Session × McpRefreshResult :=
  let c := s.coordinator.observeInventory executionStartedAt configuredServerIds servers now
  let assigned := if (s.coordinator.owned executionStartedAt).isSome then s.assigned
    else s.assigned ++ [(s.coordinator.nextGeneration, false)]
  ({ s with coordinator := c.1, assigned := assigned }, c.2)

/-- `request` or `request_restart` up to its second lock. -/
def requestWith (supported : Bool) (configuredServerIds : List String) (restart : Bool)
    (now : DateTime) : Session :=
  let c := s.coordinator.requestInner supported configuredServerIds restart now
  if c.2.status = .busy then { s with coordinator := c.1 }
  else
    let task := if restart then Task.mark c.2.generation else Task.unmark c.2.generation
    ⟨c.1, s.tasks ++ [task], s.assigned ++ [(c.2.generation, restart)]⟩

/-- A task goes on with its next lock. -/
def runTask (i : ℕ) (task : Task) (now : DateTime) : Session :=
  let rest := s.tasks.eraseIdx i
  match task with
  | .unmark _ => { s with
      coordinator := { s.coordinator with restartGenerations := none }
      tasks := rest }
  | .mark generation => { s with
      coordinator := { s.coordinator with restartGenerations := some generation }
      tasks := rest }
  | .fail fresh expectedGeneration category => { s with
      coordinator := (s.coordinator.failState fresh expectedGeneration category now).1
      tasks := rest }
  | .observed generation category => { s with
      tasks := rest ++ [.fail (s.coordinator.isRestartGeneration generation) generation category] }

def step (s : Session) : Act → Option Session
  | .observeInventory executionStartedAt configuredServerIds servers now =>
    some (s.observe executionStartedAt configuredServerIds servers now).1
  | .observeFailure executionStartedAt configuredServerIds category now =>
    let (s', observed) := s.observe executionStartedAt configuredServerIds [] now
    if observed.status = .pendingNextTurn ∨ observed.requestedAt ≠ executionStartedAt then some s'
    else some { s' with tasks := s'.tasks ++ [.observed observed.generation category] }
  | .request supported configuredServerIds now =>
    some (s.requestWith supported configuredServerIds false now)
  | .requestRestart configuredServerIds now =>
    some (s.requestWith true configuredServerIds true now)
  | .confirm expectedGeneration servers now =>
    some { s with coordinator := (s.coordinator.confirm expectedGeneration servers now).1 }
  | .fail expectedGeneration category =>
    let fresh := s.coordinator.isRestartGeneration expectedGeneration
    some { s with tasks := s.tasks ++ [.fail fresh expectedGeneration category] }
  | .unsupported => some { s with coordinator := s.coordinator.unsupported.1 }
  | .remove => some { s with coordinator := s.coordinator.remove }
  | .task i now => (s.tasks[i]?).map fun task => s.runTask i task now

/-! ## A generation that is not the current one -/

variable {s} {s' : Session} {a : Act}

variable {c : McpRefreshCoordinator} {generation : ℕ} {servers : List McpServerRefreshSnapshot}
  {now : DateTime}
  {fresh restart : Bool} {category : McpRefreshErrorCategory} {configuredServerIds : List String}
  {counter : ℕ}

section

variable (h : c.states.map (·.generation) ≠ some generation)
include h

theorem confirm_stale : c.confirm generation servers now = (c, none) := by
  unfold McpRefreshCoordinator.confirm
  cases hstate : c.states with
  | none => rfl
  | some state =>
    have hne : state.generation ≠ generation := by
      rintro rfl
      exact h (by rw [hstate]; rfl)
    simp only [ne_eq, hne, not_false_eq_true, if_true]

theorem failState_stale : c.failState fresh generation category now = (c, none) := by
  unfold McpRefreshCoordinator.failState
  cases hstate : c.states with
  | none => rfl
  | some state =>
    have hne : state.generation ≠ generation := by
      rintro rfl
      exact h (by rw [hstate]; rfl)
    simp only [ne_eq, hne, not_false_eq_true, if_true]

end

/-! ## What a step does to the generations -/

/-- Neither a generation nor the marker changes. -/
structure Keeps (c c' : McpRefreshCoordinator) : Prop where
  states : ∀ state', c'.states = some state' →
    ∃ state, c.states = some state ∧ state.generation = state'.generation
  counter : c'.generations = c.generations
  marker : c'.restartGenerations = c.restartGenerations

theorem Keeps.refl : Keeps c c := ⟨fun state h => ⟨state, h, rfl⟩, rfl, rfl⟩

theorem Keeps.of_state {state state' : McpRefreshResult}
    (h : c.states = some state) (hg : state.generation = state'.generation) :
    Keeps c { c with states := some state' } :=
  ⟨fun _ hs => ⟨state, h, some.inj hs ▸ hg⟩, rfl, rfl⟩

theorem keeps_failState : Keeps c (c.failState fresh generation category now).1 := by
  unfold McpRefreshCoordinator.failState
  split
  · exact .refl
  · next state hstate =>
    split
    · exact .refl
    · exact .of_state hstate rfl

theorem keeps_confirm : Keeps c (c.confirm generation servers now).1 := by
  unfold McpRefreshCoordinator.confirm
  split
  · exact .refl
  · next state hstate =>
    split
    · exact .refl
    · split
      · exact .refl
      · exact .of_state hstate rfl

theorem keeps_unsupported : Keeps c c.unsupported.1 := by
  unfold McpRefreshCoordinator.unsupported
  split
  · exact .refl
  · next state hstate => exact .of_state hstate rfl

theorem keeps_remove : Keeps c c.remove := ⟨fun _ h => absurd h.symm (some_ne_none _), rfl, rfl⟩

/-- What a step does: it assigns a generation, writes the marker, or neither. -/
inductive Moves (s s' : Session) : Act → Prop
  | assigned {a : Act} {restart : Bool} {state : McpRefreshResult} {tasks : List Task}
      (hstates : s'.coordinator.states = some state)
      (hgeneration : state.generation = s.coordinator.nextGeneration)
      (hcounter : s'.coordinator.generations = some s.coordinator.nextGeneration)
      (hmarker : s'.coordinator.restartGenerations = s.coordinator.restartGenerations)
      (hassigned : s'.assigned = s.assigned ++ [(s.coordinator.nextGeneration, restart)])
      (htasks : s'.tasks = s.tasks ++ tasks)
      (hmark : ∀ g, .mark g ∈ tasks ↔ g = s.coordinator.nextGeneration ∧ restart = true)
      (hunmark : ∀ g, .unmark g ∈ tasks → g = s.coordinator.nextGeneration ∧ restart = false) :
      Moves s s' a
  | marked {i : ℕ} {now : DateTime} {generation : ℕ} (htask : s.tasks[i]? = some (.mark generation))
      (hs' : s' = { s with
        coordinator := { s.coordinator with restartGenerations := some generation }
        tasks := s.tasks.eraseIdx i }) : Moves s s' (.task i now)
  | unmarked {i : ℕ} {now : DateTime} {generation : ℕ}
      (htask : s.tasks[i]? = some (.unmark generation))
      (hs' : s' = { s with
        coordinator := { s.coordinator with restartGenerations := none }
        tasks := s.tasks.eraseIdx i }) : Moves s s' (.task i now)
  | other {a : Act} (hkeeps : Keeps s.coordinator s'.coordinator)
      (hassigned : s'.assigned = s.assigned)
      (hmark : ∀ g, .mark g ∈ s'.tasks ↔ .mark g ∈ s.tasks)
      (hunmark : ∀ g, .unmark g ∈ s'.tasks → .unmark g ∈ s.tasks) : Moves s s' a

theorem Moves.of_coordinator (hkeeps : Keeps s.coordinator c) :
    Moves s { s with coordinator := c } a :=
  .other hkeeps rfl (fun _ => Iff.rfl) fun _ h => h

theorem moves_observe {executionStartedAt : DateTime}
    {tasks : List Task} (hmark : ∀ g, .mark g ∉ tasks) (hunmark : ∀ g, .unmark g ∉ tasks) :
    Moves s { (s.observe executionStartedAt configuredServerIds servers now).1 with
      tasks := s.tasks ++ tasks } a := by
  unfold observe McpRefreshCoordinator.observeInventory
  cases howned : s.coordinator.owned executionStartedAt with
  | some current =>
    refine .other .refl rfl (fun g => ?_) (fun g hg => ?_)
    · simp [hmark]
    · simpa [hunmark] using hg
  | none =>
    refine .assigned rfl rfl rfl rfl rfl rfl (fun g => ?_) (fun g hg => absurd hg (hunmark g))
    simp [hmark]

theorem moves_requestWith {supported : Bool}
    : Moves s (s.requestWith supported configuredServerIds restart now) a := by
  unfold requestWith McpRefreshCoordinator.requestInner
  simp only
  split
  · exact .of_coordinator .refl
  · have hstatus : (if supported then McpRefreshStatus.pendingNextTurn else .unsupported) ≠
        .busy := by
      split
      all_goals exact nofun
    simp only [hstatus, if_false]
    refine .assigned rfl rfl rfl rfl rfl rfl (fun g => ?_) fun g hg => ?_
    · cases restart <;> simp
    · cases restart with
      | true => simp at hg
      | false => simpa using hg

theorem moves_of_step (h : step s a = some s') : Moves s s' a := by
  cases a with
  | observeInventory executionStartedAt configuredServerIds servers now =>
    have hmoves : Moves s { (s.observe executionStartedAt configuredServerIds servers now).1 with
        tasks := s.tasks ++ [] } (.observeInventory executionStartedAt configuredServerIds servers
          now) := moves_observe nofun nofun
    rw [append_nil] at hmoves
    rwa [← some.inj h]
  | observeFailure executionStartedAt configuredServerIds category now =>
    simp only [step] at h
    split at h
    · have hmoves : Moves s { (s.observe executionStartedAt configuredServerIds [] now).1 with
          tasks := s.tasks ++ [] } (.observeFailure executionStartedAt configuredServerIds
            category now) := moves_observe nofun nofun
      rw [append_nil] at hmoves
      rwa [← some.inj h]
    · cases h
      exact moves_observe (by simp) (by simp)
  | request supported configuredServerIds now | requestRestart configuredServerIds now =>
    cases h
    exact moves_requestWith
  | confirm expectedGeneration servers now =>
    cases h
    exact .of_coordinator keeps_confirm
  | fail expectedGeneration category =>
    cases h
    refine .other .refl rfl (fun g => ?_) fun g hg => ?_
    · simp
    · simpa using hg
  | unsupported =>
    cases h
    exact .of_coordinator keeps_unsupported
  | remove =>
    cases h
    exact .of_coordinator keeps_remove
  | task i now =>
    obtain ⟨task, htask, rfl⟩ := map_eq_some_iff.1 h
    cases task with
    | unmark generation => exact .unmarked htask rfl
    | mark generation => exact .marked htask rfl
    | fail fresh expectedGeneration category =>
      refine .other keeps_failState rfl (fun g => ?_) fun g hg => ?_
      · exact mem_eraseIdx_iff_of_ne htask (by simp)
      · exact mem_of_mem_eraseIdx hg
    | observed generation category =>
      refine .other .refl rfl (fun g => ?_) fun g hg => ?_
      · show _ ∈ s.tasks.eraseIdx i ++ _ ↔ _
        rw [mem_append, mem_eraseIdx_iff_of_ne htask (by simp)]
        simp
      · have hm : Task.unmark g ∈ s.tasks.eraseIdx i := by simpa [runTask] using hg
        exact mem_of_mem_eraseIdx hm

/-! ## The invariants -/

/-- The step assigns a generation only below the bound of the counter. -/
def Below (s : Session) (_ : Act) : Prop :=
  ∀ counter, s.coordinator.generations = some counter → counter < u64Max
  deriving Decidable

/-- The generation whose marker the action writes or removes. -/
def marks (s : Session) : Act → Option ℕ
  | .task i _ =>
    match s.tasks[i]? with
    | some (.mark generation) => some generation
    | some (.unmark generation) => some generation
    | _ => none
  | _ => none

/-- No operation changes the marker of the current generation but the one that assigned it. -/
def InOrder (s : Session) (a : Act) : Prop :=
  ∀ generation, s.marks a = some generation →
    ∀ counter, s.coordinator.generations = some counter →
      s.coordinator.restartGenerations = some counter → generation = counter

/-- The generations that were assigned increase, and the counter is the last one. -/
structure Assigned (s : Session) : Prop where
  increasing : (s.assigned.map (·.1)).Pairwise (· < ·)
  last : s.coordinator.generations = (s.assigned.map (·.1)).getLast?
  current : ∀ state, s.coordinator.states = some state →
    s.coordinator.generations = some state.generation

theorem Assigned.le_counter (h : Assigned s)
    (hcounter : s.coordinator.generations = some counter) : ∀ m ∈ s.assigned, m.1 ≤ counter := by
  intro m hm
  have hlast := h.last.symm.trans hcounter
  obtain ⟨front, hfront⟩ := getLast?_eq_some_iff.1 hlast
  have hmem : m.1 ∈ s.assigned.map (·.1) := mem_map_of_mem hm
  have hsorted := h.increasing
  rw [hfront, pairwise_append] at hsorted
  rw [hfront] at hmem
  rcases mem_append.1 hmem with hmem | hmem
  · exact (hsorted.2.2 _ hmem _ (mem_singleton_self _)).le
  · exact (mem_singleton.1 hmem).le

theorem Assigned.lt_next (h : Assigned s) (hbelow : Below s a) :
    ∀ m ∈ s.assigned, m.1 < s.coordinator.nextGeneration := by
  intro m hm
  cases hcounter : s.coordinator.generations with
  | none =>
    have hnone : (s.assigned.map (·.1)).getLast? = none := h.last.symm.trans hcounter
    simp only [getLast?_eq_none_iff, map_eq_nil_iff] at hnone
    rw [hnone] at hm
    cases hm
  | some counter =>
    have hle := h.le_counter hcounter m hm
    have hlt := hbelow counter hcounter
    unfold McpRefreshCoordinator.nextGeneration saturatingAdd
    rw [hcounter, getD_some]
    omega

theorem Assigned.step (h : Assigned s) (hbelow : Below s a) (hstep : step s a = some s') :
    Assigned s' := by
  cases moves_of_step hstep with
  | assigned hstates hgeneration hcounter hmarker hassigned htasks hmark hunmark =>
    refine ⟨?_, ?_, ?_⟩
    · rw [hassigned, map_append, pairwise_append]
      refine ⟨h.increasing, pairwise_singleton _ _, ?_⟩
      intro g hg g' hg'
      obtain ⟨m, hm, rfl⟩ := mem_map.1 hg
      rw [mem_singleton.1 hg']
      exact h.lt_next hbelow m hm
    · rw [hassigned, hcounter, map_append]
      exact getLast?_concat.symm
    · intro state hstate
      rw [hcounter, ← hgeneration, some.inj (hstates.symm.trans hstate)]
  | marked htask hs' | unmarked htask hs' =>
    rw [hs']
    exact ⟨h.increasing, h.last, h.current⟩
  | other hkeeps hassigned hmark hunmark =>
    refine ⟨?_, ?_, ?_⟩
    · rw [hassigned]
      exact h.increasing
    · rw [hassigned, hkeeps.counter]
      exact h.last
    · intro state' hstate'
      obtain ⟨state, hstate, hg⟩ := hkeeps.states state' hstate'
      rw [hkeeps.counter, h.current state hstate, hg]

/-- The markers are those of restarts, and the one of the current generation, if a restart
assigned it, is there or is about to be written. -/
structure Inv (s : Session) : Prop where
  assigned : Assigned s
  marker : ∀ g, s.coordinator.restartGenerations = some g → (g, true) ∈ s.assigned
  mark : ∀ g, .mark g ∈ s.tasks → (g, true) ∈ s.assigned
  unmark : ∀ g, .unmark g ∈ s.tasks → (g, false) ∈ s.assigned
  restart : ∀ counter, s.coordinator.generations = some counter → (counter, true) ∈ s.assigned →
    s.coordinator.restartGenerations = some counter ∨ .mark counter ∈ s.tasks

/-- A write of the marker by an operation of an older generation does not touch the one of the
current generation. -/
theorem Inv.restart_of_marks (h : Inv s) (hok : InOrder s a) {i : ℕ} {task : Task} {g : ℕ}
    (ha : a = .task i now) (htask : s.tasks[i]? = some task)
    (hg : task = .mark g ∨ task = .unmark g) (hne : g ≠ counter)
    (hcounter : s.coordinator.generations = some counter) (hc : (counter, true) ∈ s.assigned) :
    .mark counter ∈ s.tasks.eraseIdx i := by
  have hmarks : s.marks a = some g := by
    rcases hg with rfl | rfl
    all_goals simp [ha, marks, htask]
  rcases h.restart counter hcounter hc with hmarker | hmark
  · exact absurd (hok g hmarks counter hcounter hmarker) hne
  · refine (mem_eraseIdx_iff_of_ne htask ?_).2 hmark
    rcases hg with rfl | rfl
    · simpa using hne.symm
    · simp

theorem Assigned.eq_of_mem (h : Assigned s) {g : ℕ} {restart' : Bool}
    (hm : (g, restart) ∈ s.assigned) (hm' : (g, restart') ∈ s.assigned) : restart = restart' := by
  have hnodup : (s.assigned.map (·.1)).Nodup := h.increasing.imp fun hlt => hlt.ne
  have heq := inj_on_of_nodup_map hnodup hm hm' rfl
  exact congrArg Prod.snd heq

theorem Inv.step (h : Inv s) (hbelow : Below s a) (hok : InOrder s a)
    (hstep : step s a = some s') : Inv s' := by
  have hassigned' := h.assigned.step hbelow hstep
  cases moves_of_step hstep with
  | @assigned _ restart state tasks hstates hgeneration hcounter hmarker hassigned htasks hmark
      hunmark =>
    have hold {m : ℕ × Bool} (hm : m ∈ s.assigned) : m ∈ s'.assigned := by
      rw [hassigned]
      exact mem_append_left _ hm
    have hnew : (s.coordinator.nextGeneration, restart) ∈ s'.assigned := by
      rw [hassigned]
      exact mem_append_right _ (mem_singleton_self _)
    refine ⟨hassigned', fun g hg => ?_, fun g hg => ?_, fun g hg => ?_, fun counter hc hm => ?_⟩
    · rw [hmarker] at hg
      exact hold (h.marker g hg)
    · rw [htasks, mem_append, hmark] at hg
      rcases hg with hg | ⟨rfl, rfl⟩
      · exact hold (h.mark g hg)
      · exact hnew
    · rw [htasks, mem_append] at hg
      rcases hg with hg | hg
      · exact hold (h.unmark g hg)
      · obtain ⟨rfl, rfl⟩ := hunmark g hg
        exact hnew
    · have heq : counter = s.coordinator.nextGeneration := some.inj (hc.symm.trans hcounter)
      rw [heq] at hm ⊢
      refine .inr ?_
      rw [htasks, mem_append, hmark]
      exact .inr ⟨rfl, hassigned'.eq_of_mem hnew hm⟩
  | @marked i now generation htask hs' =>
    subst hs'
    have hmem : Task.mark generation ∈ s.tasks := mem_of_getElem? htask
    refine ⟨hassigned', fun g hg => ?_, fun g hg => ?_, fun g hg => ?_, fun counter hc hm => ?_⟩
    · cases hg
      exact h.mark generation hmem
    · exact h.mark g (mem_of_mem_eraseIdx hg)
    · exact h.unmark g (mem_of_mem_eraseIdx hg)
    · by_cases hg : generation = counter
      · exact .inl (congrArg some hg)
      · exact .inr (h.restart_of_marks hok rfl htask (.inl rfl) hg hc hm)
  | @unmarked i now generation htask hs' =>
    subst hs'
    have hmem : Task.unmark generation ∈ s.tasks := mem_of_getElem? htask
    refine ⟨hassigned', nofun, fun g hg => ?_, fun g hg => ?_, fun counter hc hm => ?_⟩
    · exact h.mark g (mem_of_mem_eraseIdx hg)
    · exact h.unmark g (mem_of_mem_eraseIdx hg)
    · by_cases hg : generation = counter
      · have hfalse := h.unmark generation hmem
        rw [hg] at hfalse
        exact absurd (h.assigned.eq_of_mem hm hfalse) nofun
      · exact .inr (h.restart_of_marks hok rfl htask (.inr rfl) hg hc hm)
  | other hkeeps hassigned hmark hunmark =>
    refine ⟨hassigned', fun g hg => ?_, fun g hg => ?_, fun g hg => ?_, fun counter hc hm => ?_⟩
    · rw [hassigned]
      exact h.marker g (hkeeps.marker ▸ hg)
    · rw [hassigned]
      exact h.mark g ((hmark g).1 hg)
    · rw [hassigned]
      exact h.unmark g (hunmark g hg)
    · rw [hassigned] at hm
      rw [hkeeps.counter] at hc
      rw [hkeeps.marker, hmark]
      exact h.restart counter hc hm

/-! ## The runs -/

/-- Where no operation is in flight, the current generation is marked exactly if a restart
assigned it. -/
def Disciplined (s : Session) : Prop :=
  s.tasks = [] → ∀ generation, s.coordinator.generations = some generation →
    (s.coordinator.isRestartGeneration generation = true ↔ (generation, true) ∈ s.assigned)

theorem assigned_start : Assigned start :=
  ⟨Pairwise.nil, rfl, fun _ h => absurd h.symm (some_ne_none _)⟩

theorem assigned_of_reachable (h : Reachable step Below (· = start) s) : Assigned s := by
  refine h.invariant ?_ fun s a s' hs hok hstep => hs.step hok hstep
  rintro s rfl
  exact assigned_start

theorem inv_of_reachable (h : Reachable step (fun s a => Below s a ∧ InOrder s a) (· = start) s) :
    Inv s := by
  refine h.invariant ?_ fun s a s' hs hok hstep => hs.step hok.1 hok.2 hstep
  rintro s rfl
  exact ⟨assigned_start, nofun, nofun, nofun, nofun⟩

theorem Inv.disciplined (h : Inv s) : Disciplined s := by
  intro htasks generation hgeneration
  unfold McpRefreshCoordinator.isRestartGeneration
  rw [decide_eq_true_iff]
  constructor
  · exact h.marker generation
  · intro hm
    refine (h.restart generation hgeneration hm).resolve_right ?_
    rw [htasks]
    exact not_mem_nil

/-- The generations that are assigned strictly increase until the counter is at its bound; a
confirmation or a failure of another generation changes nothing; and where no operation of an older
generation changes the marker of the current one, the current generation is marked exactly if a
restart assigned it. -/
theorem generation_discipline (s : Session) (c : McpRefreshCoordinator) (generation : ℕ) :
    (Reachable step Below (· = start) s → (s.assigned.map (·.1)).Pairwise (· < ·) ∧
      ∀ state, s.coordinator.states = some state →
        s.coordinator.generations = some state.generation) ∧
    (c.states.map (·.generation) ≠ some generation → ∀ fresh category servers now,
      c.confirm generation servers now = (c, none) ∧
        c.failState fresh generation category now = (c, none)) ∧
    (Reachable step (fun s a => Below s a ∧ InOrder s a) (· = start) s → Disciplined s) := by
  refine ⟨fun hs => ?_, fun h fresh category servers now => ?_, fun hs => ?_⟩
  · exact ⟨(assigned_of_reachable hs).increasing, (assigned_of_reachable hs).current⟩
  · exact ⟨confirm_stale h, failState_stale h⟩
  · exact (inv_of_reachable hs).disciplined

/-- Two restarts overlap and the older one marks last. -/
theorem overtaken_restart : ∃ s, Reachable step Below (· = start) s ∧ s.tasks = [] ∧
      s.coordinator.generations = some 2 ∧ (2, true) ∈ s.assigned ∧
      s.coordinator.isRestartGeneration 2 = false ∧ ¬ Disciplined s := by
  have hexec : ∃ s, exec step Below start
      [.requestRestart [] 10, .requestRestart [] 11, .task 1 12, .task 0 12] = some s ∧
      s.tasks = [] ∧ s.coordinator.generations = some 2 ∧ (2, true) ∈ s.assigned ∧
        s.coordinator.isRestartGeneration 2 = false := by
    refine ⟨_, rfl, ?_⟩
    decide
  obtain ⟨s, hs, htasks, hcounter, hmem, hmarked⟩ := hexec
  refine ⟨s, reachable_of_exec rfl hs, htasks, hcounter, hmem, hmarked, fun h => ?_⟩
  rw [(h htasks 2 hcounter).2 hmem] at hmarked
  cases hmarked

end Session

end VibeKanban.Mcp.Refresh

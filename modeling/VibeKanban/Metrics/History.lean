import VibeKanban.Cluster.WorkerNodes
import VibeKanban.Lib.Runs
import VibeKanban.Lib.Tasks
import VibeKanban.Lib.Update

/-!
# The history of a node's metrics (`services/cluster/metrics.rs`)

A node's samples are numbered by its sampler (`node-metrics/src/sampler.rs`). The coordinator
appends what is newer than its cursor for the node: its own samples in `ingest_local`, which every
round and every snapshot calls, and those of the workers in `collect_round`. Cursors are read and
batches applied under the lock of the nodes; a batch is fetched without it.

A sample has the number of the run of its sampler, which is not data of the code. The counter of the
generations does not wrap.

* `snapshots_clean`: every history is a clean window, if the cursor of `ingest_local` has not moved
  when it applies its samples, and replies are of the run of the history.
* `ownCursor_runs`: only `ingest_local` moves that cursor.
-/

namespace VibeKanban.Metrics

open Lib Cluster List Nat
open Function (update update_apply update_of_ne update_self)

variable {π : Type*}

/-! ## A sampler (`node-metrics`) -/

/-- `HostSample`, as far as the coordinator reads it; `π` is the table of processes. -/
structure HostSample (π : Type*) where
  sequence : ℕ
  hostname : String
  capturedAt : Instant
  processes : Option π
  run : ℕ

/-- `SampleBatch` (types.rs, lines 246-253). -/
structure SampleBatch (π : Type*) where
  samples : List (HostSample π)
  earliestRetainedSequence : ℕ
  latestSequence : ℕ

/-- `has_gap` (types.rs, lines 269-271). -/
def SampleBatch.hasGap (batch : SampleBatch π) (after : ℕ) : Bool :=
  0 < after && after + 1 < batch.earliestRetainedSequence

structure SamplerConfig where
  intervalMs : ℕ
  retention : ℕ

/-- `MetricsSampler`: its ring, and the number of its run. -/
structure MetricsSampler (π : Type*) where
  run : ℕ
  samples : List (HostSample π)
  latest : ℕ

namespace MetricsSampler

variable (sampler : MetricsSampler π)

/-- Only the newest sample keeps its processes (sampler.rs, lines 99-103). -/
def demoteLast (samples : List (HostSample π)) : List (HostSample π) :=
  samples.dropLast ++ samples.getLast?.toList.map fun sample => { sample with processes := none }

/-- `sample_now` (sampler.rs, lines 78-116). -/
def sampleNow (config : SamplerConfig) (hostname : String) (capturedAt : Instant)
    (processes : Option π) : MetricsSampler π :=
  let sequence := sampler.latest + 1
  let samples := demoteLast sampler.samples ++
    [⟨sequence, hostname, capturedAt, processes, sampler.run⟩]
  { sampler with
    samples := samples.drop (samples.length - max config.retention 1)
    latest := sequence }

/-- `since` (sampler.rs, lines 122-142). -/
def since (after : ℕ) : SampleBatch π where
  samples := sampler.samples.filter fun sample => after < sample.sequence
  earliestRetainedSequence := (sampler.samples.head?.map (·.sequence)).getD 0
  latestSequence := sampler.latest

/-- A new process of the worker. -/
def restarted : MetricsSampler π := ⟨sampler.run + 1, [], 0⟩

end MetricsSampler

/-! ## A node of the coordinator -/

inductive NodeMetricsAvailability where
  | available
  | stale (since : Instant)
  | notCollected
  | unsupported (platform : String)
  | unreachable (reason : String)
  | notImplemented
  deriving DecidableEq

inductive MetricsFetchError where
  | unreachable (reason : String)
  | notImplemented

/-- `NodeState` (lines 182-193). -/
structure NodeState (π : Type*) where
  generation : ℕ
  cursor : ℕ
  availability : NodeMetricsAvailability
  hostname : Option String
  latest : Option (HostSample π)
  history : List (HostSample π)
  lastContactAt : Option Instant
  lastSampleAt : Option Instant

abbrev Outcome (π : Type*) := Except MetricsFetchError (SampleBatch π)

/-- A history entry has no table of processes (lines 678-681). -/
def HostSample.stripped (sample : HostSample π) : HostSample π := { sample with processes := none }

def staleAfterTicks : ℕ := 5

/-- `retention_window` (lines 562-567), in microseconds. -/
def retentionWindow (config : SamplerConfig) : ℤ :=
  let milliseconds := config.intervalMs * config.retention
  if milliseconds ≤ 2 ^ 63 - 1 then milliseconds * 1000 else 300 * 1000000

namespace NodeState

/-- `NodeState::new` (lines 196-207). -/
def new (generation : ℕ) : NodeState π := ⟨generation, 0, .notCollected, none, none, [], none, none⟩

variable (state : NodeState π)

/-- `clear_readings` (lines 209-212). -/
def clearReadings : NodeState π := { state with latest := none, history := [] }

/-- One sample of the batch (lines 673-683). -/
def push (sample : HostSample π) : NodeState π :=
  { state with
    lastSampleAt := some sample.capturedAt
    hostname := some sample.hostname
    cursor := max state.cursor sample.sequence
    history := state.history ++ [sample.stripped]
    latest := some sample }

/-- The state before the samples of a batch (lines 657-670). -/
def reset (cursor : ℕ) (batch : SampleBatch π) (now : Instant) : NodeState π :=
  let state := { state with lastContactAt := some now }
  let state := if batch.latestSequence < cursor then { state with cursor := 0 }.clearReadings
    else state
  if batch.hasGap cursor then state.clearReadings else state

/-- What is kept of the history (lines 686-689). -/
def trimmed (config : SamplerConfig) : NodeState π :=
  { state with history := state.history.drop (state.history.length - max config.retention 1) }

/-- The badge after a successful contact (lines 691-702). -/
def badge (config : SamplerConfig) (received : Bool) (now : Instant) : NodeMetricsAvailability :=
  if received then .available
  else
    let since := state.lastSampleAt.getD now
    if state.latest.isSome ∧ now - since < config.intervalMs * staleAfterTicks * 1000
    then .available else .stale since

/-- `apply_outcome` (lines 636-703). -/
def applyOutcome (cursor : ℕ) (outcome : Outcome π) (now : Instant) (config : SamplerConfig) :
    NodeState π :=
  match outcome with
  | .error .notImplemented => { state with availability := .notImplemented }
  | .error (.unreachable reason) => { state with availability := .unreachable reason }
  | .ok batch =>
    let pushed := batch.samples.foldl push (state.reset cursor batch now)
    let state := ({ pushed with cursor := max pushed.cursor batch.latestSequence }).trimmed config
    { state with availability := state.badge config (!batch.samples.isEmpty) now }

/-- `expire_locked` on one node (lines 709-721). -/
def expired (now : Instant) (window : ℤ) : NodeState π :=
  if state.availability = .available then state
  else if state.latest.any (fun sample => window < now - sample.capturedAt) then state.clearReadings
  else state

end NodeState

/-! ## The service -/

inductive NodeId where
  | coordinator
  | worker (id : Uuid)
  deriving DecidableEq

/-- `NodeHealth` (lines 73-83). -/
structure NodeHealth where
  status : WorkerNodeStatus
  mountStatus : Option WorkerMountStatus
  leaseExpiresAt : Option Instant
  schedulable : Bool
  deriving DecidableEq

/-- `display_health` (lines 619-634). -/
def displayHealth (worker : WorkerNode) (now : Instant) : NodeHealth :=
  let leaseLapsed := worker.leaseExpiresAt.all (· ≤ now)
  let status := if worker.status = .online ∧ leaseLapsed = true then .offline else worker.status
  ⟨status, some worker.mountStatus, worker.leaseExpiresAt,
    status = .online ∧ worker.mountStatus = .healthy⟩

inductive NodeRole where
  | coordinator
  | worker

/-- `MetricsNode` (lines 87-104). -/
structure MetricsNode (π : Type*) where
  hostname : String
  role : NodeRole
  health : Option NodeHealth
  availability : NodeMetricsAvailability
  latest : Option (HostSample π)
  history : List (HostSample π)
  lastContactAt : Option Instant

/-- What `ClusterMetricsService` is built with. -/
structure ServiceConfig where
  sampler : SamplerConfig
  coordinatorHostname : String
  hasSource : Bool
  /-- `cfg!(target_os = "linux")` and `std::env::consts::OS`. -/
  linux : Bool
  platform : String

/-- The request to one node in a round. -/
structure Fetch (π : Type*) where
  node : Uuid
  generation : ℕ
  cursor : ℕ
  reply : Option (Outcome π)

inductive Caller where
  | round
  | snapshot

/-- A call of `collect_round` or `snapshot` with what it has read, by its next step. -/
inductive Task (π : Type*) where
  /-- `ingest_local` will read the cursor. -/
  | read (caller : Caller) (workers : List WorkerNode) (now : Instant)
  /-- `ingest_local` will ask the sampler. -/
  | since (caller : Caller) (workers : List WorkerNode) (now : Instant) (cursor : ℕ)
  /-- `ingest_local` will apply the batch. -/
  | apply (caller : Caller) (workers : List WorkerNode) (now : Instant) (cursor : ℕ)
      (batch : SampleBatch π)
  /-- The round will reconcile the nodes and read the cursors. -/
  | targets (workers : List WorkerNode) (now : Instant)
  /-- The round waits for the replies. -/
  | fetching (now : Instant) (fetches : List (Fetch π))
  /-- The round will expire old readings. -/
  | expire (now : Instant)
  | build (workers : List WorkerNode) (now : Instant)

/-- `ClusterMetricsService` with the samplers of the nodes, the calls in flight and the snapshots
that were returned. -/
structure ClusterMetrics (π : Type*) where
  nodes : NodeId → Option (NodeState π)
  generations : ℕ
  samplers : NodeId → MetricsSampler π
  tasks : List (Task π)
  snapshots : List (NodeId → Option (MetricsNode π))

inductive Act (π : Type*) where
  | collectRound (workers : List WorkerNode) (now : Instant)
  | snapshot (workers : List WorkerNode) (now : Instant)
  | task (i : ℕ)
  /-- A worker answers, or the request fails. -/
  | reply (i j : ℕ) (error : Option MetricsFetchError)
  | sampleNow (id : NodeId) (hostname : String) (capturedAt : Instant) (processes : Option π)
  | restart (worker : Uuid)

namespace ClusterMetrics

def start : ClusterMetrics π := ⟨fun _ => none, 1, fun _ => ⟨0, [], 0⟩, [], []⟩

/-- The call holds the lock of the rounds. -/
def isRound : Task π → Bool
  | .read .round _ _ | .since .round _ _ _ | .apply .round _ _ _ _ => true
  | .targets _ _ | .fetching _ _ | .expire _ => true
  | _ => false

/-- A missing node gets an entry of a new generation (lines 555-559). -/
def insertMissing (nodes : (NodeId → Option (NodeState π)) × ℕ) (worker : WorkerNode) :
    (NodeId → Option (NodeState π)) × ℕ :=
  match nodes.1 (.worker worker.id) with
  | some _ => nodes
  | none => (update nodes.1 (.worker worker.id) (some (.new nodes.2)), nodes.2 + 1)

/-- The nodes that have a row (line 554). -/
def retained (nodes : NodeId → Option (NodeState π)) (workers : List WorkerNode) :
    NodeId → Option (NodeState π)
  | .coordinator => nodes .coordinator
  | .worker id => if id ∈ workers.map (·.id) then nodes (.worker id) else none

/-- `reconcile` (lines 551-560). -/
def reconcile (nodes : NodeId → Option (NodeState π)) (generations : ℕ)
    (workers : List WorkerNode) : (NodeId → Option (NodeState π)) × ℕ :=
  workers.foldl insertMissing (retained nodes workers, generations)

/-- `expire_locked` (lines 709-721). -/
def expireLocked (config : ServiceConfig) (nodes : NodeId → Option (NodeState π)) (now : Instant) :
    NodeId → Option (NodeState π) :=
  fun id => (nodes id).map fun state => state.expired now (retentionWindow config.sampler)

/-- The entry of a node in a snapshot (lines 459-510). -/
def metricsNode (state : Option (NodeState π)) (hostname : String) (role : NodeRole)
    (health : Option NodeHealth) : MetricsNode π where
  hostname := (state.bind (·.hostname)).getD hostname
  role := role
  health := health
  availability := (state.map (·.availability)).getD .notCollected
  latest := state.bind (·.latest)
  history := (state.map (·.history)).getD []
  lastContactAt := state.bind (·.lastContactAt)

/-- The nodes of a snapshot (lines 450-513). -/
def built (config : ServiceConfig) (nodes : NodeId → Option (NodeState π))
    (workers : List WorkerNode) (now : Instant) : NodeId → Option (MetricsNode π)
  | .coordinator =>
    some (metricsNode (nodes .coordinator) config.coordinatorHostname .coordinator none)
  | .worker id => (workers.find? (·.id = id)).map fun worker =>
    metricsNode (nodes (.worker id)) worker.hostname .worker (some (displayHealth worker now))

/-- The cursors that a round reads (lines 393-405). -/
def targets (nodes : NodeId → Option (NodeState π)) (workers : List WorkerNode) (now : Instant) :
    List (Fetch π) :=
  (workers.filter fun worker => (displayHealth worker now).status ≠ .offline).filterMap
    fun worker => (nodes (.worker worker.id)).map fun state =>
      ⟨worker.id, state.generation, state.cursor, none⟩

/-- One result of a round (lines 428-440). -/
def applyFetch (config : ServiceConfig) (now : Instant) (nodes : NodeId → Option (NodeState π))
    (fetch : Fetch π) : NodeId → Option (NodeState π) :=
  match nodes (.worker fetch.node), fetch.reply with
  | some state, some outcome =>
    if state.generation ≠ fetch.generation then nodes
    else update nodes (.worker fetch.node)
      (some (state.applyOutcome fetch.cursor outcome now config.sampler))
  | _, _ => nodes

/-- The last part of `ingest_local` (lines 533-549). -/
def applyLocal (config : ServiceConfig) (s : ClusterMetrics π) (cursor : ℕ) (batch : SampleBatch π)
    (now : Instant) : NodeState π :=
  let state := (s.nodes .coordinator).getD (.new s.generations)
  if batch.latestSequence = 0 ∧ config.linux = false then
    { state with availability := .unsupported config.platform }
  else state.applyOutcome cursor (.ok batch) now config.sampler

/-- What a call does after `ingest_local`. -/
def afterIngest (workers : List WorkerNode) (now : Instant) : Caller → Task π
  | .round => .targets workers now
  | .snapshot => .build workers now

/-- A call goes on with its next step; `none` while it waits. -/
def runTask (config : ServiceConfig) (s : ClusterMetrics π) (i : ℕ) :
    Task π → Option (ClusterMetrics π)
  | .read caller workers now =>
    let cursor := ((s.nodes .coordinator).map (·.cursor)).getD 0
    some { s with tasks := s.tasks.set i (.since caller workers now cursor) }
  | .since caller workers now cursor =>
    let batch := (s.samplers .coordinator).since cursor
    some { s with tasks := s.tasks.set i (.apply caller workers now cursor batch) }
  | .apply caller workers now cursor batch => some { s with
      nodes := update s.nodes .coordinator (some (applyLocal config s cursor batch now))
      generations := s.generations + 1
      tasks := s.tasks.set i (afterIngest workers now caller) }
  | .targets workers now =>
    let reconciled := reconcile s.nodes s.generations workers
    let fetches := targets reconciled.1 workers now
    let next := if config.hasSource = false ∨ fetches = [] then .expire now
      else .fetching now fetches
    some { s with
      nodes := reconciled.1
      generations := reconciled.2
      tasks := s.tasks.set i next }
  | .fetching now fetches =>
    if fetches.all (·.reply.isSome) then some { s with
      nodes := fetches.foldl (applyFetch config now) s.nodes
      tasks := s.tasks.set i (.expire now) }
    else none
  | .expire now => some { s with
      nodes := expireLocked config s.nodes now
      tasks := s.tasks.eraseIdx i }
  | .build workers now =>
    let reconciled := reconcile s.nodes s.generations workers
    let nodes := expireLocked config reconciled.1 now
    some { s with
      nodes := nodes
      generations := reconciled.2
      tasks := s.tasks.eraseIdx i
      snapshots := s.snapshots ++ [built config nodes workers now] }

/-- The reply to the request `j` of a round. -/
def replied (s : ClusterMetrics π) (error : Option MetricsFetchError) (fetch : Fetch π) : Fetch π :=
  { fetch with reply := some (match error with
    | some error => .error error
    | none => .ok ((s.samplers (.worker fetch.node)).since fetch.cursor)) }

def step (config : ServiceConfig) (s : ClusterMetrics π) : Act π → Option (ClusterMetrics π)
  | .collectRound workers now =>
    -- `try_lock`, and the ids of the rows are unique
    if s.tasks.any isRound = true ∨ ¬ (workers.map (·.id)).Nodup then none
    else some { s with tasks := s.tasks ++ [.read .round workers now] }
  | .snapshot workers now =>
    if (workers.map (·.id)).Nodup then
      some { s with tasks := s.tasks ++ [.read .snapshot workers now] }
    else none
  | .task i => (s.tasks[i]?).bind (runTask config s i)
  | .reply i j error =>
    match s.tasks[i]? with
    | some (.fetching now fetches) =>
      match fetches[j]? with
      | some fetch =>
        if fetch.reply.isSome then none
        else some { s with
          tasks := s.tasks.set i (.fetching now (fetches.set j (replied s error fetch))) }
      | none => none
    | _ => none
  | .sampleNow id hostname capturedAt processes => some { s with
      samplers := update s.samplers id
        ((s.samplers id).sampleNow config.sampler hostname capturedAt processes) }
  | .restart worker => some { s with
      samplers := update s.samplers (.worker worker) (s.samplers (.worker worker)).restarted }

end ClusterMetrics

/-! ## A clean window -/

/-- The samples are of one run and in order. -/
structure InOrder (samples : List (HostSample π)) : Prop where
  increasing : (samples.map (·.sequence)).Pairwise (· < ·)
  one_run : ∀ a ∈ samples, ∀ b ∈ samples, a.run = b.run

open ClusterMetrics

theorem inOrder_nil : InOrder ([] : List (HostSample π)) := ⟨Pairwise.nil, nofun⟩

section

variable {samples samples' : List (HostSample π)} (h : InOrder samples)
include h

theorem InOrder.sublist (hsub : samples'.Sublist samples) : InOrder samples' :=
  ⟨h.increasing.sublist (hsub.map _), fun a ha b hb =>
    h.one_run a (hsub.subset ha) b (hsub.subset hb)⟩

theorem InOrder.append (h' : InOrder samples')
    (hlt : ∀ a ∈ samples, ∀ b ∈ samples', a.sequence < b.sequence)
    (hrun : ∀ a ∈ samples, ∀ b ∈ samples', a.run = b.run) : InOrder (samples ++ samples') := by
  constructor
  · rw [map_append, pairwise_append]
    refine ⟨h.increasing, h'.increasing, ?_⟩
    intro n hn m hm
    obtain ⟨a, ha, rfl⟩ := mem_map.1 hn
    obtain ⟨b, hb, rfl⟩ := mem_map.1 hm
    exact hlt a ha b hb
  · intro a ha b hb
    rcases mem_append.1 ha with ha | ha
    · rcases mem_append.1 hb with hb | hb
      · exact h.one_run a ha b hb
      · exact hrun a ha b hb
    · rcases mem_append.1 hb with hb | hb
      · exact (hrun b hb a ha).symm
      · exact h'.one_run a ha b hb

end

/-- What the entry of a node is to be in a snapshot. -/
structure CleanWindow (retention : ℕ) (history : List (HostSample π))
    (latest : Option (HostSample π)) : Prop where
  in_order : InOrder history
  bounded : history.length ≤ retention
  last : history.getLast? = latest.map HostSample.stripped

theorem cleanWindow_nil {retention : ℕ} : CleanWindow retention ([] : List (HostSample π)) none :=
  ⟨inOrder_nil, zero_le _, rfl⟩

/-- The history of a node is a clean window up to its cursor. -/
structure NodeState.Clean (retention : ℕ) (state : NodeState π) : Prop where
  window : CleanWindow retention state.history state.latest
  le_cursor : ∀ sample ∈ state.history, sample.sequence ≤ state.cursor

/-- The coordinator forgets what it has of the node: the worker has restarted, or samples are
missing. -/
def Cleared (cursor : ℕ) (batch : SampleBatch π) : Prop :=
  batch.latestSequence < cursor ∨ batch.hasGap cursor = true
  deriving Decidable

/-- The samples of the batch come after those of the history. -/
def Follows (state : NodeState π) (batch : SampleBatch π) : Prop :=
  ∀ old ∈ state.history, ∀ sample ∈ batch.samples,
    old.sequence < sample.sequence ∧ old.run = sample.run

namespace NodeState

variable {state : NodeState π} {retention : ℕ} {cursor : ℕ} {batch : SampleBatch π} {now : Instant}
  {samples : List (HostSample π)} {config : SamplerConfig} {outcome : Outcome π}

theorem clean_new {generation : ℕ} : Clean retention (new generation : NodeState π) :=
  ⟨cleanWindow_nil, nofun⟩

theorem Clean.clearReadings (_ : Clean retention state) : Clean retention state.clearReadings :=
  ⟨cleanWindow_nil, nofun⟩

theorem Clean.expired {window : ℤ} (h : Clean retention state) :
    Clean retention (state.expired now window) := by
  unfold NodeState.expired
  split
  · exact h
  · split
    · exact h.clearReadings
    · exact h

theorem expired_kept (state : NodeState π) (now : Instant) (window : ℤ) :
    (state.expired now window).generation = state.generation ∧
      (state.expired now window).cursor = state.cursor ∧
      ∀ sample ∈ (state.expired now window).history, sample ∈ state.history := by
  unfold NodeState.expired
  split
  · exact ⟨rfl, rfl, fun _ hm => hm⟩
  · split
    · exact ⟨rfl, rfl, nofun⟩
    · exact ⟨rfl, rfl, fun _ hm => hm⟩

theorem history_foldl_push : (samples.foldl push state).history =
    state.history ++ samples.map HostSample.stripped := by
  induction samples generalizing state with
  | nil => simp
  | cons sample samples ih =>
    rw [foldl_cons, ih, push]
    simp

theorem latest_foldl_push : (samples.foldl push state).latest =
    samples.getLast?.or state.latest := by
  induction samples generalizing state with
  | nil => rfl
  | cons sample samples ih =>
    rw [foldl_cons, ih, push, getLast?_cons]
    cases samples.getLast? <;> rfl

theorem cursor_foldl_push (state : NodeState π) (samples : List (HostSample π)) :
    state.cursor ≤ (samples.foldl push state).cursor ∧
    ∀ sample ∈ samples, sample.sequence ≤ (samples.foldl push state).cursor := by
  induction samples generalizing state with
  | nil => exact ⟨le_rfl, nofun⟩
  | cons sample samples ih =>
    obtain ⟨hcursor, hsamples⟩ := ih (state.push sample)
    have hle : max state.cursor sample.sequence ≤ (samples.foldl push (state.push sample)).cursor :=
      hcursor
    refine ⟨le_trans (le_max_left _ _) hle, fun a ha => ?_⟩
    rcases mem_cons.1 ha with rfl | ha
    · exact le_trans (le_max_right _ _) hle
    · exact hsamples a ha

theorem reset_cases (state : NodeState π) (cursor : ℕ) (batch : SampleBatch π) (now : Instant) :
    (state.reset cursor batch now).history = [] ∧ (state.reset cursor batch now).latest = none ∨
    ¬ Cleared cursor batch ∧ (state.reset cursor batch now).history = state.history ∧
      (state.reset cursor batch now).latest = state.latest ∧
      (state.reset cursor batch now).cursor = state.cursor := by
  by_cases hgap : batch.hasGap cursor = true
  · refine .inl ?_
    unfold reset
    simp only [hgap, if_true]
    exact ⟨rfl, rfl⟩
  · by_cases hrestart : batch.latestSequence < cursor
    · refine .inl ?_
      unfold reset
      simp only [hgap, hrestart, if_true]
      exact ⟨rfl, rfl⟩
    · refine .inr ⟨fun hcleared => hcleared.elim hrestart hgap, ?_⟩
      unfold reset
      simp only [hgap, if_false, hrestart]
      exact ⟨rfl, rfl, rfl⟩

theorem inOrder_stripped (h : InOrder samples) : InOrder (samples.map HostSample.stripped) := by
  constructor
  · rw [map_map]
    exact h.increasing
  · intro a ha b hb
    obtain ⟨a', ha', rfl⟩ := mem_map.1 ha
    obtain ⟨b', hb', rfl⟩ := mem_map.1 hb
    exact h.one_run a' ha' b' hb'

theorem getLast?_drop {history : List (HostSample π)} {n : ℕ} (hn : 0 < n) :
    (history.drop (history.length - n)).getLast? = history.getLast? := by
  by_cases hnil : history = []
  · rw [hnil, drop_nil]
  · have hpos : 0 < history.length := length_pos_iff.2 hnil
    rw [List.getLast?_drop, if_neg (by omega)]

theorem applyOutcome_ok (state : NodeState π) (cursor : ℕ) (batch : SampleBatch π) (now : Instant)
    (config : SamplerConfig) : (state.applyOutcome cursor (.ok batch) now config).history =
      (batch.samples.foldl push (state.reset cursor batch now)).history.drop
        ((batch.samples.foldl push (state.reset cursor batch now)).history.length -
          max config.retention 1) ∧ (state.applyOutcome cursor (.ok batch) now config).latest =
      (batch.samples.foldl push (state.reset cursor batch now)).latest ∧
    (state.applyOutcome cursor (.ok batch) now config).cursor =
      max (batch.samples.foldl push (state.reset cursor batch now)).cursor batch.latestSequence :=
  ⟨rfl, rfl, rfl⟩

theorem generation_foldl_push : (samples.foldl push state).generation = state.generation := by
  induction samples generalizing state with
  | nil => rfl
  | cons sample samples ih => exact ih

theorem generation_applyOutcome :
    (state.applyOutcome cursor outcome now config).generation = state.generation := by
  cases outcome with
  | error error => cases error with
    | unreachable reason => rfl
    | notImplemented => rfl
  | ok batch =>
    have hreset : (state.reset cursor batch now).generation = state.generation := by
      unfold reset
      split <;> split <;> rfl
    rw [← hreset]
    exact generation_foldl_push

theorem mem_history_applyOutcome {sample : HostSample π}
    (hm : sample ∈ (state.applyOutcome cursor (.ok batch) now config).history) :
    sample ∈ state.history ∨ ∃ new ∈ batch.samples, sample = new.stripped := by
  rw [(applyOutcome_ok _ _ _ _ _).1, history_foldl_push] at hm
  rcases mem_append.1 (mem_of_mem_drop hm) with hm | hm
  · rcases reset_cases state cursor batch now with
      ⟨hnil, -⟩ | ⟨-, hsame, -⟩
    · rw [hnil] at hm
      cases hm
    · rw [hsame] at hm
      exact .inl hm
  · obtain ⟨new, hnew, rfl⟩ := mem_map.1 hm
    exact .inr ⟨new, hnew, rfl⟩

theorem Clean.applyOutcome_error {error : MetricsFetchError} (h : Clean retention state) :
    Clean retention (state.applyOutcome cursor (.error error) now config) := by
  cases error with
  | unreachable reason | notImplemented => exact ⟨h.window, h.le_cursor⟩

theorem Clean.applyOutcome (h : Clean (max config.retention 1) state)
    (hsamples : InOrder batch.samples) (hfits : Cleared cursor batch ∨ Follows state batch) :
    Clean (max config.retention 1) (state.applyOutcome cursor (.ok batch) now config) := by
  obtain ⟨hhistory', hlatest', hcursor'⟩ := applyOutcome_ok state cursor batch now config
  generalize hstart : state.reset cursor batch now = start at hhistory' hlatest' hcursor'
  -- the state that the samples are pushed to
  have hstart' : InOrder start.history ∧
      (start.history.getLast? = start.latest.map HostSample.stripped) ∧
      (∀ sample ∈ start.history, sample.sequence ≤ start.cursor) ∧
      ∀ old ∈ start.history, ∀ sample ∈ batch.samples,
        old.sequence < sample.sequence ∧ old.run = sample.run := by
    rcases reset_cases state cursor batch now with
      ⟨hhistory, hlatest⟩ | ⟨hkept, hhistory, hlatest, hcursor⟩
    · rw [hstart] at hhistory hlatest
      rw [hhistory, hlatest]
      exact ⟨inOrder_nil, rfl, nofun, nofun⟩
    · rw [hstart] at hhistory hlatest hcursor
      rw [hhistory, hlatest, hcursor]
      exact ⟨h.window.in_order, h.window.last, h.le_cursor, hfits.resolve_left hkept⟩
  obtain ⟨horder, hlast, hcursor, hfollow⟩ := hstart'
  have hhistory : (batch.samples.foldl push start).history =
      start.history ++ batch.samples.map HostSample.stripped := history_foldl_push
  have hpushed : InOrder (batch.samples.foldl push start).history := by
    rw [hhistory]
    refine horder.append (inOrder_stripped hsamples) ?_ ?_
    · intro a ha b hb
      obtain ⟨b', hb', rfl⟩ := mem_map.1 hb
      exact (hfollow a ha b' hb').1
    · intro a ha b hb
      obtain ⟨b', hb', rfl⟩ := mem_map.1 hb
      exact (hfollow a ha b' hb').2
  refine ⟨⟨?_, ?_, ?_⟩, ?_⟩
  · rw [hhistory']
    exact hpushed.sublist (drop_sublist _ _)
  · rw [hhistory', length_drop]
    omega
  · rw [hhistory', hlatest', getLast?_drop (by omega), hhistory, latest_foldl_push,
      getLast?_append, getLast?_map, hlast]
    cases batch.samples.getLast? <;> rfl
  · intro sample hm
    rw [hhistory'] at hm
    have hm := mem_of_mem_drop hm
    obtain ⟨hle, hall⟩ := cursor_foldl_push start batch.samples
    rw [hcursor']
    refine le_trans ?_ (le_max_left _ _)
    rw [hhistory] at hm
    rcases mem_append.1 hm with hm | hm
    · exact (hcursor sample hm).trans hle
    · obtain ⟨sample', hm', rfl⟩ := mem_map.1 hm
      exact hall sample' hm'

end NodeState

/-! ## What a sampler gives -/

namespace MetricsSampler

variable {sampler : MetricsSampler π} {samples : List (HostSample π)}

/-- The ring holds samples of its run up to the newest. -/
structure Ok (sampler : MetricsSampler π) : Prop where
  in_order : InOrder sampler.samples
  le_latest : ∀ sample ∈ sampler.samples, sample.sequence ≤ sampler.latest
  of_run : ∀ sample ∈ sampler.samples, sample.run = sampler.run

theorem Ok.empty {run : ℕ} : Ok (⟨run, [], 0⟩ : MetricsSampler π) := ⟨inOrder_nil, nofun, nofun⟩

theorem map_demoteLast {α : Type*} {f : HostSample π → α}
    (hf : ∀ sample : HostSample π, f { sample with processes := none } = f sample) :
    (demoteLast samples).map f = samples.map f := by
  induction samples using reverseRecOn with
  | nil => rfl
  | append_singleton samples sample _ => simp [demoteLast, hf]

theorem exists_of_mem_demoteLast {sample : HostSample π} (hm : sample ∈ demoteLast samples) :
    ∃ old ∈ samples, old.sequence = sample.sequence ∧ old.run = sample.run := by
  have hmem : (sample.sequence, sample.run) ∈
      (demoteLast samples).map fun sample => (sample.sequence, sample.run) := mem_map_of_mem hm
  rw [map_demoteLast fun _ => rfl] at hmem
  obtain ⟨old, hold, heq⟩ := mem_map.1 hmem
  exact ⟨old, hold, (Prod.mk.inj heq).1, (Prod.mk.inj heq).2⟩

theorem inOrder_demoteLast (h : InOrder samples) : InOrder (demoteLast samples) := by
  constructor
  · rw [map_demoteLast fun _ => rfl]
    exact h.increasing
  · intro a ha b hb
    obtain ⟨a', ha', -, ha⟩ := exists_of_mem_demoteLast ha
    obtain ⟨b', hb', -, hb⟩ := exists_of_mem_demoteLast hb
    rw [← ha, ← hb]
    exact h.one_run a' ha' b' hb'

theorem Ok.sampleNow {config : SamplerConfig} {hostname : String} {capturedAt : Instant}
    {processes : Option π} (h : Ok sampler) :
    Ok (sampler.sampleNow config hostname capturedAt processes) := by
  have hold : ∀ a ∈ demoteLast sampler.samples,
      a.sequence ≤ sampler.latest ∧ a.run = sampler.run := by
    intro a ha
    obtain ⟨a', ha', hsequence, hrun⟩ := exists_of_mem_demoteLast ha
    rw [← hsequence, ← hrun]
    exact ⟨h.le_latest a' ha', h.of_run a' ha'⟩
  have horder : InOrder (demoteLast sampler.samples ++
      [⟨sampler.latest + 1, hostname, capturedAt, processes, sampler.run⟩]) := by
    refine (inOrder_demoteLast h.in_order).append ⟨pairwise_singleton _ _, ?_⟩ ?_ ?_
    · intro a ha b hb
      rw [mem_singleton.1 ha, mem_singleton.1 hb]
    · intro a ha b hb
      rw [mem_singleton.1 hb]
      exact lt_succ_of_le (hold a ha).1
    · intro a ha b hb
      rw [mem_singleton.1 hb]
      exact (hold a ha).2
  refine ⟨horder.sublist (drop_sublist _ _), fun a ha => ?_, fun a ha => ?_⟩
  · rcases mem_append.1 (mem_of_mem_drop ha) with ha | ha
    · exact (hold a ha).1.trans (le_succ _)
    · rw [mem_singleton.1 ha]
      exact le_rfl
  · rcases mem_append.1 (mem_of_mem_drop ha) with ha | ha
    · exact (hold a ha).2
    · rw [mem_singleton.1 ha]
      rfl

theorem Ok.since (h : Ok sampler) (after : ℕ) : InOrder (sampler.since after).samples ∧
    ∀ sample ∈ (sampler.since after).samples, after < sample.sequence ∧
    sample.run = sampler.run := by
  refine ⟨h.in_order.sublist filter_sublist, fun sample hm => ?_⟩
  obtain ⟨hm, hafter⟩ := mem_filter.1 hm
  exact ⟨of_decide_eq_true hafter, h.of_run sample hm⟩

end MetricsSampler

/-! ## The nodes -/

namespace ClusterMetrics

variable {config : ServiceConfig} {s s' : ClusterMetrics π} {a : Act π}
  {nodes nodes' : NodeId → Option (NodeState π)} {generations generations' : ℕ}
  {workers : List WorkerNode} {now : Instant} {fetch : Fetch π} {task : Task π}
  {id : NodeId} {i : ℕ}

/-- Every node has a clean window, and the coordinator's is of its only run. -/
structure NodesOk (config : ServiceConfig) (nodes : NodeId → Option (NodeState π))
    (generations : ℕ) : Prop where
  clean : ∀ id state, nodes id = some state → state.Clean (max config.sampler.retention 1)
  generation : ∀ id state, nodes id = some state → state.generation < generations
  of_run : ∀ state, nodes .coordinator = some state → ∀ sample ∈ state.history, sample.run = 0

/-- The workers' nodes keep their generations and cursors, or are of a new generation. -/
structure Keeps (nodes : NodeId → Option (NodeState π)) (generations : ℕ)
    (nodes' : NodeId → Option (NodeState π)) (generations' : ℕ) : Prop where
  le : generations ≤ generations'
  worker : ∀ id state', nodes' (.worker id) = some state' →
    (∃ state, nodes (.worker id) = some state ∧ state.generation = state'.generation ∧
      state.cursor = state'.cursor) ∨ generations ≤ state'.generation

theorem Keeps.trans {nodes'' : NodeId → Option (NodeState π)} {generations'' : ℕ}
    (h : Keeps nodes generations nodes' generations')
    (h' : Keeps nodes' generations' nodes'' generations'') :
    Keeps nodes generations nodes'' generations'' := by
  refine ⟨h.le.trans h'.le, fun id state'' hstate'' => ?_⟩
  rcases h'.worker id state'' hstate'' with ⟨state', hstate', hgeneration, hcursor⟩ | hnew
  · rw [← hgeneration, ← hcursor]
    exact h.worker id state' hstate'
  · exact .inr (h.le.trans hnew)

section

variable (h : NodesOk config nodes generations)

include h

theorem NodesOk.set {state : NodeState π} (hle : generations ≤ generations')
    (hclean : state.Clean (max config.sampler.retention 1))
    (hgeneration : state.generation < generations')
    (hrun : id = .coordinator → ∀ sample ∈ state.history, sample.run = 0) :
    NodesOk config (update nodes id (some state)) generations' := by
  refine ⟨fun other found hs => ?_, fun other found hs => ?_, fun found hs => ?_⟩
  all_goals rcases update_cases hs with ⟨hid, rfl⟩ | ⟨-, hs⟩
  · exact hclean
  · exact h.clean other found hs
  · exact hgeneration
  · exact (h.generation other found hs).trans_le hle
  · exact hrun hid.symm
  · exact h.of_run found hs

theorem NodesOk.retained : NodesOk config (retained nodes workers) generations ∧
      Keeps nodes generations (retained nodes workers) generations := by
  have hsub : ∀ id state, ClusterMetrics.retained nodes workers id = some state →
      nodes id = some state := by
    intro id state hstate
    cases id with
    | coordinator => exact hstate
    | worker id =>
      simp only [ClusterMetrics.retained] at hstate
      split at hstate
      · exact hstate
      · cases hstate
  refine ⟨⟨fun id state hs => h.clean id state (hsub id state hs),
    fun id state hs => h.generation id state (hsub id state hs),
    fun state hs => h.of_run state (hsub _ state hs)⟩, le_rfl, fun id state hs => ?_⟩
  exact .inl ⟨state, hsub _ state hs, rfl, rfl⟩

theorem NodesOk.insertMissing (worker : WorkerNode) :
    NodesOk config (insertMissing (nodes, generations) worker).1
        (insertMissing (nodes, generations) worker).2 ∧
      Keeps nodes generations (insertMissing (nodes, generations) worker).1
        (insertMissing (nodes, generations) worker).2 := by
  unfold ClusterMetrics.insertMissing
  split
  · exact ⟨h, le_rfl, fun id state hs => .inl ⟨state, hs, rfl, rfl⟩⟩
  · refine ⟨h.set (le_succ _) NodeState.clean_new (lt_succ_self _) nofun, le_succ _,
      fun id state hs => ?_⟩
    rcases update_cases hs with ⟨-, rfl⟩ | ⟨-, hs⟩
    · exact .inr le_rfl
    · exact .inl ⟨state, hs, rfl, rfl⟩

theorem NodesOk.reconcile (workers : List WorkerNode) :
    NodesOk config (reconcile nodes generations workers).1 (reconcile nodes generations workers).2 ∧
      Keeps nodes generations (ClusterMetrics.reconcile nodes generations workers).1
        (ClusterMetrics.reconcile nodes generations workers).2 := by
  have hfold (rows : List WorkerNode) (start : (NodeId → Option (NodeState π)) × ℕ)
      (hstart : NodesOk config start.1 start.2 ∧ Keeps nodes generations start.1 start.2) :
      NodesOk config (rows.foldl ClusterMetrics.insertMissing start).1
          (rows.foldl ClusterMetrics.insertMissing start).2 ∧
        Keeps nodes generations (rows.foldl ClusterMetrics.insertMissing start).1
          (rows.foldl ClusterMetrics.insertMissing start).2 := by
    induction rows generalizing start with
    | nil => exact hstart
    | cons worker rows ih =>
      refine ih _ ?_
      have hnext := hstart.1.insertMissing worker
      exact ⟨hnext.1, hstart.2.trans hnext.2⟩
  exact hfold workers (ClusterMetrics.retained nodes workers, generations) h.retained

theorem NodesOk.expireLocked (now : Instant) :
    NodesOk config (expireLocked config nodes now) generations ∧
      Keeps nodes generations (ClusterMetrics.expireLocked config nodes now) generations := by
  have hcases {id : NodeId} {state' : NodeState π}
      (hs : ClusterMetrics.expireLocked config nodes now id = some state') :
      ∃ state, nodes id = some state ∧
        state' = state.expired now (retentionWindow config.sampler) := by
    obtain ⟨state, hstate, rfl⟩ := Option.map_eq_some_iff.1 hs
    exact ⟨state, hstate, rfl⟩
  have hexpired := fun state : NodeState π => state.expired_kept now
  refine ⟨⟨fun id state' hs => ?_, fun id state' hs => ?_, fun state' hs sample hm => ?_⟩,
    le_rfl, fun id state' hs => ?_⟩
  · obtain ⟨state, hstate, rfl⟩ := hcases hs
    exact (h.clean id state hstate).expired
  · obtain ⟨state, hstate, rfl⟩ := hcases hs
    rw [(hexpired state _).1]
    exact h.generation id state hstate
  · obtain ⟨state, hstate, rfl⟩ := hcases hs
    exact h.of_run state hstate sample ((hexpired state _).2.2 sample hm)
  · obtain ⟨state, hstate, rfl⟩ := hcases hs
    exact .inl ⟨state, hstate, (hexpired state _).1.symm, (hexpired state _).2.1.symm⟩

end

theorem NodesOk.applyLocal {cursor : ℕ} {batch : SampleBatch π}
    (h : NodesOk config s.nodes s.generations) (hsamples : InOrder batch.samples)
    (hrun : ∀ sample ∈ batch.samples, sample.run = 0)
    (hfits : Cleared cursor batch ∨ ∀ state, s.nodes .coordinator = some state →
      ∀ old ∈ state.history, ∀ sample ∈ batch.samples, old.sequence < sample.sequence)
    (now : Instant) :
    NodesOk config (update s.nodes .coordinator (some (applyLocal config s cursor batch now)))
        (s.generations + 1) ∧ Keeps s.nodes s.generations
        (update s.nodes .coordinator (some (applyLocal config s cursor batch now)))
        (s.generations + 1) := by
  -- the coordinator's entry before the batch
  generalize hstate : (s.nodes .coordinator).getD (.new s.generations) = state
  have hbefore : state.Clean (max config.sampler.retention 1) ∧
      state.generation < s.generations + 1 ∧ (∀ sample ∈ state.history, sample.run = 0) ∧
      (Cleared cursor batch ∨ Follows state batch) := by
    cases hnode : s.nodes .coordinator with
    | none =>
      rw [hnode, Option.getD_none] at hstate
      rw [← hstate]
      exact ⟨NodeState.clean_new, lt_succ_self _, nofun, .inr nofun⟩
    | some old =>
      rw [hnode, Option.getD_some] at hstate
      rw [← hstate]
      have hruns := h.of_run old hnode
      refine ⟨h.clean _ old hnode, lt_succ_of_lt (h.generation _ old hnode), hruns, ?_⟩
      refine hfits.imp_right fun hfollows a ha sample hm => ?_
      exact ⟨hfollows old hnode a ha sample hm, (hruns a ha).trans (hrun sample hm).symm⟩
  obtain ⟨hclean, hgeneration, hruns, hfits⟩ := hbefore
  have hafter :
      (ClusterMetrics.applyLocal config s cursor batch now).Clean (max config.sampler.retention 1) ∧
      (ClusterMetrics.applyLocal config s cursor batch now).generation = state.generation ∧
      ∀ sample ∈ (ClusterMetrics.applyLocal config s cursor batch now).history, sample.run = 0 := by
    unfold ClusterMetrics.applyLocal
    simp only [hstate]
    split
    · exact ⟨⟨hclean.window, hclean.le_cursor⟩, rfl, hruns⟩
    · refine ⟨hclean.applyOutcome hsamples hfits, NodeState.generation_applyOutcome, ?_⟩
      intro sample hm
      rcases NodeState.mem_history_applyOutcome hm with hm | ⟨sample', hm', rfl⟩
      · exact hruns sample hm
      · exact hrun sample' hm'
  obtain ⟨hclean', hgeneration', hruns'⟩ := hafter
  refine ⟨h.set (le_succ _) hclean' (hgeneration' ▸ hgeneration) fun _ => hruns', le_succ _,
    fun id found hs => ?_⟩
  rcases update_cases hs with ⟨hid, -⟩ | ⟨-, hs⟩
  · cases hid
  · exact .inl ⟨found, hs, rfl, rfl⟩

/-! ## The requests of a round -/

/-- The request was made with the cursor that its node still has, unless the node was replaced. -/
structure FetchOk (nodes : NodeId → Option (NodeState π)) (generations : ℕ) (fetch : Fetch π) :
    Prop where
  generation : fetch.generation < generations
  cursor : ∀ state, nodes (.worker fetch.node) = some state →
    state.generation = fetch.generation → state.cursor = fetch.cursor
  batch : ∀ batch, fetch.reply = some (.ok batch) →
    InOrder batch.samples ∧ ∀ sample ∈ batch.samples, fetch.cursor < sample.sequence

theorem FetchOk.keeps (h : FetchOk nodes generations fetch)
    (hkeeps : Keeps nodes generations nodes' generations') : FetchOk nodes' generations' fetch := by
  refine ⟨h.generation.trans_le hkeeps.le, fun state' hstate' hgeneration => ?_, h.batch⟩
  rcases hkeeps.worker _ state' hstate' with ⟨state, hstate, heq, hcursor⟩ | hnew
  · rw [← hcursor]
    exact h.cursor state hstate (heq.trans hgeneration)
  · have := h.generation
    omega

/-- The reply is of the run that the node's history is of, or the history is forgotten. -/
def Fits (nodes : NodeId → Option (NodeState π)) (fetch : Fetch π) : Prop :=
  ∀ state ∈ nodes (.worker fetch.node), state.generation = fetch.generation →
    ∀ batch ∈ fetch.reply.bind Except.toOption, Cleared fetch.cursor batch ∨
      ∀ old ∈ state.history, ∀ sample ∈ batch.samples, old.run = sample.run
  deriving Decidable

theorem applyFetch_cases (config : ServiceConfig) (now : Instant)
    (nodes : NodeId → Option (NodeState π)) (fetch : Fetch π) :
    applyFetch config now nodes fetch = nodes ∨
    ∃ state outcome, nodes (.worker fetch.node) = some state ∧ fetch.reply = some outcome ∧
      state.generation = fetch.generation ∧
      applyFetch config now nodes fetch = update nodes (.worker fetch.node)
        (some (state.applyOutcome fetch.cursor outcome now config.sampler)) := by
  unfold applyFetch
  cases hstate : nodes (.worker fetch.node) with
  | none => exact .inl rfl
  | some state =>
    cases hreply : fetch.reply with
    | none => exact .inl rfl
    | some outcome =>
      by_cases hgeneration : state.generation = fetch.generation
      · exact .inr ⟨state, outcome, rfl, rfl, hgeneration, if_neg (not_not.2 hgeneration)⟩
      · exact .inl (if_pos hgeneration)

theorem applyFetch_of_ne (hne : id ≠ .worker fetch.node) :
    applyFetch config now nodes fetch id = nodes id := by
  rcases applyFetch_cases config now nodes fetch with
    heq | ⟨state, outcome, -, -, -, heq⟩
  · rw [heq]
  · rw [heq, update_of_ne hne]

theorem NodesOk.applyFetch (h : NodesOk config nodes generations)
    (hfetch : FetchOk nodes generations fetch) (hfits : Fits nodes fetch) :
    NodesOk config (applyFetch config now nodes fetch) generations := by
  rcases applyFetch_cases config now nodes fetch with
    heq | ⟨state, outcome, hstate, hreply, hgeneration, heq⟩
  · rw [heq]
    exact h
  · rw [heq]
    have hclean : (state.applyOutcome fetch.cursor outcome now config.sampler).Clean
        (max config.sampler.retention 1) := by
      have hstate' := h.clean _ state hstate
      cases outcome with
      | error error => exact hstate'.applyOutcome_error
      | ok batch =>
        obtain ⟨hsamples, hnewer⟩ := hfetch.batch batch hreply
        have hcursor := hfetch.cursor state hstate hgeneration
        refine hstate'.applyOutcome hsamples ?_
        have hfits := hfits state hstate hgeneration batch (by rw [hreply]; rfl)
        refine hfits.imp_right fun hrun old hold sample hm => ?_
        have hle := hstate'.le_cursor old hold
        have hlt := hnewer sample hm
        exact ⟨by omega, hrun old hold sample hm⟩
    refine h.set le_rfl hclean ?_ nofun
    rw [NodeState.generation_applyOutcome]
    exact h.generation _ state hstate

theorem NodesOk.foldl_applyFetch {fetches : List (Fetch π)} (h : NodesOk config nodes generations)
    (hnodup : (fetches.map (·.node)).Nodup)
    (hfetches : ∀ fetch ∈ fetches, FetchOk nodes generations fetch ∧ Fits nodes fetch) :
    NodesOk config (fetches.foldl (ClusterMetrics.applyFetch config now) nodes) generations := by
  induction fetches generalizing nodes with
  | nil => exact h
  | cons fetch fetches ih =>
    rw [map_cons, nodup_cons] at hnodup
    have hfirst := hfetches fetch mem_cons_self
    refine ih (h.applyFetch hfirst.1 hfirst.2) hnodup.2 fun other hm => ?_
    obtain ⟨hother, hfits⟩ := hfetches other (mem_cons_of_mem _ hm)
    -- the other requests are for other nodes
    have hne : other.node ≠ fetch.node := by
      intro heq
      refine hnodup.1 ?_
      rw [← heq]
      exact mem_map_of_mem hm
    have hsame : ClusterMetrics.applyFetch config now nodes fetch (.worker other.node) =
        nodes (.worker other.node) := applyFetch_of_ne fun heq => hne (NodeId.worker.inj heq)
    refine ⟨⟨hother.generation, ?_, hother.batch⟩, ?_⟩
    · rw [hsame]
      exact hother.cursor
    · unfold Fits
      rw [hsame]
      exact hfits

theorem targets_ok (hworkers : (workers.map (·.id)).Nodup) (h : NodesOk config nodes generations) :
    ((targets nodes workers now).map (·.node)).Nodup ∧
      ∀ fetch ∈ targets nodes workers now, FetchOk nodes generations fetch := by
  constructor
  · refine hworkers.sublist ?_
    unfold targets
    have hsub := (filter_sublist (l := workers)
      (p := fun worker => (displayHealth worker now).status ≠ .offline)).map (·.id)
    refine Sublist.trans ?_ hsub
    induction workers.filter fun worker => (displayHealth worker now).status ≠ .offline with
    | nil => exact Sublist.refl _
    | cons worker rest ih =>
      rw [filterMap_cons, map_cons]
      cases nodes (.worker worker.id) with
      | none => exact ih.cons _
      | some state => exact ih.cons_cons _
  · intro fetch hm
    obtain ⟨worker, -, hm⟩ := mem_filterMap.1 hm
    obtain ⟨state, hstate, rfl⟩ := Option.map_eq_some_iff.1 hm
    refine ⟨h.generation _ state hstate, fun state' hstate' _ => ?_, nofun⟩
    rw [hstate] at hstate'
    rw [Option.some.inj hstate']

/-! ## Every run -/

def TaskOk (nodes : NodeId → Option (NodeState π)) (generations : ℕ) : Task π → Prop
  | .read _ workers _ | .since _ workers _ _ | .targets workers _ => (workers.map (·.id)).Nodup
  | .apply _ workers _ cursor batch => (workers.map (·.id)).Nodup ∧ InOrder batch.samples ∧
    ∀ sample ∈ batch.samples, cursor < sample.sequence ∧ sample.run = 0
  | .fetching _ fetches => (fetches.map (·.node)).Nodup ∧
    ∀ fetch ∈ fetches, FetchOk nodes generations fetch
  | .expire _ | .build _ _ => True

theorem TaskOk.keeps (h : TaskOk nodes generations task)
    (hkeeps : Keeps nodes generations nodes' generations') : TaskOk nodes' generations' task := by
  cases task with
  | fetching now fetches => exact ⟨h.1, fun fetch hm => (h.2 fetch hm).keeps hkeeps⟩
  | _ => exact h

theorem TaskOk.of_not_isRound (h : TaskOk nodes generations task) (hround : isRound task ≠ true) :
    TaskOk nodes' generations' task := by
  cases task with
  | fetching now fetches => exact absurd rfl hround
  | _ => exact h

structure Inv (config : ServiceConfig) (s : ClusterMetrics π) : Prop where
  nodes : NodesOk config s.nodes s.generations
  samplers : ∀ id, (s.samplers id).Ok
  coordinator : (s.samplers .coordinator).run = 0
  tasks : ∀ task ∈ s.tasks, TaskOk s.nodes s.generations task
  rounds : s.tasks.countP isRound ≤ 1
  snapshots : ∀ snapshot ∈ s.snapshots, ∀ id node, snapshot id = some node →
    CleanWindow (max config.sampler.retention 1) node.history node.latest

theorem Inv.start : Inv config (start : ClusterMetrics π) :=
  ⟨⟨fun _ _ => nofun, fun _ _ => nofun, fun _ h => (nomatch h)⟩,
    fun _ => MetricsSampler.Ok.empty, rfl, forall_mem_nil _, Nat.zero_le _, forall_mem_nil _⟩

/-- The cursor that `ingest_local` reads. -/
def ownCursor (s : ClusterMetrics π) : ℕ := ((s.nodes .coordinator).map (·.cursor)).getD 0

/-- When `ingest_local` applies samples, the cursor is still the one that it has read; and the
samples of a reply are of the run of the history. Or the history is forgotten. -/
def TimelyTask (s : ClusterMetrics π) : Task π → Prop
  | .apply _ _ _ cursor batch => Cleared cursor batch ∨ batch.samples = [] ∨ s.ownCursor = cursor
  | .fetching _ fetches => ∀ fetch ∈ fetches, Fits s.nodes fetch
  | _ => True

instance (task : Task π) : Decidable (TimelyTask s task) := by
  cases task <;> dsimp only [TimelyTask, ← List.isEmpty_iff] <;> infer_instance

def Timely (s : ClusterMetrics π) : Act π → Prop
  | .task i => ∀ task ∈ s.tasks[i]?, TimelyTask s task
  | _ => True

instance (a : Act π) : Decidable (Timely s a) := by
  cases a <;> dsimp only [Timely] <;> infer_instance

theorem built_clean (h : NodesOk config nodes generations) {node : MetricsNode π}
    (hnode : built config nodes workers now id = some node) :
    CleanWindow (max config.sampler.retention 1) node.history node.latest := by
  have hentry (id : NodeId) (hostname : String) (role : NodeRole) (health : Option NodeHealth) :
      CleanWindow (max config.sampler.retention 1)
        (metricsNode (nodes id) hostname role health).history
        (metricsNode (nodes id) hostname role health).latest := by
    cases hstate : nodes id with
    | none => exact cleanWindow_nil
    | some state => exact (h.clean id state hstate).window
  cases id with
  | coordinator =>
    cases hnode
    exact hentry _ _ _ _
  | worker id =>
    obtain ⟨worker, -, rfl⟩ := Option.map_eq_some_iff.1 hnode
    exact hentry _ _ _ _

theorem Inv.set {next : Task π} (h : Inv config s) (htask : s.tasks[i]? = some task)
    (hnodes : NodesOk config nodes' generations')
    (hkeeps : Keeps s.nodes s.generations nodes' generations')
    (hnext : TaskOk nodes' generations' next) (hround : isRound next = isRound task) :
    Inv config { s with
      nodes := nodes'
      generations := generations'
      tasks := s.tasks.set i next } := by
  refine ⟨hnodes, h.samplers, h.coordinator, fun other hm => ?_, ?_, h.snapshots⟩
  · rcases mem_set_of_mem hm with rfl | hm
    · exact hnext
    · exact (h.tasks other hm).keeps hkeeps
  · have hcount := countP_set' (p := isRound) (b := next) htask
    have := h.rounds
    rw [hround] at hcount
    show (s.tasks.set i next).countP isRound ≤ 1
    omega

theorem Inv.eraseIdx {snapshots : List (NodeId → Option (MetricsNode π))}
    (h : Inv config s) (htask : s.tasks[i]? = some task)
    (hnodes : NodesOk config nodes' generations')
    (hkeeps : Keeps s.nodes s.generations nodes' generations')
    (hsnapshots : ∀ snapshot ∈ snapshots, ∀ id node, snapshot id = some node →
      CleanWindow (max config.sampler.retention 1) node.history node.latest) :
    Inv config { s with
      nodes := nodes'
      generations := generations'
      tasks := s.tasks.eraseIdx i
      snapshots := snapshots } := by
  refine ⟨hnodes, h.samplers, h.coordinator, fun other hm => ?_, ?_, hsnapshots⟩
  · exact (h.tasks other (mem_of_mem_eraseIdx hm)).keeps hkeeps
  · have hcount := countP_eraseIdx (p := isRound) htask
    have := h.rounds
    show (s.tasks.eraseIdx i).countP isRound ≤ 1
    omega

theorem Keeps.rfl : Keeps nodes generations nodes generations :=
  ⟨le_rfl, fun _ state' hs => .inl ⟨state', hs, Eq.refl _, Eq.refl _⟩⟩

theorem Inv.runTask (h : Inv config s) (htask : s.tasks[i]? = some task)
    (hok : TimelyTask s task) (hstep : runTask config s i task = some s') : Inv config s' := by
  have hold := h.tasks task (mem_of_getElem? htask)
  cases task with
  | read caller workers now =>
    cases hstep
    refine h.set htask h.nodes Keeps.rfl hold ?_
    cases caller <;> rfl
  | since caller workers now cursor =>
    cases hstep
    obtain ⟨hsamples, hnewer⟩ := (h.samplers .coordinator).since cursor
    refine h.set htask h.nodes Keeps.rfl ⟨hold, hsamples, fun sample hm => ?_⟩ ?_
    · exact ⟨(hnewer sample hm).1, (hnewer sample hm).2.trans h.coordinator⟩
    · cases caller <;> rfl
  | apply caller workers now cursor batch =>
    cases hstep
    obtain ⟨hworkers, hsamples, hnewer⟩ := hold
    have hfits : Cleared cursor batch ∨ ∀ state, s.nodes .coordinator = some state →
        ∀ old ∈ state.history, ∀ sample ∈ batch.samples, old.sequence < sample.sequence := by
      rcases hok with hcleared | hnil | hcursor
      · exact .inl hcleared
      · rw [hnil]
        exact .inr fun _ _ _ _ _ hm => absurd hm not_mem_nil
      · -- the history ends at the cursor, and the batch begins after it
        refine .inr fun state hstate old hold sample hm => ?_
        rw [ownCursor, hstate] at hcursor
        have hle := (h.nodes.clean _ state hstate).le_cursor old hold
        exact (hle.trans_eq hcursor).trans_lt (hnewer sample hm).1
    obtain ⟨hnodes, hkeeps⟩ :=
      h.nodes.applyLocal hsamples (fun sample hm => (hnewer sample hm).2) hfits now
    refine h.set htask hnodes hkeeps ?_ ?_
    · cases caller with
      | round => exact hworkers
      | snapshot => trivial
    · cases caller <;> rfl
  | targets workers now =>
    cases hstep
    obtain ⟨hnodes, hkeeps⟩ := h.nodes.reconcile workers
    refine h.set htask hnodes hkeeps ?_ ?_
    · split
      · trivial
      · exact targets_ok hold hnodes
    · split <;> rfl
  | fetching now fetches =>
    simp only [ClusterMetrics.runTask, Option.ite_none_right_eq_some] at hstep
    rw [← Option.some.inj hstep.2]
    obtain ⟨hnodup, hfetches⟩ := hold
    -- no other call has read the nodes of the workers
    have hcount := countP_eraseIdx (p := isRound) htask
    have hset := countP_set' (p := isRound) (b := .expire now) htask
    have hrounds := h.rounds
    simp only [isRound, if_true] at hcount hset
    refine ⟨h.nodes.foldl_applyFetch hnodup fun fetch hm => ⟨hfetches fetch hm, hok fetch hm⟩,
      h.samplers, h.coordinator, fun other hm => ?_, ?_, h.snapshots⟩
    · rw [(set_perm_of_getElem? htask _).mem_iff] at hm
      rcases mem_cons.1 hm with rfl | hm
      · trivial
      · refine (h.tasks other (mem_of_mem_eraseIdx hm)).of_not_isRound fun hround => ?_
        have hpos : 0 < (s.tasks.eraseIdx i).countP isRound := countP_pos_iff.2 ⟨other, hm, hround⟩
        omega
    · show (s.tasks.set i (.expire now)).countP isRound ≤ 1
      omega
  | expire now =>
    cases hstep
    obtain ⟨hnodes, hkeeps⟩ := h.nodes.expireLocked now
    exact h.eraseIdx htask hnodes hkeeps h.snapshots
  | build workers now =>
    cases hstep
    obtain ⟨hreconciled, hkeeps⟩ := h.nodes.reconcile workers
    obtain ⟨hnodes, hkeeps'⟩ := hreconciled.expireLocked now
    refine h.eraseIdx htask hnodes (hkeeps.trans hkeeps') fun snapshot hm => ?_
    rcases mem_append.1 hm with hm | hm
    · exact h.snapshots snapshot hm
    · rw [mem_singleton.1 hm]
      exact fun _ _ hnode => built_clean hnodes hnode

theorem Inv.samplers_update {sampler : MetricsSampler π} (h : Inv config s)
    (hsampler : sampler.Ok) (hrun : id = .coordinator → sampler.run = 0) :
    Inv config { s with samplers := update s.samplers id sampler } := by
  refine ⟨h.nodes, fun other => ?_, ?_, h.tasks, h.rounds, h.snapshots⟩
  · show (update s.samplers id sampler other).Ok
    by_cases hid : other = id
    · rw [hid, update_self]
      exact hsampler
    · rw [update_of_ne hid]
      exact h.samplers other
  · show (update s.samplers id sampler .coordinator).run = 0
    by_cases hid : NodeId.coordinator = id
    · rw [← hid, update_self]
      exact hrun hid.symm
    · rw [update_of_ne hid]
      exact h.coordinator

theorem FetchOk.replied {error : Option MetricsFetchError} (h : FetchOk s.nodes s.generations fetch)
    (hsampler : (s.samplers (.worker fetch.node)).Ok) :
    FetchOk s.nodes s.generations (replied s error fetch) := by
  refine ⟨h.generation, h.cursor, fun batch hreply => ?_⟩
  cases error with
  | some error => exact absurd (Option.some.inj hreply) nofun
  | none =>
    rw [← Except.ok.inj (Option.some.inj hreply)]
    obtain ⟨hsamples, hnewer⟩ := hsampler.since fetch.cursor
    exact ⟨hsamples, fun sample hm => (hnewer sample hm).1⟩

theorem Inv.step (h : Inv config s) (hok : Timely s a) (hstep : step config s a = some s') :
    Inv config s' := by
  cases a with
  | collectRound workers now =>
    simp only [step, Option.ite_none_left_eq_some, not_or, not_not] at hstep
    obtain ⟨⟨hround, hworkers⟩, hs⟩ := hstep
    cases hs
    have hnone : s.tasks.countP isRound = 0 :=
      List.countP_eq_zero.2 fun task hm hr => hround (List.any_eq_true.2 ⟨task, hm, hr⟩)
    refine ⟨h.nodes, h.samplers, h.coordinator, fun task hm => ?_, ?_, h.snapshots⟩
    · rcases List.mem_append.1 hm with hm | hm
      · exact h.tasks task hm
      · rw [List.mem_singleton.1 hm]
        exact hworkers
    · show (s.tasks ++ [Task.read .round workers now]).countP isRound ≤ 1
      rw [List.countP_append, hnone]
      exact le_rfl
  | snapshot workers now =>
    simp only [step, Option.ite_none_right_eq_some] at hstep
    obtain ⟨hworkers, hs⟩ := hstep
    cases hs
    refine ⟨h.nodes, h.samplers, h.coordinator, fun task hm => ?_, ?_, h.snapshots⟩
    · rcases List.mem_append.1 hm with hm | hm
      · exact h.tasks task hm
      · rw [List.mem_singleton.1 hm]
        exact hworkers
    · show (s.tasks ++ [Task.read .snapshot workers now]).countP isRound ≤ 1
      rw [List.countP_append]
      exact h.rounds
  | task i =>
    obtain ⟨task, htask, hrun⟩ := Option.bind_eq_some_iff.1 hstep
    exact h.runTask htask (hok task htask) hrun
  | reply i j error =>
    simp only [step] at hstep
    split at hstep
    case h_2 => cases hstep
    case h_1 now fetches htask =>
      split at hstep
      case h_2 => cases hstep
      case h_1 fetch hfetch =>
        simp only [Option.ite_none_left_eq_some] at hstep
        rw [← Option.some.inj hstep.2]
        obtain ⟨hnodup, hfetches⟩ := h.tasks _ (List.mem_of_getElem? htask)
        refine h.set htask h.nodes Keeps.rfl ⟨?_, fun other hm => ?_⟩ rfl
        · obtain ⟨hj, rfl⟩ := List.getElem?_eq_some_iff.1 hfetch
          have hj' : j < (fetches.map (·.node)).length := by rwa [List.length_map]
          have hnode : (replied s error fetches[j]).node = (fetches.map (·.node))[j] := by
            rw [List.getElem_map]
            rfl
          rw [List.map_set, hnode, List.set_getElem_self]
          exact hnodup
        · rcases mem_set_of_mem hm with rfl | hm
          · exact (hfetches fetch (List.mem_of_getElem? hfetch)).replied (h.samplers _)
          · exact hfetches other hm
  | sampleNow id hostname capturedAt processes =>
    cases hstep
    refine h.samplers_update (h.samplers id).sampleNow ?_
    rintro rfl
    exact h.coordinator
  | restart worker =>
    cases hstep
    exact h.samplers_update MetricsSampler.Ok.empty nofun

/-- A call of `ingest_local` applies its batch. -/
def Applies (s : ClusterMetrics π) : Act π → Prop
  | .task i => ∃ caller workers now cursor batch,
    s.tasks[i]? = some (.apply caller workers now cursor batch)
  | _ => False

theorem reconcile_coordinator (nodes : NodeId → Option (NodeState π)) (generations : ℕ)
    (workers : List WorkerNode) :
    (reconcile nodes generations workers).1 .coordinator = nodes .coordinator := by
  have hfold (rows : List WorkerNode) (start : (NodeId → Option (NodeState π)) × ℕ) :
      (rows.foldl insertMissing start).1 .coordinator = start.1 .coordinator := by
    induction rows generalizing start with
    | nil => rfl
    | cons worker rows ih =>
      refine (ih _).trans ?_
      unfold insertMissing
      split
      · rfl
      · dsimp only
        rw [update_of_ne (show NodeId.coordinator ≠ .worker worker.id from nofun)]
  exact hfold workers _

theorem foldl_applyFetch_coordinator (fetches : List (Fetch π)) :
    fetches.foldl (applyFetch config now) nodes .coordinator = nodes .coordinator := by
  induction fetches generalizing nodes with
  | nil => rfl
  | cons fetch fetches ih => exact ih.trans (applyFetch_of_ne nofun)

theorem cursor_expireLocked : ((expireLocked config nodes now .coordinator).map (·.cursor)) =
    (nodes .coordinator).map (·.cursor) := by
  unfold expireLocked
  cases nodes .coordinator with
  | none => rfl
  | some state => exact congrArg some (state.expired_kept now _).2.1

/-- Only `ingest_local` moves the cursor of the coordinator. -/
theorem ownCursor_step (happlies : ¬ Applies s a) (hstep : step config s a = some s') :
    s'.ownCursor = s.ownCursor := by
  cases a with
  | task i =>
    obtain ⟨task, htask, hrun⟩ := Option.bind_eq_some_iff.1 hstep
    unfold ownCursor
    cases task with
    | read caller workers now | since caller workers now cursor =>
      cases hrun
      rfl
    | apply caller workers now cursor batch => exact absurd ⟨_, _, _, _, _, htask⟩ happlies
    | targets workers now =>
      cases hrun
      dsimp only
      rw [reconcile_coordinator]
    | fetching now fetches =>
      simp only [ClusterMetrics.runTask, Option.ite_none_right_eq_some] at hrun
      cases hrun.2
      dsimp only
      rw [foldl_applyFetch_coordinator]
    | expire now =>
      cases hrun
      dsimp only
      rw [cursor_expireLocked]
    | build workers now =>
      cases hrun
      dsimp only
      rw [cursor_expireLocked, reconcile_coordinator]
  | reply i j error =>
    simp only [step] at hstep
    repeat' split at hstep
    all_goals cases hstep
    rfl
  | collectRound workers now | snapshot workers now =>
    simp only [step] at hstep
    split_ifs at hstep
    cases hstep
    rfl
  | _ =>
    cases hstep
    rfl

theorem ownCursor_runs (h : Runs (step config) (fun s a => ¬ Applies s a) s s') :
    s'.ownCursor = s.ownCursor :=
  h.preserves (P := fun s' => s'.ownCursor = s.ownCursor)
    (fun _ _ _ heq happlies hstep => (ownCursor_step happlies hstep).trans heq) rfl

/-- Every entry of every snapshot is a clean window, in every run in which no call of `ingest_local`
applies samples after another one has moved the cursor, and replies are of the run that the node's
history is of. -/
theorem snapshots_clean (config : ServiceConfig) (hretention : 0 < config.sampler.retention)
    (s : ClusterMetrics π) (hs : Reachable (step config) Timely (· = start) s)
    (snapshot : NodeId → Option (MetricsNode π)) (hsnapshot : snapshot ∈ s.snapshots) (id : NodeId)
    (node : MetricsNode π) (hnode : snapshot id = some node) :
    CleanWindow config.sampler.retention node.history node.latest := by
  have hinv : Inv config s := by
    refine hs.invariant ?_ fun _ _ _ hinv hok hstep => hinv.step hok hstep
    rintro _ rfl
    exact Inv.start
  have hclean := hinv.snapshots snapshot hsnapshot id node hnode
  rwa [max_eq_left hretention] at hclean

theorem exists_snapshot {α : Type} (config : ServiceConfig)
    (ok : ClusterMetrics Unit → Act Unit → Prop) [∀ s a, Decidable (ok s a)] (as : List (Act Unit))
    (f : (NodeId → Option (MetricsNode Unit)) → Option α) (shown : α)
    (h : ((exec (step config) ok start as).bind fun s => s.snapshots.getLast?).bind f =
      some shown) :
    ∃ s : ClusterMetrics Unit, Reachable (step config) ok (· = start) s ∧
      ∃ snapshot ∈ s.snapshots, f snapshot = some shown := by
  obtain ⟨snapshot, hlast, hshown⟩ := Option.bind_eq_some_iff.1 h
  obtain ⟨s, hs, hlast⟩ := Option.bind_eq_some_iff.1 hlast
  exact ⟨s, reachable_of_exec rfl hs, snapshot, mem_of_getLast? hlast, hshown⟩

def exampleConfig : ServiceConfig := ⟨⟨2000, 150⟩, "coordinator", true, true, "linux"⟩

def exampleWorker : WorkerNode :=
  ⟨7, "worker", .online, "1", "1", "", "", "", .healthy, none, none, some 1000⟩

def samplesOf (id : NodeId) (snapshot : NodeId → Option (MetricsNode Unit)) :
    Option (List (ℕ × ℕ)) :=
  (snapshot id).map fun node => node.history.map fun sample => (sample.sequence, sample.run)

theorem exists_of_samplesOf {id : NodeId} {snapshot : NodeId → Option (MetricsNode Unit)}
    {samples : List (ℕ × ℕ)} (h : samplesOf id snapshot = some samples) : ∃ node,
    snapshot id = some node ∧
      node.history.map (fun sample => (sample.sequence, sample.run)) = samples := by
  obtain ⟨node, hnode, hsamples⟩ := Option.map_eq_some_iff.1 h
  exact ⟨node, hnode, hsamples⟩

/-- Two snapshots with samples of the coordinator between them, and a round with a worker. -/
theorem two_snapshots_clean : ∃ (s : ClusterMetrics Unit), ∃ snapshot ∈ s.snapshots,
    ∃ node, snapshot .coordinator = some node ∧
      node.history.map (fun sample => (sample.sequence, sample.run)) = [(1, 0), (2, 0)] ∧
      CleanWindow exampleConfig.sampler.retention node.history node.latest ∧
    ∃ node, snapshot (.worker 7) = some node ∧
      node.history.map (fun sample => (sample.sequence, sample.run)) = [(1, 0)] ∧
      CleanWindow exampleConfig.sampler.retention node.history node.latest := by
  obtain ⟨s, hs, snapshot, hsnapshot, hshown⟩ := exists_snapshot exampleConfig Timely
    [.sampleNow .coordinator "coordinator" 1 none, .snapshot [exampleWorker] 2, .task 0, .task 0,
      .task 0, .task 0, .sampleNow .coordinator "coordinator" 3 none,
      .sampleNow (.worker 7) "worker" 3 none, .collectRound [exampleWorker] 4, .task 0, .task 0,
      .task 0, .task 0, .reply 0 0 none, .task 0, .task 0, .snapshot [exampleWorker] 5, .task 0,
      .task 0, .task 0, .task 0]
    (fun snapshot => (samplesOf .coordinator snapshot).bind fun own =>
      (samplesOf (.worker 7) snapshot).map fun other => (own, other))
    ([(1, 0), (2, 0)], [(1, 0)]) (by decide +kernel)
  obtain ⟨own, hown, hshown⟩ := Option.bind_eq_some_iff.1 hshown
  obtain ⟨other, hother, hboth⟩ := Option.map_eq_some_iff.1 hshown
  cases hboth
  obtain ⟨node, hnode, hsamples⟩ := exists_of_samplesOf hown
  obtain ⟨node', hnode', hsamples'⟩ := exists_of_samplesOf hother
  have hclean := snapshots_clean exampleConfig (by decide) s hs snapshot hsnapshot
  exact ⟨s, snapshot, hsnapshot, node, hnode, hsamples, hclean _ node hnode, node', hnode',
    hsamples', hclean _ node' hnode'⟩

/-- Two snapshots apply the same sample of the coordinator; and a worker that has restarted is
asked when its numbers have reached the cursor. -/
theorem unclean_snapshots : 0 < exampleConfig.sampler.retention ∧
    (∃ s : ClusterMetrics Unit, Reachable (step exampleConfig) anyStep (· = start) s ∧
      ∃ snapshot ∈ s.snapshots, ∃ node, snapshot .coordinator = some node ∧
        node.history.map (fun sample => (sample.sequence, sample.run)) = [(1, 0), (1, 0)] ∧
        ¬ CleanWindow exampleConfig.sampler.retention node.history node.latest) ∧
    ∃ s : ClusterMetrics Unit, Reachable (step exampleConfig) anyStep (· = start) s ∧
      ∃ snapshot ∈ s.snapshots, ∃ node, snapshot (.worker 7) = some node ∧
        node.history.map (fun sample => (sample.sequence, sample.run)) =
          [(1, 0), (2, 0), (3, 1)] ∧
        ¬ CleanWindow exampleConfig.sampler.retention node.history node.latest := by
  refine ⟨by decide, ?_, ?_⟩
  · obtain ⟨s, hs, snapshot, hsnapshot, hshown⟩ := exists_snapshot exampleConfig anyStep
      [.sampleNow .coordinator "coordinator" 1 none, .snapshot [] 2, .snapshot [] 2, .task 0,
        .task 1, .task 0, .task 1, .task 0, .task 1, .task 0]
      (samplesOf .coordinator) [(1, 0), (1, 0)] (by decide +kernel)
    obtain ⟨node, hnode, hsamples⟩ := exists_of_samplesOf hshown
    refine ⟨s, hs, snapshot, hsnapshot, node, hnode, hsamples, fun h => ?_⟩
    have hincreasing := pairwise_map.1 h.in_order.increasing
    rw [← pairwise_map (f := fun sample : HostSample Unit => (sample.sequence, sample.run))
      (R := fun a b => a.1 < b.1), hsamples] at hincreasing
    exact absurd hincreasing (by decide)
  · obtain ⟨s, hs, snapshot, hsnapshot, hshown⟩ := exists_snapshot exampleConfig anyStep
      [.sampleNow (.worker 7) "worker" 1 none, .sampleNow (.worker 7) "worker" 2 none,
        .collectRound [exampleWorker] 3, .task 0, .task 0, .task 0, .task 0, .reply 0 0 none,
        .task 0, .task 0, .restart 7, .sampleNow (.worker 7) "worker" 4 none,
        .sampleNow (.worker 7) "worker" 5 none, .sampleNow (.worker 7) "worker" 6 none,
        .collectRound [exampleWorker] 7, .task 0, .task 0, .task 0, .task 0, .reply 0 0 none,
        .task 0, .task 0, .snapshot [exampleWorker] 8, .task 0, .task 0, .task 0, .task 0]
      (samplesOf (.worker 7)) [(1, 0), (2, 0), (3, 1)] (by decide +kernel)
    obtain ⟨node, hnode, hsamples⟩ := exists_of_samplesOf hshown
    refine ⟨s, hs, snapshot, hsnapshot, node, hnode, hsamples, fun h => ?_⟩
    have hrun : ∀ a ∈ node.history.map (fun sample => (sample.sequence, sample.run)),
        ∀ b ∈ node.history.map (fun sample => (sample.sequence, sample.run)), a.2 = b.2 := by
      rw [forall_mem_map]
      intro a ha
      rw [forall_mem_map]
      exact h.in_order.one_run a ha
    rw [hsamples] at hrun
    exact absurd (hrun (1, 0) (by decide) (3, 1) (by decide)) (by decide)

end ClusterMetrics

end VibeKanban.Metrics

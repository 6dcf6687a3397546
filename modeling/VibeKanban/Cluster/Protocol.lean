import Mathlib

/-!
# The worker protocol's data types (`cluster-protocol/src/lib.rs`)

The messages a worker and the coordinator exchange about one execution. A `u64` sequence number is a
natural number at most `u64Max`, with the checked and saturating operations of the source; a UUID is
opaque and a point in time is a number.
-/

namespace VibeKanban.Cluster

/-- A UUID. Only equality of UUIDs is ever used. -/
abbrev Uuid := ℕ

/-- A point in time (`DateTime<Utc>`, `SystemTime`). -/
abbrev Timestamp := ℕ

/-! ## `u64` arithmetic -/

/-- `u64::MAX`. -/
def u64Max : ℕ := 2 ^ 64 - 1

/-- `u64::checked_add`. -/
def checkedAdd (a b : ℕ) : Option ℕ := if a + b ≤ u64Max then some (a + b) else none

/-- `u64::saturating_add`. Saturating subtraction is the subtraction of `ℕ`. -/
def saturatingAdd (a b : ℕ) : ℕ := min (a + b) u64Max

theorem checkedAdd_eq_some {a b c : ℕ} : checkedAdd a b = some c ↔ a + b = c ∧ c ≤ u64Max := by
  unfold checkedAdd
  split_ifs with h
  · constructor
    · intro h1
      cases h1
      exact ⟨rfl, h⟩
    · rintro ⟨rfl, -⟩
      rfl
  · constructor
    · intro h1
      cases h1
    · rintro ⟨rfl, h1⟩
      exact absurd h1 h

theorem saturatingAdd_of_le {a b : ℕ} (h : a + b ≤ u64Max) : saturatingAdd a b = a + b :=
  min_eq_left h

/-! ## Jobs -/

/-- `JobState` (line 311). -/
inductive JobState where
  | accepted
  | starting
  | running
  | cancelling
  | completed
  | failed
  | killed
  | interrupted
  | indeterminate
  | quarantined
  deriving DecidableEq

/-- `JobState::is_terminal` (line 325). -/
def JobState.isTerminal : JobState → Bool
  | .completed | .failed | .killed | .interrupted | .indeterminate | .quarantined => true
  | _ => false

/-- `TerminalState` (line 425). -/
inductive TerminalState where
  | completed
  | failed
  | killed
  | interrupted
  deriving DecidableEq

/-- The job state that a terminal event announces. -/
def TerminalState.jobState : TerminalState → JobState
  | .completed => .completed
  | .failed => .failed
  | .killed => .killed
  | .interrupted => .interrupted

@[simp] theorem TerminalState.isTerminal_jobState (t : TerminalState) :
    t.jobState.isTerminal = true := by
  cases t <;> rfl

/-- `TerminalEvidence` (line 416). -/
structure TerminalEvidence where
  state : TerminalState
  exitCode : Option ℤ
  signal : Option ℤ
  observedAt : Timestamp
  deriving DecidableEq

/-- `JobSummary` (line 299). -/
structure JobSummary where
  executionId : Uuid
  workerJobId : Uuid
  workspaceId : Uuid
  requestDigest : String
  state : JobState
  lastSequence : ℕ
  terminal : Option TerminalEvidence
  deriving DecidableEq

/-- `CancellationPhase` (line 405). -/
inductive CancellationPhase where
  | requested
  | graceful
  | terminatingProcessGroup
  | killingProcessGroup
  | confirmed
  | alreadyTerminal
  | indeterminate
  deriving DecidableEq

/-! ## Events -/

/-- `LogMsg` (`utils/src/log_msg.rs`); the contents of a JSON patch are never read. -/
inductive LogMsg where
  | stdout (text : String)
  | stderr (text : String)
  | jsonPatch
  | sessionId (id : String)
  | messageId (id : String)
  | ready
  | finished
  deriving DecidableEq

/-- The JSON document in a `Structured` event, before serialisation: the documents the worker
    writes (`worker_error`, `stream_error`, `cancellation_phase`), a forwarded `LogMsg`, or
    any other text. -/
inductive StructuredJson where
  | workerError (reason : String)
  | streamError (error : String)
  | cancellationPhase (phase : CancellationPhase)
  | log (message : LogMsg)
  | other (json : String)
  deriving DecidableEq

/-- `ExecutionEventPayload` (line 348). Of an interaction request only the identifier is
    kept, and of a preview target nothing: no modelled function reads the rest. -/
inductive ExecutionEventPayload where
  | accepted
  | starting
  | stdout (dataBase64 : String)
  | stderr (dataBase64 : String)
  | structured (json : StructuredJson)
  | interactionRequested (interactionId : Uuid)
  | interactionAcknowledged (interactionId : Uuid)
  | preview
  | completed (evidence : TerminalEvidence)
  | failed (evidence : TerminalEvidence)
  | killed (evidence : TerminalEvidence)
  | interrupted (evidence : TerminalEvidence)
  | indeterminate (reason : String)
  deriving DecidableEq

/-- `ExecutionEvent` (line 339). -/
structure ExecutionEvent where
  executionId : Uuid
  sequence : ℕ
  workerTimestamp : Timestamp
  payload : ExecutionEventPayload
  deriving DecidableEq

/-- `EventBatch` (line 365). -/
structure EventBatch where
  executionId : Uuid
  requestedAfter : ℕ
  earliestAvailable : ℕ
  latestAvailable : ℕ
  replayGap : Bool
  events : List ExecutionEvent

end VibeKanban.Cluster

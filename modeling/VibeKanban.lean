import VibeKanban.Cluster.Scheduler
import VibeKanban.Worker.Reload
import VibeKanban.Worker.Drain
import VibeKanban.Worker.Quiesce
import VibeKanban.Coordinator.Continuity
import VibeKanban.Coordinator.Idempotence
import VibeKanban.Coordinator.Races
import VibeKanban.OAuth.Grants
import VibeKanban.Worker.Authority
import VibeKanban.Output.Clusters
import VibeKanban.Ledger.Hops
import VibeKanban.Ledger.Once
import VibeKanban.Relay.Fragment
import VibeKanban.Messages.Replay
import VibeKanban.Auth.Handoff
import VibeKanban.Auth.Overlap
import VibeKanban.Reauth.Runs
import VibeKanban.Relay.Requests
import VibeKanban.Relay.TrustedClients
import VibeKanban.Jira.Lease
import VibeKanban.Jira.Settling
import VibeKanban.Subtasks.Outbox
import VibeKanban.Events.Convergence
import VibeKanban.Browser.Idempotency
import VibeKanban.Browser.Control
import VibeKanban.Approval.Stream
import VibeKanban.Claude.ProcessLogs
import VibeKanban.Claude.ReadLoop
import VibeKanban.Codex.JsonRpc
import VibeKanban.Diff.Stream
import VibeKanban.Diff.Normalize
import VibeKanban.Executors.Env
import VibeKanban.Executors.Profile
import VibeKanban.FollowUp.QueuedMessage
import VibeKanban.Mcp.Credentials
import VibeKanban.Mcp.Refresh
import VibeKanban.Metrics.Collector
import VibeKanban.Metrics.Patch
import VibeKanban.Metrics.Redact
import VibeKanban.Pipelines.GitExclude
import VibeKanban.Pipelines.Seed
import VibeKanban.Pipelines.StageOrder
import VibeKanban.Placement.Cleanup
import VibeKanban.Rollout.Transfer
import VibeKanban.Warm.Registry
import VibeKanban.Workspaces.Expiry
import VibeKanban.Worktree.AdminLock

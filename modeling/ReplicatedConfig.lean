import ReplicatedConfig.Document.Json
import ReplicatedConfig.Config.Layers
import ReplicatedConfig.Adapter.Transforms
import ReplicatedConfig.Discovery
import ReplicatedConfig.Engine
import ReplicatedConfig.Provider.Blueprint
import ReplicatedConfig.LogFilter
import ReplicatedConfig.Simulation.Script
import ReplicatedConfig.Proofs.Failover.Selection
import ReplicatedConfig.Proofs.Failover.Punctuality
import ReplicatedConfig.Proofs.Precedence.Order
import ReplicatedConfig.Proofs.Refresh.Contents
import ReplicatedConfig.Proofs.Precedence.Selectors
import ReplicatedConfig.Proofs.Refresh.Findings
import ReplicatedConfig.Proofs.Refresh.Merging
import ReplicatedConfig.Proofs.Precedence.RefreshOrder
import ReplicatedConfig.Proofs.Precedence.Incremental
import ReplicatedConfig.Proofs.Precedence.Refreshed
import ReplicatedConfig.Proofs.Coherence.State
import ReplicatedConfig.Proofs.Coherence.Operations
import ReplicatedConfig.Proofs.Coherence.Interleaving
import ReplicatedConfig.Proofs.Failover.Traffic
import ReplicatedConfig.Proofs.Schedule.Nudges
import ReplicatedConfig.Proofs.History.UpToDate
import ReplicatedConfig.Proofs.Refresh.FailedLoads
import ReplicatedConfig.Proofs.Failover.Paging
import ReplicatedConfig.Proofs.Failover.Transcript
import ReplicatedConfig.Proofs.Schedule.Guards
import ReplicatedConfig.Proofs.History.Settling
import ReplicatedConfig.Proofs.History.Idling
import ReplicatedConfig.Proofs.Pool.Replacement
import ReplicatedConfig.Proofs.Publishing
import ReplicatedConfig.Proofs.Passes.Isolation
import ReplicatedConfig.Proofs.Passes.Abandoned
import ReplicatedConfig.Proofs.Refusals.Merges
import ReplicatedConfig.Proofs.Refresh.Retries
import ReplicatedConfig.Proofs.Passes.Reports
import ReplicatedConfig.Proofs.Cancellation.Surfacing
import ReplicatedConfig.Proofs.Frame.Merges
import ReplicatedConfig.Proofs.Health.Outcomes
import ReplicatedConfig.Proofs.Stems
import ReplicatedConfig.Proofs.Schedule.Handles
import ReplicatedConfig.Proofs.Clock.Lookups
import ReplicatedConfig.Proofs.Building
import ReplicatedConfig.Proofs.Clock.Range

import PayOps.Contracts
import PayOps.Evidence.Artifacts
import PayOps.Evidence.Bundle
import PayOps.Evidence.ConsoleCensus
import PayOps.Evidence.Context
import PayOps.Evidence.FileStore
import PayOps.Evidence.Lines
import PayOps.Evidence.LogContext
import PayOps.Evidence.Normalize
import PayOps.Evidence.RecentOrder
import PayOps.Evidence.Records
import PayOps.Evidence.Redact
import PayOps.Evidence.RedactTwice
import PayOps.Evidence.RedactValues
import PayOps.Evidence.SpanRecovery
import PayOps.Evidence.TraceSpan
import PayOps.Faults
import PayOps.Json
import PayOps.JsonPatch
import PayOps.JsonPretty
import PayOps.JsonText
import PayOps.Memory.DerivedCache
import PayOps.Memory.IncidentStore
import PayOps.Memory.Lineage
import PayOps.Memory.Queue
import PayOps.Memory.StoreHistory
import PayOps.OperatorHost.DeferredClose
import PayOps.OperatorHost.Knowledge
import PayOps.Orchestrator.ActualCost
import PayOps.Orchestrator.Allowances
import PayOps.Orchestrator.Baseline
import PayOps.Orchestrator.Budget
import PayOps.Orchestrator.Graph
import PayOps.Orchestrator.Host
import PayOps.Orchestrator.Ledger
import PayOps.Orchestrator.LedgerHistory
import PayOps.Orchestrator.LogRecords
import PayOps.Orchestrator.Loop
import PayOps.Orchestrator.LoopCalls
import PayOps.Orchestrator.LoopOnce
import PayOps.Orchestrator.LoopRecords
import PayOps.Orchestrator.LoopReport
import PayOps.Orchestrator.ModelRuntime
import PayOps.Orchestrator.Nodes
import PayOps.Orchestrator.Ranking
import PayOps.Orchestrator.Reasoning
import PayOps.Orchestrator.Records
import PayOps.Orchestrator.Registry
import PayOps.Orchestrator.Reports
import PayOps.Orchestrator.Restarts
import PayOps.Orchestrator.State
import PayOps.Orchestrator.Steps
import PayOps.Platform
import PayOps.Policy.Contracts
import PayOps.Policy.Engine
import PayOps.Process.Assures
import PayOps.Process.Follows
import PayOps.Process.Inline
import PayOps.Process.Network
import PayOps.Process.Outage
import PayOps.Process.Pool
import PayOps.Process.Program
import PayOps.Process.Prompt
import PayOps.Process.Register
import PayOps.Process.Runner
import PayOps.Process.Serial
import PayOps.Remediation.AtMostOnce
import PayOps.Remediation.Authority
import PayOps.Remediation.Broker
import PayOps.Remediation.Calls
import PayOps.Remediation.Contracts
import PayOps.Remediation.Deployment
import PayOps.Remediation.History
import PayOps.Remediation.LocalExecutor
import PayOps.Remediation.Settlement
import PayOps.Remediation.Store
import PayOps.Sandbox.SampleStore
import PayOps.Scenarios.Latch
import PayOps.Scenarios.Protocol
import PayOps.Scenarios.Recovery
import PayOps.Scenarios.Runner
import PayOps.Scenarios.Sandbox
import PayOps.Text.Substitution
import PayOps.Text.Twice
import PayOps.Text.Utf8
import PayOps.Tools.Collect
import PayOps.Tools.McpTransport
import PayOps.Tools.OperationalReads
import PayOps.Tools.Registry
import PayOps.Tools.TraceGraph
import PayOps.Traffic.Control
import PayOps.Traffic.Linear
import PayOps.JsonNumerals
import PayOps.Evidence.LogProjection
import PayOps.JsonSorted
import PayOps.Evidence.PaymentWindow
import PayOps.Evidence.PaymentSoundness
import PayOps.Evaluation.ReplayFacts
import PayOps.Text.Occurrences
import PayOps.Orchestrator.LocalLlama
import PayOps.Evidence.SpanDepth
import PayOps.Sandbox.Cpu
import PayOps.Scenarios.ConcurrencyEvidence
import PayOps.Sandbox.ConcurrencyMemory
import PayOps.Evidence.Diagnostics
import PayOps.Orchestrator.LocalSupport
import PayOps.JsonReread
import PayOps.Evidence.Canonical
import PayOps.Traffic.Attempt
import PayOps.Traffic.Receipts
import PayOps.Evidence.Derived
import PayOps.Evidence.PaymentReread
import PayOps.Evidence.PaymentRederived
import PayOps.Evidence.TraceRederived
import PayOps.Evidence.PaymentComposed
import PayOps.Remediation.Binding
import PayOps.Auth.Identity
import PayOps.Remediation.Revocation
import PayOps.Scenarios.CpuCounters

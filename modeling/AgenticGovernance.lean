import AgenticGovernance.Support.Text
import AgenticGovernance.Support.Json
import AgenticGovernance.Support.Stamp
import AgenticGovernance.Support.LinkedChain
import AgenticGovernance.Audit.Models
import AgenticGovernance.Audit.Chain
import AgenticGovernance.Audit.Verify
import AgenticGovernance.Audit.Builder
import AgenticGovernance.Support.Transition
import AgenticGovernance.Audit.PostgresStore
import AgenticGovernance.Cost.Check
import AgenticGovernance.Cost.Store
import AgenticGovernance.Cost.SoftCeiling
import AgenticGovernance.Gates.Resolve
import AgenticGovernance.Gates.WaitFor
import AgenticGovernance.Audit.Keys
import AgenticGovernance.Audit.RotationVerify
import AgenticGovernance.Audit.Rotation
import AgenticGovernance.Audit.ConcurrentRotation
import AgenticGovernance.Compliance.Report
import AgenticGovernance.Audit.Backend
import AgenticGovernance.Audit.DualSignature
import AgenticGovernance.Audit.JsonlCodec
import AgenticGovernance.Audit.JsonlStore
import AgenticGovernance.Presence.Store
import AgenticGovernance.Presence.HaltCache
import AgenticGovernance.Gates.Tokens
import AgenticGovernance.Audit.Sanitization
import AgenticGovernance.Audit.Module
import AgenticGovernance.Scope.Check
import AgenticGovernance.Cost.FailClosed
import AgenticGovernance.Integrations.LangChain
import AgenticGovernance.Support.Double
import AgenticGovernance.Support.Jsonb
import AgenticGovernance.Audit.Columns
import AgenticGovernance.Audit.DeliveryTarget
import AgenticGovernance.Audit.Delivery
import AgenticGovernance.Audit.Degraded
import AgenticGovernance.Compliance.ReadRows
import AgenticGovernance.Compliance.RotatedReport
import AgenticGovernance.Audit.Corrections
import AgenticGovernance.Audit.Writer
import AgenticGovernance.Cli.Verify
import AgenticGovernance.Integrations.StreamReconcile
import AgenticGovernance.Audit.SanctionedCorrections
import AgenticGovernance.Loop.Detect
import AgenticGovernance.Policies.Persistence
import AgenticGovernance.Policies.HotReload
import AgenticGovernance.Identity.Revocation
import AgenticGovernance.Identity.RevocationWindow
import AgenticGovernance.Identity.Registry
import AgenticGovernance.Identity.Verdict
import AgenticGovernance.Audit.WholeStore
import AgenticGovernance.Compliance.GenesisDeletion
import AgenticGovernance.Cli.Tail
import AgenticGovernance.Presence.ForcedRefresh
import AgenticGovernance.Compliance.ViolationCounters
import AgenticGovernance.Platform.AuditForward
import AgenticGovernance.Platform.GateForward
import AgenticGovernance.Platform.SeqHeal
import AgenticGovernance.Audit.WindowVerify
import AgenticGovernance.Audit.MemoryStore
import AgenticGovernance.Audit.BatchAtomic
import AgenticGovernance.Audit.ControlCharacters
import AgenticGovernance.Security.Redaction
import AgenticGovernance.Support.Pieces
import AgenticGovernance.Audit.StoredNotes
import AgenticGovernance.Loop.SlidingWindow
import AgenticGovernance.Support.PeriodTotal
import AgenticGovernance.Cost.Counters
import AgenticGovernance.Cost.TrackRuns
import AgenticGovernance.Support.FloatSum
import AgenticGovernance.Cost.BudgetAlert
import AgenticGovernance.Support.LongestPrefix
import AgenticGovernance.Cost.PricingTable
import AgenticGovernance.Cost.Pricing
import AgenticGovernance.Integrations.LlmRuns
import AgenticGovernance.Support.PointerWalk
import AgenticGovernance.Support.SqlTransaction
import AgenticGovernance.Support.Calendar
import AgenticGovernance.Support.PyText
import AgenticGovernance.Support.Utf16
import AgenticGovernance.Support.PyObject
import AgenticGovernance.Audit.TextRecords
import AgenticGovernance.Support.SqlScript
import AgenticGovernance.Identity.Registration
import AgenticGovernance.Audit.ProvenanceChain
import AgenticGovernance.Audit.StoreContents
import AgenticGovernance.Audit.CorrectionOutcomes
import AgenticGovernance.Coverage.Registry
import AgenticGovernance.Coverage.Compute
import AgenticGovernance.Integrations.LlmStartTools
import AgenticGovernance.Routing.CostAware
import AgenticGovernance.Platform.Wire
import AgenticGovernance.Gates.TokenOutcomes
import AgenticGovernance.Cli.SqlSplit
import AgenticGovernance.Audit.TrackedCalls
import AgenticGovernance.Audit.CallChains
import AgenticGovernance.Gates.Approvals
import AgenticGovernance.Contracts.Enforce
import AgenticGovernance.Cost.StoreAgreement
import AgenticGovernance.Integrations.WrappedCalls
import AgenticGovernance.Gates.RequireApproval
import AgenticGovernance.Integrations.KillSwitch
import AgenticGovernance.Integrations.AgtBridge
import AgenticGovernance.Compliance.HumanOversight
import AgenticGovernance.Support.Csv
import AgenticGovernance.Cost.CsvExport
import AgenticGovernance.Presence.StoreAgreement
import AgenticGovernance.Routing.Suggest
import AgenticGovernance.Cost.Webhook
import AgenticGovernance.Compliance.Article12
import AgenticGovernance.Compliance.StoreReports

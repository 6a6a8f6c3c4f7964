import Harp.Lib.Program
import Harp.Lib.Text
import Harp.Lib.Json
import Harp.Lib.Lines
import Harp.Core.World
import Harp.Security.ApprovalGate
import Harp.Orchestration.ContextManager
import Harp.Orchestration.StrategySelector
import Harp.Agents.HarpAgent
import Harp.Orchestration.HarpOrchestrator
import Harp.Orchestration.ApprovalSafety
import Harp.Orchestration.AuditTrail
import Harp.Orchestration.Completion
import Harp.Orchestration.Activation
import Harp.Orchestration.Claims
import Harp.Orchestration.ApprovalFloor
import Harp.Orchestration.Governance
import Harp.Orchestration.Replay
import Harp.Orchestration.TokenBudget
import Harp.Models.Accounting
import Harp.Models.BudgetManager
import Harp.Gateway.Failover
import Harp.Gateway.Health
import Harp.Gateway.Privacy
import Harp.Gateway.ReplySafety
import Harp.Orchestration.RiskMark
import Harp.Gateway.WireRefinement
import Harp.Gateway.RedactionSafety
import Harp.Gateway.RedactionTwice
import Harp.Lib.JsonNumbers
import Harp.Gateway.Network
import Harp.Gateway.EndToEnd
import Harp.Gateway.ConcurrentCalls
import Harp.Tools.Mediation
import Harp.Agents.ModelContract
import Harp.Agents.AnswerText
import Harp.Orchestration.ApprovalRisk
import Harp.Orchestration.FailedActor
import Harp.Orchestration.Provenance
import Harp.Context.ThreadCompactor
import Harp.Models.Remaining
import Harp.Models.Overdraft
import Harp.Tools.DangerousPermissions
import Harp.Tools.DefaultTools
import Harp.Tools.AnyLogger
import Harp.Gateway.TrustPolicy
import Harp.Knowledge.Search
import Harp.Context.ProgressiveContextLoader
import Harp.Orchestration.SequentialValidator
import Harp.Gateway.CaBundle
import Harp.Container.Answers
import Harp.Gateway.Delivery
import Harp.Gateway.RedactionCounts
import Harp.Models.StubModelProvider
import Harp.Container.StubContainedProvider
import Harp.Orchestration.SteadyRuns
import Harp.Orchestration.CreateHarpSystem
import Harp.Orchestration.Deliveries
import Harp.Lib.Cost
import Harp.Gateway.Startup
import Harp.Orchestration.BoundedRuns
import Harp.Observability.MetadataOnly
import Harp.Gateway.LogMetadata

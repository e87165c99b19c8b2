import CloseClaw.Permission.GlobStray
import CloseClaw.Permission.CacheRuns
import CloseClaw.Permission.ChainVerdict
import CloseClaw.Permission.WhitelistExact
import CloseClaw.Permission.UserDefaults
import CloseClaw.Permission.SpawnCheck
import CloseClaw.Permission.OperationKey
import CloseClaw.Permission.Templates
import CloseClaw.Session.QueueRefinement
import CloseClaw.Workflow.FrontMatter
import CloseClaw.Session.JumpLetters
import CloseClaw.Session.WorkflowEffects
import CloseClaw.Session.SaveOrder
import CloseClaw.Session.LiveCheck
import CloseClaw.Tools.EditMatch
import CloseClaw.Gateway.FileDispatch
import CloseClaw.Session.SpawnController
import CloseClaw.Session.SpawnRecovery
import CloseClaw.Session.HealthRuns
import CloseClaw.Common.DispatchResults
import CloseClaw.Common.FileMutex
import CloseClaw.Tasks.BackgroundRuns
import CloseClaw.ProcessorChain.Faults
import CloseClaw.Gateway.TaskNotices
import CloseClaw.Gateway.TurnOrder
import CloseClaw.Gateway.TurnProgress
import CloseClaw.Gateway.QueuedTurn
import CloseClaw.Gateway.InboundRebuild
import CloseClaw.Gateway.UsableSession
import CloseClaw.Gateway.SharedSession
import CloseClaw.Gateway.NewSession
import CloseClaw.LLM.Interpreter
import CloseClaw.LLM.AssemblyOrder
import CloseClaw.LLM.DegradedStream
import CloseClaw.LLM.ToolCallStream
import CloseClaw.LLM.SystemPrompt
import CloseClaw.LLM.Cooldown
import CloseClaw.Session.RequestHistory
import CloseClaw.Memory.RuleProvenance
import CloseClaw.Memory.EntityGroups
import CloseClaw.Memory.MiningRuns
import CloseClaw.Session.RecoveryInjection
import CloseClaw.Gateway.Sweeper
import CloseClaw.Gateway.OutboundOps
import CloseClaw.Session.SnapshotRuns
import CloseClaw.Gateway.Compaction
import CloseClaw.Gateway.YieldRecovery
import CloseClaw.Gateway.RateLimit
import CloseClaw.ProcessorChain.DslLines
import CloseClaw.Tools.Registry

import Orchestrator.Kit.Table
import Orchestrator.Delivery.Comments
import Orchestrator.Delivery.MergeTimeout
import Orchestrator.Delivery.PullRequests
import Orchestrator.Delivery.RequiredChecks
import Orchestrator.Delivery.ReviewedPush
import Orchestrator.Execution.AddedLines
import Orchestrator.Execution.ChildEnvironment
import Orchestrator.Execution.DispatchingRunner
import Orchestrator.Execution.RepositoryPaths
import Orchestrator.Execution.Sandbox
import Orchestrator.Execution.SecretScan
import Orchestrator.Execution.Stages.FixRuns
import Orchestrator.Execution.Stages.Outcomes
import Orchestrator.Intake.DiscoverLinearIssues
import Orchestrator.Intake.Synchronization
import Orchestrator.Kit.Kahn
import Orchestrator.Kit.Proc
import Orchestrator.StateMachine
import Orchestrator.Scheduler.History
import Orchestrator.Scheduler.Interruption
import Orchestrator.Scheduler.Blockers
import Orchestrator.Scheduler.Cancellation
import Orchestrator.Repositories.Ownership
import Orchestrator.Scheduler.DeliveryLimit
import Orchestrator.Scheduler.ExecutionLimit
import Orchestrator.Scheduler.Recovery
import Orchestrator.Scheduler.ResultOwnership
import Orchestrator.Scheduler.Runs
import Orchestrator.Scheduler.PauseResume
import Orchestrator.Scheduler.Rollout
import Orchestrator.Scheduling.StageGate
import Orchestrator.Scheduling.WindowOccurrences
import Orchestrator.Providers.LinearListing
import Orchestrator.Providers.OverlappingCalls
import Orchestrator.Providers.Pagination
import Orchestrator.Scheduler.HeldClaims
import Orchestrator.Scheduler.StaleControls
import Orchestrator.Workspaces.CrashRecovery
import Orchestrator.Workspaces.WorktreeList
import Orchestrator.Execution.Secrets
import Orchestrator.Delivery.UntrustedText
import Orchestrator.Execution.PathGlobs
import Orchestrator.Execution.CliArguments
import Orchestrator.Execution.PromptBlocks
import Orchestrator.Repositories.Snapshots
import Orchestrator.Execution.Stages.InspectedTrees
import Orchestrator.Execution.CliRun
import Orchestrator.Execution.Stages.HandlerMoves
import Orchestrator.Scheduler.HandledRuns
import Orchestrator.Scheduler.StageBudget
import Orchestrator.Delivery.Completion
import Orchestrator.Scheduler.MergedTasks
import Orchestrator.Scheduler.AppliedResults
import Orchestrator.Workspaces.RepositoryLock
import Orchestrator.Workspaces.TaskResults
import Orchestrator.Execution.QualityGates

import CommandConsole.Execution.LockExclusion
import CommandConsole.Execution.DependencyOrder
import CommandConsole.Execution.RecoveryFreshness
import CommandConsole.Events.OutboxProcessor
import CommandConsole.Jobs.JobExclusion
import CommandConsole.Identity.ResetSupersession
import CommandConsole.Billing.InvitationLifecycle
import CommandConsole.Retry.RetrySafety
import CommandConsole.Learning.SupersessionInterleaving
import CommandConsole.Learning.SkillGraphHistory
import CommandConsole.Knowledge.Audit
import CommandConsole.Contracts.DeterministicJson
import CommandConsole.Planning.Migration
import CommandConsole.Policies.ActivePolicies
import CommandConsole.Learning.DeferredLifecycle
import CommandConsole.Execution.ReplayOwnSteps
import CommandConsole.Recovery.RequestReadability
import CommandConsole.Sam.BridgeIdempotency
import CommandConsole.DurableLearning.ExactCommits
import CommandConsole.Automation.Cooldown
import CommandConsole.Approvals.AtMostOnce
import CommandConsole.Vault.LinearLedger
import CommandConsole.Governance.Decisions
import CommandConsole.Archive.Supersession
import CommandConsole.Workflows.StepAuthorization
import CommandConsole.Rollouts.Rollback
import CommandConsole.Governance.AdmissionRuns
import CommandConsole.Automation.Pauses
import CommandConsole.Proposals.Lifecycle
import CommandConsole.Agents.QueueSafety
import CommandConsole.Governance.ScopeResolution
import CommandConsole.Tandem.IntakeSafety
import CommandConsole.Knowledge.RelationshipGraph
import CommandConsole.Skills.BlastRadius
import CommandConsole.DurableLearning.Retention
import CommandConsole.Knowledge.ReviewWorkSafety
import CommandConsole.Curriculum.PlanConstraints
import CommandConsole.Planning.DependencyExactness
import CommandConsole.Execution.Finalization
import CommandConsole.Execution.CarriedColumns
import CommandConsole.Execution.DependencyResolution
import CommandConsole.Execution.ResourceLocks
import CommandConsole.Authentication.LimiterExactness
import CommandConsole.Jobs.RetryAccounting
import CommandConsole.Execution.SideEffectClasses
import CommandConsole.Operators.ActionIdempotency
import CommandConsole.Execution.OperatorTransitions

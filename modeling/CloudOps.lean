import CloudOps.Computation.Transition
import CloudOps.Computation.Simulation
import CloudOps.Computation.Policy
import CloudOps.Computation.Collection
import CloudOps.Computation.Dict
import CloudOps.Computation.Overwrites
import CloudOps.Computation.Program
import CloudOps.Computation.Interleaving
import CloudOps.Computation.FirstCome
import CloudOps.Computation.Restriction
import CloudOps.Computation.Isolation
import CloudOps.Computation.Turns
import CloudOps.Computation.Serializability
import CloudOps.Computation.Regex
import CloudOps.Computation.Pagination
import CloudOps.Model.Types
import CloudOps.Model.Retry
import CloudOps.Model.JobQueue
import CloudOps.Model.CircuitBreaker
import CloudOps.Model.DiagnosticsClient
import CloudOps.Model.RemediationEngine
import CloudOps.Model.PolicyEngine
import CloudOps.Model.Database
import CloudOps.Model.EngineAnalysis
import CloudOps.Model.RemediationService
import CloudOps.Model.ResourceService
import CloudOps.Model.JobService
import CloudOps.Model.QueryService
import CloudOps.Model.JobProcessor
import CloudOps.Model.ApiRequests
import CloudOps.Model.Routes
import CloudOps.Model.Login
import CloudOps.Model.Http
import CloudOps.Model.Providers
import CloudOps.Model.Worker
import CloudOps.Interface.Policies
import CloudOps.Interface.EngineReports
import CloudOps.Interface.ResourceActions
import CloudOps.Interface.Changes
import CloudOps.Interface.BreakerHistory
import CloudOps.Analysis.JobSteps
import CloudOps.Analysis.JobLifecycle
import CloudOps.Analysis.TerminalJobs
import CloudOps.Analysis.AttemptCeiling
import CloudOps.Analysis.LeaseExclusion
import CloudOps.Analysis.RetrySchedule
import CloudOps.Analysis.RetryCalls
import CloudOps.Analysis.RemediationImproves
import CloudOps.Analysis.ActionLoop
import CloudOps.Analysis.ExecuteStages
import CloudOps.Analysis.RequestStages
import CloudOps.Analysis.DatabaseSteps
import CloudOps.Analysis.ServiceRuns
import CloudOps.Analysis.SingleExecution
import CloudOps.Analysis.PlanRequests
import CloudOps.Analysis.ApprovedExecution
import CloudOps.Analysis.ResourceCopies
import CloudOps.Analysis.DryRunFidelity
import CloudOps.Analysis.AccountedExecution
import CloudOps.Analysis.PlanLifecycle
import CloudOps.Analysis.BreakerHistory
import CloudOps.Analysis.BreakerWindow
import CloudOps.Analysis.FailureRetries
import CloudOps.Analysis.JobStages
import CloudOps.Analysis.JobIntake
import CloudOps.Analysis.ReplayConvergence
import CloudOps.Analysis.RetrySaves
import CloudOps.Analysis.JobRuns
import CloudOps.Analysis.Reprocessing
import CloudOps.Analysis.JobSummaries
import CloudOps.Analysis.WorkspaceViews
import CloudOps.Analysis.WorkspaceIsolation
import CloudOps.Analysis.UpdateCells
import CloudOps.Analysis.UpdatesKept
import CloudOps.Analysis.PlannedEffects
import CloudOps.Analysis.EngineTotality
import CloudOps.Analysis.AnalysisStored
import CloudOps.Analysis.PlanFromEngine
import CloudOps.Analysis.ExecuteFootprint
import CloudOps.Analysis.ExecutionRecord
import CloudOps.Analysis.Snapshots
import CloudOps.Analysis.ReportedSuccess
import CloudOps.Analysis.RejectedRequests
import CloudOps.Analysis.ExecutionReplays
import CloudOps.Analysis.NameSearch
import CloudOps.Analysis.ListPages
import CloudOps.Analysis.LoginAccounts
import CloudOps.Analysis.ProviderQueries
import CloudOps.Analysis.WorkerLoop
import CloudOps.Analysis.Attempts
import CloudOps.Analysis.WorkerProcess
import CloudOps.Analysis.JobClients
import CloudOps.Analysis.JobRefinement
import CloudOps.Analysis.HttpPolicy
import CloudOps.Analysis.HttpRequests
import CloudOps.Analysis.HttpRoutes
import CloudOps.Analysis.AppClients
import CloudOps.Analysis.HttpRuns
import CloudOps.Analysis.HttpOutcomes
import CloudOps.Analysis.References
import CloudOps.Analysis.DiagnosisRuns
import CloudOps.Analysis.WorkspaceRuns
import CloudOps.Analysis.Accounts

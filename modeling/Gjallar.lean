import Gjallar.AccountRuns
import Gjallar.Accounts
import Gjallar.AdminGuard
import Gjallar.Admission
import Gjallar.AdmissionAtomicity
import Gjallar.ApprovalGate
import Gjallar.ArchiveLines
import Gjallar.AtMostOnce
import Gjallar.Bootstrap
import Gjallar.BootstrapMoves
import Gjallar.BoundLocks
import Gjallar.BridgeReview
import Gjallar.CanonicalJson
import Gjallar.ChangeRecovery
import Gjallar.ChangeServices
import Gjallar.CommitSequence
import Gjallar.ConnectionSwitch
import Gjallar.Coordination
import Gjallar.CoordinationRefinement
import Gjallar.CrashPrograms
import Gjallar.CreateIntents
import Gjallar.CreatePrepare
import Gjallar.Data
import Gjallar.EventChain
import Gjallar.Execution
import Gjallar.ExecutionContract
import Gjallar.ExecutionEffects
import Gjallar.Fallible
import Gjallar.GuidedCommits
import Gjallar.GuidedContract
import Gjallar.GuidedEffects
import Gjallar.GuidedInvariants
import Gjallar.GuidedOrphan
import Gjallar.GuidedQm
import Gjallar.GuidedRecovery
import Gjallar.GuidedRelease
import Gjallar.GuidedRows
import Gjallar.GuidedScenes
import Gjallar.GuidedSteps
import Gjallar.GuidedSystem
import Gjallar.GuidedWorkflow
import Gjallar.HashChain
import Gjallar.HostAdmission
import Gjallar.HostNetwork
import Gjallar.InstallData
import Gjallar.InstallResume
import Gjallar.Installation
import Gjallar.LastAdmin
import Gjallar.LeaseFencing
import Gjallar.LockExclusion
import Gjallar.LockReferences
import Gjallar.Marks
import Gjallar.MutationUnderLock
import Gjallar.NetworkGate
import Gjallar.NetworkReplacement
import Gjallar.ObserveLedger
import Gjallar.ObserveRejections
import Gjallar.ObserveWastes
import Gjallar.Operation
import Gjallar.OperationCreation
import Gjallar.OperationLedger
import Gjallar.OperationStore
import Gjallar.PasswordCalls
import Gjallar.PasswordFinality
import Gjallar.PasswordReset
import Gjallar.PendingDiff
import Gjallar.PlacementExclusion
import Gjallar.Planning
import Gjallar.Processes
import Gjallar.ReadCommitted
import Gjallar.RecoveryBinding
import Gjallar.RecoveryStore
import Gjallar.Redaction
import Gjallar.RedactionLeaks
import Gjallar.RedactionOutlines
import Gjallar.Regex
import Gjallar.RegexGaps
import Gjallar.Registration
import Gjallar.RegistrationContract
import Gjallar.RegistrationIssue
import Gjallar.RejectedRequests
import Gjallar.ResizeDecision
import Gjallar.Runs
import Gjallar.SanitizedLedgers
import Gjallar.SessionRows
import Gjallar.SessionRuns
import Gjallar.SessionTables
import Gjallar.Sessions
import Gjallar.StableRanks
import Gjallar.Tables
import Gjallar.TargetLocks
import Gjallar.TaskIdentity
import Gjallar.Text
import Gjallar.TextLines
import Gjallar.Transactions
import Gjallar.UpgradeJournal
import Gjallar.VlanRanges
import Gjallar.VmAdmission
import Gjallar.VmDelete
import Gjallar.VmStart
import Gjallar.WorkingEngine

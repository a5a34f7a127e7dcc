import Gjallar.ChangeRecovery
import Gjallar.Fallible
import Gjallar.GuidedQm
import Gjallar.OperationLedger

/-!
# The calls of the guided unlock

The calls that the guided workflow makes, to the operation, recovery and lock stores, to the
observing side of the Proxmox client and to the clock, and the observations it commits. No call
changes the VM; the operator does that.
-/
namespace Gjallar.GuidedWorkflow

open Gjallar.Text Gjallar.Data Gjallar.Operation Gjallar.OperationStore Gjallar.OperationLedger
  Gjallar.TargetLocks Gjallar.RecoveryStore Gjallar.RecoveryBinding Gjallar.Processes
  Gjallar.Processes.Fallible Gjallar.ChangeServices Gjallar.GuidedQm

inductive Command where
  | getOperation (operationId : Str)
  | listEvents (operationId : Str)
  | create (spec : OperationSpec) (payload : Dict)
  /-- `transition` and `append_event`. -/
  | append (operationId : Str) (a : Append)
  | currentLock (targetType targetId : Str)
  | acquire (targetType targetId operationId : Str)
  | getRecovery (operationId : Str)
  | prepareAndClaim (spec : RecoverySpec) (leaseOwner : Str) (leaseTime : Instant) (version : ℕ)
      (checksum : Str)
  | claimOperation (operationId leaseOwner : Str) (leaseTime : Instant) (version : ℕ)
      (checksum : Str)
  | claimDue (leaseOwner : Str) (leaseTime : Instant) (limit : ℤ)
  | commit (lease : RecoveryLease) (o : Observation)
  /-- `has_node_task_audit`. -/
  | taskAudit (nodeId : Str)
  /-- `list_active_vm_tasks`. -/
  | activeTasks (nodeId : Str) (vmid : ℤ)
  /-- `get_vm_config`. -/
  | vmConfig (nodeId : Str) (vmid : ℤ)
  | clock

/-- What a command answers when it does not raise. -/
abbrev Answered : Command → Type
  | .getOperation _ => Option OperationSnapshot
  | .listEvents _ => List OperationEventRecord
  | .create .. => OperationSnapshot × Bool
  | .append .. => OperationSnapshot
  | .currentLock .. => Option TargetLockHandle
  | .acquire .. => TargetLockHandle
  | .getRecovery _ => Option RecoveryItem
  | .prepareAndClaim .. => RecoveryLease
  | .claimOperation .. => RecoveryLease
  | .claimDue .. => List RecoveryLease
  | .commit .. => OperationSnapshot × RecoveryItem
  | .taskAudit _ => Bool
  | .activeTasks .. => List Dict
  | .vmConfig .. => Dict
  | .clock => Instant

abbrev Reply (c : Command) : Type := Answer (Answered c)

abbrev Action (α : Type) := Fallible Command Answered Failure α

/-- The settings of the use case. -/
structure UseCase where
  ttl : Instant
  maxAttempts : ℕ
  leaseTime : Instant

/-- A `GuidedQmError` with its code. -/
def guidedError (code : String) : Failure := .service code

def stateConflict : Failure := guidedError "GUIDED_QM_STATE_CONFLICT"
def bindingMismatch : Failure := guidedError "GUIDED_QM_RECOVERY_BINDING_MISMATCH"
def targetLockLost : Failure := guidedError "GUIDED_QM_TARGET_LOCK_LOST"
def targetLockBusy : Failure := guidedError "GUIDED_QM_TARGET_LOCK_BUSY"
def persistenceError : Failure := guidedError "GUIDED_QM_PERSISTENCE_UNAVAILABLE"
def recoveryError : Failure := guidedError "GUIDED_QM_RECOVERY_UNAVAILABLE"
def observationUnavailable : Failure := guidedError "GUIDED_QM_OBSERVATION_UNAVAILABLE"

/-- The message of the error `_observe` raises. -/
def observationMessage (code : Str) : Str :=
  if code = ("GUIDED_QM_TASK_AUDIT_INCOMPLETE" : Str) then
    "The Proxmox API token needs Sys.Audit on the node to prove that no VM tasks are active"
  else "Authoritative Proxmox state could not be observed"

/-- The stored text of a status. -/
abbrev statusName : OperationStatus → Str := eventChecksumPayload.statusName

/-! ### What the workflow commits -/

namespace Commit

section

variable (actor : OperationActor)

/-- `_bind_planned_target_lock`. -/
def lockBound (evidence : Dict) (lockId clusterId : Str) : Observation :=
  { eventType := "guided_plan_target_lock_bound", stage := "plan_preparation",
    payload := [("target_operation_lock", .dict evidence)],
    detailsPatch := [("target_operation_lock", .dict evidence)], actor := some actor,
    expectedStatuses := some [.planned], recoveryStatus := "leased",
    recoveryDetailsPatch := [("phase", .str "lock_acquired"), ("target_lock_id", .str lockId),
      ("cluster_id", .str clusterId)],
    bindTargetLock := true }

/-- `_close_unissued_without_owned_lock`. -/
def closeUnissuedWithoutOwnedLock (eventType reason : Str) (observedLock : Dict) : Observation :=
  { nextStatus := some .blocked, eventType := eventType, stage := "plan_preparation",
    payload := [("instruction_exposed", .bool false), ("observed_target_lock", .dict observedLock)],
    detailsPatch := [("instruction_exposed", .bool false),
      ("plan_finalization", .dict [("ready", .bool false), ("reason", .str reason)])],
    actor := some actor, expectedStatuses := some [.planned], recoveryStatus := "completed",
    recoveryDetailsPatch := [("phase", .str "blocked"), ("terminal_outcome", .str "blocked")] }

/-- `_close_unissued_plan`; the next status is `blocked` or `expired`. -/
def closeUnissuedPlan (nextStatus : OperationStatus) (eventType : Str)
    (payload finalization : Dict) : Observation :=
  { nextStatus := some nextStatus, eventType := eventType, stage := "plan_preparation",
    payload := payload, detailsPatch := [("plan_finalization", .dict finalization)],
    actor := some actor, expectedStatuses := some [.planned], recoveryStatus := "completed",
    releaseTargetLock := true,
    recoveryDetailsPatch := [("phase", .str (statusName nextStatus))] }

/-- A commit that pauses the recovery of an operation for its manual reconciliation. -/
def reconcile (nextStatus : Option OperationStatus) (expected : OperationStatus)
    (eventType stage errorCode : Str) (payload detailsPatch : Dict) : Observation :=
  { nextStatus := nextStatus, eventType := eventType, stage := stage, payload := payload,
    detailsPatch := detailsPatch, actor := some actor, expectedStatuses := some [expected],
    recoveryStatus := "paused", errorCode := some errorCode }

/-- `plan_target_lock_changed_before_handoff`. -/
def lockChangedBeforeHandoff (observedLock : Dict) : Observation :=
  reconcile actor (some .blocked) .planned "plan_target_lock_changed_before_handoff"
    "plan_preparation" "GUIDED_QM_TARGET_LOCK_LOST"
    [("observed_target_lock", .dict observedLock)]
    [("reconciliation_reason", .str "provisional_target_lock_changed_before_handoff")]

/-- `plan_preparation_lock_missing`, when the operation owns another lock. -/
def planLockMissing (observedLock : Dict) : Observation :=
  reconcile actor (some .blocked) .planned "plan_preparation_lock_missing" "plan_preparation"
    "GUIDED_QM_PROVISIONAL_LOCK_MISSING" [("observed_target_lock", .dict observedLock)]
    [("reconciliation_reason", .str "provisional_plan_target_lock_missing")]

/-- `guided_instruction_issued`. -/
def instructionIssued (operation : OperationSnapshot) (expiresAt : Value) (observed : Observed)
    (bundle evidence : Dict) (delay : Instant) : Observation :=
  { nextStatus := some .awaitingOperator, eventType := "guided_instruction_issued",
    stage := "operator_handoff",
    payload := [("plan_digest", .str operation.planDigest), ("expires_at", expiresAt),
      ("observed", .dict observed.toDict), ("instruction_exposed", .bool true),
      ("instruction_bundle", .dict bundle)],
    detailsPatch := [("instruction_bundle", .dict bundle), ("instruction_exposed", .bool true),
      ("target_operation_lock", .dict evidence),
      ("plan_finalization", .dict [("ready", .bool true), ("observed", .dict observed.toDict)])],
    actor := some actor, expectedStatuses := some [.planned], recoveryStatus := "retry_wait",
    retryDelay := delay, recoveryDetailsPatch := [("phase", .str "awaiting_operator")] }

/-- `recovery_instruction_still_active`. -/
def instructionStillActive (expiresAt : Value) (delay : Instant) : Observation :=
  { eventType := "recovery_instruction_still_active", stage := "operator_handoff",
    payload := [("expires_at", expiresAt)], actor := some actor,
    expectedStatuses := some [.awaitingOperator], recoveryStatus := "retry_wait",
    retryDelay := delay }

/-- A commit at the expiry of the instruction that asks for reconciliation. -/
def expiryReconciliation (eventType errorCode reason : Str) (payload evidence : Dict) :
    Observation :=
  reconcile actor (some .needsReconciliation) .awaitingOperator eventType "operator_handoff"
    errorCode payload (("reconciliation_reason", .str reason) :: evidence)

/-- `expiry_observation_unavailable`. -/
def expiryObservationUnavailable (expiresAt : Value) (code : Str) (exhausted : Bool) :
    Observation :=
  { nextStatus := if exhausted then some .needsReconciliation else none,
    eventType := "expiry_observation_unavailable", stage := "operator_handoff",
    payload := [("expires_at", expiresAt), ("code", .str code)],
    detailsPatch := ("expiry_observation", .dict [("authority", .str "proxmox_api"),
        ("available", .bool false), ("retry_exhausted", .bool exhausted)]) ::
      if exhausted then [("reconciliation_reason", .str "state_unknown_at_instruction_expiry")]
      else [],
    actor := some actor, expectedStatuses := some [.awaitingOperator],
    recoveryStatus := if exhausted then "paused" else "retry_wait",
    retryDelay := if exhausted then 0 else Instant.seconds 30,
    errorCode := some ("GUIDED_QM_EXPIRY_OBSERVATION_UNAVAILABLE" : Str) }

/-- `instruction_expired`. -/
def instructionExpired (expiresAt : Value) (observed : Observed) : Observation :=
  { nextStatus := some .expired, eventType := "instruction_expired", stage := "operator_handoff",
    payload := [("expires_at", expiresAt), ("observed", .dict observed.toDict)],
    actor := some actor, expectedStatuses := some [.awaitingOperator],
    recoveryStatus := "completed", releaseTargetLock := true,
    recoveryDetailsPatch := [("phase", .str "expired"),
      ("expiry_observation", .dict observed.toDict)] }

/-- `verification_started`. -/
def verificationStarted (operation : OperationSnapshot) : Observation :=
  { nextStatus := some .verifying, eventType := "verification_started", stage := "verification",
    payload := [("plan_digest", .str operation.planDigest), ("authority", .str "proxmox_api")],
    actor := some actor, expectedStatuses := some [.awaitingVerification, .needsReconciliation],
    recoveryStatus := "leased", recoveryDetailsPatch := [("phase", .str "verifying")] }

/-- `verification_unavailable`. -/
def verificationUnavailable (code : Str) (exhausted : Bool) : Observation :=
  { nextStatus := some .needsReconciliation, eventType := "verification_unavailable",
    stage := "verification",
    payload := [("code", .str code), ("message", .str (observationMessage code))],
    detailsPatch := [("verification", .dict
      [("verified", .bool false), ("reason", .str "observation_unavailable")])],
    actor := some actor, expectedStatuses := some [.verifying],
    recoveryStatus := if exhausted then "paused" else "retry_wait",
    retryDelay := Instant.seconds 30,
    errorCode := some ("GUIDED_QM_VERIFICATION_UNAVAILABLE" : Str) }

/-- `verification_mismatch`. -/
def verificationMismatch (observed : Observed) : Observation :=
  reconcile actor (some .needsReconciliation) .verifying "verification_mismatch" "verification"
    "GUIDED_QM_VERIFICATION_MISMATCH"
    [("observed_after", .dict observed.toDict),
      ("expected", .dict [("config_lock_absent", .bool true), ("active_tasks", .list [])])]
    [("verification", .dict [("verified", .bool false), ("observed_after", .dict observed.toDict),
      ("reason", .str "lock_or_active_task_present")])]

/-- `verification_target_lock_changed_after_observation`. -/
def verificationLockChanged (observedLock : Dict) : Observation :=
  reconcile actor (some .needsReconciliation) .verifying
    "verification_target_lock_changed_after_observation" "verification"
    "GUIDED_QM_TARGET_LOCK_LOST" [("observed_target_lock", .dict observedLock)]
    [("reconciliation_reason", .str "target_lock_changed_during_verification")]

/-- `verification_succeeded`. -/
def verificationSucceeded (observed : Observed) (verifiedAt : Str) : Observation :=
  { nextStatus := some .succeeded, eventType := "verification_succeeded",
    stage := "verification",
    payload := [("observed_after", .dict observed.toDict), ("verified_at", .str verifiedAt)],
    detailsPatch := [("verification", .dict [("verified", .bool true),
      ("authority", .str "proxmox_api"), ("observed_after", .dict observed.toDict),
      ("verified_at", .str verifiedAt)])],
    actor := some actor, expectedStatuses := some [.verifying], recoveryStatus := "completed",
    releaseTargetLock := true,
    recoveryDetailsPatch := [("phase", .str "succeeded"),
      ("observed_after", .dict observed.toDict)] }

end

/-- `recovery_target_lock_mismatch`. -/
def recoveryLockMismatch (status : OperationStatus) (observedLock : Dict) : Observation :=
  reconcile systemRecoveryActor
    (if status = .needsReconciliation then none else some .needsReconciliation) status
    "recovery_target_lock_mismatch" "reconciliation" "GUIDED_QM_TARGET_LOCK_LOST"
    [("observed_target_lock", .dict observedLock)]
    [("reconciliation_reason", .str "target_lock_missing_during_verification")]

/-- A commit that only pauses the recovery. -/
def pause (status : OperationStatus) (eventType errorCode : Str) : Observation :=
  reconcile systemRecoveryActor none status eventType "reconciliation" errorCode
    [("operation_status", .str (statusName status))] []

/-- The commit with which the handler reports a binding mismatch. -/
def bindingMismatch (operation : OperationSnapshot) : Observation :=
  { nextStatus := if operation.status = .awaitingOperator ∨
        operation.status = .awaitingVerification ∨ operation.status = .verifying ∨
        operation.status = .expired then some .needsReconciliation else none,
    eventType := "guided_qm_recovery_binding_mismatch", stage := "reconciliation",
    payload := [("code", .str "GUIDED_QM_RECOVERY_BINDING_MISMATCH")],
    detailsPatch := [("reconciliation_code", .str "GUIDED_QM_RECOVERY_BINDING_MISMATCH")],
    expectedStatuses := some [operation.status], actor := some ChangeRecovery.systemRecoveryActor,
    recoveryStatus := "paused",
    errorCode := some ("GUIDED_QM_RECOVERY_BINDING_MISMATCH" : Str),
    recoveryDetailsPatch := [("binding_error", .str "GUIDED_QM_RECOVERY_BINDING_MISMATCH")],
    requireExactReconciliationLock := false }

end Commit

end Gjallar.GuidedWorkflow

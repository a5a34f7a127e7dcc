import Gjallar.ChangeServices

/-!
# Recovery runs

The recovery handlers of the change services, the runner that claims due items and hands them to a
handler, and the observation an operator requests.
-/
namespace Gjallar.ChangeRecovery

open Gjallar.Text Gjallar.Data Gjallar.Operation Gjallar.OperationStore Gjallar.TargetLocks
  Gjallar.RecoveryStore Gjallar.RecoveryBinding Gjallar.Processes Gjallar.Processes.Program
  Gjallar.ChangeServices

/-- `SYSTEM_RECOVERY_ACTOR`. -/
def systemRecoveryActor : OperationActor :=
  ⟨"system:operation-recovery", "operation-recovery", "system"⟩

/-- `OPERATION_RECOVERY_BINDING_MISMATCH`. -/
def bindingMismatch : Str := "OPERATION_RECOVERY_BINDING_MISMATCH"

/-- The commit of `_pause_binding_failure`. -/
def bindingFailure (operation : OperationSnapshot) (reason : Str) : Observation :=
  let invalidTaskReference := reason ∈
    (["operation_task_reference_invalid", "recovery_task_reference_invalid"] : List Str)
  let interrupted := operation.status = .dispatching ∨ operation.status = .running ∨
    operation.status = .verifying
  { nextStatus := if interrupted then some .needsReconciliation else none
    eventType := "recovery_binding_mismatch"
    stage := "reconciliation"
    payload := [("reason", .str reason)]
    detailsPatch := ("reconciliation_code", .str bindingMismatch) ::
      if invalidTaskReference then [("proxmox_upid", .str [])] else []
    expectedStatuses := some [operation.status]
    actor := some systemRecoveryActor
    recoveryStatus := "paused"
    errorCode := some bindingMismatch
    recoveryDetailsPatch := ("binding_error", .str reason) ::
      if invalidTaskReference then [("upid", .str [])] else []
    requireExactReconciliationLock := false }

section Handler

variable (rt : Runtime) (svc : Service)

/-- The checks of the related target locks. -/
def checkRelated (details : Dict) (operation : OperationSnapshot) :
    List LockReference → Prog (Answer (Except Str Unit))
  | [] => return .ok (.ok ())
  | reference :: references => do
      match ← Call.targetLock (("vmid:" : Str) ++ ofInt reference.vmid) with
      | .error e => return .error e
      | .ok lock =>
          match checkRelatedLock rt details operation reference lock with
          | .error reason => return .ok (.error reason)
          | .ok _ => checkRelated details operation references

/-- `_validate_recovery_binding`, with the check a handler adds. -/
def validateBinding (lease : RecoveryLease) (operation : OperationSnapshot) :
    Prog (Answer (Except Str Unit)) := do
  let details := lease.item.details
  match checkTarget rt lease operation svc.recoveryKind svc.operationType .managedApi,
      checkTaskReference rt details operation.details with
  | .error reason, _ => return .ok (.error reason)
  | .ok _, .error reason => return .ok (.error reason)
  | .ok vmid, .ok _ =>
      match ← Call.targetLock operation.targetId with
      | .error e => return .error e
      | .ok lock =>
          match checkLock rt details operation vmid lock,
              relatedReferences details operation with
          | .error reason, _ => return .ok (.error reason)
          | .ok _, .error reason => return .ok (.error reason)
          | .ok _, .ok references =>
              match ← checkRelated rt details operation references with
              | .ok (.ok _) => return .ok (svc.checkBinding operation)
              | answer => return answer

/-- `handle` once the binding is validated. -/
def resume (lease : RecoveryLease) (operation : OperationSnapshot) : Prog (Answer Str) := do
  if operation.status = .planned ∧
      Dict.get operation.details "mutation_dispatched" = some (.bool false) then
    Service.conclude lease (svc.interruptedBeforeDispatch operation) "blocked"
  else
    match ← svc.verify rt lease operation none with
    | .error (.service code) =>
        Service.conclude lease (svc.recoveryUnavailable operation code) "paused"
    | answer => return answer

/-- `handle`. -/
def handle (lease : RecoveryLease) : Prog (Answer Str) := do
  match ← Call.getOperation lease.operationId with
  | .error e => return .error e
  | .ok none => return .error .other
  | .ok (some operation) =>
      match ← validateBinding rt svc lease operation with
      | .error e => return .error e
      | .ok (.error reason) =>
          Service.conclude lease (bindingFailure operation reason) "paused_binding_mismatch"
      | .ok (.ok _) => resume rt svc lease operation

end Handler

/-- `OperationRecoveryRunner` with the handlers of its services. -/
structure Runner where
  services : List Service
  workerId : Str
  leaseTime : Instant
  maxAttempts : ℕ
  /-- `type(exc).__name__`. -/
  typeName : Failure → Str

namespace Runner

variable (rt : Runtime) (runner : Runner)

def handlerUnsupported (lease : RecoveryLease) : Observation :=
  { eventType := "recovery_handler_unsupported", stage := "reconciliation",
    payload := [("recovery_kind", .str lease.item.recoveryKind)],
    actor := some systemRecoveryActor, recoveryStatus := "paused",
    errorCode := some ("OPERATION_RECOVERY_HANDLER_UNSUPPORTED" : Str) }

def isExhausted (lease : RecoveryLease) : Bool :=
  max runner.maxAttempts 1 ≤ lease.item.attemptCount

def observationFailed (lease : RecoveryLease) (e : Failure) : Observation :=
  let exhausted := runner.isExhausted lease
  { eventType := "recovery_observation_failed", stage := "reconciliation",
    payload := [("error_type", .str (runner.typeName e))], actor := some systemRecoveryActor,
    recoveryStatus := if exhausted then "paused" else "retry_wait",
    retryDelay := if exhausted then 0 else Instant.seconds 30,
    errorCode := some (if exhausted then ("OPERATION_RECOVERY_RETRY_EXHAUSTED" : Str)
      else "OPERATION_RECOVERY_OBSERVATION_FAILED") }

/-- What `run_claimed` does with the end of a handler. -/
def afterHandler (lease : RecoveryLease) (answer : Answer Str) : Prog (Answer Str) := do
  match answer with
  | .ok outcome => return .ok outcome
  | .error (.store (.recoveryLeaseLost _)) => return .ok "lease_lost"
  | .error e =>
      match ← Call.commit lease (runner.observationFailed lease e) with
      | .error (.store (.recoveryLeaseLost _)) => return .ok "lease_lost"
      | .error e => return .error e
      | .ok _ =>
          return .ok (if runner.isExhausted lease then ("paused_retry_exhausted" : Str)
            else "retry_observation_failed")

/-- `run_claimed`. -/
def runClaimed (lease : RecoveryLease) : Prog (Answer Str) :=
  match runner.services.find? fun svc => svc.recoveryKind = lease.item.recoveryKind with
  | none => Service.conclude lease (handlerUnsupported lease) "paused_unsupported"
  | some svc => do
      let answer ← handle rt svc lease
      runner.afterHandler lease answer

/-- `run_claimed` on one lease after the other. -/
def runAll : List RecoveryLease → Prog Outcome
  | [] => return .recovered []
  | lease :: leases => do
      match ← runner.runClaimed rt lease with
      | .error e => return .raised e
      | .ok outcome =>
          match ← runAll leases with
          | .recovered results => return .recovered ((lease.operationId, outcome) :: results)
          | end_ => return end_

/-- `run_once`. -/
def runOnce : Prog Outcome := do
  match ← Call.claimDue runner.workerId runner.leaseTime 1 with
  | .error e => return .raised e
  | .ok leases => runner.runAll rt leases

/-- What an operator asks for; `resumed` is a repeated request whose lease has expired. The record
of earlier requests is kept in `ledger`. -/
structure ObserveRequest where
  operationId : Str
  actor : OperationActor
  version : ℕ
  checksum : Str
  keyDigest : Str
  resumed : Bool
  ledger : List Value

/-- The commit that records the request of an operator. -/
def observationRequested (r : ObserveRequest) (operation : OperationSnapshot) : Observation :=
  { eventType := "operator_recovery_observation_requested", stage := "reconciliation",
    payload := [("idempotency_key_digest", .str r.keyDigest),
      ("expected_version", .int r.version), ("expected_checksum", .str r.checksum),
      ("observation_only", .bool true)],
    expectedStatuses := some [operation.status], actor := some r.actor,
    recoveryStatus := "leased",
    recoveryDetailsPatch := [("operator_observe_requests", .list r.ledger),
      ("last_operator_observe_key_digest", .str r.keyDigest),
      ("last_operator_observe_expected_version", .int r.version),
      ("last_operator_observe_expected_checksum", .str r.checksum)],
    expectedOperationVersion := some r.version, expectedOperationChecksum := some r.checksum }

/-- The end of an operator's observation. -/
def observed (operationId : Str) (answer : Answer Str) : Prog Outcome :=
  match answer with
  | .error e => return .raised e
  | .ok outcome => return .recovered [(operationId, outcome)]

/-- `OperationRecoveryCoordinator.observe` on an item that exists. -/
def observe (r : ObserveRequest) : Prog Outcome := do
  match ← Call.getOperation r.operationId with
  | .error e => return .raised e
  | .ok none => return .raised .other
  | .ok (some operation) =>
      let version := if r.resumed then operation.version else r.version
      let checksum := if r.resumed then operation.lastEventChecksum else r.checksum
      if operation.version ≠ version ∨ operation.lastEventChecksum ≠ checksum then
        return .raised .other
      else
        match ← Call.claimOperation r.operationId runner.workerId runner.leaseTime
            (some version) (some checksum) with
        | .error e => return .raised e
        | .ok lease =>
            if r.resumed then
              let answer ← runner.runClaimed rt lease
              observed r.operationId answer
            else
              match ← Call.commit lease (observationRequested r operation) with
              | .error e => return .raised e
              | .ok (_, item) =>
                  let answer ← runner.runClaimed rt ⟨item, lease.token⟩
                  observed r.operationId answer

end Runner

end Gjallar.ChangeRecovery

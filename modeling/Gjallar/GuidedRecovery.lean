import Gjallar.GuidedWorkflow

/-!
# The recovery of a guided unlock

`recover` with the handler around it, the runner that claims due items, and the observation an
operator requests.
-/
namespace Gjallar.GuidedWorkflow

open Gjallar.Text Gjallar.Data Gjallar.Operation Gjallar.OperationStore Gjallar.OperationLedger
  Gjallar.TargetLocks Gjallar.RecoveryStore Gjallar.RecoveryBinding Gjallar.Processes
  Gjallar.Processes.Fallible Gjallar.ChangeServices Gjallar.GuidedQm

namespace UseCase

section

variable (rt : Runtime) (u : UseCase)

/-- `recover` of an operation that is still planned. -/
def recoverPlanned (operation : OperationSnapshot) (lease : RecoveryLease) : Action Result := do
  let current ← currentLock rt operation
  let evidence := current.getD []
  if current = none ∨ rawText rt.repr evidence "owner_id" ≠ operation.operationId then
    commitAndReturn rt operation lease (Commit.closeUnissuedWithoutOwnedLock systemRecoveryActor
      "plan_preparation_lock_missing" "provisional_plan_target_lock_missing" evidence) none
  else if isExactOwnedLock rt operation current true = true then
    u.bindAndFinalize rt operation lease evidence systemRecoveryActor true
  else
    commitAndReturn rt operation lease
      (Commit.planLockMissing systemRecoveryActor evidence) none

/-- `recover` while the instruction waits for the operator. -/
def recoverWaiting (operation : OperationSnapshot) (lease : RecoveryLease) : Action Result := do
  let now ← Call.clock
  if operation.expiresAt.isSome = true ∧ isUnexpired operation now = true then
    let delay ← u.timeUntilExpiry operation
    commitAndReturn rt operation lease (Commit.instructionStillActive systemRecoveryActor
      (expiryValue rt operation) delay) none
  else
    let current ← currentLock rt operation
    if isExactOwnedLock rt operation current false = true then
      u.recoverWaitingExpiry rt operation lease systemRecoveryActor
    else
      commitAndReturn rt operation lease (Commit.expiryReconciliation systemRecoveryActor
        "expiry_target_lock_mismatch" "GUIDED_QM_TARGET_LOCK_LOST"
        "target_lock_missing_at_instruction_expiry"
        [("observed_target_lock", .dict (current.getD []))] []) none

/-- `recover` of an operation that awaits its verification. -/
def recoverAttested (operation : OperationSnapshot) (lease : RecoveryLease) : Action Result := do
  if executionAttested operation = false then
    commitAndReturn rt operation lease (Commit.pause operation.status
      "recovery_waiting_for_operator_attestation" "GUIDED_QM_ATTESTATION_REQUIRED") none
  else if operation.status = .needsReconciliation ∧ lateExecutionAttested operation = true then
    commitAndReturn rt operation lease (Commit.pause operation.status
      "recovery_late_attestation_requires_manual_verification"
      "GUIDED_QM_LATE_ATTESTATION_MANUAL_VERIFICATION_REQUIRED") none
  else
    let current ← currentLock rt operation
    if isActiveInstructionLock rt operation current = true then
      u.recoverVerification rt operation lease systemRecoveryActor false
    else
      commitAndReturn rt operation lease
        (Commit.recoveryLockMismatch operation.status (current.getD [])) none

/-- `recover`. -/
def recover (lease : RecoveryLease) : Action Result := do
  let operation ← requireGuidedUnlock lease.operationId
  validateRecoveryLease rt operation lease
  match operation.status with
  | .planned => u.recoverPlanned rt operation lease
  | .awaitingOperator => u.recoverWaiting rt operation lease
  | .awaitingVerification | .verifying | .needsReconciliation =>
      u.recoverAttested rt operation lease
  | _ =>
      commitAndReturn rt operation lease (Commit.pause operation.status
        "recovery_state_ineligible" "GUIDED_QM_RECOVERY_STATE_INELIGIBLE") none

/-- `GuidedQmUnlockRecoveryHandler.handle`. -/
def handle (lease : RecoveryLease) : Action Str := do
  match ← attempt (u.recover rt lease) with
  | .ok result => return ("guided_qm_" : Str) ++ statusName result.operation.status
  | .error e =>
      if e = bindingMismatch then
        match ← Call.getOperation lease.operationId with
        | none => throw e
        | some operation =>
            let _ ← Call.commit lease (Commit.bindingMismatch operation)
            return "paused_binding_mismatch"
      else throw e

end

end UseCase

/-! ### The recovery runner -/

/-- `OperationRecoveryRunner` with the guided handler; the handlers of other kinds are not part of
this workflow. -/
structure Worker where
  useCase : UseCase
  runner : ChangeRecovery.Runner

namespace Worker

variable (rt : Runtime) (w : Worker)

/-- What `run_claimed` does when the handler raises. -/
def afterFailure (lease : RecoveryLease) (e : Failure) : Action Str := do
  match ← attempt (Call.commit lease (w.runner.observationFailed lease e)) with
  | .ok _ =>
      return if w.runner.isExhausted lease = true then ("paused_retry_exhausted" : Str)
        else "retry_observation_failed"
  | .error (.store (.recoveryLeaseLost _)) => return "lease_lost"
  | .error e => throw e

/-- `run_claimed` for a guided lease. -/
def runClaimed (lease : RecoveryLease) : Action Str := do
  if lease.item.recoveryKind = recoveryKind then
    match ← attempt (w.useCase.handle rt lease) with
    | .ok outcome => return outcome
    | .error (.store (.recoveryLeaseLost _)) => return "lease_lost"
    | .error e => w.afterFailure lease e
  else throw .other

/-- `run_claimed` on one lease after the other. -/
def runAll : List RecoveryLease → Action (List (Str × Str))
  | [] => return []
  | lease :: leases => do
      let outcome ← w.runClaimed rt lease
      let outcomes ← runAll leases
      return (lease.operationId, outcome) :: outcomes

/-- `run_once`. -/
def runOnce : Action (List (Str × Str)) := do
  let leases ← call (Command.claimDue w.runner.workerId w.runner.leaseTime 1)
  w.runAll rt leases

/-- Claim the existing recovery item for an operator. -/
def claimItem (operation : OperationSnapshot) : Action RecoveryLease :=
  call (Command.claimOperation operation.operationId w.runner.workerId w.runner.leaseTime
    operation.version operation.lastEventChecksum)

/-- Record the request of an operator, then run the handler. -/
def runRequested (r : ChangeRecovery.Runner.ObserveRequest) (operation : OperationSnapshot)
    (lease : RecoveryLease) : Action (List (Str × Str)) := do
  let (_, item) ← Call.commit lease (ChangeRecovery.Runner.observationRequested r operation)
  let outcome ← w.runClaimed rt ⟨item, lease.token⟩
  return [(r.operationId, outcome)]

/-- `OperationRecoveryCoordinator.observe` on an item that exists. -/
def observe (r : ChangeRecovery.Runner.ObserveRequest) : Action (List (Str × Str)) := do
  match ← Call.getOperation r.operationId with
  | none => throw .other
  | some operation =>
      if r.resumed = true then
        let lease ← w.claimItem operation
        let outcome ← w.runClaimed rt lease
        return [(r.operationId, outcome)]
      else if operation.version = r.version ∧ operation.lastEventChecksum = r.checksum then
        let lease ← w.claimItem operation
        w.runRequested rt r operation lease
      else throw .other

end Worker

end Gjallar.GuidedWorkflow

import Gjallar.GuidedCommits

/-!
# The guided unlock workflow

`GuidedQmUnlockUseCase` up to the verification: planning, the handoff of the instruction to the
operator, its expiry, the operator's attestation and the verification that ends the operation.
-/
namespace Gjallar.GuidedWorkflow

open Gjallar.Text Gjallar.Data Gjallar.Operation Gjallar.OperationStore Gjallar.OperationLedger
  Gjallar.TargetLocks Gjallar.RecoveryStore Gjallar.RecoveryBinding Gjallar.Processes
  Gjallar.Processes.Fallible Gjallar.ChangeServices Gjallar.GuidedQm

/-! ### The use case -/

namespace Call

def getOperation (operationId : Str) : Action (Option OperationSnapshot) :=
  call (Command.getOperation operationId)

def listEvents (operationId : Str) : Action (List OperationEventRecord) :=
  call (Command.listEvents operationId)

def currentLock (targetType targetId : Str) : Action (Option TargetLockHandle) :=
  call (Command.currentLock targetType targetId)

def acquire (targetType targetId operationId : Str) : Action TargetLockHandle :=
  call (Command.acquire targetType targetId operationId)

def commit (lease : RecoveryLease) (o : Observation) :
    Action (OperationSnapshot × RecoveryItem) := call (Command.commit lease o)

def clock : Action Instant := call Command.clock

end Call

/-- What a caller is told about the instruction. -/
structure InstructionState where
  active : Bool
  reason : Str
  expiresAt : Option Instant
  deriving DecidableEq

structure Result where
  operation : OperationSnapshot
  events : List OperationEventRecord
  instruction : InstructionState
  replay : Bool
  lockReleased : Option Bool

/-- Is the instruction unexpired? -/
def isUnexpired (operation : OperationSnapshot) (now : Instant) : Bool :=
  operation.expiresAt.any (now < ·)

/-- The exceptions of `_commit_recovery`. -/
def commitFailure : Failure → Failure
  | .store (.recoveryOperationConflict _) => stateConflict
  | _ => recoveryError

/-- The exceptions of `_prepare_or_claim_recovery`. -/
def claimFailure : Failure → Failure
  | .store (.recoveryLeaseBusy _) => guidedError "GUIDED_QM_RECOVERY_BUSY"
  | .store (.recoveryOperationConflict _) => stateConflict
  | _ => recoveryError

/-- The exceptions of `_transition` and `_append_event`. -/
def appendFailure : Failure → Failure
  | .store (.operationStateConflict ..) => stateConflict
  | _ => persistenceError

/-- The exceptions of `create`. -/
def createFailure : Failure → Failure
  | .store (.operationIntentConflict _) => guidedError "GUIDED_QM_IDEMPOTENCY_CONFLICT"
  | _ => persistenceError

namespace UseCase

section

variable (rt : Runtime)

/-- `_get_operation`. -/
def getOperation (operationId : Str) : Action (Option OperationSnapshot) :=
  raising (fun _ => persistenceError) (Call.getOperation operationId)

/-- `_require_guided_unlock`. -/
def requireGuidedUnlock (operationId : Str) : Action OperationSnapshot := do
  match ← getOperation operationId with
  | none => throw (guidedError "GUIDED_QM_OPERATION_NOT_FOUND")
  | some operation =>
      if operation.operationType = .guidedQmVmUnlock ∧
          operation.executionMode = .guidedManual then return operation
      else throw (guidedError "GUIDED_QM_OPERATION_TYPE_MISMATCH")

/-- The evidence of the current lock on the target of an operation. -/
def currentLock (operation : OperationSnapshot) : Action (Option Dict) := do
  let lock ← Call.currentLock operation.targetType operation.targetId
  return lock.map (lockDict rt operation.targetType operation.targetId)

/-- `_transition` and `_append_event`. -/
def append (operationId : Str) (a : Append) : Action OperationSnapshot :=
  raising appendFailure (call (Command.append operationId a))

/-- An exception of the observing client. -/
def reading {α : Type} (p : Action α) : Action α := raising (fun _ => observationUnavailable) p

/-- `_observe`. -/
def observe (nodeId : Str) (vmid : ℤ) : Action Observed := do
  let complete ← reading (call (Command.taskAudit nodeId))
  if complete = true then
    let before ← reading (call (Command.activeTasks nodeId vmid))
    let config ← reading (call (Command.vmConfig nodeId vmid))
    let after ← reading (call (Command.activeTasks nodeId vmid))
    let now ← Call.clock
    return ⟨configLock rt.repr config, compactTasks rt (before ++ after), rt.isoformat now⟩
  else throw (guidedError "GUIDED_QM_TASK_AUDIT_INCOMPLETE")

/-- Observe the stored target of an operation. -/
def observeTarget (operation : OperationSnapshot) : Action Observed :=
  match intOrZero (targetOf operation) "vmid" with
  | none => throw .other
  | some vmid => observe rt (rawText rt.repr (targetOf operation) "node_id") vmid

/-- `_instruction_state`, from a reading of the clock and the current lock. -/
def instructionState (operation : OperationSnapshot) (now : Instant) (current : Option Dict) :
    InstructionState :=
  let unexpired := isUnexpired operation now
  let active := operation.status = .awaitingOperator && unexpired &&
    isActiveInstructionLock rt operation current
  { active := active
    reason :=
      if active then "instruction_active"
      else match operation.status with
        | .planned => "instruction_handoff_incomplete"
        | .awaitingOperator =>
            if operation.expiresAt.isNone then "instruction_expiry_invalid"
            else if unexpired = false then "instruction_ttl_elapsed"
            else if current.isNone then "target_lock_lost"
            else "target_lock_mismatch"
        | .awaitingVerification | .verifying | .succeeded => "instruction_already_attested"
        | .needsReconciliation => "instruction_requires_reconciliation"
        | status => ("instruction_" : Str) ++ statusName status
    expiresAt := operation.expiresAt }

/-- `_instruction_state`. -/
def readInstructionState (operation : OperationSnapshot) : Action InstructionState := do
  let now ← Call.clock
  if operation.status = .awaitingOperator ∧ isUnexpired operation now = true then
    let current ← currentLock rt operation
    return instructionState rt operation now current
  else return instructionState rt operation now none

/-- `_result`. -/
def result (operation : OperationSnapshot) (replay : Bool) (lockReleased : Option Bool) :
    Action Result := do
  let events ← raising (fun _ => persistenceError) (Call.listEvents operation.operationId)
  let instruction ← readInstructionState rt operation
  return ⟨operation, events, instruction, replay, lockReleased⟩

/-! ### Recovery coordination -/

/-- Raise unless a recovery item is bound to the operation. -/
def mismatchUnless (valid : Bool) : Action Unit :=
  if valid = true then return () else throw bindingMismatch

/-- `_validate_recovery_lease`. -/
def validateRecoveryLease (operation : OperationSnapshot) (lease : RecoveryLease) :
    Action Unit := do
  let named := leaseNamesOperation rt operation lease.item
  if (lockIdOf rt (recordedLock operation)).isEmpty = true then mismatchUnless named
  else
    let current ← currentLock rt operation
    mismatchUnless (named && leaseNamesLock rt operation lease.item &&
      lockInCluster rt operation current)

/-- An observation that expects the snapshot it was decided on. -/
def fenced (operation : OperationSnapshot) (o : Observation) : Observation :=
  { o with
    expectedOperationVersion := some operation.version
    expectedOperationChecksum := some operation.lastEventChecksum }

/-- `_commit_recovery`. -/
def commitRecovery (operation : OperationSnapshot) (lease : RecoveryLease) (o : Observation) :
    Action (OperationSnapshot × RecoveryItem) := do
  validateRecoveryLease rt operation lease
  raising commitFailure (Call.commit lease (fenced operation o))

/-- Commit and return the new state of the operation. -/
def commitAndReturn (operation : OperationSnapshot) (lease : RecoveryLease) (o : Observation)
    (lockReleased : Option Bool) : Action Result := do
  let (operation, _) ← commitRecovery rt operation lease o
  result rt operation false lockReleased

/-- Commit and raise. -/
def commitAndRaise {α : Type} (operation : OperationSnapshot) (lease : RecoveryLease)
    (o : Observation) (e : Failure) : Action α := do
  let _ ← commitRecovery rt operation lease o
  throw e

/-- The lease owner of a request. -/
def foregroundOwner (operationId : Str) : Str := ("guided-foreground:" : Str) ++ operationId

variable (u : UseCase)

/-- The store calls of `_prepare_or_claim_recovery`. -/
def claimItem (operation : OperationSnapshot) (details : Dict) : Action RecoveryLease := do
  let id := operation.operationId
  match ← call (Command.getRecovery id) with
  | none =>
      if hid : (strip id).isEmpty = false then
        call (Command.prepareAndClaim ⟨id, recoveryKind, details, hid, by decide⟩
          (foregroundOwner id) u.leaseTime operation.version operation.lastEventChecksum)
      else throw .other
  | some _ =>
      call (Command.claimOperation id (foregroundOwner id) u.leaseTime operation.version
        operation.lastEventChecksum)

/-- `_prepare_or_claim_recovery`. -/
def prepareOrClaimRecovery (operation : OperationSnapshot) (evidence : Dict) :
    Action RecoveryLease :=
  match recoveryDetails rt operation evidence with
  | none => throw .other
  | some details => raising claimFailure (u.claimItem operation details)

/-- `_claim_recovery`. -/
def claimRecovery (operation : OperationSnapshot) : Action RecoveryLease := do
  let current ← currentLock rt operation
  u.prepareOrClaimRecovery rt operation (current.getD [])

/-- `_retry_status` is `paused`. -/
def isExhausted (lease : RecoveryLease) : Bool := max u.maxAttempts 1 ≤ lease.item.attemptCount

/-- `expires_at` in a payload. -/
def expiryValue (operation : OperationSnapshot) : Value :=
  operation.expiresAt.elim .null fun t => .str (rt.isoformat t)

/-! ### Expiry -/

/-- Why an observation at the expiry asks for reconciliation. -/
def expiryReason (operation : OperationSnapshot) (observed : Observed) : Option Str :=
  if observed.activeTasks ≠ [] then some "active_tasks_at_instruction_expiry"
  else if observed.configLock = [] then some "possible_external_effect_at_instruction_expiry"
  else if observed.configLock ≠ originalConfigLock rt operation then
    some "config_lock_changed_at_instruction_expiry"
  else none

/-- `_recover_waiting_expiry` once the target is observed. -/
def concludeExpiry (operation : OperationSnapshot) (lease : RecoveryLease)
    (actor : OperationActor) (observed : Observed) : Action Result := do
  match expiryReason rt operation observed with
  | some reason =>
      commitAndReturn rt operation lease (Commit.expiryReconciliation actor
        "expiry_state_requires_reconciliation" "GUIDED_QM_EXPIRY_RECONCILIATION_REQUIRED" reason
        [("expires_at", expiryValue rt operation), ("observed", .dict observed.toDict)]
        [("expiry_observation", .dict observed.toDict)]) none
  | none =>
      let current ← currentLock rt operation
      if isExactOwnedLock rt operation current false = true then
        commitAndReturn rt operation lease
          (Commit.instructionExpired actor (expiryValue rt operation) observed) (some true)
      else
        commitAndReturn rt operation lease (Commit.expiryReconciliation actor
          "expiry_target_lock_changed_after_observation" "GUIDED_QM_TARGET_LOCK_LOST"
          "target_lock_changed_at_instruction_expiry"
          [("observed_target_lock", .dict (current.getD []))] []) none

/-- `_recover_waiting_expiry`. -/
def recoverWaitingExpiry (operation : OperationSnapshot) (lease : RecoveryLease)
    (actor : OperationActor) : Action Result := do
  if executionAttested operation = true then
    commitAndReturn rt operation lease (Commit.expiryReconciliation actor
      "expiry_attestation_present" "GUIDED_QM_ATTESTATION_PRESENT_AT_EXPIRY"
      "attestation_present_at_instruction_expiry"
      [("expires_at", expiryValue rt operation)] []) none
  else
    match ← attempt (observeTarget rt operation) with
    | .ok observed => concludeExpiry rt operation lease actor observed
    | .error (.service code) =>
        commitAndReturn rt operation lease (Commit.expiryObservationUnavailable actor
          (expiryValue rt operation) code (u.isExhausted lease)) none
    | .error e => throw e

/-- `_expire_waiting_operation`. -/
def expireWaitingOperation (operation : OperationSnapshot) : Action OperationSnapshot := do
  if operation.status = .awaitingOperator ∧ operation.expiresAt.isSome = true then
    let now ← Call.clock
    if isUnexpired operation now = true then return operation
    else
      let current ← currentLock rt operation
      if isExactOwnedLock rt operation current false = true then
        let lease ← u.claimRecovery rt operation
        let _ ← u.recoverWaitingExpiry rt operation lease systemRecoveryActor
        requireGuidedUnlock operation.operationId
      else
        append operation.operationId
          { nextStatus := some .needsReconciliation, eventType := "expiry_target_lock_mismatch",
            stage := "operator_handoff",
            payload := [("expires_at", expiryValue rt operation),
              ("observed_target_lock", .dict (current.getD []))],
            detailsPatch :=
              [("reconciliation_reason", .str "target_lock_missing_at_instruction_expiry")],
            expectedStatuses := some [.awaitingOperator] }
  else return operation

/-! ### Planning -/

/-- `_seconds_until_expiry`. -/
def timeUntilExpiry (operation : OperationSnapshot) : Action Instant :=
  match operation.expiresAt with
  | none => return u.ttl
  | some expiresAt => do
      let now ← Call.clock
      return max (expiresAt - now) (Instant.seconds 1)

/-- `_instruction_bundle`. -/
def bundleOf (operation : OperationSnapshot) : Action Dict :=
  match operation.expiresAt, intOrZero (targetOf operation) "vmid" with
  | none, _ => throw bindingMismatch
  | some _, none => throw .other
  | some expiresAt, some vmid =>
      let nodeId := rawText rt.repr (targetOf operation) "node_id"
      let lock := originalConfigLock rt operation
      if planDigest rt operation.operationId nodeId vmid expiresAt lock = operation.planDigest then
        return instructionBundle rt operation.operationId nodeId vmid expiresAt lock
      else throw bindingMismatch

/-- The commit that issues the instruction. -/
def issueInstruction (operation : OperationSnapshot) (lease : RecoveryLease) (evidence : Dict)
    (actor : OperationActor) (replay : Bool) (observed : Observed) : Action Result := do
  let delay ← u.timeUntilExpiry operation
  let bundle ← bundleOf rt operation
  let (operation, _) ← commitRecovery rt operation lease
    (Commit.instructionIssued actor operation (expiryValue rt operation) observed bundle evidence
      delay)
  result rt operation replay none

/-- The rest of `_finalize_planned_with_lease` after the second look at the lock. -/
def handOff (operation : OperationSnapshot) (lease : RecoveryLease) (evidence : Dict)
    (actor : OperationActor) (replay : Bool) (observed : Observed) : Action Result := do
  if observed.configLock = originalConfigLock rt operation ∧ observed.activeTasks = [] then
    if operation.expiresAt.isSome = true then
      let now ← Call.clock
      if isUnexpired operation now = true then
        u.issueInstruction rt operation lease evidence actor replay observed
      else
        let (operation, _) ← commitRecovery rt operation lease (Commit.closeUnissuedPlan actor
          .expired "unissued_instruction_expired"
          [("expires_at", expiryValue rt operation), ("observed", .dict observed.toDict)]
          [("ready", .bool false), ("reason", .str "expired_before_handoff")])
        result rt operation replay (some true)
    else u.issueInstruction rt operation lease evidence actor replay observed
  else
    commitAndRaise rt operation lease (Commit.closeUnissuedPlan actor .blocked
      "plan_state_changed_before_handoff"
      [("observed", .dict observed.toDict),
        ("expected_config_lock", .str (originalConfigLock rt operation))]
      [("ready", .bool false), ("reason", .str "authoritative_state_changed_before_handoff"),
        ("observed", .dict observed.toDict)])
      (guidedError "GUIDED_QM_PLAN_STATE_CHANGED")

/-- Does the prepared recovery item name the lock of the evidence? -/
def isPrepared (lease : RecoveryLease) (evidence : Dict) : Bool :=
  let lockId := rawText rt.repr lease.item.details "target_lock_id"
  let cluster := Dict.text rt.repr lease.item.details "cluster_id"
  !lockId.isEmpty && lockId = lockIdOf rt evidence && !cluster.isEmpty &&
    cluster = lockClusterId rt evidence

/-- `_finalize_planned_with_lease`. -/
def finalizePlannedWithLease (operation : OperationSnapshot) (lease : RecoveryLease)
    (evidence : Dict) (actor : OperationActor) (replay : Bool) : Action Result := do
  if isPrepared rt lease evidence = true then
    match ← attempt (observeTarget rt operation) with
    | .error (.service code) =>
        commitAndRaise rt operation lease (Commit.closeUnissuedPlan actor .blocked
          "plan_final_observation_unavailable" [("code", .str code)]
          [("ready", .bool false), ("reason", .str "observation_unavailable")]) (.service code)
    | .error e => throw e
    | .ok observed =>
        let current ← currentLock rt operation
        if isExactOwnedLock rt operation current true = true ∧
            lockIdOf rt (current.getD []) = rawText rt.repr lease.item.details "target_lock_id" then
          u.handOff rt operation lease evidence actor replay observed
        else
          commitAndRaise rt operation lease
            (Commit.lockChangedBeforeHandoff actor (current.getD [])) targetLockLost
  else throw bindingMismatch

/-- Is a prepared or recorded text the given one, or missing? -/
def isUnsetOr (found expected : Str) : Bool := found.isEmpty || found = expected

/-- `_bind_planned_target_lock`. -/
def bindPlannedTargetLock (operation : OperationSnapshot) (lease : RecoveryLease)
    (evidence : Dict) (actor : OperationActor) : Action (OperationSnapshot × RecoveryLease) := do
  let lockId := lockIdOf rt evidence
  let cluster := lockClusterId rt evidence
  let preparedId := Dict.text rt.repr lease.item.details "target_lock_id"
  let preparedCluster := Dict.text rt.repr lease.item.details "cluster_id"
  let recordedId := lockIdOf rt (recordedLock operation)
  let recordedCluster := lockClusterId rt (recordedLock operation)
  if isExactOwnedLock rt operation (some evidence) true = true ∧
      isUnsetOr preparedId lockId = true ∧ isUnsetOr preparedCluster cluster = true ∧
      isUnsetOr recordedId lockId = true ∧ isUnsetOr recordedCluster cluster = true then
    if preparedId = lockId ∧ preparedCluster = cluster ∧ recordedId = lockId ∧
        recordedCluster = cluster then return (operation, lease)
    else
      let (operation, item) ← commitRecovery rt operation lease
        (Commit.lockBound actor evidence lockId cluster)
      return (operation, ⟨item, lease.token⟩)
  else throw bindingMismatch

/-- Bind the lock, then issue the instruction. -/
def bindAndFinalize (operation : OperationSnapshot) (lease : RecoveryLease) (evidence : Dict)
    (actor : OperationActor) (replay : Bool) : Action Result := do
  let (operation, lease) ← bindPlannedTargetLock rt operation lease evidence actor
  u.finalizePlannedWithLease rt operation lease evidence actor replay

/-- Close a plan whose target another operation has locked. -/
def closeBusy (operation : OperationSnapshot) (lease : RecoveryLease) (evidence : Dict)
    (actor : OperationActor) : Action Result :=
  commitAndRaise rt operation lease (Commit.closeUnissuedWithoutOwnedLock actor
    "plan_target_lock_busy" "target_lock_busy" evidence) targetLockBusy

/-- Take the target lock of a plan that has none. -/
def acquireAndFinalize (operation : OperationSnapshot) (lease : RecoveryLease)
    (actor : OperationActor) (replay : Bool) : Action Result := do
  let answer ← attempt (Call.acquire operation.targetType operation.targetId operation.operationId)
  match answer with
  | .ok lock =>
      u.bindAndFinalize rt operation lease
        (lockDict rt operation.targetType operation.targetId lock) actor replay
  | .error (.store (.durableTargetLockBusy _ existing)) =>
      let current ← currentLock rt operation
      let evidence := current.getD (busyDict operation.targetType operation.targetId
        operation.operationId existing)
      if isExactOwnedLock rt operation (some evidence) true = true then
        u.bindAndFinalize rt operation lease evidence actor replay
      else closeBusy rt operation lease evidence actor
  | .error e => throw e

/-- `_finalize_planned_operation`. -/
def finalizePlannedOperation (operation : OperationSnapshot) (actor : OperationActor)
    (replay : Bool) : Action Result := do
  if operation.status = .planned then
    let lease ← u.prepareOrClaimRecovery rt operation []
    match ← currentLock rt operation with
    | none => u.acquireAndFinalize rt operation lease actor replay
    | some evidence =>
        if isExactOwnedLock rt operation (some evidence) true = true then
          u.bindAndFinalize rt operation lease evidence actor replay
        else if rawText rt.repr evidence "owner_id" = operation.operationId then
          throw bindingMismatch
        else closeBusy rt operation lease evidence actor
  else result rt operation replay none

/-- `_operator_actor`. -/
def operatorActor (actor : OperationActor) : Action OperationActor :=
  if actor.role = ("operator" : Str) ∨ actor.role = ("admin" : Str) then return actor
  else throw (guidedError "GUIDED_QM_OPERATOR_REQUIRED")

/-- `_release_releasable_target_lock`. -/
def releaseReleasableTargetLock (targetId : Str) : Action Unit := do
  match ← Call.currentLock "proxmox_vm" targetId with
  | none => return ()
  | some lock =>
      if lock.ownerId = [] then return ()
      else
        match ← getOperation lock.ownerId with
        | none => return ()
        | some owner =>
            let _ ← u.expireWaitingOperation rt owner
            return ()

/-- The checks of the first observation. -/
def checkPlannable (observed : Observed) : Except Failure Unit := do
  raiseIf (observed.activeTasks ≠ []) (guidedError "GUIDED_QM_UNLOCK_ACTIVE_TASKS_BLOCKED")
  raiseIf (observed.configLock = []) (guidedError "GUIDED_QM_UNLOCK_NOT_LOCKED")
  raiseIf (observed.configLock ∉ supportedLocks)
    (guidedError "GUIDED_QM_UNLOCK_LOCK_TYPE_UNSUPPORTED")

/-- `plan_unlock` for an operation that exists. -/
def planExisting (c : PlanCommand) (actor : OperationActor) (existing : OperationSnapshot) :
    Action Result := do
  if hasIdentity rt existing c.intent c.targetId = true then
    if existing.status = .planned then u.finalizePlannedOperation rt existing actor true
    else
      let existing ← u.expireWaitingOperation rt existing
      if existing.status = .awaitingOperator then
        let current ← currentLock rt existing
        if isExactOwnedLock rt existing current false = true then result rt existing true none
        else throw targetLockLost
      else result rt existing true none
  else throw (guidedError "GUIDED_QM_IDEMPOTENCY_CONFLICT")

/-- `plan_unlock` for a new operation. -/
def planNew (c : PlanCommand) (actor : OperationActor) : Action Result := do
  u.releaseReleasableTargetLock rt c.targetId
  match ← Call.currentLock "proxmox_vm" c.targetId with
  | some _ => throw targetLockBusy
  | none =>
      let observed ← observe rt c.nodeId c.vmid
      match checkPlannable observed with
      | .error e => throw e
      | .ok _ =>
          let now ← Call.clock
          let expiresAt := now + max u.ttl (Instant.seconds 1)
          let (operation, created) ← raising createFailure
            (call (Command.create (c.spec rt observed expiresAt) (c.createdPayload observed)))
          if created = true ∨ hasIdentity rt operation c.intent c.targetId = true then
            u.finalizePlannedOperation rt operation actor (!created)
          else throw (guidedError "GUIDED_QM_IDEMPOTENCY_CONFLICT")

/-- `plan_unlock`. -/
def planUnlock (c : PlanCommand) : Action Result := do
  let actor ← operatorActor c.actor
  match ← getOperation (c.operationId rt) with
  | some existing => u.planExisting rt c actor existing
  | none => u.planNew rt c actor

/-! ### Attestation -/

/-- `_assert_plan_digest`. -/
def assertPlanDigest (operation : OperationSnapshot) (digest : Str) : Action Unit :=
  if operation.planDigest = digest then return ()
  else throw (guidedError "GUIDED_QM_PLAN_DIGEST_MISMATCH")

/-- `_assert_target_lock_owned` for the active lock of an instruction, with the transition on its
loss. -/
def assertActiveLock (operation : OperationSnapshot) : Action Unit := do
  let current ← currentLock rt operation
  if isActiveInstructionLock rt operation current = true then return ()
  else if operation.status = .awaitingOperator ∨ operation.status = .awaitingVerification ∨
      operation.status = .verifying then
    let _ ← append operation.operationId
      { nextStatus := some .needsReconciliation, eventType := "target_lock_lost",
        stage := operation.currentStage,
        payload := [("observed_target_lock", .dict (current.getD []))],
        expectedStatuses := some [operation.status] }
    throw targetLockLost
  else throw targetLockLost

/-- The attestation that `attest` stores. -/
def attestation (operation : OperationSnapshot) (actor : OperationActor) (now : Instant)
    (late : Bool) : Dict :=
  let base : Dict :=
    [("actor", .dict [("user_id", .str actor.userId), ("username", .str actor.username),
        ("role", .str actor.role)]),
      ("plan_digest", .str operation.planDigest), ("command_executed", .bool true),
      ("attested_at", .str (rt.isoformat now))]
  if late then List.append base [("late", .bool true)] else base

/-- The event of an attestation. -/
def attested (operation : OperationSnapshot) (actor : OperationActor) (now : Instant)
    (next : Option OperationStatus) (eventType : Str) (expiredAt : Dict)
    (reason : Option Str) : Append :=
  let late := next ≠ some .awaitingVerification
  { nextStatus := next, eventType := eventType, stage := "operator_attestation",
    payload := List.append [("plan_digest", .str operation.planDigest),
      ("command_executed", .bool true), ("attested_at", .str (rt.isoformat now))] expiredAt,
    detailsPatch := ("operator_attestation", .dict (attestation rt operation actor now late)) ::
      (reason.map fun r => (("reconciliation_reason" : Str), Value.str r)).toList,
    actor := some actor, expectedStatuses := some [operation.status] }

/-- Store an attestation and return the operation. -/
def storeAttestation (operation : OperationSnapshot) (actor : OperationActor)
    (next : Option OperationStatus) (eventType : Str) (expiredAt : Dict)
    (reason : Option Str) : Action Result := do
  let now ← Call.clock
  let operation ← append operation.operationId
    (attested rt operation actor now next eventType expiredAt reason)
  result rt operation false none

/-- `attest` while the instruction waits for the operator. -/
def attestWaiting (operation : OperationSnapshot) (actor : OperationActor) : Action Result := do
  let current ← currentLock rt operation
  if isExactOwnedLock rt operation current false = true ∧
      isActiveInstructionLock rt operation current = false then
    storeAttestation rt operation actor (some .needsReconciliation)
      "late_operator_execution_attested_after_lock_became_inactive" []
      (some "execution_attested_after_target_lock_became_inactive")
  else
    assertActiveLock rt operation
    let now ← Call.clock
    if operation.expiresAt.isSome = true ∧ isUnexpired operation now = false then
      let operation ← append operation.operationId
        (attested rt operation actor now (some .needsReconciliation)
          "late_operator_execution_attested" [("expired_at", expiryValue rt operation)]
          (some "execution_attested_after_instruction_expiry"))
      result rt operation false none
    else
      let operation ← append operation.operationId
        (attested rt operation actor now (some .awaitingVerification)
          "operator_execution_attested" [] none)
      result rt operation false none

/-- `attest`. -/
def attest (c : DigestCommand) : Action Result := do
  let actor ← operatorActor c.actor
  let operation ← requireGuidedUnlock c.operationId
  assertPlanDigest operation c.planDigest
  match operation.status with
  | .awaitingVerification | .verifying | .succeeded => result rt operation true none
  | .needsReconciliation =>
      if executionAttested operation = true then result rt operation true none
      else
        storeAttestation rt operation actor none
          "operator_execution_attested_for_reconciliation" [] none
  | .expired =>
      storeAttestation rt operation actor (some .needsReconciliation)
        "late_operator_execution_attested_after_expiry"
        [("expired_at", expiryValue rt operation)]
        (some "execution_attested_after_operation_expired")
  | .awaitingOperator => attestWaiting rt operation actor
  | _ => throw stateConflict

/-! ### Verification -/

/-- `_recover_verification` once the target is observed. -/
def concludeVerification (operation : OperationSnapshot) (lease : RecoveryLease)
    (actor : OperationActor) (observed : Observed) : Action Result := do
  if observed.configLock = [] ∧ observed.activeTasks = [] then
    let current ← currentLock rt operation
    if isExactOwnedLock rt operation current false = true then
      let now ← Call.clock
      commitAndReturn rt operation lease
        (Commit.verificationSucceeded actor observed (rt.isoformat now)) (some true)
    else
      commitAndReturn rt operation lease
        (Commit.verificationLockChanged actor (current.getD [])) (some false)
  else commitAndReturn rt operation lease (Commit.verificationMismatch actor observed) none

/-- `_recover_verification` of an operation that is being verified. -/
def verifyTarget (operation : OperationSnapshot) (lease : RecoveryLease)
    (actor : OperationActor) (raiseOnUnavailable : Bool) : Action Result := do
  match ← attempt (observeTarget rt operation) with
  | .ok observed => concludeVerification rt operation lease actor observed
  | .error (.service code) =>
      let o := Commit.verificationUnavailable actor code (u.isExhausted lease)
      if raiseOnUnavailable = true then
        commitAndRaise rt operation lease o (guidedError "GUIDED_QM_VERIFICATION_UNAVAILABLE")
      else commitAndReturn rt operation lease o none
  | .error e => throw e

/-- `_recover_verification`. -/
def recoverVerification (operation : OperationSnapshot) (lease : RecoveryLease)
    (actor : OperationActor) (raiseOnUnavailable : Bool) : Action Result := do
  if operation.status = .verifying then
    u.verifyTarget rt operation lease actor raiseOnUnavailable
  else
    let (operation, item) ← commitRecovery rt operation lease
      (Commit.verificationStarted actor operation)
    u.verifyTarget rt operation ⟨item, lease.token⟩ actor raiseOnUnavailable

/-- `verify`. -/
def verify (c : DigestCommand) : Action Result := do
  let actor ← operatorActor c.actor
  let operation ← requireGuidedUnlock c.operationId
  assertPlanDigest operation c.planDigest
  if operation.status = .succeeded then result rt operation true none
  else if executionAttested operation = false then
    throw (guidedError "GUIDED_QM_ATTESTATION_REQUIRED")
  else if operation.status = .awaitingVerification ∨ operation.status = .verifying ∨
      operation.status = .needsReconciliation then
    assertActiveLock rt operation
    let lease ← u.claimRecovery rt operation
    u.recoverVerification rt operation lease actor true
  else throw stateConflict

end

end UseCase

end Gjallar.GuidedWorkflow

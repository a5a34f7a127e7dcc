import Gjallar.Execution
import Gjallar.Fallible
import Gjallar.ObserveLedger
import Gjallar.OperationLedger

/-!
# Observation on request

`OperationRecoveryCoordinator.observe`: an operator asks, under an idempotency key and for an exact
operation version and checksum, to run the recovery observation of one operation. The request is
checked against the ledger of earlier requests, the recovery item is claimed or, for an operation
that provably was never dispatched, prepared, the request is recorded, and the runner observes.
-/
namespace Gjallar.Observer

open Gjallar.Text Gjallar.Data Gjallar.Operation Gjallar.OperationStore Gjallar.OperationLedger
  Gjallar.TargetLocks Gjallar.RecoveryStore Gjallar.RecoveryBinding Gjallar.Processes
  Gjallar.Processes.Fallible Gjallar.GuidedQm Gjallar.ObserveLedger

/-! ### Error codes of the recovery -/

/-- Upper case. Besides the ASCII letters only these characters have an upper case with an ASCII
letter in it; the other characters are left, since no caller tells them apart. -/
def upperChar (c : Char) : Str :=
  if 'a' ≤ c ∧ c ≤ 'z' then [Char.ofNat (c.toNat - 32)]
  else
    match c.toNat with
    | 0xdf => "SS"
    | 0x131 => "I"
    | 0x149 => [Char.ofNat 0x2bc, 'N']
    | 0x17f => "S"
    | 0x1f0 => ['J', Char.ofNat 0x30c]
    | 0x1e96 => ['H', Char.ofNat 0x331]
    | 0x1e97 => ['T', Char.ofNat 0x308]
    | 0x1e98 => ['W', Char.ofNat 0x30a]
    | 0x1e99 => ['Y', Char.ofNat 0x30a]
    | 0x1e9a => ['A', Char.ofNat 0x2be]
    | 0xfb00 => "FF"
    | 0xfb01 => "FI"
    | 0xfb02 => "FL"
    | 0xfb03 => "FFI"
    | 0xfb04 => "FFL"
    | 0xfb05 => "ST"
    | 0xfb06 => "ST"
    | _ => [c]

def upper (s : Str) : Str := s.flatMap upperChar

inductive Semantics where
  | ineligible | unavailable
  deriving DecidableEq

def ineligibleCodes : List Str :=
  ["OPERATION_RECOVERY_BINDING_MISMATCH", "OPERATION_RECOVERY_HANDLER_UNSUPPORTED",
    "PROXMOX_CREATE_RECOVERY_ARTIFACT_MISSING", "PROXMOX_CREATE_RECOVERY_ARTIFACT_BINDING_INVALID",
    "PROXMOX_CREATE_RECOVERY_ARTIFACT_PROJECTION_INVALID",
    "PROXMOX_CREATE_RECOVERY_BINDING_MISMATCH",
    "PROXMOX_CREATE_RECOVERY_OPERATION_STATE_INVALID",
    "PROXMOX_CREATE_RECOVERY_MANUAL_DECISION_REQUIRED", "PROXMOX_CREATE_RECOVERY_TARGET_INVALID",
    "VM_START_RECOVERY_TASK_REFERENCE_MISSING", "VM_SHUTDOWN_RECOVERY_TASK_REFERENCE_MISSING",
    "GUIDED_QM_ATTESTATION_REQUIRED", "GUIDED_QM_EXPIRY_RECONCILIATION_REQUIRED",
    "GUIDED_QM_LATE_ATTESTATION_MANUAL_VERIFICATION_REQUIRED", "GUIDED_QM_PROVISIONAL_LOCK_MISSING",
    "GUIDED_QM_RECOVERY_BINDING_MISMATCH", "GUIDED_QM_RECOVERY_STATE_INELIGIBLE",
    "GUIDED_QM_TARGET_LOCK_LOST"]

def unavailableMarkers : List Str :=
  ["OBSERVATION_UNAVAILABLE", "OBSERVATION_FAILED", "PROJECTION_FAILED", "PROJECTION_UNAVAILABLE",
    "FILE_GUARD_CLEANUP_FAILED", "PERSISTENCE_UNAVAILABLE", "RECOVERY_UNAVAILABLE",
    "RETRY_EXHAUSTED", "VERIFICATION_UNAVAILABLE"]

/-- `recovery_error_semantics`. -/
def recoveryErrorSemantics (errorCode : Str) : Option Semantics :=
  let normalized := upper (strip errorCode)
  if normalized = [] then none
  else if normalized ∈ ineligibleCodes then some .ineligible
  else if unavailableMarkers.any (contains normalized) then some .unavailable
  else none

/-! ### Proofs that nothing was dispatched -/

/-- `PRE_DISPATCH_TERMINAL_NO_EFFECT_REASONS`. -/
def noEffectReasons (operationType : OperationType) (status : OperationStatus) : List Str :=
  if operationType = .vmStart ∨ operationType = .vmShutdown then
    match status with
    | .blocked => ["precheck_blocked"]
    | .failed => ["mutation_client_unavailable", "recovery_registration_failed"]
    | _ => []
  else []

/-- The part of `is_pre_dispatch_terminal_no_effect` about the operation. -/
def claimsNoEffect (rt : Runtime) (operation : OperationSnapshot) : Bool :=
  let details := operation.details
  (noEffectReasons operation.operationType operation.status).contains
      (Dict.text rt.repr details "pre_dispatch_terminal_reason") &&
    Dict.get details "pre_dispatch_terminal_no_effect" = some (.bool true) &&
    Dict.get details "mutation_dispatched" = some (.bool false) &&
    Dict.get details "recovery_contract" = some (.str recoveryContract) &&
    Dict.text rt.repr details "target_lock_id" ≠ [] && Dict.text rt.repr details "cluster_id" ≠ []

/-- The part of `is_pre_dispatch_terminal_no_effect` about the latest event. -/
def eventClaimsNoEffect (rt : Runtime) (operation : OperationSnapshot)
    (event : OperationEventRecord) : Bool :=
  let reason := Dict.text rt.repr operation.details "pre_dispatch_terminal_reason"
  event.eventType = reason && event.toStatus = operation.status && event.checksum ≠ [] &&
    event.checksum = operation.lastEventChecksum &&
    Dict.get event.payload "pre_dispatch_terminal_no_effect" = some (.bool true) &&
    Dict.get event.payload "mutation_dispatched" = some (.bool false) &&
    rawText rt.repr event.payload "pre_dispatch_terminal_reason" = reason &&
    rawText rt.repr event.payload "target_lock_id" =
      rawText rt.repr operation.details "target_lock_id" &&
    rawText rt.repr event.payload "cluster_id" = rawText rt.repr operation.details "cluster_id"

/-- `is_pre_dispatch_terminal_no_effect` of the latest event. -/
def isPreDispatchTerminalNoEffect (rt : Runtime) (operation : OperationSnapshot)
    (events : List OperationEventRecord) : Bool :=
  events.getLast?.any fun event => claimsNoEffect rt operation &&
    eventClaimsNoEffect rt operation event

/-- `_guided_unissued_plan_proven`. -/
def guidedUnissuedPlanProven (rt : Runtime) (operation : OperationSnapshot)
    (events : List OperationEventRecord) : Bool :=
  let exposed := fun payload => Dict.get payload "instruction_exposed"
  operation.operationType = .guidedQmVmUnlock && operation.executionMode = .guidedManual &&
    operation.status = .planned &&
    Dict.get operation.details "recovery_contract" = some (.str recoveryContract) &&
    exposed operation.details = some (.bool false) &&
    Dict.getD operation.details "instruction_bundle" .null = .null &&
    verifyEventChain rt events &&
    events.getLast?.any (·.checksum = operation.lastEventChecksum) &&
    events.head?.any (fun created => created.eventType = ("operation_created" : Str) &&
      created.toStatus = .planned && exposed created.payload = some (.bool false)) &&
    events.all fun event => event.eventType ≠ ("guided_instruction_issued" : Str) &&
      exposed event.payload ≠ some (.bool true)

/-! ### The calls of the coordinator -/

/-- An exception: the coordinator's own error, an error of the stores, or another. -/
inductive Failure where
  | observe (e : ObserveError)
  | store (e : StoreError)
  | other
  deriving DecidableEq

/-- What an operator asks for. -/
structure ObserveRequest where
  operationId : Str
  actor : OperationActor
  expectedVersion : Value
  expectedChecksum : Str
  idempotencyKey : Str

inductive Command where
  /-- The arrival of a request. -/
  | receive (q : ObserveRequest)
  | getOperation (operationId : Str)
  | getRecovery (operationId : Str)
  | listEvents (operationId : Str)
  /-- `lock_reader`. -/
  | readLock (targetType targetId : Str)
  | clock
  | claimOperation (operationId leaseOwner : Str) (leaseTime : Instant) (version : ℕ)
      (checksum : Str)
  | prepareAndClaim (spec : RecoverySpec) (leaseOwner : Str) (leaseTime : Instant) (version : ℕ)
      (checksum : Str)
  | commit (lease : RecoveryLease) (o : Observation)
  /-- `run_claimed`; the answer is the outcome. -/
  | run (lease : RecoveryLease)

abbrev Answered : Command → Type
  | .receive _ => Unit
  | .getOperation _ => Option OperationSnapshot
  | .getRecovery _ => Option RecoveryItem
  | .listEvents _ => List OperationEventRecord
  | .readLock .. => Option Dict
  | .clock => Instant
  | .claimOperation .. => RecoveryLease
  | .prepareAndClaim .. => RecoveryLease
  | .commit .. => OperationSnapshot × RecoveryItem
  | .run _ => Str

abbrev Reply (c : Command) : Type := Except Failure (Answered c)

abbrev Action (α : Type) := Fallible Command Answered Failure α

/-- `ConfigurationLockRepository.current`, as a dictionary. -/
def configurationLock (scopeKey : Str) (locks : LockTable) : Option Dict :=
  (locks.rows.find? fun r =>
    r.scopeType = .proxmoxConfiguration && r.scopeKey = scopeKey && r.isOpen).map fun r =>
      [("operation_lock_id", .str r.operationLockId), ("operation_type", .str r.operationType.name),
        ("cluster_id", .str r.clusterId), ("owner_id", .str r.ownerId),
        ("scope_type", .str r.scopeType.name), ("scope_key", .str r.scopeKey),
        ("status", .str r.status.name), ("vmid", .null),
        ("target_type", Dict.getD r.evidence "target_type" .null),
        ("target_id", Dict.getD r.evidence "target_id" .null),
        ("target", Dict.getD r.evidence "target" (.dict []))]

/-- The lock of a storage or network target: the configuration lock, if it is held for it. -/
def hostTargetLock (targetType targetId : Str) (held : Dict) : Option Dict :=
  if (Dict.getD held "target_type" .null).eqv (.str targetType) = true ∧
      (Dict.getD held "target_id" .null).eqv (.str targetId) = true then
    some [("target_type", .str targetType), ("target_id", .str targetId),
      ("owner_id", Dict.getD held "owner_id" .null),
      ("lock_id", Dict.getD held "operation_lock_id" .null), ("durable", .dict held)]
  else none

/-- `get_target_operation_lock`; `cluster` is the configured cluster. -/
def getTargetOperationLock (rt : Runtime) (cluster targetType targetId : Str) (locks : LockTable) :
    Except Failure (Option Dict) :=
  if targetType = ("proxmox_connection" : Str) then .ok none
  else if targetType = ("proxmox_storage" : Str) ∨ targetType = ("proxmox_network" : Str) then
    match configurationScopeKey rt cluster with
    | .error e => .error (.store e)
    | .ok scopeKey =>
        .ok ((configurationLock scopeKey locks).bind (hostTargetLock targetType targetId))
  else
    match Execution.exactLocator targetId with
    | some vmid =>
        if targetType = ("proxmox_vm" : Str) then
          .ok ((targetOperationLock cluster vmid locks).map (lockDict rt targetType targetId))
        else .error (.store (.valueError "Target lock requires an exact Proxmox VM locator"))
    | none => .error (.store (.valueError "Target lock requires an exact Proxmox VM locator"))

/-! ### Refusals -/

/-- Raise an `OperationRecoveryObserveError`. -/
def refuse {α : Type} (e : ObserveError) : Action α := throw (.observe e)

/-- Raise it when a condition holds. -/
def refuseIf (bad : Prop) [Decidable bad] (e : ObserveError) : Action Unit :=
  if bad then refuse e else pure ()

/-- The value of a check. -/
def checked {α : Type} (r : Except ObserveError α) : Action α :=
  match r with
  | .ok a => pure a
  | .error e => refuse e

def operatorRequired : ObserveError :=
  { code := "OPERATION_RECOVERY_OPERATOR_REQUIRED",
    message := "Operator or admin authority is required to request recovery observation",
    statusCode := 403 }

def invalidRequest : ObserveError :=
  { code := "INVALID_OPERATION_RECOVERY_OBSERVE_REQUEST",
    message := "operation id, expected version/checksum, and idempotency key are required",
    statusCode := 422 }

section

variable (operationId : Str)

/-- `{"operation_id": operation_id, **details}`. -/
def named (details : Dict := []) : Dict := ("operation_id", .str operationId) :: details

def operationNotFound : ObserveError :=
  { code := "OPERATION_NOT_FOUND", message := "Operation was not found", statusCode := 404,
    details := named operationId }

def inProgress (item : RecoveryItem) : ObserveError :=
  { code := "OPERATION_RECOVERY_OBSERVATION_IN_PROGRESS",
    message := "The same recovery observation request already has a live lease", statusCode := 409,
    details := named operationId
      [("idempotent_replay", .bool true), ("recovery_status", .str item.status.name)] }

def ineligible (message : Str) (details : Dict) : ObserveError :=
  { code := "OPERATION_RECOVERY_INELIGIBLE", message := message, statusCode := 409,
    details := named operationId details }

def observationUnavailable (message : Str) (details : Dict) : ObserveError :=
  { code := "OPERATION_RECOVERY_OBSERVATION_UNAVAILABLE", message := message, statusCode := 503,
    details := named operationId details }

def unsupported (recoveryKind : Str) : ObserveError :=
  { code := "OPERATION_RECOVERY_UNSUPPORTED",
    message := "This operation has no allowlisted recovery observer", statusCode := 409,
    details := named operationId [("recovery_kind", .str recoveryKind)] }

def notPrepared (status : OperationStatus) : ObserveError :=
  { code := "OPERATION_RECOVERY_NOT_PREPARED",
    message := "This operation cannot be proven side-effect-free without a durable recovery item",
    statusCode := 409,
    details := named operationId
      [("operation_status", .str (eventChecksumPayload.statusName status))] }

def targetMismatch : ObserveError :=
  { code := "OPERATION_RECOVERY_TARGET_MISMATCH",
    message := "The operation target is not a valid Proxmox VM locator", statusCode := 409,
    details := named operationId }

def targetLockMismatch : ObserveError :=
  { code := "OPERATION_RECOVERY_TARGET_LOCK_MISMATCH",
    message := "The exact owned target lock is required for pre-dispatch recovery",
    statusCode := 409, details := named operationId }

def recoveryNotFound : ObserveError :=
  { code := "OPERATION_RECOVERY_NOT_FOUND",
    message := "Recovery coordination was not found for this operation", statusCode := 409,
    details := named operationId }

/-- `_conflict`. -/
def conflict (operation : Option OperationSnapshot) : ObserveError :=
  { code := "OPERATION_RECOVERY_STATE_CONFLICT",
    message := "Operation or recovery state changed concurrently", statusCode := 409,
    details := named operationId
      [("current_version", operation.elim .null fun o => .int o.version),
        ("current_checksum", operation.elim .null fun o => .str o.lastEventChecksum),
        ("current_status",
          operation.elim .null fun o => .str (eventChecksumPayload.statusName o.status))] }

/-- `_unavailable`. -/
def unavailable : ObserveError :=
  { code := "OPERATION_RECOVERY_PERSISTENCE_UNAVAILABLE",
    message := "Recovery observation could not be persisted or completed", statusCode := 503,
    details := named operationId }

end

/-! ### Preparing an item before the dispatch -/

/-- `kind_by_type`. -/
def kindByType : OperationType → Option Str
  | .vmStart => some "vm_start_observation"
  | .vmShutdown => some "vm_shutdown_observation"
  | .vmCreate => some "vm_create_observation"
  | .guidedQmVmUnlock => some "guided_qm_unlock_observation"
  | _ => none

theorem kindByType_mem {operationType : OperationType} {kind : Str}
    (h : kindByType operationType = some kind) : kind ∈ recoveryKinds := by
  cases operationType <;> cases h <;> decide

def isPowerOperation (operationType : OperationType) : Bool :=
  operationType = .vmStart || operationType = .vmShutdown

section Prepare

variable (rt : Runtime) (operation : OperationSnapshot)

/-- Is the latest event needed to prove that a power operation had no effect? -/
def needsTerminalEvents : Bool :=
  isPowerOperation operation.operationType &&
    (operation.status = .failed || operation.status = .blocked)

/-- What the events prove: a terminal power operation without effect, or an unissued plan. -/
structure EventProof where
  terminalNoEffect : Bool
  guidedPreDispatch : Bool

def eventProof (terminalEvents guidedEvents : List OperationEventRecord) : EventProof :=
  { terminalNoEffect := needsTerminalEvents operation &&
      isPreDispatchTerminalNoEffect rt operation terminalEvents
    guidedPreDispatch := guidedUnissuedPlanProven rt operation guidedEvents }

def hasTaskReference : Bool :=
  Dict.text rt.repr operation.details "proxmox_upid" ≠ [] ||
    Dict.text rt.repr operation.details "upid" ≠ []

/-- Is the operation, by its status and events, one that was never dispatched? -/
def isPreDispatch (p : EventProof) : Bool :=
  (!isPowerOperation operation.operationType || operation.status = .planned ||
      operation.status = .dispatching || p.terminalNoEffect) &&
    (operation.operationType ≠ .vmCreate || operation.status = .approved) &&
    (operation.operationType ≠ .guidedQmVmUnlock || p.guidedPreDispatch) &&
    !hasTaskReference rt operation &&
    Dict.get operation.details "recovery_contract" = some (.str recoveryContract)

/-- `int(target.get("vmid") or operation.target_id.split(":", 1)[1])`. -/
def locatorVmid : Option ℤ :=
  let fallback := (splitOnce ':' operation.targetId).2.bind Value.parseInt
  match Dict.get (targetOf operation) "vmid" with
  | some v => if v.truthy then v.toInteger else fallback
  | none => fallback

/-- The durable part of a lock. -/
def durableOf (lock : Option Dict) : Dict := subDict (lock.getD []) "durable"

/-- `exact_binding`: is the lock the operation's own open lock on its VM? -/
def isExactBinding (p : EventProof) (vmid : ℤ) (lock : Option Dict) : Bool :=
  let held := lock.getD []
  let durable := durableOf lock
  let lockId := Dict.text rt.repr durable "operation_lock_id"
  let clusterId := Dict.text rt.repr durable "cluster_id"
  !held.isEmpty && operation.targetType = ("proxmox_vm" : Str) &&
    operation.targetId = ("vmid:" : Str) ++ ofInt vmid &&
    rawText rt.repr held "target_type" = operation.targetType &&
    rawText rt.repr held "target_id" = operation.targetId &&
    rawText rt.repr held "owner_id" = operation.operationId &&
    rawText rt.repr held "lock_id" = lockId && !durable.isEmpty &&
    rawText rt.repr durable "owner_id" = operation.operationId &&
    rawText rt.repr durable "operation_type" = operation.operationType.name &&
    rawText rt.repr durable "scope_type" = ("proxmox_locator" : Str) &&
    durableVmid durable = vmid && lockId ≠ [] && clusterId ≠ [] &&
    (!p.terminalNoEffect ||
      (rawText rt.repr operation.details "target_lock_id" = lockId &&
        rawText rt.repr operation.details "cluster_id" = clusterId))

def recoveryPhase (p : EventProof) (exact : Bool) : Str :=
  if operation.operationType = .vmCreate ∨ (p.guidedPreDispatch = true ∧ exact = true) then
    "lock_acquired"
  else if p.guidedPreDispatch = true then "plan_prepared"
  else "pre_dispatch"

/-- The details of the prepared item. -/
def preparedDetails (p : EventProof) (vmid : ℤ) (lock : Option Dict) (exact : Bool) : Dict :=
  let bound := fun key : Str =>
    Value.str (if exact then Dict.text rt.repr (durableOf lock) key else [])
  let base : Dict :=
    [("operation_type", .str operation.operationType.name),
      ("execution_mode", .str operation.executionMode.name),
      ("target_type", .str operation.targetType), ("target_id", .str operation.targetId),
      ("node_id", .str (rawText rt.repr (targetOf operation) "node_id")), ("vmid", .int vmid),
      ("vm_name", .str (rawText rt.repr (targetOf operation) "name")),
      ("plan_digest", .str operation.planDigest),
      ("phase", .str (recoveryPhase operation p exact)),
      ("target_lock_id", bound "operation_lock_id"), ("cluster_id", bound "cluster_id"),
      ("mutation_replay_allowed", .bool false), ("recovery_contract", .str recoveryContract)]
  let original : Dict :=
    if p.guidedPreDispatch then
      [("original_config_lock", .str (originalConfigLock rt operation))]
    else []
  let terminal : Dict :=
    if p.terminalNoEffect then
      [("pre_dispatch_terminal_no_effect", .bool true), ("mutation_dispatched", .bool false),
        ("pre_dispatch_terminal_reason",
          Dict.getD operation.details "pre_dispatch_terminal_reason" .null),
        ("terminal_outcome", .str (eventChecksumPayload.statusName operation.status))]
    else []
  base ++ original ++ terminal

/-- The item that `_prepare_pre_dispatch_item` prepares, once the lock is read. -/
def preparedSpec (p : EventProof) (kind : Str) (hkind : kind ∈ recoveryKinds) (vmid : ℤ)
    (lock : Option Dict) : Except Failure RecoverySpec := do
  let exact := isExactBinding rt operation p vmid lock
  raiseIf (exact = false ∧ p.guidedPreDispatch = false)
    (.observe (targetLockMismatch operation.operationId))
  if hnamed : (strip operation.operationId).isEmpty = false then
    return ⟨operation.operationId, kind, preparedDetails rt operation p vmid lock exact, hnamed,
      hkind⟩
  else .error (.store (.valueError "Recovery operation_id is required"))

end Prepare

/-! ### The coordinator -/

/-- A request whose arguments passed their checks. -/
structure Admitted where
  operationId : Str
  actor : OperationActor
  record : ObserveRecord

/-- The checks of the arguments. -/
def readRequest (rt : Runtime) (q : ObserveRequest) : Except ObserveError Admitted := do
  let id := strip q.operationId
  let key := strip q.idempotencyKey
  let checksum := strip q.expectedChecksum
  raiseIf (q.actor.role ∉ (["operator", "admin"] : List Str)) operatorRequired
  raiseIf (id = [] ∨ key = [] ∨ 160 < key.length) invalidRequest
  let version ← orRaise (positiveVersion q.expectedVersion) invalidRequest
  raiseIf (checksum = [] ∨ 160 < checksum.length) invalidRequest
  return ⟨id, q.actor, ⟨observeKeyDigest rt key, version, checksum⟩⟩

structure Coordinator where
  workerId : Str
  leaseTime : Instant
  /-- `runner.supports`. -/
  supports : Str → Bool

/-- How far the guarded part of a request came: it was answered, or the runner has run. -/
inductive Stage where
  | answered (result : Dict)
  | ran (outcome : Str)

namespace Coordinator

variable (rt : Runtime) (c : Coordinator)

/-- `str(worker_id).strip() or "operator-recovery-observer"`. -/
def owner : Str := if strip c.workerId = [] then "operator-recovery-observer" else strip c.workerId

/-- `_lease_is_live`. -/
def leaseIsLive (expiresAt : Option Instant) : Action Bool :=
  match expiresAt with
  | none => pure false
  | some t => do
      let now ← call Command.clock
      return decide (now < t)

/-- The recorded error of an item. -/
def errorOf (item : Option RecoveryItem) : Str := (item.bind RecoveryItem.lastErrorCode).getD []

/-- `_replay_observe_result`. -/
def replayObserveResult (operationId : Str) (operation : OperationSnapshot) (item : RecoveryItem) :
    Except ObserveError Dict :=
  let errorCode := errorOf (some item)
  let details : Dict :=
    [("idempotent_replay", .bool true), ("recovery_status", .str item.status.name)]
  let coded : Dict := List.append details [("recovery_error_code", .str errorCode)]
  match recoveryErrorSemantics errorCode with
  | some .ineligible => .error (ineligible operationId
      "Recovery observation cannot proceed because coordination binding is invalid" coded)
  | some .unavailable => .error (observationUnavailable operationId
      "Authoritative recovery observation is unavailable" coded)
  | none =>
      let terminal := rawText rt.repr item.details "terminal_outcome"
      let outcome := if terminal = [] then eventChecksumPayload.statusName operation.status
        else terminal
      .ok (named operationId (List.append details
        [("outcome", .str outcome), ("observation_only", .bool true)]))

/-- The part of `_result_or_error` that follows the last read of the item. -/
def outcomeResult (operationId outcome : Str) (replay : Bool) (item : Option RecoveryItem) :
    Except ObserveError Dict :=
  let errorCode := errorOf item
  let coded : Dict := [("outcome", .str outcome), ("recovery_error_code", .str errorCode),
    ("idempotent_replay", .bool replay)]
  let plain : Dict := [("outcome", .str outcome), ("idempotent_replay", .bool replay)]
  match recoveryErrorSemantics errorCode with
  | some .ineligible => .error (ineligible operationId
      "Recovery observation cannot proceed because coordination binding or state is invalid" coded)
  | some .unavailable => .error (observationUnavailable operationId
      "Recovery observation or its local completion is unavailable" coded)
  | none =>
      if outcome ∈ (["retry_observation_failed", "paused_retry_exhausted"] : List Str) then
        .error (observationUnavailable operationId
          "Authoritative recovery observation is unavailable" plain)
      else if outcome ∈ (["paused_binding_mismatch", "paused_unsupported"] : List Str) then
        .error (ineligible operationId
          "Recovery observation cannot proceed because coordination binding is invalid" plain)
      else .ok (named operationId [("outcome", .str outcome), ("observation_only", .bool true),
        ("idempotent_replay", .bool replay)])

/-- `_result_or_error`. -/
def resultOrError (operationId outcome : Str) (replay : Bool) : Action Dict := do
  if outcome = ("lease_lost" : Str) then
    let operation ← call (Command.getOperation operationId)
    refuse (conflict operationId operation)
  else
    match ← attempt (call (Command.getRecovery operationId)) with
    | .error _ => refuse (unavailable operationId)
    | .ok item => checked (outcomeResult operationId outcome replay item)

/-- A request that the ledger holds already. -/
def replay (r : Admitted) (operation : OperationSnapshot) (item : RecoveryItem) : Action Stage := do
  if item.status = .leased then
    let live ← leaseIsLive item.leaseExpiresAt
    refuseIf (live = true) (inProgress r.operationId item)
    let lease ← call (Command.claimOperation r.operationId c.owner c.leaseTime operation.version
      operation.lastEventChecksum)
    let outcome ← call (Command.run lease)
    let result ← resultOrError r.operationId outcome true
    return .answered result
  else
    let result ← checked (replayObserveResult rt r.operationId operation item)
    return .answered result

/-- The events of the operation, when they are needed. -/
def eventsWhen (needed : Bool) (operation : OperationSnapshot) :
    Action (List OperationEventRecord) :=
  if needed then call (Command.listEvents operation.operationId) else pure []

/-- The checks of `_prepare_pre_dispatch_item`, with the reads they need. -/
def prepareSpec (operation : OperationSnapshot) : Action RecoverySpec := do
  let terminalEvents ← eventsWhen (needsTerminalEvents operation) operation
  let guidedEvents ← eventsWhen (operation.operationType = .guidedQmVmUnlock) operation
  let p := eventProof rt operation terminalEvents guidedEvents
  match hkind : kindByType operation.operationType with
  | none => refuse (notPrepared operation.operationId operation.status)
  | some kind =>
      refuseIf (isPreDispatch rt operation p = false)
        (notPrepared operation.operationId operation.status)
      match locatorVmid operation with
      | none => refuse (targetMismatch operation.operationId)
      | some vmid =>
          let lock ← call (Command.readLock operation.targetType operation.targetId)
          ExceptT.mk (.done (preparedSpec rt operation p kind (kindByType_mem hkind) vmid lock))

/-- `_prepare_pre_dispatch_item`. -/
def preparePreDispatchItem (r : Admitted) (operation : OperationSnapshot) :
    Action RecoveryLease := do
  let spec ← prepareSpec rt operation
  let lease ← call (Command.prepareAndClaim spec c.owner c.leaseTime r.record.version
    r.record.checksum)
  refuseIf (c.supports spec.recoveryKind = false)
    (unsupported operation.operationId spec.recoveryKind)
  return lease

/-- The lease of an existing item, with the ledger that will record the request. -/
def claimItem (r : Admitted) (item : RecoveryItem) :
    Action (RecoveryLease × List ObserveRecord) := do
  let records ← checked (nextObserveLedger rt item.operationId item.details r.record)
  refuseIf (c.supports item.recoveryKind = false) (unsupported r.operationId item.recoveryKind)
  let lease ← call (Command.claimOperation r.operationId c.owner c.leaseTime r.record.version
    r.record.checksum)
  return (lease, records)

/-- The lease of a new item, with the ledger that will record the request. -/
def prepareItem (r : Admitted) (operation : OperationSnapshot) :
    Action (RecoveryLease × List ObserveRecord) := do
  let lease ← preparePreDispatchItem rt c r operation
  let records ← checked (nextObserveLedger rt lease.item.operationId lease.item.details r.record)
  return (lease, records)

/-- The commit that records the request. -/
def observationRequested (r : Admitted) (records : List ObserveRecord)
    (operation : OperationSnapshot) : Observation :=
  ChangeRecovery.Runner.observationRequested
    { operationId := r.operationId, actor := r.actor, version := r.record.version,
      checksum := r.record.checksum, keyDigest := r.record.digest, resumed := false,
      ledger := records.map fun s => .dict s.toDict } operation

@[simp] theorem observationRequested_patch (r : Admitted) (records : List ObserveRecord)
    (operation : OperationSnapshot) :
    (observationRequested r records operation).recoveryDetailsPatch =
      requestPatch records r.record := rfl

/-- A request that the ledger does not hold. -/
def request (r : Admitted) (operation : OperationSnapshot) (item : Option RecoveryItem) :
    Action Stage := do
  refuseIf (item.isSome ∧ recoveryErrorSemantics (errorOf item) = some .ineligible)
    (ineligible r.operationId
      "Recovery observation cannot proceed because manual authority or binding repair is required"
      [("recovery_error_code", .str (errorOf item))])
  refuseIf (operation.version ≠ r.record.version ∨
    operation.lastEventChecksum ≠ r.record.checksum) (conflict r.operationId (some operation))
  let (lease, records) ← match item with
    | some item => claimItem rt c r item
    | none => prepareItem rt c r operation
  let (_, claimedItem) ← call (Command.commit lease (observationRequested r records operation))
  let outcome ← call (Command.run ⟨claimedItem, lease.token⟩)
  return .ran outcome

/-- Is the request in the ledger of the item? -/
def sameRequest (r : Admitted) (item : Option RecoveryItem) : Except ObserveError Bool :=
  match item with
  | none => .ok false
  | some item => sameObserveRequest rt item.operationId item.details r.record

/-- What follows the comparison with the ledger. -/
def serve (r : Admitted) (operation : OperationSnapshot) (item : Option RecoveryItem)
    (same : Bool) : Action Stage :=
  match item, same with
  | some item, true => replay rt c r operation item
  | item, _ => request rt c r operation item

/-- The part of `observe` whose exceptions are translated. -/
def guarded (r : Admitted) (operation : OperationSnapshot) : Action Stage := do
  let item ← call (Command.getRecovery r.operationId)
  let same ← checked (sameRequest rt r item)
  serve rt c r operation item same

/-- The translation of exceptions. -/
def translated (operationId : Str) (p : Action Stage) : Action Stage := do
  match ← attempt p with
  | .ok stage => return stage
  | .error (.observe e) => refuse e
  | .error (.store (.recoveryNotFound _)) => refuse (recoveryNotFound operationId)
  | .error (.store (.recoveryLeaseBusy _)) | .error (.store (.recoveryOperationConflict _)) =>
      let operation ← call (Command.getOperation operationId)
      refuse (conflict operationId operation)
  | .error _ => refuse (unavailable operationId)

/-- The operation of the request. -/
def readOperation (operationId : Str) : Action OperationSnapshot := do
  match ← attempt (call (Command.getOperation operationId)) with
  | .error _ => refuse (unavailable operationId)
  | .ok none => refuse (operationNotFound operationId)
  | .ok (some operation) => return operation

/-- The result of a request. -/
def finish (operationId : Str) (stage : Stage) : Action Dict :=
  match stage with
  | .answered result => return result
  | .ran outcome => resultOrError operationId outcome false

/-- `observe`. -/
def observe (q : ObserveRequest) : Action Dict := do
  call (Command.receive q)
  let r ← checked (readRequest rt q)
  let operation ← readOperation r.operationId
  let stage ← translated r.operationId (guarded rt c r operation)
  finish r.operationId stage

end Coordinator

end Gjallar.Observer

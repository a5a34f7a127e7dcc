import Gjallar.TargetLocks

/-!
# The recovery store

`SqlAlchemyRecoveryStore`: the claim of due work under a lease with a generation, its heartbeat,
and the fenced commit of an observation to the recovery item, the operation, its events and its
target locks in one transaction.
-/
namespace Gjallar.RecoveryStore

open Gjallar.Text Gjallar.Data Gjallar.Tables Gjallar.Operation Gjallar.OperationStore
  Gjallar.TargetLocks Gjallar.Redaction

/-- `RECOVERY_KINDS`. -/
def recoveryKinds : List Str :=
  ["host_storage_observation", "host_network_observation", "vm_start_observation",
    "vm_shutdown_observation", "vm_compute_observation", "vm_disk_observation",
    "vm_network_observation", "vm_clone_observation", "vm_delete_observation",
    "vm_template_observation", "vm_image_build_observation", "vm_image_cleanup_observation",
    "vm_backup_observation", "vm_restore_observation", "vm_migrate_observation",
    "vm_create_observation", "guided_qm_unlock_observation"]

/-- `RecoverySpec`, with the checks of its constructor. -/
structure RecoverySpec where
  operationId : Str
  recoveryKind : Str
  details : Dict
  named : (strip operationId).isEmpty = false
  supported : recoveryKind ∈ recoveryKinds

/-- `RecoveryItem`: a recovery row without its private lease token. -/
structure RecoveryItem where
  operationId : Str
  recoveryKind : Str
  status : RecoveryStatus
  availableAt : Instant
  leaseOwner : Option Str
  leaseGeneration : ℕ
  leaseExpiresAt : Option Instant
  attemptCount : ℕ
  lastErrorCode : Option Str
  details : Dict
  createdAt : Instant
  updatedAt : Instant
  completedAt : Option Instant
  deriving DecidableEq

structure RecoveryLease where
  item : RecoveryItem
  token : Str
  deriving DecidableEq

def RecoveryLease.operationId (lease : RecoveryLease) : Str := lease.item.operationId

def RecoveryLease.generation (lease : RecoveryLease) : ℕ := lease.item.leaseGeneration

/-- `_item`. -/
def itemOf (r : RecoveryRecord) : RecoveryItem :=
  { operationId := r.operationId, recoveryKind := r.recoveryKind, status := r.status,
    availableAt := r.availableAt, leaseOwner := r.leaseOwner,
    leaseGeneration := r.leaseGeneration, leaseExpiresAt := r.leaseExpiresAt,
    attemptCount := r.attemptCount, lastErrorCode := r.lastErrorCode, details := r.details,
    createdAt := r.createdAt, updatedAt := r.updatedAt, completedAt := r.completedAt }

/-- `now + timedelta(seconds=max(lease_seconds, 1.0))`. -/
def leaseExpiry (now leaseTime : Instant) : Instant := now + max leaseTime (Instant.seconds 1)

def leaseToken (draw : Draw) (i : ℕ) : Str := ("recovery-lease-" : Str) ++ (draw.uuid i).digits

/-- Is the row leased and the lease unexpired? -/
def isLive (row : RecoveryRecord) (now : Instant) : Bool :=
  row.status = .leased && row.leaseExpiresAt.any (now < ·)

/-- The part of a claim that every claiming operation shares. -/
def claimed (owner token : Str) (now expiresAt : Instant) (row : RecoveryRecord) :
    RecoveryRecord :=
  { row with
    status := .leased
    leaseOwner := some owner
    leaseToken := some token
    leaseGeneration := row.leaseGeneration + 1
    leaseExpiresAt := some expiresAt
    attemptCount := row.attemptCount + 1
    updatedAt := now }

/-- `_assert_operation_identity`. -/
def assertOperationIdentity (operationId : Str) (version : Option ℕ) (checksum : Option Str)
    (db : Db) : Except StoreError Unit :=
  match db.operations.get operationId with
  | none => .error (.recoveryOperationConflict operationId)
  | some operation =>
      raiseIf ((∃ v ∈ version, operation.version ≠ v) ∨
        ∃ c ∈ checksum, operation.lastEventChecksum ≠ c) (.recoveryOperationConflict operationId)

/-- The first lease of a new item. -/
def firstLease (draw : Draw) (spec : RecoverySpec) (owner : Str) (leaseTime : Instant) :
    RecoveryRecord :=
  { operationId := spec.operationId, recoveryKind := spec.recoveryKind, status := .leased,
    availableAt := draw.now, leaseOwner := some owner, leaseToken := some (leaseToken draw 0),
    leaseGeneration := 1, leaseExpiresAt := some (leaseExpiry draw.now leaseTime),
    attemptCount := 1, lastErrorCode := none, details := sanitized spec.details,
    createdAt := draw.now, updatedAt := draw.now, completedAt := none }

/-- The item of a row together with the token of the lease on it. -/
def leaseOf (row : RecoveryRecord) (token : Str) : RecoveryLease := ⟨itemOf row, token⟩

/-- `prepare_and_claim`. -/
def prepareAndClaim (draw : Draw) (spec : RecoverySpec) (leaseOwner : Str) (leaseTime : Instant)
    (expectedVersion : Option ℕ) (expectedChecksum : Option Str) (db : Db) :
    Except StoreError (RecoveryLease × Db) := do
  let owner := strip leaseOwner
  raiseIf (owner.isEmpty = true) (.valueError "Recovery lease_owner is required")
  assertOperationIdentity spec.operationId expectedVersion expectedChecksum db
  match db.recovery.get spec.operationId with
  | none =>
      let row := firstLease draw spec owner leaseTime
      let recovery ← orRaise (db.recovery.insert row) .integrityError
      return (leaseOf row (leaseToken draw 0), { db with recovery := recovery })
  | some row =>
      raiseIf (row.recoveryKind ≠ spec.recoveryKind)
        (.valueError (("Recovery kind conflicts for operation " : Str) ++ spec.operationId))
      raiseIf (isLive row draw.now = true) (.recoveryLeaseBusy spec.operationId)
      raiseIf (row.status = .completed) (.recoveryLeaseBusy spec.operationId)
      let row' : RecoveryRecord :=
        { claimed owner (leaseToken draw 0) draw.now (leaseExpiry draw.now leaseTime) row with
          availableAt := draw.now
          details := Dict.merge row.details (sanitized spec.details) }
      let recovery ← orRaise (db.recovery.put row') .integrityError
      return (leaseOf row' (leaseToken draw 0), { db with recovery := recovery })

/-- `claim_operation`. -/
def claimOperation (draw : Draw) (operationId leaseOwner : Str) (leaseTime : Instant)
    (expectedVersion : Option ℕ) (expectedChecksum : Option Str) (db : Db) :
    Except StoreError (RecoveryLease × Db) := do
  let owner := strip leaseOwner
  raiseIf (owner.isEmpty = true) (.valueError "Recovery lease_owner is required")
  let id := strip operationId
  raiseIf (id.isEmpty = true) (.valueError "Recovery operation_id is required")
  let row ← orRaise (db.recovery.get id) (.recoveryNotFound id)
  assertOperationIdentity id expectedVersion expectedChecksum db
  raiseIf (isLive row draw.now = true ∨ row.status = .completed) (.recoveryLeaseBusy id)
  let row' : RecoveryRecord :=
    { claimed owner (leaseToken draw 0) draw.now (leaseExpiry draw.now leaseTime) row with
      availableAt := draw.now }
  let recovery ← orRaise (db.recovery.put row') .integrityError
  return (leaseOf row' (leaseToken draw 0), { db with recovery := recovery })

/-- The condition under which `claim_due` selects a row. -/
def isDue (now : Instant) (row : RecoveryRecord) : Bool :=
  row.availableAt ≤ now && (row.status = .pending || row.status = .retryWait ||
    (row.status = .leased && row.leaseExpiresAt.any (· ≤ now)))

/-- The order in which due rows are taken. -/
def dueBefore (r s : RecoveryRecord) : Bool :=
  if r.availableAt = s.availableAt then textLe r.operationId s.operationId
  else decide (r.availableAt ≤ s.availableAt)

/-- Claim the rows one after the other, each with a token of its own. -/
def claimRows (draw : Draw) (owner : Str) (expiresAt : Instant) :
    ℕ → List RecoveryRecord → RecoveryTable → Except StoreError (List RecoveryLease × RecoveryTable)
  | _, [], t => .ok ([], t)
  | i, row :: rows, t => do
      let row' := claimed owner (leaseToken draw i) draw.now expiresAt row
      let t ← orRaise (t.put row') .integrityError
      let (leases, t) ← claimRows draw owner expiresAt (i + 1) rows t
      return (leaseOf row' (leaseToken draw i) :: leases, t)

/-- The rows `claim_due` takes; rows another transaction has locked are skipped. -/
def dueRows (now : Instant) (limit : ℤ) (locked : Str → Bool) (t : RecoveryTable) :
    List RecoveryRecord :=
  ((t.rows.filter fun r => isDue now r && !locked r.operationId).mergeSort dueBefore).take
    (max 1 (min limit 10)).toNat

/-- `claim_due`. -/
def claimDue (draw : Draw) (leaseOwner : Str) (leaseTime : Instant) (limit : ℤ)
    (locked : Str → Bool) (db : Db) : Except StoreError (List RecoveryLease × Db) := do
  let owner := strip leaseOwner
  raiseIf (owner.isEmpty = true) (.valueError "Recovery lease_owner is required")
  let (leases, recovery) ← claimRows draw owner (leaseExpiry draw.now leaseTime) 0
    (dueRows draw.now limit locked db.recovery) db.recovery
  return (leases, { db with recovery := recovery })

/-- Does the lease own the row now? -/
def ownsRow (lease : RecoveryLease) (now : Instant) (row : RecoveryRecord) : Bool :=
  row.status = .leased && row.leaseToken = some lease.token &&
    row.leaseGeneration = lease.generation && row.leaseExpiresAt.any (now < ·)

/-- `_locked_owned_row`. -/
def lockedOwnedRow (lease : RecoveryLease) (now : Instant) (db : Db) :
    Except StoreError RecoveryRecord :=
  match db.recovery.get lease.operationId with
  | none => .error (.recoveryLeaseLost lease.operationId)
  | some row =>
      if ownsRow lease now row then .ok row else .error (.recoveryLeaseLost lease.operationId)

/-- `heartbeat`. -/
def heartbeat (draw : Draw) (lease : RecoveryLease) (leaseTime : Instant) (db : Db) :
    Except StoreError (RecoveryLease × Db) := do
  let row ← lockedOwnedRow lease draw.now db
  let row' : RecoveryRecord :=
    { row with leaseExpiresAt := some (leaseExpiry draw.now leaseTime), updatedAt := draw.now }
  let recovery ← orRaise (db.recovery.put row') .integrityError
  return (leaseOf row' lease.token, { db with recovery := recovery })

/-! ### Committing an observation -/

/-- The arguments of `commit_observation`. -/
structure Observation where
  eventType : Str
  stage : Str
  payload : Dict := []
  detailsPatch : Dict := []
  nextStatus : Option OperationStatus := none
  expectedStatuses : Option (List OperationStatus) := none
  actor : Option OperationActor := none
  recoveryStatus : Str
  retryDelay : Instant := 0
  errorCode : Option Str := none
  recoveryDetailsPatch : Dict := []
  releaseTargetLock : Bool := false
  requireExactReconciliationLock : Bool := true
  bindTargetLock : Bool := false
  expectedOperationVersion : Option ℕ := none
  expectedOperationChecksum : Option Str := none
  projector : Option (Dict → Except Str (Option Value × Dict)) := none

/-- The query behind each VM target lock: the referenced row, if it is open and the operation's. -/
def exactVmLock (operation : OperationRecord) (clusterId : Str) (locks : LockTable)
    (reference : LockReference) : Option OperationLockRecord :=
  (locks.get reference.lockId).filter fun r =>
    r.ownerId = operation.operationId && r.operationType = operation.operationType &&
      r.scopeType = .proxmoxLocator && r.vmid = some reference.vmid && r.isOpen &&
      r.clusterId = clusterId

/-- The query behind a host configuration lock. -/
def exactHostLock (operation : OperationRecord) (binding : Dict) (locks : LockTable) :
    Option OperationLockRecord :=
  let field := fun key => Dict.getD binding key .null
  (locks.rows.find? fun r => (field "target_lock_id").eqv (.str r.operationLockId)).filter fun r =>
    r.ownerId = operation.operationId && r.operationType = operation.operationType &&
      r.scopeType = .proxmoxConfiguration && (field "scope_key").eqv (.str r.scopeKey) &&
      (field "cluster_id").eqv (.str r.clusterId) && r.vmid = none && r.isOpen &&
      (Dict.getD r.evidence "operation_id" .null).eqv (.str operation.operationId) &&
      (Dict.getD r.evidence "target_type" .null).eqv (.str operation.targetType) &&
      (Dict.getD r.evidence "target_id" .null).eqv (.str operation.targetId) &&
      (Dict.getD r.evidence "target" .null).eqv (field "target")

/-- `_exact_target_locks`: every lock the operation is bound to, or none when one is missing. -/
def exactTargetLocks (rt : Runtime) (operation : OperationRecord) (recoveryDetails : Dict)
    (locks : LockTable) : List OperationLockRecord :=
  if isHostOperation operation.operationType then
    match lockBinding rt operation.operationType operation.targetType operation.targetId
        operation.details recoveryDetails with
    | none => []
    | some binding =>
        if operation.executionMode ≠ .managedApi then []
        else (exactHostLock operation binding locks).toList
  else if operation.targetType ≠ "proxmox_vm" then []
  else
    let references := lockReferences operation.operationType operation.targetId operation.details
      recoveryDetails
    let clusterId := Dict.text rt.repr recoveryDetails "cluster_id"
    if references = [] ∨ clusterId = [] then []
    else ((references.mergeSort fun a b => decide (a.vmid ≤ b.vmid)).mapM
      (exactVmLock operation clusterId locks)).getD []

/-- A nested dictionary, empty when the entry is not one. -/
def subDict (d : Dict) (key : Str) : Dict := ((Dict.get d key).bind Value.asDict).getD []

/-- `int(durable.get("vmid") or 0)`, zero when that is not an integer. -/
def durableVmid (durable : Dict) : ℤ :=
  match Dict.get durable "vmid" with
  | some v => if v.truthy then v.toInteger.getD 0 else 0
  | none => 0

/-- `_assert_target_lock_binding_checkpoint`: a one-time exact lock binding before dispatch. -/
def assertTargetLockBindingCheckpoint (rt : Runtime) (operation : OperationRecord)
    (currentDetails effectiveDetails detailsPatch : Dict) (locks : List OperationLockRecord) :
    Except StoreError Unit := do
  let text := Dict.text rt.repr
  let rawText := fun d key => match Dict.get d key with
    | some v => if v.truthy then v.toText rt.repr else []
    | none => ([] : Str)
  let lockId := text effectiveDetails "target_lock_id"
  let clusterId := text effectiveDetails "cluster_id"
  let currentLockId := text currentDetails "target_lock_id"
  let currentClusterId := text currentDetails "cluster_id"
  let onlyActive := match locks with
    | [lock] => decide (lock.status = .active)
    | _ => false
  raiseIf (lockId = [] ∨ clusterId = [] ∨ (currentLockId ≠ [] ∧ currentLockId ≠ lockId) ∨
      (currentClusterId ≠ [] ∧ currentClusterId ≠ clusterId) ∨ onlyActive = false)
    (.valueError (("Recovery target lock binding checkpoint is not exact for operation " : Str) ++
      operation.operationId))
  let binding := subDict detailsPatch "target_operation_lock"
  let durable := subDict binding "durable"
  let recorded := subDict operation.details "target_operation_lock"
  let recordedDurable := subDict recorded "durable"
  let recordedLockId :=
    let id := rawText recordedDurable "operation_lock_id"
    strip (if id = [] then rawText recorded "lock_id" else id)
  let recordedClusterId := text recordedDurable "cluster_id"
  let exactProjection :=
    rawText binding "target_type" = operation.targetType ∧
      rawText binding "target_id" = operation.targetId ∧
      rawText binding "owner_id" = operation.operationId ∧
      rawText durable "operation_lock_id" = lockId ∧ rawText durable "cluster_id" = clusterId ∧
      rawText durable "owner_id" = operation.operationId ∧
      rawText durable "operation_type" = operation.operationType.name ∧
      rawText durable "scope_type" = ("proxmox_locator" : Str) ∧
      targetVmid operation.targetId = some (durableVmid durable)
  raiseIf (¬ exactProjection ∨ (recordedLockId ≠ [] ∧ recordedLockId ≠ lockId) ∨
      (recordedClusterId ≠ [] ∧ recordedClusterId ≠ clusterId))
    (.valueError (("Operation target lock binding checkpoint is not exact for operation " : Str) ++
      operation.operationId))

/-- The ledger entries a projector contributes, sanitised. -/
structure Projection where
  payload : Dict := []
  details : Dict := []
  recoveryDetails : Dict := []

/-- `_sanitized` of an entry of the projector's result. -/
def projectedEntry (result : Dict) (key : Str) : Except StoreError Dict :=
  match Dict.get result key with
  | none => .ok []
  | some (.dict d) => .ok (sanitized d)
  | some v => if v.truthy then .error (.typeError "object is not a mapping") else .ok []

namespace Observation

/-- The checks on the operation row. -/
def checkOperation (o : Observation) (lease : RecoveryLease) (operation : OperationRecord) :
    Except StoreError Unit := do
  raiseIf ((∃ v ∈ o.expectedOperationVersion, operation.version ≠ v) ∨
      ∃ c ∈ o.expectedOperationChecksum, operation.lastEventChecksum ≠ c)
    (.recoveryOperationConflict lease.operationId)
  raiseIf (∃ expected ∈ o.expectedStatuses, operation.status ∉ expected)
    (.operationStateConflict lease.operationId operation.status)
  ensureNext operation.status o.nextStatus

/-- The recovery details the lock binding is read from. -/
def effectiveDetails (o : Observation) (row : RecoveryRecord) : Dict :=
  if o.bindTargetLock then Dict.merge row.details (sanitized o.recoveryDetailsPatch)
  else row.details

/-- The locks the commit acts on. -/
def boundLocks (rt : Runtime) (o : Observation) (row : RecoveryRecord)
    (operation : OperationRecord) (locks : LockTable) : List OperationLockRecord :=
  if isHostOperation operation.operationType ∧
      row.recoveryKind ≠ operation.operationType.name ++ ("_observation" : Str) then []
  else exactTargetLocks rt operation (o.effectiveDetails row) locks

/-- The checks on the bound locks. -/
def checkLocks (rt : Runtime) (o : Observation) (lease : RecoveryLease) (row : RecoveryRecord)
    (operation : OperationRecord) (locks : List OperationLockRecord) :
    Except StoreError Unit := do
  let required := expectedLockCount operation.operationType
  if o.bindTargetLock then
    assertTargetLockBindingCheckpoint rt operation row.details (o.effectiveDetails row)
      (sanitized o.detailsPatch) locks
  raiseIf (o.projector.isSome ∧ locks.length ≠ 1)
    (.valueError (("Projected recovery target lock binding is not exact for operation " : Str) ++
      lease.operationId))
  raiseIf ((required = 2 ∨ isHostOperation operation.operationType = true) ∧
      locks.length ≠ required ∧ ¬ (o.recoveryStatus = RecoveryStatus.paused.name ∧
        o.nextStatus = none ∧ o.releaseTargetLock = false))
    (.recoveryOperationConflict lease.operationId)
  raiseIf (o.releaseTargetLock = true ∧ locks.length ≠ required)
    (.valueError (("Recovery target lock binding is not exact for operation " : Str) ++
      lease.operationId))
  raiseIf (o.nextStatus = some .needsReconciliation ∧ (required < locks.length ∨
      (o.requireExactReconciliationLock = true ∧ locks.length ≠ required)))
    (.valueError (("Reconciliation target lock binding is not exact for operation " : Str) ++
      lease.operationId))

/-- Run the projector inside the transaction. -/
def project (o : Observation) (jobs : Dict) : Except StoreError (Projection × Dict) :=
  match o.projector with
  | none => .ok ({}, jobs)
  | some projector =>
      match projector jobs with
      | .error message => .error (.projectorError message)
      | .ok (none, jobs) => .ok ({}, jobs)
      | .ok (some (.dict d), jobs) => do
          let payload ← projectedEntry d "event_payload"
          let details ← projectedEntry d "operation_details_patch"
          let recoveryDetails ← projectedEntry d "recovery_details_patch"
          return (⟨payload, details, recoveryDetails⟩, jobs)
      | .ok (some _, _) =>
          .error (.typeError "Recovery projector must return a mapping or None")

def operationPatch (o : Observation) (p : Projection) : Dict :=
  Dict.merge (sanitized o.detailsPatch) p.details

def recoveryPatch (o : Observation) (p : Projection) : Dict :=
  Dict.merge (sanitized o.recoveryDetailsPatch) p.recoveryDetails

/-- A host configuration checkpoint cannot replace its admitted target. -/
def checkHostBinding (o : Observation) (lease : RecoveryLease) (row : RecoveryRecord)
    (operation : OperationRecord) (p : Projection) : Except StoreError Unit :=
  raiseIf (isHostOperation operation.operationType = true ∧
      (preservesLockBinding operation.details (o.operationPatch p) = false ∨
        preservesLockBinding row.details (o.recoveryPatch p) = false))
    (.recoveryOperationConflict lease.operationId)

/-- The event the commit appends. -/
def append (o : Observation) (p : Projection) : Append :=
  { nextStatus := o.nextStatus, eventType := o.eventType, stage := o.stage,
    payload := Dict.merge (sanitized o.payload) p.payload, detailsPatch := o.operationPatch p,
    actor := o.actor, expectedStatuses := o.expectedStatuses }

/-- The recovery row after the commit. -/
def recoveryRow (o : Observation) (draw : Draw) (status : RecoveryStatus) (row : RecoveryRecord)
    (p : Projection) : RecoveryRecord :=
  { row with
    status := status
    availableAt := draw.now + max o.retryDelay 0
    leaseOwner := if status = .leased then row.leaseOwner else none
    leaseToken := if status = .leased then row.leaseToken else none
    leaseExpiresAt := if status = .leased then row.leaseExpiresAt else none
    lastErrorCode := (o.errorCode.filter fun c => !c.isEmpty).map fun c => (strip c).take 120
    details := Dict.merge row.details (o.recoveryPatch p)
    updatedAt := draw.now
    completedAt := if status = .completed then some draw.now else none }

/-- The evidence a commit leaves on a lock. -/
def lockEvidence (o : Observation) (lease : RecoveryLease) (lock : OperationLockRecord) : Dict :=
  Dict.merge lock.evidence [("recovery_operation_id", .str lease.operationId),
    ("recovery_event_type", .str o.eventType)]

/-- A lock row the commit releases. -/
def releasedLock (o : Observation) (draw : Draw) (lease : RecoveryLease)
    (lock : OperationLockRecord) : OperationLockRecord :=
  { lock with
    status := .released
    reason := "verified_recovery_completed"
    evidence := o.lockEvidence lease lock
    releasedAt := some draw.now
    updatedAt := draw.now }

/-- A lock row the commit marks for reconciliation. -/
def reconciledLock (o : Observation) (draw : Draw) (lease : RecoveryLease)
    (lock : OperationLockRecord) : OperationLockRecord :=
  { lock with
    status := .reconciliationRequired
    reason := "recovery_result_requires_reconciliation"
    evidence := o.lockEvidence lease lock
    updatedAt := draw.now }

/-- The lock rows the commit writes back. -/
def lockUpdates (o : Observation) (draw : Draw) (lease : RecoveryLease)
    (locks : List OperationLockRecord) : List OperationLockRecord :=
  if o.releaseTargetLock then locks.map (o.releasedLock draw lease)
  else if o.nextStatus = some .needsReconciliation then locks.map (o.reconciledLock draw lease)
  else []

end Observation

/-- `commit_observation`. -/
def commitObservation (rt : Runtime) (draw : Draw) (lease : RecoveryLease) (o : Observation)
    (db : Db) : Except StoreError ((OperationSnapshot × RecoveryItem) × Db) := do
  let status ← orRaise (RecoveryStatus.ofName o.recoveryStatus)
    (.valueError (("Unsupported post-observation recovery status: " : Str) ++ o.recoveryStatus))
  let row ← lockedOwnedRow lease draw.now db
  let operation ← orRaise (db.operations.get lease.operationId)
    (.recoveryOperationConflict lease.operationId)
  o.checkOperation lease operation
  let locks := o.boundLocks rt row operation db.locks
  o.checkLocks rt lease row operation locks
  let (projection, jobs) ← o.project db.jobs
  o.checkHostBinding lease row operation projection
  let (operation', db') ← appendInSession rt draw lease.operationId (o.append projection) db
  let row' := o.recoveryRow draw status row projection
  let recovery ← orRaise (db'.recovery.put row') .integrityError
  let lockTable ← orRaise (db'.locks.putAll (o.lockUpdates draw lease locks)) .integrityError
  return ((operation', itemOf row'),
    { db' with recovery := recovery, locks := lockTable, jobs := jobs })

/-! ### What a successful call went through -/

theorem lockedOwnedRow_eq_ok {lease : RecoveryLease} {now : Instant} {db : Db}
    {row : RecoveryRecord} : lockedOwnedRow lease now db = .ok row ↔
      db.recovery.get lease.operationId = some row ∧ ownsRow lease now row = true := by
  unfold lockedOwnedRow
  cases h : db.recovery.get lease.operationId with
  | none => simp
  | some r =>
      by_cases ho : ownsRow lease now r
      · simp only [ho, if_true, Except.ok.injEq, Option.some.injEq]
        constructor
        · rintro rfl; exact ⟨rfl, ho⟩
        · exact fun h => h.1
      · simp only [ho, Bool.false_eq_true, if_false, reduceCtorEq, Option.some.injEq, false_iff]
        rintro ⟨rfl, h⟩
        exact ho h

/-- A lease that does not own its row is lost. -/
theorem lockedOwnedRow_eq_error {lease : RecoveryLease} {now : Instant} {db : Db}
    (h : ∀ row, db.recovery.get lease.operationId = some row → ownsRow lease now row = false) :
    lockedOwnedRow lease now db = .error (.recoveryLeaseLost lease.operationId) := by
  unfold lockedOwnedRow
  cases hr : db.recovery.get lease.operationId with
  | none => rfl
  | some r => simp [h r hr]

/-- Every guard a successful commit passed, and what it wrote. -/
theorem commitObservation_eq_ok {rt : Runtime} {draw : Draw} {lease : RecoveryLease}
    {o : Observation} {db db' : Db} {operation' : OperationSnapshot} {item : RecoveryItem}
    (h : commitObservation rt draw lease o db = .ok ((operation', item), db')) :
    ∃ status row operation p jobs mid recovery locks,
      RecoveryStatus.ofName o.recoveryStatus = some status ∧
      db.recovery.get lease.operationId = some row ∧ ownsRow lease draw.now row = true ∧
      db.operations.get lease.operationId = some operation ∧
      o.checkOperation lease operation = .ok () ∧
      o.checkLocks rt lease row operation (o.boundLocks rt row operation db.locks) = .ok () ∧
      o.project db.jobs = .ok (p, jobs) ∧
      o.checkHostBinding lease row operation p = .ok () ∧
      appendInSession rt draw lease.operationId (o.append p) db = .ok (operation', mid) ∧
      mid.recovery.put (o.recoveryRow draw status row p) = some recovery ∧
      mid.locks.putAll (o.lockUpdates draw lease (o.boundLocks rt row operation db.locks)) =
        some locks ∧
      item = itemOf (o.recoveryRow draw status row p) ∧
      db' = { mid with recovery := recovery, locks := locks, jobs := jobs } := by
  simp only [commitObservation, bind_eq_ok, orRaise_eq_ok, pure_eq_ok, lockedOwnedRow_eq_ok] at h
  obtain ⟨status, hs, row, ⟨hrow, hown⟩, operation, hop, _, hco, _, hcl, ⟨p, jobs⟩, hp, _, hh,
    ⟨op', mid⟩, ha, recovery, hr, locks, hl, heq⟩ := h
  obtain ⟨⟨rfl, rfl⟩, rfl⟩ := by simpa only [Prod.mk.injEq] using heq
  exact ⟨status, row, operation, p, jobs, mid, recovery, locks, hs, hrow, hown, hop, hco, hcl, hp,
    hh, ha, hr, hl, rfl, rfl⟩

/-! ### The locks a commit acts on -/

theorem exists_of_mem_mapM {α β : Type} {f : α → Option β} {xs : List α} {ys : List β} {y : β}
    (h : xs.mapM f = some ys) (hy : y ∈ ys) : ∃ x ∈ xs, f x = some y := by
  induction xs generalizing ys with
  | nil =>
      rw [List.mapM_nil] at h
      cases h
      cases hy
  | cons x xs ih =>
      rw [List.mapM_cons] at h
      obtain ⟨z, hz, h⟩ := Option.bind_eq_some_iff.mp h
      obtain ⟨zs, hzs, h⟩ := Option.bind_eq_some_iff.mp h
      cases h
      rcases List.mem_cons.mp hy with rfl | hy
      · exact ⟨x, List.mem_cons_self, hz⟩
      · obtain ⟨w, hw, hf⟩ := ih hzs hy
        exact ⟨w, List.mem_cons_of_mem _ hw, hf⟩

/-- A referenced VM lock is the row with that id; it is open and the operation's. -/
theorem exactVmLock_eq_some {operation : OperationRecord} {clusterId : Str} {locks : LockTable}
    {reference : LockReference} {r : OperationLockRecord} :
    exactVmLock operation clusterId locks reference = some r ↔
      locks.get reference.lockId = some r ∧ r.ownerId = operation.operationId ∧
      r.operationType = operation.operationType ∧ r.scopeType = .proxmoxLocator ∧
      r.vmid = some reference.vmid ∧ r.isOpen = true ∧ r.clusterId = clusterId := by
  simp only [exactVmLock, Option.filter_eq_some_iff, Bool.and_eq_true, decide_eq_true_eq,
    and_assoc]

theorem exactHostLock_mem {operation : OperationRecord} {binding : Dict} {locks : LockTable}
    {r : OperationLockRecord} (h : exactHostLock operation binding locks = some r) :
    r ∈ locks ∧ r.isOpen = true ∧ r.ownerId = operation.operationId := by
  simp only [exactHostLock, Option.filter_eq_some_iff, Bool.and_eq_true, decide_eq_true_eq] at h
  exact ⟨List.mem_of_find?_eq_some h.1, by tauto, by tauto⟩

/-- Every lock a commit acts on is an open lock of the operation. -/
theorem Observation.mem_boundLocks {rt : Runtime} {o : Observation} {row : RecoveryRecord}
    {operation : OperationRecord} {locks : LockTable} {r : OperationLockRecord}
    (h : r ∈ o.boundLocks rt row operation locks) :
    r ∈ locks ∧ r.isOpen = true ∧ r.ownerId = operation.operationId := by
  unfold Observation.boundLocks at h
  split at h
  · cases h
  unfold exactTargetLocks at h
  split at h
  · split at h
    · cases h
    split at h
    · cases h
    · exact exactHostLock_mem (Option.mem_toList.mp h)
  split at h
  · cases h
  dsimp only at h
  split at h
  · cases h
  cases hm : (((lockReferences operation.operationType operation.targetId operation.details
      (o.effectiveDetails row)).mergeSort fun a b => decide (a.vmid ≤ b.vmid)).mapM
      (exactVmLock operation (Dict.text rt.repr (o.effectiveDetails row) "cluster_id") locks)) with
  | none =>
      rw [hm] at h
      cases h
  | some rows =>
      rw [hm, Option.getD_some] at h
      obtain ⟨reference, -, href⟩ := exists_of_mem_mapM hm h
      obtain ⟨hget, howner, -, -, -, hopen, -⟩ := exactVmLock_eq_some.mp href
      exact ⟨Table.mem_of_get hget, hopen, howner⟩

end Gjallar.RecoveryStore

import Gjallar.Coordination
import Gjallar.OperationLedger

/-!
# The repository calls, statement by statement

Appends and closures of an operation, claims, heartbeats and commits of its recovery item, and the
acquisition and release of target locks, as programs over the statements that the repositories issue
in their transactions.
-/
namespace Gjallar.Coordination

open Gjallar.Text Gjallar.Data Gjallar.Operation Gjallar.Admission Gjallar.OperationStore
  Gjallar.OperationLedger Gjallar.TargetLocks Gjallar.RecoveryStore Gjallar.Redaction
  Gjallar.ReadCommitted Gjallar.Sessions Gjallar.Processes Gjallar.Processes.Fallible

variable {Q : Type}

theorem isLowerHex_of_mem_nil : ∀ c ∈ ([] : Str), isLowerHex c = true :=
  fun _ hc => absurd hc List.not_mem_nil

/-- A draw of which only the time is used. -/
def drawnAt (time : Instant) : Draw := ⟨time, time, fun _ => ⟨[], isLowerHex_of_mem_nil⟩⟩

/-! ### Reading and locking rows -/

/-- `select(OperationRecord) … with_for_update()`. -/
def lockOperation (t : ℕ) (operationId : Str) : Prog Q (Option OperationRecord) := do
  let row ← Call.lock t (.operation operationId)
  return row.bind Row.asOperation

/-- `select(OperationRecoveryItemRecord) … with_for_update()`. -/
def lockRecovery (t : ℕ) (operationId : Str) : Prog Q (Option RecoveryRecord) := do
  let row ← Call.lock t (.recovery operationId)
  return row.bind Row.asRecovery

/-- `select(OperationLockRecord) … with_for_update()`, by the identifier alone. -/
def lockTargetLock (t : ℕ) (lockId : Str) : Prog Q (Option OperationLockRecord) := do
  let row ← Call.lock t (.lock lockId)
  return row.bind Row.asLock

/-- `session.get(OperationRecoveryItemRecord, operation_id)`. -/
def getRecovery (t : ℕ) (operationId : Str) : Prog Q (Option RecoveryRecord) := do
  let row ← Call.get t (.recovery operationId)
  return row.bind Row.asRecovery

def getTargetLock (t : ℕ) (lockId : Str) : Prog Q (Option OperationLockRecord) := do
  let row ← Call.get t (.lock lockId)
  return row.bind Row.asLock

/-- `select(OperationLockRecord).where(…).with_for_update()`: the row that is found waits for its
lock, and the condition is checked again on the version that is locked. -/
def lockWhere (t : ℕ) (lockId : Str) (p : OperationLockRecord → Bool) :
    Prog Q (Option OperationLockRecord) := do
  match (← getTargetLock t lockId).filter p with
  | none => return none
  | some _ => return (← lockTargetLock t lockId).filter p

/-! ### Appending an event -/

/-- `append_in_session`. -/
def appendInSession (rt : Runtime) (t : ℕ) (operationId : Str) (a : Append) :
    Prog Q OperationSnapshot := do
  lift (raiseIf ((strip a.eventType).isEmpty = true ∨ (strip a.stage).isEmpty = true)
    (.valueError "Operation event_type and stage are required"))
  match ← lockOperation t operationId with
  | none => throw (.raised (.operationNotFound operationId))
  | some row =>
      lift (raiseIf (∃ expected ∈ a.expectedStatuses, row.status ∉ expected)
        (.operationStateConflict operationId row.status))
      lift (ensureNext row.status a.nextStatus)
      let createdAt ← now
      let id ← draw
      let drawn : Draw := ⟨createdAt, createdAt, fun _ => id⟩
      add t (.event (appendedEvent rt drawn row a))
      flush t (.operation (applyProjection rt drawn row a))
      return applyProjection rt drawn row a

/-- `_append`. -/
def append (rt : Runtime) (operationId : Str) (a : Append) : Prog Q OperationSnapshot := do
  lift (raiseIf ((strip a.eventType).isEmpty = true ∨ (strip a.stage).isEmpty = true)
    (.valueError "Operation event_type and stage are required"))
  sessionScope (appendInSession rt · operationId a)

/-- `transition_for_target_lock_conflict`. -/
def transitionForTargetLockConflict (rt : Runtime)
    (operationId conflictingLockId conflictingOwnerId : Str) (next : OperationStatus) (a : Append)
    (t : ℕ) : Prog Q OperationSnapshot := do
  match ← lockOperation t operationId with
  | none => throw (.raised (.operationNotFound operationId))
  | some operation =>
      if operation.status ≠ .planned then return operation
      else
        match ← lockTargetLock t conflictingLockId with
        | none => return operation
        | some lock =>
            if lock.ownerId = conflictingOwnerId ∧ lock.ownerId ≠ operationId ∧
                locksTarget operation lock then
              appendInSession rt t operationId
                { a with nextStatus := some next, actor := none,
                         expectedStatuses := some [.planned] }
            else return operation

/-- `transition_pre_dispatch_failure`: whether the caller may release its lock. -/
def transitionPreDispatchFailure (rt : Runtime) (operationId targetLockId : Str) (a : Append)
    (t : ℕ) : Prog Q Bool := do
  match ← lockOperation t operationId with
  | none => throw (.raised (.operationNotFound operationId))
  | some operation =>
      if operation.status ≠ .planned then return false
      else if (← getRecovery t operationId).isSome then return false
      else
        match ← lockTargetLock t targetLockId with
        | none => return false
        | some lock =>
            if lock.ownerId = operationId ∧ locksTarget operation lock then
              let _ ← appendInSession rt t operationId
                { a with nextStatus := some .failed, actor := none,
                         expectedStatuses := some [.planned] }
              return true
            else return false

/-! ### Claiming recovery items -/

/-- `_assert_operation_identity`. -/
def assertOperationIdentity (t : ℕ) (operationId : Str) (version : Option ℕ)
    (checksum : Option Str) : Prog Q Unit := do
  match ← lockOperation t operationId with
  | none => throw (.raised (.recoveryOperationConflict operationId))
  | some operation =>
      lift (raiseIf ((∃ v ∈ version, operation.version ≠ v) ∨
        ∃ c ∈ checksum, operation.lastEventChecksum ≠ c) (.recoveryOperationConflict operationId))

/-- An item that `prepare_and_claim` takes over. -/
def takenOver (drawn : Draw) (spec : RecoverySpec) (owner : Str) (leaseTime : Instant)
    (row : RecoveryRecord) : RecoveryRecord :=
  { claimed owner (leaseToken drawn 0) drawn.now (leaseExpiry drawn.now leaseTime) row with
    availableAt := drawn.now
    details := Dict.merge row.details (sanitized spec.details) }

/-- A missing item cannot be locked, so it is looked for again under the lock of its operation. -/
def lockRecoveryAgain (t : ℕ) (operationId : Str) :
    Option RecoveryRecord → Prog Q (Option RecoveryRecord)
  | some row => pure (some row)
  | none => lockRecovery t operationId

/-- The transaction of `prepare_and_claim`. -/
def prepareInSession (drawn : Draw) (spec : RecoverySpec) (owner : Str) (leaseTime : Instant)
    (version : Option ℕ) (checksum : Option Str) (t : ℕ) : Prog Q RecoveryLease := do
  let first ← lockRecovery t spec.operationId
  assertOperationIdentity t spec.operationId version checksum
  match ← lockRecoveryAgain t spec.operationId first with
  | none =>
      add t (.recovery (firstLease drawn spec owner leaseTime))
      return leaseOf (firstLease drawn spec owner leaseTime) (leaseToken drawn 0)
  | some row =>
      lift (raiseIf (row.recoveryKind ≠ spec.recoveryKind)
        (.valueError (("Recovery kind conflicts for operation " : Str) ++ spec.operationId)))
      lift (raiseIf (isLive row drawn.now = true) (.recoveryLeaseBusy spec.operationId))
      lift (raiseIf (row.status = .completed) (.recoveryLeaseBusy spec.operationId))
      flush t (.recovery (takenOver drawn spec owner leaseTime row))
      return leaseOf (takenOver drawn spec owner leaseTime row) (leaseToken drawn 0)

/-- `prepare_and_claim`. -/
def prepareAndClaim (spec : RecoverySpec) (leaseOwner : Str) (leaseTime : Instant)
    (version : Option ℕ) (checksum : Option Str) : Prog Q RecoveryLease := do
  lift (raiseIf ((strip leaseOwner).isEmpty = true)
    (.valueError "Recovery lease_owner is required"))
  let time ← now
  let id ← draw
  sessionScope (prepareInSession ⟨time, time, fun _ => id⟩ spec (strip leaseOwner) leaseTime version
    checksum)

/-- The row that `claim_operation` leaves. -/
def reclaimed (drawn : Draw) (owner : Str) (leaseTime : Instant) (row : RecoveryRecord) :
    RecoveryRecord :=
  { claimed owner (leaseToken drawn 0) drawn.now (leaseExpiry drawn.now leaseTime) row with
    availableAt := drawn.now }

/-- The transaction of `claim_operation`. -/
def claimInSession (drawn : Draw) (id owner : Str) (leaseTime : Instant) (version : Option ℕ)
    (checksum : Option Str) (t : ℕ) : Prog Q RecoveryLease := do
  match ← lockRecovery t id with
  | none => throw (.raised (.recoveryNotFound id))
  | some row =>
      assertOperationIdentity t id version checksum
      lift (raiseIf (isLive row drawn.now = true ∨ row.status = .completed) (.recoveryLeaseBusy id))
      flush t (.recovery (reclaimed drawn owner leaseTime row))
      return leaseOf (reclaimed drawn owner leaseTime row) (leaseToken drawn 0)

/-- `claim_operation`. -/
def claimOperation (operationId leaseOwner : Str) (leaseTime : Instant) (version : Option ℕ)
    (checksum : Option Str) : Prog Q RecoveryLease := do
  lift (raiseIf ((strip leaseOwner).isEmpty = true)
    (.valueError "Recovery lease_owner is required"))
  lift (raiseIf ((strip operationId).isEmpty = true)
    (.valueError "Recovery operation_id is required"))
  let time ← now
  let id ← draw
  sessionScope (claimInSession ⟨time, time, fun _ => id⟩ (strip operationId) (strip leaseOwner)
    leaseTime version checksum)

/-- Lock due items in order, as many as asked for; items that are locked are skipped. -/
def lockDue (t : ℕ) (time : Instant) : ℕ → List RecoveryRecord → Prog Q (List RecoveryRecord)
  | _, [] => pure []
  | 0, _ :: _ => pure []
  | n + 1, row :: rows => do
      match ((← Call.tryLock t (.recovery row.operationId)).bind Row.asRecovery).filter
          (isDue time) with
      | some row => return row :: (← lockDue t time n rows)
      | none => lockDue t time (n + 1) rows

/-- Claim the items one after the other, each with a token of its own. -/
def claimEach (t : ℕ) (time : Instant) (owner : Str) (expiresAt : Instant) :
    List RecoveryRecord → Prog Q (List RecoveryLease)
  | [] => pure []
  | row :: rows => do
      let id ← draw
      let token := ("recovery-lease-" : Str) ++ id.digits
      flush t (.recovery (claimed owner token time expiresAt row))
      return leaseOf (claimed owner token time expiresAt row) token ::
        (← claimEach t time owner expiresAt rows)

/-- The transaction of `claim_due`. -/
def claimDueInSession (time : Instant) (owner : Str) (leaseTime : Instant) (limit : ℤ) (t : ℕ) :
    Prog Q (List RecoveryLease) := do
  let rows ← Call.select t fun row => row.asRecovery.any (isDue time)
  let due := (rows.filterMap Row.asRecovery).mergeSort dueBefore
  let locked ← lockDue t time (max 1 (min limit 10)).toNat due
  claimEach t time owner (leaseExpiry time leaseTime) locked

/-- `claim_due`. -/
def claimDue (leaseOwner : Str) (leaseTime : Instant) (limit : ℤ) :
    Prog Q (List RecoveryLease) := do
  lift (raiseIf ((strip leaseOwner).isEmpty = true)
    (.valueError "Recovery lease_owner is required"))
  let time ← now
  sessionScope (claimDueInSession time (strip leaseOwner) leaseTime limit)

/-! ### Working under a lease -/

/-- `_locked_owned_row`. -/
def lockedOwnedRow (t : ℕ) (lease : RecoveryLease) (time : Instant) : Prog Q RecoveryRecord := do
  match (← lockRecovery t lease.operationId).filter (ownsRow lease time) with
  | some row => return row
  | none => throw (.raised (.recoveryLeaseLost lease.operationId))

/-- The row that `heartbeat` leaves. -/
def prolonged (time leaseTime : Instant) (row : RecoveryRecord) : RecoveryRecord :=
  { row with leaseExpiresAt := some (leaseExpiry time leaseTime), updatedAt := time }

/-- The transaction of `heartbeat`. -/
def heartbeatInSession (time : Instant) (lease : RecoveryLease) (leaseTime : Instant) (t : ℕ) :
    Prog Q RecoveryLease := do
  let row ← lockedOwnedRow t lease time
  flush t (.recovery (prolonged time leaseTime row))
  return leaseOf (prolonged time leaseTime row) lease.token

/-- `heartbeat`. -/
def heartbeat (lease : RecoveryLease) (leaseTime : Instant) : Prog Q RecoveryLease := do
  let time ← now
  sessionScope (heartbeatInSession time lease leaseTime)

/-- The condition of the query behind a VM target lock. -/
def isReferenced (operation : OperationRecord) (clusterId : Str) (reference : LockReference)
    (r : OperationLockRecord) : Bool :=
  r.ownerId = operation.operationId && r.operationType = operation.operationType &&
    r.scopeType = .proxmoxLocator && r.vmid = some reference.vmid && r.isOpen &&
    r.clusterId = clusterId

/-- The locks of all references, unless one is missing. -/
def lockEach (t : ℕ) (operation : OperationRecord) (clusterId : Str) :
    List LockReference → Prog Q (Option (List OperationLockRecord))
  | [] => pure (some [])
  | reference :: references => do
      match ← lockWhere t reference.lockId (isReferenced operation clusterId reference) with
      | none => return none
      | some row => return (← lockEach t operation clusterId references).map (row :: ·)

/-- The condition of the query behind a host configuration lock. -/
def isBound (operation : OperationRecord) (binding : Dict) (r : OperationLockRecord) : Bool :=
  r.ownerId = operation.operationId && r.operationType = operation.operationType &&
    r.scopeType = .proxmoxConfiguration &&
    (Dict.getD binding "scope_key" .null).eqv (.str r.scopeKey) &&
    (Dict.getD binding "cluster_id" .null).eqv (.str r.clusterId) && r.vmid = none && r.isOpen

/-- The evidence that a host configuration lock has to carry. -/
def isEvident (operation : OperationRecord) (binding : Dict) (r : OperationLockRecord) : Bool :=
  (Dict.getD r.evidence "operation_id" .null).eqv (.str operation.operationId) &&
    (Dict.getD r.evidence "target_type" .null).eqv (.str operation.targetType) &&
    (Dict.getD r.evidence "target_id" .null).eqv (.str operation.targetId) &&
    (Dict.getD r.evidence "target" .null).eqv (Dict.getD binding "target" .null)

def lockHost (t : ℕ) (operation : OperationRecord) (binding : Dict) :
    Prog Q (Option OperationLockRecord) := do
  match Dict.getD binding "target_lock_id" .null with
  | .str id =>
      return (← lockWhere t id (isBound operation binding)).filter (isEvident operation binding)
  | _ => return none

/-- `_exact_target_locks`. -/
def exactTargetLocks (rt : Runtime) (t : ℕ) (operation : OperationRecord) (recoveryDetails : Dict) :
    Prog Q (List OperationLockRecord) :=
  if isHostOperation operation.operationType then
    match lockBinding rt operation.operationType operation.targetType operation.targetId
        operation.details recoveryDetails with
    | none => pure []
    | some binding =>
        if operation.executionMode ≠ .managedApi then pure []
        else do return (← lockHost t operation binding).toList
  else if operation.targetType ≠ "proxmox_vm" then pure []
  else
    let references := lockReferences operation.operationType operation.targetId operation.details
      recoveryDetails
    let clusterId := Dict.text rt.repr recoveryDetails "cluster_id"
    if references = [] ∨ clusterId = [] then pure []
    else do
      return (← lockEach t operation clusterId
        (references.mergeSort fun a b => decide (a.vmid ≤ b.vmid))).getD []

/-- `session.flush` of the locks that were changed. -/
def flushLocks (t : ℕ) : List OperationLockRecord → Prog Q Unit
  | [] => pure ()
  | lock :: locks => do
      flush t (.lock lock)
      flushLocks t locks

/-- The locks of a commit: a host configuration change under another recovery kind has none. -/
def keptLocks (row : RecoveryRecord) (operation : OperationRecord)
    (locks : List OperationLockRecord) : List OperationLockRecord :=
  if isHostOperation operation.operationType ∧
      row.recoveryKind ≠ operation.operationType.name ++ ("_observation" : Str) then []
  else locks

/-- The transaction of `commit_observation`. -/
def commitInSession (rt : Runtime) (time : Instant) (lease : RecoveryLease) (o : Observation)
    (status : RecoveryStatus) (t : ℕ) : Prog Q (OperationSnapshot × RecoveryItem) := do
  let row ← lockedOwnedRow t lease time
  match ← lockOperation t lease.operationId with
  | none => throw (.raised (.recoveryOperationConflict lease.operationId))
  | some operation =>
      lift (o.checkOperation lease operation)
      let found ← exactTargetLocks rt t operation (o.effectiveDetails row)
      let locks := keptLocks row operation found
      lift (o.checkLocks rt lease row operation locks)
      let projected ← jobs
      let (projection, _) ← lift (o.project projected)
      lift (o.checkHostBinding lease row operation projection)
      let operation' ← appendInSession rt t lease.operationId (o.append projection)
      flush t (.recovery (o.recoveryRow (drawnAt time) status row projection))
      flushLocks t (o.lockUpdates (drawnAt time) lease locks)
      return (operation', itemOf (o.recoveryRow (drawnAt time) status row projection))

/-- `commit_observation`. -/
def commitObservation (rt : Runtime) (lease : RecoveryLease) (o : Observation) :
    Prog Q (OperationSnapshot × RecoveryItem) := do
  let status ← lift (orRaise (RecoveryStatus.ofName o.recoveryStatus)
    (.valueError (("Unsupported post-observation recovery status: " : Str) ++ o.recoveryStatus)))
  let time ← now
  sessionScope (commitInSession rt time lease o status)

/-! ### Target locks -/

/-- `current`: the unique index leaves at most one open lock of a scope. -/
def current (clusterId : Str) (vmid : ℤ) (t : ℕ) : Prog Q (Option OperationLockRecord) := do
  let rows ← Call.select t fun row =>
    row.asLock.any (holdsLocator (locatorScopeKey clusterId vmid))
  return rows.head?.bind Row.asLock

/-- The transaction of `acquire`. -/
def insertLock (a : Acquisition) (row : OperationLockRecord) (t : ℕ) :
    Prog Q DurableTargetLock := do
  let (process, registered) ← connections
  lift (a.admission process registered)
  let rows ← Call.select t fun row => row.asLock.any (holdsConfiguration a.cluster)
  match rows.head?.bind Row.asLock with
  | some host => throw (.raised (a.busy
      [("reason", .str "HOST_CONFIGURATION_IN_PROGRESS"), ("owner_id", .str host.ownerId)]))
  | none =>
      add t (.lock row)
      return durableLock row

/-- `acquire`. -/
def acquire (rt : Runtime) (a : Acquisition) : Prog Q DurableTargetLock := do
  lift (raiseIf (isTargetOperation a.operationType = false)
    (.valueError (("Unsupported target lock operation type: " : Str) ++ a.operationType.name)))
  lift (raiseIf ((strip a.ownerId).isEmpty = true)
    (.valueError "Durable target lock owner_id is required"))
  match ← sessionScope (current a.cluster a.vmid) with
  | some existing => throw (.raised (a.busy ((durableLock existing).toDict rt)))
  | none =>
      let time ← now
      let id ← draw
      match ← attempt (sessionScope (insertLock a (a.row ⟨time, time, fun _ => id⟩))) with
      | .ok lock => return lock
      | .error (.raised .integrityError) =>
          let existing ← sessionScope (current a.cluster a.vmid)
          throw (.raised (a.busy ((existing.map fun r => (durableLock r).toDict rt).getD [])))
      | .error e => throw e

/-- The transaction of `ConfigurationLockRepository.acquire`. -/
def insertHostLock (a : HostAcquisition) (targetType targetId scopeKey : Str) (t : ℕ) :
    Prog Q OperationLockRecord := do
  let (process, registered) ← connections
  lift (a.admission process registered scopeKey)
  let rows ← Call.select t fun row => row.asLock.any fun r => r.clusterId = a.cluster && r.isOpen
  match ((rows.filterMap Row.asLock).mergeSort
      fun r s => textLe r.operationLockId s.operationLockId).head? with
  | some existing => throw (.raised (.durableTargetLockBusy scopeKey
      [("reason", .str "HOST_CONFIGURATION_TARGET_BUSY"), ("owner_id", .str existing.ownerId),
        ("scope_type", .str existing.scopeType.name)]))
  | none =>
      let time ← now
      let id ← draw
      let row := a.row ⟨time, time, fun _ => id⟩ targetType targetId scopeKey
      if ← Call.insert t (.lock row) then return row
      else throw (.raised (.durableTargetLockBusy scopeKey
        [("reason", .str "HOST_CONFIGURATION_TARGET_BUSY")]))

/-- `ConfigurationLockRepository.acquire`. -/
def acquireHost (rt : Runtime) (a : HostAcquisition) : Prog Q OperationLockRecord := do
  let (targetType, targetId, scopeKey) ← lift (a.checked rt)
  sessionScope (insertHostLock a targetType targetId scopeKey)

/-- The transaction of `release`. -/
def releaseInSession (time : Instant) (lock : DurableTargetLock) (reason : Str) (t : ℕ) :
    Prog Q Bool := do
  match ← lockTargetLock t lock.lockId with
  | none => return false
  | some r =>
      if r.isOpen = false ∨ r.ownerId ≠ lock.ownerId ∨ r.scopeKey ≠ lock.scopeKey then return false
      else
        flush t (.lock (released (drawnAt time) reason r))
        return true

/-- `release`. -/
def release (lock : DurableTargetLock) (reason : Str) : Prog Q Bool := do
  let time ← now
  sessionScope (releaseInSession time lock reason)

/-- The condition of the query of `release_owned`. -/
def isOwned (scopeKey ownerId : Str) (r : OperationLockRecord) : Bool :=
  holdsLocator scopeKey r && r.ownerId = ownerId

/-- The transaction of `release_owned`: the unique index leaves at most one row. -/
def releaseOwnedInSession (time : Instant) (scopeKey ownerId reason : Str) (t : ℕ) :
    Prog Q Bool := do
  let rows ← Call.select t fun row => row.asLock.any (isOwned scopeKey ownerId)
  match rows.head?.bind Row.asLock with
  | none => return false
  | some found =>
      match (← lockTargetLock t found.operationLockId).filter (isOwned scopeKey ownerId) with
      | none => return false
      | some r =>
          flush t (.lock (released (drawnAt time) reason r))
          return true

/-- `release_owned`. -/
def releaseOwned (clusterId : Str) (vmid : ℤ) (ownerId reason : Str) : Prog Q Bool := do
  let time ← now
  sessionScope (releaseOwnedInSession time (locatorScopeKey clusterId vmid) ownerId reason)

/-! ### Calls -/

/-- A call that locks every row it relies on. -/
inductive LockedCall where
  | append (operationId : Str) (a : Append)
  | targetLockConflict (operationId conflictingLockId conflictingOwnerId : Str)
      (next : OperationStatus) (a : Append)
  | preDispatchFailure (operationId targetLockId : Str) (a : Append)
  | prepareAndClaim (spec : RecoverySpec) (leaseOwner : Str) (leaseTime : Instant)
      (version : Option ℕ) (checksum : Option Str)
  | claimOperation (operationId leaseOwner : Str) (leaseTime : Instant) (version : Option ℕ)
      (checksum : Option Str)
  | heartbeat (lease : RecoveryLease) (leaseTime : Instant)
  | commitObservation (lease : RecoveryLease) (o : Observation)
  | release (lock : DurableTargetLock) (reason : Str)

/-- A call of a repository with its arguments. -/
inductive Request where
  | locked (q : LockedCall)
  | create (spec : OperationSpec) (eventPayload : Dict)
  | claimDue (leaseOwner : Str) (leaseTime : Instant) (limit : ℤ)
  | acquire (a : Acquisition)
  | acquireHost (a : HostAcquisition)
  | releaseOwned (clusterId : Str) (vmid : ℤ) (ownerId reason : Str)

inductive Response where
  | operation (snapshot : OperationSnapshot)
  | created (snapshot : OperationSnapshot) (new : Bool)
  | flag (b : Bool)
  | lease (lease : RecoveryLease)
  | leases (leases : List RecoveryLease)
  | observed (snapshot : OperationSnapshot) (item : RecoveryItem)
  | locked (lock : DurableTargetLock)
  | hostLocked (row : OperationLockRecord)

def lockedProgram (rt : Runtime) : LockedCall → Prog Q Response
  | .append operationId a => do return .operation (← append rt operationId a)
  | .targetLockConflict operationId lockId ownerId next a => do
      return .operation (← sessionScope
        (transitionForTargetLockConflict rt operationId lockId ownerId next a))
  | .preDispatchFailure operationId lockId a => do
      return .flag (← sessionScope (transitionPreDispatchFailure rt operationId lockId a))
  | .prepareAndClaim spec leaseOwner leaseTime version checksum => do
      return .lease (← prepareAndClaim spec leaseOwner leaseTime version checksum)
  | .claimOperation operationId leaseOwner leaseTime version checksum => do
      return .lease (← claimOperation operationId leaseOwner leaseTime version checksum)
  | .heartbeat lease leaseTime => do return .lease (← heartbeat lease leaseTime)
  | .commitObservation lease o => do
      let (snapshot, item) ← commitObservation rt lease o
      return .observed snapshot item
  | .release lock reason => do return .flag (← release lock reason)

def programOf (rt : Runtime) : Request → Prog Q Response
  | .locked q => lockedProgram rt q
  | .create spec eventPayload => do
      let (snapshot, new) ← createOperation rt spec eventPayload
      return .created snapshot new
  | .claimDue leaseOwner leaseTime limit => do
      return .leases (← claimDue leaseOwner leaseTime limit)
  | .acquire a => do return .locked (← acquire rt a)
  | .acquireHost a => do return .hostLocked (← acquireHost rt a)
  | .releaseOwned clusterId vmid ownerId reason => do
      return .flag (← releaseOwned clusterId vmid ownerId reason)

/-- A call from the receipt of its arguments. -/
def call (rt : Runtime) (q : Request) : Prog Request Response := do
  receive q
  programOf rt q

/-- Any number of calls, interleaved statement by statement. -/
def system (rt : Runtime) : System (Command Row Key (Outer Request))
    (fun c => Except Fault (Reply Outer.Answer c)) (Except Fault Response) World :=
  schema.system (surroundings Request) fun p => ∃ q, p = (call rt q).run

end Gjallar.Coordination

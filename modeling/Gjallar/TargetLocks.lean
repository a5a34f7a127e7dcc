import Gjallar.OperationStore

/-!
# Target locks

The locks that keep two operations off one VM, and host configuration changes off a whole
cluster: their scope keys, their acquisition under the admission gate, their release, and the
references by which an operation is bound to the locks it holds.
-/
namespace Gjallar.TargetLocks

open Gjallar.Text Gjallar.Data Gjallar.Tables Gjallar.Operation Gjallar.Admission
  Gjallar.OperationStore Gjallar.Regex Gjallar.Regex.Pattern

def defaultCluster : Str := "gjallar-mvp"

/-- `s or "gjallar-mvp"`. -/
def orDefaultCluster (s : Str) : Str := if s.isEmpty then defaultCluster else s

/-- `locator_scope_key`. -/
def locatorScopeKey (clusterId : Str) (vmid : ℤ) : Str :=
  orDefaultCluster (replaceChar '|' '-' (strip clusterId)) ++
    ("|proxmox_locator|" : Str) ++ ofInt vmid

/-- `SUPPORTED_TARGET_OPERATION_TYPES`. -/
def isTargetOperation : OperationType → Bool
  | .hostStorage | .hostNetwork | .other _ => false
  | _ => true

/-- `HOST_OPERATION_TYPES`. -/
def isHostOperation : OperationType → Bool
  | .hostStorage | .hostNetwork => true
  | _ => false

structure DurableTargetLock where
  lockId : Str
  operationType : OperationType
  clusterId : Str
  vmid : ℤ
  ownerId : Str
  scopeKey : Str
  status : LockStatus
  createdAt : Instant
  deriving DecidableEq

/-- `_lock`. -/
def durableLock (r : OperationLockRecord) : DurableTargetLock :=
  ⟨r.operationLockId, r.operationType, r.clusterId, r.vmid.getD 0, r.ownerId, r.scopeKey,
    r.status, r.createdAt⟩

/-- `DurableTargetLock.to_dict`. -/
def DurableTargetLock.toDict (rt : Runtime) (lock : DurableTargetLock) : Dict :=
  [("operation_lock_id", .str lock.lockId), ("operation_type", .str lock.operationType.name),
    ("scope_type", .str "proxmox_locator"), ("scope_key", .str lock.scopeKey),
    ("status", .str lock.status.name), ("cluster_id", .str lock.clusterId),
    ("vmid", .int lock.vmid), ("owner_id", .str lock.ownerId),
    ("created_at", .str (rt.isoformat lock.createdAt))]

/-! ### VM locks -/

/-- Is this an open VM lock on a scope key? -/
def holdsLocator (scopeKey : Str) (r : OperationLockRecord) : Bool :=
  r.scopeType = .proxmoxLocator && r.scopeKey = scopeKey && r.isOpen

/-- `current`. -/
def current (clusterId : Str) (vmid : ℤ) (locks : LockTable) : Option OperationLockRecord :=
  locks.rows.find? (holdsLocator (locatorScopeKey clusterId vmid))

/-- Is this an open host configuration lock of a cluster? -/
def holdsConfiguration (clusterId : Str) (r : OperationLockRecord) : Bool :=
  r.clusterId = clusterId && r.scopeType = .proxmoxConfiguration && r.isOpen

/-- The arguments of a VM lock acquisition. -/
structure Acquisition where
  operationType : OperationType
  clusterId : Str
  vmid : ℤ
  ownerId : Str
  reason : Str

namespace Acquisition

def cluster (a : Acquisition) : Str := orDefaultCluster (strip a.clusterId)

def scopeKey (a : Acquisition) : Str := locatorScopeKey a.cluster a.vmid

def targetId (a : Acquisition) : Str := ("vmid:" : Str) ++ ofInt a.vmid

/-- The row to insert. -/
def row (a : Acquisition) (draw : Draw) : OperationLockRecord :=
  { operationLockId := ("operation-lock-" : Str) ++ (draw.uuid 0).digits,
    operationType := a.operationType, scopeType := .proxmoxLocator, scopeKey := a.scopeKey,
    status := .active, clusterId := a.cluster, vmid := some a.vmid, ownerId := strip a.ownerId,
    reason := if (strip a.reason).isEmpty then a.operationType.name ++ ("_target_lock" : Str)
      else strip a.reason,
    evidence := [("operation_id", .str (strip a.ownerId)), ("target_type", .str "proxmox_vm"),
      ("target_id", .str a.targetId)],
    createdAt := draw.now, updatedAt := draw.now, releasedAt := none }

def busy (a : Acquisition) (existing : Dict) : StoreError :=
  .durableTargetLockBusy a.scopeKey existing

/-- The argument checks and the first look at the current lock. -/
def precheck (rt : Runtime) (a : Acquisition) (locks : LockTable) : Except StoreError Unit := do
  raiseIf (isTargetOperation a.operationType = false)
    (.valueError (("Unsupported target lock operation type: " : Str) ++ a.operationType.name))
  raiseIf ((strip a.ownerId).isEmpty = true)
    (.valueError "Durable target lock owner_id is required")
  match current a.cluster a.vmid locks with
  | some existing => .error (a.busy ((durableLock existing).toDict rt))
  | none => .ok ()

/-- Admission by the connection, under the connection lock. -/
def admission (process : Process) (connections : Connections) (a : Acquisition) :
    Except StoreError Unit :=
  match admitMutation process connections a.cluster a.vmid a.operationType with
  | .ok _ => .ok ()
  | .error e => .error (a.busy [("reason", .str e.code)])

/-- The check for a host configuration change in the cluster. -/
def hostCheck (a : Acquisition) (locks : LockTable) : Except StoreError Unit :=
  match locks.rows.find? (holdsConfiguration a.cluster) with
  | some host => .error (a.busy
      [("reason", .str "HOST_CONFIGURATION_IN_PROGRESS"), ("owner_id", .str host.ownerId)])
  | none => .ok ()

/-- The insertion; the unique index turns a duplicate into a busy lock. -/
def insert (rt : Runtime) (draw : Draw) (a : Acquisition) (locks : LockTable) :
    Except StoreError (DurableTargetLock × LockTable) :=
  match locks.insert (a.row draw) with
  | some locks' => .ok (durableLock (a.row draw), locks')
  | none => .error (a.busy
      (((current a.cluster a.vmid locks).map fun r => (durableLock r).toDict rt).getD []))

end Acquisition

/-- `acquire`, in one transaction. -/
def acquire (rt : Runtime) (process : Process) (draw : Draw) (a : Acquisition) (db : Db) :
    Except StoreError (DurableTargetLock × Db) := do
  a.precheck rt db.locks
  a.admission process db.connections
  a.hostCheck db.locks
  let (lock, locks) ← a.insert rt draw db.locks
  return (lock, { db with locks := locks })

/-- The closed form of a lock row. -/
def released (draw : Draw) (reason : Str) (r : OperationLockRecord) : OperationLockRecord :=
  { r with
    status := .released
    reason := if (strip reason).isEmpty then "verified_operation_completed" else strip reason
    releasedAt := some draw.now
    updatedAt := draw.now }

/-- `release`. -/
def release (draw : Draw) (lock : DurableTargetLock) (reason : Str) (db : Db) :
    Except StoreError (Bool × Db) :=
  match db.locks.get lock.lockId with
  | none => .ok (false, db)
  | some r =>
      if r.isOpen = false ∨ r.ownerId ≠ lock.ownerId ∨ r.scopeKey ≠ lock.scopeKey then
        .ok (false, db)
      else do
        let locks ← orRaise (db.locks.put (released draw reason r)) .integrityError
        return (true, { db with locks := locks })

/-- `release_owned`. -/
def releaseOwned (draw : Draw) (clusterId : Str) (vmid : ℤ) (ownerId reason : Str) (db : Db) :
    Except StoreError (Bool × Db) :=
  match db.locks.rows.find? fun r =>
      holdsLocator (locatorScopeKey clusterId vmid) r && r.ownerId = ownerId with
  | none => .ok (false, db)
  | some r => do
      let locks ← orRaise (db.locks.put (released draw reason r)) .integrityError
      return (true, { db with locks := locks })

/-! ### Host configuration locks -/

/-- `configuration_scope_key`. -/
def configurationScopeKey (rt : Runtime) (clusterId : Str) : Except StoreError Str :=
  let stripped := strip clusterId
  if stripped.isEmpty ∨ 120 < stripped.length then
    .error (.valueError "Host configuration cluster identity is required")
  else .ok (("proxmox_configuration:" : Str) ++ (rt.sha256 stripped).digits)

/-- The arguments of a host configuration lock acquisition. -/
structure HostAcquisition where
  operationType : OperationType
  clusterId : Str
  ownerId : Str
  target : Value

namespace HostAcquisition

def cluster (a : HostAcquisition) : Str := strip a.clusterId

/-- The checked arguments: target type, target id and scope key. -/
def checked (rt : Runtime) (a : HostAcquisition) : Except StoreError (Str × Str × Str) := do
  let (targetType, targetId) ← match targetIdentity a.operationType a.target with
    | .ok t => Except.ok t
    | .error message => .error (StoreError.valueError message)
  let scopeKey ← configurationScopeKey rt a.clusterId
  raiseIf ((strip a.ownerId).isEmpty = true) (.valueError "Host lock owner is required")
  return (targetType, targetId, scopeKey)

/-- The row to insert. -/
def row (a : HostAcquisition) (draw : Draw) (targetType targetId scopeKey : Str) :
    OperationLockRecord :=
  { operationLockId := ("configuration-lock-" : Str) ++ (draw.uuid 0).digits,
    operationType := a.operationType, scopeType := .proxmoxConfiguration, scopeKey := scopeKey,
    status := .active, clusterId := a.cluster, vmid := none, ownerId := strip a.ownerId,
    reason := "host_configuration_dispatch",
    evidence := [("operation_id", .str (strip a.ownerId)), ("target_type", .str targetType),
      ("target_id", .str targetId), ("target", a.target)],
    createdAt := draw.now, updatedAt := draw.now, releasedAt := none }

/-- Admission by the connection, under the connection lock. -/
def admission (process : Process) (connections : Connections) (a : HostAcquisition)
    (scopeKey : Str) :
    Except StoreError Unit :=
  match admitHostMutation process connections a.cluster a.operationType a.target with
  | .ok _ => .ok ()
  | .error e => .error (.durableTargetLockBusy scopeKey [("reason", .str e.code)])

/-- The open lock of the cluster with the least identifier. -/
def firstOpen (a : HostAcquisition) (locks : LockTable) : Option OperationLockRecord :=
  ((locks.rows.filter fun r => r.clusterId = a.cluster && r.isOpen).mergeSort
    fun r s => textLe r.operationLockId s.operationLockId).head?

/-- The check for any open lock in the cluster. -/
def clusterCheck (a : HostAcquisition) (scopeKey : Str) (locks : LockTable) :
    Except StoreError Unit :=
  match a.firstOpen locks with
  | some existing => .error (.durableTargetLockBusy scopeKey
      [("reason", .str "HOST_CONFIGURATION_TARGET_BUSY"), ("owner_id", .str existing.ownerId),
        ("scope_type", .str existing.scopeType.name)])
  | none => .ok ()

/-- The insertion; the unique index turns a duplicate into a busy lock. -/
def insert (draw : Draw) (a : HostAcquisition) (targetType targetId scopeKey : Str)
    (locks : LockTable) : Except StoreError (OperationLockRecord × LockTable) :=
  let row := a.row draw targetType targetId scopeKey
  match locks.insert row with
  | some locks' => .ok (row, locks')
  | none => .error (.durableTargetLockBusy scopeKey
      [("reason", .str "HOST_CONFIGURATION_TARGET_BUSY")])

end HostAcquisition

/-- `ConfigurationLockRepository.acquire`, in one transaction. -/
def acquireHost (rt : Runtime) (process : Process) (draw : Draw) (a : HostAcquisition) (db : Db) :
    Except StoreError (OperationLockRecord × Db) := do
  let (targetType, targetId, scopeKey) ← a.checked rt
  a.admission process db.connections scopeKey
  a.clusterCheck scopeKey db.locks
  let (row, locks) ← a.insert draw targetType targetId scopeKey db.locks
  return (row, { db with locks := locks })

/-! ### Lock references of an operation -/

/-- `expected_lock_count`. -/
def expectedLockCount (operationType : OperationType) : ℕ :=
  if operationType = .vmClone ∨ operationType = .vmRestore then 2 else 1

structure LockReference where
  lockId : Str
  vmid : ℤ
  deriving DecidableEq

/-- `vmid:([0-9]+)`. -/
def targetIdPattern : Pattern Char := seq (lit "vmid:") (group 1 (plus (one isAsciiDigit)))

/-- The VMID of a target id. -/
def targetVmid (targetId : Str) : Option ℤ := do
  let m ← targetIdPattern.fullmatch targetId
  let n ← toInt ((m.group 1).getD [])
  return (n : ℤ)

/-- `v.strip()` is not empty, for a text. -/
def isNonBlank (v : Value) : Bool :=
  match v with
  | .str s => !(strip s).isEmpty
  | _ => false

/-- The reference in the single entry of `related_target_locks`, when it is well formed and names
the source. -/
def relatedReference (lockId : Str) (primary : ℤ) (source : Option Value) (extra : Value) :
    Option LockReference :=
  match extra, source with
  | .list [.dict row], some (.dict source) =>
      match Dict.get row "vmid", Dict.get row "lock_id" with
      | some (.int vmid), some (.str id) =>
          if Dict.keysAre row ["lock_id", "vmid"] ∧ 100 ≤ vmid ∧ vmid ≤ 999999999 ∧
              (Dict.getD source "vmid" .null).eqv (.int vmid) = true ∧ vmid ≠ primary ∧
              (strip id).isEmpty = false ∧ id ≠ lockId then
            some ⟨id, vmid⟩
          else none
      | _, _ => none
  | _, _ => none

/-- `lock_references`. -/
def lockReferences (operationType : OperationType) (targetId : Str)
    (operationDetails recoveryDetails : Dict) : List LockReference :=
  match targetVmid targetId, Dict.get recoveryDetails "target_lock_id" with
  | some vmid, some (.str lockId) =>
      if (strip lockId).isEmpty then []
      else
        let primary : LockReference := ⟨lockId, vmid⟩
        let extra := Dict.getD recoveryDetails "related_target_locks" (.list [])
        if expectedLockCount operationType = 1 then
          if extra.truthy then [] else [primary]
        else if (Dict.getD operationDetails "target_lock_id" .null).eqv (.str lockId) = false ∨
            (Dict.getD operationDetails "related_target_locks" .null).eqv extra = false then []
        else
          match relatedReference lockId vmid (Dict.get operationDetails "source") extra with
          | some related => [primary, related]
          | none => []
  | _, _ => []

/-! ### Binding of host configuration locks -/

def hostBindingKeys : List Str :=
  ["target_lock_id", "cluster_id", "scope_key", "target_type", "target_id", "target",
    "operation_type", "execution_mode"]

/-- `HOST_BINDING_FIELDS`. -/
def hostBindingFields : List Str :=
  ("related_target_locks" : Str) :: ("vmid" : Str) :: hostBindingKeys

/-- `lock_binding` of a host configuration operation: the bound fields, when both ledgers agree on
them and they name the operation's own target. -/
def lockBinding (rt : Runtime) (operationType : OperationType) (targetType targetId : Str)
    (operationDetails recoveryDetails : Dict) : Option Dict :=
  let value := fun key => Dict.getD operationDetails key .null
  if isHostOperation operationType = false then none
  else if hostBindingKeys.any (fun key => Dict.has operationDetails key = false ∨
      (value key).eqv (Dict.getD recoveryDetails key .null) = false) then none
  else
    match targetIdentity operationType (value "target"), (value "cluster_id").asStr.map
        (configurationScopeKey rt) with
    | .ok exact, some (.ok scope) =>
        if isNonBlank (value "target_lock_id") = false ∨
            (value "scope_key").eqv (.str scope) = false ∨
            (value "target_type").eqv (.str targetType) = false ∨
            (value "target_id").eqv (.str targetId) = false ∨ exact ≠ (targetType, targetId) ∨
            (value "operation_type").eqv (.str operationType.name) = false ∨
            (value "execution_mode").eqv (.str "managed_api") = false ∨
            (Dict.getD operationDetails "related_target_locks" .null).truthy = true ∨
            (Dict.getD recoveryDetails "related_target_locks" .null).truthy = true ∨
            Dict.getD operationDetails "vmid" .null ≠ .null ∨
            Dict.getD recoveryDetails "vmid" .null ≠ .null then none
        else some (hostBindingKeys.map fun key => (key, value key))
    | _, _ => none

/-- `preserves_lock_binding`. -/
def preservesLockBinding (current patch : Dict) : Bool :=
  hostBindingFields.all fun key => !Dict.has patch key ||
    (Dict.getD patch key .null).eqv (Dict.getD current key .null)

end Gjallar.TargetLocks

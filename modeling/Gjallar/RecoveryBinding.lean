import Gjallar.RecoveryStore

/-!
# The binding of a recovery item

The evidence kept of a Proxmox task, and `_validate_recovery_binding`: the checks that a recovery
item names the operation it belongs to, its dispatched task and the locks it holds.
-/
namespace Gjallar.RecoveryBinding

open Gjallar.Text Gjallar.Data Gjallar.Operation Gjallar.OperationStore Gjallar.TargetLocks
  Gjallar.RecoveryStore Gjallar.Regex Gjallar.Regex.Pattern

/-! ### Task evidence -/

/-- `[A-Za-z0-9_.:@!+-]`. -/
def isUpidChar (c : Char) : Bool := alnumOr "_.:@!+-" c

/-- `_PROXMOX_UPID`. -/
def proxmoxUpid : Pattern Char :=
  seq (lit "UPID:") (seq (one isUpidChar) (upTo (one isUpidChar) 499))

def isUpid (s : Str) : Bool := (proxmoxUpid.fullmatch s).isSome

theorem isUpid_iff (s : Str) : isUpid s = true ↔ ∃ w, s = ("UPID:" : Str) ++ w ∧
    w ≠ [] ∧ w.length ≤ 500 ∧ ∀ c ∈ w, isUpidChar c = true := by
  simp only [isUpid, fullmatch_isSome_iff, proxmoxUpid, matches_seq, matches_lit, matches_one,
    matches_upTo_one]
  constructor
  · rintro ⟨_, _, _, _, _, rfl, -, ⟨rfl, -⟩, _, w, _, _, rfl, -, ⟨⟨c, hc, rfl⟩, -⟩, hlen, hw, -⟩
    refine ⟨[c] ++ w, rfl, by simp, by rw [List.length_append, List.length_singleton]; omega, ?_⟩
    simpa using ⟨hc, hw⟩
  · rintro ⟨w, rfl, hne, hlen, hw⟩
    obtain ⟨c, w, rfl⟩ := List.exists_cons_of_ne_nil hne
    rw [List.forall_mem_cons] at hw
    exact ⟨[], _, c :: w, [], [], rfl, rfl, ⟨rfl, rfl⟩, [c], w, [], [], rfl, rfl,
      ⟨⟨c, hw.1, rfl⟩, rfl⟩, by rw [List.length_cons] at hlen; omega, hw.2, rfl⟩

/-- The bounded evidence of a task. -/
structure TaskEvidence where
  node : Str
  upid : Str
  status : Str
  exitstatus : Str
  deriving DecidableEq

def TaskEvidence.toDict (t : TaskEvidence) : Dict :=
  [("node", .str t.node), ("upid", .str t.upid), ("status", .str t.status),
    ("exitstatus", .str t.exitstatus)]

/-- `str(a or b or "")` for a caller's text and an entry of the task. -/
def orEntry (repr : Value → Str) (a : Str) (task : Dict) (key : Str) : Str :=
  if a ≠ [] then a
  else match Dict.get task key with
    | some v => if v.truthy then v.toText repr else []
    | none => []

/-- `compact_proxmox_task`. -/
def compactProxmoxTask (repr : Value → Str) (task : Dict) (node upid : Str) : TaskEvidence :=
  let status := lower (Dict.text repr task "status")
  let rawExit := upperAscii (Dict.text repr task "exitstatus")
  let selected := strip (orEntry repr upid task "upid")
  { node := (orEntry repr node task "node").take 255
    upid := if isUpid selected then selected else []
    status := if status ∈ (["running", "stopped", "queued", "failed", "unknown"] : List Str)
      then status else if status = [] then [] else "unknown"
    exitstatus := if rawExit = "OK" then "OK"
      else if rawExit ∈ (["", "UNKNOWN"] : List Str) then rawExit else "ERROR" }

/-! ### The checks of the binding -/

/-- A lock as `get_target_operation_lock` returns it. -/
structure TargetLockHandle where
  lockId : Str
  ownerId : Str
  durable : DurableTargetLock
  deriving DecidableEq

/-- `get_target_operation_lock` for a VM target; `cluster` is the configured cluster. -/
def targetOperationLock (cluster : Str) (vmid : ℤ) (locks : LockTable) :
    Option TargetLockHandle :=
  (current cluster vmid locks).map fun r =>
    ⟨r.operationLockId, r.ownerId, durableLock r⟩

section

variable (rt : Runtime)

/-- `str(d.get(key) or default).strip()`. -/
def declared (d : Dict) (key default : Str) : Str :=
  match Dict.get d key with
  | some v => strip (if v.truthy then v.toText rt.repr else default)
  | none => strip default

/-- `RecoveryBindingError` when a condition holds. -/
def bindingError (bad : Prop) [Decidable bad] (reason : Str) : Except Str Unit :=
  raiseIf bad reason

/-- The VMID the recovery item declares, by default the one in the target id. -/
def declaredVmid (details : Dict) (targetId : Str) : Option ℤ :=
  let default : Value := .str ((splitOnce ':' targetId).2.getD [])
  match Dict.get details "vmid" with
  | some v => (if v.truthy then v else default).toInteger
  | none => default.toInteger

/-- The checks of the recovery item against the operation, up to the task reference. -/
def checkTarget (lease : RecoveryLease) (operation : OperationSnapshot) (recoveryKind : Str)
    (operationType : OperationType) (executionMode : ExecutionMode) : Except Str ℤ := do
  let details := lease.item.details
  bindingError (lease.item.recoveryKind ≠ recoveryKind) "recovery_kind_mismatch"
  bindingError (operation.operationType ≠ operationType) "operation_type_mismatch"
  bindingError (operation.executionMode ≠ executionMode) "execution_mode_mismatch"
  bindingError (declared rt details "operation_type" operation.operationType.name ≠
    operation.operationType.name) "recovery_operation_type_mismatch"
  bindingError (declared rt details "execution_mode" operation.executionMode.name ≠
    operation.executionMode.name) "recovery_execution_mode_mismatch"
  bindingError (operation.targetType ≠ "proxmox_vm" ∨
    ("vmid:" : Str).isPrefixOf operation.targetId = false) "operation_target_invalid"
  bindingError (declared rt details "target_type" operation.targetType ≠ operation.targetType ∨
    declared rt details "target_id" operation.targetId ≠ operation.targetId)
    "recovery_target_mismatch"
  let vmid ← orRaise (declaredVmid details operation.targetId) ("recovery_vmid_invalid" : Str)
  bindingError (operation.targetId ≠ ("vmid:" : Str) ++ ofInt vmid) "recovery_vmid_mismatch"
  let node := Dict.text rt.repr (subDict operation.details "target") "node_id"
  bindingError (node = [] ∨ Dict.text rt.repr details "node_id" ≠ node) "recovery_node_mismatch"
  return vmid

/-- Does `compact_proxmox_task` keep a task reference? -/
def keepsReference (upid : Str) : Bool := (compactProxmoxTask rt.repr [] [] upid).upid ≠ []

/-- The checks of the task reference in both ledgers. -/
def checkTaskReference (recoveryDetails operationDetails : Dict) : Except Str Unit := do
  let operationUpid := Dict.text rt.repr operationDetails "proxmox_upid"
  let recoveryUpid := Dict.text rt.repr recoveryDetails "upid"
  bindingError (operationUpid ≠ [] ∧ keepsReference rt operationUpid = false)
    "operation_task_reference_invalid"
  bindingError (recoveryUpid ≠ [] ∧ keepsReference rt recoveryUpid = false)
    "recovery_task_reference_invalid"
  bindingError (operationUpid ≠ recoveryUpid) "recovery_task_reference_mismatch"

/-- The checks of the primary target lock. -/
def checkLock (details : Dict) (operation : OperationSnapshot) (vmid : ℤ)
    (lock : Option TargetLockHandle) : Except Str Unit := do
  match lock with
  | none => .error "target_lock_owner_mismatch"
  | some lock =>
      bindingError (lock.ownerId ≠ operation.operationId) "target_lock_owner_mismatch"
      bindingError (lock.durable.operationType ≠ operation.operationType)
        "target_lock_operation_type_mismatch"
      bindingError (lock.durable.ownerId ≠ operation.operationId)
        "durable_target_lock_owner_mismatch"
      bindingError (lock.durable.vmid ≠ vmid) "durable_target_lock_vmid_mismatch"
      let cluster := Dict.text rt.repr details "cluster_id"
      bindingError (cluster = [] ∨ strip lock.durable.clusterId ≠ cluster)
        "target_lock_cluster_mismatch"
      let lockId := Dict.text rt.repr details "target_lock_id"
      bindingError (lockId = [] ∨ strip lock.durable.lockId = [] ∨ strip lock.lockId = [])
        "target_lock_id_missing"
      bindingError (strip lock.durable.lockId ≠ lockId) "target_lock_id_mismatch"
      bindingError (strip lock.lockId ≠ strip lock.durable.lockId)
        "target_lock_identity_mismatch"

/-- The references of an operation with two locks, or the binding error. -/
def relatedReferences (details : Dict) (operation : OperationSnapshot) :
    Except Str (List LockReference) :=
  if expectedLockCount operation.operationType = 2 then
    match lockReferences operation.operationType operation.targetId operation.details details with
    | [_, related] => .ok [related]
    | _ => .error "related_target_lock_binding_mismatch"
  else .ok []

/-- The checks of a related target lock. -/
def checkRelatedLock (details : Dict) (operation : OperationSnapshot) (reference : LockReference)
    (lock : Option TargetLockHandle) : Except Str Unit :=
  match lock with
  | none => .error "related_target_lock_identity_mismatch"
  | some lock =>
      bindingError (lock.ownerId ≠ operation.operationId ∨ lock.lockId ≠ reference.lockId ∨
        lock.durable.lockId ≠ reference.lockId ∨ lock.durable.ownerId ≠ operation.operationId ∨
        lock.durable.operationType ≠ operation.operationType ∨
        lock.durable.clusterId ≠ Dict.text rt.repr details "cluster_id" ∨
        lock.durable.vmid ≠ reference.vmid) "related_target_lock_identity_mismatch"

end

end Gjallar.RecoveryBinding

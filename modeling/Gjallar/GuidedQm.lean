import Gjallar.RecoveryBinding
import Mathlib.Algebra.Group.Int.Defs

/-!
# The guided unlock

The domain of `guided_qm`: its requests, what is observed of a VM, the instruction bundle, and the
predicates by which the workflow compares an operation, its recovery item and the target lock.
-/
namespace Gjallar.GuidedQm

open Gjallar.Text Gjallar.Data Gjallar.Operation Gjallar.OperationStore Gjallar.TargetLocks
  Gjallar.RecoveryStore Gjallar.RecoveryBinding Gjallar.Regex Gjallar.Regex.Pattern

/-- `GUIDED_QM_UNLOCK_SUPPORTED_LOCKS`. -/
def supportedLocks : List Str :=
  ["backup", "clone", "create", "migrate", "rollback", "snapshot", "snapshot-delete", "suspending"]

/-- `_GUIDED_QM_RECOVERY_KIND`. -/
def recoveryKind : Str := "guided_qm_unlock_observation"

/-- `GUIDED_QM_UNLOCK_TEMPLATE_ID`. -/
def templateId : Str := "qm.vm.unlock.v1"

/-- `PRE_DISPATCH_RECOVERY_CONTRACT`. -/
def recoveryContract : Str := "operation_lock_recovery_before_mutation.v1"

/-- `_SYSTEM_RECOVERY_ACTOR`. -/
def systemRecoveryActor : OperationActor := ⟨"system", "operation-recovery", "system"⟩

/-- `str(d.get(key) or "")`. -/
def rawText (repr : Value → Str) (d : Dict) (key : Str) : Str :=
  match Dict.get d key with
  | some v => if v.truthy then v.toText repr else []
  | none => []

/-- `int(d.get(key) or 0)`; `none` is the `TypeError` or `ValueError`. -/
def intOrZero (d : Dict) (key : Str) : Option ℤ :=
  match Dict.get d key with
  | some v => if v.truthy then v.toInteger else some 0
  | none => some 0

/-! ### Requests -/

/-- `_NODE_ID_PATTERN`. -/
def nodeIdPattern : Pattern Char := seq (one isAlnum) (upTo (one (alnumOr "_.-")) 62)

/-- `_IDEMPOTENCY_KEY_PATTERN`. -/
def idempotencyKeyPattern : Pattern Char := seq (one isAlnum) (upTo (one (alnumOr "._:-")) 127)

/-- `sha256:[0-9a-f]{64}`. -/
def isPlanDigest (s : Str) : Bool :=
  ("sha256:" : Str).isPrefixOf s && s.length = 71 && (s.drop 7).all isLowerHex

/-- `PlanGuidedQmUnlockCommand`. -/
structure PlanCommand where
  nodeId : Str
  vmid : ℤ
  idempotencyKey : Str
  actor : OperationActor
  node_valid : (nodeIdPattern.fullmatch nodeId).isSome = true
  vmid_valid : 100 ≤ vmid ∧ vmid ≤ 999999999
  key_valid : (idempotencyKeyPattern.fullmatch idempotencyKey).isSome = true

/-- `AttestGuidedQmCommand` and `VerifyGuidedQmCommand`. -/
structure DigestCommand where
  operationId : Str
  planDigest : Str
  actor : OperationActor
  digest_valid : isPlanDigest planDigest = true

namespace PlanCommand

variable (rt : Runtime) (c : PlanCommand)

/-- The prefix of every identifier of a guided unlock. -/
def idPrefix : Str := "guided-qm-unlock-"

/-- `build_guided_qm_unlock_operation_id`. -/
def operationId : Str :=
  idPrefix ++ c.nodeId ++ ("-" : Str) ++ ofInt c.vmid ++ ("-" : Str) ++
    (rt.sha256 (c.nodeId ++ (":" : Str) ++ ofInt c.vmid ++ (":" : Str) ++
      c.idempotencyKey)).digits.take 20

def targetId : Str := ("vmid:" : Str) ++ ofInt c.vmid

def target : Dict :=
  [("type", .str "proxmox_vm"), ("node_id", .str c.nodeId), ("vmid", .int c.vmid)]

/-- `guided_qm_unlock_intent`. -/
def intent : Value :=
  .dict [("schema", .str "guided_qm_intent.v1"), ("operation", .str "vm_unlock"),
    ("template_id", .str templateId), ("target", .dict c.target)]

end PlanCommand

/-! ### Observation -/

/-- `_config_lock`. -/
def configLock (repr : Value → Str) (config : Dict) : Str :=
  let normalized := match Dict.get config "lock" with
    | none | some .null => []
    | some v => lower (strip (v.toText repr))
  if normalized = [] then [] else if normalized ∈ supportedLocks then normalized
  else "unsupported_present"

/-- `_SAFE_TASK_TOKEN`. -/
def isSafeTaskToken (s : Str) : Bool := !s.isEmpty && s.length ≤ 80 && s.all (alnumOr "_.:-")

/-- A numeric entry of a task, when it is an integer of 63 bits. -/
def taskNumber (task : Dict) (key : Str) : Dict :=
  match (Dict.get task key).bind Value.toInteger with
  | some n => if 0 ≤ n ∧ n ≤ 2 ^ 63 - 1 then [(key, .int n)] else []
  | none => []

/-- The entry of a task in the evidence, before its digest. -/
def taskEntry (rt : Runtime) (task : Dict) : Dict :=
  let text := Dict.text rt.repr task
  let node := text "node"
  let taskType := lower (text "type")
  let status := lower (text "status")
  (if isSafeTaskToken node then [(("node" : Str), Value.str node)] else []) ++
    [(("type" : Str), Value.str (if isSafeTaskToken taskType then taskType else "unknown")),
      ("status", Value.str
        (if status ∈ (["running", "stopped", "queued", "unknown"] : List Str) then status
          else "unknown"))] ++
    taskNumber task "pid" ++ taskNumber task "starttime"

/-- The digest that identifies a task. -/
def taskIdentity (rt : Runtime) (task : Dict) : Str :=
  let ref := strip (orEntry rt.repr (rawText rt.repr task "upid") task "id")
  rt.operationDigest (.dict [("task_ref", .str ref), ("evidence", .dict (taskEntry rt task))])

/-- The loop of `_compact_tasks`, with the room left after the next entry. -/
def compactFrom (rt : Runtime) : ℕ → List Str → List Dict → List Value
  | _, _, [] => []
  | room, seen, task :: tasks =>
      let identity := taskIdentity rt task
      if identity ∈ seen then compactFrom rt room seen tasks
      else
        .dict (List.append (taskEntry rt task) [("task_ref_digest", .str identity)]) ::
          match room with
          | 0 => []
          | room + 1 => compactFrom rt room (identity :: seen) tasks

/-- `_compact_tasks`. -/
def compactTasks (rt : Runtime) (tasks : List Dict) : List Value := compactFrom rt 9 [] tasks

/-- What `_observe` returns. -/
structure Observed where
  configLock : Str
  activeTasks : List Value
  observedAt : Str
  deriving DecidableEq

def Observed.toDict (o : Observed) : Dict :=
  [("config_lock", .str o.configLock), ("active_tasks", .list o.activeTasks),
    ("observed_at", .str o.observedAt), ("authority", .str "proxmox_api")]

/-! ### The instruction -/

/-- The plan of an instruction bundle, without its digest. -/
def instructionPlan (rt : Runtime) (operationId nodeId : Str) (vmid : ℤ) (expiresAt : Instant)
    (observedLock : Str) : Dict :=
  let none_ : Value := .list []
  [("schema", .str "guided_qm_instruction.v1"), ("template_id", .str templateId),
    ("operation_id", .str operationId), ("execution_mode", .str "guided_manual"),
    ("target", .dict
      [("type", .str "proxmox_vm"), ("node_id", .str nodeId), ("vmid", .int vmid)]),
    ("command", .dict
      [("program", .str "qm"), ("arguments", .list [.str "unlock", .str (ofInt vmid)]),
        ("display", .str (("qm unlock " : Str) ++ ofInt vmid)),
        ("run_on", .str "target_proxmox_node_shell")]),
    ("expires_at", .str (rt.isoformat expiresAt)),
    ("observed_before", .dict [("config_lock", .str observedLock), ("active_tasks", none_)]),
    ("expected_result", .dict [("config_lock_absent", .bool true), ("active_tasks", none_)]),
    ("verification", .dict
      [("authority", .str "proxmox_api"),
        ("config_endpoint", .str (("/nodes/" : Str) ++ nodeId ++ ("/qemu/" : Str) ++ ofInt vmid ++
          ("/config" : Str))),
        ("tasks_endpoint", .str (("/nodes/" : Str) ++ nodeId ++
          ("/tasks?source=active&vmid=" : Str) ++ ofInt vmid))]),
    ("warnings", .list
      [.str "Run only after confirming the task that created the lock is no longer running.",
        .str (("The observed Proxmox configuration lock is " : Str) ++ observedLock ++
          ("." : Str)),
        .str "Do not edit the command or add options."])]

/-- The digest of `build_guided_qm_unlock_bundle`. -/
def planDigest (rt : Runtime) (operationId nodeId : Str) (vmid : ℤ) (expiresAt : Instant)
    (observedLock : Str) : Str :=
  rt.operationDigest (.dict (instructionPlan rt operationId nodeId vmid expiresAt observedLock))

/-- `build_guided_qm_unlock_bundle`. -/
def instructionBundle (rt : Runtime) (operationId nodeId : Str) (vmid : ℤ) (expiresAt : Instant)
    (observedLock : Str) : Dict :=
  Dict.merge (instructionPlan rt operationId nodeId vmid expiresAt observedLock)
    [("plan_digest", .str (planDigest rt operationId nodeId vmid expiresAt observedLock))]

/-- The provisional operation that `plan_unlock` creates. -/
def PlanCommand.spec (rt : Runtime) (c : PlanCommand) (observed : Observed)
    (expiresAt : Instant) : OperationSpec :=
  { operationId := c.operationId rt, operationType := .guidedQmVmUnlock,
    executionMode := .guidedManual, targetType := "proxmox_vm", targetId := c.targetId,
    idempotencyKey := c.idempotencyKey, intentDigest := rt.operationDigest c.intent,
    planDigest := planDigest rt (c.operationId rt) c.nodeId c.vmid expiresAt observed.configLock,
    actor := c.actor, initialStatus := .planned, initialStage := "plan_preparation",
    expiresAt := some expiresAt,
    details := [("target", .dict c.target), ("observed_before", .dict observed.toDict),
      ("instruction_exposed", .bool false), ("recovery_contract", .str recoveryContract)] }

/-- The payload of the event that creates it. -/
def PlanCommand.createdPayload (c : PlanCommand) (observed : Observed) : Dict :=
  [("template_id", .str templateId), ("target", .dict c.target),
    ("observed_before", .dict observed.toDict), ("instruction_exposed", .bool false)]

/-! ### Lock evidence -/

/-- `TargetOperationLockHandle.to_dict`. -/
def lockDict (rt : Runtime) (targetType targetId : Str) (lock : TargetLockHandle) : Dict :=
  [("target_type", .str targetType), ("target_id", .str targetId), ("owner_id", .str lock.ownerId),
    ("lock_id", .str lock.lockId), ("acquired_at", .str (rt.isoformat lock.durable.createdAt)),
    ("durable", .dict (lock.durable.toDict rt))]

/-- `TargetOperationLockBusy.to_dict`. -/
def busyDict (targetType targetId ownerId : Str) (existing : Dict) : Dict :=
  [("target_type", .str targetType), ("target_id", .str targetId),
    ("requested_owner_id", .str ownerId), ("existing", .dict existing)]

section

variable (rt : Runtime)

/-- `_lock_id`. -/
def lockIdOf (evidence : Dict) : Str :=
  let durable := subDict evidence "durable"
  let id := rawText rt.repr durable "operation_lock_id"
  strip (if id = [] then rawText rt.repr evidence "lock_id" else id)

/-- `_lock_cluster_id`. -/
def lockClusterId (evidence : Dict) : Str :=
  Dict.text rt.repr (subDict evidence "durable") "cluster_id"

/-- The lock evidence in the details of an operation; empty when there is none. -/
def recordedLock (operation : OperationSnapshot) : Dict :=
  subDict operation.details "target_operation_lock"

/-- The target in the details of an operation. -/
def targetOf (operation : OperationSnapshot) : Dict := subDict operation.details "target"

/-- `_original_config_lock`. -/
def originalConfigLock (operation : OperationSnapshot) : Str :=
  rawText rt.repr (subDict operation.details "observed_before") "config_lock"

/-- `_execution_attested`. -/
def executionAttested (operation : OperationSnapshot) : Bool :=
  Dict.get (subDict operation.details "operator_attestation") "command_executed" =
    some (.bool true)

/-- `_late_execution_attested`. -/
def lateExecutionAttested (operation : OperationSnapshot) : Bool :=
  executionAttested operation &&
    Dict.get (subDict operation.details "operator_attestation") "late" = some (.bool true)

/-- `d.get(key) in {None, text}`. -/
def absentOr (d : Dict) (key text : Str) : Bool :=
  match Dict.get d key with
  | none | some .null => true
  | some v => v.eqv (.str text)

/-- `_is_exact_owned_lock`. -/
def isExactOwnedLock (operation : OperationSnapshot) (current : Option Dict)
    (allowUnrecorded : Bool) : Bool :=
  match current with
  | none => false
  | some current =>
      let durable := subDict current "durable"
      let expected := lockIdOf rt (recordedLock operation)
      let recordedCluster := lockClusterId rt (recordedLock operation)
      !current.isEmpty && rawText rt.repr current "owner_id" = operation.operationId &&
        absentOr current "target_type" operation.targetType &&
        absentOr current "target_id" operation.targetId &&
        (durable.isEmpty ||
          rawText rt.repr durable "operation_type" = operation.operationType.name) &&
        !(lockClusterId rt current).isEmpty &&
        if expected.isEmpty then allowUnrecorded
        else !recordedCluster.isEmpty && lockClusterId rt current = recordedCluster &&
          lockIdOf rt current = expected

/-- `_is_active_instruction_lock`. -/
def isActiveInstructionLock (operation : OperationSnapshot) (current : Option Dict) : Bool :=
  isExactOwnedLock rt operation current false &&
    let durable := subDict (current.getD []) "durable"
    match intOrZero (targetOf operation) "vmid", intOrZero durable "vmid" with
    | some vmid, some durableVmid =>
        operation.targetType = ("proxmox_vm" : Str) &&
          operation.targetId = ("vmid:" : Str) ++ ofInt vmid && 0 < vmid && durableVmid = vmid &&
          rawText rt.repr durable "owner_id" = operation.operationId &&
          rawText rt.repr durable "operation_type" = operation.operationType.name &&
          rawText rt.repr durable "scope_type" = ("proxmox_locator" : Str) &&
          rawText rt.repr durable "status" = ("active" : Str)
    | _, _ => false

/-- The entries of the recovery details that `_validate_recovery_lease` compares. -/
def expectedDetails (operation : OperationSnapshot) : List (Str × Str) :=
  [("target_type", operation.targetType), ("target_id", operation.targetId),
    ("operation_type", operation.operationType.name),
    ("execution_mode", operation.executionMode.name),
    ("original_config_lock", originalConfigLock rt operation)]

/-- The part of `_validate_recovery_lease` that does not look at the lock. -/
def leaseNamesOperation (operation : OperationSnapshot) (item : RecoveryItem) : Bool :=
  item.recoveryKind = recoveryKind &&
    (expectedDetails rt operation).all (fun e => rawText rt.repr item.details e.1 = e.2) &&
    (originalConfigLock rt operation ∈ supportedLocks) &&
    match intOrZero (targetOf operation) "vmid", intOrZero item.details "vmid" with
    | some vmid, some itemVmid =>
        operation.targetId = ("vmid:" : Str) ++ ofInt vmid && itemVmid = vmid &&
          rawText rt.repr item.details "node_id" = rawText rt.repr (targetOf operation) "node_id"
    | _, _ => false

/-- Does the recovery item name the recorded lock and its cluster? -/
def leaseNamesLock (operation : OperationSnapshot) (item : RecoveryItem) : Bool :=
  let cluster := Dict.text rt.repr item.details "cluster_id"
  rawText rt.repr item.details "target_lock_id" = lockIdOf rt (recordedLock operation) &&
    !cluster.isEmpty && cluster = lockClusterId rt (recordedLock operation)

/-- Is the current lock, if there is one, in the recorded cluster? -/
def lockInCluster (operation : OperationSnapshot) (current : Option Dict) : Bool :=
  match current with
  | none => true
  | some current => !(lockClusterId rt current).isEmpty &&
      lockClusterId rt current = lockClusterId rt (recordedLock operation)

/-- `_recovery_details`; `none` is the exception of a VMID that is no number. -/
def recoveryDetails (operation : OperationSnapshot) (evidence : Dict) : Option Dict := do
  let target := targetOf operation
  let vmid ← intOrZero target "vmid"
  let lockId := lockIdOf rt evidence
  return [("target_type", .str operation.targetType), ("target_id", .str operation.targetId),
    ("operation_type", .str operation.operationType.name),
    ("execution_mode", .str operation.executionMode.name),
    ("node_id", .str (rawText rt.repr target "node_id")), ("vmid", .int vmid),
    ("target_lock_id", .str lockId),
    ("cluster_id", .str (rawText rt.repr (subDict evidence "durable") "cluster_id")),
    ("original_config_lock", .str (originalConfigLock rt operation)),
    ("phase", .str (if lockId.isEmpty then "plan_prepared" else "lock_acquired")),
    ("mutation_replay_allowed", .bool false), ("recovery_contract", .str recoveryContract)]

/-- `_assert_operation_identity`. -/
def hasIdentity (operation : OperationSnapshot) (intent : Value) (targetId : Str) : Bool :=
  operation.operationType = .guidedQmVmUnlock && operation.executionMode = .guidedManual &&
    operation.targetId = targetId && operation.intentDigest = rt.operationDigest intent

end

end Gjallar.GuidedQm

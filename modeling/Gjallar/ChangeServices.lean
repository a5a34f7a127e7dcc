import Gjallar.Processes
import Gjallar.TaskIdentity
import Gjallar.VmAdmission

/-!
# The change services and their recovery

`ConfigChangeService` and `TaskChangeService` with the handlers that recover their operations, as
programs over the calls they make: to the operation, recovery and lock stores, to the observing
side of the Proxmox client, and to its one mutating call.
-/
namespace Gjallar.ChangeServices

open Gjallar.Text Gjallar.Data Gjallar.Operation Gjallar.OperationStore Gjallar.TargetLocks
  Gjallar.RecoveryStore Gjallar.RecoveryBinding Gjallar.VmAdmission Gjallar.Processes
  Gjallar.Processes.Program Gjallar.TaskIdentity

/-- An exception: the service's own error with its code, an error of the stores, or another. -/
inductive Failure where
  | service (code : Str)
  | store (e : StoreError)
  | other
  deriving DecidableEq

abbrev Answer (α : Type) := Except Failure α

/-- `model_dump()` of a request. -/
abbrev Request := Dict

/-- `ConfigChangeService` or `TaskChangeService`. -/
inductive Mode where
  | config | task
  deriving DecidableEq

/-- The attributes and hooks of a concrete change service. -/
structure Service where
  mode : Mode
  operationType : OperationType
  operationPrefix : Str
  eventPrefix : Str
  errorPrefix : Str
  recoveryKind : Str
  /-- The code with which the client reports that a task cannot be observed. -/
  taskUnavailable : Str
  clusterId : Str
  validateTarget : Str → ℤ → Except Str Unit
  checkExpected : Value → Request → Except Str Unit
  /-- The check of the task reference that some services put before `verify`. -/
  checkReference : OperationSnapshot → Except Str Unit
  /-- The check that some recovery handlers add to the binding. -/
  checkBinding : OperationSnapshot → Except Str Unit
  /-- `matches`. -/
  resultMatches : Value → Value → Value → Answer Bool
  prefix_plain : ∀ c ∈ operationPrefix, isSpace c = false

/-- A call of a change service or a recovery handler. -/
inductive Command where
  /-- The arrival of an execute request. -/
  | receive (svc : Service) (nodeId : Str) (vmid : ℤ) (request : Request)
  | getOperation (operationId : Str)
  | prepare (q : AdmissionRequest)
  | commit (lease : RecoveryLease) (o : Observation)
  | heartbeat (lease : RecoveryLease) (leaseTime : Instant)
  | claimDue (leaseOwner : Str) (leaseTime : Instant) (limit : ℤ)
  | claimOperation (operationId leaseOwner : Str) (leaseTime : Instant)
      (version : Option ℕ) (checksum : Option Str)
  | targetLock (targetId : Str)
  /-- `review_request(...)["observed_before"]`. -/
  | review (svc : Service) (nodeId : Str) (vmid : ℤ) (request : Request)
  /-- `get_task_status`. -/
  | task (svc : Service) (nodeId upid : Str)
  /-- `observe_result`, or `observe` of a config service. -/
  | observe (svc : Service) (operation : OperationSnapshot)
  /-- The external mutation. -/
  | dispatch (svc : Service) (nodeId : Str) (vmid : ℤ) (request : Request)
      (operation : OperationSnapshot)

abbrev Reply : Command → Type
  | .receive .. => Unit
  | .getOperation _ => Answer (Option OperationSnapshot)
  | .prepare _ => Answer (OperationSnapshot × Option RecoveryLease)
  | .commit .. => Answer (OperationSnapshot × RecoveryItem)
  | .heartbeat .. => Answer RecoveryLease
  | .claimDue .. => Answer (List RecoveryLease)
  | .claimOperation .. => Answer RecoveryLease
  | .targetLock _ => Answer (Option TargetLockHandle)
  | .review .. => Answer Value
  | .task .. => Answer Dict
  | .observe .. => Answer Value
  | .dispatch .. => Answer Str

abbrev Prog (α : Type) := Program Command Reply α

namespace Call

abbrev receive (svc : Service) (nodeId : Str) (vmid : ℤ) (request : Request) : Prog Unit :=
  send (Command.receive svc nodeId vmid request)

abbrev getOperation (operationId : Str) : Prog (Answer (Option OperationSnapshot)) :=
  send (Command.getOperation operationId)

abbrev prepare (q : AdmissionRequest) :
    Prog (Answer (OperationSnapshot × Option RecoveryLease)) := send (Command.prepare q)

abbrev commit (lease : RecoveryLease) (o : Observation) :
    Prog (Answer (OperationSnapshot × RecoveryItem)) := send (Command.commit lease o)

abbrev heartbeat (lease : RecoveryLease) (leaseTime : Instant) : Prog (Answer RecoveryLease) :=
  send (Command.heartbeat lease leaseTime)

abbrev claimDue (leaseOwner : Str) (leaseTime : Instant) (limit : ℤ) :
    Prog (Answer (List RecoveryLease)) := send (Command.claimDue leaseOwner leaseTime limit)

abbrev claimOperation (operationId leaseOwner : Str) (leaseTime : Instant) (version : Option ℕ)
    (checksum : Option Str) : Prog (Answer RecoveryLease) :=
  send (Command.claimOperation operationId leaseOwner leaseTime version checksum)

abbrev targetLock (targetId : Str) : Prog (Answer (Option TargetLockHandle)) :=
  send (Command.targetLock targetId)

abbrev review (svc : Service) (nodeId : Str) (vmid : ℤ) (request : Request) :
    Prog (Answer Value) := send (Command.review svc nodeId vmid request)

abbrev task (svc : Service) (nodeId upid : Str) : Prog (Answer Dict) :=
  send (Command.task svc nodeId upid)

abbrev observe (svc : Service) (operation : OperationSnapshot) : Prog (Answer Value) :=
  send (Command.observe svc operation)

abbrev dispatch (svc : Service) (nodeId : Str) (vmid : ℤ) (request : Request)
    (operation : OperationSnapshot) : Prog (Answer Str) :=
  send (Command.dispatch svc nodeId vmid request operation)

end Call

/-- How a request or a recovery run ends. -/
inductive Outcome where
  | returned (operation : OperationSnapshot) (replay : Bool)
  | raised (e : Failure)
  | recovered (results : List (Str × Str))

namespace Service

variable (rt : Runtime) (svc : Service) (nodeId : Str) (vmid : ℤ) (request : Request)

/-- Does the service lock a source VM besides its target? -/
def isPair : Bool := expectedLockCount svc.operationType = 2

def identity : Str :=
  rt.operationDigest (.dict [("cluster_id", .str svc.clusterId), ("node_id", .str nodeId),
    ("vmid", .int vmid), ("idempotency_key", Dict.getD request "idempotency_key" .null)])

def operationId : Str :=
  svc.operationPrefix ++ (splitOnce ':' (svc.identity rt nodeId vmid request)).2.getD []

/-- The VMID of the target: `new_vmid` for a clone or a restore. -/
def targetVmid : ℤ :=
  if svc.isPair then ((Dict.get request "new_vmid").bind Value.asInt).getD 0 else vmid

def target : Dict :=
  [("node_id", .str nodeId), ("vmid", .int (svc.targetVmid vmid request)),
    ("name", Dict.getD request (if svc.isPair then "name" else "expected_name") .null)]

/-- `extra_details`. -/
def extraDetails : Dict :=
  if svc.isPair then
    [("source", .dict [("node_id", .str nodeId), ("vmid", .int vmid),
      ("name", Dict.getD request "expected_name" .null)])]
  else if svc.operationType = .vmMigrate then
    [("destination", .dict [("node_id", Dict.getD request "destination_node" .null),
      ("vmid", .int vmid)])]
  else []

def intentDigest : Str :=
  rt.operationDigest
    (.dict (Dict.merge [("target", .dict (svc.target nodeId vmid request))] request))

def details (before : Value) : Dict :=
  let base : Dict := [("target", .dict (svc.target nodeId vmid request)),
    ("observed_before", before), ("requested", .dict request),
    ("mutation_dispatched", .bool false)]
  match svc.mode with
  | .config => List.append base [("dispatch_acknowledged", .bool false)]
  | .task => List.append base (svc.extraDetails nodeId vmid request)

def spec (actor : OperationActor) (before : Value) : OperationSpec :=
  { operationId := svc.operationId rt nodeId vmid request, operationType := svc.operationType,
    executionMode := .managedApi, targetType := "proxmox_vm",
    targetId := ("vmid:" : Str) ++ ofInt (svc.targetVmid vmid request),
    idempotencyKey := svc.identity rt nodeId vmid request,
    intentDigest := svc.intentDigest rt nodeId vmid request,
    planDigest := svc.intentDigest rt nodeId vmid request, actor := actor,
    details := svc.details nodeId vmid request before }

/-- The admission of the request. -/
def admission (actor : OperationActor) (before : Value) : AdmissionRequest :=
  { recoveryKind := svc.recoveryKind, spec := svc.spec rt nodeId vmid request actor before,
    clusterId := svc.clusterId, vmid := svc.targetVmid vmid request,
    relatedVmids := if svc.isPair then [vmid] else [] }

/-! ### Commits -/

def precheckBlocked (code : Str) : Observation :=
  { nextStatus := some .blocked, eventType := svc.eventPrefix ++ ("precheck_blocked" : Str),
    stage := "precheck", detailsPatch := [("failure_code", .str code)],
    expectedStatuses := some [.planned], recoveryStatus := "completed", releaseTargetLock := true }

def dispatching : Observation :=
  { nextStatus := some .dispatching, eventType := svc.eventPrefix ++ ("dispatching" : Str),
    stage := "dispatch", detailsPatch := [("mutation_dispatched", .bool true)],
    expectedStatuses := some [.planned], recoveryStatus := "leased" }

def dispatchUnknown (code : Str) : Observation :=
  { nextStatus := some .needsReconciliation,
    eventType := svc.eventPrefix ++ ("dispatch_unknown" : Str), stage := "reconciliation",
    detailsPatch := [("failure_code", .str code)], expectedStatuses := some [.dispatching],
    recoveryStatus := "paused", errorCode := some (svc.errorPrefix ++ ("DISPATCH_UNKNOWN" : Str)) }

def dispatchAcknowledged : Observation :=
  { nextStatus := some .running,
    eventType := svc.eventPrefix ++ ("dispatch_acknowledged" : Str), stage := "post_check",
    detailsPatch := [("dispatch_acknowledged", .bool true)],
    expectedStatuses := some [.dispatching], recoveryStatus := "leased" }

/-- The commit that pauses an operation whose result is not confirmed. -/
def unconfirmed (operation : OperationSnapshot) (code : Str) (patch : Dict) : Observation :=
  { nextStatus := if operation.status = .needsReconciliation then none
      else some .needsReconciliation,
    eventType := svc.eventPrefix ++ ("result_unconfirmed" : Str), stage := "reconciliation",
    detailsPatch := patch, expectedStatuses := some [operation.status],
    expectedOperationVersion := some operation.version,
    expectedOperationChecksum := some operation.lastEventChecksum, recoveryStatus := "paused",
    errorCode := some code }

def taskRunning (operation : OperationSnapshot) (task : TaskEvidence) : Observation :=
  { eventType := svc.eventPrefix ++ ("task_running" : Str), stage := "task",
    detailsPatch := [("task", .dict task.toDict)], expectedStatuses := some [operation.status],
    recoveryStatus := "retry_wait", retryDelay := Instant.seconds 5 }

/-- The commit that starts the verification; `patch` is what was observed. -/
def observed (operation : OperationSnapshot) (patch : Dict) : Observation :=
  { nextStatus := some .verifying,
    eventType := svc.eventPrefix ++
      (match svc.mode with
        | .config => ("state_observed" : Str)
        | .task => "size_observed"),
    stage := "post_check", detailsPatch := patch, expectedStatuses := some [operation.status],
    expectedOperationVersion := some operation.version,
    expectedOperationChecksum := some operation.lastEventChecksum, recoveryStatus := "leased" }

/-- The commit that completes a verified operation. -/
def verified (operation : OperationSnapshot) (patch : Dict) : Observation :=
  { nextStatus := some .succeeded, eventType := svc.eventPrefix ++ ("verified" : Str),
    stage := "completed", detailsPatch := List.append patch [("failure_code", .null)],
    expectedStatuses := some [.verifying], expectedOperationVersion := some operation.version,
    expectedOperationChecksum := some operation.lastEventChecksum,
    recoveryStatus := "completed", releaseTargetLock := true }

def interruptedBeforeDispatch (operation : OperationSnapshot) : Observation :=
  { nextStatus := some .blocked,
    eventType := svc.eventPrefix ++ ("interrupted_before_dispatch" : Str), stage := "precheck",
    detailsPatch :=
      [("failure_code", .str (svc.errorPrefix ++ ("INTERRUPTED_BEFORE_DISPATCH" : Str)))],
    expectedStatuses := some [.planned], expectedOperationVersion := some operation.version,
    expectedOperationChecksum := some operation.lastEventChecksum,
    recoveryStatus := "completed", releaseTargetLock := true }

def recoveryUnavailable (operation : OperationSnapshot) (code : Str) : Observation :=
  { eventType := svc.eventPrefix ++ ("recovery_unavailable" : Str), stage := "reconciliation",
    expectedStatuses := some [operation.status], recoveryStatus := "paused",
    errorCode := some code }

/-! ### Verification -/

/-- `matches` on the stored request and the state observed before. -/
def compare (after : Value) (operation : OperationSnapshot) : Answer Bool :=
  match Dict.get operation.details "requested", Dict.get operation.details "observed_before" with
  | some requested, some before => svc.resultMatches after requested before
  | _, _ => .error .other

/-- Commit an observation that ends the run with the given outcome. -/
def conclude (lease : RecoveryLease) (o : Observation) (outcome : Str) : Prog (Answer Str) := do
  match ← Call.commit lease o with
  | .error e => return .error e
  | .ok _ => return .ok outcome

/-- `pause`. -/
def pause (lease : RecoveryLease) (operation : OperationSnapshot) (code : Str)
    (evidence : Dict) : Prog (Answer Str) :=
  conclude lease (svc.unconfirmed operation code (("failure_code", .str code) :: evidence)) "paused"

/-- The commits after a verified observation. -/
def complete (lease : RecoveryLease) (operation : OperationSnapshot) (patch : Dict) :
    Prog (Answer Str) := do
  if operation.status = .verifying then
    conclude lease (svc.verified operation patch) "succeeded"
  else
    match ← Call.commit lease (svc.observed operation patch) with
    | .error e => return .error e
    | .ok (operation, item) =>
        conclude ⟨item, lease.token⟩ (svc.verified operation patch) "succeeded"

/-- The rest of `ConfigChangeService.verify` once the state is observed, or is not observable. -/
def verifyObserved (lease : RecoveryLease) (operation : OperationSnapshot)
    (after : Option Value) (errorCode : Option Str) : Prog (Answer Str) :=
  let matched := match after with
    | some after => svc.compare after operation
    | none => .ok false
  match matched with
  | .error e => return .error e
  | .ok matched =>
      if Dict.get operation.details "dispatch_acknowledged" ≠ some (.bool true) ∨
          matched = false then
        let code := errorCode.getD (svc.errorPrefix ++ ("RESULT_UNCONFIRMED" : Str))
        conclude lease (svc.unconfirmed operation code
          [("observed_after", after.getD .null), ("failure_code", .str code)]) "paused"
      else svc.complete lease operation [("observed_after", after.getD .null)]

/-- `ConfigChangeService.verify`. -/
def verifyConfig (lease : RecoveryLease) (operation : OperationSnapshot) :
    Prog (Answer Str) := do
  if Dict.has operation.details "target" = false ∨
      Dict.has operation.details "requested" = false then return .error .other
  else
    match ← Call.observe svc operation with
    | .ok after => svc.verifyObserved lease operation (some after) none
    | .error (.service code) => svc.verifyObserved lease operation none (some code)
    | .error e => return .error e

/-- The node in the stored target. -/
def nodeOf (operation : OperationSnapshot) : Str :=
  Dict.text rt.repr (subDict operation.details "target") "node_id"

/-- `operation.details.get("proxmox_upid")`, when it is true. -/
def upidOf (operation : OperationSnapshot) : Option Str :=
  match Dict.get operation.details "proxmox_upid" with
  | some v => if v.truthy then some (v.toText rt.repr) else none
  | none => none

/-- The part of `TaskChangeService.verify` that follows the observation of the task. -/
def verifyTaskState (lease : RecoveryLease) (operation : OperationSnapshot)
    (task : TaskEvidence) : Prog (Answer Str) := do
  if task.status = ("running" : Str) ∨ task.status = ("queued" : Str) then
    conclude lease (svc.taskRunning operation task) "retry_wait"
  else if task.status ≠ ("stopped" : Str) ∨ task.exitstatus ≠ ("OK" : Str) then
    svc.pause lease operation (svc.errorPrefix ++ ("TASK_UNCONFIRMED" : Str))
      [("task", .dict task.toDict)]
  else
    match ← Call.observe svc operation with
    | .error (.service code) => svc.pause lease operation code []
    | .error e => return .error e
    | .ok after =>
        match svc.compare after operation with
        | .error e => return .error e
        | .ok false =>
            svc.pause lease operation (svc.errorPrefix ++ ("RESULT_UNCONFIRMED" : Str))
              [("observed_after", after), ("task", .dict task.toDict)]
        | .ok true =>
            svc.complete lease operation
              [("observed_after", after), ("task", .dict task.toDict)]

/-- `TaskChangeService.verify`, with the checks some services put before it. -/
def verifyTask (lease : RecoveryLease) (operation : OperationSnapshot)
    (task : Option TaskEvidence) : Prog (Answer Str) := do
  if Dict.has operation.details "target" = false then return .error .other
  else
    match svc.checkReference operation with
    | .error code => svc.pause lease operation code []
    | .ok _ =>
        match upidOf rt operation, task with
        | none, _ =>
            svc.pause lease operation (svc.errorPrefix ++ ("TASK_REFERENCE_MISSING" : Str)) []
        | some _, some task => svc.verifyTaskState lease operation task
        | some upid, none =>
            match ← Call.task svc (nodeOf rt operation) upid with
            | .error (.service code) => svc.pause lease operation code []
            | .error e => return .error e
            | .ok raw =>
                svc.verifyTaskState lease operation
                  (compactProxmoxTask rt.repr raw (nodeOf rt operation) upid)

def verify (lease : RecoveryLease) (operation : OperationSnapshot) (task : Option TaskEvidence) :
    Prog (Answer Str) :=
  match svc.mode with
  | .config => svc.verifyConfig lease operation
  | .task => svc.verifyTask rt lease operation task

/-! ### Execution -/

/-- `str(status.get("status") or "").lower() == "stopped"`. -/
def isStopped (raw : Dict) : Bool :=
  let status := match Dict.get raw "status" with
    | some v => if v.truthy then v.toText rt.repr else []
    | none => []
  lower status = ("stopped" : Str)

/-- `wait_for_task` with a heartbeat after every look at the task, for a bounded number of looks.
The lease is the last one the heartbeat returned. -/
def waitForTask (upid : Str) : ℕ → RecoveryLease → Prog (RecoveryLease × Answer Dict)
  | polls, lease => do
      match ← Call.task svc nodeId upid with
      | .error e => return (lease, .error e)
      | .ok raw =>
          match ← Call.heartbeat lease (Instant.seconds 60) with
          | .error e => return (lease, .error e)
          | .ok lease =>
              if isStopped rt raw then return (lease, .ok raw)
              else
                match polls with
                | 0 => return (lease, .error (.service svc.taskUnavailable))
                | polls + 1 => waitForTask upid polls lease

/-- `self.result(self.operations.get(operation_id))`. -/
def finish (operationId : Str) : Prog Outcome := do
  match ← Call.getOperation operationId with
  | .error e => return .raised e
  | .ok none => return .raised .other
  | .ok (some operation) => return .returned operation false

/-- Finish, unless the step before raised. -/
def finishAfter (operationId : Str) (answer : Answer Str) : Prog Outcome :=
  match answer with
  | .error e => return .raised e
  | .ok _ => finish operationId

/-- The flow of a config service after the mutating call. -/
def afterConfigDispatch (lease : RecoveryLease) (operation : OperationSnapshot)
    (answer : Answer Str) : Prog Outcome := do
  match answer with
  | .error (.service code) =>
      match ← Call.commit lease (svc.dispatchUnknown code) with
      | .error e => return .raised e
      | .ok (operation, _) => return .returned operation false
  | .error e => return .raised e
  | .ok _ =>
      match ← Call.commit lease svc.dispatchAcknowledged with
      | .error e => return .raised e
      | .ok (acknowledged, item) =>
          let answer ← svc.verifyConfig ⟨item, lease.token⟩ acknowledged
          finishAfter operation.operationId answer

/-- The flow of a task service after the mutating call. -/
def afterTaskDispatch (polls : ℕ) (lease : RecoveryLease) (operation : OperationSnapshot)
    (answer : Answer Str) : Prog Outcome := do
  match answer with
  | .error (.service code) =>
      let answer ← svc.pause lease operation code []
      finishAfter operation.operationId answer
  | .error e => return .raised e
  | .ok upid =>
      match ← Call.commit lease (taskBound svc.eventPrefix upid) with
      | .error e => return .raised e
      | .ok (bound, item) =>
          let (lease, seen) ← waitForTask rt svc nodeId upid polls ⟨item, lease.token⟩
          match seen with
          | .error (.service code) =>
              let answer ← svc.pause lease bound code []
              finishAfter operation.operationId answer
          | .error e => return .raised e
          | .ok raw =>
              let answer ← svc.verifyTask rt lease bound
                (some (compactProxmoxTask rt.repr raw nodeId upid))
              finishAfter operation.operationId answer

/-- From the claimed lease to the mutating call and on. -/
def dispatchFlow (polls : ℕ) (lease : RecoveryLease) : Prog Outcome := do
  match ← Call.commit lease svc.dispatching with
  | .error e => return .raised e
  | .ok (operation, item) =>
      let answer ← Call.dispatch svc nodeId vmid request operation
      match svc.mode with
      | .config => svc.afterConfigDispatch ⟨item, lease.token⟩ operation answer
      | .task => svc.afterTaskDispatch rt nodeId polls ⟨item, lease.token⟩ operation answer

/-- The second check, after which a changed target closes the operation. -/
def block (lease : RecoveryLease) (code : Str) : Prog Outcome := do
  match ← Call.commit lease (svc.precheckBlocked code) with
  | .error e => return .raised e
  | .ok _ => return .raised (.service code)

/-- From the admission on. -/
def admittedFlow (polls : ℕ) (lease : RecoveryLease) : Prog Outcome := do
  match ← Call.review svc nodeId vmid request with
  | .error (.service code) => svc.block lease code
  | .error e => return .raised e
  | .ok latest =>
      match svc.checkExpected latest request with
      | .error code => svc.block lease code
      | .ok _ => svc.dispatchFlow rt nodeId vmid request polls lease

def idempotencyConflict : Failure := .service (svc.errorPrefix ++ ("IDEMPOTENCY_CONFLICT" : Str))

/-- From the answer of the admission on; another request may have created the operation. -/
def preparedFlow (polls : ℕ) : Answer (OperationSnapshot × Option RecoveryLease) → Prog Outcome
  | .error e => return .raised e
  | .ok (operation, none) => return .returned operation true
  | .ok (_, some lease) => svc.admittedFlow rt nodeId vmid request polls lease

/-- From the first lookup on. -/
def lookupFlow (polls : ℕ) (actor : OperationActor) :
    Answer (Option OperationSnapshot) → Prog Outcome
  | .error e => return .raised e
  | .ok (some existing) =>
      if existing.intentDigest ≠ svc.intentDigest rt nodeId vmid request then
        return .raised svc.idempotencyConflict
      else return .returned existing true
  | .ok none => do
      match ← Call.review svc nodeId vmid request with
      | .error e => return .raised e
      | .ok before =>
          match svc.checkExpected before request with
          | .error code => return .raised (.service code)
          | .ok _ =>
              let answer ← Call.prepare (svc.admission rt nodeId vmid request actor before)
              svc.preparedFlow rt nodeId vmid request polls answer

/-- `execute`; `polls` bounds the looks at the dispatched task. -/
def execute (polls : ℕ) (actor : OperationActor) : Prog Outcome := do
  Call.receive svc nodeId vmid request
  match svc.validateTarget nodeId vmid with
  | .error code => return .raised (.service code)
  | .ok _ =>
      let existing ← Call.getOperation (svc.operationId rt nodeId vmid request)
      svc.lookupFlow rt nodeId vmid request polls actor existing

end Service

end Gjallar.ChangeServices

import Gjallar.Execution
import Gjallar.GuidedRecovery

/-!
# The guided unlock as a system

Requests to plan, attest and verify guided unlocks, and recovery runs, over one database. Every
store call is a transaction that may also fail, or succeed without its answer arriving; processes
crash at any point; everything else changes only rows that are not those of guided unlocks. The
contract records what each process may do after its own history.
-/
namespace Gjallar.GuidedSystem

open Gjallar.Text Gjallar.Data Gjallar.Tables Gjallar.Operation Gjallar.OperationStore
  Gjallar.OperationLedger Gjallar.TargetLocks Gjallar.RecoveryStore Gjallar.RecoveryBinding
  Gjallar.Processes Gjallar.GuidedQm Gjallar.GuidedWorkflow
open Gjallar.Execution (Settles Reads exactLocator)

/-! ### The system -/

/-- Is this the identifier of a guided unlock, up to white space around it? -/
def isGuided (id : Str) : Bool := PlanCommand.idPrefix.isPrefixOf (strip id)

/-- The arguments with which the workflow takes a target lock. -/
def acquisition (cluster : Str) (vmid : ℤ) (ownerId : Str) : Acquisition :=
  ⟨.guidedQmVmUnlock, cluster, vmid, ownerId, "guided_qm_vm_unlock_dispatch"⟩

/-- `acquire_target_operation_lock`. -/
def acquireLock (rt : Runtime) (process : Admission.Process) (draw : Draw) (cluster : Str)
    (vmid : ℤ) (ownerId : Str) (db : Db) : Except StoreError (TargetLockHandle × Db) := do
  let (lock, db) ← acquire rt process draw (acquisition cluster vmid ownerId) db
  return (⟨lock.lockId, ownerId, lock⟩, db)

/-- What a command does. The reads of the Proxmox client and of the clock may be answered in any
way, and touch no row. -/
def Exec (rt : Runtime) (cluster : Str) : Db → (c : Command) → Reply c → Db → Prop
  | db, .getOperation id, r, db' => db' = db ∧ Reads (db.operations.get id) r
  | db, .listEvents id, r, db' => db' = db ∧ Reads (listEvents id db) r
  | db, .create spec payload, r, db' => ∃ draw, Settles (create rt draw spec db payload) db r db'
  | db, .append id a, r, db' => ∃ draw, Settles (appendInSession rt draw id a db) db r db'
  | db, .currentLock targetType targetId, r, db' => db' = db ∧
      (targetType = ("proxmox_vm" : Str) →
        match exactLocator targetId with
        | some vmid => Reads (targetOperationLock cluster vmid db.locks) r
        | none => r = .error .other)
  | db, .acquire targetType targetId ownerId, r, db' =>
      match exactLocator targetId with
      | some vmid =>
          if targetType = ("proxmox_vm" : Str) then
            ∃ process draw, Settles (acquireLock rt process draw cluster vmid ownerId db) db r db'
          else db' = db ∧ r = .error .other
      | none => db' = db ∧ r = .error .other
  | db, .getRecovery id, r, db' => db' = db ∧ Reads ((db.recovery.get id).map itemOf) r
  | db, .prepareAndClaim spec owner time version checksum, r, db' => ∃ draw,
      Settles (prepareAndClaim draw spec owner time (some version) (some checksum) db) db r db'
  | db, .claimOperation id owner time version checksum, r, db' => ∃ draw,
      Settles (claimOperation draw id owner time (some version) (some checksum) db) db r db'
  | db, .claimDue owner time limit, r, db' => ∃ draw locked,
      Settles (claimDue draw owner time limit locked db) db r db'
  | db, .commit lease o, r, db' => ∃ draw, Settles (commitObservation rt draw lease o db) db r db'
  | db, .taskAudit _, _, db' => db' = db
  | db, .activeTasks .., _, db' => db' = db
  | db, .vmConfig .., _, db' => db' = db
  | db, .clock, r, db' => db' = db ∧ ∃ now, r = .ok now

/-- What everything else may do to the database: it leaves the rows of guided unlocks alone. -/
structure Foreign (db db' : Db) : Prop where
  operations : ∀ id, isGuided id = true → db'.operations.get id = db.operations.get id
  recovery : ∀ id, isGuided id = true → db'.recovery.get id = db.recovery.get id
  locks : ∀ id r, isGuided r.ownerId = true →
    (db'.locks.get id = some r ↔ db.locks.get id = some r)

/-- What is known of every reply. -/
def Possible : (c : Command) → Reply c → Prop
  | .getOperation id, r => ∀ operation, r = .ok (some operation) → operation.operationId = id
  | .append id _, r => ∀ operation, r = .ok operation → operation.operationId = id
  | .prepareAndClaim spec .., r => ∀ lease, r = .ok lease → lease.operationId = spec.operationId
  | .claimOperation id .., r => ∀ lease, r = .ok lease → lease.operationId = strip id
  | .commit lease _, r => ∀ operation item, r = .ok (operation, item) →
      operation.operationId = lease.operationId ∧ item.operationId = lease.operationId
  | _, _ => True

theorem append_id {rt : Runtime} {draw : Draw} {id : Str} {a : Append} {db db' : Db}
    {row : OperationSnapshot} (h : appendInSession rt draw id a db = .ok (row, db')) :
    row.operationId = id := by
  obtain ⟨old, _, _, hold, -, -, -, rfl, -, -⟩ := appendInSession_eq_ok h
  have hid : old.operationId = id := Table.key_of_get hold
  exact hid

theorem prepareAndClaim_id {draw : Draw} {spec : RecoverySpec} {owner : Str} {time : Instant}
    {version : Option ℕ} {checksum : Option Str} {db db' : Db} {lease : RecoveryLease}
    (h : prepareAndClaim draw spec owner time version checksum db = .ok (lease, db')) :
    lease.operationId = spec.operationId := by
  simp only [prepareAndClaim, bind_eq_ok, raiseIf_eq_ok] at h
  obtain ⟨-, -, -, -, h⟩ := h
  split at h
  · simp only [bind_eq_ok, orRaise_eq_ok, pure_eq_ok, Prod.mk.injEq] at h
    obtain ⟨_, -, rfl, -⟩ := h
    rfl
  · rename_i row hrow
    simp only [bind_eq_ok, raiseIf_eq_ok, orRaise_eq_ok, pure_eq_ok, Prod.mk.injEq] at h
    obtain ⟨-, -, -, -, -, -, _, -, rfl, -⟩ := h
    have hid : row.operationId = spec.operationId := Table.key_of_get hrow
    exact hid

theorem claimOperation_id {draw : Draw} {id owner : Str} {time : Instant} {version : Option ℕ}
    {checksum : Option Str} {db db' : Db} {lease : RecoveryLease}
    (h : claimOperation draw id owner time version checksum db = .ok (lease, db')) :
    lease.operationId = strip id := by
  simp only [claimOperation, bind_eq_ok, raiseIf_eq_ok, orRaise_eq_ok, pure_eq_ok,
    Prod.mk.injEq] at h
  obtain ⟨-, -, -, -, row, hrow, -, -, -, -, _, -, rfl, -⟩ := h
  have hid : row.operationId = strip id := Table.key_of_get hrow
  exact hid

theorem possible_of_exec {rt : Runtime} {cluster : Str} {db db' : Db} {c : Command}
    {r : Reply c} (h : Exec rt cluster db c r db') : Possible c r := by
  cases c with
  | getOperation id =>
      rintro operation rfl
      obtain ⟨-, heq | heq⟩ := h
      · exact Table.key_of_get (Except.ok.inj heq).symm
      · cases heq
  | append id a =>
      rintro operation rfl
      obtain ⟨draw, hsettles⟩ := h
      exact append_id hsettles.run_of_ok
  | prepareAndClaim spec owner time version checksum =>
      rintro lease rfl
      obtain ⟨draw, hsettles⟩ := h
      exact prepareAndClaim_id hsettles.run_of_ok
  | claimOperation id owner time version checksum =>
      rintro lease rfl
      obtain ⟨draw, hsettles⟩ := h
      exact claimOperation_id hsettles.run_of_ok
  | commit lease o =>
      rintro operation item rfl
      obtain ⟨draw, hsettles⟩ := h
      exact Execution.commitObservation_ids hsettles.run_of_ok
  | listEvents | create | currentLock | acquire | getRecovery | claimDue | taskAudit
  | activeTasks | vmConfig | clock => trivial

/-- A request or a recovery run, without what it returns. -/
def asProcess {α : Type} (p : Action α) : Program Command Reply Unit :=
  p.run >>= fun _ => .done ()

/-- The programs that can be started. -/
inductive Entry (rt : Runtime) : Program Command Reply Unit → Prop
  | plan (u : UseCase) (c : PlanCommand) : Entry rt (asProcess (u.planUnlock rt c))
  | attest (c : DigestCommand) : Entry rt (asProcess (UseCase.attest rt c))
  | verify (u : UseCase) (c : DigestCommand) : Entry rt (asProcess (u.verify rt c))
  | runOnce (w : Worker) : Entry rt (asProcess (w.runOnce rt))
  | observe (w : Worker) (r : ChangeRecovery.Runner.ObserveRequest) :
      Entry rt (asProcess (w.observe rt r))

/-- All processes over one database. -/
def system (rt : Runtime) (cluster : Str) : System Command Reply Unit Db where
  exec := Exec rt cluster
  environment := Foreign
  entry := Entry rt
  possible := Possible
  possible_of_exec := possible_of_exec

/-- At the start there is no guided unlock; the database is otherwise arbitrary. -/
structure Initial (db : Db) : Prop where
  operations : ∀ id, isGuided id = true → db.operations.get id = none
  recovery : ∀ id, isGuided id = true → db.recovery.get id = none
  locks : ∀ r ∈ db.locks, isGuided r.ownerId = false

/-! ### The contract -/

abbrev Past := History Command Reply

/-- The snapshot of an operation that an event returns. -/
def snapshot : Event Command Reply → Option OperationSnapshot
  | ⟨.getOperation _, .ok operation⟩ => operation
  | ⟨.create .., .ok (operation, _)⟩ => some operation
  | ⟨.append .., .ok operation⟩ => some operation
  | ⟨.commit .., .ok (operation, _)⟩ => some operation
  | _ => none

/-- The process has seen this snapshot. -/
def Seen (h : Past) (operation : OperationSnapshot) : Prop :=
  ∃ e ∈ h, snapshot e = some operation

/-- The snapshot a process has seen of the operation it holds a lease on. -/
structure Decides (h : Past) (lease : RecoveryLease) (operation : OperationSnapshot) : Prop where
  seen : Seen h operation
  names : lease.operationId = operation.operationId ∨
    lease.operationId = strip operation.operationId

/-- The entries of an operation that only the steps named after them may write. -/
def guardedKeys : List Str :=
  ["target", "observed_before", "operator_attestation", "target_operation_lock",
    "instruction_bundle"]

/-- The entries of a recovery item that bind it to its operation and lock. -/
def bindingKeys : List Str :=
  ["target_type", "target_id", "operation_type", "execution_mode", "original_config_lock", "vmid",
    "node_id", "target_lock_id", "cluster_id", "related_target_locks"]

/-- A patch that leaves the entries under some keys alone. -/
def Lacks (keys : List Str) (patch : Dict) : Prop := ∀ key ∈ keys, Dict.get patch key = none

/-- A commit that writes no guarded entry and binds no lock. -/
structure Plain (o : Observation) : Prop where
  operation : Lacks guardedKeys o.detailsPatch
  recovery : Lacks bindingKeys o.recoveryDetailsPatch
  bind : o.bindTargetLock = false
  projector : o.projector = none

/-- The process has observed the stored target of an operation completely, between the events
`past` and `new`. -/
structure Observes (rt : Runtime) (h past new : Past) (operation : OperationSnapshot)
    (observed : Observed) : Prop where
  exists_events : ∃ vmid before config after now,
    intOrZero (targetOf operation) "vmid" = some vmid ∧
    h = new ++ [⟨.clock, .ok now⟩,
      ⟨.activeTasks (rawText rt.repr (targetOf operation) "node_id") vmid, .ok after⟩,
      ⟨.vmConfig (rawText rt.repr (targetOf operation) "node_id") vmid, .ok config⟩,
      ⟨.activeTasks (rawText rt.repr (targetOf operation) "node_id") vmid, .ok before⟩,
      ⟨.taskAudit (rawText rt.repr (targetOf operation) "node_id"), .ok true⟩] ++ past ∧
    observed = ⟨configLock rt.repr config, compactTasks rt (before ++ after), rt.isoformat now⟩

/-- The process has read the target lock of an operation as `current`. -/
def ReadsLock (rt : Runtime) (h : Past) (operation : OperationSnapshot) (current : Option Dict) :
    Prop :=
  ∃ lock, ⟨.currentLock operation.targetType operation.targetId, .ok lock⟩ ∈ h ∧
    current = lock.map (lockDict rt operation.targetType operation.targetId)

/-- The item of a recovery lease, as an event returns it. -/
def returnedItem : Event Command Reply → Option RecoveryItem
  | ⟨.commit .., .ok (_, item)⟩ => some item
  | ⟨.prepareAndClaim .., .ok lease⟩ => some lease.item
  | ⟨.claimOperation .., .ok lease⟩ => some lease.item
  | _ => none

/-- The process has seen the item of a lease. -/
def ItemSeen (h : Past) (item : RecoveryItem) : Prop :=
  ∃ e ∈ h, returnedItem e = some item ∨
    ∃ owner time limit leases, e = ⟨.claimDue owner time limit, .ok leases⟩ ∧
      ∃ lease ∈ leases, lease.item = item

/-- The instruction expired by a reading of the clock. -/
def ExpiryRead (h : Past) (operation : OperationSnapshot) : Prop :=
  ∃ now, ⟨.clock, .ok now⟩ ∈ h ∧ isUnexpired operation now = false

/-- What a process knows when it issues the instruction. -/
structure Issues (rt : Runtime) (h : Past) (lease : RecoveryLease) (operation : OperationSnapshot)
    (evidence : Dict) : Prop where
  prepared : UseCase.isPrepared rt lease evidence = true
  observes : ∃ past new observed current, Observes rt h past new operation observed ∧
    Decides past lease operation ∧ ItemSeen past lease.item ∧
    observed.configLock = originalConfigLock rt operation ∧ observed.activeTasks = [] ∧
    ReadsLock rt new operation current ∧ isExactOwnedLock rt operation current true = true ∧
    lockIdOf rt (current.getD []) = rawText rt.repr lease.item.details "target_lock_id"

/-- What a process knows when it closes an expired instruction. -/
structure Expires (rt : Runtime) (h : Past) (lease : RecoveryLease)
    (operation : OperationSnapshot) : Prop where
  unattested : executionAttested operation = false
  observes : ∃ past new observed current, Observes rt h past new operation observed ∧
    Decides past lease operation ∧ ExpiryRead past operation ∧
    observed.configLock = originalConfigLock rt operation ∧ observed.configLock ≠ [] ∧
    observed.activeTasks = [] ∧ ReadsLock rt new operation current ∧
    isExactOwnedLock rt operation current false = true

/-- What a process knows when it completes a verification. -/
structure Verifies (rt : Runtime) (h : Past) (lease : RecoveryLease)
    (operation : OperationSnapshot) : Prop where
  observes : ∃ past new observed attested, Observes rt h past new operation observed ∧
    Decides past lease operation ∧ Decides past lease attested ∧
    executionAttested attested = true ∧ observed.configLock = [] ∧ observed.activeTasks = []

/-- The commits a process may issue. -/
inductive CommitAllowed (rt : Runtime) (h : Past) (lease : RecoveryLease) (o : Observation) : Prop
  | quiet (hnext : o.nextStatus = none ∨ o.nextStatus = some .needsReconciliation)
      (hrelease : o.releaseTargetLock = false) (hplain : Plain o)
      (hstatus : o.recoveryStatus ≠ RecoveryStatus.completed.name)
  | blocked (hnext : o.nextStatus = some .blocked) (hrelease : o.releaseTargetLock = false)
      (hplain : Plain o) (hstatus : o.recoveryStatus ≠ RecoveryStatus.completed.name)
  | withoutLock (operation : OperationSnapshot) (actor : OperationActor)
      (eventType reason : Str) (observedLock : Dict) (hd : Decides h lease operation)
      (ho : o = UseCase.fenced operation
        (Commit.closeUnissuedWithoutOwnedLock actor eventType reason observedLock))
  | unissued (operation : OperationSnapshot) (actor : OperationActor) (next : OperationStatus)
      (eventType : Str) (payload finalization : Dict) (hd : Decides h lease operation)
      (hnext : next = .blocked ∨ next = .expired)
      (ho : o = UseCase.fenced operation
        (Commit.closeUnissuedPlan actor next eventType payload finalization))
  | bound (operation : OperationSnapshot) (actor : OperationActor) (evidence : Dict)
      (hd : Decides h lease operation)
      (ho : o = UseCase.fenced operation (Commit.lockBound actor evidence (lockIdOf rt evidence)
        (lockClusterId rt evidence)))
  | issued (operation : OperationSnapshot) (actor : OperationActor) (expiresAt : Value)
      (observed : Observed) (bundle evidence : Dict) (delay : Instant)
      (hissues : Issues rt h lease operation evidence)
      (ho : o = UseCase.fenced operation
        (Commit.instructionIssued actor operation expiresAt observed bundle evidence delay))
  | expired (operation : OperationSnapshot) (actor : OperationActor) (expiresAt : Value)
      (observed : Observed) (hexpires : Expires rt h lease operation)
      (ho : o = UseCase.fenced operation (Commit.instructionExpired actor expiresAt observed))
  | verifying (operation : OperationSnapshot) (actor : OperationActor)
      (hd : Decides h lease operation) (hattested : executionAttested operation = true)
      (ho : o = UseCase.fenced operation (Commit.verificationStarted actor operation))
  | succeeded (operation : OperationSnapshot) (actor : OperationActor) (observed : Observed)
      (verifiedAt : Str) (hverifies : Verifies rt h lease operation)
      (ho : o = UseCase.fenced operation
        (Commit.verificationSucceeded actor observed verifiedAt))

/-- The appends a process may issue. -/
inductive AppendAllowed (rt : Runtime) (h : Past) (id : Str) (a : Append) : Prop
  | reconcile (hnext : a.nextStatus = some .needsReconciliation)
      (hplain : Lacks guardedKeys a.detailsPatch)
  | attest (operation : OperationSnapshot) (actor : OperationActor) (now : Instant)
      (next : Option OperationStatus) (eventType : Str) (expiredAt : Dict) (reason : Option Str)
      (hseen : Seen h operation) (hid : operation.operationId = id)
      (hnext : next = none ∧ operation.status = .needsReconciliation ∨
        next = some .needsReconciliation)
      (ha : a = UseCase.attested rt operation actor now next eventType expiredAt reason)
  | attestInTime (operation : OperationSnapshot) (actor : OperationActor) (now : Instant)
      (current : Option Dict) (hseen : Seen h operation) (hid : operation.operationId = id)
      (hstatus : operation.status = .awaitingOperator) (hreads : ReadsLock rt h operation current)
      (hactive : isActiveInstructionLock rt operation current = true)
      (ha : a = UseCase.attested rt operation actor now (some .awaitingVerification)
        "operator_execution_attested" [] none)

/-- When a process may create the recovery item of an operation. -/
structure PrepareAllowed (rt : Runtime) (h : Past) (spec : RecoverySpec) (version : ℕ)
    (checksum : Str) : Prop where
  exists_snapshot : ∃ operation evidence past new, Seen past operation ∧
    h = new ++ [⟨.getRecovery spec.operationId, .ok none⟩] ++ past ∧
    spec.operationId = operation.operationId ∧ spec.recoveryKind = recoveryKind ∧
    recoveryDetails rt operation evidence = some spec.details ∧ version = operation.version ∧
    checksum = operation.lastEventChecksum ∧ (operation.status = .planned → evidence = [])

/-- The commands a process may issue. -/
def Allowed (rt : Runtime) (h : Past) : Command → Prop
  | .create spec _ => ∃ c observed expiresAt, spec = PlanCommand.spec rt c observed expiresAt ∧
      observed.configLock ∈ supportedLocks
  | .append id a => AppendAllowed rt h id a
  | .acquire targetType targetId ownerId => ∃ operation, Seen h operation ∧
      operation.operationId = ownerId ∧ operation.targetType = targetType ∧
      operation.targetId = targetId ∧ operation.status = .planned
  | .prepareAndClaim spec _ _ version checksum => PrepareAllowed rt h spec version checksum
  | .commit lease o => CommitAllowed rt h lease o
  | _ => True

def contract (rt : Runtime) : Contract Command Reply Unit := ⟨Allowed rt, fun _ _ => True⟩

end Gjallar.GuidedSystem

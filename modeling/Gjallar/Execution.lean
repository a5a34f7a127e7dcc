import Gjallar.ChangeRecovery

/-!
# Interleaved executions

Execute requests and recovery runs as processes over one database. Every store call is a
transaction that may also fail, or succeed without its answer arriving; processes crash at any
point; other operations and the connection setup change their own rows at any time. The contract
records what each process may do after its own history.
-/
namespace Gjallar.Execution

open Gjallar.Text Gjallar.Data Gjallar.Tables Gjallar.Operation Gjallar.Admission
  Gjallar.OperationStore Gjallar.TargetLocks Gjallar.RecoveryStore Gjallar.RecoveryBinding
  Gjallar.VmAdmission Gjallar.Processes Gjallar.ChangeServices Gjallar.ChangeRecovery

/-! ### The system -/

/-- The database, and which operations were created since the start. -/
structure World where
  db : Db
  admitted : List Str

/-- The answer and effect of a transaction. -/
inductive Settles {α : Type} (run : Except StoreError (α × Db)) (db : Db) :
    Answer α → Db → Prop
  | done {a db'} (h : run = .ok (a, db')) : Settles run db (.ok a) db'
  /-- The transaction commits but the caller does not learn of it. -/
  | unacknowledged {a db'} (h : run = .ok (a, db')) : Settles run db (.error .other) db'
  | refused {e} (h : run = .error e) : Settles run db (.error (.store e)) db
  | unavailable : Settles run db (.error .other) db

/-- The answer of a read, which may fail. -/
def Reads {α : Type} (a : α) (answer : Answer α) : Prop := answer = .ok a ∨ answer = .error .other

/-- `_locator`: `vmid:[1-9][0-9]*`. -/
def exactLocator (targetId : Str) : Option ℤ :=
  (targetVmid targetId).filter fun v => v ≠ 0 && targetId = ("vmid:" : Str) ++ ofInt v

/-- The operations after a call, with a new one when the call created it. -/
def admittedAfter (id : Str) (w : World) (db' : Db) : List Str :=
  if (w.db.operations.get id).isNone && (db'.operations.get id).isSome then id :: w.admitted
  else w.admitted

/-- What a command does. The reads of the Proxmox client and the mutating call may be answered in
any way, and touch no row. -/
def Exec (rt : Runtime) (cluster : Str) : World → (c : Command) → Reply c → World → Prop
  | w, .receive .., _, w' => w' = w
  | w, .getOperation id, r, w' => w' = w ∧ Reads (w.db.operations.get id) r
  | w, .prepare q, r, w' => ∃ process draws first,
      (first = w.db.operations.get q.operationId ∨ first = none) ∧
      Settles (prepare rt process draws q first w.db) w.db r w'.db ∧
      w'.admitted = admittedAfter q.operationId w w'.db
  | w, .commit lease o, r, w' => ∃ draw,
      Settles (commitObservation rt draw lease o w.db) w.db r w'.db ∧ w'.admitted = w.admitted
  | w, .heartbeat lease time, r, w' => ∃ draw,
      Settles (heartbeat draw lease time w.db) w.db r w'.db ∧ w'.admitted = w.admitted
  | w, .claimDue owner time limit, r, w' => ∃ draw locked,
      Settles (claimDue draw owner time limit locked w.db) w.db r w'.db ∧
      w'.admitted = w.admitted
  | w, .claimOperation id owner time version checksum, r, w' => ∃ draw,
      Settles (claimOperation draw id owner time version checksum w.db) w.db r w'.db ∧
      w'.admitted = w.admitted
  | w, .targetLock id, r, w' => w' = w ∧
      match exactLocator id with
      | some vmid => Reads (targetOperationLock cluster vmid w.db.locks) r
      | none => r = .error .other
  | w, .review .., _, w' => w' = w
  | w, .task .., _, w' => w' = w
  | w, .observe .., _, w' => w' = w
  | w, .dispatch .., _, w' => w' = w

/-- What everything else may do to the database: it leaves the admitted operations and the locks
they own alone, deletes no operation and changes no stored intent. -/
structure Foreign (w w' : World) : Prop where
  admitted : w'.admitted = w.admitted
  operations : ∀ id ∈ w.admitted, w'.db.operations.get id = w.db.operations.get id
  intents : ∀ id row, w.db.operations.get id = some row →
    ∃ row', w'.db.operations.get id = some row' ∧ row'.intentDigest = row.intentDigest
  locks : ∀ id r, w.db.locks.get id = some r → r.ownerId ∈ w.admitted →
    w'.db.locks.get id = some r

/-- What is known of every reply. -/
def Possible : (c : Command) → Reply c → Prop
  | .getOperation id, r => ∀ operation, r = .ok (some operation) → operation.operationId = id
  | .prepare q, r => ∀ operation lease, r = .ok (operation, lease) →
      operation.operationId = q.operationId ∧ operation.intentDigest = q.spec.intentDigest ∧
      ∀ l ∈ lease, l.operationId = q.operationId
  | .commit lease _, r => ∀ operation item, r = .ok (operation, item) →
      operation.operationId = lease.operationId ∧ item.operationId = lease.operationId
  | .heartbeat lease _, r => ∀ l, r = .ok l → l.operationId = lease.operationId
  | _, _ => True

theorem Settles.run_of_ok {α : Type} {run : Except StoreError (α × Db)} {db db' : Db} {a : α}
    (h : Settles run db (.ok a) db') : run = .ok (a, db') := by
  cases h
  assumption

/-- A transaction either ran or left the database as it was. -/
theorem Settles.cases_db {α : Type} {run : Except StoreError (α × Db)} {db db' : Db}
    {answer : Answer α} (h : Settles run db answer db') :
    db' = db ∨ ∃ a, run = .ok (a, db') := by
  cases h with
  | done h => exact .inr ⟨_, h⟩
  | unacknowledged h => exact .inr ⟨_, h⟩
  | refused => exact .inl rfl
  | unavailable => exact .inl rfl

theorem commitObservation_ids {rt : Runtime} {draw : Draw} {lease : RecoveryLease}
    {o : Observation} {db db' : Db} {operation : OperationSnapshot} {item : RecoveryItem}
    (h : commitObservation rt draw lease o db = .ok ((operation, item), db')) :
    operation.operationId = lease.operationId ∧ item.operationId = lease.operationId := by
  obtain ⟨status, row, old, p, jobs, mid, recovery, locks, -, hrow, -, -, -, -, -, -, happend, -,
    -, rfl, -⟩ := commitObservation_eq_ok h
  obtain ⟨r, _, _, hr, -, -, -, rfl, -, -⟩ := appendInSession_eq_ok happend
  have hop : r.operationId = lease.operationId := Table.key_of_get hr
  have hitem : row.operationId = lease.operationId := Table.key_of_get hrow
  exact ⟨hop, hitem⟩

theorem heartbeat_id {draw : Draw} {lease lease' : RecoveryLease} {time : Instant} {db db' : Db}
    (h : heartbeat draw lease time db = .ok (lease', db')) :
    lease'.operationId = lease.operationId := by
  simp only [heartbeat, bind_eq_ok, lockedOwnedRow_eq_ok, orRaise_eq_ok, pure_eq_ok,
    Prod.mk.injEq] at h
  obtain ⟨row, ⟨hrow, -⟩, recovery, -, rfl, -⟩ := h
  have hid : row.operationId = lease.operationId := Table.key_of_get hrow
  exact hid

theorem possible_of_exec {rt : Runtime} {cluster : Str} {w w' : World} {c : Command}
    {r : Reply c} (h : Exec rt cluster w c r w') : Possible c r := by
  cases c with
  | getOperation id =>
      rintro operation rfl
      obtain ⟨-, heq | heq⟩ := h
      · exact Table.key_of_get (Except.ok.inj heq).symm
      · cases heq
  | prepare q =>
      rintro operation lease rfl
      obtain ⟨process, draws, first, hfirst, hsettles, -⟩ := h
      obtain ⟨-, hid, hdigest, -, -, -, hcreates⟩ := prepare_spec hfirst hsettles.run_of_ok
      exact ⟨hid, hdigest, fun l hl => (hcreates l hl).leased⟩
  | commit lease o =>
      rintro operation item rfl
      obtain ⟨draw, hsettles, -⟩ := h
      exact commitObservation_ids hsettles.run_of_ok
  | heartbeat lease time =>
      rintro l rfl
      obtain ⟨draw, hsettles, -⟩ := h
      exact heartbeat_id hsettles.run_of_ok
  | receive | claimDue | claimOperation | targetLock | review | task | observe | dispatch =>
      trivial

/-- The programs that can be started. -/
inductive Entry (rt : Runtime) : Prog Outcome → Prop
  | execute (svc : Service) (nodeId : Str) (vmid : ℤ) (request : Request) (polls : ℕ)
      (actor : OperationActor) : Entry rt (svc.execute rt nodeId vmid request polls actor)
  | runOnce (runner : Runner) : Entry rt (runner.runOnce rt)
  | observe (runner : Runner) (r : Runner.ObserveRequest) : Entry rt (runner.observe rt r)

/-- All processes over one database. -/
def system (rt : Runtime) (cluster : Str) : System Command Reply Outcome World where
  exec := Exec rt cluster
  environment := Foreign
  entry := Entry rt
  possible := Possible
  possible_of_exec := possible_of_exec

/-- No operation counts as created at the start; the database is arbitrary. -/
def Initial (w : World) : Prop := w.admitted = []

/-! ### The contract -/

/-- The operation an event dispatches. -/
def dispatched : Event Command Reply → Option Str
  | ⟨.dispatch _ _ _ _ operation, _⟩ => some operation.operationId
  | _ => none

/-- The operation an event creates, as its process knows. -/
def created : Event Command Reply → Option Str
  | ⟨.prepare q, .ok (_, some _)⟩ => some q.operationId
  | _ => none

/-- The commit of an event, as its process knows: the operation and what was observed of it. -/
def committed : Event Command Reply → Option (Str × Observation)
  | ⟨.commit lease o, .ok _⟩ => some (lease.operationId, o)
  | _ => none

/-- Does an event claim recovery work? -/
def claims : Event Command Reply → Bool
  | ⟨.claimDue .., _⟩ => true
  | ⟨.claimOperation .., _⟩ => true
  | _ => false

/-- The snapshot of an operation that an event returns. -/
def snapshot : Event Command Reply → Option OperationSnapshot
  | ⟨.getOperation _, .ok operation⟩ => operation
  | ⟨.prepare _, .ok (operation, _)⟩ => some operation
  | ⟨.commit .., .ok (operation, _)⟩ => some operation
  | _ => none

abbrev Past := History Command Reply

/-- A patch of the details that touches neither the lock binding nor the evidence of a dispatch,
but for clearing the task reference. -/
structure Plain (patch : Dict) : Prop where
  lock : Dict.get patch "target_lock_id" = none
  related : Dict.get patch "related_target_locks" = none
  dispatched : Dict.get patch "mutation_dispatched" = none
  acknowledged : Dict.get patch "dispatch_acknowledged" = none
  upid : Dict.get patch "proxmox_upid" = none ∨ Dict.get patch "proxmox_upid" = some (.str [])

/-- Do the details acknowledge the dispatch, as the service looks for it? -/
def Acknowledged (rt : Runtime) (svc : Service) (operation : OperationSnapshot) : Prop :=
  match svc.mode with
  | .config => Dict.get operation.details "dispatch_acknowledged" = some (.bool true)
  | .task => (Service.upidOf rt operation).isSome = true

/-- The task was seen to have stopped well. -/
def TaskSucceeded (rt : Runtime) (svc : Service) (h : Past) : Prop :=
  ∃ nodeId upid raw, ⟨.task svc nodeId upid, .ok raw⟩ ∈ h ∧
    (compactProxmoxTask rt.repr raw nodeId upid).status = ("stopped" : Str) ∧
    (compactProxmoxTask rt.repr raw nodeId upid).exitstatus = ("OK" : Str)

/-- The process has seen this snapshot. -/
def Seen (h : Past) (operation : OperationSnapshot) : Prop :=
  ∃ e ∈ h, snapshot e = some operation

/-- The process has seen the dispatch acknowledged, and the task succeed if there is one, and has
then observed a result that matches the request. -/
def Verified (rt : Runtime) (h : Past) (id : Str) : Prop :=
  ∃ svc operation after new past, h = new ++ ⟨.observe svc operation, .ok after⟩ :: past ∧
    Seen past operation ∧ operation.operationId = id ∧ Acknowledged rt svc operation ∧
    svc.compare after operation = .ok true ∧ (svc.mode = .task → TaskSucceeded rt svc past)

/-- The commits a process may issue. -/
inductive CommitAllowed (rt : Runtime) (h : Past) (lease : RecoveryLease) (o : Observation) : Prop
  | plain (hnext : o.nextStatus = none ∨ o.nextStatus = some .needsReconciliation)
      (hrelease : o.releaseTargetLock = false) (hpatch : Plain o.detailsPatch)
  | blocked (hnext : o.nextStatus = some .blocked)
      (hexpected : o.expectedStatuses = some [.planned]) (hpatch : Plain o.detailsPatch)
  | dispatching (svc : Service) (ho : o = svc.dispatching)
      (hcreated : ∃ e ∈ h, created e = some lease.operationId)
  | bound (hnext : o.nextStatus = some .running) (hrelease : o.releaseTargetLock = false)
      (hlock : Dict.get o.detailsPatch "target_lock_id" = none)
      (hrelated : Dict.get o.detailsPatch "related_target_locks" = none)
      (hdispatched : ∃ e ∈ h, dispatched e = some lease.operationId)
  | verifying (hnext : o.nextStatus = some .verifying) (hrelease : o.releaseTargetLock = false)
      (hpatch : Plain o.detailsPatch) (hverified : Verified rt h lease.operationId)
  | succeeded (hnext : o.nextStatus = some .succeeded) (hpatch : Plain o.detailsPatch)
      (hverified : Verified rt h lease.operationId)

/-- When a process may issue the mutating call. -/
structure DispatchAllowed (rt : Runtime) (h : Past) (svc : Service) (nodeId : Str) (vmid : ℤ)
    (request : Request) (operation : OperationSnapshot) : Prop where
  admitted : ∃ actor before stored lease,
    ⟨.prepare (svc.admission rt nodeId vmid request actor before), .ok (stored, some lease)⟩ ∈ h
  target : operation.operationId = svc.operationId rt nodeId vmid request
  marked : ∃ lease item, lease.operationId = operation.operationId ∧
    ⟨.commit lease svc.dispatching, .ok (operation, item)⟩ ∈ h
  once : ∀ e ∈ h, dispatched e ≠ some operation.operationId
  unclaimed : ∀ e ∈ h, claims e = false

/-- The commands a process may issue after its admission, or in a recovery run. -/
def Allowed (rt : Runtime) (h : Past) : Command → Prop
  | .receive .. => h = []
  | .commit lease o => o.bindTargetLock = false ∧ o.projector = none ∧ CommitAllowed rt h lease o
  | .dispatch svc nodeId vmid request operation =>
      DispatchAllowed rt h svc nodeId vmid request operation
  | .prepare q => ∃ svc nodeId vmid request actor before,
      q = svc.admission rt nodeId vmid request actor before ∧
      ⟨.receive svc nodeId vmid request, ()⟩ ∈ h
  | .claimDue .. | .claimOperation .. => ∀ e ∈ h, dispatched e = none
  | _ => True

/-- Allowed commands other than an admission. -/
def Quiet (rt : Runtime) (h : Past) (c : Command) : Prop :=
  Allowed rt h c ∧ (∀ q, c ≠ .prepare q) ∧ ∀ svc nodeId vmid request,
    c ≠ .receive svc nodeId vmid request

/-- How an execute request ends: with an exception, or after it has seen the stored operation with
its own intent. Another intent ends it with the conflict. -/
structure RequestEnds (rt : Runtime) (h : Past) (svc : Service) (nodeId : Str) (vmid : ℤ)
    (request : Request) (outcome : Outcome) : Prop where
  seen : (∃ e, outcome = .raised e) ∨ ∃ e ∈ h, ∃ seen, snapshot e = some seen ∧
    seen.operationId = svc.operationId rt nodeId vmid request ∧
    seen.intentDigest = svc.intentDigest rt nodeId vmid request
  lookup : (∀ q a, ⟨.prepare q, .ok a⟩ ∉ h) → ∀ existing,
    ⟨.getOperation (svc.operationId rt nodeId vmid request), .ok (some existing)⟩ ∈ h →
    existing.intentDigest ≠ svc.intentDigest rt nodeId vmid request →
    outcome = .raised svc.idempotencyConflict
  admission : ∀ q e, ⟨.prepare q, .error e⟩ ∈ h → outcome = .raised e

/-- The end of a process that began with an execute request. -/
def Ends (rt : Runtime) (h : Past) (outcome : Outcome) : Prop :=
  ∀ svc nodeId vmid request, h.getLast? = some ⟨.receive svc nodeId vmid request, ()⟩ →
    RequestEnds rt h svc nodeId vmid request outcome

def contract (rt : Runtime) : Contract Command Reply Outcome := ⟨Allowed rt, Ends rt⟩

end Gjallar.Execution

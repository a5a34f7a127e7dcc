import Gjallar.RecoveryStore
import Gjallar.Sessions

/-!
# The coordination tables, statement by statement

The operations, events, recovery items and locks as rows of one store, the statements that the
repositories issue against them, and `create` and `append_in_session` as programs over these
statements.
-/
namespace Gjallar.Coordination

open Gjallar.Text Gjallar.Data Gjallar.Operation Gjallar.Admission Gjallar.OperationStore
  Gjallar.ReadCommitted Gjallar.Sessions Gjallar.Processes Gjallar.Processes.Fallible

/-- A row of one of the four tables. -/
inductive Row where
  | operation (r : OperationRecord)
  | event (r : OperationEventRecord)
  | recovery (r : RecoveryRecord)
  | lock (r : OperationLockRecord)
  deriving DecidableEq

inductive Key where
  | operation (operationId : Str)
  | event (eventId : Str)
  | recovery (operationId : Str)
  | lock (operationLockId : Str)
  deriving DecidableEq

namespace Row

def key : Row → Key
  | .operation r => .operation r.operationId
  | .event r => .event r.eventId
  | .recovery r => .recovery r.operationId
  | .lock r => .lock r.operationLockId

def asOperation : Row → Option OperationRecord
  | .operation r => some r
  | _ => none

def asRecovery : Row → Option RecoveryRecord
  | .recovery r => some r
  | _ => none

def asLock : Row → Option OperationLockRecord
  | .lock r => some r
  | _ => none

end Row

/-- The unique indexes and the foreign keys of the four tables. -/
def schema : Schema Row Key where
  clash
    | .operation r, .operation s => sameIdempotencyScope r s
    | .event r, .event s => sameSequence r s
    | .lock r, .lock s => sameOpenScope r s
    | _, _ => false
  refers
    | .event r => [.operation r.operationId]
    | .recovery r => [.operation r.operationId]
    | _ => []

/-- What a call learns from outside these tables: its arguments, the time, random digits, the
registered connection with the process that serves it, and the compatibility job projection. -/
inductive Outer (Q : Type) where
  | receive (q : Q)
  | now
  | draw
  | connections
  | jobs

abbrev Outer.Answer {Q : Type} : Outer Q → Type
  | .receive _ => Unit
  | .now => Instant
  | .draw => Hex
  | .connections => Process × Connections
  | .jobs => Dict

/-- An error that the code raises, or an error of the database or of the connection to it. -/
inductive Fault where
  | raised (e : StoreError)
  | database
  deriving DecidableEq

/-- Time passes; the random source, the connection and the projection are arbitrary. -/
def surroundings (Q : Type) : Surroundings (Outer Q) Outer.Answer Fault Instant where
  acts
    | now, .receive _, r, now' => r = .ok () ∧ now' = now
    | now, .now, r, now' => r = .ok now ∧ now' = now
    | now, .draw, r, now' => r.isOk = true ∧ now' = now
    | now, .connections, r, now' => r.isOk = true ∧ now' = now
    | now, .jobs, r, now' => r.isOk = true ∧ now' = now
  drifts now now' := now ≤ now'
  lost := .database

abbrev Prog (Q β : Type) := Sessions.Prog Row Key (Outer Q) Outer.Answer Fault β

abbrev CoordinationRows := Rows Row Key Row.key

abbrev World := Sessions.World Row Key Row.key Instant

variable {Q : Type}

/-- Raise what a computation without the database raises. -/
def lift {β : Type} : Except StoreError β → Prog Q β
  | .ok b => pure b
  | .error e => throw (.raised e)

def receive (q : Q) : Prog Q Unit := Call.outside (Outer.receive q)

def now : Prog Q Instant := Call.outside Outer.now

def draw : Prog Q Hex := Call.outside Outer.draw

def connections : Prog Q (Process × Connections) := Call.outside Outer.connections

def jobs : Prog Q Dict := Call.outside Outer.jobs

/-- `session.add` of a new row and `session.flush`. -/
def add (t : ℕ) (r : Row) : Prog Q Unit := do
  if ← Call.insert t r then return else throw (.raised .integrityError)

/-- `session.flush` of a row that was changed. -/
def flush (t : ℕ) (r : Row) : Prog Q Unit := do
  if ← Call.update t r then return else throw (.raised .integrityError)

/-! ### Creation -/

/-- The filter of `_get_by_scope`. -/
def inScope (spec : OperationSpec) (row : Row) : Bool :=
  row.asOperation.any fun r =>
    r.operationType = spec.operationType && r.targetType = spec.targetType &&
      r.targetId = spec.targetId && r.idempotencyKey = spec.idempotencyKey

/-- `_get_by_scope`. -/
def getByScope (t : ℕ) (spec : OperationSpec) : Prog Q (Option OperationSnapshot) := do
  let rows ← Call.select t (inScope spec)
  return rows.head?.bind Row.asOperation

/-- `session.get(OperationRecord, operation_id)`. -/
def getOperation (t : ℕ) (operationId : Str) : Prog Q (Option OperationSnapshot) := do
  let row ← Call.get t (.operation operationId)
  return row.bind Row.asOperation

/-- What `create` inserts in its transaction. -/
def insertOperation (row : OperationRecord) (event : OperationEventRecord) (t : ℕ) :
    Prog Q OperationSnapshot := do
  add t (.operation row)
  add t (.event event)
  return row

/-- The handler of the integrity error in `create`. -/
def resolveConflict (spec : OperationSpec) : Prog Q (OperationSnapshot × Bool) := do
  match ← sessionScope (getByScope · spec) with
  | some existing => lift (resolveExisting existing spec)
  | none =>
      match ← sessionScope (getOperation · spec.operationId) with
      | some existing => lift (resolveExisting existing spec)
      | none => throw (.raised .integrityError)

/-- `create`, after its arguments are known. -/
def createOperation (rt : Runtime) (spec : OperationSpec) (eventPayload : Dict) :
    Prog Q (OperationSnapshot × Bool) := do
  match ← sessionScope (getByScope · spec) with
  | some existing => lift (resolveExisting existing spec)
  | none =>
      let createdAt ← now
      let id ← draw
      let drawn : Draw := ⟨createdAt, createdAt, fun _ => id⟩
      match ← attempt (sessionScope (insertOperation (newOperation rt drawn spec eventPayload)
          (createdEvent rt drawn spec eventPayload))) with
      | .ok row => return (row, true)
      | .error (.raised .integrityError) => resolveConflict spec
      | .error e => throw e

end Gjallar.Coordination

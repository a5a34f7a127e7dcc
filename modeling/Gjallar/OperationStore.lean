import Gjallar.Admission
import Gjallar.Redaction

/-!
# The operation store

`SqlAlchemyOperationStore`: creation under the idempotency constraint, and the append of a
checksum-linked event together with its effect on the current row.
-/
namespace Gjallar.OperationStore

open Gjallar.Text Gjallar.Data Gjallar.Tables Gjallar.Operation Gjallar.Admission
  Gjallar.Redaction

/-- The tables of the coordination database, with the compatibility job projection. -/
structure Db where
  operations : OperationTable := Table.empty
  events : EventTable := Table.empty
  recovery : RecoveryTable := Table.empty
  locks : LockTable := Table.empty
  jobs : Dict := []
  connections : Connections := ⟨none, []⟩
  deriving DecidableEq

structure OperationSpec where
  operationId : Str
  operationType : OperationType
  executionMode : ExecutionMode
  targetType : Str
  targetId : Str
  idempotencyKey : Str
  intentDigest : Str
  planDigest : Str
  actor : OperationActor
  initialStatus : OperationStatus := .planned
  initialStage : Str := "plan"
  expiresAt : Option Instant := none
  details : Dict := []

/-- The fields `OperationSpec` requires. -/
def OperationSpec.required (spec : OperationSpec) : List (Str × Str) :=
  [("operation_id", spec.operationId), ("operation_type", spec.operationType.name),
    ("target_type", spec.targetType), ("target_id", spec.targetId),
    ("idempotency_key", spec.idempotencyKey), ("intent_digest", spec.intentDigest),
    ("plan_digest", spec.planDigest)]

/-- `OperationSpec.__post_init__`. -/
def OperationSpec.check (spec : OperationSpec) : Except StoreError Unit :=
  let missing := (spec.required.filter fun f => (strip f.2).isEmpty).map Prod.fst
  raiseIf (missing ≠ [])
    (.valueError (("Operation fields are required: " : Str) ++ join ", " missing))

/-- `event_checksum_payload`. -/
def eventChecksumPayload (rt : Runtime) (e : OperationEventRecord) : Value :=
  .dict [("operation_id", .str e.operationId), ("sequence", .int e.sequence),
    ("event_type", .str e.eventType),
    ("from_status", e.fromStatus.elim .null fun s => .str (statusName s)),
    ("to_status", .str (statusName e.toStatus)), ("stage", .str e.stage),
    ("actor", .dict [("user_id", .str e.actor.userId), ("username", .str e.actor.username),
      ("role", .str e.actor.role)]),
    ("payload", .dict e.payload), ("previous_checksum", .str e.previousChecksum),
    ("created_at", .str (rt.isoformat e.createdAt))]
where
  statusName : OperationStatus → Str
    | .draft => "draft"
    | .planned => "planned"
    | .awaitingApproval => "awaiting_approval"
    | .approved => "approved"
    | .dispatching => "dispatching"
    | .running => "running"
    | .awaitingOperator => "awaiting_operator"
    | .awaitingVerification => "awaiting_verification"
    | .verifying => "verifying"
    | .succeeded => "succeeded"
    | .blocked => "blocked"
    | .rejected => "rejected"
    | .expired => "expired"
    | .failed => "failed"
    | .needsReconciliation => "needs_reconciliation"
    | .cancelled => "cancelled"

/-- Complete an event with its checksum. -/
def sealEvent (rt : Runtime) (e : OperationEventRecord) : OperationEventRecord :=
  { e with checksum := rt.operationDigest (eventChecksumPayload rt e) }

def newEventId (draw : Draw) : Str := ("operation-event-" : Str) ++ (draw.uuid 0).digits

/-! ### Creation -/

/-- The first event of an operation. -/
def createdEvent (rt : Runtime) (draw : Draw) (spec : OperationSpec) (eventPayload : Dict := []) :
    OperationEventRecord :=
  sealEvent rt
    { eventId := newEventId draw, operationId := spec.operationId, sequence := 1,
      eventType := "operation_created", fromStatus := none, toStatus := spec.initialStatus,
      stage := spec.initialStage, actor := spec.actor, payload := sanitized eventPayload,
      previousChecksum := [], checksum := [], createdAt := draw.eventTime }

/-- The row of a new operation. -/
def newOperation (rt : Runtime) (draw : Draw) (spec : OperationSpec) (eventPayload : Dict := []) :
    OperationRecord :=
  { operationId := spec.operationId, operationType := spec.operationType,
    executionMode := spec.executionMode, status := spec.initialStatus,
    targetType := spec.targetType, targetId := spec.targetId,
    idempotencyKey := spec.idempotencyKey, intentDigest := spec.intentDigest,
    planDigest := spec.planDigest, currentStage := spec.initialStage, actor := spec.actor,
    details := sanitized spec.details, version := 1,
    lastEventChecksum := (createdEvent rt draw spec eventPayload).checksum,
    createdAt := draw.eventTime, updatedAt := draw.eventTime, expiresAt := spec.expiresAt }

/-- `_get_by_scope`. -/
def getByScope (db : Db) (spec : OperationSpec) : Option OperationRecord :=
  db.operations.rows.find? fun r =>
    r.operationType = spec.operationType && r.targetType = spec.targetType &&
      r.targetId = spec.targetId && r.idempotencyKey = spec.idempotencyKey

/-- `_resolve_existing`. -/
def resolveExisting (existing : OperationRecord) (spec : OperationSpec) :
    Except StoreError (OperationSnapshot × Bool) :=
  if existing.operationType = spec.operationType ∧ existing.executionMode = spec.executionMode ∧
      existing.targetType = spec.targetType ∧ existing.targetId = spec.targetId ∧
      existing.idempotencyKey = spec.idempotencyKey ∧
      existing.intentDigest = spec.intentDigest ∧ existing.planDigest = spec.planDigest then
    .ok (existing, false)
  else .error (.operationIntentConflict existing.operationId)

/-- `create`: the snapshot and whether this call created it. -/
def create (rt : Runtime) (draw : Draw) (spec : OperationSpec) (db : Db)
    (eventPayload : Dict := []) : Except StoreError ((OperationSnapshot × Bool) × Db) :=
  match getByScope db spec with
  | some existing => do return (← resolveExisting existing spec, db)
  | none =>
      let row := newOperation rt draw spec eventPayload
      match db.operations.insert row, db.events.insert (createdEvent rt draw spec eventPayload) with
      | some operations, some events =>
          .ok ((row, true), { db with operations := operations, events := events })
      | _, _ =>
          match db.operations.get spec.operationId with
          | some existing => do return (← resolveExisting existing spec, db)
          | none => .error .integrityError

/-- `get`. -/
def get (operationId : Str) (db : Db) : Option OperationSnapshot := db.operations.get operationId

/-! ### Appending an event -/

/-- What a caller appends: an event, and a transition when a next status is given. -/
structure Append where
  nextStatus : Option OperationStatus := none
  eventType : Str
  stage : Str
  payload : Dict := []
  detailsPatch : Dict := []
  actor : Option OperationActor := none
  expectedStatuses : Option (List OperationStatus) := none

/-- The event appended to a row. -/
def appendedEvent (rt : Runtime) (draw : Draw) (row : OperationRecord) (a : Append) :
    OperationEventRecord :=
  sealEvent rt
    { eventId := newEventId draw, operationId := row.operationId, sequence := row.version + 1,
      eventType := a.eventType, fromStatus := some row.status,
      toStatus := a.nextStatus.getD row.status, stage := a.stage,
      actor := a.actor.getD row.actor, payload := sanitized a.payload,
      previousChecksum := row.lastEventChecksum, checksum := [], createdAt := draw.eventTime }

/-- `_apply_projection`. -/
def applyProjection (rt : Runtime) (draw : Draw) (row : OperationRecord) (a : Append) :
    OperationRecord :=
  { row with
    status := a.nextStatus.getD row.status
    currentStage := a.stage
    details := Dict.merge row.details (sanitized a.detailsPatch)
    version := row.version + 1
    lastEventChecksum := (appendedEvent rt draw row a).checksum
    updatedAt := draw.eventTime }

/-- `ensure_operation_transition` when the append is a transition. -/
def ensureNext (current : OperationStatus) (next : Option OperationStatus) :
    Except StoreError Unit :=
  match next with
  | some next => ensureOperationTransition current next
  | none => .ok ()

@[simp] theorem ensureNext_eq_ok (current : OperationStatus) (next : Option OperationStatus)
    (u : Unit) : ensureNext current next = .ok u ↔ ∀ n ∈ next, n ∈ current.allowed := by
  cases next with
  | none => simp [ensureNext]
  | some next => simp [ensureNext, ensureOperationTransition]

/-- `append_in_session`. -/
def appendInSession (rt : Runtime) (draw : Draw) (operationId : Str) (a : Append) (db : Db) :
    Except StoreError (OperationSnapshot × Db) := do
  raiseIf ((strip a.eventType).isEmpty = true ∨ (strip a.stage).isEmpty = true)
    (.valueError "Operation event_type and stage are required")
  let row ← orRaise (db.operations.get operationId) (.operationNotFound operationId)
  raiseIf (∃ expected ∈ a.expectedStatuses, row.status ∉ expected)
    (.operationStateConflict operationId row.status)
  ensureNext row.status a.nextStatus
  let events ← orRaise (db.events.insert (appendedEvent rt draw row a)) .integrityError
  let row' := applyProjection rt draw row a
  let operations ← orRaise (db.operations.put row') .integrityError
  return (row', { db with operations := operations, events := events })

section Projection

variable (rt : Runtime) (draw : Draw) (row : OperationRecord) (a : Append)

@[simp] theorem applyProjection_operationId :
    (applyProjection rt draw row a).operationId = row.operationId := rfl
@[simp] theorem applyProjection_operationType :
    (applyProjection rt draw row a).operationType = row.operationType := rfl
@[simp] theorem applyProjection_targetType :
    (applyProjection rt draw row a).targetType = row.targetType := rfl
@[simp] theorem applyProjection_targetId :
    (applyProjection rt draw row a).targetId = row.targetId := rfl
@[simp] theorem applyProjection_intentDigest :
    (applyProjection rt draw row a).intentDigest = row.intentDigest := rfl
@[simp] theorem applyProjection_status :
    (applyProjection rt draw row a).status = a.nextStatus.getD row.status := rfl
@[simp] theorem applyProjection_details :
    (applyProjection rt draw row a).details = Dict.merge row.details (sanitized a.detailsPatch) :=
  rfl
@[simp] theorem applyProjection_version :
    (applyProjection rt draw row a).version = row.version + 1 := rfl

end Projection

/-- What a successful append does, with every guard it passed. -/
theorem appendInSession_eq_ok {rt : Runtime} {draw : Draw} {operationId : Str} {a : Append}
    {db db' : Db} {row' : OperationSnapshot}
    (h : appendInSession rt draw operationId a db = .ok (row', db')) :
    ∃ row events operations, db.operations.get operationId = some row ∧
      (∀ expected ∈ a.expectedStatuses, row.status ∈ expected) ∧
      (∀ next ∈ a.nextStatus, next ∈ row.status.allowed) ∧
      db.events.insert (appendedEvent rt draw row a) = some events ∧
      row' = applyProjection rt draw row a ∧ db.operations.put row' = some operations ∧
      db' = { db with operations := operations, events := events } := by
  simp only [appendInSession, bind_eq_ok, raiseIf_eq_ok, orRaise_eq_ok, ensureNext_eq_ok,
    pure_eq_ok] at h
  obtain ⟨-, -, row, hrow, -, hexp, -, hnext, events, hev, operations, hput, heq⟩ := h
  obtain ⟨rfl, rfl⟩ := Prod.mk.inj heq
  refine ⟨row, events, operations, hrow, fun expected he => ?_, hnext, hev, rfl, hput, rfl⟩
  by_contra hc
  exact hexp ⟨expected, he, hc⟩

end Gjallar.OperationStore

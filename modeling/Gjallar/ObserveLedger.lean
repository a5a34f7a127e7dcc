import Gjallar.GuidedQm

/-!
# The ledger of observation requests

Every request of an operator to observe a recovery item is recorded in the details of the item:
the digest of its idempotency key with the operation version and checksum it was made for. The
ledger is bounded, holds a key once, and is read back with all its checks by every later request.
-/
namespace Gjallar.ObserveLedger

open Gjallar.Text Gjallar.Data Gjallar.Operation Gjallar.Redaction Gjallar.GuidedQm

/-- `OperationRecoveryObserveError`. -/
structure ObserveError where
  code : Str
  message : Str
  statusCode : ℕ
  details : Dict := []
  deriving DecidableEq

/-- `_OPERATOR_OBSERVE_LEDGER_LIMIT`. -/
def ledgerLimit : ℕ := 64

/-- `_observe_key_digest`. -/
def observeKeyDigest (rt : Runtime) (value : Str) : Str :=
  ("sha256:" : Str) ++ (rt.sha256 value).digits

/-- An entry of the ledger: the digest of a key with the state fence of its first request. -/
structure ObserveRecord where
  digest : Str
  version : ℕ
  checksum : Str
  deriving DecidableEq

namespace ObserveRecord

def toDict (r : ObserveRecord) : Dict :=
  [("idempotency_key_digest", .str r.digest), ("expected_version", .int r.version),
    ("expected_checksum", .str r.checksum)]

/-- The version and checksum fence of a record. -/
def fence (r : ObserveRecord) : ℕ × Str := (r.version, r.checksum)

end ObserveRecord

/-! ### Reading the ledger -/

/-- The refusal of a ledger or a key. -/
def idempotencyConflict (operationId message : Str) : ObserveError :=
  { code := "OPERATION_RECOVERY_IDEMPOTENCY_CONFLICT", message := message, statusCode := 409,
    details := [("operation_id", .str operationId)] }

def ledgerFull (operationId : Str) : ObserveError :=
  { code := "OPERATION_RECOVERY_IDEMPOTENCY_LEDGER_FULL",
    message := "No additional recovery observation idempotency keys can be recorded safely",
    statusCode := 409, details := [("operation_id", .str operationId)] }

/-- Is the text `sha256:` and 64 lowercase hexadecimal digits? -/
def isKeyDigest (digest : Str) : Bool :=
  let digits := removePrefix "sha256:" digest
  ("sha256:" : Str).isPrefixOf digest && digits.length = 64 && digits.all isLowerHex

/-- A version of at least one, as `isinstance(version, int)` without booleans. -/
def positiveVersion (v : Value) : Option ℕ :=
  (v.asInt.filter fun n => 1 ≤ n).map Int.toNat

/-- The check of one entry. -/
def readRecord (rt : Runtime) (operationId : Str) (candidate : Value) :
    Except ObserveError ObserveRecord := do
  let d ← orRaise candidate.asDict (idempotencyConflict operationId
    "The recovery observation idempotency ledger contains an invalid entry")
  let invalid := idempotencyConflict operationId
    "The recovery observation idempotency ledger contains an invalid state fence"
  let digest := rawText rt.repr d "idempotency_key_digest"
  let checksum := rawText rt.repr d "expected_checksum"
  raiseIf (isKeyDigest digest = false) invalid
  let version ← orRaise (positiveVersion (Dict.getD d "expected_version" .null)) invalid
  raiseIf (checksum = [] ∨ 160 < checksum.length) invalid
  return ⟨digest, version, checksum⟩

/-- Add an entry to those read before it. -/
def addRecord (operationId : Str) (records : List ObserveRecord) (record : ObserveRecord) :
    Except ObserveError (List ObserveRecord) :=
  match records.find? fun r => r.digest = record.digest with
  | none => .ok (records ++ [record])
  | some seen => do
      raiseIf (seen.fence ≠ record.fence) (idempotencyConflict operationId
        "The recovery observation idempotency ledger contains conflicting state fences")
      return records

/-- Read one entry after the others. -/
def readNext (rt : Runtime) (operationId : Str) (records : List ObserveRecord)
    (candidate : Value) : Except ObserveError (List ObserveRecord) := do
  let record ← readRecord rt operationId candidate
  addRecord operationId records record

/-- The list under `operator_observe_requests`; `none` when it is not a list. -/
def rawRecords (details : Dict) : Option (List Value) :=
  match Dict.getD details "operator_observe_requests" .null with
  | .null => some []
  | .list xs => some xs
  | _ => none

/-- The request that an earlier release recorded outside the list. -/
def legacyRecord (rt : Runtime) (details : Dict) : List Value :=
  let digest := rawText rt.repr details "last_operator_observe_key_digest"
  if digest = [] then []
  else [.dict [("idempotency_key_digest", .str digest),
    ("expected_version", Dict.getD details "last_operator_observe_expected_version" .null),
    ("expected_checksum", Dict.getD details "last_operator_observe_expected_checksum" .null)]]

/-- `_observe_request_records` of an item with these details. -/
def observeRequestRecords (rt : Runtime) (operationId : Str) (details : Dict) :
    Except ObserveError (List ObserveRecord) := do
  let raw ← orRaise (rawRecords details) (idempotencyConflict operationId
    "The recovery observation idempotency ledger is invalid")
  let records ← (raw ++ legacyRecord rt details).foldlM (readNext rt operationId) []
  raiseIf (ledgerLimit < records.length) (idempotencyConflict operationId
    "The recovery observation idempotency ledger exceeds its safe bound")
  return records

/-- Has the ledger this request, or the key with another fence? -/
def sameIn (operationId : Str) (record : ObserveRecord) (records : List ObserveRecord) :
    Except ObserveError Bool :=
  match records.find? fun r => r.digest = record.digest with
  | none => .ok false
  | some stored => do
      raiseIf (stored.fence ≠ record.fence) (idempotencyConflict operationId
        "The recovery observation idempotency key was already used with a different state fence")
      return true

/-- `_same_observe_request`, for an item that exists. -/
def sameObserveRequest (rt : Runtime) (operationId : Str) (details : Dict)
    (record : ObserveRecord) : Except ObserveError Bool := do
  let records ← observeRequestRecords rt operationId details
  sameIn operationId record records

/-- `_next_observe_ledger`. -/
def nextObserveLedger (rt : Runtime) (operationId : Str) (details : Dict)
    (record : ObserveRecord) : Except ObserveError (List ObserveRecord) := do
  let records ← observeRequestRecords rt operationId details
  if ← sameIn operationId record records then return records
  else
    raiseIf (ledgerLimit ≤ records.length) (ledgerFull operationId)
    return records ++ [record]

/-- What recording a request writes into the details of the item. -/
def requestPatch (records : List ObserveRecord) (record : ObserveRecord) : Dict :=
  [("operator_observe_requests", .list (records.map fun r => .dict r.toDict)),
    ("last_operator_observe_key_digest", .str record.digest),
    ("last_operator_observe_expected_version", .int record.version),
    ("last_operator_observe_expected_checksum", .str record.checksum)]

/-- The entries of the details that only a request writes. -/
def requestKeys : List Str :=
  ["operator_observe_requests", "last_operator_observe_key_digest",
    "last_operator_observe_expected_version", "last_operator_observe_expected_checksum"]

end Gjallar.ObserveLedger

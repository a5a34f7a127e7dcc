import Gjallar.Data
import Gjallar.Tables
import Gjallar.Regex

/-!
# Operations

The statuses of an operation with their allowed transitions, the records of the ledgers that
coordinate one, and the database they live in. A repository call is a function from the database
to a result and a new database, or to an error that leaves the database as it was.
-/
namespace Gjallar.Operation

open Gjallar.Text Gjallar.Data Gjallar.Tables

/-- Time in microseconds. -/
abbrev Instant := ℤ

def Instant.seconds (n : ℤ) : ℤ := n * 1000000

inductive OperationType where
  | vmStart | vmCreate | guidedQmVmUnlock | vmShutdown | vmCompute | vmDiskResize | vmNetwork
  | vmClone | vmDelete | vmTemplate | vmImageBuild | vmImageCleanup | vmBackup | vmRestore
  | vmMigrate | hostStorage | hostNetwork
  /-- A type without target locks, such as a connection registration. -/
  | other (name : Str)
  deriving DecidableEq

/-- The text stored for an operation type. -/
def OperationType.name : OperationType → Str
  | .vmStart => "vm_start"
  | .vmCreate => "vm_create"
  | .guidedQmVmUnlock => "guided_qm_vm_unlock"
  | .vmShutdown => "vm_shutdown"
  | .vmCompute => "vm_compute"
  | .vmDiskResize => "vm_disk_resize"
  | .vmNetwork => "vm_network"
  | .vmClone => "vm_clone"
  | .vmDelete => "vm_delete"
  | .vmTemplate => "vm_template"
  | .vmImageBuild => "vm_image_build"
  | .vmImageCleanup => "vm_image_cleanup"
  | .vmBackup => "vm_backup"
  | .vmRestore => "vm_restore"
  | .vmMigrate => "vm_migrate"
  | .hostStorage => "host_storage"
  | .hostNetwork => "host_network"
  | .other name => name

inductive ExecutionMode where
  | managedApi | guidedManual | observeOnly
  deriving DecidableEq

def ExecutionMode.name : ExecutionMode → Str
  | .managedApi => "managed_api"
  | .guidedManual => "guided_manual"
  | .observeOnly => "observe_only"

/-- `OPERATION_STATUSES`. -/
inductive OperationStatus where
  | draft | planned | awaitingApproval | approved | dispatching | running | awaitingOperator
  | awaitingVerification | verifying | succeeded | blocked | rejected | expired | failed
  | needsReconciliation | cancelled
  deriving DecidableEq, Repr

/-- `TERMINAL_OPERATION_STATUSES`. -/
def OperationStatus.isTerminal : OperationStatus → Bool
  | .succeeded | .blocked | .rejected | .expired | .failed | .cancelled => true
  | _ => false

/-- `_ALLOWED_TRANSITIONS`. -/
def OperationStatus.allowed : OperationStatus → List OperationStatus
  | .draft => [.planned, .cancelled]
  | .planned => [.awaitingApproval, .approved, .dispatching, .awaitingOperator, .blocked,
      .expired, .failed, .cancelled]
  | .awaitingApproval => [.approved, .rejected, .expired, .cancelled]
  | .approved => [.dispatching, .awaitingOperator, .blocked, .expired, .cancelled]
  | .dispatching => [.running, .failed, .needsReconciliation]
  | .running => [.verifying, .failed, .needsReconciliation]
  | .awaitingOperator => [.awaitingVerification, .expired, .cancelled, .needsReconciliation]
  | .awaitingVerification => [.verifying, .expired, .needsReconciliation]
  | .verifying => [.succeeded, .failed, .needsReconciliation]
  | .needsReconciliation => [.verifying, .succeeded, .failed, .cancelled]
  | .expired => [.needsReconciliation]
  | _ => []

inductive LockStatus where
  | active | released | stale | reconciliationRequired
  deriving DecidableEq

/-- `OPEN_TARGET_LOCK_STATUSES`. -/
def LockStatus.isOpen : LockStatus → Bool
  | .released => false
  | _ => true

def LockStatus.name : LockStatus → Str
  | .active => "active"
  | .released => "released"
  | .stale => "stale"
  | .reconciliationRequired => "reconciliation_required"

inductive ScopeType where
  | proxmoxLocator | proxmoxConfiguration
  deriving DecidableEq

def ScopeType.name : ScopeType → Str
  | .proxmoxLocator => "proxmox_locator"
  | .proxmoxConfiguration => "proxmox_configuration"

/-- `RECOVERY_STATUSES`. -/
inductive RecoveryStatus where
  | pending | leased | retryWait | paused | completed
  deriving DecidableEq, Repr

def RecoveryStatus.name : RecoveryStatus → Str
  | .pending => "pending"
  | .leased => "leased"
  | .retryWait => "retry_wait"
  | .paused => "paused"
  | .completed => "completed"

/-- The supported recovery status of a text, if it is one. -/
def RecoveryStatus.ofName (name : Str) : Option RecoveryStatus :=
  [.pending, .leased, .retryWait, .paused, .completed].find? fun s => s.name = name

@[simp] theorem RecoveryStatus.ofName_name (s : RecoveryStatus) : ofName s.name = some s := by
  cases s <;> decide

structure OperationActor where
  userId : Str := []
  username : Str := []
  role : Str := []
  deriving DecidableEq

/-- A row of `operations`; a snapshot of it carries the same fields. -/
structure OperationRecord where
  operationId : Str
  operationType : OperationType
  executionMode : ExecutionMode
  status : OperationStatus
  targetType : Str
  targetId : Str
  idempotencyKey : Str
  intentDigest : Str
  planDigest : Str
  currentStage : Str
  actor : OperationActor
  details : Dict
  version : ℕ
  lastEventChecksum : Str
  createdAt : Instant
  updatedAt : Instant
  expiresAt : Option Instant := none
  deriving DecidableEq

abbrev OperationSnapshot := OperationRecord

structure OperationEventRecord where
  eventId : Str
  operationId : Str
  sequence : ℕ
  eventType : Str
  fromStatus : Option OperationStatus
  toStatus : OperationStatus
  stage : Str
  actor : OperationActor
  payload : Dict
  previousChecksum : Str
  checksum : Str
  createdAt : Instant
  deriving DecidableEq

/-- A row of `operation_recovery_items`. -/
structure RecoveryRecord where
  operationId : Str
  recoveryKind : Str
  status : RecoveryStatus
  availableAt : Instant
  leaseOwner : Option Str
  leaseToken : Option Str
  leaseGeneration : ℕ
  leaseExpiresAt : Option Instant
  attemptCount : ℕ
  lastErrorCode : Option Str
  details : Dict
  createdAt : Instant
  updatedAt : Instant
  completedAt : Option Instant
  deriving DecidableEq

/-- A row of `operation_locks`. -/
structure OperationLockRecord where
  operationLockId : Str
  operationType : OperationType
  scopeType : ScopeType
  scopeKey : Str
  status : LockStatus
  clusterId : Str
  vmid : Option ℤ
  ownerId : Str
  reason : Str
  evidence : Dict
  createdAt : Instant
  updatedAt : Instant
  releasedAt : Option Instant
  deriving DecidableEq

def OperationLockRecord.isOpen (r : OperationLockRecord) : Bool := r.status.isOpen

/-- `uq_operations_scoped_idempotency`. -/
def sameIdempotencyScope (r s : OperationRecord) : Bool :=
  r.operationType = s.operationType && r.targetType = s.targetType && r.targetId = s.targetId &&
    r.idempotencyKey = s.idempotencyKey

/-- `uq_operation_events_operation_sequence`. -/
def sameSequence (r s : OperationEventRecord) : Bool :=
  r.operationId = s.operationId && r.sequence = s.sequence

/-- `uq_operation_locks_open_locator` and `uq_operation_locks_open_configuration`. -/
def sameOpenScope (r s : OperationLockRecord) : Bool :=
  r.isOpen && s.isOpen && r.scopeType = s.scopeType && r.scopeKey = s.scopeKey

abbrev OperationTable :=
  Table OperationRecord Str OperationRecord.operationId sameIdempotencyScope

abbrev EventTable :=
  Table OperationEventRecord Str OperationEventRecord.eventId sameSequence

abbrev RecoveryTable :=
  Table RecoveryRecord Str RecoveryRecord.operationId fun _ _ => false

abbrev LockTable :=
  Table OperationLockRecord Str OperationLockRecord.operationLockId sameOpenScope

theorem sameOpenScope_comm (r s : OperationLockRecord) :
    sameOpenScope r s = sameOpenScope s r := by
  rw [Bool.eq_iff_iff]
  simp only [sameOpenScope, Bool.and_eq_true, decide_eq_true_eq]
  constructor <;> rintro ⟨⟨⟨h1, h2⟩, h3⟩, h4⟩ <;> exact ⟨⟨⟨h2, h1⟩, h3.symm⟩, h4.symm⟩

/-- A text of hexadecimal digits, such as `uuid.uuid4().hex` or the digest of a hash. -/
structure Hex where
  digits : Str
  isHex : ∀ c ∈ digits, isLowerHex c = true

theorem isLowerHex_of_mem_ofNat (n : ℕ) : ∀ c ∈ ofNat n, isLowerHex c = true := by
  intro c hc
  simp only [isLowerHex, isAsciiDigit_of_mem_ofNat hc, Bool.true_or]

/-- The decimal digits of a number are hexadecimal ones too. -/
def Hex.ofNat (n : ℕ) : Hex := ⟨Text.ofNat n, isLowerHex_of_mem_ofNat n⟩

/-- Standard library functions without a definition here: the SHA-256 of the canonical JSON of a
value and of a text; `isoformat` of a time; and `repr` on floats and containers. -/
structure Runtime where
  digest : Value → Hex
  sha256 : Str → Hex
  isoformat : Instant → Str
  repr : Value → Str

/-- `operation_digest`. -/
def Runtime.operationDigest (rt : Runtime) (v : Value) : Str :=
  ("sha256:" : Str) ++ (rt.digest v).digits

/-- What one repository call draws from its surroundings: readings of the clock and of the random
identifier generator. -/
structure Draw where
  now : Instant
  eventTime : Instant
  uuid : ℕ → Hex

/-- A runtime whose digests and texts are constant. -/
def Runtime.constant : Runtime :=
  ⟨fun _ => Hex.ofNat 0, fun _ => Hex.ofNat 0, fun _ => [], fun _ => []⟩

/-- A draw at time zero whose identifiers are one number. -/
def Draw.numbered (n : ℕ) : Draw := ⟨0, 0, fun _ => Hex.ofNat n⟩

/-- The domain, repository and language errors a repository call can raise. -/
inductive StoreError where
  | valueError (message : Str)
  | typeError (message : Str)
  | integrityError
  | projectorError (message : Str)
  | invalidOperationTransition (current next : OperationStatus)
  | operationIntentConflict (operationId : Str)
  | operationNotFound (operationId : Str)
  | operationStateConflict (operationId : Str) (current : OperationStatus)
  | recoveryNotFound (operationId : Str)
  | recoveryLeaseLost (operationId : Str)
  | recoveryLeaseBusy (operationId : Str)
  | recoveryOperationConflict (operationId : Str)
  | durableTargetLockBusy (scopeKey : Str) (existing : Dict)
  deriving DecidableEq

/-- `raise e` when a condition holds. -/
def raiseIf {ε : Type} (bad : Prop) [Decidable bad] (e : ε) : Except ε Unit :=
  if bad then .error e else .ok ()

/-- `raise e` on a missing value. -/
def orRaise {ε α : Type} (a : Option α) (e : ε) : Except ε α :=
  match a with
  | some a => .ok a
  | none => .error e

@[simp] theorem raiseIf_eq_ok {ε : Type} (bad : Prop) [Decidable bad] (e : ε) (u : Unit) :
    raiseIf bad e = .ok u ↔ ¬ bad := by
  by_cases h : bad <;> simp [raiseIf, h]

@[simp] theorem raiseIf_eq_error {ε : Type} (bad : Prop) [Decidable bad] (e e' : ε) :
    raiseIf bad e = .error e' ↔ bad ∧ e = e' := by
  by_cases h : bad <;> simp [raiseIf, h]

@[simp] theorem orRaise_eq_ok {ε α : Type} (a : Option α) (e : ε) (b : α) :
    orRaise a e = .ok b ↔ a = some b := by
  cases a <;> simp [orRaise]

/-- A computation that succeeds went through its first step. -/
theorem bind_eq_ok {ε α β : Type} {x : Except ε α} {f : α → Except ε β} {b : β} :
    (x >>= f) = .ok b ↔ ∃ a, x = .ok a ∧ f a = .ok b := by
  cases x with
  | error e => simp [bind, Except.bind]
  | ok a => simp [bind, Except.bind]

theorem pure_eq_ok {ε α : Type} {a b : α} : (pure a : Except ε α) = .ok b ↔ a = b := by
  simp [pure, Except.pure]

theorem exists_eq_ok {ε α : Type} {x : Except ε α} (h : x.isOk = true) : ∃ a, x = .ok a := by
  cases x with
  | error e => cases h
  | ok a => exact ⟨a, rfl⟩

theorem exists_eq_error {ε α : Type} {x : Except ε α} (h : x.isOk = false) :
    ∃ e, x = .error e := by
  cases x with
  | error e => exact ⟨e, rfl⟩
  | ok a => cases h

/-! ### Transitions -/

/-- `ensure_operation_transition`. -/
def ensureOperationTransition (current next : OperationStatus) : Except StoreError Unit :=
  raiseIf (next ∉ current.allowed) (.invalidOperationTransition current next)

/-- Only an expired operation leaves a terminal status, and only to be reconciled. -/
theorem OperationStatus.allowed_of_terminal {s t : OperationStatus} (hs : s.isTerminal = true)
    (h : t ∈ s.allowed) : s = .expired ∧ t = .needsReconciliation := by
  revert hs h
  cases s <;> cases t <;> decide

end Gjallar.Operation

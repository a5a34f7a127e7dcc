import Gjallar.AdmissionAtomicity
import Gjallar.HostAdmission

/-!
# The registration repository

The connection, its credential revisions and the registration attempts, with the transactions of
`RegistrationRepository` statement by statement. Each one that writes holds the connection lock
from its first statement to its commit, as the admissions of VM and host mutations do from theirs.
-/
namespace Gjallar.RegistrationStore

open Gjallar.Text Gjallar.Data Gjallar.Tables Gjallar.Registration Gjallar.Operation
  Gjallar.Admission Gjallar.OperationStore Gjallar.TargetLocks Gjallar.RecoveryStore
  Gjallar.Transactions

/-! ### Records -/

/-- `ProxmoxConnectionRecord`, the singleton. -/
structure ConnectionRow where
  connectionId : Str
  installationId : Str
  clusterId : Str
  source : ConnectionSource := .legacyEnv
  activeRevisionId : Option Str := none
  admissionOpen : Bool := true
  version : ℕ := 1
  deriving DecidableEq

inductive Mode where
  | issue | importEnv
  deriving DecidableEq

def Mode.name : Mode → Str
  | .issue => "issue"
  | .importEnv => "import_env"

/-- `RegistrationIntent`, validated. -/
structure Intent where
  endpoint : Str
  caPem : Str
  certificateSha256 : Str
  owner : Str
  selected : Configuration
  expiresAt : ℤ
  mode : Mode
  deriving DecidableEq

/-- The configuration of a credential: the intent with the token and its origin. -/
structure CredentialConfiguration where
  intent : Intent
  tokenId : Str
  imported : Bool
  deriving DecidableEq

/-- `ProxmoxCredentialRecord`. -/
structure CredentialRow where
  revisionId : Str
  connectionId : Str
  configuration : CredentialConfiguration
  state : CredentialState := .pending
  keyId : Str
  nonce : Str
  ciphertext : Option Str
  deriving DecidableEq

inductive Phase where
  | prepared | authenticated | mfaRequired | planned | cancelled | tokenDispatching | issueUnknown
  | importStaging | secretStaged | aclApplying | aclUnknown | verifying | verificationFailed
  | verified | active | revocationPending | revoked
  deriving DecidableEq, Repr

def Phase.name : Phase → Str
  | .prepared => "prepared"
  | .authenticated => "authenticated"
  | .mfaRequired => "mfa_required"
  | .planned => "planned"
  | .cancelled => "cancelled"
  | .tokenDispatching => "token_dispatching"
  | .issueUnknown => "issue_unknown"
  | .importStaging => "import_staging"
  | .secretStaged => "secret_staged"
  | .aclApplying => "acl_applying"
  | .aclUnknown => "acl_unknown"
  | .verifying => "verifying"
  | .verificationFailed => "verification_failed"
  | .verified => "verified"
  | .active => "active"
  | .revocationPending => "revocation_pending"
  | .revoked => "revoked"

/-- `ProxmoxRegistrationRecord`. -/
structure Attempt where
  attemptId : Str
  connectionId : Str
  operationId : Str
  revocationOperationId : Option Str := none
  actorId : Str
  idempotencyDigest : Str
  intentDigest : Str
  planDigest : Str := []
  intent : Intent
  phase : Phase := .prepared
  resolved : Bool := false
  expectedConnectionVersion : ℕ
  version : ℕ := 1
  revisionId : Option Str := none
  deriving DecidableEq

/-- `uq_proxmox_credential_nonce` and `uq_proxmox_credential_active`. -/
def credentialClash (r s : CredentialRow) : Bool :=
  (r.keyId = s.keyId && r.nonce = s.nonce) ||
    (r.connectionId = s.connectionId && r.state = .active && s.state = .active)

/-- `uq_proxmox_registration_idempotency`, `uq_proxmox_registration_unresolved` and the unique
operation. -/
def attemptClash (r s : Attempt) : Bool :=
  (r.connectionId = s.connectionId && r.idempotencyDigest = s.idempotencyDigest) ||
    (r.connectionId = s.connectionId && !r.resolved && !s.resolved) ||
    r.operationId = s.operationId

abbrev CredentialTable := Table CredentialRow Str CredentialRow.revisionId credentialClash

abbrev AttemptTable := Table Attempt Str Attempt.attemptId attemptClash

/-- The tables of the connection setup beside those of the operations, whose own copy of the
connections is not used. -/
structure SetupDb where
  coordination : Db := {}
  connection : Option ConnectionRow := none
  credentials : CredentialTable := Table.empty
  attempts : AttemptTable := Table.empty
  deriving DecidableEq

def ConnectionRow.selection (c : ConnectionRow) : Selection := (c.source, c.activeRevisionId)

def ConnectionRow.record (c : ConnectionRow) : ConnectionRecord :=
  ⟨c.clusterId, c.source, c.activeRevisionId, c.admissionOpen⟩

/-- The connection and the credentials as an admission reads them. -/
def SetupDb.connections (s : SetupDb) : Connections where
  connection := s.connection.map ConnectionRow.record
  credentials := s.credentials.rows.map fun c =>
    ⟨c.revisionId, c.configuration.intent.selected, c.state⟩

inductive Failure where
  | setup (e : SetupError)
  | store (e : StoreError)
  | credentialKey (message : Str)
  | valueError (message : Str)
  /-- The database refuses a row, or a row that others refer to is missing. -/
  | integrity
  deriving DecidableEq

def fromStore {α : Type} : Except StoreError α → Except Failure α := Except.mapError .store

/-- A call of the operation store inside a transaction of the setup. -/
def inSession {α : Type} (f : Db → Except StoreError (α × Db)) (s : SetupDb) :
    Except Failure (α × SetupDb) := do
  let (a, db) ← fromStore (f s.coordination)
  return (a, { s with coordination := db })

/-- What a credential is encrypted for. -/
structure Binding where
  installationId : Str
  connectionId : Str
  revisionId : Str
  metadata : CredentialConfiguration

/-- `CredentialCipher`: AES-GCM under the key of the server. -/
structure Cipher where
  keyId : Str
  encrypt : (nonce secret : Str) → Binding → Except Str Str
  decrypt : (nonce ciphertext keyId : Str) → Binding → Except Str Str

/-- What the process of a call has: the digest of a value as ASCII JSON, the canonical text of a
UUID, the configured cipher, the selection it pinned, and what it draws. -/
structure Site where
  rt : Runtime
  asciiDigest : Value → Hex
  uuid : Str → Option Str
  cipher : Except Str Cipher
  pinned : Option Selection
  draws : ℕ → Draw
  nonce : Str

/-- `contracts.digest`. -/
def Site.digest (site : Site) (v : Value) : Str := (site.asciiDigest v).digits

/-- `CredentialCipher.configured`. -/
def Site.configured (site : Site) : Except Failure Cipher :=
  Except.mapError .credentialKey site.cipher

/-- `str(uuid.uuid4())`. -/
def uuidText (h : Hex) : Str :=
  let d := h.digits
  d.take 8 ++ ("-" : Str) ++ (d.drop 8).take 4 ++ ("-" : Str) ++ (d.drop 12).take 4 ++
    ("-" : Str) ++ (d.drop 16).take 4 ++ ("-" : Str) ++ d.drop 20

/-! ### Stored intents -/

/-- The name of a feature. -/
def featureName : Feature → Str
  | .read => "read"
  | .power => "power"
  | .compute => "compute"
  | .create => "create"
  | .disk => "disk"
  | .network => "network"
  | .clone => "clone"
  | .delete => "delete"
  | .console => "console"
  | .template => "template"
  | .imageBuild => "image_build"
  | .imageCleanup => "image_cleanup"
  | .backup => "backup"
  | .restore => "restore"
  | .migrate => "migrate"
  | .hostStorage => "host_storage"
  | .hostNetwork => "host_network"

/-- `scope.model_dump()`. -/
def scopeDump (s : Scope) : Dict :=
  let texts (xs : List Str) : Value := .list (xs.map .str)
  let vmids (xs : List ℤ) : Value := .list (xs.map .int)
  [("nodes", texts s.nodes), ("vmids", vmids s.vmids), ("template_vmids", vmids s.templateVmids),
    ("restore_vmids", vmids s.restoreVmids), ("image_vmids", vmids s.imageVmids),
    ("clone_vmids", vmids s.cloneVmids), ("create_vmids", vmids s.createVmids),
    ("storages", texts s.storages), ("host_storages", texts s.hostStorages),
    ("host_bridges", texts s.hostBridges), ("restore_storages", texts s.restoreStorages),
    ("backup_storages", texts s.backupStorages),
    ("image_cleanup_storages", texts s.imageCleanupStorages), ("bridges", texts s.bridges)]

/-- The features as they are stored, sorted by name. -/
def featureNames (features : List Feature) : Value :=
  .list ((sortedSet textLe (features.map featureName)).map .str)

/-- `intent.model_dump(mode="json")` without the fields that older registrations lack. -/
def Intent.normalized (intent : Intent) : Dict :=
  let accessMode : Dict :=
    if intent.selected.accessMode = .cluster then [("access_mode", .str "cluster")] else []
  let certificate : Dict :=
    if intent.certificateSha256 = [] then []
    else [("certificate_sha256", .str intent.certificateSha256)]
  let fields : Dict :=
    [("endpoint", .str intent.endpoint), ("ca_pem", .str intent.caPem),
      ("owner", .str intent.owner), ("scope", .dict (scopeDump intent.selected.scope)),
      ("features", featureNames intent.selected.features), ("expires_at", .int intent.expiresAt),
      ("mode", .str intent.mode.name)]
  fields ++ accessMode ++ certificate

/-! ### Statements -/

def setupError (code message : Str) (status : ℕ := 409) : Failure := .setup ⟨code, message, status⟩

def versionConflict : Failure :=
  setupError "SETUP_VERSION_CONFLICT" "등록 상태가 변경됐습니다. 다시 조회하세요."

def phaseConflict : Failure :=
  setupError "SETUP_PHASE_CONFLICT" "현재 등록 단계에서 실행할 수 없습니다."

def tokenIdConflict : Failure :=
  setupError "SETUP_TOKEN_ID_CONFLICT" "발급된 token identity가 요청과 다릅니다."

def unfinishedWork (message : Str) : Failure := setupError "SETUP_WORK_IN_PROGRESS" message

def noCredential (message : Str) : Failure := setupError "SETUP_CREDENTIAL_UNAVAILABLE" message

/-- `owned`. -/
def owned (attemptId actorId : Str) (expectedVersion : Option ℕ) (s : SetupDb) :
    Except Failure Attempt := do
  let row ← orRaise ((s.attempts.get attemptId).filter fun r => r.actorId = actorId)
    (setupError "SETUP_ATTEMPT_NOT_FOUND" "등록 요청을 찾을 수 없습니다." 404)
  raiseIf (∃ version ∈ expectedVersion, row.version ≠ version) versionConflict
  return row

/-- The token that a registration issues. -/
def issuedTokenId (owner attemptId : Str) : Str := owner ++ ("!gjallar-" : Str) ++ attemptId

/-- How a phase is entered. -/
structure Advance where
  phase : Phase
  operationStatus : Option OperationStatus := none
  planDigest : Option Str := none
  resolved : Bool := false

def putAttempt (row : Attempt) (s : SetupDb) : Except Failure (Attempt × SetupDb) := do
  let attempts ← orRaise (s.attempts.put row) .integrity
  return (row, { s with attempts := attempts })

/-- The row after `_advance`. -/
def Attempt.advanced (row : Attempt) (a : Advance) : Attempt :=
  { row with phase := a.phase, resolved := a.resolved, version := row.version + 1,
             planDigest := a.planDigest.getD row.planDigest }

/-- `_advance`. -/
def advanceRow (site : Site) (i : ℕ) (row : Attempt) (a : Advance) (s : SetupDb) :
    Except Failure (Attempt × SetupDb) := do
  let (_, s) ← inSession (appendInSession site.rt (site.draws i) row.operationId
    { nextStatus := a.operationStatus
      eventType := ("proxmox_registration_" : Str) ++ a.phase.name
      stage := a.phase.name
      payload := [("attempt_id", .str row.attemptId),
        ("revision_id", row.revisionId.elim .null .str)]
      detailsPatch := [("phase", .str a.phase.name)] }) s
  putAttempt (row.advanced a) s

/-- `decrypt_credential`. -/
def decryptCredential (cipher : Cipher) (connection : ConnectionRow) (credential : CredentialRow) :
    Except Failure Str := do
  let ciphertext ← orRaise (credential.ciphertext.filter fun _ =>
      credential.connectionId = connection.connectionId)
    (.credentialKey "인증정보 연결 또는 저장 형식이 올바르지 않습니다.")
  Except.mapError .credentialKey (cipher.decrypt credential.nonce ciphertext credential.keyId
    ⟨connection.installationId, connection.connectionId, credential.revisionId,
      credential.configuration⟩)

/-- The three queries of `has_unfinished_coordination`. -/
def unfinishedOperation (excluding : Str) (db : Db) : Bool :=
  db.operations.rows.any fun r => r.operationId ≠ excluding && !r.status.isTerminal

def openLock (db : Db) : Bool := db.locks.rows.any OperationLockRecord.isOpen

def unfinishedRecovery (db : Db) : Bool := db.recovery.rows.any fun r => r.status ≠ .completed

/-- `session.get(ProxmoxConnectionRecord, 1)`, which every attempt refers to. -/
def connectionRow (s : SetupDb) : Except Failure ConnectionRow := orRaise s.connection .integrity

def putCredential (credential : CredentialRow) (s : SetupDb) : Except Failure (Unit × SetupDb) := do
  let credentials ← orRaise (s.credentials.put credential) .integrity
  return ((), { s with credentials := credentials })

def insertCredential (credential : CredentialRow) (s : SetupDb) :
    Except Failure (Unit × SetupDb) := do
  let credentials ← orRaise (s.credentials.insert credential) .integrity
  return ((), { s with credentials := credentials })

/-- A new attempt, which refers to its operation. -/
def insertAttempt (row : Attempt) (s : SetupDb) : Except Failure (Attempt × SetupDb) := do
  raiseIf (s.coordination.operations.get row.operationId = none) .integrity
  let attempts ← orRaise (s.attempts.insert row) .integrity
  return (row, { s with attempts := attempts })

/-- `store.create` in the session of the caller, which a failed flush leaves unusable. -/
def createInSession (site : Site) (i : ℕ) (spec : OperationSpec) (eventPayload : Dict)
    (s : SetupDb) : Except Failure (Unit × SetupDb) :=
  match getByScope s.coordination spec with
  | some existing => do
      let _ ← fromStore (resolveExisting existing spec)
      return ((), s)
  | none =>
      match s.coordination.operations.insert
            (newOperation site.rt (site.draws i) spec eventPayload),
          s.coordination.events.insert (createdEvent site.rt (site.draws i) spec eventPayload) with
      | some operations, some events => .ok ((), { s with coordination :=
          { s.coordination with operations := operations, events := events } })
      | _, _ => .error .integrity

/-- The active revision retires. -/
def retirePrevious (connection : ConnectionRow) (s : SetupDb) : Except Failure (Unit × SetupDb) :=
  match connection.activeRevisionId with
  | none => .ok ((), s)
  | some revisionId => do
      let previous ← orRaise (s.credentials.get revisionId) .integrity
      if previous.state = .active then putCredential { previous with state := .retiring } s
      else return ((), s)

/-- The connection after a switch. -/
def ConnectionRow.switched (connection : ConnectionRow) (revisionId : Str) : ConnectionRow :=
  { connection with activeRevisionId := some revisionId, source := .managed, admissionOpen := true,
                    version := connection.version + 1 }

/-- The connection switches to a credential. -/
def switchTo (connection : ConnectionRow) (credential : CredentialRow) (s : SetupDb) :
    Except Failure (Unit × SetupDb) := do
  let ((), s) ← putCredential { credential with state := .active } s
  return ((), { s with connection := some (connection.switched credential.revisionId) })

def closeAdmission (connection : ConnectionRow) (s : SetupDb) : Except Failure (Unit × SetupDb) :=
  .ok ((), { s with connection := some { connection with admissionOpen := false } })

def revocationOperationId (attemptId : Str) : Str := ("proxmox-revocation-" : Str) ++ attemptId

def revocationSpec (site : Site) (row : Attempt) (actorId : Str) : OperationSpec :=
  let digest := site.digest (.str row.attemptId)
  { operationId := revocationOperationId row.attemptId
    operationType := .other "proxmox_credential_revocation", executionMode := .managedApi
    targetType := "proxmox_connection", targetId := row.connectionId
    idempotencyKey := site.digest (.str (revocationOperationId row.attemptId))
    intentDigest := digest, planDigest := digest
    actor := { userId := actorId, role := "admin" }
    details := [("attempt_id", .str row.attemptId)] }

/-- An event of the revocation operation. -/
def revocationEvent (site : Site) (i : ℕ) (row : Attempt) (operationId : Str)
    (status : OperationStatus) (eventType stage : Str) (s : SetupDb) :
    Except Failure (Unit × SetupDb) := do
  let (_, s) ← inSession (appendInSession site.rt (site.draws i) operationId
    { nextStatus := some status, eventType := eventType, stage := stage
      payload := [("attempt_id", .str row.attemptId)] }) s
  return ((), s)

/-- The credential of a revoked attempt loses its secret. -/
def revokeCredential (revisionId : Option Str) (s : SetupDb) : Except Failure (Unit × SetupDb) :=
  match revisionId with
  | none => .ok ((), s)
  | some revisionId => do
      let credential ← orRaise (s.credentials.get revisionId) .integrity
      putCredential { credential with state := .revoked, ciphertext := none } s

/-! ### Transactions -/

section Transactions

variable (site : Site)

abbrev Transaction (α : Type) : Type 1 := Script SetupDb Failure α

/-- `has_unfinished_coordination`. -/
def hasUnfinishedCoordination (excluding : Str) : Transaction Bool := do
  let operation ← Script.query fun s => unfinishedOperation excluding s.coordination
  let lock ← Script.query fun s => openLock s.coordination
  let recovery ← Script.query fun s => unfinishedRecovery s.coordination
  return operation || lock || recovery

/-- The arguments of `prepare`. -/
structure Preparation where
  intent : Intent
  idempotencyKey : Str
  actor : OperationActor
  installationId : Str
  clusterId : Str

def operationIdOf (attemptId : Str) : Str := ("proxmox-registration-" : Str) ++ attemptId

/-- The connection of a new installation. -/
def newConnection (connectionId installationId clusterId : Str) : ConnectionRow :=
  { connectionId := connectionId, installationId := installationId, clusterId := clusterId }

def addConnection (connection : ConnectionRow) (s : SetupDb) : Except Failure (Unit × SetupDb) :=
  .ok ((), { s with connection := some connection })

/-- The connection, created on first use. -/
def ensureConnection (connectionId installationId clusterId : Str) : Transaction ConnectionRow := do
  match ← Script.query SetupDb.connection with
  | some connection => return connection
  | none =>
      Script.exec (addConnection (newConnection connectionId installationId clusterId))
      return newConnection connectionId installationId clusterId

def registrationSpec (q : Preparation) (connection : ConnectionRow)
    (attemptId identity intentHash : Str) : OperationSpec :=
  { operationId := operationIdOf attemptId, operationType := .other "proxmox_registration"
    executionMode := .managedApi, targetType := "proxmox_connection"
    targetId := connection.connectionId, idempotencyKey := identity, intentDigest := intentHash
    planDigest := intentHash, actor := q.actor, initialStatus := .planned
    initialStage := "prepared", details := [("attempt_id", .str attemptId)] }

/-- The attempt with an idempotency key. -/
def attemptOf (connectionId identity : Str) (s : SetupDb) : Option Attempt :=
  s.attempts.rows.find? fun r => r.connectionId = connectionId && r.idempotencyDigest = identity

/-- Is an attempt of the connection unresolved? -/
def unresolved (connectionId : Str) (s : SetupDb) : Bool :=
  s.attempts.rows.any fun r => r.connectionId = connectionId && !r.resolved

/-- A new attempt with its operation. -/
def createAttempt (q : Preparation) (connection : ConnectionRow) (identity intentHash : Str) :
    Transaction Attempt := do
  let attemptId := uuidText ((site.draws 1).uuid 0)
  Script.exec (createInSession site 2
    (registrationSpec q connection attemptId identity intentHash)
    [("attempt_id", .str attemptId)])
  Script.exec (insertAttempt
    { attemptId := attemptId, connectionId := connection.connectionId
      operationId := operationIdOf attemptId, actorId := q.actor.userId
      idempotencyDigest := identity, intentDigest := intentHash, intent := q.intent
      expectedConnectionVersion := connection.version })

/-- `prepare`. -/
def prepare (q : Preparation) : Transaction Attempt := do
  Script.lift (raiseIf (q.idempotencyKey.length < 8 ∨ 160 < q.idempotencyKey.length)
    (setupError "SETUP_INVALID_INPUT" "idempotency key가 올바르지 않습니다." 422))
  Script.lift (raiseIf (q.actor.role ≠ ("admin" : Str) ∨ q.actor.userId = [])
    (setupError "SETUP_ADMIN_REQUIRED" "관리자 권한이 필요합니다." 403))
  let installationId ← Script.lift (orRaise (site.uuid q.installationId)
    (.valueError "badly formed hexadecimal UUID string"))
  let intentHash := site.digest (.dict q.intent.normalized)
  let identity := (site.rt.sha256 q.idempotencyKey).digits
  let _ ← Script.lift site.configured
  Script.takeLock
  let connection ← ensureConnection (uuidText ((site.draws 0).uuid 0)) installationId q.clusterId
  Script.lift (raiseIf (connection.installationId ≠ installationId ∨
      connection.clusterId ≠ q.clusterId)
    (setupError "SETUP_IDENTITY_CONFLICT" "설치 또는 cluster identity가 다릅니다."))
  match ← Script.query (attemptOf connection.connectionId identity) with
  | some existing =>
      Script.lift (raiseIf (existing.intentDigest ≠ intentHash ∨ existing.actorId ≠ q.actor.userId)
        (setupError "SETUP_IDEMPOTENCY_CONFLICT" "같은 요청 key가 다른 등록에 사용됐습니다."))
      return existing
  | none =>
      let pending ← Script.query (unresolved connection.connectionId)
      Script.lift (raiseIf (pending = true)
        (setupError "SETUP_UNRESOLVED_ATTEMPT" "미완료 등록을 먼저 확인하세요."))
      createAttempt site q connection identity intentHash

/-- `advance`. -/
def advance (attemptId actorId : Str) (expectedVersion : ℕ) (expectedPhases : List Phase)
    (a : Advance) : Transaction Attempt := do
  Script.takeLock
  let row ← Script.check (owned attemptId actorId (some expectedVersion))
  Script.lift (raiseIf (row.phase ∉ expectedPhases ∨ row.resolved = true) phaseConflict)
  Script.exec (advanceRow site 0 row a)

/-- The checks of `stage_secret` on the attempt and the token. -/
def checkStaging (row : Attempt) (tokenId : Str) : Except Failure Unit := do
  raiseIf (row.phase ∉ [Phase.tokenDispatching, .importStaging] ∨ row.revisionId.isSome = true)
    (setupError "SETUP_PHASE_CONFLICT" "발급 중인 요청에만 인증정보를 저장할 수 있습니다.")
  let imported := row.intent.mode = .importEnv
  raiseIf ((imported ∧ (row.phase ≠ .importStaging ∨
        (row.intent.owner ++ ("!" : Str)).isPrefixOf tokenId = false)) ∨
      (¬ imported ∧ (row.phase ≠ .tokenDispatching ∨
        tokenId ≠ issuedTokenId row.intent.owner row.attemptId)))
    tokenIdConflict

/-- `stage_secret`. -/
def stageSecret (attemptId actorId : Str) (expectedVersion : ℕ) (tokenSecret tokenId : Str) :
    Transaction Attempt := do
  let cipher ← Script.lift site.configured
  Script.takeLock
  let row ← Script.check (owned attemptId actorId (some expectedVersion))
  Script.lift (checkStaging row tokenId)
  let connection ← Script.check connectionRow
  let revisionId := uuidText ((site.draws 0).uuid 0)
  let configuration : CredentialConfiguration := ⟨row.intent, tokenId, row.intent.mode = .importEnv⟩
  let ciphertext ← Script.lift (Except.mapError Failure.credentialKey
    (cipher.encrypt site.nonce tokenSecret
      ⟨connection.installationId, connection.connectionId, revisionId, configuration⟩))
  Script.exec (insertCredential
    { revisionId := revisionId, connectionId := connection.connectionId,
      configuration := configuration, keyId := cipher.keyId, nonce := site.nonce,
      ciphertext := some ciphertext })
  Script.exec (advanceRow site 1 { row with revisionId := some revisionId }
    { phase := .secretStaged, operationStatus := some .running })

/-- `pending_credential`. -/
def pendingCredential (attemptId actorId : Str) : Transaction (CredentialConfiguration × Str) := do
  let row ← Script.check (owned attemptId actorId none)
  let credential ← Script.query fun s => row.revisionId.bind s.credentials.get
  let connection ← Script.check connectionRow
  let credential ← Script.lift (orRaise
    (credential.filter fun c => c.state = .pending ∧ c.ciphertext.isSome)
    (noCredential "검증할 인증정보가 없습니다."))
  let cipher ← Script.lift site.configured
  let secret ← Script.lift (decryptCredential cipher connection credential)
  return (credential.configuration, secret)

/-- `activate`. -/
def activate (attemptId actorId : Str) (expectedVersion : ℕ) : Transaction Attempt := do
  Script.takeLock
  let row ← Script.check (owned attemptId actorId (some expectedVersion))
  let connection ← Script.check connectionRow
  Script.lift (raiseIf (row.phase ≠ .verified ∨
      connection.version ≠ row.expectedConnectionVersion)
    (setupError "SETUP_ACTIVATION_CONFLICT" "검증 단계 또는 현재 연결 버전이 변경됐습니다."))
  let unfinished ← hasUnfinishedCoordination row.operationId
  Script.lift (raiseIf (unfinished = true)
    (unfinishedWork "미완결 작업·잠금·복구가 있습니다. 기존 연결을 유지합니다."))
  let credential ← Script.check fun s => orRaise
    ((row.revisionId.bind s.credentials.get).filter fun c => c.state = .pending)
    (noCredential "검증된 인증정보가 없습니다.")
  let cipher ← Script.lift site.configured
  let _ ← Script.lift (decryptCredential cipher connection credential)
  Script.lift (raiseIf (site.pinned.getD connection.selection ≠ connection.selection)
    (setupError "SETUP_RESTART_REQUIRED"
      "Proxmox 연결이 변경됐습니다. 모든 Gjallar 서비스를 재시작하세요." 503))
  Script.exec (retirePrevious connection)
  Script.exec (switchTo connection credential)
  Script.exec (advanceRow site 0 row
    { phase := .active, operationStatus := some .succeeded, resolved := true })

/-- The phases in which no revocation can be requested. -/
def unrevocable : List Phase :=
  [.prepared, .authenticated, .mfaRequired, .planned, .cancelled, .revoked, .revocationPending]

/-- The close of the admission before the active credential is revoked. -/
def closeIfActive (row : Attempt) (connection : ConnectionRow) : Transaction Unit :=
  if row.revisionId.isSome ∧ row.revisionId = connection.activeRevisionId then do
    let unfinished ← hasUnfinishedCoordination row.operationId
    Script.lift (raiseIf (unfinished = true)
      (unfinishedWork "미완결 작업·잠금·복구가 있어 활성 token을 폐기하지 않습니다."))
    Script.exec (closeAdmission connection)
  else return ()

/-- `begin_revoke`. -/
def beginRevoke (attemptId actorId : Str) (expectedVersion : ℕ) : Transaction Attempt := do
  Script.takeLock
  let row ← Script.check (owned attemptId actorId (some expectedVersion))
  let connection ← Script.check connectionRow
  Script.lift (raiseIf (row.intent.mode = .importEnv)
    (setupError "SETUP_IMPORTED_TOKEN_PRESERVED" "가져온 외부 token은 자동 폐기하지 않습니다."))
  Script.lift (raiseIf (row.phase ∈ unrevocable)
    (setupError "SETUP_PHASE_CONFLICT" "현재 단계에서는 새 폐기 요청을 실행할 수 없습니다."))
  closeIfActive row connection
  Script.exec (createInSession site 0 (revocationSpec site row actorId) [])
  Script.exec (revocationEvent site 1 row (revocationOperationId row.attemptId) .dispatching
    "revocation_requested" "revocation_pending")
  Script.exec (putAttempt
    { row with revocationOperationId := some (revocationOperationId row.attemptId)
               phase := .revocationPending, version := row.version + 1 })

/-- `finish_revoke`. -/
def finishRevoke (attemptId actorId : Str) (expectedVersion : ℕ) : Transaction Attempt := do
  Script.takeLock
  let row ← Script.check (owned attemptId actorId (some expectedVersion))
  let operationId ← Script.lift (orRaise
    (row.revocationOperationId.filter fun _ => row.phase = .revocationPending)
    (setupError "SETUP_PHASE_CONFLICT" "폐기 결과를 확인할 요청이 없습니다."))
  Script.exec (revocationEvent site 0 row operationId .running "revocation_running" "revoked")
  Script.exec (revocationEvent site 1 row operationId .verifying "revocation_verifying" "revoked")
  Script.exec (revocationEvent site 2 row operationId .succeeded "revocation_succeeded" "revoked")
  Script.exec (revokeCredential row.revisionId)
  let original ← Script.check fun s =>
    orRaise (s.coordination.operations.get row.operationId) .integrity
  Script.exec (advanceRow site 3 row
    { phase := .revoked
      operationStatus := if original.status = .succeeded then none else some .failed
      resolved := true })

end Transactions

end Gjallar.RegistrationStore

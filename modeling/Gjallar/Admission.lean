import Gjallar.Operation
import Gjallar.Registration

/-!
# Admission of mutations by the connection

`admit_mutation` and `admit_host_mutation` decide, under the connection lock, whether the stored
connection selects the feature and the target of an operation about to lock it.
-/
namespace Gjallar.Admission

open Gjallar.Text Gjallar.Data Gjallar.Registration Gjallar.Operation Gjallar.Regex
  Gjallar.Regex.Pattern

inductive ConnectionSource where
  | legacyEnv | managed
  deriving DecidableEq

inductive CredentialState where
  | pending | active | retiring | revoked
  deriving DecidableEq

structure ConnectionRecord where
  clusterId : Str
  source : ConnectionSource
  activeRevisionId : Option Str
  admissionOpen : Bool
  deriving DecidableEq

structure CredentialRecord where
  revisionId : Str
  configuration : Configuration
  state : CredentialState
  deriving DecidableEq

/-- The connection singleton and the credential revisions. -/
structure Connections where
  connection : Option ConnectionRecord
  credentials : List CredentialRecord
  deriving DecidableEq

abbrev Selection := ConnectionSource × Option Str

/-- What a process contributes to an admission: the selection it pinned on first use and whether
its key decrypts a credential. -/
structure Process where
  pinned : Option Selection
  decrypts : CredentialRecord → Bool

/-- `SetupError`. -/
structure SetupError where
  code : Str
  message : Str
  status : ℕ
  deriving DecidableEq

def selectionOf (connection : Option ConnectionRecord) : Selection :=
  match connection with
  | some c => (c.source, c.activeRevisionId)
  | none => (.legacyEnv, none)

/-- `pin_selection`. -/
def pinSelection (process : Process) (connection : Option ConnectionRecord) :
    Except SetupError Unit :=
  let selection := selectionOf connection
  raiseIf (process.pinned.getD selection ≠ selection)
    ⟨"SETUP_RESTART_REQUIRED", "Proxmox 연결이 변경됐습니다. 모든 Gjallar 서비스를 재시작하세요.", 503⟩

def admissionClosed : SetupError :=
  ⟨"SETUP_ADMISSION_CLOSED", "연결 전환 중이거나 cluster identity가 다릅니다.", 409⟩

def credentialUnavailable : SetupError :=
  ⟨"SETUP_CREDENTIAL_UNAVAILABLE", "활성 인증정보를 확인할 수 없습니다.", 503⟩

def keyUnavailable : SetupError :=
  ⟨"SETUP_CREDENTIAL_UNAVAILABLE", "연결 암호화 키를 확인하세요.", 503⟩

/-- `session.get(ProxmoxCredentialRecord, connection.active_revision_id)`, when it is active. -/
def activeCredential (connections : Connections) (connection : ConnectionRecord) :
    Option CredentialRecord :=
  (connections.credentials.find? fun c => some c.revisionId = connection.activeRevisionId).filter
    fun c => c.state = .active

/-- The feature an operation type needs. -/
def featureOf : OperationType → Option Feature
  | .vmStart => some .power
  | .vmShutdown => some .power
  | .vmCompute => some .compute
  | .vmCreate => some .create
  | .vmDiskResize => some .disk
  | .vmNetwork => some .network
  | .vmClone => some .clone
  | .vmDelete => some .delete
  | .vmTemplate => some .template
  | .vmImageBuild => some .imageBuild
  | .vmImageCleanup => some .imageCleanup
  | .vmBackup => some .backup
  | .vmRestore => some .restore
  | .vmMigrate => some .migrate
  | _ => none

/-- The VMIDs a scoped connection admits for a feature. -/
def admittedTargets (scope : Scope) (feature : Feature) (restoredTarget : Bool) : List ℤ :=
  let targets := if feature = .create then scope.createVmids
    else scope.vmids ++ scope.createVmids
  let targets := if feature = .imageBuild then scope.imageVmids else targets
  let targets := if feature ∈ [Feature.template, .imageCleanup, .backup, .migrate]
    then scope.vmids else targets
  let targets := if feature = .power ∧ restoredTarget = true
    then targets ++ scope.restoreVmids else targets
  let targets := if feature = .restore then scope.vmids ++ scope.restoreVmids else targets
  if feature = .clone then scope.vmids ++ scope.cloneVmids else targets

/-- The part of `admit_mutation` that reads the configuration. -/
def admitConfiguration (config : Configuration) (vmid : ℤ) (operationType : OperationType) :
    Except SetupError Unit := do
  let createdTarget := Feature.create ∈ config.features ∧ vmid ∈ config.scope.createVmids
  let restoredTarget := Feature.restore ∈ config.features ∧ vmid ∈ config.scope.restoreVmids
  let notSelected : SetupError :=
    ⟨"SETUP_FEATURE_NOT_SELECTED", "현재 연결에서 이 작업의 권한을 선택하지 않았습니다.", 403⟩
  match featureOf operationType with
  | none => .error notSelected
  | some feature =>
      raiseIf (feature ∉ config.features ∧
        ¬ ((createdTarget ∨ restoredTarget) ∧ feature = .power)) notSelected
      raiseIf (config.accessMode ≠ .cluster ∧
          vmid ∉ admittedTargets config.scope feature (decide restoredTarget))
        ⟨"SETUP_TARGET_NOT_SELECTED", "현재 연결의 VM 범위에 포함되지 않습니다.", 403⟩

/-- `admit_mutation`, once the connection lock is held. -/
def admitMutation (process : Process) (connections : Connections) (clusterId : Str) (vmid : ℤ)
    (operationType : OperationType) : Except SetupError Unit := do
  pinSelection process connections.connection
  match connections.connection with
  | none => return
  | some connection =>
      raiseIf (connection.clusterId ≠ clusterId ∨ connection.admissionOpen = false)
        admissionClosed
      if connection.source = .legacyEnv then return
      let credential ← orRaise (activeCredential connections connection) credentialUnavailable
      admitConfiguration credential.configuration vmid operationType
      raiseIf (process.decrypts credential = false) keyUnavailable

/-! ### Host configuration targets -/

/-- The target of a host configuration change, as the request gives it. -/
def targetIdentity (operationType : OperationType) (target : Value) : Except Str (Str × Str) :=
  match target with
  | .dict d =>
      match Dict.get d "node_id" with
      | some (.str node) =>
          if isIdentifier node = false then .error "An exact host node is required"
          else if operationType = .hostStorage ∧ Dict.keysAre d ["node_id", "storage_id"] then
            match Dict.get d "storage_id" with
            | some (.str storage) =>
                if isIdentifier storage then .ok ("proxmox_storage", ("storage:" : Str) ++ storage)
                else .error "Unsupported host configuration target"
            | _ => .error "Unsupported host configuration target"
          else if operationType = .hostNetwork ∧ Dict.keysAre d ["node_id", "bridge_id"] then
            match Dict.get d "bridge_id" with
            | some (.str bridge) =>
                if isHostBridge bridge then
                  .ok ("proxmox_network", ("node:" : Str) ++ node ++ ("/bridge:" : Str) ++ bridge)
                else .error "Unsupported host configuration target"
            | _ => .error "Unsupported host configuration target"
          else .error "Unsupported host configuration target"
      | _ => .error "An exact host node is required"
  | _ => .error "An exact host node is required"

/-- A text entry of a dictionary that `target_identity` has checked. -/
def textField (target : Value) (key : Str) : Str :=
  ((target.asDict.bind fun d => Dict.get d key).bind Value.asStr).getD []

/-- `admit_host_mutation`, once the connection lock is held. -/
def admitHostMutation (process : Process) (connections : Connections) (clusterId : Str)
    (operationType : OperationType) (target : Value) : Except SetupError Unit := do
  pinSelection process connections.connection
  match connections.connection with
  | none => return
  | some connection =>
      raiseIf (connection.clusterId ≠ clusterId ∨ connection.admissionOpen = false)
        admissionClosed
      if connection.source = .legacyEnv then return
      let credential ← orRaise (activeCredential connections connection) credentialUnavailable
      let config := credential.configuration
      let feature : Feature := if operationType = .hostStorage then .hostStorage else .hostNetwork
      raiseIf (feature ∉ config.features)
        ⟨"SETUP_FEATURE_NOT_SELECTED", "현재 연결에서 호스트 설정 권한을 선택하지 않았습니다.", 403⟩
      let selected := if operationType = .hostStorage
        then textField target "storage_id" ∈ config.scope.hostStorages
        else textField target "bridge_id" ∈ config.scope.hostBridges
      raiseIf (config.accessMode ≠ .cluster ∧
          (textField target "node_id" ∉ config.scope.nodes ∨ ¬ selected))
        ⟨"SETUP_TARGET_NOT_SELECTED", "현재 연결의 호스트 설정 범위에 포함되지 않습니다.", 403⟩
      raiseIf (process.decrypts credential = false) keyUnavailable

end Gjallar.Admission

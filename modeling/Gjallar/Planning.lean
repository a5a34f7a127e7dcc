import Gjallar.Runs
import Gjallar.RegistrationStore
import Mathlib.Data.List.Sort

/-!
# Role and ACL planning

The grants that a registration asks for, the plan that shows what its owner lacks, and the
verification of an issued token, request by request.
-/
namespace Gjallar.Planning

open Gjallar.Text Gjallar.Data Gjallar.Operation Gjallar.Registration Gjallar.RegistrationStore
  Gjallar.Processes Gjallar.Processes.Fallible

/-- `sorted(set(values))`. -/
def ascending {α : Type} [DecidableEq α] (le : α → α → Bool) (values : List α) : List α :=
  values.dedup.insertionSort fun a b => le a b = true

@[simp] theorem mem_ascending {α : Type} [DecidableEq α] {le : α → α → Bool} {values : List α}
    {a : α} : a ∈ ascending le values ↔ a ∈ values := by
  rw [ascending, List.mem_insertionSort, List.mem_dedup]

/-! ### Roles -/

inductive Privilege where
  | sysAudit | sysModify | datastoreAllocate | datastoreAllocateSpace | datastoreAllocateTemplate
  | datastoreAudit | sdnAudit | sdnUse | vmAllocate | vmAudit | vmBackup | vmClone
  | vmConfigCloudinit | vmConfigCpu | vmConfigDisk | vmConfigHwType | vmConfigMemory
  | vmConfigNetwork | vmConfigOptions | vmConsole | vmGuestAgentAudit | vmGuestAgentUnrestricted
  | vmMigrate | vmPowerMgmt
  deriving DecidableEq

def Privilege.name : Privilege → Str
  | .sysAudit => "Sys.Audit"
  | .sysModify => "Sys.Modify"
  | .datastoreAllocate => "Datastore.Allocate"
  | .datastoreAllocateSpace => "Datastore.AllocateSpace"
  | .datastoreAllocateTemplate => "Datastore.AllocateTemplate"
  | .datastoreAudit => "Datastore.Audit"
  | .sdnAudit => "SDN.Audit"
  | .sdnUse => "SDN.Use"
  | .vmAllocate => "VM.Allocate"
  | .vmAudit => "VM.Audit"
  | .vmBackup => "VM.Backup"
  | .vmClone => "VM.Clone"
  | .vmConfigCloudinit => "VM.Config.Cloudinit"
  | .vmConfigCpu => "VM.Config.CPU"
  | .vmConfigDisk => "VM.Config.Disk"
  | .vmConfigHwType => "VM.Config.HWType"
  | .vmConfigMemory => "VM.Config.Memory"
  | .vmConfigNetwork => "VM.Config.Network"
  | .vmConfigOptions => "VM.Config.Options"
  | .vmConsole => "VM.Console"
  | .vmGuestAgentAudit => "VM.GuestAgent.Audit"
  | .vmGuestAgentUnrestricted => "VM.GuestAgent.Unrestricted"
  | .vmMigrate => "VM.Migrate"
  | .vmPowerMgmt => "VM.PowerMgmt"

/-- `VM_PRIVILEGES`. -/
def vmPrivileges : List Privilege :=
  [.vmAllocate, .vmAudit, .vmConfigCpu, .vmConfigMemory, .vmConfigHwType, .vmConfigOptions,
    .vmConfigDisk, .vmConfigNetwork]

inductive Role where
  | hostNetwork | hostStorage | vmMigrate | vmRestore | vmBackup | imageCleanup
  | imageCleanupStorage | imageBuild | imageUpload | nodeRead | vmRead | vmPower | vmCompute
  | vmConsole | vmTemplate | vmDelete | vmDeleteStorage | vmClone | vmCloneTarget | vmNetwork
  | vmDisk | storageRead | bridgeRead | templateClone | vmCreate | storageAllocate | bridgeUse
  | cluster
  deriving DecidableEq

namespace Role

def name : Role → Str
  | .hostNetwork => "GjallarHostNetworkV1"
  | .hostStorage => "GjallarHostStorageV1"
  | .vmMigrate => "GjallarVmMigrateV1"
  | .vmRestore => "GjallarVmRestoreV1"
  | .vmBackup => "GjallarVmBackupV1"
  | .imageCleanup => "GjallarImageCleanupV1"
  | .imageCleanupStorage => "GjallarImageCleanupStorageV1"
  | .imageBuild => "GjallarImageBuildV1"
  | .imageUpload => "GjallarImageUploadV1"
  | .nodeRead => "GjallarNodeReadV1"
  | .vmRead => "GjallarVmReadV1"
  | .vmPower => "GjallarVmPowerV1"
  | .vmCompute => "GjallarVmComputeV1"
  | .vmConsole => "GjallarVmConsoleV1"
  | .vmTemplate => "GjallarVmTemplateV2"
  | .vmDelete => "GjallarVmDeleteV1"
  | .vmDeleteStorage => "GjallarVmDeleteStorageV1"
  | .vmClone => "GjallarVmCloneV2"
  | .vmCloneTarget => "GjallarVmCloneTargetV2"
  | .vmNetwork => "GjallarVmNetworkV1"
  | .vmDisk => "GjallarVmDiskV1"
  | .storageRead => "GjallarStorageReadV1"
  | .bridgeRead => "GjallarBridgeReadV1"
  | .templateClone => "GjallarTemplateCloneV1"
  | .vmCreate => "GjallarVmCreateV1"
  | .storageAllocate => "GjallarStorageAllocateV1"
  | .bridgeUse => "GjallarBridgeUseV1"
  | .cluster => "GjallarClusterV1"

/-- `ROLE_PRIVILEGES` before the role of the whole cluster is added. -/
def own : Role → List Privilege
  | .hostNetwork => [.sysModify]
  | .hostStorage => [.datastoreAllocate]
  | .vmMigrate => [.vmMigrate, .vmConfigDisk]
  | .vmRestore => [.vmAllocate, .vmAudit, .vmConfigDisk, .vmPowerMgmt, .vmGuestAgentAudit]
  | .vmBackup => [.vmBackup]
  | .imageCleanup => [.vmAllocate, .vmAudit]
  | .imageCleanupStorage => [.datastoreAllocate]
  | .imageBuild => vmPrivileges
  | .imageUpload => [.datastoreAllocateTemplate]
  | .nodeRead => [.sysAudit]
  | .vmRead => [.vmAudit, .vmGuestAgentAudit]
  | .vmPower => [.vmAudit, .vmGuestAgentAudit, .vmPowerMgmt]
  | .vmCompute => [.vmConfigCpu, .vmConfigMemory]
  | .vmConsole => [.vmConsole]
  | .vmTemplate => [.vmAllocate, .vmConfigDisk]
  | .vmDelete => [.vmAllocate]
  | .vmDeleteStorage => [.datastoreAllocate]
  | .vmClone => [.vmAudit, .vmClone, .vmConfigDisk]
  | .vmCloneTarget => [.vmAllocate, .vmAudit, .vmConfigDisk]
  | .vmNetwork => [.vmConfigNetwork]
  | .vmDisk => [.vmConfigDisk]
  | .storageRead => [.datastoreAudit]
  | .bridgeRead => [.sdnAudit]
  | .templateClone => [.vmAudit, .vmClone]
  | .vmCreate =>
      [.vmAllocate, .vmAudit, .vmConfigCpu, .vmConfigMemory, .vmConfigDisk, .vmConfigNetwork,
        .vmConfigOptions, .vmConfigCloudinit, .vmGuestAgentAudit, .vmGuestAgentUnrestricted,
        .vmPowerMgmt]
  | .storageAllocate => [.datastoreAllocateSpace]
  | .bridgeUse => [.sdnUse]
  | .cluster => []

def listed : List Role :=
  [.hostNetwork, .hostStorage, .vmMigrate, .vmRestore, .vmBackup, .imageCleanup,
    .imageCleanupStorage, .imageBuild, .imageUpload, .nodeRead, .vmRead, .vmPower, .vmCompute,
    .vmConsole, .vmTemplate, .vmDelete, .vmDeleteStorage, .vmClone, .vmCloneTarget, .vmNetwork,
    .vmDisk, .storageRead, .bridgeRead, .templateClone, .vmCreate, .storageAllocate, .bridgeUse]

/-- `ROLE_PRIVILEGES`. -/
def privileges : Role → List Privilege
  | .cluster => ascending (fun a b => textLe a.name b.name) (listed.flatMap own)
  | role => role.own

def privilegeNames (role : Role) : List Str := role.privileges.map Privilege.name

/-- Role names in order. -/
def sorted (roles : List Role) : List Role := ascending (fun a b => textLe a.name b.name) roles

end Role

/-- `CLUSTER_FEATURE_ROLES`. -/
def clusterFeatureRoles : Feature → List Role
  | .read => [.nodeRead, .vmRead, .storageRead, .bridgeRead]
  | .power => [.vmPower]
  | .compute => [.vmCompute]
  | .console => [.vmConsole]
  | .template => [.vmTemplate]
  | .delete => [.vmDelete, .vmDeleteStorage]
  | .disk => [.vmDisk, .storageAllocate]
  | .network => [.vmNetwork, .bridgeUse]
  | .clone => [.vmClone, .vmCloneTarget, .storageAllocate, .bridgeUse]
  | .create => [.templateClone, .vmCreate, .storageAllocate, .bridgeUse]
  | .backup => [.vmBackup, .storageAllocate]
  | .restore => [.vmBackup, .vmRestore, .storageAllocate, .bridgeUse]
  | .migrate => [.vmMigrate, .bridgeUse]
  | .imageBuild => [.imageBuild, .imageUpload, .storageAllocate, .bridgeUse]
  | .imageCleanup => [.imageCleanup, .imageCleanupStorage]
  | .hostStorage => [.hostStorage]
  | .hostNetwork => [.hostNetwork]

/-! ### Grants -/

/-- A role on a path, which propagates to what is below. -/
structure Acl where
  path : Str
  role : Role
  deriving DecidableEq

/-- One role on each of the named objects. -/
def grants (base : Str) (role : Role) (names : List Str) : List Acl :=
  names.map fun name => ⟨base ++ name, role⟩

def onNodes : Role → List Str → List Acl := grants "/nodes/"

def onVms (role : Role) (vmids : List ℤ) : List Acl := grants "/vms/" role (vmids.map ofInt)

def onStorages : Role → List Str → List Acl := grants "/storage/"

def onBridges : Role → List Str → List Acl := grants "/sdn/zones/localnetwork/"

/-- The rows of some features, when one of them is selected. -/
def given (features wanted : List Feature) (rows : List Acl) : List Acl :=
  if meets wanted features then rows else []

/-- The rows of `acl_plan` for a scoped connection, in the order of the source. -/
def scopedRows (features : List Feature) (s : Scope) : List Acl :=
  onNodes .nodeRead s.nodes ++
  given features [.hostNetwork]
    (onNodes .hostNetwork s.nodes ++ [⟨"/sdn/zones/localnetwork", .bridgeRead⟩]) ++
  given features [.hostStorage]
    ([⟨"/storage", .hostStorage⟩] ++ onStorages .storageRead s.hostStorages) ++
  onVms (if .power ∈ features then .vmPower else .vmRead) s.vmids ++
  given features [.migrate] (onVms .vmMigrate s.vmids ++ onBridges .bridgeUse s.bridges) ++
  given features [.compute] (onVms .vmCompute s.vmids) ++
  given features [.network] (onVms .vmNetwork s.vmids ++ onBridges .bridgeUse s.bridges) ++
  given features [.disk] (onVms .vmDisk s.vmids ++ onStorages .storageAllocate s.storages) ++
  onStorages .storageRead s.storages ++
  onBridges .bridgeRead s.bridges ++
  given features [.backup, .restore]
    (onVms .vmBackup s.vmids ++ onStorages .storageAllocate s.backupStorages) ++
  given features [.restore]
    (onVms .vmRestore s.restoreVmids ++ onStorages .storageAllocate s.restoreStorages ++
      onBridges .bridgeUse s.bridges) ++
  given features [.imageCleanup]
    (onVms .imageCleanup s.vmids ++
      onStorages .imageCleanupStorage s.imageCleanupStorages) ++
  given features [.imageBuild]
    (onVms .imageBuild s.imageVmids ++ onStorages .imageUpload s.storages ++
      onStorages .storageAllocate s.storages ++ onBridges .bridgeUse s.bridges) ++
  given features [.template] (onVms .vmTemplate s.vmids) ++
  given features [.console] (onVms .vmConsole s.vmids) ++
  given features [.delete]
    (onVms .vmDelete s.vmids ++ onStorages .vmDeleteStorage s.storages) ++
  given features [.clone]
    (onVms .vmClone s.vmids ++ onVms .vmCloneTarget s.cloneVmids ++
      onStorages .storageAllocate s.storages ++ onBridges .bridgeUse s.bridges) ++
  given features [.create]
    (onVms .templateClone s.templateVmids ++ onVms .vmCreate s.createVmids ++
      onStorages .storageAllocate s.storages ++ onBridges .bridgeUse s.bridges)

/-- The roles on the whole cluster. -/
def clusterRoles (features : List Feature) : List Role :=
  if within Feature.all features then [.cluster]
  else Role.sorted (features.flatMap clusterFeatureRoles)

/-- `acl_plan`. -/
def aclPlan (c : Configuration) : List Acl :=
  match c.accessMode with
  | .cluster => (clusterRoles c.features).map fun role => ⟨"/", role⟩
  | .scoped => (scopedRows c.features c.scope).eraseDups

/-! ### What a plan grants -/

/-- A privilege on a path. -/
def Grants (c : Configuration) (path : Str) (privilege : Privilege) : Prop :=
  ∃ acl ∈ aclPlan c, acl.path = path ∧ privilege ∈ acl.role.privileges

/-- The selected objects that a feature is about. -/
def objectPaths (features : List Feature) (s : Scope) (f : Feature) : List Str :=
  let nodes := s.nodes.map (("/nodes/" : Str) ++ ·)
  let vms (vmids : List ℤ) := vmids.map fun vmid => ("/vms/" : Str) ++ ofInt vmid
  let storages (names : List Str) := names.map (("/storage/" : Str) ++ ·)
  let bridges := s.bridges.map (("/sdn/zones/localnetwork/" : Str) ++ ·)
  match f with
  | .read =>
      nodes ++ vms s.vmids ++ storages s.storages ++ bridges ++
        if .hostStorage ∈ features then storages s.hostStorages else []
  | .power | .compute | .console | .template => vms s.vmids
  | .delete | .disk => vms s.vmids ++ storages s.storages
  | .network | .migrate => vms s.vmids ++ bridges
  | .clone => vms s.vmids ++ vms s.cloneVmids ++ storages s.storages ++ bridges
  | .create => vms s.templateVmids ++ vms s.createVmids ++ storages s.storages ++ bridges
  | .backup => vms s.vmids ++ storages s.backupStorages
  | .restore =>
      vms s.vmids ++ vms s.restoreVmids ++ storages s.backupStorages ++
        storages s.restoreStorages ++ bridges
  | .imageBuild => vms s.imageVmids ++ storages s.storages ++ bridges
  | .imageCleanup => vms s.vmids ++ storages s.imageCleanupStorages
  | .hostStorage => storages s.hostStorages
  | .hostNetwork => nodes

/-- The two rows that no selected object bounds, each with the feature that asks for it. A role on a
path holds on everything below it, so these reach every storage and every bridge. -/
def unscopedRows : List (Feature × Acl) :=
  [(.hostStorage, ⟨"/storage", .hostStorage⟩),
    (.hostNetwork, ⟨"/sdn/zones/localnetwork", .bridgeRead⟩)]

section Grants

variable {features features' : List Feature} {s s' : Scope} {rows rows' : List Acl} {role : Role}
  {base : Str}

theorem mem_given {wanted : List Feature} {acl : Acl} :
    acl ∈ given features wanted rows ↔ (∃ f ∈ wanted, f ∈ features) ∧ acl ∈ rows := by
  rw [given]
  split
  · rename_i h
    rw [meets, List.any_eq_true] at h
    obtain ⟨f, hf, hselected⟩ := h
    exact ⟨fun hrow => ⟨⟨f, hf, of_decide_eq_true hselected⟩, hrow⟩, And.right⟩
  · rename_i h
    refine ⟨fun hrow => absurd hrow List.not_mem_nil, fun ⟨⟨f, hf, hselected⟩, _⟩ => absurd ?_ h⟩
    exact List.any_eq_true.mpr ⟨f, hf, decide_eq_true hselected⟩

/-- Every row is a role that a selected feature needs on one of its objects, or an unscoped one. -/
def Needed (features : List Feature) (s : Scope) (rows : List Acl) : Prop :=
  ∀ acl ∈ rows,
    (∃ f ∈ features, acl.role ∈ clusterFeatureRoles f ∧ acl.path ∈ objectPaths features s f) ∨
      ∃ f ∈ features, (f, acl) ∈ unscopedRows

theorem Needed.append (h : Needed features s rows) (h' : Needed features s rows') :
    Needed features s (rows ++ rows') := List.forall_mem_append.mpr ⟨h, h'⟩

theorem needed_given {wanted : List Feature}
    (h : ∀ f ∈ wanted, f ∈ features → Needed features s rows) :
    Needed features s (given features wanted rows) := by
  intro acl hacl
  obtain ⟨⟨f, hf, hselected⟩, hrow⟩ := mem_given.mp hacl
  exact h f hf hselected acl hrow

theorem needed_grants {f : Feature} {names : List Str} (hf : f ∈ features)
    (hrole : role ∈ clusterFeatureRoles f)
    (hnames : ∀ n ∈ names, base ++ n ∈ objectPaths features s f) :
    Needed features s (grants base role names) := by
  intro acl hacl
  obtain ⟨n, hn, rfl⟩ := List.mem_map.mp hacl
  exact .inl ⟨f, hf, hrole, hnames n hn⟩

theorem needed_unscoped {f : Feature} {acl : Acl} (hf : f ∈ features)
    (hacl : (f, acl) ∈ unscopedRows) : Needed features s [acl] := by
  intro acl' hacl'
  rw [List.mem_singleton.mp hacl']
  exact .inr ⟨f, hf, hacl⟩

theorem needed_feature {f : Feature} (h : f ∈ features → Needed features s rows) :
    Needed features s (given features [f] rows) :=
  needed_given fun _ hg hselected => h (List.mem_singleton.mp hg ▸ hselected)

theorem needed_onVms {f : Feature} {vmids : List ℤ} (hf : f ∈ features)
    (hrole : role ∈ clusterFeatureRoles f)
    (hvmids : (vmids.map fun v => ("/vms/" : Str) ++ ofInt v) ⊆ objectPaths features s f) :
    Needed features s (onVms role vmids) := by
  refine needed_grants hf hrole fun n hn => ?_
  obtain ⟨v, hv, rfl⟩ := List.mem_map.mp hn
  exact hvmids (List.mem_map_of_mem hv)

theorem needed_on {f : Feature} {names : List Str} (hf : f ∈ features)
    (hrole : role ∈ clusterFeatureRoles f)
    (hnames : names.map (base ++ ·) ⊆ objectPaths features s f) :
    Needed features s (grants base role names) :=
  needed_grants hf hrole fun _ hn => hnames (List.mem_map_of_mem hn)

theorem mem_objectPaths_read {path : Str} : path ∈ objectPaths features s .read ↔
    path ∈ s.nodes.map (("/nodes/" : Str) ++ ·) ∨
      path ∈ s.vmids.map (fun vmid => ("/vms/" : Str) ++ ofInt vmid) ∨
      path ∈ s.storages.map (("/storage/" : Str) ++ ·) ∨
      path ∈ s.bridges.map (("/sdn/zones/localnetwork/" : Str) ++ ·) ∨
      (.hostStorage ∈ features ∧ path ∈ s.hostStorages.map (("/storage/" : Str) ++ ·)) := by
  simp only [objectPaths, List.mem_append, List.mem_ite_nil_right, or_assoc]

theorem needed_scopedRows (hread : .read ∈ features) :
    Needed features s (scopedRows features s) := by
  have hpower : Needed features s
      (onVms (if Feature.power ∈ features then .vmPower else .vmRead) s.vmids) := by
    split
    · rename_i hf
      exact needed_onVms hf (by decide) (by simp [objectPaths])
    · exact needed_onVms hread (by decide) fun x hx =>
        mem_objectPaths_read.mpr (.inr (.inl hx))
  unfold scopedRows
  refine .append (.append (.append (.append (.append (.append (.append (.append (.append (.append
    (.append (.append (.append (.append (.append (.append (.append (.append ?_ ?_) ?_) ?_) ?_) ?_)
      ?_) ?_) ?_) ?_) ?_) ?_) ?_) ?_) ?_) ?_) ?_) ?_) ?_
  -- the rows in the order of the plan
  · exact needed_on hread (by decide) fun x hx => mem_objectPaths_read.mpr (.inl hx)
  · refine needed_feature fun hf => .append ?_ ?_
    · exact needed_on hf (by decide) fun x hx => by grind [objectPaths]
    · exact needed_unscoped hf (by decide)
  · refine needed_feature fun hf => .append ?_ ?_
    · exact needed_unscoped hf (by decide)
    · exact needed_on hread (by decide) fun x hx =>
        mem_objectPaths_read.mpr (.inr (.inr (.inr (.inr ⟨hf, hx⟩))))
  · exact hpower
  · refine needed_feature fun hf => .append ?_ ?_
    · exact needed_onVms hf (by decide) fun x hx => by grind [objectPaths]
    · exact needed_on hf (by decide) fun x hx => by grind [objectPaths]
  · refine needed_feature fun hf => ?_
    exact needed_onVms hf (by decide) fun x hx => by grind [objectPaths]
  · refine needed_feature fun hf => .append ?_ ?_
    · exact needed_onVms hf (by decide) fun x hx => by grind [objectPaths]
    · exact needed_on hf (by decide) fun x hx => by grind [objectPaths]
  · refine needed_feature fun hf => .append ?_ ?_
    · exact needed_onVms hf (by decide) fun x hx => by grind [objectPaths]
    · exact needed_on hf (by decide) fun x hx => by grind [objectPaths]
  · exact needed_on hread (by decide) fun x hx =>
      mem_objectPaths_read.mpr (.inr (.inr (.inl hx)))
  · exact needed_on hread (by decide) fun x hx =>
      mem_objectPaths_read.mpr (.inr (.inr (.inr (.inl hx))))
  · refine needed_given fun f hf hselected => ?_
    rcases List.mem_pair.mp hf with rfl | rfl
    · refine .append ?_ ?_
      · exact needed_onVms hselected (by decide) fun x hx => by grind [objectPaths]
      · exact needed_on hselected (by decide) fun x hx => by grind [objectPaths]
    · refine .append ?_ ?_
      · exact needed_onVms hselected (by decide) fun x hx => by grind [objectPaths]
      · exact needed_on hselected (by decide) fun x hx => by grind [objectPaths]
  · refine needed_feature fun hf => .append (.append ?_ ?_) ?_
    · exact needed_onVms hf (by decide) fun x hx => by grind [objectPaths]
    · exact needed_on hf (by decide) fun x hx => by grind [objectPaths]
    · exact needed_on hf (by decide) fun x hx => by grind [objectPaths]
  · refine needed_feature fun hf => .append ?_ ?_
    · exact needed_onVms hf (by decide) fun x hx => by grind [objectPaths]
    · exact needed_on hf (by decide) fun x hx => by grind [objectPaths]
  · refine needed_feature fun hf => .append (.append (.append ?_ ?_) ?_) ?_
    · exact needed_onVms hf (by decide) fun x hx => by grind [objectPaths]
    · exact needed_on hf (by decide) fun x hx => by grind [objectPaths]
    · exact needed_on hf (by decide) fun x hx => by grind [objectPaths]
    · exact needed_on hf (by decide) fun x hx => by grind [objectPaths]
  · refine needed_feature fun hf => ?_
    exact needed_onVms hf (by decide) fun x hx => by grind [objectPaths]
  · refine needed_feature fun hf => ?_
    exact needed_onVms hf (by decide) fun x hx => by grind [objectPaths]
  · refine needed_feature fun hf => .append ?_ ?_
    · exact needed_onVms hf (by decide) fun x hx => by grind [objectPaths]
    · exact needed_on hf (by decide) fun x hx => by grind [objectPaths]
  · refine needed_feature fun hf => .append (.append (.append ?_ ?_) ?_) ?_
    · exact needed_onVms hf (by decide) fun x hx => by grind [objectPaths]
    · exact needed_onVms hf (by decide) fun x hx => by grind [objectPaths]
    · exact needed_on hf (by decide) fun x hx => by grind [objectPaths]
    · exact needed_on hf (by decide) fun x hx => by grind [objectPaths]
  · refine needed_feature fun hf => .append (.append (.append ?_ ?_) ?_) ?_
    · exact needed_onVms hf (by decide) fun x hx => by grind [objectPaths]
    · exact needed_onVms hf (by decide) fun x hx => by grind [objectPaths]
    · exact needed_on hf (by decide) fun x hx => by grind [objectPaths]
    · exact needed_on hf (by decide) fun x hx => by grind [objectPaths]

/-! ### Wider selections -/

/-- A selection with more features and objects. -/
structure Widens (c c' : Configuration) : Prop where
  accessMode : c'.accessMode = c.accessMode
  features : c.features ⊆ c'.features
  nodes : c.scope.nodes ⊆ c'.scope.nodes
  vmids : c.scope.vmids ⊆ c'.scope.vmids
  templateVmids : c.scope.templateVmids ⊆ c'.scope.templateVmids
  restoreVmids : c.scope.restoreVmids ⊆ c'.scope.restoreVmids
  imageVmids : c.scope.imageVmids ⊆ c'.scope.imageVmids
  cloneVmids : c.scope.cloneVmids ⊆ c'.scope.cloneVmids
  createVmids : c.scope.createVmids ⊆ c'.scope.createVmids
  storages : c.scope.storages ⊆ c'.scope.storages
  hostStorages : c.scope.hostStorages ⊆ c'.scope.hostStorages
  restoreStorages : c.scope.restoreStorages ⊆ c'.scope.restoreStorages
  backupStorages : c.scope.backupStorages ⊆ c'.scope.backupStorages
  imageCleanupStorages : c.scope.imageCleanupStorages ⊆ c'.scope.imageCleanupStorages
  bridges : c.scope.bridges ⊆ c'.scope.bridges

/-- Every privilege of the first rows is one of the second rows. -/
def Covers (rows rows' : List Acl) : Prop :=
  ∀ acl ∈ rows, ∃ acl' ∈ rows', acl'.path = acl.path ∧ acl.role.privileges ⊆ acl'.role.privileges

theorem Covers.append (h : Covers rows rows') {more more' : List Acl} (hmore : Covers more more') :
    Covers (rows ++ more) (rows' ++ more') := by
  intro acl hacl
  rcases List.mem_append.mp hacl with hacl | hacl
  · obtain ⟨acl', hmem, hcovers⟩ := h acl hacl
    exact ⟨acl', List.mem_append_left _ hmem, hcovers⟩
  · obtain ⟨acl', hmem, hcovers⟩ := hmore acl hacl
    exact ⟨acl', List.mem_append_right _ hmem, hcovers⟩

theorem covers_of_subset (h : rows ⊆ rows') : Covers rows rows' :=
  fun acl hacl => ⟨acl, h hacl, rfl, List.Subset.refl _⟩

theorem Covers.given (h : Covers rows rows') (hfeatures : features ⊆ features')
    (wanted : List Feature) :
    Covers (given features wanted rows) (given features' wanted rows') := by
  intro acl hacl
  obtain ⟨⟨f, hf, hselected⟩, hrow⟩ := mem_given.mp hacl
  obtain ⟨acl', hmem, hcovers⟩ := h acl hrow
  exact ⟨acl', mem_given.mpr ⟨⟨f, hf, hfeatures hselected⟩, hmem⟩, hcovers⟩

theorem covers_grants {role' : Role} {names names' : List Str}
    (hrole : role.privileges ⊆ role'.privileges) (h : names ⊆ names') :
    Covers (grants base role names) (grants base role' names') := by
  intro acl hacl
  obtain ⟨n, hn, rfl⟩ := List.mem_map.mp hacl
  exact ⟨⟨base ++ n, role'⟩, List.mem_map_of_mem (h hn), rfl, hrole⟩

theorem covers_on {names names' : List Str} (h : names ⊆ names') :
    Covers (grants base role names) (grants base role names') :=
  covers_grants (List.Subset.refl _) h

theorem covers_onVms {vmids vmids' : List ℤ} (h : vmids ⊆ vmids') :
    Covers (onVms role vmids) (onVms role vmids') := covers_on (List.map_subset _ h)

/-- The role of power operations includes that of reading. -/
theorem covers_power {vmids vmids' : List ℤ} (hfeatures : features ⊆ features')
    (h : vmids ⊆ vmids') : Covers (onVms (if .power ∈ features then .vmPower else .vmRead) vmids)
      (onVms (if .power ∈ features' then .vmPower else .vmRead) vmids') := by
  refine covers_grants ?_ (List.map_subset _ h)
  by_cases hpower : Feature.power ∈ features
  · rw [if_pos hpower, if_pos (hfeatures hpower)]
    exact List.Subset.refl _
  · rw [if_neg hpower]
    split
    · decide
    · exact List.Subset.refl _

theorem covers_scopedRows {c c' : Configuration} (h : Widens c c') :
    Covers (scopedRows c.features c.scope) (scopedRows c'.features c'.scope) := by
  have hf := h.features
  have hvms {role : Role} : Covers (onVms role c.scope.vmids) (onVms role c'.scope.vmids) :=
    covers_onVms h.vmids
  have hstorages {role : Role} :
      Covers (onStorages role c.scope.storages) (onStorages role c'.scope.storages) :=
    covers_on h.storages
  have hbridges {role : Role} :
      Covers (onBridges role c.scope.bridges) (onBridges role c'.scope.bridges) :=
    covers_on h.bridges
  refine .append (.append (.append (.append (.append (.append (.append (.append (.append (.append
    (.append (.append (.append (.append (.append (.append (.append (.append ?_ ?_) ?_) ?_) ?_) ?_)
      ?_) ?_) ?_) ?_) ?_) ?_) ?_) ?_) ?_) ?_) ?_) ?_) ?_
  · exact covers_on h.nodes
  · exact ((covers_on h.nodes).append (covers_of_subset (List.Subset.refl _))).given hf _
  · exact ((covers_of_subset (List.Subset.refl _)).append (covers_on h.hostStorages)).given hf _
  · exact covers_power hf h.vmids
  · exact (hvms.append hbridges).given hf _
  · exact hvms.given hf _
  · exact (hvms.append hbridges).given hf _
  · exact (hvms.append hstorages).given hf _
  · exact hstorages
  · exact hbridges
  · exact (hvms.append (covers_on h.backupStorages)).given hf _
  · exact (((covers_onVms h.restoreVmids).append (covers_on h.restoreStorages)).append
      hbridges).given hf _
  · exact (hvms.append (covers_on h.imageCleanupStorages)).given hf _
  · exact ((((covers_onVms h.imageVmids).append hstorages).append hstorages).append
      hbridges).given hf _
  · exact hvms.given hf _
  · exact hvms.given hf _
  · exact (hvms.append hstorages).given hf _
  · exact (((hvms.append (covers_onVms h.cloneVmids)).append hstorages).append hbridges).given hf _
  · exact ((((covers_onVms h.templateVmids).append (covers_onVms h.createVmids)).append
      hstorages).append hbridges).given hf _

/-! ### The whole cluster -/

theorem mem_privileges_cluster {p : Privilege} :
    p ∈ Role.cluster.privileges ↔ ∃ role ∈ Role.listed, p ∈ role.own := by
  rw [Role.privileges, mem_ascending, List.mem_flatMap]

/-- A role that a feature needs is part of the role of the whole cluster. -/
theorem privileges_subset_cluster {f : Feature} (h : role ∈ clusterFeatureRoles f) :
    role.privileges ⊆ Role.cluster.privileges := by
  have hlisted : role ∈ Role.listed ∧ role.privileges = role.own := by
    revert role
    cases f <;> decide
  intro p hp
  exact mem_privileges_cluster.mpr ⟨role, hlisted.1, hlisted.2 ▸ hp⟩

theorem covers_clusterRoles {f : Feature} (hf : f ∈ features) (h : role ∈ clusterFeatureRoles f) :
    ∃ role' ∈ clusterRoles features, role.privileges ⊆ role'.privileges := by
  rw [clusterRoles]
  split
  · exact ⟨.cluster, List.mem_singleton_self _, privileges_subset_cluster h⟩
  · exact ⟨role, mem_ascending.mpr (List.mem_flatMap.mpr ⟨f, hf, h⟩), List.Subset.refl _⟩

theorem mem_clusterRoles (h : role ∈ clusterRoles features) :
    (role = .cluster ∧ Feature.all ⊆ features) ∨
      ∃ f ∈ features, role ∈ clusterFeatureRoles f := by
  rw [clusterRoles] at h
  split at h
  · rename_i hall
    refine .inl ⟨List.mem_singleton.mp h, fun f hf => ?_⟩
    exact of_decide_eq_true (List.all_eq_true.mp hall f hf)
  · obtain ⟨f, hf, hrole⟩ := List.mem_flatMap.mp (mem_ascending.mp h)
    exact .inr ⟨f, hf, hrole⟩

theorem aclPlan_of_scoped {c : Configuration} (hmode : c.accessMode = .scoped) :
    aclPlan c = (scopedRows c.features c.scope).eraseDups := by
  rw [aclPlan, hmode]

theorem aclPlan_of_cluster {c : Configuration} (hmode : c.accessMode = .cluster) :
    aclPlan c = (clusterRoles c.features).map fun role => ⟨"/", role⟩ := by
  rw [aclPlan, hmode]

theorem grants_cluster_of_role {c : Configuration} {f : Feature} {p : Privilege}
    (hf : f ∈ c.features) (hrole : role ∈ clusterFeatureRoles f) (hp : p ∈ role.privileges) :
    Grants { c with accessMode := .cluster } "/" p := by
  obtain ⟨role', hmem, hsubset⟩ := covers_clusterRoles hf hrole
  refine ⟨⟨"/", role'⟩, ?_, rfl, hsubset hp⟩
  rw [aclPlan_of_cluster rfl]
  exact List.mem_map_of_mem hmem

/-- A plan for selected objects grants, on every path, only what a selected feature needs on one of
its own selected objects, apart from the two unscoped rows, and nothing that the plan for the whole
cluster would not grant. -/
theorem grants_within_selection {c : Configuration} {path : Str} {p : Privilege}
    (hmode : c.accessMode = .scoped) (hread : .read ∈ c.features) (h : Grants c path p) :
    ((∃ f ∈ c.features, path ∈ objectPaths c.features c.scope f ∧
        ∃ role ∈ clusterFeatureRoles f, p ∈ role.privileges) ∨
      (path = ("/storage" : Str) ∧ .hostStorage ∈ c.features ∧
        p ∈ Role.hostStorage.privileges) ∨
      (path = ("/sdn/zones/localnetwork" : Str) ∧ .hostNetwork ∈ c.features ∧
        p ∈ Role.bridgeRead.privileges)) ∧
    Grants { c with accessMode := .cluster } "/" p := by
  obtain ⟨acl, hacl, rfl, hp⟩ := h
  rw [aclPlan_of_scoped hmode, List.mem_eraseDups] at hacl
  rcases needed_scopedRows hread acl hacl with ⟨f, hf, hrole, hpath⟩ | ⟨f, hf, hrow⟩
  · exact ⟨.inl ⟨f, hf, hpath, acl.role, hrole, hp⟩, grants_cluster_of_role hf hrole hp⟩
  · rcases List.mem_pair.mp hrow with hrow | hrow <;> obtain ⟨rfl, rfl⟩ := Prod.mk.inj hrow
    · exact ⟨.inr (.inl ⟨rfl, hf, hp⟩), grants_cluster_of_role hf (by decide) hp⟩
    · exact ⟨.inr (.inr ⟨rfl, hf, hp⟩), grants_cluster_of_role hread (by decide) hp⟩

/-- Power on a selected VM, and the unscoped row of host storage. -/
theorem grants_within_selection_of_power :
    let c : Configuration :=
      ⟨.scoped, [.read, .power, .hostStorage], { nodes := ["pve"], vmids := [100] }⟩
    (∃ path, Grants c path .vmPowerMgmt ∧
      ((∃ f ∈ c.features, path ∈ objectPaths c.features c.scope f ∧
          ∃ role ∈ clusterFeatureRoles f, .vmPowerMgmt ∈ role.privileges) ∨
        (path = ("/storage" : Str) ∧ .hostStorage ∈ c.features ∧
          .vmPowerMgmt ∈ Role.hostStorage.privileges) ∨
        (path = ("/sdn/zones/localnetwork" : Str) ∧ .hostNetwork ∈ c.features ∧
          .vmPowerMgmt ∈ Role.bridgeRead.privileges)) ∧
      Grants { c with accessMode := .cluster } "/" .vmPowerMgmt) ∧
    Grants c "/storage" .datastoreAllocate ∧
      Grants { c with accessMode := .cluster } "/" .datastoreAllocate := by
  intro c
  have hvm : Grants c "/vms/100" .vmPowerMgmt :=
    ⟨⟨"/vms/100", .vmPower⟩, by decide, rfl, by decide⟩
  have hstorage : Grants c "/storage" .datastoreAllocate :=
    ⟨⟨"/storage", .hostStorage⟩, by decide, rfl, by decide⟩
  exact ⟨⟨_, hvm, grants_within_selection rfl (by decide) hvm⟩, hstorage,
    (grants_within_selection rfl (by decide) hstorage).2⟩

/-- A wider selection loses no grant. -/
theorem grants_of_widens {c c' : Configuration} {path : Str} {p : Privilege} (h : Widens c c')
    (hp : Grants c path p) : Grants c' path p := by
  obtain ⟨acl, hacl, rfl, hprivilege⟩ := hp
  cases hmode : c.accessMode with
  | «scoped» =>
      rw [aclPlan_of_scoped hmode, List.mem_eraseDups] at hacl
      obtain ⟨acl', hmem, hpath, hsubset⟩ := covers_scopedRows h acl hacl
      refine ⟨acl', ?_, hpath, hsubset hprivilege⟩
      rw [aclPlan_of_scoped (h.accessMode.trans hmode), List.mem_eraseDups]
      exact hmem
  | cluster =>
      rw [aclPlan_of_cluster hmode] at hacl
      obtain ⟨role, hrole, rfl⟩ := List.mem_map.mp hacl
      have hlarger : ∃ role' ∈ clusterRoles c'.features, role.privileges ⊆ role'.privileges := by
        rcases mem_clusterRoles hrole with ⟨rfl, hall⟩ | ⟨f, hf, hmem⟩
        · have hall' : within Feature.all c'.features = true := by
            rw [within, List.all_eq_true]
            exact fun f hf => decide_eq_true (h.features (hall hf))
          refine ⟨.cluster, ?_, List.Subset.refl _⟩
          rw [clusterRoles, if_pos hall']
          exact List.mem_singleton_self _
        · exact covers_clusterRoles (h.features hf) hmem
      obtain ⟨role', hmem, hsubset⟩ := hlarger
      refine ⟨⟨"/", role'⟩, ?_, rfl, hsubset hprivilege⟩
      rw [aclPlan_of_cluster (h.accessMode.trans hmode)]
      exact List.mem_map_of_mem hmem

theorem grants_of_widens_by_power :
    let c : Configuration := ⟨.scoped, [.read], { nodes := ["pve"], vmids := [100] }⟩
    let c' : Configuration := ⟨.scoped, [.read, .power], { nodes := ["pve"], vmids := [100, 101] }⟩
    Grants c "/vms/100" .vmAudit ∧ Grants c' "/vms/100" .vmAudit := by
  intro c c'
  have h : Grants c "/vms/100" .vmAudit := ⟨⟨"/vms/100", .vmRead⟩, by decide, rfl, by decide⟩
  have hwidens : Widens c c' := by
    constructor <;> decide
  exact ⟨h, grants_of_widens hwidens h⟩

end Grants

/-- `authority_warnings`. -/
def authorityWarnings (c : Configuration) : List Str :=
  let warn (condition : Bool) (text : Str) : List Str := if condition then [text] else []
  warn (c.accessMode = .cluster)
    "현재와 이후 추가되는 클러스터 전체 자원을 조회합니다. 선택한 작업 권한도 전체 자원에 적용됩니다." ++
  warn (meets [.create, .imageBuild] c.features)
    "생성 기능에는 전원·guest-agent 권한이 포함됩니다. Gjallar의 허용 작업보다 PVE 토큰 자체 권한은 넓을 수 있습니다." ++
  warn (.hostStorage ∈ c.features)
    ("PVE token은 /storage의 Datastore.Allocate로 클러스터 전체 storage 설정을 변경할 수 있습니다. " ++
      "Gjallar는 별도로 선택한 host storage ID와 directory 설정 필드만 허용합니다." : String) ++
  warn (.hostNetwork ∈ c.features)
    ("PVE token의 Sys.Modify는 선택 node의 광범위한 설정 권한입니다. 전체 local bridge 읽기 권한도 필요합니다. " ++
      "Gjallar는 선택 host bridge의 허용 필드와 노드 전체 network reload만 사용합니다." : String)

/-! ### Requests -/

section Requests

variable {C : Type} {V : C → Type}

/-- A request of Proxmox, with the path and the data of a query. -/
abbrev Get (C : Type) (V : C → Type) : Type := Str → Dict → Fallible C V Failure Value

def lift {α : Type} : Except Failure α → Fallible C V Failure α
  | .ok a => pure a
  | .error e => throw e

def protocolError (message : Str) : Failure := setupError "PROXMOX_PROTOCOL_ERROR" message 502

/-- `isinstance(value, list)` of dictionaries. -/
def listOfDicts (value : Value) (message : Str) : Except Failure (List Dict) :=
  match value with
  | .list xs => orRaise (xs.mapM Value.asDict) (protocolError message)
  | _ => .error (protocolError message)

/-- `{row.get(key) for row in rows}`. -/
def setOf (key : Str) (rows : List Dict) : Except Failure (List Value) := do
  let values := rows.map fun row => Dict.getD row key .null
  let unhashable (v : Value) : Bool := match v with
    | .list _ | .dict _ => true
    | _ => false
  raiseIf (values.any unhashable = true) (.store (.typeError "unhashable type"))
  return values

/-- `value in values`. -/
def isAmong (values : List Value) (value : Value) : Bool := values.any value.eqv

/-- `permissions_at`: the names of the privileges that the caller has on a path. -/
def permissionsAt (get : Get C V) (path : Str) : Fallible C V Failure (List Str) := do
  let response ← get "/access/permissions" [("path", .str path)]
  let malformed := protocolError "권한 응답 형식이 올바르지 않습니다."
  let response ← lift (orRaise response.asDict malformed)
  let permissions ← lift (orRaise (Dict.getD response path (.dict [])).asDict malformed)
  return Dict.keys permissions

/-- Names that are not held, in order. -/
def absent (required held : List Str) : List Str :=
  ascending textLe (required.filter fun name => name ∉ held)

/-! ### The plan -/

structure Missing where
  path : Str
  privileges : List Str
  purpose : Str
  deriving DecidableEq

/-- What `build_plan` returns: the document that is shown and digested, with the parts of it that
the confirmation uses. -/
structure Plan where
  tokenId : Str
  createRoles : List Role
  acls : List Acl
  missing : List Missing
  document : Dict
  digest : Str

/-- `can_confirm`. -/
def Plan.canConfirm (plan : Plan) : Bool := plan.missing.isEmpty

/-- The planned roles that have to be created. A role of the same name has the same privileges. -/
def rolesToCreate (get : Get C V) (existing : List Value) : List Role →
    Fallible C V Failure (List Role)
  | [] => return []
  | role :: rest => do
      if isAmong existing (.str role.name) then
        let value ← get (("/access/roles/" : Str) ++ role.name) []
        let conflict := setupError "PROXMOX_ROLE_CONFLICT"
          "같은 이름의 role 권한이 다릅니다. 기존 role을 덮어쓰지 않습니다."
        let held ← lift (orRaise value.asDict conflict)
        lift (raiseIf (Dict.keysAre held role.privilegeNames = false) conflict)
        rolesToCreate get existing rest
      else
        let others ← rolesToCreate get existing rest
        return role :: others

/-- What the owner lacks on the planned paths. -/
def missingOn (get : Get C V) : List Acl → Fallible C V Failure (List Missing)
  | [] => return []
  | acl :: rest => do
      let granted ← permissionsAt get acl.path
      let lacking := absent (acl.role.privilegeNames ++ [("Permissions.Modify" : Str)]) granted
      let others ← missingOn get rest
      return if lacking = [] then others else ⟨acl.path, lacking, "owner_and_acl"⟩ :: others

/-- What the owner lacks to create roles. -/
def missingForRoles (get : Get C V) (createRoles : List Role) :
    Fallible C V Failure (List Missing) :=
  if createRoles = [] then return []
  else do
    let held ← permissionsAt get "/access"
    return if ("Sys.Modify" : Str) ∈ held then []
      else [⟨"/access", [("Sys.Modify" : Str)], "role_creation"⟩]

def texts (xs : List Str) : Value := .list (xs.map .str)

def Acl.dump (acl : Acl) : Value :=
  .dict [("path", .str acl.path), ("role", .str acl.role.name), ("propagate", .int 1)]

def Missing.dump (m : Missing) : Value :=
  .dict [("path", .str m.path), ("privileges", texts m.privileges), ("purpose", .str m.purpose)]

/-- The document of a plan. -/
def planDocument (digest : Value → Str) (intent : Intent) (attemptId : Str) (connectionVersion : ℕ)
    (acls : List Acl) (roles createRoles : List Role) (missing : List Missing) : Dict :=
  let trust := if intent.certificateSha256 = [] then intent.caPem else intent.certificateSha256
  let document : Dict :=
    [("endpoint", .str intent.endpoint), ("owner", .str intent.owner),
      ("token_id", .str (issuedTokenId intent.owner attemptId)),
      ("expires_at", .int intent.expiresAt), ("privsep", .int 1),
      ("scope", .dict (scopeDump intent.selected.scope)),
      ("features", featureNames intent.selected.features),
      ("roles", .dict (roles.map fun role => (role.name, texts role.privilegeNames))),
      ("create_roles", texts (createRoles.map Role.name)),
      ("acls", .list (acls.map Acl.dump)),
      ("missing_privileges", .list (missing.map Missing.dump)),
      ("connection_version", .int connectionVersion), ("trust_digest", .str (digest (.str trust))),
      ("version", .str "pve9-managed-host-network.v17"),
      ("authority_warnings", texts (authorityWarnings intent.selected))]
  if intent.selected.accessMode = .cluster then
    Dict.merge document [("access_mode", .str "cluster"), ("version", .str "pve9-cluster.v1")]
  else document

/-- `build_plan`. -/
def buildPlan (digest : Value → Str) (get : Get C V) (intent : Intent) (attemptId : Str)
    (connectionVersion : ℕ) : Fallible C V Failure Plan := do
  let acls := aclPlan intent.selected
  let roles := (acls.map Acl.role).eraseDups
  let answer ← get "/access/roles" []
  let rows ← lift (listOfDicts answer "role 목록 형식이 올바르지 않습니다.")
  let existing ← lift (setOf "roleid" rows)
  let createRoles ← rolesToCreate get existing (Role.sorted roles)
  let forRoles ← missingForRoles get createRoles
  let onPaths ← missingOn get acls
  let missing := forRoles ++ onPaths
  let document := planDocument digest intent attemptId connectionVersion acls roles createRoles
    missing
  return { tokenId := issuedTokenId intent.owner attemptId, createRoles := createRoles
           acls := acls, missing := missing, document := document
           digest := digest (.dict document) }

/-! ### Verification -/

/-- The planned privileges that a token lacks, with their paths. -/
def lackingOn (get : Get C V) : List Acl → Fallible C V Failure (List (Str × List Str))
  | [] => return []
  | acl :: rest => do
      let held ← permissionsAt get acl.path
      let lacking := absent acl.role.privilegeNames held
      let others ← lackingOn get rest
      return if lacking = [] then others else (acl.path, lacking) :: others

def nodePath (node resource : Str) : Str :=
  ("/nodes/" : Str) ++ node ++ ("/" : Str) ++ resource

/-- The lists of a node that have to be readable. -/
def readLists (get : Get C V) : List (Str × Str) → Fallible C V Failure Unit
  | [] => return
  | (node, resource) :: rest => do
      let answer ← get (nodePath node resource) []
      let _ ← lift (listOfDicts answer "클러스터 자원 목록을 확인할 수 없습니다.")
      readLists get rest

/-- The VMs of a node that are in scope. Selected templates are templates. -/
def visibleVms (repr : Value → Str) (get : Get C V) (s : Scope) (node : Str) :
    List Dict → Fallible C V Failure (List Value)
  | [] => return []
  | vm :: rest => do
      let ids ← lift (setOf "vmid" [vm])
      let vmid := ids.headD .null
      if isAmong ((s.vmids ++ s.templateVmids).map .int) vmid then
        let answer ← get (nodePath node (("qemu/" : Str) ++ vmid.toText repr ++
          ("/config" : Str))) []
        let config ← lift (orRaise answer.asDict (protocolError "VM 설정 형식이 올바르지 않습니다."))
        lift (raiseIf (isAmong (s.templateVmids.map .int) vmid = true ∧
            (Dict.getD config "template" (.int 0)).toText repr ≠ ("1" : Str))
          (setupError "PROXMOX_SCOPE_UNAVAILABLE" "선택한 복제 원본이 템플릿이 아닙니다." 502))
        let others ← visibleVms repr get s node rest
        return vmid :: others
      else visibleVms repr get s node rest

/-- The selected names that a list of a node shows. -/
def visibleNames (get : Get C V) (node resource key : Str) (requested : List Str) :
    Fallible C V Failure (List Str) := do
  if requested = [] then return []
  let answer ← get (nodePath node resource) []
  let rows ← lift (listOfDicts answer "선택 자원 목록 형식이 올바르지 않습니다.")
  return rows.filterMap fun row => (Dict.get row key).bind fun v =>
    v.asStr.filter fun name => name ∈ requested

/-- What is visible on the selected nodes. -/
structure Visible where
  vmids : List Value := []
  storages : List Str := []
  bridges : List Str := []

def visibleOn (repr : Value → Str) (get : Get C V) (s : Scope) :
    List Str → Visible → Fallible C V Failure Visible
  | [], seen => return seen
  | node :: rest, seen => do
      let answer ← get (nodePath node "qemu") []
      let vms ← lift (listOfDicts answer "VM 목록 형식이 올바르지 않습니다.")
      let vmids ← visibleVms repr get s node vms
      let storages ← visibleNames get node "storage" "storage" s.storages
      let bridges ← visibleNames get node "network" "iface" s.bridges
      visibleOn repr get s rest
        ⟨seen.vmids ++ vmids, seen.storages ++ storages, seen.bridges ++ bridges⟩

def scopeUnavailable (message : Str) : Failure :=
  setupError "PROXMOX_SCOPE_UNAVAILABLE" message 502

/-- The nodes that are visible have names. -/
def namedNodes (nodes : List Value) : Except Failure (List Str) :=
  orRaise (nodes.mapM fun v => v.asStr.filter fun name => name ≠ [])
    (protocolError "노드 이름을 확인할 수 없습니다.")

def numberLe (v w : Value) : Bool := v.number.getD 0 ≤ w.number.getD 0

/-- The selected objects are visible. -/
def verifyVisible (repr : Value → Str) (get : Get C V) (s : Scope) :
    Fallible C V Failure Dict := do
  let existing := (s.vmids ++ s.templateVmids).map Value.int
  let seen ← visibleOn repr get s s.nodes {}
  lift (raiseIf (existing.all (isAmong seen.vmids) = false)
    (scopeUnavailable "선택한 VM을 모두 확인할 수 없습니다."))
  lift (raiseIf (within s.storages seen.storages = false ∨ within s.bridges seen.bridges = false)
    (scopeUnavailable "선택한 스토리지·브리지를 모두 확인할 수 없습니다."))
  return [("nodes", texts (ascending textLe s.nodes)),
    ("vmids", .list ((seen.vmids.eraseDupsBy Value.eqv).mergeSort numberLe))]

/-- The lists of every node are readable. -/
def verifyCluster (get : Get C V) (nodes : List Value) : Fallible C V Failure Dict := do
  let names ← lift (namedNodes nodes)
  let sorted := ascending textLe names
  readLists get (sorted.flatMap fun node =>
    [(node, "qemu"), (node, "storage"), (node, "network")])
  return [("nodes", texts sorted), ("access_mode", .str "cluster")]

/-- `verify_token`. -/
def verifyToken (repr : Value → Str) (get : Get C V) (c : Configuration) :
    Fallible C V Failure Dict := do
  let lacking ← lackingOn get (aclPlan c)
  lift (raiseIf (lacking ≠ []) (setupError "PROXMOX_TOKEN_SCOPE_INCOMPLETE"
    "선택한 대상의 token 권한 검증에 실패했습니다." 502))
  let answer ← get "/nodes" []
  let rows ← lift (listOfDicts answer "노드 목록 형식이 올바르지 않습니다.")
  let nodes ← lift (setOf "node" rows)
  lift (raiseIf (c.scope.nodes.all (fun node => isAmong nodes (.str node)) = false)
    (scopeUnavailable "선택한 노드를 모두 확인할 수 없습니다."))
  match c.accessMode with
  | .cluster => verifyCluster get nodes
  | .scoped => verifyVisible repr get c.scope

/-! ### From the plan to the verification -/

section Exactness

variable {W : Type} {exec : W → (c : C) → Except Failure (V c) → W → Prop} {get : Get C V}
  {roles : Str → Option (List Str)} {held : Str → List Str} {w w' : W}
  {h : History C fun c => Except Failure (V c)}

/-- A Proxmox that answers from its roles and from what the caller holds on each path. -/
structure Serves (exec : W → (c : C) → Except Failure (V c) → W → Prop) (get : Get C V)
    (roles : Str → Option (List Str)) (held : Str → List Str) : Prop where
  names : ∀ {w h v w'}, Runs exec w (get "/access/roles" []).run h (.ok v) w' →
    ∃ rows : List Dict, v = .list (rows.map .dict) ∧
      ∀ name, isAmong (rows.map fun row => Dict.getD row "roleid" .null) (.str name) =
        (roles name).isSome
  role : ∀ {name w h v w'},
    Runs exec w (get (("/access/roles/" : Str) ++ name) []).run h (.ok v) w' →
    ∃ d, v = .dict d ∧ ∀ names ∈ roles name, ∀ n, n ∈ Dict.keys d ↔ n ∈ names
  permissions : ∀ {path w h v w'},
    Runs exec w (get "/access/permissions" [("path", .str path)]).run h (.ok v) w' →
    ∃ d e, v = .dict d ∧ Dict.getD d path (.dict []) = .dict e ∧
      ∀ n, n ∈ Dict.keys e ↔ n ∈ held path

theorem runs_lift {α : Type} {x r : Except Failure α} :
    Runs exec w (lift x : Fallible C V Failure α).run h r w' ↔ h = [] ∧ r = x ∧ w' = w := by
  cases x with
  | ok a => exact runs_pure
  | error e => exact runs_throw

theorem runs_bind_ok {α β : Type} {p : Fallible C V Failure α} {f : α → Fallible C V Failure β}
    {b : β} (hrun : Runs exec w (p >>= f).run h (.ok b) w') : ∃ a w₁ h₁ h₂,
      Runs exec w p.run h₁ (.ok a) w₁ ∧ Runs exec w₁ (f a).run h₂ (.ok b) w' := by
  rcases Fallible.runs_bind.mp hrun with ⟨e, -, he⟩ | ⟨a, w₁, h₁, h₂, hp, hf, -⟩
  · cases he
  · exact ⟨a, w₁, h₁, h₂, hp, hf⟩

theorem runs_pure_ok {α : Type} {a b : α}
    (hrun : Runs exec w (pure a : Fallible C V Failure α).run h (.ok b) w') : b = a :=
  Except.ok.inj (runs_pure.mp hrun).2.1

theorem runs_lift_ok {α : Type} {x : Except Failure α} {a : α}
    (hrun : Runs exec w (lift x : Fallible C V Failure α).run h (.ok a) w') :
    x = .ok a ∧ w' = w := ⟨(runs_lift.mp hrun).2.1.symm, (runs_lift.mp hrun).2.2⟩

theorem absent_eq_nil {required held : List Str} :
    absent required held = [] ↔ ∀ n ∈ required, n ∈ held := by
  rw [List.eq_nil_iff_forall_not_mem]
  simp only [absent, mem_ascending, List.mem_filter, decide_eq_true_eq, not_and, not_not]

theorem permissionsAt_ok {path : Str} {names : List Str} (hs : Serves exec get roles held)
    (hrun : Runs exec w (permissionsAt get path).run h (.ok names) w') :
    ∀ n, n ∈ names ↔ n ∈ held path := by
  obtain ⟨v, w₁, h₁, h₂, hget, hrun⟩ := runs_bind_ok hrun
  obtain ⟨d, e, rfl, he, hkeys⟩ := hs.permissions hget
  obtain ⟨d', w₂, h₃, h₄, hd, hrun⟩ := runs_bind_ok hrun
  obtain ⟨hd, -⟩ := runs_lift_ok hd
  cases hd
  obtain ⟨e', w₃, h₅, h₆, he', hrun⟩ := runs_bind_ok hrun
  obtain ⟨he', -⟩ := runs_lift_ok he'
  rw [he] at he'
  cases he'
  rw [runs_pure_ok hrun]
  exact hkeys

/-- The owner lacks nothing when it holds the planned privileges and may grant them. -/
theorem missingOn_ok {acls : List Acl} {missing : List Missing} (hs : Serves exec get roles held)
    (hrun : Runs exec w (missingOn get acls).run h (.ok missing) w') :
    missing = [] ↔ ∀ acl ∈ acls, ("Permissions.Modify" : Str) ∈ held acl.path ∧
      ∀ n ∈ acl.role.privilegeNames, n ∈ held acl.path := by
  induction acls generalizing w w' h missing with
  | nil =>
      rw [runs_pure_ok hrun]
      exact ⟨fun _ acl hacl => absurd hacl List.not_mem_nil, fun _ => rfl⟩
  | cons acl rest ih =>
      obtain ⟨granted, w₁, h₁, h₂, hgranted, hrun⟩ := runs_bind_ok hrun
      obtain ⟨others, w₂, h₃, h₄, hothers, hrun⟩ := runs_bind_ok hrun
      have hheld := permissionsAt_ok hs hgranted
      have hlacking : absent (acl.role.privilegeNames ++ [("Permissions.Modify" : Str)]) granted
          = [] ↔ ("Permissions.Modify" : Str) ∈ held acl.path ∧
            ∀ n ∈ acl.role.privilegeNames, n ∈ held acl.path := by
        rw [absent_eq_nil, List.forall_mem_append, List.forall_mem_singleton, and_comm]
        simp only [hheld]
      rw [runs_pure_ok hrun, List.forall_mem_cons, ← ih hothers, ← hlacking]
      split
      · rename_i hnone
        exact ⟨fun hothers => ⟨hnone, hothers⟩, And.right⟩
      · rename_i hsome
        exact ⟨fun hcons => absurd hcons (List.cons_ne_nil _ _), fun hnone => absurd hnone.1 hsome⟩

/-- A token lacks nothing when it holds the planned privileges. -/
theorem lackingOn_ok {acls : List Acl} {lacking : List (Str × List Str)}
    (hs : Serves exec get roles held)
    (hrun : Runs exec w (lackingOn get acls).run h (.ok lacking) w') :
    lacking = [] ↔ ∀ acl ∈ acls, ∀ n ∈ acl.role.privilegeNames, n ∈ held acl.path := by
  induction acls generalizing w w' h lacking with
  | nil =>
      rw [runs_pure_ok hrun]
      exact ⟨fun _ acl hacl => absurd hacl List.not_mem_nil, fun _ => rfl⟩
  | cons acl rest ih =>
      obtain ⟨granted, w₁, h₁, h₂, hgranted, hrun⟩ := runs_bind_ok hrun
      obtain ⟨others, w₂, h₃, h₄, hothers, hrun⟩ := runs_bind_ok hrun
      have hlacking : absent acl.role.privilegeNames granted = [] ↔
          ∀ n ∈ acl.role.privilegeNames, n ∈ held acl.path := by
        rw [absent_eq_nil]
        simp only [permissionsAt_ok hs hgranted]
      rw [runs_pure_ok hrun, List.forall_mem_cons, ← ih hothers, ← hlacking]
      split
      · rename_i hnone
        exact ⟨fun hothers => ⟨hnone, hothers⟩, And.right⟩
      · rename_i hsome
        exact ⟨fun hcons => absurd hcons (List.cons_ne_nil _ _), fun hnone => absurd hnone.1 hsome⟩

theorem mem_keys_of_keysAre {d : Dict} {names : List Str} (hkeys : Dict.keysAre d names = true)
    (n : Str) : n ∈ Dict.keys d ↔ n ∈ names := by
  rw [Dict.keysAre, Bool.and_eq_true, List.all_eq_true, List.all_eq_true] at hkeys
  constructor
  · exact fun hn => List.contains_iff_mem.mp (hkeys.1 n hn)
  · exact fun hn => List.contains_iff_mem.mp (hkeys.2 n hn)

/-- The roles to create are those that do not exist, and the others are as planned. -/
theorem rolesToCreate_ok {existing : List Value} {planned created : List Role}
    (hs : Serves exec get roles held)
    (hexisting : ∀ name, isAmong existing (.str name) = (roles name).isSome)
    (hrun : Runs exec w (rolesToCreate get existing planned).run h (.ok created) w') :
    created = planned.filter (fun role => (roles role.name).isNone) ∧
      ∀ role ∈ planned, ∀ names ∈ roles role.name, ∀ n, n ∈ names ↔ n ∈ role.privilegeNames := by
  induction planned generalizing w w' h created with
  | nil =>
      rw [runs_pure_ok hrun]
      exact ⟨rfl, fun _ hrole => absurd hrole List.not_mem_nil⟩
  | cons role rest ih =>
      rw [rolesToCreate, hexisting] at hrun
      cases hrole : roles role.name with
      | some names =>
          rw [hrole, Option.isSome_some, if_pos rfl] at hrun
          obtain ⟨v, w₁, h₁, h₂, hget, hrun⟩ := runs_bind_ok hrun
          obtain ⟨d, rfl, hkeys⟩ := hs.role hget
          obtain ⟨d', w₂, h₃, h₄, hd, hrun⟩ := runs_bind_ok hrun
          obtain ⟨hd, -⟩ := runs_lift_ok hd
          cases hd
          obtain ⟨_, w₃, h₅, h₆, hsame, hrun⟩ := runs_bind_ok hrun
          obtain ⟨hsame, -⟩ := runs_lift_ok hsame
          rw [raiseIf_eq_ok, Bool.not_eq_false] at hsame
          obtain ⟨hcreated, hothers⟩ := ih hrun
          refine ⟨?_, List.forall_mem_cons.mpr ⟨?_, hothers⟩⟩
          · rw [List.filter_cons_of_neg (by rw [hrole]; exact Bool.false_ne_true)]
            exact hcreated
          · intro names' hnames n
            rw [← hkeys names' hnames]
            exact mem_keys_of_keysAre hsame n
      | none =>
          rw [hrole, Option.isSome_none, if_neg Bool.false_ne_true] at hrun
          obtain ⟨others, w₁, h₁, h₂, hothers, hrun⟩ := runs_bind_ok hrun
          obtain ⟨hcreated, hsame⟩ := ih hothers
          rw [runs_pure_ok hrun, hcreated]
          refine ⟨?_, List.forall_mem_cons.mpr ⟨fun names hnames => ?_, hsame⟩⟩
          · rw [List.filter_cons_of_pos (by rw [hrole]; rfl)]
          · rw [hrole] at hnames
            cases hnames

theorem mapM_asDict (rows : List Dict) : (rows.map Value.dict).mapM Value.asDict = some rows := by
  induction rows with
  | nil => rfl
  | cons row rest ih =>
      rw [List.map_cons, List.mapM_cons, ih]
      rfl

theorem listOfDicts_map {rows rows' : List Dict} {message : Str}
    (h : listOfDicts (.list (rows.map .dict)) message = .ok rows') : rows' = rows := by
  rw [listOfDicts, orRaise_eq_ok, mapM_asDict] at h
  exact (Option.some.inj h).symm

theorem setOf_eq_ok {key : Str} {rows : List Dict} {values : List Value}
    (h : setOf key rows = .ok values) : values = rows.map fun row => Dict.getD row key .null := by
  simp only [setOf, bind_eq_ok, pure_eq_ok] at h
  obtain ⟨-, -, h⟩ := h
  exact h.symm

theorem missingForRoles_ok {createRoles : List Role} {missing : List Missing}
    (hs : Serves exec get roles held)
    (hrun : Runs exec w (missingForRoles get createRoles).run h (.ok missing) w') :
    missing = [] ↔ createRoles = [] ∨ ("Sys.Modify" : Str) ∈ held "/access" := by
  rw [missingForRoles] at hrun
  split at hrun
  · rename_i hnone
    rw [runs_pure_ok hrun]
    exact ⟨fun _ => .inl hnone, fun _ => rfl⟩
  · rename_i hsome
    obtain ⟨names, w₁, h₁, h₂, hnames, hrun⟩ := runs_bind_ok hrun
    rw [runs_pure_ok hrun, ← permissionsAt_ok hs hnames]
    split
    · rename_i hheld
      exact ⟨fun _ => .inr hheld, fun _ => rfl⟩
    · rename_i hheld
      refine ⟨fun hcons => absurd hcons (List.cons_ne_nil _ _), ?_⟩
      rintro (hnone | hmem)
      · exact absurd hnone hsome
      · exact absurd hmem hheld

/-- What a plan says of the roles and of its owner. -/
structure Exact (c : Configuration) (roles : Str → Option (List Str)) (held : Str → List Str)
    (plan : Plan) : Prop where
  acls : plan.acls = aclPlan c
  created : ∀ role, role ∈ plan.createRoles ↔
    (∃ acl ∈ aclPlan c, acl.role = role) ∧ roles role.name = none
  existing : ∀ acl ∈ aclPlan c, ∀ names ∈ roles acl.role.name,
    ∀ n, n ∈ names ↔ n ∈ acl.role.privilegeNames
  canConfirm : plan.canConfirm = true ↔
    (plan.createRoles = [] ∨ ("Sys.Modify" : Str) ∈ held "/access") ∧
    ∀ acl ∈ aclPlan c, ("Permissions.Modify" : Str) ∈ held acl.path ∧
      ∀ n ∈ acl.role.privilegeNames, n ∈ held acl.path

theorem buildPlan_ok {digest : Value → Str} {intent : Intent} {attemptId : Str} {version : ℕ}
    {plan : Plan} (hs : Serves exec get roles held)
    (hrun : Runs exec w (buildPlan digest get intent attemptId version).run h (.ok plan) w') :
    Exact intent.selected roles held plan ∧
      plan.tokenId = issuedTokenId intent.owner attemptId := by
  obtain ⟨answer, w₁, h₁, h₂, hget, hrun⟩ := runs_bind_ok hrun
  obtain ⟨rows, rfl, hnames⟩ := hs.names hget
  obtain ⟨rows', w₂, h₃, h₄, hrows, hrun⟩ := runs_bind_ok hrun
  rw [listOfDicts_map (runs_lift_ok hrows).1] at hrun
  obtain ⟨existing, w₃, h₅, h₆, hexisting, hrun⟩ := runs_bind_ok hrun
  rw [setOf_eq_ok (runs_lift_ok hexisting).1] at hrun
  obtain ⟨createRoles, w₄, h₇, h₈, hcreate, hrun⟩ := runs_bind_ok hrun
  obtain ⟨hcreated, hsame⟩ := rolesToCreate_ok hs hnames hcreate
  obtain ⟨forRoles, w₅, h₉, h₁₀, hforRoles, hrun⟩ := runs_bind_ok hrun
  obtain ⟨onPaths, w₆, h₁₁, h₁₂, honPaths, hrun⟩ := runs_bind_ok hrun
  rw [runs_pure_ok hrun]
  have hmem : ∀ role, role ∈ Role.sorted ((aclPlan intent.selected).map Acl.role).eraseDups ↔
      ∃ acl ∈ aclPlan intent.selected, acl.role = role := by
    intro role
    rw [Role.sorted, mem_ascending, List.mem_eraseDups, List.mem_map]
  refine ⟨⟨rfl, fun role => ?_, fun acl hacl => ?_, ?_⟩, rfl⟩
  · rw [hcreated, List.mem_filter, hmem, Option.isNone_iff_eq_none]
  · exact hsame acl.role ((hmem _).mpr ⟨acl, hacl, rfl⟩)
  · rw [Plan.canConfirm, List.isEmpty_iff, List.append_eq_nil_iff,
      missingForRoles_ok hs hforRoles, missingOn_ok hs honPaths]

/-- A plan can be confirmed exactly when its owner may create the missing roles and grant what is
planned. Once the missing roles are created as planned, the other roles still have their
privileges and the token has the planned roles on their paths, the verification finds that the
token lacks nothing; and a token that passes the verification has every planned grant. -/
theorem confirmed_plan_verifies {exec' : W → (c : C) → Except Failure (V c) → W → Prop}
    {get' : Get C V} {roles' : Str → Option (List Str)} {held' : Str → List Str}
    {digest : Value → Str} {intent : Intent} {attemptId : Str} {version : ℕ} {plan : Plan}
    (repr : Value → Str) (hs : Serves exec get roles held)
    (hplan : Runs exec w (buildPlan digest get intent attemptId version).run h (.ok plan) w')
    (hs' : Serves exec' get' roles' held')
    (hcreated : ∀ role ∈ plan.createRoles, roles' role.name = some role.privilegeNames)
    (hkept : ∀ name names, roles name = some names → roles' name = some names)
    (hgranted : ∀ acl ∈ plan.acls, ∀ names ∈ roles' acl.role.name, names ⊆ held' acl.path) :
    Exact intent.selected roles held plan ∧
    (∀ {lacking u h' u'}, Runs exec' u (lackingOn get' (aclPlan intent.selected)).run h'
      (.ok lacking) u' → lacking = []) ∧
    ∀ {observed u h' u'}, Runs exec' u (verifyToken repr get' intent.selected).run h'
      (.ok observed) u' → ∀ path p, Grants intent.selected path p → p.name ∈ held' path := by
  obtain ⟨hexact, -⟩ := buildPlan_ok hs hplan
  refine ⟨hexact, fun hrun => (lackingOn_ok hs' hrun).mpr fun acl hacl n hn => ?_, ?_⟩
  · -- the role is created as planned, or it was there with the planned privileges
    have hacl' : acl ∈ plan.acls := hexact.acls ▸ hacl
    cases hrole : roles acl.role.name with
    | none =>
        have hmem := (hexact.created acl.role).mpr ⟨⟨acl, hacl, rfl⟩, hrole⟩
        exact hgranted acl hacl' _ (hcreated acl.role hmem) hn
    | some names =>
        exact hgranted acl hacl' names (hkept _ _ hrole)
          ((hexact.existing acl hacl names hrole n).mpr hn)
  · rintro observed u h' u' hverify path p ⟨acl, hacl, rfl, hp⟩
    obtain ⟨lacking, v, h₁, h₂, hlacking, hverify⟩ := runs_bind_ok hverify
    obtain ⟨_, v₂, h₃, h₄, hnone, -⟩ := runs_bind_ok hverify
    have hnone := (runs_lift_ok hnone).1
    rw [raiseIf_eq_ok, not_not] at hnone
    exact (lackingOn_ok hs' hlacking).mp hnone acl hacl _ (List.mem_map_of_mem hp)

/-- A query with its data. -/
abbrev ask : Get (Str × Dict) (fun _ => Value) := fun path data => call (path, data)

/-- A Proxmox with some of the roles, as planned, where the caller holds every privilege on every
path. -/
def generous (roles : List Role) (q : Str × Dict) : Except Failure Value :=
  match q.2 with
  | [] => if q.1 = ("/access/roles" : Str) then
        .ok (.list (roles.map fun role => .dict [("roleid", .str role.name)]))
      else .error .integrity
  | (_, .str path) :: _ => .ok (.dict [(path, .dict ((("Permissions.Modify" : Str) ::
      Role.cluster.privilegeNames).map fun name => (name, .int 1)))])
  | _ => .error .integrity

/-- The runs against this Proxmox. -/
abbrev asked (roles : List Role) (w : Unit) (q : Str × Dict) (r : Except Failure Value)
    (w' : Unit) : Prop := (generous roles q, w) = (r, w')

theorem generous_of_asked {roles : List Role} {q : Str × Dict} {w w' : Unit} {v : Value}
    {h : History (Str × Dict) fun _ => Except Failure Value}
    (hrun : Runs (asked roles) w (ask q.1 q.2).run h (.ok v) w') : generous roles q = .ok v :=
  congrArg Prod.fst (Fallible.runs_call.mp hrun).1

theorem serves_generous (roles : List Role) :
    Serves (asked roles) ask
      (fun name => (roles.find? fun role => role.name = name).map Role.privilegeNames)
      (fun _ => ("Permissions.Modify" : Str) :: Role.cluster.privilegeNames) where
  names := by
    intro w h v w' hrun
    have hanswer := generous_of_asked (q := ("/access/roles", [])) hrun
    cases hanswer
    refine ⟨roles.map fun role => [("roleid", .str role.name)], by rw [List.map_map]; rfl, ?_⟩
    intro name
    rw [Option.isSome_map, Bool.eq_iff_iff, List.find?_isSome]
    constructor
    · intro hany
      obtain ⟨v, hv, heqv⟩ := List.any_eq_true.mp hany
      rw [List.map_map] at hv
      obtain ⟨role, hrole, rfl⟩ := List.mem_map.mp hv
      have heq : Value.eqv (.str name) (.str role.name) = true := heqv
      rw [Value.eqv_str, beq_iff_eq] at heq
      exact ⟨role, hrole, decide_eq_true heq.symm⟩
    · rintro ⟨role, hrole, hname⟩
      refine List.any_eq_true.mpr ⟨.str role.name, ?_, ?_⟩
      · rw [List.map_map]
        exact List.mem_map.mpr ⟨role, hrole, rfl⟩
      · rw [Value.eqv_str, of_decide_eq_true hname, beq_self_eq_true]
  role := by
    intro name w h v w' hrun
    have hanswer := generous_of_asked (q := (("/access/roles/" : Str) ++ name, [])) hrun
    have hne : ("/access/roles/" : Str) ++ name ≠ ("/access/roles" : Str) := by
      intro heq
      have hlength := congrArg List.length heq
      rw [List.length_append] at hlength
      exact absurd hlength (by change 14 + name.length ≠ 13; omega)
    rw [generous, if_neg hne] at hanswer
    cases hanswer
  permissions := by
    intro path w h v w' hrun
    have hanswer := generous_of_asked (q := ("/access/permissions", [("path", .str path)])) hrun
    cases hanswer
    have hkeys : Dict.keys ((("Permissions.Modify" : Str) :: Role.cluster.privilegeNames).map
        fun name => (name, Value.int 1)) =
          ("Permissions.Modify" : Str) :: Role.cluster.privilegeNames := by
      rw [Dict.keys, List.map_map]
      exact List.map_id _
    refine ⟨_, _, rfl, ?_, fun n => by rw [hkeys]⟩
    rw [Dict.getD, Dict.get, List.lookup_cons_self, Option.getD_some]

theorem confirmed_plan_verifies_for_cluster :
    let intent : Intent :=
      ⟨"https://pve", [], [], "gjallar@pve", ⟨.cluster, [.read], {}⟩, 0, .issue⟩
    let created : List Role := [.bridgeRead, .nodeRead, .storageRead, .vmRead]
    ∃ plan past, Runs (asked []) () (buildPlan (fun _ => "digest") ask intent "1" 1).run past
      (.ok plan) () ∧ plan.createRoles = created ∧ plan.canConfirm = true ∧
      ∀ {lacking u h' u'}, Runs (asked created) u (lackingOn ask (aclPlan intent.selected)).run h'
        (.ok lacking) u' → lacking = [] := by
  intro intent created
  have h : ((evaluate (fun w q => (generous [] q, w))
      (buildPlan (fun _ => "digest") ask intent "1" 1) ()).1.map fun r => r.map
        fun plan => (plan.createRoles, plan.canConfirm)) = some (.ok (created, true)) := by
    decide +kernel
  obtain ⟨r, heval, hr⟩ := Option.map_eq_some_iff.mp h
  cases r with
  | error e => cases hr
  | ok plan =>
      obtain ⟨hcreate, hconfirm⟩ := Prod.mk.inj (Except.ok.inj hr)
      obtain ⟨past, hruns⟩ := Program.runs_of_evaluate (Prod.ext heval rfl)
      have hroles : ∀ role ∈ created, ((created.find? fun r => r.name = role.name).map
          Role.privilegeNames) = some role.privilegeNames := by decide +kernel
      have hheld : ∀ role ∈ created, role.privilegeNames ⊆
          ("Permissions.Modify" : Str) :: Role.cluster.privilegeNames := by decide +kernel
      have hverified := confirmed_plan_verifies (fun _ => []) (serves_generous []) hruns
        (serves_generous created) (fun role hrole => hroles role (hcreate ▸ hrole))
        (fun name names h => by cases h)
        (fun acl _ names h => by
          obtain ⟨role, hrole, rfl⟩ := Option.map_eq_some_iff.mp h
          exact hheld role (List.mem_of_find?_eq_some hrole))
      exact ⟨plan, past, hruns, hcreate, hconfirm, hverified.2.1⟩

end Exactness

end Requests

end Gjallar.Planning

import Gjallar.FloatText
import Gjallar.Regex
import Gjallar.Rounding
import Gjallar.StableRanks
import Gjallar.TextLines

/-!
# Placement recommendations

The inventory of a cluster and the recorded risks, normalised from records with either naming
style, and the recommendations to move VMs from hot nodes to nodes under less pressure. Usage
figures are exact rationals.
-/
namespace Gjallar.Placement

open Gjallar.Text Gjallar.TextLines Gjallar.Data Gjallar.Regex Gjallar.Regex.Pattern
  Gjallar.Rounding Gjallar.FloatText Gjallar.StableRanks

/-! ### Fields -/

/-- `name in source` and `source[name]`, or the attribute of an object; other values have none. -/
def readField (source : Value) (name : Str) : Option Value :=
  match source with
  | .dict d => Dict.get d name
  | _ => none

/-- `_field` without a default: the first of the names that is present. -/
def field? (source : Value) (names : List Str) : Option Value := names.findSome? (readField source)

/-- `_field`. -/
def field (source : Value) (names : List Str) (default : Value := .null) : Value :=
  (field? source names).getD default

/-- `_as_list`. -/
def asList : Value → List Value
  | .null => []
  | .list vs => vs
  | .tuple vs => vs
  | v => [v]

/-- `_as_float`. -/
def asFloat (v : Value) : ℚ :=
  match v with
  | .str s => (parseFloat s).getD 0
  | v => (Value.number v).getD 0

/-- `_as_int`. -/
def asInt (v : Value) (fallback : ℤ := 0) : ℤ := (Value.toInteger v).getD fallback

def orElse (s fallback : Str) : Str := if s = [] then fallback else s

section Inventory

-- `repr` is `str` of floats and containers.
variable (repr : Value → Str)

/-- `_as_text`. -/
def asText (v : Value) (fallback : Str := []) : Str :=
  match v with
  | .null => fallback
  | v => orElse (strip (v.toText repr)) fallback

/-- `_normalize_status`. -/
def normalizeStatus (v : Value) : Str := lower (asText repr v "unknown")

/-- `_unique`. -/
def unique (vs : List Value) : List Str :=
  ((vs.map fun v => asText repr v).filter fun s => !s.isEmpty).eraseDups

/-- `_safe_segment`. -/
def safeSegment (s : Str) : Str :=
  let replaced := (plus (one fun c => !alnumOr "_-" c)).sub (fun _ => ("-" : Str)) s
  orElse ((replaced.dropWhile (· == '-')).reverse.dropWhile (· == '-')).reverse "unknown"

/-! ### The inventory -/

structure Storage where
  id : Str
  nodeId : Str
  type : Str
  totalGb : ℚ
  freeGb : ℚ
  deriving DecidableEq

structure Network where
  bridgeId : Str
  nodeId : Str
  active : Bool
  type : Str
  deriving DecidableEq

structure Node where
  id : Str
  name : Str
  status : Str
  online : Bool
  cpuUsagePercent : ℚ
  memoryUsagePercent : ℚ
  pressure : ℚ
  memoryTotalMb : ℤ
  storage : List Storage
  networks : List Network
  runningVmCount : ℕ := 0
  deriving DecidableEq

structure Vm where
  id : Str
  vmid : ℤ
  name : Str
  nodeId : Str
  status : Str
  template : Bool
  memoryMb : ℤ
  diskGb : ℚ
  storageIds : List Str
  bridgeIds : List Str
  tags : List Str
  deriving DecidableEq

/-- `_storage_id`. -/
def storageId (source : Value) : Str :=
  asText repr (field source ["storage_id", "storageId", "storage", "id"] (.str "unknown")) "unknown"

/-- `_node_id`. -/
def nodeId (source : Value) : Str :=
  asText repr (field source ["node_id", "nodeId", "node", "id", "name"] (.str "unknown")) "unknown"

/-- `_normalize_storage`. -/
def normalizeStorage (source : Value) : Storage :=
  ⟨storageId repr source, nodeId repr source,
    normalizeStatus repr (field source ["type"] (.str "unknown")),
    asFloat (field source ["total_gb", "totalGb"] (.int 0)),
    asFloat (field source ["free_gb", "freeGb"] (.int 0))⟩

/-- `_normalize_network`. -/
def normalizeNetwork (source : Value) : Network :=
  let active := field source ["active"] (.bool true)
  ⟨asText repr (field source ["bridge_id", "bridgeId", "bridge", "id"] (.str "unknown")) "unknown",
    nodeId repr source, active = .null || active.truthy,
    normalizeStatus repr (field source ["type"] (.str "bridge"))⟩

/-- The inline records of a node, or those that name it. -/
def inlineOr {α : Type} (inline named : List α) : List α := if inline.isEmpty then named else inline

/-- `_normalize_node`. -/
def normalizeNode (storages : List Storage) (networks : List Network) (source : Value) : Node :=
  let id := nodeId repr source
  let status := normalizeStatus repr (field source ["status"] (.str "unknown"))
  let cpu := asFloat (field source ["cpu_usage_percent", "cpuUsagePercent"] (.int 0))
  let memory := asFloat (field source ["memory_usage_percent", "memoryUsagePercent"] (.int 0))
  { id := id
    name := asText repr (field source ["display_name", "displayName", "name"] (.str id)) id
    status := status
    online := status = "online"
    cpuUsagePercent := cpu
    memoryUsagePercent := memory
    pressure := max cpu memory
    memoryTotalMb := asInt (field source ["memory_total_mb", "memoryTotalMb"] (.int 0))
    storage := inlineOr ((asList (field source ["storage"] (.list []))).map (normalizeStorage repr))
      (storages.filter fun s => s.nodeId = id)
    networks := inlineOr
      ((asList (field source ["networks"] (.list []))).map (normalizeNetwork repr))
      (networks.filter fun n => n.nodeId = id) }

/-- `_disk_storage_ids`. -/
def diskStorageIds (vm : Value) : List Str :=
  unique repr ((((asList (field vm ["disks"] (.list []))).map (storageId repr)).filter
    (· ≠ ("unknown" : Str))).map Value.str)

/-- `_vm_bridge_ids`. -/
def vmBridgeIds (vm : Value) : List Str :=
  unique repr ((asList (field vm ["nic_bridge_evidence", "nicBridgeEvidence"] (.list []))).map
    fun item => field item ["bridge_id", "bridgeId", "bridge"] (.str []))

/-- `_normalize_vm`. -/
def normalizeVm (source : Value) : Vm :=
  let vmid := field source ["vmid", "vm_id", "id"] (.int 0)
  let unnamed := ("vm-" : Str) ++ vmid.toText repr
  { id := asText repr vmid "unknown"
    vmid := asInt vmid
    name := asText repr (field source ["name", "vm_name"] (.str unnamed)) unnamed
    nodeId := asText repr (field source ["node_id", "nodeId", "node"] (.str "unknown")) "unknown"
    status := normalizeStatus repr (field source ["status"] (.str "unknown"))
    template := (field source ["template"] (.bool false)).truthy
    memoryMb := asInt (field source ["memory_mb", "memoryMb"] (.int 0))
    diskGb := asFloat (field source ["disk_gb", "diskGb"] (.int 0))
    storageIds := unique repr (field source ["storage_id", "storageId"] (.str []) ::
      (diskStorageIds repr source).map Value.str)
    bridgeIds := vmBridgeIds repr source
    tags := unique repr (asList (field source ["tags"] (.list []))) }

/-- The lists that an adapter returns. -/
structure Inventory where
  storages : List Value
  networks : List Value
  nodes : List Value
  vms : List Value

def Inventory.normalVms (inventory : Inventory) : List Vm := inventory.vms.map (normalizeVm repr)

/-- `_with_vm_counts` of the normalised nodes. -/
def Inventory.normalNodes (inventory : Inventory) : List Node :=
  let storages := inventory.storages.map (normalizeStorage repr)
  let networks := inventory.networks.map (normalizeNetwork repr)
  let vms := inventory.normalVms repr
  (inventory.nodes.map (normalizeNode repr storages networks)).map fun node =>
    { node with runningVmCount := vms.countP fun vm =>
        vm.nodeId = node.id && vm.status = ("running" : Str) && !vm.template }

/-! ### Risks -/

def levelNames : List Str := ["level", "risk_level", "riskLevel"]

/-- `_risk_level`. -/
def riskLevel (risk : Value) : Str :=
  normalizeStatus repr (field risk levelNames (.str "unknown"))

def vmidNames : List Str := ["vmid", "vm_id", "target_vmid", "target_id", "targetId"]

def resourceNames : List Str := ["resource_id", "resourceId", "vm_name", "target_name"]

def detailNames : List Str := ["vmid", "vm_id", "target_vmid", "target_id", "vm_name", "node_id"]

def detailKeys : List Str := ["detail", "details"]

/-- `_risk_fields`. -/
def riskFields (risk : Value) : List Str :=
  let detail := field risk detailKeys (.dict [])
  ([field risk vmidNames (.str []), field risk resourceNames (.str []),
    field detail detailNames (.str [])].map fun v => asText repr v).filter fun s => !s.isEmpty

/-- The text of an identifier field names the VM. -/
def namesVm (vm : Vm) (text : Str) : Bool :=
  text = ofInt vm.vmid || text = vm.id || text = vm.name ||
    decide (((":" : Str) ++ vm.name) <:+ text) || decide ((("/" : Str) ++ vm.name) <:+ text)

/-- `_risk_targets_vm`. -/
def riskTargetsVm (risk : Value) (vm : Vm) : Bool := (riskFields repr risk).any (namesVm vm)

/-- `_has_red_risk`. -/
def hasRedRisk (vm : Vm) (risks : List Value) : Bool :=
  risks.any fun risk => riskLevel repr risk = ("red" : Str) && riskTargetsVm repr risk vm

/-! ### Evidence -/

/-- `_route_evidence`: whether the route is sufficient. -/
def routeSufficient (vm : Vm) (source target : Node) : Bool :=
  let bridges := fun node : Node => (node.networks.filter fun n =>
    n.active && n.bridgeId ≠ ("unknown" : Str)).map Network.bridgeId
  let storages := target.storage.map Storage.id
  let sourcePresent := vm.bridgeIds.isEmpty || vm.bridgeIds.any (bridges source).contains
  let network := !vm.bridgeIds.isEmpty && sourcePresent &&
    vm.bridgeIds.all (bridges target).contains
  let storage := !vm.storageIds.isEmpty && vm.storageIds.all storages.contains
  let room := vm.diskGb ≤ 0 || target.storage.any fun s =>
    vm.storageIds.contains s.id && vm.diskGb ≤ s.freeGb
  network && storage && room

def localStorageTypes : List Str := ["dir", "lvm", "lvmthin", "zfspool", "zfs"]

def localStorageIds : List Str := ["local", "local-lvm", "local-zfs"]

/-- `_is_local_storage_id`. -/
def isLocalStorageId (id : Str) : Bool :=
  let normalized := lower (strip id)
  localStorageIds.contains normalized || ("local-" : Str).isPrefixOf normalized

/-- `_local_storage_evidence`: whether the VM depends on local storage. -/
def dependsOnLocalStorage (vm : Vm) (nodes : List Node) : Bool :=
  vm.storageIds.any isLocalStorageId ||
    nodes.any fun node => node.storage.any fun s =>
      vm.storageIds.contains s.id && localStorageTypes.contains s.type

/-- `_passthrough_evidence`: whether a tag names a device that is passed through. -/
def dependsOnPassthrough (vm : Vm) : Bool :=
  vm.tags.any fun tag => (["passthrough", "pci", "gpu", "usb"] : List Str).any fun term =>
    contains term (lower tag)

/-! ### Recommendations -/

def hotThreshold : ℚ := 70
def criticalThreshold : ℚ := 85
def requiredDelta : ℚ := 25

/-- `_estimate_pressure_effect`. -/
def pressureEffect (vm : Vm) (source : Node) : ℚ :=
  let countShare := source.pressure / max source.runningVmCount 1
  let memoryShare : ℚ :=
    if 0 < source.memoryTotalMb then vm.memoryMb / source.memoryTotalMb * 100 else 0
  max 4 (min 18 (max countShare memoryShare))

structure Recommendation where
  id : Str
  vmid : ℤ
  vmName : Str
  sourceNodeId : Str
  sourceNodeName : Str
  targetNodeId : Str
  targetNodeName : Str
  reason : Str
  blockers : List Str
  advisorySignalCodes : List Str
  sourcePressureBefore : ℚ
  targetPressureBefore : ℚ
  sourcePressureAfter : ℚ
  targetPressureAfter : ℚ
  sourceTargetDelta : ℚ
  deriving DecidableEq

/-- `_candidate_reason`. -/
def candidateReason (source target : Node) : Str :=
  let state : Str := if criticalThreshold ≤ source.pressure then "critical" else "hot"
  ("Source node is " : Str) ++ state ++ (" and target pressure is lower by " : Str) ++
    ofInt (halfEven (source.pressure - target.pressure)) ++ ("%." : Str)

/-- `build_candidate_recommendation`. -/
def buildCandidate (nodes : List Node) (vm : Vm) (source target : Node) : Recommendation :=
  let effect := pressureEffect vm source
  let after := min 100 (target.pressure + effect)
  let signals : List (Str × Bool) := [("route_unknown", !routeSufficient vm source target),
    ("local_storage_dependency", dependsOnLocalStorage vm nodes),
    ("passthrough_device_dependency", dependsOnPassthrough vm)]
  { id := ("drs-rec-vm-" : Str) ++ safeSegment (ofInt vm.vmid) ++ ("-" : Str) ++
      safeSegment source.id ++ ("-" : Str) ++ safeSegment target.id
    vmid := vm.vmid
    vmName := vm.name
    sourceNodeId := source.id
    sourceNodeName := source.name
    targetNodeId := target.id
    targetNodeName := target.name
    reason := candidateReason source target
    blockers := if criticalThreshold ≤ after then ["target_over_threshold"] else []
    advisorySignalCodes := (signals.filter Prod.snd).map Prod.fst
    sourcePressureBefore := roundTo 2 source.pressure
    targetPressureBefore := roundTo 2 target.pressure
    sourcePressureAfter := roundTo 2 (max 0 (source.pressure - effect))
    targetPressureAfter := roundTo 2 after
    sourceTargetDelta := roundTo 2 (source.pressure - target.pressure) }

/-- The order of names. -/
def byName {α : Type} (name : α → Str) (a b : α) : Prop := textLe (name a) (name b) = true

instance {α : Type} (name : α → Str) : DecidableRel (byName name) := fun a b =>
  inferInstanceAs (Decidable (textLe (name a) (name b) = true))

instance {α : Type} (name : α → Str) : Std.Total (byName name) :=
  ⟨fun a b => textLe_total (name a) (name b)⟩

instance {α : Type} (name : α → Str) : IsTrans α (byName name) := ⟨fun _ _ _ => textLe_trans⟩

def isHot (node : Node) : Bool := node.online && hotThreshold ≤ node.pressure

/-- The sort key `(-pressure, name)`. -/
abbrev hottestFirst : Node → Node → Prop := ThenBy (fun node => -node.pressure) (byName Node.name)

def hotNodes (nodes : List Node) : List Node := (nodes.filter isHot).insertionSort hottestFirst

/-- May the node take a VM from the source? -/
def isTarget (source node : Node) : Bool :=
  node.online && node.id ≠ source.id && requiredDelta ≤ source.pressure - node.pressure

/-- The sort key `(pressure, name)`. -/
abbrev coolestFirst : Node → Node → Prop := ThenBy Node.pressure (byName Node.name)

def targetNodes (nodes : List Node) (source : Node) : List Node :=
  (nodes.filter (isTarget source)).insertionSort coolestFirst

/-- May the VM leave the source? -/
def isMovable (risks : List Value) (source : Node) (vm : Vm) : Bool :=
  vm.nodeId = source.id && vm.status = ("running" : Str) && !vm.template &&
    !hasRedRisk repr vm risks

/-- The sort key `(-memory_mb, -disk_gb, name)`. -/
abbrev largestFirst : Vm → Vm → Prop :=
  ThenBy (fun vm => -vm.memoryMb) (ThenBy (fun vm => -vm.diskGb) (byName Vm.name))

def sourceVms (vms : List Vm) (risks : List Value) (source : Node) : List Vm :=
  (vms.filter (isMovable repr risks source)).insertionSort largestFirst

/-- The recommendations for one source. -/
def candidatesOf (nodes : List Node) (vms : List Vm) (risks : List Value) (source : Node) :
    List Recommendation :=
  match targetNodes nodes source with
  | [] => []
  | target :: _ => ((sourceVms repr vms risks source).take 3).map fun vm =>
      buildCandidate nodes vm source target

/-- The recommendations before they are cut. -/
def candidates (nodes : List Node) (vms : List Vm) (risks : List Value) : List Recommendation :=
  (hotNodes nodes).flatMap (candidatesOf repr nodes vms risks)

/-- The sort key `(-source_target_delta, vm_name)`. -/
abbrev recommendedFirst : Recommendation → Recommendation → Prop :=
  ThenBy (fun r => -r.sourceTargetDelta) (byName Recommendation.vmName)

/-- `_build_recommendations`. -/
def buildRecommendations (nodes : List Node) (vms : List Vm) (risks : List Value) :
    List Recommendation :=
  ((candidates repr nodes vms risks).insertionSort recommendedFirst).take 10

/-- The recommendations of `calculate_placement`. -/
def recommendations (inventory : Inventory) (risks : List Value) : List Recommendation :=
  buildRecommendations repr (inventory.normalNodes repr) (inventory.normalVms repr) risks

end Inventory

end Gjallar.Placement

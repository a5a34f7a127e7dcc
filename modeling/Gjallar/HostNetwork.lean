import Gjallar.Admission
import Gjallar.TextLines

/-!
# Bridge configuration of a host

The review of a bridge change against an observation of the node's network, the check of the
pending diff, and the check of a later observation against the review.
-/
namespace Gjallar.HostNetwork

open Gjallar.Text Gjallar.TextLines Gjallar.Data Gjallar.Operation Gjallar.Regex
  Gjallar.Regex.Pattern

structure BridgeError where
  code : Str
  message : Str
  statusCode : ℕ := 409
  deriving DecidableEq

/-! ### VLAN lists -/

def isNonzeroDigit (c : Char) : Bool := isAsciiDigit c && c != '0'

/-- `[1-9][0-9]{0,3}`. -/
def vlanId : Pattern Char := seq (one isNonzeroDigit) (upTo (one isAsciiDigit) 3)

/-- `[1-9][0-9]{0,3}(?:-[1-9][0-9]{0,3})?`. -/
def vlanPart : Pattern Char := seq vlanId (opt (seq (lit "-") vlanId))

/-- The first and the last identifier of one part of a VLAN list; the error is a `ValueError`. -/
def vlanBounds (part : Str) : Except Str (ℕ × ℕ) := do
  raiseIf ((vlanPart.fullmatch part).isNone = true)
    ("VLAN은 공백으로 구분한 1~4094 ID 또는 범위여야 합니다." : Str)
  let bounds := (splitAll '-' part).map fun number => (toInt number).getD 0
  let first := bounds.headD 0
  let last := bounds.getLastD 0
  raiseIf (¬ (1 ≤ first ∧ first ≤ last ∧ last ≤ 4094)) ("VLAN 범위는 1~4094여야 합니다." : Str)
  return (first, last)

/-- Consecutive numbers as ranges; `first` to `last` is the range read so far. -/
def vlanRuns (first last : ℕ) : List ℕ → List (ℕ × ℕ)
  | [] => [(first, last)]
  | value :: values =>
      if value = last + 1 then vlanRuns first value values
      else (first, last) :: vlanRuns value value values

def printRange (range : ℕ × ℕ) : Str :=
  if range.1 = range.2 then ofNat range.1 else ofNat range.1 ++ '-' :: ofNat range.2

/-- `vlan_ranges`; the error is a `ValueError`. -/
def vlanRanges (value : Value) : Except Str Str := do
  let text ← match value with
    | .str s =>
        if 1024 < s.length ∨ strip s = [] then .error ("VLAN 목록을 입력하세요." : Str) else .ok s
    | _ => .error ("VLAN 목록을 입력하세요." : Str)
  let bounds ← (splitWords text).mapM vlanBounds
  let ordered := (List.range' 1 4094).filter fun n =>
    bounds.any fun range => range.1 ≤ n && n ≤ range.2
  return join " " ((match ordered with
    | [] => []
    | first :: values => vlanRuns first first values).map printRange)

/-! ### The requested change -/

inductive ChangeMode where
  | create | update
  deriving DecidableEq

def ChangeMode.name : ChangeMode → Str
  | .create => "create"
  | .update => "update"

/-- `BridgeChange`, as its validator leaves it. -/
structure BridgeChange where
  mode : ChangeMode
  autostart : Bool
  vlanAware : Bool
  vlanIds : Option Str
  checked : if vlanAware = true then ∃ s ids, vlanRanges (.str s) = .ok ids ∧ vlanIds = some ids
    else vlanIds = none

/-- A change without VLAN awareness. -/
def BridgeChange.plain (mode : ChangeMode) (autostart : Bool) : BridgeChange :=
  ⟨mode, autostart, false, none, rfl⟩

/-- `validate_target`. -/
def validateTarget (nodeId bridgeId : Str) : Except BridgeError Unit :=
  match Admission.targetIdentity .hostNetwork
      (.dict [("node_id", .str nodeId), ("bridge_id", .str bridgeId)]) with
  | .ok _ => .ok ()
  | .error _ =>
      .error ⟨"HOST_NETWORK_TARGET_INVALID", "노드와 vmbrN bridge 이름을 확인하세요.", 422⟩

/-! ### Observed bridges -/

/-- `flag`, without a default. -/
def flag (value : Option Value) : Except BridgeError Bool :=
  match value with
  | none | some .null => .ok false
  | some (.bool b) => .ok b
  | some v =>
      if v = .int 1 ∨ v = .str "1" then .ok true
      else if v = .int 0 ∨ v = .str "0" then .ok false
      else .error ⟨"HOST_NETWORK_CONFIG_INVALID", "네트워크 설정 응답 형식을 확인할 수 없습니다.", 503⟩

def dynamicFields : List Str := ["active", "exists", "priority"]

def mutableFields : List Str := ["autostart", "bridge_vlan_aware", "bridge_vids"]

def bridgeFields : List Str :=
  ["iface", "type", "families", "method", "method6", "autostart", "bridge_vlan_aware",
    "bridge_vids", "bridge_ports", "bridge_stp", "bridge_fd", "mtu", "comments", "comments6",
    "active", "exists", "priority", "altnames", "is_empty_bridge"]

/-- The entries of a row under none of the given keys. -/
def without (keys : List Str) (row : Dict) : Dict := row.filter fun kv => !keys.contains kv.1

/-- `[A-Za-z][A-Za-z0-9_.:-]{0,63}`. -/
def bridgePort : Pattern Char :=
  seq (one fun c => isAlnum c && !isAsciiDigit c) (upTo (one (alnumOr "_.:-")) 63)

/-- The part of a bridge that a review fixes. -/
structure Desired where
  autostart : Bool
  vlanAware : Bool
  vlanIds : Option Str
  ports : List Str
  deriving DecidableEq

/-- What `summarize_bridge` returns. -/
structure BridgeSummary where
  bridgeId : Str
  config : Desired
  active : Bool
  isPresent : Bool
  preservedFingerprint : Str
  deriving DecidableEq

def configInvalid (message : Str) : BridgeError := ⟨"HOST_NETWORK_CONFIG_INVALID", message, 503⟩

/-- The VLAN list of a row, if it is VLAN aware. -/
def observedVlans (row : Dict) (aware : Bool) : Except BridgeError (Option Str) :=
  if aware = true then
    match vlanRanges (Dict.getD row "bridge_vids" (.str "2-4094")) with
    | .ok ids => .ok (some ids)
    | .error _ => .error (configInvalid "기존 VLAN 목록을 확인할 수 없습니다.")
  else .ok none

/-- The ports of a row. -/
def observedPorts (row : Dict) : Except BridgeError (List Str) :=
  match Dict.getD row "bridge_ports" (.str []) with
  | .str ports =>
      if (splitWords ports).all (fun port => (bridgePort.fullmatch port).isSome) = true then
        .ok ((splitWords ports).mergeSort textLe)
      else .error (configInvalid "기존 bridge port를 확인할 수 없습니다.")
  | _ => .error (configInvalid "기존 bridge port를 확인할 수 없습니다.")

/-- `summarize_bridge` of a dictionary. -/
def summarizeBridge (rt : Runtime) (row : Dict) (bridgeId : Str) :
    Except BridgeError BridgeSummary := do
  raiseIf (Dict.get row "iface" ≠ some (.str bridgeId) ∨
      Dict.get row "type" ≠ some (.str "bridge"))
    (⟨"HOST_NETWORK_TYPE_UNSUPPORTED", "정확한 Linux bridge 설정만 지원합니다.", 409⟩ : BridgeError)
  raiseIf ((Dict.keys row).any (fun key => !bridgeFields.contains key) = true ∨
      Dict.get row "method" ≠ some (.str "manual") ∨
      (Dict.get row "method6" ∉ [none, some .null, some (.str "manual")]) ∨
      Dict.get row "families" ≠ some (.list [.str "inet"]))
    (⟨"HOST_NETWORK_MANAGEMENT_UNSUPPORTED",
      "호스트 주소·관리망·추가 options가 없는 VM용 bridge만 지원합니다.", 409⟩ : BridgeError)
  let ports ← observedPorts row
  let aware ← flag (Dict.get row "bridge_vlan_aware")
  let ids ← observedVlans row aware
  let autostart ← flag (Dict.get row "autostart")
  let active ← flag (Dict.get row "active")
  let isPresent ← flag (Dict.get row "exists")
  return ⟨bridgeId, ⟨autostart, aware, ids, ports⟩, active, isPresent,
    rt.operationDigest (.dict (without (dynamicFields ++ mutableFields) row))⟩

/-- The rows of a snapshot by their interface names. -/
abbrev Rows := List (Str × Dict)

def duplicateInterface : BridgeError :=
  ⟨"HOST_NETWORK_OBSERVATION_INVALID", "중복 또는 잘못된 interface 관찰입니다.", 503⟩

/-- The loop of `configuration_rows`, after the given rows. -/
def collectRows (rows : Rows) : List Value → Except BridgeError Rows
  | [] => .ok rows
  | .dict row :: rest =>
      match Dict.get row "iface" with
      | some (.str name) =>
          if name = [] ∨ (rows.lookup name).isSome = true then .error duplicateInterface
          else collectRows (rows ++ [(name, row)]) rest
      | _ => .error duplicateInterface
  | _ :: _ => .error duplicateInterface

/-- The interfaces and the pending changes of a snapshot. -/
def readSnapshot : Value → Option (List Value × Str)
  | .dict d =>
      match Dict.get d "interfaces", Dict.get d "changes" with
      | some (.list interfaces), some (.str changes) => some (interfaces, changes)
      | _, _ => none
  | _ => none

/-- `configuration_rows`, together with the pending changes. -/
def configurationRows (snapshot : Value) : Except BridgeError (Rows × Str) := do
  let (interfaces, changes) ← orRaise (readSnapshot snapshot)
    (⟨"HOST_NETWORK_OBSERVATION_INVALID", "노드 전체 네트워크 관찰이 필요합니다.", 503⟩ : BridgeError)
  let rows ← collectRows [] interfaces
  return (rows, changes)

/-- The rows of the other interfaces, without their dynamic fields. -/
def otherRows (rows : Rows) (bridgeId : Str) : Dict :=
  (rows.filter fun r => r.1 ≠ bridgeId).map fun r => (r.1, .dict (without dynamicFields r.2))

/-- `other_fingerprint`. -/
def otherFingerprint (rt : Runtime) (rows : Rows) (bridgeId : Str) : Str :=
  rt.operationDigest (.dict (otherRows rows bridgeId))

/-! ### The review -/

structure Review where
  nodeId : Str
  bridgeId : Str
  mode : ChangeMode
  observedBefore : Option BridgeSummary
  desired : Desired
  otherConfigurationFingerprint : Str
  reviewDigest : Str
  confirmation : Str
  warnings : List Str
  deriving DecidableEq

def reviewWarnings : List Str :=
  ["반영은 노드 전체 네트워크와 PVE SDN 설정 생성에 영향을 줄 수 있으며 관리 접속이 끊길 수 있습니다.",
    "검토부터 완료까지 외부 네트워크 설정 변경을 중지하세요. 갈랴르는 외부 변경을 차단하지 못합니다.",
    "물리 port·주소는 추가하지 않습니다. 신규 bridge는 내부 VM 연결용이며 기존 port는 유지합니다.",
    "autostart 해제는 즉시 down을 뜻하지 않습니다. VM 통신과 실제 VLAN 경로는 별도 검사하세요."]

def optionText : Option Str → Value
  | none => .null
  | some s => .str s

def Desired.entries (d : Desired) : Dict :=
  [("autostart", .bool d.autostart), ("vlan_aware", .bool d.vlanAware),
    ("vlan_ids", optionText d.vlanIds), ("ports", .list (d.ports.map .str))]

/-- A summary as the review digest reads it: without the fields that may change meanwhile. -/
def BridgeSummary.digestEntries (b : BridgeSummary) : Dict :=
  [("bridge_id", .str b.bridgeId), ("type", .str "bridge"),
    ("ports", .list (b.config.ports.map .str)), ("autostart", .bool b.config.autostart),
    ("vlan_aware", .bool b.config.vlanAware), ("vlan_ids", optionText b.config.vlanIds),
    ("preserved_fingerprint", .str b.preservedFingerprint)]

/-- `digest_plan`. -/
def digestPlan (nodeId bridgeId : Str) (mode : ChangeMode) (before : Option BridgeSummary)
    (desired : Desired) (fingerprint : Str) : Value :=
  .dict [("target", .dict [("node_id", .str nodeId), ("bridge_id", .str bridgeId)]),
    ("mode", .str mode.name),
    ("observed_before", before.elim .null fun b => .dict b.digestEntries),
    ("desired", .dict desired.entries),
    ("other_configuration_fingerprint", .str fingerprint)]

/-- The summary of the reviewed bridge, if it exists. -/
def summarizeBefore (rt : Runtime) (rows : Rows) (bridgeId : Str) :
    Except BridgeError (Option BridgeSummary) :=
  match rows.lookup bridgeId with
  | some row => some <$> summarizeBridge rt row bridgeId
  | none => .ok none

/-- `make_review`. -/
def makeReview (rt : Runtime) (nodeId bridgeId : Str) (change : BridgeChange) (snapshot : Value) :
    Except BridgeError Review := do
  validateTarget nodeId bridgeId
  let (rows, changes) ← configurationRows snapshot
  raiseIf (changes ≠ []) (⟨"HOST_NETWORK_PENDING_CHANGES",
    "기존 네트워크 대기 변경의 소유자와 반영 상태를 먼저 확인하세요.", 409⟩ : BridgeError)
  let before ← summarizeBefore rt rows bridgeId
  raiseIf (decide (change.mode = .create) ≠ before.isNone) (⟨"HOST_NETWORK_EXISTENCE_CHANGED",
    "bridge 존재 여부가 요청과 다릅니다. 다시 검토하세요.", 409⟩ : BridgeError)
  let desired : Desired := ⟨change.autostart, change.vlanAware, change.vlanIds,
    before.elim [] fun b => b.config.ports⟩
  raiseIf (before.map BridgeSummary.config = some desired)
    (⟨"HOST_NETWORK_NO_CHANGE", "현재 설정과 같습니다.", 422⟩ : BridgeError)
  let fingerprint := otherFingerprint rt rows bridgeId
  return { nodeId := nodeId, bridgeId := bridgeId, mode := change.mode, observedBefore := before,
           desired := desired, otherConfigurationFingerprint := fingerprint,
           reviewDigest := rt.operationDigest
             (digestPlan nodeId bridgeId change.mode before desired fingerprint),
           confirmation := nodeId ++ '/' :: bridgeId ++ '/' :: change.mode.name,
           warnings := reviewWarnings }

/-! ### The request of a change -/

/-- `int(b)`. -/
def flagNumber (b : Bool) : Value := .int (if b then 1 else 0)

/-- `mutation_body`. -/
def mutationBody (change : BridgeChange) (bridgeId : Str) : Dict :=
  let body : Dict := [("type", .str "bridge"), ("autostart", flagNumber change.autostart),
    ("bridge_vlan_aware", flagNumber change.vlanAware)]
  let created : Dict := [("iface", .str bridgeId), ("bridge_ports", .str [])]
  let ids : Dict := [("bridge_vids", optionText change.vlanIds)]
  let removed : Dict := [("delete", .str "bridge_vids")]
  body ++ (if change.mode = .create then created else []) ++
    (if change.vlanAware = true then ids else if change.mode = .update then removed else [])

/-! ### The pending diff -/

/-- The directives a creation may add. -/
def creationDirectives (bridgeId : Str) : List Str :=
  [("iface " : Str) ++ bridgeId ++ (" inet manual" : Str), "bridge-ports none", "bridge-stp off",
    "bridge-fd 0"]

/-- `_allowed_diff_line`. -/
def allowedDiffLine (line : Str) (sign : Char) (review : Review) : Bool :=
  let stripped := join " " (splitWords line)
  if stripped = [] then true
  else
    match if sign = '+' then some review.desired
      else review.observedBefore.map BridgeSummary.config with
    | none => false
    | some config =>
        if stripped = ("auto " : Str) ++ review.bridgeId then config.autostart
        else if stripped = ("bridge-vlan-aware yes" : Str) then config.vlanAware
        else if ("bridge-vids " : Str).isPrefixOf stripped then
          match vlanRanges (.str (stripped.drop 12)) with
          | .ok ids => config.vlanAware && some ids = config.vlanIds
          | .error _ => false
        else review.mode = .create && sign = '+' &&
          (creationDirectives review.bridgeId).contains stripped

/-- `@@ -[0-9]+(?:,([0-9]+))? \+[0-9]+(?:,([0-9]+))? @@(?: .*)?`. -/
def hunkHeader : Pattern Char :=
  let digits := plus (one isAsciiDigit)
  seq (lit "@@ -") (seq digits (seq (opt (seq (lit ",") (group 1 digits)))
    (seq (lit " +") (seq digits (seq (opt (seq (lit ",") (group 2 digits)))
      (seq (lit " @@") (opt (seq (lit " ") (star (one fun c => c ≠ '\n'))))))))))

/-- `int(header[n]) if header[n] is not None else 1`; `int` reads at most 4300 digits. -/
def headerCount (header : Match Char) (n : ℕ) : Option ℕ :=
  match header.group n with
  | none => some 1
  | some digits => if digits.length ≤ 4300 then toInt digits else none

/-- The line counts a hunk header declares. -/
def declaredCounts (line : Str) : Option (ℕ × ℕ) := do
  let header ← hunkHeader.fullmatch line
  let old ← headerCount header 1
  let new ← headerCount header 2
  return (old, new)

def diffUnverified (message : Str) : BridgeError :=
  ⟨"HOST_NETWORK_DIFF_UNVERIFIED", message, 409⟩

/-- The variables of the loop over the lines of the diff. -/
structure DiffState where
  remainingOld : ℤ := 0
  remainingNew : ℤ := 0
  changed : Bool := false
  hunks : ℕ := 0
  deriving DecidableEq

/-- The turn of the loop for a hunk header. -/
def headerLine (s : DiffState) (line : Str) : Except BridgeError DiffState :=
  match declaredCounts line with
  | none => .error (diffUnverified "대기 변경의 구간을 확인할 수 없습니다.")
  | some (old, new) =>
      if s.remainingOld ≠ 0 ∨ s.remainingNew ≠ 0 then
        .error (diffUnverified "대기 변경의 구간을 확인할 수 없습니다.")
      else .ok { s with remainingOld := old, remainingNew := new, hunks := s.hunks + 1 }

/-- The turn of the loop for a line in the body of a hunk. -/
def bodyLine (review : Review) (s : DiffState) : Str → Except BridgeError DiffState
  | [] => .error (diffUnverified "대기 변경의 형식을 확인할 수 없습니다.")
  | sign :: value =>
      if s.hunks = 0 ∨ sign ∉ [' ', '+', '-'] then
        .error (diffUnverified "대기 변경의 형식을 확인할 수 없습니다.")
      else
        let remainingOld := if sign = '+' then s.remainingOld else s.remainingOld - 1
        let remainingNew := if sign = '-' then s.remainingNew else s.remainingNew - 1
        if min remainingOld remainingNew < 0 then
          .error (diffUnverified "대기 변경의 길이가 일치하지 않습니다.")
        else if sign = ' ' then
          .ok { s with remainingOld := remainingOld, remainingNew := remainingNew }
        else if allowedDiffLine value sign review = true then
          .ok { s with
                remainingOld := remainingOld
                remainingNew := remainingNew
                changed := s.changed || strip value ≠ [] }
        else .error ⟨"HOST_NETWORK_FOREIGN_CHANGES",
          "검토하지 않은 네트워크 변경이 있어 전체 반영을 중지했습니다.", 409⟩

/-- One turn of the loop. -/
def diffLine (review : Review) (s : DiffState) (line : Str) : Except BridgeError DiffState :=
  if ("@@" : Str).isPrefixOf line then headerLine s line else bodyLine review s line

/-- The checks of `assert_pending_diff` on the lines of a diff. -/
def checkDiffLines (review : Review) (lines : List Str) : Except BridgeError Unit :=
  match lines with
  | old :: new :: first :: rest =>
      if ("--- /etc/network/interfaces\t" : Str).isPrefixOf old ∧
          ("+++ /etc/network/interfaces.new\t" : Str).isPrefixOf new then do
        let s ← (first :: rest).foldlM (diffLine review) {}
        raiseIf (s.hunks = 0 ∨ s.changed = false ∨ s.remainingOld ≠ 0 ∨ s.remainingNew ≠ 0)
          (diffUnverified "대기 변경의 전체 범위를 확인할 수 없습니다.")
      else .error (diffUnverified "대기 변경의 파일과 범위를 확인할 수 없습니다.")
  | _ => .error (diffUnverified "대기 변경의 파일과 범위를 확인할 수 없습니다.")

/-- `assert_pending_diff`. -/
def assertPendingDiff (changes : Str) (review : Review) : Except BridgeError Unit :=
  if 262144 < changes.length then .error (diffUnverified "대기 변경의 범위를 확인할 수 없습니다.")
  else checkDiffLines review (splitLines changes)

/-! ### The later observation -/

/-- What `observe_configuration` returns; the verifications it leaves open are constant. -/
structure ObservedConfiguration where
  configuration : BridgeSummary
  pendingChanges : Bool
  otherConfigurationPreserved : Bool := true
  guestConnectivityVerified : Bool := false
  kernelVlanTableVerified : Bool := false
  immediateDownVerified : Bool := false
  deriving DecidableEq

/-- `observe_configuration`. -/
def observeConfiguration (rt : Runtime) (snapshot : Value) (review : Review) (staged : Bool) :
    Except BridgeError ObservedConfiguration := do
  let (rows, changes) ← configurationRows snapshot
  let row ← orRaise (rows.lookup review.bridgeId)
    (⟨"HOST_NETWORK_RESULT_ABSENT", "대상 bridge 설정이 관찰되지 않습니다.", 409⟩ : BridgeError)
  let observed ← summarizeBridge rt row review.bridgeId
  raiseIf (observed.config ≠ review.desired ∨
      (∃ before ∈ review.observedBefore,
        observed.preservedFingerprint ≠ before.preservedFingerprint) ∨
      otherFingerprint rt rows review.bridgeId ≠ review.otherConfigurationFingerprint)
    (⟨"HOST_NETWORK_CONFIGURATION_CHANGED", "대상 또는 다른 interface 설정이 검토와 다릅니다.", 409⟩ :
      BridgeError)
  if staged = true then assertPendingDiff changes review
  else
    raiseIf (changes ≠ [])
      (⟨"HOST_NETWORK_PENDING_CHANGES", "반영 후 대기 변경이 남아 있습니다.", 409⟩ : BridgeError)
  raiseIf (staged = false ∧ review.desired.autostart = true ∧ observed.active = false)
    (⟨"HOST_NETWORK_ACTIVE_UNCONFIRMED",
      "반영한 bridge의 실제 활성 상태를 확인하지 못했습니다.", 409⟩ : BridgeError)
  return { configuration := observed, pendingChanges := changes ≠ [] }

end Gjallar.HostNetwork

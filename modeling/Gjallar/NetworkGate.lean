import Gjallar.BoundLocks
import Gjallar.DictEquality
import Gjallar.VlanRanges

/-!
# The gate of the host network requests

The client builds the body of a change with `mutation_body`; the gate in front of the connection
reads a change back from a body and accepts the body that is built for this change.
-/
namespace Gjallar.HostNetwork

open Gjallar.Text Gjallar.Data Gjallar.Operation

/-- The nodes and the bridges that a connection may change. -/
structure NetworkScope where
  nodes : List Str
  hostBridges : List Str := []

/-! ### The request of a change -/

/-- The method with which `stage_host_bridge` sends a change. -/
def changeMethod : ChangeMode → Str
  | .create => "POST"
  | .update => "PUT"

/-- The path to which `stage_host_bridge` sends a change. -/
def changePath (node bridge : Str) : ChangeMode → List Str
  | .create => ["nodes", node, "network"]
  | .update => ["nodes", node, "network", bridge]

/-- The body of `reload_host_network`. -/
def applyBody : Dict := [("regenerate-frr", .int 0)]

/-! ### The gate -/

theorem checked_of_vlanRanges {s ids : Str} (h : vlanRanges (.str s) = .ok ids) :
    if true = true then ∃ s ids', vlanRanges (.str s) = .ok ids' ∧ some ids = some ids'
    else some ids = none := by
  rw [if_pos rfl]
  exact ⟨s, ids, h, rfl⟩

/-- `BridgeChange(...)`, strict in its types; `none` is the validation error. -/
def readChange (mode : ChangeMode) (autostart : Bool) : Bool → Value → Option BridgeChange
  | true, .str s =>
      match h : vlanRanges (.str s) with
      | .ok ids => some ⟨mode, autostart, true, some ids, checked_of_vlanRanges h⟩
      | .error _ => none
  | false, .null => some (.plain mode autostart)
  | _, _ => none

/-- A flag of a body, which must be an integer. -/
def bodyFlag (d : Dict) (key : Str) : Option Bool :=
  match Dict.get d key with
  | some (.int n) => (flag (some (.int n))).toOption
  | _ => none

/-- The change that the gate reads from a body. -/
def bodyChange (mode : ChangeMode) (d : Dict) : Option BridgeChange := do
  let autostart ← bodyFlag d "autostart"
  let vlanAware ← bodyFlag d "bridge_vlan_aware"
  readChange mode autostart vlanAware (Dict.getD d "bridge_vids" .null)

/-- The mode of a change request and the bridge it is about. -/
def changeTarget (method : Str) (piece : Option Str) (d : Dict) : Option (ChangeMode × Value) :=
  match piece with
  | none => if method = ("POST" : Str) then some (.create, Dict.getD d "iface" .null) else none
  | some bridge => if method = ("PUT" : Str) then some (.update, .str bridge) else none

/-- The body is the one that is built for the change it is read as. -/
def changeAllowed (mode : ChangeMode) (bridge : Value) (d : Dict) (scope : NetworkScope) : Bool :=
  match bridge with
  | .str bridgeId =>
      scope.hostBridges.contains bridgeId &&
        match bodyChange mode d with
        | some change => (Value.dict d).eqv (.dict (mutationBody change bridgeId))
        | none => false
  | _ => false

/-- `data == {'regenerate-frr': 0} and type(data['regenerate-frr']) is int`. -/
def isApply (data : Value) : Bool :=
  data.eqv (.dict applyBody) &&
    match data with
    | .dict d => ((Dict.get d "regenerate-frr").bind Value.asInt).isSome
    | _ => false

/-- The gate on the network of a node; `piece` is the path behind it. -/
def nodeRequestAllowed (method : Str) (piece : Option Str) (data : Value)
    (scope : NetworkScope) : Bool :=
  if method = ("GET" : Str) then
    decide (data = .null) && piece.all fun bridge => scope.hostBridges.contains bridge
  else if method = ("PUT" : Str) ∧ piece = none then isApply data
  else
    match data with
    | .dict d =>
        match changeTarget method piece d with
        | some (mode, bridge) => changeAllowed mode bridge d scope
        | none => false
    | _ => false

/-- `network_request_allowed`; a request without a body has the body null. -/
def networkRequestAllowed (method : Str) (pieces : List Str) (data : Value)
    (scope : NetworkScope) : Bool :=
  match pieces with
  | root :: node :: kind :: rest =>
      if root = ("nodes" : Str) ∧ node ∈ scope.nodes ∧ kind = ("network" : Str) then
        match rest with
        | [] => nodeRequestAllowed method none data scope
        | [piece] => nodeRequestAllowed method (some piece) data scope
        | _ => false
      else false
  | _ => false

/-! ### Changes and their bodies -/

theorem readChange_eq_some {mode : ChangeMode} {autostart vlanAware : Bool} {vlanIds : Value}
    {change : BridgeChange} (h : readChange mode autostart vlanAware vlanIds = some change) :
    change.mode = mode ∧ change.autostart = autostart ∧ change.vlanAware = vlanAware := by
  unfold readChange at h
  split at h
  · split at h
    · cases h
      exact ⟨rfl, rfl, rfl⟩
    · cases h
  · cases h
    exact ⟨rfl, rfl, rfl⟩
  · cases h

/-- A valid change is read back from its own fields. -/
theorem readChange_self (change : BridgeChange) :
    readChange change.mode change.autostart change.vlanAware (optionText change.vlanIds) =
      some change := by
  obtain ⟨mode, autostart, vlanAware, vlanIds, checked⟩ := change
  cases vlanAware with
  | false =>
      rw [if_neg (by decide)] at checked
      subst checked
      rfl
  | true =>
      rw [if_pos rfl] at checked
      obtain ⟨s, ids, hids, rfl⟩ := checked
      have hagain := vlanRanges_idempotent hids
      rw [optionText, readChange]
      split
      · rename_i ids' hids'
        rw [hagain] at hids'
        cases hids'
        rfl
      · rename_i e he
        rw [hagain] at he
        cases he

/-! ### Bodies -/

theorem nodup_mutationBody (change : BridgeChange) (bridgeId : Str) :
    (Dict.keys (mutationBody change bridgeId)).Nodup := by
  obtain ⟨mode, autostart, vlanAware, vlanIds, -⟩ := change
  cases mode <;> cases vlanAware <;> exact of_decide_eq_true rfl

theorem get_autostart (change : BridgeChange) (bridgeId : Str) :
    Dict.get (mutationBody change bridgeId) "autostart" = some (flagNumber change.autostart) :=
  rfl

theorem get_vlanAware (change : BridgeChange) (bridgeId : Str) :
    Dict.get (mutationBody change bridgeId) "bridge_vlan_aware" =
      some (flagNumber change.vlanAware) := rfl

theorem vlanIds_of_unaware (change : BridgeChange) (h : change.vlanAware = false) :
    change.vlanIds = none := by
  have hchecked := change.checked
  rwa [h, if_neg (by decide)] at hchecked

theorem vlanIds_of_aware (change : BridgeChange) (h : change.vlanAware = true) :
    ∃ ids, change.vlanIds = some ids := by
  have hchecked := change.checked
  rw [if_pos h] at hchecked
  obtain ⟨-, ids, -, hids⟩ := hchecked
  exact ⟨ids, hids⟩

theorem getD_vlanIds (change : BridgeChange) (bridgeId : Str) :
    Dict.getD (mutationBody change bridgeId) "bridge_vids" .null = optionText change.vlanIds := by
  unfold mutationBody
  dsimp only
  by_cases haware : change.vlanAware = true
  · rw [if_pos haware]
    split <;> rfl
  · rw [if_neg haware, vlanIds_of_unaware change (Bool.eq_false_iff.mpr haware)]
    split <;> split <;> rfl

theorem get_iface {change : BridgeChange} {bridgeId : Str} (h : change.mode = .create) :
    Dict.get (mutationBody change bridgeId) "iface" = some (.str bridgeId) := by
  unfold mutationBody
  dsimp only
  rw [if_pos h]
  rfl

/-- Besides the two flags a body holds texts. -/
theorem text_of_get {change : BridgeChange} {bridgeId key : Str} {v : Value}
    (h : Dict.get (mutationBody change bridgeId) key = some v)
    (hauto : key ≠ ("autostart" : Str)) (haware : key ≠ ("bridge_vlan_aware" : Str)) :
    ∃ s, v = .str s := by
  have hmem := Dict.mem_of_get h
  rw [mutationBody] at hmem
  simp only [List.mem_append, List.mem_cons, Prod.mk.injEq, hauto, haware, false_and, or_false,
    List.not_mem_nil] at hmem
  rcases hmem with (⟨-, rfl⟩ | hcreated) | hlast
  · exact ⟨_, rfl⟩
  · split at hcreated
    · simp only [List.mem_cons, Prod.mk.injEq, List.not_mem_nil, or_false] at hcreated
      rcases hcreated with ⟨-, rfl⟩ | ⟨-, rfl⟩
      · exact ⟨_, rfl⟩
      · exact ⟨_, rfl⟩
    · cases hcreated
  · split at hlast
    · rename_i hvlan
      obtain ⟨ids, hids⟩ := vlanIds_of_aware change hvlan
      rw [List.mem_singleton, Prod.mk.injEq] at hlast
      exact ⟨ids, by rw [hlast.2, hids, optionText]⟩
    · split at hlast
      · rw [List.mem_singleton, Prod.mk.injEq] at hlast
        exact ⟨_, hlast.2⟩
      · cases hlast

/-- A flag is read from the integer it is printed as. -/
theorem bodyFlag_eq_some {d : Dict} {key : Str} {b : Bool} :
    bodyFlag d key = some b ↔ Dict.get d key = some (flagNumber b) := by
  unfold bodyFlag
  split
  · rename_i n hn
    rw [hn, flagNumber, Option.some.injEq, Value.int.injEq]
    by_cases h1 : n = 1
    · subst h1
      cases b <;> decide
    by_cases h0 : n = 0
    · subst h0
      cases b <;> decide
    have herror : (flag (some (.int n))).toOption = none := by
      simp [flag, Except.toOption, h0, h1]
    rw [herror]
    cases b <;> simp [h0, h1]
  · rename_i hnone
    refine iff_of_false (fun h => by cases h) fun h => hnone _ h

/-- The entries of two bodies are the same, in value and in type. -/
def SameEntries (d e : Dict) : Prop := ∀ key, Dict.get d key = Dict.get e key

/-- The body of a change is read as this change. -/
theorem bodyChange_of_sameEntries {d : Dict} {change : BridgeChange} {bridgeId : Str}
    (h : SameEntries d (mutationBody change bridgeId)) :
    bodyChange change.mode d = some change := by
  have hids : Dict.getD d "bridge_vids" .null = optionText change.vlanIds := by
    rw [Dict.getD, h, ← Dict.getD, getD_vlanIds]
  rw [bodyChange, bodyFlag_eq_some.mpr ((h _).trans (get_autostart change bridgeId)),
    bodyFlag_eq_some.mpr ((h _).trans (get_vlanAware change bridgeId)), hids]
  exact readChange_self change

/-- The change that is read from a body has the flags of the body. -/
theorem flags_of_bodyChange {mode : ChangeMode} {d : Dict} {change : BridgeChange}
    (h : bodyChange mode d = some change) : change.mode = mode ∧
      Dict.get d "autostart" = some (flagNumber change.autostart) ∧
      Dict.get d "bridge_vlan_aware" = some (flagNumber change.vlanAware) := by
  simp only [bodyChange, Option.bind_eq_bind, Option.bind_eq_some_iff] at h
  obtain ⟨autostart, hautostart, vlanAware, hvlanAware, hread⟩ := h
  obtain ⟨hmode, rfl, rfl⟩ := readChange_eq_some hread
  exact ⟨hmode, bodyFlag_eq_some.mp hautostart, bodyFlag_eq_some.mp hvlanAware⟩

/-- A body that compares equal to the body of the change it is read as has the same entries. -/
theorem sameEntries_of_eqv {d : Dict} (hd : (Dict.keys d).Nodup) {change : BridgeChange}
    {bridgeId : Str} (hauto : Dict.get d "autostart" = some (flagNumber change.autostart))
    (haware : Dict.get d "bridge_vlan_aware" = some (flagNumber change.vlanAware))
    (h : (Value.dict d).eqv (.dict (mutationBody change bridgeId)) = true) :
    SameEntries d (mutationBody change bridgeId) := by
  have hrel := (Value.eqv_dict_iff hd (nodup_mutationBody change bridgeId)).mp h
  intro key
  by_cases hk : key = ("autostart" : Str)
  · rw [hk, hauto, get_autostart]
  by_cases hk' : key = ("bridge_vlan_aware" : Str)
  · rw [hk', haware, get_vlanAware]
  have hkey := hrel key
  cases hbody : Dict.get (mutationBody change bridgeId) key with
  | none =>
      rw [hbody] at hkey
      cases hget : Dict.get d key with
      | none => rfl
      | some a =>
          rw [hget] at hkey
          cases hkey
  | some v =>
      obtain ⟨s, rfl⟩ := text_of_get hbody hk hk'
      rw [hbody] at hkey
      cases hget : Dict.get d key with
      | none =>
          rw [hget] at hkey
          cases hkey
      | some a =>
          rw [hget] at hkey
          cases hkey with
          | some heq => rw [(BoundLocks.Value.eqv_str_iff a s).mp heq]

theorem eqv_of_sameEntries {d : Dict} (hd : (Dict.keys d).Nodup) {change : BridgeChange}
    {bridgeId : Str} (h : SameEntries d (mutationBody change bridgeId)) :
    (Value.dict d).eqv (.dict (mutationBody change bridgeId)) = true := by
  rw [Value.eqv_dict_iff hd (nodup_mutationBody change bridgeId)]
  intro key
  rw [h key]
  cases hbody : Dict.get (mutationBody change bridgeId) key with
  | none => exact .none
  | some v =>
      refine .some ?_
      by_cases hk : key = ("autostart" : Str)
      · rw [hk, get_autostart, Option.some.injEq] at hbody
        rw [← hbody, flagNumber, Value.eqv_int, beq_self_eq_true]
      by_cases hk' : key = ("bridge_vlan_aware" : Str)
      · rw [hk', get_vlanAware, Option.some.injEq] at hbody
        rw [← hbody, flagNumber, Value.eqv_int, beq_self_eq_true]
      obtain ⟨s, rfl⟩ := text_of_get hbody hk hk'
      rw [Value.eqv_str, beq_self_eq_true]

/-! ### Accepted requests -/

/-- The gate accepts the bodies of the changes of this mode on the bridges in scope. -/
theorem changeAllowed_iff {mode : ChangeMode} {bridge : Value} {d : Dict} {scope : NetworkScope}
    (hd : (Dict.keys d).Nodup) : changeAllowed mode bridge d scope = true ↔
      ∃ bridgeId ∈ scope.hostBridges, bridge = .str bridgeId ∧
        ∃ change : BridgeChange, change.mode = mode ∧
          SameEntries d (mutationBody change bridgeId) := by
  constructor
  · intro h
    cases bridge with
    | str bridgeId =>
        rw [changeAllowed, Bool.and_eq_true, List.contains_iff_mem] at h
        obtain ⟨hscope, hbody⟩ := h
        split at hbody
        · rename_i change hchange
          obtain ⟨hmode, hauto, haware⟩ := flags_of_bodyChange hchange
          exact ⟨bridgeId, hscope, rfl, change, hmode, sameEntries_of_eqv hd hauto haware hbody⟩
        · cases hbody
    | _ => cases h
  · rintro ⟨bridgeId, hscope, rfl, change, rfl, hsame⟩
    rw [changeAllowed, Bool.and_eq_true, List.contains_iff_mem,
      bodyChange_of_sameEntries hsame]
    exact ⟨hscope, eqv_of_sameEntries hd hsame⟩

theorem isApply_iff {data : Value} : isApply data = true ↔ data = .dict applyBody := by
  constructor
  · intro h
    cases data with
    | dict d =>
        rw [isApply, Bool.and_eq_true, Value.eqv, Bool.and_eq_true, beq_iff_eq] at h
        obtain ⟨⟨hlength, hentries⟩, htype⟩ := h
        obtain ⟨kv, rfl⟩ := List.length_eq_one_iff.mp hlength
        obtain ⟨b, hget, heqv⟩ := Value.eqvDict_iff.mp hentries kv List.mem_cons_self
        obtain ⟨key, v⟩ := kv
        rw [applyBody, Dict.get_cons, Dict.get_nil] at hget
        split at hget
        · rename_i hkey
          change key = _ at hkey
          subst hkey
          cases hget
          cases v with
          | int n =>
              rw [Value.eqv_int, beq_iff_eq] at heqv
              rw [heqv]
              rfl
          | _ => cases htype
        · cases hget
    | _ => simp [isApply] at h
  · rintro rfl
    decide

/-- The mutating requests of the client on a node and a bridge in scope: a change, with the body
that is built for it, and the apply request. -/
inductive ClientRequest (scope : NetworkScope) : Str → List Str → Value → Prop
  | change {node bridge : Str} {d : Dict} (change : BridgeChange) (hnode : node ∈ scope.nodes)
      (hbridge : bridge ∈ scope.hostBridges)
      (hbody : SameEntries d (mutationBody change bridge)) :
      ClientRequest scope (changeMethod change.mode) (changePath node bridge change.mode) (.dict d)
  | apply {node : Str} (hnode : node ∈ scope.nodes) :
      ClientRequest scope "PUT" ["nodes", node, "network"] (.dict applyBody)

/-- The gate accepts a change that the client sends. -/
theorem change_allowed {scope : NetworkScope} {node bridge : Str} {d : Dict}
    {change : BridgeChange} (hd : (Dict.keys d).Nodup) (hnode : node ∈ scope.nodes)
    (hbridge : bridge ∈ scope.hostBridges) (hbody : SameEntries d (mutationBody change bridge)) :
    networkRequestAllowed (changeMethod change.mode) (changePath node bridge change.mode)
      (.dict d) scope = true := by
  have hchange : ∀ v : Value, v = .str bridge →
      changeAllowed change.mode v d scope = true := fun v hv =>
    (changeAllowed_iff hd).mpr ⟨bridge, hbridge, hv, change, rfl, hbody⟩
  cases hmode : change.mode with
  | create =>
      have hiface : Dict.getD d "iface" .null = .str bridge := by
        rw [Dict.getD, hbody, get_iface hmode]
        rfl
      rw [hmode] at hchange
      rw [changePath, networkRequestAllowed, if_pos ⟨rfl, hnode, rfl⟩]
      exact hchange _ hiface
  | update =>
      rw [hmode] at hchange
      rw [changePath, networkRequestAllowed, if_pos ⟨rfl, hnode, rfl⟩]
      exact hchange _ rfl

/-- What the gate accepts on the network of a node is a change or the apply request. -/
theorem request_of_nodeRequestAllowed {scope : NetworkScope} {method node : Str}
    (piece : Option Str) {data : Value} (hmethod : method ≠ ("GET" : Str))
    (hkeys : ∀ d, data = .dict d → (Dict.keys d).Nodup) (hnode : node ∈ scope.nodes)
    (h : nodeRequestAllowed method piece data scope = true) :
    ClientRequest scope method ("nodes" :: node :: "network" :: piece.toList) data := by
  unfold nodeRequestAllowed at h
  rw [if_neg hmethod] at h
  split at h
  · rename_i hput
    obtain ⟨rfl, rfl⟩ := hput
    rw [isApply_iff.mp h]
    exact .apply hnode
  · split at h
    · rename_i d
      split at h
      · rename_i mode bridge htarget
        obtain ⟨bridgeId, hbridge, rfl, change, rfl, hbody⟩ :=
          (changeAllowed_iff (hkeys d rfl)).mp h
        unfold changeTarget at htarget
        split at htarget
        · split at htarget
          · rename_i hpost
            rw [Option.some.injEq, Prod.mk.injEq] at htarget
            have hrequest := ClientRequest.change change hnode hbridge hbody
            rw [← htarget.1] at hrequest
            rw [hpost]
            exact hrequest
          · cases htarget
        · split at htarget
          · rename_i hput
            rw [Option.some.injEq, Prod.mk.injEq, Value.str.injEq] at htarget
            have hrequest := ClientRequest.change change hnode hbridge hbody
            rw [← htarget.1, ← htarget.2] at hrequest
            rw [hput]
            exact hrequest
          · cases htarget
      · cases h
    · cases h

/-- The gate accepts exactly the mutating requests of the client, among them the change of every
review. -/
theorem network_gate (scope : NetworkScope) :
    (∀ method pieces data, method ≠ ("GET" : Str) →
      (∀ d, data = .dict d → (Dict.keys d).Nodup) →
      (networkRequestAllowed method pieces data scope = true ↔
        ClientRequest scope method pieces data)) ∧
    ∀ rt node bridge change snapshot review,
      makeReview rt node bridge change snapshot = .ok review →
      node ∈ scope.nodes → bridge ∈ scope.hostBridges →
      networkRequestAllowed (changeMethod change.mode) (changePath node bridge change.mode)
        (.dict (mutationBody change bridge)) scope = true := by
  constructor
  · intro method pieces data hmethod hkeys
    constructor
    · intro h
      unfold networkRequestAllowed at h
      split at h
      · rename_i root node kind rest
        split at h
        · rename_i hpath
          obtain ⟨rfl, hnode, rfl⟩ := hpath
          split at h
          · exact request_of_nodeRequestAllowed none hmethod hkeys hnode h
          · exact request_of_nodeRequestAllowed (some _) hmethod hkeys hnode h
          · cases h
        · cases h
      · cases h
    · rintro (⟨change, hnode, hbridge, hbody⟩ | hnode)
      · exact change_allowed (hkeys _ rfl) hnode hbridge hbody
      · rw [networkRequestAllowed, if_pos ⟨rfl, hnode, rfl⟩]
        exact isApply_iff.mpr rfl
  · intro rt node bridge change snapshot review _ hnode hbridge
    exact change_allowed (nodup_mutationBody change bridge) hnode hbridge fun _ => rfl

theorem network_gate_create :
    ClientRequest ⟨["pve1"], ["vmbr7"]⟩ "POST" ["nodes", "pve1", "network"]
      (.dict [("iface", .str "vmbr7"), ("type", .str "bridge"), ("autostart", .int 1),
        ("bridge_vlan_aware", .int 1), ("bridge_ports", .str []),
        ("bridge_vids", .str "2-3 7")]) := by
  refine ((network_gate ⟨["pve1"], ["vmbr7"]⟩).1 _ _ _ (by decide) ?_).mp (by decide +kernel)
  intro d hd
  cases hd
  decide

end Gjallar.HostNetwork

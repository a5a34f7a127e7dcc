import Gjallar.CanonicalJson
import Gjallar.HostNetwork

/-!
# What an accepted observation says about the rest of the configuration

A review stores digests of the other interfaces and of the preserved part of the target. When a
later observation is accepted against the review, these parts of the two snapshots are the same
JSON values.
-/
namespace Gjallar.HostNetwork

open Gjallar.Text Gjallar.Data Gjallar.Operation Gjallar.CanonicalJson

/-- Two rows have the same entries, up to those under the given keys. -/
def SameExcept (keys : List Str) (r s : Dict) : Prop :=
  ∀ key, key ∉ keys → (Dict.get r key).map canonical = (Dict.get s key).map canonical

theorem get_without (keys : List Str) (row : Dict) (key : Str) :
    Dict.get (without keys row) key = if key ∈ keys then none else Dict.get row key := by
  rw [without, Dict.get_filter fun k => !keys.contains k]
  by_cases h : key ∈ keys <;> simp [h]

theorem sameExcept_of_without {keys : List Str} {r s : Dict}
    (h : SameJson (.dict (without keys r)) (.dict (without keys s))) : SameExcept keys r s := by
  intro key hkey
  have hget := sameJson_dict_iff.mp h key
  rwa [get_without, get_without, if_neg hkey, if_neg hkey] at hget

theorem get_otherRows (rows : Rows) (bridgeId name : Str) :
    Dict.get (otherRows rows bridgeId) name = if name = bridgeId then none
      else (rows.lookup name).map fun row => .dict (without dynamicFields row) := by
  induction rows with
  | nil => simp [otherRows]
  | cons r rows ih =>
      obtain ⟨k, row⟩ := r
      have hcons : otherRows ((k, row) :: rows) bridgeId = if k = bridgeId then
          otherRows rows bridgeId
        else (k, .dict (without dynamicFields row)) :: otherRows rows bridgeId := by
        by_cases hk : k = bridgeId <;> simp [otherRows, hk]
      rw [hcons, List.lookup_cons]
      by_cases hk : k = bridgeId
      · rw [if_pos hk, ih]
        by_cases hname : name = bridgeId
        · rw [if_pos hname, if_pos hname]
        · have hne : (name == k) = false := by
            rw [hk]
            exact beq_eq_false_iff_ne.mpr hname
          rw [if_neg hname, if_neg hname, hne]
      · rw [if_neg hk, Dict.get_cons, ih]
        by_cases hname : name = k
        · have heq : (name == k) = true := beq_iff_eq.mpr hname
          rw [if_pos hname, if_neg (by rw [hname]; exact hk), heq]
          rfl
        · have hne : (name == k) = false := beq_eq_false_iff_ne.mpr hname
          rw [if_neg hname, hne]

/-- Snapshots with one fingerprint of the other interfaces have the same other interfaces. -/
theorem same_of_otherFingerprint {rt : Runtime} (hfree : CollisionFree rt) {rows rows' : Rows}
    {bridgeId : Str} (h : otherFingerprint rt rows bridgeId = otherFingerprint rt rows' bridgeId)
    (name : Str) (hname : name ≠ bridgeId) :
    ((rows.lookup name).isSome = (rows'.lookup name).isSome) ∧
      ∀ r r', rows.lookup name = some r → rows'.lookup name = some r' →
        SameExcept dynamicFields r r' := by
  have hget := sameJson_dict_iff.mp (sameJson_of_operationDigest hfree h) name
  rw [get_otherRows, get_otherRows, if_neg hname, if_neg hname, Option.map_map,
    Option.map_map] at hget
  constructor
  · have hsome := congrArg Option.isSome hget
    rwa [Option.isSome_map, Option.isSome_map] at hsome
  · intro r r' hr hr'
    rw [hr, hr', Option.map_some, Option.map_some, Option.some.injEq] at hget
    exact sameExcept_of_without hget

/-- What the summary of a bridge says about its row. -/
theorem summarizeBridge_eq_ok {rt : Runtime} {row : Dict} {bridgeId : Str} {b : BridgeSummary}
    (h : summarizeBridge rt row bridgeId = .ok b) :
    flag (Dict.get row "autostart") = .ok b.config.autostart ∧
      flag (Dict.get row "bridge_vlan_aware") = .ok b.config.vlanAware ∧
      observedVlans row b.config.vlanAware = .ok b.config.vlanIds ∧
      b.preservedFingerprint =
        rt.operationDigest (.dict (without (dynamicFields ++ mutableFields) row)) := by
  simp only [summarizeBridge, bind_eq_ok, raiseIf_eq_ok, pure_eq_ok] at h
  obtain ⟨-, -, -, -, ports, -, aware, haware, ids, hids, autostart, hautostart, -, -, -, -, rfl⟩ :=
    h
  exact ⟨hautostart, haware, hids, rfl⟩

theorem summarizeBefore_eq_ok {rt : Runtime} {rows : Rows} {bridgeId : Str}
    {before : Option BridgeSummary} (h : summarizeBefore rt rows bridgeId = .ok before) :
    (before = none ↔ rows.lookup bridgeId = none) ∧
      ∀ row, rows.lookup bridgeId = some row →
        ∃ b, summarizeBridge rt row bridgeId = .ok b ∧ before = some b := by
  unfold summarizeBefore at h
  cases hlookup : rows.lookup bridgeId with
  | none =>
      rw [hlookup] at h
      cases h
      simp
  | some row =>
      simp only [hlookup] at h
      cases hsum : summarizeBridge rt row bridgeId with
      | error e =>
          rw [hsum] at h
          cases h
      | ok b =>
          rw [hsum] at h
          cases h
          simp [hsum]

/-- The rows a review was built from, and what it stores of them. -/
theorem makeReview_eq_ok {rt : Runtime} {nodeId bridgeId : Str} {change : BridgeChange}
    {snapshot : Value} {review : Review}
    (h : makeReview rt nodeId bridgeId change snapshot = .ok review) :
    ∃ rows changes, configurationRows snapshot = .ok (rows, changes) ∧
      review.bridgeId = bridgeId ∧
      review.otherConfigurationFingerprint = otherFingerprint rt rows bridgeId ∧
      review.desired.autostart = change.autostart ∧
      review.desired.vlanAware = change.vlanAware ∧ review.desired.vlanIds = change.vlanIds ∧
      (change.mode = .create ↔ rows.lookup bridgeId = none) ∧
      ∀ row, rows.lookup bridgeId = some row →
        ∃ b, summarizeBridge rt row bridgeId = .ok b ∧ review.observedBefore = some b := by
  simp only [makeReview, bind_eq_ok, raiseIf_eq_ok, pure_eq_ok] at h
  obtain ⟨-, -, ⟨rows, changes⟩, hrows, -, -, before, hbefore, -, hmode, -, -, rfl⟩ := h
  obtain ⟨hnone, hsome⟩ := summarizeBefore_eq_ok hbefore
  refine ⟨rows, changes, hrows, rfl, rfl, rfl, rfl, rfl, ?_, hsome⟩
  rw [← hnone]
  cases before <;> simpa using hmode

/-- What an accepted observation has compared with the review. -/
theorem observeConfiguration_eq_ok {rt : Runtime} {snapshot : Value} {review : Review}
    {staged : Bool} {observation : ObservedConfiguration}
    (h : observeConfiguration rt snapshot review staged = .ok observation) :
    ∃ rows changes row b, configurationRows snapshot = .ok (rows, changes) ∧
      rows.lookup review.bridgeId = some row ∧
      summarizeBridge rt row review.bridgeId = .ok b ∧ b.config = review.desired ∧
      (∀ before, review.observedBefore = some before →
        b.preservedFingerprint = before.preservedFingerprint) ∧
      otherFingerprint rt rows review.bridgeId = review.otherConfigurationFingerprint := by
  simp only [observeConfiguration, bind_eq_ok, orRaise_eq_ok, raiseIf_eq_ok, not_or, ne_eq,
    not_not, not_exists, not_and] at h
  obtain ⟨⟨rows, changes⟩, hrows, row, hrow, b, hb, -, ⟨hconfig, hpreserved, hother⟩, -⟩ := h
  exact ⟨rows, changes, row, b, hrows, hrow, hb, hconfig, hpreserved, hother⟩

/-- The rows of a later snapshot are those of the reviewed one, apart from the requested change of
the target. -/
structure LeavesRest (bridgeId : Str) (change : BridgeChange) (rows rows' : Rows) : Prop where
  presence : ∀ name, name ≠ bridgeId →
    (rows.lookup name).isSome = (rows'.lookup name).isSome
  others : ∀ name, name ≠ bridgeId → ∀ r r', rows.lookup name = some r →
    rows'.lookup name = some r' → SameExcept dynamicFields r r'
  target : ∃ row', rows'.lookup bridgeId = some row' ∧
    (change.mode = .update → ∃ row, rows.lookup bridgeId = some row ∧
      SameExcept (dynamicFields ++ mutableFields) row row') ∧
    flag (Dict.get row' "autostart") = .ok change.autostart ∧
    flag (Dict.get row' "bridge_vlan_aware") = .ok change.vlanAware ∧
    (change.vlanAware = true → observedVlans row' true = .ok change.vlanIds)

/-- When an observation is accepted against the review of a change, whether the change is still
staged or already applied, nothing but the requested change of the target differs from the
reviewed snapshot. The VLAN list of a target that is not VLAN aware is not read. -/
theorem review_leaves_rest {rt : Runtime} (hfree : CollisionFree rt) {nodeId bridgeId : Str}
    {change : BridgeChange} {before after : Value} {review : Review} {staged : Bool}
    {observation : ObservedConfiguration}
    (hreview : makeReview rt nodeId bridgeId change before = .ok review)
    (hobserved : observeConfiguration rt after review staged = .ok observation) :
    ∃ rows changes rows' changes', configurationRows before = .ok (rows, changes) ∧
      configurationRows after = .ok (rows', changes') ∧
      LeavesRest bridgeId change rows rows' := by
  obtain ⟨rows, changes, hrows, rfl, hfingerprint, hauto, haware, hids, hmode, hbefore⟩ :=
    makeReview_eq_ok hreview
  obtain ⟨rows', changes', row', b, hrows', hrow', hb, hconfig, hpreserved, hother⟩ :=
    observeConfiguration_eq_ok hobserved
  have hsame := fun {name} => same_of_otherFingerprint hfree (hfingerprint ▸ hother).symm
    name
  obtain ⟨hflag, hvlan, hvlans, hkept⟩ := summarizeBridge_eq_ok hb
  rw [hconfig, hauto] at hflag
  rw [hconfig, haware] at hvlan
  rw [hconfig, haware, hids] at hvlans
  refine ⟨rows, changes, rows', changes', hrows, hrows', ⟨fun name hname => (hsame hname).1,
    fun name hname => (hsame hname).2, row', hrow', fun hupdate => ?_, hflag, hvlan,
    fun hrequested => hrequested ▸ hvlans⟩⟩
  cases hlookup : rows.lookup review.bridgeId with
  | none =>
      rw [hmode.mpr hlookup] at hupdate
      cases hupdate
  | some row =>
      obtain ⟨b₀, hb₀, hobservedBefore⟩ := hbefore row hlookup
      refine ⟨row, rfl, sameExcept_of_without (sameJson_of_operationDigest hfree ?_)⟩
      rw [← hkept, hpreserved b₀ hobservedBefore, (summarizeBridge_eq_ok hb₀).2.2.2]

/-- A bridge of a node that also has a management bridge. -/
def bridgeSnapshot (autostart : Bool) (active : ℤ) : Value :=
  .dict [("interfaces", .list
      [.dict [("iface", .str "vmbr0"), ("type", .str "bridge"), ("address", .str "192.0.2.2"),
          ("active", .int active)],
        .dict [("iface", .str "vmbr40"), ("type", .str "bridge"), ("families", .list [.str "inet"]),
          ("method", .str "manual"), ("bridge_ports", .str "eno2"), ("bridge_stp", .str "off"),
          ("autostart", .bool autostart), ("active", .int active)]]),
    ("changes", .str [])]

/-- The observation after autostart of a bridge is turned off. -/
theorem review_leaves_rest_of_autostart_off :
    let change : BridgeChange := ⟨.update, false, false, none, rfl⟩
    ∃ rows changes rows' changes', configurationRows (bridgeSnapshot true 1) = .ok (rows, changes) ∧
      configurationRows (bridgeSnapshot false 0) = .ok (rows', changes') ∧
      LeavesRest "vmbr40" change rows rows' := by
  intro change
  obtain ⟨review, hreview⟩ := exists_eq_ok (show (makeReview printing "node1" "vmbr40" change
    (bridgeSnapshot true 1)).isOk = true by decide)
  have haccepted : (makeReview printing "node1" "vmbr40" change (bridgeSnapshot true 1) >>= fun r =>
      observeConfiguration printing (bridgeSnapshot false 0) r false).isOk = true := by
    decide +kernel
  rw [hreview] at haccepted
  obtain ⟨observation, hobserved⟩ := exists_eq_ok haccepted
  exact review_leaves_rest collisionFree_printing hreview hobserved

/-! ### The VLAN list of a bridge that is not VLAN aware -/

/-- A bridge with a VLAN list. -/
def vlanSnapshot (aware : Bool) : Value :=
  .dict [("interfaces", .list
      [.dict [("iface", .str "vmbr40"), ("type", .str "bridge"), ("families", .list [.str "inet"]),
          ("method", .str "manual"), ("bridge_vlan_aware", .bool aware),
          ("bridge_vids", .str "10 20-30")]]),
    ("changes", .str [])]

/-- VLAN awareness is turned off, which deletes the VLAN list; the change counts as applied while
the list is still there. -/
theorem deleted_vids_accepted :
    let change : BridgeChange := .plain .update false
    Dict.get (mutationBody change "vmbr40") "delete" = some (.str "bridge_vids") ∧
    ∃ review observation rows changes row,
      makeReview printing "node1" "vmbr40" change (vlanSnapshot true) = .ok review ∧
      observeConfiguration printing (vlanSnapshot false) review false = .ok observation ∧
      configurationRows (vlanSnapshot false) = .ok (rows, changes) ∧
      rows.lookup ("vmbr40" : Str) = some row ∧
      Dict.get row "bridge_vids" = some (.str "10 20-30") := by
  intro change
  refine ⟨rfl, ?_⟩
  have haccepted : (makeReview printing "node1" "vmbr40" change (vlanSnapshot true) >>= fun r =>
      observeConfiguration printing (vlanSnapshot false) r false).isOk = true := by
    decide +kernel
  obtain ⟨observation, h⟩ := exists_eq_ok haccepted
  obtain ⟨review, hreview, hobserved⟩ := bind_eq_ok.mp h
  exact ⟨review, observation, _, _, _, hreview, hobserved, rfl, rfl, rfl⟩

end Gjallar.HostNetwork

import Gjallar.AdmissionAtomicity
import Gjallar.BoundLocks
import Gjallar.DictEquality
import Gjallar.LockExclusion
import Gjallar.RedactedTexts

/-!
# Admission of host configuration operations

`HostConfigurationAdmission.prepare`: the lock, the operation and the first lease of the recovery
item, in one transaction under the connection lock. What the two ledgers keep of the lock binding
went through redaction; the lock row did not.
-/
namespace Gjallar.HostAdmission

open Gjallar.Text Gjallar.Data Gjallar.Tables Gjallar.Operation Gjallar.Admission
  Gjallar.Registration Gjallar.Redaction Gjallar.OperationStore Gjallar.TargetLocks
  Gjallar.RecoveryStore Gjallar.VmAdmission Gjallar.LockExclusion Gjallar.BoundLocks
  Gjallar.AdmissionAtomicity Gjallar.TaskIdentity Gjallar.RedactedTexts

/-- The target in the details of a specification. -/
def targetOf (spec : OperationSpec) : Value := Dict.getD spec.details "target" .null

def acquisition (spec : OperationSpec) (clusterId : Str) : HostAcquisition :=
  ⟨spec.operationType, clusterId, spec.operationId, targetOf spec⟩

/-- The lock binding written to both ledgers. -/
def binding (spec : OperationSpec) (lock : OperationLockRecord) : Dict :=
  [("target_lock_id", .str lock.operationLockId), ("cluster_id", .str lock.clusterId),
    ("scope_key", .str lock.scopeKey), ("target_type", .str spec.targetType),
    ("target_id", .str spec.targetId), ("target", targetOf spec),
    ("operation_type", .str spec.operationType.name),
    ("execution_mode", .str spec.executionMode.name)]

/-- The constructor of `RecoverySpec`. -/
def recoverySpec (spec : OperationSpec) (details : Dict) : Except StoreError RecoverySpec :=
  let kind := spec.operationType.name ++ ("_observation" : Str)
  if named : (strip spec.operationId).isEmpty = false then
    if supported : kind ∈ recoveryKinds then
      .ok ⟨spec.operationId, kind, details, named, supported⟩
    else .error (.valueError (("Unsupported recovery kind: " : Str) ++ kind))
  else .error (.valueError "Recovery operation_id is required")

/-- The comparison of a specification with the identity of its target. -/
def checkIdentity (spec : OperationSpec) : Except StoreError Unit :=
  match targetIdentity spec.operationType (targetOf spec) with
  | .error message => .error (.valueError message)
  | .ok (expectedType, expectedId) =>
      raiseIf ((spec.targetType, spec.targetId, spec.executionMode) ≠
          (expectedType, expectedId, .managedApi))
        (.valueError "Host Operation target identity is not exact")

/-- `HostConfigurationAdmission.prepare`. -/
def prepare (rt : Runtime) (process : Process) (draws : ℕ → Draw) (spec : OperationSpec)
    (clusterId : Str) (db : Db) :
    Except StoreError ((OperationSnapshot × Option RecoveryLease) × Db) := do
  checkIdentity spec
  match db.operations.get spec.operationId with
  | some existing =>
      raiseIf (existing.intentDigest ≠ spec.intentDigest)
        (.operationIntentConflict spec.operationId)
      return ((existing, none), db)
  | none =>
      let (lock, locked) ← acquireHost rt process (draws 0) (acquisition spec clusterId) db
      let bound := binding spec lock
      let ((operation, _), created) ← create rt (draws 1)
        { spec with details := Dict.merge spec.details bound } locked
      let recovery ← recoverySpec spec bound
      let owner := spec.operationType.name ++ (":" : Str) ++ ((draws 2).uuid 1).digits
      let (lease, db) ← prepareAndClaim (draws 2) recovery owner (Instant.seconds 60) none none
        created
      return ((operation, some lease), db)

/-! ### What an admission stores -/

/-- The rows of an admission that acquired its lock. -/
structure Admits (rt : Runtime) (spec : OperationSpec) (clusterId : Str) (db db' : Db)
    (operation : OperationRecord) (item : RecoveryRecord) (lock : OperationLockRecord) :
    Prop where
  identity : targetIdentity spec.operationType (targetOf spec) =
    .ok (spec.targetType, spec.targetId)
  mode : spec.executionMode = .managedApi
  scopeKey : configurationScopeKey rt clusterId = .ok lock.scopeKey
  acquired : ∃ draw, lock =
    (acquisition spec clusterId).row draw spec.targetType spec.targetId lock.scopeKey
  locks : db.locks.insert lock = some db'.locks
  stored : db'.operations.get spec.operationId = some operation
  created : ∃ draw, operation = newOperation rt draw
    { spec with details := Dict.merge spec.details (binding spec lock) }
  leased : db'.recovery.get spec.operationId = some item
  details : item.details = sanitized (binding spec lock)

theorem checkIdentity_eq_ok {spec : OperationSpec} (h : checkIdentity spec = .ok ()) :
    targetIdentity spec.operationType (targetOf spec) = .ok (spec.targetType, spec.targetId) ∧
      spec.executionMode = .managedApi := by
  unfold checkIdentity at h
  split at h
  · cases h
  · rename_i hidentity
    rw [raiseIf_eq_ok, not_not, Prod.mk.injEq, Prod.mk.injEq] at h
    obtain ⟨htype, hid, hmode⟩ := h
    rw [hidentity, htype, hid]
    exact ⟨rfl, hmode⟩

theorem acquireHost_eq_ok {rt : Runtime} {process : Process} {draw : Draw} {a : HostAcquisition}
    {db db' : Db} {lock : OperationLockRecord} {targetType targetId : Str}
    (hidentity : targetIdentity a.operationType a.target = .ok (targetType, targetId))
    (h : acquireHost rt process draw a db = .ok (lock, db')) :
    configurationScopeKey rt a.clusterId = .ok lock.scopeKey ∧
      lock = a.row draw targetType targetId lock.scopeKey ∧
      ∃ locks, db.locks.insert lock = some locks ∧ db' = { db with locks := locks } := by
  simp only [acquireHost, HostAcquisition.checked, hidentity, bind_eq_ok, pure_eq_ok,
    Except.ok.injEq, exists_eq_left', Prod.mk.injEq] at h
  obtain ⟨_, ⟨scopeKey, hscope, _, -, rfl⟩, _, -, _, -, ⟨row, locks⟩, hinsert, rfl, rfl⟩ := h
  have hinsert' := hostInsert_eq_ok hinsert
  have hrow : row = a.row draw targetType targetId scopeKey := by
    unfold HostAcquisition.insert at hinsert
    dsimp only at hinsert
    rw [hinsert'] at hinsert
    cases hinsert
    rfl
  rw [hrow]
  exact ⟨hscope, rfl, locks, hinsert', rfl⟩

theorem recoverySpec_eq_ok {spec : OperationSpec} {details : Dict} {recovery : RecoverySpec}
    (h : recoverySpec spec details = .ok recovery) :
    recovery.operationId = spec.operationId ∧ recovery.details = details := by
  unfold recoverySpec at h
  dsimp only at h
  split at h
  · split at h
    · cases h
      exact ⟨rfl, rfl⟩
    · cases h
  · cases h

/-- The first claim of an operation without an item stores the given details. -/
theorem prepareAndClaim_absent {draw : Draw} {recovery : RecoverySpec} {owner : Str}
    {time : Instant} {db db' : Db} {lease : RecoveryLease}
    (h : prepareAndClaim draw recovery owner time none none db = .ok (lease, db'))
    (habsent : db.recovery.get recovery.operationId = none) :
    ∃ item, db'.recovery.get recovery.operationId = some item ∧
      item.details = sanitized recovery.details := by
  simp only [prepareAndClaim, habsent, bind_eq_ok, raiseIf_eq_ok, orRaise_eq_ok, pure_eq_ok,
    Prod.mk.injEq] at h
  obtain ⟨_, -, _, -, table, hinsert, -, rfl⟩ := h
  exact ⟨_, (Table.get_insert hinsert _).trans (if_pos rfl), rfl⟩

theorem admits_of_prepare {rt : Runtime} {process : Process} {draws : ℕ → Draw}
    {spec : OperationSpec} {clusterId : Str} {db db' : Db} {operation : OperationSnapshot}
    {lease : RecoveryLease} (hreferenced : Referenced db)
    (h : prepare rt process draws spec clusterId db = .ok ((operation, some lease), db')) :
    ∃ item lock, Admits rt spec clusterId db db' operation item lock := by
  simp only [prepare, bind_eq_ok] at h
  obtain ⟨_, hcheck, h⟩ := h
  obtain ⟨hidentity, hmode⟩ := checkIdentity_eq_ok hcheck
  cases hget : db.operations.get spec.operationId with
  | some existing =>
      simp only [hget, bind_eq_ok, pure_eq_ok, Prod.mk.injEq] at h
      obtain ⟨_, -, ⟨-, hnone⟩, -⟩ := h
      cases hnone
  | none =>
      simp only [hget, bind_eq_ok, pure_eq_ok, Prod.mk.injEq] at h
      obtain ⟨⟨lock, locked⟩, hacquire, ⟨⟨created, isNew⟩, mid⟩, hcreate, recovery, hspec,
        ⟨l, last⟩, hclaim, ⟨rfl, -⟩, rfl⟩ := h
      obtain ⟨hscope, hlock, locks, hinsert, rfl⟩ := acquireHost_eq_ok hidentity hacquire
      obtain ⟨hid, hdetails⟩ := recoverySpec_eq_ok hspec
      obtain ⟨hsome, -, recoveryTable, hlast⟩ := prepareAndClaim_operation hclaim
      rw [hid] at hsome
      rcases create_eq_ok hcreate with rfl | ⟨operations, events, rfl, hins, rfl⟩
      · rw [hget] at hsome
        cases hsome
      · have habsent : db.recovery.get recovery.operationId = none := by
          rw [hid]
          exact hreferenced _ hget
        obtain ⟨item, hitem, hstored⟩ := prepareAndClaim_absent hclaim habsent
        rw [hid] at hitem
        rw [hdetails] at hstored
        subst hlast
        exact ⟨item, lock, hidentity, hmode, hscope, ⟨_, hlock⟩, hinsert,
          (Table.get_insert hins _).trans (if_pos rfl), ⟨_, rfl⟩, hitem, hstored⟩

/-! ### The identified target -/

/-- The texts of a target. -/
def targetTexts (target : Value) : List Str :=
  (target.asDict.getD []).filterMap fun kv => kv.2.asStr

/-- A target that `target_identity` accepts. -/
structure Identifies (operationType : OperationType) (d : Dict) (node key name targetType
    targetId : Str) : Prop where
  nodeId : Dict.get d "node_id" = some (.str node)
  isNode : isIdentifier node = true
  keys : Dict.keysAre d ["node_id", key] = true
  named : Dict.get d key = some (.str name)
  isName : isIdentifier name = true
  kind : (operationType = .hostStorage ∧ key = ("storage_id" : Str) ∧
      targetType = ("proxmox_storage" : Str) ∧ targetId = ("storage:" : Str) ++ name) ∨
    (operationType = .hostNetwork ∧ key = ("bridge_id" : Str) ∧
      targetType = ("proxmox_network" : Str) ∧
      targetId = ("node:" : Str) ++ node ++ ("/bridge:" : Str) ++ name)

theorem identifies_of_ok {operationType : OperationType} {target : Value}
    {targetType targetId : Str}
    (h : targetIdentity operationType target = .ok (targetType, targetId)) :
    ∃ d node key name, target = .dict d ∧
      Identifies operationType d node key name targetType targetId := by
  unfold targetIdentity at h
  split at h
  · rename_i d
    split at h
    · rename_i node hnode
      split at h
      · cases h
      · rename_i hisNode
        rw [Bool.not_eq_false] at hisNode
        split at h
        · rename_i hstorage
          split at h
          · rename_i storage hget
            split at h
            · rename_i hname
              cases h
              exact ⟨d, node, "storage_id", storage, rfl, hnode, hisNode, hstorage.2, hget,
                hname, .inl ⟨hstorage.1, rfl, rfl, rfl⟩⟩
            · cases h
          · cases h
        · split at h
          · rename_i hnetwork
            split at h
            · rename_i bridge hget
              split at h
              · rename_i hname
                cases h
                exact ⟨d, node, "bridge_id", bridge, rfl, hnode, hisNode, hnetwork.2, hget,
                  isIdentifier_of_isHostBridge hname, .inr ⟨hnetwork.1, rfl, rfl, rfl⟩⟩
              · cases h
            · cases h
          · cases h
    · cases h
  · cases h

section Target

variable {operationType : OperationType} {d : Dict} {node key name targetType targetId : Str}

/-- The only entries of an identified target are its two names. -/
theorem Identifies.entry (h : Identifies operationType d node key name targetType targetId)
    (hnodup : (Dict.keys d).Nodup) {k : Str} {v : Value} (hkv : (k, v) ∈ d) :
    isSecretKey k = false ∧ (v = .str node ∨ v = .str name) := by
  have hget := Dict.get_of_mem hnodup hkv
  have hkeys := h.keys
  rw [Dict.keysAre, Bool.and_eq_true, List.all_eq_true] at hkeys
  have hk := List.contains_iff_mem.mp (hkeys.1 k (List.mem_map_of_mem hkv))
  rcases List.mem_cons.mp hk with rfl | hk
  · rw [h.nodeId, Option.some.injEq] at hget
    exact ⟨by decide, .inl hget.symm⟩
  · obtain rfl := List.mem_singleton.mp hk
    rw [h.named, Option.some.injEq] at hget
    refine ⟨?_, .inr hget.symm⟩
    rcases h.kind with ⟨-, rfl, -⟩ | ⟨-, rfl, -⟩ <;> decide

theorem mem_targetTexts {k s : Str} (h : (k, Value.str s) ∈ d) : s ∈ targetTexts (.dict d) :=
  List.mem_filterMap.mpr ⟨(k, .str s), h, rfl⟩

/-- Redaction keeps an identified target when no text in it names a secret. -/
theorem Identifies.redact_eq (h : Identifies operationType d node key name targetType targetId)
    (hnodup : (Dict.keys d).Nodup) (hplain : ∀ s ∈ targetTexts (.dict d), hasMarker s = false) :
    redactSecrets (.dict d) = .dict d := by
  have hsame : ∀ kv ∈ d,
      (kv.1, if isSecretKey kv.1 then .str redacted else redactSecrets kv.2) = kv := by
    rintro ⟨k, v⟩ hkv
    obtain ⟨hsecret, hv⟩ := h.entry hnodup hkv
    obtain ⟨s, rfl, hs⟩ : ∃ s, v = .str s ∧ isIdentifier s = true := by
      rcases hv with rfl | rfl
      · exact ⟨node, rfl, h.isNode⟩
      · exact ⟨name, rfl, h.isName⟩
    have hmarker := hplain s (mem_targetTexts hkv)
    simp only [hsecret, Bool.false_eq_true, if_false, redactSecrets_str,
      redactString_identifier hs, hmarker]
  have hmap : sanitized d = d := (sanitized_eq_map d).trans
    ((List.map_congr_left hsame).trans (List.map_id' d))
  rw [redactSecrets]
  exact congrArg Value.dict hmap

/-- An identified target that redaction leaves identifiable has no secret in its names. -/
theorem Identifies.plain_of_identity
    (h : Identifies operationType d node key name targetType targetId)
    (hnodup : (Dict.keys d).Nodup) {exactType exactId : Str}
    (hkept : targetIdentity operationType (redactSecrets (.dict d)) = .ok (exactType, exactId)) :
    ∀ s ∈ targetTexts (.dict d), hasMarker s = false := by
  have hdict : redactSecrets (.dict d) = .dict (sanitized d) := by
    rw [redactSecrets]
    rfl
  obtain ⟨d', node', key', name', hd', h'⟩ := identifies_of_ok (hdict ▸ hkept)
  cases hd'
  have hkey : key' = key := by
    rcases h.kind, h'.kind with ⟨⟨rfl, rfl, -⟩ | ⟨rfl, rfl, -⟩, ⟨ht, rfl, -⟩ | ⟨ht, rfl, -⟩⟩
    all_goals first | rfl | cases ht
  have hfield : ∀ {k s s'}, isSecretKey k = false → Dict.get d k = some (.str s) →
      Dict.get (sanitized d) k = some (.str s') → s' = redactString s := by
    intro k s s' hk hs hs'
    rw [get_sanitized, hs, Option.map_some, hk, if_neg Bool.false_ne_true, redactSecrets_str] at hs'
    cases hs'
    rfl
  have hnode := hfield (by decide) h.nodeId h'.nodeId
  have hname := hfield (h.entry hnodup (Dict.mem_of_get h.named)).1 h.named (hkey ▸ h'.named)
  intro s hs
  obtain ⟨⟨k, v⟩, hkv, hv⟩ := List.mem_filterMap.mp hs
  rcases (h.entry hnodup hkv).2 with rfl | rfl <;> cases hv
  · exact hasMarker_of_isIdentifier h.isNode (hnode ▸ h'.isNode)
  · exact hasMarker_of_isIdentifier h.isName (hname ▸ h'.isName)

/-- Redaction keeps the target id of an identified target whose names hold no secret. -/
theorem Identifies.redact_targetId
    (h : Identifies operationType d node key name targetType targetId)
    (hplain : ∀ s ∈ targetTexts (.dict d), hasMarker s = false) :
    redactString targetId = targetId := by
  have hnode := hplain node (mem_targetTexts (Dict.mem_of_get h.nodeId))
  have hname := hplain name (mem_targetTexts (Dict.mem_of_get h.named))
  have hchar : ∀ s, isIdentifier s = true → ∀ c ∈ s, isSpace c = false ∧ c ≠ '@' := by
    intro s hs c hc
    refine ⟨isSpace_of_alnumOr (alnumOr_of_mem_identifier hs hc), ?_⟩
    rintro rfl
    exact not_mem_identifier hs rfl hc
  have hkept : ∀ s : Str, (∀ c ∈ s, isSpace c = false ∧ c ≠ '@') → hasMarker s = false →
      redactString s = s := by
    intro s hs hmarker
    rw [redactString_of_no_at (fun c hc => (hs c hc).1) (fun hc => (hs _ hc).2 rfl), hmarker,
      if_neg Bool.false_ne_true]
  rcases h.kind with ⟨-, -, -, rfl⟩ | ⟨-, -, -, rfl⟩
  · refine hkept _ (fun c hc => ?_) ?_
    · rcases List.mem_append.mp hc with hc | hc
      · have hall : ∀ c ∈ ("storage:" : Str), isSpace c = false ∧ c ≠ '@' := forall_mem_of_all rfl
        exact hall c hc
      · exact hchar name h.isName c hc
    · have hsep := hasMarker_sep isSeparator_colon "storage" name
      rw [hname, show hasMarker "storage" = false by decide] at hsep
      exact hsep
  · refine hkept _ (fun c hc => ?_) ?_
    · rcases List.mem_append.mp hc with hc | hc
      · rcases List.mem_append.mp hc with hc | hc
        · rcases List.mem_append.mp hc with hc | hc
          · have hall : ∀ c ∈ ("node:" : Str), isSpace c = false ∧ c ≠ '@' := forall_mem_of_all rfl
            exact hall c hc
          · exact hchar node h.isNode c hc
        · have hall : ∀ c ∈ ("/bridge:" : Str), isSpace c = false ∧ c ≠ '@' :=
            forall_mem_of_all rfl
          exact hall c hc
      · exact hchar name h.isName c hc
    · have hbridge := hasMarker_sep isSeparator_colon "bridge" name
      have hpath := hasMarker_sep isSeparator_slash node (("bridge" : Str) ++ ':' :: name)
      have hsep := hasMarker_sep isSeparator_colon "node"
        (node ++ '/' :: (("bridge" : Str) ++ ':' :: name))
      rw [hname, show hasMarker "bridge" = false by decide] at hbridge
      rw [hnode, hbridge] at hpath
      rw [hpath, show hasMarker "node" = false by decide] at hsep
      refine Eq.trans (congrArg hasMarker ?_) hsep
      simp only [List.append_assoc]
      rfl

end Target

theorem eqv_self_str (s : Str) : Value.eqv (.str s) (.str s) = true := by
  rw [Value.eqv_str, beq_self_eq_true]

theorem Identifies.eqv_self {operationType : OperationType} {d : Dict}
    {node key name targetType targetId : Str}
    (h : Identifies operationType d node key name targetType targetId)
    (hnodup : (Dict.keys d).Nodup) : Value.eqv (.dict d) (.dict d) = true := by
  have hentries : ∀ e : Dict, (∀ kv ∈ e, kv ∈ d) → Value.eqvDict e d = true := by
    intro e he
    induction e with
    | nil => simp [Value.eqvDict]
    | cons kv e ih =>
        obtain ⟨k, v⟩ := kv
        rw [List.forall_mem_cons] at he
        have hget : d.lookup k = some v := Dict.get_of_mem hnodup he.1
        have hself : v.eqv v = true := by
          rcases (h.entry hnodup he.1).2 with rfl | rfl <;> exact eqv_self_str _
        rw [Value.eqvDict, hget, ih he.2, Bool.and_true]
        exact hself
  rw [Value.eqv, hentries d fun _ hkv => hkv, beq_self_eq_true, Bool.and_true]

/-! ### Lock bindings -/

/-- When `lock_binding` finds the two ledgers bound to a lock. -/
structure Binds (rt : Runtime) (operationType : OperationType) (targetType targetId : Str)
    (operationDetails recoveryDetails : Dict) : Prop where
  host : isHostOperation operationType = true
  agree : ∀ key ∈ hostBindingKeys, Dict.has operationDetails key = true ∧
    (Dict.getD operationDetails key .null).eqv (Dict.getD recoveryDetails key .null) = true
  identity : targetIdentity operationType (Dict.getD operationDetails "target" .null) =
    .ok (targetType, targetId)
  scope : ∃ cluster scopeKey, Dict.getD operationDetails "cluster_id" .null = .str cluster ∧
    configurationScopeKey rt cluster = .ok scopeKey ∧
    Dict.getD operationDetails "scope_key" .null = .str scopeKey
  lockId : isNonBlank (Dict.getD operationDetails "target_lock_id" .null) = true
  targetType : Dict.getD operationDetails "target_type" .null = .str targetType
  targetId : Dict.getD operationDetails "target_id" .null = .str targetId
  operationType : Dict.getD operationDetails "operation_type" .null = .str operationType.name
  mode : Dict.getD operationDetails "execution_mode" .null = .str "managed_api"
  unrelated : (Dict.getD operationDetails "related_target_locks" .null).truthy = false
  unrelatedItem : (Dict.getD recoveryDetails "related_target_locks" .null).truthy = false
  noVmid : Dict.getD operationDetails "vmid" .null = .null
  noVmidItem : Dict.getD recoveryDetails "vmid" .null = .null

/-- The binding that `lock_binding` returns. -/
def bindingOf (operationDetails : Dict) : Dict :=
  hostBindingKeys.map fun key => (key, Dict.getD operationDetails key .null)

theorem getD_bindingOf (operationDetails : Dict) {key : Str} (h : key ∈ hostBindingKeys) :
    Dict.getD (bindingOf operationDetails) key .null = Dict.getD operationDetails key .null := by
  have hget : ∀ keys : List Str, key ∈ keys →
      Dict.get (keys.map fun key => (key, Dict.getD operationDetails key .null)) key =
        some (Dict.getD operationDetails key .null) := by
    intro keys hkeys
    induction keys with
    | nil => cases hkeys
    | cons k keys ih =>
        rw [List.map_cons, Dict.get_cons]
        by_cases hk : key = k
        · rw [if_pos hk, hk]
        · rw [if_neg hk]
          exact ih ((List.mem_cons.mp hkeys).resolve_left hk)
  rw [Dict.getD, bindingOf, hget _ h, Option.getD_some]

theorem lockBinding_eq_some {rt : Runtime} {operationType : OperationType}
    {targetType targetId : Str} {operationDetails recoveryDetails bound : Dict} :
    lockBinding rt operationType targetType targetId operationDetails recoveryDetails =
        some bound ↔
      Binds rt operationType targetType targetId operationDetails recoveryDetails ∧
        bound = bindingOf operationDetails := by
  constructor
  · intro h
    unfold lockBinding at h
    dsimp only at h
    split at h
    · cases h
    · rename_i hhost
      split at h
      · cases h
      · rename_i hagree
        split at h
        · rename_i exact scopeKey hidentity hscope
          split at h
          · cases h
          · rename_i hfields
            cases h
            obtain ⟨cluster, hcluster, hscope⟩ := Option.map_eq_some_iff.mp hscope
            have hcluster : Dict.getD operationDetails "cluster_id" .null = .str cluster := by
              cases hv : Dict.getD operationDetails "cluster_id" .null <;> rw [hv] at hcluster <;>
                cases hcluster
              rfl
            simp only [not_or, Bool.not_eq_false, Bool.not_eq_true, ne_eq, not_not,
              Value.eqv_str_iff] at hfields
            obtain ⟨h1, h2, h3, h4, rfl, h6, h7, h8, h9, h10, h11⟩ := hfields
            refine ⟨⟨by simpa using hhost, fun key hkey => ?_, hidentity,
              ⟨cluster, scopeKey, hcluster, hscope, h2⟩, h1, h3, h4, h6, h7, h8, h9, h10, h11⟩, rfl⟩
            rw [Bool.not_eq_true, List.any_eq_false] at hagree
            have hkey := hagree key hkey
            rw [decide_eq_true_eq, not_or, Bool.not_eq_false, Bool.not_eq_false] at hkey
            exact hkey
        · cases h
  · rintro ⟨h, rfl⟩
    obtain ⟨cluster, scopeKey, hcluster, hscope, hkey⟩ := h.scope
    have hagree : hostBindingKeys.any (fun key => Dict.has operationDetails key = false ∨
        (Dict.getD operationDetails key .null).eqv (Dict.getD recoveryDetails key .null) = false) =
        false := by
      rw [List.any_eq_false]
      intro key hmem
      obtain ⟨hhas, heqv⟩ := h.agree key hmem
      rw [decide_eq_true_eq, not_or, hhas, heqv]
      exact ⟨Bool.noConfusion, Bool.noConfusion⟩
    unfold lockBinding
    dsimp only
    rw [if_neg (by rw [h.host]; exact Bool.noConfusion), hagree, if_neg Bool.false_ne_true,
      h.identity, hcluster]
    simp only [Value.asStr, Option.map_some, hscope]
    rw [if_neg ?_]
    · rfl
    · simp only [not_or, Bool.not_eq_false, Bool.not_eq_true, ne_eq, not_not, Value.eqv_str_iff]
      exact ⟨h.lockId, hkey, h.targetType, h.targetId, trivial, h.operationType, h.mode,
        h.unrelated,
        h.unrelatedItem, h.noVmid, h.noVmidItem⟩

/-! ### The binding that an admission stores -/

/-- The ledgers bind the operation to exactly the lock that was acquired. -/
def LockBound (rt : Runtime) (spec : OperationSpec) (db db' : Db) : Prop :=
  ∃ operation item lock, db'.operations.get spec.operationId = some operation ∧
    db'.recovery.get spec.operationId = some item ∧ db.locks.insert lock = some db'.locks ∧
    (lockBinding rt operation.operationType operation.targetType operation.targetId
      operation.details item.details).isSome = true ∧
    exactTargetLocks rt operation item.details db'.locks = [lock]

/-- Redaction keeps everything that the binding compares, and the details of the specification
bind no VM. -/
structure Storable (spec : OperationSpec) (clusterId : Str) : Prop where
  target : ∀ s ∈ targetTexts (targetOf spec), hasMarker s = false
  cluster : redactString (strip clusterId) = strip clusterId
  owner : strip spec.operationId = spec.operationId
  unrelated : (Dict.getD (sanitized spec.details) "related_target_locks" .null).truthy = false
  noVmid : Dict.getD spec.details "vmid" .null = .null

section Stored

variable {rt : Runtime} {spec : OperationSpec} {clusterId : Str} {db db' : Db}
  {operation : OperationRecord} {item : RecoveryRecord} {lock : OperationLockRecord}

/-- What the two ledgers hold of a field of the binding. -/
theorem Admits.field (h : Admits rt spec clusterId db db' operation item lock) {key : Str}
    {v : Value} (hkey : Dict.get (binding spec lock) key = some v)
    (hsecret : isSecretKey key = false) :
    Dict.get operation.details key = some (redactSecrets v) ∧
      Dict.get item.details key = some (redactSecrets v) := by
  obtain ⟨draw, rfl⟩ := h.created
  constructor
  · refine (get_sanitized _ _).trans ?_
    rw [Dict.get_merge, hkey, Option.some_or, Option.map_some, hsecret, if_neg Bool.false_ne_true]
  · rw [h.details, get_sanitized, hkey, Option.map_some, hsecret, if_neg Bool.false_ne_true]

theorem Admits.getD_field (h : Admits rt spec clusterId db db' operation item lock) {key : Str}
    {v : Value} (hkey : Dict.get (binding spec lock) key = some v)
    (hsecret : isSecretKey key = false) :
    Dict.getD operation.details key .null = redactSecrets v := by
  rw [Dict.getD, (h.field hkey hsecret).1, Option.getD_some]

/-- What the details hold of a field that the binding does not set. -/
theorem Admits.other (h : Admits rt spec clusterId db db' operation item lock) {key : Str}
    (hkey : Dict.get (binding spec lock) key = none) :
    Dict.getD operation.details key .null = Dict.getD (sanitized spec.details) key .null ∧
      Dict.getD item.details key .null = .null := by
  obtain ⟨draw, rfl⟩ := h.created
  constructor
  · have hget : Dict.get (newOperation rt draw
        { spec with details := Dict.merge spec.details (binding spec lock) }).details key =
        Dict.get (sanitized spec.details) key := by
      refine (get_sanitized _ _).trans ?_
      rw [Dict.get_merge, hkey, Option.none_or, get_sanitized]
    rw [Dict.getD, hget, Dict.getD]
  · rw [Dict.getD, h.details, get_sanitized, hkey, Option.map_none, Option.getD_none]

theorem Admits.isHost (h : Admits rt spec clusterId db db' operation item lock) :
    isHostOperation operation.operationType = true := by
  obtain ⟨draw, rfl⟩ := h.created
  obtain ⟨d, node, key, name, -, hid⟩ := identifies_of_ok h.identity
  change isHostOperation spec.operationType = true
  rcases hid.kind with ⟨ht, -⟩ | ⟨ht, -⟩ <;> rw [ht] <;> rfl

theorem Admits.exactTargetLocks_iff (h : Admits rt spec clusterId db db' operation item lock) :
    exactTargetLocks rt operation item.details db'.locks = [lock] ↔
      Binds rt operation.operationType operation.targetType operation.targetId operation.details
        item.details ∧ IsHostLock operation (bindingOf operation.details) lock := by
  have hmode : operation.executionMode = .managedApi := by
    obtain ⟨draw, rfl⟩ := h.created
    exact h.mode
  have hmem : lock ∈ db'.locks := (Table.mem_insert h.locks).mpr (.inr rfl)
  unfold exactTargetLocks
  rw [if_pos h.isHost]
  cases hbound : lockBinding rt operation.operationType operation.targetType operation.targetId
      operation.details item.details with
  | none =>
      refine ⟨fun hnil => (List.cons_ne_nil _ _ hnil.symm).elim, fun hboth => ?_⟩
      rw [lockBinding_eq_some.mpr ⟨hboth.1, rfl⟩] at hbound
      cases hbound
  | some bound =>
      obtain ⟨hbinds, rfl⟩ := lockBinding_eq_some.mp hbound
      dsimp only
      rw [if_neg (not_not.mpr hmode), Option.toList_eq_singleton_iff, isHostLock_iff]
      exact ⟨fun hlock => ⟨hbinds, hlock.2⟩, fun hboth => ⟨hmem, hboth.2⟩⟩

theorem redactSecrets_eq_null {v : Value} (h : redactSecrets v = .null) : v = .null := by
  cases v <;> simp_all [redactSecrets]

theorem getD_sanitized_vmid (d : Dict) : Dict.getD (sanitized d) "vmid" .null = .null ↔
    Dict.getD d "vmid" .null = .null := by
  have hsecret : isSecretKey "vmid" = false := by decide
  rw [Dict.getD, Dict.getD, get_sanitized, hsecret]
  cases Dict.get d "vmid" with
  | none => exact Iff.rfl
  | some v =>
      rw [Option.map_some, Option.getD_some, Option.getD_some, if_neg Bool.false_ne_true]
      exact ⟨redactSecrets_eq_null, fun hv => hv ▸ redactSecrets_null⟩

/-- The values of the lock row. -/
theorem Admits.lock_fields (h : Admits rt spec clusterId db db' operation item lock) :
    lock.clusterId = strip clusterId ∧ lock.ownerId = strip spec.operationId ∧
      (∃ hex : Hex, lock.operationLockId = ("configuration-lock-" : Str) ++ hex.digits) ∧
      ∃ hex : Hex, lock.scopeKey = ("proxmox_configuration:" : Str) ++ hex.digits := by
  obtain ⟨draw, hlock⟩ := h.acquired
  have hscope := h.scopeKey
  unfold configurationScopeKey at hscope
  dsimp only at hscope
  split at hscope
  · cases hscope
  · rw [hlock]
    exact ⟨rfl, rfl, ⟨_, rfl⟩, _, (Except.ok.inj hscope).symm⟩

theorem storable_of_bound (h : Admits rt spec clusterId db db' operation item lock)
    (hkeys : ∀ d, targetOf spec = .dict d → (Dict.keys d).Nodup)
    (hbinds : Binds rt operation.operationType operation.targetType operation.targetId
      operation.details item.details)
    (hlock : IsHostLock operation (bindingOf operation.details) lock) :
    Storable spec clusterId := by
  obtain ⟨hcluster, howner, -, -⟩ := h.lock_fields
  have hids : operation.operationId = spec.operationId ∧
      operation.operationType = spec.operationType := by
    obtain ⟨draw, rfl⟩ := h.created
    exact ⟨rfl, rfl⟩
  refine ⟨?_, ?_, ?_, ?_, ?_⟩
  · obtain ⟨d, node, key, name, htarget, hid⟩ := identifies_of_ok h.identity
    have hidentity := hbinds.identity
    rw [h.getD_field rfl (by decide), hids.2, htarget] at hidentity
    rw [htarget]
    exact hid.plain_of_identity (hkeys d htarget) hidentity
  · have hstored := hlock.cluster
    rw [getD_bindingOf _ (by decide), h.getD_field rfl (by decide), redactSecrets_str,
      Value.str.injEq, hcluster] at hstored
    exact hstored
  · rw [← howner, hlock.owner, hids.1]
  · rw [← (h.other rfl).1]
    exact hbinds.unrelated
  · have hvmid := hbinds.noVmid
    rw [(h.other rfl).1] at hvmid
    exact (getD_sanitized_vmid _).mp hvmid

/-- Redaction keeps the fields that an admission draws or copies from a fixed set. -/
theorem Admits.redact_fields (h : Admits rt spec clusterId db db' operation item lock) :
    redactString lock.operationLockId = lock.operationLockId ∧
      redactString lock.scopeKey = lock.scopeKey ∧
      redactString spec.targetType = spec.targetType ∧
      redactString spec.operationType.name = spec.operationType.name ∧
      redactString spec.executionMode.name = ("managed_api" : Str) := by
  obtain ⟨-, -, ⟨lockHex, hid⟩, scopeHex, hscope⟩ := h.lock_fields
  obtain ⟨d, node, key, name, -, hidentified⟩ := identifies_of_ok h.identity
  refine ⟨?_, ?_, ?_, ?_, ?_⟩
  · rw [hid]
    exact redactString_append_hex (forall_mem_of_all rfl) (by decide) lockHex.isHex (by decide)
  · rw [hscope]
    exact redactString_append_hex (forall_mem_of_all rfl) (by decide) scopeHex.isHex (by decide)
  · rcases hidentified.kind with ⟨-, -, ht, -⟩ | ⟨-, -, ht, -⟩ <;> rw [ht] <;> decide
  · rcases hidentified.kind with ⟨ht, -⟩ | ⟨ht, -⟩ <;> rw [ht] <;> decide
  · rw [h.mode]
    decide

/-- Under `Storable` both ledgers keep the binding as it was. -/
theorem Admits.kept (h : Admits rt spec clusterId db db' operation item lock)
    (hkeys : ∀ d, targetOf spec = .dict d → (Dict.keys d).Nodup) (hs : Storable spec clusterId) :
    ∀ kv ∈ binding spec lock, redactSecrets kv.2 = kv.2 ∧ kv.2.eqv kv.2 = true := by
  obtain ⟨hcluster, -, -, -⟩ := h.lock_fields
  obtain ⟨hlockId, hscope, htype, hoperation, hmode⟩ := h.redact_fields
  obtain ⟨d, node, key, name, htarget, hid⟩ := identifies_of_ok h.identity
  have hplain := hs.target
  rw [htarget] at hplain
  have hstr : ∀ s, redactString s = s →
      redactSecrets (.str s) = .str s ∧ Value.eqv (.str s) (.str s) = true :=
    fun s hkept => ⟨(redactSecrets_str s).trans (congrArg Value.str hkept), eqv_self_str s⟩
  simp only [binding, List.forall_mem_cons, List.not_mem_nil, false_imp_iff, implies_true, and_true]
  refine ⟨hstr _ hlockId, hstr _ ?_, hstr _ hscope, hstr _ htype,
    hstr _ (hid.redact_targetId hplain), ?_, hstr _ hoperation, hstr _ ?_⟩
  · rw [hcluster]
    exact hs.cluster
  · rw [htarget]
    exact ⟨hid.redact_eq (hkeys d htarget) hplain, hid.eqv_self (hkeys d htarget)⟩
  · rw [hmode, h.mode]
    rfl

theorem bound_of_storable (h : Admits rt spec clusterId db db' operation item lock)
    (hkeys : ∀ d, targetOf spec = .dict d → (Dict.keys d).Nodup) (hs : Storable spec clusterId) :
    Binds rt operation.operationType operation.targetType operation.targetId operation.details
      item.details ∧ IsHostLock operation (bindingOf operation.details) lock := by
  have hkept := h.kept hkeys hs
  have hsecret : ∀ key ∈ hostBindingKeys, isSecretKey key = false := by decide
  have hvalue : ∀ {key v}, key ∈ hostBindingKeys → Dict.get (binding spec lock) key = some v →
      Dict.getD operation.details key .null = v := fun hkey hget =>
    (h.getD_field hget (hsecret _ hkey)).trans (hkept _ (Dict.mem_of_get hget)).1
  have hbound : ∀ {key v}, key ∈ hostBindingKeys → Dict.get (binding spec lock) key = some v →
      Dict.getD (bindingOf operation.details) key .null = v := fun hkey hget =>
    (getD_bindingOf _ hkey).trans (hvalue hkey hget)
  obtain ⟨hcluster, howner, ⟨lockHex, hlockId⟩, -⟩ := h.lock_fields
  obtain ⟨draw, hlock⟩ := h.acquired
  have hrow : lock.operationType = spec.operationType ∧ lock.scopeType = .proxmoxConfiguration ∧
      lock.vmid = none ∧ lock.isOpen = true ∧
      lock.evidence = ([("operation_id", .str (strip spec.operationId)),
        ("target_type", .str spec.targetType), ("target_id", .str spec.targetId),
        ("target", targetOf spec)] : Dict) := by
    rw [hlock]
    exact ⟨rfl, rfl, rfl, rfl, rfl⟩
  obtain ⟨hrowType, hrowScope, hrowVmid, hrowOpen, hevidence⟩ := hrow
  have hids : operation.operationId = spec.operationId ∧
      operation.operationType = spec.operationType ∧ operation.targetType = spec.targetType ∧
      operation.targetId = spec.targetId := by
    obtain ⟨draw, rfl⟩ := h.created
    exact ⟨rfl, rfl, rfl, rfl⟩
  obtain ⟨hid, htype, htargetType, htargetId⟩ := hids
  have htarget : Dict.getD operation.details "target" .null = targetOf spec :=
    hvalue (by decide) rfl
  refine ⟨⟨h.isHost, fun key hkey => ?_, ?_, ⟨strip clusterId, lock.scopeKey, ?_, ?_,
    hvalue (by decide) rfl⟩, ?_, ?_, ?_, ?_, ?_, ?_, ?_, ?_, ?_⟩, ⟨hbound (by decide) rfl, ?_, ?_,
    hrowScope, hbound (by decide) rfl, hbound (by decide) rfl, hrowVmid, hrowOpen, ?_, ?_, ?_, ?_⟩⟩
  · cases hget : Dict.get (binding spec lock) key with
    | none =>
        have habsent := (Dict.get_eq_none_iff _ _).mp hget
        rw [Dict.has, show Dict.keys (binding spec lock) = hostBindingKeys from rfl,
          List.contains_iff_mem.mpr hkey] at habsent
        cases habsent
    | some v =>
        obtain ⟨hoperation, hitem⟩ := h.field hget (hsecret key hkey)
        obtain ⟨hsame, hself⟩ := hkept _ (Dict.mem_of_get hget)
        rw [Dict.getD, Dict.getD, hoperation, hitem, Option.getD_some, hsame]
        refine ⟨?_, hself⟩
        rw [← Bool.not_eq_false, ← Dict.get_eq_none_iff, hoperation]
        exact Option.some_ne_none _
  · rw [htype, htarget, htargetType, htargetId]
    exact h.identity
  · rw [hvalue (by decide) rfl, hcluster]
  · have hscope := h.scopeKey
    unfold configurationScopeKey at hscope ⊢
    rw [strip_strip]
    exact hscope
  · have hplain : ∀ c ∈ lock.operationLockId, isSpace c = false := by
      rw [hlockId]
      intro c hc
      rcases List.mem_append.mp hc with hc | hc
      · have hall : ∀ c ∈ ("configuration-lock-" : Str), isSpace c = false := forall_mem_of_all rfl
        exact hall c hc
      · exact isSpace_of_isLowerHex (lockHex.isHex c hc)
    rw [hvalue (by decide) rfl, isNonBlank, strip_of_no_space hplain, hlockId]
    rfl
  · rw [hvalue (by decide) rfl, htargetType]
  · rw [hvalue (by decide) rfl, htargetId]
  · rw [hvalue (by decide) rfl, htype]
  · rw [hvalue (by decide) rfl, h.mode]
    rfl
  · rw [(h.other rfl).1]
    exact hs.unrelated
  · rw [(h.other rfl).2]
    rfl
  · rw [(h.other rfl).1]
    exact (getD_sanitized_vmid _).mpr hs.noVmid
  · exact (h.other rfl).2
  · rw [howner, hs.owner, hid]
  · rw [hrowType, htype]
  · rw [hevidence, hid, ← hs.owner, strip_strip]
    rfl
  · rw [hevidence, htargetType]
    rfl
  · rw [hevidence, htargetId]
    rfl
  · rw [hevidence, hbound (by decide) rfl]
    exact (hkept ("target", targetOf spec) (Dict.mem_of_get rfl)).2

/-- An operation that is bound to its lock had nothing to redact. -/
theorem storable_of_lockBound (h : Admits rt spec clusterId db db' operation item lock)
    (hkeys : ∀ d, targetOf spec = .dict d → (Dict.keys d).Nodup)
    (hbound : LockBound rt spec db db') : Storable spec clusterId := by
  obtain ⟨operation', item', lock', hoperation, hitem, hinsert, -, hlocks⟩ := hbound
  have hlock : lock' = lock := by
    have hrows := (Table.insert_eq_some hinsert).symm.trans (Table.insert_eq_some h.locks)
    exact List.singleton_inj.mp (List.append_cancel_left hrows)
  rw [h.stored, Option.some.injEq] at hoperation
  rw [h.leased, Option.some.injEq] at hitem
  subst hoperation hitem hlock
  obtain ⟨hbinds, hhost⟩ := h.exactTargetLocks_iff.mp hlocks
  exact storable_of_bound h hkeys hbinds hhost

theorem lockBound_of_storable (h : Admits rt spec clusterId db db' operation item lock)
    (hkeys : ∀ d, targetOf spec = .dict d → (Dict.keys d).Nodup) (hs : Storable spec clusterId) :
    LockBound rt spec db db' := by
  obtain ⟨hbinds, hhost⟩ := bound_of_storable h hkeys hs
  refine ⟨operation, item, lock, h.stored, h.leased, h.locks, ?_,
    h.exactTargetLocks_iff.mpr ⟨hbinds, hhost⟩⟩
  rw [lockBinding_eq_some.mpr ⟨hbinds, rfl⟩]
  rfl

end Stored

/-- A host configuration operation that acquires its lock is bound to it in both ledgers, so that
a commit finds it, if and only if redaction keeps what the binding compares. -/
theorem host_binding_survives_iff (rt : Runtime) (process : Process) (draws : ℕ → Draw)
    (spec : OperationSpec) (clusterId : Str) (db db' : Db) (operation : OperationSnapshot)
    (lease : RecoveryLease) (hreferenced : Referenced db)
    (hkeys : ∀ d, targetOf spec = .dict d → (Dict.keys d).Nodup)
    (h : prepare rt process draws spec clusterId db = .ok ((operation, some lease), db')) :
    LockBound rt spec db db' ↔ Storable spec clusterId := by
  obtain ⟨item, lock, hadmits⟩ := admits_of_prepare hreferenced h
  exact ⟨storable_of_lockBound hadmits hkeys, lockBound_of_storable hadmits hkeys⟩

/-! ### Storages with plain and with telling names -/

/-- The change of a storage on the node `pve`. -/
def storageSpec (storage : Str) : OperationSpec :=
  { operationId := "host-storage-1", operationType := .hostStorage, executionMode := .managedApi,
    targetType := "proxmox_storage", targetId := ("storage:" : Str) ++ storage,
    idempotencyKey := "sha256:1", intentDigest := "sha256:2", planDigest := "sha256:3",
    actor := {},
    details := [("target", .dict [("node_id", .str "pve"), ("storage_id", .str storage)]),
      ("mutation_dispatched", .bool false), ("dispatch_acknowledged", .bool false)] }

theorem storageSpec_keys (storage : Str) (d : Dict)
    (h : targetOf (storageSpec storage) = .dict d) : (Dict.keys d).Nodup := by
  cases h
  exact (by decide : (["node_id", "storage_id"] : List Str).Nodup)

theorem exists_leased {x : Except StoreError ((OperationSnapshot × Option RecoveryLease) × Db)}
    (h : (x.toOption.any fun r => r.1.2.isSome) = true) :
    ∃ db' operation lease, x = .ok ((operation, some lease), db') := by
  match x, h with
  | .ok ((operation, some lease), db'), _ => exact ⟨db', operation, lease, rfl⟩

theorem host_binding_survives_for_plain_storage : ∃ db' operation lease,
    prepare sampleRuntime ⟨none, fun _ => true⟩ (fun _ => sampleDraw) (storageSpec "nfs-1")
      "lab" {} = .ok ((operation, some lease), db') ∧
    LockBound sampleRuntime (storageSpec "nfs-1") {} db' := by
  obtain ⟨db', operation, lease, h⟩ := exists_leased (show ((prepare sampleRuntime
    ⟨none, fun _ => true⟩ (fun _ => sampleDraw) (storageSpec "nfs-1") "lab" {}).toOption.any
      fun r => r.1.2.isSome) = true by decide +kernel)
  have hstorable : Storable (storageSpec "nfs-1") "lab" :=
    ⟨by decide, by decide, by decide, by decide, by decide⟩
  exact ⟨db', operation, lease, h, (host_binding_survives_iff sampleRuntime _ _
    (storageSpec "nfs-1") "lab" {} db' operation lease (fun _ _ => rfl) (storageSpec_keys _) h).mpr
      hstorable⟩

/-- A storage whose name contains a secret marker is accepted and locked, and the operation is not
bound to the lock. -/
theorem host_binding_lost_for_token_storage :
    targetIdentity .hostStorage (targetOf (storageSpec "token-store")) =
      .ok ("proxmox_storage", "storage:token-store") ∧
    ∃ db' operation lease,
      prepare sampleRuntime ⟨none, fun _ => true⟩ (fun _ => sampleDraw) (storageSpec "token-store")
        "lab" {} = .ok ((operation, some lease), db') ∧
      ¬ LockBound sampleRuntime (storageSpec "token-store") {} db' := by
  obtain ⟨db', operation, lease, h⟩ := exists_leased (show ((prepare sampleRuntime
    ⟨none, fun _ => true⟩ (fun _ => sampleDraw) (storageSpec "token-store") "lab" {}).toOption.any
      fun r => r.1.2.isSome) = true by decide +kernel)
  refine ⟨by decide, db', operation, lease, h, fun hbound => ?_⟩
  obtain ⟨item, lock, hadmits⟩ := admits_of_prepare (fun _ _ => rfl) h
  have hstorable := storable_of_lockBound hadmits (storageSpec_keys _) hbound
  have hmarker : hasMarker "token-store" = false :=
    hstorable.target "token-store" (by decide)
  exact absurd hmarker (by decide)

end Gjallar.HostAdmission

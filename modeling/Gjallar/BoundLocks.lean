import Gjallar.LeaseFencing
import Gjallar.Traversals

/-!
# The locks an observation commit acts on

The binding of an operation names its target locks: one, or a target and a distinct source.
A commit of an observation releases or marks exactly the open locks of the binding, or raises and
writes nothing.
-/
namespace Gjallar.BoundLocks

open Gjallar.Text Gjallar.Data Gjallar.Tables Gjallar.Operation Gjallar.OperationStore
  Gjallar.TargetLocks Gjallar.RecoveryStore Gjallar.LeaseFencing Gjallar.Traversals

/-- An open VM lock that a reference of the binding names. -/
structure IsVmLock (rt : Runtime) (operation : OperationRecord) (recoveryDetails : Dict)
    (reference : LockReference) (r : OperationLockRecord) : Prop where
  lockId : r.operationLockId = reference.lockId
  owner : r.ownerId = operation.operationId
  lockType : r.operationType = operation.operationType
  scopeType : r.scopeType = .proxmoxLocator
  cluster : r.clusterId = Dict.text rt.repr recoveryDetails "cluster_id"
  vmid : r.vmid = some reference.vmid
  isOpen : r.isOpen = true

/-- An open host configuration lock that the binding names; it has no VMID. -/
structure IsHostLock (operation : OperationRecord) (binding : Dict) (r : OperationLockRecord) :
    Prop where
  lockId : Dict.getD binding "target_lock_id" .null = .str r.operationLockId
  owner : r.ownerId = operation.operationId
  lockType : r.operationType = operation.operationType
  scopeType : r.scopeType = .proxmoxConfiguration
  scopeKey : Dict.getD binding "scope_key" .null = .str r.scopeKey
  cluster : Dict.getD binding "cluster_id" .null = .str r.clusterId
  vmid : r.vmid = none
  isOpen : r.isOpen = true
  operationId : Dict.getD r.evidence "operation_id" .null = .str operation.operationId
  targetType : Dict.getD r.evidence "target_type" .null = .str operation.targetType
  targetId : Dict.getD r.evidence "target_id" .null = .str operation.targetId
  target : (Dict.getD r.evidence "target" .null).eqv (Dict.getD binding "target" .null) = true

/-- The open locks that the binding of an operation in its two ledgers names. -/
inductive IsBound (rt : Runtime) (o : Observation) (row : RecoveryRecord)
    (operation : OperationRecord) (r : OperationLockRecord) : Prop
  | vm (reference : LockReference) (hvm : isHostOperation operation.operationType = false)
      (htype : operation.targetType = "proxmox_vm")
      (hcluster : Dict.text rt.repr (o.effectiveDetails row) "cluster_id" ≠ [])
      (href : reference ∈ lockReferences operation.operationType operation.targetId
        operation.details (o.effectiveDetails row))
      (h : IsVmLock rt operation (o.effectiveDetails row) reference r)
  | host (binding : Dict) (hhost : isHostOperation operation.operationType = true)
      (hkind : row.recoveryKind = operation.operationType.name ++ ("_observation" : Str))
      (hmode : operation.executionMode = .managedApi)
      (hbinding : lockBinding rt operation.operationType operation.targetType operation.targetId
        operation.details (o.effectiveDetails row) = some binding)
      (h : IsHostLock operation binding r)

/-- The rows are all the locks of the binding, and as many as the operation type needs. -/
structure Matched (rt : Runtime) (o : Observation) (row : RecoveryRecord)
    (operation : OperationRecord) (locks : LockTable) (bound : List OperationLockRecord) :
    Prop where
  nodup : (bound.map OperationLockRecord.operationLockId).Nodup
  count : bound.length = expectedLockCount operation.operationType
  iff : ∀ r, r ∈ bound ↔ r ∈ locks ∧ IsBound rt o row operation r

/-! ### References -/

theorem Value.eqv_str_iff (v : Value) (s : Str) : v.eqv (.str s) = true ↔ v = .str s := by
  cases v <;> simp [Value.eqv, Value.number]

/-- There are no references, or one for each lock, with different ids and VMIDs. -/
theorem lockReferences_cases (operationType : OperationType) (targetId : Str)
    (operationDetails recoveryDetails : Dict) :
    let references := lockReferences operationType targetId operationDetails recoveryDetails
    references = [] ∨ (references.length = expectedLockCount operationType ∧
      (references.map LockReference.lockId).Nodup) := by
  intro references
  unfold references lockReferences
  split
  · rename_i vmid lockId _ _
    split
    · exact .inl rfl
    dsimp only
    split
    · rename_i hcount
      split
      · exact .inl rfl
      · exact .inr ⟨hcount.symm, by simp⟩
    rename_i hcount
    have htwo : expectedLockCount operationType = 2 := by
      unfold expectedLockCount at hcount ⊢
      split
      · rfl
      · rename_i h
        exact absurd (if_neg h) hcount
    split
    · exact .inl rfl
    split
    · rename_i related hrelated
      refine .inr ⟨htwo.symm, ?_⟩
      have hne : lockId ≠ related.lockId := by
        unfold relatedReference at hrelated
        split at hrelated
        · split at hrelated
          · split at hrelated
            · rename_i hguards
              cases hrelated
              exact fun heq => hguards.2.2.2.2.2.2 heq.symm
            · cases hrelated
          · cases hrelated
        · cases hrelated
      simpa using hne
    · exact .inl rfl
  · exact .inl rfl

/-! ### The rows a commit acts on -/

theorem isVmLock_iff {rt : Runtime} {operation : OperationRecord} {details : Dict}
    {locks : LockTable} {reference : LockReference} {r : OperationLockRecord} :
    exactVmLock operation (Dict.text rt.repr details "cluster_id") locks reference = some r ↔
      r ∈ locks ∧ IsVmLock rt operation details reference r := by
  rw [exactVmLock_eq_some, Table.get_eq_some]
  constructor
  · rintro ⟨⟨hmem, hid⟩, howner, htype, hscope, hvmid, hopen, hcluster⟩
    exact ⟨hmem, hid, howner, htype, hscope, hcluster, hvmid, hopen⟩
  · rintro ⟨hmem, hid, howner, htype, hscope, hcluster, hvmid, hopen⟩
    exact ⟨⟨hmem, hid⟩, howner, htype, hscope, hvmid, hopen, hcluster⟩

theorem isHostLock_iff {operation : OperationRecord} {binding : Dict} {locks : LockTable}
    {r : OperationLockRecord} :
    exactHostLock operation binding locks = some r ↔
      r ∈ locks ∧ IsHostLock operation binding r := by
  simp only [exactHostLock, Option.filter_eq_some_iff, Bool.and_eq_true, decide_eq_true_eq,
    Value.eqv_str_iff, and_assoc]
  constructor
  · rintro ⟨hfind, h1, h2, h3, h4, h5, h6, h7, h8, h9, h10, h11⟩
    have hid := List.find?_some hfind
    exact ⟨List.mem_of_find?_eq_some hfind, (Value.eqv_str_iff _ _).mp hid, h1, h2, h3, h4, h5,
      h6, h7, h8, h9, h10, h11⟩
  · rintro ⟨hmem, h0, h1, h2, h3, h4, h5, h6, h7, h8, h9, h10, h11⟩
    refine ⟨?_, h1, h2, h3, h4, h5, h6, h7, h8, h9, h10, h11⟩
    obtain ⟨s, hs⟩ : ∃ s, (locks.rows.find? fun s =>
        (Dict.getD binding "target_lock_id" .null).eqv (.str s.operationLockId)) = some s := by
      rw [← Option.isSome_iff_exists, List.find?_isSome]
      exact ⟨r, hmem, (Value.eqv_str_iff _ _).mpr h0⟩
    have hid : Dict.getD binding "target_lock_id" .null = .str s.operationLockId := by
      have heqv := List.find?_some hs
      exact (Value.eqv_str_iff _ _).mp heqv
    rw [h0, Value.str.injEq] at hid
    rw [hs, Table.eq_of_key (List.mem_of_find?_eq_some hs) hmem hid.symm]

section Commit

variable {rt : Runtime} {o : Observation} {row : RecoveryRecord} {operation : OperationRecord}
  {locks : LockTable} {bound : List OperationLockRecord}

/-- The references of a VM operation, in the order in which their rows are locked. -/
def sortedReferences (o : Observation) (row : RecoveryRecord) (operation : OperationRecord) :
    List LockReference :=
  (lockReferences operation.operationType operation.targetId operation.details
    (o.effectiveDetails row)).mergeSort fun a b => decide (a.vmid ≤ b.vmid)

theorem sortedReferences_perm : (sortedReferences o row operation).Perm
    (lockReferences operation.operationType operation.targetId operation.details
      (o.effectiveDetails row)) := List.mergeSort_perm _ _

theorem boundLocks_of_host (h : isHostOperation operation.operationType = true) :
    o.boundLocks rt row operation locks =
      if row.recoveryKind = operation.operationType.name ++ ("_observation" : Str) ∧
          operation.executionMode = .managedApi then
        ((lockBinding rt operation.operationType operation.targetType operation.targetId
          operation.details (o.effectiveDetails row)).bind
            (exactHostLock operation · locks)).toList
      else [] := by
  unfold Observation.boundLocks exactTargetLocks
  by_cases hkind : row.recoveryKind = operation.operationType.name ++ ("_observation" : Str)
  · rw [if_neg fun hc => hc.2 hkind, if_pos h]
    by_cases hmode : operation.executionMode = .managedApi
    · rw [if_pos ⟨hkind, hmode⟩]
      split
      · rename_i hb
        rw [hb]
        rfl
      · rename_i binding hb
        rw [if_neg fun hc => hc hmode, hb]
        rfl
    · rw [if_neg fun hc => hmode hc.2]
      split
      · rfl
      · rw [if_pos hmode]
  · rw [if_pos ⟨h, hkind⟩, if_neg fun hc => hkind hc.1]

theorem boundLocks_of_vm (h : isHostOperation operation.operationType = false) :
    o.boundLocks rt row operation locks =
      if operation.targetType = "proxmox_vm" ∧
          Dict.text rt.repr (o.effectiveDetails row) "cluster_id" ≠ [] then
        ((sortedReferences o row operation).mapM (exactVmLock operation
          (Dict.text rt.repr (o.effectiveDetails row) "cluster_id") locks)).getD []
      else [] := by
  unfold Observation.boundLocks exactTargetLocks sortedReferences
  have hvm : ¬ isHostOperation operation.operationType = true := by rw [h]; exact Bool.false_ne_true
  rw [if_neg fun hc => hvm hc.1, if_neg hvm]
  by_cases htype : operation.targetType = "proxmox_vm"
  · rw [if_neg fun hc => hc htype]
    dsimp only
    by_cases hcluster : Dict.text rt.repr (o.effectiveDetails row) "cluster_id" = []
    · rw [if_pos (.inr hcluster), if_neg fun hc => hc.2 hcluster]
    by_cases hr : lockReferences operation.operationType operation.targetId operation.details
        (o.effectiveDetails row) = []
    · rw [if_pos (.inl hr), if_pos ⟨htype, hcluster⟩, hr, List.mergeSort_nil, List.mapM_nil]
      rfl
    · rw [if_neg fun hc => hc.elim hr hcluster, if_pos ⟨htype, hcluster⟩]
  · rw [if_pos htype, if_neg fun hc => htype hc.1]

/-- The rows found for a list of references are their locks, in the order of the references. -/
theorem rows_of_mapM {details : Dict} {references : List LockReference}
    (h : references.mapM (exactVmLock operation (Dict.text rt.repr details "cluster_id") locks) =
      some bound) :
    bound.map OperationLockRecord.operationLockId = references.map LockReference.lockId ∧
      ∀ r, r ∈ bound ↔ r ∈ locks ∧ ∃ reference ∈ references,
        IsVmLock rt operation details reference r := by
  have hall := mapM_eq_some.mp h
  clear h
  induction hall with
  | nil => simp
  | cons hx _ ih =>
      obtain ⟨hmem, hlock⟩ := isVmLock_iff.mp hx
      obtain ⟨hids, hiff⟩ := ih
      refine ⟨by simp [hids, hlock.lockId], fun r => ?_⟩
      rw [List.mem_cons, hiff]
      constructor
      · rintro (rfl | ⟨hr, reference, href, hrl⟩)
        · exact ⟨hmem, _, List.mem_cons_self, hlock⟩
        · exact ⟨hr, reference, List.mem_cons_of_mem _ href, hrl⟩
      · rintro ⟨hr, reference, href, hrl⟩
        rcases List.mem_cons.mp href with rfl | href
        · exact .inl (Table.eq_of_key hr hmem (hrl.lockId.trans hlock.lockId.symm))
        · exact .inr ⟨hr, reference, href, hrl⟩

theorem isBound_vm_iff (hvm : isHostOperation operation.operationType = false)
    (r : OperationLockRecord) :
    IsBound rt o row operation r ↔ operation.targetType = "proxmox_vm" ∧
      Dict.text rt.repr (o.effectiveDetails row) "cluster_id" ≠ [] ∧
      ∃ reference ∈ sortedReferences o row operation,
        IsVmLock rt operation (o.effectiveDetails row) reference r := by
  constructor
  · rintro (⟨reference, -, htype, hcluster, href, h⟩ | ⟨_, hhost, -, -, -, -⟩)
    · exact ⟨htype, hcluster, reference, sortedReferences_perm.mem_iff.mpr href, h⟩
    · rw [hvm] at hhost
      cases hhost
  · rintro ⟨htype, hcluster, reference, href, h⟩
    exact .vm reference hvm htype hcluster (sortedReferences_perm.mem_iff.mp href) h

/-- As many rows as the operation type needs are all the locks of the binding. -/
theorem matched_of_length
    (h : (o.boundLocks rt row operation locks).length = expectedLockCount operation.operationType) :
    Matched rt o row operation locks (o.boundLocks rt row operation locks) := by
  have hpos : 0 < expectedLockCount operation.operationType := by
    unfold expectedLockCount
    split <;> omega
  cases hhost : isHostOperation operation.operationType with
  | true =>
      rw [boundLocks_of_host hhost] at h ⊢
      split at h
      · rename_i hguard
        rw [if_pos hguard]
        cases hb : (lockBinding rt operation.operationType operation.targetType operation.targetId
            operation.details (o.effectiveDetails row)).bind (exactHostLock operation · locks) with
        | none =>
            rw [hb, Option.toList_none, List.length_nil] at h
            omega
        | some r =>
            rw [hb] at h
            obtain ⟨binding, hbinding, hr⟩ := Option.bind_eq_some_iff.mp hb
            obtain ⟨hmem, hlock⟩ := isHostLock_iff.mp hr
            refine ⟨by simp, h, fun s => ?_⟩
            rw [Option.toList_some, List.mem_singleton]
            constructor
            · rintro rfl
              exact ⟨hmem, .host binding hhost hguard.1 hguard.2 hbinding hlock⟩
            · rintro ⟨hs, ⟨_, hvm, -, -, -, -⟩ | ⟨binding', -, -, -, hbinding', hlock'⟩⟩
              · rw [hhost] at hvm
                cases hvm
              · rw [hbinding, Option.some.injEq] at hbinding'
                subst hbinding'
                have hid := hlock.lockId.symm.trans hlock'.lockId
                rw [Value.str.injEq] at hid
                exact Table.eq_of_key hs hmem hid.symm
      · rw [List.length_nil] at h
        omega
  | false =>
      rw [boundLocks_of_vm hhost] at h ⊢
      split at h
      · rename_i hguard
        rw [if_pos hguard]
        cases hm : (sortedReferences o row operation).mapM (exactVmLock operation
            (Dict.text rt.repr (o.effectiveDetails row) "cluster_id") locks) with
        | none =>
            rw [hm, Option.getD_none, List.length_nil] at h
            omega
        | some rows =>
            rw [hm, Option.getD_some] at h
            obtain ⟨hids, hiff⟩ := rows_of_mapM hm
            refine ⟨?_, h, fun r => ?_⟩
            · rw [Option.getD_some, hids, (sortedReferences_perm.map _).nodup_iff]
              rcases lockReferences_cases operation.operationType operation.targetId
                operation.details (o.effectiveDetails row) with hnil | ⟨-, hnodup⟩
              · rw [hnil]
                exact List.nodup_nil
              · exact hnodup
            · rw [Option.getD_some, hiff, isBound_vm_iff hhost]
              constructor
              · rintro ⟨hr, hlock⟩
                exact ⟨hr, hguard.1, hguard.2, hlock⟩
              · rintro ⟨hr, -, -, hlock⟩
                exact ⟨hr, hlock⟩
      · rw [List.length_nil] at h
        omega

/-- All the locks of the binding are found, or none. -/
theorem boundLocks_cases (rt : Runtime) (o : Observation) (row : RecoveryRecord)
    (operation : OperationRecord) (locks : LockTable) :
    o.boundLocks rt row operation locks = [] ∨
    (o.boundLocks rt row operation locks).length = expectedLockCount operation.operationType := by
  cases hhost : isHostOperation operation.operationType with
  | true =>
      have hone : expectedLockCount operation.operationType = 1 := by
        unfold expectedLockCount
        rw [if_neg]
        rintro (ht | ht) <;> rw [ht] at hhost <;> cases hhost
      rw [boundLocks_of_host hhost, hone]
      split
      · cases (lockBinding rt operation.operationType operation.targetType operation.targetId
            operation.details (o.effectiveDetails row)).bind (exactHostLock operation · locks) with
        | none => exact .inl rfl
        | some r => exact .inr rfl
      · exact .inl rfl
  | false =>
      rw [boundLocks_of_vm hhost]
      split
      · cases hm : (sortedReferences o row operation).mapM (exactVmLock operation
            (Dict.text rt.repr (o.effectiveDetails row) "cluster_id") locks) with
        | none => exact .inl rfl
        | some rows =>
            rw [Option.getD_some, ← (mapM_eq_some.mp hm).length_eq, sortedReferences_perm.length_eq]
            rcases lockReferences_cases operation.operationType operation.targetId
              operation.details (o.effectiveDetails row) with hnil | ⟨hlen, -⟩
            · left
              have hnil' : sortedReferences o row operation = [] :=
                List.Perm.eq_nil (hnil ▸ sortedReferences_perm)
              rw [hnil', List.mapM_nil] at hm
              cases hm
              rfl
            · exact .inr hlen
      · exact .inl rfl

end Commit

/-! ### The effect of a commit -/

theorem commit_of_transact {rt : Runtime} {draw : Draw} {lease : RecoveryLease} {o : Observation}
    {db : Db} {reply : Reply}
    (h : (transact rt draw (.commitObservation lease o) db).1 = .ok reply) :
    ∃ result, commitObservation rt draw lease o db =
      .ok (result, (transact rt draw (.commitObservation lease o) db).2) := by
  have hp := transact_eq_ok h
  simp only [Call.perform, bind_eq_ok, pure_eq_ok, Prod.mk.injEq] at hp
  obtain ⟨⟨⟨operation, item⟩, db'⟩, hcall, -, rfl⟩ := hp
  exact ⟨_, hcall⟩

section Effect

variable {rt : Runtime} {draw : Draw} {lease : RecoveryLease} {o : Observation} {db db' : Db}
  {result : OperationSnapshot × RecoveryItem}

/-- The operation and the item of a commit, and the lock rows it writes back. -/
theorem locks_of_commit (h : commitObservation rt draw lease o db = .ok (result, db')) :
    ∃ row operation, db.recovery.get lease.operationId = some row ∧
      db.operations.get lease.operationId = some operation ∧
      o.checkLocks rt lease row operation (o.boundLocks rt row operation db.locks) = .ok () ∧
      db.locks.putAll (o.lockUpdates draw lease (o.boundLocks rt row operation db.locks)) =
        some db'.locks := by
  obtain ⟨operation', item⟩ := result
  obtain ⟨status, row, operation, p, jobs, mid, recovery, locks, -, hrow, -, hop, -, hcheck, -, -,
    happend, -, hput, -, rfl⟩ := commitObservation_eq_ok h
  obtain ⟨_, _, _, -, -, -, -, -, -, rfl⟩ := appendInSession_eq_ok happend
  exact ⟨row, operation, hrow, hop, hcheck, hput⟩

theorem count_of_checkLocks {row : RecoveryRecord} {operation : OperationRecord}
    {locks : List OperationLockRecord} {u : Unit}
    (h : o.checkLocks rt lease row operation locks = .ok u)
    (hexact : o.releaseTargetLock = true ∨ o.nextStatus = some .needsReconciliation ∧
      o.requireExactReconciliationLock = true) :
    locks.length = expectedLockCount operation.operationType := by
  have hchecks : ¬ (o.releaseTargetLock = true ∧
        locks.length ≠ expectedLockCount operation.operationType) ∧
      ¬ (o.nextStatus = some .needsReconciliation ∧
        (expectedLockCount operation.operationType < locks.length ∨
          o.requireExactReconciliationLock = true ∧
            locks.length ≠ expectedLockCount operation.operationType)) := by
    unfold Observation.checkLocks at h
    by_cases hbind : o.bindTargetLock = true
    · simp only [hbind, if_true, bind_eq_ok, raiseIf_eq_ok] at h
      obtain ⟨_, -, _, -, _, -, _, hrelease, hnext⟩ := h
      exact ⟨hrelease, hnext⟩
    · simp only [hbind, Bool.false_eq_true, if_false, bind_eq_ok, raiseIf_eq_ok] at h
      obtain ⟨_, -, _, -, _, hrelease, hnext⟩ := h
      exact ⟨hrelease, hnext⟩
  obtain ⟨hrelease, hnext⟩ := hchecks
  rcases hexact with hr | ⟨hn, hr⟩
  · by_contra hne
    exact hrelease ⟨hr, hne⟩
  · by_contra hne
    exact hnext ⟨hn, .inr ⟨hr, hne⟩⟩

/-- Writing back all the locks of a binding changes their rows and no others. -/
theorem Matched.get_putAll {row : RecoveryRecord} {operation : OperationRecord}
    {locks locks' : LockTable} {bound : List OperationLockRecord}
    (h : Matched rt o row operation locks bound) {f : OperationLockRecord → OperationLockRecord}
    (hput : locks.putAll (bound.map f) = some locks')
    (hf : ∀ r, (f r).operationLockId = r.operationLockId) :
    (∀ r ∈ bound, locks'.get r.operationLockId = some (f r)) ∧
      ∀ id, locks'.get id ≠ locks.get id → ∃ r ∈ bound, r.operationLockId = id := by
  have hkeys : (bound.map f).map OperationLockRecord.operationLockId =
      bound.map OperationLockRecord.operationLockId := by
    rw [List.map_map]
    exact List.map_congr_left fun r _ => hf r
  obtain ⟨hother, hstored⟩ := Table.get_putAll (hkeys ▸ h.nodup) hput
  constructor
  · intro r hr
    have hget := Table.get_of_mem ((h.iff r).mp hr).1
    rw [← hf r]
    refine hstored (f r) (List.mem_map_of_mem hr) ?_
    rw [hf r, hget]
    rfl
  · intro id hid
    by_contra hnone
    refine hid (hother id fun r' hr' heq => hnone ?_)
    obtain ⟨r, hr, rfl⟩ := List.mem_map.mp hr'
    exact ⟨r, hr, (hf r).symm.trans heq⟩

end Effect

/-- A commit that releases, or that marks reconciliation exactly, does so with all the locks of the
binding and with no others. It never changes another lock row. When the binding is not matched
exactly, such a commit raises and nothing is written. -/
theorem commit_touches_bound_locks (rt : Runtime) (draw : Draw) (lease : RecoveryLease)
    (o : Observation) (db : Db) :
    let result := (transact rt draw (.commitObservation lease o) db).1
    let db' := (transact rt draw (.commitObservation lease o) db).2
    let exact := o.nextStatus = some .needsReconciliation ∧ o.requireExactReconciliationLock = true
    (∀ reply, result = .ok reply → ∃ row operation,
      db.recovery.get lease.operationId = some row ∧
      db.operations.get lease.operationId = some operation ∧
      (o.releaseTargetLock = true → ∃ bound, Matched rt o row operation db.locks bound ∧
        ∀ r ∈ bound, db'.locks.get r.operationLockId = some (o.releasedLock draw lease r)) ∧
      (o.releaseTargetLock = false → exact → ∃ bound, Matched rt o row operation db.locks bound ∧
        ∀ r ∈ bound, db'.locks.get r.operationLockId = some (o.reconciledLock draw lease r)) ∧
      ∀ id, db'.locks.get id ≠ db.locks.get id → ∃ r, db.locks.get id = some r ∧
        IsBound rt o row operation r ∧
        (o.releaseTargetLock = true ∧ db'.locks.get id = some (o.releasedLock draw lease r) ∨
          o.releaseTargetLock = false ∧ o.nextStatus = some .needsReconciliation ∧
            db'.locks.get id = some (o.reconciledLock draw lease r))) ∧
    (o.releaseTargetLock = true ∨ exact →
      (∀ row operation, db.recovery.get lease.operationId = some row →
        db.operations.get lease.operationId = some operation →
        ¬ ∃ bound, Matched rt o row operation db.locks bound) →
      (∃ e, result = .error e) ∧ db' = db) := by
  intro result db' exact
  constructor
  · intro reply hreply
    obtain ⟨committed, hcommit⟩ := commit_of_transact hreply
    obtain ⟨row, operation, hrow, hop, hcheck, hput⟩ := locks_of_commit hcommit
    unfold Observation.lockUpdates at hput
    refine ⟨row, operation, hrow, hop, fun hrelease => ?_, fun hrelease hexact => ?_,
      fun id hid => ?_⟩
    · have hm := matched_of_length (count_of_checkLocks hcheck (.inl hrelease))
      rw [if_pos hrelease] at hput
      exact ⟨_, hm, (hm.get_putAll hput fun _ => rfl).1⟩
    · have hm := matched_of_length (count_of_checkLocks hcheck (.inr hexact))
      rw [if_neg (by simp [hrelease]), if_pos hexact.1] at hput
      exact ⟨_, hm, (hm.get_putAll hput fun _ => rfl).1⟩
    · rcases boundLocks_cases rt o row operation db.locks with hnil | hlen
      · rw [hnil, List.map_nil, List.map_nil, ite_self, ite_self] at hput
        have hsame : db.locks = db'.locks := Option.some.inj hput
        exact absurd (by rw [hsame]) hid
      have hm := matched_of_length hlen
      have hchanged : ∀ r ∈ o.boundLocks rt row operation db.locks,
          db.locks.get r.operationLockId = some r ∧ IsBound rt o row operation r := fun r hr =>
        ⟨Table.get_of_mem ((hm.iff r).mp hr).1, ((hm.iff r).mp hr).2⟩
      by_cases hrelease : o.releaseTargetLock = true
      · rw [if_pos hrelease] at hput
        obtain ⟨hget, hframe⟩ := hm.get_putAll hput fun _ => rfl
        obtain ⟨r, hr, rfl⟩ := hframe id hid
        exact ⟨r, (hchanged r hr).1, (hchanged r hr).2, .inl ⟨hrelease, hget r hr⟩⟩
      rw [if_neg hrelease] at hput
      by_cases hnext : o.nextStatus = some .needsReconciliation
      · rw [if_pos hnext] at hput
        obtain ⟨hget, hframe⟩ := hm.get_putAll hput fun _ => rfl
        obtain ⟨r, hr, rfl⟩ := hframe id hid
        exact ⟨r, (hchanged r hr).1, (hchanged r hr).2,
          .inr ⟨Bool.eq_false_iff.mpr hrelease, hnext, hget r hr⟩⟩
      · rw [if_neg hnext] at hput
        have hsame : db.locks = db'.locks := Option.some.inj hput
        exact absurd (by rw [hsame]) hid
  · intro hexact hnone
    unfold result db' transact
    cases hp : Call.perform rt draw db (.commitObservation lease o) with
    | error e => exact ⟨⟨e, rfl⟩, rfl⟩
    | ok reply =>
        simp only [Call.perform, bind_eq_ok] at hp
        obtain ⟨⟨⟨operation', item⟩, last⟩, hcommit, -⟩ := hp
        obtain ⟨row, operation, hrow, hop, hcheck, -⟩ := locks_of_commit hcommit
        have hm := matched_of_length (count_of_checkLocks hcheck hexact)
        exact absurd ⟨_, hm⟩ (hnone row operation hrow hop)

end Gjallar.BoundLocks

import Gjallar.ExecutionEffects
import Gjallar.GuidedContract

/-!
# What a command does to the tables

The effect of each command of the guided workflow on operations, recovery items and locks, and
what the replies say about the database they come from.
-/
namespace Gjallar.GuidedSystem

open Gjallar.Text Gjallar.Data Gjallar.Tables Gjallar.Redaction Gjallar.Operation
  Gjallar.OperationStore Gjallar.OperationLedger Gjallar.TargetLocks Gjallar.RecoveryStore
  Gjallar.RecoveryBinding Gjallar.Processes Gjallar.GuidedQm Gjallar.GuidedWorkflow
open Gjallar.Execution (Settles Reads exactLocator)

/-! ### Claims -/

/-- How a claim may rewrite a recovery item. -/
structure Reclaimed (r r' : RecoveryRecord) : Prop where
  kind : r'.recoveryKind = r.recoveryKind
  details : r'.details = r.details
  completed : r'.status = .completed ↔ r.status = .completed

theorem Reclaimed.refl (r : RecoveryRecord) : Reclaimed r r := ⟨rfl, rfl, .rfl⟩

theorem claimRows_rewrites {draw : Draw} {owner : Str} {expiresAt : Instant} {t : RecoveryTable}
    {rows : List RecoveryRecord} (hrows : ∀ r ∈ rows, r ∈ t ∧ r.status ≠ .completed) {i : ℕ}
    {u u' : RecoveryTable} {leases : List RecoveryLease} (hu : t.Rewrites Reclaimed u)
    (h : claimRows draw owner expiresAt i rows u = .ok (leases, u')) : t.Rewrites Reclaimed u' := by
  induction rows generalizing i u leases with
  | nil =>
      simp only [claimRows, Except.ok.injEq, Prod.mk.injEq] at h
      exact h.2 ▸ hu
  | cons row rows ih =>
      rw [List.forall_mem_cons] at hrows
      simp only [claimRows, bind_eq_ok, orRaise_eq_ok, pure_eq_ok, Prod.mk.injEq] at h
      obtain ⟨mid, hput, ⟨ls, last⟩, hclaim, -, rfl⟩ := h
      have hclaimed : Reclaimed row (claimed owner (leaseToken draw i) draw.now expiresAt row) :=
        ⟨rfl, rfl, ⟨fun hc => (by cases hc), fun hc => absurd hc hrows.1.2⟩⟩
      exact ih hrows.2 (hu.put hrows.1.1 hclaimed hput rfl) hclaim

/-! ### The locks of a guided unlock -/

/-- The lock of an operation that its recovery details name. -/
structure NamesLock (rt : Runtime) (row : OperationRecord) (details : Dict) (locks : LockTable)
    (lock : OperationLockRecord) : Prop where
  id : Dict.get details "target_lock_id" = some (.str lock.operationLockId)
  mem : locks.get lock.operationLockId = some lock
  owner : lock.ownerId = row.operationId
  cluster : lock.clusterId = Dict.text rt.repr details "cluster_id"

/-- An operation with one lock is bound to it by its recovery details. -/
theorem lockReferences_single {operationType : OperationType} {targetId : Str}
    {details recoveryDetails : Dict} (hcount : expectedLockCount operationType = 1)
    (hne : lockReferences operationType targetId details recoveryDetails ≠ []) :
    ∃ vmid lockId, Dict.get recoveryDetails "target_lock_id" = some (.str lockId) ∧
      lockReferences operationType targetId details recoveryDetails = [⟨lockId, vmid⟩] := by
  unfold lockReferences at hne ⊢
  split at hne
  · rename_i vmid lockId hvmid hid
    rw [hid]
    dsimp only at hne ⊢
    split at hne
    · exact absurd rfl hne
    rename_i hblank
    split at hne
    · exact absurd rfl hne
    rename_i hextra
    exact ⟨vmid, lockId, rfl, by rw [if_neg hblank, if_pos hcount, if_neg hextra]⟩
  · exact absurd rfl hne

/-- A commit acts on at most one lock of a guided unlock. -/
theorem boundLocks_guided {rt : Runtime} {o : Observation} {item : RecoveryRecord}
    {row : OperationRecord} {locks : LockTable} (htype : row.operationType = .guidedQmVmUnlock) :
    o.boundLocks rt item row locks = [] ∨ ∃ lock, o.boundLocks rt item row locks = [lock] ∧
      NamesLock rt row (o.effectiveDetails item) locks lock ∧ lock.isOpen = true := by
  have hhost : isHostOperation row.operationType = false := by rw [htype]; rfl
  have hcount : expectedLockCount row.operationType = 1 := by rw [htype]; rfl
  unfold Observation.boundLocks exactTargetLocks
  rw [if_neg (by simp [hhost]), hhost, if_neg Bool.false_ne_true]
  split
  · exact .inl rfl
  dsimp only
  split
  · exact .inl rfl
  rename_i hne
  rw [not_or] at hne
  obtain ⟨vmid, lockId, hid, hrefs⟩ := lockReferences_single hcount hne.1
  rw [hrefs, List.mergeSort_singleton, List.mapM_cons, List.mapM_nil]
  cases hlock : exactVmLock row (Dict.text rt.repr (o.effectiveDetails item) "cluster_id") locks
      ⟨lockId, vmid⟩ with
  | none => exact .inl rfl
  | some lock =>
      obtain ⟨hget, howner, -, -, -, hopen, hcluster⟩ := exactVmLock_eq_some.mp hlock
      have hkey : lock.operationLockId = lockId := Table.key_of_get hget
      exact .inr ⟨lock, rfl, ⟨hkey ▸ hid, hkey ▸ hget, howner, hcluster⟩, hopen⟩

/-! ### Effects -/

/-- What a commit found and wrote. -/
structure Committed (rt : Runtime) (draw : Draw) (lease : RecoveryLease) (o : Observation)
    (db db' : Db) (row : OperationRecord) (item : RecoveryRecord) (status : RecoveryStatus) :
    Prop where
  named : RecoveryStatus.ofName o.recoveryStatus = some status
  found : db.recovery.get lease.operationId = some item
  leased : item.status = .leased
  before : db.operations.get lease.operationId = some row
  version : ∀ v ∈ o.expectedOperationVersion, row.version = v
  expected : ∀ expected ∈ o.expectedStatuses, row.status ∈ expected
  transition : ∀ next ∈ o.nextStatus, next ∈ row.status.allowed
  checked : o.checkLocks rt lease item row (o.boundLocks rt item row db.locks) = .ok ()
  operations : db.operations.put (applyProjection rt draw row (o.append {})) = some db'.operations
  recovery : db.recovery.put (o.recoveryRow draw status item {}) = some db'.recovery
  locks : db.locks.putAll (o.lockUpdates draw lease (o.boundLocks rt item row db.locks)) =
    some db'.locks

theorem committed_of_ok {rt : Runtime} {draw : Draw} {lease : RecoveryLease} {o : Observation}
    {db db' : Db} {answer : OperationSnapshot × RecoveryItem} (hprojector : o.projector = none)
    (h : commitObservation rt draw lease o db = .ok (answer, db')) :
    ∃ row item status, Committed rt draw lease o db db' row item status ∧
      answer = (applyProjection rt draw row (o.append {}),
        itemOf (o.recoveryRow draw status item {})) := by
  obtain ⟨answer, returned⟩ := answer
  obtain ⟨status, item, row, p, jobs, mid, recovery, locks, hs, hitem, hown, hrow, hchecked, hlocks,
    hproject, -, happend, hput, hputAll, rfl, rfl⟩ := commitObservation_eq_ok h
  rw [Observation.project, hprojector, Except.ok.injEq, Prod.mk.injEq] at hproject
  obtain ⟨rfl, rfl⟩ := hproject
  obtain ⟨r, events, operations, hr, hexpected, hnext, -, rfl, hputOp, rfl⟩ :=
    appendInSession_eq_ok happend
  rw [hrow] at hr
  cases hr
  simp only [Observation.checkOperation, bind_eq_ok, raiseIf_eq_ok, not_or] at hchecked
  obtain ⟨-, ⟨hversion, -⟩, -⟩ := hchecked
  simp only [ownsRow, Bool.and_eq_true, decide_eq_true_eq] at hown
  refine ⟨row, item, status, ⟨hs, hitem, hown.1.1.1, hrow, fun v hv => ?_, hexpected, hnext,
    hlocks, hputOp, hput, hputAll⟩, rfl⟩
  by_contra hne
  exact hversion ⟨v, hv, hne⟩

/-- The item that a repeated preparation writes. -/
def reprepared (draw : Draw) (spec : RecoverySpec) (owner : Str) (leaseTime : Instant)
    (item : RecoveryRecord) : RecoveryRecord :=
  { claimed owner (leaseToken draw 0) draw.now (leaseExpiry draw.now leaseTime) item with
    availableAt := draw.now
    details := Dict.merge item.details (sanitized spec.details) }

/-- Nothing in the database refuses the acquisition of a target lock: no open lock stands against
it, and the connection admits it to a process that has pinned no selection and has the key. -/
def grants (rt : Runtime) (cluster targetType targetId ownerId : Str) (db : Db) : Bool :=
  decide (targetType = ("proxmox_vm" : Str)) && (exactLocator targetId).any fun vmid =>
    ((acquisition cluster vmid ownerId).precheck rt db.locks).isOk &&
      ((acquisition cluster vmid ownerId).admission ⟨none, fun _ => true⟩ db.connections).isOk &&
        ((acquisition cluster vmid ownerId).hostCheck db.locks).isOk

theorem admission_of_process {a : Acquisition} {process : Admission.Process}
    {connections : Admission.Connections} (h : a.admission process connections = .ok ()) :
    a.admission ⟨none, fun _ => true⟩ connections = .ok () := by
  have hadmits : Admission.admitMutation process connections a.cluster a.vmid a.operationType =
      .ok () := by
    unfold Acquisition.admission at h
    split at h
    · assumption
    · cases h
  have hpermissive : Admission.admitMutation ⟨none, fun _ => true⟩ connections a.cluster a.vmid
      a.operationType = .ok () := by
    unfold Admission.admitMutation at hadmits ⊢
    obtain ⟨-, -, hrest⟩ := bind_eq_ok.mp hadmits
    refine bind_eq_ok.mpr ⟨(), by simp [Admission.pinSelection], ?_⟩
    cases hconnection : connections.connection with
    | none => rfl
    | some connection =>
        rw [hconnection] at hrest
        dsimp only at hrest ⊢
        obtain ⟨_, hopen, hrest⟩ := bind_eq_ok.mp hrest
        refine bind_eq_ok.mpr ⟨(), hopen, ?_⟩
        split at hrest
        · rename_i hlegacy
          rw [if_pos hlegacy]
          rfl
        · rename_i hlegacy
          rw [if_neg hlegacy]
          obtain ⟨credential, hcredential, hrest⟩ := bind_eq_ok.mp hrest
          obtain ⟨_, hconfiguration, -⟩ := bind_eq_ok.mp hrest
          exact bind_eq_ok.mpr ⟨credential, hcredential, bind_eq_ok.mpr ⟨(), hconfiguration, rfl⟩⟩
  unfold Acquisition.admission
  rw [hpermissive]

/-- What a command does to operations, recovery items and locks. -/
inductive Effect (rt : Runtime) (cluster : Str) (db db' : Db) : Command → Prop
  | kept {c} (operations : db'.operations = db.operations) (recovery : db'.recovery = db.recovery)
      (locks : db'.locks = db.locks) : Effect rt cluster db db' c
  | created {spec payload} (draw : Draw)
      (operations : db.operations.insert (newOperation rt draw spec payload) = some db'.operations)
      (recovery : db'.recovery = db.recovery) (locks : db'.locks = db.locks) :
      Effect rt cluster db db' (.create spec payload)
  | appended {id a} (draw : Draw) (row : OperationRecord)
      (before : db.operations.get id = some row)
      (expected : ∀ expected ∈ a.expectedStatuses, row.status ∈ expected)
      (transition : ∀ next ∈ a.nextStatus, next ∈ row.status.allowed)
      (operations : db.operations.put (applyProjection rt draw row a) = some db'.operations)
      (recovery : db'.recovery = db.recovery) (locks : db'.locks = db.locks) :
      Effect rt cluster db db' (.append id a)
  | acquired {targetId ownerId} (draw : Draw) (vmid : ℤ)
      (locator : exactLocator targetId = some vmid)
      (granted : grants rt cluster "proxmox_vm" targetId ownerId db = true)
      (operations : db'.operations = db.operations) (recovery : db'.recovery = db.recovery)
      (locks : db.locks.insert ((acquisition cluster vmid ownerId).row draw) = some db'.locks) :
      Effect rt cluster db db' (.acquire "proxmox_vm" targetId ownerId)
  | claimed {c} (operations : db'.operations = db.operations) (locks : db'.locks = db.locks)
      (recovery : db.recovery.Rewrites Reclaimed db'.recovery) : Effect rt cluster db db' c
  | prepared {spec owner time version checksum} (draw : Draw) (row : OperationRecord)
      (before : db.operations.get spec.operationId = some row) (fenced : row.version = version)
      (operations : db'.operations = db.operations) (locks : db'.locks = db.locks)
      (recovery : db.recovery.insert (firstLease draw spec (strip owner) time) = some db'.recovery ∨
        ∃ item, db.recovery.get spec.operationId = some item ∧ item.status ≠ .completed ∧
          db.recovery.put (reprepared draw spec (strip owner) time item) = some db'.recovery) :
      Effect rt cluster db db' (.prepareAndClaim spec owner time version checksum)
  | committed {lease o} (draw : Draw) (row : OperationRecord) (item : RecoveryRecord)
      (status : RecoveryStatus) (h : Committed rt draw lease o db db' row item status) :
      Effect rt cluster db db' (.commit lease o)

section

variable {rt : Runtime} {cluster : Str} {db db' : Db}

theorem effect_create {spec : OperationSpec} {payload : Dict} {r : Reply (.create spec payload)}
    (h : Exec rt cluster db (.create spec payload) r db') :
    Effect rt cluster db db' (.create spec payload) := by
  obtain ⟨draw, hsettles⟩ := h
  rcases hsettles.cases_db with rfl | ⟨answer, hrun⟩
  · exact .kept rfl rfl rfl
  unfold create at hrun
  split at hrun
  · simp only [bind_eq_ok, pure_eq_ok, Prod.mk.injEq] at hrun
    obtain ⟨_, -, -, rfl⟩ := hrun
    exact .kept rfl rfl rfl
  dsimp only at hrun
  split at hrun
  · rename_i operations events hinsert _
    simp only [Except.ok.injEq, Prod.mk.injEq] at hrun
    obtain ⟨-, rfl⟩ := hrun
    exact .created draw hinsert rfl rfl
  · split at hrun
    · simp only [bind_eq_ok, pure_eq_ok, Prod.mk.injEq] at hrun
      obtain ⟨_, -, -, rfl⟩ := hrun
      exact .kept rfl rfl rfl
    · cases hrun

theorem effect_acquire {targetType targetId ownerId : Str}
    {r : Reply (.acquire targetType targetId ownerId)}
    (h : Exec rt cluster db (.acquire targetType targetId ownerId) r db') :
    Effect rt cluster db db' (.acquire targetType targetId ownerId) := by
  simp only [Exec] at h
  split at h
  · rename_i vmid hlocator
    split at h
    · rename_i htype
      subst htype
      obtain ⟨process, draw, hsettles⟩ := h
      rcases hsettles.cases_db with rfl | ⟨answer, hrun⟩
      · exact .kept rfl rfl rfl
      simp only [acquireLock, acquire, Acquisition.insert, bind_eq_ok, pure_eq_ok,
        Prod.mk.injEq] at hrun
      obtain ⟨⟨lock, mid⟩, ⟨_, hcheck, _, hadmission, _, hhost, ⟨_, locks⟩, hinsert, -, rfl⟩, -,
        rfl⟩ := hrun
      have hgranted : grants rt cluster "proxmox_vm" targetId ownerId db = true := by
        simp only [grants, hlocator, Option.any_some, hcheck, admission_of_process hadmission,
          hhost, Except.isOk, Except.toBool, decide_true, Bool.and_self]
      split at hinsert
      · rename_i hrow
        simp only [Except.ok.injEq, Prod.mk.injEq] at hinsert
        obtain ⟨-, rfl⟩ := hinsert
        exact .acquired draw vmid hlocator hgranted rfl rfl hrow
      · cases hinsert
    · rw [h.1]
      exact .kept rfl rfl rfl
  · rw [h.1]
    exact .kept rfl rfl rfl

theorem effect_prepareAndClaim {spec : RecoverySpec} {owner : Str} {time : Instant} {version : ℕ}
    {checksum : Str} {r : Reply (.prepareAndClaim spec owner time version checksum)}
    (h : Exec rt cluster db (.prepareAndClaim spec owner time version checksum) r db') :
    Effect rt cluster db db' (.prepareAndClaim spec owner time version checksum) := by
  obtain ⟨draw, hsettles⟩ := h
  rcases hsettles.cases_db with rfl | ⟨lease, hrun⟩
  · exact .kept rfl rfl rfl
  simp only [prepareAndClaim, bind_eq_ok, raiseIf_eq_ok] at hrun
  obtain ⟨_, -, _, hidentity, hrun⟩ := hrun
  have hfenced : ∃ row, db.operations.get spec.operationId = some row ∧ row.version = version := by
    unfold assertOperationIdentity at hidentity
    split at hidentity
    · cases hidentity
    · rename_i row hrow
      rw [raiseIf_eq_ok, not_or] at hidentity
      refine ⟨row, hrow, ?_⟩
      by_contra hne
      exact hidentity.1 ⟨version, rfl, hne⟩
  obtain ⟨row, hrow, hversion⟩ := hfenced
  split at hrun
  · simp only [bind_eq_ok, orRaise_eq_ok, pure_eq_ok, Prod.mk.injEq] at hrun
    obtain ⟨recovery, hinsert, -, rfl⟩ := hrun
    exact .prepared draw row hrow hversion rfl rfl (.inl hinsert)
  · rename_i item hitem
    simp only [bind_eq_ok, raiseIf_eq_ok, orRaise_eq_ok, pure_eq_ok, Prod.mk.injEq] at hrun
    obtain ⟨-, -, -, -, -, hcompleted, recovery, hput, -, rfl⟩ := hrun
    exact .prepared draw row hrow hversion rfl rfl (.inr ⟨item, hitem, hcompleted, hput⟩)

theorem effect_claimOperation {id owner : Str} {time : Instant} {version : ℕ} {checksum : Str}
    {r : Reply (.claimOperation id owner time version checksum)}
    (h : Exec rt cluster db (.claimOperation id owner time version checksum) r db') :
    Effect rt cluster db db' (.claimOperation id owner time version checksum) := by
  obtain ⟨draw, hsettles⟩ := h
  rcases hsettles.cases_db with rfl | ⟨lease, hrun⟩
  · exact .kept rfl rfl rfl
  simp only [claimOperation, bind_eq_ok, raiseIf_eq_ok, orRaise_eq_ok, pure_eq_ok,
    Prod.mk.injEq] at hrun
  obtain ⟨-, -, -, -, item, hitem, -, -, -, hfree, recovery, hput, -, rfl⟩ := hrun
  refine .claimed rfl rfl (Table.rewrites_put Reclaimed.refl (Table.mem_of_get hitem) ?_ hput rfl)
  exact ⟨rfl, rfl, ⟨fun hc => (by cases hc), fun hc => absurd (.inr hc) hfree⟩⟩

theorem effect_claimDue {owner : Str} {time : Instant} {limit : ℤ}
    {r : Reply (.claimDue owner time limit)}
    (h : Exec rt cluster db (.claimDue owner time limit) r db') :
    Effect rt cluster db db' (.claimDue owner time limit) := by
  obtain ⟨draw, locked, hsettles⟩ := h
  rcases hsettles.cases_db with rfl | ⟨leases, hrun⟩
  · exact .kept rfl rfl rfl
  simp only [claimDue, bind_eq_ok, raiseIf_eq_ok, pure_eq_ok, Prod.mk.injEq] at hrun
  obtain ⟨-, -, ⟨ls, recovery⟩, hclaim, -, rfl⟩ := hrun
  refine .claimed rfl rfl (claimRows_rewrites (fun row hrow => ?_) (.refl Reclaimed.refl _) hclaim)
  obtain ⟨hget, hdue⟩ := LeaseFencing.mem_dueRows hrow
  exact ⟨Table.mem_of_get hget, (LeaseFencing.status_of_isDue hdue).1⟩

/-- Every command of the workflow has one of the effects; a commit has no projector. -/
theorem exec_effect {c : Command} {r : Reply c} (h : Exec rt cluster db c r db')
    (hprojector : ∀ lease o, c = .commit lease o → o.projector = none) :
    Effect rt cluster db db' c := by
  cases c with
  | create spec payload => exact effect_create h
  | append id a =>
      obtain ⟨draw, hsettles⟩ := h
      rcases hsettles.cases_db with rfl | ⟨answer, hrun⟩
      · exact .kept rfl rfl rfl
      · obtain ⟨row, _, _, hrow, hexpected, hnext, -, rfl, hput, rfl⟩ := appendInSession_eq_ok hrun
        exact .appended draw row hrow hexpected hnext hput rfl rfl
  | acquire targetType targetId ownerId => exact effect_acquire h
  | prepareAndClaim spec owner time version checksum => exact effect_prepareAndClaim h
  | claimOperation id owner time version checksum => exact effect_claimOperation h
  | claimDue owner time limit => exact effect_claimDue h
  | commit lease o =>
      obtain ⟨draw, hsettles⟩ := h
      rcases hsettles.cases_db with rfl | ⟨answer, hrun⟩
      · exact .kept rfl rfl rfl
      · obtain ⟨row, item, status, hc, -⟩ := committed_of_ok (hprojector lease o rfl) hrun
        exact .committed draw row item status hc
  | getOperation id => rw [h.1]; exact .kept rfl rfl rfl
  | listEvents id => rw [h.1]; exact .kept rfl rfl rfl
  | currentLock targetType targetId => rw [h.1]; exact .kept rfl rfl rfl
  | getRecovery id => rw [h.1]; exact .kept rfl rfl rfl
  | taskAudit nodeId => rw [show db' = db from h]; exact .kept rfl rfl rfl
  | activeTasks nodeId vmid => rw [show db' = db from h]; exact .kept rfl rfl rfl
  | vmConfig nodeId vmid => rw [show db' = db from h]; exact .kept rfl rfl rfl
  | clock => rw [h.1]; exact .kept rfl rfl rfl

end

/-! ### Replies -/

theorem claimRows_leases {draw : Draw} {owner : Str} {expiresAt : Instant} {i : ℕ}
    {rows : List RecoveryRecord} {t t' : RecoveryTable} {leases : List RecoveryLease}
    (hnodup : (rows.map RecoveryRecord.operationId).Nodup)
    (hrows : ∀ row ∈ rows, t.get row.operationId = some row)
    (hopen : ∀ row ∈ rows, row.status ≠ .completed)
    (h : claimRows draw owner expiresAt i rows t = .ok (leases, t')) :
    ∀ lease ∈ leases, ∃ row, t'.get lease.operationId = some row ∧ itemOf row = lease.item := by
  induction rows generalizing i t leases with
  | nil =>
      simp only [claimRows, Except.ok.injEq, Prod.mk.injEq] at h
      simp [← h.1]
  | cons row rows ih =>
      simp only [claimRows, bind_eq_ok, orRaise_eq_ok, pure_eq_ok, Prod.mk.injEq] at h
      obtain ⟨mid, hput, ⟨rest, final⟩, hrest, rfl, rfl⟩ := h
      rw [List.map_cons, List.nodup_cons] at hnodup
      rw [List.forall_mem_cons] at hrows hopen
      have hne : ∀ s ∈ rows, s.operationId ≠ row.operationId := fun s hs heq =>
        hnodup.1 (heq ▸ List.mem_map_of_mem hs)
      have hmid : ∀ s ∈ rows, mid.get s.operationId = some s := fun s hs => by
        have hother : ¬ (claimed owner (leaseToken draw i) draw.now expiresAt row).operationId =
            s.operationId := fun heq => hne s hs heq.symm
        rw [Table.get_put hput, if_neg hother, hrows.2 s hs]
      rw [List.forall_mem_cons]
      refine ⟨⟨_, ?_, rfl⟩, ih hnodup.2 hmid hopen.2 hrest⟩
      change final.get row.operationId = _
      rw [(LeaseFencing.claimRows_spec hnodup.2 hmid hopen.2 hrest).2.1 _ hne]
      exact Table.get_put_self hrows.1 hput rfl

/-- The items an event returns, each with the lease on it. -/
def returnedItems : Event Command Reply → List RecoveryItem
  | ⟨.claimDue .., .ok leases⟩ => leases.map RecoveryLease.item
  | e => (returnedItem e).toList

/-- The target lock an event returns. -/
def returnedLock : Event Command Reply → Option TargetLockHandle
  | ⟨.currentLock targetType _, .ok lock⟩ =>
    if targetType = ("proxmox_vm" : Str) then lock else none
  | ⟨.acquire .., .ok lock⟩ => some lock
  | _ => none

section

theorem resolveExisting_eq_ok {existing : OperationRecord} {spec : OperationSpec}
    {answer : OperationSnapshot × Bool} (h : resolveExisting existing spec = .ok answer) :
    answer.1 = existing := by
  unfold resolveExisting at h
  split at h
  · cases h
    rfl
  · cases h

/-- A creation returns a stored row. -/
theorem create_stored {rt : Runtime} {draw : Draw} {spec : OperationSpec} {payload : Dict}
    {db db' : Db} {answer : OperationSnapshot × Bool}
    (h : create rt draw spec db payload = .ok (answer, db')) :
    db'.operations.get answer.1.operationId = some answer.1 := by
  unfold create at h
  split at h
  · rename_i existing hfound
    simp only [bind_eq_ok, pure_eq_ok, Prod.mk.injEq] at h
    obtain ⟨_, hresolve, rfl, rfl⟩ := h
    rw [resolveExisting_eq_ok hresolve]
    exact Table.get_of_mem (List.mem_of_find?_eq_some hfound)
  dsimp only at h
  split at h
  · rename_i operations events hinsert _
    simp only [Except.ok.injEq, Prod.mk.injEq] at h
    obtain ⟨rfl, rfl⟩ := h
    exact (Table.get_insert hinsert _).trans (if_pos rfl)
  split at h
  · rename_i existing hget
    simp only [bind_eq_ok, pure_eq_ok, Prod.mk.injEq] at h
    obtain ⟨_, hresolve, rfl, rfl⟩ := h
    rw [resolveExisting_eq_ok hresolve]
    exact Table.get_of_mem (Table.mem_of_get hget)
  · cases h

variable {rt : Runtime} {cluster : Str} {db db' : Db} {c : Command} {r : Reply c}

/-- A snapshot a command returns is the row after it. -/
theorem exec_snapshot (h : Exec rt cluster db c r db') {s : OperationSnapshot}
    (hs : snapshot ⟨c, r⟩ = some s) : db'.operations.get s.operationId = some s := by
  cases c with
  | getOperation id =>
      obtain ⟨rfl, hreads⟩ := h
      rcases hreads with rfl | rfl
      · have hget : db'.operations.get id = some s := hs
        have hid : s.operationId = id := Table.key_of_get hget
        rw [hid, hget]
      · cases hs
  | create spec payload =>
      cases r with
      | error e => cases hs
      | ok answer =>
          obtain ⟨row, isNew⟩ := answer
          cases hs
          obtain ⟨draw, hsettles⟩ := h
          exact create_stored hsettles.run_of_ok
  | append id a =>
      cases r with
      | error e => cases hs
      | ok row =>
          cases hs
          obtain ⟨draw, hsettles⟩ := h
          obtain ⟨old, _, _, hold, -, -, -, rfl, hput, rfl⟩ :=
            appendInSession_eq_ok hsettles.run_of_ok
          have hid : old.operationId = id := Table.key_of_get hold
          exact Table.get_put_self (hid ▸ hold) hput rfl
  | commit lease o =>
      cases r with
      | error e => cases hs
      | ok answer =>
          obtain ⟨row, item⟩ := answer
          cases hs
          obtain ⟨draw, hsettles⟩ := h
          obtain ⟨_, hcommits⟩ := Execution.commitObservation_commits hsettles.run_of_ok
          rw [(Execution.commitObservation_ids hsettles.run_of_ok).1]
          exact hcommits.after
  | listEvents | currentLock | acquire | getRecovery | prepareAndClaim | claimOperation | claimDue
  | taskAudit | activeTasks | vmConfig | clock => cases hs

/-- An item a command returns is the stored one. -/
theorem exec_items (h : Exec rt cluster db c r db') :
    ∀ item ∈ returnedItems ⟨c, r⟩, ∃ row, db'.recovery.get item.operationId = some row ∧
      itemOf row = item := by
  cases c with
  | prepareAndClaim spec owner time version checksum =>
      cases r with
      | error e => simp [returnedItems, returnedItem]
      | ok lease =>
          obtain ⟨draw, hsettles⟩ := h
          simp only [returnedItems, returnedItem, Option.toList_some, List.mem_singleton, forall_eq]
          have hrun := hsettles.run_of_ok
          simp only [prepareAndClaim, bind_eq_ok, raiseIf_eq_ok] at hrun
          obtain ⟨-, -, -, -, hrun⟩ := hrun
          split at hrun
          · simp only [bind_eq_ok, orRaise_eq_ok, pure_eq_ok, Prod.mk.injEq] at hrun
            obtain ⟨recovery, hinsert, rfl, rfl⟩ := hrun
            exact ⟨_, (Table.get_insert hinsert _).trans (if_pos rfl), rfl⟩
          · rename_i row hrow
            simp only [bind_eq_ok, raiseIf_eq_ok, orRaise_eq_ok, pure_eq_ok, Prod.mk.injEq] at hrun
            obtain ⟨-, -, -, -, -, -, recovery, hput, rfl, rfl⟩ := hrun
            have hself : db.recovery.get row.operationId = some row :=
              Table.get_of_mem (Table.mem_of_get hrow)
            exact ⟨_, Table.get_put_self hself hput rfl, rfl⟩
  | claimOperation id owner time version checksum =>
      cases r with
      | error e => simp [returnedItems, returnedItem]
      | ok lease =>
          obtain ⟨draw, hsettles⟩ := h
          simp only [returnedItems, returnedItem, Option.toList_some, List.mem_singleton, forall_eq]
          have hrun := hsettles.run_of_ok
          simp only [claimOperation, bind_eq_ok, raiseIf_eq_ok, orRaise_eq_ok, pure_eq_ok,
            Prod.mk.injEq] at hrun
          obtain ⟨-, -, -, -, row, hrow, -, -, -, -, recovery, hput, rfl, rfl⟩ := hrun
          have hself : db.recovery.get row.operationId = some row :=
            Table.get_of_mem (Table.mem_of_get hrow)
          exact ⟨_, Table.get_put_self hself hput rfl, rfl⟩
  | claimDue owner time limit =>
      cases r with
      | error e => simp [returnedItems, returnedItem]
      | ok leases =>
          obtain ⟨draw, locked, hsettles⟩ := h
          have hrun := hsettles.run_of_ok
          simp only [claimDue, bind_eq_ok, raiseIf_eq_ok, pure_eq_ok, Prod.mk.injEq] at hrun
          obtain ⟨-, -, ⟨ls, recovery⟩, hclaim, rfl, rfl⟩ := hrun
          simp only [returnedItems, List.mem_map, forall_exists_index, and_imp,
            forall_apply_eq_imp_iff₂]
          refine claimRows_leases (LeaseFencing.nodup_dueRows _ _ _ _)
            (fun row hrow => (LeaseFencing.mem_dueRows hrow).1) (fun row hrow => ?_) hclaim
          exact (LeaseFencing.status_of_isDue (LeaseFencing.mem_dueRows hrow).2).1
  | commit lease o =>
      cases r with
      | error e => simp [returnedItems, returnedItem]
      | ok answer =>
          obtain ⟨row, item⟩ := answer
          obtain ⟨draw, hsettles⟩ := h
          simp only [returnedItems, returnedItem, Option.toList_some, List.mem_singleton, forall_eq]
          obtain ⟨status, old, _, _, _, mid, _, _, -, hold, -, -, -, -, -, -, happend, hput, -, rfl,
            rfl⟩ := commitObservation_eq_ok hsettles.run_of_ok
          obtain ⟨_, _, _, -, -, -, -, -, -, rfl⟩ := appendInSession_eq_ok happend
          have hself : db.recovery.get old.operationId = some old :=
            Table.get_of_mem (Table.mem_of_get hold)
          exact ⟨_, Table.get_put_self hself hput rfl, rfl⟩
  | getOperation | listEvents | create | append | currentLock | acquire | getRecovery | taskAudit
  | activeTasks | vmConfig | clock => simp [returnedItems, returnedItem]

/-- A lock a command returns is an open row. -/
theorem exec_lock (h : Exec rt cluster db c r db') {lock : TargetLockHandle}
    (hlock : returnedLock ⟨c, r⟩ = some lock) :
    ∃ row, db'.locks.get lock.lockId = some row ∧ row.isOpen = true ∧
      lock.durable = durableLock row := by
  cases c with
  | currentLock targetType targetId =>
      cases r with
      | error e => cases hlock
      | ok found =>
          obtain ⟨rfl, hreads⟩ := h
          have hfound : (if targetType = ("proxmox_vm" : Str) then found else none) = some lock :=
            hlock
          split at hfound
          · rename_i htype
            subst hfound
            have hread := hreads htype
            split at hread
            · rcases hread with hread | hread
              · simp only [Except.ok.injEq, targetOperationLock] at hread
                obtain ⟨row, hrow, rfl⟩ := Option.map_eq_some_iff.mp hread.symm
                have hholds := List.find?_some hrow
                simp only [holdsLocator, Bool.and_eq_true] at hholds
                exact ⟨row, Table.get_of_mem (List.mem_of_find?_eq_some hrow), hholds.2, rfl⟩
              · cases hread
            · cases hread
          · cases hfound
  | acquire targetType targetId ownerId =>
      cases r with
      | error e => cases hlock
      | ok found =>
          cases hlock
          simp only [Exec] at h
          split at h
          · split at h
            · obtain ⟨process, draw, hsettles⟩ := h
              have hrun := hsettles.run_of_ok
              simp only [acquireLock, acquire, Acquisition.insert, bind_eq_ok, pure_eq_ok,
                Prod.mk.injEq] at hrun
              obtain ⟨⟨durable, mid⟩, ⟨-, -, -, -, -, -, ⟨_, locks⟩, hinsert, rfl, rfl⟩,
                rfl, rfl⟩ :=
                hrun
              split at hinsert
              · rename_i hrow
                simp only [Except.ok.injEq, Prod.mk.injEq] at hinsert
                obtain ⟨rfl, rfl⟩ := hinsert
                exact ⟨_, (Table.get_insert hrow _).trans (if_pos rfl), rfl, rfl⟩
              · cases hinsert
            · cases h.2
          · cases h.2
  | getOperation | listEvents | create | append | getRecovery | prepareAndClaim | claimOperation
  | claimDue | commit | taskAudit | activeTasks | vmConfig | clock => cases hlock

end

end Gjallar.GuidedSystem

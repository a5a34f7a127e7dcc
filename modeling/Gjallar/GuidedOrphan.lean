import Gjallar.GuidedRelease

/-!
# Orphaned locks of a guided unlock

The lock of a plan is acquired in a transaction of its own, after the one that prepares its
recovery and before the one that binds it. A recovery run that takes the lease over in between may
close the operation without a lock, and the lock stays. Where no step does that, no lock is
orphaned in any run.
-/
namespace Gjallar.GuidedSystem

open Gjallar.Text Gjallar.Data Gjallar.Tables Gjallar.Operation Gjallar.OperationStore
  Gjallar.OperationLedger Gjallar.TargetLocks Gjallar.RecoveryStore Gjallar.RecoveryBinding
  Gjallar.Processes Gjallar.GuidedQm Gjallar.GuidedWorkflow

/-- The operation is terminal and its recovery completed, and it still owns an open lock. -/
structure Orphaned (id : Str) (db : Db) : Prop where
  terminal : ∃ row, db.operations.get id = some row ∧ row.status.isTerminal = true
  completed : ∃ item, db.recovery.get id = some item ∧ item.status = .completed
  owned : ∃ lock ∈ db.locks, lock.ownerId = id ∧ lock.isOpen = true

instance (id : Str) (db : Db) : Decidable (Orphaned id db) :=
  decidable_of_iff ((db.operations.get id).any (fun row => row.status.isTerminal) = true ∧
      (db.recovery.get id).any (fun item => item.status = .completed) = true ∧
      db.locks.rows.any (fun lock => lock.ownerId = id && lock.isOpen) = true) (by
    simp only [Option.any_eq_true, decide_eq_true_eq, List.any_eq_true, Bool.and_eq_true]
    exact ⟨fun h => ⟨h.1, h.2.1, h.2.2⟩, fun h => ⟨h.terminal, h.completed, h.owned⟩⟩)

/-- A lock is granted only for an operation that is still planned, and a recovery is completed
without a release only when the operation has no open lock. -/
def Careful (rt : Runtime) (cluster : Str) (db : Db) : Command → Prop
  | .acquire targetType targetId ownerId =>
      grants rt cluster targetType targetId ownerId db = true →
        ∀ row, db.operations.get ownerId = some row → row.status = .planned
  | .commit lease o => o.recoveryStatus = RecoveryStatus.completed.name →
      o.releaseTargetLock = false → ∀ lock ∈ db.locks, lock.ownerId = lease.operationId →
      lock.isOpen = false
  | _ => True

instance (rt : Runtime) (cluster : Str) (db : Db) : DecidablePred (Careful rt cluster db)
  | .acquire targetType targetId ownerId =>
      decidable_of_iff (grants rt cluster targetType targetId ownerId db = true →
        ((db.operations.get ownerId).all fun row => row.status = .planned) = true) (by
          simp only [Careful, Option.all_eq_true, decide_eq_true_eq])
  | .commit lease o => inferInstanceAs (Decidable
      (o.recoveryStatus = RecoveryStatus.completed.name →
      o.releaseTargetLock = false → ∀ lock ∈ db.locks.rows, lock.ownerId = lease.operationId →
        lock.isOpen = false))
  | .getOperation _ | .listEvents _ | .create .. | .append .. | .currentLock .. | .getRecovery _
  | .prepareAndClaim .. | .claimOperation .. | .claimDue .. | .taskAudit _ | .activeTasks ..
  | .vmConfig .. | .clock => isTrue trivial

/-- A completed recovery leaves no open lock of its operation. -/
def LocksClosed (id : Str) (db : Db) : Prop :=
  ∀ item, db.recovery.get id = some item → item.status = .completed →
    ∀ lock ∈ db.locks, lock.ownerId = id → lock.isOpen = false

section

variable {rt : Runtime} {cluster id : Str} {db db' : Db} {t : Trace Command Reply} {i : ℕ}

/-- An operation has at most one open lock. -/
theorem Sound.eq_of_isOpen {c : PlanCommand} {observed : Observed} {row : OperationRecord}
    (hsound : Sound rt cluster c observed row db) {lock lock' : OperationLockRecord}
    (hlock : lock ∈ db.locks) (hlock' : lock' ∈ db.locks) (howner : lock.ownerId = row.operationId)
    (howner' : lock'.ownerId = row.operationId) (hopen : lock.isOpen = true)
    (hopen' : lock'.isOpen = true) : lock = lock' := by
  obtain ⟨hscope, vmid, draw, hlocator, hshape⟩ := hsound.shaped lock hlock howner
  obtain ⟨hscope', vmid', draw', hlocator', hshape'⟩ := hsound.shaped lock' hlock' howner'
  rw [hlocator] at hlocator'
  cases hlocator'
  have hkey : lock.scopeKey = lock'.scopeKey :=
    (congrArg DurableTargetLock.scopeKey hshape).trans
      (congrArg DurableTargetLock.scopeKey hshape').symm
  by_contra hne
  have hclash := Table.not_clash sameOpenScope_comm hlock hlock' hne
  simp only [sameOpenScope, hopen, hopen', hscope, hscope', hkey, Bool.and_self, decide_true,
    Bool.true_eq_false] at hclash

theorem LocksClosed.same (hclosed : LocksClosed id db) (hs : Same id db db') :
    LocksClosed id db' := by
  intro item hitem hcompleted lock hlock howner
  exact hclosed item (hs.recovery ▸ hitem) hcompleted lock ((hs.mem howner).mp hlock) howner

/-- A commit that completes the recovery leaves no open lock of the operation. -/
theorem locksClosed_committed (hc : Coherent rt cluster id db) {lease : RecoveryLease}
    {o : Observation} {row : OperationRecord} {item : RecoveryRecord} {status : RecoveryStatus}
    {draw : Draw} (hid : lease.operationId = id) (ht : Tame o)
    (hcommit : Committed rt draw lease o db db' row item status)
    (hcareful : Careful rt cluster db (.commit lease o)) : LocksClosed id db' := by
  subst hid
  intro item' hitem' hcompleted lock' hlock' howner
  rw [hcommit.afterItem] at hitem'
  cases hitem'
  have hname : o.recoveryStatus = RecoveryStatus.completed.name := by
    have hstatus : status = .completed := hcompleted
    exact hstatus ▸ status_of_ofName hcommit.named
  obtain ⟨lock, hlock, -, hre⟩ := (hcommit.locks_rewrites ht).exists_of_mem hlock'
  have howner₀ : lock.ownerId = lease.operationId := hre.ownerId ▸ howner
  cases hrelease : o.releaseTargetLock with
  | false =>
      rw [Bool.eq_false_iff]
      intro hopen'
      have hopen := hre.isOpen hopen'
      rw [hcareful hname hrelease lock hlock howner₀] at hopen
      cases hopen
  | true =>
      obtain ⟨c, observed, hsound⟩ := hc.sound row hcommit.before
      obtain ⟨bound, hbound, hopen, hreleased⟩ :=
        hcommit.releases_lock hrelease hsound.origin.operationType
      rw [Bool.eq_false_iff]
      intro hopen'
      have heq : lock = bound := hsound.eq_of_isOpen hlock (Table.mem_of_get hbound.mem)
        (howner₀.trans hcommit.rowId.symm) hbound.owner (hre.isOpen hopen') hopen
      have hkey : lock'.operationLockId = bound.operationLockId :=
        heq ▸ congrArg DurableTargetLock.lockId hre.unmarked
      have hget := Table.get_of_mem hlock'
      rw [hkey, hreleased] at hget
      cases hget
      cases hopen'

/-- What one careful command keeps. -/
theorem locksClosed_step {c : Command} {r : Reply c} (hinv : Invariant rt cluster db t)
    (hallowed : Allowed rt (historyOf i t) c) (hexec : Exec rt cluster db c r db')
    (hcareful : Careful rt cluster db c) (hid : isGuided id = true) (hclosed : LocksClosed id db) :
    LocksClosed id db' := by
  obtain ⟨hc, hr⟩ := hinv id hid
  have heffect := exec_effect hexec fun lease o heq => by
    subst heq
    exact hallowed.tame.projector
  cases heffect with
  | kept _ hrecovery hlocks => rwa [LocksClosed, hrecovery, hlocks]
  | created _ _ hrecovery hlocks => rwa [LocksClosed, hrecovery, hlocks]
  | appended _ _ _ _ _ _ hrecovery hlocks => rwa [LocksClosed, hrecovery, hlocks]
  | claimed _ hlocks hrecovery =>
      intro item' hitem' hcompleted lock hlock howner
      obtain ⟨item, hmem, hkey, hre⟩ := hrecovery.exists_of_mem (Table.mem_of_get hitem')
      have hitem : db.recovery.get id = some item :=
        Table.get_eq_some.mpr ⟨hmem, hkey.symm.trans (Table.key_of_get hitem')⟩
      exact hclosed item hitem (hre.completed.mp hcompleted) lock (hlocks ▸ hlock) howner
  | prepared draw row hrow hfenced hops hlocks hrecovery =>
      rename_i spec owner time version checksum
      intro item' hitem' hcompleted lock hlock howner
      by_cases heq : spec.operationId = id
      · subst heq
        rcases hrecovery with hinsert | ⟨item, hitem, -, hput⟩
        · have hget := (Table.get_insert hinsert spec.operationId).trans (if_pos rfl)
          rw [hitem', Option.some.injEq] at hget
          subst hget
          cases hcompleted
        · have hkey : item.operationId = spec.operationId := Table.key_of_get hitem
          rw [Table.get_put_self hitem hput hkey] at hitem'
          cases hitem'
          cases hcompleted
      · refine hclosed item' ?_ hcompleted lock (hlocks ▸ hlock) howner
        rcases hrecovery with hinsert | ⟨item, hitem, -, hput⟩
        · rwa [(Table.get_insert hinsert id).trans (if_neg heq)] at hitem'
        · have hkey : item.operationId = spec.operationId := Table.key_of_get hitem
          rwa [(Table.get_put hput id).trans (if_neg fun h => heq (hkey.symm.trans h))] at hitem'
  | acquired draw vmid hlocator hgranted hops hrecovery hinsert =>
      rename_i targetId ownerId
      obtain ⟨operation, hseen, hoperation, -⟩ := hallowed
      intro item hitem hcompleted lock hlock howner
      rw [hrecovery] at hitem
      rcases (Table.mem_insert hinsert).mp hlock with hlock | rfl
      · exact hclosed item hitem hcompleted lock hlock howner
      · have howned : strip ownerId = id := howner
        have hguided : isGuided ownerId = true := by rw [← isGuided_strip, howned, hid]
        obtain ⟨hc', hr'⟩ := hinv ownerId hguided
        obtain ⟨row, hrow, -⟩ := hr'.seen_of_mem hseen hoperation
        have hplanned := hcareful hgranted row hrow
        rw [hc'.strip_id hrow] at howned
        subst howned
        obtain ⟨_, _, hsound⟩ := hc'.sound row hrow
        have hkey : row.operationId = ownerId := Table.key_of_get hrow
        have hfinished := (hsound.item item (hkey ▸ hitem)).closed hcompleted
        rw [hplanned] at hfinished
        cases hfinished
  | committed draw row item status hcommit =>
      rename_i lease o
      by_cases heq : lease.operationId = id
      · exact locksClosed_committed hc heq hallowed.tame hcommit hcareful
      · exact hclosed.same (hcommit.same_of_ne hallowed.tame fun h => heq h.symm)

end

/-- In a run whose steps are careful no lock is ever orphaned. -/
theorem no_orphan_of_careful {rt : Runtime} {cluster : Str} {s : State Command Reply Unit Db}
    (h : ((system rt cluster).restrict (Careful rt cluster)).Reachable Initial s) {id : Str}
    (hid : isGuided id = true) : ¬ Orphaned id s.world := by
  suffices hclosed : LocksClosed id s.world by
    rintro ⟨-, ⟨item, hitem, hcompleted⟩, lock, hlock, howner, hopen⟩
    rw [hclosed item hitem hcompleted lock hlock howner] at hopen
    cases hopen
  induction h with
  | start hinit =>
      intro item hitem
      rw [hinit.recovery id hid] at hitem
      cases hitem
  | step hs hstep ih =>
      have hreach := hs.of_restrict
      cases hstep with
      | start => exact ih
      | crash => exact ih
      | environment henv => exact ih.same (Foreign.same henv hid)
      | call i c k r hi hexec =>
          have hallowed : Allowed rt _ c :=
            Contract.allowed_of_reachable (D := contract rt) (fun p hp => follows_contract hp)
              hreach hi
          exact locksClosed_step (invariant_of_reachable hreach) hallowed hexec.1 hexec.2 hid ih

/-- The plan has stopped after it bound its lock, its lease has expired, and the recovery run that
took over has found the VM unlocked. -/
def takenOver : State Command Reply Unit Db :=
  perform TaskIdentity.sampleRuntime "lab" (Careful TaskIdentity.sampleRuntime "lab")
    (List.append planningTurns [⟨1, 13, Scene.ofTime 50⟩])
    ⟨{}, [asProcess (sampleUseCase.planUnlock TaskIdentity.sampleRuntime samplePlan),
      asProcess (sampleWorker.runOnce TaskIdentity.sampleRuntime)], []⟩

/-- The recovery run closes the operation with a release. -/
theorem no_orphan_of_takeover :
    (takenOver.world.operations.get (samplePlan.operationId TaskIdentity.sampleRuntime)).any
      (fun row => row.status = .blocked) = true ∧
    (takenOver.world.recovery.get (samplePlan.operationId TaskIdentity.sampleRuntime)).any
      (fun item => item.status = .completed && item.leaseGeneration = 2) = true ∧
    takenOver.world.locks.rows.map OperationLockRecord.isOpen = [false] ∧
    ¬ Orphaned (samplePlan.operationId TaskIdentity.sampleRuntime) takenOver.world := by
  have hclosed : (takenOver.world.operations.get
        (samplePlan.operationId TaskIdentity.sampleRuntime)).any
          (fun row => row.status = .blocked) = true ∧
      (takenOver.world.recovery.get (samplePlan.operationId TaskIdentity.sampleRuntime)).any
        (fun item => item.status = .completed && item.leaseGeneration = 2) = true ∧
      takenOver.world.locks.rows.map OperationLockRecord.isOpen = [false] := by
    decide +kernel
  refine ⟨hclosed.1, hclosed.2.1, hclosed.2.2, ?_⟩
  refine no_orphan_of_careful (reachable_perform _ (reachable_entries _ fun p hp => ?_))
    (by decide)
  rcases List.mem_pair.mp hp with rfl | rfl
  · exact .plan sampleUseCase samplePlan
  · exact .runOnce sampleWorker

/-! ### A lock that is orphaned -/

/-- The plan, and a recovery run that takes over its lease, reads no lock, and closes the operation
after the plan has taken the lock. -/
def orphaningTurns : List Turn :=
  [⟨0, 13, lockedScene 1⟩, ⟨1, 3, lockedScene 40⟩, ⟨0, 1, lockedScene 41⟩, ⟨1, 10, lockedScene 42⟩,
    ⟨0, 10, lockedScene 43⟩]

/-- The plan has ended and its lock is orphaned. -/
theorem orphaned_lock_reachable : ∃ s : State Command Reply Unit Db,
    (system TaskIdentity.sampleRuntime "lab").Reachable Initial s ∧
      s.programs[0]?.any Program.isDone = true ∧
      Orphaned (samplePlan.operationId TaskIdentity.sampleRuntime) s.world := by
  refine ⟨_, (@reachable_perform _ _ (fun _ _ => True) _ _ orphaningTurns (reachable_entries
    [asProcess (sampleUseCase.planUnlock TaskIdentity.sampleRuntime samplePlan),
      asProcess (sampleWorker.runOnce TaskIdentity.sampleRuntime)] fun p hp => ?_)).of_restrict, ?_⟩
  · rcases List.mem_pair.mp hp with rfl | rfl
    · exact .plan sampleUseCase samplePlan
    · exact .runOnce sampleWorker
  · decide +kernel

end Gjallar.GuidedSystem

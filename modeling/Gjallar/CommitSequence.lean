import Gjallar.LockExclusion

/-!
# Sequences of observation commits

A workflow settles an operation by commits made one after the other under one lease. Their verdict
is the status they leave and whether they release the target lock; it is what the database shows
once they have all gone through.
-/
namespace Gjallar.CommitSequence

open Gjallar.Text Gjallar.Data Gjallar.Tables Gjallar.Operation Gjallar.OperationStore
  Gjallar.RecoveryStore

/-- The outcome of an operation: its status, and whether its target lock has been released. -/
structure Verdict where
  status : OperationStatus
  released : Bool
  deriving DecidableEq

/-- The verdict after one more commit. -/
def Verdict.after (v : Verdict) (o : Observation) : Verdict :=
  ⟨o.nextStatus.getD v.status, v.released || o.releaseTargetLock⟩

/-- The verdict of commits made from a status under a held lock. -/
def verdict (status : OperationStatus) (os : List Observation) : Verdict :=
  os.foldl Verdict.after ⟨status, false⟩

/-- The commits one after the other, each with the lease on the item that the last one returned. -/
def commitAll (rt : Runtime) (draws : ℕ → Draw) :
    ℕ → RecoveryLease → List Observation → Db → Except StoreError Db
  | _, _, [], db => .ok db
  | i, lease, o :: os, db => do
      let ((_, item), db) ← commitObservation rt (draws i) lease o db
      commitAll rt draws (i + 1) ⟨item, lease.token⟩ os db

/-- The status of an operation after a commit on it. -/
theorem status_of_commit {rt : Runtime} {draw : Draw} {lease : RecoveryLease} {o : Observation}
    {db db' : Db} {result : OperationSnapshot × RecoveryItem} {operation : OperationRecord}
    (h : commitObservation rt draw lease o db = .ok (result, db'))
    (hget : db.operations.get lease.operationId = some operation) :
    result.2.operationId = lease.operationId ∧ ∃ operation',
      db'.operations.get lease.operationId = some operation' ∧
        operation'.status = o.nextStatus.getD operation.status := by
  obtain ⟨operation', item⟩ := result
  obtain ⟨status, row, operation₀, p, jobs, mid, recovery, locks, -, hrow, -, -, -, -, -, -,
    happend, -, -, rfl, rfl⟩ := commitObservation_eq_ok h
  obtain ⟨old, events, operations, hold, -, -, -, rfl, hput, rfl⟩ := appendInSession_eq_ok happend
  rw [hget, Option.some.injEq] at hold
  have hid : old.operationId = lease.operationId := hold ▸ Table.key_of_get hget
  have hitem : row.operationId = lease.operationId := Table.key_of_get hrow
  refine ⟨hitem, _, Table.get_put_self hget hput hid, ?_⟩
  rw [applyProjection_status, ← hold]
  rfl

/-- A commit that does not release leaves every open lock open. -/
theorem open_of_commit {rt : Runtime} {draw : Draw} {lease : RecoveryLease} {o : Observation}
    {db db' : Db} {result : OperationSnapshot × RecoveryItem}
    (h : commitObservation rt draw lease o db = .ok (result, db'))
    (hrelease : o.releaseTargetLock = false) {id : Str} {r : OperationLockRecord}
    (hget : db.locks.get id = some r) (hopen : r.isOpen = true) :
    ∃ r', db'.locks.get id = some r' ∧ r'.isOpen = true := by
  obtain ⟨operation', item⟩ := result
  obtain ⟨status, row, operation, p, jobs, mid, recovery, locks, -, -, -, -, -, -, -, -, happend,
    -, hput, -, rfl⟩ := commitObservation_eq_ok h
  obtain ⟨_, _, _, -, -, -, -, -, -, rfl⟩ := appendInSession_eq_ok happend
  have hrewrites : db.locks.Rewrites (fun r r' => r.isOpen = true → r'.isOpen = true) locks := by
    refine Table.rewrites_putAll (fun _ h => h) (fun r' hr' => ?_) hput
    unfold Observation.lockUpdates at hr'
    rw [if_neg (by simp [hrelease])] at hr'
    split at hr'
    · obtain ⟨s, hs, rfl⟩ := List.mem_map.mp hr'
      exact ⟨s, (Observation.mem_boundLocks hs).1, rfl, fun _ => rfl⟩
    · cases hr'
  obtain ⟨r', hr', hopen'⟩ := hrewrites.exists_of_get hget
  exact ⟨r', hr', hopen' hopen⟩

/-- Commits that all go through leave the operation in the status of their verdict, and, when the
verdict releases nothing, every open lock open. -/
theorem verdict_of_commitAll {rt : Runtime} {draws : ℕ → Draw} {i : ℕ} {lease : RecoveryLease}
    {os : List Observation} {db db' : Db} {operation : OperationRecord} {v : Verdict}
    (h : commitAll rt draws i lease os db = .ok db')
    (hget : db.operations.get lease.operationId = some operation)
    (hstatus : operation.status = v.status) :
    (∃ operation', db'.operations.get lease.operationId = some operation' ∧
      operation'.status = (os.foldl Verdict.after v).status) ∧
    ((os.foldl Verdict.after v).released = false → ∀ id r, db.locks.get id = some r →
      r.isOpen = true → ∃ r', db'.locks.get id = some r' ∧ r'.isOpen = true) := by
  induction os generalizing i lease db operation v with
  | nil =>
      cases h
      exact ⟨⟨operation, hget, hstatus⟩, fun _ id r hr hopen => ⟨r, hr, hopen⟩⟩
  | cons o os ih =>
      obtain ⟨⟨result, mid⟩, hcommit, hrest⟩ := bind_eq_ok.mp h
      obtain ⟨hid, operation', hget', hstatus'⟩ := status_of_commit hcommit hget
      have hmid : mid.operations.get (RecoveryLease.operationId ⟨result.2, lease.token⟩) =
          some operation' := by
        show mid.operations.get result.2.operationId = some operation'
        rw [hid, hget']
      obtain ⟨hoperation, hlocks⟩ := ih hrest hmid
        (show operation'.status = (v.after o).status by rw [hstatus', hstatus]; rfl)
      have hsame : RecoveryLease.operationId ⟨result.2, lease.token⟩ = lease.operationId := hid
      rw [hsame] at hoperation
      refine ⟨hoperation, fun hreleased id r hr hopen => ?_⟩
      have hkept : ∀ (os : List Observation) (v : Verdict), v.released = true →
          (os.foldl Verdict.after v).released = true := by
        intro os
        induction os with
        | nil => exact fun _ h => h
        | cons o os ih => exact fun v h => ih (v.after o) (by simp [Verdict.after, h])
      have hrelease : o.releaseTargetLock = false := by
        by_contra hc
        have htrue := hkept os (v.after o) (by
          rw [Bool.not_eq_false] at hc
          simp [Verdict.after, hc])
        rw [List.foldl_cons, htrue] at hreleased
        cases hreleased
      obtain ⟨r', hr', hopen'⟩ := open_of_commit hcommit hrelease hr hopen
      exact hlocks hreleased id r' hr' hopen'

end Gjallar.CommitSequence

import Gjallar.Execution

/-!
# What a command does to operations and locks

An admission creates an operation or changes none, a commit rewrites one operation row and locks
of that operation only, and every other command leaves operations and locks alone.
-/
namespace Gjallar.Execution

open Gjallar.Text Gjallar.Data Gjallar.Tables Gjallar.Redaction Gjallar.Operation
  Gjallar.OperationStore Gjallar.TargetLocks Gjallar.RecoveryStore Gjallar.VmAdmission
  Gjallar.Processes Gjallar.ChangeServices

/-- What a commit writes; the details are known when it has no projector. -/
structure Commits (lease : RecoveryLease) (o : Observation) (db db' : Db)
    (row row' : OperationRecord) : Prop where
  before : db.operations.get lease.operationId = some row
  after : db'.operations.get lease.operationId = some row'
  others : ∀ id, id ≠ lease.operationId → db'.operations.get id = db.operations.get id
  expected : ∀ expected ∈ o.expectedStatuses, row.status ∈ expected
  transition : ∀ next ∈ o.nextStatus, next ∈ row.status.allowed
  status : row'.status = o.nextStatus.getD row.status
  intentDigest : row'.intentDigest = row.intentDigest
  details : o.projector = none → ∀ key, isSecretKey key = false → Dict.get row'.details key =
    ((Dict.get o.detailsPatch key).map fun v => redactSecrets (redactSecrets v)).or
      (Dict.get row.details key)
  foreignLocks : ∀ id r, db.locks.get id = some r → r.ownerId ≠ lease.operationId →
    db'.locks.get id = some r
  openLocks : o.releaseTargetLock = false → ∀ id r, db.locks.get id = some r →
    r.isOpen = true → ∃ r', db'.locks.get id = some r' ∧ r'.isOpen = true ∧
      r'.ownerId = r.ownerId

/-- How a commit may rewrite a lock row. -/
def Recommits (id : Str) (released : Bool) (r r' : OperationLockRecord) : Prop :=
  r'.ownerId = r.ownerId ∧ (r.ownerId ≠ id → r' = r) ∧
    (released = false → r.isOpen = true → r'.isOpen = true)

theorem Recommits.refl (id : Str) (released : Bool) (r : OperationLockRecord) :
    Recommits id released r r := ⟨rfl, fun _ => rfl, fun _ h => h⟩

theorem lockUpdates_recommits {o : Observation} {draw : Draw} {lease : RecoveryLease}
    {locks : List OperationLockRecord} {id : Str} (hown : ∀ r ∈ locks, r.ownerId = id)
    {r' : OperationLockRecord} (h : r' ∈ o.lockUpdates draw lease locks) :
    ∃ r ∈ locks, r'.operationLockId = r.operationLockId ∧
      Recommits id o.releaseTargetLock r r' := by
  unfold Observation.lockUpdates at h
  split at h
  · rename_i hrelease
    obtain ⟨r, hr, rfl⟩ := List.mem_map.mp h
    exact ⟨r, hr, rfl, rfl, fun hne => absurd (hown r hr) hne, by simp [hrelease]⟩
  split at h
  · obtain ⟨r, hr, rfl⟩ := List.mem_map.mp h
    exact ⟨r, hr, rfl, rfl, fun hne => absurd (hown r hr) hne, fun _ _ => rfl⟩
  · cases h

theorem commitObservation_commits {rt : Runtime} {draw : Draw} {lease : RecoveryLease}
    {o : Observation} {db db' : Db} {row' : OperationSnapshot} {item : RecoveryItem}
    (h : commitObservation rt draw lease o db = .ok ((row', item), db')) :
    ∃ row, Commits lease o db db' row row' := by
  obtain ⟨status, recoveryRow, row, p, jobs, mid, recovery, locks, -, -, -, hrow, -, -, hp, -,
    happend, -, hput, -, rfl⟩ := commitObservation_eq_ok h
  obtain ⟨r, events, operations, hr, hexpected, hnext, -, rfl, hputOp, rfl⟩ :=
    appendInSession_eq_ok happend
  rw [hrow] at hr
  cases hr
  have hid : row.operationId = lease.operationId := Table.key_of_get hrow
  have hlocks : db.locks.Rewrites (Recommits lease.operationId o.releaseTargetLock) locks := by
    refine Table.rewrites_putAll (Recommits.refl _ _) (fun r' hr' => ?_) hput
    obtain ⟨r, hr, hk, hre⟩ := lockUpdates_recommits
      (fun r hr => (Observation.mem_boundLocks hr).2.2.trans hid) hr'
    exact ⟨r, (Observation.mem_boundLocks hr).1, hk, hre⟩
  refine ⟨row, hrow, ?_, ?_, hexpected, hnext, rfl, rfl, fun hprojector key hkey => ?_, ?_, ?_⟩
  · exact Table.get_put_self hrow hputOp hid
  · intro id hne
    refine (Table.get_put hputOp id).trans (if_neg fun heq => hne ?_)
    exact heq.symm.trans hid
  · rw [Observation.project, hprojector, Except.ok.injEq, Prod.mk.injEq] at hp
    have hnil : Dict.get [] key = none := rfl
    rw [applyProjection_details, ← hp.1]
    simp only [Observation.append, Observation.operationPatch, Dict.get_merge, get_sanitized,
      hkey, Bool.false_eq_true, if_false, hnil, Option.none_or, Option.map_map,
      Function.comp_def]
  · intro id r hget hne
    obtain ⟨r', hr', -, hsame, -⟩ := hlocks.exists_of_get hget
    rw [hr', hsame hne]
  · intro hrelease id r hget hopen
    obtain ⟨r', hr', howner, -, hstays⟩ := hlocks.exists_of_get hget
    exact ⟨r', hr', hstays hrelease hopen, howner⟩

/-- What a command does: it leaves operations and open locks as they are, or creates one
operation, or commits an observation. -/
inductive Effect (rt : Runtime) (w w' : World) : (c : Command) → Reply c → Prop
  | kept {c r} (operations : w'.db.operations = w.db.operations)
      (locks : LocksKept w.db.locks w'.db.locks) (admitted : w'.admitted = w.admitted)
      (seen : ∀ operation, snapshot ⟨c, r⟩ = some operation →
        w.db.operations.get operation.operationId = some operation)
      (notCreated : created ⟨c, r⟩ = none) (notCommitted : committed ⟨c, r⟩ = none) :
      Effect rt w w' c r
  | admission {q r} (draws : ℕ → Draw) (operation : OperationSnapshot) (lease : RecoveryLease)
      (creates : Creates rt draws q w.db w'.db operation lease)
      (stored : w'.db.operations.get q.operationId = some operation)
      (id : operation.operationId = q.operationId)
      (others : ∀ id, id ≠ q.operationId → w'.db.operations.get id = w.db.operations.get id)
      (locks : LocksKept w.db.locks w'.db.locks)
      (admitted : w'.admitted = q.operationId :: w.admitted)
      (reply : ∀ answer, r = .ok answer → answer = (operation, some lease)) :
      Effect rt w w' (.prepare q) r
  | commit {lease o r} (row row' : OperationRecord) (item : RecoveryItem)
      (commits : Commits lease o w.db w'.db row row') (admitted : w'.admitted = w.admitted)
      (reply : ∀ answer, r = .ok answer → answer = (row', item)) :
      Effect rt w w' (.commit lease o) r

theorem heartbeat_frame {draw : Draw} {lease lease' : RecoveryLease} {time : Instant}
    {db db' : Db} (h : heartbeat draw lease time db = .ok (lease', db')) :
    db'.operations = db.operations ∧ db'.locks = db.locks := by
  simp only [heartbeat, bind_eq_ok, orRaise_eq_ok, pure_eq_ok, Prod.mk.injEq] at h
  obtain ⟨row, -, recovery, -, -, rfl⟩ := h
  exact ⟨rfl, rfl⟩

theorem claimOperation_frame {draw : Draw} {id owner : Str} {time : Instant}
    {version : Option ℕ} {checksum : Option Str} {db db' : Db} {lease : RecoveryLease}
    (h : claimOperation draw id owner time version checksum db = .ok (lease, db')) :
    db'.operations = db.operations ∧ db'.locks = db.locks := by
  simp only [claimOperation, bind_eq_ok, raiseIf_eq_ok, orRaise_eq_ok, pure_eq_ok,
    Prod.mk.injEq] at h
  obtain ⟨_, -, _, -, row, -, _, -, _, -, recovery, -, -, rfl⟩ := h
  exact ⟨rfl, rfl⟩

theorem claimDue_frame {draw : Draw} {owner : Str} {time : Instant} {limit : ℤ}
    {locked : Str → Bool} {db db' : Db} {leases : List RecoveryLease}
    (h : claimDue draw owner time limit locked db = .ok (leases, db')) :
    db'.operations = db.operations ∧ db'.locks = db.locks := by
  simp only [claimDue, bind_eq_ok, raiseIf_eq_ok, pure_eq_ok, Prod.mk.injEq] at h
  obtain ⟨_, -, ⟨ls, recovery⟩, -, -, rfl⟩ := h
  exact ⟨rfl, rfl⟩

/-- A transaction that touches neither operations nor locks. -/
theorem Settles.frame {α : Type} {run : Except StoreError (α × Db)} {db db' : Db}
    {answer : Answer α} (h : Settles run db answer db')
    (hframe : ∀ a db', run = .ok (a, db') → db'.operations = db.operations ∧
      db'.locks = db.locks) : db'.operations = db.operations ∧ db'.locks = db.locks := by
  rcases h.cases_db with rfl | ⟨a, hrun⟩
  · exact ⟨rfl, rfl⟩
  · exact hframe a db' hrun

section Effects

variable {rt : Runtime} {cluster : Str} {w w' : World}

theorem effect_of_frame {c : Command} {r : Reply c}
    (hdb : w'.db.operations = w.db.operations ∧ w'.db.locks = w.db.locks)
    (hadmitted : w'.admitted = w.admitted) (hsnapshot : snapshot ⟨c, r⟩ = none)
    (hcreated : created ⟨c, r⟩ = none) (hcommitted : committed ⟨c, r⟩ = none) :
    Effect rt w w' c r :=
  .kept hdb.1 (fun _ _ hr => by rw [hdb.2, hr]) hadmitted (by simp [hsnapshot]) hcreated
    hcommitted

theorem admittedAfter_of_operations {db' : Db} (id : Str)
    (h : db'.operations = w.db.operations) : admittedAfter id w db' = w.admitted := by
  rw [admittedAfter, h]
  cases w.db.operations.get id <;> rfl

theorem effect_prepare {q : AdmissionRequest} {r : Reply (.prepare q)}
    (h : Exec rt cluster w (.prepare q) r w') : Effect rt w w' (.prepare q) r := by
  obtain ⟨process, draws, first, hfirst, hsettles, hadmitted⟩ := h
  have hrun : ∀ answer, prepare rt process draws q first w.db = .ok (answer, w'.db) →
      (∀ a, r = .ok a → a = answer) → Effect rt w w' (.prepare q) r := by
    rintro ⟨operation, lease⟩ hprepare hreply
    obtain ⟨hlocks, hid, -, hget, hothers, hreplay, hcreates⟩ := prepare_spec hfirst hprepare
    cases lease with
    | none =>
        have hops := hreplay rfl
        refine .kept hops hlocks (hadmitted.trans (admittedAfter_of_operations _ hops))
          (fun seen hseen => ?_) ?_ rfl
        · cases r with
          | error e => cases hseen
          | ok a =>
              rw [hreply a rfl] at hseen
              cases hseen
              rw [← hops, hid, hget]
        · cases r with
          | error e => rfl
          | ok a =>
              rw [hreply a rfl]
              rfl
    | some lease =>
        have hnew := hcreates lease rfl
        refine .admission draws operation lease hnew hget hid hothers hlocks ?_ hreply
        rw [hadmitted, admittedAfter, hnew.absent, hget]
        rfl
  obtain ⟨db', admitted'⟩ := w'
  obtain ⟨db, admitted⟩ := w
  cases hsettles with
  | done hprepare => exact hrun _ hprepare (by rintro a ⟨⟩; rfl)
  | unacknowledged hprepare => exact hrun _ hprepare (by rintro a ⟨⟩)
  | refused _ =>
      exact effect_of_frame ⟨rfl, rfl⟩ (hadmitted.trans (admittedAfter_of_operations _ rfl))
        rfl rfl rfl
  | unavailable =>
      exact effect_of_frame ⟨rfl, rfl⟩ (hadmitted.trans (admittedAfter_of_operations _ rfl))
        rfl rfl rfl

theorem effect_commit {lease : RecoveryLease} {o : Observation} {r : Reply (.commit lease o)}
    (h : Exec rt cluster w (.commit lease o) r w') : Effect rt w w' (.commit lease o) r := by
  obtain ⟨draw, hsettles, hadmitted⟩ := h
  have hrun : ∀ answer, commitObservation rt draw lease o w.db = .ok (answer, w'.db) →
      (∀ a, r = .ok a → a = answer) → Effect rt w w' (.commit lease o) r := by
    rintro ⟨row', item⟩ hcommit hreply
    obtain ⟨row, hcommits⟩ := commitObservation_commits hcommit
    exact .commit row row' item hcommits hadmitted hreply
  obtain ⟨db', admitted'⟩ := w'
  obtain ⟨db, admitted⟩ := w
  cases hsettles with
  | done hcommit => exact hrun _ hcommit (by rintro a ⟨⟩; rfl)
  | unacknowledged hcommit => exact hrun _ hcommit (by rintro a ⟨⟩)
  | refused _ => exact effect_of_frame ⟨rfl, rfl⟩ hadmitted rfl rfl rfl
  | unavailable => exact effect_of_frame ⟨rfl, rfl⟩ hadmitted rfl rfl rfl

theorem exec_effect {c : Command} {r : Reply c} (h : Exec rt cluster w c r w') :
    Effect rt w w' c r := by
  cases c with
  | receive | review | task | observe | dispatch =>
      cases h
      exact effect_of_frame ⟨rfl, rfl⟩ rfl rfl rfl rfl
  | targetLock id =>
      obtain ⟨rfl, -⟩ := h
      exact effect_of_frame ⟨rfl, rfl⟩ rfl rfl rfl rfl
  | getOperation id =>
      obtain ⟨rfl, hreads⟩ := h
      refine .kept rfl (fun _ _ hr => hr) rfl (fun operation hseen => ?_) rfl rfl
      rcases hreads with rfl | rfl
      · have hget : w'.db.operations.get id = some operation := hseen
        have hid : operation.operationId = id := Table.key_of_get hget
        rw [hid, hget]
      · cases hseen
  | prepare q => exact effect_prepare h
  | commit lease o => exact effect_commit h
  | heartbeat lease time =>
      obtain ⟨draw, hsettles, hadmitted⟩ := h
      exact effect_of_frame (hsettles.frame fun _ _ => heartbeat_frame) hadmitted rfl rfl rfl
  | claimDue owner time limit =>
      obtain ⟨draw, locked, hsettles, hadmitted⟩ := h
      exact effect_of_frame (hsettles.frame fun _ _ => claimDue_frame) hadmitted rfl rfl rfl
  | claimOperation id owner time version checksum =>
      obtain ⟨draw, hsettles, hadmitted⟩ := h
      exact effect_of_frame (hsettles.frame fun _ _ => claimOperation_frame) hadmitted rfl rfl rfl

end Effects

end Gjallar.Execution

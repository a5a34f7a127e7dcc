import Gjallar.RecoveryStore

/-!
# Lease fencing

Runs of the five calls that claim, renew and commit recovery items, by any number of workers with
arbitrary clock readings. A claim raises the generation of its item, no call lowers it, only the
holder of the current unexpired lease gets through, and a completed item is final.
-/
namespace Gjallar.LeaseFencing

open Gjallar.Text Gjallar.Tables Gjallar.Operation Gjallar.OperationStore Gjallar.RecoveryStore

/-- A call a worker makes, with its arguments. -/
inductive Call where
  | prepareAndClaim (spec : RecoverySpec) (leaseOwner : Str) (leaseTime : Instant)
      (version : Option ℕ) (checksum : Option Str)
  | claimOperation (operationId leaseOwner : Str) (leaseTime : Instant)
      (version : Option ℕ) (checksum : Option Str)
  | claimDue (leaseOwner : Str) (leaseTime : Instant) (limit : ℤ) (locked : Str → Bool)
  | heartbeat (lease : RecoveryLease) (leaseTime : Instant)
  | commitObservation (lease : RecoveryLease) (observation : Observation)

/-- What a successful call returns. -/
inductive Reply where
  | claimed (leases : List RecoveryLease)
  | renewed (lease : RecoveryLease)
  | committed (operation : OperationSnapshot) (item : RecoveryItem)

def Call.perform (rt : Runtime) (draw : Draw) (db : Db) : Call → Except StoreError (Reply × Db)
  | .prepareAndClaim spec owner time version checksum => do
      let (lease, db) ← RecoveryStore.prepareAndClaim draw spec owner time version checksum db
      return (.claimed [lease], db)
  | .claimOperation id owner time version checksum => do
      let (lease, db) ← RecoveryStore.claimOperation draw id owner time version checksum db
      return (.claimed [lease], db)
  | .claimDue owner time limit locked => do
      let (leases, db) ← RecoveryStore.claimDue draw owner time limit locked db
      return (.claimed leases, db)
  | .heartbeat lease time => do
      let (lease, db) ← RecoveryStore.heartbeat draw lease time db
      return (.renewed lease, db)
  | .commitObservation lease o => do
      let ((operation, item), db) ← RecoveryStore.commitObservation rt draw lease o db
      return (.committed operation item, db)

/-- A call as its own transaction: an error rolls back. -/
def transact (rt : Runtime) (draw : Draw) (call : Call) (db : Db) :
    Except StoreError Reply × Db :=
  match call.perform rt draw db with
  | .ok (reply, db') => (.ok reply, db')
  | .error e => (.error e, db)

/-- The database after a run of calls. -/
def runCalls (rt : Runtime) (calls : List (Draw × Call)) (db : Db) : Db :=
  calls.foldl (fun db c => (transact rt c.1 c.2 db).2) db

/-- The generation of an item, zero before there is one. -/
def generation (db : Db) (operationId : Str) : ℕ :=
  ((db.recovery.get operationId).map RecoveryRecord.leaseGeneration).getD 0

/-- The lease owns its item at this time. -/
def Owns (lease : RecoveryLease) (now : Instant) (db : Db) : Prop :=
  ∃ row, db.recovery.get lease.operationId = some row ∧ row.status = .leased ∧
    row.leaseToken = some lease.token ∧ row.leaseGeneration = lease.generation ∧
    ∃ expiresAt, row.leaseExpiresAt = some expiresAt ∧ now < expiresAt

/-! ### How a call changes one item -/

/-- A later state of an item: its generation is not lower, and a completed item is the same. -/
def Advances (r r' : RecoveryRecord) : Prop :=
  r.leaseGeneration ≤ r'.leaseGeneration ∧ (r.status = .completed → r' = r)

theorem Advances.refl (r : RecoveryRecord) : Advances r r := ⟨le_rfl, fun _ => rfl⟩

theorem Advances.trans {r s t : RecoveryRecord} (h : Advances r s) (h' : Advances s t) :
    Advances r t := by
  refine ⟨h.1.trans h'.1, fun hc => ?_⟩
  have hs := h.2 hc
  subst hs
  exact h'.2 hc

/-- Every item is still there, in a later state. -/
def TableAdvances (t t' : RecoveryTable) : Prop :=
  ∀ id r, t.get id = some r → ∃ r', t'.get id = some r' ∧ Advances r r'

theorem TableAdvances.refl (t : RecoveryTable) : TableAdvances t t :=
  fun _ r h => ⟨r, h, .refl r⟩

theorem TableAdvances.trans {s t u : RecoveryTable} (h : TableAdvances s t)
    (h' : TableAdvances t u) : TableAdvances s u := by
  intro id r hr
  obtain ⟨r', hr', ha⟩ := h id r hr
  obtain ⟨r'', hr'', ha'⟩ := h' id r' hr'
  exact ⟨r'', hr'', ha.trans ha'⟩

theorem tableAdvances_insert {t t' : RecoveryTable} {r : RecoveryRecord}
    (h : t.insert r = some t') : TableAdvances t t' := by
  intro id s hs
  rw [Table.get_insert h]
  by_cases hid : r.operationId = id
  · have := Table.get_insert_key h
    rw [hid, hs] at this
    cases this
  · exact ⟨s, by rw [if_neg hid, hs], .refl s⟩

/-- Writing back a later state of a row advances the table. -/
theorem tableAdvances_put {t t' : RecoveryTable} {r r' : RecoveryRecord} {id : Str}
    (ha : Advances r r') (h : t.put r' = some t') (hr : t.get id = some r)
    (hid : r'.operationId = id) : TableAdvances t t' := by
  subst hid
  intro id s hs
  rw [Table.get_put h]
  by_cases hid : r'.operationId = id
  · rw [hid, hs] at hr
    cases hr
    exact ⟨r', by rw [if_pos hid, hs, Option.map_some], ha⟩
  · exact ⟨s, by rw [if_neg hid, hs], .refl s⟩

theorem generation_le_of_tableAdvances {db db' : Db}
    (h : TableAdvances db.recovery db'.recovery) (id : Str) :
    generation db id ≤ generation db' id := by
  unfold generation
  cases hr : db.recovery.get id with
  | none => exact Nat.zero_le _
  | some r =>
      obtain ⟨r', hr', ha⟩ := h id r hr
      rw [hr']
      exact ha.1

/-! ### What each call guarantees -/

/-- A claim of an item: the lease carries a higher generation than any before it, and the item now
has that generation. A completed item is not claimed. -/
structure ClaimOf (lease : RecoveryLease) (db db' : Db) : Prop where
  raised : generation db lease.operationId < lease.generation
  current : generation db' lease.operationId = lease.generation
  notCompleted : ∀ row, db.recovery.get lease.operationId = some row → row.status ≠ .completed

theorem claimOf_put {db : Db} {row row' : RecoveryRecord} {recovery : RecoveryTable}
    {token id : Str} (hrow : db.recovery.get id = some row)
    (hput : db.recovery.put row' = some recovery) (hid : row'.operationId = id)
    (hc : row.status ≠ .completed) (hgen : row'.leaseGeneration = row.leaseGeneration + 1) :
    TableAdvances db.recovery recovery ∧
      ClaimOf (leaseOf row' token) db { db with recovery := recovery } := by
  have hlease : (leaseOf row' token).operationId = id := hid
  have hgen' : (leaseOf row' token).generation = row.leaseGeneration + 1 := hgen
  have hadv : Advances row row' := ⟨by omega, fun h => absurd h hc⟩
  refine ⟨tableAdvances_put hadv hput hrow hid, ?_, ?_, ?_⟩
  · simp [generation, hlease, hgen', hrow]
  · simp [generation, hlease, hgen', hgen, Table.get_put_self hrow hput hid]
  · intro r hr
    rw [hlease, hrow] at hr
    cases hr
    exact hc

theorem prepareAndClaim_spec {draw : Draw} {spec : RecoverySpec} {owner : Str} {time : Instant}
    {version : Option ℕ} {checksum : Option Str} {db db' : Db} {lease : RecoveryLease}
    (h : prepareAndClaim draw spec owner time version checksum db = .ok (lease, db')) :
    TableAdvances db.recovery db'.recovery ∧ ClaimOf lease db db' := by
  simp only [prepareAndClaim, bind_eq_ok, raiseIf_eq_ok] at h
  obtain ⟨_, -, _, -, h⟩ := h
  cases hrow : db.recovery.get spec.operationId with
  | none =>
      simp only [hrow, bind_eq_ok, orRaise_eq_ok, pure_eq_ok, Prod.mk.injEq] at h
      obtain ⟨recovery, hins, rfl, rfl⟩ := h
      refine ⟨tableAdvances_insert hins, ?_, ?_, ?_⟩
      · change generation db spec.operationId < 1
        simp [generation, hrow]
      · change generation _ spec.operationId = 1
        have hget : recovery.get spec.operationId =
            some (firstLease draw spec (strip owner) time) :=
          (Table.get_insert hins _).trans (if_pos rfl)
        simp [generation, hget, firstLease]
      · intro row hr
        change db.recovery.get spec.operationId = some row at hr
        rw [hrow] at hr
        cases hr
  | some row =>
      simp only [hrow, bind_eq_ok, raiseIf_eq_ok, orRaise_eq_ok, pure_eq_ok, Prod.mk.injEq] at h
      obtain ⟨_, -, _, -, _, hc, recovery, hput, rfl, rfl⟩ := h
      have hkey := Table.key_of_get hrow
      exact claimOf_put hrow hput hkey hc rfl

theorem claimOperation_spec {draw : Draw} {id owner : Str} {time : Instant}
    {version : Option ℕ} {checksum : Option Str} {db db' : Db} {lease : RecoveryLease}
    (h : claimOperation draw id owner time version checksum db = .ok (lease, db')) :
    TableAdvances db.recovery db'.recovery ∧ ClaimOf lease db db' := by
  simp only [claimOperation, bind_eq_ok, raiseIf_eq_ok, orRaise_eq_ok, pure_eq_ok,
    Prod.mk.injEq] at h
  obtain ⟨_, -, _, -, row, hrow, _, -, _, hfree, recovery, hput, rfl, rfl⟩ := h
  have hkey := Table.key_of_get hrow
  refine claimOf_put hrow hput hkey ?_ rfl
  exact fun hc => hfree (Or.inr hc)

/-- Claiming rows with different operations, each as it stands in the table. -/
theorem claimRows_spec {draw : Draw} {owner : Str} {expiresAt : Instant} {i : ℕ}
    {rows : List RecoveryRecord} {t t' : RecoveryTable} {leases : List RecoveryLease}
    (hnodup : (rows.map RecoveryRecord.operationId).Nodup)
    (hrows : ∀ row ∈ rows, t.get row.operationId = some row)
    (hopen : ∀ row ∈ rows, row.status ≠ .completed)
    (h : claimRows draw owner expiresAt i rows t = .ok (leases, t')) :
    TableAdvances t t' ∧
      (∀ id, (∀ row ∈ rows, row.operationId ≠ id) → t'.get id = t.get id) ∧
      ∀ lease ∈ leases, ∃ row ∈ rows, ∃ row', lease.operationId = row.operationId ∧
        lease.generation = row.leaseGeneration + 1 ∧
        t'.get row.operationId = some row' ∧ row'.leaseGeneration = lease.generation := by
  induction rows generalizing i t leases with
  | nil =>
      simp only [claimRows, Except.ok.injEq, Prod.mk.injEq] at h
      obtain ⟨rfl, rfl⟩ := h
      exact ⟨.refl t, fun _ _ => rfl, by simp⟩
  | cons row rows ih =>
      simp only [claimRows, bind_eq_ok, orRaise_eq_ok, pure_eq_ok, Prod.mk.injEq] at h
      obtain ⟨mid, hput, ⟨rest, final⟩, hrest, rfl, rfl⟩ := h
      rw [List.map_cons, List.nodup_cons] at hnodup
      rw [List.forall_mem_cons] at hrows hopen
      have hne : ∀ s ∈ rows, row.operationId ≠ s.operationId := fun s hs heq =>
        hnodup.1 (heq ▸ List.mem_map_of_mem hs)
      have hmid : ∀ id, row.operationId ≠ id → mid.get id = t.get id := fun id hid => by
        rw [Table.get_put hput, if_neg (by simpa [claimed] using hid)]
      obtain ⟨hadv, hframe, hleases⟩ := ih hnodup.2
        (fun s hs => by rw [hmid _ (hne s hs), hrows.2 s hs]) hopen.2 hrest
      have hself : mid.get row.operationId =
          some (claimed owner (leaseToken draw i) draw.now expiresAt row) :=
        Table.get_put_self hrows.1 hput rfl
      have hclaimed : Advances row (claimed owner (leaseToken draw i) draw.now expiresAt row) :=
        ⟨Nat.le_succ _, fun hc => absurd hc hopen.1⟩
      have hstep : TableAdvances t mid := tableAdvances_put hclaimed hput hrows.1 rfl
      refine ⟨hstep.trans hadv, ?_, ?_⟩
      · intro id hid
        rw [List.forall_mem_cons] at hid
        rw [hframe id hid.2, hmid id hid.1]
      · intro lease hl
        rcases List.mem_cons.mp hl with rfl | hl
        · refine ⟨row, List.mem_cons_self, _, rfl, rfl, ?_, rfl⟩
          rw [hframe _ fun s hs => (hne s hs).symm, hself]
        · obtain ⟨s, hs, s', h1, h2, h3, h4⟩ := hleases lease hl
          exact ⟨s, List.mem_cons_of_mem _ hs, s', h1, h2, h3, h4⟩

theorem mem_dueRows {now : Instant} {limit : ℤ} {locked : Str → Bool} {t : RecoveryTable}
    {row : RecoveryRecord} (h : row ∈ dueRows now limit locked t) :
    t.get row.operationId = some row ∧ isDue now row = true := by
  have hm := List.mem_of_mem_take h
  rw [List.mem_mergeSort, List.mem_filter, Bool.and_eq_true] at hm
  exact ⟨Table.get_eq_some.mpr ⟨hm.1, rfl⟩, hm.2.1⟩

theorem nodup_dueRows (now : Instant) (limit : ℤ) (locked : Str → Bool) (t : RecoveryTable) :
    ((dueRows now limit locked t).map RecoveryRecord.operationId).Nodup := by
  have hfilter : ((t.rows.filter fun r => isDue now r && !locked r.operationId).map
      RecoveryRecord.operationId).Nodup :=
    t.keys_nodup.sublist (List.filter_sublist.map _)
  have hsort := ((List.mergeSort_perm (t.rows.filter fun r => isDue now r && !locked r.operationId)
    dueBefore).map RecoveryRecord.operationId).nodup_iff.mpr hfilter
  exact hsort.sublist ((List.take_sublist _ _).map _)

/-- A due row is neither completed nor paused. -/
theorem status_of_isDue {now : Instant} {row : RecoveryRecord} (h : isDue now row = true) :
    row.status ≠ .completed ∧ row.status ≠ .paused := by
  simp only [isDue, Bool.and_eq_true, Bool.or_eq_true, decide_eq_true_eq] at h
  rcases h.2 with (h | h) | h
  · simp [h]
  · simp [h]
  · simp [h.1]

theorem claimDue_spec {draw : Draw} {owner : Str} {time : Instant} {limit : ℤ}
    {locked : Str → Bool} {db db' : Db} {leases : List RecoveryLease}
    (h : claimDue draw owner time limit locked db = .ok (leases, db')) :
    TableAdvances db.recovery db'.recovery ∧ (∀ lease ∈ leases, ClaimOf lease db db') ∧
      ∀ id row, db.recovery.get id = some row → row.status = .paused →
        (∀ lease ∈ leases, lease.operationId ≠ id) ∧ db'.recovery.get id = some row := by
  simp only [claimDue, bind_eq_ok, raiseIf_eq_ok, pure_eq_ok, Prod.mk.injEq] at h
  obtain ⟨_, -, ⟨ls, recovery⟩, hclaim, rfl, rfl⟩ := h
  have hmem : ∀ row ∈ dueRows draw.now limit locked db.recovery, _ := fun row hr => mem_dueRows hr
  obtain ⟨hadv, hframe, hleases⟩ := claimRows_spec (nodup_dueRows _ _ _ _)
    (fun row hr => (hmem row hr).1) (fun row hr => (status_of_isDue (hmem row hr).2).1) hclaim
  have hnot : ∀ due ∈ dueRows draw.now limit locked db.recovery, ∀ id row,
      db.recovery.get id = some row → row.status = .paused → due.operationId ≠ id := by
    intro due hdue id row hrow hpaused heq
    rw [← heq, (hmem due hdue).1] at hrow
    cases hrow
    exact (status_of_isDue (hmem due hdue).2).2 hpaused
  refine ⟨hadv, fun lease hl => ?_, fun id row hrow hpaused => ⟨fun lease hl => ?_, ?_⟩⟩
  · obtain ⟨row, hrow, row', hid, hgen, hrow', hgen'⟩ := hleases lease hl
    refine ⟨?_, ?_, ?_⟩
    · simp [generation, hid, (hmem row hrow).1, hgen]
    · simp [generation, hid, hrow', hgen']
    · intro r hr
      rw [hid, (hmem row hrow).1] at hr
      cases hr
      exact (status_of_isDue (hmem row hrow).2).1
  · obtain ⟨due, hdue, _, hid, -⟩ := hleases lease hl
    exact fun heq => hnot due hdue id row hrow hpaused (hid.symm.trans heq)
  · change recovery.get id = some row
    rw [hframe id fun due hdue heq => hnot due hdue id row hrow hpaused heq, hrow]

theorem owns_iff {lease : RecoveryLease} {now : Instant} {db : Db} : Owns lease now db ↔
    ∃ row, db.recovery.get lease.operationId = some row ∧ ownsRow lease now row = true := by
  simp only [Owns, ownsRow, Bool.and_eq_true, decide_eq_true_eq, Option.any_eq_true, and_assoc]

theorem heartbeat_spec {draw : Draw} {lease lease' : RecoveryLease} {time : Instant}
    {db db' : Db} (h : heartbeat draw lease time db = .ok (lease', db')) :
    TableAdvances db.recovery db'.recovery ∧ Owns lease draw.now db := by
  simp only [heartbeat, bind_eq_ok, lockedOwnedRow_eq_ok, orRaise_eq_ok, pure_eq_ok,
    Prod.mk.injEq] at h
  obtain ⟨row, ⟨hrow, hown⟩, recovery, hput, -, rfl⟩ := h
  have hkey := Table.key_of_get hrow
  have hleased : row.status = .leased := by
    simp only [ownsRow, Bool.and_eq_true, decide_eq_true_eq] at hown
    exact hown.1.1.1
  have hopen : row.status ≠ .completed := by rw [hleased]; decide
  have hrenewed : Advances row { row with
      leaseExpiresAt := some (leaseExpiry draw.now time), updatedAt := draw.now } :=
    ⟨le_rfl, fun hc => absurd hc hopen⟩
  exact ⟨tableAdvances_put hrenewed hput hrow hkey, owns_iff.mpr ⟨row, hrow, hown⟩⟩

/-- A commit leaves the recovery table alone but for the row it owns. -/
theorem commitObservation_spec {rt : Runtime} {draw : Draw} {lease : RecoveryLease}
    {o : Observation} {db db' : Db} {r : OperationSnapshot × RecoveryItem}
    (h : commitObservation rt draw lease o db = .ok (r, db')) :
    TableAdvances db.recovery db'.recovery ∧ Owns lease draw.now db := by
  obtain ⟨operation', item⟩ := r
  obtain ⟨status, row, operation, p, jobs, mid, recovery, locks, -, hrow, hown, -, -, -, -, -,
    happend, hput, -, -, rfl⟩ := commitObservation_eq_ok h
  obtain ⟨_, _, _, -, -, -, -, -, -, rfl⟩ := appendInSession_eq_ok happend
  have hkey := Table.key_of_get hrow
  have hleased : row.status = .leased := by
    simp only [ownsRow, Bool.and_eq_true, decide_eq_true_eq] at hown
    exact hown.1.1.1
  have hopen : row.status ≠ .completed := by rw [hleased]; decide
  have hcommitted : Advances row (o.recoveryRow draw status row p) :=
    ⟨le_rfl, fun hc => absurd hc hopen⟩
  exact ⟨tableAdvances_put hcommitted hput hrow hkey, owns_iff.mpr ⟨row, hrow, hown⟩⟩

/-! ### Callers that hold no lease -/

theorem lockedOwnedRow_of_not_owns {lease : RecoveryLease} {now : Instant} {db : Db}
    (h : ¬ Owns lease now db) :
    lockedOwnedRow lease now db = .error (.recoveryLeaseLost lease.operationId) := by
  refine lockedOwnedRow_eq_error fun row hrow => ?_
  rw [Bool.eq_false_iff]
  exact fun hown => h (owns_iff.mpr ⟨row, hrow, hown⟩)

theorem heartbeat_of_not_owns {draw : Draw} {lease : RecoveryLease} {db : Db}
    (h : ¬ Owns lease draw.now db) (time : Instant) :
    heartbeat draw lease time db = .error (.recoveryLeaseLost lease.operationId) := by
  rw [heartbeat, lockedOwnedRow_of_not_owns h]
  rfl

theorem commitObservation_of_not_owns {draw : Draw} {lease : RecoveryLease} {db : Db}
    (h : ¬ Owns lease draw.now db) (rt : Runtime) {o : Observation} {status : RecoveryStatus}
    (hs : RecoveryStatus.ofName o.recoveryStatus = some status) :
    commitObservation rt draw lease o db = .error (.recoveryLeaseLost lease.operationId) := by
  rw [commitObservation, hs, lockedOwnedRow_of_not_owns h]
  rfl

/-! ### Runs -/

theorem transact_eq_ok {rt : Runtime} {draw : Draw} {call : Call} {db : Db} {reply : Reply}
    (h : (transact rt draw call db).1 = .ok reply) :
    call.perform rt draw db = .ok (reply, (transact rt draw call db).2) := by
  unfold transact at h ⊢
  cases hp : call.perform rt draw db with
  | error e => simp [hp] at h
  | ok r =>
      simp only [hp, Except.ok.injEq] at h ⊢
      rw [← h]

/-- One call advances every item. -/
theorem transact_advances (rt : Runtime) (draw : Draw) (call : Call) (db : Db) :
    TableAdvances db.recovery (transact rt draw call db).2.recovery := by
  unfold transact
  cases hp : call.perform rt draw db with
  | error e => exact .refl _
  | ok r =>
      obtain ⟨reply, db'⟩ := r
      cases call with
      | prepareAndClaim spec owner time version checksum =>
          simp only [Call.perform, bind_eq_ok, pure_eq_ok, Prod.mk.injEq] at hp
          obtain ⟨⟨lease, _⟩, hcall, -, rfl⟩ := hp
          exact (prepareAndClaim_spec hcall).1
      | claimOperation id owner time version checksum =>
          simp only [Call.perform, bind_eq_ok, pure_eq_ok, Prod.mk.injEq] at hp
          obtain ⟨⟨lease, _⟩, hcall, -, rfl⟩ := hp
          exact (claimOperation_spec hcall).1
      | claimDue owner time limit locked =>
          simp only [Call.perform, bind_eq_ok, pure_eq_ok, Prod.mk.injEq] at hp
          obtain ⟨⟨leases, _⟩, hcall, -, rfl⟩ := hp
          exact (claimDue_spec hcall).1
      | heartbeat lease time =>
          simp only [Call.perform, bind_eq_ok, pure_eq_ok, Prod.mk.injEq] at hp
          obtain ⟨⟨lease', _⟩, hcall, -, rfl⟩ := hp
          exact (heartbeat_spec hcall).1
      | commitObservation lease o =>
          simp only [Call.perform, bind_eq_ok, pure_eq_ok, Prod.mk.injEq] at hp
          obtain ⟨⟨⟨operation, item⟩, _⟩, hcall, -, rfl⟩ := hp
          exact (commitObservation_spec hcall).1

/-- A run of calls advances every item. -/
theorem runCalls_advances (rt : Runtime) (calls : List (Draw × Call)) (db : Db) :
    TableAdvances db.recovery (runCalls rt calls db).recovery := by
  induction calls generalizing db with
  | nil => exact .refl _
  | cons c calls ih => exact (transact_advances rt c.1 c.2 db).trans (ih _)

/-- Every lease a call claims is a claim of its item. -/
theorem claimOf_of_claimed {rt : Runtime} {draw : Draw} {call : Call} {db : Db}
    {leases : List RecoveryLease} (h : (transact rt draw call db).1 = .ok (.claimed leases)) :
    ∀ lease ∈ leases, ClaimOf lease db (transact rt draw call db).2 := by
  have hp := transact_eq_ok h
  cases call with
  | prepareAndClaim spec owner time version checksum =>
      simp only [Call.perform, bind_eq_ok, pure_eq_ok, Prod.mk.injEq, Reply.claimed.injEq] at hp
      obtain ⟨⟨lease, _⟩, hcall, rfl, heq⟩ := hp
      simpa only [List.mem_singleton, forall_eq, ← heq] using (prepareAndClaim_spec hcall).2
  | claimOperation id owner time version checksum =>
      simp only [Call.perform, bind_eq_ok, pure_eq_ok, Prod.mk.injEq, Reply.claimed.injEq] at hp
      obtain ⟨⟨lease, _⟩, hcall, rfl, heq⟩ := hp
      simpa only [List.mem_singleton, forall_eq, ← heq] using (claimOperation_spec hcall).2
  | claimDue owner time limit locked =>
      simp only [Call.perform, bind_eq_ok, pure_eq_ok, Prod.mk.injEq, Reply.claimed.injEq] at hp
      obtain ⟨⟨leases', _⟩, hcall, rfl, heq⟩ := hp
      simpa only [← heq] using (claimDue_spec hcall).2.1
  | heartbeat lease time =>
      simp only [Call.perform, bind_eq_ok, pure_eq_ok, Prod.mk.injEq, reduceCtorEq, false_and,
        and_false, exists_false] at hp
  | commitObservation lease o =>
      simp only [Call.perform, bind_eq_ok, pure_eq_ok, Prod.mk.injEq, reduceCtorEq, false_and,
        and_false, exists_false] at hp

/-- `claim_due` claims no paused item. -/
theorem not_paused_of_claimDue {rt : Runtime} {draw : Draw} {owner : Str} {time : Instant}
    {limit : ℤ} {locked : Str → Bool} {db : Db} {leases : List RecoveryLease}
    (h : (transact rt draw (.claimDue owner time limit locked) db).1 = .ok (.claimed leases)) :
    ∀ lease ∈ leases, ∀ row, db.recovery.get lease.operationId = some row →
      row.status ≠ .paused := by
  have hp := transact_eq_ok h
  simp only [Call.perform, bind_eq_ok, pure_eq_ok, Prod.mk.injEq, Reply.claimed.injEq] at hp
  obtain ⟨⟨leases', _⟩, hcall, rfl, -⟩ := hp
  intro lease hl row hrow hpaused
  exact ((claimDue_spec hcall).2.2 _ row hrow hpaused).1 lease hl rfl

theorem transact_heartbeat (rt : Runtime) (draw : Draw) (lease : RecoveryLease) (time : Instant)
    (db : Db) : ((∃ reply, (transact rt draw (.heartbeat lease time) db).1 = .ok reply) →
        Owns lease draw.now db) ∧
      (¬ Owns lease draw.now db → transact rt draw (.heartbeat lease time) db =
        (.error (.recoveryLeaseLost lease.operationId), db)) := by
  constructor
  · rintro ⟨reply, h⟩
    have hp := transact_eq_ok h
    simp only [Call.perform, bind_eq_ok] at hp
    obtain ⟨⟨lease', _⟩, hcall, -⟩ := hp
    exact (heartbeat_spec hcall).2
  · intro hlost
    simp only [transact, Call.perform, heartbeat_of_not_owns hlost]
    rfl

theorem transact_commitObservation (rt : Runtime) (draw : Draw) (lease : RecoveryLease)
    (o : Observation) (db : Db) :
    ((∃ reply, (transact rt draw (.commitObservation lease o) db).1 = .ok reply) →
        Owns lease draw.now db) ∧
      (¬ Owns lease draw.now db → (transact rt draw (.commitObservation lease o) db).2 = db ∧
        ((RecoveryStatus.ofName o.recoveryStatus).isSome = true →
          (transact rt draw (.commitObservation lease o) db).1 =
            .error (.recoveryLeaseLost lease.operationId))) := by
  have hsuccess : (∃ reply, (transact rt draw (.commitObservation lease o) db).1 = .ok reply) →
      Owns lease draw.now db := by
    rintro ⟨reply, h⟩
    have hp := transact_eq_ok h
    simp only [Call.perform, bind_eq_ok] at hp
    obtain ⟨⟨⟨operation, item⟩, _⟩, hcall, -⟩ := hp
    exact (commitObservation_spec hcall).2
  refine ⟨hsuccess, fun hlost => ⟨?_, fun hs => ?_⟩⟩
  · unfold transact at hsuccess ⊢
    cases hp : Call.perform rt draw db (.commitObservation lease o) with
    | error e => rfl
    | ok r => exact absurd (hsuccess ⟨r.1, by rw [hp]⟩) hlost
  · obtain ⟨status, hstatus⟩ := Option.isSome_iff_exists.mp hs
    simp only [transact, Call.perform, commitObservation_of_not_owns hlost rt hstatus]
    rfl

/-- The fence. At any point of any run, a claim carries a generation above every earlier one and
never takes a completed item, `claim_due` never takes a paused one, a heartbeat or a commit gets
through only with the current unexpired lease and otherwise changes nothing, and a completed item
stays as it is for the rest of the run. -/
theorem lease_fencing (rt : Runtime) (start : Db) (before : List (Draw × Call)) (draw : Draw)
    (call : Call) (after : List (Draw × Call)) :
    let db := runCalls rt before start
    let result := (transact rt draw call db).1
    let db' := (transact rt draw call db).2
    (∀ leases, result = .ok (.claimed leases) → ∀ lease ∈ leases, ClaimOf lease db db') ∧
    (∀ id, generation start id ≤ generation db id ∧ generation db id ≤ generation db' id ∧
      generation db' id ≤ generation (runCalls rt after db') id) ∧
    (∀ lease time, call = .heartbeat lease time →
      ((∃ reply, result = .ok reply) → Owns lease draw.now db) ∧
      (¬ Owns lease draw.now db →
        result = .error (.recoveryLeaseLost lease.operationId) ∧ db' = db)) ∧
    (∀ lease o, call = .commitObservation lease o →
      ((∃ reply, result = .ok reply) → Owns lease draw.now db) ∧
      (¬ Owns lease draw.now db → db' = db ∧
        ((RecoveryStatus.ofName o.recoveryStatus).isSome = true →
          result = .error (.recoveryLeaseLost lease.operationId)))) ∧
    (∀ id row, db.recovery.get id = some row → row.status = .completed →
      db'.recovery.get id = some row ∧ (runCalls rt after db').recovery.get id = some row) ∧
    (∀ owner time limit locked leases, call = .claimDue owner time limit locked →
      result = .ok (.claimed leases) → ∀ lease ∈ leases, ∀ row,
        db.recovery.get lease.operationId = some row → row.status ≠ .paused) := by
  intro db result db'
  have hbefore : TableAdvances start.recovery db.recovery := runCalls_advances rt before start
  have hstep : TableAdvances db.recovery db'.recovery := transact_advances rt draw call db
  have hafter : TableAdvances db'.recovery (runCalls rt after db').recovery :=
    runCalls_advances rt after db'
  refine ⟨fun leases => claimOf_of_claimed, fun id => ⟨?_, ?_, ?_⟩, ?_, ?_, ?_, ?_⟩
  · exact generation_le_of_tableAdvances hbefore id
  · exact generation_le_of_tableAdvances hstep id
  · exact generation_le_of_tableAdvances hafter id
  · rintro lease time rfl
    obtain ⟨hsuccess, hlost⟩ := transact_heartbeat rt draw lease time db
    exact ⟨hsuccess, fun h => Prod.mk.injEq .. ▸ hlost h⟩
  · rintro lease o rfl
    exact transact_commitObservation rt draw lease o db
  · intro id row hrow hc
    obtain ⟨row', hrow', -, heq⟩ := hstep id row hrow
    rw [heq hc] at hrow'
    obtain ⟨row'', hrow'', -, heq'⟩ := hafter id row hrow'
    rw [heq' hc] at hrow''
    exact ⟨hrow', hrow''⟩
  · rintro owner time limit locked leases rfl hclaim
    exact not_paused_of_claimDue hclaim

/-- An item whose lease ends at time 1. -/
def leasedItem : RecoveryRecord :=
  { operationId := "vm-compute-1", recoveryKind := "vm_compute_observation", status := .leased,
    availableAt := 0, leaseOwner := some "worker", leaseToken := some "recovery-lease-0",
    leaseGeneration := 1, leaseExpiresAt := some 1, attemptCount := 1, lastErrorCode := none,
    details := [], createdAt := 0, updatedAt := 0, completedAt := none }

/-- The recovery status is looked at before the lease: on an item whose lease has expired an
unsupported one is refused first, and only a supported one is answered by the loss of the lease. -/
theorem unsupported_status_before_lease :
    let hex : Hex := ⟨"0a", forall_mem_of_all rfl⟩
    let rt : Runtime := ⟨fun _ => hex, fun _ => hex, fun _ => [], fun _ => []⟩
    let draw : Draw := ⟨5, 0, fun _ => hex⟩
    let db : Db := { recovery := (Table.empty.insert leasedItem).getD .empty }
    let lease : RecoveryLease := ⟨itemOf leasedItem, "recovery-lease-0"⟩
    let observed (status : Str) : Observation :=
      { eventType := "observed", stage := "observe", recoveryStatus := status }
    Owns lease 0 db ∧ ¬ Owns lease draw.now db ∧
      (transact rt draw (.commitObservation lease (observed "retry")) db).1 =
        .error (.valueError "Unsupported post-observation recovery status: retry") ∧
      (transact rt draw (.commitObservation lease (observed "retry_wait")) db).1 =
        .error (.recoveryLeaseLost "vm-compute-1") := by
  refine ⟨⟨leasedItem, rfl, rfl, rfl, rfl, 1, rfl, by decide⟩, ?_, rfl, rfl⟩
  rintro ⟨row, hrow, -, -, -, expiresAt, hexpires, hlt⟩
  cases hrow
  cases hexpires
  exact absurd hlt (by decide)

end Gjallar.LeaseFencing

import Gjallar.CoordinationAppend

/-!
# What the locked calls do

The statements of a locked call that commits are the call as a single transaction on the committed
rows: an append and its variants, the claim and the heartbeat of a recovery item, and the release of
a target lock.
-/
namespace Gjallar.Coordination

open Gjallar.Text Gjallar.Data Gjallar.Tables Gjallar.Operation Gjallar.Admission
  Gjallar.OperationStore Gjallar.OperationLedger Gjallar.TargetLocks Gjallar.RecoveryStore
  Gjallar.Redaction Gjallar.ReadCommitted Gjallar.Sessions Gjallar.Processes
  Gjallar.Processes.Fallible

variable {rt : Runtime} {h : Log} {t : ℕ} {rows : CoordinationRows} {db : Db}

/-! ### Appends -/

section Appends

variable {operationId : Str} {a : Append} {drawn : Draw} {row : OperationRecord}

/-- A transaction that does nothing but append. -/
theorem Appended.alone (ha : Appended t operationId a drawn row h) (hrep : Represents rows db)
    (hl : Learned Later guard rows t h) (hwrites : writesOf t h = appendWrites rt drawn row a)
    (hc : Constrained schema (rows.putAll (writesOf t h))) : ∃ db',
      OperationStore.appendInSession rt drawn operationId a db =
        .ok (applyProjection rt drawn row a, db') ∧
      Represents (rows.putAll (writesOf t h)) db' := by
  rw [hwrites, ← List.nil_append (appendWrites rt drawn row a)] at hc
  obtain ⟨operations, events, happend, hmid⟩ := ha.appends hrep hl hc (by simp)
  rw [hwrites]
  exact ⟨_, happend, hmid⟩

theorem Appended.records_alone (ha : Appended t operationId a drawn row h)
    (hwrites : writesOf t h = appendWrites rt drawn row a) : Records rt t h := by
  rw [← List.nil_append (appendWrites rt drawn row a)] at hwrites
  exact ha.records hwrites (by simp)

theorem records_nothing (hw : writesOf t h = []) : Records rt t h :=
  records_other fun _ hmem => absurd (hw ▸ hmem) List.not_mem_nil

theorem keeps_append (hq : requestOf h = some (.locked (.append operationId a))) :
    Keeps rt h (append rt operationId a) fun h' row =>
      Answers rt (.append operationId a) h' (.operation row) := by
  refine keeps_lift fun _ _ => keeps_locked hq fun t => ?_
  refine (keeps_appendInSession ⟨_, List.mem_cons_self, rfl⟩ writesOf_start).mono ?_
  rintro h' row' - ⟨time, id, row, ha, rfl, hwrites, -⟩
  refine ⟨ha.records_alone hwrites, fun rows db hrep hl hc => .inr (.inr ?_)⟩
  obtain ⟨db', happend, hdb'⟩ := ha.alone hrep hl hwrites hc
  refine ⟨⟨time, time, fun _ => id⟩, db.jobs, db', ?_, hdb'⟩
  simp only [atomic, bind_eq_ok, pure_eq_ok]
  exact ⟨_, happend, rfl⟩

/-- A row that was locked is the row of the database. -/
theorem Shows.operation (hs : Shows t h fun rows => rows.get (.operation operationId) =
      some (.operation row)) (hrep : Represents rows db) (hl : Learned Later guard rows t h) :
    db.operations.get operationId = some row := hrep.get_operation (hs rows hl)

theorem Shows.lock {lockId : Str} {lock : OperationLockRecord}
    (hs : Shows t h fun rows => rows.get (.lock lockId) = some (.lock lock))
    (hrep : Represents rows db) (hl : Learned Later guard rows t h) :
    db.locks.get lockId = some lock := hrep.get_lock (hs rows hl)

theorem Shows.recovery {item : RecoveryRecord}
    (hs : Shows t h fun rows => rows.get (.recovery operationId) = some (.recovery item))
    (hrep : Represents rows db) (hl : Learned Later guard rows t h) :
    db.recovery.get operationId = some item := hrep.get_recovery (hs rows hl)

theorem keeps_targetLockConflict {lockId ownerId : Str} {next : OperationStatus}
    (hq : requestOf h = some (.locked (.targetLockConflict operationId lockId ownerId next a))) :
    Keeps rt h (sessionScope (transitionForTargetLockConflict rt operationId lockId ownerId next a))
      fun h' row => Answers rt (.targetLockConflict operationId lockId ownerId next a) h'
        (.operation row) := by
  refine keeps_locked hq fun t => ?_
  have hb : Began ((⟨.start, .ok t⟩ : Entry) :: h) t := ⟨_, List.mem_cons_self, rfl⟩
  refine (keeps_lockOperation hb operationId).bind ?_
  rintro _ found - ⟨rfl, hid⟩
  cases found with
  | none => exact Obeys.throw _
  | some operation =>
      obtain rfl : operation.operationId = operationId := hid operation rfl
      have hop : Shows t (⟨.lock t (.operation operation.operationId),
          .ok (some (.operation operation))⟩ :: ⟨.start, .ok t⟩ :: h) fun rows =>
            rows.get (.operation operation.operationId) = some (.operation operation) :=
              shows_operation writesOf_start
      -- nothing is written: the operation is returned as it is
      have hkeep : ∀ h', (⟨.lock t (.operation operation.operationId),
          .ok (some (.operation operation))⟩ :: (⟨.start, .ok t⟩ : Entry) :: h) <:+ h' →
          writesOf t h' = [] → Records rt t h' ∧
            TakesEffect rt (.targetLockConflict operation.operationId lockId ownerId next a) t h'
              (.operation operation) := fun h' hs hw =>
        ⟨records_nothing hw, fun rows db _ hl _ =>
          .inl ⟨hw, operation, rfl, hop.of_suffix hs rows hl⟩⟩
      by_cases hplanned : operation.status ≠ .planned
      · simp only [if_pos hplanned]
        exact Obeys.pure (hkeep _ List.suffix_rfl writesOf_start)
      · simp only [if_neg hplanned]
        refine (keeps_lockTargetLock (hb.cons _) lockId).bind ?_
        rintro _ found - ⟨rfl, hid⟩
        cases found with
        | none => exact Obeys.pure (hkeep _ (List.suffix_cons _ _) writesOf_start)
        | some lock =>
            obtain rfl : lock.operationLockId = lockId := hid lock rfl
            dsimp only
            split
            · rename_i hexact
              refine (keeps_appendInSession ((hb.cons _).cons _) (by exact writesOf_start)).mono ?_
              rintro h' row' hs ⟨time, id, row, ha, rfl, hwrites, -⟩
              refine ⟨ha.records_alone hwrites, fun rows db hrep hl hc => .inr (.inr ?_)⟩
              obtain ⟨db', happend, hdb'⟩ := ha.alone hrep hl hwrites hc
              have hget := (hop.of_suffix ((List.suffix_cons _ _).trans hs)).operation hrep hl
              have hlock : db.locks.get lock.operationLockId = some lock :=
                ((shows_targetLock (by exact writesOf_start)).of_suffix hs).lock hrep hl
              refine ⟨⟨time, time, fun _ => id⟩, db.jobs, db', ?_, hdb'⟩
              simp only [atomic, OperationLedger.transitionForTargetLockConflict, bind_eq_ok,
                pure_eq_ok, orRaise_eq_ok]
              refine ⟨(_, db'), ⟨operation, hget, ?_⟩, rfl⟩
              rw [if_neg hplanned, hlock]
              exact (if_pos hexact).trans happend
            · exact Obeys.pure (hkeep _ (List.suffix_cons _ _) writesOf_start)

theorem keeps_preDispatchFailure {lockId : Str}
    (hq : requestOf h = some (.locked (.preDispatchFailure operationId lockId a))) :
    Keeps rt h (sessionScope (transitionPreDispatchFailure rt operationId lockId a))
      fun h' b => Answers rt (.preDispatchFailure operationId lockId a) h' (.flag b) := by
  refine keeps_locked hq fun t => ?_
  have hb : Began ((⟨.start, .ok t⟩ : Entry) :: h) t := ⟨_, List.mem_cons_self, rfl⟩
  -- nothing is written, and the answer says so
  have hkeep : ∀ h', writesOf t h' = [] → Records rt t h' ∧
      TakesEffect rt (.preDispatchFailure operationId lockId a) t h' (.flag false) :=
    fun h' hw => ⟨records_nothing hw, fun _ _ _ _ _ => .inl ⟨hw, rfl⟩⟩
  refine (keeps_lockOperation hb operationId).bind ?_
  rintro _ found - ⟨rfl, hid⟩
  cases found with
  | none => exact Obeys.throw _
  | some operation =>
      obtain rfl : operation.operationId = operationId := hid operation rfl
      by_cases hplanned : operation.status ≠ .planned
      · simp only [if_pos hplanned]
        exact Obeys.pure (hkeep _ writesOf_start)
      · simp only [if_neg hplanned]
        refine (keeps_getRecovery (hb.cons _) operation.operationId).bind ?_
        rintro _ found - rfl
        cases found with
        | some item => exact Obeys.pure (hkeep _ writesOf_start)
        | none =>
            refine (keeps_lockTargetLock ((hb.cons _).cons _) lockId).bind ?_
            rintro _ found - ⟨rfl, hid⟩
            cases found with
            | none => exact Obeys.pure (hkeep _ writesOf_start)
            | some lock =>
                obtain rfl : lock.operationLockId = lockId := hid lock rfl
                dsimp only
                split
                · rename_i hexact
                  refine (keeps_appendInSession (((hb.cons _).cons _).cons _)
                    (by exact writesOf_start)).bind ?_
                  rintro h' row' hs ⟨time, id, row, ha, rfl, hwrites, -⟩
                  refine Obeys.pure ⟨ha.records_alone hwrites, fun rows db hrep hl hc =>
                    .inr (.inr ?_)⟩
                  obtain ⟨db', happend, hdb'⟩ := ha.alone hrep hl hwrites hc
                  have hget := ((shows_operation (by exact writesOf_start)).of_suffix
                    (((List.suffix_cons _ _).trans (List.suffix_cons _ _)).trans hs)).operation
                      hrep hl
                  have hlock : db.locks.get lock.operationLockId = some lock :=
                    ((shows_targetLock (by exact writesOf_start)).of_suffix hs).lock hrep hl
                  -- the operation is locked, so no item was added since
                  have hnone : db.recovery.get operation.operationId = none := by
                    have hk : (known Row.key t (guard (.recovery operation.operationId))
                        (⟨.lock t (.operation operation.operationId),
                          .ok (some (.operation operation))⟩ ::
                            ⟨.start, .ok t⟩ :: h)).isSome = true := by
                      simp [known_cons, told, Row.key, guard]
                    exact hrep.no_recovery (((shows_absent hk).of_suffix
                      ((List.suffix_cons _ _).trans hs)) rows hl)
                  refine ⟨⟨time, time, fun _ => id⟩, db.jobs, db', ?_, hdb'⟩
                  simp only [atomic, OperationLedger.transitionPreDispatchFailure, bind_eq_ok,
                    pure_eq_ok, orRaise_eq_ok]
                  refine ⟨(true, db'), ⟨operation, hget, ?_⟩, rfl⟩
                  rw [if_neg hplanned, hnone, hlock]
                  refine (if_pos hexact).trans ?_
                  rw [happend]
                  rfl
                · exact Obeys.pure (hkeep _ writesOf_start)

end Appends

/-! ### Rows that are written back -/

section WrittenBack

/-- A locked recovery item is written back. -/
theorem exists_putRecovery {row : RecoveryRecord} (row' : RecoveryRecord)
    (hrep : Represents rows db)
    (hget : db.recovery.get row.operationId = some row) (hid : row'.operationId = row.operationId) :
    ∃ recovery, db.recovery.put row' = some recovery ∧
      Represents (rows.put (.recovery row')) { db with recovery := recovery } := by
  rw [← hid] at hget
  obtain ⟨recovery, hput⟩ := exists_put (fun _ _ => rfl) hget fun _ hs => hs
  exact ⟨recovery, hput, hrep.putRecovery (Option.isSome_of_eq_some hget) hput⟩

theorem exists_insertRecovery {row : RecoveryRecord} (hrep : Represents rows db)
    (hnone : db.recovery.get row.operationId = none) : ∃ recovery,
      db.recovery.insert row = some recovery ∧
      Represents (rows.put (.recovery row)) { db with recovery := recovery } := by
  obtain ⟨recovery, hinsert⟩ := exists_insert hnone fun _ _ => rfl
  exact ⟨recovery, hinsert, hrep.insertRecovery hinsert⟩

/-- A locked target lock is written back, unless it is opened. -/
theorem exists_putLock {lock lock' : OperationLockRecord} (hrep : Represents rows db)
    (hget : db.locks.get lock.operationLockId = some lock) (hmoves : LockMoves lock lock') :
    ∃ locks, db.locks.put lock' = some locks ∧
      Represents (rows.put (.lock lock')) { db with locks := locks } := by
  rw [← hmoves.operationLockId] at hget
  have hless : ∀ s, sameOpenScope s lock' = true → sameOpenScope s lock = true := by
    intro s hs
    simp only [sameOpenScope, Bool.and_eq_true, decide_eq_true_eq] at hs ⊢
    exact ⟨⟨⟨hs.1.1.1, hmoves.isOpen hs.1.1.2⟩, hs.1.2.trans hmoves.scopeType⟩,
      hs.2.trans hmoves.scopeKey⟩
  obtain ⟨locks, hput⟩ := exists_put sameOpenScope_comm hget hless
  exact ⟨locks, hput, hrep.putLock (Option.isSome_of_eq_some hget) hput⟩

end WrittenBack

/-! ### Recovery items -/

section Recovery

variable {row row' : RecoveryRecord}

theorem moves_of_live (hlive : row.status ≠ .completed) (hid : row'.operationId = row.operationId)
    (hkind : row'.recoveryKind = row.recoveryKind)
    (hgeneration : row.leaseGeneration ≤ row'.leaseGeneration) : RecoveryMoves row row' :=
  ⟨hid, hkind, hgeneration, fun hc => absurd hc hlive⟩

/-- `_assert_operation_identity` locks the operation. -/
theorem keeps_assertOperationIdentity (hb : Began h t) (operationId : Str) (version : Option ℕ)
    (checksum : Option Str) : Keeps rt h (assertOperationIdentity t operationId version checksum)
      fun h' _ => ∃ operation : OperationRecord, operation.operationId = operationId ∧
        h' = ⟨.lock t (.operation operationId), .ok (some (.operation operation))⟩ :: h ∧
        ¬ ((∃ v ∈ version, operation.version ≠ v) ∨
          ∃ c ∈ checksum, operation.lastEventChecksum ≠ c) := by
  refine (keeps_lockOperation hb operationId).bind ?_
  rintro _ found - ⟨rfl, hid⟩
  cases found with
  | none => exact Obeys.throw _
  | some operation =>
      refine keeps_raiseIf.mono ?_
      rintro _ _ - ⟨rfl, hidentity⟩
      exact ⟨operation, hid operation rfl, rfl, hidentity⟩

theorem assertOperationIdentity_eq_ok {operation : OperationRecord} {operationId : Str}
    {version : Option ℕ} {checksum : Option Str}
    (hget : db.operations.get operationId = some operation)
    (hidentity : ¬ ((∃ v ∈ version, operation.version ≠ v) ∨
      ∃ c ∈ checksum, operation.lastEventChecksum ≠ c)) :
    RecoveryStore.assertOperationIdentity operationId version checksum db = .ok () := by
  rw [RecoveryStore.assertOperationIdentity, hget]
  exact (raiseIf_eq_ok _ _ _).mpr hidentity

/-- A recovery item that the transaction has locked. -/
structure Holds (t : ℕ) (h : Log) (operationId : Str) (row : RecoveryRecord) : Prop where
  named : row.operationId = operationId
  shown : Shows t h fun rows => rows.get (.recovery operationId) = some (.recovery row)
  known : known Row.key t (.recovery row.operationId) h = some (.recovery row)

theorem Holds.cons {operationId : Str} (hh : Holds t h operationId row) (e : Entry)
    (he : ∀ v, told e = some (t, v) → v.key ≠ .recovery operationId) :
    Holds t (e :: h) operationId row :=
  ⟨hh.named, hh.shown.of_suffix (List.suffix_cons _ _),
    (known_cons_of_ne (hh.named ▸ he)).trans hh.known⟩

theorem keeps_holdRecovery (hb : Began h t) (hw : writesOf t h = []) (operationId : Str) :
    Keeps rt h (lockRecovery t operationId) fun h' found =>
      h' = ⟨.lock t (.recovery operationId), .ok (found.map .recovery)⟩ :: h ∧
        ∀ row ∈ found, Holds t h' operationId row := by
  refine (keeps_lockRecovery hb operationId).mono ?_
  rintro _ found - ⟨rfl, hid⟩
  refine ⟨rfl, fun row hrow => ?_⟩
  cases hrow
  obtain rfl : row.operationId = operationId := hid row rfl
  refine ⟨rfl, shows_recovery hw, ?_⟩
  simp [known_cons, told, Row.key]

/-- The item is looked for under the lock of its operation. -/
theorem keeps_lockRecoveryAgain {operationId : Str} {first : Option RecoveryRecord} (hb : Began h t)
    (hw : writesOf t h = []) (hguard : (known Row.key t (.operation operationId) h).isSome = true)
    (hfirst : ∀ row ∈ first, Holds t h operationId row) :
    Keeps rt h (lockRecoveryAgain t operationId first) fun h' found => writesOf t h' = [] ∧
      (known Row.key t (.operation operationId) h').isSome = true ∧
      (found = none → Shows t h' fun rows => rows.get (.recovery operationId) = none) ∧
      ∀ row ∈ found, Holds t h' operationId row := by
  cases first with
  | some row => exact Obeys.pure ⟨hw, hguard, nofun, hfirst⟩
  | none =>
      refine (keeps_holdRecovery hb hw operationId).mono ?_
      rintro _ found hs ⟨rfl, hheld⟩
      refine ⟨hw, isSome_known_of_suffix hs hguard, ?_, hheld⟩
      rintro rfl
      exact shows_missing hguard

/-- A transaction that writes one recovery item. -/
theorem records_recovery {row : RecoveryRecord} (hw : writesOf t h = [.recovery row]) :
    Records rt t h := records_other fun w hmem => by
  rw [hw, List.mem_singleton] at hmem
  rw [hmem]
  rfl

/-- A call whose only write is that of the item it has locked. -/
theorem updates_recovery {q : LockedCall} {operationId : Str} {resp : Response} (drawn : Draw)
    (hw : writesOf t h = []) (hh : Holds t h operationId row)
    (hid : row'.operationId = row.operationId)
    (hdoes : ∀ rows db recovery, Represents rows db → Learned Later guard rows t h →
      db.recovery.get operationId = some row → db.recovery.put row' = some recovery →
      atomic rt drawn q db = .ok (resp, { db with recovery := recovery })) :
    Records rt t (⟨.update t (.recovery row'), .ok true⟩ :: h) ∧
      TakesEffect rt q t (⟨.update t (.recovery row'), .ok true⟩ :: h) resp := by
  have hwrites : writesOf t ((⟨.update t (.recovery row'), .ok true⟩ : Entry) :: h) =
      [.recovery row'] := by
    rw [writesOf_update, hw]
  refine ⟨records_recovery hwrites, fun rows db hrep hl _ => .inr (.inr ?_)⟩
  have hl' := hl.of_suffix (List.suffix_cons _ _)
  have hget : db.recovery.get operationId = some row := hh.shown.recovery hrep hl'
  have hold : db.recovery.get row.operationId = some row := by rw [hh.named, hget]
  obtain ⟨recovery, hput, hdb⟩ := exists_putRecovery row' hrep hold hid
  exact ⟨drawn, db.jobs, _, hdoes rows db recovery hrep hl' hget hput, hwrites ▸ hdb⟩

theorem keeps_prepareAndClaim {spec : RecoverySpec} {leaseOwner : Str} {leaseTime : Instant}
    {version : Option ℕ} {checksum : Option Str}
    (hq : requestOf h = some
      (.locked (.prepareAndClaim spec leaseOwner leaseTime version checksum))) :
    Keeps rt h (prepareAndClaim spec leaseOwner leaseTime version checksum) fun h' lease =>
      Answers rt (.prepareAndClaim spec leaseOwner leaseTime version checksum) h'
        (.lease lease) := by
  refine keeps_lift fun _ howner => keeps_now.bind ?_
  rintro _ time - rfl
  refine keeps_draw.bind ?_
  rintro _ id - rfl
  refine keeps_locked (requestOf_cons (requestOf_cons hq _) _) fun t => ?_
  have hb : ∀ {past : Log}, Began ((⟨.start, .ok t⟩ : Entry) :: past) t :=
    ⟨_, List.mem_cons_self, rfl⟩
  refine (keeps_holdRecovery hb writesOf_start spec.operationId).bind ?_
  rintro _ first - ⟨rfl, hheld⟩
  refine (keeps_assertOperationIdentity (hb.cons _) _ _ _).bind ?_
  rintro _ _ - ⟨operation, hop, rfl, hidentity⟩
  have hguard : (known Row.key t (.operation spec.operationId)
      (⟨.lock t (.operation spec.operationId),
      .ok (some (.operation operation))⟩ :: ⟨.lock t (.recovery spec.operationId),
        .ok (first.map .recovery)⟩ :: ⟨.start, .ok t⟩ :: ⟨.outside .draw, .ok id⟩ ::
          ⟨.outside .now, .ok time⟩ :: h)).isSome = true := by
    simp [known_cons, told, Row.key, hop]
  refine (keeps_lockRecoveryAgain ((hb.cons _).cons _) (by exact writesOf_start) hguard
    fun row hrow => (hheld row hrow).cons _ fun v hv => by
      cases hv
      exact fun h => by cases h).bind ?_
  rintro h₃ found hs ⟨hw, hguard, hnone, hheld⟩
  have hb₃ : Began h₃ t := ((hb.cons _).cons _).suffix hs
  have hshown : Shows t h₃ fun rows => rows.get (.operation spec.operationId) =
      some (.operation operation) := by
    rw [← hop]
    rw [← hop] at hs
    exact (shows_operation (by exact writesOf_start)).of_suffix hs
  cases found with
  | none =>
      refine Obeys.bind (keeps_add hb₃ fun _ => hguard) ?_
      rintro _ ⟨⟩ - rfl
      have hwrites : writesOf t (⟨.insert t (.recovery (firstLease ⟨time, time, fun _ => id⟩ spec
          (strip leaseOwner) leaseTime)), .ok true⟩ :: h₃) = [.recovery (firstLease
            ⟨time, time, fun _ => id⟩ spec (strip leaseOwner) leaseTime)] := by
        rw [writesOf_insert, hw]
      refine Obeys.pure ⟨records_recovery hwrites, fun rows db hrep hl _ => .inr (.inr ?_)⟩
      have hl₃ := hl.of_suffix (List.suffix_cons _ _)
      have hget : db.recovery.get spec.operationId = none :=
        hrep.no_recovery (hnone rfl rows hl₃)
      obtain ⟨recovery, hinsert, hdb⟩ : ∃ recovery, db.recovery.insert (firstLease
          ⟨time, time, fun _ => id⟩ spec (strip leaseOwner) leaseTime) = some recovery ∧ _ :=
        exists_insertRecovery hrep hget
      rw [hwrites]
      refine ⟨⟨time, time, fun _ => id⟩, db.jobs, _, ?_, hdb⟩
      simp only [atomic, RecoveryStore.prepareAndClaim, bind_eq_ok, pure_eq_ok]
      refine ⟨(_, _), ⟨(), howner, (), assertOperationIdentity_eq_ok
        (hshown.operation hrep hl₃) hidentity, ?_⟩, rfl⟩
      rw [hget]
      simp only [bind_eq_ok, orRaise_eq_ok, pure_eq_ok]
      exact ⟨recovery, hinsert, rfl⟩
  | some row =>
      have hknown := (hheld row rfl).known
      refine keeps_lift fun _ hkind => keeps_lift fun _ hlive => keeps_lift fun _ hdone => ?_
      refine Obeys.bind (keeps_flush hb₃ hknown (.recovery (moves_of_live
        ((raiseIf_eq_ok _ _ _).mp hdone) rfl rfl (Nat.le_succ _)))) ?_
      rintro _ ⟨⟩ - rfl
      refine Obeys.pure (updates_recovery ⟨time, time, fun _ => id⟩ hw (hheld row rfl) rfl
        fun rows db recovery hrep hl hget hput => ?_)
      simp only [atomic, RecoveryStore.prepareAndClaim, bind_eq_ok, pure_eq_ok]
      refine ⟨(_, _), ⟨(), howner, (), assertOperationIdentity_eq_ok
        (hshown.operation hrep hl) hidentity, ?_⟩, rfl⟩
      rw [hget]
      simp only [bind_eq_ok, orRaise_eq_ok, pure_eq_ok]
      exact ⟨(), hkind, (), hlive, (), hdone, recovery, hput, rfl⟩

theorem keeps_claimOperation {operationId leaseOwner : Str} {leaseTime : Instant}
    {version : Option ℕ} {checksum : Option Str}
    (hq : requestOf h = some (.locked (.claimOperation operationId leaseOwner leaseTime version
      checksum))) :
    Keeps rt h (claimOperation operationId leaseOwner leaseTime version checksum) fun h' lease =>
      Answers rt (.claimOperation operationId leaseOwner leaseTime version checksum) h'
        (.lease lease) := by
  refine keeps_lift fun _ howner => keeps_lift fun _ hnamed => keeps_now.bind ?_
  rintro _ time - rfl
  refine keeps_draw.bind ?_
  rintro _ id - rfl
  refine keeps_locked (requestOf_cons (requestOf_cons hq _) _) fun t => ?_
  have hb : ∀ {past : Log}, Began ((⟨.start, .ok t⟩ : Entry) :: past) t :=
    ⟨_, List.mem_cons_self, rfl⟩
  refine (keeps_holdRecovery hb writesOf_start (strip operationId)).bind ?_
  rintro _ found - ⟨rfl, hheld⟩
  cases found with
  | none => exact Obeys.throw _
  | some row =>
      refine (keeps_assertOperationIdentity (hb.cons _) _ _ _).bind ?_
      rintro h₂ _ hs ⟨operation, hop, rfl, hidentity⟩
      have hheld' := (hheld row rfl).cons (⟨.lock t (.operation (strip operationId)),
        .ok (some (.operation operation))⟩ : Entry) fun v hv => by
          cases hv
          exact fun h => by cases h
      refine keeps_lift fun _ hlive => ?_
      have hbusy := (raiseIf_eq_ok _ _ _).mp hlive
      refine Obeys.bind (keeps_flush ((hb.cons _).cons _) hheld'.known (.recovery (moves_of_live
        (fun hdone => hbusy (.inr hdone)) rfl rfl (Nat.le_succ _)))) ?_
      rintro _ ⟨⟩ - rfl
      refine Obeys.pure (updates_recovery ⟨time, time, fun _ => id⟩ writesOf_start hheld' rfl
        fun rows db recovery hrep hl hget hput => ?_)
      have hopget : db.operations.get (strip operationId) = some operation := by
        rw [← hop] at hl ⊢
        exact (shows_operation (by exact writesOf_start)).operation hrep hl
      simp only [atomic, RecoveryStore.claimOperation, bind_eq_ok, pure_eq_ok, orRaise_eq_ok]
      exact ⟨(_, _), ⟨(), howner, (), hnamed, row, hget, (), assertOperationIdentity_eq_ok hopget
        hidentity, (), hlive, recovery, hput, rfl⟩, rfl⟩

/-- `_locked_owned_row`. -/
theorem keeps_lockedOwnedRow {lease : RecoveryLease} {time : Instant} (hb : Began h t)
    (hw : writesOf t h = []) : Keeps rt h (lockedOwnedRow t lease time) fun h' row =>
      h' = ⟨.lock t (.recovery lease.operationId), .ok (some (.recovery row))⟩ :: h ∧
        Holds t h' lease.operationId row ∧ ownsRow lease time row = true := by
  refine (keeps_holdRecovery hb hw lease.operationId).bind ?_
  rintro _ found - ⟨rfl, hheld⟩
  cases found with
  | none => exact Obeys.throw _
  | some row =>
      by_cases hown : ownsRow lease time row = true
      · simp only [Option.filter_some, if_pos hown]
        exact Obeys.pure ⟨rfl, hheld row rfl, hown⟩
      · simp only [Option.filter_some, if_neg hown]
        exact Obeys.throw _

theorem not_completed_of_ownsRow {lease : RecoveryLease} {time : Instant}
    (hown : ownsRow lease time row = true) : row.status ≠ .completed := by
  simp only [ownsRow, Bool.and_eq_true, decide_eq_true_eq] at hown
  rw [hown.1.1.1]
  decide

theorem keeps_heartbeat {lease : RecoveryLease} {leaseTime : Instant}
    (hq : requestOf h = some (.locked (.heartbeat lease leaseTime))) :
    Keeps rt h (heartbeat lease leaseTime) fun h' lease' =>
      Answers rt (.heartbeat lease leaseTime) h' (.lease lease') := by
  refine keeps_now.bind ?_
  rintro _ time - rfl
  refine keeps_locked (requestOf_cons hq _) fun t => ?_
  have hb : ∀ {past : Log}, Began ((⟨.start, .ok t⟩ : Entry) :: past) t :=
    ⟨_, List.mem_cons_self, rfl⟩
  refine (keeps_lockedOwnedRow hb writesOf_start).bind ?_
  rintro _ row - ⟨rfl, hheld, hown⟩
  refine Obeys.bind (keeps_flush (hb.cons _) hheld.known (.recovery (moves_of_live
    (not_completed_of_ownsRow hown) rfl rfl (Nat.le_refl _)))) ?_
  rintro _ ⟨⟩ - rfl
  refine Obeys.pure (updates_recovery (drawnAt time) writesOf_start hheld rfl
    fun rows db recovery _ _ hget hput => ?_)
  simp only [atomic, RecoveryStore.heartbeat, bind_eq_ok, pure_eq_ok, orRaise_eq_ok]
  exact ⟨(_, _), ⟨row, lockedOwnedRow_eq_ok.mpr ⟨hget, hown⟩, recovery, hput, rfl⟩, rfl⟩

end Recovery

/-! ### Target locks -/

theorem moves_released (drawn : Draw) (reason : Str) (lock : OperationLockRecord) :
    LockMoves lock (released drawn reason lock) :=
  ⟨rfl, rfl, rfl, rfl, rfl, rfl, rfl, fun ho => by cases ho⟩

theorem keeps_release {lock : DurableTargetLock} {reason : Str}
    (hq : requestOf h = some (.locked (.release lock reason))) :
    Keeps rt h (release lock reason) fun h' b =>
      Answers rt (.release lock reason) h' (.flag b) := by
  refine keeps_now.bind ?_
  rintro _ time - rfl
  refine keeps_locked (requestOf_cons hq _) fun t => ?_
  have hb : ∀ {past : Log}, Began ((⟨.start, .ok t⟩ : Entry) :: past) t :=
    ⟨_, List.mem_cons_self, rfl⟩
  have hkeep : ∀ h', writesOf t h' = [] → Records rt t h' ∧
      TakesEffect rt (.release lock reason) t h' (.flag false) :=
    fun h' hw => ⟨records_nothing hw, fun _ _ _ _ _ => .inl ⟨hw, rfl⟩⟩
  refine (keeps_lockTargetLock hb lock.lockId).bind ?_
  rintro _ found - ⟨rfl, hid⟩
  cases found with
  | none => exact Obeys.pure (hkeep _ writesOf_start)
  | some r =>
      have hnamed : r.operationLockId = lock.lockId := hid r rfl
      dsimp only
      split
      · exact Obeys.pure (hkeep _ writesOf_start)
      · rename_i hopen
        have hknown : known Row.key t (.lock r.operationLockId) (⟨.lock t (.lock lock.lockId),
            .ok (some (.lock r))⟩ :: ⟨.start, .ok t⟩ :: ⟨.outside .now, .ok time⟩ :: h) =
              some (.lock r) := by
          simp [known_cons, told, Row.key]
        refine Obeys.bind (keeps_flush (hb.cons _) hknown (.lock (moves_released _ _ r))) ?_
        rintro _ ⟨⟩ - rfl
        have hwrites : writesOf t
          (⟨.update t (.lock (released (drawnAt time) reason r)), .ok true⟩ ::
            ⟨.lock t (.lock lock.lockId), .ok (some (.lock r))⟩ :: ⟨.start, .ok t⟩ ::
              ⟨.outside .now, .ok time⟩ :: h) = [.lock (released (drawnAt time) reason r)] := by
          rw [writesOf_update]
          exact congrArg _ writesOf_start
        refine Obeys.pure ⟨records_other fun w hmem => ?_, fun rows db hrep hl _ => .inr (.inr ?_)⟩
        · obtain rfl := List.mem_singleton.mp (hwrites ▸ hmem)
          rfl
        have hget : db.locks.get r.operationLockId = some r := by
          have hl' := hl.of_suffix (List.suffix_cons _ _)
          rw [← hnamed] at hl'
          exact (shows_targetLock (by exact writesOf_start)).lock hrep hl'
        obtain ⟨locks, hput, hdb⟩ := exists_putLock hrep hget
          (moves_released (drawnAt time) reason r)
        refine ⟨drawnAt time, db.jobs, { db with locks := locks }, ?_, hwrites ▸ hdb⟩
        have hrelease : TargetLocks.release (drawnAt time) lock reason db =
            .ok (true, { db with locks := locks }) := by
          rw [TargetLocks.release, ← hnamed, hget]
          simp only [if_neg hopen, bind_eq_ok, orRaise_eq_ok, pure_eq_ok]
          exact ⟨locks, hput, rfl⟩
        simp only [atomic, bind_eq_ok, pure_eq_ok]
        exact ⟨_, hrelease, rfl⟩

end Gjallar.Coordination

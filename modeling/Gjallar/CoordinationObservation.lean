import Gjallar.BoundLocks
import Gjallar.CoordinationEffects

/-!
# The commit of an observation, statement by statement

Target locks are looked for first and locked then. A row that was found not to match does not match
later, and a row that was not found may have been added since, which is the only way in which the
commit can differ from a single transaction.
-/
namespace Gjallar.Coordination

open Gjallar.Text Gjallar.Data Gjallar.Tables Gjallar.Operation Gjallar.Admission
  Gjallar.OperationStore Gjallar.OperationLedger Gjallar.TargetLocks Gjallar.RecoveryStore
  Gjallar.Redaction Gjallar.ReadCommitted Gjallar.Sessions Gjallar.Processes
  Gjallar.Processes.Fallible

variable {rt : Runtime} {h : Log} {t : ℕ} {rows : CoordinationRows} {db : Db}

/-- A lock was looked for in vain, and it is there now. -/
def Appeared (t : ℕ) (h : Log) (rows : CoordinationRows) : Prop :=
  ∃ e past id, e :: past <:+ h ∧ missed e = some (t, .lock id) ∧ (rows.get (.lock id)).isSome = true

theorem Appeared.of_suffix {past : Log} (ha : Appeared t past rows) (hs : past <:+ h) :
    Appeared t h rows := by
  obtain ⟨e, past', id, hs', hm, hsome⟩ := ha
  exact ⟨e, past', id, hs'.trans hs, hm, hsome⟩

/-! ### Looking for a lock -/

section Looking

variable {lockId : Str} {p : OperationLockRecord → Bool}

/-- A condition that a lock cannot come to meet. -/
def Stable (p : OperationLockRecord → Bool) : Prop :=
  ∀ r r', LockMoves r r' → p r' = true → p r = true

/-- What a search for a lock says about the locks of the database, unless one has appeared. -/
def Finds (t : ℕ) (h : Log) (P : LockTable → Prop) : Prop :=
  ∀ rows db, Represents rows db → Learned Later guard rows t h → Appeared t h rows ∨ P db.locks

theorem Finds.of_suffix {past : Log} {P : LockTable → Prop} (hf : Finds t past P)
    (hs : past <:+ h) :
    Finds t h P := fun rows db hrep hl =>
  (hf rows db hrep (hl.of_suffix hs)).imp_left fun ha => ha.of_suffix hs

/-- The statements behind a condition on one lock. -/
structure Looked (t : ℕ) (lockId : Str) (p : OperationLockRecord → Bool) (h h' : Log)
    (found : Option OperationLockRecord) : Prop where
  writes : writesOf t h' = []
  known : ∀ k, k ≠ .lock lockId → known Row.key t k h' = known Row.key t k h
  held : ∀ r ∈ found, r.operationLockId = lockId ∧ p r = true ∧
    Sessions.known Row.key t (.lock lockId) h' = some (.lock r)
  finds : Finds t h' fun locks => (locks.get lockId).filter p = found

theorem finds_nothing {e : Entry} (hm : missed e = some (t, .lock lockId)) :
    Finds t (e :: h) fun locks => (locks.get lockId).filter p = none := by
  intro rows db hrep hl
  cases hget : db.locks.get lockId with
  | none =>
      refine .inr ?_
      dsimp only
      rw [hget]
      rfl
  | some r =>
      refine .inl ⟨e, h, lockId, List.suffix_rfl, hm, ?_⟩
      rw [hrep.locks, hget]
      rfl

theorem keeps_lockWhere (hb : Began h t) (hw : writesOf t h = []) (hp : Stable p) :
    Keeps rt h (lockWhere t lockId p) fun h' found => Looked t lockId p h h' found := by
  refine (keeps_getTargetLock hb lockId).bind ?_
  rintro _ first - ⟨rfl, hid⟩
  cases first with
  | none => exact Obeys.pure ⟨hw, fun _ _ => rfl, fun _ hr => absurd hr (Option.not_mem_none _),
      finds_nothing rfl⟩
  | some r =>
      obtain rfl : r.operationLockId = lockId := hid r rfl
      by_cases hmatch : p r = true
      · simp only [Option.filter_some, if_pos hmatch]
        refine (keeps_lockTargetLock (hb.cons _) r.operationLockId).bind ?_
        rintro _ found - ⟨rfl, hid⟩
        refine Obeys.pure ?_
        cases found with
        | none => exact ⟨hw, fun _ _ => rfl, fun _ hr => absurd hr (Option.not_mem_none _),
            finds_nothing rfl⟩
        | some r' =>
            have hid : r'.operationLockId = r.operationLockId := hid r' rfl
            refine ⟨hw, fun k hk => ?_, fun r'' hr'' => ?_, fun rows db hrep hl => .inr ?_⟩
            · refine (known_cons_of_ne fun v hv => ?_).trans rfl
              cases hv
              exact fun heq => hk (heq.symm.trans (congrArg Key.lock hid))
            · obtain ⟨heq, hp'⟩ := Option.filter_eq_some_iff.mp hr''
              cases heq
              refine ⟨hid, hp', ?_⟩
              simp [known_cons, told, Row.key, hid]
            · have hget : db.locks.get r.operationLockId = some r' := by
                rw [← hid] at hl ⊢
                exact (shows_targetLock (by exact hw)).lock hrep hl
              dsimp only
              rw [hget]
      · simp only [Option.filter_some, if_neg hmatch]
        refine Obeys.pure ⟨hw, fun _ _ => rfl, fun _ hr => absurd hr (Option.not_mem_none _),
          fun rows db hrep hl => .inr ?_⟩
        -- the row evolves, but it does not come to meet the condition
        obtain ⟨v', hrow, hlater⟩ := shows_get (v := .lock r) hw rows hl
        cases hlater with
        | @lock _ r' hmoves =>
            have hget : db.locks.get r.operationLockId = some r' := hrep.get_lock hrow
            rw [hget, Option.filter_some, if_neg fun hp' => hmatch (hp r r' hmoves hp')]

/-- The locks of all references, in their order. -/
structure LookedAll (t : ℕ) (operation : OperationRecord) (clusterId : Str)
    (references : List LockReference) (h h' : Log) (found : Option (List OperationLockRecord)) :
    Prop where
  writes : writesOf t h' = []
  known : ∀ k, (∀ reference ∈ references, k ≠ .lock reference.lockId) →
    known Row.key t k h' = known Row.key t k h
  held : ∀ rs ∈ found, rs.map OperationLockRecord.operationLockId =
    references.map LockReference.lockId ∧ ∀ r ∈ rs, r.isOpen = true ∧
      Sessions.known Row.key t (.lock r.operationLockId) h' = some (.lock r)
  finds : Finds t h' fun locks =>
    references.mapM (exactVmLock operation clusterId locks) = found

theorem stable_isReferenced (operation : OperationRecord) (clusterId : Str)
    (reference : LockReference) : Stable (isReferenced operation clusterId reference) := by
  intro r r' hm hp
  simp only [isReferenced, Bool.and_eq_true, decide_eq_true_eq] at hp ⊢
  rw [hm.ownerId, hm.operationType, hm.scopeType, hm.vmid, hm.clusterId] at hp
  exact ⟨⟨hp.1.1, hm.isOpen hp.1.2⟩, hp.2⟩

theorem keeps_lockEach {operation : OperationRecord} {clusterId : Str}
    {references : List LockReference} (hnodup : (references.map LockReference.lockId).Nodup)
    (hb : Began h t) (hw : writesOf t h = []) :
    Keeps rt h (lockEach t operation clusterId references) fun h' found =>
      LookedAll t operation clusterId references h h' found := by
  induction references generalizing h with
  | nil =>
      refine Obeys.pure ⟨hw, fun _ _ => rfl, fun rs hrs => ?_, fun _ _ _ _ => .inr rfl⟩
      cases hrs
      exact ⟨rfl, fun _ hr => absurd hr List.not_mem_nil⟩
  | cons reference references ih =>
      rw [List.map_cons, List.nodup_cons] at hnodup
      refine (keeps_lockWhere hb hw (stable_isReferenced operation clusterId reference)).bind ?_
      rintro h₁ found hs₁ hone
      cases found with
      | none =>
          refine Obeys.pure ⟨hone.writes, fun k hk => hone.known k (hk _ List.mem_cons_self),
            fun _ hrs => absurd hrs (Option.not_mem_none _),
            fun rows db hrep hl => (hone.finds rows db hrep hl).imp_right fun hnone => ?_⟩
          have hvm : exactVmLock operation clusterId db.locks reference = none := hnone
          dsimp only
          rw [List.mapM_cons, hvm]
          rfl
      | some r =>
          obtain ⟨hid, hmatch, hknown⟩ := hone.held r rfl
          refine (ih hnodup.2 (hb.suffix hs₁) hone.writes).bind ?_
          rintro h₂ found hs₂ hall
          refine Obeys.pure ⟨hall.writes, fun k hk => ?_, fun rs hrs => ?_,
            fun rows db hrep hl => ?_⟩
          · exact (hall.known k fun _ hmem => hk _ (List.mem_cons_of_mem _ hmem)).trans
              (hone.known k (hk _ List.mem_cons_self))
          · obtain ⟨rest, hrest, rfl⟩ := Option.map_eq_some_iff.mp hrs
            obtain ⟨hids, hheld⟩ := hall.held rest hrest
            refine ⟨by rw [List.map_cons, List.map_cons, hids, hid], ?_⟩
            rw [List.forall_mem_cons]
            refine ⟨⟨?_, ?_⟩, hheld⟩
            · simp only [isReferenced, Bool.and_eq_true] at hmatch
              exact hmatch.1.2
            · rw [hid, hall.known _ fun ref hmem heq => hnodup.1 ?_, hknown]
              exact List.mem_map.mpr ⟨ref, hmem, (Key.lock.inj heq).symm⟩
          · rcases hone.finds.of_suffix hs₂ rows db hrep hl with happeared | hfirst
            · exact .inl happeared
            · refine (hall.finds rows db hrep hl).imp_right fun hrest => ?_
              have hvm : exactVmLock operation clusterId db.locks reference = some r := hfirst
              dsimp only at hrest ⊢
              rw [List.mapM_cons, hvm, hrest]
              cases found <;> rfl

theorem stable_isBound (operation : OperationRecord) (binding : Dict) :
    Stable (isBound operation binding) := by
  intro r r' hm hp
  simp only [isBound, Bool.and_eq_true, decide_eq_true_eq] at hp ⊢
  rw [hm.ownerId, hm.operationType, hm.scopeType, hm.scopeKey, hm.clusterId, hm.vmid] at hp
  exact ⟨hp.1, hm.isOpen hp.2⟩

/-- The query behind a host configuration lock finds it by its identifier. -/
theorem exactHostLock_eq {operation : OperationRecord} {binding : Dict} {locks : LockTable}
    {id : Str} (hid : Dict.getD binding "target_lock_id" .null = .str id) :
    exactHostLock operation binding locks =
      ((locks.get id).filter (isBound operation binding)).filter (isEvident operation binding) := by
  have hfind : (locks.rows.find? fun r =>
      (Dict.getD binding "target_lock_id" .null).eqv (.str r.operationLockId)) = locks.get id := by
    refine congrArg (fun f => locks.rows.find? f) (funext fun r => ?_)
    rw [hid, Value.eqv_str]
    rw [Bool.eq_iff_iff, beq_iff_eq, decide_eq_true_eq, eq_comm]
  rw [exactHostLock, hfind, Option.filter_filter]
  refine congrArg (fun f => (locks.get id).filter f) (funext fun r => ?_)
  simp only [isBound, isEvident, Bool.and_assoc]

theorem exactHostLock_eq_none {operation : OperationRecord} {binding : Dict} {locks : LockTable}
    (hid : ∀ id, Dict.getD binding "target_lock_id" .null ≠ .str id) :
    exactHostLock operation binding locks = none := by
  have hfind : (locks.rows.find? fun r =>
      (Dict.getD binding "target_lock_id" .null).eqv (.str r.operationLockId)) = none :=
    List.find?_eq_none.mpr fun r _ heq => hid _ ((BoundLocks.Value.eqv_str_iff _ _).mp heq)
  rw [exactHostLock, hfind]
  rfl

/-- The target locks that a commit has found. -/
structure Found (t : ℕ) (h h' : Log) (found : List OperationLockRecord) (P : LockTable → Prop) :
    Prop where
  writes : writesOf t h' = []
  known : ∀ id, known Row.key t (.recovery id) h' = known Row.key t (.recovery id) h
  nodup : (found.map OperationLockRecord.operationLockId).Nodup
  held : ∀ r ∈ found, r.isOpen = true ∧
    Sessions.known Row.key t (.lock r.operationLockId) h' = some (.lock r)
  finds : Finds t h' P

theorem keeps_lockHost {operation : OperationRecord} {binding : Dict} (hb : Began h t)
    (hw : writesOf t h = []) : Keeps rt h (lockHost t operation binding) fun h' found =>
      Found t h h' found.toList fun locks => exactHostLock operation binding locks = found := by
  unfold lockHost
  split
  · rename_i id hid
    refine (keeps_lockWhere hb hw (stable_isBound operation binding)).bind ?_
    rintro h' found - hlooked
    refine Obeys.pure ⟨hlooked.writes, fun _ => hlooked.known _ nofun, ?_, fun r hr => ?_,
      fun rows db hrep hl => (hlooked.finds rows db hrep hl).imp_right fun hfirst => ?_⟩
    · cases (found.filter (isEvident operation binding)) <;> simp
    · obtain ⟨hmem, -⟩ := Option.filter_eq_some_iff.mp (Option.mem_toList.mp hr)
      obtain ⟨hid, hmatch, hknown⟩ := hlooked.held r hmem
      simp only [isBound, Bool.and_eq_true] at hmatch
      exact ⟨hmatch.2, hid ▸ hknown⟩
    · dsimp only at hfirst ⊢
      rw [exactHostLock_eq hid, hfirst]
  · rename_i hid
    refine Obeys.pure ⟨hw, fun _ => rfl, List.nodup_nil, fun _ hr => absurd hr List.not_mem_nil,
      fun _ _ _ _ => .inr (exactHostLock_eq_none hid)⟩

/-- `_exact_target_locks`. -/
theorem keeps_exactTargetLocks {operation : OperationRecord} {details : Dict} (hb : Began h t)
    (hw : writesOf t h = []) : Keeps rt h (exactTargetLocks rt t operation details) fun h' found =>
      Found t h h' found fun locks =>
        RecoveryStore.exactTargetLocks rt operation details locks = found := by
  have hnothing : ∀ P : LockTable → Prop, (∀ locks, P locks) → Found t h h [] P := fun P hP =>
    ⟨hw, fun _ => rfl, List.nodup_nil, fun _ hr => absurd hr List.not_mem_nil,
      fun _ _ _ _ => .inr (hP _)⟩
  unfold exactTargetLocks RecoveryStore.exactTargetLocks
  split
  · cases lockBinding rt operation.operationType operation.targetType operation.targetId
      operation.details details with
    | none => exact Obeys.pure (hnothing _ fun _ => rfl)
    | some binding =>
      dsimp only
      split
      · exact Obeys.pure (hnothing _ fun _ => rfl)
      · refine (keeps_lockHost hb hw).bind ?_
        rintro h' found - hfound
        exact Obeys.pure ⟨hfound.writes, hfound.known, hfound.nodup, hfound.held,
          fun rows db hrep hl => (hfound.finds rows db hrep hl).imp_right fun heq =>
            congrArg Option.toList heq⟩
  · split
    · exact Obeys.pure (hnothing _ fun _ => rfl)
    · dsimp only
      split
      · exact Obeys.pure (hnothing _ fun _ => rfl)
      · have hnodup : (((lockReferences operation.operationType operation.targetId operation.details
            details).mergeSort fun a b => decide (a.vmid ≤ b.vmid)).map
              LockReference.lockId).Nodup := by
          rw [((List.mergeSort_perm _ _).map _).nodup_iff]
          rcases BoundLocks.lockReferences_cases operation.operationType operation.targetId
            operation.details details with hnil | ⟨-, hnodup⟩
          · rw [hnil]
            exact List.nodup_nil
          · exact hnodup
        refine (keeps_lockEach hnodup hb hw).bind ?_
        rintro h' found - hall
        refine Obeys.pure ⟨hall.writes, fun id => hall.known _ fun _ _ => nofun, ?_, fun r hr => ?_,
          fun rows db hrep hl => (hall.finds rows db hrep hl).imp_right fun heq => ?_⟩
        · cases found with
          | none => exact List.nodup_nil
          | some rs =>
              rw [Option.getD_some, (hall.held rs rfl).1]
              exact hnodup
        · cases found with
          | none => exact absurd hr List.not_mem_nil
          | some rs => exact (hall.held rs rfl).2 r hr
        · dsimp only at heq ⊢
          rw [heq]

end Looking

/-! ### Writing the locks back -/

theorem putAll_append (rows : CoordinationRows) (ws rest : List Row) :
    rows.putAll (ws ++ rest) = (rows.putAll rest).putAll ws := List.foldr_append

/-- The locks are written one after the other, each a later version of one that is known. -/
theorem keeps_flushLocks {locks : List OperationLockRecord} (hb : Began h t)
    (hnodup : (locks.map OperationLockRecord.operationLockId).Nodup)
    (hheld : ∀ lock ∈ locks, ∃ old, LockMoves old lock ∧
      known Row.key t (.lock lock.operationLockId) h = some (.lock old)) :
    Keeps rt h (flushLocks t locks) fun h' _ =>
      writesOf t h' = (locks.map Row.lock).reverse ++ writesOf t h := by
  induction locks generalizing h with
  | nil => exact Obeys.pure rfl
  | cons lock locks ih =>
      rw [List.map_cons, List.nodup_cons] at hnodup
      obtain ⟨old, hmoves, hknown⟩ := hheld lock List.mem_cons_self
      refine Obeys.bind (keeps_flush hb hknown (.lock hmoves)) ?_
      rintro _ ⟨⟩ - rfl
      refine (ih (hb.cons _) hnodup.2 fun lock' hmem => ?_).mono ?_
      · obtain ⟨old', hmoves', hknown'⟩ := hheld lock' (List.mem_cons_of_mem _ hmem)
        refine ⟨old', hmoves', (known_cons_of_ne fun v hv => ?_).trans hknown'⟩
        cases hv
        intro heq
        exact hnodup.1 (List.mem_map.mpr ⟨lock', hmem, (Key.lock.inj heq).symm⟩)
      · rintro h' ⟨⟩ - hw
        rw [hw, writesOf_update, List.map_cons, List.reverse_cons, List.append_assoc,
          List.singleton_append]

/-- The same locks, written back to the table of locks. -/
theorem exists_putLocks {locks : List OperationLockRecord} (hrep : Represents rows db)
    (hnodup : (locks.map OperationLockRecord.operationLockId).Nodup)
    (hheld : ∀ lock ∈ locks, ∃ old, LockMoves old lock ∧
      db.locks.get lock.operationLockId = some old) : ∃ table,
      db.locks.putAll locks = some table ∧
      Represents (rows.putAll (locks.map Row.lock).reverse) { db with locks := table } := by
  induction locks generalizing rows db with
  | nil => exact ⟨db.locks, rfl, hrep⟩
  | cons lock locks ih =>
      rw [List.map_cons, List.nodup_cons] at hnodup
      obtain ⟨old, hmoves, hget⟩ := hheld lock List.mem_cons_self
      have hold : db.locks.get old.operationLockId = some old := by
        rw [← hmoves.operationLockId, hget]
      obtain ⟨mid, hput, hmid⟩ := exists_putLock hrep hold hmoves
      obtain ⟨table, hputs, htable⟩ := ih hmid hnodup.2 fun lock' hmem => by
        obtain ⟨old', hmoves', hget'⟩ := hheld lock' (List.mem_cons_of_mem _ hmem)
        refine ⟨old', hmoves', ?_⟩
        have hne : lock.operationLockId ≠ lock'.operationLockId := fun heq =>
          hnodup.1 (List.mem_map.mpr ⟨lock', hmem, heq.symm⟩)
        exact (Table.get_put hput _).trans ((if_neg hne).trans hget')
      refine ⟨table, ?_, ?_⟩
      · rw [Table.putAll, List.foldl_cons, Option.bind_some, hput]
        exact hputs
      · have hrows : rows.putAll ((lock :: locks).map Row.lock).reverse =
            (rows.put (.lock lock)).putAll (locks.map Row.lock).reverse := by
          rw [List.map_cons, List.reverse_cons, Rows.putAll, List.foldr_append]
          rfl
        rw [hrows]
        exact htable

theorem keptLocks_sublist (row : RecoveryRecord) (operation : OperationRecord)
    (found : List OperationLockRecord) : (keptLocks row operation found).Sublist found := by
  unfold keptLocks
  split
  · exact List.nil_sublist _
  · exact List.Sublist.refl _

/-- What a commit writes back is a later version of each lock it has found, or nothing. -/
theorem moves_lockUpdates (o : Observation) (drawn : Draw) (lease : RecoveryLease)
    {locks : List OperationLockRecord} (hopen : ∀ r ∈ locks, r.isOpen = true) :
    ((o.lockUpdates drawn lease locks).map OperationLockRecord.operationLockId).Sublist
        (locks.map OperationLockRecord.operationLockId) ∧
      ∀ lock ∈ o.lockUpdates drawn lease locks, ∃ old ∈ locks, LockMoves old lock := by
  unfold Observation.lockUpdates
  split
  · refine ⟨by rw [List.map_map]; exact List.Sublist.refl _, fun lock hmem => ?_⟩
    obtain ⟨old, hold, rfl⟩ := List.mem_map.mp hmem
    exact ⟨old, hold, rfl, rfl, rfl, rfl, rfl, rfl, rfl, fun _ => hopen old hold⟩
  · split
    · refine ⟨by rw [List.map_map]; exact List.Sublist.refl _, fun lock hmem => ?_⟩
      obtain ⟨old, hold, rfl⟩ := List.mem_map.mp hmem
      exact ⟨old, hold, rfl, rfl, rfl, rfl, rfl, rfl, rfl, fun _ => hopen old hold⟩
    · exact ⟨List.nil_sublist _, fun _ hmem => absurd hmem List.not_mem_nil⟩

/-! ### The commit -/

theorem keeps_commitObservation {lease : RecoveryLease} {o : Observation}
    (hq : requestOf h = some (.locked (.commitObservation lease o))) :
    Keeps rt h (commitObservation rt lease o) fun h' r =>
      Answers rt (.commitObservation lease o) h' (.observed r.1 r.2) := by
  refine keeps_lift fun status hstatus => keeps_now.bind ?_
  rintro _ time - rfl
  refine keeps_locked (requestOf_cons hq _) fun t => ?_
  have hb : ∀ {past : Log}, Began ((⟨.start, .ok t⟩ : Entry) :: past) t :=
    ⟨_, List.mem_cons_self, rfl⟩
  refine (keeps_lockedOwnedRow hb writesOf_start).bind ?_
  rintro _ row - ⟨rfl, hheld, hown⟩
  refine (keeps_lockOperation (hb.cons _) lease.operationId).bind ?_
  rintro _ first - ⟨rfl, hid⟩
  cases first with
  | none => exact Obeys.throw _
  | some operation =>
      have hid : operation.operationId = lease.operationId := hid operation rfl
      refine keeps_lift fun _ hoperation => ?_
      refine (keeps_exactTargetLocks ((hb.cons _).cons _) (by exact writesOf_start)).bind ?_
      rintro h₂ found hs₂ hfound
      refine keeps_lift fun _ hlocks => keeps_jobs.bind ?_
      rintro _ projected - rfl
      refine keeps_lift fun x hproject => ?_
      obtain ⟨projection, jobs'⟩ := x
      refine keeps_lift fun _ hbinding => ?_
      have hb₂ : Began h₂ t := ((hb.cons _).cons _).suffix hs₂
      refine (keeps_appendInSession (hb₂.cons _) (by exact hfound.writes)).bind ?_
      rintro h₃ operation' hs₃ ⟨createdAt, id, row₁, happended, rfl, hwrites₃, hsame⟩
      -- the item is still known as it was locked
      have hknown : known Row.key t (.recovery row.operationId) h₃ = some (.recovery row) := by
        rw [hsame _ rfl]
        refine (hfound.known _).trans ((known_cons_of_ne fun v hv => ?_).trans hheld.known)
        cases hv
        exact fun h => by cases h
      refine Obeys.bind (keeps_flush ((hb₂.cons _).suffix hs₃) hknown (.recovery (moves_of_live
        (not_completed_of_ownsRow hown) rfl rfl (Nat.le_refl _)))) ?_
      rintro _ ⟨⟩ - rfl
      have hkept := keptLocks_sublist row operation found
      obtain ⟨hsublist, hupdates⟩ := moves_lockUpdates o (drawnAt time) lease fun r hr =>
        (hfound.held r (hkept.subset hr)).1
      have hnodup := (hfound.nodup.sublist (hkept.map _)).sublist hsublist
      refine (keeps_flushLocks (((hb₂.cons _).suffix hs₃).cons _) hnodup
        fun lock hmem => ?_).bind ?_
      · obtain ⟨old, hold, hmoves⟩ := hupdates lock hmem
        refine ⟨old, hmoves, (known_cons_of_ne fun v hv => ?_).trans ((hsame _ rfl).trans ?_)⟩
        · cases hv
          exact fun h => by cases h
        · rw [hmoves.operationLockId]
          exact (hfound.held old (hkept.subset hold)).2
      rintro h₄ ⟨⟩ hs₄ hwrites₄
      rw [writesOf_update, hwrites₃] at hwrites₄
      have hs₃₄ := (List.suffix_cons _ _).trans hs₄
      have hs₂₄ := (List.suffix_cons _ _).trans (hs₃.trans hs₃₄)
      have hwrites : writesOf t h₄ = ((o.lockUpdates (drawnAt time) lease
          (keptLocks row operation found)).map Row.lock).reverse ++
            [.recovery (o.recoveryRow (drawnAt time) status row projection)] ++
              appendWrites rt ⟨time, createdAt, fun _ => id⟩ row₁ (o.append projection) := by
        rw [hwrites₄, List.append_assoc]
        rfl
      have hws : ∀ w ∈ ((o.lockUpdates (drawnAt time) lease
          (keptLocks row operation found)).map Row.lock).reverse ++
            [.recovery (o.recoveryRow (drawnAt time) status row projection)],
          w.inLedger = false := by
        intro w hw
        rcases List.mem_append.mp hw with hw | hw
        · obtain ⟨lock, -, rfl⟩ := List.mem_map.mp (List.mem_reverse.mp hw)
          rfl
        · obtain rfl := List.mem_singleton.mp hw
          rfl
      have ha₄ := happended.of_suffix hs₃₄
      have ha : Appended t lease.operationId (o.append projection)
          ⟨time, createdAt, fun _ => id⟩ row₁
          h₄ := ⟨ha₄.named, ha₄.expected, ha₄.next, ha₄.found, ha₄.fresh⟩
      refine Obeys.pure ⟨ha.records hwrites hws, fun rows db hrep hl hc => .inr ?_⟩
      rcases hfound.finds.of_suffix hs₂₄ rows db hrep hl with happeared | hexact
      · obtain ⟨e, past, lockId, hpast, hm, hsome⟩ := happeared
        exact .inl ⟨lease, o, e, past, lockId, rfl, hpast, hm, hsome⟩
      refine .inr ?_
      rw [hwrites] at hc ⊢
      obtain ⟨operations, events, happend, hmid⟩ := ha.appends (hrep.withJobs projected) hl hc hws
      have hl₁ := hl.of_suffix (((List.suffix_cons _ _).trans hs₂).trans hs₂₄)
      have hget : db.recovery.get lease.operationId = some row := hheld.shown.recovery hrep hl₁
      have hold : db.recovery.get row.operationId = some row := by rw [hheld.named, hget]
      have hopget : db.operations.get lease.operationId = some operation := by
        have hl₂ := hl.of_suffix (hs₂.trans hs₂₄)
        rw [← hid] at hl₂ ⊢
        exact (shows_operation (by exact writesOf_start)).operation hrep hl₂
      have hbound : o.boundLocks rt row operation db.locks = keptLocks row operation found := by
        unfold Observation.boundLocks keptLocks
        rw [hexact]
      obtain ⟨recovery, hput, hrecovery⟩ := exists_putRecovery
        (o.recoveryRow (drawnAt time) status row projection) hmid hold rfl
      obtain ⟨table, hputs, htable⟩ := exists_putLocks hrecovery hnodup fun lock hmem => by
        obtain ⟨old, hold, hmoves⟩ := hupdates lock hmem
        have hmem : old ∈ db.locks := (Observation.mem_boundLocks (hbound ▸ hold)).1
        exact ⟨old, hmoves, hmoves.operationLockId ▸ Table.get_of_mem hmem⟩
      rw [putAll_append, putAll_append]
      refine ⟨⟨time, createdAt, fun _ => id⟩, projected, _, ?_, htable.withJobs jobs'⟩
      simp only [atomic, RecoveryStore.commitObservation, bind_eq_ok, orRaise_eq_ok, pure_eq_ok,
        lockedOwnedRow_eq_ok]
      exact ⟨((_, _), _), ⟨status, (orRaise_eq_ok _ _ _).mp hstatus, row, ⟨hget, hown⟩, operation,
        hopget, (), hoperation, (), hbound.symm ▸ hlocks, (projection, jobs'), hproject, (),
          hbinding,
        (_, _), happend, recovery, hput, table, hbound.symm ▸ hputs, rfl⟩, rfl⟩

end Gjallar.Coordination

import Gjallar.GuidedRows

/-!
# The invariants of a guided unlock

What holds of the rows of one guided unlock in every reachable state, what the processes have seen
of them, and that every allowed command keeps both. What one command does to the rows of an
operation is said once, by `Advances`.
-/
namespace Gjallar.GuidedSystem

open Gjallar.Text Gjallar.Data Gjallar.Tables Gjallar.Redaction Gjallar.Operation
  Gjallar.OperationStore Gjallar.OperationLedger Gjallar.TargetLocks Gjallar.RecoveryStore
  Gjallar.RecoveryBinding Gjallar.Processes Gjallar.GuidedQm Gjallar.GuidedWorkflow
open Gjallar.Execution (exactLocator)

/-! ### The rows of one operation -/

/-- A durable lock without its status. -/
def unmarked (lock : OperationLockRecord) : DurableTargetLock :=
  { durableLock lock with status := .active }

/-- A lock as an acquisition for the operation inserts it, up to its status. -/
structure Shaped (cluster : Str) (row : OperationRecord) (lock : OperationLockRecord) : Prop where
  scopeType : lock.scopeType = .proxmoxLocator
  exists_acquisition : ∃ vmid draw, exactLocator row.targetId = some vmid ∧
    unmarked lock = durableLock ((acquisition cluster vmid row.operationId).row draw)

/-- The recovery item of an operation. -/
structure ItemSound (rt : Runtime) (c : PlanCommand) (observed : Observed) (row : OperationRecord)
    (locks : LockTable) (item : RecoveryRecord) : Prop where
  kind : item.recoveryKind = recoveryKind
  names : NamesPlan c observed item.details
  single : Dict.get item.details "related_target_locks" = none
  closed : item.status = .completed → isUnfinished row.status = false
  binding : Dict.get item.details "target_lock_id" = some (.str []) ∨ ∃ lock,
    NamesLock rt row item.details locks lock ∧
      Dict.get row.details "target_operation_lock" ≠ none ∧
      (item.status ≠ .completed → lock.isOpen = true)
  bound : row.status = .awaitingOperator ∨ row.status = .awaitingVerification →
    Dict.get item.details "target_lock_id" ≠ some (.str [])

/-- The row of an operation with its recovery item and its locks. -/
structure Sound (rt : Runtime) (cluster : Str) (c : PlanCommand) (observed : Observed)
    (row : OperationRecord) (db : Db) : Prop where
  origin : Origin rt c observed row
  unexposed : row.status = .planned → Dict.get row.details "instruction_bundle" = none
  unstarted : db.recovery.get row.operationId = none → row.status = .planned ∧
    Dict.get row.details "target_operation_lock" = none
  item : ∀ item, db.recovery.get row.operationId = some item →
    ItemSound rt c observed row db.locks item
  shaped : ∀ lock ∈ db.locks, lock.ownerId = row.operationId → Shaped cluster row lock
  active : isUnmarked row.status = true → ∀ lock ∈ db.locks, lock.ownerId = row.operationId →
    lock.isOpen = true → lock.status = .active
  attested : row.status = .awaitingVerification → executionAttested row = true ∧
    lateExecutionAttested row = false ∧ ∃ lock ∈ db.locks, lock.ownerId = row.operationId ∧
      lock.isOpen = true ∧ lockIdOf rt (recordedLock row) = strip lock.operationLockId ∧
      lockClusterId rt (recordedLock row) = strip lock.clusterId

/-- The rows of one guided unlock. -/
structure Coherent (rt : Runtime) (cluster : Str) (id : Str) (db : Db) : Prop where
  fresh : db.operations.get id = none → db.recovery.get id = none ∧
    ∀ lock ∈ db.locks, lock.ownerId ≠ id
  sound : ∀ row, db.operations.get id = some row →
    ∃ c observed, Sound rt cluster c observed row db

/-- The rows of an operation are the same. -/
structure Same (id : Str) (db db' : Db) : Prop where
  operations : db'.operations.get id = db.operations.get id
  recovery : db'.recovery.get id = db.recovery.get id
  locks : ∀ key lock, lock.ownerId = id →
    (db'.locks.get key = some lock ↔ db.locks.get key = some lock)

theorem Foreign.same {id : Str} {db db' : Db} (hf : Foreign db db') (hid : isGuided id = true) :
    Same id db db' :=
  ⟨hf.operations id hid, hf.recovery id hid, fun key lock howner =>
    hf.locks key lock (howner ▸ hid)⟩

section Frame

variable {rt : Runtime} {cluster id : Str} {c : PlanCommand} {observed : Observed}
  {row : OperationRecord} {db db' : Db}

theorem Same.mem (hs : Same id db db') {lock : OperationLockRecord} (howner : lock.ownerId = id) :
    lock ∈ db'.locks ↔ lock ∈ db.locks := by
  have hlocks := hs.locks lock.operationLockId lock howner
  rw [Table.get_eq_some, Table.get_eq_some] at hlocks
  simpa using hlocks

theorem NamesLock.congr {row' : OperationRecord} {details : Dict} {locks locks' : LockTable}
    {lock : OperationLockRecord} (hn : NamesLock rt row details locks lock)
    (hrow : row'.operationId = row.operationId)
    (hlocks : locks'.get lock.operationLockId = some lock) :
    NamesLock rt row' details locks' lock :=
  ⟨hn.id, hlocks, hn.owner.trans hrow.symm, hn.cluster⟩

theorem Sound.same (hsound : Sound rt cluster c observed row db) (hs : Same id db db')
    (hid : row.operationId = id) : Sound rt cluster c observed row db' := by
  subst hid
  have hmem : ∀ lock, lock.ownerId = row.operationId → (lock ∈ db'.locks ↔ lock ∈ db.locks) :=
    fun lock => hs.mem
  refine ⟨hsound.origin, hsound.unexposed, fun hnone => ?_, fun item hitem => ?_,
    fun lock hlock howner => ?_, fun hu lock hlock howner => ?_, fun ha => ?_⟩
  · exact hsound.unstarted (hs.recovery ▸ hnone)
  · obtain ⟨hkind, hnames, hsingle, hclosed, hbinding, hbound⟩ :=
      hsound.item item (hs.recovery ▸ hitem)
    refine ⟨hkind, hnames, hsingle, hclosed, ?_, hbound⟩
    rcases hbinding with hnil | ⟨lock, hlock, hrest⟩
    · exact .inl hnil
    · exact .inr ⟨lock, hlock.congr rfl ((hs.locks _ _ hlock.owner).mpr hlock.mem), hrest⟩
  · exact hsound.shaped lock ((hmem lock howner).mp hlock) howner
  · exact hsound.active hu lock ((hmem lock howner).mp hlock) howner
  · obtain ⟨h₁, h₂, lock, hlock, howner, hrest⟩ := hsound.attested ha
    exact ⟨h₁, h₂, lock, (hmem lock howner).mpr hlock, howner, hrest⟩

/-- The invariant speaks of the rows of the operation only. -/
theorem Coherent.same (hc : Coherent rt cluster id db) (hs : Same id db db') :
    Coherent rt cluster id db' := by
  refine ⟨fun hnone => ?_, fun row hrow => ?_⟩
  · obtain ⟨hrecovery, hlocks⟩ := hc.fresh (hs.operations ▸ hnone)
    exact ⟨hs.recovery.trans hrecovery,
      fun lock hlock howner => hlocks lock ((hs.mem howner).mp hlock) howner⟩
  · have hrow' : db.operations.get id = some row := hs.operations ▸ hrow
    obtain ⟨c, observed, hsound⟩ := hc.sound row hrow'
    exact ⟨c, observed, hsound.same hs (Table.key_of_get hrow')⟩

end Frame

/-! ### One step -/

/-- The later recovery details name the lock that the earlier ones name, if they name one. -/
def KeepsBinding (rt : Runtime) (details details' : Dict) : Prop :=
  Dict.get details "target_lock_id" = some (.str []) ∨
    Dict.get details' "target_lock_id" = Dict.get details "target_lock_id" ∧
      Dict.text rt.repr details' "cluster_id" = Dict.text rt.repr details "cluster_id"

theorem KeepsBinding.refl (rt : Runtime) (details : Dict) : KeepsBinding rt details details :=
  .inr ⟨rfl, rfl⟩

theorem KeepsBinding.trans {rt : Runtime} {d d' d'' : Dict} (h₁ : KeepsBinding rt d d')
    (h₂ : KeepsBinding rt d' d'') : KeepsBinding rt d d'' := by
  rcases h₁ with hnil | ⟨hid, hcluster⟩
  · exact .inl hnil
  rcases h₂ with hnil | ⟨hid', hcluster'⟩
  · exact .inl (hid ▸ hnil)
  · exact .inr ⟨hid'.trans hid, hcluster'.trans hcluster⟩

/-- What a step does to the rows of an operation. -/
structure Advances (rt : Runtime) (id : Str) (db db' : Db) : Prop where
  row : ∀ row, db.operations.get id = some row →
    ∃ row', db'.operations.get id = some row' ∧ Extends row row'
  item : ∀ item, db.recovery.get id = some item →
    ∃ item', db'.recovery.get id = some item' ∧ KeepsBinding rt item.details item'.details
  locks : ∀ row', db'.operations.get id = some row' → isUnmarked row'.status = true →
    ∀ key lock, db.locks.get key = some lock → lock.ownerId = id → db'.locks.get key = some lock

theorem Same.advances {rt : Runtime} {id : Str} {db db' : Db} (hs : Same id db db') :
    Advances rt id db db' :=
  ⟨fun row hrow => ⟨row, hs.operations ▸ hrow, .refl row⟩,
    fun item hitem => ⟨item, hs.recovery ▸ hitem, .refl rt _⟩,
    fun _ _ _ key lock hlock howner => (hs.locks key lock howner).mpr hlock⟩

/-! ### What processes have seen -/

/-- What the events of all processes say about one operation. -/
structure Recalls (rt : Runtime) (id : Str) (db : Db) (t : Trace Command Reply) : Prop where
  seen : ∀ e ∈ t, ∀ s, snapshot e.2 = some s → s.operationId = id →
    ∃ row, db.operations.get id = some row ∧ Extends s row
  items : ∀ e ∈ t, ∀ item ∈ returnedItems e.2, item.operationId = id →
    ∃ row, db.recovery.get id = some row ∧ KeepsBinding rt item.details row.details
  locks : ∀ e ∈ t, ∀ lock, returnedLock e.2 = some lock → lock.durable.ownerId = id →
    ∃ row, db.operations.get id = some row ∧ (isUnmarked row.status = true →
      ∃ r, db.locks.get lock.lockId = some r ∧ r.isOpen = true ∧ lock.durable = durableLock r)
  absent : ∀ t₁ i t₂, t = t₁ ++ (i, ⟨.getRecovery id, .ok none⟩) :: t₂ →
    ∀ s, Seen (historyOf i t₂) s → s.operationId = id → s.status = .planned ∧
      Dict.get s.details "target_operation_lock" = none

/-- What holds of every guided unlock. -/
def Invariant (rt : Runtime) (cluster : Str) (db : Db) (t : Trace Command Reply) : Prop :=
  ∀ id, isGuided id = true → Coherent rt cluster id db ∧ Recalls rt id db t

section Recall

variable {rt : Runtime} {cluster id : Str} {db db' : Db} {t : Trace Command Reply}

theorem Recalls.seen_of_mem (hr : Recalls rt id db t) {i : ℕ} {s : OperationSnapshot}
    (hs : Seen (historyOf i t) s) (hid : s.operationId = id) :
    ∃ row, db.operations.get id = some row ∧ Extends s row := by
  obtain ⟨e, he, hsnapshot⟩ := hs
  exact hr.seen (i, e) (mem_historyOf.mp he) s hsnapshot hid

theorem Recalls.item_of_mem (hr : Recalls rt id db t) {i : ℕ} {item : RecoveryItem}
    (hs : ItemSeen (historyOf i t) item) (hid : item.operationId = id) :
    ∃ row, db.recovery.get id = some row ∧ KeepsBinding rt item.details row.details := by
  obtain ⟨e, he, hitem⟩ := hs
  refine hr.items (i, e) (mem_historyOf.mp he) item ?_ hid
  rcases hitem with hitem | ⟨owner, time, limit, leases, rfl, lease, hlease, rfl⟩
  · obtain ⟨c, r⟩ := e
    cases c <;> cases r <;> first
      | exact Option.mem_toList.mpr hitem
      | cases hitem
  · exact List.mem_map_of_mem hlease

/-- A lock that the workflow read on the target of a VM operation. -/
theorem returnedLock_of_readsLock {h : Past} {operation : OperationSnapshot} {evidence : Dict}
    (htype : operation.targetType = ("proxmox_vm" : Str))
    (hreads : ReadsLock rt h operation (some evidence)) :
    ∃ e ∈ h, ∃ lock, returnedLock e = some lock ∧
      evidence = lockDict rt operation.targetType operation.targetId lock := by
  obtain ⟨found, hmem, hfound⟩ := hreads
  obtain ⟨lock, rfl, hlock⟩ := Option.map_eq_some_iff.mp hfound.symm
  exact ⟨_, hmem, lock, if_pos htype, hlock.symm⟩

/-- What processes have seen stays true. -/
theorem Recalls.advance (hr : Recalls rt id db t) (ha : Advances rt id db db') :
    Recalls rt id db' t := by
  refine ⟨fun e he s hs hid => ?_, fun e he item hitem hid => ?_,
    fun e he lock hlock hid => ?_, hr.absent⟩
  · obtain ⟨row, hrow, hextends⟩ := hr.seen e he s hs hid
    obtain ⟨row', hrow', hextends'⟩ := ha.row row hrow
    exact ⟨row', hrow', hextends.trans hextends'⟩
  · obtain ⟨row, hrow, hkeeps⟩ := hr.items e he item hitem hid
    obtain ⟨row', hrow', hkeeps'⟩ := ha.item row hrow
    exact ⟨row', hrow', hkeeps.trans hkeeps'⟩
  · obtain ⟨row, hrow, hstays⟩ := hr.locks e he lock hlock hid
    obtain ⟨row', hrow', hextends⟩ := ha.row row hrow
    refine ⟨row', hrow', fun hu => ?_⟩
    obtain ⟨r, hget, hopen, hdurable⟩ := hstays (hextends.unmarked hu)
    have howner : r.ownerId = id := by
      rw [hdurable] at hid
      exact hid
    exact ⟨r, ha.locks row' hrow' hu _ r hget howner, hopen, hdurable⟩

/-- What an event says is true when it happens. -/
theorem Recalls.event (hr : Recalls rt id db' t) (hc : Coherent rt cluster id db') {i : ℕ}
    {c : Command} {r : Reply c} (hexec : Exec rt cluster db c r db') :
    Recalls rt id db' ((i, ⟨c, r⟩) :: t) := by
  refine ⟨?_, ?_, ?_, fun t₁ j t₂ ht s hs hid => ?_⟩
  · rw [List.forall_mem_cons]
    exact ⟨fun s hs hid => ⟨s, hid ▸ exec_snapshot hexec hs, .refl s⟩, hr.seen⟩
  · rw [List.forall_mem_cons]
    refine ⟨fun item hitem hid => ?_, hr.items⟩
    obtain ⟨row, hrow, rfl⟩ := exec_items hexec item hitem
    exact ⟨row, hid ▸ hrow, .refl rt _⟩
  · rw [List.forall_mem_cons]
    refine ⟨fun lock hlock hid => ?_, hr.locks⟩
    obtain ⟨r, hget, hopen, hdurable⟩ := exec_lock hexec hlock
    have howner : r.ownerId = id := by
      rw [hdurable] at hid
      exact hid
    cases hrow : db'.operations.get id with
    | none => exact absurd howner ((hc.fresh hrow).2 r (Table.mem_of_get hget))
    | some row => exact ⟨row, rfl, fun _ => ⟨r, hget, hopen, hdurable⟩⟩
  · cases t₁ with
    | cons e t₁ => exact hr.absent t₁ j t₂ (List.cons.inj ht).2 s hs hid
    | nil =>
        obtain ⟨heq, rfl⟩ := List.cons.inj ht
        obtain ⟨rfl, hevent⟩ := Prod.mk.inj heq
        cases hevent
        obtain ⟨rfl, hreads⟩ := hexec
        obtain ⟨row, hrow, hextends⟩ := hr.seen_of_mem hs hid
        have hnone : db'.recovery.get id = none := by
          rcases hreads with hreads | hreads
          · exact Option.map_eq_none_iff.mp (Except.ok.inj hreads).symm
          · cases hreads
        obtain ⟨_, _, hsound⟩ := hc.sound row hrow
        have hkey : row.operationId = id := Table.key_of_get hrow
        obtain ⟨hplanned, hentry⟩ := hsound.unstarted (hkey ▸ hnone)
        refine ⟨hextends.planned hplanned, ?_⟩
        by_contra hne
        exact hextends.locked hne hentry

end Recall

end Gjallar.GuidedSystem

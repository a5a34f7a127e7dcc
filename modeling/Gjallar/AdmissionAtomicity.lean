import Gjallar.Transactions
import Gjallar.VmAdmission

/-!
# Atomicity of an admission

`VmMutationAdmission.prepare` statement by statement, among other admissions, releases and
connection changes: it admits a mutation with its operation, its recovery item and all its locks,
or it adds none of them.
-/
namespace Gjallar.AdmissionAtomicity

open Gjallar.Text Gjallar.Data Gjallar.Tables Gjallar.Operation Gjallar.Admission
  Gjallar.OperationStore Gjallar.TargetLocks Gjallar.RecoveryStore Gjallar.Redaction
  Gjallar.VmAdmission Gjallar.Transactions

/-! ### The statements -/

section Statements

variable (rt : Runtime) (process : Process) (draws : ℕ → Draw) (q : AdmissionRequest)

/-- `acquire`. The admission by the connection takes the connection lock. -/
def acquireScript (draw : Draw) (a : Acquisition) : Script Db StoreError DurableTargetLock := do
  Script.check fun db => a.precheck rt db.locks
  Script.takeLock
  Script.check fun db => a.admission process db.connections
  Script.check fun db => a.hostCheck db.locks
  Script.exec fun db => do
    let (lock, locks) ← a.insert rt draw db.locks
    return (lock, { db with locks := locks })

def acquireScripts : ℕ → List ℤ → Script Db StoreError (List DurableTargetLock)
  | _, [] => return []
  | i, vmid :: vmids => do
      let lock ← acquireScript rt process (draws i) (q.acquisition vmid)
      let locks ← acquireScripts (i + 1) vmids
      return lock :: locks

def releaseScripts (draw : Draw) (reason : Str) :
    List DurableTargetLock → Script Db StoreError Unit
  | [] => return ()
  | lock :: locks => do
      let _ ← Script.exec (release draw lock reason)
      releaseScripts draw reason locks

/-- The insertion of `create`. A failed flush leaves the shared session unusable. -/
def insertOperation (draw : Draw) (spec : OperationSpec) (db : Db) :
    Except StoreError ((OperationSnapshot × Bool) × Db) :=
  match db.operations.insert (newOperation rt draw spec),
      db.events.insert (createdEvent rt draw spec) with
  | some operations, some events =>
      .ok ((newOperation rt draw spec, true),
        { db with operations := operations, events := events })
  | _, _ => .error .integrityError

/-- `create`. -/
def createScript (draw : Draw) (spec : OperationSpec) :
    Script Db StoreError (OperationSnapshot × Bool) := do
  match ← Script.query fun db => getByScope db spec with
  | some existing => Script.lift (resolveExisting existing spec)
  | none => Script.exec (insertOperation rt draw spec)

/-- The answer to a request that another transaction served before the locks were taken. -/
def lateReplay (existing : OperationRecord) (acquired : List DurableTargetLock) :
    Script Db StoreError (OperationSnapshot × Option RecoveryLease) := do
  let operation ← Script.lift (replay q existing)
  releaseScripts (draws 2) (q.spec.operationType.name ++ ("_completed_replay" : Str)) acquired
  return (operation, none)

/-- The operation and its recovery item. -/
def createAndClaim (acquired : List DurableTargetLock) :
    Script Db StoreError (OperationSnapshot × Option RecoveryLease) := do
  let bound ← Script.lift (binding q acquired)
  let created ← createScript rt (draws 2)
    { q.spec with details := Dict.merge q.spec.details bound }
  let recovery ← Script.lift (recoverySpec q bound)
  let owner := q.spec.operationType.name ++ (":" : Str) ++ ((draws 3).uuid 1).digits
  let lease ← Script.exec (prepareAndClaim (draws 3) recovery owner (Instant.seconds 60) none none)
  return (created.1, some lease)

/-- `prepare`. -/
def prepareScript : Script Db StoreError (OperationSnapshot × Option RecoveryLease) := do
  Script.lift q.check
  match ← Script.query fun db => db.operations.get q.operationId with
  | some existing =>
      let operation ← Script.lift (replay q existing)
      return (operation, none)
  | none =>
      let acquired ← acquireScripts rt process draws q 0 q.targets
      match ← Script.query fun db => db.operations.get q.operationId with
      | some existing => lateReplay draws q existing acquired
      | none => createAndClaim rt draws q acquired

end Statements

/-! ### Without other transactions -/

theorem acquireScript_alone (rt : Runtime) (process : Process) (draw : Draw) (a : Acquisition)
    (db : Db) : (acquireScript rt process draw a).alone db = acquire rt process draw a db := by
  simp only [acquireScript, Script.alone_check_bind, Script.alone_takeLock_bind,
    Script.alone_exec]
  rfl

theorem acquireScripts_alone (rt : Runtime) (process : Process) (draws : ℕ → Draw)
    (q : AdmissionRequest) (i : ℕ) (vmids : List ℤ) (db : Db) :
    (acquireScripts rt process draws q i vmids).alone db =
      acquireAll rt process draws q i vmids db := by
  induction vmids generalizing i db with
  | nil => rfl
  | cons vmid vmids ih =>
      simp only [acquireScripts, acquireAll, Script.alone_bind, acquireScript_alone,
        Script.alone_pure, ih]
      rfl

theorem releaseScripts_alone (draw : Draw) (reason : Str) (locks : List DurableTargetLock)
    (db : Db) : (releaseScripts draw reason locks).alone db =
      releaseAll draw reason locks db >>= fun db => .ok ((), db) := by
  induction locks generalizing db with
  | nil => rfl
  | cons lock locks ih =>
      simp only [releaseScripts, releaseAll, Script.alone_exec_bind, ih]
      cases release draw lock reason db with
      | error e => rfl
      | ok r => rfl

theorem createScript_alone (rt : Runtime) (draw : Draw) (spec : OperationSpec) (db : Db)
    (hnone : db.operations.get spec.operationId = none) :
    (createScript rt draw spec).alone db = create rt draw spec db := by
  simp only [createScript, create, Script.alone_query_bind]
  cases hscope : getByScope db spec with
  | some existing =>
      show (Script.lift (resolveExisting existing spec)).alone db =
        resolveExisting existing spec >>= fun r => pure (r, db)
      cases resolveExisting existing spec with
      | error e => rfl
      | ok r => rfl
  | none =>
      show (Script.exec (insertOperation rt draw spec)).alone db = _
      rw [Script.alone_exec, insertOperation]
      cases db.operations.insert (newOperation rt draw spec) with
      | none => simp only [hnone]
      | some operations =>
          cases db.events.insert (createdEvent rt draw spec) with
          | none => simp only [hnone]
          | some events => rfl

/-- Without other transactions the statements are `prepare`, with its first lookup made at once. -/
theorem prepareScript_alone (rt : Runtime) (process : Process) (draws : ℕ → Draw)
    (q : AdmissionRequest) (db : Db) :
    (prepareScript rt process draws q).alone db =
      prepare rt process draws q (db.operations.get q.operationId) db := by
  simp only [prepareScript, prepare, Script.alone_lift_bind, Script.alone_query_bind]
  congr 1
  funext _
  cases hfirst : db.operations.get q.operationId with
  | some existing => exact Script.alone_lift_bind _ _ _
  | none =>
      simp only [Script.alone_bind, acquireScripts_alone]
      congr 1
      funext result
      obtain ⟨acquired, locked⟩ := result
      have hquery : (Script.query fun db : Db => db.operations.get q.operationId).alone locked =
          (.ok (locked.operations.get q.operationId, locked) : Except StoreError _) := rfl
      rw [hquery]
      cases hsecond : locked.operations.get q.operationId with
      | some existing =>
          change (lateReplay draws q existing acquired).alone locked = _
          simp only [lateReplay, Script.alone_lift_bind]
          congr 1
          funext operation
          simp only [Script.alone_bind, releaseScripts_alone]
          cases releaseAll (draws 2) (q.spec.operationType.name ++ ("_completed_replay" : Str))
              acquired locked with
          | error e => rfl
          | ok db => rfl
      | none =>
          change (createAndClaim rt draws q acquired).alone locked = _
          simp only [createAndClaim, Script.alone_lift_bind]
          congr 1
          funext bound
          rw [Script.alone_bind, createScript_alone _ _ _ _ (by exact hsecond)]
          congr 1
          funext result
          obtain ⟨created, db'⟩ := result
          exact Script.alone_lift_bind _ _ _

/-! ### Among other transactions -/

/-- What other transactions may do while an admission runs. Releases and the commits of other
operations always may; an admission of the same operation or a change of the connections needs the
connection lock. No transaction deletes an operation or changes its intent, and a recovery item
refers to an operation. The connections seen may be any. -/
structure Concurrent (operationId : Str) (t t' : Txn Db) : Prop where
  held : t'.held = t.held
  operations : Overlay t.base.operations.get t.view.operations.get t'.base.operations.get
    t'.view.operations.get
  recovery : Overlay t.base.recovery.get t.view.recovery.get t'.base.recovery.get
    t'.view.recovery.get
  locks : Overlay t.base.locks.get t.view.locks.get t'.base.locks.get t'.view.locks.get
  persists : ∀ id row, t.base.operations.get id = some row →
    ∃ row', t'.base.operations.get id = some row' ∧ row'.intentDigest = row.intentDigest
  referenced : ∀ id, t'.base.operations.get id = none → t'.base.recovery.get id = none
  waits : t.held = true → t.base.operations.get operationId = none →
    t'.base.operations.get operationId = none

/-- The rows that a running admission has added. -/
structure Wrote (operations : List OperationRecord) (items : List RecoveryRecord)
    (rows : List OperationLockRecord) (t : Txn Db) : Prop where
  operations : Adds OperationRecord.operationId operations t.base.operations.get
    t.view.operations.get
  items : Adds RecoveryRecord.operationId items t.base.recovery.get t.view.recovery.get
  locks : Adds OperationLockRecord.operationLockId rows t.base.locks.get t.view.locks.get

section Wrote

variable {operationId : Str} {operations : List OperationRecord} {items : List RecoveryRecord}
  {rows : List OperationLockRecord} {t t' : Txn Db}

theorem wrote_start (db : Db) : Wrote [] [] [] (Txn.start db) :=
  ⟨Adds.refl _ _, Adds.refl _ _, Adds.refl _ _⟩

theorem Wrote.concurrent (h : Wrote operations items rows t) (hc : Concurrent operationId t t') :
    Wrote operations items rows t' :=
  ⟨h.operations.overlay hc.operations, h.items.overlay hc.recovery, h.locks.overlay hc.locks⟩

/-- A row added to a table is one more in the view. -/
theorem adds_insert {α κ : Type} [DecidableEq κ] {key : α → κ} {clash : α → α → Bool}
    {base view view' : Table α κ key clash} {added : List α} {r : α}
    (h : Adds key added base.get view.get) (hins : view.insert r = some view') :
    Adds key (added ++ [r]) base.get view'.get :=
  h.append (Table.get_insert_key hins) ((Table.get_insert hins _).trans (if_pos rfl))
    fun k hk => (Table.get_insert hins k).trans (if_neg hk)

theorem acquireScript_ok {rt : Runtime} {process : Process} {draw : Draw} {a : Acquisition}
    {lock : DurableTargetLock} (hw : Wrote operations items rows t)
    (h : Runs (Concurrent operationId) (acquireScript rt process draw a) t (.ok lock) t') :
    lock = durableLock (a.row draw) ∧ t'.held = true ∧
      Wrote operations items (rows ++ [a.row draw]) t' := by
  obtain ⟨_, t₁, h₁, hrest₁⟩ := runs_bind_ok h
  obtain ⟨_, t₂, h₂, hrest₂⟩ := runs_bind_ok hrest₁
  obtain ⟨_, t₃, h₃, hrest₃⟩ := runs_bind_ok hrest₂
  obtain ⟨_, t₄, h₄, hrest₄⟩ := runs_bind_ok hrest₃
  have hw₁ := hw.concurrent (runs_check_ok h₁).1
  obtain ⟨u, hu, rfl⟩ := runs_takeLock_ok h₂
  have hw₂ : Wrote operations items rows { u with held := true } :=
    ⟨(hw₁.concurrent hu).operations, (hw₁.concurrent hu).items, (hw₁.concurrent hu).locks⟩
  have hw₃ := hw₂.concurrent (runs_check_ok h₃).1
  have hw₄ := hw₃.concurrent (runs_check_ok h₄).1
  obtain ⟨v, db, hv, hins, rfl⟩ := runs_exec_ok hrest₄
  have hw₅ := hw₄.concurrent hv
  obtain ⟨⟨l, locks⟩, hins, heq⟩ := bind_eq_ok.mp hins
  obtain ⟨rfl, rfl⟩ := Prod.mk.inj (pure_eq_ok.mp heq)
  unfold Acquisition.insert at hins
  split at hins
  · rename_i hrow
    cases hins
    refine ⟨rfl, ?_, hw₅.operations, hw₅.items, adds_insert hw₅.locks hrow⟩
    show v.held = true
    rw [hv.held, (runs_check_ok h₄).1.held, (runs_check_ok h₃).1.held]
  · cases hins

/-- The rows of the locks of some targets. -/
def lockRows (draws : ℕ → Draw) (q : AdmissionRequest) : ℕ → List ℤ → List OperationLockRecord
  | _, [] => []
  | i, vmid :: vmids => (q.acquisition vmid).row (draws i) :: lockRows draws q (i + 1) vmids

theorem acquireScripts_ok {rt : Runtime} {process : Process} {draws : ℕ → Draw}
    {q : AdmissionRequest} {i : ℕ} {vmids : List ℤ} {acquired : List DurableTargetLock}
    (hw : Wrote operations items rows t)
    (h : Runs (Concurrent operationId) (acquireScripts rt process draws q i vmids) t
      (.ok acquired) t') :
    acquired = (lockRows draws q i vmids).map durableLock ∧
      (t.held = true ∨ vmids ≠ [] → t'.held = true) ∧
      Wrote operations items (rows ++ lockRows draws q i vmids) t' := by
  induction vmids generalizing i rows t acquired with
  | nil =>
      obtain ⟨rfl, rfl⟩ := runs_pure_ok h
      refine ⟨rfl, fun hheld => hheld.resolve_right (by simp), ?_⟩
      simpa [lockRows] using hw
  | cons vmid vmids ih =>
      obtain ⟨lock, u, hlock, hrest⟩ := runs_bind_ok h
      obtain ⟨locks, v, hlocks, hpure⟩ := runs_bind_ok hrest
      obtain ⟨rfl, rfl⟩ := runs_pure_ok hpure
      obtain ⟨rfl, hheld, hw'⟩ := acquireScript_ok hw hlock
      obtain ⟨rfl, hheld', hw''⟩ := ih hw' hlocks
      refine ⟨rfl, fun _ => hheld' (.inl hheld), ?_⟩
      simpa [lockRows] using hw''

/-- The release of a lock that the transaction has taken closes its row. -/
theorem release_own {draw : Draw} {lock : DurableTargetLock} {reason : Str} {db db' : Db}
    {b : Bool} {row : OperationLockRecord} (hrow : db.locks.get lock.lockId = some row)
    (hopen : row.isOpen = true) (howner : row.ownerId = lock.ownerId)
    (hscope : row.scopeKey = lock.scopeKey) (h : release draw lock reason db = .ok (b, db')) :
    ∃ locks, db' = { db with locks := locks } ∧
      db.locks.put (released draw reason row) = some locks := by
  unfold release at h
  simp only [hrow, howner, hscope, hopen, ne_eq, not_true_eq_false, or_false, Bool.true_eq_false,
    if_false] at h
  obtain ⟨locks, hput, heq⟩ := bind_eq_ok.mp h
  obtain ⟨-, rfl⟩ := Prod.mk.inj (pure_eq_ok.mp heq)
  exact ⟨locks, rfl, (orRaise_eq_ok _ _ _).mp hput⟩

theorem releaseScripts_ok {draw : Draw} {reason : Str} {taken : List OperationLockRecord}
    {u : Unit} (closed : List OperationLockRecord) (hw : Wrote operations items (closed ++ taken) t)
    (hclosed : ∀ row ∈ closed, row.isOpen = false) (hopen : ∀ row ∈ taken, row.isOpen = true)
    (h : Runs (Concurrent operationId) (releaseScripts draw reason (taken.map durableLock)) t
      (.ok u) t') :
    ∃ rows, Wrote operations items rows t' ∧ ∀ row ∈ rows, row.isOpen = false := by
  induction taken generalizing closed t with
  | nil =>
      obtain ⟨-, rfl⟩ := runs_pure_ok h
      exact ⟨closed, List.append_nil closed ▸ hw, hclosed⟩
  | cons row taken ih =>
      obtain ⟨b, w, hstatement, hrest⟩ := runs_bind_ok h
      obtain ⟨v, db, hv, hrel, rfl⟩ := runs_exec_ok hstatement
      have hw' := hw.concurrent hv
      have hget : v.view.locks.get (durableLock row).lockId = some row :=
        (hw'.locks.new row (by simp)).2
      rw [List.forall_mem_cons] at hopen
      obtain ⟨locks, rfl, hput⟩ := release_own hget hopen.1 rfl rfl hrel
      have hadds := hw'.locks.replace (r := released draw reason row) rfl
        (Table.get_put_self hget hput rfl)
        fun k hk => (Table.get_put hput k).trans (if_neg hk)
      have hmid : Wrote operations items ((closed ++ [released draw reason row]) ++ taken)
          { v with view := { v.view with locks := locks } } :=
        ⟨hw'.operations, hw'.items, by simpa using hadds⟩
      refine ih _ hmid (fun r hr => ?_) hopen.2 hrest
      rcases List.mem_append.mp hr with hr | hr
      · exact hclosed r hr
      · rw [List.mem_singleton.mp hr]
        rfl

/-- Under the connection lock an absent operation stays absent until the transaction inserts it. -/
theorem Wrote.absent (hw : Wrote [] items rows t) (hc : Concurrent operationId t t')
    (hheld : t.held = true) (hnone : t.view.operations.get operationId = none) :
    t'.view.operations.get operationId = none := by
  have hbase : t.base.operations.get operationId = none :=
    (hw.operations.same operationId (by simp)).symm.trans hnone
  rw [(hw.concurrent hc).operations.same operationId (by simp)]
  exact hc.waits hheld hbase

theorem createScript_ok {rt : Runtime} {draw : Draw} {spec : OperationSpec}
    {created : OperationSnapshot × Bool} (hw : Wrote [] items rows t) (hheld : t.held = true)
    (hnone : t.view.operations.get operationId = none)
    (h : Runs (Concurrent operationId) (createScript rt draw spec) t (.ok created) t') :
    t'.held = true ∧
      (Wrote [] items rows t' ∧ t'.view.operations.get operationId = none ∨
        created.1 = newOperation rt draw spec ∧
          Wrote [newOperation rt draw spec] items rows t') := by
  obtain ⟨found, u, hquery, hrest⟩ := runs_bind_ok h
  obtain ⟨hu, -⟩ := runs_query_ok hquery
  have hwu := hw.concurrent hu
  cases found with
  | some existing =>
      obtain ⟨-, rfl⟩ := runs_lift_ok hrest
      exact ⟨hu.held.trans hheld, .inl ⟨hwu, hw.absent hu hheld hnone⟩⟩
  | none =>
      obtain ⟨v, db, hv, hins, rfl⟩ := runs_exec_ok hrest
      refine ⟨(hv.held.trans hu.held).trans hheld, .inr ?_⟩
      have hwv := hwu.concurrent hv
      unfold insertOperation at hins
      split at hins
      · rename_i operations events hrow _
        simp only [Except.ok.injEq, Prod.mk.injEq] at hins
        obtain ⟨rfl, rfl⟩ := hins
        exact ⟨rfl, adds_insert hwv.operations hrow, hwv.items, hwv.locks⟩
      · cases hins

/-- The claim of the recovery item needs the operation, and its item is new with it. -/
theorem claim_ok {draw : Draw} {recovery : RecoverySpec} {owner : Str} {time : Instant}
    {lease : RecoveryLease} (hw : Wrote operations [] rows t)
    (hoperations : recovery.operationId ∈ operations.map OperationRecord.operationId ∨
      operations = [] ∧ t.held = true ∧ t.view.operations.get recovery.operationId = none)
    (h : Runs (Concurrent recovery.operationId)
      (Script.exec (prepareAndClaim draw recovery owner time none none)) t (.ok lease) t') :
    recovery.operationId ∈ operations.map OperationRecord.operationId ∧
      lease = leaseOf (firstLease draw recovery (strip owner) time) (leaseToken draw 0) ∧
      Wrote operations [firstLease draw recovery (strip owner) time] rows t' := by
  obtain ⟨u, db, hu, hclaim, rfl⟩ := runs_exec_ok h
  have hwu := hw.concurrent hu
  have hmem : recovery.operationId ∈ operations.map OperationRecord.operationId := by
    refine hoperations.resolve_right ?_
    rintro ⟨rfl, hheld, hnone⟩
    have hsome := (prepareAndClaim_operation hclaim).1
    rw [hw.absent hu hheld hnone] at hsome
    cases hsome
  obtain ⟨operation, hop, hid⟩ := List.mem_map.mp hmem
  have hitem : u.view.recovery.get recovery.operationId = none := by
    rw [hwu.items.same _ (by simp)]
    exact hu.referenced _ (hid ▸ (hwu.operations.new operation hop).1)
  simp only [prepareAndClaim, bind_eq_ok, hitem, orRaise_eq_ok, pure_eq_ok, Prod.mk.injEq]
    at hclaim
  obtain ⟨-, -, -, -, table, hins, rfl, rfl⟩ := hclaim
  exact ⟨hmem, rfl, hwu.operations, adds_insert hwu.items hins, hwu.locks⟩

end Wrote

/-! ### The locks of an admission -/

theorem check_related {q : AdmissionRequest} (h : q.check = .ok ()) :
    (q.relatedVmids = [] ∧ expectedLockCount q.spec.operationType = 1) ∨
      ∃ v, q.relatedVmids = [v] ∧ expectedLockCount q.spec.operationType = 2 ∧ v ≠ q.vmid ∧
        q.sourceVmid.eqv (.int v) = true := by
  simp only [AdmissionRequest.check, bind_eq_ok, raiseIf_eq_ok] at h
  obtain ⟨-, hrelated, hpair⟩ := h
  have hcount : expectedLockCount q.spec.operationType = 1 ∨
      expectedLockCount q.spec.operationType = 2 := by
    unfold expectedLockCount
    split
    · exact .inr rfl
    · exact .inl rfl
  cases hvs : q.relatedVmids with
  | nil =>
      refine .inl ⟨rfl, hcount.resolve_right fun h2 => hpair ⟨h2, ?_⟩⟩
      rw [hvs]
      decide
  | cons v vs =>
      rw [hvs] at hrelated
      simp only [ne_eq, reduceCtorEq, not_false_eq_true, true_and, not_or, not_not,
        List.head?_cons, Option.mem_some_iff, not_exists, not_and, Bool.not_eq_false] at hrelated
      obtain ⟨h2, hlength, hne, hsource⟩ := hrelated
      have hnil : vs = [] := by simpa using hlength
      exact .inr ⟨v, by rw [hnil], h2, fun heq => hne (by rw [heq]), hsource v rfl⟩

theorem targets_length {q : AdmissionRequest} (h : q.check = .ok ()) :
    q.targets.length = expectedLockCount q.spec.operationType := by
  have hnodup : (q.vmid :: q.relatedVmids).Nodup := by
    rcases check_related h with ⟨hnil, -⟩ | ⟨v, hv, -, hne, -⟩
    · simp [hnil]
    · simp [hv, hne.symm]
  rw [AdmissionRequest.targets, Registration.sortedSet, List.length_mergeSort, hnodup.dedup]
  rcases check_related h with ⟨hnil, hcount⟩ | ⟨v, hv, hcount, -⟩
  · simp [hnil, hcount]
  · simp [hv, hcount]

theorem mem_lockRows {draws : ℕ → Draw} {q : AdmissionRequest} {i : ℕ} {vmids : List ℤ}
    {row : OperationLockRecord} (h : row ∈ lockRows draws q i vmids) :
    ∃ vmid ∈ vmids, ∃ j, row = (q.acquisition vmid).row (draws j) := by
  induction vmids generalizing i with
  | nil => cases h
  | cons vmid vmids ih =>
      rcases List.mem_cons.mp h with rfl | h
      · exact ⟨vmid, by simp, i, rfl⟩
      · obtain ⟨v, hv, hrow⟩ := ih h
        exact ⟨v, List.mem_cons_of_mem _ hv, hrow⟩

theorem lockRows_vmid (draws : ℕ → Draw) (q : AdmissionRequest) (i : ℕ) (vmids : List ℤ) :
    (lockRows draws q i vmids).map OperationLockRecord.vmid = vmids.map some := by
  induction vmids generalizing i with
  | nil => rfl
  | cons vmid vmids ih =>
      rw [lockRows, List.map_cons, ih]
      rfl

/-- Details that bind an operation to the locks of its targets. -/
structure Bound (q : AdmissionRequest) (rows : List OperationLockRecord) (details : Dict) :
    Prop where
  primary : ∃ row ∈ rows, row.vmid = some q.vmid ∧
    Dict.get details "target_lock_id" = some (.str row.operationLockId)
  related : ∀ vmid ∈ q.relatedVmids, ∃ row ∈ rows, row.vmid = some vmid ∧
    Dict.get details "related_target_locks" =
      some (.list [.dict [("lock_id", .str row.operationLockId), ("vmid", .int vmid)]])

theorem Bound.merge {q : AdmissionRequest} {rows : List OperationLockRecord} {bound : Dict}
    (h : Bound q rows bound) (details : Dict) : Bound q rows (Dict.merge details bound) := by
  refine ⟨?_, fun vmid hvmid => ?_⟩
  · obtain ⟨row, hrow, hv, hget⟩ := h.primary
    exact ⟨row, hrow, hv, by rw [Dict.get_merge, hget, Option.some_or]⟩
  · obtain ⟨row, hrow, hv, hget⟩ := h.related vmid hvmid
    exact ⟨row, hrow, hv, by rw [Dict.get_merge, hget, Option.some_or]⟩

theorem Bound.sanitized {q : AdmissionRequest} {rows : List OperationLockRecord} {bound : Dict}
    (h : Bound q rows bound)
    (hnamed : ∀ row ∈ rows, redactString row.operationLockId = row.operationLockId) :
    Bound q rows (Redaction.sanitized bound) := by
  have hprimary : isSecretKey "target_lock_id" = false := by decide
  have hrelated : isSecretKey "related_target_locks" = false := by decide
  have hid : isSecretKey "lock_id" = false := by decide
  have hvmid : isSecretKey "vmid" = false := by decide
  refine ⟨?_, fun vmid hmem => ?_⟩
  · obtain ⟨row, hrow, hv, hget⟩ := h.primary
    refine ⟨row, hrow, hv, ?_⟩
    rw [get_sanitized, hget, hprimary]
    simp [hnamed row hrow]
  · obtain ⟨row, hrow, hv, hget⟩ := h.related vmid hmem
    refine ⟨row, hrow, hv, ?_⟩
    rw [get_sanitized, hget, hrelated]
    simp only [redactSecrets, redactList, redactDict, hid, hvmid, Bool.false_eq_true, if_false,
      Option.map_some, hnamed row hrow]

/-- The lock of a target among those acquired. -/
theorem lockIdOf_lockRows {draws : ℕ → Draw} {q : AdmissionRequest} {vmids : List ℤ} {vmid : ℤ}
    {id : Str} (h : lockIdOf ((lockRows draws q 0 vmids).map durableLock) vmid = .ok id) :
    ∃ row ∈ lockRows draws q 0 vmids, row.vmid = some vmid ∧ row.operationLockId = id := by
  obtain ⟨lock, hlock, hvmid, rfl⟩ := lockIdOf_eq_ok h
  obtain ⟨row, hrow, rfl⟩ := List.mem_map.mp hlock
  refine ⟨row, hrow, ?_, rfl⟩
  obtain ⟨v, -, j, rfl⟩ := mem_lockRows hrow
  exact congrArg some hvmid

theorem bound_of_binding {draws : ℕ → Draw} {q : AdmissionRequest} {bound : Dict}
    (hcheck : q.check = .ok ())
    (h : binding q ((lockRows draws q 0 q.targets).map durableLock) = .ok bound) :
    Bound q (lockRows draws q 0 q.targets) bound := by
  simp only [binding, bind_eq_ok, orRaise_eq_ok, pure_eq_ok] at h
  obtain ⟨id, hid, node, -, entries, hentries, rfl⟩ := h
  obtain ⟨row, hrow, hvmid, rfl⟩ := lockIdOf_lockRows hid
  refine ⟨⟨row, hrow, hvmid, rfl⟩, ?_⟩
  intro vmid hmem
  rcases check_related hcheck with ⟨hnil, -⟩ | ⟨v, hv, -⟩
  · rw [hnil] at hmem
    cases hmem
  · obtain rfl : vmid = v := by simpa [hv] using hmem
    rw [hv, List.mergeSort_singleton, List.mapM_cons, bind_eq_ok] at hentries
    obtain ⟨entry, hentry, hrest⟩ := hentries
    obtain ⟨rest, hrest, hpure⟩ := bind_eq_ok.mp hrest
    rw [List.mapM_nil, pure_eq_ok] at hrest
    obtain rfl := hrest
    obtain ⟨source, hsource, heq⟩ := bind_eq_ok.mp hentry
    obtain ⟨row', hrow', hvmid', rfl⟩ := lockIdOf_lockRows hsource
    obtain rfl := pure_eq_ok.mp heq
    obtain rfl := pure_eq_ok.mp hpure
    exact ⟨row', hrow', hvmid', rfl⟩

/-! ### All or nothing -/

/-- The admission of a mutation: what is committed after it besides what the others committed. -/
structure Admitted (q : AdmissionRequest) (base db : Db) (operation : OperationSnapshot)
    (lease : RecoveryLease) (item : RecoveryRecord) (rows : List OperationLockRecord) : Prop where
  operations : Adds OperationRecord.operationId [operation] base.operations.get db.operations.get
  operationId : operation.operationId = q.operationId
  intent : operation.intentDigest = q.spec.intentDigest
  initial : operation.status = q.spec.initialStatus
  items : Adds RecoveryRecord.operationId [item] base.recovery.get db.recovery.get
  itemId : item.operationId = q.operationId
  leased : item.status = .leased ∧ item.leaseToken = some lease.token ∧ lease.item = itemOf item
  locks : Adds OperationLockRecord.operationLockId rows base.locks.get db.locks.get
  targets : rows.map OperationLockRecord.vmid = q.targets.map some
  count : rows.length = expectedLockCount q.spec.operationType
  source : expectedLockCount q.spec.operationType = 2 →
    ∃ v, q.relatedVmids = [v] ∧ v ≠ q.vmid ∧ q.sourceVmid.eqv (.int v) = true
  active : ∀ row ∈ rows, row.status = .active ∧ row.ownerId = strip q.operationId ∧
    row.operationType = q.spec.operationType
  bound : Bound q rows operation.details
  boundItem : Bound q rows item.details

/-- The replay of a mutation: nothing is added besides what the others committed. -/
structure Replayed (q : AdmissionRequest) (base db : Db) (operation : OperationSnapshot) :
    Prop where
  operationId : operation.operationId = q.operationId
  intent : operation.intentDigest = q.spec.intentDigest
  stored : ∃ row, base.operations.get q.operationId = some row ∧
    row.intentDigest = q.spec.intentDigest
  operations : ∀ id, db.operations.get id = base.operations.get id
  items : ∀ id, db.recovery.get id = base.recovery.get id
  locks : ∀ id row, db.locks.get id = some row → row.isOpen = true →
    base.locks.get id = some row

/-- An operation with the intent of the request is committed. -/
def StoredIntent (q : AdmissionRequest) (db : Db) : Prop :=
  ∃ row, db.operations.get q.operationId = some row ∧ row.intentDigest = q.spec.intentDigest

theorem storedIntent_concurrent {q : AdmissionRequest} (t t' : Txn Db)
    (h : Concurrent q.operationId t t') (hs : StoredIntent q t.base) : StoredIntent q t'.base := by
  obtain ⟨row, hrow, hintent⟩ := hs
  obtain ⟨row', hrow', heq⟩ := h.persists _ row hrow
  exact ⟨row', hrow', heq.trans hintent⟩

/-- A transaction that has found its operation and holds no lock of its own. -/
def Replays (q : AdmissionRequest) (operation : OperationSnapshot) (t : Txn Db) : Prop :=
  operation.operationId = q.operationId ∧ operation.intentDigest = q.spec.intentDigest ∧
    StoredIntent q t.base ∧
      ∃ rows, Wrote [] [] rows t ∧ ∀ row ∈ rows, row.isOpen = false

theorem Replays.concurrent {q : AdmissionRequest} {operation : OperationSnapshot} {t t' : Txn Db}
    (h : Replays q operation t) (hc : Concurrent q.operationId t t') : Replays q operation t' := by
  obtain ⟨hid, hintent, hstored, rows, hw, hclosed⟩ := h
  exact ⟨hid, hintent, storedIntent_concurrent t t' hc hstored, rows, hw.concurrent hc, hclosed⟩

theorem Replays.replayed {q : AdmissionRequest} {operation : OperationSnapshot} {t : Txn Db}
    (h : Replays q operation t) : Replayed q t.base t.view operation := by
  obtain ⟨hid, hintent, hstored, rows, hw, hclosed⟩ := h
  refine ⟨hid, hintent, hstored, fun id => hw.operations.same id (by simp),
    fun id => hw.items.same id (by simp), fun id row hget hopen => ?_⟩
  by_cases hmem : ∀ r ∈ rows, r.operationLockId ≠ id
  · exact (hw.locks.same id hmem).symm.trans hget
  · push Not at hmem
    obtain ⟨r, hr, rfl⟩ := hmem
    rw [(hw.locks.new r hr).2, Option.some.injEq] at hget
    rw [← hget, hclosed r hr] at hopen
    cases hopen

/-- The stored operation that a lookup found, when its intent is the request's. -/
theorem storedIntent_of_replay {q : AdmissionRequest} {rows : List OperationLockRecord}
    {existing operation : OperationRecord} {t : Txn Db} (hw : Wrote [] [] rows t)
    (hget : t.view.operations.get q.operationId = some existing)
    (h : replay q existing = .ok operation) :
    operation.operationId = q.operationId ∧ operation.intentDigest = q.spec.intentDigest ∧
      StoredIntent q t.base := by
  obtain ⟨hintent, rfl⟩ := replay_eq_ok.mp h
  exact ⟨Table.key_of_get hget, hintent, operation,
    (hw.operations.same q.operationId (by simp)).symm.trans hget, hintent⟩

theorem lateReplay_ok {draws : ℕ → Draw} {q : AdmissionRequest} {existing : OperationRecord}
    {rows : List OperationLockRecord} {t t' : Txn Db}
    {result : OperationSnapshot × Option RecoveryLease} (hw : Wrote [] [] rows t)
    (hopen : ∀ row ∈ rows, row.isOpen = true)
    (hget : t.view.operations.get q.operationId = some existing)
    (h : Runs (Concurrent q.operationId) (lateReplay draws q existing (rows.map durableLock)) t
      (.ok result) t') : result.2 = none ∧ Replays q result.1 t' := by
  obtain ⟨operation, u, hlift, hrest⟩ := runs_bind_ok h
  obtain ⟨hreplay, rfl⟩ := runs_lift_ok hlift
  obtain ⟨_, v, hrelease, hpure⟩ := runs_bind_ok hrest
  obtain ⟨rfl, rfl⟩ := runs_pure_ok hpure
  obtain ⟨hid, hintent, hstored⟩ := storedIntent_of_replay hw hget hreplay
  obtain ⟨rows', hw', hclosed⟩ := releaseScripts_ok [] hw (by simp) hopen hrelease
  exact ⟨rfl, hid, hintent, hrelease.base storedIntent_concurrent hstored, rows', hw', hclosed⟩

/-- A transaction that has added an operation, its leased recovery item and its locks. -/
structure Admits (rt : Runtime) (draws : ℕ → Draw) (q : AdmissionRequest) (bound : Dict)
    (recovery : RecoverySpec) (owner : Str) (operation : OperationSnapshot)
    (lease : RecoveryLease) (t : Txn Db) : Prop where
  binds : binding q ((lockRows draws q 0 q.targets).map durableLock) = .ok bound
  recovers : recoverySpec q bound = .ok recovery
  creates : operation =
    newOperation rt (draws 2) { q.spec with details := Dict.merge q.spec.details bound }
  leases : lease = leaseOf (firstLease (draws 3) recovery owner (Instant.seconds 60))
    (leaseToken (draws 3) 0)
  wrote : Wrote [operation] [firstLease (draws 3) recovery owner (Instant.seconds 60)]
    (lockRows draws q 0 q.targets) t

theorem recoverySpec_eq_ok {q : AdmissionRequest} {details : Dict} {recovery : RecoverySpec}
    (h : recoverySpec q details = .ok recovery) :
    recovery.operationId = q.operationId ∧ recovery.details = details := by
  unfold recoverySpec at h
  split at h
  · split at h
    · cases h
      exact ⟨rfl, rfl⟩
    · cases h
  · cases h

theorem createAndClaim_ok {rt : Runtime} {draws : ℕ → Draw} {q : AdmissionRequest} {t t' : Txn Db}
    {result : OperationSnapshot × Option RecoveryLease}
    (hw : Wrote [] [] (lockRows draws q 0 q.targets) t) (hheld : t.held = true)
    (hnone : t.view.operations.get q.operationId = none)
    (h : Runs (Concurrent q.operationId)
      (createAndClaim rt draws q ((lockRows draws q 0 q.targets).map durableLock)) t
      (.ok result) t') :
    ∃ lease bound recovery owner, result.2 = some lease ∧
      Admits rt draws q bound recovery owner result.1 lease t' := by
  obtain ⟨bound, u, hlift, hrest₁⟩ := runs_bind_ok h
  obtain ⟨hbound, rfl⟩ := runs_lift_ok hlift
  obtain ⟨created, v, hcreate, hrest₂⟩ := runs_bind_ok hrest₁
  obtain ⟨recovery, w, hlift₂, hrest₃⟩ := runs_bind_ok hrest₂
  obtain ⟨hspec, rfl⟩ := runs_lift_ok hlift₂
  obtain ⟨lease, x, hclaim, hpure⟩ := runs_bind_ok hrest₃
  obtain ⟨rfl, rfl⟩ := runs_pure_ok hpure
  have hid := (recoverySpec_eq_ok hspec).1
  obtain ⟨hheld', hcase⟩ := createScript_ok hw hheld hnone hcreate
  rw [← hid] at hclaim hcase
  rcases hcase with ⟨hw', hnone'⟩ | ⟨hoperation, hw'⟩
  · have hmem := (claim_ok hw' (.inr ⟨rfl, hheld', hnone'⟩) hclaim).1
    cases hmem
  · obtain ⟨-, hlease, hw''⟩ := claim_ok hw' (.inl (by simp [hid]; rfl)) hclaim
    exact ⟨lease, bound, recovery, _, rfl, hbound, hspec, hoperation, hlease, hoperation ▸ hw''⟩

theorem named_lockRows {draws : ℕ → Draw} {q : AdmissionRequest} {vmids : List ℤ} :
    ∀ row ∈ lockRows draws q 0 vmids,
      redactString row.operationLockId = row.operationLockId := by
  intro row hrow
  obtain ⟨vmid, -, j, rfl⟩ := mem_lockRows hrow
  exact redactString_lockId ((draws j).uuid 0)

theorem Admits.admitted {rt : Runtime} {draws : ℕ → Draw} {q : AdmissionRequest} {bound : Dict}
    {recovery : RecoverySpec} {owner : Str} {operation : OperationSnapshot}
    {lease : RecoveryLease} {t : Txn Db} (hcheck : q.check = .ok ())
    (h : Admits rt draws q bound recovery owner operation lease t) :
    Admitted q t.base t.view operation lease
      (firstLease (draws 3) recovery owner (Instant.seconds 60))
      (lockRows draws q 0 q.targets) := by
  obtain ⟨hid, hdetails⟩ := recoverySpec_eq_ok h.recovers
  have hbound : Bound q (lockRows draws q 0 q.targets) bound := bound_of_binding hcheck h.binds
  have hoperation := h.creates
  have hlease := h.leases
  exact
    { operations := h.wrote.operations
      operationId := hoperation ▸ rfl
      intent := hoperation ▸ rfl
      initial := hoperation ▸ rfl
      items := h.wrote.items
      itemId := hid
      leased := hlease ▸ ⟨rfl, rfl, rfl⟩
      locks := h.wrote.locks
      targets := lockRows_vmid draws q 0 q.targets
      count := by
        rw [← targets_length hcheck, ← List.length_map (f := OperationLockRecord.vmid),
          lockRows_vmid, List.length_map]
      source := fun h2 => by
        rcases check_related hcheck with ⟨-, h1⟩ | ⟨v, hv, -, hne, hsource⟩
        · omega
        · exact ⟨v, hv, hne, hsource⟩
      active := fun row hrow => by
        obtain ⟨vmid, -, j, rfl⟩ := mem_lockRows hrow
        exact ⟨rfl, rfl, rfl⟩
      bound := hoperation ▸ (hbound.merge _).sanitized named_lockRows
      boundItem := by
        show Bound q _ (Redaction.sanitized recovery.details)
        rw [hdetails]
        exact hbound.sanitized named_lockRows }

theorem prepareScript_ok {rt : Runtime} {process : Process} {draws : ℕ → Draw}
    {q : AdmissionRequest} {db : Db} {t : Txn Db}
    {result : OperationSnapshot × Option RecoveryLease}
    (h : Runs (Concurrent q.operationId) (prepareScript rt process draws q) (Txn.start db)
      (.ok result) t) :
    q.check = .ok () ∧ ((result.2 = none ∧ Replays q result.1 t) ∨
      ∃ lease bound recovery owner, result.2 = some lease ∧
        Admits rt draws q bound recovery owner result.1 lease t) := by
  obtain ⟨_, u, hlift, hrest⟩ := runs_bind_ok h
  obtain ⟨hcheck, rfl⟩ := runs_lift_ok hlift
  refine ⟨hcheck, ?_⟩
  obtain ⟨first, v, hquery, hrest₁⟩ := runs_bind_ok hrest
  obtain ⟨hv, hfirst⟩ := runs_query_ok hquery
  have hwv := (wrote_start db).concurrent hv
  cases first with
  | some existing =>
      obtain ⟨operation, w, hlift, hpure⟩ := runs_bind_ok hrest₁
      obtain ⟨hreplay, rfl⟩ := runs_lift_ok hlift
      obtain ⟨rfl, rfl⟩ := runs_pure_ok hpure
      obtain ⟨hid, hintent, hstored⟩ := storedIntent_of_replay hwv hfirst hreplay
      exact .inl ⟨rfl, hid, hintent, hstored, [], hwv, by simp⟩
  | none =>
      obtain ⟨acquired, w, hacquire, hrest₂⟩ := runs_bind_ok hrest₁
      obtain ⟨rfl, hheld, hww⟩ := acquireScripts_ok hwv hacquire
      have htargets : q.targets ≠ [] := by
        have hmem : q.vmid ∈ q.targets := by simp [AdmissionRequest.targets]
        exact List.ne_nil_of_mem hmem
      obtain ⟨second, x, hquery₂, hrest₃⟩ := runs_bind_ok hrest₂
      obtain ⟨hx, hsecond⟩ := runs_query_ok hquery₂
      have hwx := hww.concurrent hx
      have hheldx : x.held = true := hx.held.trans (hheld (.inr htargets))
      rw [List.nil_append] at hwx
      cases second with
      | some existing =>
          have hopen : ∀ row ∈ lockRows draws q 0 q.targets, row.isOpen = true := by
            intro row hrow
            obtain ⟨vmid, -, j, rfl⟩ := mem_lockRows hrow
            rfl
          exact .inl (lateReplay_ok hwx hopen hsecond hrest₃)
      | none => exact .inr (createAndClaim_ok hwx hheldx hsecond hrest₃)

/-- A committed admission that returns a lease. -/
theorem admitted_of_commits {rt : Runtime} {process : Process} {draws : ℕ → Draw}
    {q : AdmissionRequest} {start base db : Db} {operation : OperationSnapshot}
    {lease : RecoveryLease}
    (h : Commits (Concurrent q.operationId) (prepareScript rt process draws q) (Txn.start start)
      (.ok (operation, some lease)) base db) :
    ∃ item rows, Admitted q base db operation lease item rows := by
  cases h with
  | commit hrun henv =>
      obtain ⟨hcheck, hcase⟩ := prepareScript_ok hrun
      rcases hcase with ⟨hnone, -⟩ | ⟨l, bound, recovery, owner, heq, hadmits⟩
      · cases hnone
      · obtain rfl := Option.some.inj heq
        exact ⟨_, _, Admits.admitted hcheck { hadmits with wrote := hadmits.wrote.concurrent henv }⟩

/-- A committed admission that returns no lease. -/
theorem replayed_of_commits {rt : Runtime} {process : Process} {draws : ℕ → Draw}
    {q : AdmissionRequest} {start base db : Db} {operation : OperationSnapshot}
    (h : Commits (Concurrent q.operationId) (prepareScript rt process draws q) (Txn.start start)
      (.ok (operation, none)) base db) : Replayed q base db operation := by
  cases h with
  | commit hrun henv =>
      obtain ⟨-, hcase⟩ := prepareScript_ok hrun
      rcases hcase with ⟨-, hreplays⟩ | ⟨l, bound, recovery, owner, heq, -⟩
      · exact (hreplays.concurrent henv).replayed
      · cases heq

/-! ### The other transactions -/

/-- Every recovery item has its operation. -/
def Referenced (db : Db) : Prop := ∀ id, db.operations.get id = none → db.recovery.get id = none

/-- Stored operations stay stored with their intent. -/
def KeepsOperations (db db' : Db) : Prop := ∀ id row, db.operations.get id = some row →
  ∃ row', db'.operations.get id = some row' ∧ row'.intentDigest = row.intentDigest

/-- What another transaction commits. Admissions and changes of the connections need the
connection lock to be free. -/
inductive OtherCommit (rt : Runtime) (held : Bool) : Db → Db → Prop
  | release {db db' : Db} (draw : Draw) (lock : DurableTargetLock) (reason : Str) (b : Bool)
      (h : release draw lock reason db = .ok (b, db')) : OtherCommit rt held db db'
  | releaseOwned {db db' : Db} (draw : Draw) (clusterId : Str) (vmid : ℤ) (ownerId reason : Str)
      (b : Bool) (h : releaseOwned draw clusterId vmid ownerId reason db = .ok (b, db')) :
      OtherCommit rt held db db'
  | observation {db db' : Db} (draw : Draw) (lease : RecoveryLease) (o : Observation)
      (r : OperationSnapshot × RecoveryItem)
      (h : commitObservation rt draw lease o db = .ok (r, db')) : OtherCommit rt held db db'
  | admission {db db' : Db} (hfree : held = false) (process : Process) (draws : ℕ → Draw)
      (q : AdmissionRequest) (start : Db)
      (result : Except StoreError (OperationSnapshot × Option RecoveryLease))
      (h : Commits (Concurrent q.operationId) (prepareScript rt process draws q)
        (Txn.start start) result db db') : OtherCommit rt held db db'
  | connections {db : Db} (hfree : held = false) (connections : Connections) :
      OtherCommit rt held db { db with connections := connections }

theorem release_eq_ok {draw : Draw} {lock : DurableTargetLock} {reason : Str} {db db' : Db}
    {b : Bool} (h : release draw lock reason db = .ok (b, db')) :
    ∃ locks, db' = { db with locks := locks } := by
  unfold release at h
  split at h
  · cases h
    exact ⟨db.locks, rfl⟩
  · split at h
    · cases h
      exact ⟨db.locks, rfl⟩
    · obtain ⟨locks, -, heq⟩ := bind_eq_ok.mp h
      obtain ⟨-, rfl⟩ := Prod.mk.inj (pure_eq_ok.mp heq)
      exact ⟨locks, rfl⟩

theorem releaseOwned_eq_ok {draw : Draw} {clusterId : Str} {vmid : ℤ} {ownerId reason : Str}
    {db db' : Db} {b : Bool}
    (h : releaseOwned draw clusterId vmid ownerId reason db = .ok (b, db')) :
    ∃ locks, db' = { db with locks := locks } := by
  unfold releaseOwned at h
  split at h
  · cases h
    exact ⟨db.locks, rfl⟩
  · obtain ⟨locks, -, heq⟩ := bind_eq_ok.mp h
    obtain ⟨-, rfl⟩ := Prod.mk.inj (pure_eq_ok.mp heq)
    exact ⟨locks, rfl⟩

/-- What a transaction does to stored operations and to the items that refer to them. -/
structure Keeps (held : Bool) (db db' : Db) : Prop where
  referenced : Referenced db → Referenced db'
  operations : KeepsOperations db db'
  none : held = true → ∀ id, db.operations.get id = none → db'.operations.get id = none

theorem keeps_of_same {held : Bool} {db db' : Db} (hoperations : db'.operations = db.operations)
    (hrecovery : db'.recovery = db.recovery) : Keeps held db db' := by
  refine ⟨fun h id hid => ?_, fun id row hrow => ⟨row, ?_, rfl⟩, fun _ id hid => ?_⟩
  · rw [hrecovery]
    exact h id (hoperations ▸ hid)
  · rwa [hoperations]
  · rwa [hoperations]

theorem keeps_observation {rt : Runtime} {held : Bool} {draw : Draw} {lease : RecoveryLease}
    {o : Observation} {db db' : Db} {r : OperationSnapshot × RecoveryItem}
    (h : commitObservation rt draw lease o db = .ok (r, db')) : Keeps held db db' := by
  obtain ⟨operation', item⟩ := r
  obtain ⟨status, row, operation, p, jobs, mid, recovery, locks, -, hrow, -, -, -, -, -, -, happend,
    hput, -, -, rfl⟩ := commitObservation_eq_ok h
  obtain ⟨old, events, operations, hold, -, -, -, rfl, hput', rfl⟩ := appendInSession_eq_ok happend
  have hid : old.operationId = lease.operationId := Table.key_of_get hold
  have hitem : row.operationId = lease.operationId := Table.key_of_get hrow
  have hget : ∀ id, operations.get id = if lease.operationId = id then
      some (applyProjection rt draw old (o.append p)) else db.operations.get id := by
    intro id
    rw [Table.get_put hput', applyProjection_operationId, hid]
    by_cases heq : lease.operationId = id
    · rw [if_pos heq, if_pos heq, ← heq, hold, Option.map_some]
    · rw [if_neg heq, if_neg heq]
  refine ⟨fun href id hnone => ?_, fun id row' hrow' => ?_, fun _ id hnone => ?_⟩
  · have hne : ¬ lease.operationId = id := by
      intro heq
      rw [show _ = operations.get id from rfl, hget id, if_pos heq] at hnone
      cases hnone
    rw [show _ = operations.get id from rfl, hget id, if_neg hne] at hnone
    exact (Table.get_put hput id).trans ((if_neg fun h => hne (hitem.symm.trans h)).trans
      (href id hnone))
  · by_cases heq : lease.operationId = id
    · refine ⟨_, (hget id).trans (if_pos heq), ?_⟩
      rw [← heq, hold, Option.some.injEq] at hrow'
      rw [← hrow', applyProjection_intentDigest]
    · exact ⟨row', (hget id).trans ((if_neg heq).trans hrow'), rfl⟩
  · have hne : ¬ lease.operationId = id := by
      rintro rfl
      rw [hold] at hnone
      cases hnone
    exact (hget id).trans ((if_neg hne).trans hnone)

theorem keeps_admission {rt : Runtime} {process : Process} {draws : ℕ → Draw}
    {q : AdmissionRequest} {start db db' : Db}
    {result : Except StoreError (OperationSnapshot × Option RecoveryLease)}
    (h : Commits (Concurrent q.operationId) (prepareScript rt process draws q) (Txn.start start)
      result db db') : Keeps false db db' := by
  match result, h with
  | .error e, h =>
      obtain rfl := h.error
      exact keeps_of_same rfl rfl
  | .ok (operation, none), h =>
      have hr := replayed_of_commits h
      refine ⟨fun href id hnone => ?_, fun id row hrow => ⟨row, ?_, rfl⟩, fun hheld => ?_⟩
      · rw [hr.operations] at hnone
        rw [hr.items]
        exact href id hnone
      · rwa [hr.operations]
      · cases hheld
  | .ok (operation, some lease), h =>
      obtain ⟨item, rows, ha⟩ := admitted_of_commits h
      have hother : ∀ id, operation.operationId ≠ id →
          db'.operations.get id = db.operations.get id := fun id hne =>
        ha.operations.same id (by simpa using hne)
      refine ⟨fun href id hnone => ?_, fun id row hrow => ⟨row, ?_, rfl⟩, fun hheld => ?_⟩
      · have hne : operation.operationId ≠ id := by
          rintro rfl
          rw [(ha.operations.new operation (by simp)).2] at hnone
          cases hnone
        rw [ha.items.same id (by simpa [ha.itemId, ← ha.operationId] using hne)]
        exact href id ((hother id hne).symm.trans hnone)
      · rw [hother id, hrow]
        rintro rfl
        rw [(ha.operations.new operation (by simp)).1] at hrow
        cases hrow
      · cases hheld

/-- Every other transaction is one of those an admission is proved against, whatever rows it
leaves to be seen. -/
theorem concurrent_of_otherCommit {rt : Runtime} {operationId : Str} {t : Txn Db} {db view : Db}
    (h : OtherCommit rt t.held t.base db) (hreferenced : Referenced t.base)
    (hoperations : Overlay t.base.operations.get t.view.operations.get db.operations.get
      view.operations.get)
    (hrecovery : Overlay t.base.recovery.get t.view.recovery.get db.recovery.get view.recovery.get)
    (hlocks : Overlay t.base.locks.get t.view.locks.get db.locks.get view.locks.get) :
    Concurrent operationId t ⟨db, view, t.held⟩ := by
  have hkeeps : Keeps t.held t.base db := by
    cases h with
    | release draw lock reason b h =>
        obtain ⟨locks, rfl⟩ := release_eq_ok h
        exact keeps_of_same rfl rfl
    | releaseOwned draw clusterId vmid ownerId reason b h =>
        obtain ⟨locks, rfl⟩ := releaseOwned_eq_ok h
        exact keeps_of_same rfl rfl
    | observation draw lease o r h => exact keeps_observation h
    | admission hfree process draws q start result h => exact hfree ▸ keeps_admission h
    | connections hfree connections => exact keeps_of_same rfl rfl
  exact ⟨rfl, hoperations, hrecovery, hlocks, hkeeps.operations, hkeeps.referenced hreferenced,
    fun hheld => hkeeps.none hheld operationId⟩

/-- The others do nothing. -/
theorem Concurrent.refl {operationId : Str} {t : Txn Db} (h : Referenced t.base) :
    Concurrent operationId t t :=
  ⟨rfl, .refl _ _, .refl _ _, .refl _ _, fun _ row hrow => ⟨row, hrow, rfl⟩, h,
    fun _ hnone => hnone⟩

/-- A row that is seen as committed may be changed by others. -/
theorem overlay_put {t u t' u' : LockTable} {r : OperationLockRecord} (ht : t.put r = some t')
    (hu : u.put r = some u') (hseen : u.get r.operationLockId = t.get r.operationLockId) :
    Overlay t.get u.get t'.get u'.get := by
  refine ⟨fun id hid => ?_, fun id hid => ?_⟩
  · rw [Table.get_put hu, Table.get_put ht, hid]
  · have hne : ¬ r.operationLockId = id := by
      rintro rfl
      exact hid hseen
    rw [Table.get_put hu, Table.get_put ht, if_neg hne, if_neg hne]
    exact ⟨rfl, rfl⟩

/-! ### Whole runs -/

/-- An admission that meets no other transaction runs to its end. -/
theorem runs_of_prepare {rt : Runtime} {process : Process} {draws : ℕ → Draw}
    {q : AdmissionRequest} {start db : Db} {result : OperationSnapshot × Option RecoveryLease}
    (hreferenced : Referenced start)
    (h : prepare rt process draws q (start.operations.get q.operationId) start =
      .ok (result, db)) :
    ∃ held, Runs (Concurrent q.operationId) (prepareScript rt process draws q) (Txn.start start)
      (.ok result) ⟨start, db, held⟩ := by
  rw [← prepareScript_alone] at h
  exact runs_of_alone false (fun _ _ => .refl hreferenced) h

theorem commits_of_prepare {rt : Runtime} {process : Process} {draws : ℕ → Draw}
    {q : AdmissionRequest} {start db : Db} {result : OperationSnapshot × Option RecoveryLease}
    (hreferenced : Referenced start)
    (h : prepare rt process draws q (start.operations.get q.operationId) start =
      .ok (result, db)) :
    Commits (Concurrent q.operationId) (prepareScript rt process draws q) (Txn.start start)
      (.ok result) start db := by
  obtain ⟨held, hrun⟩ := runs_of_prepare hreferenced h
  exact .commit hrun (.refl hreferenced)

/-- Among any admissions, releases and connection changes an admission adds the operation, its
leased recovery item and all its locks, bound to each other, or it adds nothing. -/
theorem admission_all_or_nothing {rt : Runtime} {process : Process} {draws : ℕ → Draw}
    {q : AdmissionRequest} {start base db : Db}
    {result : Except StoreError (OperationSnapshot × Option RecoveryLease)}
    (h : Commits (Concurrent q.operationId) (prepareScript rt process draws q) (Txn.start start)
      result base db) :
    (∀ operation lease, result = .ok (operation, some lease) →
      ∃ item rows, Admitted q base db operation lease item rows) ∧
    (∀ operation, result = .ok (operation, none) → Replayed q base db operation) ∧
    (∀ e, result = .error e → db = base) := by
  refine ⟨?_, ?_, ?_⟩
  · rintro operation lease rfl
    exact admitted_of_commits h
  · rintro operation rfl
    exact replayed_of_commits h
  · rintro e rfl
    exact h.error

/-- The lock of another operation on VM 300. -/
def otherLock : OperationLockRecord :=
  { operationLockId := "lock-300", operationType := .vmCompute, scopeType := .proxmoxLocator,
    scopeKey := locatorScopeKey "lab" 300, status := .active, clusterId := "lab",
    vmid := some 300, ownerId := "vm-compute-9", reason := "vm_compute", evidence := [],
    createdAt := 0, updatedAt := 0, releasedAt := none }

/-- The admission of a clone of VM 101 to VM 102, while another operation releases its lock on VM
300 before the clone commits. -/
theorem admission_all_or_nothing_of_clone :
    let hex : Hex := ⟨"0a", forall_mem_of_all rfl⟩
    let hex' : Hex := ⟨"0b", forall_mem_of_all rfl⟩
    let rt : Runtime := ⟨fun _ => hex, fun _ => hex, fun _ => [], fun _ => []⟩
    let draws : ℕ → Draw := fun i => ⟨0, 0, fun _ => if i = 0 then hex else hex'⟩
    let spec : OperationSpec :=
      { operationId := "vm-clone-1", operationType := .vmClone, executionMode := .managedApi,
        targetType := "proxmox_vm", targetId := "vmid:102", idempotencyKey := "key-1",
        intentDigest := "sha256:0a", planDigest := "sha256:0a", actor := {},
        details := [("target", .dict [("node_id", .str "pve")]),
          ("source", .dict [("vmid", .int 101)])] }
    let q : AdmissionRequest := ⟨"vm_clone_observation", spec, "lab", 102, [101]⟩
    let start : Db := { locks := (Table.empty.insert otherLock).getD .empty }
    ∃ base db operation lease item rows,
      OtherCommit rt true start base ∧
      Commits (Concurrent q.operationId) (prepareScript rt ⟨none, fun _ => true⟩ draws q)
        (Txn.start start) (.ok (operation, some lease)) base db ∧
      base.locks.get "lock-300" = some (released (draws 0) "done" otherLock) ∧
      rows.map OperationLockRecord.vmid = [some 101, some 102] ∧
      Admitted q base db operation lease item rows := by
  intro hex hex' rt draws spec q start
  have htargets : q.targets = [101, 102] := by
    rw [AdmissionRequest.targets, Registration.sortedSet]
    simp [q, List.mergeSort, List.MergeSort.Internal.splitInTwo]
  have hadmits : ((prepare rt ⟨none, fun _ => true⟩ draws q none start).map fun r =>
      (r.1.2.isSome, r.2.locks.get "lock-300",
        (r.2.locks.put (released (draws 0) "done" otherLock)).isSome)) =
          .ok (true, some otherLock, true) := by
    rw [prepare, htargets]
    decide +kernel
  cases hprepare : prepare rt ⟨none, fun _ => true⟩ draws q none start with
  | error e =>
      rw [hprepare] at hadmits
      cases hadmits
  | ok r =>
      obtain ⟨⟨operation, lease⟩, db⟩ := r
      rw [hprepare] at hadmits
      obtain ⟨hlease, hseen, hput⟩ : lease.isSome = true ∧ db.locks.get "lock-300" =
          some otherLock ∧ (db.locks.put (released (draws 0) "done" otherLock)).isSome = true := by
        obtain ⟨hlease, hrest⟩ := Prod.mk.inj (Except.ok.inj hadmits)
        exact ⟨hlease, Prod.mk.inj hrest⟩
      obtain ⟨lease, rfl⟩ := Option.isSome_iff_exists.mp hlease
      obtain ⟨view, hview⟩ := Option.isSome_iff_exists.mp hput
      have hreferenced : Referenced start := fun _ _ => rfl
      obtain ⟨held, hrun⟩ := @runs_of_prepare rt _ _ q start db _ hreferenced hprepare
      -- the other transaction commits after the last statement of the clone
      obtain ⟨locks, hlocks⟩ : ∃ locks,
          start.locks.put (released (draws 0) "done" otherLock) = some locks := ⟨_, rfl⟩
      have hrelease : ∀ held, OtherCommit rt held start { start with locks := locks } := fun held =>
        .release (draws 0) (durableLock otherLock) "done" true (by
          cases hlocks
          rfl)
      have henv : Concurrent q.operationId ⟨start, db, held⟩
          ⟨{ start with locks := locks }, { db with locks := view }, held⟩ :=
        concurrent_of_otherCommit (t := ⟨start, db, held⟩) (hrelease held) hreferenced
          (.refl _ _) (.refl _ _) (overlay_put hlocks hview hseen)
      have hcommits := Commits.commit hrun henv
      obtain ⟨item, rows, hadmitted⟩ :=
        (admission_all_or_nothing hcommits).1 operation lease rfl
      refine ⟨_, _, operation, lease, item, rows, hrelease true, hcommits, ?_,
        hadmitted.targets.trans (congrArg _ htargets), hadmitted⟩
      cases hlocks
      rfl

end Gjallar.AdmissionAtomicity

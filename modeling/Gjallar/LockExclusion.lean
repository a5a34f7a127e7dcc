import Gjallar.RecoveryStore

/-!
# Mutual exclusion of target locks

Any interleaving of lock acquisitions, releases and observation commits. An acquisition proceeds
in phases inside a transaction that holds the connection lock until it commits or rolls back;
releases and commits of other transactions fall between the phases.
-/
namespace Gjallar.LockExclusion

open Gjallar.Text Gjallar.Data Gjallar.Tables Gjallar.Operation Gjallar.Admission
  Gjallar.OperationStore Gjallar.TargetLocks Gjallar.RecoveryStore

/-- Where a transaction stands between two acquisitions or inside one. -/
inductive Phase where
  | idle
  | admitted (a : Acquisition)
  | hostChecked (a : Acquisition)
  | hostAdmitted (a : HostAcquisition) (targetType targetId scopeKey : Str)
  | clusterChecked (a : HostAcquisition) (targetType targetId scopeKey : Str)

/-- The transaction that holds the connection lock, with the lock rows it has inserted. -/
structure Transaction where
  inserted : List OperationLockRecord
  phase : Phase

/-- The committed database and the transaction that holds the connection lock, if one does. -/
structure State where
  db : Db
  transaction : Option Transaction

/-- The lock rows of the database together with the uncommitted ones. -/
def State.rows (s : State) : List OperationLockRecord :=
  s.db.locks.rows ++ (s.transaction.map Transaction.inserted).getD []

/-- The lock table as the open transaction reads it. -/
def State.Sees (s : State) (view : LockTable) : Prop := view.rows = s.rows

inductive Label where
  /-- A step of an acquisition, or the begin or rollback of its transaction. -/
  | acquiring
  /-- An acquisition that raises. -/
  | failed (e : StoreError)
  | committed
  | released
  deriving DecidableEq

inductive Step (rt : Runtime) : State → Label → State → Prop
  | precheckFailed {s view e} (a : Acquisition) (hview : view = s.db.locks ∨ s.Sees view)
      (h : a.precheck rt view = .error e) : Step rt s (.failed e) s
  | lockConnection {db} : Step rt ⟨db, none⟩ .acquiring ⟨db, some ⟨[], .idle⟩⟩
  | accept {db ins} (process : Process) (a : Acquisition)
      (h : a.admission process db.connections = .ok ()) :
      Step rt ⟨db, some ⟨ins, .idle⟩⟩ .acquiring ⟨db, some ⟨ins, .admitted a⟩⟩
  | admitFailed {db ins e} (process : Process) (a : Acquisition)
      (h : a.admission process db.connections = .error e) :
      Step rt ⟨db, some ⟨ins, .idle⟩⟩ (.failed e) ⟨db, some ⟨ins, .idle⟩⟩
  | hostCheck {db ins a view} (hview : State.Sees ⟨db, some ⟨ins, .admitted a⟩⟩ view)
      (h : a.hostCheck view = .ok ()) :
      Step rt ⟨db, some ⟨ins, .admitted a⟩⟩ .acquiring ⟨db, some ⟨ins, .hostChecked a⟩⟩
  | hostCheckFailed {db ins a view e} (hview : State.Sees ⟨db, some ⟨ins, .admitted a⟩⟩ view)
      (h : a.hostCheck view = .error e) :
      Step rt ⟨db, some ⟨ins, .admitted a⟩⟩ (.failed e) ⟨db, some ⟨ins, .idle⟩⟩
  | insert {db ins a view lock view'} (draw : Draw)
      (hview : State.Sees ⟨db, some ⟨ins, .hostChecked a⟩⟩ view)
      (h : a.insert rt draw view = .ok (lock, view')) :
      Step rt ⟨db, some ⟨ins, .hostChecked a⟩⟩ .acquiring
        ⟨db, some ⟨ins ++ [a.row draw], .idle⟩⟩
  | insertFailed {db ins a view e} (draw : Draw)
      (hview : State.Sees ⟨db, some ⟨ins, .hostChecked a⟩⟩ view)
      (h : a.insert rt draw view = .error e) :
      Step rt ⟨db, some ⟨ins, .hostChecked a⟩⟩ (.failed e) ⟨db, some ⟨ins, .idle⟩⟩
  | hostCheckedFailed {s e} (a : HostAcquisition) (h : a.checked rt = .error e) :
      Step rt s (.failed e) s
  | hostAdmit {db ins targetType targetId scopeKey} (process : Process) (a : HostAcquisition)
      (hc : a.checked rt = .ok (targetType, targetId, scopeKey))
      (h : a.admission process db.connections scopeKey = .ok ()) :
      Step rt ⟨db, some ⟨ins, .idle⟩⟩ .acquiring
        ⟨db, some ⟨ins, .hostAdmitted a targetType targetId scopeKey⟩⟩
  | hostAdmitFailed {db ins targetType targetId scopeKey e} (process : Process)
      (a : HostAcquisition) (hc : a.checked rt = .ok (targetType, targetId, scopeKey))
      (h : a.admission process db.connections scopeKey = .error e) :
      Step rt ⟨db, some ⟨ins, .idle⟩⟩ (.failed e) ⟨db, some ⟨ins, .idle⟩⟩
  | clusterCheck {db ins a targetType targetId scopeKey view}
      (hview : State.Sees ⟨db, some ⟨ins, .hostAdmitted a targetType targetId scopeKey⟩⟩ view)
      (h : a.clusterCheck scopeKey view = .ok ()) :
      Step rt ⟨db, some ⟨ins, .hostAdmitted a targetType targetId scopeKey⟩⟩ .acquiring
        ⟨db, some ⟨ins, .clusterChecked a targetType targetId scopeKey⟩⟩
  | clusterCheckFailed {db ins a targetType targetId scopeKey view e}
      (hview : State.Sees ⟨db, some ⟨ins, .hostAdmitted a targetType targetId scopeKey⟩⟩ view)
      (h : a.clusterCheck scopeKey view = .error e) :
      Step rt ⟨db, some ⟨ins, .hostAdmitted a targetType targetId scopeKey⟩⟩ (.failed e)
        ⟨db, some ⟨ins, .idle⟩⟩
  | hostInsert {db ins a targetType targetId scopeKey view r view'} (draw : Draw)
      (hview : State.Sees ⟨db, some ⟨ins, .clusterChecked a targetType targetId scopeKey⟩⟩ view)
      (h : a.insert draw targetType targetId scopeKey view = .ok (r, view')) :
      Step rt ⟨db, some ⟨ins, .clusterChecked a targetType targetId scopeKey⟩⟩ .acquiring
        ⟨db, some ⟨ins ++ [a.row draw targetType targetId scopeKey], .idle⟩⟩
  | hostInsertFailed {db ins a targetType targetId scopeKey view e} (draw : Draw)
      (hview : State.Sees ⟨db, some ⟨ins, .clusterChecked a targetType targetId scopeKey⟩⟩ view)
      (h : a.insert draw targetType targetId scopeKey view = .error e) :
      Step rt ⟨db, some ⟨ins, .clusterChecked a targetType targetId scopeKey⟩⟩ (.failed e)
        ⟨db, some ⟨ins, .idle⟩⟩
  | commit {db ins locks} (h : Table.ofRows (db.locks.rows ++ ins) = some locks) :
      Step rt ⟨db, some ⟨ins, .idle⟩⟩ .committed ⟨{ db with locks := locks }, none⟩
  | rollback {db t} : Step rt ⟨db, some t⟩ .acquiring ⟨db, none⟩
  | release {db g b db'} (draw : Draw) (lock : DurableTargetLock) (reason : Str)
      (h : TargetLocks.release draw lock reason db = .ok (b, db')) :
      Step rt ⟨db, g⟩ .released ⟨db', g⟩
  | releaseOwned {db g b db'} (draw : Draw) (clusterId : Str) (vmid : ℤ) (ownerId reason : Str)
      (h : TargetLocks.releaseOwned draw clusterId vmid ownerId reason db = .ok (b, db')) :
      Step rt ⟨db, g⟩ .released ⟨db', g⟩
  | commitObservation {db g r db'} (draw : Draw) (lease : RecoveryLease) (o : Observation)
      (h : RecoveryStore.commitObservation rt draw lease o db = .ok (r, db')) :
      Step rt ⟨db, g⟩ .released ⟨db', g⟩
  /-- Everything else that happens to the database. -/
  | other {db g db'} (h : db'.locks = db.locks) : Step rt ⟨db, g⟩ .acquiring ⟨db', g⟩

/-- The states reached from a database without target locks. -/
inductive Reachable (rt : Runtime) : State → Prop
  | start {db} (h : db.locks = Table.empty) : Reachable rt ⟨db, none⟩
  | step {s label s'} (h : Reachable rt s) (hs : Step rt s label s') : Reachable rt s'

/-! ### What releases and commits do to lock rows -/

/-- A later state of a lock row: the same lock, and not opened again. -/
def Closes (r r' : OperationLockRecord) : Prop :=
  r'.scopeType = r.scopeType ∧ r'.scopeKey = r.scopeKey ∧ r'.clusterId = r.clusterId ∧
    r'.vmid = r.vmid ∧ (r'.isOpen = true → r.isOpen = true)

theorem Closes.refl (r : OperationLockRecord) : Closes r r := ⟨rfl, rfl, rfl, rfl, id⟩

theorem closes_released (draw : Draw) (reason : Str) (r : OperationLockRecord) :
    Closes r (released draw reason r) :=
  ⟨rfl, rfl, rfl, rfl, fun h => absurd h Bool.false_ne_true⟩

theorem release_rewrites {draw : Draw} {lock : DurableTargetLock} {reason : Str} {db db' : Db}
    {b : Bool} (h : TargetLocks.release draw lock reason db = .ok (b, db')) :
    db.locks.Rewrites Closes db'.locks := by
  unfold TargetLocks.release at h
  cases hr : db.locks.get lock.lockId with
  | none =>
      simp only [hr, Except.ok.injEq, Prod.mk.injEq] at h
      exact h.2 ▸ .refl Closes.refl _
  | some r =>
      simp only [hr] at h
      split at h
      · simp only [Except.ok.injEq, Prod.mk.injEq] at h
        exact h.2 ▸ .refl Closes.refl _
      · simp only [bind_eq_ok, orRaise_eq_ok, pure_eq_ok, Prod.mk.injEq] at h
        obtain ⟨locks, hput, -, rfl⟩ := h
        exact Table.rewrites_put Closes.refl (Table.mem_of_get hr)
          (closes_released draw reason r) hput rfl

theorem releaseOwned_rewrites {draw : Draw} {clusterId : Str} {vmid : ℤ} {ownerId reason : Str}
    {db db' : Db} {b : Bool}
    (h : TargetLocks.releaseOwned draw clusterId vmid ownerId reason db = .ok (b, db')) :
    db.locks.Rewrites Closes db'.locks := by
  unfold TargetLocks.releaseOwned at h
  split at h
  · simp only [Except.ok.injEq, Prod.mk.injEq] at h
    exact h.2 ▸ .refl Closes.refl _
  · rename_i r hr
    simp only [bind_eq_ok, orRaise_eq_ok, pure_eq_ok, Prod.mk.injEq] at h
    obtain ⟨locks, hput, -, rfl⟩ := h
    exact Table.rewrites_put Closes.refl (List.mem_of_find?_eq_some hr)
      (closes_released draw reason r) hput rfl

/-- The rows a commit writes back are open rows of the table, closed or still open. -/
theorem lockUpdates_closes {o : Observation} {draw : Draw} {lease : RecoveryLease}
    {locks : List OperationLockRecord} (hopen : ∀ r ∈ locks, r.isOpen = true)
    {r' : OperationLockRecord} (h : r' ∈ o.lockUpdates draw lease locks) :
    ∃ r ∈ locks, r'.operationLockId = r.operationLockId ∧ Closes r r' := by
  unfold Observation.lockUpdates at h
  split at h
  · obtain ⟨r, hr, rfl⟩ := List.mem_map.mp h
    exact ⟨r, hr, rfl, rfl, rfl, rfl, rfl, fun _ => hopen r hr⟩
  split at h
  · obtain ⟨r, hr, rfl⟩ := List.mem_map.mp h
    exact ⟨r, hr, rfl, rfl, rfl, rfl, rfl, fun _ => hopen r hr⟩
  · cases h

theorem commitObservation_rewrites {rt : Runtime} {draw : Draw} {lease : RecoveryLease}
    {o : Observation} {db db' : Db} {r : OperationSnapshot × RecoveryItem}
    (h : RecoveryStore.commitObservation rt draw lease o db = .ok (r, db')) :
    db.locks.Rewrites Closes db'.locks := by
  obtain ⟨operation', item⟩ := r
  obtain ⟨status, row, operation, p, jobs, mid, recovery, locks, -, -, -, -, -, -, -, -, happend,
    -, hput, -, rfl⟩ := commitObservation_eq_ok h
  obtain ⟨_, _, _, -, -, -, -, -, -, rfl⟩ := appendInSession_eq_ok happend
  refine Table.rewrites_putAll Closes.refl (fun r' hr' => ?_) hput
  obtain ⟨r, hr, hk, hcloses⟩ :=
    lockUpdates_closes (fun r hr => (Observation.mem_boundLocks hr).2.1) hr'
  exact ⟨r, (Observation.mem_boundLocks hr).1, hk, hcloses⟩

/-! ### The invariant -/

/-- The lock rows, committed or not, respect the scopes. -/
structure Exclusive (rows : List OperationLockRecord) : Prop where
  ids : (rows.map OperationLockRecord.operationLockId).Nodup
  scopes : ∀ r ∈ rows, ∀ s ∈ rows, sameOpenScope r s = true →
    r.operationLockId = s.operationLockId
  locators : ∀ r ∈ rows, r.scopeType = .proxmoxLocator →
    ∃ vmid, r.vmid = some vmid ∧ r.scopeKey = locatorScopeKey r.clusterId vmid
  clusters : ∀ r ∈ rows, ∀ s ∈ rows, r.isOpen = true → s.isOpen = true →
    r.scopeType = .proxmoxConfiguration → s.scopeType = .proxmoxLocator →
    r.clusterId ≠ s.clusterId

/-- What an acquisition has established in its phase. -/
def Phase.Established (rows : List OperationLockRecord) : Phase → Prop
  | .hostChecked a => ∀ r ∈ rows, holdsConfiguration a.cluster r = false
  | .clusterChecked a _ _ _ => ∀ r ∈ rows, r.clusterId = a.cluster → r.isOpen = false
  | _ => True

structure Inv (s : State) : Prop where
  exclusive : Exclusive s.rows
  established : ∀ t ∈ s.transaction, t.phase.Established s.rows

/-- Every row of the second list is a later state of one of the first. -/
structure Shrinks (rows rows' : List OperationLockRecord) : Prop where
  ids : rows'.map OperationLockRecord.operationLockId =
    rows.map OperationLockRecord.operationLockId
  closes : ∀ r' ∈ rows', ∃ r ∈ rows, r'.operationLockId = r.operationLockId ∧ Closes r r'

theorem shrinks_append {t t' : LockTable} (h : t.Rewrites Closes t')
    (ins : List OperationLockRecord) : Shrinks (t.rows ++ ins) (t'.rows ++ ins) := by
  refine ⟨by simp [h.keys_eq], fun r' hr' => ?_⟩
  rcases List.mem_append.mp hr' with hr' | hr'
  · obtain ⟨r, hr, hk, hc⟩ := h.exists_of_mem hr'
    exact ⟨r, List.mem_append_left _ hr, hk, hc⟩
  · exact ⟨r', List.mem_append_right _ hr', rfl, .refl r'⟩

theorem Exclusive.shrinks {rows rows' : List OperationLockRecord} (h : Exclusive rows)
    (hs : Shrinks rows rows') : Exclusive rows' := by
  refine ⟨hs.ids ▸ h.ids, ?_, ?_, ?_⟩
  · intro r' hr' s' hs' hclash
    obtain ⟨r, hr, hrk, hrt, hrs, -, -, hro⟩ := hs.closes r' hr'
    obtain ⟨u, hu, huk, hut, hus, -, -, huo⟩ := hs.closes s' hs'
    simp only [sameOpenScope, Bool.and_eq_true, decide_eq_true_eq] at hclash
    obtain ⟨⟨⟨h1, h2⟩, h3⟩, h4⟩ := hclash
    rw [hrk, huk]
    refine h.scopes r hr u hu ?_
    simp only [sameOpenScope, Bool.and_eq_true, decide_eq_true_eq]
    exact ⟨⟨⟨hro h1, huo h2⟩, by rw [← hrt, ← hut, h3]⟩, by rw [← hrs, ← hus, h4]⟩
  · intro r' hr' hlocator
    obtain ⟨r, hr, -, hrt, hrs, hrc, hrv, -⟩ := hs.closes r' hr'
    rw [hrs, hrc, hrv]
    exact h.locators r hr (hrt ▸ hlocator)
  · intro r' hr' s' hs' hro hso hconf hloc
    obtain ⟨r, hr, -, hrt, -, hrc, -, hropen⟩ := hs.closes r' hr'
    obtain ⟨u, hu, -, hut, -, huc, -, huopen⟩ := hs.closes s' hs'
    rw [hrc, huc]
    exact h.clusters r hr u hu (hropen hro) (huopen hso) (hrt ▸ hconf) (hut ▸ hloc)

theorem Phase.Established.shrinks {rows rows' : List OperationLockRecord} {phase : Phase}
    (h : phase.Established rows) (hs : Shrinks rows rows') : phase.Established rows' := by
  cases phase with
  | hostChecked a =>
      intro r' hr'
      obtain ⟨r, hr, -, hrt, -, hrc, -, hro⟩ := hs.closes r' hr'
      have hfree := h r hr
      rw [Bool.eq_false_iff] at hfree ⊢
      intro hheld
      apply hfree
      simp only [holdsConfiguration, Bool.and_eq_true, decide_eq_true_eq] at hheld ⊢
      exact ⟨⟨hrc ▸ hheld.1.1, hrt ▸ hheld.1.2⟩, hro hheld.2⟩
  | clusterChecked a targetType targetId scopeKey =>
      intro r' hr' hcluster
      obtain ⟨r, hr, -, -, -, hrc, -, hro⟩ := hs.closes r' hr'
      have hclosed := h r hr (hrc ▸ hcluster)
      rw [Bool.eq_false_iff] at hclosed ⊢
      exact fun hopen => hclosed (hro hopen)
  | idle | admitted | hostAdmitted => trivial

/-- A rewrite of the committed rows keeps the invariant. -/
theorem Inv.shrinks {db db' : Db} {g : Option Transaction} (h : Inv ⟨db, g⟩)
    (hr : db.locks.Rewrites Closes db'.locks) : Inv ⟨db', g⟩ := by
  have hs : Shrinks (State.rows ⟨db, g⟩) (State.rows ⟨db', g⟩) := shrinks_append hr _
  exact ⟨h.exclusive.shrinks hs, fun t ht => (h.established t ht).shrinks hs⟩

/-! ### Insertions -/

/-- The rows after an insertion that the unique constraints accept. -/
theorem Exclusive.insert {rows : List OperationLockRecord} {view view' : LockTable}
    {r : OperationLockRecord} (h : Exclusive rows) (hview : view.rows = rows)
    (hins : view.insert r = some view')
    (hloc : r.scopeType = .proxmoxLocator →
      ∃ vmid, r.vmid = some vmid ∧ r.scopeKey = locatorScopeKey r.clusterId vmid)
    (hhost : r.scopeType = .proxmoxLocator → ∀ s ∈ rows, holdsConfiguration r.clusterId s = false)
    (hfree : r.scopeType = .proxmoxConfiguration →
      ∀ s ∈ rows, s.clusterId = r.clusterId → s.isOpen = false) :
    Exclusive (rows ++ [r]) := by
  have hrows : view'.rows = rows ++ [r] := by rw [Table.insert_eq_some hins, hview]
  refine ⟨hrows ▸ view'.keys_nodup, ?_, ?_, ?_⟩
  · intro s hs u hu hclash
    by_contra hne
    have hsu : s ≠ u := fun heq => hne (congrArg _ heq)
    rw [← hrows] at hs hu
    rw [Table.not_clash sameOpenScope_comm hs hu hsu] at hclash
    exact Bool.false_ne_true hclash
  · intro s hs hlocator
    rcases List.mem_append.mp hs with hs | hs
    · exact h.locators s hs hlocator
    · rw [List.mem_singleton] at hs
      subst hs
      exact hloc hlocator
  · intro s hs u hu hso huo hconf hlocator heq
    rw [List.mem_append, List.mem_singleton] at hs hu
    rcases hs with hs | rfl <;> rcases hu with hu | rfl
    · exact h.clusters s hs u hu hso huo hconf hlocator heq
    · have := hhost hlocator s hs
      simp [holdsConfiguration, heq, hconf, hso] at this
    · have := hfree hconf u hu heq.symm
      rw [huo] at this
      cases this
    · rw [hconf] at hlocator
      cases hlocator

theorem hostCheck_established {a : Acquisition} {view : LockTable}
    (h : a.hostCheck view = .ok ()) : ∀ r ∈ view.rows, holdsConfiguration a.cluster r = false := by
  unfold Acquisition.hostCheck at h
  split at h
  · cases h
  · rename_i hnone
    simpa using hnone

theorem clusterCheck_established {a : HostAcquisition} {scopeKey : Str} {view : LockTable}
    (h : a.clusterCheck scopeKey view = .ok ()) :
    ∀ r ∈ view.rows, r.clusterId = a.cluster → r.isOpen = false := by
  unfold HostAcquisition.clusterCheck at h
  split at h
  · cases h
  · rename_i hnone
    rw [HostAcquisition.firstOpen, List.head?_eq_none_iff, ← List.length_eq_zero_iff,
      List.length_mergeSort, List.length_eq_zero_iff, List.filter_eq_nil_iff] at hnone
    intro r hr hcluster
    simpa [hcluster] using hnone r hr

theorem insert_eq_ok {rt : Runtime} {draw : Draw} {a : Acquisition} {view view' : LockTable}
    {lock : DurableTargetLock} (h : a.insert rt draw view = .ok (lock, view')) :
    view.insert (a.row draw) = some view' := by
  unfold Acquisition.insert at h
  split at h
  · rename_i locks hins
    cases h
    exact hins
  · cases h

theorem hostInsert_eq_ok {draw : Draw} {a : HostAcquisition} {targetType targetId scopeKey : Str}
    {view view' : LockTable} {r : OperationLockRecord}
    (h : a.insert draw targetType targetId scopeKey view = .ok (r, view')) :
    view.insert (a.row draw targetType targetId scopeKey) = some view' := by
  unfold HostAcquisition.insert at h
  dsimp only at h
  split at h
  · rename_i locks hins
    cases h
    exact hins
  · cases h

/-! ### The run -/

theorem inv_step {rt : Runtime} {s s' : State} {label : Label} (h : Inv s)
    (hs : Step rt s label s') : Inv s' := by
  cases hs with
  | precheckFailed => exact h
  | lockConnection => exact ⟨by simpa [State.rows] using h.exclusive, by simp [Phase.Established]⟩
  | accept => exact ⟨h.exclusive, by simp [Phase.Established]⟩
  | admitFailed => exact h
  | hostCheck hview hok =>
      refine ⟨h.exclusive, ?_⟩
      rintro t ⟨⟩
      have := hostCheck_established hok
      rwa [hview] at this
  | hostCheckFailed => exact ⟨h.exclusive, by simp [Phase.Established]⟩
  | @insert db ins a view lock view' draw hview hok =>
      have hfree : ∀ r ∈ State.rows _, holdsConfiguration a.cluster r = false :=
        h.established _ rfl
      refine ⟨?_, by simp [Phase.Established]⟩
      have := h.exclusive.insert hview (insert_eq_ok hok) (fun _ => ⟨a.vmid, rfl, rfl⟩)
        (fun _ => hfree) (fun hconf => by cases hconf)
      simpa [State.rows] using this
  | insertFailed => exact ⟨h.exclusive, by simp [Phase.Established]⟩
  | hostCheckedFailed => exact h
  | hostAdmit => exact ⟨h.exclusive, by simp [Phase.Established]⟩
  | hostAdmitFailed => exact h
  | clusterCheck hview hok =>
      refine ⟨h.exclusive, ?_⟩
      rintro t ⟨⟩
      have := clusterCheck_established hok
      rwa [hview] at this
  | clusterCheckFailed => exact ⟨h.exclusive, by simp [Phase.Established]⟩
  | @hostInsert db ins a targetType targetId scopeKey view r view' draw hview hok =>
      have hfree : ∀ r ∈ State.rows _, r.clusterId = a.cluster → r.isOpen = false :=
        h.established _ rfl
      refine ⟨?_, by simp [Phase.Established]⟩
      have := h.exclusive.insert hview (hostInsert_eq_ok hok) (fun hloc => by cases hloc)
        (fun hloc => by cases hloc) (fun _ => hfree)
      simpa [State.rows] using this
  | hostInsertFailed => exact ⟨h.exclusive, by simp [Phase.Established]⟩
  | commit hcommit =>
      refine ⟨?_, by simp⟩
      have := h.exclusive
      simpa [State.rows, Table.ofRows_eq_some.mp hcommit] using this
  | @rollback db t =>
      refine ⟨?_, by simp⟩
      have hsub : (State.rows ⟨db, none⟩).Sublist (State.rows ⟨db, some t⟩) := by
        simp [State.rows]
      exact ⟨h.exclusive.ids.sublist (hsub.map _),
        fun r hr s hs => h.exclusive.scopes r (hsub.subset hr) s (hsub.subset hs),
        fun r hr => h.exclusive.locators r (hsub.subset hr),
        fun r hr s hs => h.exclusive.clusters r (hsub.subset hr) s (hsub.subset hs)⟩
  | release draw lock reason hok => exact h.shrinks (release_rewrites hok)
  | releaseOwned draw clusterId vmid ownerId reason hok =>
      exact h.shrinks (releaseOwned_rewrites hok)
  | commitObservation draw lease o hok => exact h.shrinks (commitObservation_rewrites hok)
  | other hlocks => exact h.shrinks (hlocks ▸ .refl Closes.refl _)

theorem inv_of_reachable {rt : Runtime} {s : State} (h : Reachable rt s) : Inv s := by
  induction h with
  | start h =>
      refine ⟨?_, by simp⟩
      have hrows : ∀ db : Db, db.locks = Table.empty → State.rows ⟨db, none⟩ = [] := by
        intro db hdb
        simp [State.rows, hdb, Table.empty]
      rw [hrows _ h]
      exact ⟨by simp, by simp, by simp, by simp⟩
  | step _ hs ih => exact inv_step ih hs

/-- The insertions of a transaction never conflict when it commits. -/
theorem commit_possible {rt : Runtime} {db : Db} {ins : List OperationLockRecord}
    (h : Reachable rt ⟨db, some ⟨ins, .idle⟩⟩) :
    ∃ locks, Step rt ⟨db, some ⟨ins, .idle⟩⟩ .committed ⟨{ db with locks := locks }, none⟩ := by
  have hexcl : Exclusive (db.locks.rows ++ ins) := (inv_of_reachable h).exclusive
  have hpair : (db.locks.rows ++ ins).Pairwise fun r s => sameOpenScope r s = false := by
    refine (List.pairwise_map.mp hexcl.ids).imp_of_mem fun {r s} hr hs hne => ?_
    rw [Bool.eq_false_iff]
    exact fun hclash => hne (hexcl.scopes r hr s hs hclash)
  exact ⟨⟨_, hexcl.ids, hpair⟩, .commit (Table.ofRows_eq_some.mpr rfl)⟩

/-- An acquisition that no other transaction interrupts is a run of its phases. -/
theorem reachable_acquire {rt : Runtime} {db db' : Db} {process : Process} {draw : Draw}
    {a : Acquisition} {lock : DurableTargetLock} (h : Reachable rt ⟨db, none⟩)
    (hacquire : acquire rt process draw a db = .ok (lock, db')) : Reachable rt ⟨db', none⟩ := by
  simp only [acquire, bind_eq_ok, pure_eq_ok, Prod.mk.injEq] at hacquire
  obtain ⟨_, -, _, hadmit, _, hhost, ⟨held, locks⟩, hins, -, rfl⟩ := hacquire
  have hview : ∀ phase, State.Sees ⟨db, some ⟨[], phase⟩⟩ db.locks := by
    simp [State.Sees, State.rows]
  refine ((((h.step .lockConnection).step (.accept process a hadmit)).step
    (.hostCheck (hview _) hhost)).step (.insert draw (hview _) hins)).step (.commit ?_)
  exact Table.ofRows_eq_some.mpr (Table.insert_eq_some (insert_eq_ok hins))

theorem reachable_acquireHost {rt : Runtime} {db db' : Db} {process : Process} {draw : Draw}
    {a : HostAcquisition} {r : OperationLockRecord} (h : Reachable rt ⟨db, none⟩)
    (hacquire : acquireHost rt process draw a db = .ok (r, db')) : Reachable rt ⟨db', none⟩ := by
  simp only [acquireHost, bind_eq_ok, pure_eq_ok, Prod.mk.injEq] at hacquire
  obtain ⟨⟨targetType, targetId, scopeKey⟩, hc, _, hadmit, _, hcluster, ⟨held, locks⟩, hins, -,
    rfl⟩ := hacquire
  have hview : ∀ phase, State.Sees ⟨db, some ⟨[], phase⟩⟩ db.locks := by
    simp [State.Sees, State.rows]
  refine ((((h.step .lockConnection).step (.hostAdmit process a hc hadmit)).step
    (.clusterCheck (hview _) hcluster)).step (.hostInsert draw (hview _) hins)).step (.commit ?_)
  exact Table.ofRows_eq_some.mpr (Table.insert_eq_some (hostInsert_eq_ok hins))

/-- In every reachable state a VM has at most one open lock, open host configuration locks and open
VM locks exclude each other in a cluster, and an acquisition changes the committed locks only
when its transaction commits, one that raises inserting nothing. -/
theorem target_lock_exclusion (rt : Runtime) (s : State) (h : Reachable rt s) :
    (∀ r ∈ s.db.locks, ∀ t ∈ s.db.locks, r.isOpen = true → t.isOpen = true →
      r.scopeType = .proxmoxLocator → t.scopeType = .proxmoxLocator →
      r.scopeKey = t.scopeKey ∨ (r.clusterId = t.clusterId ∧ r.vmid = t.vmid) → r = t) ∧
    (∀ r ∈ s.db.locks, ∀ t ∈ s.db.locks, r.isOpen = true → t.isOpen = true →
      r.scopeType = .proxmoxConfiguration → t.scopeType = .proxmoxLocator →
      r.clusterId ≠ t.clusterId) ∧
    (∀ e s', Step rt s (.failed e) s' → s'.db.locks = s.db.locks ∧ s'.rows = s.rows) ∧
    (∀ s', Step rt s .acquiring s' → s'.db.locks = s.db.locks) := by
  have hinv := (inv_of_reachable h).exclusive
  have hmem : ∀ r ∈ s.db.locks, r ∈ s.rows := fun r hr => List.mem_append_left _ hr
  refine ⟨?_, ?_, ?_, ?_⟩
  · intro r hr t ht hro hto hrl htl hscope
    have hkey : r.scopeKey = t.scopeKey := by
      rcases hscope with hkey | ⟨hcluster, hvmid⟩
      · exact hkey
      · obtain ⟨v, hv, hrk⟩ := hinv.locators r (hmem r hr) hrl
        obtain ⟨w, hw, htk⟩ := hinv.locators t (hmem t ht) htl
        rw [hv, hw, Option.some.injEq] at hvmid
        rw [hrk, htk, hcluster, hvmid]
    by_contra hne
    have hclash := Table.not_clash sameOpenScope_comm hr ht hne
    simp [sameOpenScope, hro, hto, hrl, htl, hkey] at hclash
  · exact fun r hr t ht => hinv.clusters r (hmem r hr) t (hmem t ht)
  · intro e s' hs
    cases hs <;> exact ⟨rfl, rfl⟩
  · intro s' hs
    cases hs with
    | other hlocks => exact hlocks
    | _ => rfl

/-! ### A run with three locks -/

def sampleProcess : Process := ⟨none, fun _ => true⟩

def vmAcquisition (clusterId : Str) (vmid : ℤ) (ownerId : Str) : Acquisition :=
  ⟨.vmCompute, clusterId, vmid, ownerId, "vm_compute_dispatch"⟩

def bridgeAcquisition (clusterId : Str) : HostAcquisition :=
  ⟨.hostNetwork, clusterId, "host-network-1",
    .dict [("node_id", .str "pve"), ("bridge_id", .str "vmbr40")]⟩

/-- Two VMs of one cluster are locked, and a bridge of another one. -/
def threeLocks : Except StoreError Db := do
  let (_, db) ← acquire Runtime.constant sampleProcess (Draw.numbered 1)
    (vmAcquisition "lab" 100 "vm-compute-1") {}
  let (_, db) ← acquire Runtime.constant sampleProcess (Draw.numbered 2)
    (vmAcquisition "lab" 101 "vm-compute-2") db
  let (_, db) ← acquireHost Runtime.constant sampleProcess (Draw.numbered 3)
    (bridgeAcquisition "edge") db
  return db

/-- The kind, the cluster and the VM of each open lock. -/
def openScopes (db : Db) : List (ScopeType × Str × Option ℤ) :=
  (db.locks.rows.filter OperationLockRecord.isOpen).map fun r => (r.scopeType, r.clusterId, r.vmid)

def threeScopes : List (ScopeType × Str × Option ℤ) :=
  [(.proxmoxLocator, "lab", some 100), (.proxmoxLocator, "lab", some 101),
    (.proxmoxConfiguration, "edge", none)]

theorem reachable_threeLocks {db : Db} (h : threeLocks = .ok db) :
    Reachable Runtime.constant ⟨db, none⟩ := by
  simp only [threeLocks, bind_eq_ok, pure_eq_ok] at h
  obtain ⟨⟨_, _⟩, hfirst, ⟨_, _⟩, hsecond, ⟨_, _⟩, hbridge, rfl⟩ := h
  exact reachable_acquireHost (reachable_acquire (reachable_acquire (.start rfl) hfirst) hsecond)
    hbridge

/-- Two VM locks and a bridge lock that stand side by side, and two acquisitions they refuse: a
second one of the first VM, and one of a VM in the cluster of the bridge. -/
theorem target_lock_exclusion_of_three_locks : ∃ db, Reachable Runtime.constant ⟨db, none⟩ ∧
    openScopes db = threeScopes ∧
    (∀ r ∈ db.locks, ∀ t ∈ db.locks, r.isOpen = true → t.isOpen = true →
      r.scopeType = .proxmoxLocator → t.scopeType = .proxmoxLocator →
      r.scopeKey = t.scopeKey ∨ (r.clusterId = t.clusterId ∧ r.vmid = t.vmid) → r = t) ∧
    (∀ r ∈ db.locks, ∀ t ∈ db.locks, r.isOpen = true → t.isOpen = true →
      r.scopeType = .proxmoxConfiguration → t.scopeType = .proxmoxLocator →
      r.clusterId ≠ t.clusterId) ∧
    (∃ e s, Step Runtime.constant
        ⟨db, some ⟨[], .hostChecked (vmAcquisition "lab" 100 "vm-compute-3")⟩⟩ (.failed e) s ∧
      s.db.locks = db.locks ∧ s.rows = db.locks.rows) ∧
    (∃ e s, Step Runtime.constant
        ⟨db, some ⟨[], .admitted (vmAcquisition "edge" 100 "vm-compute-4")⟩⟩ (.failed e) s ∧
      s.db.locks = db.locks ∧ s.rows = db.locks.rows) := by
  have hruns : (threeLocks >>= fun db => pure (decide (
      openScopes db = threeScopes ∧
      (vmAcquisition "lab" 100 "vm-compute-3").admission sampleProcess db.connections = .ok () ∧
      (vmAcquisition "lab" 100 "vm-compute-3").hostCheck db.locks = .ok () ∧
      ((vmAcquisition "lab" 100 "vm-compute-3").insert Runtime.constant (Draw.numbered 4)
        db.locks).isOk = false ∧
      (vmAcquisition "edge" 100 "vm-compute-4").admission sampleProcess db.connections = .ok () ∧
      ((vmAcquisition "edge" 100 "vm-compute-4").hostCheck db.locks).isOk = false))) =
        .ok true := by decide +kernel
  simp only [bind_eq_ok, pure_eq_ok, decide_eq_true_eq] at hruns
  obtain ⟨db, hdb, hopen, hadmit, hhost, hinsert, hadmit', hhost'⟩ := hruns
  have hreach := reachable_threeLocks hdb
  have hview : ∀ phase, State.Sees ⟨db, some ⟨[], phase⟩⟩ db.locks := by
    simp [State.Sees, State.rows]
  obtain ⟨hvms, hclusters, -⟩ := target_lock_exclusion _ _ hreach
  refine ⟨db, hreach, hopen, hvms, hclusters, ?_, ?_⟩
  · obtain ⟨e, he⟩ := exists_eq_error hinsert
    have hphase := ((hreach.step .lockConnection).step (.accept sampleProcess _ hadmit)).step
      (.hostCheck (hview _) hhost)
    have hstep : Step Runtime.constant _ (.failed e) _ :=
      .insertFailed (Draw.numbered 4) (hview _) he
    have hlocks := ((target_lock_exclusion _ _ hphase).2.2.1 _ _ hstep).1
    exact ⟨e, _, hstep, hlocks, by simp [State.rows]⟩
  · obtain ⟨e, he⟩ := exists_eq_error hhost'
    have hphase := (hreach.step .lockConnection).step (.accept sampleProcess _ hadmit')
    have hstep : Step Runtime.constant _ (.failed e) _ := .hostCheckFailed (hview _) he
    have hlocks := ((target_lock_exclusion _ _ hphase).2.2.1 _ _ hstep).1
    exact ⟨e, _, hstep, hlocks, by simp [State.rows]⟩

end Gjallar.LockExclusion

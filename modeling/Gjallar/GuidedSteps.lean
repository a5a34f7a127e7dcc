import Gjallar.GuidedInvariants

/-!
# Every command keeps the invariants

One lemma for each effect on the rows of the operation it is about; the rows of the other
operations stay the same.
-/
namespace Gjallar.GuidedSystem

open Gjallar.Text Gjallar.Data Gjallar.Tables Gjallar.Redaction Gjallar.Operation
  Gjallar.OperationStore Gjallar.OperationLedger Gjallar.TargetLocks Gjallar.RecoveryStore
  Gjallar.RecoveryBinding Gjallar.Processes Gjallar.GuidedQm Gjallar.GuidedWorkflow
open Gjallar.Execution (exactLocator)

variable {rt : Runtime} {cluster id : Str} {db db' : Db} {t : Trace Command Reply}

/-- The identifier of a guided unlock has no white space around it. -/
theorem strip_operationId (c : PlanCommand) : strip (c.operationId rt) = c.operationId rt := by
  refine TaskIdentity.strip_of_no_space fun x hx => ?_
  have hvmid := c.vmid_valid
  have hplain : ∀ s : Str, s.all (fun y => !isSpace y) = true → ∀ y ∈ s, isSpace y = false := by
    intro s hs y hy
    simpa using List.all_eq_true.mp hs y hy
  simp only [PlanCommand.operationId, List.mem_append] at hx
  rcases hx with ((((hx | hx) | hx) | hx) | hx) | hx
  · exact hplain PlanCommand.idPrefix (by decide) x hx
  · exact TaskIdentity.isSpace_of_isUpidChar (isUpidChar_of_mem_nodeId c hx)
  · exact hplain _ rfl x hx
  · exact VmAdmission.isSpace_of_isLowerHex (isLowerHex_of_mem_ofInt (by omega) hx)
  · exact hplain _ rfl x hx
  · exact VmAdmission.isSpace_of_isLowerHex (Hex.isHex _ x (List.mem_of_mem_take hx))

/-! ### Creation -/

section Created

variable {c : PlanCommand} {observed : Observed} {expiresAt : Instant} {payload : Dict}
  {draw : Draw}

theorem origin_newOperation (hlock : observed.configLock ∈ supportedLocks) :
    Origin rt c observed (newOperation rt draw (c.spec rt observed expiresAt) payload) where
  operationId := rfl
  operationType := rfl
  executionMode := rfl
  targetType := rfl
  targetId := rfl
  expiresAt := rfl
  target := by
    change Dict.get (sanitized (c.spec rt observed expiresAt).details) "target" = _
    rw [get_sanitized]
    rfl
  before := by
    change Dict.get (sanitized (c.spec rt observed expiresAt).details) "observed_before" = _
    rw [get_sanitized]
    rfl
  supported := hlock

theorem get_newOperation_none {key : Str}
    (hkey : Dict.get (c.spec rt observed expiresAt).details key = none) : Dict.get
      (newOperation rt draw (c.spec rt observed expiresAt) payload).details key = none := by
  change Dict.get (sanitized (c.spec rt observed expiresAt).details) key = _
  rw [get_sanitized, hkey, Option.map_none]

theorem coherent_created (hc : Coherent rt cluster id db)
    (hlock : observed.configLock ∈ supportedLocks) (hid : c.operationId rt = id)
    (hops : db.operations.insert (newOperation rt draw (c.spec rt observed expiresAt) payload) =
      some db'.operations) (hrecovery : db'.recovery = db.recovery)
    (hlocks : db'.locks = db.locks) :
    Coherent rt cluster id db' ∧ Advances rt id db db' := by
  subst hid
  have hnone : db.operations.get (c.operationId rt) = none := Table.get_insert_key hops
  obtain ⟨hnoItem, hnoLock⟩ := hc.fresh hnone
  have hget : db'.operations.get (c.operationId rt) = some
      (newOperation rt draw (c.spec rt observed expiresAt) payload) :=
    (Table.get_insert hops _).trans (if_pos rfl)
  refine ⟨⟨fun h => ?_, fun row hrow => ?_⟩, ?_⟩
  · rw [hget] at h
    cases h
  · rw [hget] at hrow
    cases hrow
    refine ⟨c, observed, origin_newOperation hlock, fun _ => get_newOperation_none rfl,
      fun _ => ⟨rfl, get_newOperation_none rfl⟩, fun item hitem => ?_, fun lock hmem howner => ?_,
      fun _ lock hmem howner => ?_, fun hs => by cases hs⟩
    · rw [hrecovery] at hitem
      exact absurd (hitem.symm.trans hnoItem) (Option.some_ne_none item)
    · exact absurd howner (hnoLock lock (hlocks ▸ hmem))
    · exact absurd howner (hnoLock lock (hlocks ▸ hmem))
  · refine ⟨fun row hrow => ?_, fun item hitem => ?_, fun _ _ _ key lock hlock howner => ?_⟩
    · rw [hnone] at hrow
      cases hrow
    · rw [hnoItem] at hitem
      cases hitem
    · exact absurd howner (hnoLock lock (Table.mem_of_get hlock))

end Created

/-! ### Claims -/

theorem coherent_claimed (hc : Coherent rt cluster id db)
    (hops : db'.operations = db.operations) (hlocks : db'.locks = db.locks)
    (hrecovery : db.recovery.Rewrites Reclaimed db'.recovery) :
    Coherent rt cluster id db' ∧ Advances rt id db db' := by
  have hback : ∀ id item', db'.recovery.get id = some item' →
      ∃ item, db.recovery.get id = some item ∧ Reclaimed item item' := by
    intro id item' hitem'
    obtain ⟨item, hmem, hkey, hre⟩ := hrecovery.exists_of_mem (Table.mem_of_get hitem')
    exact ⟨item, Table.get_eq_some.mpr ⟨hmem, hkey.symm.trans (Table.key_of_get hitem')⟩, hre⟩
  have hnone : ∀ id, db'.recovery.get id = none → db.recovery.get id = none := by
    intro id hid
    by_contra hne
    obtain ⟨item, hitem⟩ := Option.ne_none_iff_exists'.mp hne
    obtain ⟨item', hitem', -⟩ := hrecovery.exists_of_get hitem
    rw [hid] at hitem'
    cases hitem'
  refine ⟨⟨fun h => ?_, fun row hrow => ?_⟩, ?_⟩
  · obtain ⟨hitem, hlock⟩ := hc.fresh (hops ▸ h)
    refine ⟨?_, hlocks ▸ hlock⟩
    by_contra hne
    obtain ⟨item', hitem'⟩ := Option.ne_none_iff_exists'.mp hne
    obtain ⟨item, hitem₀, -⟩ := hback id item' hitem'
    rw [hitem] at hitem₀
    cases hitem₀
  · obtain ⟨c, observed, hsound⟩ := hc.sound row (hops ▸ hrow)
    refine ⟨c, observed, hsound.origin, hsound.unexposed, fun h => hsound.unstarted (hnone _ h),
      fun item' hitem' => ?_, hlocks ▸ hsound.shaped, hlocks ▸ hsound.active,
      hlocks ▸ hsound.attested⟩
    obtain ⟨item, hitem, hre⟩ := hback _ item' hitem'
    obtain ⟨hkind, hnames, hsingle, hclosed, hbinding, hbound⟩ := hsound.item item hitem
    refine ⟨hre.kind.trans hkind, fun key hkey => ?_, hre.details ▸ hsingle,
      fun h => hclosed (hre.completed.mp h), ?_, fun h => ?_⟩
    · rw [hre.details]
      exact hnames key hkey
    · rw [hre.details]
      rcases hbinding with hnil | ⟨lock, hnamesLock, hentry, hopen⟩
      · exact .inl hnil
      · exact .inr ⟨lock, hnamesLock.congr rfl (hlocks ▸ hnamesLock.mem), hentry,
          fun h => hopen fun hcompleted => h (hre.completed.mpr hcompleted)⟩
    · rw [hre.details]
      exact hbound h
  · refine ⟨fun row hrow => ⟨row, hops ▸ hrow, .refl row⟩, fun item hitem => ?_,
      fun _ _ _ key lock hlock _ => hlocks ▸ hlock⟩
    obtain ⟨item', hitem', hre⟩ := hrecovery.exists_of_get hitem
    exact ⟨item', hitem', hre.details ▸ .refl rt _⟩

/-! ### Acquisition -/

/-- An insertion leaves the stored rows as they are. -/
theorem get_of_insert {locks locks' : LockTable} {fresh : OperationLockRecord}
    (hinsert : locks.insert fresh = some locks') {key : Str} {lock : OperationLockRecord}
    (hget : locks.get key = some lock) : locks'.get key = some lock := by
  rw [Table.get_insert hinsert]
  split
  · rename_i heq
    have hnone := Table.get_insert_key hinsert
    rw [heq, hget] at hnone
    cases hnone
  · exact hget

theorem coherent_acquired (hc : Coherent rt cluster id db) {row : OperationRecord}
    (hrow : db.operations.get id = some row) {vmid : ℤ} {draw : Draw}
    (hlocator : exactLocator row.targetId = some vmid) (hops : db'.operations = db.operations)
    (hrecovery : db'.recovery = db.recovery)
    (hlocks : db.locks.insert ((acquisition cluster vmid id).row draw) = some db'.locks) :
    Coherent rt cluster id db' ∧ Advances rt id db db' := by
  have hkey : row.operationId = id := Table.key_of_get hrow
  have hkept : ∀ key lock, db.locks.get key = some lock → db'.locks.get key = some lock :=
    fun key lock => get_of_insert hlocks
  refine ⟨⟨fun h => ?_, fun row' hrow' => ?_⟩, ?_⟩
  · rw [hops, hrow] at h
    cases h
  · rw [hops, hrow] at hrow'
    cases hrow'
    obtain ⟨c, observed, hsound⟩ := hc.sound row hrow
    refine ⟨c, observed, hsound.origin, hsound.unexposed, hrecovery ▸ hsound.unstarted,
      fun item hitem => ?_, fun lock hlock howner => ?_, fun hu lock hlock howner => ?_,
      fun hs => ?_⟩
    · obtain ⟨hkind, hnames, hsingle, hclosed, hbinding, hbound⟩ :=
        hsound.item item (hrecovery ▸ hitem)
      refine ⟨hkind, hnames, hsingle, hclosed, ?_, hbound⟩
      rcases hbinding with hnil | ⟨lock, hlock, hrest⟩
      · exact .inl hnil
      · exact .inr ⟨lock, hlock.congr rfl (hkept _ _ hlock.mem), hrest⟩
    · rcases (Table.mem_insert hlocks).mp hlock with hlock | rfl
      · exact hsound.shaped lock hlock howner
      · exact ⟨rfl, vmid, draw, hlocator, by rw [hkey]; rfl⟩
    · rcases (Table.mem_insert hlocks).mp hlock with hlock | rfl
      · exact hsound.active hu lock hlock howner
      · exact fun _ => rfl
    · obtain ⟨h₁, h₂, lock, hlock, hrest⟩ := hsound.attested hs
      exact ⟨h₁, h₂, lock, (Table.mem_insert hlocks).mpr (.inl hlock), hrest⟩
  · exact ⟨fun row hrow => ⟨row, hops ▸ hrow, .refl row⟩,
      fun item hitem => ⟨item, hrecovery ▸ hitem, .refl rt _⟩,
      fun _ _ _ key lock hlock _ => hkept key lock hlock⟩

/-! ### Preparation -/

theorem coherent_prepared (hc : Coherent rt cluster id db) {row : OperationRecord}
    (hrow : db.operations.get id = some row) (hplanned : row.status = .planned)
    (hentry : Dict.get row.details "target_operation_lock" = none) {spec : RecoverySpec}
    {owner : Str} {time : Instant} {draw : Draw} (hid : spec.operationId = id)
    (hkind : spec.recoveryKind = recoveryKind)
    (hdetails : recoveryDetails rt row [] = some spec.details)
    (hops : db'.operations = db.operations) (hlocks : db'.locks = db.locks)
    (hrecovery : db.recovery.insert (firstLease draw spec owner time) = some db'.recovery ∨
      ∃ item, db.recovery.get id = some item ∧ item.status ≠ .completed ∧
        db.recovery.put (reprepared draw spec owner time item) = some db'.recovery) :
    Coherent rt cluster id db' ∧ Advances rt id db db' := by
  subst hid
  have hkey : row.operationId = spec.operationId := Table.key_of_get hrow
  obtain ⟨c, observed, hsound⟩ := hc.sound row hrow
  have hspec : Dict.get spec.details "target_lock_id" = some (.str []) ∧
      Dict.get spec.details "related_target_locks" = none := by
    unfold recoveryDetails at hdetails
    dsimp only at hdetails
    rw [vmid_of_origin hsound.origin] at hdetails
    rw [← Option.some.inj hdetails]
    exact ⟨rfl, rfl⟩
  have hunbound : Dict.get (sanitized spec.details) "target_lock_id" = some (.str []) := by
    rw [get_sanitized_str (by decide) hspec.1, redactString_nil]
  have hsingle : Dict.get (sanitized spec.details) "related_target_locks" = none := by
    rw [get_sanitized, hspec.2, Option.map_none]
  have hnames := namesPlan_recoveryDetails hsound.origin hdetails
  have hafter : ∃ item', db'.recovery.get spec.operationId = some item' ∧
      item'.recoveryKind = recoveryKind ∧ item'.status = .leased ∧
      NamesPlan c observed item'.details ∧
      Dict.get item'.details "related_target_locks" = none ∧
      Dict.get item'.details "target_lock_id" = some (.str []) := by
    rcases hrecovery with hinsert | ⟨item, hitem, -, hput⟩
    · exact ⟨_, (Table.get_insert hinsert _).trans (if_pos rfl), hkind, rfl, hnames, hsingle,
        hunbound⟩
    · have hitemKey : item.operationId = spec.operationId := Table.key_of_get hitem
      have hbefore := hsound.item item (hkey ▸ hitem)
      refine ⟨_, Table.get_put_self hitem hput hitemKey, hbefore.kind, rfl,
        hnames.merge item.details, ?_, ?_⟩
      · exact (get_merge_of_none hsingle).trans hbefore.single
      · change Dict.get (Dict.merge item.details (sanitized spec.details)) "target_lock_id" = _
        rw [Dict.get_merge, hunbound, Option.some_or]
  obtain ⟨item', hitem', hkind', hleased, hnames', hsingle', hunbound'⟩ := hafter
  refine ⟨⟨fun h => ?_, fun row' hrow' => ?_⟩, ?_⟩
  · rw [hops, hrow] at h
    cases h
  · rw [hops, hrow] at hrow'
    cases hrow'
    refine ⟨c, observed, hsound.origin, hsound.unexposed, fun hnone => ?_, fun item hitem => ?_,
      hlocks ▸ hsound.shaped, hlocks ▸ hsound.active, hlocks ▸ hsound.attested⟩
    · rw [hkey, hitem'] at hnone
      cases hnone
    · rw [hkey, hitem'] at hitem
      cases hitem
      refine ⟨hkind', hnames', hsingle', fun hcompleted => ?_, .inl hunbound', fun hstatus => ?_⟩
      · rw [hleased] at hcompleted
        cases hcompleted
      · rw [hplanned] at hstatus
        rcases hstatus with hstatus | hstatus <;> cases hstatus
  · refine ⟨fun row hrow => ⟨row, hops ▸ hrow, .refl row⟩, fun item hitem => ⟨item', hitem', ?_⟩,
      fun _ _ _ key lock hlock _ => hlocks ▸ hlock⟩
    rcases (hsound.item item (hkey ▸ hitem)).binding with hnil | ⟨lock, -, hne, -⟩
    · exact .inl hnil
    · exact absurd hentry hne

/-! ### Lock evidence -/

theorem text_of_str {repr : Value → Str} {d : Dict} {key s : Str}
    (hkey : Dict.get d key = some (.str s)) : Dict.text repr d key = strip s := by
  unfold Dict.text
  rw [hkey]
  cases s with
  | nil => rfl
  | cons c s => rfl

section Shape

variable {row : OperationRecord} {lock : OperationLockRecord}

theorem Shaped.lockId (hs : Shaped cluster row lock) : ∃ hex : Hex,
    lock.operationLockId = ("operation-lock-" : Str) ++ hex.digits := by
  obtain ⟨vmid, draw, -, hfresh⟩ := hs.exists_acquisition
  exact ⟨draw.uuid 0, congrArg DurableTargetLock.lockId hfresh⟩

theorem Shaped.lockId_ne_nil (hs : Shaped cluster row lock) : lock.operationLockId ≠ [] := by
  obtain ⟨hex, hid⟩ := hs.lockId
  rw [hid]
  exact List.append_ne_nil_of_left_ne_nil (by decide) _

theorem Shaped.strip_lockId (hs : Shaped cluster row lock) :
    strip lock.operationLockId = lock.operationLockId := by
  obtain ⟨hex, hid⟩ := hs.lockId
  rw [hid]
  refine TaskIdentity.strip_of_no_space fun x hx => ?_
  rcases List.mem_append.mp hx with hx | hx
  · have hall : ∀ y ∈ ("operation-lock-" : Str), isSpace y = false := forall_mem_of_all rfl
    exact hall x hx
  · exact VmAdmission.isSpace_of_isLowerHex (hex.isHex x hx)

theorem Shaped.clusterId (hs : Shaped cluster row lock) :
    lock.clusterId = orDefaultCluster (strip cluster) := by
  obtain ⟨vmid, draw, -, hfresh⟩ := hs.exists_acquisition
  exact congrArg DurableTargetLock.clusterId hfresh

theorem Shaped.clusterId_ne_nil (hs : Shaped cluster row lock) : lock.clusterId ≠ [] := by
  rw [hs.clusterId]
  unfold orDefaultCluster
  split
  · decide
  · rename_i hne
    simpa using hne

end Shape

/-- The lock evidence of a handle. -/
theorem lockIdOf_lockDict {targetType targetId : Str} {lock : TargetLockHandle}
    (hne : lock.durable.lockId ≠ []) :
    lockIdOf rt (lockDict rt targetType targetId lock) = strip lock.durable.lockId := by
  unfold lockIdOf
  have hid : rawText rt.repr (subDict (lockDict rt targetType targetId lock) "durable")
      "operation_lock_id" = lock.durable.lockId := rawText_of_str rfl
  dsimp only
  rw [hid, if_neg hne]

theorem lockClusterId_lockDict {targetType targetId : Str} {lock : TargetLockHandle} :
    lockClusterId rt (lockDict rt targetType targetId lock) = strip lock.durable.clusterId :=
  text_of_str rfl

/-- What is known of an active instruction lock. -/
theorem of_isActiveInstructionLock {operation : OperationSnapshot} {current : Option Dict}
    (hactive : isActiveInstructionLock rt operation current = true) :
    ∃ evidence, current = some evidence ∧ lockIdOf rt evidence =
      lockIdOf rt (recordedLock operation) ∧ lockClusterId rt evidence =
        lockClusterId rt (recordedLock operation) ∧ lockIdOf rt (recordedLock operation) ≠ [] ∧
      operation.targetType = ("proxmox_vm" : Str) ∧
      rawText rt.repr (subDict evidence "durable") "owner_id" = operation.operationId ∧
      rawText rt.repr (subDict evidence "durable") "status" = ("active" : Str) := by
  simp only [isActiveInstructionLock, Bool.and_eq_true] at hactive
  obtain ⟨hexact, hrest⟩ := hactive
  cases current with
  | none => cases hexact
  | some evidence =>
      split at hrest
      · rename_i vmid durableVmid _ _
        simp only [Bool.and_eq_true, decide_eq_true_eq, Option.getD_some] at hrest
        obtain ⟨⟨⟨⟨⟨⟨⟨htype, -⟩, -⟩, -⟩, howner⟩, -⟩, -⟩, hstatus⟩ := hrest
        simp only [isExactOwnedLock, Bool.and_eq_true] at hexact
        obtain ⟨-, hids⟩ := hexact
        split at hids
        · cases hids
        · rename_i hne
          simp only [Bool.and_eq_true, decide_eq_true_eq] at hids
          exact ⟨evidence, rfl, hids.2, hids.1.2, by simpa using hne, htype, howner, hstatus⟩
      · cases hrest

/-! ### Appends -/

section Appended

variable {a : Append} {row : OperationRecord} {draw : Draw} {i : ℕ}

theorem get_appended_of_none {key : Str} (hkey : Dict.get a.detailsPatch key = none) :
    Dict.get (applyProjection rt draw row a).details key = Dict.get row.details key := by
  rw [applyProjection_details]
  refine get_merge_of_none ?_
  rw [get_sanitized, hkey, Option.map_none]

/-- The next status of an append, as a whole. -/
theorem TameAppend.nextStatus (ht : TameAppend a) : a.nextStatus = none ∨
    a.nextStatus = some .needsReconciliation ∨ a.nextStatus = some .awaitingVerification := by
  cases hnext : a.nextStatus with
  | none => exact .inl rfl
  | some next =>
      rcases ht.next next hnext with rfl | rfl
      · exact .inr (.inl rfl)
      · exact .inr (.inr rfl)

/-- An operation awaits its verification after an append only by an attestation in time. -/
theorem attested_of_append (hc : Coherent rt cluster id db) (hr : Recalls rt id db t)
    (hallowed : AppendAllowed rt (historyOf i t) id a) (hrow : db.operations.get id = some row)
    (hexpected : ∀ expected ∈ a.expectedStatuses, row.status ∈ expected)
    (hstatus : (applyProjection rt draw row a).status = .awaitingVerification)
    (hawaits : row.status = .awaitingVerification → a.nextStatus ≠ none) :
    executionAttested (applyProjection rt draw row a) = true ∧
      lateExecutionAttested (applyProjection rt draw row a) = false ∧
      ∃ lock ∈ db.locks, lock.ownerId = id ∧ lock.isOpen = true ∧
        lockIdOf rt (recordedLock (applyProjection rt draw row a)) = strip lock.operationLockId ∧
        lockClusterId rt (recordedLock (applyProjection rt draw row a)) =
          strip lock.clusterId := by
  have hnext : a.nextStatus = some .awaitingVerification := by
    rcases hallowed.tame.nextStatus with hnext | hnext | hnext
    · rw [applyProjection_status, hnext] at hstatus
      exact absurd hnext (hawaits hstatus)
    · rw [applyProjection_status, hnext] at hstatus
      cases hstatus
    · exact hnext
  cases hallowed with
  | reconcile h =>
      rw [h] at hnext
      cases hnext
  | attest operation actor now next eventType expiredAt reason hseen hid h ha =>
      subst ha
      have hnext' : next = some .awaitingVerification := hnext
      rcases h with ⟨h, -⟩ | h <;> rw [h] at hnext' <;> cases hnext'
  | attestInTime operation actor now current hseen hid hwaiting hreads hactive ha =>
      subst ha
      obtain ⟨evidence, rfl, hlockId, hcluster, hne, htype, howner, -⟩ :=
        of_isActiveInstructionLock hactive
      obtain ⟨e, he, lock, hlock, rfl⟩ := returnedLock_of_readsLock htype hreads
      have howned : lock.durable.ownerId = id := by
        rw [← hid, ← howner]
        exact (rawText_of_str rfl).symm
      obtain ⟨row', hrow', hstays⟩ := hr.locks (i, e) (mem_historyOf.mp he) lock hlock howned
      rw [hrow] at hrow'
      cases hrow'
      have hrowStatus : row.status = .awaitingOperator := by
        have hmem := hexpected [operation.status] rfl
        rw [List.mem_singleton, hwaiting] at hmem
        exact hmem
      obtain ⟨r, hget, hopen, hdurable⟩ := hstays (by rw [hrowStatus]; rfl)
      obtain ⟨row', hrow', hextends⟩ := hr.seen_of_mem hseen hid
      rw [hrow] at hrow'
      cases hrow'
      obtain ⟨_, _, hsound⟩ := hc.sound row hrow
      have hkey : row.operationId = id := Table.key_of_get hrow
      have hrowner : r.ownerId = row.operationId := by
        rw [hkey, ← howned, hdurable]
        rfl
      have hshape := hsound.shaped r (Table.mem_of_get hget) hrowner
      have hrecorded : recordedLock (applyProjection rt draw row (UseCase.attested rt operation
          actor now (some .awaitingVerification) "operator_execution_attested" [] none)) =
            recordedLock operation := by
        unfold recordedLock subDict
        rw [get_appended_of_none rfl, hextends.recorded (by rw [hwaiting]; decide)]
      have hattestation : Dict.get (applyProjection rt draw row (UseCase.attested rt operation
          actor now (some .awaitingVerification) "operator_execution_attested" []
            none)).details "operator_attestation" =
            some (.dict (sanitized (UseCase.attestation rt operation actor now false))) := by
        rw [applyProjection_details, Dict.get_merge, get_sanitized]
        rfl
      have hdurableId : lock.durable.lockId ≠ [] := by
        rw [hdurable]
        exact hshape.lockId_ne_nil
      refine ⟨?_, ?_, r, Table.mem_of_get hget, hrowner.trans hkey, hopen, ?_, ?_⟩
      · unfold executionAttested subDict
        rw [hattestation]
        refine decide_eq_true ((get_sanitized _ _).trans ?_)
        rw [get_attestation]
        rfl
      · unfold lateExecutionAttested subDict
        rw [hattestation, Bool.and_eq_false_iff]
        refine .inr (decide_eq_false fun hlate => ?_)
        have hnone := get_sanitized (UseCase.attestation rt operation actor now false) "late"
        rw [show Dict.get (UseCase.attestation rt operation actor now false) "late" = none from rfl,
          Option.map_none] at hnone
        exact Option.some_ne_none _ (hlate.symm.trans hnone)
      · rw [hrecorded, ← hlockId, lockIdOf_lockDict hdurableId, hdurable]
        rfl
      · rw [hrecorded, ← hcluster, lockClusterId_lockDict, hdurable]
        rfl

/-- An append leaves a status only when it names the next one. -/
theorem status_of_append (ht : TameAppend a) {s : OperationStatus}
    (hs : (applyProjection rt draw row a).status = s) (hne : s ≠ .needsReconciliation)
    (hne' : s ≠ .awaitingVerification) : a.nextStatus = none ∧ row.status = s := by
  rw [applyProjection_status] at hs
  rcases ht.nextStatus with hnext | hnext | hnext
  · rw [hnext] at hs
    exact ⟨hnext, hs⟩
  · rw [hnext] at hs
    exact absurd hs.symm hne
  · rw [hnext] at hs
    exact absurd hs.symm hne'

theorem coherent_appended (hc : Coherent rt cluster id db) (hr : Recalls rt id db t)
    (hallowed : AppendAllowed rt (historyOf i t) id a) (hrow : db.operations.get id = some row)
    (hexpected : ∀ expected ∈ a.expectedStatuses, row.status ∈ expected)
    (htransition : ∀ next ∈ a.nextStatus, next ∈ row.status.allowed)
    (hops : db.operations.put (applyProjection rt draw row a) = some db'.operations)
    (hrecovery : db'.recovery = db.recovery) (hlocks : db'.locks = db.locks) :
    Coherent rt cluster id db' ∧ Advances rt id db db' := by
  have ht := hallowed.tame
  have hkey : row.operationId = id := Table.key_of_get hrow
  have hget : db'.operations.get id = some (applyProjection rt draw row a) :=
    Table.get_put_self hrow hops hkey
  have hextends : Extends row (applyProjection rt draw row a) := extends_append ht hexpected
  obtain ⟨c, observed, hsound⟩ := hc.sound row hrow
  have hawaits : row.status = .awaitingVerification → a.nextStatus ≠ none := by
    intro hstatus hnone
    cases hallowed with
    | reconcile h =>
        rw [h] at hnone
        cases hnone
    | attest operation actor now next eventType expiredAt reason hseen hid h ha =>
        subst ha
        have hnone' : next = none := hnone
        rcases h with ⟨-, h⟩ | h
        · have hmem := hexpected [operation.status] rfl
          rw [h, hstatus] at hmem
          cases List.mem_singleton.mp hmem
        · rw [h] at hnone'
          cases hnone'
    | attestInTime operation actor now current hseen hid hwaiting hreads hactive ha =>
        subst ha
        cases hnone
  refine ⟨⟨fun h => ?_, fun row' hrow' => ?_⟩, ?_⟩
  · rw [hget] at h
    cases h
  · rw [hget] at hrow'
    cases hrow'
    refine ⟨c, observed, hsound.origin.extends hextends, fun hs => ?_, fun hnone => ?_,
      fun item hitem => ?_, fun lock hlock howner => ?_, fun hu lock hlock howner => ?_,
      fun hs => ?_⟩
    · rw [get_appended_of_none (ht.fixed _ (by decide))]
      exact hsound.unexposed (hextends.planned hs)
    · obtain ⟨hplanned, hentry⟩ := hsound.unstarted (hrecovery ▸ hnone)
      rw [get_appended_of_none (ht.fixed _ (by decide))]
      refine ⟨?_, hentry⟩
      rcases ht.nextStatus with hnext | hnext | hnext
      · rw [applyProjection_status, hnext]
        exact hplanned
      · have hmem := htransition _ hnext
        rw [hplanned] at hmem
        exact absurd hmem (by decide)
      · have hmem := htransition _ hnext
        rw [hplanned] at hmem
        exact absurd hmem (by decide)
    · obtain ⟨hkind, hnames, hsingle, hclosed, hbinding, hbound⟩ :=
        hsound.item item (hrecovery ▸ hitem)
      refine ⟨hkind, hnames, hsingle, fun hcompleted => ?_, ?_, fun hs => ?_⟩
      · have hfinished := hclosed hcompleted
        rw [applyProjection_status]
        rcases ht.nextStatus with hnext | hnext | hnext
        · rw [hnext]
          exact hfinished
        · rw [hnext]
          rfl
        · have hmem := hexpected _ (ht.unmarked _ hnext rfl).2
          rw [List.mem_singleton.mp hmem] at hfinished
          cases hfinished
      · rcases hbinding with hnil | ⟨lock, hlock, hentry, hopen⟩
        · exact .inl hnil
        · exact .inr ⟨lock, hlock.congr rfl (hlocks ▸ hlock.mem), hextends.locked hentry, hopen⟩
      · rcases hs with hs | hs
        · exact hbound (.inl (status_of_append ht hs (by decide) (by decide)).2)
        · rw [applyProjection_status] at hs
          rcases ht.nextStatus with hnext | hnext | hnext
          · rw [hnext] at hs
            exact hbound (.inr hs)
          · rw [hnext] at hs
            cases hs
          · exact hbound (.inl (List.mem_singleton.mp
              (hexpected _ (ht.unmarked _ hnext rfl).2)))
    · obtain ⟨hscope, hacquired⟩ := hsound.shaped lock (hlocks ▸ hlock) howner
      exact ⟨hscope, hacquired⟩
    · exact hsound.active (hextends.unmarked hu) lock (hlocks ▸ hlock) howner
    · obtain ⟨h₁, h₂, lock, hlock, howner, hrest⟩ :=
        attested_of_append hc hr hallowed hrow hexpected hs hawaits
      exact ⟨h₁, h₂, lock, hlocks ▸ hlock, howner.trans hkey.symm, hrest⟩
  · refine ⟨fun row' hrow' => ?_, fun item hitem => ⟨item, hrecovery ▸ hitem, .refl rt _⟩,
      fun _ _ _ key lock hlock _ => hlocks ▸ hlock⟩
    rw [hrow] at hrow'
    cases hrow'
    exact ⟨_, hget, hextends⟩

end Appended

/-! ### Commits -/

section Committed

variable {lease : RecoveryLease} {o : Observation} {row : OperationRecord} {item : RecoveryRecord}
  {status : RecoveryStatus} {draw : Draw} {i : ℕ}

/-- How a commit may rewrite a lock row: it marks or releases a lock of the operation. -/
structure Remarked (id : Str) (kept : Bool) (lock lock' : OperationLockRecord) : Prop where
  scopeType : lock'.scopeType = lock.scopeType
  unmarked : unmarked lock' = unmarked lock
  isOpen : lock'.isOpen = true → lock.isOpen = true
  other : lock.ownerId ≠ id → lock' = lock
  kept : kept = true → lock' = lock

theorem Remarked.refl (id : Str) (kept : Bool) (lock : OperationLockRecord) :
    Remarked id kept lock lock := ⟨rfl, rfl, fun h => h, fun _ => rfl, fun _ => rfl⟩

theorem Remarked.ownerId {kept : Bool} {lock lock' : OperationLockRecord}
    (hr : Remarked id kept lock lock') : lock'.ownerId = lock.ownerId :=
  congrArg DurableTargetLock.ownerId hr.unmarked

theorem status_of_ofName {name : Str} (hs : RecoveryStatus.ofName name = some status) :
    name = status.name := by
  have hfound := List.find?_some hs
  exact (of_decide_eq_true hfound).symm

theorem status_of_commit : (applyProjection rt draw row (o.append {})).status =
    o.nextStatus.getD row.status := rfl

namespace Committed

variable (hcommit : Committed rt draw lease o db db' row item status)
include hcommit

theorem rowId : row.operationId = lease.operationId := Table.key_of_get hcommit.before

theorem after : db'.operations.get lease.operationId =
    some (applyProjection rt draw row (o.append {})) :=
  Table.get_put_self hcommit.before hcommit.operations hcommit.rowId

theorem afterItem : db'.recovery.get lease.operationId =
    some (o.recoveryRow draw status item {}) := by
  have hkey : item.operationId = lease.operationId := Table.key_of_get hcommit.found
  exact Table.get_put_self hcommit.found hcommit.recovery hkey

/-- The locks after a commit that marks no lock of an unmarked operation. -/
theorem locks_rewrites (ht : Tame o) : db.locks.Rewrites (Remarked lease.operationId
    (isUnmarked (applyProjection rt draw row (o.append {})).status)) db'.locks := by
  refine Table.rewrites_putAll (Remarked.refl _ _) (fun lock' hlock' => ?_) hcommit.locks
  have hbound : ∀ lock ∈ o.boundLocks rt item row db.locks, lock ∈ db.locks ∧
      lock.isOpen = true ∧ lock.ownerId = lease.operationId := fun lock hlock =>
    ⟨(Observation.mem_boundLocks hlock).1, (Observation.mem_boundLocks hlock).2.1,
      (Observation.mem_boundLocks hlock).2.2.trans hcommit.rowId⟩
  unfold Observation.lockUpdates at hlock'
  split at hlock'
  · rename_i hrelease
    obtain ⟨lock, hlock, rfl⟩ := List.mem_map.mp hlock'
    obtain ⟨hmem, hopen, howner⟩ := hbound lock hlock
    refine ⟨lock, hmem, rfl, rfl, rfl, fun _ => hopen, fun hne => absurd howner hne, fun hu => ?_⟩
    obtain ⟨next, hnext, hfinished⟩ := ht.completes (ht.releases hrelease)
    rw [status_of_commit, hnext, Option.getD_some] at hu
    rw [isUnfinished_of_isUnmarked hu] at hfinished
    cases hfinished
  split at hlock'
  · rename_i hnext
    obtain ⟨lock, hlock, rfl⟩ := List.mem_map.mp hlock'
    obtain ⟨hmem, hopen, howner⟩ := hbound lock hlock
    refine ⟨lock, hmem, rfl, rfl, rfl, fun _ => hopen, fun hne => absurd howner hne, fun hu => ?_⟩
    rw [status_of_commit, hnext, Option.getD_some] at hu
    cases hu
  · cases hlock'

/-- A commit that does not release leaves open locks open. -/
theorem isOpen_of_not_release (hrelease : o.releaseTargetLock = false)
    {lock : OperationLockRecord} {key : Str} (hget : db.locks.get key = some lock)
    (hopen : lock.isOpen = true) : ∃ lock', db'.locks.get key = some lock' ∧
      lock'.isOpen = true := by
  have hkept : db.locks.Rewrites (fun r r' => r.isOpen = true → r'.isOpen = true) db'.locks := by
    refine Table.rewrites_putAll (fun _ h => h) (fun lock' hlock' => ?_) hcommit.locks
    unfold Observation.lockUpdates at hlock'
    rw [if_neg (by rw [hrelease]; exact Bool.false_ne_true)] at hlock'
    split at hlock'
    · obtain ⟨lock, hlock, rfl⟩ := List.mem_map.mp hlock'
      exact ⟨lock, (Observation.mem_boundLocks hlock).1, rfl, fun _ => rfl⟩
    · cases hlock'
  obtain ⟨lock', hget', hstays⟩ := hkept.exists_of_get hget
  exact ⟨lock', hget', hstays hopen⟩

/-- The rows of other operations. -/
theorem same_of_ne (ht : Tame o) (hne : id ≠ lease.operationId) : Same id db db' := by
  have hitemKey : item.operationId = lease.operationId := Table.key_of_get hcommit.found
  refine ⟨(Table.get_put hcommit.operations id).trans (if_neg fun heq => hne ?_),
    (Table.get_put hcommit.recovery id).trans (if_neg fun heq => hne ?_),
    fun key lock howner => ⟨fun hget => ?_, fun hget => ?_⟩⟩
  · exact heq.symm.trans hcommit.rowId
  · exact heq.symm.trans hitemKey
  · obtain ⟨old, hold, hkey, hre⟩ :=
      (hcommit.locks_rewrites ht).exists_of_mem (Table.mem_of_get hget)
    have hsame : lock = old := hre.other (hre.ownerId ▸ howner ▸ hne)
    subst hsame
    exact Table.get_eq_some.mpr ⟨hold, Table.key_of_get hget⟩
  · obtain ⟨lock', hget', hre⟩ := (hcommit.locks_rewrites ht).exists_of_get hget
    rw [hget', hre.other (howner ▸ hne)]

/-- A commit that binds the lock names an open lock, the one already named if there is one. -/
theorem binds_lock (hbind : o.bindTargetLock = true)
    (htype : row.operationType = .guidedQmVmUnlock) :
    ∃ lock, NamesLock rt row (o.effectiveDetails item) db.locks lock ∧ lock.isOpen = true ∧
      (Dict.text rt.repr item.details "target_lock_id" ≠ [] →
        Dict.text rt.repr item.details "target_lock_id" =
          Dict.text rt.repr (o.effectiveDetails item) "target_lock_id") ∧
      (Dict.text rt.repr item.details "cluster_id" ≠ [] →
        Dict.text rt.repr item.details "cluster_id" =
          Dict.text rt.repr (o.effectiveDetails item) "cluster_id") := by
  have hchecked := hcommit.checked
  simp only [Observation.checkLocks, hbind, if_true, bind_eq_ok] at hchecked
  obtain ⟨_, hassert, -⟩ := hchecked
  simp only [assertTargetLockBindingCheckpoint, bind_eq_ok, raiseIf_eq_ok, not_or] at hassert
  obtain ⟨-, ⟨-, -, hid, hcluster, hactive⟩, -⟩ := hassert
  rcases @boundLocks_guided rt o item row db.locks htype with
    hnil | ⟨lock, hlock, hnames, hopen⟩
  · rw [hnil] at hactive
    exact absurd rfl hactive
  · refine ⟨lock, hnames, hopen, fun hne => ?_, fun hne => ?_⟩
    · by_contra hdiff
      exact hid ⟨hne, hdiff⟩
    · by_contra hdiff
      exact hcluster ⟨hne, hdiff⟩

/-- A commit that releases finds exactly the lock that the recovery details name, and releases
it. -/
theorem releases_lock (hrelease : o.releaseTargetLock = true)
    (htype : row.operationType = .guidedQmVmUnlock) :
    ∃ lock, NamesLock rt row (o.effectiveDetails item) db.locks lock ∧ lock.isOpen = true ∧
      db'.locks.get lock.operationLockId = some (o.releasedLock draw lease lock) := by
  have hcount : expectedLockCount row.operationType = 1 := by rw [htype]; rfl
  have hlength : (o.boundLocks rt item row db.locks).length = 1 := by
    have hchecked := hcommit.checked
    cases hbind : o.bindTargetLock
    all_goals
      simp only [Observation.checkLocks, hbind, Bool.false_eq_true, if_false, if_true, bind_eq_ok,
        raiseIf_eq_ok, hrelease, hcount, true_and, not_not] at hchecked
      tauto
  rcases @boundLocks_guided rt o item row db.locks htype with
    hnil | ⟨lock, hlock, hnames, hopen⟩
  · rw [hnil] at hlength
    cases hlength
  · have hlocks := hcommit.locks
    rw [hlock, Observation.lockUpdates, if_pos hrelease] at hlocks
    exact ⟨lock, hnames, hopen, Table.get_put_self hnames.mem hlocks rfl⟩

end Committed

theorem get_committed_of_none {key : Str} (hkey : Dict.get o.detailsPatch key = none) :
    Dict.get (applyProjection rt draw row (o.append {})).details key =
      Dict.get row.details key := by
  rw [applyProjection_details]
  refine get_merge_of_none ?_
  rw [get_operationPatch, get_sanitized, get_sanitized, hkey, Option.map_none, Option.map_none]

/-- The recovery details after a commit. -/
theorem get_recoveryRow (key : Str) : Dict.get (o.recoveryRow draw status item {}).details key =
    Dict.get (Dict.merge item.details (sanitized o.recoveryDetailsPatch)) key := by
  have hnil : Dict.get [] key = none := rfl
  change Dict.get (Dict.merge item.details (Dict.merge
    (sanitized o.recoveryDetailsPatch) [])) key = _
  rw [Dict.get_merge, Dict.get_merge, Dict.get_merge, hnil, Option.none_or]

theorem get_recoveryRow_of_none {key : Str} (hkey : Dict.get o.recoveryDetailsPatch key = none) :
    Dict.get (o.recoveryRow draw status item {}).details key = Dict.get item.details key := by
  rw [get_recoveryRow]
  refine get_merge_of_none ?_
  rw [get_sanitized, hkey, Option.map_none]

theorem text_congr {repr : Value → Str} {d d' : Dict} {key : Str}
    (hget : Dict.get d key = Dict.get d' key) : Dict.text repr d key = Dict.text repr d' key := by
  unfold Dict.text
  rw [hget]

/-- The binding of the recovery item after a commit. -/
theorem binding_of_commit {c : PlanCommand} {observed : Observed}
    (hsound : Sound rt cluster c observed row db)
    (hallowed : CommitAllowed rt (historyOf i t) lease o)
    (hcommit : Committed rt draw lease o db db' row item status)
    (hitem : ItemSound rt c observed row db.locks item) :
    KeepsBinding rt item.details (o.recoveryRow draw status item {}).details ∧
      (Dict.get (o.recoveryRow draw status item {}).details "target_lock_id" = some (.str []) ∨
        ∃ lock, NamesLock rt row (o.recoveryRow draw status item {}).details db.locks lock ∧
          lock.isOpen = true ∧
          Dict.get (applyProjection rt draw row (o.append {})).details "target_operation_lock" ≠
            none) := by
  have hopenItem : item.status ≠ .completed := by
    rw [hcommit.leased]
    decide
  cases hbind : o.bindTargetLock with
  | false =>
      have hlacks := hallowed.tame.binds hbind
      have hlockId : Dict.get (o.recoveryRow draw status item {}).details "target_lock_id" =
          Dict.get item.details "target_lock_id" :=
        get_recoveryRow_of_none (hlacks "target_lock_id" (by decide))
      have hcluster : Dict.text rt.repr (o.recoveryRow draw status item {}).details "cluster_id" =
          Dict.text rt.repr item.details "cluster_id" :=
        text_congr (get_recoveryRow_of_none (hlacks "cluster_id" (by decide)))
      refine ⟨.inr ⟨hlockId, hcluster⟩, ?_⟩
      rcases hitem.binding with hnil | ⟨lock, hlock, hentry, hopen⟩
      · exact .inl (hlockId.trans hnil)
      · refine .inr ⟨lock, ⟨hlockId.trans hlock.id, hlock.mem, hlock.owner,
          hlock.cluster.trans hcluster.symm⟩, hopen hopenItem, ?_⟩
        rw [applyProjection_details]
        exact get_merge_ne_none hentry
  | true =>
      obtain ⟨lock, hlock, hopen, hsameId, hsameCluster⟩ :=
        hcommit.binds_lock hbind hsound.origin.operationType
      have heffective : ∀ key, Dict.get (o.recoveryRow draw status item {}).details key =
          Dict.get (o.effectiveDetails item) key := fun key => by
        rw [get_recoveryRow, Observation.effectiveDetails, hbind, if_pos rfl]
      have hshape := hsound.shaped lock (Table.mem_of_get hlock.mem) hlock.owner
      refine ⟨?_, .inr ⟨lock, ⟨(heffective _).trans hlock.id, hlock.mem, hlock.owner,
        hlock.cluster.trans (text_congr (heffective _)).symm⟩, hopen, ?_⟩⟩
      · rcases hitem.binding with hnil | ⟨old, hold, -⟩
        · exact .inl hnil
        · have holdShape := hsound.shaped old (Table.mem_of_get hold.mem) hold.owner
          have hcluster := hsameCluster (hold.cluster ▸ holdShape.clusterId_ne_nil)
          refine .inr ⟨?_, (text_congr (heffective _)).trans hcluster.symm⟩
          have holdText := @text_of_str rt.repr _ _ _ hold.id
          have htext := @text_of_str rt.repr _ _ _ hlock.id
          rw [holdShape.strip_lockId] at holdText
          rw [hshape.strip_lockId] at htext
          rw [heffective, hlock.id, hold.id, ← htext, ← holdText,
            hsameId (holdText ▸ holdShape.lockId_ne_nil)]
      · cases hallowed with
        | bound operation actor evidence hd ho =>
            subst ho
            rw [applyProjection_details, Dict.get_merge, get_operationPatch, get_sanitized,
              get_sanitized]
            intro hnone
            cases hnone
        | quiet hnext hrelease hplain hstatus =>
            rw [hplain.bind] at hbind
            cases hbind
        | blocked hnext hrelease hplain hstatus =>
            rw [hplain.bind] at hbind
            cases hbind
        | withoutLock | unissued | issued | expired | verifying | succeeded =>
            subst ‹o = _›
            cases hbind

/-- The instruction is issued only under a lease whose item names the lock. -/
theorem lease_bound_of_issued (hr : Recalls rt id db t) (hid : lease.operationId = id)
    (hitem : db.recovery.get id = some item) {evidence : Dict} {operation : OperationSnapshot}
    (hissues : Issues rt (historyOf i t) lease operation evidence) :
    Dict.get item.details "target_lock_id" ≠ some (.str []) := by
  obtain ⟨hprepared, past, new, _, _, ⟨_, _, _, _, _, -, hh, -⟩, -, hseen, -⟩ := hissues
  have hseen' : ItemSeen (historyOf i t) lease.item := hseen.mono (hh ▸ List.suffix_append _ past)
  obtain ⟨row, hrow, hkeeps⟩ := hr.item_of_mem hseen' hid
  rw [hitem] at hrow
  cases hrow
  have hne : Dict.get lease.item.details "target_lock_id" ≠ some (.str []) := by
    intro hnil
    simp only [UseCase.isPrepared, Bool.and_eq_true] at hprepared
    rw [rawText_of_str hnil] at hprepared
    exact absurd hprepared.1.1.1 (by decide)
  rcases hkeeps with hnil | ⟨hsame, -⟩
  · exact absurd hnil hne
  · rwa [hsame]

/-- A commit issues the instruction, or leaves the status, or moves it to one in which the lock
may be marked. -/
theorem CommitAllowed.nextStatus {h : Past} (hallowed : CommitAllowed rt h lease o) :
    o.nextStatus = none ∨ (∃ next, o.nextStatus = some next ∧ isUnmarked next = false) ∨
      o.nextStatus = some .awaitingOperator ∧
        ∃ operation evidence, Issues rt h lease operation evidence := by
  cases hallowed with
  | quiet hnext =>
      rcases hnext with hnext | hnext
      · exact .inl hnext
      · exact .inr (.inl ⟨_, hnext, rfl⟩)
  | blocked hnext => exact .inr (.inl ⟨_, hnext, rfl⟩)
  | withoutLock operation actor eventType reason observedLock hd ho =>
      subst ho
      exact .inr (.inl ⟨_, rfl, rfl⟩)
  | unissued operation actor next eventType payload finalization hd hnext ho =>
      subst ho
      exact .inr (.inl ⟨next, rfl, by rcases hnext with rfl | rfl <;> rfl⟩)
  | bound operation actor evidence hd ho =>
      subst ho
      exact .inl rfl
  | issued operation actor expiresAt observed bundle evidence delay hissues ho =>
      subst ho
      exact .inr (.inr ⟨rfl, operation, evidence, hissues⟩)
  | expired operation actor expiresAt observed hexpires ho =>
      subst ho
      exact .inr (.inl ⟨_, rfl, rfl⟩)
  | verifying operation actor hd hattested ho =>
      subst ho
      exact .inr (.inl ⟨_, rfl, rfl⟩)
  | succeeded operation actor observed verifiedAt hverifies ho =>
      subst ho
      exact .inr (.inl ⟨_, rfl, rfl⟩)

theorem coherent_committed (hc : Coherent rt cluster id db) (hr : Recalls rt id db t)
    (hid : lease.operationId = id) (hallowed : CommitAllowed rt (historyOf i t) lease o)
    (hcommit : Committed rt draw lease o db db' row item status) :
    Coherent rt cluster id db' ∧ Advances rt id db db' := by
  subst hid
  have ht := hallowed.tame
  have hkey := hcommit.rowId
  have hextends : Extends row (applyProjection rt draw row (o.append {})) :=
    extends_commit ht hcommit.expected
  obtain ⟨c, observed, hsound⟩ := hc.sound row hcommit.before
  have hitem := hsound.item item (hkey ▸ hcommit.found)
  obtain ⟨hkeeps, hbinding⟩ := binding_of_commit hsound hallowed hcommit hitem
  have hlocks := hcommit.locks_rewrites ht
  have hstays : isUnmarked (applyProjection rt draw row (o.append {})).status = true →
      ∀ key lock, db.locks.get key = some lock → db'.locks.get key = some lock := by
    intro hu key lock hget
    obtain ⟨lock', hget', hre⟩ := hlocks.exists_of_get hget
    rw [hget', hre.kept hu]
  refine ⟨⟨fun h => ?_, fun row' hrow' => ?_⟩, ?_⟩
  · rw [hcommit.after] at h
    cases h
  · rw [hcommit.after] at hrow'
    cases hrow'
    refine ⟨c, observed, hsound.origin.extends hextends, fun hs => ?_, fun hnone => ?_,
      fun item' hitem' => ?_, fun lock' hlock' howner => ?_, fun hu lock' hlock' howner => ?_,
      fun hs => ?_⟩
    · have hbundle : Dict.get o.detailsPatch "instruction_bundle" = none := by
        by_contra hne
        rw [status_of_commit, ht.exposes hne] at hs
        cases hs
      rw [get_committed_of_none hbundle]
      exact hsound.unexposed (hextends.planned hs)
    · have hsome := hcommit.afterItem
      rw [applyProjection_operationId, hkey, hsome] at hnone
      cases hnone
    · rw [applyProjection_operationId, hkey, hcommit.afterItem] at hitem'
      cases hitem'
      refine ⟨hitem.kind, fun key hmem => ?_, ?_, fun hcompleted => ?_, ?_, fun hs => ?_⟩
      · rw [get_recoveryRow_of_none (ht.names key hmem)]
        exact hitem.names key hmem
      · rw [get_recoveryRow_of_none ht.single]
        exact hitem.single
      · have hname : status = .completed := hcompleted
        subst hname
        obtain ⟨next, hnext, hfinished⟩ := ht.completes (status_of_ofName hcommit.named)
        rw [status_of_commit, hnext]
        exact hfinished
      · rcases hbinding with hnil | ⟨lock, hlock, hopen, hentry⟩
        · exact .inl hnil
        · obtain ⟨lock', hget', hre⟩ := hlocks.exists_of_get hlock.mem
          have hsameId : lock'.operationLockId = lock.operationLockId :=
            congrArg DurableTargetLock.lockId hre.unmarked
          have hsameCluster : lock'.clusterId = lock.clusterId :=
            congrArg DurableTargetLock.clusterId hre.unmarked
          refine .inr ⟨lock', ⟨hsameId ▸ hlock.id, hsameId ▸ hget', hre.ownerId.trans hlock.owner,
            hsameCluster.trans hlock.cluster⟩, hentry, fun hne => ?_⟩
          have hrelease : o.releaseTargetLock = false := by
            rw [Bool.eq_false_iff]
            intro hrelease
            have hnamed := hcommit.named
            rw [ht.releases hrelease, RecoveryStatus.ofName_name] at hnamed
            cases hnamed
            exact hne rfl
          obtain ⟨lock'', hget'', hopen''⟩ := hcommit.isOpen_of_not_release hrelease hlock.mem hopen
          rw [hget'] at hget''
          cases hget''
          exact hopen''
      · have hbefore : Dict.get item.details "target_lock_id" ≠ some (.str []) := by
          rcases hallowed.nextStatus with hnext | ⟨next, hnext, hmarked⟩ | ⟨-, _, _, hissues⟩
          · rw [status_of_commit, hnext] at hs
            exact hitem.bound hs
          · rw [status_of_commit, hnext] at hs
            rcases hs with hs | hs <;> (change next = _ at hs; rw [hs] at hmarked; cases hmarked)
          · exact lease_bound_of_issued hr rfl hcommit.found hissues
        rcases hkeeps with hnil | ⟨hsame, -⟩
        · exact absurd hnil hbefore
        · rwa [hsame]
    · obtain ⟨lock, hlock, -, hre⟩ := hlocks.exists_of_mem hlock'
      obtain ⟨hscope, hacquired⟩ := hsound.shaped lock hlock (hre.ownerId ▸ howner)
      exact ⟨hre.scopeType.trans hscope, by rw [hre.unmarked]; exact hacquired⟩
    · obtain ⟨lock, hlock, -, hre⟩ := hlocks.exists_of_mem hlock'
      have hsame := hre.kept hu
      subst hsame
      exact hsound.active (hextends.unmarked hu) lock' hlock howner
    · have hnext : o.nextStatus = none := by
        rcases hallowed.nextStatus with hnext | ⟨next, hnext, hmarked⟩ | ⟨hnext, -⟩
        · exact hnext
        · rw [status_of_commit, hnext] at hs
          change next = _ at hs
          rw [hs] at hmarked
          cases hmarked
        · rw [status_of_commit, hnext] at hs
          cases hs
      have hstatus : row.status = .awaitingVerification := by
        rw [status_of_commit, hnext] at hs
        exact hs
      obtain ⟨hattested, hlate, lock, hlock, howner, hopen, hrecorded, hcluster⟩ :=
        hsound.attested hstatus
      have hattestation : subDict (applyProjection rt draw row (o.append {})).details
          "operator_attestation" = subDict row.details "operator_attestation" := by
        unfold subDict
        rw [get_committed_of_none (ht.fixed _ (by decide))]
      have hlock' : recordedLock (applyProjection rt draw row (o.append {})) =
          recordedLock row := by
        unfold recordedLock subDict
        rw [hextends.recorded (by rw [hstatus]; decide)]
      refine ⟨hextends.attested hattested, ?_, lock, ?_, howner, hopen, hlock' ▸ hrecorded,
        hlock' ▸ hcluster⟩
      · unfold lateExecutionAttested executionAttested at hlate ⊢
        rw [hattestation]
        exact hlate
      · exact Table.mem_of_get (hstays (by rw [hs]; rfl) _ lock (Table.get_of_mem hlock))
  · refine ⟨fun row' hrow' => ?_, fun item' hitem' => ?_, fun row' hrow' hu key lock hget _ => ?_⟩
    · rw [hcommit.before] at hrow'
      cases hrow'
      exact ⟨_, hcommit.after, hextends⟩
    · rw [hcommit.found] at hitem'
      cases hitem'
      exact ⟨_, hcommit.afterItem, hkeeps⟩
    · rw [hcommit.after] at hrow'
      cases hrow'
      exact hstays hu key lock hget

end Committed

/-! ### Every step -/

/-- The identifier of a stored guided unlock has no white space around it. -/
theorem Coherent.strip_id (hc : Coherent rt cluster id db) {row : OperationRecord}
    (hrow : db.operations.get id = some row) : strip id = id := by
  obtain ⟨c, observed, hsound⟩ := hc.sound row hrow
  have hkey : row.operationId = id := Table.key_of_get hrow
  rw [← hkey, hsound.origin.operationId, strip_operationId]

theorem isGuided_strip (s : Str) : isGuided (strip s) = isGuided s := by
  rw [isGuided, strip_strip]
  rfl

/-- What one allowed command does to the rows of one guided unlock. -/
theorem coherent_step {i : ℕ} {c : Command} {r : Reply c} (hinv : Invariant rt cluster db t)
    (hallowed : Allowed rt (historyOf i t) c) (hexec : Exec rt cluster db c r db')
    (hid : isGuided id = true) : Coherent rt cluster id db' ∧ Advances rt id db db' := by
  obtain ⟨hc, hr⟩ := hinv id hid
  have hsame : Same id db db' → Coherent rt cluster id db' ∧ Advances rt id db db' :=
    fun hs => ⟨hc.same hs, hs.advances⟩
  have heffect := exec_effect hexec fun lease o heq => by
    subst heq
    exact hallowed.tame.projector
  cases heffect with
  | kept hops hrecovery hlocks =>
      exact hsame ⟨by rw [hops], by rw [hrecovery], fun _ _ _ => by rw [hlocks]⟩
  | created draw hops hrecovery hlocks =>
      obtain ⟨c, observed, expiresAt, rfl, hlock⟩ := hallowed
      by_cases heq : c.operationId rt = id
      · exact coherent_created hc hlock heq hops hrecovery hlocks
      · exact hsame ⟨(Table.get_insert hops id).trans (if_neg heq), by rw [hrecovery],
          fun _ _ _ => by rw [hlocks]⟩
  | appended draw row hrow hexpected htransition hops hrecovery hlocks =>
      rename_i target a
      by_cases heq : target = id
      · subst heq
        exact coherent_appended hc hr hallowed hrow hexpected htransition hops hrecovery hlocks
      · have hkey : row.operationId = target := Table.key_of_get hrow
        exact hsame ⟨(Table.get_put hops id).trans (if_neg fun h => heq (hkey.symm.trans h)),
          by rw [hrecovery], fun _ _ _ => by rw [hlocks]⟩
  | acquired draw vmid hlocator _hgranted hops hrecovery hlocks =>
      rename_i targetId ownerId
      obtain ⟨operation, hseen, hoperation, -, htarget, -⟩ := hallowed
      by_cases heq : strip ownerId = id
      · have hguided : isGuided ownerId = true := by rw [← isGuided_strip, heq, hid]
        obtain ⟨hc', hr'⟩ := hinv ownerId hguided
        obtain ⟨row, hrow, hextends⟩ := hr'.seen_of_mem hseen hoperation
        rw [hc'.strip_id hrow] at heq
        subst heq
        refine coherent_acquired hc hrow ?_ hops hrecovery hlocks
        rw [hextends.targetId, htarget, hlocator]
      · refine hsame ⟨by rw [hops], by rw [hrecovery], fun key lock howner => ⟨fun hget => ?_,
          get_of_insert hlocks⟩⟩
        rw [Table.get_insert hlocks] at hget
        split at hget
        · cases hget
          exact absurd howner heq
        · exact hget
  | claimed hops hlocks hrecovery => exact coherent_claimed hc hops hlocks hrecovery
  | prepared draw row hrow hfenced hops hlocks hrecovery =>
      rename_i spec owner time version checksum
      by_cases heq : spec.operationId = id
      · obtain ⟨operation, evidence, past, new, hseen, hh, hspec, hkind, hdetails, hversion, -,
          hevidence⟩ := hallowed
        subst heq
        rw [List.append_assoc] at hh
        obtain ⟨t₁, t₂, ht, rfl⟩ := historyOf_eq_append hh
        obtain ⟨hplanned, hentry⟩ := hr.absent t₁ i t₂ ht operation hseen hspec.symm
        have hseen' : Seen (historyOf i t) operation :=
          hseen.mono ⟨new ++ [⟨.getRecovery spec.operationId, .ok none⟩], by
            rw [hh, List.append_assoc]⟩
        obtain ⟨row', hrow', hextends⟩ := hr.seen_of_mem hseen' hspec.symm
        rw [hrow] at hrow'
        cases hrow'
        have hrowEq : operation = row := hextends.same (hversion.symm.trans hfenced.symm)
        subst hrowEq
        rw [hevidence hplanned] at hdetails
        exact coherent_prepared hc hrow hplanned hentry rfl hkind hdetails hops hlocks hrecovery
      · refine hsame ⟨by rw [hops], ?_, fun _ _ _ => by rw [hlocks]⟩
        rcases hrecovery with hinsert | ⟨item, hitem, -, hput⟩
        · exact (Table.get_insert hinsert id).trans (if_neg heq)
        · have hkey : item.operationId = spec.operationId := Table.key_of_get hitem
          exact (Table.get_put hput id).trans (if_neg fun h => heq (hkey.symm.trans h))
  | committed draw row item status hcommit =>
      rename_i lease o
      by_cases heq : lease.operationId = id
      · exact coherent_committed hc hr heq hallowed hcommit
      · exact hsame (hcommit.same_of_ne hallowed.tame fun h => heq h.symm)

/-- The invariant holds in every reachable state. -/
theorem invariant_of_reachable {s : State Command Reply Unit Db}
    (h : (system rt cluster).Reachable Initial s) : Invariant rt cluster s.world s.trace := by
  refine (contract rt).invariant (fun p hp => follows_contract hp) (fun db hinit id hid => ?_)
    (fun db t i c r db' hinv hallowed hexec id hid => ?_) (fun db t db' hinv henv id hid => ?_) h
  · refine ⟨⟨fun _ => ⟨hinit.recovery id hid, fun lock hlock howner => ?_⟩, fun row hrow => ?_⟩, ?_⟩
    · have hforeign := hinit.locks lock hlock
      rw [howner, hid] at hforeign
      cases hforeign
    · rw [hinit.operations id hid] at hrow
      cases hrow
    · exact ⟨by simp, by simp, by simp, by simp⟩
  · obtain ⟨hc', ha⟩ := coherent_step hinv hallowed hexec hid
    exact ⟨hc', ((hinv id hid).2.advance ha).event hc' hexec⟩
  · obtain ⟨hc, hr⟩ := hinv id hid
    have hs := henv.same hid
    exact ⟨hc.same hs, hr.advance hs.advances⟩

end Gjallar.GuidedSystem

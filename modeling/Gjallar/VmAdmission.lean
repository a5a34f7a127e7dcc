import Gjallar.RecoveryStore

/-!
# Admission of a VM mutation

`VmMutationAdmission.prepare`: the target locks, the operation and the first lease on its recovery
item in one transaction, and what a success of it guarantees.
-/
namespace Gjallar.VmAdmission

open Gjallar.Text Gjallar.Data Gjallar.Tables Gjallar.Operation Gjallar.Admission
  Gjallar.OperationStore Gjallar.TargetLocks Gjallar.RecoveryStore Gjallar.Redaction

/-- The arguments of `prepare`. -/
structure AdmissionRequest where
  recoveryKind : Str
  spec : OperationSpec
  clusterId : Str
  vmid : ℤ
  relatedVmids : List ℤ := []

namespace AdmissionRequest

def operationId (q : AdmissionRequest) : Str := q.spec.operationId

/-- The VMID of the source in the details, for an operation with a related VM. -/
def sourceVmid (q : AdmissionRequest) : Value :=
  Dict.getD (subDict q.spec.details "source") "vmid" .null

/-- The checks of the related VMIDs. -/
def check (q : AdmissionRequest) : Except StoreError Unit := do
  let pair := expectedLockCount q.spec.operationType = 2
  raiseIf (q.relatedVmids ≠ [] ∧ (¬ pair ∨ q.relatedVmids.length ≠ 1 ∨
      q.relatedVmids.head? = some q.vmid ∨
      ∃ v ∈ q.relatedVmids.head?, q.sourceVmid.eqv (.int v) = false))
    (.valueError "Invalid related VM lock scope")
  raiseIf (pair ∧ q.relatedVmids.length ≠ 1)
    (.valueError "Multi-VM admission requires both source and destination locks")

/-- The VMIDs to lock, in the order in which they are locked. -/
def targets (q : AdmissionRequest) : List ℤ :=
  Registration.sortedSet (fun a b => decide (a ≤ b)) (q.vmid :: q.relatedVmids)

def acquisition (q : AdmissionRequest) (vmid : ℤ) : Acquisition :=
  ⟨q.spec.operationType, q.clusterId, vmid, q.spec.operationId,
    q.spec.operationType.name ++ ("_dispatch" : Str)⟩

end AdmissionRequest

/-- Lock the targets one after the other. -/
def acquireAll (rt : Runtime) (process : Process) (draws : ℕ → Draw) (q : AdmissionRequest) :
    ℕ → List ℤ → Db → Except StoreError (List DurableTargetLock × Db)
  | _, [], db => .ok ([], db)
  | i, vmid :: vmids, db => do
      let (lock, db) ← acquire rt process (draws i) (q.acquisition vmid) db
      let (locks, db) ← acquireAll rt process draws q (i + 1) vmids db
      return (lock :: locks, db)

/-- Release the locks one after the other. -/
def releaseAll (draw : Draw) (reason : Str) :
    List DurableTargetLock → Db → Except StoreError Db
  | [], db => .ok db
  | lock :: locks, db => do
      let (_, db) ← release draw lock reason db
      releaseAll draw reason locks db

def lockIdOf (acquired : List DurableTargetLock) (vmid : ℤ) : Except StoreError Str :=
  (orRaise (acquired.find? fun lock => lock.vmid = vmid) (.typeError "KeyError")).map
    DurableTargetLock.lockId

/-- One entry of `related_target_locks`. -/
def relatedEntry (acquired : List DurableTargetLock) (vmid : ℤ) : Except StoreError Value := do
  let id ← lockIdOf acquired vmid
  return .dict [("lock_id", .str id), ("vmid", .int vmid)]

/-- The binding of the operation and its recovery item to the locks. -/
def binding (q : AdmissionRequest) (acquired : List DurableTargetLock) :
    Except StoreError Dict := do
  let id ← lockIdOf acquired q.vmid
  let node ← orRaise (Dict.get (subDict q.spec.details "target") "node_id")
    (.typeError "KeyError")
  let entries ← (q.relatedVmids.mergeSort fun a b => decide (a ≤ b)).mapM (relatedEntry acquired)
  let related : Dict := if entries = [] then [] else [("related_target_locks", .list entries)]
  let primary : Dict := [("target_lock_id", .str id), ("cluster_id", .str q.clusterId),
    ("node_id", node), ("vmid", .int q.vmid), ("operation_type", .str q.spec.operationType.name),
    ("execution_mode", .str q.spec.executionMode.name)]
  return primary ++ related

/-- The answer to a request whose operation is already stored. -/
def replay (q : AdmissionRequest) (existing : OperationRecord) :
    Except StoreError OperationSnapshot := do
  raiseIf (existing.intentDigest ≠ q.spec.intentDigest) (.operationIntentConflict q.operationId)
  return existing

/-- The constructor of `RecoverySpec`. -/
def recoverySpec (q : AdmissionRequest) (details : Dict) : Except StoreError RecoverySpec :=
  if named : (strip q.operationId).isEmpty = false then
    if supported : q.recoveryKind ∈ recoveryKinds then
      .ok ⟨q.operationId, q.recoveryKind, details, named, supported⟩
    else .error (.valueError (("Unsupported recovery kind: " : Str) ++ q.recoveryKind))
  else .error (.valueError "Recovery operation_id is required")

/-- `prepare`. The first lookup is an argument: another transaction can commit between it and the
acquisition of the locks, which take the connection lock. -/
def prepare (rt : Runtime) (process : Process) (draws : ℕ → Draw) (q : AdmissionRequest)
    (first : Option OperationRecord) (db : Db) :
    Except StoreError ((OperationSnapshot × Option RecoveryLease) × Db) := do
  q.check
  match first with
  | some existing => return ((← replay q existing, none), db)
  | none =>
      let (acquired, locked) ← acquireAll rt process draws q 0 q.targets db
      match locked.operations.get q.operationId with
      | some existing =>
          let operation ← replay q existing
          let reason := q.spec.operationType.name ++ ("_completed_replay" : Str)
          let released ← releaseAll (draws 2) reason acquired locked
          return ((operation, none), released)
      | none =>
          let bound ← binding q acquired
          let ((operation, _), created) ← create rt (draws 2)
            { q.spec with details := Dict.merge q.spec.details bound } locked
          let recovery ← recoverySpec q bound
          let owner := q.spec.operationType.name ++ (":" : Str) ++ ((draws 3).uuid 1).digits
          let (lease, db) ← prepareAndClaim (draws 3) recovery owner (Instant.seconds 60) none none
            created
          return ((operation, some lease), db)

/-! ### Acquired locks -/

/-- The rows of the first table are all still in the second. -/
def LocksKept (t t' : LockTable) : Prop := ∀ id r, t.get id = some r → t'.get id = some r

/-- A lock of an operation that was not there before and is held now. -/
structure Acquired (owner : Str) (before after : LockTable) (lock : DurableTargetLock) : Prop where
  fresh : before.get lock.lockId = none
  held : ∃ r, after.get lock.lockId = some r ∧ r.isOpen = true ∧ r.ownerId = owner
  named : ∃ hex : Hex, lock.lockId = ("operation-lock-" : Str) ++ hex.digits

theorem acquire_spec {rt : Runtime} {process : Process} {draw : Draw} {a : Acquisition}
    {db db' : Db} {lock : DurableTargetLock}
    (h : acquire rt process draw a db = .ok (lock, db')) :
    ∃ locks, db' = { db with locks := locks } ∧ LocksKept db.locks locks ∧
      Acquired (strip a.ownerId) db.locks locks lock := by
  simp only [acquire, bind_eq_ok, pure_eq_ok, Prod.mk.injEq] at h
  obtain ⟨_, -, _, -, _, -, ⟨held, locks⟩, hins, rfl, rfl⟩ := h
  unfold Acquisition.insert at hins
  split at hins
  · rename_i hrow
    cases hins
    refine ⟨locks, rfl, fun id r hr => ?_, Table.get_insert_key hrow, ?_, (draw.uuid 0), rfl⟩
    · rw [Table.get_insert hrow, if_neg, hr]
      rintro rfl
      rw [Table.get_insert_key hrow] at hr
      cases hr
    · exact ⟨a.row draw, (Table.get_insert hrow _).trans (if_pos rfl), rfl, rfl⟩
  · cases hins

theorem acquireAll_spec {rt : Runtime} {process : Process} {draws : ℕ → Draw}
    {q : AdmissionRequest} {i : ℕ} {vmids : List ℤ} {db db' : Db}
    {acquired : List DurableTargetLock}
    (h : acquireAll rt process draws q i vmids db = .ok (acquired, db')) :
    ∃ locks, db' = { db with locks := locks } ∧ LocksKept db.locks locks ∧
      ∀ lock ∈ acquired, Acquired (strip q.operationId) db.locks locks lock := by
  induction vmids generalizing i db acquired with
  | nil =>
      simp only [acquireAll, Except.ok.injEq, Prod.mk.injEq] at h
      obtain ⟨rfl, rfl⟩ := h
      exact ⟨db.locks, rfl, fun _ _ hr => hr, by simp⟩
  | cons vmid vmids ih =>
      simp only [acquireAll, bind_eq_ok, pure_eq_ok, Prod.mk.injEq] at h
      obtain ⟨⟨lock, mid⟩, hlock, ⟨rest, _⟩, hrest, rfl, rfl⟩ := h
      obtain ⟨t, rfl, hkept, hacq⟩ := acquire_spec hlock
      obtain ⟨t', rfl, hkept', hacq'⟩ := ih hrest
      refine ⟨t', rfl, fun id r hr => hkept' id r (hkept id r hr), fun l hl => ?_⟩
      rcases List.mem_cons.mp hl with rfl | hl
      · obtain ⟨r, hr, hopen, howner⟩ := hacq.held
        exact ⟨hacq.fresh, ⟨r, hkept' _ r hr, hopen, howner⟩, hacq.named⟩
      · have hl' := hacq' l hl
        refine ⟨?_, hl'.held, hl'.named⟩
        cases hget : db.locks.get l.lockId with
        | none => rfl
        | some r =>
            have := hkept _ r hget
            rw [hl'.fresh] at this
            cases this

/-- Releasing locks leaves every other lock row as it was. -/
theorem releaseAll_spec {draw : Draw} {reason : Str} {acquired : List DurableTargetLock}
    {db db' : Db} (h : releaseAll draw reason acquired db = .ok db') :
    ∃ locks, db' = { db with locks := locks } ∧
      ∀ id, (∀ lock ∈ acquired, lock.lockId ≠ id) → locks.get id = db.locks.get id := by
  induction acquired generalizing db with
  | nil =>
      simp only [releaseAll, Except.ok.injEq] at h
      exact ⟨db.locks, h.symm, fun _ _ => rfl⟩
  | cons lock acquired ih =>
      simp only [releaseAll, bind_eq_ok] at h
      obtain ⟨⟨b, mid⟩, hrel, hrest⟩ := h
      have hmid : ∃ t, mid = { db with locks := t } ∧
          ∀ id, lock.lockId ≠ id → t.get id = db.locks.get id := by
        unfold release at hrel
        cases hr : db.locks.get lock.lockId with
        | none =>
            simp only [hr, Except.ok.injEq, Prod.mk.injEq] at hrel
            exact ⟨db.locks, hrel.2.symm, fun _ _ => rfl⟩
        | some r =>
            simp only [hr] at hrel
            split at hrel
            · simp only [Except.ok.injEq, Prod.mk.injEq] at hrel
              exact ⟨db.locks, hrel.2.symm, fun _ _ => rfl⟩
            · simp only [bind_eq_ok, orRaise_eq_ok, pure_eq_ok, Prod.mk.injEq] at hrel
              obtain ⟨t, hput, -, rfl⟩ := hrel
              refine ⟨t, rfl, fun id hid => ?_⟩
              have hk : r.operationLockId = lock.lockId := Table.key_of_get hr
              exact (Table.get_put hput id).trans (if_neg (hk ▸ hid))
      obtain ⟨t, rfl, ht⟩ := hmid
      obtain ⟨t', rfl, ht'⟩ := ih hrest
      refine ⟨t', rfl, fun id hid => ?_⟩
      rw [List.forall_mem_cons] at hid
      rw [ht' id hid.2]
      exact ht id hid.1

/-! ### The identifiers of locks survive redaction -/

theorem isSpace_of_isLowerHex {c : Char} (h : isLowerHex c = true) : isSpace c = false := by
  have hn : 48 ≤ c.toNat ∧ c.toNat ≤ 102 := by
    simp only [isLowerHex, isAsciiDigit, Bool.or_eq_true, Bool.and_eq_true, decide_eq_true_eq,
      Char.le_def, UInt32.le_iff_toNat_le] at h
    rcases h with ⟨h1, h2⟩ | ⟨h1, h2⟩
    · omega
    · exact ⟨le_trans (by decide) h1, h2⟩
  simp only [isSpace, Bool.or_eq_false_iff, Bool.and_eq_false_iff, beq_eq_false_iff_ne,
    decide_eq_false_iff_not]
  omega

theorem lower_hex {s : Str} (h : ∀ c ∈ s, isLowerHex c = true) : lower s = s := by
  induction s with
  | nil => rfl
  | cons c s ih =>
      rw [List.forall_mem_cons] at h
      have hc : lowerChar c = [c] := by
        have hn : c.toNat < 65 ∨ (97 ≤ c.toNat ∧ c.toNat ≤ 102) := by
          have h1 := h.1
          simp only [isLowerHex, isAsciiDigit, Bool.or_eq_true, Bool.and_eq_true,
            decide_eq_true_eq, Char.le_def, UInt32.le_iff_toNat_le] at h1
          rcases h1 with ⟨h1, h2⟩ | ⟨h1, h2⟩
          · omega
          · exact .inr ⟨h1, h2⟩
        have hupper : ¬ ('A' ≤ c ∧ c ≤ 'Z') := by
          simp only [Char.le_def, UInt32.le_iff_toNat_le]
          change ¬ (65 ≤ c.toNat ∧ c.toNat ≤ 90)
          omega
        rw [lowerChar, if_neg hupper, if_neg (by omega), if_neg (by omega)]
      rw [lower, List.flatMap_cons, hc]
      exact congrArg (c :: ·) (ih h.2)

/-- A word that ends in a character outside the second text lies within the first. -/
theorem infix_of_last {w u v : Str} {c : Char} (hc : c ∉ v) (h : (w ++ [c]) <:+: u ++ v) :
    (w ++ [c]) <:+: u := by
  obtain ⟨a, b, hab⟩ := h
  rcases List.append_eq_append_iff.mp hab with ⟨d, hu, -⟩ | ⟨d, hu, hv⟩
  · exact ⟨a, d, hu.symm⟩
  · rcases List.eq_nil_or_concat d with rfl | ⟨d', x, rfl⟩
    · exact ⟨a, [], by simpa using hu⟩
    · have hx : x = c := by
        have := congrArg List.getLast? hu
        simpa using this.symm
      exact absurd (by simp [hv, hx]) hc

theorem not_infix_of_last {w u v : Str} {c : Char} (hv : ∀ d ∈ v, isLowerHex d = true)
    (hc : isLowerHex c = false) (hu : ¬ (w ++ [c]) <:+: u) : ¬ (w ++ [c]) <:+: u ++ v := by
  refine fun h => hu (infix_of_last (fun hm => ?_) h)
  rw [hv c hm] at hc
  cases hc

/-- Redaction keeps a plain text followed by hexadecimal digits, when no marker begins in it. -/
theorem redactString_append_hex {u v : Str} (hu : ∀ c ∈ u, isSpace c = false ∧ c ≠ '/')
    (hlower : lower u = u) (hv : ∀ c ∈ v, isLowerHex c = true)
    (hstems : ∀ w ∈ (["secret", "token", "passw", "private_key", "credential", "database_url",
      "connection_string"] : List Str), ¬ w <:+: u) : redactString (u ++ v) = u ++ v := by
  have hplain : ∀ c ∈ u ++ v, isSpace c = false ∧ c ≠ '/' := by
    intro c hc
    rcases List.mem_append.mp hc with hc | hc
    · exact hu c hc
    · refine ⟨isSpace_of_isLowerHex (hv c hc), ?_⟩
      rintro rfl
      exact absurd (hv _ hc) (by decide)
  rw [redactString_of_plain (fun c hc => (hplain c hc).1) (fun hc => (hplain _ hc).2 rfl)]
  have hkept : lower (u ++ v) = u ++ v := by
    rw [lower, List.flatMap_append]
    exact congrArg₂ (· ++ ·) hlower (lower_hex hv)
  have hmarker : hasMarker (u ++ v) = false := by
    have hno : ∀ w c, isLowerHex c = false → ¬ (w ++ [c]) <:+: u → ¬ (w ++ [c]) <:+: u ++ v :=
      fun w c hc hw => not_infix_of_last hv hc hw
    simp only [List.forall_mem_cons, List.not_mem_nil, false_imp_iff, implies_true] at hstems
    obtain ⟨h1, h2, h3, h4, h5, h6, h7, -⟩ := hstems
    have hpass : ∀ w : Str, ¬ (("passw" : Str) ++ w) <:+: u ++ v := fun w h =>
      hno "pass" 'w' (by decide) h3 ((List.prefix_append ("passw" : Str) w).isInfix.trans h)
    simp only [hasMarker, hkept, secretKeyMarkers, List.any_cons, List.any_nil, Bool.or_false,
      Bool.or_eq_false_iff, contains, decide_eq_false_iff_not]
    exact ⟨hno "secre" 't' (by decide) h1, hno "toke" 'n' (by decide) h2, hpass "ord", hpass "d",
      hno "private_ke" 'y' (by decide) h4, hno "credentia" 'l' (by decide) h5,
      hno "database_ur" 'l' (by decide) h6, hno "connection_strin" 'g' (by decide) h7⟩
  rw [hmarker, if_neg Bool.false_ne_true]

theorem redactString_lockId (hex : Hex) :
    redactString (("operation-lock-" : Str) ++ hex.digits) =
      ("operation-lock-" : Str) ++ hex.digits :=
  redactString_append_hex (forall_mem_of_all rfl) (by decide) hex.isHex (by decide)

/-! ### What a success of `prepare` guarantees -/

/-- The ids of the locks that details bind an operation to. -/
def boundLockIds (details : Dict) : List Str :=
  ((Dict.get details "target_lock_id").bind Value.asStr).toList ++
    match Dict.get details "related_target_locks" with
    | some (.list rows) =>
        rows.filterMap fun row => (row.asDict.bind fun d => Dict.get d "lock_id").bind Value.asStr
    | _ => []

/-- An entry of `related_target_locks` that names an acquired lock. -/
def IsEntry (acquired : List DurableTargetLock) (entry : Value) : Prop :=
  ∃ lock ∈ acquired, ∃ vmid, entry = .dict [("lock_id", .str lock.lockId), ("vmid", .int vmid)]

/-- A binding to acquired locks, with no other entry that an operation's progress depends on. -/
structure Binds (acquired : List DurableTargetLock) (bound : Dict) : Prop where
  primary : ∃ lock ∈ acquired, Dict.get bound "target_lock_id" = some (.str lock.lockId)
  related : Dict.get bound "related_target_locks" = none ∨ ∃ entries,
    Dict.get bound "related_target_locks" = some (.list entries) ∧
      ∀ entry ∈ entries, IsEntry acquired entry
  dispatched : Dict.get bound "mutation_dispatched" = none
  acknowledged : Dict.get bound "dispatch_acknowledged" = none
  upid : Dict.get bound "proxmox_upid" = none

theorem lockIdOf_eq_ok {acquired : List DurableTargetLock} {vmid : ℤ} {id : Str}
    (h : lockIdOf acquired vmid = .ok id) :
    ∃ lock ∈ acquired, lock.vmid = vmid ∧ lock.lockId = id := by
  unfold lockIdOf at h
  cases hf : acquired.find? fun lock => lock.vmid = vmid with
  | none =>
      rw [hf] at h
      cases h
  | some lock =>
      rw [hf] at h
      cases h
      exact ⟨lock, List.mem_of_find?_eq_some hf, by simpa using List.find?_some hf, rfl⟩

theorem isEntry_of_mem_mapM {acquired : List DurableTargetLock} {vmids : List ℤ}
    {entries : List Value} (h : vmids.mapM (relatedEntry acquired) = .ok entries) :
    ∀ entry ∈ entries, IsEntry acquired entry := by
  induction vmids generalizing entries with
  | nil =>
      rw [List.mapM_nil, pure_eq_ok] at h
      simp [← h]
  | cons vmid vmids ih =>
      rw [List.mapM_cons, bind_eq_ok] at h
      obtain ⟨entry, hentry, h⟩ := h
      obtain ⟨rest, hrest, h⟩ := bind_eq_ok.mp h
      rw [pure_eq_ok] at h
      rw [← h, List.forall_mem_cons]
      refine ⟨?_, ih hrest⟩
      obtain ⟨id, hid, hentry⟩ := bind_eq_ok.mp hentry
      obtain ⟨lock, hlock, -, rfl⟩ := lockIdOf_eq_ok hid
      exact ⟨lock, hlock, vmid, (pure_eq_ok.mp hentry).symm⟩

theorem binding_spec {q : AdmissionRequest} {acquired : List DurableTargetLock} {bound : Dict}
    (h : binding q acquired = .ok bound) : Binds acquired bound := by
  simp only [binding, bind_eq_ok, orRaise_eq_ok, pure_eq_ok] at h
  obtain ⟨id, hid, node, -, entries, hentries, rfl⟩ := h
  obtain ⟨lock, hlock, -, rfl⟩ := lockIdOf_eq_ok hid
  by_cases he : entries = []
  · rw [if_pos he, List.append_nil]
    exact ⟨⟨lock, hlock, rfl⟩, .inl rfl, rfl, rfl, rfl⟩
  · rw [if_neg he]
    exact ⟨⟨lock, hlock, rfl⟩, .inr ⟨entries, rfl, isEntry_of_mem_mapM hentries⟩, rfl, rfl, rfl⟩

theorem redactList_entries {acquired : List DurableTargetLock} {entries : List Value}
    (hentries : ∀ entry ∈ entries, IsEntry acquired entry)
    (hnamed : ∀ lock ∈ acquired, redactString lock.lockId = lock.lockId) :
    redactList entries = entries := by
  induction entries with
  | nil => simp [redactList]
  | cons entry entries ih =>
      rw [List.forall_mem_cons] at hentries
      obtain ⟨⟨lock, hlock, vmid, rfl⟩, hrest⟩ := hentries
      have hid : isSecretKey "lock_id" = false := by decide
      have hvmid : isSecretKey "vmid" = false := by decide
      simp only [redactList, redactSecrets, redactDict, hid, hvmid, Bool.false_eq_true, if_false,
        hnamed lock hlock, ih hrest]

/-- The stored details of a new operation bind it to acquired locks only. -/
theorem mem_acquired_of_mem_boundLockIds {acquired : List DurableTargetLock} {details bound : Dict}
    (hbinds : Binds acquired bound)
    (hnamed : ∀ lock ∈ acquired, redactString lock.lockId = lock.lockId)
    (hdetails : Dict.get details "related_target_locks" = none) {id : Str}
    (h : id ∈ boundLockIds (sanitized (Dict.merge details bound))) :
    ∃ lock ∈ acquired, lock.lockId = id := by
  have hprimary : isSecretKey "target_lock_id" = false := by decide
  have hrelated : isSecretKey "related_target_locks" = false := by decide
  rcases List.mem_append.mp h with h | h
  · obtain ⟨lock, hlock, hget⟩ := hbinds.primary
    simp only [get_sanitized, Dict.get_merge, hget, hprimary, Option.some_or, Option.map_some,
      Bool.false_eq_true, if_false, redactSecrets_str, hnamed lock hlock, Option.bind_some,
      Value.asStr, Option.toList_some, List.mem_singleton] at h
    exact ⟨lock, hlock, h.symm⟩
  · rcases hbinds.related with hget | ⟨entries, hget, hentries⟩
    · simp only [get_sanitized, Dict.get_merge, hget, hdetails, Option.none_or, Option.map_none,
        List.not_mem_nil] at h
    · simp only [get_sanitized, Dict.get_merge, hget, hrelated, Option.some_or, Option.map_some,
        Bool.false_eq_true, if_false, redactSecrets, redactList_entries hentries hnamed,
        List.mem_filterMap] at h
      obtain ⟨entry, hentry, hid⟩ := h
      obtain ⟨lock, hlock, vmid, rfl⟩ := hentries entry hentry
      refine ⟨lock, hlock, ?_⟩
      simpa [Value.asDict, Value.asStr, -String.reduceToList] using hid

theorem replay_eq_ok {q : AdmissionRequest} {existing operation : OperationRecord} :
    replay q existing = .ok operation ↔
      existing.intentDigest = q.spec.intentDigest ∧ operation = existing := by
  simp only [replay, bind_eq_ok, raiseIf_eq_ok, pure_eq_ok, not_not]
  constructor
  · rintro ⟨-, h, rfl⟩
    exact ⟨h, rfl⟩
  · rintro ⟨h, rfl⟩
    exact ⟨(), h, rfl⟩

/-- An admission that finds its operation stored with another intent is refused. -/
theorem prepare_of_conflict {rt : Runtime} {process : Process} {draws : ℕ → Draw}
    {q : AdmissionRequest} {existing : OperationRecord} (db : Db) (hcheck : q.check = .ok ())
    (hintent : existing.intentDigest ≠ q.spec.intentDigest) :
    prepare rt process draws q (some existing) db =
      .error (.operationIntentConflict q.operationId) := by
  simp only [prepare, hcheck, replay, raiseIf, hintent, ne_eq, not_false_eq_true, if_true]
  rfl

/-- A creation that succeeds found the operation or inserted it. -/
theorem create_eq_ok {rt : Runtime} {draw : Draw} {spec : OperationSpec} {db db' : Db}
    {operation : OperationSnapshot} {created : Bool}
    (h : create rt draw spec db = .ok ((operation, created), db')) :
    db' = db ∨ ∃ operations events, operation = newOperation rt draw spec ∧
      db.operations.insert operation = some operations ∧
      db' = { db with operations := operations, events := events } := by
  unfold create at h
  split at h
  · simp only [bind_eq_ok, pure_eq_ok, Prod.mk.injEq] at h
    obtain ⟨_, -, -, rfl⟩ := h
    exact .inl rfl
  · dsimp only at h
    split at h
    · rename_i operations events hins _
      simp only [Except.ok.injEq, Prod.mk.injEq] at h
      obtain ⟨⟨rfl, -⟩, rfl⟩ := h
      exact .inr ⟨operations, events, rfl, hins, rfl⟩
    · split at h
      · simp only [bind_eq_ok, pure_eq_ok, Prod.mk.injEq] at h
        obtain ⟨_, -, -, rfl⟩ := h
        exact .inl rfl
      · cases h

/-- A first claim needs the operation, touches only the recovery item, and is on its own item. -/
theorem prepareAndClaim_operation {draw : Draw} {spec : RecoverySpec} {owner : Str}
    {time : Instant} {db db' : Db} {lease : RecoveryLease}
    (h : prepareAndClaim draw spec owner time none none db = .ok (lease, db')) :
    (db.operations.get spec.operationId).isSome = true ∧ lease.operationId = spec.operationId ∧
      ∃ recovery, db' = { db with recovery := recovery } := by
  simp only [prepareAndClaim, bind_eq_ok, raiseIf_eq_ok] at h
  obtain ⟨_, -, _, hidentity, h⟩ := h
  have hsome : (db.operations.get spec.operationId).isSome = true := by
    unfold assertOperationIdentity at hidentity
    split at hidentity
    · cases hidentity
    · rename_i operation hget
      rw [hget]
      rfl
  refine ⟨hsome, ?_⟩
  cases hrow : db.recovery.get spec.operationId with
  | none =>
      simp only [hrow, bind_eq_ok, orRaise_eq_ok, pure_eq_ok, Prod.mk.injEq] at h
      obtain ⟨recovery, -, rfl, rfl⟩ := h
      exact ⟨rfl, recovery, rfl⟩
  | some row =>
      simp only [hrow, bind_eq_ok, raiseIf_eq_ok, orRaise_eq_ok, pure_eq_ok, Prod.mk.injEq] at h
      obtain ⟨_, -, _, -, _, -, recovery, -, rfl, rfl⟩ := h
      have hid : row.operationId = spec.operationId := Table.key_of_get hrow
      exact ⟨hid, recovery, rfl⟩

/-- What `prepare` returns and stores when it creates the operation. -/
structure Creates (rt : Runtime) (draws : ℕ → Draw) (q : AdmissionRequest) (db db' : Db)
    (operation : OperationSnapshot) (lease : RecoveryLease) : Prop where
  absent : db.operations.get q.operationId = none
  leased : lease.operationId = q.operationId
  stored : ∃ acquired bound, Binds acquired bound ∧
    (∀ lock ∈ acquired, Acquired (strip q.operationId) db.locks db'.locks lock) ∧
    operation =
      newOperation rt (draws 2) { q.spec with details := Dict.merge q.spec.details bound }

theorem prepare_spec {rt : Runtime} {process : Process} {draws : ℕ → Draw} {q : AdmissionRequest}
    {first : Option OperationRecord} {db db' : Db} {operation : OperationSnapshot}
    {lease : Option RecoveryLease}
    (hfirst : first = db.operations.get q.operationId ∨ first = none)
    (h : prepare rt process draws q first db = .ok ((operation, lease), db')) :
    LocksKept db.locks db'.locks ∧ operation.operationId = q.operationId ∧
      operation.intentDigest = q.spec.intentDigest ∧
      db'.operations.get q.operationId = some operation ∧
      (∀ id, id ≠ q.operationId → db'.operations.get id = db.operations.get id) ∧
      (lease = none → db'.operations = db.operations) ∧
      ∀ l ∈ lease, Creates rt draws q db db' operation l := by
  simp only [prepare, bind_eq_ok] at h
  obtain ⟨_, -, h⟩ := h
  cases first with
  | some existing =>
      simp only [bind_eq_ok, pure_eq_ok, Prod.mk.injEq] at h
      obtain ⟨_, hreplay, ⟨rfl, rfl⟩, rfl⟩ := h
      obtain ⟨hdigest, heq⟩ := replay_eq_ok.mp hreplay
      rw [heq]
      have hget : db.operations.get q.operationId = some existing :=
        (hfirst.resolve_right (by simp)).symm
      exact ⟨fun _ _ hr => hr, Table.key_of_get hget, hdigest, hget, fun _ _ => rfl,
        fun _ => rfl, by simp⟩
  | none =>
      simp only [bind_eq_ok] at h
      obtain ⟨⟨acquired, locked⟩, hacquire, h⟩ := h
      obtain ⟨locks, rfl, hkept, hacquired⟩ := acquireAll_spec hacquire
      cases hget : db.operations.get q.operationId with
      | some existing =>
          simp only [hget, bind_eq_ok, pure_eq_ok, Prod.mk.injEq] at h
          obtain ⟨_, hreplay, released, hrelease, ⟨rfl, rfl⟩, rfl⟩ := h
          obtain ⟨hdigest, rfl⟩ := replay_eq_ok.mp hreplay
          obtain ⟨t, rfl, ht⟩ := releaseAll_spec hrelease
          refine ⟨fun id r hr => ?_, Table.key_of_get hget, hdigest, hget, fun _ _ => rfl,
            fun _ => rfl, by simp⟩
          rw [ht id, hkept id r hr]
          rintro lock hlock rfl
          rw [(hacquired lock hlock).fresh] at hr
          cases hr
      | none =>
          simp only [hget, bind_eq_ok, pure_eq_ok, Prod.mk.injEq] at h
          obtain ⟨bound, hbound, ⟨⟨created, isNew⟩, mid⟩, hcreate, recovery, hspec, ⟨l, last⟩,
            hclaim, ⟨rfl, rfl⟩, rfl⟩ := h
          have hid : recovery.operationId = q.operationId := by
            unfold recoverySpec at hspec
            split at hspec
            · split at hspec
              · cases hspec
                rfl
              · cases hspec
            · cases hspec
          obtain ⟨hsome, hleased, recoveryTable, rfl⟩ := prepareAndClaim_operation hclaim
          rw [hid] at hsome hleased
          rcases create_eq_ok hcreate with rfl | ⟨operations, events, rfl, hins, rfl⟩
          · rw [hget] at hsome
            cases hsome
          · have hins' := fun id => Table.get_insert hins id
            refine ⟨hkept, rfl, rfl, (hins' _).trans (if_pos rfl), fun id hne => ?_, by simp, ?_⟩
            · exact (hins' id).trans (if_neg fun heq => hne heq.symm)
            · rintro l' ⟨⟩
              exact ⟨hget, hleased, acquired, bound, binding_spec hbound, hacquired, rfl⟩

/-- The locks that a created operation is bound to are open and owned by it. -/
theorem Creates.locks_held {rt : Runtime} {draws : ℕ → Draw} {q : AdmissionRequest} {db db' : Db}
    {operation : OperationSnapshot} {lease : RecoveryLease}
    (h : Creates rt draws q db db' operation lease)
    (hdetails : Dict.get q.spec.details "related_target_locks" = none) :
    ∀ id ∈ boundLockIds operation.details, ∃ r, db'.locks.get id = some r ∧ r.isOpen = true ∧
      r.ownerId = strip q.operationId := by
  intro id hmem
  obtain ⟨acquired, bound, hbinds, hacquired, rfl⟩ := h.stored
  have hnamed : ∀ lock ∈ acquired, redactString lock.lockId = lock.lockId := by
    intro lock hlock
    obtain ⟨hex, hlockId⟩ := (hacquired lock hlock).named
    rw [hlockId, redactString_lockId hex]
  obtain ⟨lock, hlock, rfl⟩ := mem_acquired_of_mem_boundLockIds hbinds hnamed hdetails hmem
  exact (hacquired lock hlock).held

end Gjallar.VmAdmission

import Gjallar.CoordinationRows

/-!
# What every transaction of the coordination calls keeps to

Updates are of rows that the transaction has locked and move them along their order, an item is
created under the lock of its operation, and whatever is committed is an append to the ledger, the
creation of an operation, or leaves the ledger alone.
-/
namespace Gjallar.Coordination

open Gjallar.Text Gjallar.Data Gjallar.Tables Gjallar.Operation Gjallar.Admission
  Gjallar.OperationStore Gjallar.OperationLedger Gjallar.TargetLocks Gjallar.RecoveryStore
  Gjallar.ReadCommitted Gjallar.Sessions Gjallar.Processes Gjallar.Processes.Fallible

abbrev Log := Past Row Key (Outer Request) Outer.Answer Fault

abbrev Entry := Happening Row Key (Outer Request) Outer.Answer Fault

/-! ### What a transaction does -/

/-- A locked call as a single transaction on the database. -/
def atomic (rt : Runtime) (drawn : Draw) : LockedCall → Db → Except StoreError (Response × Db)
  | .append operationId a, db => do
      let (row, db') ← OperationStore.appendInSession rt drawn operationId a db
      return (.operation row, db')
  | .targetLockConflict operationId lockId ownerId next a, db => do
      let (row, db') ← OperationLedger.transitionForTargetLockConflict rt drawn operationId lockId
        ownerId next a db
      return (.operation row, db')
  | .preDispatchFailure operationId lockId a, db => do
      let (b, db') ← OperationLedger.transitionPreDispatchFailure rt drawn operationId lockId a db
      return (.flag b, db')
  | .prepareAndClaim spec leaseOwner leaseTime version checksum, db => do
      let (lease, db') ← RecoveryStore.prepareAndClaim drawn spec leaseOwner leaseTime version
        checksum db
      return (.lease lease, db')
  | .claimOperation operationId leaseOwner leaseTime version checksum, db => do
      let (lease, db') ← RecoveryStore.claimOperation drawn operationId leaseOwner leaseTime version
        checksum db
      return (.lease lease, db')
  | .heartbeat lease leaseTime, db => do
      let (lease', db') ← RecoveryStore.heartbeat drawn lease leaseTime db
      return (.lease lease', db')
  | .commitObservation lease o, db => do
      let ((row, item), db') ← RecoveryStore.commitObservation rt drawn lease o db
      return (.observed row item, db')
  | .release lock reason, db => do
      let (b, db') ← TargetLocks.release drawn lock reason db
      return (.flag b, db')

/-- An answer of a call that changes nothing. -/
def LockedCall.Unchanged (rows : CoordinationRows) (resp : Response) : LockedCall → Prop
  | .targetLockConflict operationId .. =>
      ∃ r, resp = .operation r ∧ rows.get (.operation operationId) = some (.operation r)
  | .preDispatchFailure .. | .release .. => resp = .flag false
  | _ => False

/-- A commit of an observation has looked in vain for a lock that was added since. -/
def Overtaken (q : LockedCall) (t : ℕ) (h : Log) (rows : CoordinationRows) : Prop :=
  ∃ lease o e past id, q = .commitObservation lease o ∧ e :: past <:+ h ∧
    missed e = some (t, .lock id) ∧ (rows.get (.lock id)).isSome = true

/-- Committed now, the transaction does what the call does as a single transaction. -/
def TakesEffect (rt : Runtime) (q : LockedCall) (t : ℕ) (h : Log) (resp : Response) : Prop :=
  ∀ rows db, Represents rows db → Learned Later guard rows t h →
    Constrained schema (rows.putAll (writesOf t h)) →
    (writesOf t h = [] ∧ q.Unchanged rows resp) ∨ Overtaken q t h rows ∨
      ∃ drawn projected db', atomic rt drawn q { db with jobs := projected } = .ok (resp, db') ∧
        Represents (rows.putAll (writesOf t h)) db'

/-- Committed now, the transaction is a step of the ledger, or leaves it alone. -/
def Records (rt : Runtime) (t : ℕ) (h : Log) : Prop :=
  ∀ rows db, Represents rows db → Learned Later guard rows t h →
    Constrained schema (rows.putAll (writesOf t h)) →
    ∃ db', Represents (rows.putAll (writesOf t h)) db' ∧ OperationLedger.Run rt db db'

/-- The arguments that an entry has received. -/
def received : Entry → Option Request
  | ⟨.outside (.receive q), _⟩ => some q
  | _ => none

/-- The call that a process serves. -/
def requestOf (h : Log) : Option Request := h.getLast?.bind received

/-- What every statement of a call keeps to. -/
structure Proper (rt : Runtime) (h : Log) (c : Command Row Key (Outer Request)) : Prop where
  own : ∀ t ∈ c.txn, Began h t
  respects : Respects Row.key Later h c
  guards : Guards Row.key guard h c
  receives : ∀ q, c = .outside (.receive q) → h = []
  records : ∀ t, c = .commit t → Records rt t h
  effect : ∀ t, c = .commit t → ∀ q, requestOf h = some (.locked q) →
    ∃ resp, TakesEffect rt q t h resp

/-- What a locked call that has answered has done: its last statement was a commit. -/
def Answers (rt : Runtime) (q : LockedCall) (h : Log) (resp : Response) : Prop :=
  ∃ t past, h = ⟨.commit t, .ok ()⟩ :: past ∧ TakesEffect rt q t past resp

/-- What the committed rows are shown to be by what a transaction has read. -/
def Shows (t : ℕ) (h : Log) (P : CoordinationRows → Prop) : Prop :=
  ∀ rows, Learned Later guard rows t h → P rows

/-! ### Single statements -/

variable {rt : Runtime} {h : Log} {t : ℕ} {q : Request}

abbrev Keeps {β : Type} (rt : Runtime) (h : Log) (p : Prog Request β) (Q : Log → β → Prop) : Prop :=
  Obeys (Schema.possible Row.key (surroundings Request)) (Proper rt) h p Q

/-- A statement that neither writes, nor commits, nor receives anything. -/
def isPlain : Command Row Key (Outer Request) → Bool
  | .insert .. | .update .. | .commit _ | .outside (.receive _) => false
  | _ => true

theorem Proper.plain {c : Command Row Key (Outer Request)} (hown : ∀ t ∈ c.txn, Began h t)
    (hc : isPlain c = true) : Proper rt h c := by
  refine ⟨hown, ?_, ?_, ?_, ?_, ?_⟩
  · rintro t r rfl
    cases hc
  · rintro t r rfl
    cases hc
  · rintro q rfl
    cases hc
  · rintro t rfl
    cases hc
  · rintro t rfl
    cases hc

theorem no_txn {c : Command Row Key (Outer Request)} (hc : c.txn = none) :
    ∀ t ∈ c.txn, Began h t := by
  rw [hc]
  exact fun _ ht => absurd ht (Option.not_mem_none _)

/-- A check or a computation without the database, and what follows it. -/
theorem keeps_lift {β γ : Type} {x : Except StoreError β} {f : β → Prog Request γ}
    {Q : Log → γ → Prop} (hf : ∀ b, x = .ok b → Keeps rt h (f b) Q) :
    Keeps rt h (lift x >>= f) Q := by
  cases x with
  | error e => exact Obeys.throw _
  | ok b => exact hf b rfl

theorem keeps_lifted {β : Type} (x : Except StoreError β) :
    Keeps rt h (lift x) fun _ _ => True := by
  cases x with
  | error e => exact Obeys.throw _
  | ok b => exact Obeys.pure trivial

theorem keeps_raiseIf {bad : Prop} [Decidable bad] {e : StoreError} :
    Keeps rt h (lift (raiseIf bad e)) fun h' _ => h' = h ∧ ¬ bad := by
  by_cases hbad : bad
  · rw [raiseIf, if_pos hbad]
    exact Obeys.throw _
  · rw [raiseIf, if_neg hbad]
    exact Obeys.pure ⟨rfl, hbad⟩

theorem keeps_now : Keeps rt h now fun h' time => h' = ⟨.outside .now, .ok time⟩ :: h :=
  (Obeys.call (.plain (no_txn rfl) rfl)).mono fun _ _ _ hr => hr.1

theorem keeps_draw : Keeps rt h draw fun h' id => h' = ⟨.outside .draw, .ok id⟩ :: h :=
  (Obeys.call (.plain (no_txn rfl) rfl)).mono fun _ _ _ hr => hr.1

theorem keeps_connections :
    Keeps rt h connections fun h' x => h' = ⟨.outside .connections, .ok x⟩ :: h :=
  (Obeys.call (.plain (no_txn rfl) rfl)).mono fun _ _ _ hr => hr.1

theorem keeps_jobs : Keeps rt h jobs fun h' x => h' = ⟨.outside .jobs, .ok x⟩ :: h :=
  (Obeys.call (.plain (no_txn rfl) rfl)).mono fun _ _ _ hr => hr.1

theorem keeps_get (hb : Began h t) (k : Key) : Keeps rt h (Call.get t k) fun h' r =>
    h' = ⟨.get t k, .ok r⟩ :: h ∧ ∀ v ∈ r, v.key = k := by
  refine (Obeys.call (.plain (began_txn hb rfl) rfl)).mono fun h' r _ hr => ?_
  exact ⟨hr.1, fun v hv => hr.2.2 v (congrArg _ (Option.mem_def.mp hv))⟩

theorem keeps_lock (hb : Began h t) (k : Key) : Keeps rt h (Call.lock t k) fun h' r =>
    h' = ⟨.lock t k, .ok r⟩ :: h ∧ ∀ v ∈ r, v.key = k := by
  refine (Obeys.call (.plain (began_txn hb rfl) rfl)).mono fun h' r _ hr => ?_
  exact ⟨hr.1, fun v hv => hr.2.2 v (congrArg _ (Option.mem_def.mp hv))⟩

theorem keeps_tryLock (hb : Began h t) (k : Key) : Keeps rt h (Call.tryLock t k) fun h' r =>
    h' = ⟨.tryLock t k, .ok r⟩ :: h ∧ ∀ v ∈ r, v.key = k := by
  refine (Obeys.call (.plain (began_txn hb rfl) rfl)).mono fun h' r _ hr => ?_
  exact ⟨hr.1, fun v hv => hr.2.2 v (congrArg _ (Option.mem_def.mp hv))⟩

theorem keeps_select (hb : Began h t) (p : Row → Bool) : Keeps rt h (Call.select t p) fun h' rs =>
    h' = ⟨.select t p, .ok rs⟩ :: h ∧ (rs.map Row.key).Nodup ∧ ∀ v ∈ rs, p v = true := by
  refine (Obeys.call (.plain (began_txn hb rfl) rfl)).mono fun h' rs _ hr => ?_
  exact ⟨hr.1, hr.2.2 rs rfl⟩

theorem Proper.insert (hb : Began h t) {v : Row}
    (hguard : guard v.key ≠ v.key → (known Row.key t (guard v.key) h).isSome = true) :
    Proper rt h (.insert t v) := by
  refine ⟨began_txn hb rfl, fun _ _ hc => ?_, fun t' v' hc hne => ?_, fun _ hc => ?_,
    fun _ hc => ?_, fun _ hc => ?_⟩
  · cases hc
  · cases hc
    exact hguard hne
  · cases hc
  · cases hc
  · cases hc

/-- A new row that needs no guard, or whose guard is locked. -/
theorem keeps_add (hb : Began h t) {v : Row}
    (hguard : guard v.key ≠ v.key → (known Row.key t (guard v.key) h).isSome = true) :
    Keeps rt h (add t v) fun h' _ => h' = ⟨.insert t v, .ok true⟩ :: h := by
  refine (Obeys.call (.insert hb hguard)).bind fun h' b _ hr => ?_
  cases b with
  | true => exact Obeys.pure hr.1
  | false => exact Obeys.throw _

/-- A row that is known, and moves along its order. -/
theorem keeps_flush (hb : Began h t) {old v : Row} (hknown : known Row.key t v.key h = some old)
    (hlater : Later old v) :
    Keeps rt h (flush t v) fun h' _ => h' = ⟨.update t v, .ok true⟩ :: h := by
  have hproper : Proper rt h (.update t v) := by
    refine ⟨began_txn hb rfl, fun t' v' hc => ?_, fun _ _ hc => ?_, fun _ hc => ?_, fun _ hc => ?_,
      fun _ hc => ?_⟩
    · cases hc
      exact ⟨old, hknown, hlater⟩
    · cases hc
    · cases hc
    · cases hc
    · cases hc
  refine (Obeys.call hproper).bind fun h' b _ hr => ?_
  cases b with
  | true => exact Obeys.pure hr.1
  | false => exact Obeys.throw _

theorem keys_map {β : Type} {r : Option Row} {k : Key} (asRow : Row → Option β) (kind : β → Row)
    (hkind : ∀ v, v.key = k → ∃ row, v = kind row ∧ asRow v = some row)
    (hr : ∀ v ∈ r, v.key = k) :
    (r.bind asRow).map kind = r ∧ ∀ row ∈ r.bind asRow, (kind row).key = k := by
  cases r with
  | none => exact ⟨rfl, fun _ hrow => absurd hrow (Option.not_mem_none _)⟩
  | some v =>
      obtain ⟨row, rfl, hrow⟩ := hkind v (hr v rfl)
      rw [Option.bind_some, hrow]
      refine ⟨rfl, fun row' hrow' => ?_⟩
      cases hrow'
      exact hr _ rfl

/-- A row read under its key is of the kind that the key names. -/
theorem keeps_kind {β : Type} {read : Prog Request (Option Row)} {entry : Option Row → Entry}
    {k : Key} (asRow : Row → Option β) (kind : β → Row)
    (hkind : ∀ v, v.key = k → ∃ row, v = kind row ∧ asRow v = some row)
    (hread : Keeps rt h read fun h' r => h' = entry r :: h ∧ ∀ v ∈ r, v.key = k) :
    Keeps rt h (do return (← read).bind asRow) fun h' r =>
      h' = entry (r.map kind) :: h ∧ ∀ row ∈ r, (kind row).key = k := by
  refine hread.bind fun h' r _ hr => Obeys.pure ?_
  obtain ⟨hmap, hkey⟩ := keys_map asRow kind hkind hr.2
  rw [hmap]
  exact ⟨hr.1, hkey⟩

theorem operation_of_key {id : Str} (v : Row) (hv : v.key = .operation id) :
    ∃ row, v = .operation row ∧ v.asOperation = some row := by
  cases v with
  | operation row => exact ⟨row, rfl, rfl⟩
  | event | recovery | lock => cases hv

theorem recovery_of_key {id : Str} (v : Row) (hv : v.key = .recovery id) :
    ∃ row, v = .recovery row ∧ v.asRecovery = some row := by
  cases v with
  | recovery row => exact ⟨row, rfl, rfl⟩
  | event | operation | lock => cases hv

theorem lock_of_key {id : Str} (v : Row) (hv : v.key = .lock id) :
    ∃ row, v = .lock row ∧ v.asLock = some row := by
  cases v with
  | lock row => exact ⟨row, rfl, rfl⟩
  | event | operation | recovery => cases hv

theorem keeps_lockOperation (hb : Began h t) (id : Str) :
    Keeps rt h (lockOperation t id) fun h' r =>
      h' = ⟨.lock t (.operation id), .ok (r.map .operation)⟩ :: h ∧
        ∀ row ∈ r, row.operationId = id :=
  (keeps_kind Row.asOperation .operation operation_of_key (keeps_lock hb _)).mono
    fun _ _ _ hr => ⟨hr.1, fun row hrow => Key.operation.inj (hr.2 row hrow)⟩

theorem keeps_lockRecovery (hb : Began h t) (id : Str) :
    Keeps rt h (lockRecovery t id) fun h' r =>
      h' = ⟨.lock t (.recovery id), .ok (r.map .recovery)⟩ :: h ∧
        ∀ row ∈ r, row.operationId = id :=
  (keeps_kind Row.asRecovery .recovery recovery_of_key (keeps_lock hb _)).mono
    fun _ _ _ hr => ⟨hr.1, fun row hrow => Key.recovery.inj (hr.2 row hrow)⟩

theorem keeps_lockTargetLock (hb : Began h t) (id : Str) :
    Keeps rt h (lockTargetLock t id) fun h' r =>
      h' = ⟨.lock t (.lock id), .ok (r.map .lock)⟩ :: h ∧
        ∀ row ∈ r, row.operationLockId = id :=
  (keeps_kind Row.asLock .lock lock_of_key (keeps_lock hb _)).mono
    fun _ _ _ hr => ⟨hr.1, fun row hrow => Key.lock.inj (hr.2 row hrow)⟩

theorem keeps_getRecovery (hb : Began h t) (id : Str) :
    Keeps rt h (getRecovery t id) fun h' r =>
      h' = ⟨.get t (.recovery id), .ok (r.map .recovery)⟩ :: h :=
  (keeps_kind Row.asRecovery .recovery recovery_of_key (keeps_get hb _)).mono
    fun _ _ _ hr => hr.1

theorem keeps_getTargetLock (hb : Began h t) (id : Str) :
    Keeps rt h (getTargetLock t id) fun h' r =>
      h' = ⟨.get t (.lock id), .ok (r.map .lock)⟩ :: h ∧ ∀ row ∈ r, row.operationLockId = id :=
  (keeps_kind Row.asLock .lock lock_of_key (keeps_get hb _)).mono
    fun _ _ _ hr => ⟨hr.1, fun row hrow => Key.lock.inj (hr.2 row hrow)⟩

/-! ### Transactions -/

theorem requestOf_of_suffix {past : Log} (hs : past <:+ h) (hne : past ≠ []) :
    requestOf h = requestOf past := by
  obtain ⟨new, rfl⟩ := hs
  obtain ⟨e, he⟩ := Option.isSome_iff_exists.mp (List.getLast?_isSome.mpr hne)
  rw [requestOf, requestOf, List.getLast?_append, he, Option.some_or]

theorem requestOf_cons (hq : requestOf h = some q) (e : Entry) : requestOf (e :: h) = some q := by
  have hne : h ≠ [] := by
    rintro rfl
    cases hq
  exact (requestOf_of_suffix (List.suffix_cons _ _) hne).trans hq

/-- The rule of a transaction: what it does is said where its body ends. -/
theorem keeps_session {β : Type} {body : ℕ → Prog Request β} {Q : Log → β → Prop} (hne : h ≠ [])
    (hbody : ∀ t, Keeps rt (⟨.start, .ok t⟩ :: h) (body t) fun h' b => Records rt t h' ∧
      (∀ q, requestOf h = some (.locked q) → ∃ resp, TakesEffect rt q t h' resp) ∧
      Q (⟨.commit t, .ok ()⟩ :: h') b) : Keeps rt h (sessionScope body) Q := by
  refine obeys_sessionScope (.plain (no_txn rfl) rfl)
    (fun h' t _ hb => .plain (began_txn hb rfl) rfl)
    fun t => (hbody t).mono ?_
  rintro h' b hs ⟨hrecords, heffect, hq⟩
  have hb : Began h' t := Began.suffix ⟨_, List.mem_cons_self, rfl⟩ hs
  refine ⟨⟨began_txn hb rfl, ?_, ?_, ?_, ?_, ?_⟩, hq⟩
  · intro t' v hc
    cases hc
  · intro t' v hc
    cases hc
  · intro q hc
    cases hc
  · intro t' hc
    cases hc
    exact hrecords
  · intro t' hc q hreq
    cases hc
    refine heffect q ?_
    rwa [← requestOf_of_suffix ((List.suffix_cons _ _).trans hs) hne]

/-- The transaction of a locked call. -/
theorem keeps_locked {β : Type} {q : LockedCall} {body : ℕ → Prog Request β} {f : β → Response}
    (hq : requestOf h = some (.locked q))
    (hbody : ∀ t, Keeps rt (⟨.start, .ok t⟩ :: h) (body t) fun h' b =>
      Records rt t h' ∧ TakesEffect rt q t h' (f b)) :
    Keeps rt h (sessionScope body) fun h' b => Answers rt q h' (f b) := by
  have hne : h ≠ [] := by
    rintro rfl
    cases hq
  refine keeps_session hne fun t => (hbody t).mono fun h' b _ hb => ⟨hb.1, fun q' hq' => ?_, ?_⟩
  · rw [hq] at hq'
    cases hq'
    exact ⟨_, hb.2⟩
  · exact ⟨t, h', rfl, hb.2⟩

/-- A transaction of another call. -/
theorem keeps_unlocked {β : Type} {body : ℕ → Prog Request β} (hq : requestOf h = some q)
    (hfree : ∀ q', q ≠ .locked q')
    (hbody : ∀ t, Keeps rt (⟨.start, .ok t⟩ :: h) (body t) fun h' _ => Records rt t h') :
    Keeps rt h (sessionScope body) fun h' _ => requestOf h' = some q := by
  have hne : h ≠ [] := by
    rintro rfl
    cases hq
  have hsession : Keeps rt h (sessionScope body) fun _ _ => True := by
    refine keeps_session hne fun t =>
      (hbody t).mono fun h' b _ hb => ⟨hb, fun q' hq' => ?_, trivial⟩
    rw [hq] at hq'
    cases hq'
    exact absurd rfl (hfree q')
  exact hsession.mono fun h' _ hs _ => (requestOf_of_suffix hs hne).trans hq

/-! ### What a transaction has read -/

section Reading

variable {past : Log} {P : CoordinationRows → Prop} {k : Key} {v : Row}

theorem Shows.of_suffix (hshows : Shows t past P) (hs : past <:+ h) : Shows t h P :=
  fun rows hl => hshows rows (hl.of_suffix hs)

theorem shows_lock (hw : writesOf t h = []) :
    Shows t (⟨.lock t k, .ok (some v)⟩ :: h) fun rows => rows.get v.key = some v := by
  refine fun rows hl => hl.locked _ h v List.suffix_rfl rfl rfl fun w hmem => ?_
  rw [hw] at hmem
  cases hmem

theorem shows_operation {row : OperationRecord} (hw : writesOf t h = []) :
    Shows t (⟨.lock t (.operation row.operationId), .ok (some (.operation row))⟩ :: h) fun rows =>
      rows.get (.operation row.operationId) = some (.operation row) := shows_lock hw

theorem shows_recovery {row : RecoveryRecord} (hw : writesOf t h = []) :
    Shows t (⟨.lock t (.recovery row.operationId), .ok (some (.recovery row))⟩ :: h) fun rows =>
      rows.get (.recovery row.operationId) = some (.recovery row) := shows_lock hw

theorem shows_targetLock {row : OperationLockRecord} (hw : writesOf t h = []) :
    Shows t (⟨.lock t (.lock row.operationLockId), .ok (some (.lock row))⟩ :: h) fun rows =>
      rows.get (.lock row.operationLockId) = some (.lock row) := shows_lock hw

theorem shows_get (hw : writesOf t h = []) : Shows t (⟨.get t k, .ok (some v)⟩ :: h) fun rows =>
    ∃ v', rows.get v.key = some v' ∧ Later v v' := by
  refine fun rows hl => hl.seen _ h v List.suffix_rfl List.mem_cons_self fun w hmem => ?_
  rw [hw] at hmem
  cases hmem

theorem shows_missing (hk : (known Row.key t (guard k) h).isSome = true) :
    Shows t (⟨.lock t k, .ok none⟩ :: h) fun rows => rows.get k = none :=
  fun _ hl => hl.missing _ h k List.suffix_rfl rfl hk

theorem shows_absent (hk : (known Row.key t (guard k) h).isSome = true) :
    Shows t (⟨.get t k, .ok none⟩ :: h) fun rows => rows.get k = none :=
  fun _ hl => hl.missing _ h k List.suffix_rfl rfl hk

theorem shows_fresh :
    Shows t (⟨.insert t v, .ok true⟩ :: h) fun rows => rows.get v.key = none :=
  fun _ hl => hl.fresh _ v List.mem_cons_self rfl

end Reading

end Gjallar.Coordination

import Gjallar.LeaseFencing
import Gjallar.Observer
import Gjallar.Runs

/-!
# Rejected observation requests

One request against a database that other processes change between its commands, with given clock
readings and a given runner. A request that is refused usually has written nothing. The exceptions
are found by following every refusal past the writes before it: an item prepared for an operation
that the runner does not support, an item that another process prepared in the meantime and whose
ledger refuses the request, a lease taken although the locks of the operation are not the required
ones or the operation moves on before the request is recorded, and a run that lost its lease.
-/
namespace Gjallar.ObserveRejections

open Gjallar.Text Gjallar.Data Gjallar.Tables Gjallar.Operation Gjallar.OperationStore
  Gjallar.OperationLedger Gjallar.Redaction Gjallar.TargetLocks Gjallar.RecoveryStore
  Gjallar.Processes Gjallar.Processes.Fallible Gjallar.ObserveLedger Gjallar.Observer
  Gjallar.LeaseFencing

/-! ### A request among other processes -/

/-- What a request meets: the configured cluster, the clock, what the stores draw, the runner with
its answer, an outcome or an exception, and the store calls it makes, and what other processes
commit before a command of the request is answered. -/
structure Surroundings where
  cluster : Str
  clock : Instant
  claimDraw : Draw
  commitDraw : Draw
  run : RecoveryLease → Db → Except (Option StoreError) Str × List (Draw × LeaseFencing.Call)
  others : Command → Db → Db

/-- A store call as its own transaction. -/
def transaction {α : Type} (db : Db) (r : Except StoreError (α × Db)) : Except Failure α × Db :=
  match r with
  | .ok (a, db') => (.ok a, db')
  | .error e => (.error (.store e), db)

/-- An exception of the runner. -/
def runFailure (e : Option StoreError) : Failure := e.elim .other .store

/-- The answer to a command and the database after it. -/
def perform (rt : Runtime) (s : Surroundings) (db : Db) : (c : Command) → Observer.Reply c × Db
  | .receive _ => (.ok (), db)
  | .getOperation id => (.ok (db.operations.get id), db)
  | .getRecovery id => (.ok ((db.recovery.get id).map itemOf), db)
  | .listEvents id => (.ok (listEvents id db), db)
  | .readLock targetType targetId =>
      (getTargetOperationLock rt s.cluster targetType targetId db.locks, db)
  | .clock => (.ok s.clock, db)
  | .claimOperation id owner time version checksum =>
      transaction db (claimOperation s.claimDraw id owner time (some version) (some checksum) db)
  | .prepareAndClaim spec owner time version checksum => transaction db
      (prepareAndClaim s.claimDraw spec owner time (some version) (some checksum) db)
  | .commit lease o => transaction db (commitObservation rt s.commitDraw lease o db)
  | .run lease => ((s.run lease db).1.mapError runFailure, runCalls rt (s.run lease db).2 db)

/-- The database, and what each command of the request so far has made of it. -/
structure Trail where
  db : Db
  steps : List (Db × Db) := []

/-- The database that a command meets. -/
def Surroundings.met (s : Surroundings) (w : Trail) (c : Command) : Db := s.others c w.db

def answer (rt : Runtime) (s : Surroundings) (w : Trail) (c : Command) : Observer.Reply c × Trail :=
  let db := s.met w c
  let (reply, db') := perform rt s db c
  (reply, ⟨db', (db, db') :: w.steps⟩)

/-- The rejections. -/
def rejectionCodes : List Str :=
  ["OPERATION_RECOVERY_UNSUPPORTED", "OPERATION_RECOVERY_IDEMPOTENCY_LEDGER_FULL",
    "OPERATION_RECOVERY_IDEMPOTENCY_CONFLICT", "OPERATION_RECOVERY_STATE_CONFLICT",
    "OPERATION_RECOVERY_NOT_PREPARED"]

/-- What a rejection must not change of a recovery item. -/
structure Standing where
  status : RecoveryStatus
  leaseOwner : Option Str
  leaseToken : Option Str
  leaseGeneration : ℕ
  leaseExpiresAt : Option Instant
  attemptCount : ℕ
  ledger : List (Option Value)
  deriving DecidableEq

def standing (row : RecoveryRecord) : Standing :=
  ⟨row.status, row.leaseOwner, row.leaseToken, row.leaseGeneration, row.leaseExpiresAt,
    row.attemptCount, requestKeys.map (Dict.get row.details)⟩

/-- The recovery item and the operation are as before. -/
def Untouched (operationId : Str) (db db' : Db) : Prop :=
  (db'.recovery.get operationId).map standing = (db.recovery.get operationId).map standing ∧
    db'.operations.get operationId = db.operations.get operationId

/-- No command of the request has changed the recovery item or the operation. -/
def Spared (operationId : Str) (w : Trail) : Prop :=
  ∀ step ∈ w.steps, Untouched operationId step.1 step.2

instance (operationId : Str) (db db' : Db) : Decidable (Untouched operationId db db') :=
  inferInstanceAs (Decidable (_ ∧ _))

instance (operationId : Str) (w : Trail) : Decidable (Spared operationId w) :=
  inferInstanceAs (Decidable (∀ step ∈ w.steps, Untouched operationId step.1 step.2))

theorem untouched_of_eq {operationId : Str} {db db' : Db} (h : db' = db) :
    Untouched operationId db db' := by
  subst h
  exact ⟨rfl, rfl⟩

theorem Untouched.trans {operationId : Str} {db₁ db₂ db₃ : Db} (h : Untouched operationId db₁ db₂)
    (h' : Untouched operationId db₂ db₃) : Untouched operationId db₁ db₃ :=
  ⟨h'.1.trans h.1, h'.2.trans h.2⟩

/-- Without other processes, a request whose commands change nothing leaves item and operation as
they were before it. -/
theorem untouched_of_spared {rt : Runtime} {s : Surroundings} (halone : ∀ c db, s.others c db = db)
    {α : Type} (p : Action α) {operationId : Str} {db : Db}
    (h : Spared operationId (evaluate (answer rt s) p ⟨db, []⟩).2) :
    Untouched operationId db (evaluate (answer rt s) p ⟨db, []⟩).2.db := by
  refine (Program.evaluate_related (Q := fun w w' => Spared operationId w' →
    Spared operationId w ∧ Untouched operationId w.db w'.db) (fun w hw => ⟨hw, rfl, rfl⟩) ?_ ?_
    p.run ⟨db, []⟩ h).2
  · intro w₁ w₂ w₃ h₁ h₂ hw
    obtain ⟨hw₂, hrest⟩ := h₂ hw
    exact ⟨(h₁ hw₂).1, (h₁ hw₂).2.trans hrest⟩
  · intro w c hw
    have hstep := hw _ List.mem_cons_self
    change Untouched operationId (s.others c w.db) _ at hstep
    rw [halone] at hstep
    exact ⟨fun step hmem => hw step (List.mem_cons_of_mem _ hmem), hstep⟩

/-- A command that leaves the database alone changes nothing. -/
theorem spared_answer_iff {rt : Runtime} {s : Surroundings} {w : Trail} {operationId : Str}
    {c : Command} (hkept : (perform rt s (s.met w c) c).2 = s.met w c) :
    Spared operationId (answer rt s w c).2 ↔ Spared operationId w := by
  refine ⟨fun hw step hmem => hw step (List.mem_cons_of_mem _ hmem), fun hw step hmem => ?_⟩
  rcases List.mem_cons.mp hmem with rfl | hmem
  · exact untouched_of_eq hkept
  · exact hw step hmem

theorem spared_iff_of_kept {rt : Runtime} {s : Surroundings} {w w' : Trail} {operationId : Str}
    {c : Command} {reply : Observer.Reply c}
    (hkept : (perform rt s (s.met w c) c).2 = s.met w c) (h : answer rt s w c = (reply, w')) :
    Spared operationId w' ↔ Spared operationId w := by
  rw [← spared_answer_iff hkept, h]

/-- A raised generation is seen. -/
theorem not_untouched {operationId : Str} {db db' : Db}
    (h : generation db operationId < generation db' operationId) :
    ¬ Untouched operationId db db' := by
  rintro ⟨hrow, -⟩
  have hsame := congrArg (Option.map Standing.leaseGeneration) hrow
  rw [Option.map_map, Option.map_map] at hsame
  have heq : generation db' operationId = generation db operationId := by
    unfold generation
    exact congrArg (Option.getD · 0) hsame
  omega

/-! ### Writes before a rejection -/

section

variable (rt : Runtime) (s : Surroundings) (c : Coordinator) (r : Admitted)
  (operation : OperationSnapshot) (w : Trail)

/-- The request names the version and checksum the operation has. -/
def Fenced (operation : OperationSnapshot) : Prop :=
  operation.version = r.record.version ∧ operation.lastEventChecksum = r.record.checksum

/-- No item was found; one is specified, prepared and claimed. -/
inductive Takes : RecoverySpec → RecoveryLease → Trail → Prop
  | prepared {spec lease w₁ w₂ w₃}
      (hitem : answer rt s w (.getRecovery r.operationId) = (.ok none, w₁))
      (hfenced : Fenced r operation)
      (hspec : evaluate (answer rt s) (Coordinator.prepareSpec rt operation) w₁ =
        (some (.ok spec), w₂))
      (hclaim : answer rt s w₂ (.prepareAndClaim spec c.owner c.leaseTime r.record.version
        r.record.checksum) = (.ok lease, w₃)) : Takes spec lease w₃

/-- The lease and the records with which a request that is not in the ledger comes to its commit. -/
inductive Leases : RecoveryLease → List ObserveRecord → Trail → Prop
  | claimed {item lease records w₁ w₂}
      (hitem : answer rt s w (.getRecovery r.operationId) = (.ok (some item), w₁))
      (hnew : sameObserveRequest rt item.operationId item.details r.record = .ok false)
      (heligible : recoveryErrorSemantics (Coordinator.errorOf (some item)) ≠ some .ineligible)
      (hfenced : Fenced r operation)
      (hrecords : nextObserveLedger rt item.operationId item.details r.record = .ok records)
      (hsupports : c.supports item.recoveryKind = true)
      (hclaim : answer rt s w₁ (.claimOperation r.operationId c.owner c.leaseTime r.record.version
        r.record.checksum) = (.ok lease, w₂)) : Leases lease records w₂
  | prepared {spec lease records w'} (htakes : Takes rt s c r operation w spec lease w')
      (hsupports : c.supports spec.recoveryKind = true)
      (hrecords : nextObserveLedger rt lease.item.operationId lease.item.details r.record =
        .ok records) : Leases lease records w'

/-- The commit that records a request. -/
def commitCommand (lease : RecoveryLease) (records : List ObserveRecord) : Command :=
  .commit lease (Coordinator.observationRequested r records operation)

/-- The lease with which the runner is called. -/
inductive Handed : RecoveryLease → Trail → Prop
  | resumed {item lease w₁ w₂ w₃}
      (hitem : answer rt s w (.getRecovery r.operationId) = (.ok (some item), w₁))
      (hsame : sameObserveRequest rt item.operationId item.details r.record = .ok true)
      (hleased : item.status = .leased)
      (hlapsed : evaluate (answer rt s) (Coordinator.leaseIsLive item.leaseExpiresAt) w₁ =
        (some (.ok false), w₂))
      (hclaim : answer rt s w₂ (.claimOperation r.operationId c.owner c.leaseTime operation.version
        operation.lastEventChecksum) = (.ok lease, w₃)) : Handed lease w₃
  | requested {lease records w₁ operation' item w₂}
      (hlease : Leases rt s c r operation w lease records w₁)
      (hcommit : answer rt s w₁ (commitCommand r operation lease records) =
        (.ok (operation', item), w₂)) : Handed ⟨item, lease.token⟩ w₂

/-- The runner says that its lease, or the state it was called for, is gone. -/
def IsConflict : Except (Option StoreError) Str → Prop
  | .ok outcome => outcome = "lease_lost"
  | .error (some (.recoveryLeaseBusy _)) => True
  | .error (some (.recoveryOperationConflict _)) => True
  | .error _ => False

/-- The open locks of a pair or host operation are not the ones it requires. -/
def LocksMismatch (operation : OperationSnapshot) (db : Db) (row : RecoveryRecord) : Prop :=
  (expectedLockCount operation.operationType = 2 ∨
    isHostOperation operation.operationType = true) ∧
    ((Coordinator.observationRequested r [] operation).boundLocks rt row operation
      db.locks).length ≠ expectedLockCount operation.operationType

/-- The lease still holds when the request is to be recorded, but the operation has moved on or its
locks are not the required ones. -/
def Refuses (lease : RecoveryLease) (db : Db) : Prop :=
  ∃ row, db.recovery.get lease.operationId = some row ∧
    ownsRow lease s.commitDraw.now row = true ∧
    ∀ current, db.operations.get lease.operationId = some current →
      ¬ Fenced r current ∨
        (current.status = operation.status ∧ LocksMismatch rt r current db row)

/-- The ways in which a request is rejected after a write. -/
inductive Wasted : Prop
  | unsupported {spec lease w'} (htakes : Takes rt s c r operation w spec lease w')
      (hsupports : c.supports spec.recoveryKind = false)
  | ledger {spec lease w' e} (htakes : Takes rt s c r operation w spec lease w')
      (hsupports : c.supports spec.recoveryKind = true)
      (hrecords : nextObserveLedger rt lease.item.operationId lease.item.details r.record =
        .error e)
  | commit {lease records w'} (hlease : Leases rt s c r operation w lease records w')
      (hrefuses : Refuses rt s r operation lease
        (s.met w' (commitCommand r operation lease records)))
  | run {lease w'} (hhanded : Handed rt s c r operation w lease w')
      (hconflict : IsConflict (s.run lease (s.met w' (.run lease))).1)

end

/-! ### Evaluations -/

section Evaluations

variable {rt : Runtime} {s : Surroundings} {w : Trail}

@[simp] theorem evaluate_refuse {α : Type} (e : ObserveError) :
    evaluate (answer rt s) (refuse e : Action α) w = (some (.error (.observe e)), w) := rfl

@[simp] theorem evaluate_refuseIf (bad : Prop) [Decidable bad] (e : ObserveError) :
    evaluate (answer rt s) (refuseIf bad e) w =
      (some (if bad then .error (.observe e) else .ok ()), w) := by
  unfold refuseIf
  split <;> rfl

@[simp] theorem evaluate_checked {α : Type} (r : Except ObserveError α) :
    evaluate (answer rt s) (checked r) w = (some (r.mapError .observe), w) := by
  cases r <;> rfl

theorem evaluate_of_answer {c : Command} {reply : Observer.Reply c} {w' : Trail}
    (h : answer rt s w c = (reply, w')) :
    evaluate (answer rt s) (call c) w = (some reply, w') := by rw [evaluate_call, h]

theorem conflict_rejected (operationId : Str) (operation : Option OperationSnapshot) :
    (conflict operationId operation).code ∈ rejectionCodes := by
  change ("OPERATION_RECOVERY_STATE_CONFLICT" : Str) ∈ rejectionCodes
  decide

theorem not_rejected : ("OPERATION_RECOVERY_INELIGIBLE" : Str) ∉ rejectionCodes ∧
    ("OPERATION_RECOVERY_OBSERVATION_UNAVAILABLE" : Str) ∉ rejectionCodes ∧
    ("OPERATION_RECOVERY_NOT_FOUND" : Str) ∉ rejectionCodes ∧
    ("OPERATION_RECOVERY_PERSISTENCE_UNAVAILABLE" : Str) ∉ rejectionCodes := by decide

theorem mapError_eq_error {ε ε' α : Type} {f : ε → ε'} {r : Except ε α} {e' : ε'}
    (h : r.mapError f = .error e') : ∃ e, r = .error e ∧ f e = e' := by
  cases r with
  | error e =>
      cases h
      exact ⟨e, rfl, rfl⟩
  | ok a => cases h

/-- The errors that follow the last read of an item. -/
theorem outcomeResult_code {operationId outcome : Str} {replay : Bool} {item : Option RecoveryItem}
    {e : ObserveError} (h : Coordinator.outcomeResult operationId outcome replay item = .error e) :
    e.code ∉ rejectionCodes := by
  unfold Coordinator.outcomeResult at h
  dsimp only at h
  split at h
  · cases h
    exact not_rejected.1
  · cases h
    exact not_rejected.2.1
  · split_ifs at h
    · cases h
      exact not_rejected.2.1
    · cases h
      exact not_rejected.1

/-- The last read changes nothing, and of the errors after it only a lost lease is a rejection. -/
theorem evaluate_resultOrError (operationId outcome : Str) (replay : Bool) : ∃ result w',
    evaluate (answer rt s) (Coordinator.resultOrError operationId outcome replay) w =
      (some result, w') ∧ (∀ id, Spared id w' ↔ Spared id w) ∧
    (∀ f, result = .error f → ∃ e, f = .observe e ∧
      (e.code ∈ rejectionCodes ↔ outcome = "lease_lost")) ∧
    (outcome = "lease_lost" → ∃ f, result = .error f) := by
  unfold Coordinator.resultOrError
  by_cases hlost : outcome = ("lease_lost" : Str)
  · rw [if_pos hlost]
    refine ⟨_, _, rfl, fun _ => spared_answer_iff rfl, fun f hf => ?_, fun _ => ⟨_, rfl⟩⟩
    cases hf
    exact ⟨_, rfl, iff_of_true (conflict_rejected _ _) hlost⟩
  · rw [if_neg hlost]
    refine ⟨(Coordinator.outcomeResult operationId outcome replay
      (((s.met w (.getRecovery operationId)).recovery.get operationId).map itemOf)).mapError
        .observe, (answer rt s w (.getRecovery operationId)).2, ?_,
      fun _ => spared_answer_iff rfl, fun f hf => ?_, fun h => absurd h hlost⟩
    · rw [evaluate_bind, evaluate_attempt, evaluate_call]
      exact evaluate_checked _
    · obtain ⟨e, he, rfl⟩ := mapError_eq_error hf
      exact ⟨e, rfl, iff_of_false (outcomeResult_code he) hlost⟩

end Evaluations

/-! ### Errors of a kind -/

section Fails

variable {ε α β : Type} {P : ε → Prop}

/-- The call ends in an error of a kind. -/
def Fails (P : ε → Prop) (x : Except ε α) : Prop := ∃ e, x = .error e ∧ P e

theorem not_fails_ok (a : α) : ¬ Fails P (.ok a : Except ε α) := by
  rintro ⟨e, h, -⟩
  cases h

theorem fails_error {e : ε} : Fails P (.error e : Except ε α) ↔ P e := by
  constructor
  · rintro ⟨e', h, he⟩
    cases h
    exact he
  · exact fun h => ⟨e, rfl, h⟩

/-- A sequence ends with the first error in it. -/
theorem fails_bind {x : Except ε α} {f : α → Except ε β} (hx : Fails P x) : Fails P (x >>= f) := by
  obtain ⟨e, rfl, he⟩ := hx
  exact ⟨e, rfl, he⟩

/-- A sequence without such an error in its parts ends in none. -/
theorem not_fails_bind {x : Except ε α} {f : α → Except ε β} (hx : ¬ Fails P x)
    (hf : ∀ a, x = .ok a → ¬ Fails P (f a)) : ¬ Fails P (x >>= f) := by
  cases x with
  | error e => exact fun h => hx (fails_error.mpr (fails_error.mp h))
  | ok a => exact hf a rfl

theorem not_fails_raiseIf {bad : Prop} [Decidable bad] {e : ε} (he : ¬ P e) :
    ¬ Fails P (raiseIf bad e) := by
  rintro ⟨e', h, hfails⟩
  rw [raiseIf_eq_error] at h
  exact he (h.2 ▸ hfails)

theorem not_fails_orRaise {a : Option α} {e : ε} (he : ¬ P e) : ¬ Fails P (orRaise a e) := by
  cases a with
  | none => exact fun h => he (fails_error.mp h)
  | some a => exact not_fails_ok a

theorem not_fails_foldlM {f : β → α → Except ε β} (hf : ∀ b a, ¬ Fails P (f b a)) (xs : List α)
    (b : β) : ¬ Fails P (xs.foldlM f b) := by
  induction xs generalizing b with
  | nil => exact not_fails_ok b
  | cons a xs ih =>
      rw [List.foldlM_cons]
      exact not_fails_bind (hf b a) fun b' _ => ih b'

end Fails

/-! ### Refusals of the ledger -/

section Ledger

variable {rt : Runtime} {operationId : Str}

theorem idempotencyConflict_rejected (message : Str) :
    ¬ (idempotencyConflict operationId message).code ∉ rejectionCodes := by
  change ¬ ("OPERATION_RECOVERY_IDEMPOTENCY_CONFLICT" : Str) ∉ rejectionCodes
  decide

theorem ledgerFull_rejected : ¬ (ledgerFull operationId).code ∉ rejectionCodes := by
  change ¬ ("OPERATION_RECOVERY_IDEMPOTENCY_LEDGER_FULL" : Str) ∉ rejectionCodes
  decide

theorem readNext_rejected (records : List ObserveRecord) (candidate : Value) :
    ¬ Fails (fun e : ObserveError => e.code ∉ rejectionCodes)
      (readNext rt operationId records candidate) := by
  refine not_fails_bind ?_ fun record _ => ?_
  · refine not_fails_bind (not_fails_orRaise (idempotencyConflict_rejected _)) fun _ _ => ?_
    refine not_fails_bind (not_fails_raiseIf (idempotencyConflict_rejected _)) fun _ _ => ?_
    refine not_fails_bind (not_fails_orRaise (idempotencyConflict_rejected _)) fun _ _ => ?_
    exact not_fails_bind (not_fails_raiseIf (idempotencyConflict_rejected _))
      fun _ _ => not_fails_ok _
  · unfold addRecord
    split
    · exact not_fails_ok _
    · exact not_fails_bind (not_fails_raiseIf (idempotencyConflict_rejected _))
        fun _ _ => not_fails_ok _

theorem sameIn_rejected (records : List ObserveRecord) (record : ObserveRecord) :
    ¬ Fails (fun e : ObserveError => e.code ∉ rejectionCodes)
      (sameIn operationId record records) := by
  unfold sameIn
  split
  · exact not_fails_ok _
  · exact not_fails_bind (not_fails_raiseIf (idempotencyConflict_rejected _))
      fun _ _ => not_fails_ok _

/-- A ledger that does not admit a request answers it with a rejection. -/
theorem nextObserveLedger_rejected {details : Dict} {record : ObserveRecord} {e : ObserveError}
    (h : nextObserveLedger rt operationId details record = .error e) :
    e.code ∈ rejectionCodes := by
  by_contra hcode
  refine not_fails_bind (P := fun e => e.code ∉ rejectionCodes) ?_ (fun records _ => ?_)
    ⟨e, h, hcode⟩
  · refine not_fails_bind (not_fails_orRaise (idempotencyConflict_rejected _)) fun _ _ => ?_
    refine not_fails_bind (not_fails_foldlM readNext_rejected _ _) fun _ _ => ?_
    exact not_fails_bind (not_fails_raiseIf (idempotencyConflict_rejected _))
      fun _ _ => not_fails_ok _
  · refine not_fails_bind (sameIn_rejected records record) fun same _ => ?_
    cases same with
    | true => exact not_fails_ok _
    | false =>
        exact not_fails_bind (not_fails_raiseIf ledgerFull_rejected) fun _ _ => not_fails_ok _

end Ledger

/-! ### Conflicts of the stores -/

/-- The errors of the stores that the coordinator reports as a state conflict. -/
def StoreConflict : StoreError → Prop
  | .recoveryLeaseBusy _ => True
  | .recoveryOperationConflict _ => True
  | _ => False

/-- An append meets no conflict of the recovery. -/
theorem not_conflicts_append {rt : Runtime} {draw : Draw} {operationId : Str} {a : Append}
    {db : Db} : ¬ Fails StoreConflict (appendInSession rt draw operationId a db) := by
  refine not_fails_bind (not_fails_raiseIf id) fun _ _ => ?_
  refine not_fails_bind (not_fails_orRaise id) fun row _ => ?_
  refine not_fails_bind (not_fails_raiseIf id) fun _ _ => ?_
  refine not_fails_bind ?_ fun _ _ => ?_
  · cases a.nextStatus with
    | none => exact not_fails_ok ()
    | some next => exact not_fails_raiseIf id
  · refine not_fails_bind (not_fails_orRaise id) fun _ _ => ?_
    exact not_fails_bind (not_fails_orRaise id) fun _ _ => not_fails_ok _

section Commit

variable {rt : Runtime} {draw : Draw} {r : Admitted} {records : List ObserveRecord}
  {operation current : OperationSnapshot} {lease : RecoveryLease} {row : RecoveryRecord} {db : Db}

/-- The commit that records a request conflicts with an operation that has moved on. -/
theorem checkOperation_conflicts_iff :
    Fails StoreConflict ((Coordinator.observationRequested r records operation).checkOperation lease
      current) ↔ ¬ Fenced r current := by
  by_cases hfenced : Fenced r current
  · refine iff_of_false ?_ (not_not_intro hfenced)
    have hstate : ¬ ((∃ v ∈ some r.record.version, current.version ≠ v) ∨
        ∃ c ∈ some r.record.checksum, current.lastEventChecksum ≠ c) := by
      simp [hfenced.1, hfenced.2]
    refine not_fails_bind ?_ fun _ _ => ?_
    · rintro ⟨e, h, -⟩
      rw [raiseIf_eq_error] at h
      exact hstate h.1
    · exact not_fails_bind (not_fails_raiseIf id) fun _ _ => not_fails_ok ()
  · refine iff_of_true (fails_bind ⟨_, (raiseIf_eq_error _ _ _).mpr ⟨?_, rfl⟩, trivial⟩) hfenced
    rcases not_and_or.mp hfenced with h | h
    · exact .inl ⟨_, rfl, h⟩
    · exact .inr ⟨_, rfl, h⟩

/-- It goes on when the operation has the version, checksum and status it was read with. -/
theorem checkOperation_requested :
    (Coordinator.observationRequested r records operation).checkOperation lease current =
      .ok () ↔ Fenced r current ∧ current.status = operation.status := by
  have hstate : ((∃ v ∈ some r.record.version, current.version ≠ v) ∨
      ∃ c ∈ some r.record.checksum, current.lastEventChecksum ≠ c) ↔ ¬ Fenced r current := by
    rw [Fenced, not_and_or]
    simp
  have hstatus : (∃ expected ∈ some [operation.status], current.status ∉ expected) ↔
      current.status ≠ operation.status := by simp
  simp only [Observation.checkOperation, bind_eq_ok, raiseIf_eq_ok]
  constructor
  · rintro ⟨-, hfenced, -, hsame, -⟩
    exact ⟨not_not.mp fun h => hfenced (hstate.mpr h), not_not.mp fun h => hsame (hstatus.mpr h)⟩
  · rintro ⟨hfenced, hsame⟩
    exact ⟨(), fun h => hstate.mp h hfenced, (), fun h => hstatus.mp h hsame, rfl⟩

theorem checkLocks_plain {o : Observation} (hbind : o.bindTargetLock = false)
    (hprojector : o.projector = none) (hrelease : o.releaseTargetLock = false)
    (hnext : o.nextStatus = none) (hstatus : o.recoveryStatus ≠ RecoveryStatus.paused.name)
    (locks : List OperationLockRecord) : o.checkLocks rt lease row current locks =
      raiseIf ((expectedLockCount current.operationType = 2 ∨
          isHostOperation current.operationType = true) ∧
        locks.length ≠ expectedLockCount current.operationType)
      (.recoveryOperationConflict lease.operationId) := by
  unfold Observation.checkLocks raiseIf
  simp only [hbind, hprojector, hrelease, hnext, hstatus, Bool.false_eq_true, Option.isSome_none,
    false_and, reduceCtorEq, if_false, not_false_eq_true, and_true]
  split <;> rfl

/-- A patch without host binding fields replaces none. -/
theorem preservesLockBinding_of_absent {current patch : Dict}
    (h : ∀ key ∈ hostBindingFields, Dict.get patch key = none) :
    preservesLockBinding current patch = true := by
  refine List.all_eq_true.mpr fun key hkey => ?_
  rw [(Dict.get_eq_none_iff patch key).mp (h key hkey)]
  rfl

theorem get_requestPatch {key : Str} (h : key ∉ requestKeys) :
    Dict.get (requestPatch records r.record) key = none := by
  simp only [requestKeys, List.mem_cons, List.not_mem_nil, or_false, not_or] at h
  simp only [requestPatch, Dict.get_cons, if_neg h.1, if_neg h.2.1, if_neg h.2.2.1,
    if_neg h.2.2.2, Dict.get_nil]

/-- Recording a request leaves the host binding alone. -/
theorem checkHostBinding_requested :
    (Coordinator.observationRequested r records operation).checkHostBinding lease row current
      {} = .ok () := by
  have hfields : ∀ key ∈ hostBindingFields, key ∉ requestKeys := by decide
  have hoperation : preservesLockBinding current.details
      ((Coordinator.observationRequested r records operation).operationPatch {}) = true :=
    preservesLockBinding_of_absent fun _ _ => rfl
  have hrow : preservesLockBinding row.details
      ((Coordinator.observationRequested r records operation).recoveryPatch {}) = true := by
    refine preservesLockBinding_of_absent fun key hkey => ?_
    rw [Observation.recoveryPatch, Coordinator.observationRequested_patch, Dict.get_merge,
      get_sanitized, get_requestPatch (hfields key hkey)]
    rfl
  rw [Observation.checkHostBinding, raiseIf_eq_ok, hoperation, hrow]
  simp

/-- Recording a request conflicts exactly when the lease still holds the item and the operation has
moved on or its locks are not the required ones. -/
theorem commit_conflict_iff {s : Surroundings} :
    Fails StoreConflict (commitObservation rt s.commitDraw lease
      (Coordinator.observationRequested r records operation) db) ↔
      Refuses rt s r operation lease db := by
  have hstatus : RecoveryStatus.ofName
      (Coordinator.observationRequested r records operation).recoveryStatus = some .leased := rfl
  have hleased : (Coordinator.observationRequested r records operation).recoveryStatus ≠
      RecoveryStatus.paused.name := by
    change ("leased" : Str) ≠ RecoveryStatus.paused.name
    decide
  rw [commitObservation, hstatus]
  change Fails StoreConflict (lockedOwnedRow lease s.commitDraw.now db >>= _) ↔ _
  cases hlocked : lockedOwnedRow lease s.commitDraw.now db with
  | error e =>
      refine iff_of_false (fun h => ?_) ?_
      · rw [lockedOwnedRow_eq_error fun row hrow => ?_] at hlocked
        · cases hlocked
          exact fails_error.mp h
        · by_contra howns
          rw [Bool.not_eq_false] at howns
          rw [lockedOwnedRow_eq_ok.mpr ⟨hrow, howns⟩] at hlocked
          cases hlocked
      · rintro ⟨row, hrow, howns, -⟩
        rw [lockedOwnedRow_eq_ok.mpr ⟨hrow, howns⟩] at hlocked
        cases hlocked
  | ok row =>
      obtain ⟨hrow, howns⟩ := lockedOwnedRow_eq_ok.mp hlocked
      have hrefuses : Refuses rt s r operation lease db ↔
          ∀ current, db.operations.get lease.operationId = some current → ¬ Fenced r current ∨
            (current.status = operation.status ∧ LocksMismatch rt r current db row) := by
        refine ⟨?_, fun h => ⟨row, hrow, howns, h⟩⟩
        rintro ⟨row', hrow', -, h⟩
        rw [hrow] at hrow'
        cases hrow'
        exact h
      rw [hrefuses]
      change Fails StoreConflict (orRaise (db.operations.get lease.operationId) _ >>= _) ↔ _
      cases db.operations.get lease.operationId with
      | none => exact iff_of_true ⟨_, rfl, trivial⟩ fun _ h => by cases h
      | some current =>
          simp only [Option.some.injEq, forall_eq']
          change Fails StoreConflict (Observation.checkOperation _ lease current >>= _) ↔ _
          by_cases hfenced : Fenced r current
          swap
          · refine iff_of_true (fails_bind ?_) (.inl hfenced)
            exact checkOperation_conflicts_iff.mpr hfenced
          rw [or_iff_right (not_not_intro hfenced)]
          by_cases hsame : current.status = operation.status
          swap
          · refine iff_of_false (not_fails_bind ?_ fun _ h => ?_) fun h => hsame h.1
            · exact fun h => checkOperation_conflicts_iff.mp h hfenced
            · exact absurd (checkOperation_requested.mp h).2 hsame
          rw [and_iff_right hsame, checkOperation_requested.mpr ⟨hfenced, hsame⟩]
          change Fails StoreConflict (Observation.checkLocks rt _ lease row current _ >>= _) ↔ _
          rw [checkLocks_plain rfl rfl rfl rfl hleased]
          by_cases hlocks : (expectedLockCount current.operationType = 2 ∨
              isHostOperation current.operationType = true) ∧
            ((Coordinator.observationRequested r records operation).boundLocks rt row current
              db.locks).length ≠ expectedLockCount current.operationType
          · refine iff_of_true ?_ hlocks
            rw [raiseIf, if_pos hlocks]
            exact ⟨_, rfl, trivial⟩
          · refine iff_of_false ?_ hlocks
            rw [raiseIf, if_neg hlocks]
            change ¬ Fails StoreConflict (Observation.checkHostBinding _ lease row current {} >>= _)
            rw [checkHostBinding_requested]
            change ¬ Fails StoreConflict
              (appendInSession rt s.commitDraw lease.operationId _ db >>= _)
            refine not_fails_bind not_conflicts_append fun _ _ => ?_
            refine not_fails_bind (not_fails_orRaise id) fun _ _ => ?_
            exact not_fails_bind (not_fails_orRaise id) fun _ _ => not_fails_ok _

end Commit

end Gjallar.ObserveRejections

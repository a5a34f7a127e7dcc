import Gjallar.CoordinationRecords

/-!
# The statements refine the transactions

Calls that are interleaved statement by statement behave as the single transactions of the
repositories: every reachable state is one that a run of the ledger reaches, and a locked call that
answers has taken effect at one moment while it ran.
-/
namespace Gjallar.Coordination

open Gjallar.Text Gjallar.Data Gjallar.Tables Gjallar.Operation Gjallar.Admission
  Gjallar.OperationStore Gjallar.OperationLedger Gjallar.TargetLocks Gjallar.RecoveryStore
  Gjallar.ReadCommitted Gjallar.Sessions Gjallar.Processes Gjallar.Processes.Fallible

abbrev SystemState := State (Command Row Key (Outer Request))
  (fun c => Except Fault (Reply Outer.Answer c)) (Except Fault Response) World

/-- The committed rows. -/
def rowsOf (st : SystemState) : CoordinationRows := st.world.store.rows

/-- The tables that the calls start from. -/
structure Initial (w : World) : Prop where
  quiescent : Quiescent w
  constrained : Constrained schema w.store.rows

variable {rt : Runtime} {w₀ : World} {st st' : SystemState} {i t : ℕ}

theorem allowed_own (h : Log) (c : Command Row Key (Outer Request))
    (hc : (contract rt).allowed h c) : (∀ t ∈ c.txn, Began h t) ∧ Respects Row.key Later h c :=
  ⟨hc.own, hc.respects⟩

theorem allowed_guards (h : Log) (c : Command Row Key (Outer Request))
    (hc : (contract rt).allowed h c) : Guards Row.key guard h c := hc.guards

/-- A commit puts what the transaction has written, on rows that are as it has learned. -/
theorem commit_of_step (hw : Initial w₀) (h : (system rt).Reachable (· = w₀) st)
    {k : Except Fault Unit → Program (Command Row Key (Outer Request))
      (fun c => Except Fault (Reply Outer.Answer c)) (Except Fault Response)}
    (hi : st.programs[i]? = some (.call (.commit t) k))
    {w : World} (hexec : (system rt).exec st.world (.commit t) (.ok ()) w) :
    w.store.rows = (rowsOf st).putAll (writesOf t (historyOf i st.trace)) ∧
      Learned Later guard (rowsOf st) t (historyOf i st.trace) ∧ Constrained schema w.store.rows :=
  of_commit (fun _ => follows_of_entry) order allowed_own allowed_guards hw.quiescent
    hw.constrained h (Contract.allowed_of_reachable (fun _ => follows_of_entry) h hi) hexec

theorem later_of_steps (hw : Initial w₀) (h : (system rt).Reachable (· = w₀) st)
    (hs : Relation.ReflTransGen (system rt).Step st st') {k : Key} {v : Row}
    (hv : (rowsOf st).get k = some v) : ∃ v', (rowsOf st').get k = some v' ∧ Later v v' :=
  evolves_of_steps (fun _ => follows_of_entry) order allowed_own allowed_guards hw.quiescent
    hw.constrained h hs hv

theorem constrained_of_reachable (hw : Initial w₀) (h : (system rt).Reachable (· = w₀) st) :
    Constrained schema (rowsOf st) := by
  obtain ⟨hs, -⟩ := isolated_of_reachable (fun _ => follows_of_entry) order allowed_own
    allowed_guards hw.quiescent hw.constrained h
  exact ⟨fun k k' v v' hv hv' hne => hs.indexed.rows hs.disciplined hv hv' hne,
    fun k v k' hv hk' => hs.referring.rows hs.disciplined hv hk'⟩

/-! ### Two closures of one operation -/

theorem isLowerHex_sample : ∀ c ∈ ("0a" : Str), isLowerHex c = true := forall_mem_of_all rfl

def sampleHex : Hex := ⟨"0a", isLowerHex_sample⟩

def sampleRuntime : Runtime := ⟨fun _ => sampleHex, fun _ => sampleHex, fun _ => [], fun _ => []⟩

def plannedOperation : OperationRecord :=
  { operationId := "vm-start-1", operationType := .vmStart, executionMode := .managedApi,
    status := .planned, targetType := "proxmox_vm", targetId := "vmid:100",
    idempotencyKey := "key-1", intentDigest := "sha256:0a", planDigest := "sha256:0a",
    currentStage := "plan", actor := {}, details := [], version := 1,
    lastEventChecksum := "sha256:0a", createdAt := 0, updatedAt := 0 }

def plannedLock : OperationLockRecord :=
  { operationLockId := "operation-lock-1", operationType := .vmStart,
    scopeType := .proxmoxLocator, scopeKey := locatorScopeKey "lab" 100,
    status := .active, clusterId := "lab", vmid := some 100, ownerId := "vm-start-1",
    reason := "", evidence := [], createdAt := 0, updatedAt := 0, releasedAt := none }

/-- A planned operation with its own lock. -/
def sampleRows : CoordinationRows := ⟨[.operation plannedOperation, .lock plannedLock], by decide⟩

/-- Every draw answers the same digits, no connection is registered and no job is projected. -/
def act (time : Instant) : (x : Outer Request) → Except Fault (Outer.Answer x) × Instant
  | .receive _ => (.ok (), time)
  | .now => (.ok time, time)
  | .draw => (.ok sampleHex, time)
  | .connections => (.ok (⟨none, fun _ => true⟩, ⟨none, []⟩), time)
  | .jobs => (.ok [], time)

theorem acts_act (time : Instant) (x : Outer Request) :
    (surroundings Request).acts time x (act time x).1 (act time x).2 := by
  cases x <;> exact ⟨rfl, rfl⟩

def sampleClosure : LockedCall :=
  .preDispatchFailure "vm-start-1" "operation-lock-1"
    { eventType := "pre_dispatch_failed", stage := "dispatch" }

/-- Two closures that are about to begin. -/
def sampleCalls : SystemState :=
  ⟨⟨{ rows := sampleRows }, 0⟩,
    [(call sampleRuntime (.locked sampleClosure)).run,
      (call sampleRuntime (.locked sampleClosure)).run], []⟩

/-- The second closure begins while the first one holds the operation. -/
def sampleClosures : SystemState :=
  System.playAll (schema.answer (surroundings Request) act) (fun _ _ => True)
    [(1, 2), (0, 11), (1, 4)] sampleCalls

theorem initial_sampleCalls : Initial sampleCalls.world where
  quiescent _ := rfl
  constrained := by
    have hmem : ∀ {k v}, sampleRows.get k = some v →
        v.key = k ∧ (v = .operation plannedOperation ∨ v = .lock plannedLock) := fun h =>
      ⟨Rows.get_key h, by simpa [sampleRows] using (Rows.get_eq_some.mp h).1⟩
    constructor
    · intro k k' v v' hv hv' hne
      obtain ⟨rfl, rfl | rfl⟩ := hmem hv <;> obtain ⟨rfl, rfl | rfl⟩ := hmem hv' <;>
        first | rfl | exact absurd rfl hne
    · intro k v k' hv hk'
      obtain ⟨rfl, rfl | rfl⟩ := hmem hv <;> cases hk'

theorem reachable_sampleClosures :
    (system sampleRuntime).Reachable (· = sampleCalls.world) sampleClosures := by
  have hstart : (system sampleRuntime).Reachable (· = sampleCalls.world) sampleCalls := by
    refine System.reachable_programs ?_ _ fun p hp => ?_
    · rfl
    · simp only [List.mem_cons, List.not_mem_nil, or_false] at hp
      rcases hp with rfl | rfl <;> exact ⟨.locked sampleClosure, rfl⟩
  exact hstart.steps (System.steps_of_restrict (System.steps_playAll
    (schema.exec_answer _ act acts_act) _ _))

theorem closed_sampleClosures : sampleClosures.programs[0]? = some (.done (.ok (.flag true))) := by
  refine Program.eq_done_of_result ?_
  rfl

theorem request_sampleClosures :
    requestOf (historyOf 0 sampleClosures.trace) = some (.locked sampleClosure) := rfl

/-! ### Refinement -/

theorem Run.trans {db mid db' : Db} (h : OperationLedger.Run rt db mid)
    (h' : OperationLedger.Run rt mid db') : OperationLedger.Run rt db db' := by
  induction h' with
  | refl => exact h
  | step _ hs ih => exact ih.step hs

/-- Every interleaving of statements leaves rows that a run of the ledger leaves. -/
theorem refines_run (hw : Initial w₀) {db₀ : Db} (hrep : Represents w₀.store.rows db₀)
    (h : (system rt).Reachable (· = w₀) st) :
    ∃ db, Represents (rowsOf st) db ∧ OperationLedger.Run rt db₀ db := by
  induction h with
  | start hw₀ =>
      subst hw₀
      exact ⟨db₀, hrep, .refl⟩
  | @step s s' hr hs ih =>
      obtain ⟨db, hdb, hrun⟩ := ih
      cases hs with
      | start | crash => exact ⟨db, hdb, hrun⟩
      | environment henv =>
          cases henv with
          | drift => exact ⟨db, hdb, hrun⟩
          | lost => exact ⟨db, hdb, hrun⟩
      | @call w ps tr w' i c k r hi hexec =>
          rcases hexec.effect.rows with hsame | ⟨t, hcommitted, -, -⟩
          · refine ⟨db, ?_, hrun⟩
            rw [rowsOf, hsame]
            exact hdb
          · cases committed_eq_some.mp hcommitted
            have hallowed := Contract.allowed_of_reachable (fun _ => follows_of_entry) hr hi
            obtain ⟨hrows, hlearned, hc⟩ := commit_of_step hw hr hi hexec
            rw [hrows] at hc
            rw [rowsOf, hrows]
            obtain ⟨db', hdb', hrun'⟩ := hallowed.records t rfl _ db hdb hlearned hc
            exact ⟨db', hdb', Run.trans hrun hrun'⟩

/-- The rows that two closures leave, with the event of the first. -/
theorem refines_run_of_closures : (∃ db₀ db, Represents sampleRows db₀ ∧
    Represents (rowsOf sampleClosures) db ∧ OperationLedger.Run sampleRuntime db₀ db) ∧
    (rowsOf sampleClosures).list.length = 3 := by
  obtain ⟨db₀, hrep⟩ := exists_represents initial_sampleCalls.constrained
  obtain ⟨db, hdb, hrun⟩ := refines_run initial_sampleCalls hrep reachable_sampleClosures
  exact ⟨⟨db₀, db, hrep, hdb, hrun⟩, by decide +kernel⟩

/-! ### Effects -/

/-- What the commit of a call does at one moment: nothing, or the call as a single transaction,
unless a lock has appeared that the call has looked for in vain. -/
def TookEffect (rt : Runtime) (q : LockedCall) (t i : ℕ) (s s' : SystemState) (resp : Response) :
    Prop :=
  ∀ db, Represents (rowsOf s) db → (rowsOf s' = rowsOf s ∧ q.Unchanged (rowsOf s) resp) ∨
    Overtaken q t (historyOf i s.trace) (rowsOf s) ∨
      ∃ drawn projected db', atomic rt drawn q { db with jobs := projected } = .ok (resp, db') ∧
        Represents (rowsOf s') db'

/-- The commit behind an answer. -/
theorem commit_of_answer (h : (system rt).Reachable (· = w₀) st) {q : LockedCall}
    {resp : Response} (hdone : st.programs[i]? = some (.done (.ok resp)))
    (hreq : requestOf (historyOf i st.trace) = some (.locked q)) : ∃ t later earlier,
      st.trace = later ++ (i, ⟨.commit t, .ok ()⟩) :: earlier ∧
      requestOf (historyOf i earlier) = some (.locked q) ∧
      TakesEffect rt q t (historyOf i earlier) resp := by
  obtain ⟨t, past, hpast, heffect⟩ := Contract.ends_of_reachable (D := contract rt)
    (fun _ => follows_of_entry) h hdone q resp hreq rfl
  have happend : historyOf i st.trace = [] ++ ⟨.commit t, .ok ()⟩ :: past := hpast
  obtain ⟨later, earlier, htrace, rfl⟩ := historyOf_eq_append happend
  refine ⟨t, later, earlier, htrace, ?_, heffect⟩
  obtain ⟨s, s', k, hreach, -, -, rfl, -, hprogram, -⟩ := exists_call h htrace
  have hallowed := Contract.allowed_of_reachable (fun _ => follows_of_entry) hreach hprogram
  obtain ⟨e, hmem, -⟩ := hallowed.own t rfl
  rw [hpast] at hreq
  rwa [← requestOf_of_suffix (List.suffix_cons _ _) (List.ne_nil_of_mem hmem)]

theorem tookEffect_of_commit (hw : Initial w₀) (h : (system rt).Reachable (· = w₀) st)
    {k : Except Fault Unit → Program (Command Row Key (Outer Request))
      (fun c => Except Fault (Reply Outer.Answer c)) (Except Fault Response)}
    (hi : st.programs[i]? = some (.call (.commit t) k))
    (hexec : (system rt).exec st.world (.commit t) (.ok ()) st'.world) {q : LockedCall}
    {resp : Response} (heffect : TakesEffect rt q t (historyOf i st.trace) resp) :
    TookEffect rt q t i st st' resp := by
  intro db hdb
  obtain ⟨hrows, hlearned, hc⟩ := commit_of_step hw h hi hexec
  rw [hrows] at hc
  have hrows : rowsOf st' = (rowsOf st).putAll (writesOf t (historyOf i st.trace)) := hrows
  rcases heffect (rowsOf st) db hdb hlearned hc with ⟨hnothing, hunchanged⟩ | hovertaken | hdone
  · refine .inl ⟨?_, hunchanged⟩
    rw [hrows, hnothing]
    rfl
  · exact .inr (.inl hovertaken)
  · rw [← hrows] at hdone
    exact .inr (.inr hdone)

/-- A locked call that answers has taken effect at one moment while it ran. -/
theorem answered_call_takes_effect (hw : Initial w₀) (h : (system rt).Reachable (· = w₀) st)
    {q : LockedCall} {resp : Response} (hdone : st.programs[i]? = some (.done (.ok resp)))
    (hreq : requestOf (historyOf i st.trace) = some (.locked q)) : ∃ t s s',
      (system rt).Reachable (· = w₀) s ∧ (system rt).Step s s' ∧
      Relation.ReflTransGen (system rt).Step s' st ∧
      s'.trace = (i, ⟨.commit t, .ok ()⟩) :: s.trace ∧
      requestOf (historyOf i s.trace) = some (.locked q) ∧
      (∃ db, Represents (rowsOf s) db) ∧ TookEffect rt q t i s s' resp := by
  obtain ⟨t, later, earlier, htrace, hreq', heffect⟩ := commit_of_answer h hdone hreq
  obtain ⟨s, s', k, hreach, hstep, hsteps, rfl, htrace', hprogram, hexec⟩ := exists_call h htrace
  exact ⟨t, s, s', hreach, hstep, hsteps, htrace', hreq',
    exists_represents (constrained_of_reachable hw hreach),
    tookEffect_of_commit hw hreach hprogram hexec heffect⟩

theorem answered_call_takes_effect_of_closure : ∃ t s s',
    (system sampleRuntime).Step s s' ∧ s'.trace = (0, ⟨.commit t, .ok ()⟩) :: s.trace ∧
      (∃ db, Represents (rowsOf s) db) ∧
      TookEffect sampleRuntime sampleClosure t 0 s s' (.flag true) := by
  obtain ⟨t, s, s', -, hstep, -, htrace, -, hrep, heffect⟩ := answered_call_takes_effect
    initial_sampleCalls reachable_sampleClosures closed_sampleClosures request_sampleClosures
  exact ⟨t, s, s', hstep, htrace, hrep, heffect⟩

/-! ### Closure before dispatch -/

section Closure

variable {operationId lockId : Str} {a : Append} {db db' : Db} {drawn : Draw}

/-- What a closure that answers true has found and done. -/
theorem of_preDispatchFailure
    (h : OperationLedger.transitionPreDispatchFailure rt drawn operationId lockId a db =
      .ok (true, db')) : ∃ operation lock closed,
      db.operations.get operationId = some operation ∧ operation.status = .planned ∧
      db.recovery.get operationId = none ∧ db.locks.get lockId = some lock ∧
      lock.ownerId = operationId ∧ locksTarget operation lock = true ∧
      db'.operations.get operationId = some closed ∧ closed.status = .failed ∧
      db'.recovery = db.recovery := by
  simp only [OperationLedger.transitionPreDispatchFailure, bind_eq_ok, orRaise_eq_ok] at h
  obtain ⟨operation, hget, h⟩ := h
  split at h
  · cases h
  rename_i hplanned
  split at h
  · cases h
  rename_i hnone
  split at h
  · cases h
  rename_i lock hlock
  split at h
  · rename_i hexact
    obtain ⟨⟨row', mid⟩, happend, hdone⟩ := bind_eq_ok.mp h
    cases hdone
    obtain ⟨row, events, operations, hrow, -, -, -, rfl, hput, rfl⟩ := appendInSession_eq_ok happend
    rw [hget] at hrow
    cases hrow
    refine ⟨operation, lock, applyProjection rt drawn operation { a with
      nextStatus := some .failed, actor := none, expectedStatuses := some [.planned] }, hget,
      not_not.mp hplanned, ?_, hlock, hexact.1, hexact.2, ?_, ?_, rfl⟩
    · simpa using hnone
    · have hkey : operation.operationId = operationId := Table.key_of_get hget
      refine (Table.get_put hput operationId).trans ?_
      rw [applyProjection_operationId, if_pos hkey, hget]
      rfl
    · rfl
  · cases h

/-- A planned operation that a closure has found, with its lock, and that it has closed. -/
structure Closed (operationId lockId : Str) (s s' : SystemState) : Prop where
  found : ∃ operation lock, (rowsOf s).get (.operation operationId) = some (.operation operation) ∧
    operation.status = .planned ∧ (rowsOf s).get (.lock lockId) = some (.lock lock) ∧
    lock.ownerId = operationId ∧ locksTarget operation lock = true
  unclaimed : (rowsOf s).get (.recovery operationId) = none
  closed : ∃ operation, (rowsOf s').get (.operation operationId) = some (.operation operation) ∧
    operation.status = .failed

theorem closed_of_tookEffect {s s' : SystemState} (hrep : ∃ db, Represents (rowsOf s) db)
    (heffect : TookEffect rt (.preDispatchFailure operationId lockId a) t i s s' (.flag true)) :
    Closed operationId lockId s s' := by
  obtain ⟨db, hdb⟩ := hrep
  rcases heffect db hdb with ⟨-, hunchanged⟩ | ⟨_, _, _, _, _, hq, -⟩ |
    ⟨drawn, projected, db', hatomic, hdb'⟩
  · cases hunchanged
  · cases hq
  · simp only [atomic, bind_eq_ok, pure_eq_ok] at hatomic
    obtain ⟨⟨b, mid⟩, hclosure, heq⟩ := hatomic
    cases heq
    obtain ⟨operation, lock, closed, hget, hplanned, hnone, hlock, howner, hexact, hclosed, hfailed,
      -⟩ := of_preDispatchFailure hclosure
    refine ⟨⟨operation, lock, ?_, hplanned, ?_, howner, hexact⟩, ?_, ⟨closed, ?_, hfailed⟩⟩
    · exact (hdb.operations _).trans (congrArg _ hget)
    · exact (hdb.locks _).trans (congrArg _ hlock)
    · exact (hdb.recovery _).trans (congrArg _ hnone)
    · exact (hdb'.operations _).trans (congrArg _ hclosed)

/-- A failed operation stays failed. -/
theorem failed_of_later {v v' : Row} (hlater : Later v v') {operation : OperationRecord}
    (hv : v = .operation operation) (hfailed : operation.status = .failed) :
    ∃ operation', v' = .operation operation' ∧ operation'.status = .failed := by
  cases hlater with
  | event | recovery | lock => cases hv
  | @operation r r' hmoves =>
      cases hv
      refine ⟨r', rfl, ?_⟩
      have hstatus := hmoves.status
      rw [hfailed] at hstatus
      rcases Relation.ReflTransGen.cases_head hstatus with heq | ⟨s, hs, -⟩
      · exact heq.symm
      · exact absurd hs List.not_mem_nil

/-- An operation that was closed is not found planned again. -/
theorem Closed.not_planned {lockId' : Str} {s s' s₁ s₁' : SystemState} (hw : Initial w₀)
    (hclosed : Closed operationId lockId s s') (hreach : (system rt).Reachable (· = w₀) s')
    (hsteps : Relation.ReflTransGen (system rt).Step s' s₁)
    (hagain : Closed operationId lockId' s₁ s₁') : False := by
  obtain ⟨operation, hget, hfailed⟩ := hclosed.closed
  obtain ⟨v, hv, hlater⟩ := later_of_steps hw hreach hsteps hget
  obtain ⟨operation', rfl, hfailed'⟩ := failed_of_later hlater rfl hfailed
  obtain ⟨found, lock, hfound, hplanned, -⟩ := hagain.found
  rw [hv] at hfound
  cases hfound
  rw [hplanned] at hfailed'
  cases hfailed'

/-- The commit of a closure that has answered true. -/
theorem closed_of_commit {later earlier : Traces Row Key (Outer Request) Outer.Answer Fault}
    (hw : Initial w₀) (h : (system rt).Reachable (· = w₀) st)
    (htrace : st.trace = later ++ (i, ⟨.commit t, .ok ()⟩) :: earlier)
    (heffect : TakesEffect rt (.preDispatchFailure operationId lockId a) t (historyOf i earlier)
      (.flag true)) : ∃ s s', (system rt).Reachable (· = w₀) s ∧ (system rt).Step s s' ∧
      Relation.ReflTransGen (system rt).Step s' st ∧ s.trace = earlier ∧
      s'.trace = (i, ⟨.commit t, .ok ()⟩) :: earlier ∧ Closed operationId lockId s s' := by
  obtain ⟨s, s', k, hreach, hstep, hsteps, rfl, htrace', hprogram, hexec⟩ := exists_call h htrace
  exact ⟨s, s', hreach, hstep, hsteps, rfl, htrace', closed_of_tookEffect
    (exists_represents (constrained_of_reachable hw hreach))
    (tookEffect_of_commit hw hreach hprogram hexec heffect)⟩

/-- A closure before dispatch that answers true has, at the commit of its transaction, found the
operation planned, without a recovery item and with its own open lock; the operation has failed for
good, and no other closure of it answers true. -/
theorem closure_has_one_owner (hw : Initial w₀) (h : (system rt).Reachable (· = w₀) st)
    (hdone : st.programs[i]? = some (.done (.ok (.flag true))))
    (hreq : requestOf (historyOf i st.trace) =
      some (.locked (.preDispatchFailure operationId lockId a))) :
    (∃ s s' t, (system rt).Reachable (· = w₀) s ∧ (system rt).Step s s' ∧
      Relation.ReflTransGen (system rt).Step s' st ∧
      s'.trace = (i, ⟨.commit t, .ok ()⟩) :: s.trace ∧
      requestOf (historyOf i s.trace) =
        some (.locked (.preDispatchFailure operationId lockId a)) ∧
      Closed operationId lockId s s') ∧
    (∃ operation, (rowsOf st).get (.operation operationId) = some (.operation operation) ∧
      operation.status = .failed) ∧
    ∀ j lockId' a', j ≠ i → st.programs[j]? = some (.done (.ok (.flag true))) →
      requestOf (historyOf j st.trace) ≠
        some (.locked (.preDispatchFailure operationId lockId' a')) := by
  obtain ⟨t, later, earlier, htrace, hrequest, heffect⟩ := commit_of_answer h hdone hreq
  obtain ⟨s, s', hreach, hstep, hsteps, hearlier, hcommit, hclosed⟩ :=
    closed_of_commit hw h htrace heffect
  refine ⟨⟨s, s', t, hreach, hstep, hsteps, hearlier.symm ▸ hcommit, hearlier.symm ▸ hrequest,
    hclosed⟩, ?_, fun j lockId' a' hne hdone' hreq' => ?_⟩
  · obtain ⟨operation, hget, hfailed⟩ := hclosed.closed
    obtain ⟨v, hv, hlater⟩ := later_of_steps hw (hreach.step hstep) hsteps hget
    obtain ⟨operation', rfl, hfailed'⟩ := failed_of_later hlater rfl hfailed
    exact ⟨operation', hv, hfailed'⟩
  · obtain ⟨t', later', earlier', htrace', -, heffect'⟩ := commit_of_answer h hdone' hreq'
    -- one of the two commits came first
    rw [htrace] at htrace'
    rcases List.append_eq_append_iff.mp htrace' with ⟨between, -, hbetween⟩ | ⟨between, -, hbetween⟩
    · cases between with
      | nil =>
          cases hbetween
          exact hne rfl
      | cons x between =>
          have hinside := (List.cons.inj hbetween).2
          obtain ⟨s₁, s₁', hreach₁, hstep₁, hsteps₁, -, -, hclosed₁⟩ :=
            closed_of_commit hw hreach (hearlier.trans hinside) heffect'
          exact hclosed₁.not_planned hw (hreach₁.step hstep₁) hsteps₁ hclosed
    · cases between with
      | nil =>
          cases hbetween
          exact hne rfl
      | cons x between =>
          have hinside := (List.cons.inj hbetween).2
          obtain ⟨s₁, s₁', hreach₁, hstep₁, hsteps₁, hearlier₁, -, hclosed₁⟩ :=
            closed_of_commit hw h (htrace.trans htrace') heffect'
          obtain ⟨s₂, s₂', hreach₂, hstep₂, hsteps₂, -, -, hclosed₂⟩ :=
            closed_of_commit hw hreach₁ (hearlier₁.trans hinside) heffect
          exact hclosed₂.not_planned hw (hreach₂.step hstep₂) hsteps₂ hclosed₁

/-- The first of two closures that began together. -/
theorem closure_has_one_owner_of_two :
    (∃ s s' t, (system sampleRuntime).Step s s' ∧
      s'.trace = (0, ⟨.commit t, .ok ()⟩) :: s.trace ∧
      Closed "vm-start-1" "operation-lock-1" s s') ∧
    (∃ operation, (rowsOf sampleClosures).get (.operation "vm-start-1") =
      some (.operation operation) ∧ operation.status = .failed) ∧
    sampleClosures.programs.map Program.isDone = [true, true] := by
  obtain ⟨⟨s, s', t, -, hstep, -, hcommit, -, hclosed⟩, hfailed, -⟩ :=
    closure_has_one_owner initial_sampleCalls
      reachable_sampleClosures closed_sampleClosures request_sampleClosures
  exact ⟨⟨s, s', t, hstep, hcommit, hclosed⟩, hfailed, by decide +kernel⟩

end Closure

end Gjallar.Coordination

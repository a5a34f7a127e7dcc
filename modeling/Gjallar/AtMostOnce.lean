import Gjallar.ExecutionContract
import Gjallar.ExecutionEffects

/-!
# At most one dispatch for each operation

Only the process that created an operation dispatches it, and an operation is created once. What
the processes have seen of an operation keeps its intent, so that a request with another intent
neither dispatches nor returns.
-/
namespace Gjallar.Execution

open Gjallar.Text Gjallar.Data Gjallar.Tables Gjallar.Operation Gjallar.OperationStore
  Gjallar.RecoveryStore Gjallar.VmAdmission Gjallar.Processes Gjallar.ChangeServices
  Gjallar.TaskIdentity

abbrev Events := Trace Command Reply

/-! ### What a trace records -/

/-- What follows for a trace from the order in which commands are allowed. -/
structure Recorded (rt : Runtime) (t : Events) : Prop where
  arrivals : ∀ i svc nodeId vmid request, (i, ⟨.receive svc nodeId vmid request, ()⟩) ∈ t →
    (historyOf i t).getLast? = some ⟨.receive svc nodeId vmid request, ()⟩
  preparations : ∀ i q r, (i, ⟨.prepare q, r⟩) ∈ t → ∃ svc nodeId vmid request actor before,
    q = svc.admission rt nodeId vmid request actor before ∧
      (i, ⟨.receive svc nodeId vmid request, ()⟩) ∈ t
  dispatches : ∀ i svc nodeId vmid request operation answer,
    (i, ⟨.dispatch svc nodeId vmid request operation, answer⟩) ∈ t →
      operation.operationId = svc.operationId rt nodeId vmid request ∧
      ∃ actor before stored lease,
        (i, ⟨.prepare (svc.admission rt nodeId vmid request actor before),
          .ok (stored, some lease)⟩) ∈ t
  unclaimed : ∀ i e e', (i, e) ∈ t → (i, e') ∈ t → claims e = true → dispatched e' = none
  replies : ∀ i e, (i, e) ∈ t → Possible e.command e.reply

theorem recorded_nil (rt : Runtime) : Recorded rt [] :=
  ⟨by simp, by simp, by simp, by simp, by simp⟩

theorem dispatched_eq_some {e : Event Command Reply} {id : Str} (h : dispatched e = some id) :
    ∃ svc nodeId vmid request operation answer,
      e = ⟨.dispatch svc nodeId vmid request operation, answer⟩ ∧ operation.operationId = id := by
  obtain ⟨c, r⟩ := e
  cases c <;> cases h
  exact ⟨_, _, _, _, _, _, rfl, rfl⟩

theorem created_eq_some {e : Event Command Reply} {id : Str} (h : created e = some id) :
    ∃ q stored lease, e = ⟨.prepare q, .ok (stored, some lease)⟩ ∧ q.operationId = id := by
  obtain ⟨c, r⟩ := e
  cases c with
  | prepare q =>
      rcases r with e | ⟨stored, _ | lease⟩
      · cases h
      · cases h
      · cases h
        exact ⟨q, stored, lease, rfl, rfl⟩
  | _ => cases h

variable {rt : Runtime} {cluster : Str} {w w' : World} {t : Events} {i : ℕ} {c : Command}
  {r : Reply c}

theorem Recorded.cons (h : Recorded rt t) (hc : Allowed rt (historyOf i t) c)
    (hp : Possible c r) : Recorded rt ((i, ⟨c, r⟩) :: t) := by
  refine ⟨?_, ?_, ?_, ?_, ?_⟩
  · intro j svc nodeId vmid request hmem
    rcases List.mem_cons.mp hmem with heq | hmem
    · cases heq
      have hfirst : historyOf i t = [] := hc
      rw [historyOf_cons_self, hfirst]
      rfl
    · have hlast := h.arrivals j svc nodeId vmid request hmem
      by_cases hj : i = j
      · subst hj
        rw [historyOf_cons_self, List.getLast?_cons, hlast]
        rfl
      · rw [historyOf_cons_ne hj, hlast]
  · intro j q answer hmem
    rcases List.mem_cons.mp hmem with heq | hmem
    · cases heq
      obtain ⟨svc, nodeId, vmid, request, actor, before, hq, hreceived⟩ := hc
      exact ⟨svc, nodeId, vmid, request, actor, before, hq,
        List.mem_cons_of_mem _ (mem_historyOf.mp hreceived)⟩
    · obtain ⟨svc, nodeId, vmid, request, actor, before, hq, hreceived⟩ :=
        h.preparations j q answer hmem
      exact ⟨svc, nodeId, vmid, request, actor, before, hq, List.mem_cons_of_mem _ hreceived⟩
  · intro j svc nodeId vmid request operation answer hmem
    rcases List.mem_cons.mp hmem with heq | hmem
    · cases heq
      have hd : DispatchAllowed rt (historyOf i t) svc nodeId vmid request operation := hc
      obtain ⟨actor, before, stored, lease, hprepare⟩ := hd.admitted
      exact ⟨hd.target, actor, before, stored, lease,
        List.mem_cons_of_mem _ (mem_historyOf.mp hprepare)⟩
    · obtain ⟨hid, actor, before, stored, lease, hprepare⟩ :=
        h.dispatches j svc nodeId vmid request operation answer hmem
      exact ⟨hid, actor, before, stored, lease, List.mem_cons_of_mem _ hprepare⟩
  · intro j e e' hmem hmem' hclaims
    rcases List.mem_cons.mp hmem with heq | he <;> rcases List.mem_cons.mp hmem' with heq' | he'
    · cases heq
      cases heq'
      cases c <;> first | rfl | cases hclaims
    · cases heq
      have hnone : ∀ e ∈ historyOf i t, dispatched e = none := by
        cases c with
        | claimDue => exact hc
        | claimOperation => exact hc
        | _ => cases hclaims
      exact hnone e' (mem_historyOf.mpr he')
    · cases heq'
      cases c with
      | dispatch svc nodeId vmid request operation =>
          have hd : DispatchAllowed rt (historyOf i t) svc nodeId vmid request operation := hc
          rw [hd.unclaimed e (mem_historyOf.mpr he)] at hclaims
          cases hclaims
      | _ => rfl
    · exact h.unclaimed j e e' he he' hclaims
  · intro j e hmem
    rcases List.mem_cons.mp hmem with heq | hmem
    · cases heq
      exact hp
    · exact h.replies j e hmem

/-! ### What the database keeps of a trace -/

/-- The operations of a trace are in the database with the intent that was seen, and each was
created by one process. -/
structure Stored (w : World) (t : Events) : Prop where
  rows : ∀ id ∈ w.admitted, ∃ row, w.db.operations.get id = some row
  creations : ∀ i e id, (i, e) ∈ t → created e = some id → id ∈ w.admitted
  once : ∀ i j e e' id, (i, e) ∈ t → (j, e') ∈ t → created e = some id →
    created e' = some id → i = j
  intents : ∀ i e seen, (i, e) ∈ t → snapshot e = some seen → ∃ row,
    w.db.operations.get seen.operationId = some row ∧ row.intentDigest = seen.intentDigest

/-- No operation disappears or changes its intent. -/
def IntentsKept (w w' : World) : Prop :=
  ∀ id row, w.db.operations.get id = some row → ∃ row', w'.db.operations.get id = some row' ∧
    row'.intentDigest = row.intentDigest

theorem Effect.intentsKept (h : Effect rt w w' c r) : IntentsKept w w' := by
  intro id row hrow
  cases h with
  | kept hops => exact ⟨row, by rw [hops, hrow], rfl⟩
  | admission draws operation lease hcreates hstored _ hothers =>
      refine ⟨row, ?_, rfl⟩
      rw [hothers id, hrow]
      rintro rfl
      rw [hcreates.absent] at hrow
      cases hrow
  | @commit lease o _ before after item hcommits =>
      by_cases hid : id = lease.operationId
      · subst hid
        have heq : row = before := Option.some.inj (hrow.symm.trans hcommits.before)
        exact ⟨after, hcommits.after, heq ▸ hcommits.intentDigest⟩
      · exact ⟨row, by rw [hcommits.others id hid, hrow], rfl⟩

/-- The snapshot that a call returns is what is stored after it. -/
theorem Effect.snapshot_stored (h : Effect rt w w' c r) {seen : OperationSnapshot}
    (hseen : snapshot ⟨c, r⟩ = some seen) :
    w'.db.operations.get seen.operationId = some seen := by
  cases h with
  | kept hops _ _ hkept => rw [hops, hkept seen hseen]
  | @admission q answer draws operation lease _ hstored hid _ _ _ hreply =>
      cases answer with
      | error e => cases hseen
      | ok answer =>
          rw [hreply answer rfl] at hseen
          cases hseen
          rw [hid, hstored]
  | @commit lease o answer before after item hcommits _ hreply =>
      cases answer with
      | error e => cases hseen
      | ok answer =>
          rw [hreply answer rfl] at hseen
          cases hseen
          have hid := Table.key_of_get hcommits.after
          rw [hid, hcommits.after]

theorem Effect.admitted_subset (h : Effect rt w w' c r) : ∀ id ∈ w.admitted, id ∈ w'.admitted := by
  intro id hid
  cases h with
  | kept _ _ hadmitted => exact hadmitted ▸ hid
  | admission _ _ _ _ _ _ _ _ hadmitted => exact hadmitted ▸ List.mem_cons_of_mem _ hid
  | commit _ _ _ _ hadmitted => exact hadmitted ▸ hid

/-- A call that creates an operation finds none with its id. -/
theorem Effect.absent_of_created (h : Effect rt w w' c r) {id : Str}
    (hcreated : created ⟨c, r⟩ = some id) :
    w.db.operations.get id = none ∧ id ∈ w'.admitted := by
  cases h with
  | kept _ _ _ _ hnot _ =>
      rw [hnot] at hcreated
      cases hcreated
  | admission draws operation lease hcreates _ _ _ _ hadmitted =>
      obtain ⟨q, stored, lease, heq, rfl⟩ := created_eq_some hcreated
      cases heq
      exact ⟨hcreates.absent, hadmitted ▸ List.mem_cons_self⟩
  | commit => cases hcreated

theorem Effect.rows (h : Effect rt w w' c r)
    (hrows : ∀ id ∈ w.admitted, ∃ row, w.db.operations.get id = some row) :
    ∀ id ∈ w'.admitted, ∃ row, w'.db.operations.get id = some row := by
  have hkept : ∀ id ∈ w.admitted, ∃ row, w'.db.operations.get id = some row := by
    intro id hid
    obtain ⟨row, hrow⟩ := hrows id hid
    obtain ⟨row', hrow', -⟩ := h.intentsKept id row hrow
    exact ⟨row', hrow'⟩
  cases h with
  | kept _ _ hadmitted => exact hadmitted ▸ hkept
  | admission _ operation _ _ hstored _ _ _ hadmitted =>
      rw [hadmitted, List.forall_mem_cons]
      exact ⟨⟨operation, hstored⟩, hkept⟩
  | commit _ _ _ _ hadmitted => exact hadmitted ▸ hkept

theorem Stored.cons (h : Stored w t) (he : Effect rt w w' c r) :
    Stored w' ((i, ⟨c, r⟩) :: t) := by
  refine ⟨he.rows h.rows, ?_, ?_, ?_⟩
  · intro j e id hmem hcreated
    rcases List.mem_cons.mp hmem with heq | hmem
    · cases heq
      exact (he.absent_of_created hcreated).2
    · exact he.admitted_subset id (h.creations j e id hmem hcreated)
  · -- A second creation would find the operation that the first one stored.
    have hfresh : ∀ j e id, (j, e) ∈ t → created e = some id →
        created ⟨c, r⟩ = some id → False := by
      intro j e id hmem hcreated hagain
      obtain ⟨row, hrow⟩ := h.rows id (h.creations j e id hmem hcreated)
      rw [(he.absent_of_created hagain).1] at hrow
      cases hrow
    intro j k e e' id hmem hmem' hcreated hcreated'
    rcases List.mem_cons.mp hmem with heq | hmem <;>
      rcases List.mem_cons.mp hmem' with heq' | hmem'
    · cases heq
      cases heq'
      rfl
    · cases heq
      exact (hfresh k e' id hmem' hcreated' hcreated).elim
    · cases heq'
      exact (hfresh j e id hmem hcreated hcreated').elim
    · exact h.once j k e e' id hmem hmem' hcreated hcreated'
  · intro j e seen hmem hseen
    rcases List.mem_cons.mp hmem with heq | hmem
    · cases heq
      exact ⟨seen, he.snapshot_stored hseen, rfl⟩
    · obtain ⟨row, hrow, hintent⟩ := h.intents j e seen hmem hseen
      obtain ⟨row', hrow', hintent'⟩ := he.intentsKept _ row hrow
      exact ⟨row', hrow', hintent'.trans hintent⟩

theorem Stored.foreign (h : Stored w t) (hf : Foreign w w') : Stored w' t := by
  refine ⟨fun id hid => ?_, fun j e id hmem hcreated => ?_, h.once, fun j e seen hmem hseen => ?_⟩
  · rw [hf.admitted] at hid
    rw [hf.operations id hid]
    exact h.rows id hid
  · rw [hf.admitted]
    exact h.creations j e id hmem hcreated
  · obtain ⟨row, hrow, hintent⟩ := h.intents j e seen hmem hseen
    obtain ⟨row', hrow', hintent'⟩ := hf.intents _ row hrow
    exact ⟨row', hrow', hintent'.trans hintent⟩

/-! ### Dispatches -/

/-- A process that has dispatched an operation has created it. -/
theorem Recorded.creation_of_dispatch (h : Recorded rt t) {e : Event Command Reply} {id : Str}
    (hmem : (i, e) ∈ t) (hd : dispatched e = some id) :
    ∃ e', (i, e') ∈ t ∧ created e' = some id := by
  obtain ⟨svc, nodeId, vmid, request, operation, answer, rfl, rfl⟩ := dispatched_eq_some hd
  obtain ⟨hid, actor, before, stored, lease, hprepare⟩ := h.dispatches _ _ _ _ _ _ _ hmem
  exact ⟨_, hprepare, congrArg some hid.symm⟩

def DispatchedOnce (t : Events) : Prop :=
  ∀ id, (t.filter fun e => dispatched e.2 = some id).length ≤ 1

theorem dispatchedOnce_cons (hr : Recorded rt t) (hs : Stored w t) (h : DispatchedOnce t)
    (hc : Allowed rt (historyOf i t) c) (hp : Possible c r) :
    DispatchedOnce ((i, ⟨c, r⟩) :: t) := by
  intro id
  by_cases hd : dispatched ⟨c, r⟩ = some id
  · have hnone : (t.filter fun e => dispatched e.2 = some id) = [] := by
      rw [List.filter_eq_nil_iff]
      rintro ⟨j, e⟩ hmem he
      have he' : dispatched e = some id := of_decide_eq_true he
      obtain ⟨e₁, hmem₁, hcreated₁⟩ := hr.creation_of_dispatch hmem he'
      obtain ⟨e₂, hmem₂, hcreated₂⟩ :=
        (hr.cons hc hp).creation_of_dispatch List.mem_cons_self hd
      cases c with
      | dispatch svc nodeId vmid request operation =>
          rcases List.mem_cons.mp hmem₂ with heq | hmem₂
          · cases heq
            cases hcreated₂
          have hj : j = i := hs.once j i e₁ e₂ id hmem₁ hmem₂ hcreated₁ hcreated₂
          have hallowed : DispatchAllowed rt (historyOf i t) svc nodeId vmid request operation :=
            hc
          exact hallowed.once e (mem_historyOf.mpr (hj ▸ hmem)) (he'.trans hd.symm)
      | _ => cases hd
    rw [List.filter_cons_of_pos (by simpa using hd), hnone]
    exact le_refl 1
  · rw [List.filter_cons_of_neg (by simpa using hd)]
    exact h id

/-- Everything that holds of database and trace in a reachable state. -/
theorem invariant_of_reachable {s : State Command Reply Outcome World}
    (h : (system rt cluster).Reachable Initial s) :
    Recorded rt s.trace ∧ Stored s.world s.trace ∧ DispatchedOnce s.trace := by
  refine Contract.invariant (D := contract rt)
    (I := fun w t => Recorded rt t ∧ Stored w t ∧ DispatchedOnce t) follows_of_entry ?_ ?_ ?_ h
  · intro w hw
    refine ⟨recorded_nil rt, ⟨?_, by simp, by simp, by simp⟩, fun id => by simp⟩
    have hnone : w.admitted = [] := hw
    simp [hnone]
  · intro w t i c r w' ⟨hr, hs, honce⟩ hc hexec
    have hp : Possible c r := possible_of_exec hexec
    exact ⟨hr.cons hc hp, hs.cons (exec_effect hexec), dispatchedOnce_cons hr hs honce hc hp⟩
  · intro w t w' ⟨hr, hs, honce⟩ henv
    exact ⟨hr, hs.foreign henv, honce⟩

/-- A process whose request has another intent than the stored operation sees no operation with
its own intent, and neither creates nor dispatches one. -/
theorem no_dispatch_of_conflict (hr : Recorded rt t) (hs : Stored w t) {svc : Service}
    {nodeId : Str} {vmid : ℤ} {request : Request} {row : OperationRecord}
    (hreceived : (i, ⟨.receive svc nodeId vmid request, ()⟩) ∈ t)
    (hrow : w.db.operations.get (svc.operationId rt nodeId vmid request) = some row)
    (hintent : row.intentDigest ≠ svc.intentDigest rt nodeId vmid request) :
    (∀ e ∈ historyOf i t, ∀ seen, snapshot e = some seen →
      seen.operationId = svc.operationId rt nodeId vmid request →
      seen.intentDigest ≠ svc.intentDigest rt nodeId vmid request) ∧
    (∀ q a, ⟨.prepare q, .ok a⟩ ∉ historyOf i t) ∧ ∀ e ∈ historyOf i t, dispatched e = none := by
  have hseen : ∀ e ∈ historyOf i t, ∀ seen, snapshot e = some seen →
      seen.operationId = svc.operationId rt nodeId vmid request →
      seen.intentDigest ≠ svc.intentDigest rt nodeId vmid request := by
    intro e hmem seen hsnapshot hid
    obtain ⟨row', hrow', heq⟩ := hs.intents i e seen (mem_historyOf.mp hmem) hsnapshot
    rw [hid, hrow] at hrow'
    cases hrow'
    exact heq ▸ hintent
  have hprepare : ∀ q a, ⟨.prepare q, .ok a⟩ ∉ historyOf i t := by
    rintro q ⟨operation, lease⟩ hmem
    obtain ⟨svc', nodeId', vmid', request', actor, before, rfl, hreceived'⟩ :=
      hr.preparations i q _ (mem_historyOf.mp hmem)
    have hlast := hr.arrivals _ _ _ _ _ hreceived
    rw [hr.arrivals _ _ _ _ _ hreceived'] at hlast
    cases hlast
    have hp : Possible (.prepare _) _ := hr.replies i _ (mem_historyOf.mp hmem)
    obtain ⟨hid, hdigest, -⟩ := hp operation lease rfl
    exact hseen _ hmem operation rfl hid hdigest
  refine ⟨hseen, hprepare, fun e hmem => ?_⟩
  cases hd : dispatched e with
  | none => rfl
  | some id =>
      obtain ⟨e', hmem', hcreated⟩ := hr.creation_of_dispatch (mem_historyOf.mp hmem) hd
      obtain ⟨q, stored, lease, rfl, -⟩ := created_eq_some hcreated
      exact absurd (mem_historyOf.mpr hmem') (hprepare q _)

/-- In every reachable state each operation has been dispatched at most once, only processes that
received an execute request and claimed no recovery work have dispatched, and a process whose
request has another intent than the stored operation has not dispatched and ends, if it does, with
an exception: the conflict when its lookup found the operation, else what refused the admission,
which is the conflict when the admission finds it. -/
theorem at_most_once_dispatch {s : State Command Reply Outcome World}
    (h : (system rt cluster).Reachable Initial s) :
    (∀ id, (s.trace.filter fun e => dispatched e.2 = some id).length ≤ 1) ∧
    (∀ i e, (i, e) ∈ s.trace → dispatched e ≠ none →
      (∃ svc nodeId vmid request, (i, ⟨.receive svc nodeId vmid request, ()⟩) ∈ s.trace) ∧
      ∀ e', (i, e') ∈ s.trace → claims e' = false) ∧
    ∀ i svc nodeId vmid request, (i, ⟨.receive svc nodeId vmid request, ()⟩) ∈ s.trace →
      ∀ row, s.world.db.operations.get (svc.operationId rt nodeId vmid request) = some row →
      row.intentDigest ≠ svc.intentDigest rt nodeId vmid request →
      (∀ e, (i, e) ∈ s.trace → dispatched e = none) ∧
      (∀ process draws actor before, (svc.admission rt nodeId vmid request actor before).check =
        .ok () → prepare rt process draws (svc.admission rt nodeId vmid request actor before)
          (some row) s.world.db = .error (.operationIntentConflict
            (svc.operationId rt nodeId vmid request))) ∧
      ∀ outcome, s.programs[i]? = some (.done outcome) → ∃ e, outcome = .raised e ∧
        ((∃ existing, (i, ⟨.getOperation (svc.operationId rt nodeId vmid request),
          .ok (some existing)⟩) ∈ s.trace) → e = svc.idempotencyConflict) ∧
        ∀ q e', (i, ⟨.prepare q, .error e'⟩) ∈ s.trace → e = e' := by
  obtain ⟨hr, hs, honce⟩ := invariant_of_reachable h
  refine ⟨honce, fun i e hmem hd => ⟨?_, fun e' hmem' => ?_⟩, ?_⟩
  · obtain ⟨id, hid⟩ := Option.ne_none_iff_exists'.mp hd
    obtain ⟨e', hmem', hcreated⟩ := hr.creation_of_dispatch hmem hid
    obtain ⟨q, stored, lease, rfl, -⟩ := created_eq_some hcreated
    obtain ⟨svc, nodeId, vmid, request, -, -, -, hreceived⟩ := hr.preparations _ _ _ hmem'
    exact ⟨svc, nodeId, vmid, request, hreceived⟩
  · rw [Bool.eq_false_iff]
    exact fun hclaims => hd (hr.unclaimed i e' e hmem' hmem hclaims)
  · intro i svc nodeId vmid request hreceived row hrow hintent
    obtain ⟨hseen, hprepare, hnone⟩ := no_dispatch_of_conflict hr hs hreceived hrow hintent
    refine ⟨fun e hmem => hnone e (mem_historyOf.mpr hmem), fun process draws actor before hcheck =>
      prepare_of_conflict _ hcheck hintent, fun outcome hdone => ?_⟩
    have hends : RequestEnds rt (historyOf i s.trace) svc nodeId vmid request outcome :=
      Contract.ends_of_reachable (D := contract rt) follows_of_entry h hdone svc nodeId vmid
        request (hr.arrivals _ _ _ _ _ hreceived)
    rcases hends.seen with ⟨e, rfl⟩ | ⟨e, hmem, seen, hsnapshot, hid, hdigest⟩
    · refine ⟨e, rfl, ?_, fun q e' hmem => ?_⟩
      · rintro ⟨existing, hmem⟩
        have hmem' := mem_historyOf.mpr hmem
        have hp : Possible (.getOperation _) _ := hr.replies i _ hmem
        have hother := hseen _ hmem' existing rfl (hp existing rfl)
        exact Outcome.raised.inj (hends.lookup hprepare existing hmem' hother)
      · exact Outcome.raised.inj (hends.admission q e' (mem_historyOf.mpr hmem))
    · exact absurd hdigest (hseen e hmem seen hsnapshot hid)

/-! ### A request that nothing interrupts -/

/-- The admission and the commit before the dispatch, with nothing in between. -/
def markDispatching (rt : Runtime) (svc : Service) (process : Admission.Process)
    (draws : ℕ → Draw) (draw : Draw) (q : AdmissionRequest) (db : Db) :
    Except StoreError ((OperationSnapshot × RecoveryItem) × Db) := do
  let ((_, lease), db) ← prepare rt process draws q none db
  let lease ← orRaise lease .integrityError
  commitObservation rt draw lease svc.dispatching db

/-- A process alone issues its next command. -/
theorem answer_of_reachable {w w' : World} {t : Events} {c : Command}
    {k : Reply c → Prog Outcome}
    (h : (system rt cluster).Reachable Initial ⟨w, [.call c k], t⟩) (r : Reply c)
    (hexec : Exec rt cluster w c r w') :
    (system rt cluster).Reachable Initial ⟨w', [k r], (0, ⟨c, r⟩) :: t⟩ :=
  h.step (.call 0 c k r rfl hexec)

section Run

variable {svc : Service} {nodeId : Str} {vmid : ℤ} {request : Request}

/-- From an admission that succeeds a request gets to its dispatch. -/
theorem reachable_dispatch {before : Value} {u v : Unit} {process : Admission.Process}
    {draws : ℕ → Draw} {draw : Draw} {db db' : Db} {operation : OperationSnapshot}
    {item : RecoveryItem} (polls : ℕ) (actor : OperationActor)
    (htarget : svc.validateTarget nodeId vmid = .ok u)
    (hexpected : svc.checkExpected before request = .ok v)
    (habsent : db.operations.get (svc.operationId rt nodeId vmid request) = none)
    (hmark : markDispatching rt svc process draws draw
      (svc.admission rt nodeId vmid request actor before) db = .ok ((operation, item), db')) :
    ∃ k t w, (system rt cluster).Reachable Initial
      ⟨w, [.call (.dispatch svc nodeId vmid request operation) k], t⟩ ∧ w.db = db' := by
  simp only [markDispatching, bind_eq_ok, orRaise_eq_ok] at hmark
  obtain ⟨⟨⟨stored, _⟩, mid⟩, hprepare, lease, rfl, hcommit⟩ := hmark
  have hstart : (system rt cluster).Reachable Initial ⟨⟨db, []⟩, [], []⟩ := .start rfl
  have h := hstart.step (.start _ (.execute svc nodeId vmid request polls actor))
  simp only [Service.execute, Program.send_bind, List.nil_append] at h
  have h := answer_of_reachable h () rfl
  simp only [htarget] at h
  have h := answer_of_reachable h (.ok none) ⟨rfl, .inl (by rw [habsent])⟩
  simp only [Service.lookupFlow, Program.send_bind] at h
  have h := answer_of_reachable h (.ok before) rfl
  simp only [hexpected] at h
  have hexec : Exec rt cluster ⟨db, []⟩
      (.prepare (svc.admission rt nodeId vmid request actor before)) (.ok (stored, some lease))
      ⟨mid, admittedAfter (svc.operationId rt nodeId vmid request) ⟨db, []⟩ mid⟩ :=
    ⟨process, draws, none, .inr rfl, .done hprepare, rfl⟩
  have h := answer_of_reachable h (.ok (stored, some lease)) hexec
  simp only [Service.preparedFlow, Service.admittedFlow, Program.send_bind] at h
  have h := answer_of_reachable h (.ok before) rfl
  simp only [hexpected, Service.dispatchFlow, Program.send_bind] at h
  have hexec : ∀ ids, Exec rt cluster ⟨mid, ids⟩ (.commit lease svc.dispatching)
      (.ok (operation, item)) ⟨db', ids⟩ := fun ids => ⟨draw, .done hcommit, rfl⟩
  exact ⟨_, _, _, answer_of_reachable h (.ok (operation, item)) (hexec _), rfl⟩

end Run

def diskService : Service :=
  { mode := .task, operationType := .vmDiskResize, operationPrefix := "vm-disk-",
    eventPrefix := "vm_disk_", errorPrefix := "VM_DISK_", recoveryKind := "vm_disk_observation",
    taskUnavailable := "VM_DISK_TASK_UNAVAILABLE", clusterId := "lab",
    validateTarget := fun _ _ => .ok (), checkExpected := fun _ _ => .ok (),
    checkReference := fun _ => .ok (), checkBinding := fun _ => .ok (),
    resultMatches := fun _ _ _ => .ok true, prefix_plain := forall_mem_of_all rfl }

def diskRequest : Request := [("idempotency_key", .str "key-1"), ("expected_name", .str "web")]

/-- A disk request on an empty database gets to its dispatch. -/
theorem reachable_disk_dispatch : ∃ operation k t w,
    (system sampleRuntime "lab").Reachable Initial
      ⟨w, [.call (.dispatch diskService "pve" 100 diskRequest operation) k], t⟩ := by
  obtain ⟨⟨⟨operation, item⟩, db'⟩, hmark⟩ := exists_eq_ok (show (markDispatching sampleRuntime
    diskService ⟨none, fun _ => true⟩ (fun _ => sampleDraw)
    ⟨2000000, 2000000, fun _ => ⟨"0b", forall_mem_of_all rfl⟩⟩
    (diskService.admission sampleRuntime "pve" 100 diskRequest {} (.dict [])) {}).isOk = true by
    decide +kernel)
  obtain ⟨k, t, w, h, -⟩ : ∃ k t w, (system sampleRuntime "lab").Reachable Initial
      ⟨w, [.call (.dispatch diskService "pve" 100 diskRequest operation) k], t⟩ ∧ w.db = db' :=
    reachable_dispatch 3 {} rfl rfl rfl hmark
  exact ⟨operation, k, t, w, h⟩

theorem at_most_once_dispatch_of_disk_request :
    ∃ s, (system sampleRuntime "lab").Reachable Initial s ∧
      ∃ id, (s.trace.filter fun e => dispatched e.2 = some id).length = 1 := by
  obtain ⟨operation, k, t, w, h⟩ := reachable_disk_dispatch
  have hdone := answer_of_reachable h (.error .other) rfl
  refine ⟨_, hdone, operation.operationId,
    le_antisymm ((at_most_once_dispatch hdone).1 operation.operationId) ?_⟩
  exact List.length_pos_of_mem (List.mem_filter.mpr ⟨List.mem_cons_self, decide_eq_true rfl⟩)

end Gjallar.Execution

import Gjallar.ObserveRejections

/-!
# Writes before a rejection

A request is followed through the claim of its item, the commit that records it and its run. Once an
item is claimed or prepared its generation is raised, so every rejection after that is one that has
changed the item.
-/
namespace Gjallar.ObserveRejections

open Gjallar.Text Gjallar.Data Gjallar.Tables Gjallar.Operation Gjallar.OperationStore
  Gjallar.OperationLedger Gjallar.Redaction Gjallar.TargetLocks Gjallar.RecoveryStore
  Gjallar.Processes Gjallar.Processes.Fallible Gjallar.ObserveLedger Gjallar.Observer
  Gjallar.LeaseFencing

/-! ### What a rejected request has written -/

/-- The request is rejected when its guarded part ends so. -/
def Rejected : Option (Except Failure Stage) → Prop
  | some (.ok (.ran outcome)) => outcome = "lease_lost"
  | some (.error (.observe e)) => e.code ∈ rejectionCodes
  | some (.error (.store e)) => StoreConflict e
  | _ => False

/-- The guarded part ends in a rejection and has changed the item or the operation. -/
def Wastes (operationId : Str) (p : Option (Except Failure Stage) × Trail) : Prop :=
  Rejected p.1 ∧ ¬ Spared operationId p.2

section Trails

variable {rt : Runtime} {s : Surroundings} {w w' : Trail} {operationId : Str}

theorem not_wastes_of_spared {p : Option (Except Failure Stage) × Trail}
    (h : Spared operationId p.2) : ¬ Wastes operationId p := fun hw => hw.2 h

/-- What a command has changed stays on the trail. -/
theorem not_spared_evaluate {α : Type} (p : Action α) (h : ¬ Spared operationId w) :
    ¬ Spared operationId (evaluate (answer rt s) p w).2 := fun hend =>
  h (Program.evaluate_related (Q := fun w w' => Spared operationId w' → Spared operationId w)
    (fun _ => id) (fun h₁ h₂ hw => h₁ (h₂ hw))
    (fun _ _ hw step hmem => hw step (List.mem_cons_of_mem _ hmem)) p.run w hend)

theorem wastes_iff_of_changed {p : Action Stage} (h : ¬ Spared operationId w) :
    Wastes operationId (evaluate (answer rt s) p w) ↔
      Rejected (evaluate (answer rt s) p w).1 := and_iff_left (not_spared_evaluate p h)

theorem evaluate_bind_ok {α β : Type} {p : Action α} {f : α → Action β} {a : α}
    (h : evaluate (answer rt s) p w = (some (.ok a), w')) :
    evaluate (answer rt s) (p >>= f) w = evaluate (answer rt s) (f a) w' := by
  rw [evaluate_bind, h]

theorem evaluate_bind_error {α β : Type} {p : Action α} {f : α → Action β} {e : Failure}
    (h : evaluate (answer rt s) p w = (some (.error e), w')) :
    evaluate (answer rt s) (p >>= f) w = (some (.error e), w') := by
  rw [evaluate_bind, h]

theorem transaction_eq_error {α : Type} {db : Db} {r : Except StoreError (α × Db)} {f : Failure}
    (h : (transaction db r).1 = .error f) :
    (transaction db r).2 = db ∧ ∃ e, f = .store e ∧ r = .error e := by
  cases r with
  | error e =>
      cases h
      exact ⟨rfl, e, rfl, rfl⟩
  | ok a => cases h

theorem transaction_eq_ok {α : Type} {db : Db} {r : Except StoreError (α × Db)} {a : α}
    (h : (transaction db r).1 = .ok a) : ∃ db', r = .ok (a, db') ∧ (transaction db r).2 = db' := by
  cases r with
  | error e => cases h
  | ok p =>
      cases h
      exact ⟨p.2, rfl, rfl⟩

/-- A database whose generation is raised by a command is on the trail. -/
theorem not_spared_of_raised {c : Command} {reply : Observer.Reply c}
    (h : answer rt s w c = (reply, w'))
    (hraised : generation (s.met w c) operationId <
      generation (perform rt s (s.met w c) c).2 operationId) : ¬ Spared operationId w' := by
  cases h
  exact fun hw => not_untouched hraised (hw _ List.mem_cons_self)

theorem raised_of_claimOf {lease : RecoveryLease} {db db' : Db} (hclaim : ClaimOf lease db db') :
    generation db lease.operationId < generation db' lease.operationId := by
  rw [hclaim.current]
  exact hclaim.raised

end Trails

section Request

variable {rt : Runtime} {s : Surroundings} {c : Coordinator} {r : Admitted}
  {operation : OperationSnapshot} {w w' : Trail}

theorem isConflict_error (e : StoreError) : IsConflict (.error (some e)) ↔ StoreConflict e := by
  cases e <;> exact Iff.rfl

/-- A run is reported as a conflict exactly when it ends in one. -/
theorem run_rejected (lease : RecoveryLease) :
    Rejected (evaluate (answer rt s) (do
      let outcome ← call (Command.run lease)
      return Stage.ran outcome) w).1 ↔ IsConflict (s.run lease (s.met w (.run lease))).1 := by
  have hcall : answer rt s w (.run lease) = ((s.run lease (s.met w (.run lease))).1.mapError
      runFailure, (answer rt s w (.run lease)).2) := rfl
  cases hresult : (s.run lease (s.met w (.run lease))).1 with
  | ok outcome =>
      rw [hresult] at hcall
      rw [evaluate_bind_ok (evaluate_of_answer hcall)]
      exact Iff.rfl
  | error e =>
      rw [hresult] at hcall
      rw [evaluate_bind_error (evaluate_of_answer hcall)]
      cases e with
      | none => exact Iff.rfl
      | some e => exact (isConflict_error e).symm

/-- A resumed run is reported as a conflict exactly when it ends in one. -/
theorem resumed_rejected (lease : RecoveryLease) :
    Rejected (evaluate (answer rt s) (do
      let outcome ← call (Command.run lease)
      let result ← Coordinator.resultOrError r.operationId outcome true
      return Stage.answered result) w).1 ↔
        IsConflict (s.run lease (s.met w (.run lease))).1 := by
  have hcall : answer rt s w (.run lease) = ((s.run lease (s.met w (.run lease))).1.mapError
      runFailure, (answer rt s w (.run lease)).2) := rfl
  cases hresult : (s.run lease (s.met w (.run lease))).1 with
  | error e =>
      rw [hresult] at hcall
      rw [evaluate_bind_error (evaluate_of_answer hcall)]
      cases e with
      | none => exact Iff.rfl
      | some e => exact (isConflict_error e).symm
  | ok outcome =>
      rw [hresult] at hcall
      rw [evaluate_bind_ok (evaluate_of_answer hcall)]
      obtain ⟨result, w', hlast, -, herror, hlost⟩ := @evaluate_resultOrError rt s
        (answer rt s w (.run lease)).2 r.operationId outcome true
      cases result with
      | error f =>
          obtain ⟨e, rfl, he⟩ := herror f rfl
          rw [evaluate_bind_error hlast]
          exact he
      | ok d =>
          rw [evaluate_bind_ok hlast]
          refine iff_of_false id fun h => ?_
          obtain ⟨f, hf⟩ := hlost h
          cases hf

/-- Record the request and run. -/
def recordAndRun (r : Admitted) (operation : OperationSnapshot) (lease : RecoveryLease)
    (records : List ObserveRecord) : Action Stage := do
  let (_, item) ← call (Command.commit lease
    (Coordinator.observationRequested r records operation))
  let outcome ← call (Command.run ⟨item, lease.token⟩)
  return .ran outcome

/-- A request that has its lease is refused at its commit, or its run is reported as a conflict. -/
def Lost (rt : Runtime) (s : Surroundings) (r : Admitted) (operation : OperationSnapshot)
    (lease : RecoveryLease) (records : List ObserveRecord) (w : Trail) : Prop :=
  Refuses rt s r operation lease (s.met w (commitCommand r operation lease records)) ∨
    ∃ operation' item w', answer rt s w (commitCommand r operation lease records) =
      (.ok (operation', item), w') ∧
      IsConflict (s.run ⟨item, lease.token⟩ (s.met w' (.run ⟨item, lease.token⟩))).1

theorem recordAndRun_rejected (lease : RecoveryLease) (records : List ObserveRecord) :
    Rejected (evaluate (answer rt s) (recordAndRun r operation lease records) w).1 ↔
      Lost rt s r operation lease records w := by
  rw [Lost, ← commit_conflict_iff]
  cases hcommit : answer rt s w (commitCommand r operation lease records) with
  | mk reply w' =>
      have hreply := congrArg Prod.fst hcommit
      cases reply with
      | error f =>
          obtain ⟨-, e, rfl, he⟩ := transaction_eq_error hreply
          have hrun : evaluate (answer rt s) (recordAndRun r operation lease records) w = _ :=
            evaluate_bind_error (evaluate_of_answer hcommit)
          rw [hrun, he, fails_error]
          refine ⟨.inl, ?_⟩
          rintro (h | ⟨_, _, _, h, -⟩)
          · exact h
          · cases h
      | ok result =>
          obtain ⟨operation', item⟩ := result
          obtain ⟨db', hok, -⟩ := transaction_eq_ok hreply
          have hrun : evaluate (answer rt s) (recordAndRun r operation lease records) w = _ :=
            evaluate_bind_ok (evaluate_of_answer hcommit)
          rw [hrun, hok, or_iff_right (not_fails_ok _)]
          refine (run_rejected ⟨item, lease.token⟩).trans
            ⟨fun h => ⟨_, _, _, rfl, h⟩, ?_⟩
          rintro ⟨_, _, _, h, hconflict⟩
          cases h
          exact hconflict

end Request

/-! ### Requests for an item that exists -/

section Existing

variable {rt : Runtime} {s : Surroundings} {c : Coordinator} {r : Admitted}
  {operation : OperationSnapshot} {w w' : Trail} {item : RecoveryItem} {lease : RecoveryLease}

/-- The claim of the item of a request, for an operation of this version and checksum. -/
abbrev claim (c : Coordinator) (r : Admitted) (version : ℕ) (checksum : Str) : Command :=
  .claimOperation r.operationId c.owner c.leaseTime version checksum

theorem claimOperation_operationId {owner operationId : Str} {time : Instant} {version : Option ℕ}
    {checksum : Option Str} {draw : Draw} {db db' : Db}
    (h : claimOperation draw operationId owner time version checksum db = .ok (lease, db')) :
    lease.operationId = strip operationId := by
  simp only [claimOperation, bind_eq_ok, raiseIf_eq_ok, orRaise_eq_ok, pure_eq_ok,
    Prod.mk.injEq] at h
  obtain ⟨_, -, _, -, row, hrow, _, -, _, -, _, -, rfl, -⟩ := h
  have hkey := Table.key_of_get hrow
  exact hkey

/-- A claim is seen, and a refused one is not. -/
theorem not_spared_of_claim {version : ℕ} {checksum : Str}
    (hid : strip r.operationId = r.operationId)
    (h : answer rt s w (claim c r version checksum) = (.ok lease, w')) :
    ¬ Spared r.operationId w' := by
  obtain ⟨db', hclaim, hdb⟩ := transaction_eq_ok (congrArg Prod.fst h)
  have hraised := raised_of_claimOf (claimOperation_spec hclaim).2
  rw [claimOperation_operationId hclaim, hid] at hraised
  exact not_spared_of_raised h (hdb ▸ hraised)

theorem spared_of_claim_error {version : ℕ} {checksum operationId : Str} {e : Failure}
    (h : answer rt s w (claim c r version checksum) = (.error e, w'))
    (hw : Spared operationId w) : Spared operationId w' := by
  refine (spared_iff_of_kept ?_ h).mpr hw
  exact (transaction_eq_error (congrArg Prod.fst h)).1

theorem evaluate_leaseIsLive (expiresAt : Option Instant) : ∃ live w',
    evaluate (answer rt s) (Coordinator.leaseIsLive expiresAt) w = (some (.ok live), w') ∧
      ∀ operationId, Spared operationId w → Spared operationId w' := by
  cases expiresAt with
  | none => exact ⟨false, w, rfl, fun _ => id⟩
  | some t => exact ⟨decide (s.clock < t), _, rfl, fun _ => (spared_answer_iff rfl).mpr⟩

/-- The replay of a request resumes an observation whose lease has lapsed. -/
theorem replay_wastes_iff (hid : strip r.operationId = r.operationId)
    (hw : Spared r.operationId w) :
    Wastes r.operationId (evaluate (answer rt s) (Coordinator.replay rt c r operation item) w) ↔
      item.status = .leased ∧ ∃ w₁ lease w₂, evaluate (answer rt s)
          (Coordinator.leaseIsLive item.leaseExpiresAt) w = (some (.ok false), w₁) ∧
        answer rt s w₁ (claim c r operation.version operation.lastEventChecksum) =
          (.ok lease, w₂) ∧ IsConflict (s.run lease (s.met w₂ (.run lease))).1 := by
  unfold Coordinator.replay
  by_cases hleased : item.status = .leased
  swap
  · rw [if_neg hleased]
    refine iff_of_false (not_wastes_of_spared ?_) fun h => hleased h.1
    rw [evaluate_bind, evaluate_checked]
    cases Coordinator.replayObserveResult rt r.operationId operation item <;> exact hw
  rw [if_pos hleased, and_iff_right hleased]
  obtain ⟨live, w₁, hlive, hspared⟩ := @evaluate_leaseIsLive rt s w item.leaseExpiresAt
  rw [evaluate_bind_ok hlive]
  cases live with
  | true =>
      rw [evaluate_bind_error (evaluate_refuseIf _ _ |>.trans (by rw [if_pos rfl]))]
      refine iff_of_false (not_wastes_of_spared (hspared _ hw)) ?_
      rintro ⟨_, _, _, h, -⟩
      rw [hlive] at h
      cases h
  | false =>
      rw [evaluate_bind_ok (evaluate_refuseIf _ _ |>.trans (by rw [if_neg Bool.false_ne_true]))]
      cases hclaim : answer rt s w₁ (claim c r operation.version operation.lastEventChecksum) with
      | mk reply w₂ =>
          cases reply with
          | error e =>
              rw [evaluate_bind_error (evaluate_of_answer hclaim)]
              refine iff_of_false
                (not_wastes_of_spared (spared_of_claim_error hclaim (hspared _ hw))) ?_
              rintro ⟨_, _, _, h, h', -⟩
              rw [hlive] at h
              cases h
              rw [hclaim] at h'
              cases h'
          | ok lease =>
              rw [evaluate_bind_ok (evaluate_of_answer hclaim),
                wastes_iff_of_changed (not_spared_of_claim hid hclaim), resumed_rejected]
              refine ⟨fun h => ⟨_, _, _, hlive, hclaim, h⟩, ?_⟩
              rintro ⟨_, _, _, h, h', hconflict⟩
              rw [hlive] at h
              cases h
              rw [hclaim] at h'
              cases h'
              exact hconflict

/-- The ledger of an item is refused before anything is written. -/
theorem evaluate_claimItem_refused {e : ObserveError}
    (h : nextObserveLedger rt item.operationId item.details r.record = .error e) :
    evaluate (answer rt s) (Coordinator.claimItem rt c r item) w =
      (some (.error (.observe e)), w) :=
  evaluate_bind_error ((evaluate_checked _).trans (by rw [h]; rfl))

/-- With a ledger that admits the request, the item is claimed if its kind is supported. -/
theorem evaluate_claimItem {records : List ObserveRecord}
    (h : nextObserveLedger rt item.operationId item.details r.record = .ok records) :
    evaluate (answer rt s) (Coordinator.claimItem rt c r item) w =
      evaluate (answer rt s) (do
        refuseIf (c.supports item.recoveryKind = false)
          (unsupported r.operationId item.recoveryKind)
        let lease ← call (claim c r r.record.version r.record.checksum)
        return (lease, records)) w :=
  evaluate_bind_ok ((evaluate_checked _).trans (by rw [h]; rfl))

/-- The lease of a request, with the ledger that will record it. -/
def leaseFor (rt : Runtime) (c : Coordinator) (r : Admitted) (operation : OperationSnapshot) :
    Option RecoveryItem → Action (RecoveryLease × List ObserveRecord)
  | some item => Coordinator.claimItem rt c r item
  | none => Coordinator.prepareItem rt c r operation

/-- What a request has to be to go on to its lease. -/
theorem request_of_fenced (found : Option RecoveryItem)
    (heligible : ¬ (found.isSome ∧
      recoveryErrorSemantics (Coordinator.errorOf found) = some .ineligible))
    (hfenced : Fenced r operation) :
    evaluate (answer rt s) (Coordinator.request rt c r operation found) w =
      evaluate (answer rt s) (leaseFor rt c r operation found >>= fun pair =>
        recordAndRun r operation pair.1 pair.2) w := by
  have hfresh : ¬ (operation.version ≠ r.record.version ∨
      operation.lastEventChecksum ≠ r.record.checksum) := by
    simp [hfenced.1, hfenced.2]
  unfold Coordinator.request
  rw [evaluate_bind_ok (evaluate_refuseIf _ _ |>.trans (by rw [if_neg heligible])),
    evaluate_bind_ok (evaluate_refuseIf _ _ |>.trans (by rw [if_neg hfresh]))]
  cases found <;> rfl

/-- A request for another version or checksum is refused. -/
theorem request_not_fenced (found : Option RecoveryItem) (hw : Spared r.operationId w)
    (hfenced : ¬ Fenced r operation) : ¬ Wastes r.operationId
      (evaluate (answer rt s) (Coordinator.request rt c r operation found) w) := by
  have hstale : operation.version ≠ r.record.version ∨
      operation.lastEventChecksum ≠ r.record.checksum := not_and_or.mp hfenced
  unfold Coordinator.request
  rw [evaluate_bind, evaluate_refuseIf]
  refine not_wastes_of_spared ?_
  split_ifs
  · exact hw
  · change Spared _ (evaluate (answer rt s) (refuseIf _ _ >>= _) w).2
    rw [evaluate_bind_error (evaluate_refuseIf _ _ |>.trans (by rw [if_pos hstale]))]
    exact hw

/-- A new request for an item that exists. -/
theorem request_wastes_iff (hid : strip r.operationId = r.operationId)
    (hw : Spared r.operationId w) :
    Wastes r.operationId
      (evaluate (answer rt s) (Coordinator.request rt c r operation (some item)) w) ↔
      recoveryErrorSemantics (Coordinator.errorOf (some item)) ≠ some .ineligible ∧
      Fenced r operation ∧ ∃ records lease w₁,
        nextObserveLedger rt item.operationId item.details r.record = .ok records ∧
        c.supports item.recoveryKind = true ∧
        answer rt s w (claim c r r.record.version r.record.checksum) = (.ok lease, w₁) ∧
        Lost rt s r operation lease records w₁ := by
  by_cases hineligible : recoveryErrorSemantics (Coordinator.errorOf (some item)) =
      some .ineligible
  · refine iff_of_false ?_ fun h => h.1 hineligible
    unfold Coordinator.request
    rw [evaluate_bind, evaluate_refuseIf, if_pos ⟨rfl, hineligible⟩]
    exact not_wastes_of_spared hw
  by_cases hfenced : Fenced r operation
  swap
  · exact iff_of_false (request_not_fenced _ hw hfenced) fun h => hfenced h.2.1
  rw [request_of_fenced _ (fun h => hineligible h.2) hfenced]
  change Wastes _ (evaluate _ (Coordinator.claimItem rt c r item >>= _) w) ↔ _
  cases hledger : nextObserveLedger rt item.operationId item.details r.record with
  | error e =>
      rw [evaluate_bind_error (evaluate_claimItem_refused hledger)]
      refine iff_of_false (not_wastes_of_spared hw) ?_
      rintro ⟨-, -, _, _, _, h, -⟩
      cases h
  | ok records =>
      rw [evaluate_bind, evaluate_claimItem hledger]
      by_cases hsupports : c.supports item.recoveryKind = true
      swap
      · rw [Bool.not_eq_true] at hsupports
        rw [evaluate_bind_error (evaluate_refuseIf _ _ |>.trans (by rw [if_pos hsupports]))]
        refine iff_of_false (not_wastes_of_spared hw) ?_
        rintro ⟨-, -, _, _, _, -, h, -⟩
        rw [hsupports] at h
        cases h
      have hpasses : ¬ c.supports item.recoveryKind = false := by simp [hsupports]
      rw [evaluate_bind_ok (evaluate_refuseIf _ _ |>.trans (by rw [if_neg hpasses]))]
      cases hclaim : answer rt s w (claim c r r.record.version r.record.checksum) with
      | mk reply w₁ =>
          cases reply with
          | error e =>
              rw [evaluate_bind_error (evaluate_of_answer hclaim)]
              refine iff_of_false (not_wastes_of_spared (spared_of_claim_error hclaim hw)) ?_
              rintro ⟨-, -, _, _, _, -, -, h, -⟩
              cases h
          | ok lease =>
              rw [evaluate_bind_ok (evaluate_of_answer hclaim)]
              refine (wastes_iff_of_changed (not_spared_of_claim hid hclaim)).trans
                ((recordAndRun_rejected lease records).trans ⟨fun h =>
                  ⟨hineligible, hfenced, records, lease, w₁, rfl, hsupports, rfl, h⟩, ?_⟩)
              rintro ⟨-, -, _, _, _, heq, -, h, hlost⟩
              cases heq
              cases h
              exact hlost

end Existing

/-! ### Requests without an item -/

section Prepared

variable {rt : Runtime} {s : Surroundings} {c : Coordinator} {r : Admitted}
  {operation : OperationSnapshot} {w w' : Trail} {lease : RecoveryLease}

theorem evaluate_eventsWhen (needed : Bool) : ∃ events w', evaluate (answer rt s)
    (Coordinator.eventsWhen needed operation) w = (some (.ok events), w') ∧
      ∀ operationId, Spared operationId w → Spared operationId w' := by
  cases needed with
  | false => exact ⟨[], w, rfl, fun _ => id⟩
  | true => exact ⟨_, _, rfl, fun _ => (spared_answer_iff rfl).mpr⟩

theorem operationId_of_preparedSpec {p : EventProof} {kind : Str} {hkind : kind ∈ recoveryKinds}
    {vmid : ℤ} {lock : Option Dict} {spec : RecoverySpec}
    (h : preparedSpec rt operation p kind hkind vmid lock = .ok spec) :
    spec.operationId = operation.operationId := by
  simp only [preparedSpec, bind_eq_ok] at h
  obtain ⟨_, -, h⟩ := h
  split at h
  · cases h
    rfl
  · cases h

/-- The checks before an item is prepared write nothing. -/
theorem evaluate_prepareSpec : ∃ result w', evaluate (answer rt s)
    (Coordinator.prepareSpec rt operation) w = (some result, w') ∧
    (∀ operationId, Spared operationId w → Spared operationId w') ∧
    ∀ spec, result = .ok spec → spec.operationId = operation.operationId := by
  obtain ⟨events, w₁, hevents, hspared₁⟩ :=
    @evaluate_eventsWhen rt s operation w (needsTerminalEvents operation)
  obtain ⟨guided, w₂, hguided, hspared₂⟩ := @evaluate_eventsWhen rt s operation w₁
    (operation.operationType = .guidedQmVmUnlock)
  have hspared : ∀ operationId, Spared operationId w → Spared operationId w₂ :=
    fun _ hw => hspared₂ _ (hspared₁ _ hw)
  unfold Coordinator.prepareSpec
  rw [evaluate_bind_ok hevents, evaluate_bind_ok hguided]
  dsimp only
  split
  · exact ⟨_, w₂, rfl, hspared, fun spec h => by cases h⟩
  · rename_i kind htype
    by_cases hproved : isPreDispatch rt operation
        (eventProof rt operation events guided) = false
    · rw [evaluate_bind_error (evaluate_refuseIf _ _ |>.trans (by rw [if_pos hproved]))]
      exact ⟨_, w₂, rfl, hspared, fun spec h => by cases h⟩
    · rw [evaluate_bind_ok (evaluate_refuseIf _ _ |>.trans (by rw [if_neg hproved]))]
      split
      · exact ⟨_, w₂, rfl, hspared, fun spec h => by cases h⟩
      · rename_i vmid _
        cases hlock : answer rt s w₂ (.readLock operation.targetType operation.targetId) with
        | mk reply w₃ =>
            have hspared₃ : ∀ operationId, Spared operationId w → Spared operationId w₃ :=
              fun _ hw => (spared_iff_of_kept rfl hlock).mpr (hspared _ hw)
            cases reply with
            | error e =>
                rw [evaluate_bind_error (evaluate_of_answer hlock)]
                exact ⟨_, w₃, rfl, hspared₃, fun spec h => by cases h⟩
            | ok lock =>
                rw [evaluate_bind_ok (evaluate_of_answer hlock)]
                exact ⟨_, w₃, rfl, hspared₃, fun spec h => operationId_of_preparedSpec h⟩

/-- The preparation and claim of an item, for the operation of a request. -/
abbrev prepare (c : Coordinator) (r : Admitted) (spec : RecoverySpec) : Command :=
  .prepareAndClaim spec c.owner c.leaseTime r.record.version r.record.checksum

theorem prepareAndClaim_operationId {spec : RecoverySpec} {owner : Str} {time : Instant}
    {version : Option ℕ} {checksum : Option Str} {draw : Draw} {db db' : Db}
    (h : prepareAndClaim draw spec owner time version checksum db = .ok (lease, db')) :
    lease.operationId = spec.operationId := by
  simp only [prepareAndClaim, bind_eq_ok, raiseIf_eq_ok] at h
  obtain ⟨_, -, _, -, h⟩ := h
  cases hrow : db.recovery.get spec.operationId with
  | none =>
      simp only [hrow, bind_eq_ok, orRaise_eq_ok, pure_eq_ok, Prod.mk.injEq] at h
      obtain ⟨_, -, rfl, -⟩ := h
      rfl
  | some row =>
      simp only [hrow, bind_eq_ok, raiseIf_eq_ok, orRaise_eq_ok, pure_eq_ok, Prod.mk.injEq] at h
      obtain ⟨_, -, _, -, _, -, _, -, rfl, -⟩ := h
      have hkey := Table.key_of_get hrow
      exact hkey

/-- A preparation is seen, and a refused one is not. -/
theorem not_spared_of_prepare {spec : RecoverySpec} (hid : spec.operationId = r.operationId)
    (h : answer rt s w (prepare c r spec) = (.ok lease, w')) : ¬ Spared r.operationId w' := by
  obtain ⟨db', hclaim, hdb⟩ := transaction_eq_ok (congrArg Prod.fst h)
  have hraised := raised_of_claimOf (prepareAndClaim_spec hclaim).2
  rw [prepareAndClaim_operationId hclaim, hid] at hraised
  exact not_spared_of_raised h (hdb ▸ hraised)

theorem spared_of_prepare_error {spec : RecoverySpec} {operationId : Str} {e : Failure}
    (h : answer rt s w (prepare c r spec) = (.error e, w'))
    (hw : Spared operationId w) : Spared operationId w' := by
  refine (spared_iff_of_kept ?_ h).mpr hw
  exact (transaction_eq_error (congrArg Prod.fst h)).1

/-- What ends the request with a rejection once its item is prepared. -/
def Spoiled (rt : Runtime) (s : Surroundings) (c : Coordinator) (r : Admitted)
    (operation : OperationSnapshot) (spec : RecoverySpec) (lease : RecoveryLease) (w : Trail) :
    Prop :=
  c.supports spec.recoveryKind = false ∨ c.supports spec.recoveryKind = true ∧
    ((∃ e, nextObserveLedger rt lease.item.operationId lease.item.details r.record = .error e) ∨
      ∃ records, nextObserveLedger rt lease.item.operationId lease.item.details r.record =
        .ok records ∧ Lost rt s r operation lease records w)

/-- The runner is asked only after the item was claimed. -/
theorem evaluate_preparePreDispatchItem {spec : RecoverySpec} {w₁ : Trail}
    (hspec : evaluate (answer rt s) (Coordinator.prepareSpec rt operation) w =
      (some (.ok spec), w₁))
    (hclaim : answer rt s w₁ (prepare c r spec) = (.ok lease, w')) :
    evaluate (answer rt s) (Coordinator.preparePreDispatchItem rt c r operation) w =
      (some (if c.supports spec.recoveryKind = false then
        .error (.observe (unsupported operation.operationId spec.recoveryKind))
        else .ok lease), w') := by
  refine (evaluate_bind_ok hspec).trans
    ((evaluate_bind_ok (evaluate_of_answer hclaim)).trans ?_)
  by_cases hsupports : c.supports spec.recoveryKind = false
  · rw [evaluate_bind_error (evaluate_refuseIf _ _ |>.trans (by rw [if_pos hsupports])),
      if_pos hsupports]
  · rw [evaluate_bind_ok (evaluate_refuseIf _ _ |>.trans (by rw [if_neg hsupports])),
      if_neg hsupports]
    rfl

/-- What a request wastes whose item is new and claimed. -/
theorem claimed_wastes_iff {spec : RecoverySpec} {w₁ : Trail}
    (hspec : evaluate (answer rt s) (Coordinator.prepareSpec rt operation) w =
      (some (.ok spec), w₁))
    (hid : spec.operationId = r.operationId)
    (hclaim : answer rt s w₁ (prepare c r spec) = (.ok lease, w')) :
    Wastes r.operationId (evaluate (answer rt s) (Coordinator.prepareItem rt c r operation >>=
      fun pair => recordAndRun r operation pair.1 pair.2) w) ↔
      Spoiled rt s c r operation spec lease w' := by
  have hlease := evaluate_preparePreDispatchItem hspec hclaim
  have hchanged := not_spared_of_prepare hid hclaim
  rw [Spoiled]
  by_cases hsupports : c.supports spec.recoveryKind = false
  · rw [if_pos hsupports] at hlease
    have hitem : evaluate (answer rt s) (Coordinator.prepareItem rt c r operation) w = _ :=
      evaluate_bind_error hlease
    rw [evaluate_bind_error hitem]
    refine iff_of_true ⟨?_, hchanged⟩ (.inl hsupports)
    change ("OPERATION_RECOVERY_UNSUPPORTED" : Str) ∈ rejectionCodes
    decide
  · rw [if_neg hsupports] at hlease
    rw [or_iff_right hsupports, and_iff_right (Bool.not_eq_false _ ▸ hsupports)]
    cases hledger : nextObserveLedger rt lease.item.operationId lease.item.details r.record with
    | error e =>
        have hitem : evaluate (answer rt s) (Coordinator.prepareItem rt c r operation) w =
            (some (.error (.observe e)), w') :=
          (evaluate_bind_ok hlease).trans (evaluate_bind_error
            ((evaluate_checked _).trans (by rw [hledger]; rfl)))
        rw [evaluate_bind_error hitem]
        exact iff_of_true ⟨nextObserveLedger_rejected hledger, hchanged⟩ (.inl ⟨e, rfl⟩)
    | ok records =>
        have hitem : evaluate (answer rt s) (Coordinator.prepareItem rt c r operation) w =
            (some (.ok (lease, records)), w') :=
          (evaluate_bind_ok hlease).trans (evaluate_bind_ok
            ((evaluate_checked _).trans (by rw [hledger]; rfl)))
        rw [evaluate_bind_ok hitem, wastes_iff_of_changed hchanged]
        refine (recordAndRun_rejected lease records).trans
          ⟨fun h => .inr ⟨records, rfl, h⟩, ?_⟩
        rintro (⟨_, h⟩ | ⟨_, h, hlost⟩)
        · cases h
        · cases h
          exact hlost

/-- A request that fails before its item is claimed wastes nothing. -/
theorem unclaimed_not_wastes {e : Failure} (hw' : Spared r.operationId w')
    (hlease : evaluate (answer rt s) (Coordinator.preparePreDispatchItem rt c r operation) w =
      (some (.error e), w')) :
    ¬ Wastes r.operationId (evaluate (answer rt s) (Coordinator.prepareItem rt c r operation >>=
      fun pair => recordAndRun r operation pair.1 pair.2) w) := by
  have hitem : evaluate (answer rt s) (Coordinator.prepareItem rt c r operation) w = _ :=
    evaluate_bind_error hlease
  rw [evaluate_bind_error hitem]
  exact not_wastes_of_spared hw'

/-- A request for an operation without an item. -/
theorem request_none_wastes_iff (hoperation : operation.operationId = r.operationId)
    (hw : Spared r.operationId w) :
    Wastes r.operationId
      (evaluate (answer rt s) (Coordinator.request rt c r operation none) w) ↔
      Fenced r operation ∧ ∃ spec w₁ lease w₂,
        evaluate (answer rt s) (Coordinator.prepareSpec rt operation) w =
          (some (.ok spec), w₁) ∧
        answer rt s w₁ (prepare c r spec) = (.ok lease, w₂) ∧
        Spoiled rt s c r operation spec lease w₂ := by
  by_cases hfenced : Fenced r operation
  swap
  · exact iff_of_false (request_not_fenced _ hw hfenced) fun h => hfenced h.1
  rw [request_of_fenced none (fun h => Bool.false_ne_true h.1) hfenced, and_iff_right hfenced]
  change Wastes _ (evaluate _ (Coordinator.prepareItem rt c r operation >>= _) w) ↔ _
  obtain ⟨result, w₁, hspec, hspared, hnamed⟩ := @evaluate_prepareSpec rt s operation w
  cases result with
  | error e =>
      refine iff_of_false (unclaimed_not_wastes (hspared _ hw) (evaluate_bind_error hspec)) ?_
      rintro ⟨_, _, _, _, h, -⟩
      rw [hspec] at h
      cases h
  | ok spec =>
      cases hclaim : answer rt s w₁ (prepare c r spec) with
      | mk reply w₂ =>
          cases reply with
          | error e =>
              refine iff_of_false (unclaimed_not_wastes
                (spared_of_prepare_error hclaim (hspared _ hw)) ((evaluate_bind_ok hspec).trans
                  (evaluate_bind_error (evaluate_of_answer hclaim)))) ?_
              rintro ⟨_, _, _, _, h, h', -⟩
              rw [hspec] at h
              cases h
              rw [hclaim] at h'
              cases h'
          | ok lease =>
              refine (claimed_wastes_iff hspec ((hnamed spec rfl).trans hoperation) hclaim).trans
                ⟨fun h => ⟨_, _, _, _, hspec, hclaim, h⟩, ?_⟩
              rintro ⟨_, _, _, _, h, h', hrest⟩
              rw [hspec] at h
              cases h
              rw [hclaim] at h'
              cases h'
              exact hrest

end Prepared

end Gjallar.ObserveRejections

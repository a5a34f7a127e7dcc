import Gjallar.ObserveWastes

/-!
# Requests that are rejected without effect

The guarded part of a request is rejected after a write exactly in the ways listed, and the whole
request ends as its guarded part does.
-/
namespace Gjallar.ObserveRejections

open Gjallar.Text Gjallar.Data Gjallar.Tables Gjallar.Operation Gjallar.OperationStore
  Gjallar.OperationLedger Gjallar.Redaction Gjallar.TargetLocks Gjallar.RecoveryStore
  Gjallar.Processes Gjallar.Processes.Fallible Gjallar.ObserveLedger Gjallar.Observer
  Gjallar.LeaseFencing

/-! ### The guarded part of a request -/

section Guarded

variable {rt : Runtime} {s : Surroundings} {c : Coordinator} {r : Admitted}
  {operation : OperationSnapshot} {w w₁ : Trail} {item : RecoveryItem}

/-- Without an item, the ways to be rejected after a write. -/
theorem wasted_none_iff
    (hitem : answer rt s w (.getRecovery r.operationId) = (.ok none, w₁)) :
    Wasted rt s c r operation w ↔ Fenced r operation ∧ ∃ spec w₂ lease w₃,
      evaluate (answer rt s) (Coordinator.prepareSpec rt operation) w₁ = (some (.ok spec), w₂) ∧
      answer rt s w₂ (prepare c r spec) = (.ok lease, w₃) ∧
      Spoiled rt s c r operation spec lease w₃ := by
  have htakes : ∀ {spec lease w'}, Takes rt s c r operation w spec lease w' →
      Fenced r operation ∧ ∃ w₂, evaluate (answer rt s) (Coordinator.prepareSpec rt operation) w₁ =
        (some (.ok spec), w₂) ∧ answer rt s w₂ (prepare c r spec) = (.ok lease, w') := by
    intro spec lease w' h
    cases h with
    | prepared hitem' hfenced hspec hclaim =>
        rw [hitem] at hitem'
        cases hitem'
        exact ⟨hfenced, _, hspec, hclaim⟩
  have hleases : ∀ {lease records w'}, Leases rt s c r operation w lease records w' →
      ∃ spec, Takes rt s c r operation w spec lease w' ∧ c.supports spec.recoveryKind = true ∧
        nextObserveLedger rt lease.item.operationId lease.item.details r.record =
          .ok records := by
    intro lease records w' h
    cases h with
    | claimed hitem' =>
        rw [hitem] at hitem'
        cases hitem'
    | prepared htakes hsupports hrecords => exact ⟨_, htakes, hsupports, hrecords⟩
  constructor
  · intro h
    cases h with
    | unsupported ht hsupports =>
        obtain ⟨hfenced, w₂, hspec, hclaim⟩ := htakes ht
        exact ⟨hfenced, _, w₂, _, _, hspec, hclaim, .inl hsupports⟩
    | ledger ht hsupports hrecords =>
        obtain ⟨hfenced, w₂, hspec, hclaim⟩ := htakes ht
        exact ⟨hfenced, _, w₂, _, _, hspec, hclaim, .inr ⟨hsupports, .inl ⟨_, hrecords⟩⟩⟩
    | commit hlease hrefuses =>
        obtain ⟨spec, ht, hsupports, hrecords⟩ := hleases hlease
        obtain ⟨hfenced, w₂, hspec, hclaim⟩ := htakes ht
        exact ⟨hfenced, _, w₂, _, _, hspec, hclaim,
          .inr ⟨hsupports, .inr ⟨_, hrecords, .inl hrefuses⟩⟩⟩
    | run hhanded hconflict =>
        cases hhanded with
        | resumed hitem' =>
            rw [hitem] at hitem'
            cases hitem'
        | requested hlease hcommit =>
            obtain ⟨spec, ht, hsupports, hrecords⟩ := hleases hlease
            obtain ⟨hfenced, w₂, hspec, hclaim⟩ := htakes ht
            exact ⟨hfenced, _, w₂, _, _, hspec, hclaim,
              .inr ⟨hsupports, .inr ⟨_, hrecords, .inr ⟨_, _, _, hcommit, hconflict⟩⟩⟩⟩
  · rintro ⟨hfenced, spec, w₂, lease, w₃, hspec, hclaim, hspoiled⟩
    have ht : Takes rt s c r operation w spec lease w₃ := .prepared hitem hfenced hspec hclaim
    rcases hspoiled with hno | ⟨hsupports, ⟨e, he⟩ | ⟨records, hrecords, hlost⟩⟩
    · exact .unsupported ht hno
    · exact .ledger ht hsupports he
    · have hlease : Leases rt s c r operation w lease records w₃ :=
        .prepared ht hsupports hrecords
      rcases hlost with hrefuses | ⟨_, _, _, hcommit, hconflict⟩
      · exact .commit hlease hrefuses
      · exact .run (.requested hlease hcommit) hconflict

/-- With an item, the ways to be rejected after a write. -/
theorem wasted_some_iff
    (hitem : answer rt s w (.getRecovery r.operationId) = (.ok (some item), w₁)) :
    Wasted rt s c r operation w ↔
      (sameObserveRequest rt item.operationId item.details r.record = .ok true ∧
        item.status = .leased ∧ ∃ w₂ lease w₃, evaluate (answer rt s)
            (Coordinator.leaseIsLive item.leaseExpiresAt) w₁ = (some (.ok false), w₂) ∧
          answer rt s w₂ (claim c r operation.version operation.lastEventChecksum) =
            (.ok lease, w₃) ∧ IsConflict (s.run lease (s.met w₃ (.run lease))).1) ∨
      (sameObserveRequest rt item.operationId item.details r.record = .ok false ∧
        recoveryErrorSemantics (Coordinator.errorOf (some item)) ≠ some .ineligible ∧
        Fenced r operation ∧ ∃ records lease w₂,
          nextObserveLedger rt item.operationId item.details r.record = .ok records ∧
          c.supports item.recoveryKind = true ∧
          answer rt s w₁ (claim c r r.record.version r.record.checksum) = (.ok lease, w₂) ∧
          Lost rt s r operation lease records w₂) := by
  have htakes : ∀ {spec lease w'}, ¬ Takes rt s c r operation w spec lease w' := by
    intro spec lease w' h
    cases h with
    | prepared hitem' =>
        rw [hitem] at hitem'
        cases hitem'
  have hleases : ∀ {lease records w'}, Leases rt s c r operation w lease records w' →
      Lost rt s r operation lease records w' →
      sameObserveRequest rt item.operationId item.details r.record = .ok false ∧
        recoveryErrorSemantics (Coordinator.errorOf (some item)) ≠ some .ineligible ∧
        Fenced r operation ∧ ∃ records lease w₂,
          nextObserveLedger rt item.operationId item.details r.record = .ok records ∧
          c.supports item.recoveryKind = true ∧
          answer rt s w₁ (claim c r r.record.version r.record.checksum) = (.ok lease, w₂) ∧
          Lost rt s r operation lease records w₂ := by
    intro lease records w' h hlost
    cases h with
    | prepared ht => exact absurd ht htakes
    | claimed hitem' hnew heligible hfenced hrecords hsupports hclaim =>
        rw [hitem] at hitem'
        cases hitem'
        exact ⟨hnew, heligible, hfenced, _, _, _, hrecords, hsupports, hclaim, hlost⟩
  constructor
  · intro h
    cases h with
    | unsupported ht => exact absurd ht htakes
    | ledger ht => exact absurd ht htakes
    | commit hlease hrefuses => exact .inr (hleases hlease (.inl hrefuses))
    | run hhanded hconflict =>
        cases hhanded with
        | resumed hitem' hsame hleased hlapsed hclaim =>
            rw [hitem] at hitem'
            cases hitem'
            exact .inl ⟨hsame, hleased, _, _, _, hlapsed, hclaim, hconflict⟩
        | requested hlease hcommit =>
            exact .inr (hleases hlease (.inr ⟨_, _, _, hcommit, hconflict⟩))
  · rintro (⟨hsame, hleased, w₂, lease, w₃, hlapsed, hclaim, hconflict⟩ |
      ⟨hnew, heligible, hfenced, records, lease, w₂, hrecords, hsupports, hclaim, hlost⟩)
    · exact .run (.resumed hitem hsame hleased hlapsed hclaim) hconflict
    · have hlease : Leases rt s c r operation w lease records w₂ :=
        .claimed hitem hnew heligible hfenced hrecords hsupports hclaim
      rcases hlost with hrefuses | ⟨_, _, _, hcommit, hconflict⟩
      · exact .commit hlease hrefuses
      · exact .run (.requested hlease hcommit) hconflict

/-- The guarded part is rejected after a write exactly in the ways listed. -/
theorem guarded_wastes_iff (hid : strip r.operationId = r.operationId)
    (hoperation : operation.operationId = r.operationId) (hw : Spared r.operationId w) :
    Wastes r.operationId (evaluate (answer rt s) (Coordinator.guarded rt c r operation) w) ↔
      Wasted rt s c r operation w := by
  unfold Coordinator.guarded
  obtain ⟨found, w₁, hitem⟩ : ∃ found w₁,
      answer rt s w (.getRecovery r.operationId) = (.ok found, w₁) := ⟨_, _, rfl⟩
  have hspared : Spared r.operationId w₁ := (spared_iff_of_kept rfl hitem).mpr hw
  rw [evaluate_bind_ok (evaluate_of_answer hitem)]
  cases found with
  | none =>
      change Wastes _ (evaluate _ (Coordinator.request rt c r operation none) w₁) ↔ _
      rw [request_none_wastes_iff hoperation hspared, wasted_none_iff hitem]
  | some item =>
      rw [wasted_some_iff hitem, evaluate_bind, evaluate_checked]
      have hsame : Coordinator.sameRequest rt r (some item) =
          sameObserveRequest rt item.operationId item.details r.record := rfl
      rw [hsame]
      cases sameObserveRequest rt item.operationId item.details r.record with
      | error e =>
          refine iff_of_false (not_wastes_of_spared hspared) ?_
          rintro (⟨h, -⟩ | ⟨h, -⟩) <;> cases h
      | ok same =>
          cases same with
          | true =>
              refine (replay_wastes_iff hid hspared).trans ⟨fun h => .inl ⟨rfl, h⟩, ?_⟩
              rintro (⟨-, h⟩ | ⟨h, -⟩)
              · exact h
              · cases h
          | false =>
              refine (request_wastes_iff hid hspared).trans ⟨fun h => .inr ⟨rfl, h⟩, ?_⟩
              rintro (⟨h, -⟩ | ⟨-, h⟩)
              · cases h
              · exact h

end Guarded

/-! ### The whole request -/

section Observe

variable {rt : Runtime} {s : Surroundings} {c : Coordinator} {q : ObserveRequest} {r : Admitted}
  {operation : OperationSnapshot} {w w₁ w₂ : Trail}

theorem operationId_of_readRequest (h : readRequest rt q = .ok r) :
    r.operationId = strip q.operationId := by
  simp only [readRequest, bind_eq_ok, raiseIf_eq_ok, orRaise_eq_ok, pure_eq_ok] at h
  obtain ⟨_, -, _, -, version, -, _, -, rfl⟩ := h
  rfl

/-- A failure of the guarded part is translated to an error of the request. -/
theorem evaluate_translated_error {p : Action Stage} {operationId : Str} {f : Failure}
    (h : evaluate (answer rt s) p w = (some (.error f), w')) : ∃ e w'',
    evaluate (answer rt s) (Coordinator.translated operationId p) w =
      (some (.error (.observe e)), w'') ∧
    (∀ id, Spared id w'' ↔ Spared id w') ∧
    (e.code ∈ rejectionCodes ↔ Rejected (some (.error f))) := by
  have hattempt : evaluate (answer rt s) (attempt p) w = (some (.ok (.error f)), w') := by
    rw [evaluate_attempt, h]
    rfl
  cases f with
  | observe e => exact ⟨e, w', evaluate_bind_ok hattempt, fun _ => Iff.rfl, Iff.rfl⟩
  | other =>
      exact ⟨_, w', evaluate_bind_ok hattempt, fun _ => Iff.rfl,
        iff_of_false not_rejected.2.2.2 id⟩
  | store e =>
      cases e with
      | recoveryNotFound _ =>
          exact ⟨_, w', evaluate_bind_ok hattempt, fun _ => Iff.rfl,
            iff_of_false not_rejected.2.2.1 id⟩
      | recoveryLeaseBusy _ =>
          exact ⟨_, _, evaluate_bind_ok hattempt, fun _ => spared_answer_iff rfl,
            iff_of_true (conflict_rejected _ _) trivial⟩
      | recoveryOperationConflict _ =>
          exact ⟨_, _, evaluate_bind_ok hattempt, fun _ => spared_answer_iff rfl,
            iff_of_true (conflict_rejected _ _) trivial⟩
      | _ =>
          exact ⟨_, w', evaluate_bind_ok hattempt, fun _ => Iff.rfl,
            iff_of_false not_rejected.2.2.2 id⟩

/-- The result of a request, after the guarded part came to an end. -/
theorem evaluate_finish (operationId : Str) (stage : Stage) :
    let ending := evaluate (answer rt s) (Coordinator.finish operationId stage) w
    (∀ id, Spared id ending.2 ↔ Spared id w) ∧
      ((∃ e, ending.1 = some (.error (.observe e)) ∧ e.code ∈ rejectionCodes) ↔
        Rejected (some (.ok stage))) := by
  intro ending
  cases stage with
  | answered d =>
      refine ⟨fun _ => Iff.rfl, iff_of_false ?_ id⟩
      rintro ⟨_, heq, -⟩
      cases heq
  | ran outcome =>
      obtain ⟨answered, w', hlast, hspared, herror, hlost⟩ :=
        @evaluate_resultOrError rt s w operationId outcome false
      have hending : ending = (some answered, w') := hlast
      rw [hending]
      refine ⟨hspared, ?_⟩
      cases answered with
      | error f =>
          obtain ⟨e, rfl, he⟩ := herror f rfl
          refine Iff.trans ⟨?_, fun hcode => ⟨e, rfl, hcode⟩⟩ he
          rintro ⟨_, heq, hcode⟩
          cases heq
          exact hcode
      | ok d =>
          refine iff_of_false ?_ fun h => ?_
          · rintro ⟨_, heq, -⟩
            cases heq
          · obtain ⟨f, hf⟩ := hlost h
            cases hf

/-- What the coordinator makes of the end of the guarded part. -/
theorem evaluate_translated_finish (p : Action Stage) (operationId : Str) :
    let ending := evaluate (answer rt s) (do
      let stage ← Coordinator.translated operationId p
      Coordinator.finish operationId stage) w
    let guarded := evaluate (answer rt s) p w
    (∀ id, Spared id ending.2 ↔ Spared id guarded.2) ∧
      ((∃ e, ending.1 = some (.error (.observe e)) ∧ e.code ∈ rejectionCodes) ↔
        Rejected guarded.1) := by
  intro ending guarded
  obtain ⟨result, w', h⟩ : ∃ result w', guarded = (result, w') := ⟨_, _, rfl⟩
  have hattempt : evaluate (answer rt s) (attempt p) w = (result.map .ok, w') := by
    rw [evaluate_attempt]
    change (guarded.1.map Except.ok, guarded.2) = _
    rw [h]
  rw [h]
  cases result with
  | none =>
      have hending : ending = (none, w') := by
        change evaluate (answer rt s) (Coordinator.translated operationId p >>= _) w = _
        unfold Coordinator.translated
        rw [evaluate_bind, evaluate_bind, hattempt]
        rfl
      rw [hending]
      refine ⟨fun _ => Iff.rfl, iff_of_false ?_ id⟩
      rintro ⟨_, heq, -⟩
      cases heq
  | some result =>
      cases result with
      | ok stage =>
          have htranslated : evaluate (answer rt s) (Coordinator.translated operationId p) w =
              (some (.ok stage), w') := evaluate_bind_ok hattempt
          have hending : ending =
              evaluate (answer rt s) (Coordinator.finish operationId stage) w' :=
            evaluate_bind_ok htranslated
          rw [hending]
          exact evaluate_finish operationId stage
      | error f =>
          obtain ⟨e, w'', htranslated, hspared, hcode⟩ :=
            @evaluate_translated_error rt s w w' p operationId f h
          have hending : ending = _ := evaluate_bind_error htranslated
          rw [hending]
          refine ⟨hspared, Iff.trans ⟨?_, fun he => ⟨e, rfl, he⟩⟩ hcode⟩
          rintro ⟨_, heq, he⟩
          cases heq
          exact he

/-- A request for an operation that exists ends as its guarded part does. -/
theorem observe_rejected_iff (hread : readRequest rt q = .ok r)
    (hreceive : answer rt s w (.receive q) = (.ok (), w₁))
    (hoperation : answer rt s w₁ (.getOperation r.operationId) = (.ok (some operation), w₂)) :
    let ending := evaluate (answer rt s) (c.observe rt q) w
    let guarded := evaluate (answer rt s) (Coordinator.guarded rt c r operation) w₂
    (∀ id, Spared id ending.2 ↔ Spared id guarded.2) ∧
      ((∃ e, ending.1 = some (.error (.observe e)) ∧ e.code ∈ rejectionCodes) ↔
        Rejected guarded.1) := by
  intro ending guarded
  have hchecked : evaluate (answer rt s) (checked (readRequest rt q)) w₁ =
      (some (.ok r), w₁) := (evaluate_checked _).trans (by rw [hread]; rfl)
  have hfound : evaluate (answer rt s) (Coordinator.readOperation r.operationId) w₁ =
      (some (.ok operation), w₂) := by
    unfold Coordinator.readOperation
    refine (evaluate_bind_ok (a := .ok (some operation)) ?_).trans rfl
    rw [evaluate_attempt, evaluate_of_answer hoperation]
    rfl
  have hobserve : ending = _ :=
    (evaluate_bind_ok (evaluate_of_answer hreceive)).trans ((evaluate_bind_ok hchecked).trans
      (evaluate_bind_ok hfound))
  rw [hobserve]
  exact evaluate_translated_finish _ _

/-- A request whose arguments or operation are refused changes nothing. -/
theorem spared_of_not_started {id : Str} (hw : Spared id w)
    (hreceive : answer rt s w (.receive q) = (.ok (), w₁))
    (hnone : ∀ r, readRequest rt q = .ok r → ∀ operation w₂,
      answer rt s w₁ (.getOperation r.operationId) ≠ (.ok (some operation), w₂)) :
    Spared id (evaluate (answer rt s) (c.observe rt q) w).2 := by
  have hspared : Spared id w₁ := (spared_iff_of_kept rfl hreceive).mpr hw
  cases hread : readRequest rt q with
  | error e =>
      have hchecked : evaluate (answer rt s) (checked (readRequest rt q)) w₁ =
          (some (.error (.observe e)), w₁) := (evaluate_checked _).trans (by rw [hread]; rfl)
      have hobserve : evaluate (answer rt s) (c.observe rt q) w = _ :=
        (evaluate_bind_ok (evaluate_of_answer hreceive)).trans (evaluate_bind_error hchecked)
      rw [hobserve]
      exact hspared
  | ok r =>
      have hchecked : evaluate (answer rt s) (checked (readRequest rt q)) w₁ =
          (some (.ok r), w₁) := (evaluate_checked _).trans (by rw [hread]; rfl)
      obtain ⟨found, w₂, hoperation⟩ : ∃ found w₂,
          answer rt s w₁ (.getOperation r.operationId) = (.ok found, w₂) := ⟨_, _, rfl⟩
      cases found with
      | some operation => exact absurd hoperation (hnone r hread operation w₂)
      | none =>
          have hmissing : evaluate (answer rt s) (Coordinator.readOperation r.operationId) w₁ =
              (some (.error (.observe (operationNotFound r.operationId))), w₂) := by
            unfold Coordinator.readOperation
            refine (evaluate_bind_ok (a := .ok none) ?_).trans rfl
            rw [evaluate_attempt, evaluate_of_answer hoperation]
            rfl
          have hobserve : evaluate (answer rt s) (c.observe rt q) w = _ :=
            (evaluate_bind_ok (evaluate_of_answer hreceive)).trans
              ((evaluate_bind_ok hchecked).trans (evaluate_bind_error hmissing))
          rw [hobserve]
          exact (spared_iff_of_kept rfl hoperation).mpr hspared

/-- No command of a rejected request changes the recovery item or the operation, unless the request
is rejected in one of the listed ways after a write; whatever other processes do in the meantime. -/
theorem rejected_untouched_iff (rt : Runtime) (s : Surroundings) (c : Coordinator)
    (q : ObserveRequest) (db : Db) :
    (∀ e, (evaluate (answer rt s) (c.observe rt q) ⟨db, []⟩).1 = some (.error (.observe e)) →
      e.code ∈ rejectionCodes →
        Spared (strip q.operationId) (evaluate (answer rt s) (c.observe rt q) ⟨db, []⟩).2) ↔
      ¬ ∃ r operation w₁ w₂, readRequest rt q = .ok r ∧
        answer rt s ⟨db, []⟩ (.receive q) = (.ok (), w₁) ∧
        answer rt s w₁ (.getOperation r.operationId) = (.ok (some operation), w₂) ∧
        Wasted rt s c r operation w₂ := by
  obtain ⟨w₁, hreceive⟩ : ∃ w₁, answer rt s ⟨db, []⟩ (.receive q) = (.ok (), w₁) := ⟨_, rfl⟩
  have hempty : ∀ id, Spared id ⟨db, []⟩ := fun _ _ h => absurd h List.not_mem_nil
  by_cases hstarts : ∃ r, readRequest rt q = .ok r ∧ ∃ operation w₂,
      answer rt s w₁ (.getOperation r.operationId) = (.ok (some operation), w₂)
  swap
  · refine iff_of_true (fun _ _ _ => spared_of_not_started (hempty _) hreceive ?_) ?_
    · exact fun r hread operation w₂ h => hstarts ⟨r, hread, operation, w₂, h⟩
    · rintro ⟨r, operation, _, w₂, hread, hreceive', hoperation, -⟩
      rw [hreceive] at hreceive'
      cases hreceive'
      exact hstarts ⟨r, hread, operation, w₂, hoperation⟩
  obtain ⟨r, hread, operation, w₂, hoperation⟩ := hstarts
  have hid := operationId_of_readRequest hread
  have hstrip : strip r.operationId = r.operationId := by rw [hid, strip_strip]
  have hnamed : operation.operationId = r.operationId := by
    have hget : (s.met w₁ (.getOperation r.operationId)).operations.get r.operationId =
        some operation := Except.ok.inj (congrArg Prod.fst hoperation)
    exact Table.key_of_get hget
  have hspared : Spared r.operationId w₂ := (spared_iff_of_kept rfl hoperation).mpr
    ((spared_iff_of_kept rfl hreceive).mpr (hempty _))
  obtain ⟨hsame, hrejected⟩ :=
    @observe_rejected_iff rt s c q r operation ⟨db, []⟩ w₁ w₂ hread hreceive hoperation
  have hwastes := @guarded_wastes_iff rt s c r operation w₂ hstrip hnamed hspared
  rw [hsame, ← hid]
  constructor
  · rintro h ⟨_, _, _, _, hread', hreceive', hoperation', hwasted⟩
    rw [hread] at hread'
    cases hread'
    rw [hreceive] at hreceive'
    cases hreceive'
    rw [hoperation] at hoperation'
    cases hoperation'
    obtain ⟨hrejects, hchanged⟩ := hwastes.mpr hwasted
    obtain ⟨e, he, hcode⟩ := hrejected.mpr hrejects
    exact hchanged (h e he hcode)
  · intro h e he hcode
    by_contra hchanged
    exact h ⟨r, operation, w₁, w₂, hread, hreceive, hoperation,
      hwastes.mp ⟨hrejected.mp ⟨e, he, hcode⟩, hchanged⟩⟩

end Observe

/-- The planned start of a machine, with its own lock. -/
def plannedStart : OperationRecord :=
  { operationId := "vm-start-1", operationType := .vmStart, executionMode := .managedApi,
    status := .planned, targetType := "proxmox_vm", targetId := "vmid:100",
    idempotencyKey := "key-1", intentDigest := "sha256:0a", planDigest := "sha256:0a",
    currentStage := "plan", actor := {},
    details := [("target", .dict [("vmid", .int 100)]),
      ("recovery_contract", .str GuidedQm.recoveryContract)],
    version := 1, lastEventChecksum := "sha256:0a", createdAt := 0, updatedAt := 0 }

def startLock : OperationLockRecord :=
  { operationLockId := "operation-lock-1", operationType := .vmStart,
    scopeType := .proxmoxLocator, scopeKey := locatorScopeKey "lab" 100,
    status := .active, clusterId := "lab", vmid := some 100, ownerId := "vm-start-1",
    reason := "", evidence := [], createdAt := 0, updatedAt := 0, releasedAt := none }

def plannedDb : Db :=
  { operations := (Table.empty.insert plannedStart).getD .empty
    locks := (Table.empty.insert startLock).getD .empty }

def plannedRequest : ObserveRequest :=
  ⟨"vm-start-1", { role := "operator" }, .int 1, "sha256:0a", "key-1"⟩

def sampleCoordinator (supports : Bool) : Coordinator :=
  ⟨"observer", Instant.seconds 60, fun _ => supports⟩

/-- Another process appends an event before the request is recorded. -/
def appendBefore : Command → Db → Db
  | .commit lease _, db =>
      match appendInSession .constant (.numbered 1) lease.operationId
        { eventType := "note", stage := "plan" } db with
      | .ok (_, db') => db'
      | .error _ => db
  | _, db => db

/-- The request for the planned start, with a runner that observes what it supports. -/
def observePlanned (supports : Bool) (others : Command → Db → Db) :
    Option (Except Failure Dict) × Trail :=
  let surroundings : Surroundings :=
    ⟨"lab", 0, .numbered 0, .numbered 0, fun _ _ => (.ok "observed", []), others⟩
  evaluate (answer Runtime.constant surroundings)
    ((sampleCoordinator supports).observe Runtime.constant plannedRequest) ⟨plannedDb, []⟩

/-- The code of the error that a request ends with. -/
def refusal : Option (Except Failure Dict) → Option Str
  | some (.error (.observe e)) => some e.code
  | _ => none

theorem exists_of_refusal {result : Option (Except Failure Dict)} {code : Str}
    (h : refusal result = some code) :
    ∃ e, result = some (.error (.observe e)) ∧ e.code = code := by
  unfold refusal at h
  split at h
  · cases h
    exact ⟨_, rfl, rfl⟩
  · cases h

/-- A runner that observes no power operation is asked to observe one: the request is rejected as
unsupported after an item was prepared and leased for the operation. And a request is rejected for
its state after it has leased the item, when another process appends an event in between. -/
theorem unsupported_prepares_item :
    (∃ e, (observePlanned false fun _ db => db).1 = some (.error (.observe e)) ∧
      e.code ∈ rejectionCodes ∧ ¬ Untouched (strip plannedRequest.operationId) plannedDb
        (observePlanned false fun _ db => db).2.db) ∧
    (∃ e, (observePlanned true appendBefore).1 = some (.error (.observe e)) ∧
      e.code ∈ rejectionCodes ∧
        ¬ Spared (strip plannedRequest.operationId) (observePlanned true appendBefore).2) := by
  have hunsupported : refusal (observePlanned false fun _ db => db).1 =
      some "OPERATION_RECOVERY_UNSUPPORTED" := by decide +kernel
  have hconflict : refusal (observePlanned true appendBefore).1 =
      some "OPERATION_RECOVERY_STATE_CONFLICT" := by decide +kernel
  refine ⟨?_, ?_⟩
  · obtain ⟨e, he, hcode⟩ := exists_of_refusal hunsupported
    exact ⟨e, he, by rw [hcode]; decide, by decide +kernel⟩
  · obtain ⟨e, he, hcode⟩ := exists_of_refusal hconflict
    exact ⟨e, he, by rw [hcode]; decide, by decide +kernel⟩

end Gjallar.ObserveRejections

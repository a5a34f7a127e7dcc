import Gjallar.CoordinationObservation

/-!
# The calls that rely on what they do not lock

Creation, the claim of due items, and the acquisition and release of target locks by their scope:
each of their transactions is a step of the ledger or leaves it alone, and all calls keep to one
contract.
-/
namespace Gjallar.Coordination

open Gjallar.Text Gjallar.Data Gjallar.Tables Gjallar.Operation Gjallar.Admission
  Gjallar.OperationStore Gjallar.OperationLedger Gjallar.TargetLocks Gjallar.RecoveryStore
  Gjallar.ReadCommitted Gjallar.Sessions Gjallar.Processes Gjallar.Processes.Fallible

variable {rt : Runtime} {h : Log} {t : ℕ} {rows : CoordinationRows} {db : Db} {q : Request}

/-! ### Creation -/

section Creation

variable {drawn : Draw} {spec : OperationSpec} {eventPayload : Dict}

/-- A transaction that adds an operation and its first event. -/
theorem records_created (hw : writesOf t h = [.event (createdEvent rt drawn spec eventPayload),
      .operation (newOperation rt drawn spec eventPayload)])
    (hoperation : Shows t h fun rows => rows.get (.operation spec.operationId) = none)
    (hevent : Shows t h fun rows => rows.get (.event (newEventId drawn)) = none) :
    Records rt t h := by
  intro rows db hrep hl hc
  rw [hw] at hc ⊢
  have hnone : db.operations.get spec.operationId = none := by
    have hrow : rows.get (.operation spec.operationId) = none := hoperation rows hl
    rw [hrep.operations] at hrow
    exact Option.map_eq_none_iff.mp hrow
  have hnone' : db.events.get (newEventId drawn) = none := by
    have hrow : rows.get (.event (newEventId drawn)) = none := hevent rows hl
    rw [hrep.events] at hrow
    exact Option.map_eq_none_iff.mp hrow
  have hfits : ∀ s ∈ db.operations,
      sameIdempotencyScope s (newOperation rt drawn spec eventPayload) = false := by
    intro s hs
    have hne : s.operationId ≠ spec.operationId := Table.get_eq_none.mp hnone s hs
    have hold : (rows.putAll [.event (createdEvent rt drawn spec eventPayload),
        .operation (newOperation rt drawn spec eventPayload)]).get (.operation s.operationId) =
          some (.operation s) := by
      refine (get_put_ne (by nofun)).trans ((get_put_operation _ _ _).trans
        ((if_neg hne.symm).trans ?_))
      exact (hrep.operations _).trans (congrArg _ (Table.get_of_mem hs))
    have hnew : (rows.putAll [.event (createdEvent rt drawn spec eventPayload),
        .operation (newOperation rt drawn spec eventPayload)]).get (.operation spec.operationId) =
          some (.operation (newOperation rt drawn spec eventPayload)) :=
      (get_put_ne (by nofun)).trans ((get_put_operation _ _ _).trans (if_pos rfl))
    exact hc.unique _ _ _ _ hold hnew fun heq => hne (Key.operation.inj heq)
  have hfits' : ∀ s ∈ db.events,
      sameSequence s (createdEvent rt drawn spec eventPayload) = false := by
    intro s hs
    have hne : s.eventId ≠ newEventId drawn := Table.get_eq_none.mp hnone' s hs
    have hold : (rows.putAll [.event (createdEvent rt drawn spec eventPayload),
        .operation (newOperation rt drawn spec eventPayload)]).get (.event s.eventId) =
          some (.event s) := by
      refine (get_put_event _ _ _).trans ((if_neg hne.symm).trans ?_)
      refine (get_put_ne (by nofun)).trans ?_
      exact (hrep.events _).trans (congrArg _ (Table.get_of_mem hs))
    have hnew : (rows.putAll [.event (createdEvent rt drawn spec eventPayload),
        .operation (newOperation rt drawn spec eventPayload)]).get (.event (newEventId drawn)) =
          some (.event (createdEvent rt drawn spec eventPayload)) :=
      (get_put_event _ _ _).trans (if_pos rfl)
    exact hc.unique _ _ _ _ hold hnew fun heq => hne (Key.event.inj heq)
  obtain ⟨operations, hoperations⟩ : ∃ t', db.operations.insert (newOperation rt drawn spec
      eventPayload) = some t' := exists_insert hnone hfits
  obtain ⟨events, hevents⟩ : ∃ t', db.events.insert (createdEvent rt drawn spec eventPayload) =
      some t' := exists_insert hnone' hfits'
  refine ⟨_, (hrep.insertOperation hoperations).insertEvent hevents,
    .step .refl (.insertion drawn spec eventPayload ?_)⟩
  simp [OperationLedger.insertOperation, hoperations, hevents]

theorem keeps_insertOperation (hb : Began h t) (hw : writesOf t h = []) :
    Keeps rt h (insertOperation (newOperation rt drawn spec eventPayload)
      (createdEvent rt drawn spec eventPayload) t) fun h' _ => Records rt t h' := by
  refine (keeps_add hb fun hne => absurd rfl hne).bind ?_
  rintro _ ⟨⟩ - rfl
  refine Obeys.bind (keeps_add (hb.cons _) fun hne => absurd rfl hne) ?_
  rintro _ ⟨⟩ - rfl
  have hwrites : writesOf t (⟨.insert t (.event (createdEvent rt drawn spec eventPayload)),
      .ok true⟩ :: ⟨.insert t (.operation (newOperation rt drawn spec eventPayload)), .ok true⟩ ::
        h) =
        [.event (createdEvent rt drawn spec eventPayload),
          .operation (newOperation rt drawn spec eventPayload)] := by
    rw [writesOf_insert, writesOf_insert, hw]
  exact Obeys.pure (records_created hwrites (shows_fresh.of_suffix (List.suffix_cons _ _))
    shows_fresh)

/-- A look at the tables in a transaction of its own. -/
theorem keeps_look {β : Type} {body : ℕ → Prog Request β} (hq : requestOf h = some q)
    (hfree : ∀ q', q ≠ .locked q')
    (hbody : ∀ t, Keeps rt (⟨.start, .ok t⟩ :: h) (body t) fun h' _ => writesOf t h' = []) :
    Keeps rt h (sessionScope body) fun h' _ => requestOf h' = some q :=
  keeps_unlocked hq hfree fun t => (hbody t).mono fun _ _ _ hw => records_nothing hw

theorem keeps_getByScope : Keeps rt (⟨.start, .ok t⟩ :: h) (getByScope t spec) fun h' _ =>
    writesOf t h' = [] := by
  refine (keeps_select ⟨_, List.mem_cons_self, rfl⟩ _).bind ?_
  rintro _ found - ⟨rfl, -⟩
  exact Obeys.pure writesOf_start

theorem keeps_getOperation {operationId : Str} :
    Keeps rt (⟨.start, .ok t⟩ :: h) (getOperation t operationId) fun h' _ =>
      writesOf t h' = [] := by
  refine (keeps_get ⟨_, List.mem_cons_self, rfl⟩ _).bind ?_
  rintro _ found - ⟨rfl, -⟩
  exact Obeys.pure writesOf_start

theorem keeps_resolveConflict (hq : requestOf h = some q) (hfree : ∀ q', q ≠ .locked q') :
    Keeps rt h (resolveConflict spec) fun _ _ => True := by
  refine (keeps_look hq hfree fun _ => keeps_getByScope).bind ?_
  rintro h₁ found - hq₁
  cases found with
  | some existing => exact keeps_lifted _
  | none =>
      refine (keeps_look hq₁ hfree fun _ => keeps_getOperation).bind ?_
      rintro h₂ found - -
      cases found with
      | some existing => exact keeps_lifted _
      | none => exact Obeys.throw _

theorem keeps_createOperation (hq : requestOf h = some q) (hfree : ∀ q', q ≠ .locked q') :
    Keeps rt h (createOperation rt spec eventPayload) fun _ _ => True := by
  refine (keeps_look hq hfree fun _ => keeps_getByScope).bind ?_
  rintro h₁ found - hq₁
  cases found with
  | some existing => exact keeps_lifted _
  | none =>
      refine keeps_now.bind ?_
      rintro _ time - rfl
      refine keeps_draw.bind ?_
      rintro _ id - rfl
      have hq₂ := requestOf_cons (requestOf_cons hq₁ ⟨.outside .now, .ok time⟩)
        ⟨.outside .draw, .ok id⟩
      refine (Obeys.attempt (keeps_unlocked hq₂ hfree fun t =>
        keeps_insertOperation ⟨_, List.mem_cons_self, rfl⟩ writesOf_start)).bind ?_
      rintro h₂ result hs -
      have hq₃ : requestOf h₂ = some q := (requestOf_of_suffix hs (List.cons_ne_nil _ _)).trans hq₂
      rcases result with (e | e) | row
      · cases e with
        | integrityError => exact keeps_resolveConflict hq₃ hfree
        | _ => exact Obeys.throw _
      · exact Obeys.throw _
      · exact Obeys.pure trivial

end Creation

/-! ### Due items -/

section Due

variable {time expiresAt : Instant} {owner : Str}

theorem not_completed_of_isDue {row : RecoveryRecord} (hdue : isDue time row = true) :
    row.status ≠ .completed := by
  intro hc
  simp [isDue, hc] at hdue

/-- Items that the transaction has locked and found due. -/
def HoldsDue (t : ℕ) (h : Log) (time : Instant) (items : List RecoveryRecord) : Prop :=
  ∀ row ∈ items, isDue time row = true ∧
    known Row.key t (.recovery row.operationId) h = some (.recovery row)

theorem keeps_lockDue {n : ℕ} {items : List RecoveryRecord} (hb : Began h t)
    (hw : writesOf t h = []) (hnodup : (items.map RecoveryRecord.operationId).Nodup) :
    Keeps rt h (lockDue t time n items) fun h' locked => writesOf t h' = [] ∧
      HoldsDue t h' time locked ∧
      (locked.map RecoveryRecord.operationId).Sublist (items.map RecoveryRecord.operationId) ∧
      ∀ id, id ∉ items.map RecoveryRecord.operationId →
        known Row.key t (.recovery id) h' = known Row.key t (.recovery id) h := by
  induction items generalizing h n with
  | nil =>
      have hdone : lockDue (Q := Request) t time n [] = pure [] := by cases n <;> rfl
      rw [hdone]
      exact Obeys.pure
        ⟨hw, fun _ hr => absurd hr List.not_mem_nil, List.Sublist.refl _, fun _ _ => rfl⟩
  | cons row items ih =>
      cases n with
      | zero =>
          exact Obeys.pure ⟨hw, fun _ hr => absurd hr List.not_mem_nil, List.nil_sublist _,
            fun _ _ => rfl⟩
      | succ n =>
          rw [List.map_cons, List.nodup_cons] at hnodup
          refine (keeps_tryLock hb _).bind ?_
          rintro _ found - ⟨rfl, hkey⟩
          have hother : ∀ id, id ∉ (row :: items).map RecoveryRecord.operationId →
              known Row.key t (.recovery id)
                  (⟨.tryLock t (.recovery row.operationId), .ok found⟩ :: h) =
                known Row.key t (.recovery id) h := by
            intro id hid
            refine known_cons_of_ne fun v hv heq => hid ?_
            cases found with
            | none => cases hv
            | some w =>
                cases hv
                rw [hkey _ rfl] at heq
                rw [← Key.recovery.inj heq]
                exact List.mem_cons_self
          -- the item is skipped
          have hskip : Keeps rt (⟨.tryLock t (.recovery row.operationId), .ok found⟩ :: h)
              (lockDue t time (n + 1) items) fun h' locked => writesOf t h' = [] ∧
                HoldsDue t h' time locked ∧ (locked.map RecoveryRecord.operationId).Sublist
                  ((row :: items).map RecoveryRecord.operationId) ∧
                ∀ id, id ∉ (row :: items).map RecoveryRecord.operationId →
                  known Row.key t (.recovery id) h' = known Row.key t (.recovery id) h := by
            refine (ih (hb.cons _) (by exact hw) hnodup.2).mono ?_
            rintro h₂ locked - ⟨hw₂, hheld, hsublist, hsame⟩
            exact ⟨hw₂, hheld, hsublist.cons _, fun id hid =>
              (hsame id fun hmem => hid (List.mem_cons_of_mem _ hmem)).trans (hother id hid)⟩
          cases found with
          | none => exact hskip
          | some v =>
              have hv : v.key = .recovery row.operationId := hkey v rfl
              cases v with
              | operation | event | lock => cases hv
              | recovery row' =>
                  have hid : row'.operationId = row.operationId := Key.recovery.inj hv
                  have hsome : (some (Row.recovery row')).bind Row.asRecovery = some row' := rfl
                  rw [hsome]
                  by_cases hdue : isDue time row' = true
                  · simp only [Option.filter_some, if_pos hdue]
                    refine (ih (hb.cons _) (by exact hw) hnodup.2).bind ?_
                    rintro h₂ locked - ⟨hw₂, hheld, hsublist, hsame⟩
                    refine Obeys.pure ⟨hw₂, fun r hr => ?_, ?_, fun id hid =>
                      (hsame id fun hmem => hid (List.mem_cons_of_mem _ hmem)).trans
                        (hother id hid)⟩
                    · rcases List.mem_cons.mp hr with rfl | hr
                      · refine ⟨hdue, (hsame _ (hid ▸ hnodup.1)).trans ?_⟩
                        simp [known_cons, told, Row.key]
                      · exact hheld r hr
                    · rw [List.map_cons, List.map_cons, hid]
                      exact hsublist.cons_cons _
                  · simp only [Option.filter_some, if_neg hdue]
                    exact hskip

theorem keeps_claimEach {items : List RecoveryRecord} (hb : Began h t)
    (hw : ∀ w ∈ writesOf t h, w.inLedger = false)
    (hnodup : (items.map RecoveryRecord.operationId).Nodup) (hheld : HoldsDue t h time items) :
    Keeps rt h (claimEach t time owner expiresAt items) fun h' _ =>
      ∀ w ∈ writesOf t h', w.inLedger = false := by
  induction items generalizing h with
  | nil => exact Obeys.pure hw
  | cons row items ih =>
      rw [List.map_cons, List.nodup_cons] at hnodup
      obtain ⟨hdue, hknown⟩ := hheld row List.mem_cons_self
      refine keeps_draw.bind ?_
      rintro _ id - rfl
      refine Obeys.bind (keeps_flush (hb.cons _) hknown (.recovery (moves_of_live
        (not_completed_of_isDue hdue) rfl rfl (Nat.le_succ _)))) ?_
      rintro _ ⟨⟩ - rfl
      refine (ih ((hb.cons _).cons _) (fun w hmem => ?_) hnodup.2 fun r hr => ?_).bind ?_
      · rw [writesOf_update, List.mem_cons] at hmem
        rcases hmem with rfl | hmem
        · rfl
        · exact hw w hmem
      · obtain ⟨hdue', hknown'⟩ := hheld r (List.mem_cons_of_mem _ hr)
        refine ⟨hdue', (known_cons_of_ne fun v hv heq => ?_).trans hknown'⟩
        cases hv
        exact hnodup.1 (List.mem_map.mpr ⟨r, hr, (Key.recovery.inj heq).symm⟩)
      · rintro h' leases - hw'
        exact Obeys.pure hw'

/-- The items among rows with different keys are different. -/
theorem nodup_operationId {rows : List Row} (hnodup : (rows.map Row.key).Nodup) :
    ((rows.filterMap Row.asRecovery).map RecoveryRecord.operationId).Nodup := by
  rw [List.Nodup, List.pairwise_map] at hnodup ⊢
  rw [List.pairwise_filterMap]
  refine hnodup.imp fun {v w} hne r hr s hs heq => hne ?_
  cases v with
  | recovery r' =>
      cases w with
      | recovery s' =>
          cases hr
          cases hs
          exact congrArg Key.recovery heq
      | operation | event | lock => cases hs
  | operation | event | lock => cases hr

theorem keeps_claimDue {leaseOwner : Str} {leaseTime : Instant} {limit : ℤ}
    (hq : requestOf h = some q) (hfree : ∀ q', q ≠ .locked q') :
    Keeps rt h (claimDue leaseOwner leaseTime limit) fun _ _ => True := by
  refine keeps_lift fun _ _ => keeps_now.bind ?_
  rintro _ time - rfl
  refine (keeps_unlocked (requestOf_cons hq _) hfree fun t => ?_).mono fun _ _ _ _ => trivial
  have hb : ∀ {past : Log}, Began ((⟨.start, .ok t⟩ : Entry) :: past) t :=
    ⟨_, List.mem_cons_self, rfl⟩
  refine (keeps_select hb _).bind ?_
  rintro _ found - ⟨rfl, hnodup, -⟩
  have hsorted : (((found.filterMap Row.asRecovery).mergeSort dueBefore).map
      RecoveryRecord.operationId).Nodup :=
    ((List.mergeSort_perm _ _).map _).nodup_iff.mpr (nodup_operationId hnodup)
  refine (keeps_lockDue (hb.cons _) (by exact writesOf_start) hsorted).bind ?_
  rintro h₂ locked hs ⟨hw, hheld, hsublist, -⟩
  refine (keeps_claimEach ((hb.cons _).suffix hs) ?_ (hsorted.sublist hsublist) hheld).mono
    fun _ _ _ hw' => records_other hw'
  rw [hw]
  exact fun _ hmem => absurd hmem List.not_mem_nil

end Due

/-! ### Target locks -/

section Locks

theorem keeps_current {clusterId : Str} {vmid : ℤ} :
    Keeps rt (⟨.start, .ok t⟩ :: h) (current clusterId vmid t) fun h' _ => writesOf t h' = [] := by
  refine (keeps_select ⟨_, List.mem_cons_self, rfl⟩ _).bind ?_
  rintro _ found - ⟨rfl, -⟩
  exact Obeys.pure writesOf_start

/-- A transaction that adds one lock. -/
theorem records_lock (hw : ∃ lock, writesOf t h = [.lock lock]) : Records rt t h := by
  obtain ⟨lock, hw⟩ := hw
  refine records_other fun w hmem => ?_
  rw [hw, List.mem_singleton] at hmem
  rw [hmem]
  rfl

theorem keeps_insertLock {a : Acquisition} {lock : OperationLockRecord} :
    Keeps rt (⟨.start, .ok t⟩ :: h) (insertLock a lock t) fun h' _ => Records rt t h' := by
  have hb : Began ((⟨.start, .ok t⟩ : Entry) :: h) t := ⟨_, List.mem_cons_self, rfl⟩
  refine keeps_connections.bind ?_
  rintro _ ⟨process, registered⟩ - rfl
  refine keeps_lift fun _ _ => (keeps_select (hb.cons _) _).bind ?_
  rintro _ found - ⟨rfl, -⟩
  split
  · exact Obeys.throw _
  · refine Obeys.bind (keeps_add ((hb.cons _).cons _) fun hne => absurd rfl hne) ?_
    rintro _ ⟨⟩ - rfl
    refine Obeys.pure (records_lock ⟨lock, ?_⟩)
    rw [writesOf_insert]
    exact congrArg _ writesOf_start

theorem keeps_acquire {a : Acquisition} (hq : requestOf h = some q) (hfree : ∀ q', q ≠ .locked q') :
    Keeps rt h (acquire rt a) fun _ _ => True := by
  refine keeps_lift fun _ _ => keeps_lift fun _ _ => ?_
  refine (keeps_look hq hfree fun _ => keeps_current).bind ?_
  rintro h₁ found - hq₁
  cases found with
  | some existing => exact Obeys.throw _
  | none =>
      refine keeps_now.bind ?_
      rintro _ time - rfl
      refine keeps_draw.bind ?_
      rintro _ id - rfl
      have hq₂ := requestOf_cons (requestOf_cons hq₁ ⟨.outside .now, .ok time⟩)
        ⟨.outside .draw, .ok id⟩
      refine (Obeys.attempt (keeps_unlocked hq₂ hfree fun _ => keeps_insertLock)).bind ?_
      rintro h₂ result hs -
      have hq₃ : requestOf h₂ = some q := (requestOf_of_suffix hs (List.cons_ne_nil _ _)).trans hq₂
      rcases result with (e | e) | lock
      · cases e with
        | integrityError =>
            refine (keeps_look hq₃ hfree fun _ => keeps_current).bind ?_
            rintro h₃ found - -
            exact Obeys.throw _
        | _ => exact Obeys.throw _
      · exact Obeys.throw _
      · exact Obeys.pure trivial

theorem keeps_acquireHost {a : HostAcquisition} (hq : requestOf h = some q)
    (hfree : ∀ q', q ≠ .locked q') : Keeps rt h (acquireHost rt a) fun _ _ => True := by
  refine keeps_lift fun x _ => ?_
  obtain ⟨targetType, targetId, scopeKey⟩ := x
  refine (keeps_unlocked hq hfree fun t => ?_).mono fun _ _ _ _ => trivial
  have hb : ∀ {past : Log}, Began ((⟨.start, .ok t⟩ : Entry) :: past) t :=
    ⟨_, List.mem_cons_self, rfl⟩
  refine keeps_connections.bind ?_
  rintro _ ⟨process, registered⟩ - rfl
  refine keeps_lift fun _ _ => (keeps_select (hb.cons _) _).bind ?_
  rintro _ found - ⟨rfl, -⟩
  dsimp only
  split
  · exact Obeys.throw _
  · refine keeps_now.bind ?_
    rintro _ time - rfl
    refine keeps_draw.bind ?_
    rintro _ id - rfl
    refine Obeys.bind (Obeys.call (.insert ((((hb.cons _).cons _).cons _).cons _)
      fun hne => absurd rfl hne)) ?_
    rintro _ added - ⟨rfl, -⟩
    cases added with
    | false => exact Obeys.throw _
    | true =>
        refine Obeys.pure
          (records_lock ⟨a.row ⟨time, time, fun _ => id⟩ targetType targetId scopeKey, ?_⟩)
        rw [writesOf_insert]
        exact congrArg _ writesOf_start

theorem keeps_releaseOwned {clusterId : Str} {vmid : ℤ} {ownerId reason : Str}
    (hq : requestOf h = some q) (hfree : ∀ q', q ≠ .locked q') :
    Keeps rt h (releaseOwned clusterId vmid ownerId reason) fun _ _ => True := by
  refine keeps_now.bind ?_
  rintro _ time - rfl
  refine (keeps_unlocked (requestOf_cons hq _) hfree fun t => ?_).mono fun _ _ _ _ => trivial
  have hb : ∀ {past : Log}, Began ((⟨.start, .ok t⟩ : Entry) :: past) t :=
    ⟨_, List.mem_cons_self, rfl⟩
  refine (keeps_select hb _).bind ?_
  rintro _ rows - ⟨rfl, -⟩
  split
  · exact Obeys.pure (records_nothing writesOf_start)
  · rename_i found _
    refine (keeps_lockTargetLock (hb.cons _) found.operationLockId).bind ?_
    rintro _ again - ⟨rfl, -⟩
    split
    · exact Obeys.pure (records_nothing writesOf_start)
    · rename_i r hr
      obtain ⟨rfl, -⟩ := Option.filter_eq_some_iff.mp hr
      have hknown : ∀ {past : Log}, known Row.key t (.lock r.operationLockId) (⟨.lock t
          (.lock found.operationLockId), .ok (some (.lock r))⟩ :: past) = some (.lock r) :=
        by simp [known_cons, told, Row.key]
      refine Obeys.bind (keeps_flush ((hb.cons _).cons _) hknown (.lock (moves_released _ _ r))) ?_
      rintro _ ⟨⟩ - rfl
      refine Obeys.pure (records_lock ⟨released (drawnAt time) reason r, ?_⟩)
      rw [writesOf_update]
      exact congrArg _ writesOf_start

end Locks

/-! ### All calls -/

def Request.isLocked : Request → Bool
  | .locked _ => true
  | _ => false

theorem ne_locked (hq : q.isLocked = false) (q' : LockedCall) : q ≠ .locked q' := by
  rintro rfl
  cases hq

theorem keeps_lockedProgram {q : LockedCall} (hq : requestOf h = some (.locked q)) :
    Keeps rt h (lockedProgram rt q) fun h' resp => Answers rt q h' resp := by
  cases q with
  | append => exact (keeps_append hq).bind fun _ _ _ ha => Obeys.pure ha
  | targetLockConflict => exact (keeps_targetLockConflict hq).bind fun _ _ _ ha => Obeys.pure ha
  | preDispatchFailure => exact (keeps_preDispatchFailure hq).bind fun _ _ _ ha => Obeys.pure ha
  | prepareAndClaim => exact (keeps_prepareAndClaim hq).bind fun _ _ _ ha => Obeys.pure ha
  | claimOperation => exact (keeps_claimOperation hq).bind fun _ _ _ ha => Obeys.pure ha
  | heartbeat => exact (keeps_heartbeat hq).bind fun _ _ _ ha => Obeys.pure ha
  | commitObservation => exact (keeps_commitObservation hq).bind fun _ _ _ ha => Obeys.pure ha
  | release => exact (keeps_release hq).bind fun _ _ _ ha => Obeys.pure ha

theorem keeps_programOf (hq : requestOf h = some q) :
    Keeps rt h (programOf rt q) fun h' resp => ∀ q', q = .locked q' → Answers rt q' h' resp := by
  have hother : ∀ {β : Type} {p : Prog Request β} {f : β → Response}, (∀ q', q ≠ .locked q') →
      Keeps rt h p (fun _ _ => True) →
      Keeps rt h (do return f (← p)) fun h' resp => ∀ q', q = .locked q' → Answers rt q' h' resp :=
    fun hfree hp => hp.bind fun _ _ _ _ => Obeys.pure fun q' heq => absurd heq (hfree q')
  cases q with
  | locked q =>
      refine (keeps_lockedProgram hq).mono fun _ _ _ ha q' heq => ?_
      cases heq
      exact ha
  | create => exact hother (ne_locked rfl) (keeps_createOperation hq (ne_locked rfl))
  | claimDue => exact hother (ne_locked rfl) (keeps_claimDue hq (ne_locked rfl))
  | acquire => exact hother (ne_locked rfl) (keeps_acquire hq (ne_locked rfl))
  | acquireHost => exact hother (ne_locked rfl) (keeps_acquireHost hq (ne_locked rfl))
  | releaseOwned => exact hother (ne_locked rfl) (keeps_releaseOwned hq (ne_locked rfl))

theorem keeps_call (rt : Runtime) (q : Request) : Keeps rt [] (call rt q) fun h' resp =>
    ∀ q', requestOf h' = some (.locked q') → Answers rt q' h' resp := by
  have hreceive : Proper rt [] (.outside (.receive q)) := by
    refine ⟨no_txn rfl, fun _ _ hc => ?_, fun _ _ hc => ?_, fun _ _ => rfl, fun _ hc => ?_,
      fun _ hc => ?_⟩
    · cases hc
    · cases hc
    · cases hc
    · cases hc
  refine (Obeys.call hreceive).bind ?_
  rintro _ ⟨⟩ - ⟨rfl, -⟩
  have hq : requestOf [(⟨.outside (.receive q), .ok ()⟩ : Entry)] = some q := rfl
  refine (keeps_programOf hq).mono fun h' resp hs ha q' hq' => ha q' ?_
  rw [requestOf_of_suffix hs (List.cons_ne_nil _ _), hq] at hq'
  exact Option.some.inj hq'

/-- What all calls keep to, and what a locked call has done when it answers. -/
def contract (rt : Runtime) : Contract (Command Row Key (Outer Request))
    (fun c => Except Fault (Reply Outer.Answer c)) (Except Fault Response) where
  allowed := Proper rt
  ends h r := ∀ q resp, requestOf h = some (.locked q) → r = .ok resp → Answers rt q h resp

theorem follows_of_entry {p : Program (Command Row Key (Outer Request))
    (fun c => Except Fault (Reply Outer.Answer c)) (Except Fault Response)}
    (hp : (system rt).entry p) : p.Follows (system rt).possible (contract rt).allowed
      (contract rt).ends [] := by
  obtain ⟨q, rfl⟩ := hp
  refine Program.Follows.mono (keeps_call rt q) ?_
  rintro h r ⟨-, hr⟩ q' resp hq' rfl
  exact hr resp rfl q' hq'

end Gjallar.Coordination

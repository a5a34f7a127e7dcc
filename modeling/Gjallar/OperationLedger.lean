import Gjallar.LeaseFencing
import Mathlib.Data.List.Chain

/-!
# The operation ledger

The calls that write operations and their events, and the invariant of the ledger over every run
of them: the events of an operation are an unbroken checksum chain that ends in its current row,
and its status changes only as the transition table allows.
-/
namespace Gjallar.OperationLedger

open Gjallar.Text Gjallar.Data Gjallar.Tables Gjallar.Operation Gjallar.OperationStore
  Gjallar.RecoveryStore

/-- `transition`. -/
def transition (rt : Runtime) (draw : Draw) (operationId : Str) (next : OperationStatus)
    (a : Append) (db : Db) : Except StoreError (OperationSnapshot × Db) :=
  appendInSession rt draw operationId { a with nextStatus := some next } db

/-- `append_event`. -/
def appendEvent (rt : Runtime) (draw : Draw) (operationId : Str) (a : Append) (db : Db) :
    Except StoreError (OperationSnapshot × Db) :=
  appendInSession rt draw operationId { a with nextStatus := none } db

/-- `f"vmid:{lock.vmid}"`. -/
def lockTargetId (lock : OperationLockRecord) : Str :=
  ("vmid:" : Str) ++ lock.vmid.elim ("None" : Str) ofInt

/-- Is this an open VM lock on the target of the operation? -/
def locksTarget (operation : OperationRecord) (lock : OperationLockRecord) : Bool :=
  lock.isOpen && lock.scopeType = .proxmoxLocator && operation.targetType = "proxmox_vm" &&
    operation.targetId = lockTargetId lock

/-- `transition_for_target_lock_conflict`. -/
def transitionForTargetLockConflict (rt : Runtime) (draw : Draw)
    (operationId conflictingLockId conflictingOwnerId : Str) (next : OperationStatus) (a : Append)
    (db : Db) : Except StoreError (OperationSnapshot × Db) := do
  let operation ← orRaise (db.operations.get operationId) (.operationNotFound operationId)
  if operation.status ≠ .planned then return (operation, db)
  match db.locks.get conflictingLockId with
  | none => return (operation, db)
  | some lock =>
      if lock.ownerId = conflictingOwnerId ∧ lock.ownerId ≠ operationId ∧
          locksTarget operation lock then
        appendInSession rt draw operationId
          { a with nextStatus := some next, actor := none, expectedStatuses := some [.planned] } db
      else return (operation, db)

/-- `transition_pre_dispatch_failure`: whether the caller may release its lock. -/
def transitionPreDispatchFailure (rt : Runtime) (draw : Draw) (operationId targetLockId : Str)
    (a : Append) (db : Db) : Except StoreError (Bool × Db) := do
  let operation ← orRaise (db.operations.get operationId) (.operationNotFound operationId)
  if operation.status ≠ .planned then return (false, db)
  if (db.recovery.get operationId).isSome then return (false, db)
  match db.locks.get targetLockId with
  | none => return (false, db)
  | some lock =>
      if lock.ownerId = operationId ∧ locksTarget operation lock then do
        let (_, db') ← appendInSession rt draw operationId
          { a with nextStatus := some .failed, actor := none,
                   expectedStatuses := some [.planned] } db
        return (true, db')
      else return (false, db)

/-- The transaction of `create` that inserts the operation and its first event. -/
def insertOperation (rt : Runtime) (draw : Draw) (spec : OperationSpec) (eventPayload : Dict)
    (db : Db) : Option Db := do
  let operations ← db.operations.insert (newOperation rt draw spec eventPayload)
  let events ← db.events.insert (createdEvent rt draw spec eventPayload)
  return { db with operations := operations, events := events }

/-! ### Reading the ledger -/

/-- The events of an operation. -/
def eventsOf (operationId : Str) (events : EventTable) : List OperationEventRecord :=
  events.rows.filter fun e => e.operationId = operationId

/-- `list_events`. -/
def listEvents (operationId : Str) (db : Db) : List OperationEventRecord :=
  (eventsOf operationId db.events).mergeSort fun e f => decide (e.sequence ≤ f.sequence)

/-- The loop of `verify_event_chain`. -/
def verifyFrom (rt : Runtime) : Str → ℕ → List OperationEventRecord → Bool
  | _, _, [] => true
  | previousChecksum, expectedSequence, e :: events =>
      if e.sequence ≠ expectedSequence ∨ e.previousChecksum ≠ previousChecksum then false
      else if e.checksum ≠ rt.operationDigest (eventChecksumPayload rt e) then false
      else verifyFrom rt e.checksum (expectedSequence + 1) events

/-- `verify_event_chain`. -/
def verifyEventChain (rt : Runtime) (events : List OperationEventRecord) : Bool :=
  verifyFrom rt [] 1 events

/-! ### Runs -/

/-- A committed transaction. An insertion of `create` follows a lookup that another transaction
may have made stale. -/
inductive Step (rt : Runtime) (db : Db) : Db → Prop
  | create {r db'} (draw : Draw) (spec : OperationSpec) (eventPayload : Dict)
      (h : OperationStore.create rt draw spec db eventPayload = .ok (r, db')) : Step rt db db'
  | insertion {db'} (draw : Draw) (spec : OperationSpec) (eventPayload : Dict)
      (h : insertOperation rt draw spec eventPayload db = some db') : Step rt db db'
  | transition {r db'} (draw : Draw) (operationId : Str) (next : OperationStatus) (a : Append)
      (h : OperationLedger.transition rt draw operationId next a db = .ok (r, db')) :
      Step rt db db'
  | appendEvent {r db'} (draw : Draw) (operationId : Str) (a : Append)
      (h : OperationLedger.appendEvent rt draw operationId a db = .ok (r, db')) : Step rt db db'
  | appendInSession {r db'} (draw : Draw) (operationId : Str) (a : Append)
      (h : OperationStore.appendInSession rt draw operationId a db = .ok (r, db')) : Step rt db db'
  | targetLockConflict {r db'} (draw : Draw) (operationId lockId ownerId : Str)
      (next : OperationStatus) (a : Append)
      (h : transitionForTargetLockConflict rt draw operationId lockId ownerId next a db =
        .ok (r, db')) : Step rt db db'
  | preDispatchFailure {r db'} (draw : Draw) (operationId lockId : Str) (a : Append)
      (h : transitionPreDispatchFailure rt draw operationId lockId a db = .ok (r, db')) :
      Step rt db db'
  | commitObservation {r db'} (draw : Draw) (lease : RecoveryLease) (o : Observation)
      (h : RecoveryStore.commitObservation rt draw lease o db = .ok (r, db')) : Step rt db db'
  /-- Claims, locks and every other change outside the ledger. -/
  | other {db'} (hoperations : db'.operations = db.operations) (hevents : db'.events = db.events) :
      Step rt db db'

/-- Later databases. -/
inductive Run (rt : Runtime) (db : Db) : Db → Prop
  | refl : Run rt db db
  | step {mid db'} (h : Run rt db mid) (hs : Step rt mid db') : Run rt db db'

/-! ### The invariant -/

/-- The events of an operation and its current row. -/
structure Chained (rt : Runtime) (operation : OperationRecord)
    (events : List OperationEventRecord) : Prop where
  sequences : events.map OperationEventRecord.sequence = List.range' 1 operation.version
  verified : verifyEventChain rt events = true
  created : ∃ e, events.head? = some e ∧ e.fromStatus = none
  linked : events.IsChain fun e f => f.fromStatus = some e.toStatus
  current : ∃ e, events.getLast? = some e ∧ e.checksum = operation.lastEventChecksum ∧
    e.toStatus = operation.status
  allowed : ∀ e ∈ events, ∀ s, e.fromStatus = some s → e.toStatus = s ∨ e.toStatus ∈ s.allowed

/-- Every event belongs to an operation, and every operation is the end of its events. -/
structure Ledger (rt : Runtime) (db : Db) : Prop where
  owned : ∀ e ∈ db.events, (db.operations.get e.operationId).isSome = true
  chained : ∀ id operation, db.operations.get id = some operation →
    Chained rt operation (eventsOf id db.events)

/-! ### One transaction -/

/-- The checksum an event is checked against after the events before it. -/
def lastChecksum (previous : Str) (events : List OperationEventRecord) : Str :=
  (events.getLast?.map OperationEventRecord.checksum).getD previous

theorem verifyFrom_append (rt : Runtime) (previous : Str) (n : ℕ)
    (events : List OperationEventRecord) (e : OperationEventRecord) :
    verifyFrom rt previous n (events ++ [e]) = true ↔ verifyFrom rt previous n events = true ∧
      e.sequence = n + events.length ∧ e.previousChecksum = lastChecksum previous events ∧
      e.checksum = rt.operationDigest (eventChecksumPayload rt e) := by
  induction events generalizing previous n with
  | nil => simp [verifyFrom, lastChecksum, and_assoc]
  | cons f events ih =>
      have hlast : lastChecksum previous (f :: events) = lastChecksum f.checksum events := by
        cases events with
        | nil => rfl
        | cons g events =>
            rw [lastChecksum, lastChecksum, List.getLast?_cons_cons, List.getLast?_cons]
            rfl
      simp only [List.cons_append, verifyFrom, hlast, List.length_cons]
      split
      · simp
      split
      · simp
      rw [ih, show n + 1 + events.length = n + (events.length + 1) by omega]

theorem eventsOf_insert {events events' : EventTable} {e : OperationEventRecord}
    (h : events.insert e = some events') (id : Str) :
    eventsOf id events' = eventsOf id events ++ if e.operationId = id then [e] else [] := by
  rw [eventsOf, eventsOf, Table.insert_eq_some h, List.filter_append]
  by_cases heq : e.operationId = id
  · simp [heq]
  · simp [heq]

theorem sealEvent_checksum (rt : Runtime) (e : OperationEventRecord) :
    (sealEvent rt e).checksum = rt.operationDigest (eventChecksumPayload rt (sealEvent rt e)) := rfl

section Step

variable {rt : Runtime} {draw : Draw} {db db' : Db}

/-- One more event at the end of the chain. -/
theorem Chained.append {row : OperationRecord} {events : List OperationEventRecord}
    (h : Chained rt row events) {a : Append} (hnext : ∀ n ∈ a.nextStatus, n ∈ row.status.allowed) :
    Chained rt (applyProjection rt draw row a) (events ++ [appendedEvent rt draw row a]) := by
  have hlength : events.length = row.version := by
    have hmap := congrArg List.length h.sequences
    rwa [List.length_map, List.length_range'] at hmap
  obtain ⟨first, hfirst, hnone⟩ := h.created
  obtain ⟨last, hlast, hchecksum, hstatus⟩ := h.current
  refine ⟨?_, ?_, ⟨first, ?_, hnone⟩, ?_, ⟨appendedEvent rt draw row a, by simp, rfl, rfl⟩, ?_⟩
  · rw [List.map_append, h.sequences, applyProjection_version, List.range'_concat]
    simp [appendedEvent, sealEvent, Nat.add_comm]
  · refine (verifyFrom_append rt [] 1 events _).mpr ⟨h.verified, ?_, ?_, sealEvent_checksum rt _⟩
    · rw [hlength]
      exact Nat.add_comm row.version 1
    · rw [lastChecksum, hlast]
      exact hchecksum.symm
  · rw [List.head?_append, hfirst]
    rfl
  · refine List.isChain_append.mpr ⟨h.linked, List.isChain_singleton _, ?_⟩
    intro e he f hf
    rw [hlast, Option.mem_some_iff] at he
    rw [List.head?_singleton, Option.mem_some_iff] at hf
    subst he hf
    rw [hstatus]
    rfl
  · intro e he s hs
    rcases List.mem_append.mp he with he | he
    · exact h.allowed e he s hs
    · rw [List.mem_singleton] at he
      subst he
      have hfrom : row.status = s := Option.some.inj hs
      subst hfrom
      cases hn : a.nextStatus with
      | none => exact .inl (by simp [appendedEvent, sealEvent, hn])
      | some next => exact .inr (by simpa [appendedEvent, sealEvent, hn] using hnext next hn)

/-- The ledger after an append. -/
theorem Ledger.append (h : Ledger rt db) {operationId : Str} {a : Append}
    {row' : OperationSnapshot} (ha : appendInSession rt draw operationId a db = .ok (row', db')) :
    Ledger rt db' := by
  obtain ⟨row, events, operations, hget, -, hnext, hinsert, rfl, hput, rfl⟩ :=
    appendInSession_eq_ok ha
  have hevents : ∀ id, eventsOf id events = eventsOf id db.events ++
      if row.operationId = id then [appendedEvent rt draw row a] else [] := eventsOf_insert hinsert
  have hget' : ∀ id, operations.get id = if row.operationId = id then
      (db.operations.get id).map fun _ => applyProjection rt draw row a
      else db.operations.get id := Table.get_put hput
  have hid : row.operationId = operationId := Table.key_of_get hget
  constructor
  · intro e he
    change (operations.get e.operationId).isSome = true
    rw [hget']
    rcases (Table.mem_insert hinsert).mp he with he | rfl
    · have hsome := h.owned e he
      split
      · simpa using hsome
      · exact hsome
    · have hown : db.operations.get (appendedEvent rt draw row a).operationId = some row := by
        rw [← hid] at hget
        exact hget
      rw [if_pos (by rfl), hown]
      rfl
  · intro id operation hop
    change operations.get id = some operation at hop
    change Chained rt operation (eventsOf id events)
    rw [hget'] at hop
    rw [hevents]
    by_cases heq : row.operationId = id
    · rw [if_pos heq, ← heq, hid, hget, Option.map_some, Option.some.injEq] at hop
      subst hop
      rw [if_pos heq]
      exact (h.chained id row (by rw [← heq, hid]; exact hget)).append hnext
    · rw [if_neg heq] at hop
      rw [if_neg heq, List.append_nil]
      exact h.chained id operation hop

/-- The ledger after the insertion of an operation and its first event. -/
theorem Ledger.insertion (h : Ledger rt db) {spec : OperationSpec} {eventPayload : Dict}
    (hi : insertOperation rt draw spec eventPayload db = some db') : Ledger rt db' := by
  simp only [insertOperation, Option.bind_eq_bind, Option.bind_eq_some_iff, Option.pure_def,
    Option.some.injEq] at hi
  obtain ⟨operations, hop, events, hev, rfl⟩ := hi
  have hget : ∀ id, operations.get id = if spec.operationId = id then
      some (newOperation rt draw spec eventPayload) else db.operations.get id :=
    Table.get_insert hop
  have hevents : ∀ id, eventsOf id events = eventsOf id db.events ++
      if spec.operationId = id then [createdEvent rt draw spec eventPayload] else [] :=
    eventsOf_insert hev
  have hfresh : db.operations.get spec.operationId = none := Table.get_insert_key hop
  constructor
  · intro e he
    change (operations.get e.operationId).isSome = true
    rw [hget]
    split
    · rfl
    · rename_i hne
      rcases (Table.mem_insert hev).mp he with he | rfl
      · exact h.owned e he
      · exact absurd rfl hne
  · intro id operation hid
    change operations.get id = some operation at hid
    change Chained rt operation (eventsOf id events)
    rw [hget] at hid
    rw [hevents]
    by_cases heq : spec.operationId = id
    · subst heq
      have hnone : eventsOf spec.operationId db.events = [] := by
        rw [eventsOf, List.filter_eq_nil_iff]
        intro e he hc
        have hsome := h.owned e he
        rw [of_decide_eq_true hc, hfresh] at hsome
        cases hsome
      rw [if_pos rfl, Option.some.injEq] at hid
      subst hid
      rw [hnone, if_pos rfl, List.nil_append]
      have hverified : verifyEventChain rt [createdEvent rt draw spec eventPayload] = true :=
        (verifyFrom_append rt [] 1 [] _).mpr ⟨rfl, rfl, rfl, sealEvent_checksum rt _⟩
      exact ⟨rfl, hverified, ⟨_, rfl, rfl⟩, List.isChain_singleton _, ⟨_, rfl, rfl, rfl⟩, by
        simp [createdEvent, sealEvent]⟩
    · rw [if_neg heq] at hid
      rw [if_neg heq, List.append_nil]
      exact h.chained id operation hid

/-- What a transaction does to the ledger: nothing, an insertion or an append. -/
theorem Step.cases (h : Step rt db db') :
    (db'.operations = db.operations ∧ db'.events = db.events) ∨
    (∃ draw spec eventPayload, insertOperation rt draw spec eventPayload db = some db') ∨
    ∃ draw operationId a row mid,
      OperationStore.appendInSession rt draw operationId a db = .ok (row, mid) ∧
      db'.operations = mid.operations ∧ db'.events = mid.events := by
  cases h with
  | create draw spec eventPayload h =>
      unfold OperationStore.create at h
      split at h
      · simp only [bind_eq_ok, pure_eq_ok, Prod.mk.injEq] at h
        obtain ⟨_, -, -, rfl⟩ := h
        exact .inl ⟨rfl, rfl⟩
      dsimp only at h
      split at h
      · rename_i operations events hop hev
        cases h
        exact .inr (.inl ⟨draw, spec, eventPayload, by simp [insertOperation, hop, hev]⟩)
      split at h
      · simp only [bind_eq_ok, pure_eq_ok, Prod.mk.injEq] at h
        obtain ⟨_, -, -, rfl⟩ := h
        exact .inl ⟨rfl, rfl⟩
      · cases h
  | insertion draw spec eventPayload h => exact .inr (.inl ⟨draw, spec, eventPayload, h⟩)
  | transition draw operationId next a h => exact .inr (.inr ⟨draw, _, _, _, _, h, rfl, rfl⟩)
  | appendEvent draw operationId a h => exact .inr (.inr ⟨draw, _, _, _, _, h, rfl, rfl⟩)
  | appendInSession draw operationId a h => exact .inr (.inr ⟨draw, _, _, _, _, h, rfl, rfl⟩)
  | targetLockConflict draw operationId lockId ownerId next a h =>
      simp only [transitionForTargetLockConflict, bind_eq_ok, orRaise_eq_ok] at h
      obtain ⟨operation, -, h⟩ := h
      split at h
      · cases h
        exact .inl ⟨rfl, rfl⟩
      split at h
      · cases h
        exact .inl ⟨rfl, rfl⟩
      split at h
      · exact .inr (.inr ⟨draw, _, _, _, _, h, rfl, rfl⟩)
      · cases h
        exact .inl ⟨rfl, rfl⟩
  | preDispatchFailure draw operationId lockId a h =>
      simp only [transitionPreDispatchFailure, bind_eq_ok, orRaise_eq_ok] at h
      obtain ⟨operation, -, h⟩ := h
      split at h
      · cases h
        exact .inl ⟨rfl, rfl⟩
      split at h
      · cases h
        exact .inl ⟨rfl, rfl⟩
      split at h
      · cases h
        exact .inl ⟨rfl, rfl⟩
      split at h
      · obtain ⟨⟨row, mid⟩, happend, hdone⟩ := bind_eq_ok.mp h
        cases hdone
        exact .inr (.inr ⟨draw, _, _, _, _, happend, rfl, rfl⟩)
      · cases h
        exact .inl ⟨rfl, rfl⟩
  | commitObservation draw lease o h =>
      rename_i r
      obtain ⟨operation', item⟩ := r
      obtain ⟨_, _, _, _, _, mid, _, _, -, -, -, -, -, -, -, -, happend, -, -, -, rfl⟩ :=
        commitObservation_eq_ok h
      exact .inr (.inr ⟨draw, _, _, _, _, happend, rfl, rfl⟩)
  | other hoperations hevents => exact .inl ⟨hoperations, hevents⟩

theorem Ledger.congr (h : Ledger rt db) (hoperations : db'.operations = db.operations)
    (hevents : db'.events = db.events) : Ledger rt db' := by
  constructor
  · rw [hoperations, hevents]
    exact h.owned
  · rw [hoperations, hevents]
    exact h.chained

/-- Every transaction keeps the ledger. -/
theorem Ledger.step (h : Ledger rt db) (hs : Step rt db db') : Ledger rt db' := by
  rcases hs.cases with ⟨hop, hev⟩ | ⟨draw, spec, eventPayload, hi⟩ |
    ⟨draw, operationId, a, row, mid, ha, hop, hev⟩
  · exact h.congr hop hev
  · exact h.insertion hi
  · exact (h.append ha).congr hop hev

/-- An operation whose status has no exit keeps that status. -/
theorem Step.status_of_final (hs : Step rt db db') {id : Str} {operation : OperationRecord}
    (hget : db.operations.get id = some operation) (hfinal : operation.status.allowed = []) :
    ∃ operation', db'.operations.get id = some operation' ∧
      operation'.status = operation.status := by
  rcases hs.cases with ⟨hop, -⟩ | ⟨draw, spec, eventPayload, hi⟩ |
    ⟨draw, operationId, a, row, mid, ha, hop, -⟩
  · exact ⟨operation, hop ▸ hget, rfl⟩
  · simp only [insertOperation, Option.bind_eq_bind, Option.bind_eq_some_iff, Option.pure_def,
      Option.some.injEq] at hi
    obtain ⟨operations, hop, _, -, rfl⟩ := hi
    refine ⟨operation, ?_, rfl⟩
    rw [Table.get_insert hop, if_neg, hget]
    rintro rfl
    rw [Table.get_insert_key hop] at hget
    cases hget
  · obtain ⟨current, _, operations, hcurrent, -, hnext, -, rfl, hput, rfl⟩ :=
      appendInSession_eq_ok ha
    rw [hop]
    by_cases hid : current.operationId = id
    · have hsame : current = operation := by
        rw [← hid, Table.key_of_get hcurrent, hcurrent] at hget
        exact Option.some.inj hget
      subst hsame
      refine ⟨_, Table.get_put_self hget hput hid, ?_⟩
      have hnone : a.nextStatus = none := by
        cases hn : a.nextStatus with
        | none => rfl
        | some next =>
            have hmem := hnext next hn
            rw [hfinal] at hmem
            cases hmem
      rw [applyProjection_status, hnone]
      rfl
    · refine ⟨operation, ?_, rfl⟩
      rw [Table.get_put hput, if_neg (by exact hid), hget]

end Step

/-! ### The invariant over runs -/

theorem Ledger.run {rt : Runtime} {db db' : Db} (h : Ledger rt db) (hr : Run rt db db') :
    Ledger rt db' := by
  induction hr with
  | refl => exact h
  | step _ hs ih => exact ih.step hs

theorem Run.status_of_final {rt : Runtime} {db db' : Db} (hr : Run rt db db') {id : Str}
    {operation : OperationRecord} (hget : db.operations.get id = some operation)
    (hfinal : operation.status.allowed = []) :
    ∃ operation', db'.operations.get id = some operation' ∧
      operation'.status = operation.status := by
  induction hr with
  | refl => exact ⟨operation, hget, rfl⟩
  | step _ hs ih =>
      obtain ⟨mid, hmid, hstatus⟩ := ih
      obtain ⟨last, hlast, heq⟩ := hs.status_of_final hmid (hstatus ▸ hfinal)
      exact ⟨last, hlast, heq.trans hstatus⟩

/-- The events of an operation are stored in the order of their sequence numbers. -/
theorem Chained.listEvents_eq {rt : Runtime} {db : Db} {id : Str} {operation : OperationRecord}
    (h : Chained rt operation (eventsOf id db.events)) :
    listEvents id db = eventsOf id db.events := by
  apply List.mergeSort_of_pairwise
  have hsorted : ((eventsOf id db.events).map OperationEventRecord.sequence).Pairwise (· ≤ ·) := by
    rw [h.sequences]
    exact List.Pairwise.imp Nat.le_of_lt (List.pairwise_lt_range' 1)
  exact (List.pairwise_map.mp hsorted).imp decide_eq_true

/-- In every database reached from an empty ledger the events of an operation form an unbroken
chain that ends in its row, each status change in it is allowed, and a status without exits is
kept for the rest of every run. -/
theorem operation_ledger {rt : Runtime} {start db : Db}
    (hoperations : start.operations = Table.empty) (hevents : start.events = Table.empty)
    (hrun : Run rt start db) {id : Str}
    {operation : OperationRecord} (hget : db.operations.get id = some operation) :
    Chained rt operation (listEvents id db) ∧
      (operation.status.allowed = [] → ∀ later, Run rt db later →
        ∃ operation', later.operations.get id = some operation' ∧
          operation'.status = operation.status) := by
  have hstart : Ledger rt start := by
    constructor
    · rw [hevents]
      intro e he
      cases he
    · rw [hoperations]
      intro id operation hget
      cases hget
  have hchained := (hstart.run hrun).chained id operation hget
  refine ⟨?_, fun hfinal later hlater => hlater.status_of_final hget hfinal⟩
  rw [hchained.listEvents_eq]
  exact hchained

/-! ### A run of four events -/

def sampleSpec : OperationSpec :=
  { operationId := "vm-compute-1", operationType := .vmCompute, executionMode := .managedApi,
    targetType := "proxmox_vm", targetId := "vmid:100", idempotencyKey := "key-1",
    intentDigest := "sha256:0a", planDigest := "sha256:0a", actor := {} }

/-- An operation is created, noted on and failed. -/
def failedLedger : Except StoreError Db := do
  let (_, db) ← create Runtime.constant (Draw.numbered 1) sampleSpec {} []
  let (_, db) ← appendEvent Runtime.constant (Draw.numbered 2) "vm-compute-1"
    { eventType := "target_locked", stage := "plan" } db
  let (_, db) ← transition Runtime.constant (Draw.numbered 3) "vm-compute-1" .failed
    { eventType := "precheck_failed", stage := "plan" } db
  return db

/-- A failed operation is noted on. -/
def notedLedger (db : Db) : Except StoreError (OperationSnapshot × Db) :=
  appendEvent Runtime.constant (Draw.numbered 4) "vm-compute-1"
    { eventType := "target_released", stage := "plan" } db

/-- The version and the status of the operation. -/
def stateOf (db : Db) : Option (ℕ × OperationStatus) :=
  (db.operations.get "vm-compute-1").map fun r => (r.version, r.status)

/-- The ledger after three events, the last of which fails the operation, and after a fourth. -/
theorem operation_ledger_of_failed_operation : ∃ db later operation operation',
    Run Runtime.constant {} db ∧ Run Runtime.constant db later ∧
    db.operations.get "vm-compute-1" = some operation ∧ operation.version = 3 ∧
    operation.status = .failed ∧ Chained Runtime.constant operation (listEvents "vm-compute-1" db) ∧
    later.operations.get "vm-compute-1" = some operation' ∧
    operation'.status = operation.status ∧ stateOf later = some (4, .failed) := by
  have hruns : (failedLedger >>= fun db => notedLedger db >>= fun (_, later) =>
      pure (decide (stateOf db = some (3, .failed) ∧ stateOf later = some (4, .failed)))) =
        .ok true := by decide +kernel
  simp only [bind_eq_ok, pure_eq_ok, decide_eq_true_eq] at hruns
  obtain ⟨db, hdb, ⟨_, later⟩, hlater, hfailed, hnoted⟩ := hruns
  have hrun : Run Runtime.constant {} db := by
    simp only [failedLedger, bind_eq_ok, pure_eq_ok] at hdb
    obtain ⟨⟨_, _⟩, hcreate, ⟨_, _⟩, hevent, ⟨_, _⟩, htransition, rfl⟩ := hdb
    exact ((Run.refl.step (.create _ _ _ hcreate)).step (.appendEvent _ _ _ hevent)).step
      (.transition _ _ _ _ htransition)
  have hstep : Run Runtime.constant db later := Run.refl.step (.appendEvent _ _ _ hlater)
  obtain ⟨operation, hget, hstate⟩ := Option.map_eq_some_iff.mp hfailed
  obtain ⟨hversion, hstatus⟩ := Prod.mk.inj hstate
  obtain ⟨hchained, hfinal⟩ := operation_ledger rfl rfl hrun hget
  obtain ⟨operation', hget', hkept⟩ := hfinal (by rw [hstatus]; rfl) later hstep
  exact ⟨db, later, operation, operation', hrun, hstep, hget, hversion, hstatus, hchained, hget',
    hkept, hnoted⟩

end Gjallar.OperationLedger

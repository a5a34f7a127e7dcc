import Gjallar.CoordinationCalls
import Gjallar.SessionCommits

/-!
# The coordination tables as rows of one store

How a row may evolve, which lock protects the absence of a row, and when the rows of the store are
those of a database on which the repository calls are single transactions.
-/
namespace Gjallar.Coordination

open Gjallar.Text Gjallar.Data Gjallar.Tables Gjallar.Operation Gjallar.OperationStore
  Gjallar.OperationLedger Gjallar.TargetLocks Gjallar.RecoveryStore Gjallar.ReadCommitted
  Gjallar.Sessions

/-- An item is created under the lock of its operation. -/
def guard : Key → Key
  | .recovery operationId => .operation operationId
  | k => k

/-! ### How a row may evolve -/

/-- An operation keeps its identity, and moves along the transition table. -/
structure OperationMoves (r r' : OperationRecord) : Prop where
  operationId : r'.operationId = r.operationId
  operationType : r'.operationType = r.operationType
  targetType : r'.targetType = r.targetType
  targetId : r'.targetId = r.targetId
  status : Relation.ReflTransGen (fun s s' => s' ∈ OperationStatus.allowed s) r.status r'.status
  version : r.version ≤ r'.version

/-- A recovery item keeps its identity, and a completed one does not change. -/
structure RecoveryMoves (r r' : RecoveryRecord) : Prop where
  operationId : r'.operationId = r.operationId
  recoveryKind : r'.recoveryKind = r.recoveryKind
  leaseGeneration : r.leaseGeneration ≤ r'.leaseGeneration
  completed : r.status = .completed → r' = r

/-- A lock keeps its scope and its owner, and a released one stays released. -/
structure LockMoves (r r' : OperationLockRecord) : Prop where
  operationLockId : r'.operationLockId = r.operationLockId
  operationType : r'.operationType = r.operationType
  scopeType : r'.scopeType = r.scopeType
  scopeKey : r'.scopeKey = r.scopeKey
  clusterId : r'.clusterId = r.clusterId
  vmid : r'.vmid = r.vmid
  ownerId : r'.ownerId = r.ownerId
  isOpen : r'.isOpen = true → r.isOpen = true

inductive Later : Row → Row → Prop
  | operation {r r' : OperationRecord} (h : OperationMoves r r') :
      Later (.operation r) (.operation r')
  | event (e : OperationEventRecord) : Later (.event e) (.event e)
  | recovery {r r' : RecoveryRecord} (h : RecoveryMoves r r') : Later (.recovery r) (.recovery r')
  | lock {r r' : OperationLockRecord} (h : LockMoves r r') : Later (.lock r) (.lock r')

theorem Later.refl (v : Row) : Later v v := by
  cases v with
  | operation r => exact .operation ⟨rfl, rfl, rfl, rfl, .refl, Nat.le_refl _⟩
  | event e => exact .event e
  | recovery r => exact .recovery ⟨rfl, rfl, Nat.le_refl _, fun _ => rfl⟩
  | lock r => exact .lock ⟨rfl, rfl, rfl, rfl, rfl, rfl, rfl, id⟩

theorem Later.trans {v v' v'' : Row} (h : Later v v') (h' : Later v' v'') : Later v v'' := by
  cases h with
  | operation h =>
      cases h' with
      | operation h' =>
          exact .operation ⟨h'.operationId.trans h.operationId,
            h'.operationType.trans h.operationType, h'.targetType.trans h.targetType,
            h'.targetId.trans h.targetId, h.status.trans h'.status,
            h.version.trans h'.version⟩
  | event e => exact h'
  | recovery h =>
      cases h' with
      | recovery h' =>
          refine .recovery ⟨h'.operationId.trans h.operationId,
            h'.recoveryKind.trans h.recoveryKind,
            h.leaseGeneration.trans h'.leaseGeneration, fun hc => ?_⟩
          obtain rfl := h.completed hc
          exact h'.completed hc
  | lock h =>
      cases h' with
      | lock h' =>
          exact .lock ⟨h'.operationLockId.trans h.operationLockId,
            h'.operationType.trans h.operationType, h'.scopeType.trans h.scopeType,
            h'.scopeKey.trans h.scopeKey, h'.clusterId.trans h.clusterId, h'.vmid.trans h.vmid,
            h'.ownerId.trans h.ownerId, fun ho => h.isOpen (h'.isOpen ho)⟩

theorem sameIdempotencyScope_comm (r s : OperationRecord) :
    sameIdempotencyScope r s = sameIdempotencyScope s r := by
  rw [Bool.eq_iff_iff]
  simp only [sameIdempotencyScope, Bool.and_eq_true, decide_eq_true_eq]
  constructor <;> rintro ⟨⟨⟨h1, h2⟩, h3⟩, h4⟩ <;> exact ⟨⟨⟨h1.symm, h2.symm⟩, h3.symm⟩, h4.symm⟩

theorem sameSequence_comm (r s : OperationEventRecord) : sameSequence r s = sameSequence s r := by
  rw [Bool.eq_iff_iff]
  simp only [sameSequence, Bool.and_eq_true, decide_eq_true_eq]
  constructor <;> rintro ⟨h1, h2⟩ <;> exact ⟨h1.symm, h2.symm⟩

theorem order : Order schema Later where
  refl := Later.refl
  trans _ _ _ := Later.trans
  refers v v' h := by
    cases h with
    | operation h => exact List.Subset.refl _
    | event e => exact List.Subset.refl _
    | @recovery r r' h =>
        have hrefers : schema.refers (.recovery r') = schema.refers (.recovery r) :=
          congrArg (fun id => [Key.operation id]) h.operationId
        rw [hrefers]
        exact List.Subset.refl _
    | lock h => exact List.Subset.refl _
  symm v w := by
    cases v with
    | operation r =>
        cases w with
        | operation s => exact sameIdempotencyScope_comm r s
        | event | recovery | lock => rfl
    | event r =>
        cases w with
        | event s => exact sameSequence_comm r s
        | operation | recovery | lock => rfl
    | recovery r =>
        cases w with
        | operation | event | recovery | lock => rfl
    | lock r =>
        cases w with
        | lock s => exact sameOpenScope_comm r s
        | operation | event | recovery => rfl

/-! ### The database that the rows represent -/

def Row.asEvent : Row → Option OperationEventRecord
  | .event e => some e
  | _ => none

structure Represents (rows : CoordinationRows) (db : Db) : Prop where
  operations : ∀ id, rows.get (.operation id) = (db.operations.get id).map .operation
  events : ∀ id, rows.get (.event id) = (db.events.get id).map .event
  recovery : ∀ id, rows.get (.recovery id) = (db.recovery.get id).map .recovery
  locks : ∀ id, rows.get (.lock id) = (db.locks.get id).map .lock

namespace Represents

variable {rows : CoordinationRows} {db : Db}

theorem get_operation (h : Represents rows db) {id : Str} {r : OperationRecord}
    (hr : rows.get (.operation id) = some (.operation r)) : db.operations.get id = some r := by
  rw [h.operations] at hr
  obtain ⟨s, hs, heq⟩ := Option.map_eq_some_iff.mp hr
  cases heq
  exact hs

theorem get_recovery (h : Represents rows db) {id : Str} {r : RecoveryRecord}
    (hr : rows.get (.recovery id) = some (.recovery r)) : db.recovery.get id = some r := by
  rw [h.recovery] at hr
  obtain ⟨s, hs, heq⟩ := Option.map_eq_some_iff.mp hr
  cases heq
  exact hs

theorem get_lock (h : Represents rows db) {id : Str} {r : OperationLockRecord}
    (hr : rows.get (.lock id) = some (.lock r)) : db.locks.get id = some r := by
  rw [h.locks] at hr
  obtain ⟨s, hs, heq⟩ := Option.map_eq_some_iff.mp hr
  cases heq
  exact hs

theorem no_recovery (h : Represents rows db) {id : Str} (hr : rows.get (.recovery id) = none) :
    db.recovery.get id = none := by
  rw [h.recovery] at hr
  exact Option.map_eq_none_iff.mp hr

theorem withJobs (h : Represents rows db) (jobs : Dict) :
    Represents rows { db with jobs := jobs } :=
  ⟨h.operations, h.events, h.recovery, h.locks⟩

end Represents

/-! What is read after one row is put, and after the same row is written to its table. -/

section Put

variable (rows : CoordinationRows) (id : Str)

@[simp] theorem get_put_operation (r : OperationRecord) :
    (rows.put (.operation r)).get (.operation id) =
      if r.operationId = id then some (.operation r) else rows.get (.operation id) := by
  simp [Rows.get_put, Row.key]

@[simp] theorem get_put_event (e : OperationEventRecord) :
    (rows.put (.event e)).get (.event id) =
      if e.eventId = id then some (.event e) else rows.get (.event id) := by
  simp [Rows.get_put, Row.key]

@[simp] theorem get_put_recovery (r : RecoveryRecord) :
    (rows.put (.recovery r)).get (.recovery id) =
      if r.operationId = id then some (.recovery r) else rows.get (.recovery id) := by
  simp [Rows.get_put, Row.key]

@[simp] theorem get_put_lock (r : OperationLockRecord) :
    (rows.put (.lock r)).get (.lock id) =
      if r.operationLockId = id then some (.lock r) else rows.get (.lock id) := by
  simp [Rows.get_put, Row.key]

theorem get_put_ne {rows : CoordinationRows} {v : Row} {k : Key} (h : v.key ≠ k) :
    (rows.put v).get k = rows.get k := by
  rw [Rows.get_put, if_neg h]

end Put

section Table

variable {α β : Type} {key : α → Str} {clash : α → α → Bool} {t t' : Table α Str key clash} {r : α}

theorem map_get_put (f : α → β) (hsome : (t.get (key r)).isSome = true) (hput : t.put r = some t')
    (id : Str) : (t'.get id).map f = if key r = id then some (f r) else (t.get id).map f := by
  rw [Table.get_put hput]
  split
  · rename_i hid
    obtain ⟨old, hold⟩ := Option.isSome_iff_exists.mp hsome
    rw [← hid, hold]
    rfl
  · rfl

theorem map_get_insert (f : α → β) (hinsert : t.insert r = some t') (id : Str) :
    (t'.get id).map f = if key r = id then some (f r) else (t.get id).map f := by
  rw [Table.get_insert hinsert]
  split <;> rfl

/-- A row is written back without a conflict when it conflicts with no more rows than before. -/
theorem exists_put (hsymm : ∀ r s, clash r s = clash s r) {old : α}
    (hold : t.get (key r) = some old) (hless : ∀ s, clash s r = true → clash s old = true) :
    ∃ t', t.put r = some t' := by
  obtain ⟨hmem, hkey⟩ := Table.get_eq_some.mp hold
  have hnodup : ((t.rows.map fun s => if key s = key r then r else s).map key).Nodup := by
    have hmap : (t.rows.map fun s => if key s = key r then r else s).map key = t.rows.map key := by
      rw [List.map_map]
      refine List.map_congr_left fun s _ => ?_
      by_cases hs : key s = key r
      · simp [hs]
      · simp [hs]
    rw [hmap]
    exact t.keys_nodup
  have hfits : ∀ s ∈ t, key s ≠ key r → clash s r = false := by
    intro s hs hne
    by_contra hclash
    rw [Bool.not_eq_false] at hclash
    have hno := Table.not_clash hsymm hs hmem fun heq => hne (heq ▸ hkey)
    rw [hless s hclash] at hno
    cases hno
  have hclash : (t.rows.map fun s => if key s = key r then r else s).Pairwise
      fun r s => clash r s = false := by
    have hkeys : t.rows.Pairwise fun x y => key x ≠ key y := by
      have hn := t.keys_nodup
      rwa [List.Nodup, List.pairwise_map] at hn
    rw [List.pairwise_map]
    refine (t.no_clash.and hkeys).imp_of_mem fun {x y} hx hy hxy => ?_
    by_cases hx' : key x = key r
    · have hy' : key y ≠ key r := fun h => hxy.2 (hx'.trans h.symm)
      rw [if_pos hx', if_neg hy', hsymm]
      exact hfits y hy hy'
    · rw [if_neg hx']
      by_cases hy' : key y = key r
      · rw [if_pos hy']
        exact hfits x hx hx'
      · rw [if_neg hy']
        exact hxy.1
  exact ⟨⟨_, hnodup, hclash⟩, Table.ofRows_eq_some.mpr rfl⟩

theorem exists_insert (hnone : t.get (key r) = none) (hfits : ∀ s ∈ t, clash s r = false) :
    ∃ t', t.insert r = some t' := by
  rw [← Option.ne_none_iff_exists']
  intro h
  obtain ⟨s, hs, hkey | hclash⟩ := Table.exists_of_insert_eq_none h
  · exact Table.get_eq_none.mp hnone s hs hkey
  · rw [hfits s hs] at hclash
    cases hclash

end Table

namespace Represents

variable {rows : CoordinationRows} {db : Db} (h : Represents rows db)
include h

theorem insertOperation {r : OperationRecord} {operations : OperationTable}
    (hinsert : db.operations.insert r = some operations) :
    Represents (rows.put (.operation r)) { db with operations := operations } := by
  refine ⟨fun id => ?_, fun id => ?_, fun id => ?_, fun id => ?_⟩
  · rw [get_put_operation, map_get_insert _ hinsert, h.operations]
  · exact (get_put_ne (by nofun)).trans (h.events id)
  · exact (get_put_ne (by nofun)).trans (h.recovery id)
  · exact (get_put_ne (by nofun)).trans (h.locks id)

theorem putOperation {r : OperationRecord} {operations : OperationTable}
    (hsome : (db.operations.get r.operationId).isSome = true)
    (hput : db.operations.put r = some operations) :
    Represents (rows.put (.operation r)) { db with operations := operations } := by
  refine ⟨fun id => ?_, fun id => ?_, fun id => ?_, fun id => ?_⟩
  · rw [get_put_operation, map_get_put _ hsome hput, h.operations]
  · exact (get_put_ne (by nofun)).trans (h.events id)
  · exact (get_put_ne (by nofun)).trans (h.recovery id)
  · exact (get_put_ne (by nofun)).trans (h.locks id)

theorem insertEvent {e : OperationEventRecord} {events : EventTable}
    (hinsert : db.events.insert e = some events) :
    Represents (rows.put (.event e)) { db with events := events } := by
  refine ⟨fun id => ?_, fun id => ?_, fun id => ?_, fun id => ?_⟩
  · exact (get_put_ne (by nofun)).trans (h.operations id)
  · rw [get_put_event, map_get_insert _ hinsert, h.events]
  · exact (get_put_ne (by nofun)).trans (h.recovery id)
  · exact (get_put_ne (by nofun)).trans (h.locks id)

theorem insertRecovery {r : RecoveryRecord} {recovery : RecoveryTable}
    (hinsert : db.recovery.insert r = some recovery) :
    Represents (rows.put (.recovery r)) { db with recovery := recovery } := by
  refine ⟨fun id => ?_, fun id => ?_, fun id => ?_, fun id => ?_⟩
  · exact (get_put_ne (by nofun)).trans (h.operations id)
  · exact (get_put_ne (by nofun)).trans (h.events id)
  · rw [get_put_recovery, map_get_insert _ hinsert, h.recovery]
  · exact (get_put_ne (by nofun)).trans (h.locks id)

theorem putRecovery {r : RecoveryRecord} {recovery : RecoveryTable}
    (hsome : (db.recovery.get r.operationId).isSome = true)
    (hput : db.recovery.put r = some recovery) :
    Represents (rows.put (.recovery r)) { db with recovery := recovery } := by
  refine ⟨fun id => ?_, fun id => ?_, fun id => ?_, fun id => ?_⟩
  · exact (get_put_ne (by nofun)).trans (h.operations id)
  · exact (get_put_ne (by nofun)).trans (h.events id)
  · rw [get_put_recovery, map_get_put _ hsome hput, h.recovery]
  · exact (get_put_ne (by nofun)).trans (h.locks id)

theorem putLock {r : OperationLockRecord} {locks : LockTable}
    (hsome : (db.locks.get r.operationLockId).isSome = true)
    (hput : db.locks.put r = some locks) :
    Represents (rows.put (.lock r)) { db with locks := locks } := by
  refine ⟨fun id => ?_, fun id => ?_, fun id => ?_, fun id => ?_⟩
  · exact (get_put_ne (by nofun)).trans (h.operations id)
  · exact (get_put_ne (by nofun)).trans (h.events id)
  · exact (get_put_ne (by nofun)).trans (h.recovery id)
  · rw [get_put_lock, map_get_put _ hsome hput, h.locks]

end Represents

/-! ### Rows that keep the constraints represent a database -/

section Existence

variable {rows : CoordinationRows} {α : Type} {tkey : α → Str} {clash : α → α → Bool}

/-- The rows of one kind, as a table. -/
theorem exists_table (hc : Constrained schema rows) (row : α → Row) (ofRow : Row → Option α)
    (toKey : Str → Key) (hrow : ∀ v a, ofRow v = some a ↔ v = row a)
    (hkey : ∀ a, (row a).key = toKey (tkey a)) (hinj : Function.Injective toKey)
    (hkind : ∀ v id, v.key = toKey id → ∃ a, v = row a)
    (hclash : ∀ a b, schema.clash (row a) (row b) = clash a b) :
    ∃ t : Table α Str tkey clash, ∀ id, rows.get (toKey id) = (t.get id).map row := by
  have hpairwise : ∀ {R : α → α → Prop}, (∀ a b, row a ∈ rows.list → row b ∈ rows.list →
      (row a).key ≠ (row b).key → R a b) → (rows.list.filterMap ofRow).Pairwise R := by
    intro R himp
    have hkeys := List.pairwise_map.mp rows.nodup
    rw [List.pairwise_filterMap]
    refine hkeys.imp_of_mem fun {v w} hv hw hne a ha b hb => ?_
    obtain rfl := (hrow v a).mp ha
    obtain rfl := (hrow w b).mp hb
    exact himp a b hv hw hne
  have hnodup : ((rows.list.filterMap ofRow).map tkey).Nodup := by
    rw [List.Nodup, List.pairwise_map]
    refine hpairwise fun a b _ _ hne heq => hne ?_
    rw [hkey, hkey, heq]
  have hno : (rows.list.filterMap ofRow).Pairwise fun a b => clash a b = false := by
    refine hpairwise fun a b ha hb hne => ?_
    rw [← hclash]
    exact hc.unique _ _ _ _ (Rows.get_of_mem ha) (Rows.get_of_mem hb) hne
  refine ⟨⟨_, hnodup, hno⟩, fun id => ?_⟩
  cases hget : rows.get (toKey id) with
  | some v =>
      obtain ⟨hmem, hk⟩ := Rows.get_eq_some.mp hget
      obtain ⟨a, rfl⟩ := hkind v id hk
      have hid : tkey a = id := hinj ((hkey a).symm.trans hk)
      have ha : Table.get ⟨_, hnodup, hno⟩ id = some a :=
        Table.get_eq_some.mpr ⟨List.mem_filterMap.mpr ⟨_, hmem, (hrow _ a).mpr rfl⟩, hid⟩
      rw [ha]
      rfl
  | none =>
      have hnone : Table.get ⟨_, hnodup, hno⟩ id = none := by
        refine Table.get_eq_none.mpr fun a ha hid => ?_
        obtain ⟨v, hv, hva⟩ := List.mem_filterMap.mp ha
        obtain rfl := (hrow v a).mp hva
        exact Rows.get_eq_none.mp hget _ hv ((hkey a).trans (congrArg toKey hid))
      rw [hnone]
      rfl

theorem exists_operations (hc : Constrained schema rows) :
    ∃ t : OperationTable, ∀ id, rows.get (.operation id) = (t.get id).map .operation := by
  refine exists_table hc .operation Row.asOperation .operation (fun v a => ?_) (fun _ => rfl)
    (fun _ _ => Key.operation.inj) (fun v id h => ?_) fun _ _ => rfl
  · cases v <;> simp [Row.asOperation]
  · cases v with
    | operation r => exact ⟨r, rfl⟩
    | event | recovery | lock => cases h

theorem exists_events (hc : Constrained schema rows) :
    ∃ t : EventTable, ∀ id, rows.get (.event id) = (t.get id).map .event := by
  refine exists_table hc .event Row.asEvent .event (fun v a => ?_) (fun _ => rfl)
    (fun _ _ => Key.event.inj) (fun v id h => ?_) fun _ _ => rfl
  · cases v <;> simp [Row.asEvent]
  · cases v with
    | event r => exact ⟨r, rfl⟩
    | operation | recovery | lock => cases h

theorem exists_recovery (hc : Constrained schema rows) :
    ∃ t : RecoveryTable, ∀ id, rows.get (.recovery id) = (t.get id).map .recovery := by
  refine exists_table hc .recovery Row.asRecovery .recovery (fun v a => ?_) (fun _ => rfl)
    (fun _ _ => Key.recovery.inj) (fun v id h => ?_) fun _ _ => rfl
  · cases v <;> simp [Row.asRecovery]
  · cases v with
    | recovery r => exact ⟨r, rfl⟩
    | operation | event | lock => cases h

theorem exists_locks (hc : Constrained schema rows) :
    ∃ t : LockTable, ∀ id, rows.get (.lock id) = (t.get id).map .lock := by
  refine exists_table hc .lock Row.asLock .lock (fun v a => ?_) (fun _ => rfl)
    (fun _ _ => Key.lock.inj) (fun v id h => ?_) fun _ _ => rfl
  · cases v <;> simp [Row.asLock]
  · cases v with
    | lock r => exact ⟨r, rfl⟩
    | operation | event | recovery => cases h

theorem exists_represents (hc : Constrained schema rows) : ∃ db, Represents rows db := by
  obtain ⟨operations, hoperations⟩ := exists_operations hc
  obtain ⟨events, hevents⟩ := exists_events hc
  obtain ⟨recovery, hrecovery⟩ := exists_recovery hc
  obtain ⟨locks, hlocks⟩ := exists_locks hc
  exact ⟨{ operations := operations, events := events, recovery := recovery, locks := locks },
    hoperations, hevents, hrecovery, hlocks⟩

end Existence

end Gjallar.Coordination

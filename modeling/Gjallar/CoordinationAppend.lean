import Gjallar.CoordinationContract

/-!
# Appends to the ledger, statement by statement

What the statements of `append_in_session` have read and written, that they amount to one append on
the committed rows, and which transactions are steps of the ledger.
-/
namespace Gjallar.Coordination

open Gjallar.Text Gjallar.Data Gjallar.Tables Gjallar.Operation Gjallar.Admission
  Gjallar.OperationStore Gjallar.OperationLedger Gjallar.TargetLocks Gjallar.RecoveryStore
  Gjallar.ReadCommitted Gjallar.Sessions Gjallar.Processes Gjallar.Processes.Fallible

/-- A row of the operations or of their events. -/
def Row.inLedger : Row → Bool
  | .operation _ | .event _ => true
  | _ => false

/-- A key of the operations or of their events. -/
def Key.inLedger : Key → Bool
  | .operation _ | .event _ => true
  | _ => false

@[simp] theorem inLedger_key (v : Row) : v.key.inLedger = v.inLedger := by cases v <;> rfl

variable {rt : Runtime} {h : Log} {t : ℕ} {rows : CoordinationRows} {db : Db} {ws : List Row}

/-! ### Writes outside the ledger -/

theorem get_putAll_of_ne {k : Key} (hws : ∀ w ∈ ws, w.key ≠ k) (rest : List Row) :
    (rows.putAll (ws ++ rest)).get k = (rows.putAll rest).get k := by
  have hnone : (ws.find? fun w => w.key = k) = none :=
    List.find?_eq_none.mpr fun w hw heq => hws w hw (of_decide_eq_true heq)
  rw [Rows.get_putAll, Rows.get_putAll, List.find?_append, hnone, Option.none_or]

theorem key_ne_of_inLedger {k : Key} (hk : k.inLedger = true) (hws : ∀ w ∈ ws, w.inLedger = false) :
    ∀ w ∈ ws, w.key ≠ k := by
  rintro w hw rfl
  rw [inLedger_key, hws w hw] at hk
  cases hk

/-- The operations and events as a step of the ledger leaves them, with any other rows. -/
theorem exists_run {rest : List Row} {mid : Db}
    (hc : Constrained schema (rows.putAll (ws ++ rest))) (hws : ∀ w ∈ ws, w.inLedger = false)
    (hmid : Represents (rows.putAll rest) mid) (hrun : OperationLedger.Run rt db mid) :
    ∃ db', Represents (rows.putAll (ws ++ rest)) db' ∧ OperationLedger.Run rt db db' := by
  obtain ⟨recovery, hrecovery⟩ := exists_recovery hc
  obtain ⟨locks, hlocks⟩ := exists_locks hc
  refine ⟨{ mid with recovery := recovery, locks := locks }, ⟨fun id => ?_, fun id => ?_, hrecovery,
    hlocks⟩, .step hrun (.other rfl rfl)⟩
  · rw [get_putAll_of_ne (key_ne_of_inLedger rfl hws), hmid.operations]
  · rw [get_putAll_of_ne (key_ne_of_inLedger rfl hws), hmid.events]

/-- A transaction that writes no operation and no event. -/
theorem records_other (hws : ∀ w ∈ writesOf t h, w.inLedger = false) : Records rt t h := by
  intro rows db hrep _ hc
  rw [← List.append_nil (writesOf t h)] at hc ⊢
  exact exists_run hc hws hrep .refl

/-! ### Appends -/

/-- The statements of an append: the operation is locked, the event and the row are written. -/
structure Appended (t : ℕ) (operationId : Str) (a : Append) (drawn : Draw) (row : OperationRecord)
    (h : Log) : Prop where
  named : ¬ ((strip a.eventType).isEmpty = true ∨ (strip a.stage).isEmpty = true)
  expected : ¬ ∃ expected ∈ a.expectedStatuses, row.status ∉ expected
  next : ∀ n ∈ a.nextStatus, n ∈ row.status.allowed
  found : Shows t h fun rows => rows.get (.operation operationId) = some (.operation row)
  fresh : Shows t h fun rows => rows.get (.event (newEventId drawn)) = none

/-- What an append writes. -/
def appendWrites (rt : Runtime) (drawn : Draw) (row : OperationRecord) (a : Append) : List Row :=
  [.operation (applyProjection rt drawn row a), .event (appendedEvent rt drawn row a)]

namespace Appended

variable {operationId : Str} {a : Append} {drawn : Draw} {row : OperationRecord}

theorem of_suffix {past : Log} (ha : Appended t operationId a drawn row past) (hs : past <:+ h) :
    Appended t operationId a drawn row h :=
  ⟨ha.named, ha.expected, ha.next, ha.found.of_suffix hs, ha.fresh.of_suffix hs⟩

/-- On the committed rows the statements are one append. -/
theorem appends (ha : Appended t operationId a drawn row h) (hrep : Represents rows db)
    (hl : Learned Later guard rows t h)
    (hc : Constrained schema (rows.putAll (ws ++ appendWrites rt drawn row a)))
    (hws : ∀ w ∈ ws, w.inLedger = false) : ∃ operations events,
      OperationStore.appendInSession rt drawn operationId a db =
        .ok (applyProjection rt drawn row a,
          { db with operations := operations, events := events }) ∧
      Represents (rows.putAll (appendWrites rt drawn row a))
        { db with operations := operations, events := events } := by
  have hfound : db.operations.get operationId = some row := hrep.get_operation (ha.found rows hl)
  have hid : row.operationId = operationId := Table.key_of_get hfound
  subst hid
  have hnone : db.events.get (newEventId drawn) = none := by
    have hfresh : rows.get (.event (newEventId drawn)) = none := ha.fresh rows hl
    rw [hrep.events] at hfresh
    exact Option.map_eq_none_iff.mp hfresh
  -- the committed rows hold the event beside all earlier ones
  have hnew : ∀ {k}, k.inLedger = true → (rows.putAll (ws ++ appendWrites rt drawn row a)).get k =
      (rows.putAll (appendWrites rt drawn row a)).get k :=
    fun hk => get_putAll_of_ne (key_ne_of_inLedger hk hws) _
  have hevent : (rows.putAll (ws ++ appendWrites rt drawn row a)).get (.event (newEventId drawn)) =
      some (.event (appendedEvent rt drawn row a)) := by
    rw [hnew rfl]
    exact (get_put_ne (by nofun)).trans ((get_put_event _ _ _).trans (if_pos rfl))
  have hfits : ∀ s ∈ db.events, sameSequence s (appendedEvent rt drawn row a) = false := by
    intro s hs
    have hne : s.eventId ≠ newEventId drawn := Table.get_eq_none.mp hnone s hs
    have hold : (rows.putAll (ws ++ appendWrites rt drawn row a)).get (.event s.eventId) =
        some (.event s) := by
      rw [hnew rfl]
      refine (get_put_ne (by nofun)).trans
        ((get_put_event _ _ _).trans ((if_neg hne.symm).trans ?_))
      have hget : db.events.get s.eventId = some s := Table.get_of_mem hs
      exact (hrep.events s.eventId).trans (congrArg _ hget)
    exact hc.unique _ _ _ _ hold hevent fun heq => hne (Key.event.inj heq)
  obtain ⟨events, hevents⟩ := exists_insert hnone hfits
  have hless : ∀ s, sameIdempotencyScope s (applyProjection rt drawn row a) = true →
      sameIdempotencyScope s row = true := fun _ hs => hs
  obtain ⟨operations, hoperations⟩ : ∃ t', db.operations.put (applyProjection rt drawn row a) =
      some t' := exists_put sameIdempotencyScope_comm hfound hless
  refine ⟨operations, events, ?_, ?_⟩
  · simp only [OperationStore.appendInSession, bind_eq_ok, raiseIf_eq_ok, orRaise_eq_ok,
      ensureNext_eq_ok, pure_eq_ok]
    exact ⟨(), ha.named, row, hfound, (), ha.expected, (), ha.next, events, hevents, operations,
      hoperations, rfl⟩
  · exact (hrep.insertEvent hevents).putOperation (Option.isSome_of_eq_some hfound) hoperations

theorem records (ha : Appended t operationId a drawn row h)
    (hwrites : writesOf t h = ws ++ appendWrites rt drawn row a)
    (hws : ∀ w ∈ ws, w.inLedger = false) : Records rt t h := by
  intro rows db hrep hl hc
  rw [hwrites] at hc ⊢
  obtain ⟨operations, events, happend, hmid⟩ := ha.appends hrep hl hc hws
  exact exists_run hc hws hmid (.step .refl (.appendInSession drawn operationId a happend))

end Appended

theorem moves_applyProjection {drawn : Draw} {row : OperationRecord} {a : Append}
    (hnext : ∀ n ∈ a.nextStatus, n ∈ row.status.allowed) :
    OperationMoves row (applyProjection rt drawn row a) := by
  refine ⟨rfl, rfl, rfl, rfl, ?_, Nat.le_succ _⟩
  rw [applyProjection_status]
  cases hn : a.nextStatus with
  | none => exact .refl
  | some n => exact .single (hnext n hn)

/-- What is known of rows outside the ledger is not changed by an append. -/
def SameKnown (t : ℕ) (h h' : Log) : Prop :=
  ∀ k : Key, k.inLedger = false → known Row.key t k h' = known Row.key t k h

/-- An append, after which the transaction has written the event and the row. -/
theorem keeps_appendInSession {operationId : Str} {a : Append} (hb : Began h t)
    (hw : writesOf t h = []) : Keeps rt h (appendInSession rt t operationId a) fun h' row' =>
      ∃ time id row, Appended t operationId a ⟨time, time, fun _ => id⟩ row h' ∧
        row' = applyProjection rt ⟨time, time, fun _ => id⟩ row a ∧
        writesOf t h' = appendWrites rt ⟨time, time, fun _ => id⟩ row a ∧ SameKnown t h h' := by
  refine keeps_lift fun _ hnamed => (keeps_lockOperation hb operationId).bind ?_
  rintro _ found - ⟨rfl, hid⟩
  cases found with
  | none => exact Obeys.throw _
  | some row =>
      have hid : row.operationId = operationId := hid row rfl
      subst hid
      refine keeps_lift fun _ hexpected => keeps_lift fun _ hnext => keeps_now.bind ?_
      have hnext : ∀ n ∈ a.nextStatus, n ∈ row.status.allowed := (ensureNext_eq_ok _ _ _).mp hnext
      rintro _ time - rfl
      refine keeps_draw.bind ?_
      rintro _ id - rfl
      refine Obeys.bind (keeps_add (((hb.cons _).cons _).cons _) fun hne => absurd rfl hne) ?_
      rintro _ ⟨⟩ - rfl
      have hknown : known Row.key t (.operation row.operationId) (⟨.insert t (.event
          (appendedEvent rt ⟨time, time, fun _ => id⟩ row a)), .ok true⟩ ::
            ⟨.outside .draw, .ok id⟩ ::
          ⟨.outside .now, .ok time⟩ :: ⟨.lock t (.operation row.operationId),
            .ok (some (.operation row))⟩ :: h) = some (.operation row) := by
        simp [known_cons, told, Row.key]
      refine Obeys.bind (keeps_flush (((((hb.cons _).cons _).cons _).cons _)) hknown
        (.operation (moves_applyProjection hnext))) ?_
      rintro _ ⟨⟩ - rfl
      refine Obeys.pure ⟨time, id, row, ⟨(raiseIf_eq_ok _ _ _).mp hnamed,
        (raiseIf_eq_ok _ _ _).mp hexpected, hnext, (shows_lock hw).of_suffix ⟨[_, _, _, _], rfl⟩,
        shows_fresh.of_suffix ⟨[_], rfl⟩⟩, rfl, ?_, fun k hk => ?_⟩
      · rw [writesOf_update, writesOf_insert, writesOf_outside, writesOf_outside, writesOf_lock, hw]
        rfl
      · cases k with
        | operation | event => cases hk
        | recovery | lock => simp [known_cons, told, Row.key]

end Gjallar.Coordination

import Gjallar.OperationLedger
import Gjallar.Runs

/-!
# Racing creations

`create` as the transactions it commits: a look-up by idempotency scope, an insertion of the
operation with its first event, and, when the insertion breaks a constraint, two more look-ups.
Any number of calls run interleaved with each other and with every other writer of the ledger.
-/
namespace Gjallar.OperationCreation

open Gjallar.Text Gjallar.Data Gjallar.Tables Gjallar.Operation Gjallar.OperationStore
  Gjallar.OperationLedger Gjallar.Processes

/-- The transactions of `create`. An insertion carries the event identifier and the time drawn
before it. -/
inductive Command where
  | getByScope (spec : OperationSpec)
  | insert (draw : Draw) (spec : OperationSpec) (eventPayload : Dict)
  | get (operationId : Str)

/-- The row found or inserted; `none` of an insertion is the integrity error. -/
abbrev Reply (_ : Command) : Type := Option OperationSnapshot

abbrev Outcome := Except StoreError (OperationSnapshot × Bool)

/-- `create`. -/
def create (draw : Draw) (spec : OperationSpec) (eventPayload : Dict) :
    Program Command Reply Outcome := do
  match ← Program.send (C := Command) (R := Reply) (.getByScope spec) with
  | some existing => return resolveExisting existing spec
  | none =>
  match ← Program.send (C := Command) (R := Reply) (.insert draw spec eventPayload) with
  | some result => return .ok (result, true)
  | none =>
  match ← Program.send (C := Command) (R := Reply) (.getByScope spec) with
  | some existing => return resolveExisting existing spec
  | none =>
  match ← Program.send (C := Command) (R := Reply) (.get spec.operationId) with
  | some existing => return resolveExisting existing spec
  | none => return .error .integrityError

def answer (rt : Runtime) (db : Db) : (c : Command) → Reply c × Db
  | .getByScope spec => (OperationStore.getByScope db spec, db)
  | .insert draw spec eventPayload =>
      match insertOperation rt draw spec eventPayload db with
      | some db' => (some (newOperation rt draw spec eventPayload), db')
      | none => (none, db)
  | .get operationId => (OperationStore.get operationId db, db)

/-- The other writers of the ledger, which insert no operation. -/
def Writes (rt : Runtime) (db db' : Db) : Prop :=
  Step rt db db' ∧ ∀ id, (db'.operations.get id).isSome = (db.operations.get id).isSome

/-- Calls of `create` among other writers. -/
def system (rt : Runtime) : System Command Reply Outcome Db where
  exec := fun db c r db' => answer rt db c = (r, db')
  environment := Writes rt
  entry := fun p => ∃ draw spec eventPayload, p = create draw spec eventPayload
  possible := fun _ _ => True
  possible_of_exec := fun _ => trivial

/-- A store without operations. -/
def Initial (db : Db) : Prop := db.operations = Table.empty ∧ db.events = Table.empty

/-! ### What a row keeps -/

/-- The columns of the idempotency constraint. -/
structure Scope where
  operationType : OperationType
  targetType : Str
  targetId : Str
  idempotencyKey : Str
  deriving DecidableEq

/-- The identity and intent of an operation. -/
structure Intent where
  scope : Scope
  executionMode : ExecutionMode
  intentDigest : Str
  planDigest : Str
  deriving DecidableEq

def intentOf (r : OperationRecord) : Intent :=
  ⟨⟨r.operationType, r.targetType, r.targetId, r.idempotencyKey⟩, r.executionMode,
    r.intentDigest, r.planDigest⟩

def intentOfSpec (spec : OperationSpec) : Intent :=
  ⟨⟨spec.operationType, spec.targetType, spec.targetId, spec.idempotencyKey⟩,
    spec.executionMode, spec.intentDigest, spec.planDigest⟩

theorem resolveExisting_eq (existing : OperationRecord) (spec : OperationSpec) :
    resolveExisting existing spec = if intentOf existing = intentOfSpec spec then
      .ok (existing, false) else .error (.operationIntentConflict existing.operationId) := by
  unfold resolveExisting
  refine if_congr ?_ rfl rfl
  simp only [intentOf, intentOfSpec, Intent.mk.injEq, Scope.mk.injEq]
  tauto

theorem sameIdempotencyScope_iff (r s : OperationRecord) :
    sameIdempotencyScope r s = true ↔ (intentOf r).scope = (intentOf s).scope := by
  simp [sameIdempotencyScope, intentOf, and_assoc]

theorem getByScope_eq_some {db : Db} {spec : OperationSpec} {r : OperationRecord}
    (h : getByScope db spec = some r) :
    r ∈ db.operations ∧ (intentOf r).scope = (intentOfSpec spec).scope := by
  refine ⟨List.mem_of_find?_eq_some h, ?_⟩
  have hfound := List.find?_some h
  simpa [intentOf, intentOfSpec, and_assoc] using hfound

theorem getByScope_eq_none {db : Db} {spec : OperationSpec} :
    getByScope db spec = none ↔
      ∀ r ∈ db.operations, (intentOf r).scope ≠ (intentOfSpec spec).scope := by
  rw [getByScope, List.find?_eq_none]
  refine forall₂_congr fun r _ => ?_
  simp [intentOf, intentOfSpec, and_assoc]

/-- An operation is stored under this identifier and with this intent. -/
def Stored (db : Db) (id : Str) (x : Intent) : Prop :=
  ∃ r, db.operations.get id = some r ∧ intentOf r = x

section Step

variable {rt : Runtime} {db db' : Db}

theorem insertOperation_eq_some {draw : Draw} {spec : OperationSpec} {eventPayload : Dict}
    (h : insertOperation rt draw spec eventPayload db = some db') : ∃ operations events,
      db.operations.insert (newOperation rt draw spec eventPayload) = some operations ∧
      db.events.insert (createdEvent rt draw spec eventPayload) = some events ∧
      db' = { db with operations := operations, events := events } := by
  simp only [insertOperation, Option.bind_eq_bind, Option.bind_eq_some_iff, Option.pure_def,
    Option.some.injEq] at h
  obtain ⟨operations, hop, events, hev, rfl⟩ := h
  exact ⟨operations, events, hop, hev, rfl⟩

theorem get_insertOperation {draw : Draw} {spec : OperationSpec} {eventPayload : Dict}
    (h : insertOperation rt draw spec eventPayload db = some db') (id : Str) :
    db'.operations.get id = if spec.operationId = id then
      some (newOperation rt draw spec eventPayload) else db.operations.get id := by
  obtain ⟨operations, events, hop, -, rfl⟩ := insertOperation_eq_some h
  exact Table.get_insert hop id

/-- No writer changes the identity or the intent of an operation. -/
theorem Stored.step {id : Str} {x : Intent} (h : Stored db id x) (hs : Step rt db db') :
    Stored db' id x := by
  obtain ⟨r, hr, rfl⟩ := h
  rcases hs.cases with ⟨hop, -⟩ | ⟨draw, spec, eventPayload, hi⟩ |
    ⟨draw, operationId, a, row, mid, ha, hop, -⟩
  · exact ⟨r, hop ▸ hr, rfl⟩
  · refine ⟨r, (get_insertOperation hi id).trans ((if_neg ?_).trans hr), rfl⟩
    rintro rfl
    obtain ⟨_, _, hop, -, -⟩ := insertOperation_eq_some hi
    have hfresh : db.operations.get spec.operationId = none := Table.get_insert_key hop
    rw [hfresh] at hr
    cases hr
  · obtain ⟨current, _, operations, hcurrent, -, -, -, rfl, hput, rfl⟩ := appendInSession_eq_ok ha
    have hget : db'.operations.get id = _ := (congrArg (·.get id) hop).trans (Table.get_put hput id)
    by_cases hid : current.operationId = id
    · rw [if_pos (show (applyProjection rt draw current a).operationId = id from hid), hr] at hget
      refine ⟨_, hget, ?_⟩
      have hsame : current = r := by
        rw [← hid, Table.key_of_get hcurrent, hcurrent] at hr
        exact Option.some.inj hr
      rw [← hsame]
      rfl
    · rw [if_neg (show (applyProjection rt draw current a).operationId ≠ id from hid)] at hget
      exact ⟨r, hget.trans hr, rfl⟩

/-- Events are never removed. -/
theorem mem_events_of_step {e : OperationEventRecord} (h : e ∈ db.events) (hs : Step rt db db') :
    e ∈ db'.events := by
  rcases hs.cases with ⟨-, hev⟩ | ⟨draw, spec, eventPayload, hi⟩ |
    ⟨draw, operationId, a, row, mid, ha, -, hev⟩
  · rwa [hev]
  · obtain ⟨_, events, -, hev, rfl⟩ := insertOperation_eq_some hi
    exact (Table.mem_insert hev).mpr (.inl h)
  · obtain ⟨_, events, _, -, -, -, hinsert, -, -, rfl⟩ := appendInSession_eq_ok ha
    rw [hev]
    exact (Table.mem_insert hinsert).mpr (.inl h)

/-- A transaction of `create` leaves the store alone or is an insertion. -/
theorem step_of_answer {c : Command} {r : Reply c} (h : answer rt db c = (r, db')) :
    Step rt db db' := by
  cases c with
  | getByScope spec =>
      cases h
      exact .other rfl rfl
  | get operationId =>
      cases h
      exact .other rfl rfl
  | insert draw spec eventPayload =>
      cases hi : insertOperation rt draw spec eventPayload db with
      | none =>
          simp only [answer, hi] at h
          cases h
          exact .other rfl rfl
      | some inserted =>
          simp only [answer, hi] at h
          cases h
          exact .insertion draw spec eventPayload hi

end Step

/-! ### What a call does -/

/-- The transactions of a call with a specification, and what it returns after them. -/
inductive Ended (spec : OperationSpec) : History Command Reply → Outcome → Prop
  | known (existing : OperationSnapshot) : Ended spec [⟨.getByScope spec, some existing⟩]
      (resolveExisting existing spec)
  | created (draw : Draw) (eventPayload : Dict) (row : OperationSnapshot) : Ended spec
      [⟨.insert draw spec eventPayload, some row⟩, ⟨.getByScope spec, none⟩] (.ok (row, true))
  | raced (draw : Draw) (eventPayload : Dict) (existing : OperationSnapshot) : Ended spec
      [⟨.getByScope spec, some existing⟩, ⟨.insert draw spec eventPayload, none⟩,
        ⟨.getByScope spec, none⟩] (resolveExisting existing spec)
  | collided (draw : Draw) (eventPayload : Dict) (existing : OperationSnapshot) : Ended spec
      [⟨.get spec.operationId, some existing⟩, ⟨.getByScope spec, none⟩,
        ⟨.insert draw spec eventPayload, none⟩, ⟨.getByScope spec, none⟩]
      (resolveExisting existing spec)
  | failed (draw : Draw) (eventPayload : Dict) : Ended spec
      [⟨.get spec.operationId, none⟩, ⟨.getByScope spec, none⟩,
        ⟨.insert draw spec eventPayload, none⟩, ⟨.getByScope spec, none⟩] (.error .integrityError)

/-- A call issues its transactions in this order, and ends after one that finds or inserts. -/
def contract : Contract Command Reply Outcome where
  allowed h c := match c with
    | .getByScope spec => h = [] ∨ ∃ draw eventPayload,
        h = [⟨.insert draw spec eventPayload, none⟩, ⟨.getByScope spec, none⟩]
    | .insert _ spec _ => h = [⟨.getByScope spec, none⟩]
    | .get id => ∃ draw spec eventPayload, id = spec.operationId ∧
        h = [⟨.getByScope spec, none⟩, ⟨.insert draw spec eventPayload, none⟩,
          ⟨.getByScope spec, none⟩]
  ends h a := ∃ spec, Ended spec h a

theorem follows_create (draw : Draw) (spec : OperationSpec) (eventPayload : Dict) :
    (create draw spec eventPayload).Follows (fun _ _ => True) contract.allowed
      contract.ends [] := by
  refine ⟨.inl rfl, fun found _ => ?_⟩
  cases found with
  | some existing => exact ⟨spec, .known existing⟩
  | none =>
  refine ⟨rfl, fun inserted _ => ?_⟩
  cases inserted with
  | some row => exact ⟨spec, .created draw eventPayload row⟩
  | none =>
  refine ⟨.inr ⟨draw, eventPayload, rfl⟩, fun found _ => ?_⟩
  cases found with
  | some existing => exact ⟨spec, .raced draw eventPayload existing⟩
  | none =>
  refine ⟨⟨draw, spec, eventPayload, rfl, rfl⟩, fun found _ => ?_⟩
  cases found with
  | some existing => exact ⟨spec, .collided draw eventPayload existing⟩
  | none => exact ⟨spec, .failed draw eventPayload⟩

theorem follows_entry {rt : Runtime} (p : Program Command Reply Outcome)
    (hp : (system rt).entry p) :
    p.Follows (system rt).possible contract.allowed contract.ends [] := by
  obtain ⟨draw, spec, eventPayload, rfl⟩ := hp
  exact follows_create draw spec eventPayload

/-! ### The invariant -/

/-- Did this transaction insert the operation? -/
def creates (id : Str) : Event Command Reply → Bool
  | ⟨.insert _ spec _, some _⟩ => spec.operationId = id
  | _ => false

/-- The drawn identifier belongs to an event already. -/
def Taken (db : Db) (draw : Draw) : Prop := ∃ e ∈ db.events, e.eventId = newEventId draw

/-- What keeps an operation from being inserted. -/
def Blocked (db : Db) (draw : Draw) (spec : OperationSpec) : Prop :=
  (∃ id x, Stored db id x ∧ x.scope = (intentOfSpec spec).scope) ∨
    (∃ x, Stored db spec.operationId x) ∨ Taken db draw

/-- What an insertion that failed, and the look-ups after it, say about the store. -/
def Blame (db : Db) : History Command Reply → Prop
  | ⟨.insert draw spec _, none⟩ :: _ => Blocked db draw spec
  | ⟨.getByScope _, none⟩ :: ⟨.insert draw spec _, none⟩ :: _ =>
      (∃ x, Stored db spec.operationId x) ∨ Taken db draw
  | ⟨.get _, none⟩ :: ⟨.getByScope _, none⟩ :: ⟨.insert draw _ _, none⟩ :: _ => Taken db draw
  | _ => True

/-- A row that a transaction may report. -/
def Fits (rt : Runtime) (r : OperationSnapshot) : Command → Prop
  | .getByScope spec => (intentOf r).scope = (intentOfSpec spec).scope
  | .insert draw spec eventPayload => r = newOperation rt draw spec eventPayload
  | .get id => r.operationId = id

/-- The store after the transactions of a trace. -/
structure Explained (rt : Runtime) (db : Db) (t : Trace Command Reply) : Prop where
  ledger : Ledger rt db
  created : ∀ id, (t.filter fun e => creates id e.2).length =
    if (db.operations.get id).isSome = true then 1 else 0
  seen : ∀ i c r, (i, ⟨c, some r⟩) ∈ t → Stored db r.operationId (intentOf r) ∧ Fits rt r c
  blamed : ∀ i, Blame db (historyOf i t)

section Invariant

variable {rt : Runtime} {db db' : Db} {t : Trace Command Reply}

theorem Taken.step {draw : Draw} (h : Taken db draw) (hs : Step rt db db') : Taken db' draw := by
  obtain ⟨e, he, hid⟩ := h
  exact ⟨e, mem_events_of_step he hs, hid⟩

theorem Blame.step {h : History Command Reply} (hb : Blame db h) (hs : Step rt db db') :
    Blame db' h := by
  unfold Blame at hb ⊢
  split at hb
  · rcases hb with ⟨id, x, hx, hscope⟩ | ⟨x, hx⟩ | hb
    · exact .inl ⟨id, x, hx.step hs, hscope⟩
    · exact .inr (.inl ⟨x, hx.step hs⟩)
    · exact .inr (.inr (hb.step hs))
  · rcases hb with ⟨x, hx⟩ | hb
    · exact .inl ⟨x, hx.step hs⟩
    · exact .inr (hb.step hs)
  · exact hb.step hs
  · trivial

theorem Explained.step (h : Explained rt db t) (hs : Writes rt db db') : Explained rt db' t where
  ledger := h.ledger.step hs.1
  created := fun id => by
    rw [hs.2 id]
    exact h.created id
  seen := fun i c r he => ⟨(h.seen i c r he).1.step hs.1, (h.seen i c r he).2⟩
  blamed := fun i => (h.blamed i).step hs.1

/-- A failed insertion has a reason. -/
theorem blocked_of_insertOperation (h : Ledger rt db) {draw : Draw} {spec : OperationSpec}
    {eventPayload : Dict} (hi : insertOperation rt draw spec eventPayload db = none) :
    Blocked db draw spec := by
  cases hop : db.operations.insert (newOperation rt draw spec eventPayload) with
  | none =>
      obtain ⟨r, hr, hid | hclash⟩ := Table.exists_of_insert_eq_none hop
      · have hget := Table.get_of_mem hr
        rw [hid] at hget
        exact .inr (.inl ⟨intentOf r, r, hget, rfl⟩)
      · exact .inl ⟨r.operationId, intentOf r, ⟨r, Table.get_of_mem hr, rfl⟩,
          (sameIdempotencyScope_iff _ _).mp hclash⟩
  | some operations =>
      cases hev : db.events.insert (createdEvent rt draw spec eventPayload) with
      | some events =>
          rw [insertOperation, hop, hev] at hi
          cases hi
      | none =>
          obtain ⟨e, he, hid | hclash⟩ := Table.exists_of_insert_eq_none hev
          · exact .inr (.inr ⟨e, he, hid⟩)
          · have howner : e.operationId = spec.operationId := by
              simp only [sameSequence, Bool.and_eq_true, decide_eq_true_eq] at hclash
              exact hclash.1
            obtain ⟨r, hr⟩ := Option.isSome_iff_exists.mp (h.owned e he)
            rw [howner] at hr
            exact .inr (.inl ⟨intentOf r, r, hr, rfl⟩)

theorem not_stored_of_getByScope {spec : OperationSpec} (h : getByScope db spec = none) {id : Str}
    {x : Intent} (hx : Stored db id x) : x.scope ≠ (intentOfSpec spec).scope := by
  obtain ⟨r, hr, rfl⟩ := hx
  exact getByScope_eq_none.mp h r (Table.mem_of_get hr)

/-- The row that a transaction reports is stored. -/
theorem stored_of_answer {c : Command} {r : OperationSnapshot}
    (h : answer rt db c = (some r, db')) :
    Stored db' r.operationId (intentOf r) ∧ Fits rt r c := by
  cases c with
  | getByScope spec =>
      obtain ⟨hfound, rfl⟩ := Prod.mk.inj h
      obtain ⟨hmem, hscope⟩ := getByScope_eq_some hfound
      exact ⟨⟨r, Table.get_of_mem hmem, rfl⟩, hscope⟩
  | get id =>
      obtain ⟨hfound, rfl⟩ := Prod.mk.inj h
      have hid : r.operationId = id := Table.key_of_get hfound
      refine ⟨⟨r, ?_, rfl⟩, hid⟩
      rw [hid]
      exact hfound
  | insert draw spec eventPayload =>
      cases hi : insertOperation rt draw spec eventPayload db with
      | none =>
          simp only [answer, hi] at h
          cases h
      | some inserted =>
          simp only [answer, hi] at h
          obtain ⟨hrow, rfl⟩ := Prod.mk.inj h
          cases hrow
          exact ⟨⟨_, (get_insertOperation hi _).trans (if_pos rfl), rfl⟩, rfl⟩

/-- A look-up that fails after a failed insertion narrows down the reason. -/
theorem blame_of_answer (h : Explained rt db t) {i : ℕ} {c : Command}
    (hallowed : contract.allowed (historyOf i t) c) {r : Reply c}
    (hexec : answer rt db c = (r, db')) : Blame db' (⟨c, r⟩ :: historyOf i t) := by
  have hblame := (h.blamed i).step (step_of_answer hexec)
  cases r with
  | some r =>
      cases c with
      | getByScope spec => trivial
      | insert draw spec eventPayload => trivial
      | get id => trivial
  | none =>
      cases c with
      | getByScope spec =>
          obtain ⟨hfound, rfl⟩ := Prod.mk.inj hexec
          rcases hallowed with hnil | ⟨draw, eventPayload, hhistory⟩
          · rw [hnil]
            trivial
          · rw [hhistory] at hblame ⊢
            rcases hblame with ⟨id, x, hx, hscope⟩ | hblame
            · exact absurd hscope (not_stored_of_getByScope hfound hx)
            · exact hblame
      | insert draw spec eventPayload =>
          cases hi : insertOperation rt draw spec eventPayload db with
          | some inserted =>
              simp only [answer, hi] at hexec
              cases hexec
          | none =>
              simp only [answer, hi] at hexec
              cases hexec
              exact blocked_of_insertOperation h.ledger hi
      | get id =>
          obtain ⟨hfound, rfl⟩ := Prod.mk.inj hexec
          obtain ⟨draw, spec, eventPayload, rfl, hhistory⟩ := hallowed
          rw [hhistory] at hblame ⊢
          rcases hblame with ⟨x, s, hs, -⟩ | hblame
          · have hnone : db.operations.get spec.operationId = none := hfound
            rw [hnone] at hs
            cases hs
          · exact hblame

theorem created_of_answer (h : Explained rt db t) {i : ℕ} {c : Command} {r : Reply c}
    (hexec : answer rt db c = (r, db')) (id : Str) :
    (((i, ⟨c, r⟩) :: t).filter fun e => creates id e.2).length =
      if (db'.operations.get id).isSome = true then 1 else 0 := by
  have hkeep : creates id ⟨c, r⟩ = false → db' = db →
      (((i, ⟨c, r⟩) :: t).filter fun e => creates id e.2).length =
        if (db'.operations.get id).isSome = true then 1 else 0 := by
    rintro hnot rfl
    rw [List.filter_cons_of_neg (by simp [hnot])]
    exact h.created id
  cases c with
  | getByScope spec => exact hkeep rfl (Prod.mk.inj hexec).2.symm
  | get id' => exact hkeep rfl (Prod.mk.inj hexec).2.symm
  | insert draw spec eventPayload =>
      cases hi : insertOperation rt draw spec eventPayload db with
      | none =>
          simp only [answer, hi] at hexec
          obtain ⟨rfl, rfl⟩ := Prod.mk.inj hexec
          exact hkeep rfl rfl
      | some inserted =>
          simp only [answer, hi] at hexec
          obtain ⟨rfl, rfl⟩ := Prod.mk.inj hexec
          rw [get_insertOperation hi]
          by_cases hid : spec.operationId = id
          · obtain ⟨_, _, hop, -, -⟩ := insertOperation_eq_some hi
            have hfresh : db.operations.get spec.operationId = none := Table.get_insert_key hop
            have hnone := h.created id
            rw [← hid, hfresh] at hnone
            rw [if_pos hid, List.filter_cons_of_pos (by simp [creates, hid]), List.length_cons,
              ← hid, hnone]
            rfl
          · rw [if_neg hid, List.filter_cons_of_neg (by simp [creates, hid])]
            exact h.created id

theorem Explained.call (h : Explained rt db t) {i : ℕ} {c : Command}
    (hallowed : contract.allowed (historyOf i t) c) {r : Reply c}
    (hexec : answer rt db c = (r, db')) : Explained rt db' ((i, ⟨c, r⟩) :: t) where
  ledger := h.ledger.step (step_of_answer hexec)
  created := created_of_answer h hexec
  seen := fun j c' r' he => by
    rcases List.mem_cons.mp he with heq | he
    · cases heq
      exact stored_of_answer hexec
    · exact ⟨(h.seen j c' r' he).1.step (step_of_answer hexec), (h.seen j c' r' he).2⟩
  blamed := fun j => by
    by_cases hj : i = j
    · subst hj
      rw [historyOf_cons_self]
      exact blame_of_answer h hallowed hexec
    · rw [historyOf_cons_ne hj]
      exact (h.blamed j).step (step_of_answer hexec)

theorem explained_of_initial (h : Initial db) : Explained rt db [] where
  ledger := by
    constructor
    · rw [h.2]
      intro e he
      cases he
    · rw [h.1]
      intro id operation hget
      cases hget
  created := fun id => by
    rw [h.1]
    rfl
  seen := fun i c r he => by cases he
  blamed := fun i => trivial

theorem explained_of_reachable {s : State Command Reply Outcome Db}
    (h : (system rt).Reachable Initial s) : Explained rt s.world s.trace :=
  contract.invariant follows_entry (fun _ => explained_of_initial)
    (fun _ _ _ _ _ _ hI hallowed hexec => hI.call hallowed hexec)
    (fun _ _ _ hI henv => hI.step henv) h

end Invariant

/-! ### Idempotent creation -/

section Answers

variable {s : State Command Reply Outcome Db}

/-- The process is a call with this specification, and has looked it up. -/
def Caller (s : State Command Reply Outcome Db) (i : ℕ) (spec : OperationSpec) : Prop :=
  ∃ r, ⟨.getByScope spec, r⟩ ∈ historyOf i s.trace

/-- The process inserted the operation. -/
def Creator (s : State Command Reply Outcome Db) (i : ℕ) (id : Str) : Prop :=
  ∃ e ∈ historyOf i s.trace, creates id e = true

/-- What a call is told: it created the row; or the operation that has its key, or else its
identifier, was there already, and is returned when all identity and intent fields are equal; or
its event identifier was drawn before. -/
def Answered (db : Db) (h : History Command Reply) (spec : OperationSpec) (a : Outcome) : Prop :=
  (∃ row, a = .ok (row, true) ∧ row.operationId = spec.operationId ∧
    intentOf row = intentOfSpec spec ∧ Stored db spec.operationId (intentOfSpec spec)) ∨
  (∃ existing, Stored db existing.operationId (intentOf existing) ∧
    ((intentOf existing).scope = (intentOfSpec spec).scope ∨
      existing.operationId = spec.operationId) ∧
    a = if intentOf existing = intentOfSpec spec then .ok (existing, false)
      else .error (.operationIntentConflict existing.operationId)) ∨
  (a = .error .integrityError ∧ ∃ draw eventPayload,
    ⟨.insert draw spec eventPayload, none⟩ ∈ h ∧ Taken db draw)

/-- Creation is idempotent. -/
structure Idempotent (s : State Command Reply Outcome Db) : Prop where
  one_row : ∀ r ∈ s.world.operations, ∀ r' ∈ s.world.operations,
    (intentOf r).scope = (intentOf r').scope ∨ r.operationId = r'.operationId → r = r'
  first_event : ∀ r ∈ s.world.operations, ∃ e ∈ s.world.events,
    e.operationId = r.operationId ∧ e.sequence = 1 ∧ e.fromStatus = none
  one_creator : ∀ r ∈ s.world.operations, ∃! i, Creator s i r.operationId
  creator_told : ∀ i id, Creator s i id → s.programs[i]? = some .crashed ∨
    ∃ row, s.programs[i]? = some (.done (.ok (row, true))) ∧ row.operationId = id
  told_creator : ∀ i row, s.programs[i]? = some (.done (.ok (row, true))) →
    Creator s i row.operationId
  answered : ∀ i spec a, Caller s i spec → s.programs[i]? = some (.done a) →
    Answered s.world (historyOf i s.trace) spec a

theorem eq_of_scope {db : Db} {r r' : OperationRecord} (hr : r ∈ db.operations)
    (hr' : r' ∈ db.operations) (h : (intentOf r).scope = (intentOf r').scope) : r = r' := by
  by_contra hne
  have hsymm : ∀ r s : OperationRecord, sameIdempotencyScope r s = sameIdempotencyScope s r := by
    intro r s
    rw [Bool.eq_iff_iff, sameIdempotencyScope_iff, sameIdempotencyScope_iff]
    exact eq_comm
  have hclash := Table.not_clash hsymm hr hr' hne
  rw [(sameIdempotencyScope_iff r r').mpr h] at hclash
  cases hclash

theorem exists_first_event {rt : Runtime} {db : Db} (h : Ledger rt db) {r : OperationRecord}
    (hr : r ∈ db.operations) :
    ∃ e ∈ db.events, e.operationId = r.operationId ∧ e.sequence = 1 ∧ e.fromStatus = none := by
  have hchained := h.chained r.operationId r (Table.get_of_mem hr)
  obtain ⟨e, hhead, hnone⟩ := hchained.created
  have hmem : e ∈ eventsOf r.operationId db.events := List.mem_of_mem_head? hhead
  obtain ⟨hevent, howner⟩ := List.mem_filter.mp hmem
  refine ⟨e, hevent, of_decide_eq_true howner, ?_, hnone⟩
  have hsequence := congrArg List.head? hchained.sequences
  rw [List.head?_map, hhead, Option.map_some, List.head?_range'] at hsequence
  split at hsequence
  · cases hsequence
  · exact Option.some.inj hsequence

/-- One transaction inserted the operation, and so one process did. -/
theorem exists_unique_creator {rt : Runtime} (h : Explained rt s.world s.trace) {id : Str}
    (hstored : (s.world.operations.get id).isSome = true) : ∃! i, Creator s i id := by
  have hone := h.created id
  rw [if_pos hstored, List.length_eq_one_iff] at hone
  obtain ⟨⟨i, e⟩, he⟩ := hone
  have hiff : ∀ j f, (j, f) ∈ s.trace ∧ creates id f = true ↔ (j, f) = (i, e) := by
    intro j f
    have hmem : (j, f) ∈ s.trace.filter (fun e => creates id e.2) ↔ (j, f) ∈ [(i, e)] := by
      rw [he]
    rwa [List.mem_filter, List.mem_singleton] at hmem
  obtain ⟨hmem, hcreates⟩ := (hiff i e).mpr rfl
  refine ⟨i, ⟨e, mem_historyOf.mpr hmem, hcreates⟩, ?_⟩
  rintro j ⟨f, hf, hcreates'⟩
  exact congrArg Prod.fst ((hiff j f).mp ⟨mem_historyOf.mp hf, hcreates'⟩)

/-- A process that inserted has nothing left to do. -/
theorem not_allowed_after_creation {id : Str} {h : History Command Reply} {c : Command}
    {e : Event Command Reply} (he : e ∈ h) (hcreates : creates id e = true) :
    ¬ contract.allowed h c := by
  intro hallowed
  cases c with
  | getByScope spec =>
      rcases hallowed with rfl | ⟨draw, eventPayload, rfl⟩
      · cases he
      · simp only [List.mem_cons, List.not_mem_nil, or_false] at he
        rcases he with rfl | rfl <;> cases hcreates
  | insert draw spec eventPayload =>
      cases List.mem_singleton.mp (hallowed ▸ he)
      cases hcreates
  | get id' =>
      obtain ⟨draw, spec, eventPayload, -, rfl⟩ := hallowed
      simp only [List.mem_cons, List.not_mem_nil, or_false] at he
      rcases he with rfl | rfl | rfl <;> cases hcreates

/-- A call that inserted is told so, with the row. -/
theorem told_of_ended {rt : Runtime} {spec : OperationSpec} {h : History Command Reply}
    {a : Outcome} (hended : Ended spec h a) {id : Str} {e : Event Command Reply} (he : e ∈ h)
    (hcreates : creates id e = true) (hfits : ∀ c r, ⟨c, some r⟩ ∈ h → Fits rt r c) :
    ∃ row, a = .ok (row, true) ∧ row.operationId = id := by
  cases hended with
  | created draw eventPayload row =>
      refine ⟨row, rfl, ?_⟩
      have hrow : row = newOperation rt draw spec eventPayload := hfits _ _ List.mem_cons_self
      simp only [List.mem_cons, List.not_mem_nil, or_false] at he
      rcases he with rfl | rfl
      · rw [hrow]
        exact of_decide_eq_true hcreates
      · cases hcreates
  | known existing =>
      cases List.mem_singleton.mp he
      cases hcreates
  | raced draw eventPayload existing =>
      simp only [List.mem_cons, List.not_mem_nil, or_false] at he
      rcases he with rfl | rfl | rfl <;> cases hcreates
  | collided draw eventPayload existing =>
      simp only [List.mem_cons, List.not_mem_nil, or_false] at he
      rcases he with rfl | rfl | rfl | rfl <;> cases hcreates
  | failed draw eventPayload =>
      simp only [List.mem_cons, List.not_mem_nil, or_false] at he
      rcases he with rfl | rfl | rfl | rfl <;> cases hcreates

theorem resolveExisting_ne_created {existing : OperationRecord} {spec : OperationSpec}
    {row : OperationSnapshot} : resolveExisting existing spec ≠ .ok (row, true) := by
  rw [resolveExisting_eq]
  split
  · intro h
    cases h
  · intro h
    cases h

/-- Only a call that inserted is told that it did. -/
theorem creates_of_told {rt : Runtime} {spec : OperationSpec} {h : History Command Reply}
    {row : OperationSnapshot} (hended : Ended spec h (.ok (row, true)))
    (hfits : ∀ c r, ⟨c, some r⟩ ∈ h → Fits rt r c) :
    ∃ e ∈ h, creates row.operationId e = true := by
  generalize ha : Except.ok (row, true) = a at hended
  cases hended with
  | created draw eventPayload row' =>
      cases ha
      have hrow : row = newOperation rt draw spec eventPayload := hfits _ _ List.mem_cons_self
      refine ⟨_, List.mem_cons_self, decide_eq_true ?_⟩
      rw [hrow]
      rfl
  | known existing => exact absurd ha.symm resolveExisting_ne_created
  | raced draw eventPayload existing => exact absurd ha.symm resolveExisting_ne_created
  | collided draw eventPayload existing => exact absurd ha.symm resolveExisting_ne_created
  | failed draw eventPayload => cases ha

/-- What each call is told agrees with the store. -/
theorem answered_of_ended {rt : Runtime} {db : Db} {spec : OperationSpec}
    {h : History Command Reply} {a : Outcome} (hended : Ended spec h a) (hblame : Blame db h)
    (hseen : ∀ c r, ⟨c, some r⟩ ∈ h → Stored db r.operationId (intentOf r) ∧ Fits rt r c) :
    Answered db h spec a := by
  cases hended with
  | known existing =>
      obtain ⟨hstored, hscope⟩ := hseen _ _ List.mem_cons_self
      exact .inr (.inl ⟨existing, hstored, .inl hscope, resolveExisting_eq existing spec⟩)
  | created draw eventPayload row =>
      obtain ⟨hstored, hrow⟩ := hseen _ _ List.mem_cons_self
      have hid : row.operationId = spec.operationId := congrArg OperationRecord.operationId hrow
      have hintent : intentOf row = intentOfSpec spec := congrArg intentOf hrow
      rw [hid, hintent] at hstored
      exact .inl ⟨row, rfl, hid, hintent, hstored⟩
  | raced draw eventPayload existing =>
      obtain ⟨hstored, hscope⟩ := hseen _ _ List.mem_cons_self
      exact .inr (.inl ⟨existing, hstored, .inl hscope, resolveExisting_eq existing spec⟩)
  | collided draw eventPayload existing =>
      obtain ⟨hstored, hid⟩ := hseen _ _ List.mem_cons_self
      exact .inr (.inl ⟨existing, hstored, .inr hid, resolveExisting_eq existing spec⟩)
  | failed draw eventPayload =>
      exact .inr (.inr ⟨rfl, draw, eventPayload, by simp, hblame⟩)

/-- The specification of a call is the one it ends with. -/
theorem spec_of_ended {spec spec' : OperationSpec} {h : History Command Reply} {a : Outcome}
    (hended : Ended spec h a) {r : Option OperationSnapshot}
    (hcaller : ⟨.getByScope spec', r⟩ ∈ h) : spec' = spec := by
  cases hended with
  | known existing =>
      cases List.mem_singleton.mp hcaller
      rfl
  | created draw eventPayload row =>
      simp only [List.mem_cons, List.not_mem_nil, or_false] at hcaller
      rcases hcaller with h | h
      · cases h
      · cases h
        rfl
  | raced draw eventPayload existing =>
      simp only [List.mem_cons, List.not_mem_nil, or_false] at hcaller
      rcases hcaller with h | h | h <;> cases h <;> rfl
  | collided draw eventPayload existing =>
      simp only [List.mem_cons, List.not_mem_nil, or_false] at hcaller
      rcases hcaller with h | h | h | h <;> cases h <;> rfl
  | failed draw eventPayload =>
      simp only [List.mem_cons, List.not_mem_nil, or_false] at hcaller
      rcases hcaller with h | h | h | h <;> cases h <;> rfl

end Answers

/-- However calls of `create` and other writers interleave, an idempotency scope and an identifier
have at most one operation, which has its first event; exactly one call inserted it, is told so
unless it crashed, and no other is; and every other call gets the stored operation or a conflict,
as its identity and intent fields are equal to the stored ones or not. -/
theorem idempotent_creation {rt : Runtime} {s : State Command Reply Outcome Db}
    (h : (system rt).Reachable Initial s) : Idempotent s := by
  have hexplained := explained_of_reachable h
  have hended : ∀ i a, s.programs[i]? = some (.done a) →
      ∃ spec, Ended spec (historyOf i s.trace) a :=
    fun i a hi => contract.ends_of_reachable follows_entry h hi
  have hseen : ∀ i c r, ⟨c, some r⟩ ∈ historyOf i s.trace →
      Stored s.world r.operationId (intentOf r) ∧ Fits rt r c :=
    fun i c r he => hexplained.seen i c r (mem_historyOf.mp he)
  refine ⟨fun r hr r' hr' hsame => ?_, fun r hr => exists_first_event hexplained.ledger hr,
    fun r hr => ?_, fun i id hcreator => ?_, fun i row hi => ?_, fun i spec a hcaller hi => ?_⟩
  · rcases hsame with hscope | hid
    · exact eq_of_scope hr hr' hscope
    · exact Table.eq_of_key hr hr' hid
  · refine exists_unique_creator hexplained ?_
    rw [Table.get_of_mem hr]
    rfl
  · obtain ⟨e, he, hcreates⟩ := hcreator
    have hlt := index_lt_of_mem_trace h _ (mem_historyOf.mp he)
    have hi : s.programs[i]? = some (s.programs[i]) := List.getElem?_eq_getElem hlt
    cases hp : s.programs[i] with
    | crashed => exact .inl (hi.trans (congrArg some hp))
    | call c k =>
        exact absurd (contract.allowed_of_reachable follows_entry h (hi.trans (congrArg some hp)))
          (not_allowed_after_creation he hcreates)
    | done a =>
        have hdone : s.programs[i]? = some (.done a) := hi.trans (congrArg some hp)
        obtain ⟨spec, hspec⟩ := hended i a hdone
        obtain ⟨row, rfl, hid⟩ := told_of_ended hspec he hcreates fun c r hr => (hseen i c r hr).2
        exact .inr ⟨row, hdone, hid⟩
  · obtain ⟨spec, hspec⟩ := hended i _ hi
    exact creates_of_told hspec fun c r hr => (hseen i c r hr).2
  · obtain ⟨spec', hspec⟩ := hended i a hi
    obtain ⟨r, hr⟩ := hcaller
    obtain rfl := spec_of_ended hspec hr
    exact answered_of_ended hspec (hexplained.blamed i) (hseen i)

/-- Two calls with one key and different plans, which both look it up before either inserts. -/
theorem idempotent_creation_of_race :
    let hex : Hex := ⟨"0a", forall_mem_of_all rfl⟩
    let hex' : Hex := ⟨"0b", forall_mem_of_all rfl⟩
    let rt : Runtime := ⟨fun _ => hex, fun _ => hex, fun _ => [], fun _ => []⟩
    let spec : OperationSpec :=
      { operationId := "vm-compute-1", operationType := .vmCompute, executionMode := .managedApi,
        targetType := "proxmox_vm", targetId := "vmid:100", idempotencyKey := "key-1",
        intentDigest := "sha256:0a", planDigest := "sha256:0a", actor := {} }
    let spec' : OperationSpec := { spec with planDigest := "sha256:0b" }
    let s := System.playAll (answer rt) (fun _ _ => True) [(0, 1), (1, 1), (0, 1), (1, 2)]
      ⟨{}, [create ⟨0, 0, fun _ => hex⟩ spec [], create ⟨0, 0, fun _ => hex'⟩ spec' []], []⟩
    Idempotent s ∧ s.world.operations.rows.length = 1 ∧
      s.programs.map Program.isDone = [true, true] := by
  intro hex hex' rt spec spec' s
  refine ⟨idempotent_creation ((System.reachable_programs (S := system rt) ⟨rfl, rfl⟩
    [create ⟨0, 0, fun _ => hex⟩ spec [], create ⟨0, 0, fun _ => hex'⟩ spec' []] ?_).steps
    (System.steps_of_restrict (System.steps_playAll (fun _ _ => rfl) _ _))), ?_⟩
  · simp only [List.mem_cons, List.not_mem_nil, or_false]
    rintro p (rfl | rfl)
    · exact ⟨_, _, _, rfl⟩
    · exact ⟨_, _, _, rfl⟩
  · decide

end Gjallar.OperationCreation

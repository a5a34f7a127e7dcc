import Gjallar.CanonicalJson
import Gjallar.HashChain
import Gjallar.OperationLedger

/-!
# Tamper evidence of the event chain

`verify_event_chain` on events as they are read back, before anything is known of them: statuses
are texts and sequence numbers are integers. An event list that verifies is determined by its last
checksum.
-/
namespace Gjallar.EventChain

open Gjallar.Text Gjallar.Data Gjallar.Operation Gjallar.OperationStore Gjallar.OperationLedger
  Gjallar.CanonicalJson

structure OperationEvent where
  eventId : Str
  operationId : Str
  sequence : ℤ
  eventType : Str
  fromStatus : Option Str
  toStatus : Str
  stage : Str
  actor : OperationActor
  payload : Dict
  previousChecksum : Str
  checksum : Str
  createdAt : Instant
  deriving DecidableEq

/-- `event_checksum_payload`. -/
def checksumPayload (rt : Runtime) (e : OperationEvent) : Dict :=
  [("operation_id", .str e.operationId), ("sequence", .int e.sequence),
    ("event_type", .str e.eventType), ("from_status", e.fromStatus.elim .null .str),
    ("to_status", .str e.toStatus), ("stage", .str e.stage),
    ("actor", .dict [("user_id", .str e.actor.userId), ("username", .str e.actor.username),
      ("role", .str e.actor.role)]),
    ("payload", .dict e.payload), ("previous_checksum", .str e.previousChecksum),
    ("created_at", .str (rt.isoformat e.createdAt))]

def eventDigest (rt : Runtime) (e : OperationEvent) : Str :=
  rt.operationDigest (.dict (checksumPayload rt e))

/-- The loop of `verify_event_chain`. -/
def verifyFrom (rt : Runtime) : Str → ℤ → List OperationEvent → Bool
  | _, _, [] => true
  | previousChecksum, expectedSequence, e :: events =>
      if e.sequence ≠ expectedSequence ∨ e.previousChecksum ≠ previousChecksum then false
      else if e.checksum ≠ eventDigest rt e then false
      else verifyFrom rt e.checksum (expectedSequence + 1) events

/-- `verify_event_chain`. -/
def verifyEventChain (rt : Runtime) (events : List OperationEvent) : Bool :=
  verifyFrom rt [] 1 events

/-- Two events agree on every field that is hashed. -/
structure Agree (rt : Runtime) (e f : OperationEvent) : Prop where
  operationId : e.operationId = f.operationId
  sequence : e.sequence = f.sequence
  eventType : e.eventType = f.eventType
  fromStatus : e.fromStatus = f.fromStatus
  toStatus : e.toStatus = f.toStatus
  stage : e.stage = f.stage
  actor : e.actor = f.actor
  payload : SameJson (.dict e.payload) (.dict f.payload)
  previousChecksum : e.previousChecksum = f.previousChecksum
  createdAt : rt.isoformat e.createdAt = rt.isoformat f.createdAt

section Verified

variable (rt : Runtime)

/-- The events as a hash-linked list. -/
def reading : HashChain.Reading OperationEvent Str :=
  ⟨OperationEvent.sequence, OperationEvent.previousChecksum, OperationEvent.checksum,
    eventDigest rt⟩

theorem verifyFrom_iff (previous : Str) (n : ℤ) (events : List OperationEvent) :
    verifyFrom rt previous n events = true ↔
      HashChain.Linked (reading rt) previous n events := by
  induction events generalizing previous n with
  | nil => simp [verifyFrom, HashChain.Linked]
  | cons e events ih =>
      rw [HashChain.Linked, ← ih]
      change verifyFrom rt previous n (e :: events) = true ↔ e.sequence = n ∧
        e.previousChecksum = previous ∧ e.checksum = eventDigest rt e ∧
          verifyFrom rt e.checksum (n + 1) events = true
      rw [verifyFrom]
      split
      · rename_i h
        simp only [Bool.false_eq_true, false_iff]
        tauto
      · split
        · rename_i h
          simp only [Bool.false_eq_true, false_iff]
          tauto
        · tauto

variable {rt}

/-- Every hashed field is part of the hashed payload. -/
theorem agree_of_sameJson {e f : OperationEvent}
    (h : SameJson (.dict (checksumPayload rt e)) (.dict (checksumPayload rt f))) :
    Agree rt e f := by
  have hentry : ∀ key v w, Dict.get (checksumPayload rt e) key = some v →
      Dict.get (checksumPayload rt f) key = some w → canonical v = canonical w :=
    fun key v w hv hw => h.entry hv hw
  have hstr : ∀ {s t : Str}, canonical (.str s) = canonical (.str t) → s = t := by
    intro s t hst
    simpa using hst
  have hactor := hentry "actor" _ _ rfl rfl
  have huser := SameJson.entry hactor (show Dict.get _ "user_id" = _ from rfl) rfl
  have hname := SameJson.entry hactor (show Dict.get _ "username" = _ from rfl) rfl
  have hrole := SameJson.entry hactor (show Dict.get _ "role" = _ from rfl) rfl
  have hsequence := hentry "sequence" _ _ rfl rfl
  have hfrom := hentry "from_status" _ _ rfl rfl
  refine ⟨hstr (hentry "operation_id" _ _ rfl rfl), ?_,
    hstr (hentry "event_type" _ _ rfl rfl), ?_, hstr (hentry "to_status" _ _ rfl rfl),
    hstr (hentry "stage" _ _ rfl rfl), ?_,
    hentry "payload" _ _ rfl rfl, hstr (hentry "previous_checksum" _ _ rfl rfl),
    hstr (hentry "created_at" _ _ rfl rfl)⟩
  · simpa using hsequence
  · cases he : e.fromStatus <;> cases hf : f.fromStatus <;> simp_all
  · have hext : ∀ a b : OperationActor, a.userId = b.userId → a.username = b.username →
        a.role = b.role → a = b := by
      rintro ⟨_, _, _⟩ ⟨_, _, _⟩ rfl rfl rfl
      rfl
    exact hext _ _ (hstr huser) (hstr hname) (hstr hrole)

/-- Event lists that verify and end in one checksum agree event by event. -/
theorem forall₂_agree (hfree : CollisionFree rt) {xs ys : List OperationEvent} (hx : xs ≠ [])
    (hy : ys ≠ []) (hxs : verifyEventChain rt xs = true) (hys : verifyEventChain rt ys = true)
    (hlast : (xs.getLast hx).checksum = (ys.getLast hy).checksum) :
    List.Forall₂ (Agree rt) xs ys := by
  refine HashChain.forall₂_of_lastChecksum (r := reading rt) ?_ (fun _ _ h => h.sequence)
    (fun _ _ h => h.previousChecksum) ((verifyFrom_iff rt [] 1 xs).mp hxs)
    ((verifyFrom_iff rt [] 1 ys).mp hys) hx hy ?_
  · intro e f hdigest
    exact agree_of_sameJson (sameJson_of_operationDigest hfree hdigest)
  · rw [HashChain.lastChecksum, HashChain.lastChecksum, List.getLast?_eq_some_getLast hx,
      List.getLast?_eq_some_getLast hy]
    exact hlast

/-- Event lists that verify and end in one checksum have the same length and agree, event by
event, on every hashed field: an inserted, deleted, moved or edited event changes the checksum in
which the chain ends. -/
theorem tamper_evidence (hfree : CollisionFree rt) {xs ys : List OperationEvent} (hx : xs ≠ [])
    (hy : ys ≠ []) (hxs : verifyEventChain rt xs = true) (hys : verifyEventChain rt ys = true)
    (hlast : (xs.getLast hx).checksum = (ys.getLast hy).checksum) :
    xs.length = ys.length ∧ List.Forall₂ (Agree rt) xs ys := by
  have hagree := forall₂_agree hfree hx hy hxs hys hlast
  exact ⟨hagree.length_eq, hagree⟩

/-- An event that continues a chain, with the checksum it is stored with. -/
def sealAfter (rt : Runtime) (previousChecksum : Str) (sequence : ℤ) (eventId eventType : Str)
    (payload : Dict) : OperationEvent :=
  let e : OperationEvent := ⟨eventId, "vm-compute-1", sequence, eventType, none, "planned",
    "plan", {}, payload, previousChecksum, [], 0⟩
  { e with checksum := eventDigest rt e }

/-- A chain of three events; the second one carries the payload, and the identifiers begin with
the text. -/
def threeEvents (rt : Runtime) (identifier : Str) (payload : Dict) : List OperationEvent :=
  let created := sealAfter rt [] 1 (identifier ++ ("1" : Str)) "operation_created" []
  let locked := sealAfter rt created.checksum 2 (identifier ++ ("2" : Str)) "target_locked" payload
  [created, locked, sealAfter rt locked.checksum 3 (identifier ++ ("3" : Str)) "planned" []]

theorem verifyEventChain_threeEvents (rt : Runtime) (identifier : Str) (payload : Dict) :
    verifyEventChain rt (threeEvents rt identifier payload) = true := by
  simp [verifyEventChain, verifyFrom, threeEvents, sealAfter, eventDigest, checksumPayload]

/-- The printed digest reads the hashed fields only, and the payload as JSON. -/
theorem eventDigest_printing {e f : OperationEvent} (h : Agree printing e f) :
    eventDigest printing e = eventDigest printing f := by
  have hpayload : SameJson (.dict (checksumPayload printing e))
      (.dict (checksumPayload printing f)) := by
    have hsame : canonical (.dict e.payload) = canonical (.dict f.payload) := h.payload
    simp only [SameJson, checksumPayload, canonical_dict, canonicalDict, hsame, h.operationId,
      h.sequence, h.eventType, h.fromStatus, h.toStatus, h.stage, h.actor, h.previousChecksum,
      h.createdAt]
  exact congrArg (fun v => ("sha256:" : Str) ++ (print v)) hpayload

/-- The identifiers of the events and the order of the keys in a payload are not hashed. -/
theorem tamper_evidence_of_reordered_payload :
    let xs := threeEvents printing "event-" [("cores", .int 2), ("memory", .int 512)]
    let ys := threeEvents printing "copy-" [("memory", .int 512), ("cores", .int 2)]
    xs ≠ ys ∧ xs.length = ys.length ∧ List.Forall₂ (Agree printing) xs ys := by
  intro xs ys
  have hlocked : eventDigest printing xs[1] = eventDigest printing ys[1] :=
    eventDigest_printing ⟨rfl, rfl, rfl, rfl, rfl, rfl, rfl, by decide, rfl, rfl⟩
  have hlast : eventDigest printing xs[2] = eventDigest printing ys[2] :=
    eventDigest_printing ⟨rfl, rfl, rfl, rfl, rfl, rfl, rfl, by decide, hlocked, rfl⟩
  refine ⟨fun heq => ?_, tamper_evidence collisionFree_printing (List.cons_ne_nil _ _)
    (List.cons_ne_nil _ _) (verifyEventChain_threeEvents _ _ _)
    (verifyEventChain_threeEvents _ _ _) hlast⟩
  have hid := congrArg OperationEvent.eventId (List.cons.inj heq).1
  exact absurd hid (by decide)
/-! ### Stored events -/

/-- `_event`. -/
def ofRecord (e : OperationEventRecord) : OperationEvent :=
  { eventId := e.eventId, operationId := e.operationId, sequence := e.sequence,
    eventType := e.eventType, fromStatus := e.fromStatus.map eventChecksumPayload.statusName,
    toStatus := eventChecksumPayload.statusName e.toStatus, stage := e.stage, actor := e.actor,
    payload := e.payload, previousChecksum := e.previousChecksum, checksum := e.checksum,
    createdAt := e.createdAt }

theorem checksumPayload_ofRecord (rt : Runtime) (e : OperationEventRecord) :
    Value.dict (checksumPayload rt (ofRecord e)) = eventChecksumPayload rt e := by
  cases h : e.fromStatus <;> simp [checksumPayload, eventChecksumPayload, ofRecord, h]

/-- The check of the stored events is the check of the events they are read back as. -/
theorem verifyEventChain_map_ofRecord (rt : Runtime) (events : List OperationEventRecord) :
    verifyEventChain rt (events.map ofRecord) = OperationLedger.verifyEventChain rt events := by
  have hfrom : ∀ (previous : Str) (n : ℕ), verifyFrom rt previous n (events.map ofRecord) =
      OperationLedger.verifyFrom rt previous n events := by
    induction events with
    | nil => intro previous n; rfl
    | cons e events ih =>
        intro previous n
        have hdigest : eventDigest rt (ofRecord e) =
            rt.operationDigest (eventChecksumPayload rt e) :=
          congrArg rt.operationDigest (checksumPayload_ofRecord rt e)
        have hsequence : (ofRecord e).sequence = n ↔ e.sequence = n := Int.ofNat_inj
        have htail := ih e.checksum (n + 1)
        push_cast at htail
        rw [List.map_cons, verifyFrom, OperationLedger.verifyFrom, ← htail, hdigest]
        simp only [ne_eq, hsequence]
        rfl
  exact hfrom [] 1

/-- A list of events that verifies and ends in the checksum of the operation's row agrees with the
events that are stored for the operation. -/
theorem agree_with_ledger (hfree : CollisionFree rt) {db : Db} (hledger : Ledger rt db) {id : Str}
    {operation : OperationRecord} (hget : db.operations.get id = some operation)
    {events : List OperationEvent} (hne : events ≠ [])
    (hverified : verifyEventChain rt events = true)
    (hlast : (events.getLast hne).checksum = operation.lastEventChecksum) :
    List.Forall₂ (Agree rt) events ((eventsOf id db.events).map ofRecord) := by
  have hchained := hledger.chained id operation hget
  obtain ⟨e, he, hchecksum, -⟩ := hchained.current
  have hlastRecord : ((eventsOf id db.events).map ofRecord).getLast? = some (ofRecord e) := by
    rw [List.getLast?_map, he, Option.map_some]
  have hne' : (eventsOf id db.events).map ofRecord ≠ [] := by
    rintro hnil
    rw [hnil] at hlastRecord
    cases hlastRecord
  rw [List.getLast?_eq_some_getLast hne', Option.some.injEq] at hlastRecord
  refine forall₂_agree hfree hne hne' hverified ?_ ?_
  · exact (verifyEventChain_map_ofRecord rt _).trans hchained.verified
  · rw [hlastRecord]
    exact hlast.trans hchecksum.symm

end Verified

end Gjallar.EventChain

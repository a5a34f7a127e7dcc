import Gjallar.AtMostOnce

/-!
# Mutation only under lock

For every operation created in a run: its locks are open and its own until it reaches a terminal
status, the pending dispatch falls into that time, and no commit closes the operation or a lock of
it but before the dispatch or after a verified result.
-/
namespace Gjallar.Execution

open Gjallar.Text Gjallar.Data Gjallar.Tables Gjallar.Redaction Gjallar.Operation
  Gjallar.OperationStore Gjallar.TargetLocks Gjallar.RecoveryStore Gjallar.VmAdmission
  Gjallar.Processes Gjallar.ChangeServices Gjallar.TaskIdentity

/-- The operation has been dispatched. -/
def DispatchedIn (t : Events) (id : Str) : Prop := ∃ i e, (i, e) ∈ t ∧ dispatched e = some id

/-- A process knows that the operation is marked as dispatching. -/
def MarkedIn (t : Events) (id : Str) : Prop :=
  ∃ i e o, (i, e) ∈ t ∧ committed e = some (id, o) ∧ o.nextStatus = some .dispatching

/-- Do stored details acknowledge a dispatch? -/
def Acknowledges (details : Dict) : Prop :=
  Dict.get details "dispatch_acknowledged" = some (.bool true) ∨
    ∃ v, Dict.get details "proxmox_upid" = some v ∧ v.truthy = true

/-- A lock row that is open and owned by the operation. -/
def LockHeld (locks : LockTable) (owner lockId : Str) : Prop :=
  ∃ r, locks.get lockId = some r ∧ r.isOpen = true ∧ r.ownerId = owner

/-- What is known of the row of an operation created in the run. -/
structure Tracked (w : World) (t : Events) (id : Str) (row : OperationRecord) : Prop where
  locks : row.status.isTerminal = false →
    ∀ lockId ∈ boundLockIds row.details, LockHeld w.db.locks id lockId
  bound : boundLockIds row.details ≠ []
  planned : row.status = .planned →
    Dict.get row.details "mutation_dispatched" = some (.bool false)
  status : row.status ∈ ([.planned, .blocked, .dispatching, .needsReconciliation] :
      List OperationStatus) ∨ (DispatchedIn t id ∧
    row.status ∈ ([.running, .verifying, .succeeded] : List OperationStatus))
  marked : MarkedIn t id → row.status ≠ .planned ∧ row.status ≠ .blocked
  acknowledged : Acknowledges row.details → DispatchedIn t id

variable {rt : Runtime} {cluster : Str} {svc : Service} {w w' : World} {t : Events} {i : ℕ}
  {id : Str} {row row' : OperationRecord}

theorem DispatchedIn.cons {e : ℕ × Event Command Reply} (h : DispatchedIn t id) :
    DispatchedIn (e :: t) id :=
  h.imp fun _ h => h.imp fun _ h => ⟨List.mem_cons_of_mem _ h.1, h.2⟩

theorem acknowledges_of_acknowledged {operation : OperationSnapshot}
    (h : Acknowledged rt svc operation) : Acknowledges operation.details := by
  unfold Acknowledged at h
  split at h
  · exact .inl h
  · unfold Service.upidOf at h
    cases hget : Dict.get operation.details "proxmox_upid" with
    | none =>
        rw [hget] at h
        cases h
    | some v =>
        refine .inr ⟨v, hget, ?_⟩
        by_contra hv
        rw [hget] at h
        simp only [hv] at h
        cases h

/-! ### The admission -/

theorem strip_operationId (nodeId : Str) (vmid : ℤ) (request : Request) :
    strip (svc.operationId rt nodeId vmid request) = svc.operationId rt nodeId vmid request := by
  refine strip_of_no_space fun c hc => ?_
  rcases List.mem_append.mp hc with hc | hc
  · exact svc.prefix_plain c hc
  · have hdigits : (splitOnce ':' (svc.identity rt nodeId vmid request)).2.getD [] =
        (rt.digest (.dict [("cluster_id", .str svc.clusterId), ("node_id", .str nodeId),
          ("vmid", .int vmid),
          ("idempotency_key", Dict.getD request "idempotency_key" .null)])).digits := rfl
    rw [hdigits] at hc
    exact isSpace_of_isLowerHex (Hex.isHex _ c hc)

/-- The details of a request before its operation is bound to locks. -/
theorem get_details_admission (svc : Service) (nodeId : Str) (vmid : ℤ) (request : Request)
    (before : Value) :
    Dict.get (svc.details nodeId vmid request before) "related_target_locks" = none ∧
      Dict.get (svc.details nodeId vmid request before) "mutation_dispatched" =
        some (.bool false) ∧
      (Dict.get (svc.details nodeId vmid request before) "dispatch_acknowledged" = none ∨
        Dict.get (svc.details nodeId vmid request before) "dispatch_acknowledged" =
          some (.bool false)) ∧
      Dict.get (svc.details nodeId vmid request before) "proxmox_upid" = none := by
  unfold Service.details
  cases svc.mode with
  | config => exact ⟨rfl, rfl, .inr rfl, rfl⟩
  | task =>
      unfold Service.extraDetails
      dsimp only
      split
      · exact ⟨rfl, rfl, .inl rfl, rfl⟩
      split
      · exact ⟨rfl, rfl, .inl rfl, rfl⟩
      · exact ⟨rfl, rfl, .inl rfl, rfl⟩

theorem tracked_admission {nodeId : Str} {vmid : ℤ} {request : Request} {actor : OperationActor}
    {before : Value} {draws : ℕ → Draw} {operation : OperationSnapshot} {lease : RecoveryLease}
    (h : Creates rt draws (svc.admission rt nodeId vmid request actor before) w.db w'.db operation
      lease) (hmarked : ¬ MarkedIn t (svc.operationId rt nodeId vmid request)) :
    Tracked w' t (svc.operationId rt nodeId vmid request) operation := by
  obtain ⟨hrelated, hdispatched, hack, hupid⟩ :=
    get_details_admission svc nodeId vmid request before
  have hlocks := h.locks_held hrelated
  have howner : strip (svc.admission rt nodeId vmid request actor before).operationId =
    svc.operationId rt nodeId vmid request := strip_operationId nodeId vmid request
  rw [howner] at hlocks
  obtain ⟨acquired, bound, hbinds, -, hoperation⟩ := h.stored
  have hstatus : operation.status = .planned := by
    rw [hoperation]
    rfl
  have hget : ∀ key, isSecretKey key = false → Dict.get operation.details key =
      ((Dict.get bound key).or (Dict.get (svc.details nodeId vmid request before) key)).map
        redactSecrets := by
    intro key hkey
    rw [hoperation]
    simp only [newOperation, get_sanitized, Dict.get_merge, hkey, Bool.false_eq_true, if_false]
    rfl
  refine ⟨fun _ => hlocks, ?_, fun _ => ?_, .inl (by simp [hstatus]),
    fun hm => absurd hm hmarked, ?_⟩
  · obtain ⟨lock, -, hprimary⟩ := hbinds.primary
    intro hnil
    have hid := (List.append_eq_nil_iff.mp hnil).1
    rw [hget _ (by decide), hprimary] at hid
    simp [Value.asStr] at hid
  · rw [hget _ (by decide), hbinds.dispatched, hdispatched]
    simp
  · rintro (hacked | ⟨v, hv, -⟩)
    · rw [hget _ (by decide), hbinds.acknowledged] at hacked
      rcases hack with hack | hack <;> rw [hack] at hacked <;> simp at hacked
    · rw [hget _ (by decide), hbinds.upid, hupid] at hv
      cases hv

/-! ### Commits -/

theorem boundLockIds_congr {d d' : Dict}
    (hlock : Dict.get d' "target_lock_id" = Dict.get d "target_lock_id")
    (hrelated : Dict.get d' "related_target_locks" = Dict.get d "related_target_locks") :
    boundLockIds d' = boundLockIds d := by
  rw [boundLockIds, boundLockIds, hlock, hrelated]

section Commit

variable {lease : RecoveryLease} {o : Observation}

/-- A detail that the commit does not mention keeps its value. -/
theorem Commits.get_of_none {db db' : Db} (h : Commits lease o db db' row row')
    (hprojector : o.projector = none) {key : Str} (hkey : isSecretKey key = false)
    (hnone : Dict.get o.detailsPatch key = none) :
    Dict.get row'.details key = Dict.get row.details key := by
  rw [h.details hprojector key hkey, hnone]
  rfl

theorem Commits.boundLockIds_eq {db db' : Db} (h : Commits lease o db db' row row')
    (hprojector : o.projector = none) (hlock : Dict.get o.detailsPatch "target_lock_id" = none)
    (hrelated : Dict.get o.detailsPatch "related_target_locks" = none) :
    boundLockIds row'.details = boundLockIds row.details :=
  boundLockIds_congr (h.get_of_none hprojector (by decide) hlock)
    (h.get_of_none hprojector (by decide) hrelated)

/-- A patch without an acknowledgement and without a task reference acknowledges nothing. -/
theorem Commits.acknowledges {db db' : Db} (h : Commits lease o db db' row row')
    (hprojector : o.projector = none)
    (hacknowledged : Dict.get o.detailsPatch "dispatch_acknowledged" = none)
    (hupid : Dict.get o.detailsPatch "proxmox_upid" = none ∨
      Dict.get o.detailsPatch "proxmox_upid" = some (.str []))
    (hack : Acknowledges row'.details) : Acknowledges row.details := by
  rcases hack with hack | ⟨v, hv, htruthy⟩
  · exact .inl (by rwa [h.get_of_none hprojector (by decide) hacknowledged] at hack)
  · rcases hupid with hnone | hempty
    · exact .inr ⟨v, by rwa [h.get_of_none hprojector (by decide) hnone] at hv, htruthy⟩
    · rw [h.details hprojector _ (by decide), hempty] at hv
      simp only [Option.map_some, redactSecrets_str, Option.some_or, Option.some.injEq] at hv
      rw [← hv] at htruthy
      exact absurd htruthy (by decide)

/-- The locks of an operation that stays open are held after a commit that releases none. -/
theorem Tracked.locks_of_commit (h : Tracked w t lease.operationId row)
    (hc : Commits lease o w.db w'.db row row') (hprojector : o.projector = none)
    (hlock : Dict.get o.detailsPatch "target_lock_id" = none)
    (hrelated : Dict.get o.detailsPatch "related_target_locks" = none)
    (hrelease : o.releaseTargetLock = false) (hopen : row.status.isTerminal = false) :
    ∀ lockId ∈ boundLockIds row'.details, LockHeld w'.db.locks lease.operationId lockId := by
  intro lockId hmem
  rw [hc.boundLockIds_eq hprojector hlock hrelated] at hmem
  obtain ⟨r, hr, hisOpen, howner⟩ := h.locks hopen lockId hmem
  obtain ⟨r', hr', hisOpen', howner'⟩ := hc.openLocks hrelease lockId r hr hisOpen
  exact ⟨r', hr', hisOpen', howner'.trans howner⟩

/-- A tracked operation makes no transition out of a terminal status. -/
theorem Tracked.open_of_transition (h : Tracked w t id row) {next : OperationStatus}
    (hnext : next ∈ row.status.allowed) : row.status.isTerminal = false := by
  rw [Bool.eq_false_iff]
  intro hterminal
  have hexpired := (OperationStatus.allowed_of_terminal hterminal hnext).1
  rcases h.status with hstatus | ⟨-, hstatus⟩ <;> rw [hexpired] at hstatus <;> simp at hstatus

theorem MarkedIn.of_cons {r : Reply (.commit lease o)}
    (h : MarkedIn ((i, ⟨.commit lease o, r⟩) :: t) id) :
    MarkedIn t id ∨ o.nextStatus = some .dispatching := by
  obtain ⟨j, e, o', hmem, hcommitted, hnext⟩ := h
  rcases List.mem_cons.mp hmem with heq | hmem
  · cases heq
    cases r with
    | error e => cases hcommitted
    | ok a =>
        cases hcommitted
        exact .inr hnext
  · exact .inl ⟨j, e, o', hmem, hcommitted, hnext⟩

theorem Tracked.commit {past : Past} {r : Reply (.commit lease o)}
    (h : Tracked w t lease.operationId row) (hc : Commits lease o w.db w'.db row row')
    (hprojector : o.projector = none) (hallowed : CommitAllowed rt past lease o)
    (hpast : (∃ e ∈ past, dispatched e = some lease.operationId) →
      DispatchedIn t lease.operationId)
    (hverified : Verified rt past lease.operationId → DispatchedIn t lease.operationId) :
    Tracked w' ((i, ⟨.commit lease o, r⟩) :: t) lease.operationId row' := by
  have hstatus := hc.status
  have hopen : ∀ next, o.nextStatus = some next → row.status.isTerminal = false :=
    fun next hnext => h.open_of_transition (hc.transition next hnext)
  cases hallowed with
  | plain hnext hrelease hpatch =>
      have hbound := hc.boundLockIds_eq hprojector hpatch.lock hpatch.related
      have hack := fun hack => (h.acknowledged (hc.acknowledges hprojector hpatch.acknowledged
        hpatch.upid hack)).cons (e := (i, ⟨.commit lease o, r⟩))
      have hlocks := h.locks_of_commit hc hprojector hpatch.lock hpatch.related hrelease
      rcases hnext with hnext | hnext
      · have hsame : row'.status = row.status := by rw [hstatus, hnext]; rfl
        refine ⟨fun ho => hlocks (hsame ▸ ho), hbound ▸ h.bound, fun hp => ?_, ?_, fun hm => ?_,
          hack⟩
        · rw [hc.get_of_none hprojector (by decide) hpatch.dispatched]
          exact h.planned (hsame ▸ hp)
        · rw [hsame]
          exact h.status.imp_right fun hd => ⟨hd.1.cons, hd.2⟩
        · rw [hsame]
          exact h.marked (hm.of_cons.resolve_right (by simp [hnext]))
      · have hsame : row'.status = .needsReconciliation := by rw [hstatus, hnext]; rfl
        refine ⟨fun _ => hlocks (hopen _ hnext), hbound ▸ h.bound, ?_, .inl ?_, ?_, hack⟩ <;>
          simp [hsame]
  | blocked hnext hexpected hpatch =>
      have hsame : row'.status = .blocked := by rw [hstatus, hnext]; rfl
      have hplanned : row.status = .planned := by
        simpa using hc.expected _ hexpected
      refine ⟨by simp [hsame, OperationStatus.isTerminal],
        hc.boundLockIds_eq hprojector hpatch.lock hpatch.related ▸ h.bound, by simp [hsame],
        .inl (by simp [hsame]), fun hm => ?_, fun hack => (h.acknowledged (hc.acknowledges
          hprojector hpatch.acknowledged hpatch.upid hack)).cons⟩
      exact absurd hplanned (h.marked (hm.of_cons.resolve_right (by simp [hnext]))).1
  | dispatching svc ho hcreated =>
      subst ho
      have hsame : row'.status = .dispatching := by rw [hstatus]; rfl
      refine ⟨fun _ => h.locks_of_commit hc rfl rfl rfl rfl (hopen _ rfl),
        hc.boundLockIds_eq rfl rfl rfl ▸ h.bound, by simp [hsame], .inl (by simp [hsame]),
        by simp [hsame], fun hack =>
          (h.acknowledged (hc.acknowledges rfl rfl (.inl rfl) hack)).cons⟩
  | bound hnext hrelease hlock hrelated hdispatched =>
      have hsame : row'.status = .running := by rw [hstatus, hnext]; rfl
      have hd := (hpast hdispatched).cons (e := (i, ⟨.commit lease o, r⟩))
      exact ⟨fun _ => h.locks_of_commit hc hprojector hlock hrelated hrelease (hopen _ hnext),
        hc.boundLockIds_eq hprojector hlock hrelated ▸ h.bound, by simp [hsame],
        .inr ⟨hd, by simp [hsame]⟩, by simp [hsame], fun _ => hd⟩
  | verifying hnext hrelease hpatch hv =>
      have hsame : row'.status = .verifying := by rw [hstatus, hnext]; rfl
      have hd := (hverified hv).cons (e := (i, ⟨.commit lease o, r⟩))
      exact ⟨fun _ => h.locks_of_commit hc hprojector hpatch.lock hpatch.related hrelease
          (hopen _ hnext),
        hc.boundLockIds_eq hprojector hpatch.lock hpatch.related ▸ h.bound, by simp [hsame],
        .inr ⟨hd, by simp [hsame]⟩, by simp [hsame], fun _ => hd⟩
  | succeeded hnext hpatch hv =>
      have hsame : row'.status = .succeeded := by rw [hstatus, hnext]; rfl
      have hd := (hverified hv).cons (e := (i, ⟨.commit lease o, r⟩))
      exact ⟨by simp [hsame, OperationStatus.isTerminal],
        hc.boundLockIds_eq hprojector hpatch.lock hpatch.related ▸ h.bound, by simp [hsame],
        .inr ⟨hd, by simp [hsame]⟩, by simp [hsame], fun _ => hd⟩

end Commit

/-! ### The invariant -/

/-- Every operation created in the run is tracked, and a snapshot that acknowledges a dispatch was
taken after it. -/
structure Guarded (w : World) (t : Events) : Prop where
  tracked : ∀ id ∈ w.admitted, ∀ row, w.db.operations.get id = some row → Tracked w t id row
  seen : ∀ id ∈ w.admitted, ∀ t₁ i e t₂ operation, t = t₁ ++ (i, e) :: t₂ →
    snapshot e = some operation → operation.operationId = id →
    Acknowledges operation.details → DispatchedIn t₂ id

/-- A step that leaves the row of an operation and its locks alone. -/
theorem Tracked.frame (h : Tracked w t id row)
    (hlocks : ∀ lockId r, w.db.locks.get lockId = some r → r.ownerId = id →
      w'.db.locks.get lockId = some r) {e : Event Command Reply}
    (hcommitted : ∀ o, committed e ≠ some (id, o)) : Tracked w' ((i, e) :: t) id row := by
  refine ⟨fun hopen lockId hmem => ?_, h.bound, h.planned,
    h.status.imp_right fun hd => ⟨hd.1.cons, hd.2⟩, ?_, fun hack => (h.acknowledged hack).cons⟩
  · obtain ⟨r, hr, hisOpen, howner⟩ := h.locks hopen lockId hmem
    exact ⟨r, hlocks lockId r hr howner, hisOpen, howner⟩
  · rintro ⟨j, e', o, hmem, hc, hnext⟩
    rcases List.mem_cons.mp hmem with heq | hmem
    · cases heq
      exact absurd hc (hcommitted o)
    · exact h.marked ⟨j, e', o, hmem, hc, hnext⟩

/-- An operation that is not stored has not been seen. -/
theorem not_seen_of_absent (hs : Stored w t) (habsent : w.db.operations.get id = none)
    {e : Event Command Reply} {operation : OperationSnapshot} (hmem : (i, e) ∈ t)
    (hseen : snapshot e = some operation) : operation.operationId ≠ id := by
  rintro rfl
  obtain ⟨row, hrow, -⟩ := hs.intents i e operation hmem hseen
  rw [habsent] at hrow
  cases hrow

theorem not_marked_of_absent (hr : Recorded rt t) (hs : Stored w t)
    (habsent : w.db.operations.get id = none) : ¬ MarkedIn t id := by
  rintro ⟨j, ⟨c, r⟩, o, hmem, hc, -⟩
  cases c with
  | commit lease o' =>
      rcases r with e | ⟨operation, item⟩
      · cases hc
      · obtain ⟨rfl, -⟩ := Prod.mk.inj (Option.some.inj hc)
        have hp : Possible (.commit lease o') _ := hr.replies j _ hmem
        exact not_seen_of_absent hs habsent hmem rfl (hp operation item rfl).1
  | _ => cases hc

/-- What the process has verified was observed after the dispatch. -/
def VerifiedIn (rt : Runtime) (t : Events) (i : ℕ) (id : Str) : Prop :=
  ∃ svc operation after t₁ t₂, t = t₁ ++ (i, ⟨.observe svc operation, .ok after⟩) :: t₂ ∧
    operation.operationId = id ∧ svc.compare after operation = .ok true ∧ DispatchedIn t₂ id ∧
    (svc.mode = .task → TaskSucceeded rt svc (historyOf i t₂))

theorem Guarded.verifiedIn (h : Guarded w t) (hid : id ∈ w.admitted)
    (hv : Verified rt (historyOf i t) id) : VerifiedIn rt t i id := by
  obtain ⟨svc, operation, after, new, past, hhistory, ⟨e, hmem, hseen⟩, hop, hack, hmatch, htask⟩ :=
    hv
  obtain ⟨t₁, t₂, rfl, rfl⟩ := historyOf_eq_append hhistory
  obtain ⟨a, b, hsplit⟩ := List.append_of_mem (mem_historyOf.mp hmem)
  refine ⟨svc, operation, after, t₁, t₂, rfl, hop, hmatch, ?_, htask⟩
  have hd : DispatchedIn b id := by
    refine h.seen id hid (t₁ ++ (i, ⟨.observe svc operation, .ok after⟩) :: a) i e b operation ?_
      hseen hop (acknowledges_of_acknowledged hack)
    rw [hsplit, List.append_assoc, List.cons_append]
  obtain ⟨j, e', hmem', hd⟩ := hd
  exact ⟨j, e', hsplit ▸ List.mem_append_right _ (List.mem_cons_of_mem _ hmem'), hd⟩

theorem VerifiedIn.dispatchedIn (h : VerifiedIn rt t i id) : DispatchedIn t id := by
  obtain ⟨svc, operation, after, t₁, t₂, rfl, -, -, ⟨j, e, hmem, hd⟩, -⟩ := h
  exact ⟨j, e, List.mem_append_right _ (List.mem_cons_of_mem _ hmem), hd⟩

section Step

variable {c : Command} {r : Reply c}

theorem Guarded.tracked_cons (h : Guarded w t) (hr : Recorded rt t) (hs : Stored w t)
    (hc : Allowed rt (historyOf i t) c) (he : Effect rt w w' c r) :
    ∀ id ∈ w'.admitted, ∀ row, w'.db.operations.get id = some row →
      Tracked w' ((i, ⟨c, r⟩) :: t) id row := by
  intro id hid row hrow
  cases he with
  | kept hops hlocks hadmitted _ _ hcommitted =>
      rw [hadmitted] at hid
      rw [hops] at hrow
      exact (h.tracked id hid row hrow).frame (fun lockId r hr _ => hlocks lockId r hr)
        (by simp [hcommitted])
  | @admission q r draws operation lease hcreates hstored _ hothers hlocks hadmitted =>
      by_cases heq : id = q.operationId
      · subst heq
        rw [hstored] at hrow
        cases hrow
        obtain ⟨svc, nodeId, vmid, request, actor, before, rfl, -⟩ := hc
        refine tracked_admission hcreates ?_
        rintro ⟨j, e, o, hmem, hmark⟩
        rcases List.mem_cons.mp hmem with heq | hmem
        · cases heq
          cases hmark.1
        · exact not_marked_of_absent hr hs hcreates.absent ⟨j, e, o, hmem, hmark⟩
      · rw [hothers id heq] at hrow
        have hid' : id ∈ w.admitted := by
          rw [hadmitted] at hid
          exact (List.mem_cons.mp hid).resolve_left heq
        exact (h.tracked id hid' row hrow).frame (fun lockId r hr _ => hlocks lockId r hr)
          (by simp [committed])
  | @commit lease o r before after item hcommits hadmitted =>
      rw [hadmitted] at hid
      obtain ⟨-, hprojector, hallowed⟩ := hc
      by_cases heq : id = lease.operationId
      · subst heq
        rw [hcommits.after] at hrow
        cases hrow
        refine (h.tracked _ hid before hcommits.before).commit hcommits hprojector hallowed ?_
          fun hv => (h.verifiedIn hid hv).dispatchedIn
        rintro ⟨e, hmem, hd⟩
        exact ⟨i, e, mem_historyOf.mp hmem, hd⟩
      · rw [hcommits.others id heq] at hrow
        refine (h.tracked id hid row hrow).frame
          (fun lockId r hr howner => hcommits.foreignLocks lockId r hr (howner ▸ heq)) ?_
        intro o' hcommitted
        cases r with
        | error e => cases hcommitted
        | ok a =>
            cases hcommitted
            exact heq rfl

theorem Guarded.cons (h : Guarded w t) (hr : Recorded rt t) (hs : Stored w t)
    (hc : Allowed rt (historyOf i t) c) (he : Effect rt w w' c r) :
    Guarded w' ((i, ⟨c, r⟩) :: t) := by
  have htracked := h.tracked_cons hr hs hc he
  refine ⟨htracked, fun id hid t₁ j e t₂ operation hsplit hseen hop hack => ?_⟩
  cases t₁ with
  | nil =>
      obtain ⟨heq, rfl⟩ := List.cons.inj hsplit
      cases heq
      have hstored := he.snapshot_stored hseen
      rw [hop] at hstored
      obtain ⟨k, e', hmem, hd⟩ := (htracked id hid operation hstored).acknowledged hack
      rcases List.mem_cons.mp hmem with heq | hmem
      · cases heq
        cases c with
        | dispatch => cases hseen
        | _ => cases hd
      · exact ⟨k, e', hmem, hd⟩
  | cons x t₁ =>
      obtain ⟨-, htail⟩ := List.cons.inj hsplit
      by_cases hadmitted : id ∈ w.admitted
      · exact h.seen id hadmitted t₁ j e t₂ operation htail hseen hop hack
      · have hmem : (j, e) ∈ t := by simp [htail]
        cases he with
        | kept _ _ hsame => exact absurd (hsame ▸ hid) hadmitted
        | admission draws _ lease hcreates _ _ _ _ hsame =>
            rw [hsame] at hid
            obtain rfl := (List.mem_cons.mp hid).resolve_right hadmitted
            exact absurd hop (not_seen_of_absent hs hcreates.absent hmem hseen)
        | commit _ _ _ _ hsame => exact absurd (hsame ▸ hid) hadmitted

theorem Guarded.foreign (h : Guarded w t) (hf : Foreign w w') : Guarded w' t := by
  refine ⟨fun id hid row hrow => ?_, fun id hid => h.seen id (hf.admitted ▸ hid)⟩
  rw [hf.admitted] at hid
  rw [hf.operations id hid] at hrow
  have htracked := h.tracked id hid row hrow
  refine { htracked with locks := fun hopen lockId hmem => ?_ }
  obtain ⟨r, hr, hisOpen, howner⟩ := htracked.locks hopen lockId hmem
  exact ⟨r, hf.locks lockId r hr (howner ▸ hid), hisOpen, howner⟩

end Step

theorem guarded_of_reachable {s : State Command Reply Outcome World}
    (h : (system rt cluster).Reachable Initial s) :
    Recorded rt s.trace ∧ Stored s.world s.trace ∧ Guarded s.world s.trace := by
  refine Contract.invariant (D := contract rt)
    (I := fun w t => Recorded rt t ∧ Stored w t ∧ Guarded w t) follows_of_entry ?_ ?_ ?_ h
  · intro w hw
    have hnone : w.admitted = [] := hw
    exact ⟨recorded_nil rt, ⟨by simp [hnone], by simp, by simp, by simp⟩,
      ⟨by simp [hnone], by simp [hnone]⟩⟩
  · intro w t i c r w' ⟨hr, hs, hg⟩ hc hexec
    have he := exec_effect hexec
    have hp : Possible c r := possible_of_exec hexec
    exact ⟨hr.cons hc hp, hs.cons he, hg.cons hr hs hc he⟩
  · intro w t w' ⟨hr, hs, hg⟩ henv
    exact ⟨hr, hs.foreign henv, hg.foreign henv⟩

/-! ### Closing an operation -/

/-- A step that ends an operation or gives up a lock that it holds. -/
def Closing (w w' : World) (id : Str) (row row' : OperationRecord) : Prop :=
  (row.status.isTerminal = false ∧ row'.status.isTerminal = true) ∨
    ∃ lockId, LockHeld w.db.locks id lockId ∧ ¬ LockHeld w'.db.locks id lockId

theorem not_closing (hstatus : row.status.isTerminal = false → row'.status.isTerminal = false)
    (hlocks : ∀ lockId, LockHeld w.db.locks id lockId → LockHeld w'.db.locks id lockId) :
    ¬ Closing w w' id row row' := by
  rintro (⟨hopen, hclosed⟩ | ⟨lockId, hheld, hlost⟩)
  · rw [hstatus hopen] at hclosed
    cases hclosed
  · exact hlost (hlocks lockId hheld)

theorem not_closing_of_frame (hrow : row' = row)
    (hlocks : ∀ lockId r, w.db.locks.get lockId = some r → r.ownerId = id →
      w'.db.locks.get lockId = some r) : ¬ Closing w w' id row row' := by
  refine not_closing (fun hopen => hrow ▸ hopen) ?_
  rintro lockId ⟨r, hr, hopen, howner⟩
  exact ⟨r, hlocks lockId r hr howner, hopen, howner⟩

theorem not_closing_of_commit {lease : RecoveryLease} {o : Observation}
    (hc : Commits lease o w.db w'.db row row') (hrelease : o.releaseTargetLock = false)
    (hnext : ∀ next, o.nextStatus = some next → next.isTerminal = false) :
    ¬ Closing w w' id row row' := by
  refine not_closing (fun hopen => ?_) ?_
  · rw [hc.status]
    cases h : o.nextStatus with
    | none => exact hopen
    | some next => exact hnext next h
  · rintro lockId ⟨r, hr, hopen, howner⟩
    obtain ⟨r', hr', hopen', howner'⟩ := hc.openLocks hrelease lockId r hr hopen
    exact ⟨r', hr', hopen', howner'.trans howner⟩

/-- A process closes an operation before its dispatch or after verifying it. -/
theorem Guarded.of_closing {c : Command} {r : Reply c} (h : Guarded w t)
    (hc : Allowed rt (historyOf i t) c) (he : Effect rt w w' c r) (hid : id ∈ w.admitted)
    (hrow : w.db.operations.get id = some row) (hrow' : w'.db.operations.get id = some row')
    (hclosing : Closing w w' id row row') :
    (row.status = .planned ∧
      Dict.get row.details "mutation_dispatched" = some (.bool false)) ∨ VerifiedIn rt t i id := by
  cases he with
  | kept hops hlocks =>
      rw [hops, hrow] at hrow'
      exact absurd hclosing (not_closing_of_frame (Option.some.inj hrow').symm
        fun lockId r hr _ => hlocks lockId r hr)
  | @admission q r draws operation lease hcreates _ _ hothers hlocks =>
      have hne : id ≠ q.operationId := by
        rintro rfl
        rw [hcreates.absent] at hrow
        cases hrow
      rw [hothers id hne, hrow] at hrow'
      exact absurd hclosing (not_closing_of_frame (Option.some.inj hrow').symm
        fun lockId r hr _ => hlocks lockId r hr)
  | @commit lease o r before after item hcommits =>
      obtain ⟨-, -, hallowed⟩ := hc
      by_cases heq : id = lease.operationId
      · subst heq
        rw [hcommits.before] at hrow
        rw [hcommits.after] at hrow'
        cases hrow
        cases hrow'
        cases hallowed with
        | plain hnext hrelease =>
            refine absurd hclosing (not_closing_of_commit hcommits hrelease fun next hn => ?_)
            rcases hnext with hnext | hnext <;> rw [hnext] at hn <;> cases hn
            rfl
        | blocked hnext hexpected =>
            have hplanned : row.status = .planned := by
              simpa using hcommits.expected _ hexpected
            exact .inl ⟨hplanned, (h.tracked _ hid row hcommits.before).planned hplanned⟩
        | dispatching svc ho =>
            subst ho
            refine absurd hclosing (not_closing_of_commit hcommits rfl fun next hn => ?_)
            cases hn
            rfl
        | bound hnext hrelease =>
            refine absurd hclosing (not_closing_of_commit hcommits hrelease fun next hn => ?_)
            rw [hnext] at hn
            cases hn
            rfl
        | verifying hnext hrelease =>
            refine absurd hclosing (not_closing_of_commit hcommits hrelease fun next hn => ?_)
            rw [hnext] at hn
            cases hn
            rfl
        | succeeded _ _ hv => exact .inr (h.verifiedIn hid hv)
      · rw [hcommits.others id heq, hrow] at hrow'
        exact absurd hclosing (not_closing_of_frame (Option.some.inj hrow').symm
          fun lockId r hr howner => hcommits.foreignLocks lockId r hr (howner ▸ heq))

/-- An operation about to be dispatched has not reached a terminal status. -/
theorem open_of_dispatchAllowed (hr : Recorded rt t) (hs : Stored w t) (hg : Guarded w t)
    {nodeId : Str} {vmid : ℤ} {request : Request} {operation : OperationSnapshot}
    (hd : DispatchAllowed rt (historyOf i t) svc nodeId vmid request operation) :
    operation.operationId ∈ w.admitted ∧ ∃ row,
      w.db.operations.get operation.operationId = some row ∧ row.status.isTerminal = false := by
  obtain ⟨actor, before, stored, lease, hprepare⟩ := hd.admitted
  have hprepare' := mem_historyOf.mp hprepare
  have hcreated : created ⟨.prepare (svc.admission rt nodeId vmid request actor before),
      .ok (stored, some lease)⟩ = some operation.operationId := congrArg some hd.target.symm
  have hid := hs.creations i _ _ hprepare' hcreated
  obtain ⟨row, hrow⟩ := hs.rows _ hid
  refine ⟨hid, row, hrow, ?_⟩
  have htracked := hg.tracked _ hid row hrow
  have hundispatched : ¬ DispatchedIn t operation.operationId := by
    rintro ⟨j, e, hmem, hdispatched⟩
    obtain ⟨e', hmem', hcreated'⟩ := hr.creation_of_dispatch hmem hdispatched
    obtain rfl := hs.once j i e' _ _ hmem' hprepare' hcreated' hcreated
    exact hd.once e (mem_historyOf.mpr hmem) hdispatched
  have hmarked : MarkedIn t operation.operationId := by
    obtain ⟨lease', item, hlease, hmem⟩ := hd.marked
    exact ⟨i, _, svc.dispatching, mem_historyOf.mp hmem, by rw [← hlease]; rfl, rfl⟩
  have hstatus := htracked.status.resolve_right fun h => hundispatched h.1
  obtain ⟨hplanned, hblocked⟩ := htracked.marked hmarked
  simp only [List.mem_cons, List.not_mem_nil, or_false, hplanned, hblocked, false_or] at hstatus
  rcases hstatus with hstatus | hstatus <;> rw [hstatus] <;> rfl

/-- When an operation is about to be dispatched, and from its dispatch until it reaches a terminal
status, every lock it is bound to is open and its own; and a process ends an operation or gives up
a lock of it only from `planned` with `mutation_dispatched` false, or after it has observed a result
of the dispatch that matches the request. -/
theorem mutation_under_lock {s : State Command Reply Outcome World}
    (h : (system rt cluster).Reachable Initial s) :
    (∀ (i : ℕ) svc nodeId vmid request operation k,
      s.programs[i]? = some (Program.call (Command.dispatch svc nodeId vmid request operation) k) →
      ∃ row, s.world.db.operations.get operation.operationId = some row ∧
        row.status.isTerminal = false ∧ boundLockIds row.details ≠ [] ∧
        ∀ lockId ∈ boundLockIds row.details,
          LockHeld s.world.db.locks operation.operationId lockId) ∧
    (∀ id, DispatchedIn s.trace id → ∃ row, s.world.db.operations.get id = some row ∧
      boundLockIds row.details ≠ [] ∧ (row.status.isTerminal = false →
        ∀ lockId ∈ boundLockIds row.details, LockHeld s.world.db.locks id lockId)) ∧
    ∀ (i : ℕ) c k r w', s.programs[i]? = some (Program.call c k) → Exec rt cluster s.world c r w' →
      ∀ id ∈ s.world.admitted, ∀ row row', s.world.db.operations.get id = some row →
      w'.db.operations.get id = some row' → Closing s.world w' id row row' →
      (row.status = .planned ∧
        Dict.get row.details "mutation_dispatched" = some (.bool false)) ∨
      VerifiedIn rt s.trace i id := by
  obtain ⟨hr, hs, hg⟩ := guarded_of_reachable h
  refine ⟨fun i svc nodeId vmid request operation k hi => ?_, fun id hd => ?_, ?_⟩
  · have hallowed : DispatchAllowed rt (historyOf i s.trace) svc nodeId vmid request operation :=
      Contract.allowed_of_reachable (D := contract rt) follows_of_entry h hi
    obtain ⟨hid, row, hrow, hopen⟩ := open_of_dispatchAllowed hr hs hg hallowed
    have htracked := hg.tracked _ hid row hrow
    exact ⟨row, hrow, hopen, htracked.bound, htracked.locks hopen⟩
  · obtain ⟨i, e, hmem, hdispatched⟩ := hd
    obtain ⟨e', hmem', hcreated⟩ := hr.creation_of_dispatch hmem hdispatched
    have hid := hs.creations i e' id hmem' hcreated
    obtain ⟨row, hrow⟩ := hs.rows id hid
    have htracked := hg.tracked id hid row hrow
    exact ⟨row, hrow, htracked.bound, htracked.locks⟩
  · intro i c k r w' hi hexec id hid row row' hrow hrow' hclosing
    have hallowed : Allowed rt (historyOf i s.trace) c :=
      Contract.allowed_of_reachable (D := contract rt) follows_of_entry h hi
    exact hg.of_closing hallowed (exec_effect hexec) hid hrow hrow' hclosing

/-- The locks of a disk operation when it is about to be dispatched. -/
theorem mutation_under_lock_of_disk_request : ∃ s operation k row,
    (system sampleRuntime "lab").Reachable Initial s ∧
    s.programs[0]? = some (.call (.dispatch diskService "pve" 100 diskRequest operation) k) ∧
    s.world.db.operations.get operation.operationId = some row ∧
    ∀ lockId ∈ boundLockIds row.details,
      LockHeld s.world.db.locks operation.operationId lockId := by
  obtain ⟨operation, k, t, w, h⟩ := reachable_disk_dispatch
  obtain ⟨row, hrow, -, -, hlocks⟩ :=
    (mutation_under_lock h).1 0 diskService "pve" 100 diskRequest operation k rfl
  exact ⟨_, operation, k, row, h, rfl, hrow, hlocks⟩

end Gjallar.Execution

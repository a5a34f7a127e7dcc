import Gjallar.RedactionFixpoints
import Gjallar.TaskIdentity

/-!
# Sanitising twice

An observation commit sanitises what it writes to the recovery row once, and what it writes to the
operation row and to its event twice. Redaction is idempotent, so the rows show the same.
-/
namespace Gjallar.SanitizedLedgers

open Gjallar.Text Gjallar.Data Gjallar.Tables Gjallar.Redaction Gjallar.RedactionTraces
  Gjallar.Operation Gjallar.OperationStore Gjallar.RecoveryStore Gjallar.TaskIdentity

/-! ### Values -/

mutual

theorem redactSecrets_redactSecrets (v : Value) :
    redactSecrets (redactSecrets v) = redactSecrets v := by
  cases v with
  | dict kvs => rw [redactSecrets, redactSecrets, redactDict_redactDict kvs]
  | tuple xs => rw [redactSecrets, redactSecrets, redactList_redactList xs]
  | list xs => rw [redactSecrets, redactSecrets, redactList_redactList xs]
  | str s => rw [redactSecrets_str, redactSecrets_str, redactString_redactString]
  | null | bool | int | float => simp [redactSecrets]

theorem redactList_redactList (xs : List Value) : redactList (redactList xs) = redactList xs := by
  cases xs with
  | nil => rfl
  | cons v xs =>
      rw [redactList, redactList, redactSecrets_redactSecrets v, redactList_redactList xs]

theorem redactDict_redactDict (kvs : List (Str × Value)) :
    redactDict (redactDict kvs) = redactDict kvs := by
  cases kvs with
  | nil => rfl
  | cons kv kvs =>
      obtain ⟨k, v⟩ := kv
      rw [redactDict, redactDict, redactDict_redactDict kvs]
      split
      · rfl
      · rw [redactSecrets_redactSecrets v]

end

theorem sanitized_sanitized (d : Dict) : sanitized (sanitized d) = sanitized d :=
  redactDict_redactDict d

theorem sanitized_merge (d patch : Dict) :
    sanitized (Dict.merge d patch) = Dict.merge (sanitized d) (sanitized patch) := by
  have hhas (key : Str) : Dict.has (sanitized patch) key = Dict.has patch key := by
    rw [Dict.has, Dict.has, keys_sanitized]
  rw [sanitized_eq_map, Dict.merge, List.map_append, ← sanitized_eq_map, Dict.merge]
  simp only [hhas]
  rw [sanitized_eq_map d, List.filter_map]
  rfl

/-! ### What a commit is given -/

/-- What the projector of a commit returns. -/
def contribution (o : Observation) (jobs : Dict) : Dict :=
  match o.projector with
  | none => []
  | some projector =>
      match projector jobs with
      | .ok (some (.dict d), _) => d
      | _ => []

/-- The part of it for one of the rows. -/
def contributed (result : Dict) (key : Str) : Dict :=
  match Dict.get result key with
  | some (.dict d) => d
  | _ => []

def operationInput (o : Observation) (jobs : Dict) : Dict :=
  Dict.merge o.detailsPatch (contributed (contribution o jobs) "operation_details_patch")

def recoveryInput (o : Observation) (jobs : Dict) : Dict :=
  Dict.merge o.recoveryDetailsPatch (contributed (contribution o jobs) "recovery_details_patch")

def eventInput (o : Observation) (jobs : Dict) : Dict :=
  Dict.merge o.payload (contributed (contribution o jobs) "event_payload")

theorem projectedEntry_eq {result d : Dict} {key : Str} (h : projectedEntry result key = .ok d) :
    d = sanitized (contributed result key) := by
  unfold projectedEntry at h
  unfold contributed
  cases hget : Dict.get result key with
  | none =>
      rw [hget] at h
      cases h
      rfl
  | some v =>
      rw [hget] at h
      cases v with
      | dict e =>
          cases h
          rfl
      | _ =>
          dsimp only at h
          split at h
          · cases h
          · cases h
            rfl

theorem project_eq {o : Observation} {jobs jobs' : Dict} {p : Projection}
    (h : o.project jobs = .ok (p, jobs')) :
    let result := contribution o jobs
    p.payload = sanitized (contributed result "event_payload") ∧
      p.details = sanitized (contributed result "operation_details_patch") ∧
      p.recoveryDetails = sanitized (contributed result "recovery_details_patch") := by
  intro result
  have hnone : ∀ key, sanitized (contributed [] key) = [] := fun _ => rfl
  unfold Observation.project at h
  unfold result contribution
  cases hprojector : o.projector with
  | none =>
      rw [hprojector] at h
      cases h
      exact ⟨(hnone _).symm, (hnone _).symm, (hnone _).symm⟩
  | some projector =>
      rw [hprojector] at h
      dsimp only at h ⊢
      cases hresult : projector jobs with
      | error message =>
          rw [hresult] at h
          cases h
      | ok result =>
          obtain ⟨candidate, jobs₁⟩ := result
          rw [hresult] at h
          cases candidate with
          | none =>
              cases h
              exact ⟨(hnone _).symm, (hnone _).symm, (hnone _).symm⟩
          | some v =>
              cases v with
              | dict d =>
                  simp only [bind_eq_ok, pure_eq_ok] at h
                  obtain ⟨payload, hpayload, details, hdetails, recovery, hrecovery, heq⟩ := h
                  cases heq
                  exact ⟨projectedEntry_eq hpayload, projectedEntry_eq hdetails,
                    projectedEntry_eq hrecovery⟩
              | _ => cases h

/-! ### What a commit writes -/

/-- An entry as it is stored: sanitised once. -/
def stored (key : Str) (v : Value) : Value :=
  if isSecretKey key then .str redacted else redactSecrets v

/-- A dictionary shows the entries of an input. -/
def Shows (input d : Dict) : Prop :=
  ∀ key v, Dict.get input key = some v → Dict.get d key = some (stored key v)

theorem shows_sanitized (input : Dict) : Shows input (sanitized input) := by
  intro key v h
  rw [get_sanitized, h]
  rfl

theorem shows_merge (input d : Dict) : Shows input (Dict.merge d (sanitized input)) := by
  intro key v h
  rw [Dict.get_merge, shows_sanitized input key v h]
  rfl

/-- The rows that a commit leaves behind, written from its inputs by sanitising them once. -/
theorem rows_of_commit {rt : Runtime} {draw : Draw} {lease : RecoveryLease} {o : Observation}
    {db db' : Db} {result : OperationSnapshot × RecoveryItem}
    (h : commitObservation rt draw lease o db = .ok (result, db')) :
    ∃ row operation row' operation' event, db.recovery.get lease.operationId = some row ∧
      db.operations.get lease.operationId = some operation ∧
      db'.recovery.get lease.operationId = some row' ∧
      db'.operations.get lease.operationId = some operation' ∧ event ∈ db'.events ∧
      event.operationId = lease.operationId ∧ event.sequence = operation'.version ∧
      row'.details = Dict.merge row.details (sanitized (recoveryInput o db.jobs)) ∧
      operation'.details = Dict.merge operation.details (sanitized (operationInput o db.jobs)) ∧
      event.payload = sanitized (eventInput o db.jobs) := by
  obtain ⟨operation', item⟩ := result
  obtain ⟨status, row, operation, p, jobs, mid, recovery, locks, -, hrow, -, hop, -, -, hproject,
    -, happend, hput, -, -, rfl⟩ := commitObservation_eq_ok h
  obtain ⟨old, events, operations, hold, -, -, hevents, rfl, hput', rfl⟩ :=
    appendInSession_eq_ok happend
  rw [hop, Option.some.injEq] at hold
  cases hold
  obtain ⟨hpayload, hdetails, hrecovery⟩ := project_eq hproject
  have hid : operation.operationId = lease.operationId := Table.key_of_get hop
  have hitem : row.operationId = lease.operationId := Table.key_of_get hrow
  refine ⟨row, operation, _, _, appendedEvent rt draw operation (o.append p), hrow, hop,
    Table.get_put_self hrow hput hitem, Table.get_put_self hop hput' hid,
    (Table.mem_insert hevents).mpr (.inr rfl), hid, rfl, ?_, ?_, ?_⟩
  · change Dict.merge row.details (Dict.merge _ p.recoveryDetails) = _
    rw [hrecovery, recoveryInput, sanitized_merge]
  · change Dict.merge operation.details (sanitized (Dict.merge _ p.details)) = _
    rw [hdetails, ← sanitized_merge, sanitized_sanitized]
    rfl
  · change sanitized (Dict.merge _ p.payload) = _
    rw [hpayload, ← sanitized_merge, sanitized_sanitized]
    rfl

/-- Redaction is idempotent, and what a commit writes to the recovery row, to the operation row and
to its event is in each of them the input as it is sanitised once. -/
theorem redaction_idempotent :
    (∀ v, redactSecrets (redactSecrets v) = redactSecrets v) ∧
      ∀ (rt : Runtime) (draw : Draw) (lease : RecoveryLease) (o : Observation) (db db' : Db)
        (result : OperationSnapshot × RecoveryItem),
        commitObservation rt draw lease o db = .ok (result, db') →
        ∃ row operation event, db'.recovery.get lease.operationId = some row ∧
          db'.operations.get lease.operationId = some operation ∧ event ∈ db'.events ∧
          event.operationId = lease.operationId ∧ event.sequence = operation.version ∧
          Shows (recoveryInput o db.jobs) row.details ∧
          Shows (operationInput o db.jobs) operation.details ∧
          Shows (eventInput o db.jobs) event.payload := by
  refine ⟨redactSecrets_redactSecrets, ?_⟩
  intro rt draw lease o db db' result h
  obtain ⟨row, operation, row', operation', event, -, -, hrow', hoperation', hevent, hid, hsequence,
    hdetails, hdetails', hpayload⟩ := rows_of_commit h
  refine ⟨row', operation', event, hrow', hoperation', hevent, hid, hsequence, ?_, ?_, ?_⟩
  · rw [hdetails]
    exact shows_merge _ _
  · rw [hdetails']
    exact shows_merge _ _
  · rw [hpayload]
    exact shows_sanitized _

/-- The ledgers when a task is bound to its operation. -/
theorem redaction_idempotent_of_task :
    let o := taskBound "vm_disk_" passwordUserUpid
    ∃ result db' row operation,
      commitObservation sampleRuntime sampleDraw dispatchLease o dispatchedDb = .ok (result, db') ∧
      db'.recovery.get dispatchLease.operationId = some row ∧
      db'.operations.get dispatchLease.operationId = some operation ∧
      Dict.get row.details "upid" = some (stored "upid" (.str passwordUserUpid)) ∧
      Dict.get operation.details "proxmox_upid" =
        some (stored "proxmox_upid" (.str passwordUserUpid)) := by
  intro o
  obtain ⟨⟨result, db'⟩, h⟩ := exists_eq_ok (show (commitObservation sampleRuntime sampleDraw
    dispatchLease o dispatchedDb).isOk = true by decide)
  obtain ⟨row, operation, event, hrow, hoperation, -, -, -, hshows, hshows', -⟩ :=
    redaction_idempotent.2 sampleRuntime sampleDraw dispatchLease o dispatchedDb db' result h
  exact ⟨result, db', row, operation, h, hrow, hoperation, hshows "upid" _ rfl,
    hshows' "proxmox_upid" _ rfl⟩

end Gjallar.SanitizedLedgers

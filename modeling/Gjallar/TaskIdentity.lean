import Gjallar.RecoveryBinding

/-!
# The identity of a dispatched task

The commit that binds a dispatched task writes its UPID to the operation and to the recovery item,
through two passes of redaction. A UPID survives them exactly when none of the secret markers
occurs in it.
-/
namespace Gjallar.TaskIdentity

open Gjallar.Text Gjallar.Data Gjallar.Tables Gjallar.Operation Gjallar.OperationStore
  Gjallar.Redaction Gjallar.RecoveryStore Gjallar.RecoveryBinding

/-- The commit of a change service that binds the dispatched task. -/
def taskBound (eventPrefix upid : Str) : Observation :=
  { nextStatus := some .running
    eventType := eventPrefix ++ ("task_bound" : Str)
    stage := "task"
    detailsPatch := [("proxmox_upid", .str upid)]
    recoveryDetailsPatch := [("upid", .str upid)]
    expectedStatuses := some [.dispatching]
    recoveryStatus := RecoveryStatus.leased.name }

/-! ### UPIDs -/

theorem isUpidChar_of_mem {upid : Str} (h : isUpid upid = true) {c : Char} (hc : c ∈ upid) :
    isUpidChar c = true := by
  obtain ⟨w, rfl, -, -, hw⟩ := (isUpid_iff upid).mp h
  rcases List.mem_append.mp hc with hc | hc
  · have hall : ∀ d ∈ ("UPID:" : Str), isUpidChar d = true := forall_mem_of_all rfl
    exact hall c hc
  · exact hw c hc

theorem isSpace_of_isUpidChar {c : Char} (h : isUpidChar c = true) : isSpace c = false := by
  have hn : 33 ≤ c.toNat ∧ c.toNat ≤ 122 := by
    simp only [isUpidChar, alnumOr, isAlnum, isAsciiDigit, Bool.or_eq_true, Bool.and_eq_true,
      decide_eq_true_eq, Char.le_def, UInt32.le_iff_toNat_le, List.contains_iff_mem] at h
    rcases h with ((⟨h1, h2⟩ | ⟨h1, h2⟩) | ⟨h1, h2⟩) | h
    · exact ⟨le_trans (by decide) h1, h2⟩
    · exact ⟨le_trans (by decide) h1, le_trans h2 (by decide)⟩
    · omega
    · have hall : ∀ d ∈ ("_.:@!+-" : Str), 33 ≤ d.toNat ∧ d.toNat ≤ 122 :=
        forall_mem_of_all rfl
      exact hall c h
  simp only [isSpace, Bool.or_eq_false_iff, Bool.and_eq_false_iff, beq_eq_false_iff_ne,
    decide_eq_false_iff_not]
  omega

theorem redactString_upid {upid : Str} (h : isUpid upid = true) :
    redactString upid = if hasMarker upid then redacted else upid := by
  refine redactString_of_plain (fun _ hc => isSpace_of_isUpidChar (isUpidChar_of_mem h hc)) ?_
  intro hc
  exact absurd (isUpidChar_of_mem h hc) (by decide)

/-- Two passes of redaction do what one does. -/
theorem redactString_redactString_upid {upid : Str} (h : isUpid upid = true) :
    redactString (redactString upid) = if hasMarker upid then redacted else upid := by
  rw [redactString_upid h]
  by_cases hm : hasMarker upid
  · rw [if_pos hm, redactString_redacted]
  · rw [if_neg hm, redactString_upid h, if_neg hm]

theorem strip_of_no_space {s : Str} (h : ∀ c ∈ s, isSpace c = false) : strip s = s := by
  have hfront : ∀ t : Str, (∀ c ∈ t, isSpace c = false) → t.dropWhile isSpace = t := by
    intro t ht
    cases t with
    | nil => rfl
    | cons c t => rw [List.dropWhile_cons_of_neg (by simp [ht c])]
  rw [strip, hfront s h, hfront s.reverse (by simpa using h), List.reverse_reverse]

theorem ne_nil_of_isUpid {upid : Str} (h : isUpid upid = true) : upid ≠ [] := by
  obtain ⟨w, rfl, -⟩ := (isUpid_iff upid).mp h
  simp

theorem strip_of_isUpid {upid : Str} (h : isUpid upid = true) : strip upid = upid :=
  strip_of_no_space fun _ hc => isSpace_of_isUpidChar (isUpidChar_of_mem h hc)

theorem keepsReference_of_isUpid (rt : Runtime) {upid : Str} (h : isUpid upid = true) :
    keepsReference rt upid = true := by
  have hne := ne_nil_of_isUpid h
  have hkeep : (compactProxmoxTask rt.repr [] [] upid).upid = upid := by
    change (if isUpid (strip (orEntry rt.repr upid [] "upid")) then
      strip (orEntry rt.repr upid [] "upid") else []) = upid
    rw [orEntry, if_pos hne, strip_of_isUpid h, if_pos h]
  rw [keepsReference, hkeep, decide_eq_true hne]

theorem text_of_isUpid (rt : Runtime) {d : Dict} {key upid : Str} (h : isUpid upid = true)
    (hd : Dict.get d key = some (.str upid)) : Dict.text rt.repr d key = upid := by
  have hne := ne_nil_of_isUpid h
  have htruthy : (Value.str upid).truthy = true := by simpa [Value.truthy] using hne
  simp only [Dict.text, hd, htruthy, if_true]
  exact strip_of_isUpid h

/-- The task reference check passes when both ledgers hold the same UPID. -/
theorem checkTaskReference_of_isUpid (rt : Runtime) {recovery operation : Dict} {upid : Str}
    (h : isUpid upid = true) (hr : Dict.get recovery "upid" = some (.str upid))
    (ho : Dict.get operation "proxmox_upid" = some (.str upid)) :
    checkTaskReference rt recovery operation = .ok () := by
  simp only [checkTaskReference, text_of_isUpid rt h hr, text_of_isUpid rt h ho, bindingError,
    bind_eq_ok, raiseIf_eq_ok, keepsReference_of_isUpid rt h]
  exact ⟨(), by simp, (), by simp, by simp⟩

/-! ### The commit -/

/-- What the ledgers hold after the commit that binds a task. -/
theorem taskBound_stored {rt : Runtime} {draw : Draw} {lease : RecoveryLease}
    {eventPrefix upid : Str} {db db' : Db} {r : OperationSnapshot × RecoveryItem}
    (h : commitObservation rt draw lease (taskBound eventPrefix upid) db = .ok (r, db')) :
    ∃ operation row, db'.operations.get lease.operationId = some operation ∧
      db'.recovery.get lease.operationId = some row ∧
      Dict.get operation.details "proxmox_upid" =
        some (.str (redactString (redactString upid))) ∧
      Dict.get row.details "upid" = some (.str (redactString upid)) := by
  obtain ⟨operation', item⟩ := r
  obtain ⟨status, row, operation, p, jobs, mid, recovery, locks, -, hrow, -, -, -, -, hp, -,
    happend, hput, -, -, rfl⟩ := commitObservation_eq_ok h
  obtain ⟨old, events, operations, hold, -, -, -, rfl, hputop, rfl⟩ :=
    appendInSession_eq_ok happend
  simp only [Observation.project, taskBound, Except.ok.injEq, Prod.mk.injEq] at hp
  obtain ⟨rfl, -⟩ := hp
  have hopid : old.operationId = lease.operationId := Table.key_of_get hold
  have hrowid : row.operationId = lease.operationId := Table.key_of_get hrow
  refine ⟨applyProjection rt draw old ((taskBound eventPrefix upid).append {}),
    (taskBound eventPrefix upid).recoveryRow draw status row {}, ?_, ?_, ?_, ?_⟩
  · exact Table.get_put_self hold hputop hopid
  · exact Table.get_put_self hrow hput hrowid
  · have hkey : isSecretKey "proxmox_upid" = false := by decide
    simp [Observation.append, Observation.operationPatch, taskBound, hkey,
      -String.reduceToList]
  · have hkey : isSecretKey "upid" = false := by decide
    simp [Observation.recoveryRow, Observation.recoveryPatch, taskBound, hkey,
      -String.reduceToList]

/-- The dispatched UPID is read back from both ledgers, and passes the recovery binding check,
exactly when no secret marker occurs in it. -/
theorem task_identity_persists_iff (rt : Runtime) (draw : Draw) (lease : RecoveryLease)
    (eventPrefix upid : Str) (db db' : Db) (r : OperationSnapshot × RecoveryItem)
    (hupid : isUpid upid = true)
    (h : commitObservation rt draw lease (taskBound eventPrefix upid) db = .ok (r, db')) :
    (∃ operation row, db'.operations.get lease.operationId = some operation ∧
      db'.recovery.get lease.operationId = some row ∧
      Dict.get operation.details "proxmox_upid" = some (.str upid) ∧
      Dict.get row.details "upid" = some (.str upid) ∧
      checkTaskReference rt row.details operation.details = .ok ()) ↔
    hasMarker upid = false := by
  obtain ⟨operation, row, ho, hr, hou, hru⟩ := taskBound_stored h
  rw [redactString_redactString_upid hupid] at hou
  rw [redactString_upid hupid] at hru
  constructor
  · rintro ⟨operation', row', ho', -, hou', -, -⟩
    rw [ho, Option.some.injEq] at ho'
    subst ho'
    by_contra hm
    rw [Bool.not_eq_false] at hm
    rw [hm, if_pos rfl, hou', Option.some.injEq, Value.str.injEq] at hou
    rw [hou] at hupid
    exact absurd hupid (by decide)
  · intro hm
    rw [hm, if_neg Bool.false_ne_true] at hou hru
    exact ⟨operation, row, ho, hr, hou, hru, checkTaskReference_of_isUpid rt hupid hru hou⟩

/-! ### A disk operation about to bind its task -/

def sampleHex : Hex := ⟨"0a", forall_mem_of_all rfl⟩

def sampleRuntime : Runtime :=
  ⟨fun _ => sampleHex, fun _ => sampleHex, fun _ => "2026-01-01T00:00:00+00:00", fun _ => "{}"⟩

def sampleDraw : Draw := ⟨1000000, 1000000, fun _ => sampleHex⟩

def dispatchingOperation : OperationRecord :=
  { operationId := "vm-disk-1", operationType := .vmDiskResize, executionMode := .managedApi,
    status := .dispatching, targetType := "proxmox_vm", targetId := "vmid:100",
    idempotencyKey := "sha256:1", intentDigest := "sha256:2", planDigest := "sha256:2",
    currentStage := "dispatch", actor := {},
    details := [("target", .dict [("node_id", .str "pve"), ("vmid", .int 100)]),
      ("mutation_dispatched", .bool true), ("target_lock_id", .str "operation-lock-0b"),
      ("cluster_id", .str "lab")],
    version := 2, lastEventChecksum := "sha256:3", createdAt := 0, updatedAt := 0 }

def leasedItem : RecoveryRecord :=
  { operationId := "vm-disk-1", recoveryKind := "vm_disk_observation", status := .leased,
    availableAt := 0, leaseOwner := some "vm_disk_resize:0c",
    leaseToken := some "recovery-lease-0d", leaseGeneration := 1,
    leaseExpiresAt := some (Instant.seconds 60), attemptCount := 1, lastErrorCode := none,
    details := [("target_lock_id", .str "operation-lock-0b"), ("cluster_id", .str "lab"),
      ("node_id", .str "pve"), ("vmid", .int 100)],
    createdAt := 0, updatedAt := 0, completedAt := none }

/-- The database between the dispatch and the commit that binds its task. -/
def dispatchedDb : Db :=
  { operations := ⟨[dispatchingOperation], by simp, by simp⟩
    recovery := ⟨[leasedItem], by simp, by simp⟩ }

def dispatchLease : RecoveryLease := leaseOf leasedItem "recovery-lease-0d"

def passwordUserUpid : Str := "UPID:pve:00001234:0A1B2C3D:66F00000:resize:100:root@pam:"

def apiTokenUpid : Str := "UPID:pve:00001234:0A1B2C3D:66F00000:resize:100:root@pam!my-token:"

theorem task_identity_persists_for_password_user : ∃ r db',
    commitObservation sampleRuntime sampleDraw dispatchLease
      (taskBound "vm_disk_" passwordUserUpid) dispatchedDb = .ok (r, db') ∧
    ∃ operation row, db'.operations.get dispatchLease.operationId = some operation ∧
      db'.recovery.get dispatchLease.operationId = some row ∧
      Dict.get operation.details "proxmox_upid" = some (.str passwordUserUpid) ∧
      Dict.get row.details "upid" = some (.str passwordUserUpid) ∧
      checkTaskReference sampleRuntime row.details operation.details = .ok () := by
  obtain ⟨⟨r, db'⟩, h⟩ := exists_eq_ok (show (commitObservation sampleRuntime sampleDraw
    dispatchLease (taskBound "vm_disk_" passwordUserUpid) dispatchedDb).isOk = true by
    decide)
  exact ⟨r, db', h, (task_identity_persists_iff sampleRuntime sampleDraw dispatchLease "vm_disk_"
    passwordUserUpid dispatchedDb db' r (by decide +kernel) h).mpr (by decide +kernel)⟩

/-- The UPID of a task started with an API token is accepted by the task parser, but the commit
stores neither ledger entry as dispatched, and the recovery binding check refuses what it stores. -/
theorem api_token_task_identity_lost : isUpid apiTokenUpid = true ∧ ∃ r db' operation row,
    commitObservation sampleRuntime sampleDraw dispatchLease
      (taskBound "vm_disk_" apiTokenUpid) dispatchedDb = .ok (r, db') ∧
    db'.operations.get dispatchLease.operationId = some operation ∧
    db'.recovery.get dispatchLease.operationId = some row ∧
    Dict.get operation.details "proxmox_upid" ≠ some (.str apiTokenUpid) ∧
    Dict.get row.details "upid" ≠ some (.str apiTokenUpid) ∧
    checkTaskReference sampleRuntime row.details operation.details =
      .error "operation_task_reference_invalid" := by
  obtain ⟨⟨r, db'⟩, h⟩ := exists_eq_ok (show (commitObservation sampleRuntime sampleDraw
    dispatchLease (taskBound "vm_disk_" apiTokenUpid) dispatchedDb).isOk = true by
    decide)
  obtain ⟨operation, row, ho, hr, hou, hru⟩ := taskBound_stored h
  have hupid : isUpid apiTokenUpid = true := by decide +kernel
  have hmarker : hasMarker apiTokenUpid = true := by decide +kernel
  have hlost : (Value.str redacted) ≠ .str apiTokenUpid := by decide
  rw [redactString_redactString_upid hupid, if_pos hmarker] at hou
  rw [redactString_upid hupid, if_pos hmarker] at hru
  refine ⟨hupid, r, db', operation, row, h, ho, hr, ?_, ?_, ?_⟩
  · rwa [hou, ne_eq, Option.some.injEq]
  · rwa [hru, ne_eq, Option.some.injEq]
  · have htext : Dict.text sampleRuntime.repr operation.details "proxmox_upid" = redacted := by
      rw [Dict.text, hou]
      decide
    have hlostRef : keepsReference sampleRuntime redacted = false := by decide
    simp only [checkTaskReference, htext, bindingError, hlostRef]
    rfl

end Gjallar.TaskIdentity

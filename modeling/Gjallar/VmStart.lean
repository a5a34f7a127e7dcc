import Gjallar.ChangeRecovery
import Gjallar.TaskIdentity
import Gjallar.CommitSequence

/-!
# The verdict on a VM start

The start task has been accepted. The foreground workflow polls it, observes the VM and settles the
operation; after a crash `VmStartRecoveryHandler` does so from its own observations.
-/
namespace Gjallar.VmStart

open Gjallar.Text Gjallar.Data Gjallar.Regex Gjallar.Regex.Pattern Gjallar.Operation
  Gjallar.RecoveryStore Gjallar.RecoveryBinding Gjallar.ChangeRecovery Gjallar.CommitSequence

/-! ### Evidence of a VM -/

/-- `_PROXMOX_VM_NAME`. -/
def proxmoxVmName : Pattern Char :=
  seq (one (alnumOr "")) (upTo (one (alnumOr "_.-")) 254)

/-- The bounded evidence of a VM. -/
structure VmEvidence where
  nodeId : Str
  vmid : ℤ
  name : Str
  status : Str
  deriving DecidableEq

def VmEvidence.toDict (v : VmEvidence) : Dict :=
  [("node_id", .str v.nodeId), ("vmid", .int v.vmid), ("name", .str v.name),
    ("status", .str v.status)]

/-- `compact_proxmox_vm_status`. -/
def compactProxmoxVmStatus (repr : Value → Str) (vm : Dict) (node : Str) (vmid : ℤ) : VmEvidence :=
  let status := lower (Dict.text repr vm "status")
  let name := Dict.text repr vm "name"
  { nodeId := node.take 255
    vmid := vmid
    name := if name ≠ [] ∧ (proxmoxVmName.fullmatch name).isNone then "unknown" else name
    status := if status ∈ (["running", "stopped", "paused", "suspended", "unknown"] : List Str)
      then status else if status = [] then [] else "unknown" }

/-! ### The foreground workflow -/

/-- What the workflow knows once the start has been accepted. -/
structure StartRun where
  nodeId : Str
  vmid : ℤ
  upid : Str
  artifact : Value

namespace StartRun

variable (repr : Value → Str) (s : StartRun)

/-- `_recovery_task_payload` of the task that the adapter returned. -/
def task (raw : Dict) : TaskEvidence :=
  compactProxmoxTask repr (compactProxmoxTask repr raw s.nodeId s.upid).toDict [] []

/-- `_recovery_observed_payload` of the status that the adapter returned, or of none. -/
def observedPayload (vm : Option Dict) : Dict :=
  let status := match vm with
    | some raw => (compactProxmoxVmStatus repr raw s.nodeId s.vmid).toDict
    | none => []
  let error : Str := if vm.isNone then "proxmox_vm_status_observation_unavailable" else []
  Dict.merge (compactProxmoxVmStatus repr status s.nodeId s.vmid).toDict [("error", .str error)]

/-- The task and the VM as the ledgers record them. -/
def evidence (raw : Dict) (vm : Option Dict) : Dict :=
  [("task", .dict (s.task repr raw).toDict), ("observed_after", .dict (s.observedPayload repr vm))]

def sideEffects : Value :=
  .list [.str "proxmox_start_invoked", .str "proxmox_task_polled",
    .str "proxmox_post_check_observed"]

/-- The commit of what was observed. -/
def verifying (raw : Dict) (vm : Option Dict) : Observation :=
  { nextStatus := some .verifying, eventType := "task_and_state_observed", stage := "post_check",
    payload := s.evidence repr raw vm, expectedStatuses := some [.running],
    recoveryStatus := "leased", recoveryDetailsPatch := s.evidence repr raw vm }

/-- `_record_reconciliation_required`. -/
def reconciliation (code message stage : Str) (raw : Dict) (vm : Option Dict) : Observation :=
  let payload : Dict := ("code", .str code) :: ("message", .str message) ::
    ("side_effects", sideEffects) :: s.evidence repr raw vm
  { nextStatus := some .needsReconciliation, eventType := "reconciliation_required",
    stage := stage, payload := payload, detailsPatch := [("reconciliation_code", .str code)],
    expectedStatuses := some [.dispatching, .running, .verifying],
    recoveryStatus := if s.upid = [] then "paused" else "retry_wait",
    retryDelay := if s.upid = [] then 0 else Instant.seconds 30, errorCode := some code,
    recoveryDetailsPatch := [("upid", .str s.upid), ("node_id", .str s.nodeId),
      ("vmid", .int s.vmid)] }

/-- The commit that finalises the compatibility projection. -/
def projected (stage status : Str) (expected : OperationStatus) : Observation :=
  { eventType := "recovery_compatibility_projection_recorded", stage := stage,
    payload := [("operation_status", .str status)], expectedStatuses := some [expected],
    recoveryStatus := "completed", releaseTargetLock := true }

def failed (raw : Dict) (vm : Option Dict) : List Observation :=
  [{ nextStatus := some .failed, eventType := "task_failed", stage := "task_poll",
     payload := s.evidence repr raw vm, expectedStatuses := some [.verifying],
     recoveryStatus := "leased", errorCode := some "VM_START_TASK_FAILED",
     recoveryDetailsPatch := ("terminal_outcome", .str "failed") :: s.evidence repr raw vm },
   projected "task_poll" "failed" .failed]

def succeeded (raw : Dict) (vm : Option Dict) : List Observation :=
  [{ nextStatus := some .succeeded, eventType := "verification_succeeded", stage := "post_check",
     payload := ("artifact", s.artifact) :: s.evidence repr raw vm,
     detailsPatch := [("result_status", .str "completed")],
     expectedStatuses := some [.verifying], recoveryStatus := "leased",
     recoveryDetailsPatch := ("terminal_outcome", .str "succeeded") :: s.evidence repr raw vm },
   projected "post_check" "succeeded" .succeeded]

/-- How the workflow settles a task that `wait_for_task` returned. -/
def settle (raw : Dict) (vm : Option Dict) : List Observation :=
  let exitstatus := upperAscii (s.task repr raw).exitstatus
  let observed := Dict.text repr (s.observedPayload repr vm) "status"
  if exitstatus = [] ∨ exitstatus = "UNKNOWN" then
    [s.reconciliation repr "VM_START_TASK_RECONCILIATION_REQUIRED"
      "Proxmox VM start task status is unknown and requires reconciliation" "task_poll" raw vm]
  else if exitstatus ≠ "OK" then
    if (s.task repr raw).status ≠ "stopped" ∨ observed ≠ "stopped" then
      [s.reconciliation repr "VM_START_TASK_RECONCILIATION_REQUIRED"
        (("Proxmox VM start task failed but observed VM state is not safely stopped; " : Str) ++
          ("reconciliation is required" : Str)) "task_poll" raw vm]
    else s.failed repr raw vm
  else if observed ≠ "running" then
    [s.reconciliation repr "VM_START_POST_CHECK_RECONCILIATION_REQUIRED"
      (("VM start post-check did not verify the expected running state; " : Str) ++
        ("reconciliation is required" : Str)) "post_check" raw vm]
  else s.succeeded repr raw vm

/-- The commits of the foreground workflow from the status `running`. -/
def foreground (raw : Dict) (vm : Option Dict) : List Observation :=
  s.verifying repr raw vm :: s.settle repr raw vm

end StartRun

/-! ### The recovery handler -/

/-- `VmStartRecoveryHandler` behind its check of the binding: a binding that does not pass pauses
the recovery before the task and the VM are read. -/
structure RecoveryRun where
  nodeId : Str
  vmid : ℤ
  upid : Str
  attemptCount : ℕ
  maxAttempts : ℕ
  /-- `record_terminal_in_transaction`, when a compatibility projection is configured. -/
  projector : OperationStatus → Dict → Dict → Option (Dict → Except Str (Option Value × Dict))

namespace RecoveryRun

variable (repr : Value → Str) (h : RecoveryRun)

/-- `_compact_task`. -/
def task (raw : Dict) : TaskEvidence :=
  compactProxmoxTask repr [("status", Dict.getD raw "status" .null),
    ("exitstatus", Dict.getD raw "exitstatus" .null)] h.nodeId h.upid

/-- `_compact_vm_status`. -/
def observed (raw : Dict) : VmEvidence :=
  compactProxmoxVmStatus repr [("name", Dict.getD raw "name" .null),
    ("status", Dict.getD raw "status" .null)] h.nodeId h.vmid

/-- The task and the VM as the ledgers record them. -/
def evidence (raw vm : Dict) : Dict :=
  [("task", .dict (h.task repr raw).toDict), ("observed_after", .dict (h.observed repr vm).toDict)]

/-- `_retry_state`. -/
def retryState : Str × Instant :=
  if max h.maxAttempts 1 ≤ h.attemptCount then ("paused", 0)
  else ("retry_wait", Instant.seconds 5)

/-- The commit on a task that has not stopped. -/
def retry (status : OperationStatus) (raw : Dict) : Observation :=
  let taskStatus := (h.task repr raw).status
  { eventType := "recovery_task_observed", stage := "task_poll",
    payload := [("task", .dict (h.task repr raw).toDict)], expectedStatuses := some [status],
    actor := some systemRecoveryActor, recoveryStatus := h.retryState.1,
    retryDelay := h.retryState.2,
    errorCode := if h.retryState.1 = "paused" then some "OPERATION_RECOVERY_RETRY_EXHAUSTED"
      else none,
    recoveryDetailsPatch := [("upid", .str h.upid),
      ("last_task_status", .str (if taskStatus = [] then "unknown" else taskStatus))] }

/-- `_advance_to_verifying`. -/
def advanceToVerifying (status : OperationStatus) (raw vm : Dict) :
    Except Str (List Observation) :=
  let correlated : Observation :=
    { nextStatus := some .running, eventType := "recovery_dispatch_task_correlated",
      stage := "task_poll", payload := [("task", .dict (h.task repr raw).toDict)],
      detailsPatch := [("proxmox_upid", .str (h.task repr raw).upid)],
      expectedStatuses := some [.dispatching], actor := some systemRecoveryActor,
      recoveryStatus := "leased" }
  let verifying := fun status : OperationStatus =>
    ({ nextStatus := some .verifying, eventType := "recovery_task_and_state_observed",
       stage := "post_check", payload := h.evidence repr raw vm,
       expectedStatuses := some [status], actor := some systemRecoveryActor,
       recoveryStatus := "leased" } : Observation)
  match status with
  | .dispatching => .ok [correlated, verifying .running]
  | .running => .ok [verifying .running]
  | .needsReconciliation => .ok [verifying .needsReconciliation]
  | .verifying => .ok []
  | _ => .error "VM Start recovery cannot verify status"

/-- `_complete_terminal_projection`. -/
def completeTerminalProjection (status : OperationStatus) (name : Str) (task observed : Dict) :
    Observation :=
  { eventType := "recovery_compatibility_projection_recorded",
    stage := if status = .succeeded then "post_check" else "task_poll",
    payload := [("operation_status", .str name)], expectedStatuses := some [status],
    actor := some systemRecoveryActor, recoveryStatus := "completed", releaseTargetLock := true,
    projector := h.projector status task observed }

def succeeded (raw vm : Dict) : List Observation :=
  [{ nextStatus := some .succeeded, eventType := "recovery_verification_succeeded",
     stage := "post_check", payload := h.evidence repr raw vm,
     detailsPatch := [("result_status", .str "completed"),
       ("recovered_after_restart", .bool true)],
     expectedStatuses := some [.verifying], actor := some systemRecoveryActor,
     recoveryStatus := "leased",
     recoveryDetailsPatch := ("terminal_outcome", .str "succeeded") :: h.evidence repr raw vm },
   h.completeTerminalProjection .succeeded "succeeded" (h.task repr raw).toDict
     (h.observed repr vm).toDict]

def failed (status : OperationStatus) (raw vm : Dict) : List Observation :=
  [{ nextStatus := if status ≠ .failed then some .failed else none,
     eventType := "recovery_task_failed", stage := "task_poll",
     payload := h.evidence repr raw vm,
     detailsPatch := [("result_status", .str "failed"), ("recovered_after_restart", .bool true)],
     expectedStatuses := some [status], actor := some systemRecoveryActor,
     recoveryStatus := "leased", errorCode := some "VM_START_TASK_FAILED",
     recoveryDetailsPatch := ("terminal_outcome", .str "failed") :: h.evidence repr raw vm },
   h.completeTerminalProjection .failed "failed" (h.task repr raw).toDict
     (h.observed repr vm).toDict]

def mismatch (status : OperationStatus) (raw vm : Dict) : Observation :=
  { nextStatus := if status ≠ .needsReconciliation then some .needsReconciliation else none,
    eventType := "recovery_state_mismatch", stage := "reconciliation",
    payload := h.evidence repr raw vm,
    detailsPatch := [("reconciliation_code", .str "VM_START_RECOVERY_STATE_MISMATCH")],
    expectedStatuses := some [status], actor := some systemRecoveryActor,
    recoveryStatus := "paused", errorCode := some "VM_START_RECOVERY_STATE_MISMATCH" }

/-- The commits of `handle` on an operation with a task reference in a status, from the task, the
VM and the evidence recorded before the crash. -/
def handle (status : OperationStatus) (recordedTask recordedVm : Dict) (raw vm : Dict) :
    Except Str (List Observation) := do
  let exitstatus := (h.task repr raw).exitstatus
  let observed := (h.observed repr vm).status
  if status = .succeeded then
    return [h.completeTerminalProjection .succeeded "succeeded" recordedTask recordedVm]
  else if status = .failed then
    return [h.completeTerminalProjection .failed "failed" recordedTask recordedVm]
  else if (h.task repr raw).status ≠ "stopped" then return [h.retry repr status raw]
  else if exitstatus = "OK" ∧ observed = "running" then
    let advance ← h.advanceToVerifying repr status raw vm
    return advance ++ h.succeeded repr raw vm
  else if exitstatus ≠ [] ∧ exitstatus ≠ "OK" ∧ observed = "stopped" then
    return h.failed repr status raw vm
  else return [h.mismatch repr status raw vm]

end RecoveryRun

/-! ### What both make of a task and a VM -/

theorem text_eq_strip (repr : Value → Str) (d : Dict) (key : Str) :
    Dict.text repr d key = strip (orEntry repr [] d key) := by
  rw [orEntry, if_neg (by simp), Dict.text]
  cases Dict.get d key with
  | none => rfl
  | some v => exact (apply_ite strip (v.truthy = true) (v.toText repr) []).symm

theorem text_getD (repr : Value → Str) {d e : Dict} {key : Str}
    (h : Dict.get e key = some (Dict.getD d key .null)) :
    Dict.text repr e key = Dict.text repr d key := by
  rw [Dict.text, h, Dict.getD, Dict.text]
  cases Dict.get d key with
  | none => rfl
  | some v => rfl

/-- A payload on which `wait_for_task` returns. -/
def IsStopped (repr : Value → Str) (raw : Dict) : Prop :=
  lower (orEntry repr [] raw "status") = "stopped"

instance (repr : Value → Str) (raw : Dict) : Decidable (IsStopped repr raw) :=
  inferInstanceAs (Decidable (_ = _))

/-- The exit status of a task is `UNKNOWN`, in any case and spacing. -/
def ExitUnknown (repr : Value → Str) (raw : Dict) : Prop :=
  upperAscii (Dict.text repr raw "exitstatus") = "UNKNOWN"

instance (repr : Value → Str) (raw : Dict) : Decidable (ExitUnknown repr raw) :=
  inferInstanceAs (Decidable (_ = _))

/-- A VM is observed stopped. -/
def VmStopped (repr : Value → Str) (vm : Dict) : Prop :=
  lower (Dict.text repr vm "status") = "stopped"

theorem lowerChar_of_isSpace {c : Char} (h : isSpace c = true) : lowerChar c = [c] := by
  have hupper : ¬ ('A' ≤ c ∧ c ≤ 'Z') := by
    rintro ⟨h1, h2⟩
    simp only [Char.le_def, UInt32.le_iff_toNat_le] at h1 h2
    have h1' : 65 ≤ c.toNat := h1
    have h2' : c.toNat ≤ 90 := h2
    simp only [isSpace, Bool.or_eq_true, Bool.and_eq_true, decide_eq_true_eq, beq_iff_eq] at h
    omega
  have hdotted : c.toNat ≠ 0x130 ∧ c.toNat ≠ 0x212a := by
    simp only [isSpace, Bool.or_eq_true, Bool.and_eq_true, decide_eq_true_eq, beq_iff_eq] at h
    omega
  rw [lowerChar, if_neg hupper, if_neg hdotted.1, if_neg hdotted.2]

theorem lower_strip_of_stopped {s : Str} (h : lower s = "stopped") :
    lower (strip s) = "stopped" := by
  have hspace : ∀ c ∈ s, isSpace c = false := by
    intro c hc
    by_contra hsp
    rw [Bool.not_eq_false] at hsp
    have hmem : c ∈ ("stopped" : Str) := by
      rw [← h, lower, List.mem_flatMap]
      exact ⟨c, hc, by rw [lowerChar_of_isSpace hsp]; simp⟩
    have hall : ∀ d ∈ ("stopped" : Str), isSpace d = false := forall_mem_of_all rfl
    rw [hall c hmem] at hsp
    cases hsp
  rw [TaskIdentity.strip_of_no_space hspace, h]

section Evidence

variable (repr : Value → Str)

/-- The classification that `compact_proxmox_task` makes of an exit status. -/
def exitClass (x : Str) : Str :=
  if x = "OK" then "OK" else if x ∈ (["", "UNKNOWN"] : List Str) then x else "ERROR"

theorem exitstatus_eq (raw : Dict) (node upid : Str) :
    (compactProxmoxTask repr raw node upid).exitstatus =
      exitClass (upperAscii (Dict.text repr raw "exitstatus")) := rfl

theorem exitClass_cases (x : Str) :
    exitClass x = "OK" ∨ exitClass x = [] ∨ exitClass x = "UNKNOWN" ∨ exitClass x = "ERROR" := by
  unfold exitClass
  by_cases hok : x = "OK"
  · exact .inl (if_pos hok)
  · rw [if_neg hok]
    by_cases hx : x ∈ (["", "UNKNOWN"] : List Str)
    · rw [if_pos hx]
      rcases List.mem_cons.mp hx with h | h
      · exact .inr (.inl h)
      · exact .inr (.inr (.inl (List.mem_singleton.mp h)))
    · rw [if_neg hx]
      exact .inr (.inr (.inr rfl))

theorem exitClass_eq_unknown (x : Str) : exitClass x = "UNKNOWN" ↔ x = "UNKNOWN" := by
  constructor
  · intro h
    unfold exitClass at h
    by_cases hok : x = "OK"
    · rw [if_pos hok] at h
      exact absurd h (by decide)
    · rw [if_neg hok] at h
      by_cases hx : x ∈ (["", "UNKNOWN"] : List Str)
      · rwa [if_pos hx] at h
      · rw [if_neg hx] at h
        exact absurd h (by decide)
  · rintro rfl
    decide

/-- The classification that both compactions make of a power or task status. -/
def statusClass (known : List Str) (x : Str) : Str :=
  if x ∈ known then x else if x = [] then [] else "unknown"

def taskStatuses : List Str := ["running", "stopped", "queued", "failed", "unknown"]

def vmStatuses : List Str := ["running", "stopped", "paused", "suspended", "unknown"]

theorem taskStatus_eq (raw : Dict) (node upid : Str) :
    (compactProxmoxTask repr raw node upid).status =
      statusClass taskStatuses (lower (Dict.text repr raw "status")) := rfl

theorem vmStatus_eq (vm : Dict) (node : Str) (vmid : ℤ) :
    (compactProxmoxVmStatus repr vm node vmid).status =
      statusClass vmStatuses (lower (Dict.text repr vm "status")) := rfl

theorem statusClass_cases (known : List Str) (x : Str) :
    statusClass known x ∈ known ∨ statusClass known x = [] ∨ statusClass known x = "unknown" := by
  unfold statusClass
  by_cases hx : x ∈ known
  · rw [if_pos hx]
    exact .inl hx
  · rw [if_neg hx]
    by_cases hnil : x = []
    · exact .inr (.inl (if_pos hnil))
    · exact .inr (.inr (if_neg hnil))

theorem statusClass_eq_stopped {known : List Str} (hknown : ("stopped" : Str) ∈ known) (x : Str) :
    statusClass known x = "stopped" ↔ x = "stopped" := by
  constructor
  · intro h
    unfold statusClass at h
    by_cases hx : x ∈ known
    · rwa [if_pos hx] at h
    · rw [if_neg hx] at h
      by_cases hnil : x = []
      · rw [if_pos hnil] at h
        exact absurd h (by decide)
      · rw [if_neg hnil] at h
        exact absurd h (by decide)
  · rintro rfl
    exact if_pos hknown

/-- The text of an entry that is a text. -/
theorem text_of_str {d : Dict} {key x : Str} (h : Dict.get d key = some (.str x)) :
    Dict.text repr d key = strip x := by
  rw [Dict.text, h]
  cases x with
  | nil => rfl
  | cons c x => rfl

/-- Evidence taken of evidence has the same exit status. -/
theorem exitstatus_compact (raw : Dict) (node upid node' upid' : Str) :
    (compactProxmoxTask repr (compactProxmoxTask repr raw node upid).toDict
      node' upid').exitstatus =
      (compactProxmoxTask repr raw node upid).exitstatus := by
  rw [exitstatus_eq repr (compactProxmoxTask repr raw node upid).toDict,
    text_of_str repr (x := (compactProxmoxTask repr raw node upid).exitstatus) rfl,
    exitstatus_eq repr raw]
  rcases exitClass_cases (upperAscii (Dict.text repr raw "exitstatus")) with h | h | h | h <;>
    rw [h] <;> decide

/-- Evidence taken of evidence has the same task status. -/
theorem taskStatus_compact (raw : Dict) (node upid node' upid' : Str) :
    (compactProxmoxTask repr (compactProxmoxTask repr raw node upid).toDict node' upid').status =
      (compactProxmoxTask repr raw node upid).status := by
  rw [taskStatus_eq repr (compactProxmoxTask repr raw node upid).toDict,
    text_of_str repr (x := (compactProxmoxTask repr raw node upid).status) rfl,
    taskStatus_eq repr raw]
  have hsame : ∀ x ∈ ([] : Str) :: taskStatuses,
      statusClass taskStatuses (lower (strip x)) = x := by
    decide
  apply hsame
  rcases statusClass_cases taskStatuses (lower (Dict.text repr raw "status")) with h | h | h
  · exact List.mem_cons_of_mem _ h
  · rw [h]
    exact List.mem_cons_self
  · rw [h]
    decide

/-- Evidence taken of evidence has the same power status. -/
theorem vmStatus_compact (vm : Dict) (node node' : Str) (vmid vmid' : ℤ) :
    (compactProxmoxVmStatus repr (compactProxmoxVmStatus repr vm node vmid).toDict node'
      vmid').status = (compactProxmoxVmStatus repr vm node vmid).status := by
  rw [vmStatus_eq repr (compactProxmoxVmStatus repr vm node vmid).toDict,
    text_of_str repr (x := (compactProxmoxVmStatus repr vm node vmid).status) rfl,
    vmStatus_eq repr vm]
  have hsame : ∀ x ∈ ([] : Str) :: vmStatuses, statusClass vmStatuses (lower (strip x)) = x := by
    decide
  apply hsame
  rcases statusClass_cases vmStatuses (lower (Dict.text repr vm "status")) with h | h | h
  · exact List.mem_cons_of_mem _ h
  · rw [h]
    exact List.mem_cons_self
  · rw [h]
    decide

end Evidence

/-! ### The two verdicts -/

section Verdicts

variable {repr : Value → Str} {raw vm : Dict}

/-- The exit status of a task, as both paths classify it. -/
def exitOf (repr : Value → Str) (raw : Dict) : Str :=
  exitClass (upperAscii (Dict.text repr raw "exitstatus"))

/-- The power status of a VM, as both paths classify it. -/
def powerOf (repr : Value → Str) (vm : Dict) : Str :=
  statusClass vmStatuses (lower (Dict.text repr vm "status"))

/-- The verdict of the foreground workflow. -/
theorem settle_verdict (s : StartRun) (hstopped : IsStopped repr raw) (status : OperationStatus) :
    (s.settle repr raw (some vm)).foldl Verdict.after ⟨status, false⟩ =
      if exitOf repr raw = "OK" ∧ powerOf repr vm = "running" then ⟨.succeeded, true⟩
      else if exitOf repr raw = "ERROR" ∧ powerOf repr vm = "stopped" then ⟨.failed, true⟩
      else ⟨.needsReconciliation, false⟩ := by
  have htask : (s.task repr raw).status = "stopped" := by
    rw [StartRun.task, taskStatus_compact, taskStatus_eq,
      statusClass_eq_stopped (by decide), text_eq_strip]
    exact lower_strip_of_stopped hstopped
  have hexit : (s.task repr raw).exitstatus = exitOf repr raw := by
    rw [StartRun.task, exitstatus_compact, exitstatus_eq, exitOf]
  have hpower : Dict.text repr (s.observedPayload repr (some vm)) "status" = powerOf repr vm := by
    rw [text_of_str repr (x := (compactProxmoxVmStatus repr
      (compactProxmoxVmStatus repr vm s.nodeId s.vmid).toDict s.nodeId s.vmid).status) rfl,
      vmStatus_compact, vmStatus_eq, powerOf]
    rcases statusClass_cases vmStatuses (lower (Dict.text repr vm "status")) with h | h | h
    · have hplain : ∀ x ∈ vmStatuses, strip x = x := by decide
      exact hplain _ h
    · rw [h]
      rfl
    · rw [h]
      decide
  unfold StartRun.settle
  dsimp only [-String.reduceToList]
  rw [hexit, htask, hpower]
  have hupper : upperAscii (exitOf repr raw) = exitOf repr raw := by
    rcases exitClass_cases (upperAscii (Dict.text repr raw "exitstatus")) with h | h | h | h <;>
      rw [exitOf, h] <;> decide
  rw [hupper]
  rcases exitClass_cases (upperAscii (Dict.text repr raw "exitstatus")) with h | h | h | h <;>
    rw [exitOf, h]
  · -- the task went well
    rw [if_neg (by decide), if_neg (by decide)]
    by_cases hrunning : powerOf repr vm = "running"
    · rw [if_neg (by rw [not_not]; exact hrunning), if_pos ⟨rfl, hrunning⟩]
      rfl
    · rw [if_pos hrunning, if_neg fun hc => hrunning hc.2, if_neg fun hc => absurd hc.1 (by decide)]
      rfl
  · rw [if_pos (.inl rfl), if_neg fun hc => absurd hc.1 (by decide),
      if_neg fun hc => absurd hc.1 (by decide)]
    rfl
  · rw [if_pos (.inr rfl), if_neg fun hc => absurd hc.1 (by decide),
      if_neg fun hc => absurd hc.1 (by decide)]
    rfl
  · -- the task failed
    rw [if_neg (by decide), if_pos (by decide)]
    have hbad : ¬ (("ERROR" : Str) = "OK" ∧ powerOf repr vm = "running") :=
      fun hc => absurd hc.1 (by decide)
    by_cases hdown : powerOf repr vm = "stopped"
    · rw [if_neg (by rw [not_or, not_not, not_not]; exact ⟨rfl, hdown⟩), if_neg hbad,
        if_pos ⟨rfl, hdown⟩]
      rfl
    · rw [if_pos (.inr hdown), if_neg hbad, if_neg fun hc => hdown hc.2]
      rfl

/-- The verdict of the recovery handler on an operation that is not settled. -/
theorem handle_verdict (h : RecoveryRun) (hstopped : IsStopped repr raw) {status : OperationStatus}
    (hstatus : status = .running ∨ status = .verifying) (recordedTask recordedVm : Dict) :
    ∃ os, h.handle repr status recordedTask recordedVm raw vm = .ok os ∧
      os.foldl Verdict.after ⟨status, false⟩ =
        if exitOf repr raw = "OK" ∧ powerOf repr vm = "running" then ⟨.succeeded, true⟩
        else if (exitOf repr raw = "ERROR" ∨ exitOf repr raw = "UNKNOWN") ∧
          powerOf repr vm = "stopped" then ⟨.failed, true⟩
        else ⟨.needsReconciliation, false⟩ := by
  have htask : (h.task repr raw).status = "stopped" := by
    rw [RecoveryRun.task, taskStatus_eq, text_getD repr rfl, statusClass_eq_stopped (by decide),
      text_eq_strip]
    exact lower_strip_of_stopped hstopped
  have hexit : (h.task repr raw).exitstatus = exitOf repr raw := by
    rw [RecoveryRun.task, exitstatus_eq, text_getD repr rfl, exitOf]
  have hpower : (h.observed repr vm).status = powerOf repr vm := by
    rw [RecoveryRun.observed, vmStatus_eq, text_getD repr rfl, powerOf]
  unfold RecoveryRun.handle
  dsimp only [-String.reduceToList]
  rw [hexit, htask, hpower]
  have hopen : status ≠ .succeeded ∧ status ≠ .failed := by
    rcases hstatus with rfl | rfl <;> decide
  rw [if_neg hopen.1, if_neg hopen.2, if_neg (by simp)]
  by_cases hok : exitOf repr raw = "OK" ∧ powerOf repr vm = "running"
  · rw [if_pos hok, if_pos hok]
    rcases hstatus with rfl | rfl
    · exact ⟨_, rfl, rfl⟩
    · exact ⟨_, rfl, rfl⟩
  · rw [if_neg hok, if_neg hok]
    have hclass := exitClass_cases (upperAscii (Dict.text repr raw "exitstatus"))
    by_cases hdown : exitOf repr raw ≠ [] ∧ exitOf repr raw ≠ "OK" ∧ powerOf repr vm = "stopped"
    · have hbad : exitOf repr raw = "ERROR" ∨ exitOf repr raw = "UNKNOWN" := by
        rcases hclass with h | h | h | h
        · exact absurd h hdown.2.1
        · exact absurd h hdown.1
        · exact .inr h
        · exact .inl h
      rw [if_pos hdown, if_pos ⟨hbad, hdown.2.2⟩]
      rcases hstatus with rfl | rfl
      · exact ⟨_, rfl, rfl⟩
      · exact ⟨_, rfl, rfl⟩
    · have hnot : ¬ ((exitOf repr raw = "ERROR" ∨ exitOf repr raw = "UNKNOWN") ∧
          powerOf repr vm = "stopped") := by
        rintro ⟨h | h, hp⟩
        · exact hdown ⟨by rw [h]; decide, by rw [h]; decide, hp⟩
        · exact hdown ⟨by rw [h]; decide, by rw [h]; decide, hp⟩
      rw [if_neg hdown, if_neg hnot]
      rcases hstatus with rfl | rfl
      · exact ⟨_, rfl, rfl⟩
      · exact ⟨_, rfl, rfl⟩

theorem exitOf_eq_unknown : exitOf repr raw = "UNKNOWN" ↔ ExitUnknown repr raw :=
  exitClass_eq_unknown _

theorem powerOf_eq_stopped : powerOf repr vm = "stopped" ↔ VmStopped repr vm :=
  statusClass_eq_stopped (by decide) _

/-- The two decisions differ on an unknown exit status of a stopped VM only. -/
theorem decisions_agree_iff {e p : Str} :
    ((if e = "OK" ∧ p = "running" then (⟨.succeeded, true⟩ : Verdict)
      else if (e = "ERROR" ∨ e = "UNKNOWN") ∧ p = "stopped" then ⟨.failed, true⟩
      else ⟨.needsReconciliation, false⟩) =
      if e = "OK" ∧ p = "running" then ⟨.succeeded, true⟩
      else if e = "ERROR" ∧ p = "stopped" then ⟨.failed, true⟩
      else ⟨.needsReconciliation, false⟩) ↔ ¬ (e = "UNKNOWN" ∧ p = "stopped") := by
  by_cases hok : e = "OK" ∧ p = "running"
  · rw [if_pos hok, if_pos hok]
    refine ⟨fun _ hc => ?_, fun _ => rfl⟩
    rw [hok.1] at hc
    exact absurd hc.1 (by decide)
  · rw [if_neg hok, if_neg hok]
    by_cases herror : e = "ERROR" ∧ p = "stopped"
    · rw [if_pos herror, if_pos ⟨.inl herror.1, herror.2⟩]
      refine ⟨fun _ hc => ?_, fun _ => rfl⟩
      rw [herror.1] at hc
      exact absurd hc.1 (by decide)
    · rw [if_neg herror]
      by_cases hunknown : e = "UNKNOWN" ∧ p = "stopped"
      · rw [if_pos ⟨.inr hunknown.1, hunknown.2⟩]
        exact ⟨fun h => absurd h (by decide), fun h => absurd hunknown h⟩
      · rw [if_neg]
        · exact ⟨fun _ => hunknown, fun _ => rfl⟩
        · rintro ⟨h | h, hp⟩
          · exact herror ⟨h, hp⟩
          · exact hunknown ⟨h, hp⟩

variable (repr raw vm) in
/-- The commits that settle an operation: one that asks for reconciliation, or two. -/
theorem settle_cases (s : StartRun) : (∃ o, s.settle repr raw (some vm) = [o]) ∨
    s.settle repr raw (some vm) = s.failed repr raw (some vm) ∨
      s.settle repr raw (some vm) = s.succeeded repr raw (some vm) := by
  unfold StartRun.settle
  dsimp only [-String.reduceToList]
  split
  · exact .inl ⟨_, rfl⟩
  · split
    · split
      · exact .inl ⟨_, rfl⟩
      · exact .inr (.inl rfl)
    · split
      · exact .inl ⟨_, rfl⟩
      · exact .inr (.inr rfl)

/-- Recovery of an operation that the foreground workflow has not settled. -/
theorem unsettled_agree_iff (s : StartRun) (h : RecoveryRun) (hstopped : IsStopped repr raw)
    {status : OperationStatus} (hstatus : status = .running ∨ status = .verifying)
    (recordedTask recordedVm : Dict) :
    ∃ os, h.handle repr status recordedTask recordedVm raw vm = .ok os ∧
      (os.foldl Verdict.after ⟨status, false⟩ =
          verdict .running (s.foreground repr raw (some vm)) ↔
        ¬ (ExitUnknown repr raw ∧ VmStopped repr vm)) := by
  obtain ⟨os, hos, hverdict⟩ := handle_verdict h hstopped hstatus recordedTask recordedVm
  refine ⟨os, hos, ?_⟩
  have hforeground : verdict .running (s.foreground repr raw (some vm)) =
      (s.settle repr raw (some vm)).foldl Verdict.after ⟨.verifying, false⟩ := rfl
  rw [hverdict, hforeground, settle_verdict s hstopped, decisions_agree_iff, exitOf_eq_unknown,
    powerOf_eq_stopped]

/-- The operations in which the commits of the two paths go through end in the same status. -/
theorem same_status_of_commits (s : StartRun) (h : RecoveryRun) (hstopped : IsStopped repr raw)
    (hknown : ¬ (ExitUnknown repr raw ∧ VmStopped repr vm)) {recordedTask recordedVm : Dict}
    {rt : Runtime} {draws draws' : ℕ → Draw} {i j : ℕ} {lease lease' : RecoveryLease}
    {os : List Observation} {db db₁ db' db₁' : OperationStore.Db}
    {operation operation' : OperationRecord}
    (hforeground : commitAll rt draws i lease (s.foreground repr raw (some vm)) db = .ok db₁)
    (hget : db.operations.get lease.operationId = some operation)
    (hrunning : operation.status = .running)
    (hhandle : h.handle repr operation'.status recordedTask recordedVm raw vm = .ok os)
    (hrecovery : commitAll rt draws' j lease' os db' = .ok db₁')
    (hget' : db'.operations.get lease'.operationId = some operation')
    (hunsettled : operation'.status = .running ∨ operation'.status = .verifying) :
    ∃ settled settled', db₁.operations.get lease.operationId = some settled ∧
      db₁'.operations.get lease'.operationId = some settled' ∧
      settled.status = settled'.status := by
  obtain ⟨os', hos, hiff⟩ := unsettled_agree_iff s h hstopped hunsettled recordedTask recordedVm
  rw [hhandle, Except.ok.injEq] at hos
  subst hos
  obtain ⟨⟨settled, hsettled, hstatus⟩, -⟩ := verdict_of_commitAll (v := ⟨.running, false⟩)
    hforeground hget hrunning
  obtain ⟨⟨settled', hsettled', hstatus'⟩, -⟩ := verdict_of_commitAll
    (v := ⟨operation'.status, false⟩) hrecovery hget' rfl
  refine ⟨settled, settled', hsettled, hsettled', ?_⟩
  rw [hstatus, hstatus', hiff.mpr hknown]
  rfl

variable (vm) in
/-- Where the foreground workflow releases the lock the exit status was known. -/
theorem known_of_released (s : StartRun) (hstopped : IsStopped repr raw)
    (h : (verdict .running (s.foreground repr raw (some vm))).released = true) :
    ¬ (ExitUnknown repr raw ∧ VmStopped repr vm) := by
  rintro ⟨hunknown, -⟩
  have hforeground : verdict .running (s.foreground repr raw (some vm)) =
      (s.settle repr raw (some vm)).foldl Verdict.after ⟨.verifying, false⟩ := rfl
  rw [hforeground, settle_verdict s hstopped, exitOf_eq_unknown.mpr hunknown,
    if_neg fun hc => absurd hc.1 (by decide), if_neg fun hc => absurd hc.1 (by decide)] at h
  cases h

variable (repr raw vm) in
/-- After a crash of the foreground workflow at any point before its last commit, recovery from
the same observations reaches the same verdict exactly when it is not the case that the task
stopped with an unknown exit status while the VM is stopped. -/
theorem verdicts_agree_iff (s : StartRun) (h : RecoveryRun) (hstopped : IsStopped repr raw)
    (recordedTask recordedVm : Dict) (k : ℕ)
    (hk : k < (s.foreground repr raw (some vm)).length) :
    ∃ os, h.handle repr (verdict .running ((s.foreground repr raw (some vm)).take k)).status
        recordedTask recordedVm raw vm = .ok os ∧
      (verdict .running ((s.foreground repr raw (some vm)).take k ++ os) =
          verdict .running (s.foreground repr raw (some vm)) ↔
        ¬ (ExitUnknown repr raw ∧ VmStopped repr vm)) := by
  rcases k with _ | _ | k
  · exact unsettled_agree_iff s h hstopped (.inl rfl) recordedTask recordedVm
  · exact unsettled_agree_iff s h hstopped (.inr rfl) recordedTask recordedVm
  · -- the terminal status is committed and only the projection is missing
    have hknown := known_of_released vm s hstopped
    rw [StartRun.foreground] at hk hknown ⊢
    rcases settle_cases repr raw vm s with ⟨o, ho⟩ | hcase | hcase
    · rw [ho, List.length_cons, List.length_singleton] at hk
      omega
    · rw [hcase] at hk hknown ⊢
      obtain rfl : k = 0 := by
        simp only [StartRun.failed, List.length_cons, List.length_nil] at hk
        omega
      exact ⟨_, rfl, fun _ => hknown rfl, fun _ => rfl⟩
    · rw [hcase] at hk hknown ⊢
      obtain rfl : k = 0 := by
        simp only [StartRun.succeeded, List.length_cons, List.length_nil] at hk
        omega
      exact ⟨_, rfl, fun _ => hknown rfl, fun _ => rfl⟩

end Verdicts

/-- A started VM and the handler that recovers it. -/
def sampleRun : StartRun := ⟨"pve", 100, "UPID:pve:0001:qmstart", .dict []⟩

def sampleRecovery : RecoveryRun :=
  ⟨"pve", 100, "UPID:pve:0001:qmstart", 1, 5, fun _ _ _ => none⟩

/-- The two paths agree on a VM that runs after a task that went well. -/
theorem verdicts_agree_on_running : ∃ os,
    sampleRecovery.handle (fun _ => []) .verifying [] []
      [("status", .str "stopped"), ("exitstatus", .str "OK")] [("status", .str "running")] =
        .ok os ∧
      verdict .verifying os = verdict .running (sampleRun.foreground (fun _ => [])
        [("status", .str "stopped"), ("exitstatus", .str "OK")]
        (some [("status", .str "running")])) := by
  obtain ⟨os, hos, hiff⟩ := verdicts_agree_iff (fun _ => [])
    [("status", .str "stopped"), ("exitstatus", .str "OK")] [("status", .str "running")] sampleRun
    sampleRecovery (by decide) [] [] 1 (by decide)
  exact ⟨os, hos, hiff.mpr fun h => absurd h.1 (by decide)⟩

/-- A task that stopped with the exit status `unknown` on a stopped VM: the foreground workflow
asks for reconciliation and keeps the lock, recovery closes the operation and releases it. -/
theorem verdicts_differ_on_unknown :
    let raw : Dict := [("status", .str "stopped"), ("exitstatus", .str "unknown")]
    let vm : Dict := [("status", .str "stopped")]
    IsStopped (fun _ => []) raw ∧
      verdict .running (sampleRun.foreground (fun _ => []) raw (some vm)) =
        ⟨.needsReconciliation, false⟩ ∧
      ∃ os, sampleRecovery.handle (fun _ => []) .verifying [] [] raw vm = .ok os ∧
        verdict .verifying os = ⟨.failed, true⟩ :=
  ⟨by decide, by decide, _, rfl, by decide⟩

end Gjallar.VmStart

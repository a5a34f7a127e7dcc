import Gjallar.CreateIntents
import Gjallar.GuidedQm
import Gjallar.SanitizedLedgers
import Mathlib.Data.List.TakeWhile

/-!
# Preparing a Create VM operation

`prepare` records a plan under its job id, or finds the operation that is already recorded there,
and the request that was recorded for the job is compared as well. Both refuse a plan with another
intent as long as redaction keeps the difference.
-/
namespace Gjallar.CreateIntents

open Gjallar.Text Gjallar.Data Gjallar.Tables Gjallar.Operation Gjallar.Redaction
  Gjallar.RedactionTraces Gjallar.OperationStore Gjallar.CanonicalJson Gjallar.SanitizedLedgers

/-! ### Plans -/

structure VmCreatePlan where
  draftId : Str
  jobId : Str
  manifestId : Str
  executionIntent : Str := "dry_run_plan_only"
  profileId : Str
  vmName : Str
  vmid : ℤ
  targetNodeId : Str
  storageId : Str
  templateId : Str
  hardware : Dict := []
  profileHardwareLimits : Dict := []
  network : Dict := []
  access : Dict := []
  selectedTemplate : Dict := []
  selectedBridge : Dict := []
  firstPowerOnIncluded : Bool
  powerPolicy : Str
  smokeTimeoutSummary : Dict := []
  riskSummary : Dict
  reviewConfirm : Dict
  artifacts : List Dict := []
  sideEffects : List Value := []

/-- `VmCreatePlan.to_dict`. -/
def VmCreatePlan.toDict (plan : VmCreatePlan) : Dict :=
  [("draft_id", .str plan.draftId), ("job_id", .str plan.jobId),
    ("manifest_id", .str plan.manifestId), ("execution_intent", .str plan.executionIntent),
    ("profile_id", .str plan.profileId), ("vm_name", .str plan.vmName), ("vmid", .int plan.vmid),
    ("target_node_id", .str plan.targetNodeId), ("storage_id", .str plan.storageId),
    ("template_id", .str plan.templateId), ("hardware", .dict plan.hardware),
    ("profile_hardware_limits", .dict plan.profileHardwareLimits),
    ("network", .dict plan.network), ("access", .dict plan.access),
    ("selected_template", .dict plan.selectedTemplate),
    ("selected_bridge", .dict plan.selectedBridge),
    ("first_power_on_included", .bool plan.firstPowerOnIncluded),
    ("power_policy", .str plan.powerPolicy),
    ("smoke_timeout_summary", .dict plan.smokeTimeoutSummary),
    ("risk_summary", .dict plan.riskSummary), ("review_confirm", .dict plan.reviewConfirm),
    ("artifacts", .list (plan.artifacts.map .dict)), ("side_effects", .list plan.sideEffects)]

structure VmCreateOperationPlan where
  operationId : Str
  draftId : Str
  targetNodeId : Str
  vmid : ℤ
  vmName : Str
  profileId : Str
  planArtifactId : Str
  planDigest : Str
  riskLevel : Str
  intent : Dict
  actor : OperationActor

/-- The fields `VmCreateOperationPlan` requires. -/
def VmCreateOperationPlan.required (plan : VmCreateOperationPlan) : List (Str × Str) :=
  [("operation_id", plan.operationId), ("draft_id", plan.draftId),
    ("target_node_id", plan.targetNodeId), ("vm_name", plan.vmName),
    ("plan_artifact_id", plan.planArtifactId), ("plan_digest", plan.planDigest)]

/-- `VmCreateOperationPlan.__post_init__`. -/
def VmCreateOperationPlan.check (plan : VmCreateOperationPlan) : Except StoreError Unit := do
  let missing := (plan.required.filter fun f => (strip f.2).isEmpty).map Prod.fst
  raiseIf (missing ≠ [])
    (.valueError (("Create VM operation fields are required: " : Str) ++ join ", " missing))
  raiseIf (plan.vmid < 1) (.valueError "Create VM operation vmid must be positive")

/-- `vm_create_target_id`. -/
def vmCreateTargetId (vmid : ℤ) : Str := ("vmid:" : Str) ++ ofInt vmid

/-- `str(d.get(key) or default)`. -/
def textOr (rt : Runtime) (d : Dict) (key default : Str) : Str :=
  match Dict.get d key with
  | some v => if v.truthy then v.toText rt.repr else default
  | none => default

/-- `_operation_plan`. -/
def operationPlan (rt : Runtime) (plan : VmCreatePlan) (actor : OperationActor) :
    Except StoreError VmCreateOperationPlan := do
  let operation : VmCreateOperationPlan :=
    { operationId := plan.jobId, draftId := plan.draftId, targetNodeId := plan.targetNodeId,
      vmid := plan.vmid, vmName := plan.vmName, profileId := plan.profileId,
      planArtifactId := textOr rt plan.reviewConfirm "plan_artifact_id" [],
      planDigest := textOr rt plan.reviewConfirm "review_summary_checksum" [],
      riskLevel := textOr rt plan.riskSummary "level" "unknown",
      intent := vmCreatePlanIntent plan.toDict, actor := actor }
  operation.check
  return operation

/-! ### Preparing -/

/-- The initial status of an operation. -/
def initialStatus (plan : VmCreateOperationPlan) : OperationStatus :=
  if plan.riskLevel = "red" then .blocked else .awaitingApproval

/-- `dict(plan.intent.get("review_confirm") or {}).get(key)`. -/
def reviewField (plan : VmCreateOperationPlan) (key : Str) : Value :=
  ((review plan.intent).bind fun r => Dict.get r key).getD .null

/-- The specification of the operation of a plan. -/
def operationSpec (rt : Runtime) (plan : VmCreateOperationPlan) : OperationSpec :=
  { operationId := plan.operationId, operationType := .vmCreate, executionMode := .managedApi,
    targetType := "proxmox_vm", targetId := vmCreateTargetId plan.vmid,
    idempotencyKey := plan.operationId,
    intentDigest := rt.operationDigest (.dict plan.intent), planDigest := plan.planDigest,
    actor := plan.actor, initialStatus := initialStatus plan,
    initialStage := if initialStatus plan = .blocked then "preflight" else "approval",
    details :=
      [("draft_id", .str plan.draftId), ("job_id", .str plan.operationId),
        ("target", .dict [("node_id", .str plan.targetNodeId), ("vmid", .int plan.vmid),
          ("name", .str plan.vmName)]),
        ("workload", .dict [("profile_id", .str plan.profileId),
          ("node_id", .str plan.targetNodeId), ("vmid", .int plan.vmid),
          ("name", .str plan.vmName)]),
        ("plan_artifact_id", .str plan.planArtifactId), ("risk_level", .str plan.riskLevel),
        ("template_source", .dict [("node_id", reviewField plan "template_node_id"),
          ("vmid", reviewField plan "template_vmid")]),
        ("power_policy", (Dict.get plan.intent "power_policy").getD .null),
        ("recovery_contract", .str GuidedQm.recoveryContract),
        ("compatibility", .dict [("job_id", .str plan.operationId),
          ("vm_create_request_id", .str plan.operationId)])] }

/-- The payload of the first event. -/
def preparedPayload (plan : VmCreateOperationPlan) : Dict :=
  [("draft_id", .str plan.draftId), ("job_id", .str plan.operationId),
    ("target", .dict [("node_id", .str plan.targetNodeId), ("vmid", .int plan.vmid)]),
    ("plan_artifact_id", .str plan.planArtifactId), ("plan_digest", .str plan.planDigest),
    ("risk_level", .str plan.riskLevel),
    ("preflight_status",
      .str (if initialStatus plan = .blocked then "blocked" else "completed")),
    ("recovery_contract", .str GuidedQm.recoveryContract)]

/-- Is the existing operation the one of the specification? -/
def sameIdentity (existing : OperationSnapshot) (spec : OperationSpec) : Bool :=
  existing.operationType = .vmCreate && existing.targetType = "proxmox_vm" &&
    existing.targetId = spec.targetId && existing.idempotencyKey = spec.idempotencyKey &&
    existing.intentDigest = spec.intentDigest && existing.planDigest = spec.planDigest

/-- Find the operation of a plan, or create it. -/
def findOrCreate (rt : Runtime) (draw : Draw) (plan : VmCreateOperationPlan) (db : Db) :
    Except StoreError ((OperationSnapshot × Bool) × Db) :=
  match get plan.operationId db with
  | some existing =>
      if sameIdentity existing (operationSpec rt plan) then .ok ((existing, false), db)
      else .error (.operationIntentConflict existing.operationId)
  | none => create rt draw (operationSpec rt plan) db (preparedPayload plan)

/-- `VmCreateOperationTracker.prepare`. -/
def prepare (rt : Runtime) (draw : Draw) (plan : VmCreateOperationPlan) (db : Db) :
    Except StoreError ((OperationSnapshot × Bool) × Db) := do
  (operationSpec rt plan).check
  findOrCreate rt draw plan db

/-- `prepare_vm_create_operation`. -/
def prepareVmCreateOperation (rt : Runtime) (draw : Draw) (plan : VmCreatePlan)
    (actor : OperationActor) (db : Db) : Except StoreError ((OperationSnapshot × Bool) × Db) := do
  let operation ← operationPlan rt plan actor
  prepare rt draw operation db

/-! ### The recorded request -/

structure VmCreateRequestRecord where
  requestId : Str
  status : Str
  requestPayload : Dict
  result : Dict

/-- What `record_vm_create_request` keeps of a plan. -/
def recordVmCreateRequest (plan : VmCreatePlan) (status : Str) (result : Dict) :
    VmCreateRequestRecord :=
  ⟨plan.jobId, status, sanitized plan.toDict, sanitized result⟩

/-- `plan_intent` of `get_vm_create_request_record`. -/
def VmCreateRequestRecord.planIntent (row : VmCreateRequestRecord) : Dict :=
  vmCreatePlanIntent (sanitized row.requestPayload)

structure VmCreateApplicationError where
  code : Str
  message : Str
deriving DecidableEq

def intentConflict : VmCreateApplicationError :=
  ⟨"PROXMOX_CREATE_IDEMPOTENCY_CONFLICT",
    "same Create VM job_id already exists with a different creation intent"⟩

/-- The statuses in which an operation waits for local recovery. -/
def recoveringStatuses : List OperationStatus :=
  [.dispatching, .running, .verifying, .needsReconciliation]

/-- The part of `_existing_vm_create_result_if_blocked` about the request of the same job: an error,
the result that is replayed, or nothing. -/
def existingVmCreateResult (existing : VmCreateRequestRecord)
    (operation : Option OperationSnapshot) (plan : VmCreatePlan) :
    Except VmCreateApplicationError (Option Dict) := do
  raiseIf ((Value.dict existing.planIntent).eqv (.dict (vmCreatePlanIntent plan.toDict)) = false)
    intentConflict
  let status := strip existing.status
  let result := sanitized existing.result
  let current := operation.map OperationRecord.status
  raiseIf (current = some .needsReconciliation)
    ⟨"PROXMOX_CREATE_RECONCILIATION_REQUIRED",
      "existing Create VM execution requires reconciliation before retry"⟩
  raiseIf (∃ s ∈ recoveringStatuses, current = some s)
    ⟨"PROXMOX_CREATE_TARGET_IN_PROGRESS",
      "existing Create VM execution is awaiting local recovery completion"⟩
  if status = "completed" ∧ Dict.get result "success" = some (.bool true) ∧
      (Dict.getD result "observed_after_artifact" .null).truthy = true then
    return some result
  raiseIf (status = "running")
    ⟨"PROXMOX_CREATE_TARGET_IN_PROGRESS", "existing Create VM request is still running"⟩
  raiseIf (status = "needs_reconciliation" ∨ status = "apply_failed")
    ⟨"PROXMOX_CREATE_RECONCILIATION_REQUIRED",
      "existing Create VM result requires reconciliation before retry"⟩
  raiseIf (status ≠ [])
    ⟨"PROXMOX_CREATE_IDEMPOTENCY_CONFLICT",
      ("same Create VM job_id already exists with status " : Str) ++ status⟩
  return none

/-- The recorded request keeps the intent of its plan. -/
theorem planIntent_record (plan : VmCreatePlan) (status : Str) (result : Dict) :
    (recordVmCreateRequest plan status result).planIntent = vmCreatePlanIntent plan.toDict := by
  rw [VmCreateRequestRecord.planIntent, recordVmCreateRequest, sanitized_sanitized,
    vmCreatePlanIntent, vmCreatePlanIntent, sanitized_sanitized]

/-! ### Operations recorded for a plan -/

/-- The row was prepared for the plan, and events may have moved it on since. -/
inductive Recorded (rt : Runtime) (plan : VmCreatePlan) : OperationRecord → Prop
  | prepared {draw : Draw} {actor : OperationActor} {db db' : Db} {row : OperationRecord}
      {created : Bool}
      (h : prepareVmCreateOperation rt draw plan actor db = .ok ((row, created), db')) :
      Recorded rt plan row
  | appended {row : OperationRecord} (draw : Draw) (a : Append) (h : Recorded rt plan row) :
      Recorded rt plan (applyProjection rt draw row a)

theorem strip_cons_ne_nil {c : Char} {s : Str} (h : isSpace c = false) :
    (strip (c :: s)).isEmpty = false := by
  have hdrop : (c :: s).dropWhile isSpace = c :: s := List.dropWhile_cons_of_neg (by simp [h])
  rw [strip, hdrop, List.isEmpty_reverse, List.isEmpty_eq_false_iff]
  intro hnil
  have hspace := List.dropWhile_eq_nil_iff.mp hnil c (by simp)
  rw [h] at hspace
  cases hspace

/-- A checked plan has a checked specification. -/
theorem operationSpec_check {rt : Runtime} {plan : VmCreateOperationPlan} {u : Unit}
    (h : plan.check = .ok u) : (operationSpec rt plan).check = .ok () := by
  simp only [VmCreateOperationPlan.check, bind_eq_ok, raiseIf_eq_ok, not_not] at h
  obtain ⟨-, hmissing, -⟩ := h
  rw [List.map_eq_nil_iff, List.filter_eq_nil_iff] at hmissing
  simp only [VmCreateOperationPlan.required, List.forall_mem_cons] at hmissing
  obtain ⟨hid, -, -, -, -, hdigest, -⟩ := hmissing
  rw [OperationSpec.check, raiseIf_eq_ok, not_not, List.map_eq_nil_iff, List.filter_eq_nil_iff]
  simp only [OperationSpec.required, List.forall_mem_cons]
  refine ⟨hid, ?_, ?_, ?_, hid, ?_, hdigest, fun f hf => ?_⟩
  · exact ne_true_of_eq_false (strip_cons_ne_nil (c := 'v') rfl)
  · exact ne_true_of_eq_false (strip_cons_ne_nil (c := 'p') rfl)
  · exact ne_true_of_eq_false (strip_cons_ne_nil (c := 'v') rfl)
  · exact ne_true_of_eq_false (strip_cons_ne_nil (c := 's') rfl)
  · exact absurd hf List.not_mem_nil

theorem operationPlan_eq_ok {rt : Runtime} {plan : VmCreatePlan} {actor : OperationActor}
    {operation : VmCreateOperationPlan} (h : operationPlan rt plan actor = .ok operation) :
    operation.check = .ok () ∧ operation.operationId = plan.jobId ∧
      operation.intent = vmCreatePlanIntent plan.toDict := by
  simp only [operationPlan, bind_eq_ok, pure_eq_ok] at h
  obtain ⟨_, hcheck, rfl⟩ := h
  exact ⟨hcheck, rfl, rfl⟩

theorem intentDigest_of_resolveExisting {existing row : OperationRecord} {spec : OperationSpec}
    {created : Bool} (h : resolveExisting existing spec = .ok (row, created)) :
    row.intentDigest = spec.intentDigest := by
  unfold resolveExisting at h
  split_ifs at h with hsame
  cases h
  exact hsame.2.2.2.2.2.1

theorem intentDigest_of_create {rt : Runtime} {draw : Draw} {spec : OperationSpec} {db db' : Db}
    {payload : Dict} {row : OperationRecord} {created : Bool}
    (h : create rt draw spec db payload = .ok ((row, created), db')) :
    row.intentDigest = spec.intentDigest := by
  unfold create at h
  split at h
  · obtain ⟨_, hexisting, heq⟩ := bind_eq_ok.mp h
    cases pure_eq_ok.mp heq
    exact intentDigest_of_resolveExisting hexisting
  · dsimp only at h
    split at h
    · cases h
      rfl
    · split at h
      · obtain ⟨_, hexisting, heq⟩ := bind_eq_ok.mp h
        cases pure_eq_ok.mp heq
        exact intentDigest_of_resolveExisting hexisting
      · cases h

/-- A recorded operation carries the digest of its plan's intent. -/
theorem Recorded.intentDigest_eq {rt : Runtime} {plan : VmCreatePlan} {row : OperationRecord}
    (h : Recorded rt plan row) :
    row.intentDigest = rt.operationDigest (.dict (vmCreatePlanIntent plan.toDict)) := by
  induction h with
  | @prepared draw actor db db' row created h =>
      obtain ⟨operation, hplan, hprepare⟩ := bind_eq_ok.mp h
      obtain ⟨_, -, hfound⟩ := bind_eq_ok.mp hprepare
      rw [← (operationPlan_eq_ok hplan).2.2]
      unfold findOrCreate at hfound
      split at hfound
      · split_ifs at hfound with hsame
        cases hfound
        simp only [sameIdentity, Bool.and_eq_true, decide_eq_true_eq] at hsame
        exact hsame.1.2
      · exact intentDigest_of_create hfound
  | appended draw a h ih => exact ih

/-! ### Plans with different intents -/

/-- Preparing the second plan refuses an operation that was recorded for the first one. -/
def Refused (rt : Runtime) (plan plan' : VmCreatePlan) : Prop :=
  ∀ (draw : Draw) (actor : OperationActor) (db : Db) (existing : OperationSnapshot),
    get plan'.jobId db = some existing → Recorded rt plan existing →
    ∃ e, prepareVmCreateOperation rt draw plan' actor db = .error e ∧
      ∀ operation, operationPlan rt plan' actor = .ok operation →
        e = .operationIntentConflict existing.operationId

/-- The request that was recorded for the first plan is not replayed for the second one. -/
def Blocked (plan plan' : VmCreatePlan) : Prop :=
  ∀ (status : Str) (result : Dict) (operation : Option OperationSnapshot),
    existingVmCreateResult (recordVmCreateRequest plan status result) operation plan' =
      .error intentConflict

/-- The payloads have different intents, and no plan of the second one is prepared on an operation
recorded for a plan of the first one, nor answered with its request. -/
structure Distinguished (rt : Runtime) (p q : Dict) : Prop where
  intents : ¬ SameIntent p q
  refused : ∀ plan plan' : VmCreatePlan, plan.toDict = p → plan'.toDict = q →
    plan.jobId = plan'.jobId → Refused rt plan plan'
  blocked : ∀ plan plan' : VmCreatePlan, plan.toDict = p → plan'.toDict = q →
    plan.jobId = plan'.jobId → Blocked plan plan'

theorem refused_of_intents {rt : Runtime} (hfree : CollisionFree rt) {plan plan' : VmCreatePlan}
    (h : ¬ SameJson (.dict (vmCreatePlanIntent plan.toDict))
      (.dict (vmCreatePlanIntent plan'.toDict))) : Refused rt plan plan' := by
  intro draw actor db existing hget hrecorded
  cases hplan : operationPlan rt plan' actor with
  | error e =>
      refine ⟨e, ?_, fun operation hok => by cases hok⟩
      rw [prepareVmCreateOperation, hplan]
      rfl
  | ok operation =>
      obtain ⟨hcheck, hid, hintent⟩ := operationPlan_eq_ok hplan
      have hdigest : existing.intentDigest ≠ (operationSpec rt operation).intentDigest := by
        intro heq
        rw [hrecorded.intentDigest_eq] at heq
        apply h
        rw [← hintent]
        exact sameJson_of_operationDigest hfree heq
      have hsame : sameIdentity existing (operationSpec rt operation) = false := by
        rw [Bool.eq_false_iff]
        intro hidentity
        simp only [sameIdentity, Bool.and_eq_true, decide_eq_true_eq] at hidentity
        exact hdigest hidentity.1.2
      refine ⟨.operationIntentConflict existing.operationId, ?_, fun _ _ => rfl⟩
      rw [prepareVmCreateOperation, hplan]
      change prepare rt draw operation db = _
      rw [prepare, operationSpec_check hcheck]
      change findOrCreate rt draw operation db = _
      rw [findOrCreate, hid, hget]
      simp [hsame]

theorem blocked_of_intents {plan plan' : VmCreatePlan}
    (h : ¬ SameIntent plan.toDict plan'.toDict) : Blocked plan plan' := by
  intro status result operation
  have hdiffer : (Value.dict (recordVmCreateRequest plan status result).planIntent).eqv
      (.dict (vmCreatePlanIntent plan'.toDict)) = false := by
    rw [planIntent_record, Bool.eq_false_iff]
    exact h
  rw [existingVmCreateResult, raiseIf, if_pos hdiffer]
  rfl

/-- Two payloads of one job whose intent fields differ are told apart exactly when redaction does
not conflate the fields. -/
theorem create_intents_distinct_iff (rt : Runtime) (hfree : CollisionFree rt) {p q : Dict}
    (hp : (Value.dict p).IsJson) (hq : (Value.dict q).IsJson) :
    (Dict.get p "job_id" = Dict.get q "job_id" → IntentDiffers p q → Distinguished rt p q) ↔
      (Dict.get p "job_id" = Dict.get q "job_id" → IntentDiffers p q → ¬ Conflated p q) := by
  constructor
  · intro h hjob hdiffers hconflated
    exact (h hjob hdiffers).intents ((sameIntent_iff hp hq).mpr hconflated)
  · intro h hjob hdiffers
    have hintents : ¬ SameIntent p q := fun hsame =>
      h hjob hdiffers ((sameIntent_iff hp hq).mp hsame)
    have hdigests : ¬ SameJson (.dict (vmCreatePlanIntent p)) (.dict (vmCreatePlanIntent q)) :=
      fun hsame => hintents (eqv_of_sameJson (isJson_vmCreatePlanIntent hp)
        (isJson_vmCreatePlanIntent hq) hsame)
    refine ⟨hintents, fun plan plan' hplan hplan' _ => refused_of_intents hfree ?_,
      fun plan plan' hplan hplan' _ => blocked_of_intents ?_⟩
    · rw [hplan, hplan']
      exact hdigests
    · rw [hplan, hplan']
      exact hintents

/-- A plan that gives a name to the new machine. -/
def namedPlan (vmName : Str) : VmCreatePlan :=
  { draftId := "draft-1", jobId := "job-1", manifestId := "job-1-101", profileId := "general",
    vmName := vmName, vmid := 101, targetNodeId := "pve1", storageId := "local-lvm",
    templateId := "ubuntu", firstPowerOnIncluded := false, powerPolicy := "stopped",
    riskSummary := [("level", .str "green")],
    reviewConfirm :=
      [("vm_name", .str vmName), ("vmid", .int 101), ("plan_artifact_id", .str "artifact_plan_1"),
        ("review_summary_checksum", .str "sha256:0")] }

theorem jobId_namedPlan (vmName : Str) : (namedPlan vmName).jobId = "job-1" := rfl

theorem get_job_id (vmName : Str) :
    Dict.get (namedPlan vmName).toDict "job_id" = some (.str "job-1") := rfl

theorem isJson_cons {kv : Str × Value} {d : Dict} (h : kv.2.IsJson)
    (hd : ∀ x ∈ d, x.2.IsJson) : ∀ x ∈ kv :: d, x.2.IsJson :=
  List.forall_mem_cons.mpr ⟨h, hd⟩

theorem isJson_namedPlan (vmName : Str) : (Value.dict (namedPlan vmName).toDict).IsJson := by
  have hkeys : Dict.keys (namedPlan vmName).toDict = Dict.keys (namedPlan []).toDict := rfl
  have hkeys' : Dict.keys (namedPlan vmName).reviewConfirm =
      Dict.keys (namedPlan []).reviewConfirm := rfl
  have hnil : ∀ x ∈ ([] : Dict), x.2.IsJson := fun _ h => absurd h List.not_mem_nil
  have hdict : (Value.dict []).IsJson := .dict List.nodup_nil hnil
  have hlist : (Value.list []).IsJson := .list fun _ h => absurd h List.not_mem_nil
  have hrisk : (Value.dict (namedPlan vmName).riskSummary).IsJson :=
    .dict (List.nodup_singleton _) (isJson_cons (.str _) hnil)
  have hreview : (Value.dict (namedPlan vmName).reviewConfirm).IsJson :=
    .dict (by rw [hkeys']; decide) <|
      isJson_cons (.str _) <| isJson_cons (.int _) <| isJson_cons (.str _) <|
      isJson_cons (.str _) hnil
  exact .dict (by rw [hkeys]; decide) <|
    isJson_cons (.str _) <| isJson_cons (.str _) <| isJson_cons (.str _) <|
    isJson_cons (.str _) <| isJson_cons (.str _) <| isJson_cons (.str _) <|
    isJson_cons (.int _) <| isJson_cons (.str _) <| isJson_cons (.str _) <|
    isJson_cons (.str _) <| isJson_cons hdict <| isJson_cons hdict <| isJson_cons hdict <|
    isJson_cons hdict <| isJson_cons hdict <| isJson_cons hdict <| isJson_cons (.bool _) <|
    isJson_cons (.str _) <| isJson_cons hdict <| isJson_cons hrisk <| isJson_cons hreview <|
    isJson_cons hlist <| isJson_cons hlist hnil

theorem differs_of_names {a b : Str} (h : a ≠ b) :
    IntentDiffers (namedPlan a).toDict (namedPlan b).toDict := by
  refine .inl ⟨"vm_name", by decide, fun hrel => ?_⟩
  have hname : SameEntry (some (.str a)) (some (.str b)) := hrel
  cases hname with
  | some heqv => exact h (by simpa using heqv)

theorem create_intents_distinct_of_plain_names : Distinguished printing
    (namedPlan "web-a").toDict (namedPlan "web-b").toDict := by
  refine (create_intents_distinct_iff printing collisionFree_printing (isJson_namedPlan _)
    (isJson_namedPlan _)).mpr (fun _ _ hconflated => ?_)
    ((get_job_id _).trans (get_job_id _).symm) (differs_of_names (by decide))
  have hrel : Option.Rel Alike (some (.str "web-a")) (some (.str "web-b")) :=
    hconflated.plan "vm_name" (by decide)
  cases hrel with
  | some h =>
      cases h with
      | number hv => cases hv
      | str h => exact absurd ((redactString_eq_iff _ _).mpr h) (by decide)

theorem sanitized_cons (k : Str) (v : Value) (d : Dict) : sanitized ((k, v) :: d) =
    (k, if isSecretKey k then .str redacted else redactSecrets v) :: sanitized d := rfl

theorem sanitized_append (d e : Dict) : sanitized (d ++ e) = sanitized d ++ sanitized e := by
  rw [sanitized_eq_map, List.map_append, ← sanitized_eq_map, ← sanitized_eq_map]

theorem sanitized_entry {v w : Value} (h : redactSecrets v = redactSecrets w) (k : Str)
    (d : Dict) : sanitized ((k, v) :: d) = sanitized ((k, w) :: d) := by
  rw [sanitized_cons, sanitized_cons, h]

/-- Two names with one redacted form are all that sets the plans apart. -/
theorem vmCreatePlanIntent_of_names {a b : Str} (h : Indistinct a b) :
    vmCreatePlanIntent (namedPlan a).toDict = vmCreatePlanIntent (namedPlan b).toDict := by
  have hname := (redactString_eq_iff a b).mpr h
  -- the name stands at two places of the plan
  obtain ⟨front, mid, rest, tail, hplaces⟩ : ∃ front mid rest tail : Dict, ∀ n : Str,
      (namedPlan n).toDict = front ++ (("vm_name" : Str), Value.str n) :: (mid ++
        (("review_confirm" : Str), Value.dict (("vm_name", .str n) :: rest)) :: tail) :=
    ⟨(namedPlan []).toDict.take 5, ((namedPlan []).toDict.drop 6).take 14,
      (namedPlan []).reviewConfirm.tail, (namedPlan []).toDict.drop 21, fun _ => rfl⟩
  have hvalue : redactSecrets (.str a) = redactSecrets (.str b) := congrArg Value.str hname
  have hreview : redactSecrets (.dict (("vm_name", .str a) :: rest)) =
      redactSecrets (.dict (("vm_name", .str b) :: rest)) :=
    congrArg Value.dict (sanitized_entry hvalue "vm_name" rest)
  have hsanitized : sanitized (namedPlan a).toDict = sanitized (namedPlan b).toDict := by
    rw [hplaces a, hplaces b, sanitized_append, sanitized_append]
    refine congrArg (sanitized front ++ ·) ?_
    rw [sanitized_entry hvalue, sanitized_cons, sanitized_cons, sanitized_append, sanitized_append,
      sanitized_entry hreview]
  rw [vmCreatePlanIntent, vmCreatePlanIntent, hsanitized]

/-- A creation in an empty database inserts the operation. -/
theorem create_empty (rt : Runtime) (draw : Draw) (spec : OperationSpec) (payload : Dict) :
    ∃ db, create rt draw spec {} payload = .ok ((newOperation rt draw spec payload, true), db) ∧
      get spec.operationId db = some (newOperation rt draw spec payload) := by
  obtain ⟨operations, hins⟩ : ∃ operations, ({} : Db).operations.insert
      (newOperation rt draw spec payload) = some operations := ⟨_, rfl⟩
  obtain ⟨events, hevents⟩ : ∃ events, ({} : Db).events.insert
      (createdEvent rt draw spec payload) = some events := ⟨_, rfl⟩
  have hfresh : getByScope {} spec = none := rfl
  refine ⟨{ ({} : Db) with operations := operations, events := events }, ?_, ?_⟩
  · rw [create, hfresh]
    simp only [hins, hevents]
  · exact (Table.get_insert hins _).trans (if_pos rfl)

/-- Preparing a checked plan finds or creates its operation. -/
theorem prepare_eq {rt : Runtime} {draw : Draw} {plan : VmCreatePlan} {actor : OperationActor}
    {operation : VmCreateOperationPlan} {db : Db}
    (hplan : operationPlan rt plan actor = .ok operation) :
    prepareVmCreateOperation rt draw plan actor db = findOrCreate rt draw operation db := by
  rw [prepareVmCreateOperation, hplan]
  change prepare rt draw operation db = _
  rw [prepare, operationSpec_check (operationPlan_eq_ok hplan).1]
  rfl

/-- The operation of a named plan. -/
def namedOperation (vmName : Str) : VmCreateOperationPlan :=
  { operationId := "job-1", draftId := "draft-1", targetNodeId := "pve1", vmid := 101,
    vmName := vmName, profileId := "general", planArtifactId := "artifact_plan_1",
    planDigest := "sha256:0", riskLevel := "green",
    intent := vmCreatePlanIntent (namedPlan vmName).toDict, actor := {} }

/-- The result of a completed creation. -/
def completedResult : Dict :=
  [("success", .bool true), ("observed_after_artifact", .str "artifact_after_1")]

/-- Two names with the word `token` in them: the second plan is prepared on the operation of the
first one, and answered with its result. -/
theorem token_names_conflated : ∃ db existing,
    (namedPlan "token-a").jobId = (namedPlan "token-b").jobId ∧
      IntentDiffers (namedPlan "token-a").toDict (namedPlan "token-b").toDict ∧
      vmCreatePlanIntent (namedPlan "token-a").toDict =
        vmCreatePlanIntent (namedPlan "token-b").toDict ∧
      prepareVmCreateOperation printing ⟨0, 0, fun n => printing.digest (.int n)⟩
        (namedPlan "token-a") {} {} = .ok ((existing, true), db) ∧
      prepareVmCreateOperation printing ⟨1, 1, fun n => printing.digest (.int n)⟩
        (namedPlan "token-b") {} db = .ok ((existing, false), db) ∧
      existingVmCreateResult (recordVmCreateRequest (namedPlan "token-a") "completed"
        completedResult) none (namedPlan "token-b") = .ok (some completedResult) := by
  have hsame : vmCreatePlanIntent (namedPlan "token-a").toDict =
      vmCreatePlanIntent (namedPlan "token-b").toDict :=
    vmCreatePlanIntent_of_names (.inl ⟨by decide, by decide⟩)
  have hfirst : operationPlan printing (namedPlan "token-a") {} = .ok (namedOperation "token-a") :=
    rfl
  have hsecond : operationPlan printing (namedPlan "token-b") {} =
      .ok (namedOperation "token-b") := rfl
  let draw : Draw := ⟨0, 0, fun n => printing.digest (.int n)⟩
  obtain ⟨db, hcreate, hget⟩ := create_empty printing draw
    (operationSpec printing (namedOperation "token-a")) (preparedPayload (namedOperation "token-a"))
  have hdigest : printing.operationDigest (.dict (namedOperation "token-a").intent) =
      printing.operationDigest (.dict (namedOperation "token-b").intent) :=
    congrArg (fun intent => printing.operationDigest (.dict intent)) hsame
  have hsameIdentity : sameIdentity (newOperation printing draw
      (operationSpec printing (namedOperation "token-a"))
      (preparedPayload (namedOperation "token-a")))
      (operationSpec printing (namedOperation "token-b")) = true := by
    simp only [sameIdentity, newOperation, operationSpec, hdigest, decide_true, Bool.and_true]
    rfl
  have hprepared : prepareVmCreateOperation printing draw (namedPlan "token-a") {} {} =
      .ok ((newOperation printing draw (operationSpec printing (namedOperation "token-a"))
        (preparedPayload (namedOperation "token-a")), true), db) := by
    rw [prepare_eq hfirst, ← hcreate]
    rfl
  refine ⟨db, _, (jobId_namedPlan _).trans (jobId_namedPlan _).symm,
    differs_of_names (by decide), hsame, hprepared, (prepare_eq hsecond).trans ?_, ?_⟩
  · have hexisting : get (namedOperation "token-b").operationId db = _ := hget
    rw [findOrCreate, hexisting]
    exact if_pos hsameIdentity
  · have heqv : (Value.dict (recordVmCreateRequest (namedPlan "token-a") "completed"
        completedResult).planIntent).eqv (.dict (vmCreatePlanIntent (namedPlan "token-b").toDict)) =
          true := by
      rw [planIntent_record, hsame]
      exact eqv_of_sameJson (isJson_vmCreatePlanIntent (isJson_namedPlan _))
        (isJson_vmCreatePlanIntent (isJson_namedPlan _)) rfl
    rw [existingVmCreateResult, heqv]
    rfl

end Gjallar.CreateIntents

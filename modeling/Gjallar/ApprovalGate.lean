import Gjallar.Operation

/-!
# The approval gate of a VM creation

An approval names the plan artifact and the review checksum the operator has seen. The gate
compares them with the stored artifacts and reads the risk summary of the plan as a list of risks
with levels.
-/
namespace Gjallar.ApprovalGate

open Gjallar.Text Gjallar.Data Gjallar.Operation

/-- The exceptions: a `TypeError` of a loop over something else than a collection, and the
`ValueError` of an approval record. -/
inductive GateFailure where
  | notIterable
  | checksumFormat
  deriving DecidableEq

/-! ### Records -/

/-- The `sha256:<hex>` format. -/
def isChecksum (checksum : Str) : Bool :=
  ("sha256:" : Str).isPrefixOf checksum && (removePrefix "sha256:" checksum).length == 64 &&
    (lower (removePrefix "sha256:" checksum)).all fun c => isLowerHex c

structure ArtifactRecord where
  artifactId : Str
  jobId : Str
  artifactType : Str
  checksum : Str
  format : isChecksum checksum = true

structure ApprovalRecord where
  jobId : Str
  planArtifactId : Str
  reviewSummaryChecksum : Str
  yellowRiskAcknowledged : Value
  decision : Str

/-- `ApprovalRecord.__post_init__`. -/
def ApprovalRecord.check (r : ApprovalRecord) : Except GateFailure Unit :=
  raiseIf (("sha256:" : Str).isPrefixOf r.reviewSummaryChecksum = false) GateFailure.checksumFormat

/-- What the gate reads of a stored plan. -/
structure VmCreatePlan where
  jobId : Str
  reviewConfirm : Dict
  artifacts : List ArtifactRecord
  riskSummary : Dict

/-- The arguments of an approval request. -/
structure ApprovalRequest where
  planArtifactId : Str
  reviewSummaryChecksum : Str
  yellowRiskAcknowledged : Value

structure ApprovalGateDecision where
  riskLevel : Str
  canApprove : Bool
  canExecute : Bool
  requiresYellowAck : Bool
  reason : Str
  approvalRecord : Option ApprovalRecord := none
  approvalArtifact : Option ArtifactRecord := none

/-! ### Risks -/

/-- `_risk_to_dict` of a value of a document. -/
def riskToDict : Value → Dict
  | .dict d => d
  | _ => [("level", .str "unknown"), ("code", .str "unknown")]

/-- `d.setdefault(key, value)`. -/
def setDefault (d : Dict) (key : Str) (value : Value) : Dict :=
  if Dict.has d key = true then d else d ++ [(key, value)]

/-- `str(d.get("level", "")).lower()`. -/
def levelText (rt : Runtime) (risk : Dict) : Str :=
  lower ((Dict.getD risk "level" (.str [])).toText rt.repr)

/-- `_risk_level`. -/
def riskLevel (rt : Runtime) (risks : List Dict) : Str :=
  if ("red" : Str) ∈ risks.map (levelText rt) then "red"
  else if ("yellow" : Str) ∈ risks.map (levelText rt) then "yellow"
  else "green"

/-- `evaluate_approval_gate`. -/
def evaluateApprovalGate (rt : Runtime) (risks : List Dict) (acknowledged : Value) :
    ApprovalGateDecision :=
  let level := riskLevel rt risks
  if level = ("red" : Str) then
    { riskLevel := "red", canApprove := false, canExecute := false, requiresYellowAck := false,
      reason := "red risk blocks approval and execution" }
  else if level = ("yellow" : Str) ∧ acknowledged ≠ .bool true then
    { riskLevel := "yellow", canApprove := false, canExecute := false, requiresYellowAck := true,
      reason := "yellow risk requires explicit acknowledgement before approval" }
  else if level = ("yellow" : Str) then
    { riskLevel := "yellow", canApprove := true, canExecute := true, requiresYellowAck := false,
      reason := "yellow risk acknowledged; approval gate is open" }
  else
    { riskLevel := "green", canApprove := true, canExecute := true, requiresYellowAck := false,
      reason := "green risk; approval gate is open" }

/-- The items a loop over a value runs through. -/
def iterate : Value → Except GateFailure (List Value)
  | .list xs | .tuple xs => .ok xs
  | .str s => .ok (s.map fun c => .str [c])
  | .dict d => .ok ((Dict.keys d).map .str)
  | _ => .error .notIterable

/-- The items of `risk_summary.get(key, []) or []`. -/
def listedRisks (summary : Dict) (key : Str) : Except GateFailure (List Value) :=
  let value := Dict.getD summary key (.list [])
  if value.truthy = true then iterate value else .ok []

/-- A listed risk, with the key of its list as the default level. -/
def readRisk (key : Str) (risk : Value) : Dict := setDefault (riskToDict risk) "level" (.str key)

/-- `_risks_from_summary`. -/
def risksFromSummary (summary : Dict) : Except GateFailure (List Dict) := do
  let red ← listedRisks summary "red"
  let yellow ← listedRisks summary "yellow"
  let risks := red.map (readRisk "red") ++ yellow.map (readRisk "yellow")
  let level := Dict.getD summary "level" .null
  if risks = [] ∧ level ≠ .null ∧ level ≠ .str "green" then
    return [[("level", level), ("code", .str "summary_level")]]
  else return risks

/-! ### The gate -/

/-- `artifacts_by_type.get(...)`: of several artifacts of a type the last one. -/
def VmCreatePlan.artifact (plan : VmCreatePlan) (artifactType : Str) : Option ArtifactRecord :=
  (plan.artifacts.filter fun a => a.artifactType = artifactType).getLast?

/-- The comparison of an approval with the stored artifacts; the text is the reason to refuse. -/
def artifactCheck (plan : VmCreatePlan) (request : ApprovalRequest) : Except Str Unit := do
  raiseIf (request.planArtifactId = []) ("plan_artifact_id is required" : Str)
  raiseIf (Dict.get plan.reviewConfirm "plan_artifact_id" ≠ some (.str request.planArtifactId) ∨
      (plan.artifact "plan").map ArtifactRecord.artifactId ≠ some request.planArtifactId)
    ("plan_artifact_id does not match the stored plan artifact" : Str)
  raiseIf (request.reviewSummaryChecksum = [] ∨
      Dict.get plan.reviewConfirm "review_summary_checksum" ≠
        some (.str request.reviewSummaryChecksum))
    ("review_summary_checksum does not match the plan review summary" : Str)
  raiseIf ((plan.artifact "review_summary").map ArtifactRecord.checksum ≠
      some request.reviewSummaryChecksum)
    ("review summary artifact checksum is missing or mismatched" : Str)

/-- A refusal before the risks are read. -/
def refusal (rt : Runtime) (plan : VmCreatePlan) (reason : Str) : ApprovalGateDecision :=
  { riskLevel := (Dict.getD plan.riskSummary "level" (.str "unknown")).toText rt.repr,
    canApprove := false, canExecute := false, requiresYellowAck := false, reason := reason }

/-- `validate_approval_request`; `write` stores the approval of a run with a directory. -/
def validateApprovalRequest (rt : Runtime) (plan : VmCreatePlan) (request : ApprovalRequest)
    (write : Option (ApprovalRecord → ApprovalGateDecision → ArtifactRecord)) :
    Except GateFailure ApprovalGateDecision :=
  match artifactCheck plan request with
  | .error reason => .ok (refusal rt plan reason)
  | .ok () => do
      let risks ← risksFromSummary plan.riskSummary
      let gate := evaluateApprovalGate rt risks request.yellowRiskAcknowledged
      let record : ApprovalRecord :=
        { jobId := plan.jobId, planArtifactId := request.planArtifactId,
          reviewSummaryChecksum := request.reviewSummaryChecksum,
          yellowRiskAcknowledged := request.yellowRiskAcknowledged,
          decision := if gate.canApprove = true then "approved" else "blocked" }
      record.check
      return { gate with
               approvalRecord := some record
               approvalArtifact := write.map fun store => store record gate }

/-! ### What an executable plan has to satisfy -/

/-- The approval names the stored plan artifact and the stored review checksum. -/
def Exact (plan : VmCreatePlan) (request : ApprovalRequest) : Prop :=
  (plan.artifact "plan").map ArtifactRecord.artifactId = some request.planArtifactId ∧
    (plan.artifact "review_summary").map ArtifactRecord.checksum =
      some request.reviewSummaryChecksum

/-- The item is listed in the summary under a key. -/
def Listed (summary : Dict) (key : Str) (item : Value) : Prop :=
  ∃ items, listedRisks summary key = .ok items ∧ item ∈ items

/-- The item states a level of its own. -/
def States (rt : Runtime) (item : Value) (level : Str) : Prop :=
  ∃ d v, item = .dict d ∧ Dict.get d "level" = some v ∧ lower (v.toText rt.repr) = level

/-- A red risk is one that is listed as red or states that it is red. -/
def ContainsRed (rt : Runtime) (summary : Dict) : Prop :=
  ∃ item, Listed summary "red" item ∨ (Listed summary "yellow" item ∧ States rt item "red")

def ContainsYellow (rt : Runtime) (summary : Dict) : Prop :=
  ∃ item, Listed summary "yellow" item ∨ (Listed summary "red" item ∧ States rt item "yellow")

/-- The summary declares an overall red level. -/
def DeclaresRed (rt : Runtime) (summary : Dict) : Prop :=
  ∃ v, Dict.get summary "level" = some v ∧ lower (v.toText rt.repr) = "red"

/-- The risks that an executable plan may have. -/
def Admissible (rt : Runtime) (plan : VmCreatePlan) (request : ApprovalRequest) : Prop :=
  ¬ ContainsRed rt plan.riskSummary ∧ ¬ DeclaresRed rt plan.riskSummary ∧
    (ContainsYellow rt plan.riskSummary → request.yellowRiskAcknowledged = .bool true)

/-! ### When the gate decides as it has to -/

/-- A listed risk is read with a level: the one it states, else the one of its list. -/
def ReadsAs (rt : Runtime) (summary : Dict) (level : Str) : Prop :=
  ∃ key ∈ (["red", "yellow"] : List Str), ∃ item, Listed summary key item ∧
    levelText rt (readRisk key item) = level

/-- A list of risks is no collection. -/
def Unreadable (summary : Dict) : Prop :=
  ∃ key ∈ (["red", "yellow"] : List Str), ∃ e, listedRisks summary key = .error e

/-- Nothing is listed as red, and nothing as yellow without an acknowledgement; an overall red
level stands alone. -/
def PlainlyListed (rt : Runtime) (plan : VmCreatePlan) (request : ApprovalRequest) : Prop :=
  (∀ item, ¬ Listed plan.riskSummary "red" item) ∧
    (request.yellowRiskAcknowledged = .bool true ∨
      ∀ item, ¬ Listed plan.riskSummary "yellow" item) ∧
    (DeclaresRed rt plan.riskSummary → ∀ item, ¬ Listed plan.riskSummary "yellow" item)

/-- The gate decides as it has to when the approval does not fit the stored artifacts, the lists
cannot be read, a listed risk blocks by the level it is read with, or the risks are plainly
listed. -/
def Guarded (rt : Runtime) (plan : VmCreatePlan) (request : ApprovalRequest) : Prop :=
  artifactCheck plan request ≠ .ok () ∨ Unreadable plan.riskSummary ∨
    ReadsAs rt plan.riskSummary "red" ∨
    (ReadsAs rt plan.riskSummary "yellow" ∧ request.yellowRiskAcknowledged ≠ .bool true) ∨
    PlainlyListed rt plan request

theorem levelText_stated (rt : Runtime) {d : Dict} {key : Str} {v : Value}
    (h : Dict.get d "level" = some v) :
    levelText rt (setDefault d "level" (.str key)) = lower (v.toText rt.repr) := by
  have hhas : Dict.has d "level" = true := by
    by_contra hhas
    rw [(Dict.get_eq_none_iff d "level").mpr (Bool.not_eq_true _ ▸ hhas)] at h
    cases h
  rw [setDefault, if_pos hhas, levelText, Dict.getD, h]
  rfl

theorem levelText_of_states {rt : Runtime} {item : Value} {level key : Str}
    (h : States rt item level) : levelText rt (readRisk key item) = level := by
  obtain ⟨d, v, rfl, hv, hlevel⟩ := h
  rw [readRisk, riskToDict, levelText_stated rt hv, hlevel]

/-! ### The level of the summary -/

/-- The gate opens when no risk is red, and none yellow without an acknowledgement. -/
theorem canExecute_iff (rt : Runtime) (risks : List Dict) (acknowledged : Value) :
    (evaluateApprovalGate rt risks acknowledged).canExecute = true ↔
      ("red" : Str) ∉ risks.map (levelText rt) ∧
        (("yellow" : Str) ∈ risks.map (levelText rt) → acknowledged = .bool true) := by
  unfold evaluateApprovalGate riskLevel
  by_cases hred : ("red" : Str) ∈ risks.map (levelText rt)
  · rw [if_pos hred]
    dsimp only
    rw [if_pos rfl]
    exact iff_of_false (by decide) fun h => h.1 hred
  · rw [if_neg hred]
    by_cases hyellow : ("yellow" : Str) ∈ risks.map (levelText rt)
    · rw [if_pos hyellow]
      dsimp only
      rw [if_neg (by decide)]
      by_cases hack : acknowledged = .bool true
      · rw [if_neg fun h => h.2 hack, if_pos rfl]
        exact iff_of_true rfl ⟨hred, fun _ => hack⟩
      · rw [if_pos ⟨rfl, hack⟩]
        exact iff_of_false (by decide) fun h => hack (h.2 hyellow)
    · rw [if_neg hyellow]
      exact iff_of_true rfl ⟨hred, fun h => absurd h hyellow⟩

theorem readsAs_iff {rt : Runtime} {summary : Dict} {level : Str} {red yellow : List Value}
    (hred : listedRisks summary "red" = .ok red)
    (hyellow : listedRisks summary "yellow" = .ok yellow) :
    ReadsAs rt summary level ↔
      level ∈ (red.map (readRisk "red") ++ yellow.map (readRisk "yellow")).map (levelText rt) := by
  simp only [ReadsAs, Listed, List.map_append, List.map_map, List.mem_append, List.mem_map,
    List.mem_cons, List.not_mem_nil, or_false, exists_eq_or_imp, exists_eq_left, hred, hyellow,
    Except.ok.injEq, exists_eq_left', Function.comp_apply]

section Listing

variable {rt : Runtime} {summary : Dict} {red yellow : List Value}
  (hred : listedRisks summary "red" = .ok red)
  (hyellow : listedRisks summary "yellow" = .ok yellow)

include hred in
theorem listed_red (item : Value) : Listed summary "red" item ↔ item ∈ red := by
  rw [Listed, hred]
  simp

include hyellow in
theorem listed_yellow (item : Value) : Listed summary "yellow" item ↔ item ∈ yellow := by
  rw [Listed, hyellow]
  simp

include hred hyellow in
theorem risksFromSummary_of_listed (hne : red ≠ [] ∨ yellow ≠ []) :
    risksFromSummary summary =
      .ok (red.map (readRisk "red") ++ yellow.map (readRisk "yellow")) := by
  rw [risksFromSummary, hred, hyellow]
  exact if_neg fun h => by simp_all

/-- A summary without risks has the level it declares. -/
theorem declaresRed_of_empty (hred : listedRisks summary "red" = .ok [])
    (hyellow : listedRisks summary "yellow" = .ok []) (hdeclares : DeclaresRed rt summary)
    {risks : List Dict} (hrisks : risksFromSummary summary = .ok risks) :
    ("red" : Str) ∈ risks.map (levelText rt) := by
  obtain ⟨v, hv, hlevel⟩ := hdeclares
  have hnull : v ≠ .null := by
    rintro rfl
    change lower "None" = ("red" : Str) at hlevel
    exact absurd hlevel (by decide)
  have hgreen : v ≠ .str "green" := by
    rintro rfl
    change lower "green" = ("red" : Str) at hlevel
    exact absurd hlevel (by decide)
  have hgetD : Dict.getD summary "level" .null = v := by
    rw [Dict.getD, hv]
    rfl
  rw [risksFromSummary, hred, hyellow] at hrisks
  change (if ([] : List Dict) = [] ∧ Dict.getD summary "level" .null ≠ .null ∧
    Dict.getD summary "level" .null ≠ .str "green" then _ else _) = _ at hrisks
  rw [hgetD, if_pos ⟨rfl, hnull, hgreen⟩] at hrisks
  cases hrisks
  rw [List.map_singleton, List.mem_singleton, levelText, Dict.getD]
  exact hlevel.symm

end Listing

/-! ### Executable plans -/

theorem artifactCheck_eq_ok {plan : VmCreatePlan} {request : ApprovalRequest}
    (h : artifactCheck plan request = .ok ()) : Exact plan request := by
  simp only [artifactCheck, bind_eq_ok, raiseIf_eq_ok, not_or, not_not, ne_eq] at h
  obtain ⟨-, -, -, hplan, -, -, hreview⟩ := h
  exact ⟨hplan.2, hreview⟩

/-- The record of an approval that fits the stored artifacts passes its own check. -/
theorem check_of_exact {plan : VmCreatePlan} {request : ApprovalRequest}
    (h : Exact plan request) (record : ApprovalRecord)
    (hrecord : record.reviewSummaryChecksum = request.reviewSummaryChecksum) :
    record.check = .ok () := by
  obtain ⟨artifact, -, hchecksum⟩ := Option.map_eq_some_iff.mp h.2
  have hformat := artifact.format
  rw [isChecksum, Bool.and_eq_true, Bool.and_eq_true, hchecksum] at hformat
  rw [ApprovalRecord.check, raiseIf_eq_ok, hrecord, hformat.1.1]
  decide

/-- A plan is executable when the approval fits, the lists are read and the gate opens. -/
theorem executable_iff {rt : Runtime} {plan : VmCreatePlan} {request : ApprovalRequest}
    {write : Option (ApprovalRecord → ApprovalGateDecision → ArtifactRecord)} :
    (∃ d, validateApprovalRequest rt plan request write = .ok d ∧ d.canExecute = true) ↔
      artifactCheck plan request = .ok () ∧ ∃ risks, risksFromSummary plan.riskSummary = .ok risks ∧
        (evaluateApprovalGate rt risks request.yellowRiskAcknowledged).canExecute = true := by
  unfold validateApprovalRequest
  cases hcheck : artifactCheck plan request with
  | error reason =>
      refine iff_of_false ?_ fun h => by cases h.1
      rintro ⟨d, hd, hexecute⟩
      cases hd
      cases hexecute
  | ok u =>
      have hexact := artifactCheck_eq_ok hcheck
      simp only [bind_eq_ok, pure_eq_ok, true_and]
      constructor
      · rintro ⟨d, ⟨risks, hrisks, u, -, rfl⟩, hexecute⟩
        exact ⟨risks, hrisks, hexecute⟩
      · rintro ⟨risks, hrisks, hexecute⟩
        exact ⟨_, ⟨risks, hrisks, (), check_of_exact hexact _ rfl, rfl⟩, hexecute⟩

/-- With risks listed, an open gate keeps to what a plan may have exactly when the risks are
plainly listed. -/
theorem admissible_iff_plainlyListed {rt : Runtime} {plan : VmCreatePlan}
    {request : ApprovalRequest} {red yellow : List Value}
    (hred : listedRisks plan.riskSummary "red" = .ok red)
    (hyellow : listedRisks plan.riskSummary "yellow" = .ok yellow) (hne : red ≠ [] ∨ yellow ≠ [])
    (hopen : ¬ ReadsAs rt plan.riskSummary "red") :
    Admissible rt plan request ↔ PlainlyListed rt plan request := by
  constructor
  · rintro ⟨hnored, hdeclares, hack⟩
    have hnolisted : ∀ item, ¬ Listed plan.riskSummary "red" item := fun item h =>
      hnored ⟨item, Or.inl h⟩
    refine ⟨hnolisted, ?_, fun h => absurd h hdeclares⟩
    by_cases hacknowledged : request.yellowRiskAcknowledged = .bool true
    · exact Or.inl hacknowledged
    · exact Or.inr fun item h => hacknowledged (hack ⟨item, Or.inl h⟩)
  · rintro ⟨hnored, hack, hdeclares⟩
    have hempty : red = [] := List.eq_nil_iff_forall_not_mem.mpr fun item h =>
      hnored item ((listed_red hred item).mpr h)
    have hsome : ∃ item, Listed plan.riskSummary "yellow" item := by
      obtain ⟨item, hitem⟩ := List.exists_mem_of_ne_nil _ (hne.resolve_left (not_not.mpr hempty))
      exact ⟨item, (listed_yellow hyellow item).mpr hitem⟩
    refine ⟨?_, ?_, ?_⟩
    · rintro ⟨item, hlisted | ⟨hlisted, hstates⟩⟩
      · exact hnored item hlisted
      · exact hopen ⟨"yellow", by simp, item, hlisted, levelText_of_states hstates⟩
    · intro h
      obtain ⟨item, hitem⟩ := hsome
      exact hdeclares h item hitem
    · rintro ⟨item, hlisted | ⟨hlisted, -⟩⟩
      · exact hack.resolve_right fun h => h item hlisted
      · exact absurd hlisted (hnored item)

section Readable

variable {rt : Runtime} {plan : VmCreatePlan} {request : ApprovalRequest}

theorem guarded_of_listed {red yellow : List Value} (hcheck : artifactCheck plan request = .ok ())
    (hexact : Exact plan request) (hred : listedRisks plan.riskSummary "red" = .ok red)
    (hyellow : listedRisks plan.riskSummary "yellow" = .ok yellow)
    (hne : red ≠ [] ∨ yellow ≠ []) :
    ((artifactCheck plan request = .ok () ∧ ∃ risks, risksFromSummary plan.riskSummary = .ok risks ∧
        (evaluateApprovalGate rt risks request.yellowRiskAcknowledged).canExecute = true) →
      Exact plan request ∧ Admissible rt plan request) ↔ Guarded rt plan request := by
  have hreadable : ¬ Unreadable plan.riskSummary := by
    rintro ⟨key, hkey, e, he⟩
    simp only [List.mem_cons, List.not_mem_nil, or_false] at hkey
    rcases hkey with rfl | rfl
    · rw [hred] at he
      cases he
    · rw [hyellow] at he
      cases he
  have hexecute : (∃ risks, risksFromSummary plan.riskSummary = .ok risks ∧
      (evaluateApprovalGate rt risks request.yellowRiskAcknowledged).canExecute = true) ↔
      ¬ ReadsAs rt plan.riskSummary "red" ∧
        (ReadsAs rt plan.riskSummary "yellow" → request.yellowRiskAcknowledged = .bool true) := by
    rw [risksFromSummary_of_listed hred hyellow hne, readsAs_iff hred hyellow,
      readsAs_iff hred hyellow, ← canExecute_iff]
    simp
  rw [hexecute]
  constructor
  · intro h
    by_cases hopen : ReadsAs rt plan.riskSummary "red"
    · exact Or.inr (Or.inr (Or.inl hopen))
    by_cases hack : ReadsAs rt plan.riskSummary "yellow" →
        request.yellowRiskAcknowledged = .bool true
    · have hadmissible := (h ⟨hcheck, hopen, hack⟩).2
      exact Or.inr (Or.inr (Or.inr (Or.inr
        ((admissible_iff_plainlyListed hred hyellow hne hopen).mp hadmissible))))
    · rw [Classical.not_imp] at hack
      exact Or.inr (Or.inr (Or.inr (Or.inl hack)))
  · rintro (hmismatch | hunreadable | hblocked | ⟨hyellows, hunacknowledged⟩ | hplain)
      ⟨-, hopen, hack⟩
    · exact absurd hcheck hmismatch
    · exact absurd hunreadable hreadable
    · exact absurd hblocked hopen
    · exact absurd (hack hyellows) hunacknowledged
    · exact ⟨hexact, (admissible_iff_plainlyListed hred hyellow hne hopen).mpr hplain⟩

/-- Without listed risks the overall level decides, and the gate does as it has to. -/
theorem guarded_of_empty (hexact : Exact plan request)
    (hred : listedRisks plan.riskSummary "red" = .ok [])
    (hyellow : listedRisks plan.riskSummary "yellow" = .ok []) :
    ((artifactCheck plan request = .ok () ∧ ∃ risks, risksFromSummary plan.riskSummary = .ok risks ∧
        (evaluateApprovalGate rt risks request.yellowRiskAcknowledged).canExecute = true) →
      Exact plan request ∧ Admissible rt plan request) ↔ Guarded rt plan request := by
  have hnored : ∀ item, ¬ Listed plan.riskSummary "red" item := fun item h =>
    List.not_mem_nil ((listed_red hred item).mp h)
  have hnoyellow : ∀ item, ¬ Listed plan.riskSummary "yellow" item := fun item h =>
    List.not_mem_nil ((listed_yellow hyellow item).mp h)
  refine iff_of_true ?_ (Or.inr (Or.inr (Or.inr (Or.inr
    ⟨hnored, Or.inr hnoyellow, fun _ => hnoyellow⟩))))
  rintro ⟨-, risks, hrisks, hexecute⟩
  refine ⟨hexact, ?_, ?_, ?_⟩
  · rintro ⟨item, hlisted | ⟨hlisted, -⟩⟩
    · exact hnored item hlisted
    · exact hnoyellow item hlisted
  · intro hdeclares
    exact ((canExecute_iff rt _ _).mp hexecute).1
      (declaresRed_of_empty hred hyellow hdeclares hrisks)
  · rintro ⟨item, hlisted | ⟨hlisted, -⟩⟩
    · exact absurd hlisted (hnoyellow item)
    · exact absurd hlisted (hnored item)

end Readable

/-- An executable plan has the approved artifacts and no risk that forbids it, exactly under the
condition on its approval and its risk summary. -/
theorem approval_gate_iff (rt : Runtime) (plan : VmCreatePlan) (request : ApprovalRequest)
    (write : Option (ApprovalRecord → ApprovalGateDecision → ArtifactRecord)) :
    (∀ d, validateApprovalRequest rt plan request write = .ok d → d.canExecute = true →
      Exact plan request ∧ Admissible rt plan request) ↔ Guarded rt plan request := by
  have hdecides : (∀ d, validateApprovalRequest rt plan request write = .ok d →
      d.canExecute = true → Exact plan request ∧ Admissible rt plan request) ↔
      ((∃ d, validateApprovalRequest rt plan request write = .ok d ∧ d.canExecute = true) →
        Exact plan request ∧ Admissible rt plan request) := by
    constructor
    · rintro h ⟨d, hd, hexecute⟩
      exact h d hd hexecute
    · exact fun h d hd hexecute => h ⟨d, hd, hexecute⟩
  rw [hdecides, executable_iff]
  by_cases hcheck : artifactCheck plan request = .ok ()
  · have hexact := artifactCheck_eq_ok hcheck
    have hunreadable : ∀ key ∈ (["red", "yellow"] : List Str), ∀ e,
        listedRisks plan.riskSummary key = .error e → ∀ risks,
        risksFromSummary plan.riskSummary ≠ .ok risks := by
      intro key hkey e he risks hrisks
      simp only [risksFromSummary, bind_eq_ok] at hrisks
      obtain ⟨red, hred, yellow, hyellow, -⟩ := hrisks
      simp only [List.mem_cons, List.not_mem_nil, or_false] at hkey
      rcases hkey with rfl | rfl
      · rw [he] at hred
        cases hred
      · rw [he] at hyellow
        cases hyellow
    cases hred : listedRisks plan.riskSummary "red" with
    | error e =>
        exact iff_of_true (fun h => absurd h.2.choose_spec.1 (hunreadable _ (by simp) e hred _))
          (Or.inr (Or.inl ⟨_, by simp, e, hred⟩))
    | ok red =>
        cases hyellow : listedRisks plan.riskSummary "yellow" with
        | error e =>
            exact iff_of_true
              (fun h => absurd h.2.choose_spec.1 (hunreadable _ (by simp) e hyellow _))
              (Or.inr (Or.inl ⟨_, by simp, e, hyellow⟩))
        | ok yellow =>
            by_cases hne : red ≠ [] ∨ yellow ≠ []
            · exact guarded_of_listed hcheck hexact hred hyellow hne
            · rw [not_or, not_not, not_not] at hne
              obtain ⟨rfl, rfl⟩ := hne
              exact guarded_of_empty hexact hred hyellow
  · exact iff_of_true (fun h => absurd h.1 hcheck) (Or.inl hcheck)

/-! ### A red risk that states another level -/

/-- A runtime whose digests and prints are empty; no part of the gate reads them here. -/
def blankRuntime : Runtime :=
  ⟨fun _ => ⟨[], by simp⟩, fun _ => ⟨[], by simp⟩, fun _ => [], fun _ => []⟩

def reviewChecksum : Str := ("sha256:" : Str) ++ List.replicate 64 'a'

/-- A plan whose only red risk states the level `info`, next to an overall red level. -/
def disguisedPlan : VmCreatePlan :=
  { jobId := "job-1"
    reviewConfirm := [("plan_artifact_id", .str "plan-1"),
      ("review_summary_checksum", .str reviewChecksum)]
    artifacts := [⟨"plan-1", "job-1", "plan", reviewChecksum, by decide⟩,
      ⟨"review-1", "job-1", "review_summary", reviewChecksum, by decide⟩]
    riskSummary := [("level", .str "red"),
      ("red", .list [.dict [("code", .str "storage_full"), ("level", .str "info")]]),
      ("yellow", .list [])] }

def plainRequest : ApprovalRequest := ⟨"plan-1", reviewChecksum, .bool false⟩

/-- The gate opens for a plan with a red risk and an overall red level. -/
theorem disguised_red_executes :
    ∃ d, validateApprovalRequest blankRuntime disguisedPlan plainRequest none = .ok d ∧
      d.canExecute = true ∧ ContainsRed blankRuntime disguisedPlan.riskSummary ∧
      DeclaresRed blankRuntime disguisedPlan.riskSummary := by
  have hexecutes : ∃ d,
      validateApprovalRequest blankRuntime disguisedPlan plainRequest none = .ok d ∧
      d.canExecute = true :=
    executable_iff.mpr ⟨by rfl, _, rfl, by decide⟩
  obtain ⟨d, hd, hexecute⟩ := hexecutes
  refine ⟨d, hd, hexecute, ⟨_, Or.inl ⟨_, rfl, List.mem_cons_self⟩⟩, _, rfl, by decide⟩

end Gjallar.ApprovalGate

import Gjallar.GuidedEffects
import Gjallar.TaskIdentity

/-!
# The rows of a guided unlock

What the row of a guided unlock keeps of what planning stored, how a later row extends an earlier
one, and what every allowed commit and append respects of it.
-/
namespace Gjallar.GuidedSystem

open Gjallar.Text Gjallar.Data Gjallar.Tables Gjallar.Redaction Gjallar.Operation
  Gjallar.OperationStore Gjallar.OperationLedger Gjallar.TargetLocks Gjallar.RecoveryStore
  Gjallar.RecoveryBinding Gjallar.Processes Gjallar.GuidedQm Gjallar.GuidedWorkflow
open Gjallar.Execution (Settles Reads exactLocator)
open Gjallar.Regex.Pattern (fullmatch_isSome_iff matches_seq matches_one matches_upTo_one)

variable {rt : Runtime} {h : Past} {lease : RecoveryLease} {o : Observation} {a : Append}
  {row : OperationRecord}

/-- The statuses in which nothing has marked the lock of an operation. -/
def isUnmarked : OperationStatus → Bool
  | .planned | .awaitingOperator | .awaitingVerification => true
  | _ => false

/-- The statuses an operation leaves before its recovery is completed. -/
def isUnfinished : OperationStatus → Bool
  | .planned | .awaitingOperator | .awaitingVerification | .verifying => true
  | _ => false

theorem isUnfinished_of_isUnmarked {s : OperationStatus} (hs : isUnmarked s = true) :
    isUnfinished s = true := by
  revert hs
  cases s <;> decide

/-- The entries of the recovery details that name the operation. -/
def nameKeys : List Str :=
  ["target_type", "target_id", "operation_type", "execution_mode", "original_config_lock", "vmid",
    "node_id"]

/-! ### Commits and appends -/

/-- What every allowed commit respects. -/
structure Tame (o : Observation) : Prop where
  projector : o.projector = none
  fixed : Lacks ["target", "observed_before", "operator_attestation"] o.detailsPatch
  names : Lacks nameKeys o.recoveryDetailsPatch
  single : Dict.get o.recoveryDetailsPatch "related_target_locks" = none
  unmarked : ∀ next ∈ o.nextStatus, isUnmarked next = true → next = .awaitingOperator ∧
    o.expectedStatuses = some [.planned]
  locked : Dict.get o.detailsPatch "target_operation_lock" ≠ none →
    o.expectedStatuses = some [.planned]
  exposes : Dict.get o.detailsPatch "instruction_bundle" ≠ none →
    o.nextStatus = some .awaitingOperator
  binds : o.bindTargetLock = false → Lacks ["target_lock_id", "cluster_id"] o.recoveryDetailsPatch
  completes : o.recoveryStatus = RecoveryStatus.completed.name → ∃ next, o.nextStatus = some next ∧
    isUnfinished next = false
  releases : o.releaseTargetLock = true → o.recoveryStatus = RecoveryStatus.completed.name

theorem Lacks.subset {keys keys' : List Str} {patch : Dict} (hl : Lacks keys patch)
    (hsub : keys' ⊆ keys) : Lacks keys' patch := fun key hkey => hl key (hsub hkey)

theorem tame_of_plain (hplain : Plain o) (hnext : ∀ next ∈ o.nextStatus, isUnmarked next = false)
    (hrelease : o.releaseTargetLock = false)
    (hstatus : o.recoveryStatus ≠ RecoveryStatus.completed.name) : Tame o where
  projector := hplain.projector
  fixed := hplain.operation.subset (by decide)
  names := hplain.recovery.subset (by decide)
  single := hplain.recovery _ (by decide)
  unmarked := fun next hn hu => by
    rw [hnext next hn] at hu
    cases hu
  locked := fun hne => absurd (hplain.operation _ (by decide)) hne
  exposes := fun hne => absurd (hplain.operation _ (by decide)) hne
  binds := fun _ => hplain.recovery.subset (by decide)
  completes := fun hc => absurd hc hstatus
  releases := fun hr => by
    rw [hrelease] at hr
    cases hr

theorem CommitAllowed.tame (hc : CommitAllowed rt h lease o) : Tame o := by
  cases hc with
  | quiet hnext hrelease hplain hstatus =>
      refine tame_of_plain hplain (fun next hn => ?_) hrelease hstatus
      rcases hnext with hnext | hnext
      · rw [hnext] at hn
        cases hn
      · rw [hnext] at hn
        cases hn
        rfl
  | blocked hnext hrelease hplain hstatus =>
      refine tame_of_plain hplain (fun next hn => ?_) hrelease hstatus
      rw [hnext] at hn
      cases hn
      rfl
  | withoutLock operation actor eventType reason observedLock hd ho =>
      subst ho
      exact
        { projector := rfl
          fixed := lacks_cons _ (by decide) (lacks_cons _ (by decide) (lacks_nil _))
          names := lacks_cons _ (by decide) (lacks_cons _ (by decide) (lacks_nil _))
          single := rfl
          unmarked := fun next hn hu => by cases hn; cases hu
          locked := fun _ => rfl
          exposes := fun hne => absurd rfl hne
          binds := fun _ => lacks_cons _ (by decide) (lacks_cons _ (by decide) (lacks_nil _))
          completes := fun _ => ⟨_, rfl, rfl⟩
          releases := fun hr => by cases hr }
  | unissued operation actor next eventType payload finalization hd hnext ho =>
      subst ho
      have hfinished : isUnfinished next = false := by rcases hnext with rfl | rfl <;> rfl
      exact
        { projector := rfl
          fixed := lacks_cons _ (by decide) (lacks_nil _)
          names := lacks_cons _ (by decide) (lacks_nil _)
          single := rfl
          unmarked := fun n hn hu => by
            cases hn
            rw [isUnfinished_of_isUnmarked hu] at hfinished
            cases hfinished
          locked := fun _ => rfl
          exposes := fun hne => absurd rfl hne
          binds := fun _ => lacks_cons _ (by decide) (lacks_nil _)
          completes := fun _ => ⟨_, rfl, hfinished⟩
          releases := fun _ => rfl }
  | bound operation actor evidence hd ho =>
      subst ho
      exact
        { projector := rfl
          fixed := lacks_cons _ (by decide) (lacks_nil _)
          names := lacks_cons _ (by decide) (lacks_cons _ (by decide) (lacks_cons _ (by decide)
            (lacks_nil _)))
          single := rfl
          unmarked := fun n hn _ => by cases hn
          locked := fun _ => rfl
          exposes := fun hne => absurd rfl hne
          binds := fun hb => by cases hb
          completes := fun hc => by cases hc
          releases := fun hr => by cases hr }
  | issued operation actor expiresAt observed bundle evidence delay hissues ho =>
      subst ho
      exact
        { projector := rfl
          fixed := lacks_cons _ (by decide) (lacks_cons _ (by decide) (lacks_cons _ (by decide)
            (lacks_cons _ (by decide) (lacks_nil _))))
          names := lacks_cons _ (by decide) (lacks_nil _)
          single := rfl
          unmarked := fun n hn _ => by
            cases hn
            exact ⟨rfl, rfl⟩
          locked := fun _ => rfl
          exposes := fun _ => rfl
          binds := fun _ => lacks_cons _ (by decide) (lacks_nil _)
          completes := fun hc => by cases hc
          releases := fun hr => by cases hr }
  | expired operation actor expiresAt observed hexpires ho =>
      subst ho
      exact
        { projector := rfl
          fixed := lacks_nil _
          names := lacks_cons _ (by decide) (lacks_cons _ (by decide) (lacks_nil _))
          single := rfl
          unmarked := fun n hn hu => by cases hn; cases hu
          locked := fun hne => absurd rfl hne
          exposes := fun hne => absurd rfl hne
          binds := fun _ => lacks_cons _ (by decide) (lacks_cons _ (by decide) (lacks_nil _))
          completes := fun _ => ⟨_, rfl, rfl⟩
          releases := fun _ => rfl }
  | verifying operation actor hd hattested ho =>
      subst ho
      exact
        { projector := rfl
          fixed := lacks_nil _
          names := lacks_cons _ (by decide) (lacks_nil _)
          single := rfl
          unmarked := fun n hn hu => by cases hn; cases hu
          locked := fun hne => absurd rfl hne
          exposes := fun hne => absurd rfl hne
          binds := fun _ => lacks_cons _ (by decide) (lacks_nil _)
          completes := fun hc => by cases hc
          releases := fun hr => by cases hr }
  | succeeded operation actor observed verifiedAt hverifies ho =>
      subst ho
      exact
        { projector := rfl
          fixed := lacks_cons _ (by decide) (lacks_nil _)
          names := lacks_cons _ (by decide) (lacks_cons _ (by decide) (lacks_nil _))
          single := rfl
          unmarked := fun n hn hu => by cases hn; cases hu
          locked := fun hne => absurd rfl hne
          exposes := fun hne => absurd rfl hne
          binds := fun _ => lacks_cons _ (by decide) (lacks_cons _ (by decide) (lacks_nil _))
          completes := fun _ => ⟨_, rfl, rfl⟩
          releases := fun _ => rfl }

/-- What every allowed append respects. -/
structure TameAppend (a : Append) : Prop where
  fixed : Lacks ["target", "observed_before", "target_operation_lock", "instruction_bundle"]
    a.detailsPatch
  attests : Dict.get a.detailsPatch "operator_attestation" = none ∨ ∃ d,
    Dict.get a.detailsPatch "operator_attestation" = some (.dict d) ∧
      Dict.get d "command_executed" = some (.bool true)
  unmarked : ∀ next ∈ a.nextStatus, isUnmarked next = true → next = .awaitingVerification ∧
    a.expectedStatuses = some [.awaitingOperator]
  next : ∀ next ∈ a.nextStatus, next = .needsReconciliation ∨ next = .awaitingVerification

theorem get_attestation (operation : OperationSnapshot) (actor : OperationActor) (now : Instant)
    (late : Bool) : Dict.get (UseCase.attestation rt operation actor now late) "command_executed" =
      some (.bool true) := by
  cases late <;> rfl

/-- The details patch of an attestation has no guarded entry but the attestation. -/
theorem lacks_attested {operation : OperationSnapshot} {actor : OperationActor} {now : Instant}
    {next : Option OperationStatus} {eventType : Str} {expiredAt : Dict} {reason : Option Str}
    {keys : List Str} (hkeys : ("operator_attestation" : Str) ∉ keys)
    (hreason : ("reconciliation_reason" : Str) ∉ keys) : Lacks keys
      (UseCase.attested rt operation actor now next eventType expiredAt reason).detailsPatch := by
  refine lacks_cons _ hkeys ?_
  cases reason with
  | none => exact lacks_nil _
  | some reason => exact lacks_cons _ hreason (lacks_nil _)

theorem AppendAllowed.tame {id : Str} (ha : AppendAllowed rt h id a) : TameAppend a := by
  cases ha with
  | reconcile hnext hplain =>
      refine ⟨hplain.subset (by decide), .inl (hplain _ (by decide)), fun next hn hu => ?_,
        fun next hn => .inl ?_⟩
      · rw [hnext] at hn
        cases hn
        cases hu
      · rw [hnext] at hn
        cases hn
        rfl
  | attest operation actor now next eventType expiredAt reason hseen hid hnext ha =>
      subst ha
      refine ⟨lacks_attested (by decide) (by decide), .inr ⟨_, rfl, get_attestation _ _ _ _⟩,
        fun n hn hu => ?_, fun n hn => .inl ?_⟩
      all_goals
        have hn' : next = some n := hn
        rcases hnext with ⟨hnext, -⟩ | hnext <;> rw [hnext] at hn' <;> cases hn'
      · cases hu
      · rfl
  | attestInTime operation actor now current hseen hid hstatus hreads hactive ha =>
      subst ha
      refine ⟨lacks_attested (by decide) (by decide), .inr ⟨_, rfl, get_attestation _ _ _ _⟩,
        fun n hn _ => ?_, fun n hn => .inr ?_⟩
      · cases hn
        exact ⟨rfl, congrArg (fun s => some [s]) hstatus⟩
      · cases hn
        rfl

/-! ### Later rows -/

/-- What planning fixed of a row. -/
structure Origin (rt : Runtime) (c : PlanCommand) (observed : Observed) (row : OperationRecord) :
    Prop where
  operationId : row.operationId = c.operationId rt
  operationType : row.operationType = .guidedQmVmUnlock
  executionMode : row.executionMode = .guidedManual
  targetType : row.targetType = "proxmox_vm"
  targetId : row.targetId = c.targetId
  expiresAt : row.expiresAt.isSome = true
  target : Dict.get row.details "target" = some (redactSecrets (.dict c.target))
  before : Dict.get row.details "observed_before" = some (redactSecrets (.dict observed.toDict))
  supported : observed.configLock ∈ supportedLocks

/-- A later row of the same operation. -/
structure Extends (s row : OperationRecord) : Prop where
  version : s.version ≤ row.version
  same : s.version = row.version → s = row
  operationId : row.operationId = s.operationId
  operationType : row.operationType = s.operationType
  executionMode : row.executionMode = s.executionMode
  targetType : row.targetType = s.targetType
  targetId : row.targetId = s.targetId
  planDigest : row.planDigest = s.planDigest
  expiresAt : row.expiresAt = s.expiresAt
  planned : row.status = .planned → s.status = .planned
  unmarked : isUnmarked row.status = true → isUnmarked s.status = true
  target : Dict.get row.details "target" = Dict.get s.details "target"
  before : Dict.get row.details "observed_before" = Dict.get s.details "observed_before"
  attested : executionAttested s = true → executionAttested row = true
  exposed : Dict.get s.details "instruction_bundle" ≠ none →
    Dict.get row.details "instruction_bundle" ≠ none
  locked : Dict.get s.details "target_operation_lock" ≠ none →
    Dict.get row.details "target_operation_lock" ≠ none
  recorded : s.status ≠ .planned → Dict.get row.details "target_operation_lock" =
    Dict.get s.details "target_operation_lock"

theorem Extends.refl (row : OperationRecord) : Extends row row :=
  ⟨le_rfl, fun _ => rfl, rfl, rfl, rfl, rfl, rfl, rfl, rfl, id, id, rfl, rfl, id, id, id,
    fun _ => rfl⟩

theorem Extends.trans {s row row' : OperationRecord} (h₁ : Extends s row) (h₂ : Extends row row') :
    Extends s row' where
  version := h₁.version.trans h₂.version
  same := fun heq => by
    have hmid : row.version = row'.version := le_antisymm h₂.version (heq ▸ h₁.version)
    rw [h₁.same (heq.trans hmid.symm), h₂.same hmid]
  operationId := h₂.operationId.trans h₁.operationId
  operationType := h₂.operationType.trans h₁.operationType
  executionMode := h₂.executionMode.trans h₁.executionMode
  targetType := h₂.targetType.trans h₁.targetType
  targetId := h₂.targetId.trans h₁.targetId
  planDigest := h₂.planDigest.trans h₁.planDigest
  expiresAt := h₂.expiresAt.trans h₁.expiresAt
  planned := fun hp => h₁.planned (h₂.planned hp)
  unmarked := fun hu => h₁.unmarked (h₂.unmarked hu)
  target := h₂.target.trans h₁.target
  before := h₂.before.trans h₁.before
  attested := fun ha => h₂.attested (h₁.attested ha)
  exposed := fun he => h₂.exposed (h₁.exposed he)
  locked := fun hl => h₂.locked (h₁.locked hl)
  recorded := fun hs => (h₂.recorded fun hp => hs (h₁.planned hp)).trans (h₁.recorded hs)

/-- Planning fixes its part of every later row. -/
theorem Origin.extends {c : PlanCommand} {observed : Observed} {row row' : OperationRecord}
    (ho : Origin rt c observed row) (he : Extends row row') : Origin rt c observed row' where
  operationId := he.operationId.trans ho.operationId
  operationType := he.operationType.trans ho.operationType
  executionMode := he.executionMode.trans ho.executionMode
  targetType := he.targetType.trans ho.targetType
  targetId := he.targetId.trans ho.targetId
  expiresAt := he.expiresAt ▸ ho.expiresAt
  target := he.target.trans ho.target
  before := he.before.trans ho.before
  supported := ho.supported

/-- An entry the patch leaves alone. -/
theorem get_merge_of_none {d patch : Dict} {key : Str} (hkey : Dict.get patch key = none) :
    Dict.get (Dict.merge d patch) key = Dict.get d key := by
  rw [Dict.get_merge, hkey, Option.none_or]

theorem get_merge_ne_none {d patch : Dict} {key : Str} (hkey : Dict.get d key ≠ none) :
    Dict.get (Dict.merge d patch) key ≠ none := by
  rw [Dict.get_merge]
  intro hnone
  exact hkey (Option.or_eq_none_iff.mp hnone).2

theorem lacks_sanitized {keys : List Str} {patch : Dict} (hl : Lacks keys patch) :
    Lacks keys (sanitized patch) := by
  intro key hkey
  rw [get_sanitized, hl key hkey, Option.map_none]

/-- The row after an append, when the patch respects the guarded entries. -/
theorem extends_applyProjection {draw : Draw}
    (hfixed : Lacks ["target", "observed_before"] (sanitized a.detailsPatch))
    (hattests : Dict.get (sanitized a.detailsPatch) "operator_attestation" = none ∨ ∃ d,
      Dict.get (sanitized a.detailsPatch) "operator_attestation" = some (.dict d) ∧
        Dict.get d "command_executed" = some (.bool true))
    (hunmarked : ∀ next ∈ a.nextStatus, isUnmarked next = true →
      isUnmarked row.status = true ∧ next ≠ .planned)
    (hlocked : Dict.get (sanitized a.detailsPatch) "target_operation_lock" ≠ none →
      row.status = .planned) : Extends row (applyProjection rt draw row a) := by
  have hstatus : (applyProjection rt draw row a).status = a.nextStatus.getD row.status := rfl
  refine ⟨Nat.le_succ _, fun heq => absurd heq (Nat.ne_of_lt (Nat.lt_succ_self _)), rfl, rfl, rfl,
    rfl, rfl, rfl, rfl, fun hp => ?_, fun hu => ?_, ?_, ?_, fun ha => ?_, fun he => ?_,
    fun hl => ?_, fun hp => ?_⟩
  · rw [hstatus] at hp
    cases hnext : a.nextStatus with
    | none => rwa [hnext] at hp
    | some next =>
        rw [hnext, Option.getD_some] at hp
        exact absurd hp (hunmarked next hnext (by rw [hp]; rfl)).2
  · rw [hstatus] at hu
    cases hnext : a.nextStatus with
    | none => rwa [hnext] at hu
    | some next =>
        rw [hnext, Option.getD_some] at hu
        exact (hunmarked next hnext hu).1
  · rw [applyProjection_details, get_merge_of_none (hfixed _ (by decide))]
  · rw [applyProjection_details, get_merge_of_none (hfixed _ (by decide))]
  · unfold executionAttested subDict at ha ⊢
    rw [applyProjection_details, Dict.get_merge]
    rcases hattests with hnone | ⟨d, hd, hexecuted⟩
    · rwa [hnone, Option.none_or]
    · rw [hd, Option.some_or]
      exact decide_eq_true hexecuted
  · rw [applyProjection_details]
    exact get_merge_ne_none he
  · rw [applyProjection_details]
    exact get_merge_ne_none hl
  · rw [applyProjection_details, Dict.get_merge]
    cases hentry : Dict.get (sanitized a.detailsPatch) "target_operation_lock" with
    | none => rfl
    | some v => exact absurd (hlocked (by rw [hentry]; exact Option.some_ne_none v)) hp

theorem get_operationPatch (key : Str) : Dict.get (sanitized (o.append {}).detailsPatch) key =
    Dict.get (sanitized (sanitized o.detailsPatch)) key := by
  have hnil : Dict.get [] key = none := rfl
  change Dict.get (sanitized (Dict.merge (sanitized o.detailsPatch) [])) key = _
  rw [get_sanitized, Dict.get_merge, hnil, Option.none_or, get_sanitized (sanitized o.detailsPatch)]

theorem ne_none_of_sanitized {patch : Dict} {key : Str}
    (hne : Dict.get (sanitized patch) key ≠ none) : Dict.get patch key ≠ none := by
  intro hnone
  exact hne (by rw [get_sanitized, hnone, Option.map_none])

theorem extends_append (ht : TameAppend a) {draw : Draw}
    (hexpected : ∀ expected ∈ a.expectedStatuses, row.status ∈ expected) :
    Extends row (applyProjection rt draw row a) := by
  refine extends_applyProjection (lacks_sanitized (ht.fixed.subset (by decide))) ?_
    (fun next hn hu => ?_) fun hne => ?_
  · rcases ht.attests with hnone | ⟨d, hd, hexecuted⟩
    · exact .inl (by rw [get_sanitized, hnone, Option.map_none])
    · refine .inr ⟨redactDict d, ?_, ?_⟩
      · rw [get_sanitized, hd]
        rfl
      · have hkey := get_sanitized d ("command_executed" : Str)
        rw [hexecuted] at hkey
        exact hkey
  · obtain ⟨rfl, hstatuses⟩ := ht.unmarked next hn hu
    have hstatus := hexpected _ hstatuses
    rw [List.mem_singleton] at hstatus
    rw [hstatus]
    exact ⟨rfl, by decide⟩
  · exact absurd (ht.fixed _ (by decide)) (ne_none_of_sanitized hne)

theorem extends_commit (ht : Tame o) {draw : Draw}
    (hexpected : ∀ expected ∈ o.expectedStatuses, row.status ∈ expected) :
    Extends row (applyProjection rt draw row (o.append {})) := by
  have hlacks : Lacks ["target", "observed_before", "operator_attestation"]
      (sanitized (o.append {}).detailsPatch) := fun key hkey => by
    rw [get_operationPatch]
    exact lacks_sanitized (lacks_sanitized ht.fixed) key hkey
  refine extends_applyProjection (hlacks.subset (by decide)) (.inl (hlacks _ (by decide)))
    (fun next hn hu => ?_) fun hne => ?_
  · obtain ⟨rfl, hstatuses⟩ := ht.unmarked next hn hu
    have hstatus := hexpected _ hstatuses
    rw [List.mem_singleton] at hstatus
    rw [hstatus]
    exact ⟨rfl, by decide⟩
  · rw [get_operationPatch] at hne
    have hstatus := hexpected _ (ht.locked (ne_none_of_sanitized (ne_none_of_sanitized hne)))
    exact List.mem_singleton.mp hstatus

/-! ### The details that name an operation -/

theorem rawText_of_str {repr : Value → Str} {d : Dict} {key s : Str}
    (hkey : Dict.get d key = some (.str s)) : rawText repr d key = s := by
  unfold rawText
  rw [hkey]
  cases s with
  | nil => rfl
  | cons c s => rfl

theorem alnumOr_of_mem_nodeId (c : PlanCommand) {x : Char} (hx : x ∈ c.nodeId) :
    alnumOr "_.-" x = true := by
  have hvalid := c.node_valid
  simp only [nodeIdPattern, fullmatch_isSome_iff, matches_seq, matches_one, matches_upTo_one]
    at hvalid
  obtain ⟨_, u, v, _, _, hs, -, ⟨⟨y, hy, rfl⟩, -⟩, -, hv, -⟩ := hvalid
  rw [hs] at hx
  rcases List.mem_append.mp hx with hx | hx
  · rw [List.mem_singleton.mp hx]
    simp only [alnumOr, hy, Bool.true_or]
  · exact hv x hx

theorem isUpidChar_of_mem_nodeId (c : PlanCommand) {x : Char} (hx : x ∈ c.nodeId) :
    isUpidChar x = true := by
  have hx := alnumOr_of_mem_nodeId c hx
  simp only [isUpidChar, alnumOr, Bool.or_eq_true, List.contains_iff_mem] at hx ⊢
  refine hx.imp id fun hmem => ?_
  have hall : ∀ y ∈ ("_.-" : Str), ("_.:@!+-" : Str).contains y = true := forall_mem_of_all rfl
  exact List.contains_iff_mem.mp (hall x hmem)

/-- Two passes of redaction do to a node name what one does. -/
theorem redactString_nodeId (c : PlanCommand) :
    redactString (redactString c.nodeId) = redactString c.nodeId := by
  have hplain : redactString c.nodeId = if hasMarker c.nodeId then redacted else c.nodeId := by
    refine redactString_of_plain (fun x hx => ?_) fun hx => ?_
    · exact TaskIdentity.isSpace_of_isUpidChar (isUpidChar_of_mem_nodeId c hx)
    · exact absurd (isUpidChar_of_mem_nodeId c hx) (by decide)
  by_cases hm : hasMarker c.nodeId = true
  · rw [hplain, if_pos hm, redactString_redacted]
  · rw [hplain, if_neg hm, hplain, if_neg hm]

theorem isLowerHex_of_mem_ofInt {n : ℤ} (hn : 0 ≤ n) {x : Char} (hx : x ∈ ofInt n) :
    isLowerHex x = true := by
  obtain ⟨m, rfl⟩ := Int.eq_ofNat_of_zero_le hn
  have hdigit : isAsciiDigit x = true := isAsciiDigit_of_mem_ofNat hx
  simp only [isLowerHex, hdigit, Bool.true_or]

theorem redactString_targetId (c : PlanCommand) : redactString c.targetId = c.targetId := by
  have hvmid := c.vmid_valid
  exact VmAdmission.redactString_append_hex (forall_mem_of_all rfl) (by decide)
    (fun x hx => isLowerHex_of_mem_ofInt (by omega) hx) (by decide)

theorem redactString_supported : ∀ s ∈ supportedLocks, redactString s = s := by decide

section

variable {c : PlanCommand} {observed : Observed}

theorem targetOf_of_origin (ho : Origin rt c observed row) : targetOf row = sanitized c.target := by
  unfold targetOf subDict
  rw [ho.target]
  rfl

theorem originalConfigLock_of_origin (ho : Origin rt c observed row) :
    originalConfigLock rt row = observed.configLock := by
  unfold originalConfigLock
  have hlock : Dict.get (subDict row.details "observed_before") "config_lock" =
      some (.str observed.configLock) := by
    unfold subDict
    rw [ho.before]
    change some (Value.str (redactString observed.configLock)) = _
    rw [redactString_supported _ ho.supported]
  exact rawText_of_str hlock

theorem intOrZero_of_int {d : Dict} {key : Str} {n : ℤ} (hkey : Dict.get d key = some (.int n)) :
    intOrZero d key = some n := by
  unfold intOrZero
  rw [hkey]
  by_cases hn : n = 0
  · subst hn
    rfl
  · have htruthy : (Value.int n).truthy = true := by simpa [Value.truthy] using hn
    dsimp only
    rw [if_pos htruthy]
    rfl

/-- The entries by which recovery details name a planned operation. -/
def nameEntries (c : PlanCommand) (observed : Observed) : Dict :=
  [("target_type", .str "proxmox_vm"), ("target_id", .str c.targetId),
    ("operation_type", .str OperationType.guidedQmVmUnlock.name),
    ("execution_mode", .str ExecutionMode.guidedManual.name),
    ("original_config_lock", .str observed.configLock), ("vmid", .int c.vmid),
    ("node_id", .str (redactString c.nodeId))]

/-- Details with these entries name the operation. -/
def NamesPlan (c : PlanCommand) (observed : Observed) (details : Dict) : Prop :=
  ∀ key ∈ nameKeys, Dict.get details key = Dict.get (nameEntries c observed) key

theorem nameEntries_ne_none : ∀ key ∈ nameKeys, Dict.get (nameEntries c observed) key ≠ none := by
  have hkeys : nameKeys.all (Dict.has (nameEntries c observed)) = true := rfl
  intro key hkey hnone
  rw [Dict.get_eq_none_iff, List.all_eq_true.mp hkeys key hkey] at hnone
  cases hnone

theorem NamesPlan.merge {patch : Dict} (hp : NamesPlan c observed patch) (details : Dict) :
    NamesPlan c observed (Dict.merge details patch) := by
  intro key hkey
  obtain ⟨v, hv⟩ := Option.ne_none_iff_exists'.mp (nameEntries_ne_none key hkey)
  rw [Dict.get_merge, hp key hkey, hv, Option.some_or]

theorem get_sanitized_str {d : Dict} {key s : Str} (hkey : isSecretKey key = false)
    (hget : Dict.get d key = some (.str s)) :
    Dict.get (sanitized d) key = some (.str (redactString s)) := by
  rw [get_sanitized, hget, Option.map_some, hkey, if_neg Bool.false_ne_true, redactSecrets_str]

theorem redactString_names : ∀ s ∈ (["proxmox_vm", "guided_qm_vm_unlock", "guided_manual"] :
    List Str), redactString s = s := by decide

theorem node_of_origin (ho : Origin rt c observed row) :
    rawText rt.repr (targetOf row) "node_id" = redactString c.nodeId := by
  rw [targetOf_of_origin ho]
  exact rawText_of_str (get_sanitized_str (by decide) rfl)

theorem vmid_of_origin (ho : Origin rt c observed row) :
    intOrZero (targetOf row) "vmid" = some c.vmid := by
  refine intOrZero_of_int ?_
  rw [targetOf_of_origin ho, get_sanitized]
  rfl

theorem namesPlan_recoveryDetails {operation : OperationSnapshot} {evidence details : Dict}
    (ho : Origin rt c observed operation)
    (hdetails : recoveryDetails rt operation evidence = some details) :
    NamesPlan c observed (sanitized details) := by
  unfold recoveryDetails at hdetails
  dsimp only at hdetails
  rw [vmid_of_origin ho, node_of_origin ho, ho.targetType, ho.targetId, ho.operationType,
    ho.executionMode, originalConfigLock_of_origin ho] at hdetails
  cases hdetails
  intro key hkey
  unfold nameKeys at hkey
  have hstr : ∀ s : Str, redactString s = s → some (Value.str (redactString s)) = some (.str s) :=
    fun s hs => by rw [hs]
  rcases List.mem_cons.mp hkey with rfl | hkey
  · exact (get_sanitized_str (by decide) rfl).trans (hstr _ (redactString_names _ (by decide)))
  rcases List.mem_cons.mp hkey with rfl | hkey
  · exact (get_sanitized_str (by decide) rfl).trans (hstr _ (redactString_targetId c))
  rcases List.mem_cons.mp hkey with rfl | hkey
  · exact (get_sanitized_str (by decide) rfl).trans (hstr _ (redactString_names _ (by decide)))
  rcases List.mem_cons.mp hkey with rfl | hkey
  · exact (get_sanitized_str (by decide) rfl).trans (hstr _ (redactString_names _ (by decide)))
  rcases List.mem_cons.mp hkey with rfl | hkey
  · exact (get_sanitized_str (by decide) rfl).trans (hstr _ (redactString_supported _ ho.supported))
  rcases List.mem_cons.mp hkey with rfl | hkey
  · rw [get_sanitized]
    rfl
  · rw [List.mem_singleton.mp hkey]
    exact (get_sanitized_str (by decide) rfl).trans (hstr _ (redactString_nodeId c))

end

end Gjallar.GuidedSystem

import Gjallar.Execution

/-!
# Every program keeps to the contract

The flows of the change services and of the recovery runs, one after the other: each command is
allowed after the history it is issued with, whatever the replies.
-/
namespace Gjallar.Execution

open Gjallar.Text Gjallar.Data Gjallar.Operation Gjallar.OperationStore Gjallar.TargetLocks
  Gjallar.RecoveryStore Gjallar.RecoveryBinding Gjallar.VmAdmission Gjallar.Processes
  Gjallar.Processes.Program Gjallar.TaskIdentity Gjallar.ChangeServices Gjallar.ChangeRecovery

/-- A program that issues only allowed commands, none of them an admission. -/
abbrev Quietly {α : Type} (rt : Runtime) (h : Past) (p : Prog α) : Prop :=
  p.Follows Possible (Quiet rt) (fun _ _ => True) h

variable {rt : Runtime} {svc : Service} {h : Past} {lease : RecoveryLease}
  {operation : OperationSnapshot}

theorem Seen.cons {e : Event Command Reply} (hs : Seen h operation) : Seen (e :: h) operation :=
  hs.imp fun _ hx => ⟨List.mem_cons_of_mem _ hx.1, hx.2⟩

theorem Verified.cons {id : Str} {e : Event Command Reply} (hv : Verified rt h id) :
    Verified rt (e :: h) id := by
  obtain ⟨svc, operation, after, new, past, rfl, hrest⟩ := hv
  exact ⟨svc, operation, after, e :: new, past, rfl, hrest⟩

/-! ### Patches and commits -/

theorem plain_nil : Plain [] := ⟨rfl, rfl, rfl, rfl, .inl rfl⟩

theorem Plain.cons {patch : Dict} {key : Str} (v : Value) (hp : Plain patch)
    (hkey : key ∈ (["failure_code", "task", "observed_after"] : List Str)) :
    Plain ((key, v) :: patch) := by
  obtain ⟨hlock, hrelated, hdispatched, hack, hupid⟩ := hp
  simp only [List.mem_cons, List.not_mem_nil, or_false] at hkey
  rcases hkey with rfl | rfl | rfl <;> exact ⟨hlock, hrelated, hdispatched, hack, hupid⟩

theorem plain_failure (v : Value) : Plain [("failure_code", v)] := plain_nil.cons v (by decide)

theorem Plain.append_failure {patch : Dict} (hp : Plain patch) :
    Plain (List.append patch [("failure_code", .null)]) := by
  have hget : ∀ k : Str, k ≠ ("failure_code" : Str) →
      Dict.get (List.append patch [("failure_code", .null)]) k = Dict.get patch k := by
    intro k hk
    have hnone : Dict.get ([("failure_code", .null)] : Dict) k = none := by
      simpa [Dict.get] using hk
    exact (Dict.get_append patch _ k).trans (by rw [hnone, Option.or_none])
  obtain ⟨hlock, hrelated, hdispatched, hack, hupid⟩ := hp
  refine ⟨?_, ?_, ?_, ?_, ?_⟩ <;> rw [hget _ (by decide)] <;> assumption

theorem quiet_commit {o : Observation} (hbind : o.bindTargetLock = false)
    (hprojector : o.projector = none) (hc : CommitAllowed rt h lease o) :
    Quiet rt h (.commit lease o) := ⟨⟨hbind, hprojector, hc⟩, by simp, by simp⟩

theorem quietly_conclude {o : Observation} (outcome : Str) (hbind : o.bindTargetLock = false)
    (hprojector : o.projector = none) (hc : CommitAllowed rt h lease o) :
    Quietly rt h (Service.conclude lease o outcome) := by
  simp only [Service.conclude, send_bind, Quietly, follows_call]
  refine ⟨quiet_commit hbind hprojector hc, fun r _ => ?_⟩
  cases r <;> trivial

theorem unconfirmed_allowed (code : Str) {patch : Dict} (hp : Plain patch) :
    CommitAllowed rt h lease (svc.unconfirmed operation code patch) := by
  refine .plain ?_ rfl hp
  simp only [Service.unconfirmed]
  split
  · exact .inl rfl
  · exact .inr rfl

theorem quietly_pause (code : Str) {evidence : Dict} (hp : Plain evidence) :
    Quietly rt h (svc.pause lease operation code evidence) :=
  quietly_conclude _ rfl rfl (unconfirmed_allowed code (hp.cons _ (by decide)))

theorem quietly_complete {patch : Dict} (hp : Plain patch)
    (hv : Verified rt h lease.operationId) :
    Quietly rt h (svc.complete lease operation patch) := by
  have hend : ∀ (h' : Past) (l : RecoveryLease) (op : OperationSnapshot),
      Verified rt h' l.operationId →
      Quietly rt h' (Service.conclude l (svc.verified op patch) "succeeded") :=
    fun h' l op hv' => quietly_conclude _ rfl rfl (.succeeded rfl hp.append_failure hv')
  unfold Service.complete
  split
  · exact hend h lease operation hv
  · simp only [send_bind, Quietly, follows_call]
    refine ⟨quiet_commit rfl rfl (.verifying rfl rfl hp hv), fun r hr => ?_⟩
    cases r with
    | error e => trivial
    | ok result =>
        have hid : (⟨result.2, lease.token⟩ : RecoveryLease).operationId = lease.operationId :=
          (hr _ _ rfl).2
        exact hend _ _ _ (hid ▸ hv.cons)

/-! ### Verification -/

theorem quietly_verifyObserved {after : Option Value} {code : Option Str}
    (hmode : svc.mode = .config) (hid : operation.operationId = lease.operationId)
    (hafter : ∀ v, after = some v → ∃ past, h = ⟨.observe svc operation, .ok v⟩ :: past ∧
      Seen past operation) :
    Quietly rt h (svc.verifyObserved lease operation after code) := by
  unfold Service.verifyObserved
  dsimp only
  split
  · trivial
  · rename_i matched hmatched
    split
    · exact quietly_conclude _ rfl rfl (unconfirmed_allowed _
        ((plain_failure _).cons _ (by decide)))
    · rename_i hfalse
      rw [not_or, Bool.not_eq_false, not_not] at hfalse
      obtain ⟨hack, rfl⟩ := hfalse
      cases after with
      | none => cases hmatched
      | some v =>
          obtain ⟨past, rfl, hseen⟩ := hafter v rfl
          refine quietly_complete (plain_nil.cons v (by decide)) ?_
          refine ⟨svc, operation, v, [], past, rfl, hseen, hid, ?_, hmatched, ?_⟩
          · simpa only [Acknowledged, hmode] using hack
          · simp [hmode]

theorem quietly_verifyConfig (hmode : svc.mode = .config)
    (hid : operation.operationId = lease.operationId) (hseen : Seen h operation) :
    Quietly rt h (svc.verifyConfig lease operation) := by
  unfold Service.verifyConfig
  split
  · trivial
  · simp only [send_bind, Quietly, follows_call]
    refine ⟨⟨trivial, by simp, by simp⟩, fun r _ => ?_⟩
    cases r with
    | ok after =>
        refine quietly_verifyObserved hmode hid fun v hv => ?_
        cases hv
        exact ⟨h, rfl, hseen⟩
    | error e =>
        cases e with
        | service code => exact quietly_verifyObserved hmode hid (by simp)
        | store e => trivial
        | other => trivial

theorem quietly_verifyTaskState {task : TaskEvidence} (hmode : svc.mode = .task)
    (hid : operation.operationId = lease.operationId) (hseen : Seen h operation)
    (hupid : (Service.upidOf rt operation).isSome = true)
    (htask : task.status = ("stopped" : Str) → task.exitstatus = ("OK" : Str) →
      TaskSucceeded rt svc h) :
    Quietly rt h (svc.verifyTaskState lease operation task) := by
  have hplain : Plain [("task", .dict task.toDict)] := plain_nil.cons _ (by decide)
  unfold Service.verifyTaskState
  split
  · exact quietly_conclude _ rfl rfl (.plain (.inl rfl) rfl hplain)
  split
  · exact quietly_pause _ hplain
  rename_i hdone
  rw [not_or, not_not, not_not] at hdone
  simp only [send_bind, Quietly, follows_call]
  refine ⟨⟨trivial, by simp, by simp⟩, fun r _ => ?_⟩
  cases r with
  | error e =>
      cases e with
      | service code => exact quietly_pause _ plain_nil
      | store e => trivial
      | other => trivial
  | ok after =>
      dsimp only
      split
      · trivial
      · exact quietly_pause _ (hplain.cons _ (by decide))
      · rename_i hmatch
        refine quietly_complete (hplain.cons _ (by decide)) ?_
        refine ⟨svc, operation, after, [], h, rfl, hseen, hid, ?_, hmatch, ?_⟩
        · simpa only [Acknowledged, hmode] using hupid
        · exact fun _ => htask hdone.1 hdone.2

theorem quietly_verifyTask {task : Option TaskEvidence} (hmode : svc.mode = .task)
    (hid : operation.operationId = lease.operationId) (hseen : Seen h operation)
    (htask : ∀ t, task = some t → t.status = ("stopped" : Str) → t.exitstatus = ("OK" : Str) →
      TaskSucceeded rt svc h) :
    Quietly rt h (svc.verifyTask rt lease operation task) := by
  unfold Service.verifyTask
  split
  · trivial
  split
  · exact quietly_pause _ plain_nil
  split
  · exact quietly_pause _ plain_nil
  · rename_i upid t hupid
    exact quietly_verifyTaskState hmode hid hseen (by rw [hupid]; rfl) (htask t rfl)
  · rename_i upid hupid
    simp only [send_bind, Quietly, follows_call]
    refine ⟨⟨trivial, by simp, by simp⟩, fun r _ => ?_⟩
    cases r with
    | error e =>
        cases e with
        | service code => exact quietly_pause _ plain_nil
        | store e => trivial
        | other => trivial
    | ok raw =>
        exact quietly_verifyTaskState hmode hid hseen.cons (by rw [hupid]; rfl)
          fun hstatus hexit => ⟨_, _, raw, List.mem_cons_self, hstatus, hexit⟩

theorem quietly_verify {task : Option TaskEvidence}
    (hid : operation.operationId = lease.operationId) (hseen : Seen h operation)
    (htask : ∀ t, task = some t → t.status = ("stopped" : Str) → t.exitstatus = ("OK" : Str) →
      TaskSucceeded rt svc h) :
    Quietly rt h (svc.verify rt lease operation task) := by
  unfold Service.verify
  split
  · exact quietly_verifyConfig ‹_› hid hseen
  · exact quietly_verifyTask ‹_› hid hseen htask

/-! ### Execution -/

theorem follows_waitForTask (nodeId upid : Str) (polls : ℕ) :
    (svc.waitForTask rt nodeId upid polls lease).Follows Possible (Quiet rt)
      (fun h' out => out.1.operationId = lease.operationId ∧
        ∀ raw, out.2 = .ok raw → ⟨.task svc nodeId upid, .ok raw⟩ ∈ h') h := by
  induction polls generalizing lease h with
  | zero =>
      unfold Service.waitForTask
      simp only [send_bind, follows_call]
      refine ⟨⟨trivial, by simp, by simp⟩, fun r _ => ?_⟩
      cases r with
      | error e => exact ⟨rfl, by simp⟩
      | ok raw =>
          refine ⟨⟨trivial, by simp, by simp⟩, fun r hr => ?_⟩
          cases r with
          | error e => exact ⟨rfl, by simp⟩
          | ok lease' =>
              have hid : lease'.operationId = lease.operationId := hr lease' rfl
              dsimp only
              split
              · refine ⟨hid, fun raw' heq => ?_⟩
                cases heq
                exact List.mem_cons_of_mem _ List.mem_cons_self
              · exact ⟨hid, by simp⟩
  | succ polls ih =>
      unfold Service.waitForTask
      simp only [send_bind, follows_call]
      refine ⟨⟨trivial, by simp, by simp⟩, fun r _ => ?_⟩
      cases r with
      | error e => exact ⟨rfl, by simp⟩
      | ok raw =>
          refine ⟨⟨trivial, by simp, by simp⟩, fun r hr => ?_⟩
          cases r with
          | error e => exact ⟨rfl, by simp⟩
          | ok lease' =>
              have hid : lease'.operationId = lease.operationId := hr lease' rfl
              dsimp only
              split
              · refine ⟨hid, fun raw' heq => ?_⟩
                cases heq
                exact List.mem_cons_of_mem _ List.mem_cons_self
              · exact hid ▸ ih

theorem quietly_finish (id : Str) : Quietly rt h (Service.finish id) := by
  simp only [Service.finish, send_bind, Quietly, follows_call]
  refine ⟨⟨trivial, by simp, by simp⟩, fun r _ => ?_⟩
  cases r with
  | error e => trivial
  | ok found => cases found <;> trivial

/-- A program whose answer decides only whether the operation is looked up again. -/
theorem Quietly.finishAfter {p : Prog (Answer Str)} (hp : Quietly rt h p) (id : Str) :
    Quietly rt h (p >>= Service.finishAfter id) := by
  refine Program.Follows.bind (hp.mono fun h' answer _ => ?_)
  cases answer with
  | error e => trivial
  | ok outcome => exact quietly_finish id

theorem bound_allowed {o : Observation} (hnext : o.nextStatus = some .running)
    (hrelease : o.releaseTargetLock = false)
    (hlock : Dict.get o.detailsPatch "target_lock_id" = none)
    (hrelated : Dict.get o.detailsPatch "related_target_locks" = none)
    (hbind : o.bindTargetLock = false) (hprojector : o.projector = none)
    (hdispatched : ∃ e ∈ h, dispatched e = some lease.operationId) :
    Quiet rt h (.commit lease o) :=
  quiet_commit hbind hprojector (.bound hnext hrelease hlock hrelated hdispatched)

theorem quietly_afterConfigDispatch {answer : Answer Str} (hmode : svc.mode = .config)
    (hdispatched : ∃ e ∈ h, dispatched e = some lease.operationId) :
    Quietly rt h (svc.afterConfigDispatch lease operation answer) := by
  cases answer with
  | error e =>
      cases e with
      | service code =>
          simp only [Service.afterConfigDispatch, send_bind, Quietly, follows_call]
          refine ⟨quiet_commit rfl rfl (.plain (.inr rfl) rfl (plain_failure _)), fun r _ => ?_⟩
          cases r <;> trivial
      | store e => trivial
      | other => trivial
  | ok upid =>
      simp only [Service.afterConfigDispatch, send_bind, Quietly, follows_call]
      refine ⟨bound_allowed rfl rfl rfl rfl rfl rfl hdispatched, fun r hr => ?_⟩
      cases r with
      | error e => trivial
      | ok result =>
          have hid := hr _ _ rfl
          refine (quietly_verifyConfig hmode ?_ ⟨_, List.mem_cons_self, rfl⟩).finishAfter _
          exact hid.1.trans hid.2.symm

theorem quietly_afterTaskDispatch {nodeId : Str} {polls : ℕ} {answer : Answer Str}
    (hmode : svc.mode = .task)
    (hdispatched : ∃ e ∈ h, dispatched e = some lease.operationId) :
    Quietly rt h (svc.afterTaskDispatch rt nodeId polls lease operation answer) := by
  cases answer with
  | error e =>
      cases e with
      | service code => exact (quietly_pause _ plain_nil).finishAfter _
      | store e => trivial
      | other => trivial
  | ok upid =>
      simp only [Service.afterTaskDispatch, send_bind, Quietly, follows_call]
      refine ⟨bound_allowed rfl rfl rfl rfl rfl rfl hdispatched, fun r hr => ?_⟩
      cases r with
      | error e => trivial
      | ok result =>
          obtain ⟨bound, item⟩ := result
          have hid : bound.operationId = item.operationId :=
            (hr _ _ rfl).1.trans (hr _ _ rfl).2.symm
          refine Program.Follows.bind ((follows_waitForTask nodeId upid polls).grows.mono ?_)
          rintro h' ⟨lease', seen⟩ ⟨⟨new, rfl, -⟩, hlease, htask⟩
          cases seen with
          | error e =>
              cases e with
              | service code => exact (quietly_pause _ plain_nil).finishAfter _
              | store e => trivial
              | other => trivial
          | ok raw =>
              refine (quietly_verifyTask hmode (hid.trans hlease.symm) ?_ ?_).finishAfter _
              · exact ⟨_, List.mem_append_right _ List.mem_cons_self, rfl⟩
              · intro t ht hstatus hexit
                cases ht
                exact ⟨nodeId, upid, raw, htask raw rfl, hstatus, hexit⟩

theorem quietly_block (code : Str) :
    Quietly rt h (svc.block lease code) := by
  simp only [Service.block, send_bind, Quietly, follows_call]
  refine ⟨quiet_commit rfl rfl (.blocked rfl rfl (plain_failure _)), fun r _ => ?_⟩
  cases r <;> trivial

section Request

variable {nodeId : Str} {vmid : ℤ} {request : Request} {polls : ℕ} {actor : OperationActor}
  {before : Value} {stored : OperationSnapshot}

theorem quietly_dispatchFlow
    (hadmitted : ⟨.prepare (svc.admission rt nodeId vmid request actor before),
      .ok (stored, some lease)⟩ ∈ h)
    (hid : lease.operationId = svc.operationId rt nodeId vmid request)
    (hfresh : ∀ e ∈ h, dispatched e = none ∧ claims e = false) :
    Quietly rt h (svc.dispatchFlow rt nodeId vmid request polls lease) := by
  simp only [Service.dispatchFlow, send_bind, Quietly, follows_call]
  refine ⟨quiet_commit rfl rfl (.dispatching svc rfl ⟨_, hadmitted, hid ▸ rfl⟩), fun r hr => ?_⟩
  cases r with
  | error e => trivial
  | ok result =>
      obtain ⟨marked, item⟩ := result
      obtain ⟨hmarked, hitem⟩ : marked.operationId = lease.operationId ∧
        item.operationId = lease.operationId := hr _ _ rfl
      have hfresh' : ∀ e ∈ (⟨.commit lease svc.dispatching, .ok (marked, item)⟩ : Event _ _) :: h,
          dispatched e = none ∧ claims e = false := by
        rw [List.forall_mem_cons]
        exact ⟨⟨rfl, rfl⟩, hfresh⟩
      refine ⟨⟨?_, by simp, by simp⟩, fun answer _ => ?_⟩
      · exact { admitted := ⟨actor, before, stored, lease, List.mem_cons_of_mem _ hadmitted⟩
                target := hmarked.trans hid
                marked := ⟨lease, item, hmarked.symm, List.mem_cons_self⟩
                once := fun e he => by rw [(hfresh' e he).1]; simp
                unclaimed := fun e he => (hfresh' e he).2 }
      · have hdispatched : ∃ e ∈ (⟨.dispatch svc nodeId vmid request marked, answer⟩ :
            Event Command Reply) :: ⟨.commit lease svc.dispatching, .ok (marked, item)⟩ :: h,
            dispatched e = some (⟨item, lease.token⟩ : RecoveryLease).operationId :=
          ⟨_, List.mem_cons_self, congrArg some (hmarked.trans hitem.symm)⟩
        split
        · exact quietly_afterConfigDispatch ‹_› hdispatched
        · exact quietly_afterTaskDispatch ‹_› hdispatched

theorem quietly_admittedFlow
    (hadmitted : ⟨.prepare (svc.admission rt nodeId vmid request actor before),
      .ok (stored, some lease)⟩ ∈ h)
    (hid : lease.operationId = svc.operationId rt nodeId vmid request)
    (hfresh : ∀ e ∈ h, dispatched e = none ∧ claims e = false) :
    Quietly rt h (svc.admittedFlow rt nodeId vmid request polls lease) := by
  simp only [Service.admittedFlow, send_bind, Quietly, follows_call]
  refine ⟨⟨trivial, by simp, by simp⟩, fun r _ => ?_⟩
  cases r with
  | error e =>
      cases e with
      | service code => exact quietly_block code
      | store e => trivial
      | other => trivial
  | ok latest =>
      dsimp only
      split
      · exact quietly_block _
      · refine quietly_dispatchFlow (List.mem_cons_of_mem _ hadmitted) hid ?_
        rw [List.forall_mem_cons]
        exact ⟨⟨rfl, rfl⟩, hfresh⟩

/-! ### Whole programs -/

theorem ends_of_request {outcome : Outcome}
    (hlast : h.getLast? = some ⟨.receive svc nodeId vmid request, ()⟩)
    (he : RequestEnds rt h svc nodeId vmid request outcome) : Ends rt h outcome := by
  intro svc' nodeId' vmid' request' hlast'
  rw [hlast] at hlast'
  cases hlast'
  exact he

/-- Quiet events are neither arrivals nor admissions. -/
theorem not_admission_of_quiet {e : Event Command Reply} (he : ∃ h₀, Quiet rt h₀ e.command) :
    (∀ svc nodeId vmid request, e.command ≠ .receive svc nodeId vmid request) ∧
      ∀ q, e.command ≠ .prepare q :=
  have ⟨_, _, hprepare, hreceive⟩ := he
  ⟨hreceive, hprepare⟩

/-- A program of quiet commands only, such as a recovery run, is no execute request. -/
theorem Quietly.follows {p : Prog Outcome} (hp : Quietly rt [] p) :
    p.Follows Possible (Allowed rt) (Ends rt) [] := by
  refine (Program.Follows.weaken hp.grows fun _ _ hc => hc.1).mono ?_
  rintro h' outcome ⟨⟨new, rfl, hnew⟩, -⟩ svc nodeId vmid request hlast
  rw [List.append_nil] at hlast
  have hq := hnew _ (List.mem_of_getLast? hlast)
  exact absurd rfl ((not_admission_of_quiet hq).1 _ _ _ _)

/-- Once the request is admitted, the stored operation is of its intent. -/
theorem requestEnds_of_admitted {q : AdmissionRequest} {found : Option RecoveryLease}
    {outcome : Outcome} (hmem : ⟨.prepare q, .ok (stored, found)⟩ ∈ h)
    (hid : stored.operationId = svc.operationId rt nodeId vmid request)
    (hdigest : stored.intentDigest = svc.intentDigest rt nodeId vmid request)
    (hok : ∀ q e, ⟨.prepare q, .error e⟩ ∉ h) :
    RequestEnds rt h svc nodeId vmid request outcome where
  seen := .inr ⟨_, hmem, stored, rfl, hid, hdigest⟩
  lookup hnone := absurd hmem (hnone q (stored, found))
  admission q e he := absurd he (hok q e)

theorem follows_preparedFlow
    (hlast : h.getLast? = some ⟨.receive svc nodeId vmid request, ()⟩)
    (hfresh : ∀ e ∈ h, dispatched e = none ∧ claims e = false ∧ ∀ q, e.command ≠ .prepare q)
    (hlookup : ∀ id existing, ⟨.getOperation id, .ok (some existing)⟩ ∉ h)
    {answer : Answer (OperationSnapshot × Option RecoveryLease)}
    (hanswer : Possible (.prepare (svc.admission rt nodeId vmid request actor before)) answer) :
    Program.Follows Possible (Allowed rt) (Ends rt)
      (⟨.prepare (svc.admission rt nodeId vmid request actor before), answer⟩ :: h)
      (svc.preparedFlow rt nodeId vmid request polls answer) := by
  have hlast' : ∀ e new, (new ++ e :: h).getLast? =
      some ⟨.receive svc nodeId vmid request, ()⟩ := by
    intro e new
    rw [List.getLast?_append, List.getLast?_cons, hlast]
    rfl
  have hnone : ∀ q a, ⟨.prepare q, a⟩ ∉ h := fun q a he => absurd rfl ((hfresh _ he).2.2 q)
  cases answer with
  | error e =>
      refine ends_of_request (hlast' _ []) ⟨.inl ⟨e, rfl⟩, fun _ existing hmem => ?_,
        fun q e' hmem => ?_⟩
      · rcases List.mem_cons.mp hmem with heq | hmem
        · cases heq
        · exact absurd hmem (hlookup _ existing)
      · rcases List.mem_cons.mp hmem with heq | hmem
        · cases heq
          rfl
        · exact absurd hmem (hnone q _)
  | ok result =>
      obtain ⟨stored, found⟩ := result
      obtain ⟨hid, hdigest, hlease⟩ := hanswer stored found rfl
      have hends : ∀ new, (∀ e ∈ new, ∃ h₀, Quiet rt h₀ e.command) → ∀ outcome,
          Ends rt (new ++ ⟨.prepare (svc.admission rt nodeId vmid request actor before),
            .ok (stored, found)⟩ :: h) outcome := by
        refine fun new hnew outcome => ends_of_request (hlast' _ new) (requestEnds_of_admitted
          (List.mem_append_right _ List.mem_cons_self) hid hdigest fun q e he => ?_)
        rcases List.mem_append.mp he with he | he
        · exact (not_admission_of_quiet (hnew _ he)).2 q rfl
        · rcases List.mem_cons.mp he with he | he
          · cases he
          · exact hnone q _ he
      cases found with
      | none => exact hends [] (by simp) _
      | some lease =>
          have hquiet : Quietly rt
              (⟨.prepare (svc.admission rt nodeId vmid request actor before),
                .ok (stored, some lease)⟩ :: h)
              (svc.admittedFlow rt nodeId vmid request polls lease) := by
            refine quietly_admittedFlow List.mem_cons_self (hlease lease rfl) ?_
            rw [List.forall_mem_cons]
            exact ⟨⟨rfl, rfl⟩, fun e he => ⟨(hfresh e he).1, (hfresh e he).2.1⟩⟩
          refine (Program.Follows.weaken hquiet.grows fun _ _ hc => hc.1).mono ?_
          rintro h' outcome ⟨⟨new, rfl, hnew⟩, -⟩
          exact hends new hnew outcome

theorem follows_execute : (svc.execute rt nodeId vmid request polls actor).Follows Possible
    (Allowed rt) (Ends rt) [] := by
  unfold Service.execute
  simp only [send_bind, follows_call]
  refine ⟨rfl, fun _ _ => ?_⟩
  split
  · exact ends_of_request rfl ⟨.inl ⟨_, rfl⟩, by simp, by simp⟩
  refine ⟨trivial, fun found hfound => ?_⟩
  rcases found with e | (_ | existing)
  · exact ends_of_request rfl ⟨.inl ⟨_, rfl⟩, by simp, by simp⟩
  rotate_left
  · simp only [Service.lookupFlow]
    have hid := hfound existing rfl
    split
    · exact ends_of_request rfl ⟨.inl ⟨_, rfl⟩, fun _ _ _ _ => rfl, by simp⟩
    · rename_i hdigest
      rw [not_not] at hdigest
      refine ends_of_request rfl ⟨.inr ⟨_, List.mem_cons_self, existing, rfl, hid, hdigest⟩,
        fun _ existing' hmem hne => ?_, by simp⟩
      rcases List.mem_cons.mp hmem with heq | hmem
      · cases heq
        exact absurd hdigest hne
      · simp at hmem
  · simp only [Service.lookupFlow, send_bind, follows_call]
    refine ⟨trivial, fun reviewed _ => ?_⟩
    cases reviewed with
    | error e => exact ends_of_request rfl ⟨.inl ⟨_, rfl⟩, by simp, by simp⟩
    | ok before =>
        dsimp only
        split
        · exact ends_of_request rfl ⟨.inl ⟨_, rfl⟩, by simp, by simp⟩
        · refine ⟨⟨svc, nodeId, vmid, request, actor, before, rfl, ?_⟩, fun answer hanswer => ?_⟩
          · simp
          · refine follows_preparedFlow (h := [_, _, _]) rfl ?_ (by simp) hanswer
            simp only [List.forall_mem_cons]
            simp [dispatched, claims]

end Request

/-! ### Recovery -/

theorem follows_checkRelated {details : Dict} (references : List LockReference) :
    (checkRelated rt details operation references).Follows Possible (Quiet rt)
      (fun _ _ => True) h := by
  induction references generalizing h with
  | nil => trivial
  | cons reference references ih =>
      simp only [checkRelated, send_bind, follows_call]
      refine ⟨⟨trivial, by simp, by simp⟩, fun r _ => ?_⟩
      cases r with
      | error e => trivial
      | ok lock =>
          dsimp only
          split
          · trivial
          · exact ih

theorem quietly_validateBinding : Quietly rt h (validateBinding rt svc lease operation) := by
  unfold validateBinding
  dsimp only
  split
  · trivial
  · trivial
  · simp only [send_bind, Quietly, follows_call]
    refine ⟨⟨trivial, by simp, by simp⟩, fun r _ => ?_⟩
    cases r with
    | error e => trivial
    | ok lock =>
        dsimp only
        split
        · trivial
        · trivial
        · refine Program.Follows.bind ((follows_checkRelated _).mono fun h' answer _ => ?_)
          split <;> trivial

theorem quietly_resume (hid : operation.operationId = lease.operationId)
    (hseen : Seen h operation) : Quietly rt h (resume rt svc lease operation) := by
  unfold resume
  split
  · exact quietly_conclude _ rfl rfl (.blocked rfl rfl (plain_failure _))
  · refine Program.Follows.bind ((quietly_verify hid hseen (by simp)).mono fun h' answer _ => ?_)
    split
    · exact quietly_conclude _ rfl rfl (.plain (.inl rfl) rfl plain_nil)
    · trivial

theorem plain_bindingPatch (invalid : Prop) [Decidable invalid] (code : Value) :
    Plain (("reconciliation_code", code) ::
      if invalid then [("proxmox_upid", .str [])] else []) := by
  split
  · exact ⟨rfl, rfl, rfl, rfl, .inr rfl⟩
  · exact ⟨rfl, rfl, rfl, rfl, .inl rfl⟩

theorem bindingFailure_allowed (reason : Str) :
    CommitAllowed rt h lease (bindingFailure operation reason) := by
  refine .plain ?_ rfl (plain_bindingPatch _ _)
  by_cases hstatus : operation.status = .dispatching ∨ operation.status = .running ∨
    operation.status = .verifying
  · exact .inr (if_pos hstatus)
  · exact .inl (if_neg hstatus)

theorem quietly_handle : Quietly rt h (handle rt svc lease) := by
  simp only [handle, send_bind, Quietly, follows_call]
  refine ⟨⟨trivial, by simp, by simp⟩, fun r hr => ?_⟩
  cases r with
  | error e => trivial
  | ok found =>
      cases found with
      | none => trivial
      | some operation =>
          have hid : operation.operationId = lease.operationId := hr operation rfl
          have hseen : Seen (⟨.getOperation lease.operationId, .ok (some operation)⟩ :: h)
              operation := ⟨_, List.mem_cons_self, rfl⟩
          refine Program.Follows.bind (quietly_validateBinding.grows.mono ?_)
          rintro h' answer ⟨⟨new, rfl, -⟩, -⟩
          split
          · trivial
          · exact quietly_conclude _ rfl rfl (bindingFailure_allowed _)
          · exact quietly_resume hid (hseen.imp fun e he =>
              ⟨List.mem_append_right _ he.1, he.2⟩)

section Runner

variable {runner : Runner}

theorem quietly_afterHandler (answer : Answer Str) :
    Quietly rt h (runner.afterHandler lease answer) := by
  unfold Runner.afterHandler
  split
  · trivial
  · trivial
  · simp only [send_bind, Quietly, follows_call]
    refine ⟨quiet_commit rfl rfl (.plain (.inl rfl) rfl plain_nil), fun r _ => ?_⟩
    split <;> trivial

theorem quietly_runClaimed : Quietly rt h (runner.runClaimed rt lease) := by
  unfold Runner.runClaimed
  split
  · exact quietly_conclude _ rfl rfl (.plain (.inl rfl) rfl plain_nil)
  · exact Program.Follows.bind (quietly_handle.mono fun h' answer _ => quietly_afterHandler answer)

theorem quietly_runAll (leases : List RecoveryLease) :
    Quietly rt h (runner.runAll rt leases) := by
  induction leases generalizing h with
  | nil => trivial
  | cons lease leases ih =>
      refine Program.Follows.bind (quietly_runClaimed.mono fun h' answer _ => ?_)
      cases answer with
      | error e => trivial
      | ok outcome =>
          refine Program.Follows.bind (Program.Follows.mono ih fun h'' results _ => ?_)
          cases results <;> trivial

theorem quietly_runOnce : Quietly rt [] (runner.runOnce rt) := by
  simp only [Runner.runOnce, send_bind, Quietly, follows_call]
  refine ⟨⟨by simp [Allowed], by simp, by simp⟩, fun r _ => ?_⟩
  cases r with
  | error e => trivial
  | ok leases => exact quietly_runAll leases

theorem quietly_observed {p : Prog (Answer Str)} (hp : Quietly rt h p) (id : Str) :
    Quietly rt h (p >>= Runner.observed id) :=
  Program.Follows.bind (hp.mono fun _ answer _ => by cases answer <;> trivial)

theorem quietly_observe {r : Runner.ObserveRequest} : Quietly rt [] (runner.observe rt r) := by
  simp only [Runner.observe, send_bind, Quietly, follows_call]
  refine ⟨⟨trivial, by simp, by simp⟩, fun found _ => ?_⟩
  cases found with
  | error e => trivial
  | ok found =>
      cases found with
      | none => trivial
      | some operation =>
          dsimp only
          generalize (if r.resumed = true then operation.version else r.version) = version
          generalize (if r.resumed = true then operation.lastEventChecksum else r.checksum) =
            checksum
          split
          · trivial
          · refine ⟨⟨by simp [Allowed, dispatched], by simp, by simp⟩, fun claimed _ => ?_⟩
            cases claimed with
            | error e => trivial
            | ok lease =>
                dsimp only
                split
                · exact quietly_observed quietly_runClaimed _
                · refine ⟨quiet_commit rfl rfl (.plain (.inl rfl) rfl plain_nil), fun r _ => ?_⟩
                  cases r with
                  | error e => trivial
                  | ok result => exact quietly_observed quietly_runClaimed _

end Runner

/-- Every program that can be started keeps to the contract. -/
theorem follows_of_entry (p : Prog Outcome) (hp : Entry rt p) :
    p.Follows Possible (contract rt).allowed (contract rt).ends [] := by
  cases hp with
  | execute => exact follows_execute
  | runOnce => exact quietly_runOnce.follows
  | observe => exact quietly_observe.follows

end Gjallar.Execution

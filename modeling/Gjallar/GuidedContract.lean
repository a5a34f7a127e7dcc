import Gjallar.GuidedSystem

/-!
# The guided workflow keeps to its contract

The actions of the guided workflow one after the other: each command is allowed after the history
it is issued with, whatever the replies.
-/
namespace Gjallar.GuidedSystem

open Gjallar.Text Gjallar.Data Gjallar.Tables Gjallar.Operation Gjallar.OperationStore
  Gjallar.OperationLedger Gjallar.TargetLocks Gjallar.RecoveryStore Gjallar.RecoveryBinding
  Gjallar.Processes Gjallar.Processes.Fallible Gjallar.GuidedQm Gjallar.GuidedWorkflow

/-- An action that issues only allowed commands and returns only what is stated. -/
abbrev Keeps {α : Type} (rt : Runtime) (h : Past) (p : Action α) (Q : Past → α → Prop) : Prop :=
  Obeys Possible (Allowed rt) h p Q

/-- An action that issues only allowed commands. -/
abbrev Silent {α : Type} (rt : Runtime) (h : Past) (p : Action α) : Prop :=
  Keeps rt h p fun _ _ => True

variable {rt : Runtime} {u : UseCase} {h h' : Past} {lease : RecoveryLease}
  {operation : OperationSnapshot} {actor : OperationActor}

/-! ### Longer histories -/

theorem Seen.mono (hs : Seen h operation) (hh : h <:+ h') : Seen h' operation :=
  hs.imp fun _ he => ⟨hh.subset he.1, he.2⟩

theorem Decides.mono (hd : Decides h lease operation) (hh : h <:+ h') :
    Decides h' lease operation := ⟨hd.seen.mono hh, hd.names⟩

theorem ItemSeen.mono {item : RecoveryItem} (hi : ItemSeen h item) (hh : h <:+ h') :
    ItemSeen h' item := hi.imp fun _ he => ⟨hh.subset he.1, he.2⟩

theorem ReadsLock.mono {current : Option Dict} (hr : ReadsLock rt h operation current)
    (hh : h <:+ h') : ReadsLock rt h' operation current :=
  hr.imp fun _ he => ⟨hh.subset he.1, he.2⟩

theorem ExpiryRead.mono (hr : ExpiryRead h operation) (hh : h <:+ h') : ExpiryRead h' operation :=
  hr.imp fun _ he => ⟨hh.subset he.1, he.2⟩

theorem Observes.append {past new : Past} {observed : Observed}
    (ho : Observes rt h past new operation observed) (more : Past) :
    Observes rt (more ++ h) past (more ++ new) operation observed := by
  obtain ⟨vmid, before, config, after, now, hvmid, rfl, hobserved⟩ := ho
  refine ⟨vmid, before, config, after, now, hvmid, ?_, hobserved⟩
  simp only [List.append_assoc]

theorem Issues.mono {evidence : Dict} (hi : Issues rt h lease operation evidence)
    (hh : h <:+ h') : Issues rt h' lease operation evidence := by
  obtain ⟨more, rfl⟩ := hh
  obtain ⟨hprepared, past, new, observed, current, ho, hd, hitem, hlock, htasks, hreads,
    hrest⟩ := hi
  exact ⟨hprepared, past, more ++ new, observed, current, ho.append more, hd, hitem, hlock, htasks,
    hreads.mono (List.suffix_append more new), hrest⟩

theorem Expires.mono (he : Expires rt h lease operation) (hh : h <:+ h') :
    Expires rt h' lease operation := by
  obtain ⟨more, rfl⟩ := hh
  obtain ⟨hattested, past, new, observed, current, ho, hd, hexpiry, hlock, hne, htasks, hreads,
    howned⟩ := he
  exact ⟨hattested, past, more ++ new, observed, current, ho.append more, hd, hexpiry, hlock, hne,
    htasks, hreads.mono (List.suffix_append more new), howned⟩

theorem Verifies.mono (hv : Verifies rt h lease operation) (hh : h <:+ h') :
    Verifies rt h' lease operation := by
  obtain ⟨more, rfl⟩ := hh
  obtain ⟨past, new, observed, attested, ho, hrest⟩ := hv
  exact ⟨past, more ++ new, observed, attested, ho.append more, hrest⟩

theorem CommitAllowed.mono {o : Observation} (hc : CommitAllowed rt h lease o) (hh : h <:+ h') :
    CommitAllowed rt h' lease o := by
  cases hc with
  | quiet hnext hrelease hplain hstatus => exact .quiet hnext hrelease hplain hstatus
  | blocked hnext hrelease hplain hstatus => exact .blocked hnext hrelease hplain hstatus
  | withoutLock operation actor eventType reason observedLock hd ho =>
      exact .withoutLock operation actor eventType reason observedLock (hd.mono hh) ho
  | unissued operation actor next eventType payload finalization hd hnext ho =>
      exact .unissued operation actor next eventType payload finalization (hd.mono hh) hnext ho
  | bound operation actor evidence hd ho => exact .bound operation actor evidence (hd.mono hh) ho
  | issued operation actor expiresAt observed bundle evidence delay hissues ho =>
      exact .issued operation actor expiresAt observed bundle evidence delay (hissues.mono hh) ho
  | expired operation actor expiresAt observed hexpires ho =>
      exact .expired operation actor expiresAt observed (hexpires.mono hh) ho
  | verifying operation actor hd hattested ho =>
      exact .verifying operation actor (hd.mono hh) hattested ho
  | succeeded operation actor observed verifiedAt hverifies ho =>
      exact .succeeded operation actor observed verifiedAt (hverifies.mono hh) ho

/-! ### Reads -/

theorem silent {α : Type} {p : Action α} {Q : Past → α → Prop} (hp : Keeps rt h p Q) :
    Silent rt h p := hp.mono fun _ _ _ _ => trivial

theorem keeps_getOperation (id : Str) : Keeps rt h (Call.getOperation id) fun h' found =>
    ∀ operation, found = some operation → Seen h' operation ∧ operation.operationId = id := by
  refine (Obeys.call (show Allowed rt h (.getOperation id) from trivial)).mono ?_
  rintro h' found - ⟨rfl, hid⟩ operation rfl
  exact ⟨⟨_, List.mem_cons_self, rfl⟩, hid operation rfl⟩

theorem keeps_useCase_getOperation (id : Str) :
    Keeps rt h (UseCase.getOperation id) fun h' found =>
      ∀ operation, found = some operation → Seen h' operation ∧ operation.operationId = id :=
  (keeps_getOperation id).raising _

theorem keeps_requireGuidedUnlock (id : Str) :
    Keeps rt h (UseCase.requireGuidedUnlock id) fun h' operation =>
      Seen h' operation ∧ operation.operationId = id := by
  refine Obeys.bind (keeps_useCase_getOperation id) fun h₁ found _ hfound => ?_
  cases found with
  | none => exact .throw _
  | some operation =>
      dsimp only
      split
      · exact .pure (hfound operation rfl)
      · exact .throw _

theorem keeps_currentLock (operation : OperationSnapshot) :
    Keeps rt h (UseCase.currentLock rt operation) fun h' current => ∃ lock,
      h' = ⟨.currentLock operation.targetType operation.targetId, .ok lock⟩ :: h ∧
      current = lock.map (lockDict rt operation.targetType operation.targetId) := by
  refine Obeys.bind (Obeys.call (show Allowed rt h (.currentLock operation.targetType
    operation.targetId) from trivial)) fun h₁ lock _ hlock => .pure ?_
  exact ⟨lock, hlock.1, rfl⟩

theorem keeps_clock : Keeps rt h Call.clock fun h' now => ⟨.clock, .ok now⟩ ∈ h' := by
  refine (Obeys.call (show Allowed rt h .clock from trivial)).mono ?_
  rintro h' now - ⟨rfl, -⟩
  exact List.mem_cons_self

theorem keeps_observe (nodeId : Str) (vmid : ℤ) :
    Keeps rt h (UseCase.observe rt nodeId vmid) fun h' observed => ∃ before config after now,
      h' = [⟨.clock, .ok now⟩, ⟨.activeTasks nodeId vmid, .ok after⟩,
        ⟨.vmConfig nodeId vmid, .ok config⟩, ⟨.activeTasks nodeId vmid, .ok before⟩,
        ⟨.taskAudit nodeId, .ok true⟩] ++ h ∧
      observed = ⟨configLock rt.repr config, compactTasks rt (before ++ after),
        rt.isoformat now⟩ := by
  refine Obeys.bind ((Obeys.call (show Allowed rt h (.taskAudit nodeId) from trivial)).raising _)
    fun h₁ complete _ hc => ?_
  obtain ⟨rfl, -⟩ := hc
  split
  · rename_i hcomplete
    subst hcomplete
    refine Obeys.bind ((Obeys.call (show Allowed rt _ (.activeTasks nodeId vmid) from
      trivial)).raising _) fun h₂ before _ hb => ?_
    obtain ⟨rfl, -⟩ := hb
    refine Obeys.bind ((Obeys.call (show Allowed rt _ (.vmConfig nodeId vmid) from
      trivial)).raising _) fun h₃ config _ hcfg => ?_
    obtain ⟨rfl, -⟩ := hcfg
    refine Obeys.bind ((Obeys.call (show Allowed rt _ (.activeTasks nodeId vmid) from
      trivial)).raising _) fun h₄ after _ ha => ?_
    obtain ⟨rfl, -⟩ := ha
    refine Obeys.bind (Obeys.call (show Allowed rt _ .clock from trivial))
      fun h₅ now _ hn => .pure ?_
    obtain ⟨rfl, -⟩ := hn
    exact ⟨before, config, after, now, rfl, rfl⟩
  · exact .throw _

theorem keeps_observeTarget (operation : OperationSnapshot) :
    Keeps rt h (UseCase.observeTarget rt operation) fun h' observed =>
      Observes rt h' h [] operation observed := by
  unfold UseCase.observeTarget
  split
  · exact .throw _
  · rename_i vmid hvmid
    refine (keeps_observe _ vmid).mono ?_
    rintro h' observed - ⟨before, config, after, now, rfl, hobserved⟩
    exact ⟨vmid, before, config, after, now, hvmid, rfl, hobserved⟩

theorem silent_result (operation : OperationSnapshot) (replay : Bool)
    (lockReleased : Option Bool) :
    Silent rt h (UseCase.result rt operation replay lockReleased) := by
  have hevents : Allowed rt h (.listEvents operation.operationId) := trivial
  refine Obeys.bind ((Obeys.call hevents).raising _) fun h₁ events _ _ => ?_
  refine Obeys.bind (Q := fun _ _ => True) (Obeys.bind keeps_clock fun h₂ now _ _ => ?_)
    fun h₃ instruction _ _ => .pure trivial
  split
  · exact Obeys.bind (keeps_currentLock operation) fun h₃ current _ _ => .pure trivial
  · exact .pure trivial

/-! ### Commits -/

theorem silent_validateRecoveryLease (operation : OperationSnapshot) (lease : RecoveryLease) :
    Silent rt h (UseCase.validateRecoveryLease rt operation lease) := by
  have hend : ∀ (h₁ : Past) valid, Silent rt h₁ (UseCase.mismatchUnless valid) := by
    intro h₁ valid
    unfold UseCase.mismatchUnless
    split
    · exact .pure trivial
    · exact .throw _
  unfold UseCase.validateRecoveryLease
  dsimp only
  split
  · exact hend h _
  · exact Obeys.bind (keeps_currentLock operation) fun h₁ current _ _ => hend h₁ _

/-- What a process has seen after a commit. -/
def Recommitted (lease : RecoveryLease) (h : Past) (r : OperationSnapshot × RecoveryItem) : Prop :=
  Seen h r.1 ∧ r.1.operationId = lease.operationId ∧ r.2.operationId = lease.operationId ∧
    ItemSeen h r.2

theorem keeps_commit {o : Observation} (hc : CommitAllowed rt h lease o) :
    Keeps rt h (Call.commit lease o) (Recommitted lease) := by
  refine (Obeys.call (show Allowed rt h (.commit lease o) from hc)).mono ?_
  rintro h' ⟨row, item⟩ - ⟨rfl, hids⟩
  obtain ⟨hrow, hitem⟩ := hids row item rfl
  exact ⟨⟨_, List.mem_cons_self, rfl⟩, hrow, hitem, _, List.mem_cons_self, .inl rfl⟩

theorem keeps_commitRecovery {o : Observation}
    (hc : CommitAllowed rt h lease (UseCase.fenced operation o)) :
    Keeps rt h (UseCase.commitRecovery rt operation lease o) (Recommitted lease) :=
  Obeys.bind (silent_validateRecoveryLease operation lease)
    fun _ _ hh _ => (keeps_commit (hc.mono hh)).raising _

theorem silent_commitAndReturn {o : Observation} (lockReleased : Option Bool)
    (hc : CommitAllowed rt h lease (UseCase.fenced operation o)) :
    Silent rt h (UseCase.commitAndReturn rt operation lease o lockReleased) :=
  Obeys.bind (keeps_commitRecovery hc) fun _ _ _ _ => silent_result _ _ _

theorem silent_commitAndRaise {α : Type} {o : Observation} (e : ChangeServices.Failure)
    (hc : CommitAllowed rt h lease (UseCase.fenced operation o)) :
    Silent rt h (UseCase.commitAndRaise (α := α) rt operation lease o e) :=
  Obeys.bind (keeps_commitRecovery hc) fun _ _ _ _ => .throw e

theorem paused_ne : ("paused" : Str) ≠ RecoveryStatus.completed.name := by decide

theorem leased_ne : ("leased" : Str) ≠ RecoveryStatus.completed.name := by decide

theorem retryWait_ne : ("retry_wait" : Str) ≠ RecoveryStatus.completed.name := by decide

theorem lacks_nil (keys : List Str) : Lacks keys [] := fun _ _ => rfl

theorem lacks_cons {keys : List Str} {patch : Dict} {key : Str} (v : Value) (hkey : key ∉ keys)
    (hp : Lacks keys patch) : Lacks keys ((key, v) :: patch) := by
  intro k hk
  have hne : k ≠ key := by
    rintro rfl
    exact hkey hk
  rw [Dict.get_cons, if_neg hne]
  exact hp k hk

theorem quiet_reconcile {next : Option OperationStatus} {expected : OperationStatus}
    {eventType stage errorCode : Str} {payload patch : Dict}
    (hnext : next = none ∨ next = some .needsReconciliation) (hpatch : Lacks guardedKeys patch) :
    CommitAllowed rt h lease (UseCase.fenced operation
      (Commit.reconcile actor next expected eventType stage errorCode payload patch)) :=
  .quiet hnext rfl ⟨hpatch, lacks_nil _, rfl, rfl⟩ paused_ne

theorem lacks_reason (reason : Str) {patch : Dict} (hp : Lacks guardedKeys patch) :
    Lacks guardedKeys (("reconciliation_reason", .str reason) :: patch) :=
  lacks_cons _ (by decide) hp

theorem quiet_expiryReconciliation {eventType errorCode reason : Str} {payload evidence : Dict}
    (hp : Lacks guardedKeys evidence) : CommitAllowed rt h lease (UseCase.fenced operation
      (Commit.expiryReconciliation actor eventType errorCode reason payload evidence)) :=
  quiet_reconcile (.inr rfl) (lacks_reason reason hp)

theorem blocked_reconcile {eventType stage errorCode reason : Str} {payload : Dict} :
    CommitAllowed rt h lease (UseCase.fenced operation
      (Commit.reconcile actor (some .blocked) .planned eventType stage errorCode payload
        [("reconciliation_reason", .str reason)])) :=
  .blocked rfl rfl ⟨lacks_reason reason (lacks_nil _), lacks_nil _, rfl, rfl⟩ paused_ne

/-! ### Leases -/

theorem keeps_claimItem {details evidence : Dict} (hs : Seen h operation)
    (hdetails : recoveryDetails rt operation evidence = some details)
    (hevidence : operation.status = .planned → evidence = []) :
    Keeps rt h (u.claimItem operation details) fun h' lease =>
      Decides h' lease operation ∧ ItemSeen h' lease.item := by
  refine Obeys.bind (Obeys.call (show Allowed rt h (.getRecovery operation.operationId) from
    trivial)) fun h₁ found hh hfound => ?_
  obtain ⟨rfl, -⟩ := hfound
  cases found with
  | none =>
      dsimp only
      split
      · refine (Obeys.call ⟨operation, evidence, h, [], hs, rfl, rfl, rfl, hdetails, rfl, rfl,
          hevidence⟩).mono ?_
        rintro h' lease hh' ⟨rfl, hid⟩
        exact ⟨⟨(hs.mono hh).mono hh', .inl (hid lease rfl)⟩, _, List.mem_cons_self, .inl rfl⟩
      · exact .throw _
  | some item =>
      refine (Obeys.call (show Allowed rt _ (.claimOperation ..) from trivial)).mono ?_
      rintro h' lease hh' ⟨rfl, hid⟩
      exact ⟨⟨(hs.mono hh).mono hh', .inr (hid lease rfl)⟩, _, List.mem_cons_self, .inl rfl⟩

theorem keeps_prepareOrClaimRecovery {evidence : Dict} (hs : Seen h operation)
    (hevidence : operation.status = .planned → evidence = []) :
    Keeps rt h (u.prepareOrClaimRecovery rt operation evidence) fun h' lease =>
      Decides h' lease operation ∧ ItemSeen h' lease.item := by
  unfold UseCase.prepareOrClaimRecovery
  split
  · exact .throw _
  · rename_i details hdetails
    exact (keeps_claimItem hs hdetails hevidence).raising _

theorem keeps_claimRecovery (hs : Seen h operation) (hstatus : operation.status ≠ .planned) :
    Keeps rt h (u.claimRecovery rt operation) fun h' lease => Decides h' lease operation :=
  Obeys.bind (keeps_currentLock operation) fun _ _ hh _ =>
    (keeps_prepareOrClaimRecovery (hs.mono hh) fun heq => absurd heq hstatus).mono
      fun _ _ _ hl => hl.1

/-! ### Expiry -/

theorem expiryReason_eq_none {observed : Observed}
    (h : UseCase.expiryReason rt operation observed = none) : observed.activeTasks = [] ∧
      observed.configLock ≠ [] ∧ observed.configLock = originalConfigLock rt operation := by
  unfold UseCase.expiryReason at h
  split at h
  · cases h
  rename_i htasks
  split at h
  · cases h
  rename_i hlock
  split at h
  · cases h
  rename_i hsame
  exact ⟨not_not.mp htasks, hlock, not_not.mp hsame⟩

theorem silent_concludeExpiry {past : Past} {observed : Observed}
    (ho : Observes rt h past [] operation observed) (hd : Decides past lease operation)
    (hexpiry : ExpiryRead past operation) (hattested : executionAttested operation = false) :
    Silent rt h (UseCase.concludeExpiry rt operation lease actor observed) := by
  unfold UseCase.concludeExpiry
  split
  · exact silent_commitAndReturn _
      (quiet_expiryReconciliation (lacks_cons _ (by decide) (lacks_nil _)))
  · rename_i hreason
    obtain ⟨htasks, hne, hsame⟩ := expiryReason_eq_none hreason
    refine Obeys.bind (keeps_currentLock operation) fun h₁ current _ hreads => ?_
    obtain ⟨lock, rfl, hcurrent⟩ := hreads
    split
    · rename_i howned
      have hreads : ReadsLock rt [⟨.currentLock operation.targetType operation.targetId,
          .ok lock⟩] operation current := ⟨lock, List.mem_cons_self, hcurrent⟩
      exact silent_commitAndReturn _ (.expired operation actor _ observed ⟨hattested, past, _,
        observed, current, ho.append [_], hd, hexpiry, hsame, hne, htasks, hreads, howned⟩ rfl)
    · exact silent_commitAndReturn _ (quiet_expiryReconciliation (lacks_nil _))

theorem silent_recoverWaitingExpiry (hd : Decides h lease operation)
    (hexpiry : ExpiryRead h operation) :
    Silent rt h (u.recoverWaitingExpiry rt operation lease actor) := by
  unfold UseCase.recoverWaitingExpiry
  split
  · exact silent_commitAndReturn _ (quiet_expiryReconciliation (lacks_nil _))
  · rename_i hattested
    refine Obeys.bind (keeps_observeTarget operation).attempt fun h₁ answer hh hanswer => ?_
    cases answer with
    | ok observed =>
        exact silent_concludeExpiry (hanswer observed rfl) hd hexpiry
          (Bool.eq_false_iff.mpr hattested)
    | error e =>
        cases e with
        | service code =>
            refine silent_commitAndReturn _ (.quiet ?_ rfl ⟨?_, lacks_nil _, rfl, rfl⟩ ?_)
            all_goals
              cases hex : u.isExhausted lease
            · exact .inl rfl
            · exact .inr rfl
            · exact lacks_cons _ (by decide) (lacks_nil _)
            · exact lacks_cons _ (by decide) (lacks_reason _ (lacks_nil _))
            · exact retryWait_ne
            · exact paused_ne
        | store e => exact .throw _
        | other => exact .throw _

theorem keeps_append {id : Str} {a : Append} (ha : AppendAllowed rt h id a) :
    Keeps rt h (UseCase.append id a) fun h' operation =>
      Seen h' operation ∧ operation.operationId = id := by
  refine ((Obeys.call (show Allowed rt h (.append id a) from ha)).mono ?_).raising _
  rintro h' operation - ⟨rfl, hid⟩
  exact ⟨⟨_, List.mem_cons_self, rfl⟩, hid operation rfl⟩

theorem keeps_expireWaitingOperation (hs : Seen h operation) :
    Keeps rt h (u.expireWaitingOperation rt operation) fun h' operation => Seen h' operation := by
  unfold UseCase.expireWaitingOperation
  split
  · rename_i hwaiting
    refine Obeys.bind keeps_clock fun h₁ now hh₁ hnow => ?_
    split
    · exact .pure (hs.mono hh₁)
    · rename_i hexpired
      have hexpiry : ExpiryRead h₁ operation := ⟨now, hnow, Bool.eq_false_iff.mpr hexpired⟩
      refine Obeys.bind (keeps_currentLock operation) fun h₂ current hh₂ _ => ?_
      split
      · refine Obeys.bind (keeps_claimRecovery ((hs.mono hh₁).mono hh₂)
          (by rw [hwaiting.1]; decide)) fun h₃ lease hh₃ hd => ?_
        refine Obeys.bind (silent_recoverWaitingExpiry hd
          ((hexpiry.mono hh₂).mono hh₃)) fun h₄ _ _ _ => ?_
        exact (keeps_requireGuidedUnlock _).mono fun _ _ _ hr => hr.1
      · exact (keeps_append (.reconcile rfl (lacks_reason _ (lacks_nil _)))).mono
          fun _ _ _ hr => hr.1
  · exact .pure hs

/-! ### Planning -/

theorem silent_timeUntilExpiry (operation : OperationSnapshot) :
    Silent rt h (u.timeUntilExpiry operation) := by
  unfold UseCase.timeUntilExpiry
  split
  · exact .pure trivial
  · exact Obeys.bind keeps_clock fun _ _ _ _ => .pure trivial

theorem silent_bundleOf (operation : OperationSnapshot) :
    Silent rt h (UseCase.bundleOf rt operation) := by
  unfold UseCase.bundleOf
  split
  · exact .throw _
  · exact .throw _
  · dsimp only
    split
    · exact .pure trivial
    · exact .throw _

theorem silent_issueInstruction {evidence : Dict} {replay : Bool} {observed : Observed}
    (hissues : Issues rt h lease operation evidence) :
    Silent rt h (u.issueInstruction rt operation lease evidence actor replay observed) := by
  refine Obeys.bind (silent_timeUntilExpiry operation) fun h₁ delay hh₁ _ => ?_
  refine Obeys.bind (silent_bundleOf operation) fun h₂ bundle hh₂ _ => ?_
  refine Obeys.bind (keeps_commitRecovery (.issued operation actor _ observed bundle evidence delay
    ((hissues.mono hh₁).mono hh₂) rfl)) fun h₃ _ _ _ => ?_
  exact silent_result _ _ _

theorem Issues.decides {evidence : Dict} (hi : Issues rt h lease operation evidence) :
    Decides h lease operation := by
  obtain ⟨-, past, new, observed, current, ⟨_, _, _, _, _, -, rfl, -⟩, hd, -⟩ := hi
  exact hd.mono (List.suffix_append _ past)

theorem silent_handOff {evidence : Dict} {replay : Bool} {observed : Observed}
    (hd : Decides h lease operation)
    (hissues : observed.configLock = originalConfigLock rt operation → observed.activeTasks = [] →
      Issues rt h lease operation evidence) :
    Silent rt h (u.handOff rt operation lease evidence actor replay observed) := by
  unfold UseCase.handOff
  split
  · rename_i hsame
    have hi := hissues hsame.1 hsame.2
    split
    · refine Obeys.bind keeps_clock fun h₁ now hh₁ _ => ?_
      split
      · exact silent_issueInstruction (hi.mono hh₁)
      · refine Obeys.bind (keeps_commitRecovery (.unissued operation actor .expired _ _ _
          (hd.mono hh₁) (.inr rfl) rfl)) fun _ _ _ _ => ?_
        exact silent_result _ _ _
    · exact silent_issueInstruction hi
  · exact silent_commitAndRaise _ (.unissued operation actor .blocked _ _ _ hd (.inl rfl) rfl)

theorem silent_finalizePlannedWithLease {evidence : Dict} {replay : Bool}
    (hd : Decides h lease operation) (hitem : ItemSeen h lease.item) :
    Silent rt h (u.finalizePlannedWithLease rt operation lease evidence actor replay) := by
  unfold UseCase.finalizePlannedWithLease
  split
  · rename_i hprepared
    refine Obeys.bind (keeps_observeTarget operation).attempt fun h₁ answer hh₁ hanswer => ?_
    cases answer with
    | error e =>
        cases e with
        | service code =>
            exact silent_commitAndRaise _ (.unissued operation actor .blocked _ _ _
              (hd.mono hh₁) (.inl rfl) rfl)
        | store e => exact .throw _
        | other => exact .throw _
    | ok observed =>
        have ho := hanswer observed rfl
        refine Obeys.bind (keeps_currentLock operation) fun h₂ current hh₂ hreads => ?_
        obtain ⟨lock, rfl, hcurrent⟩ := hreads
        split
        · rename_i hlock
          refine silent_handOff ((hd.mono hh₁).mono hh₂) fun hsame htasks => ?_
          exact ⟨hprepared, h, _, observed, current, ho.append [_], hd, hitem, hsame, htasks,
            ⟨lock, List.mem_cons_self, hcurrent⟩, hlock.1, hlock.2⟩
        · exact silent_commitAndRaise _ blocked_reconcile
  · exact .throw _

theorem keeps_bindPlannedTargetLock {evidence : Dict} (hd : Decides h lease operation)
    (hitem : ItemSeen h lease.item) :
    Keeps rt h (UseCase.bindPlannedTargetLock rt operation lease evidence actor) fun h' r =>
      Decides h' r.2 r.1 ∧ ItemSeen h' r.2.item := by
  unfold UseCase.bindPlannedTargetLock
  dsimp only
  split
  · split
    · exact .pure ⟨hd, hitem⟩
    · refine Obeys.bind (keeps_commitRecovery (.bound operation actor evidence hd rfl))
        fun h₁ r _ hr => .pure ?_
      obtain ⟨hseen, hrow, hid, hitem'⟩ := hr
      exact ⟨⟨hseen, .inl (hid.trans hrow.symm)⟩, hitem'⟩
  · exact .throw _

theorem silent_bindAndFinalize {evidence : Dict} {replay : Bool}
    (hd : Decides h lease operation) (hitem : ItemSeen h lease.item) :
    Silent rt h (u.bindAndFinalize rt operation lease evidence actor replay) :=
  Obeys.bind (keeps_bindPlannedTargetLock hd hitem) fun _ _ _ hr =>
    silent_finalizePlannedWithLease hr.1 hr.2

theorem silent_closeBusy {evidence : Dict} (hd : Decides h lease operation) :
    Silent rt h (UseCase.closeBusy rt operation lease evidence actor) :=
  silent_commitAndRaise _ (.withoutLock operation actor _ _ evidence hd rfl)

theorem silent_acquireAndFinalize {replay : Bool} (hd : Decides h lease operation)
    (hitem : ItemSeen h lease.item) (hplanned : operation.status = .planned) :
    Silent rt h (u.acquireAndFinalize rt operation lease actor replay) := by
  have hacquire : Allowed rt h (.acquire operation.targetType operation.targetId
      operation.operationId) := ⟨operation, hd.seen, rfl, rfl, rfl, hplanned⟩
  refine Obeys.bind (Obeys.call hacquire).attempt fun h₁ answer hh₁ _ => ?_
  dsimp only
  split
  · exact silent_bindAndFinalize (hd.mono hh₁) (hitem.mono hh₁)
  · refine Obeys.bind (keeps_currentLock operation) fun h₂ current hh₂ _ => ?_
    split
    · exact silent_bindAndFinalize ((hd.mono hh₁).mono hh₂) ((hitem.mono hh₁).mono hh₂)
    · exact silent_closeBusy ((hd.mono hh₁).mono hh₂)
  · exact .throw _

theorem silent_finalizePlannedOperation {replay : Bool} (hs : Seen h operation) :
    Silent rt h (u.finalizePlannedOperation rt operation actor replay) := by
  unfold UseCase.finalizePlannedOperation
  split
  · rename_i hplanned
    refine Obeys.bind (keeps_prepareOrClaimRecovery hs fun _ => rfl) fun h₁ lease hh₁ hl => ?_
    refine Obeys.bind (keeps_currentLock operation) fun h₂ current hh₂ _ => ?_
    have hd := hl.1.mono hh₂
    have hitem := hl.2.mono hh₂
    split
    · exact silent_acquireAndFinalize hd hitem hplanned
    · split
      · exact silent_bindAndFinalize hd hitem
      split
      · exact .throw _
      · exact silent_closeBusy hd
  · exact silent_result _ _ _

theorem silent_operatorActor (actor : OperationActor) :
    Silent rt h (UseCase.operatorActor actor) := by
  unfold UseCase.operatorActor
  split
  · exact .pure trivial
  · exact .throw _

theorem silent_releaseReleasableTargetLock (targetId : Str) :
    Silent rt h (u.releaseReleasableTargetLock rt targetId) := by
  refine Obeys.bind (Obeys.call (show Allowed rt h (.currentLock "proxmox_vm" targetId) from
    trivial)) fun h₁ lock _ _ => ?_
  split
  · exact .pure trivial
  · split
    · exact .pure trivial
    · refine Obeys.bind (keeps_useCase_getOperation _) fun h₂ found _ hfound => ?_
      split
      · exact .pure trivial
      · exact Obeys.bind (keeps_expireWaitingOperation (hfound _ rfl).1)
          fun _ _ _ _ => .pure trivial

theorem silent_planExisting {c : PlanCommand} (hs : Seen h operation) :
    Silent rt h (u.planExisting rt c actor operation) := by
  unfold UseCase.planExisting
  split
  · split
    · exact silent_finalizePlannedOperation hs
    · refine Obeys.bind (keeps_expireWaitingOperation hs) fun h₁ existing _ _ => ?_
      split
      · refine Obeys.bind (keeps_currentLock existing) fun h₂ current _ _ => ?_
        split
        · exact silent_result _ _ _
        · exact .throw _
      · exact silent_result _ _ _
  · exact .throw _

theorem supported_of_checkPlannable {observed : Observed} {x : Unit}
    (h : UseCase.checkPlannable observed = .ok x) : observed.configLock ∈ supportedLocks := by
  simp only [UseCase.checkPlannable, bind_eq_ok, raiseIf_eq_ok, not_not] at h
  obtain ⟨-, -, -, -, hsupported⟩ := h
  exact hsupported

theorem silent_planNew {c : PlanCommand} : Silent rt h (u.planNew rt c actor) := by
  refine Obeys.bind (silent_releaseReleasableTargetLock _) fun h₁ _ _ _ => ?_
  refine Obeys.bind (Obeys.call (show Allowed rt h₁ (.currentLock "proxmox_vm" c.targetId) from
    trivial)) fun h₂ lock _ _ => ?_
  split
  · exact .throw _
  refine Obeys.bind (keeps_observe c.nodeId c.vmid) fun h₃ observed _ _ => ?_
  split
  · exact .throw _
  rename_i hplannable
  refine Obeys.bind keeps_clock fun h₄ now _ _ => ?_
  have hcreate : Allowed rt h₄ (.create (c.spec rt observed (now + max u.ttl (Instant.seconds 1)))
      (c.createdPayload observed)) :=
    ⟨c, observed, _, rfl, supported_of_checkPlannable hplannable⟩
  refine Obeys.bind ((Obeys.call hcreate).raising _) fun h₅ answer _ hanswer => ?_
  obtain ⟨operation, created⟩ := answer
  obtain ⟨rfl, -⟩ := hanswer
  dsimp only
  split
  · exact silent_finalizePlannedOperation ⟨_, List.mem_cons_self, rfl⟩
  · exact .throw _

theorem silent_planUnlock (c : PlanCommand) : Silent rt h (u.planUnlock rt c) := by
  refine Obeys.bind (silent_operatorActor c.actor) fun h₁ actor _ _ => ?_
  refine Obeys.bind (keeps_useCase_getOperation _) fun h₂ found _ hfound => ?_
  cases found with
  | none => exact silent_planNew
  | some existing => exact silent_planExisting (hfound existing rfl).1

/-! ### Attestation and verification -/

theorem silent_assertPlanDigest (operation : OperationSnapshot) (digest : Str) :
    Silent rt h (UseCase.assertPlanDigest operation digest) := by
  unfold UseCase.assertPlanDigest
  split
  · exact .pure trivial
  · exact .throw _

theorem keeps_assertActiveLock (operation : OperationSnapshot) :
    Keeps rt h (UseCase.assertActiveLock rt operation) fun h' _ => ∃ current,
      ReadsLock rt h' operation current ∧ isActiveInstructionLock rt operation current = true := by
  refine Obeys.bind (keeps_currentLock operation) fun h₁ current _ hcurrent => ?_
  obtain ⟨lock, rfl, hcurrent⟩ := hcurrent
  split
  · rename_i hactive
    exact .pure ⟨current, ⟨lock, List.mem_cons_self, hcurrent⟩, hactive⟩
  split
  · exact Obeys.bind (keeps_append (.reconcile rfl (lacks_nil _))) fun _ _ _ _ => .throw _
  · exact .throw _

theorem silent_appendAttestation {now : Instant} {next : Option OperationStatus}
    {eventType : Str} {expiredAt : Dict} {reason : Option Str} (hs : Seen h operation)
    (hnext : next = none ∧ operation.status = .needsReconciliation ∨
      next = some .needsReconciliation) :
    Silent rt h (UseCase.append operation.operationId
      (UseCase.attested rt operation actor now next eventType expiredAt reason)) :=
  silent (keeps_append (.attest operation actor now next eventType expiredAt reason hs rfl hnext
    rfl))

theorem silent_storeAttestation {next : Option OperationStatus} {eventType : Str}
    {expiredAt : Dict} {reason : Option Str} (hs : Seen h operation)
    (hnext : next = none ∧ operation.status = .needsReconciliation ∨
      next = some .needsReconciliation) :
    Silent rt h (UseCase.storeAttestation rt operation actor next eventType expiredAt reason) :=
  Obeys.bind keeps_clock fun _ _ hh₁ _ =>
    Obeys.bind (silent_appendAttestation (hs.mono hh₁) hnext) fun _ _ _ _ => silent_result _ _ _

theorem silent_attestWaiting (hs : Seen h operation)
    (hstatus : operation.status = .awaitingOperator) :
    Silent rt h (UseCase.attestWaiting rt operation actor) := by
  refine Obeys.bind (keeps_currentLock operation) fun h₁ current hh₁ _ => ?_
  split
  · exact silent_storeAttestation (hs.mono hh₁) (.inr rfl)
  · refine Obeys.bind (keeps_assertActiveLock operation) fun h₂ _ hh₂ hlock => ?_
    refine Obeys.bind keeps_clock fun h₃ now hh₃ _ => ?_
    have hs₃ := ((hs.mono hh₁).mono hh₂).mono hh₃
    obtain ⟨current, hreads, hactive⟩ := hlock
    split
    · exact Obeys.bind (silent_appendAttestation hs₃ (.inr rfl)) fun _ _ _ _ => silent_result _ _ _
    · refine Obeys.bind (keeps_append (.attestInTime operation actor now current hs₃ rfl hstatus
        (hreads.mono hh₃) hactive rfl)) fun _ _ _ _ => silent_result _ _ _

theorem silent_attest (c : DigestCommand) : Silent rt h (UseCase.attest rt c) := by
  refine Obeys.bind (silent_operatorActor c.actor) fun h₁ actor _ _ => ?_
  refine Obeys.bind (keeps_requireGuidedUnlock _) fun h₂ operation _ hr => ?_
  refine Obeys.bind (silent_assertPlanDigest operation _) fun h₃ _ hh₃ _ => ?_
  have hs := hr.1.mono hh₃
  split
  · exact silent_result _ _ _
  · exact silent_result _ _ _
  · exact silent_result _ _ _
  · rename_i hstatus
    split
    · exact silent_result _ _ _
    · exact silent_storeAttestation hs (.inl ⟨rfl, hstatus⟩)
  · exact silent_storeAttestation hs (.inr rfl)
  · rename_i hstatus
    exact silent_attestWaiting hs hstatus
  · exact .throw _

theorem silent_concludeVerification {past : Past} {observed : Observed}
    {attested : OperationSnapshot} (ho : Observes rt h past [] operation observed)
    (hd : Decides past lease operation) (ha : Decides past lease attested)
    (hattested : executionAttested attested = true) :
    Silent rt h (UseCase.concludeVerification rt operation lease actor observed) := by
  unfold UseCase.concludeVerification
  split
  · rename_i hclean
    refine Obeys.bind (keeps_currentLock operation) fun h₁ current hh₁ _ => ?_
    split
    · refine Obeys.bind keeps_clock fun h₂ now hh₂ _ => ?_
      have hv : Verifies rt h lease operation :=
        ⟨past, [], observed, attested, ho, hd, ha, hattested, hclean.1, hclean.2⟩
      exact silent_commitAndReturn _ (.succeeded operation actor observed _
        ((hv.mono hh₁).mono hh₂) rfl)
    · exact silent_commitAndReturn _
        (quiet_reconcile (.inr rfl) (lacks_reason _ (lacks_nil _)))
  · exact silent_commitAndReturn _
      (quiet_reconcile (.inr rfl) (lacks_cons _ (by decide) (lacks_nil _)))

theorem silent_verifyTarget {raises : Bool} {attested : OperationSnapshot}
    (hd : Decides h lease operation) (ha : Decides h lease attested)
    (hattested : executionAttested attested = true) :
    Silent rt h (u.verifyTarget rt operation lease actor raises) := by
  refine Obeys.bind (keeps_observeTarget operation).attempt fun h₁ answer hh₁ hanswer => ?_
  cases answer with
  | ok observed => exact silent_concludeVerification (hanswer observed rfl) hd ha hattested
  | error e =>
      cases e with
      | service code =>
          have hc : CommitAllowed rt h₁ lease (UseCase.fenced operation
              (Commit.verificationUnavailable actor code (u.isExhausted lease))) := by
            refine .quiet (.inr rfl) rfl
              ⟨lacks_cons _ (by decide) (lacks_nil _), lacks_nil _, rfl, rfl⟩ ?_
            cases hex : u.isExhausted lease
            · exact retryWait_ne
            · exact paused_ne
          dsimp only
          split
          · exact silent_commitAndRaise _ hc
          · exact silent_commitAndReturn _ hc
      | store e => exact .throw _
      | other => exact .throw _

theorem silent_recoverVerification {raises : Bool} (hd : Decides h lease operation)
    (hattested : executionAttested operation = true) :
    Silent rt h (u.recoverVerification rt operation lease actor raises) := by
  unfold UseCase.recoverVerification
  split
  · exact silent_verifyTarget hd hd hattested
  · refine Obeys.bind (keeps_commitRecovery (.verifying operation actor hd hattested rfl))
      fun h₁ r hh₁ hr => ?_
    obtain ⟨row, item⟩ := r
    obtain ⟨hseen, hrow, hid, -⟩ := hr
    have hlease : (⟨item, lease.token⟩ : RecoveryLease).operationId = lease.operationId := hid
    exact silent_verifyTarget ⟨hseen, .inl (hlease.trans hrow.symm)⟩
      ⟨hd.seen.mono hh₁, hlease ▸ hd.names⟩ hattested

theorem silent_verify (c : DigestCommand) : Silent rt h (u.verify rt c) := by
  refine Obeys.bind (silent_operatorActor c.actor) fun h₁ actor _ _ => ?_
  refine Obeys.bind (keeps_requireGuidedUnlock _) fun h₂ operation _ hr => ?_
  refine Obeys.bind (silent_assertPlanDigest operation _) fun h₃ _ hh₃ _ => ?_
  split
  · exact silent_result _ _ _
  split
  · exact .throw _
  rename_i hattested
  split
  · rename_i hstatus
    refine Obeys.bind (keeps_assertActiveLock operation) fun h₄ _ hh₄ _ => ?_
    refine Obeys.bind (keeps_claimRecovery ((hr.1.mono hh₃).mono hh₄) ?_) fun h₅ lease _ hd => ?_
    · rcases hstatus with heq | heq | heq <;> rw [heq] <;> decide
    · exact silent_recoverVerification hd ((Bool.not_eq_false _).mp hattested)
  · exact .throw _

/-! ### Recovery -/

theorem silent_recoverPlanned (hd : Decides h lease operation) (hitem : ItemSeen h lease.item) :
    Silent rt h (u.recoverPlanned rt operation lease) := by
  refine Obeys.bind (keeps_currentLock operation) fun h₁ current hh₁ _ => ?_
  dsimp only
  split
  · exact silent_commitAndReturn _ (.withoutLock operation _ _ _ _ (hd.mono hh₁) rfl)
  split
  · exact silent_bindAndFinalize (hd.mono hh₁) (hitem.mono hh₁)
  · exact silent_commitAndReturn _ blocked_reconcile

theorem silent_recoverWaiting (hd : Decides h lease operation) :
    Silent rt h (u.recoverWaiting rt operation lease) := by
  refine Obeys.bind keeps_clock fun h₁ now hh₁ hnow => ?_
  split
  · refine Obeys.bind (silent_timeUntilExpiry operation) fun h₂ delay _ _ => ?_
    exact silent_commitAndReturn _
      (.quiet (.inl rfl) rfl ⟨lacks_nil _, lacks_nil _, rfl, rfl⟩ retryWait_ne)
  · rename_i hexpired
    have hexpiry : ExpiryRead h₁ operation := by
      refine ⟨now, hnow, ?_⟩
      cases hsome : operation.expiresAt with
      | none => simp [isUnexpired, hsome]
      | some t =>
          rw [hsome] at hexpired
          exact Bool.eq_false_iff.mpr fun htrue => hexpired ⟨rfl, htrue⟩
    refine Obeys.bind (keeps_currentLock operation) fun h₂ current hh₂ _ => ?_
    split
    · exact silent_recoverWaitingExpiry ((hd.mono hh₁).mono hh₂) (hexpiry.mono hh₂)
    · exact silent_commitAndReturn _ (quiet_expiryReconciliation (lacks_nil _))

theorem quiet_pause {status : OperationStatus} {eventType errorCode : Str} :
    CommitAllowed rt h lease
      (UseCase.fenced operation (Commit.pause status eventType errorCode)) :=
  quiet_reconcile (.inl rfl) (lacks_nil _)

theorem silent_recoverAttested (hd : Decides h lease operation) :
    Silent rt h (u.recoverAttested rt operation lease) := by
  unfold UseCase.recoverAttested
  split
  · exact silent_commitAndReturn _ quiet_pause
  rename_i hattested
  split
  · exact silent_commitAndReturn _ quiet_pause
  refine Obeys.bind (keeps_currentLock operation) fun h₁ current hh₁ _ => ?_
  split
  · exact silent_recoverVerification (hd.mono hh₁) ((Bool.not_eq_false _).mp hattested)
  · refine silent_commitAndReturn _ (quiet_reconcile ?_ (lacks_reason _ (lacks_nil _)))
    split
    · exact .inl rfl
    · exact .inr rfl

theorem silent_recover (hitem : ItemSeen h lease.item) :
    Silent rt h (u.recover rt lease) := by
  refine Obeys.bind (keeps_requireGuidedUnlock _) fun h₁ operation hh₁ hr => ?_
  refine Obeys.bind (silent_validateRecoveryLease operation lease) fun h₂ _ hh₂ _ => ?_
  have hd : Decides h₂ lease operation := ⟨hr.1.mono hh₂, .inl hr.2.symm⟩
  split
  · exact silent_recoverPlanned hd ((hitem.mono hh₁).mono hh₂)
  · exact silent_recoverWaiting hd
  · exact silent_recoverAttested hd
  · exact silent_recoverAttested hd
  · exact silent_recoverAttested hd
  · exact silent_commitAndReturn _ quiet_pause

theorem quiet_bindingMismatch :
    CommitAllowed rt h lease (Commit.bindingMismatch operation) := by
  have hnext : (Commit.bindingMismatch operation).nextStatus = none ∨
      (Commit.bindingMismatch operation).nextStatus = some .needsReconciliation := by
    dsimp only [Commit.bindingMismatch]
    split
    · exact .inr rfl
    · exact .inl rfl
  have hplain : Plain (Commit.bindingMismatch operation) :=
    ⟨lacks_cons _ (by decide) (lacks_nil _), lacks_cons _ (by decide) (lacks_nil _), rfl, rfl⟩
  exact .quiet hnext rfl hplain paused_ne

theorem silent_handle (hitem : ItemSeen h lease.item) : Silent rt h (u.handle rt lease) := by
  refine Obeys.bind (silent_recover hitem).attempt fun h₁ answer _ _ => ?_
  cases answer with
  | ok result => exact .pure trivial
  | error e =>
      dsimp only
      split
      · refine Obeys.bind (keeps_getOperation _) fun h₂ found _ _ => ?_
        cases found with
        | none => exact .throw _
        | some operation =>
            exact Obeys.bind (keeps_commit quiet_bindingMismatch) fun _ _ _ _ => .pure trivial
      · exact .throw _

theorem silent_afterFailure {w : Worker} (e : ChangeServices.Failure) :
    Silent rt h (w.afterFailure lease e) := by
  have hstatus : (w.runner.observationFailed lease e).recoveryStatus ≠
      RecoveryStatus.completed.name := by
    unfold ChangeRecovery.Runner.observationFailed
    dsimp only
    split
    · exact paused_ne
    · exact retryWait_ne
  have hplain : Plain (w.runner.observationFailed lease e) :=
    ⟨lacks_nil _, lacks_nil _, rfl, rfl⟩
  have hc : CommitAllowed rt h lease (w.runner.observationFailed lease e) :=
    .quiet (.inl rfl) rfl hplain hstatus
  refine Obeys.bind (keeps_commit hc).attempt fun h₁ answer _ _ => ?_
  split
  · exact .pure trivial
  · exact .pure trivial
  · exact .throw _

theorem silent_runClaimed {w : Worker} (hitem : ItemSeen h lease.item) :
    Silent rt h (w.runClaimed rt lease) := by
  unfold Worker.runClaimed
  split
  · refine Obeys.bind (silent_handle hitem).attempt fun h₁ answer _ _ => ?_
    split
    · exact .pure trivial
    · exact .pure trivial
    · exact silent_afterFailure _
  · exact .throw _

theorem silent_runAll {w : Worker} {leases : List RecoveryLease}
    (hitems : ∀ lease ∈ leases, ItemSeen h lease.item) : Silent rt h (w.runAll rt leases) := by
  induction leases generalizing h with
  | nil => exact .pure trivial
  | cons lease leases ih =>
      rw [List.forall_mem_cons] at hitems
      refine Obeys.bind (silent_runClaimed hitems.1) fun h₁ outcome hh₁ _ => ?_
      refine Obeys.bind (ih fun l hl => (hitems.2 l hl).mono hh₁) fun _ _ _ _ => .pure trivial

theorem silent_runOnce (w : Worker) : Silent rt h (w.runOnce rt) := by
  refine Obeys.bind (Obeys.call (show Allowed rt h (.claimDue ..) from trivial))
    fun h₁ leases _ hl => ?_
  obtain ⟨rfl, -⟩ := hl
  exact silent_runAll fun lease hmem => ⟨_, List.mem_cons_self, .inr ⟨_, _, _, leases, rfl, lease,
    hmem, rfl⟩⟩

theorem keeps_worker_claimItem (w : Worker) (operation : OperationSnapshot) :
    Keeps rt h (w.claimItem operation) fun h' lease => ItemSeen h' lease.item := by
  refine (Obeys.call (show Allowed rt h (.claimOperation ..) from trivial)).mono ?_
  rintro h' lease - ⟨rfl, -⟩
  exact ⟨_, List.mem_cons_self, .inl rfl⟩

theorem silent_observe (w : Worker) (r : ChangeRecovery.Runner.ObserveRequest) :
    Silent rt h (w.observe rt r) := by
  refine Obeys.bind (keeps_getOperation _) fun h₁ found _ _ => ?_
  split
  · exact .throw _
  split
  · refine Obeys.bind (keeps_worker_claimItem w _) fun h₂ lease _ hitem => ?_
    exact Obeys.bind (silent_runClaimed hitem) fun _ _ _ _ => .pure trivial
  split
  · refine Obeys.bind (keeps_worker_claimItem w _) fun h₂ lease _ hitem => ?_
    have hc : ∀ operation, CommitAllowed rt h₂ lease
        (ChangeRecovery.Runner.observationRequested r operation) := fun _ =>
      .quiet (.inl rfl) rfl ⟨lacks_nil _, lacks_cons _ (by decide) (lacks_cons _ (by decide)
        (lacks_cons _ (by decide) (lacks_cons _ (by decide) (lacks_nil _)))), rfl, rfl⟩ leased_ne
    refine Obeys.bind (keeps_commit (hc _)) fun h₃ answer _ hanswer => ?_
    exact Obeys.bind (silent_runClaimed hanswer.2.2.2) fun _ _ _ _ => .pure trivial
  · exact .throw _

/-! ### Every entry -/

theorem follows_asProcess {α : Type} {p : Action α} (hp : Silent rt h p) :
    (asProcess p).Follows Possible (contract rt).allowed (contract rt).ends h :=
  Program.Follows.bind (Program.Follows.mono hp fun _ _ _ => trivial)

/-- Every program of the system follows the contract from its start. -/
theorem follows_contract {p : Program Command Reply Unit} (hp : Entry rt p) :
    p.Follows Possible (contract rt).allowed (contract rt).ends [] := by
  cases hp with
  | plan u c => exact follows_asProcess (silent_planUnlock c)
  | attest c => exact follows_asProcess (silent_attest c)
  | verify u c => exact follows_asProcess (silent_verify c)
  | runOnce w => exact follows_asProcess (silent_runOnce w)
  | observe w r => exact follows_asProcess (silent_observe w r)

end Gjallar.GuidedSystem

import Gjallar.RegistrationSystem

/-!
# Every registration call keeps to the contract

The requests for a plan and for a verification change nothing and are always allowed. Every other
step of a call is allowed after what the call has seen before it.
-/
namespace Gjallar.RegistrationService

open Gjallar.Text Gjallar.Data Gjallar.Operation Gjallar.Registration Gjallar.Transactions
  Gjallar.Interleaving Gjallar.RegistrationStore Gjallar.Planning Gjallar.Processes
  Gjallar.Processes.Fallible

/-! ### Requests for a plan -/

section Free

variable {C : Type} {V : C → Type} {α : Type} {possible : (c : C) → Except Failure (V c) → Prop}
  {allowed : History C (fun c => Except Failure (V c)) → C → Prop} {get : Get C V}

theorem free_lift (x : Except Failure α) :
    Free possible allowed (lift x : Fallible C V Failure α) := by
  cases x with
  | ok a => exact .pure a
  | error e => exact .throw e

theorem free_permissionsAt (hget : ∀ path data, Free possible allowed (get path data))
    (path : Str) : Free possible allowed (permissionsAt get path) :=
  (hget _ _).bind fun _ => (free_lift _).bind fun _ => (free_lift _).bind fun _ => .pure _

theorem free_rolesToCreate (hget : ∀ path data, Free possible allowed (get path data))
    (existing : List Value) (roles : List Role) :
    Free possible allowed (rolesToCreate get existing roles) := by
  induction roles with
  | nil => exact .pure _
  | cons role rest ih =>
      rw [rolesToCreate]
      split
      · exact (hget _ _).bind fun _ => (free_lift _).bind fun _ => (free_lift _).bind fun _ => ih
      · exact ih.bind fun _ => .pure _

theorem free_missingOn (hget : ∀ path data, Free possible allowed (get path data))
    (acls : List Acl) : Free possible allowed (missingOn get acls) := by
  induction acls with
  | nil => exact .pure _
  | cons acl rest ih =>
      exact (free_permissionsAt hget _).bind fun _ => ih.bind fun _ => .pure _

theorem free_missingForRoles (hget : ∀ path data, Free possible allowed (get path data))
    (createRoles : List Role) : Free possible allowed (missingForRoles get createRoles) := by
  rw [missingForRoles]
  split
  · exact .pure _
  · exact (free_permissionsAt hget _).bind fun _ => .pure _

theorem free_buildPlan (hget : ∀ path data, Free possible allowed (get path data))
    (digest : Value → Str) (intent : Intent) (attemptId : Str) (connectionVersion : ℕ) :
    Free possible allowed (buildPlan digest get intent attemptId connectionVersion) :=
  (hget _ _).bind fun _ => (free_lift _).bind fun _ => (free_lift _).bind fun _ =>
    (free_rolesToCreate hget _ _).bind fun _ => (free_missingForRoles hget _).bind fun _ =>
      (free_missingOn hget _).bind fun _ => .pure _

theorem free_lackingOn (hget : ∀ path data, Free possible allowed (get path data))
    (acls : List Acl) : Free possible allowed (lackingOn get acls) := by
  induction acls with
  | nil => exact .pure _
  | cons acl rest ih =>
      exact (free_permissionsAt hget _).bind fun _ => ih.bind fun _ => .pure _

theorem free_readLists (hget : ∀ path data, Free possible allowed (get path data))
    (lists : List (Str × Str)) : Free possible allowed (readLists get lists) := by
  induction lists with
  | nil => exact .pure _
  | cons list rest ih => exact (hget _ _).bind fun _ => (free_lift _).bind fun _ => ih

theorem free_visibleVms (hget : ∀ path data, Free possible allowed (get path data))
    (repr : Value → Str) (s : Scope) (node : Str) (vms : List Dict) :
    Free possible allowed (visibleVms repr get s node vms) := by
  induction vms with
  | nil => exact .pure _
  | cons vm rest ih =>
      refine (free_lift _).bind fun ids => ?_
      dsimp only
      split
      · exact (hget _ _).bind fun _ => (free_lift _).bind fun _ => (free_lift _).bind fun _ =>
          ih.bind fun _ => .pure _
      · exact ih

theorem free_visibleNames (hget : ∀ path data, Free possible allowed (get path data))
    (node resource key : Str) (requested : List Str) :
    Free possible allowed (visibleNames get node resource key requested) := by
  rw [visibleNames]
  split
  · exact .pure _
  · exact (hget _ _).bind fun _ => (free_lift _).bind fun _ => .pure _

theorem free_visibleOn (hget : ∀ path data, Free possible allowed (get path data))
    (repr : Value → Str) (s : Scope) (nodes : List Str) (seen : Visible) :
    Free possible allowed (visibleOn repr get s nodes seen) := by
  induction nodes generalizing seen with
  | nil => exact .pure _
  | cons node rest ih =>
      exact (hget _ _).bind fun _ => (free_lift _).bind fun _ =>
        (free_visibleVms hget _ _ _ _).bind fun _ => (free_visibleNames hget _ _ _ _).bind fun _ =>
          (free_visibleNames hget _ _ _ _).bind fun _ => ih _

theorem free_verifyVisible (hget : ∀ path data, Free possible allowed (get path data))
    (repr : Value → Str) (s : Scope) : Free possible allowed (verifyVisible repr get s) :=
  (free_visibleOn hget _ _ _ _).bind fun _ => (free_lift _).bind fun _ =>
    (free_lift _).bind fun _ => .pure _

theorem free_verifyCluster (hget : ∀ path data, Free possible allowed (get path data))
    (nodes : List Value) : Free possible allowed (verifyCluster get nodes) :=
  (free_lift _).bind fun _ => (free_readLists hget _).bind fun _ => .pure _

theorem free_verifyToken (hget : ∀ path data, Free possible allowed (get path data))
    (repr : Value → Str) (c : Configuration) :
    Free possible allowed (verifyToken repr get c) := by
  refine (free_lackingOn hget _).bind fun _ => (free_lift _).bind fun _ =>
    (hget _ _).bind fun _ => (free_lift _).bind fun _ => (free_lift _).bind fun _ =>
      (free_lift _).bind fun _ => ?_
  cases c.accessMode with
  | cluster => exact free_verifyCluster hget _
  | «scoped» => exact free_verifyVisible hget _ _

end Free

/-! ### Calls -/

section Follows

variable {lib : Library} {site : ℕ → Site} {h h' : Past} {α : Type} {c : Caller} {row : Attempt}

abbrev Obey {α : Type} (h : Past) (p : Prog α) (Q : Past → α → Prop) : Prop :=
  Obeys Possible Allowed h p Q

/-- Allowed after any history. -/
abbrev Always {α : Type} (p : Prog α) : Prop := Free Possible Allowed p

theorem Seen.mono (hseen : Seen row h) (hs : h <:+ h') : Seen row h' := by
  obtain ⟨e, he, hrow⟩ := hseen
  exact ⟨e, hs.subset he, hrow⟩

theorem seen_cons {e : Step} (he : seen e = some row) : Seen row (e :: h) :=
  ⟨e, List.mem_cons_self, he⟩

theorem Staged.mono {tokenId : Str} (hstaged : Staged tokenId h) (hs : h <:+ h') :
    Staged tokenId h' := by
  obtain ⟨site, attemptId, actorId, version, secret, row, hmem⟩ := hstaged
  exact ⟨site, attemptId, actorId, version, secret, row, hs.subset hmem⟩

theorem obey_lift {x : Except Failure α} :
    Obey h (lift x) fun h' a => h' = h ∧ x = .ok a := by
  cases x with
  | ok a => exact Obeys.pure ⟨rfl, rfl⟩
  | error e => exact Obeys.throw e

theorem always_request {r : HttpRequest} (hmethod : r.method = .get) :
    Always (Send.request r) := by
  refine Free.call fun h => ?_
  change RequestAllowed h r
  rw [RequestAllowed, hmethod]
  trivial

theorem always_context (allowChallenge : Bool) : Always (context c allowChallenge) := by
  refine (Free.call fun _ => trivial).bind fun found => ?_
  cases found with
  | none => exact .throw _
  | some ref =>
      exact (Free.call fun _ => trivial).bind fun _ => (Free.call fun _ => trivial).bind fun _ =>
        (free_lift _).bind fun _ => (free_lift _).bind fun _ => .pure _

theorem always_contextRequest (ref : ℕ) (path : Str) (data : Dict) :
    Always (contextRequest ref .get path data) :=
  (Free.call fun _ => trivial).bind fun _ => (Free.call fun _ => trivial).bind fun _ =>
    (free_lift _).bind fun _ => (Free.call fun _ => trivial).bind fun _ =>
      (free_lift _).bind fun _ => always_request rfl

/-- A request of a context is the next request of its process. -/
theorem obey_contextRequest {ref : ℕ} {method : Method} {path : Str} {data : Dict}
    (hallowed : ∀ between transport authority, (∀ x ∈ between, isRequest x = false) →
      RequestAllowed (between ++ h) ⟨transport, authority, method, path, data⟩) :
    Obey h (contextRequest ref method path data) fun _ _ => True := by
  refine Obeys.bind (Obeys.call trivial) fun h₁ ctx _ hload => ?_
  refine Obeys.bind (Obeys.call trivial) fun h₂ now _ hclock => ?_
  refine Obeys.bind obey_lift fun h₃ _ _ hlive => ?_
  refine Obeys.bind (Obeys.call trivial) fun h₄ ctx' _ hload' => ?_
  refine Obeys.bind obey_lift fun h₅ _ _ hticket => ?_
  obtain ⟨rfl, -⟩ := hload
  obtain ⟨rfl, -⟩ := hclock
  obtain ⟨rfl, -⟩ := hlive
  obtain ⟨rfl, -⟩ := hload'
  obtain ⟨rfl, -⟩ := hticket
  refine (Obeys.call ?_).mono fun _ _ _ _ => trivial
  refine hallowed [⟨.load ref, .ok ctx'⟩, ⟨.clock, .ok now⟩, ⟨.load ref, .ok ctx⟩] _ _ ?_
  simp [isRequest]

theorem possible_get {attemptId actorId : Str}
    (hp : Possible (.get attemptId actorId) (.ok row)) : row.attemptId = attemptId := by
  obtain ⟨w, w', hreply | ⟨e, he⟩, -⟩ := hp
  · obtain ⟨hrow, -⟩ := owned_eq_ok hreply.symm
    exact attemptId_of_attempts hrow
  · cases he

theorem obey_current : Obey h (current c) fun h' row =>
    Seen row h' ∧ row.attemptId = c.attemptId := by
  refine Obeys.bind (Obeys.call trivial) fun h₁ row _ hget => ?_
  refine Obeys.bind obey_lift fun h₂ _ hs _ => Obeys.pure ⟨?_, possible_get hget.2⟩
  obtain ⟨rfl, -⟩ := hget
  exact (seen_cons rfl).mono hs

theorem always_intentOf : Always (intentOf c) :=
  (Free.call fun _ => trivial).bind fun _ => .pure _

/-- The reply to an `advance`. -/
theorem possible_advance {s : Site} {attemptId actorId : Str} {version : ℕ}
    {phases : List Phase} {a : Advance}
    (hp : Possible (.transaction (.advance s attemptId actorId version phases a)) (.ok row)) :
    ∃ before : Attempt, before.attemptId = attemptId ∧ row = before.advanced a := by
  obtain ⟨w, w', hexec⟩ := hp
  cases hexec with
  | done hends _ =>
      obtain ⟨before, hadvanced⟩ := advanced_of_ends hends
      exact ⟨before, hadvanced.id, hadvanced.result⟩

/-- An attempt moves from the phase in which it was seen. -/
theorem obey_advance {s : Site} {a : Advance} (hseen : Seen row h)
    (hnext : a.phase ∈ nextPhases row.phase) (hresolved : a.resolved = decide (a.phase ∈ final))
    (hconfirmed : a.phase = .tokenDispatching → ∃ c : Caller, c.attemptId = row.attemptId ∧
      a.planDigest = none ∧ ⟨.receive (.confirm c row.planDigest), .ok ()⟩ ∈ h) :
    Obey h (advance s c row a) fun h' row' =>
      (∃ actorId, h' = ⟨.transaction (.advance s row.attemptId actorId row.version [row.phase] a),
        .ok row'⟩ :: h) ∧ Seen row' h' ∧ row'.phase = a.phase ∧ row'.attemptId = row.attemptId := by
  have hallowed : Allowed h
      (.transaction (.advance s row.attemptId c.actorId row.version [row.phase] a)) :=
    ⟨row, hseen, rfl, rfl, rfl, hnext, hresolved, hconfirmed⟩
  refine (Obeys.call hallowed).mono fun h' row' _ hcall => ?_
  obtain ⟨rfl, hpossible⟩ := hcall
  obtain ⟨before, hid, hrow⟩ := possible_advance hpossible
  refine ⟨⟨_, rfl⟩, seen_cons rfl, ?_, ?_⟩
  · rw [hrow]
    rfl
  · rw [hrow]
    exact hid

/-- A check on the way keeps what is known. -/
theorem after_lift {β : Type} {K : Past → Prop} {x : Except Failure α} {f : α → Prog β}
    (hf : ∀ a, x = .ok a → After Possible Allowed K (f a)) :
    After Possible Allowed K (lift x >>= f) := by
  intro h₀ h hK hs
  refine obey_lift.bind fun h' a hs' ha => ?_
  exact hf a ha.2 h₀ h' hK (hs.trans hs')

theorem after_pure {K : Past → Prop} {a : α} :
    After Possible Allowed K (pure a : Prog α) := fun _ _ _ _ => Obeys.pure trivial

theorem always_status : Always (status c) := by
  refine (Free.call fun _ => trivial).bind fun row => ?_
  have hcontext : Always (Fallible.attempt (context c true)) :=
    fun h => ((always_context true) h).attempt.mono fun _ _ _ _ => trivial
  refine hcontext.bind fun found => ?_
  cases found with
  | ok _ => exact (Free.pure _).bind fun _ => .pure _
  | error e =>
      cases e with
      | setup e => exact (Free.pure _).bind fun _ => .pure _
      | store _ | credentialKey _ | valueError _ | integrity =>
          exact (Free.throw _).bind fun _ => .pure _

theorem always_authentication (result : Value) (owner : Str) (t : Transport) :
    Always (authentication lib result owner c t) :=
  (free_lift _).bind fun _ => (free_lift _).bind fun _ => (free_lift _).bind fun _ =>
    (free_lift _).bind fun _ => (free_lift _).bind fun _ => (free_lift _).bind fun _ =>
      (Free.call fun _ => trivial).bind fun _ => .pure _

theorem authenticated_mem_nextPhases {p : Phase} (h : p ∈ early) :
    Phase.authenticated ∈ nextPhases p ∧ Phase.mfaRequired ∈ nextPhases p ∧
      Phase.cancelled ∈ nextPhases p := by
  revert h
  cases p <;> decide

/-- A ticket may always be asked for. -/
theorem always_ticket (t : Transport) (a : Authority) (data : Dict) :
    Always (Send.request ⟨t, a, .post, "/access/ticket", data⟩) :=
  Free.call fun _ => .inl rfl

theorem always_login (password : Str) (otp : Option Str) :
    Always (login lib site c password otp) := by
  refine fun h => obey_current.next fun row => ?_
  refine (free_lift _).after fun _ => (free_lift _).after fun _ => (free_lift _).after fun _ => ?_
  refine (Free.call fun _ => trivial).after fun _ => always_intentOf.after fun intent => ?_
  refine (free_lift _).after fun _ => (Free.call fun _ => trivial).after fun _ => ?_
  refine (always_ticket _ _ _).after fun _ => (always_authentication _ _ _).after fun ctx => ?_
  refine (Free.call fun _ => trivial).after fun _ => ?_
  split
  · rename_i hearly
    rintro h₀ h ⟨hseen, -⟩ hs
    refine Obeys.next (obey_advance (hseen.mono hs) ?_ ?_ ?_) fun _ => after_pure
    · obtain ⟨hauthenticated, hmfa, -⟩ := authenticated_mem_nextPhases hearly
      cases hchallenge : ctx.challenge with
      | true => exact hmfa
      | false => exact hauthenticated
    · cases hchallenge : ctx.challenge <;> rfl
    · intro hphase
      cases hchallenge : ctx.challenge <;> rw [hchallenge] at hphase <;> cases hphase
  · exact after_pure

theorem always_mfa (otp : Str) : Always (mfa lib site c otp) := by
  refine fun h => obey_current.next fun row => ?_
  refine (Free.call fun _ => trivial).after fun _ => (always_context _).after fun ref => ?_
  refine (Free.call fun _ => trivial).after fun _ => (free_lift _).after fun _ => ?_
  refine always_intentOf.after fun intent => (Free.call fun _ => trivial).after fun _ => ?_
  refine (always_ticket _ _ _).after fun _ => (always_authentication _ _ _).after fun _ => ?_
  refine (free_lift _).after fun _ => (Free.call fun _ => trivial).after fun _ => ?_
  refine (Free.call fun _ => trivial).after fun _ => ?_
  split
  · rename_i hphase
    rintro h₀ h ⟨hseen, -⟩ hs
    refine Obeys.next (obey_advance (hseen.mono hs) ?_ rfl nofun) fun _ => after_pure
    rw [hphase]
    decide
  · exact after_pure

theorem always_plan : Always (plan site c) := by
  refine fun h => obey_current.next fun row => ?_
  refine after_lift fun _ hphase => ?_
  rw [raiseIf_eq_ok, not_not] at hphase
  refine (always_context _).after fun ref => always_intentOf.after fun intent => ?_
  refine (always_contextRequest _ _ _).after fun _ => (free_lift _).after fun _ => ?_
  refine (Free.call fun _ => trivial).after fun _ => (free_lift _).after fun _ => ?_
  refine (Free.call fun _ => trivial).after fun _ => (free_lift _).after fun _ => ?_
  refine (always_contextRequest _ _ _).after fun _ => (free_lift _).after fun _ => ?_
  refine (free_lift _).after fun _ => ?_
  refine (free_buildPlan (always_contextRequest ref) _ _ _ _).after fun plan => ?_
  refine (Free.call fun _ => trivial).after fun _ => ?_
  rintro h₀ h ⟨hseen, -⟩ hs
  have hnext : ∀ p ∈ [Phase.authenticated, .planned], Phase.planned ∈ nextPhases p := by decide
  exact Obeys.next (obey_advance (hseen.mono hs) (hnext _ hphase) rfl nofun) fun _ => after_pure

theorem always_tokens (intent : Intent) (ref : ℕ) : Always (tokens intent ref) :=
  (always_contextRequest _ _ _).bind fun _ => free_lift _

theorem always_verifyRow : Always (verifyRow site c) := by
  refine fun h => obey_current.next fun row => ?_
  refine after_lift fun _ hphase => ?_
  rw [raiseIf_eq_ok, not_not] at hphase
  refine always_intentOf.after fun intent => (Free.call fun _ => trivial).after fun pending => ?_
  obtain ⟨configuration, secret⟩ := pending
  refine (Free.call fun _ => trivial).after fun _ => ?_
  refine (free_verifyToken (fun _ _ => always_request rfl) _ _).after fun observed => ?_
  rintro h₀ h ⟨hseen, -⟩ hs
  have hseen := hseen.mono hs
  dsimp only
  split
  · rename_i hstaged
    have hnext : ∀ p ∈ [Phase.secretStaged, .aclApplying, .aclUnknown],
      Phase.verifying ∈ nextPhases p := by decide
    refine Obeys.next (obey_advance hseen (hnext _ hstaged) rfl nofun) fun row' h₁ h₂ hrow hs' => ?_
    obtain ⟨-, hseen', hphase', -⟩ := hrow
    have hverified : Phase.verified ∈ nextPhases .verifying := by decide
    exact Obeys.next (obey_advance (hseen'.mono hs') (hphase' ▸ hverified) rfl nofun) fun _ =>
      after_pure
  · rename_i hstaged
    have hnext : ∀ p ∈ [Phase.secretStaged, .verifying, .verificationFailed, .aclApplying,
      .aclUnknown, .verified], p ∉ [Phase.secretStaged, .aclApplying, .aclUnknown] →
        Phase.verified ∈ nextPhases p := by decide
    have hsame : Obey h (pure row : Prog Attempt) fun h' row' => Seen row h' ∧ row' = row :=
      Obeys.pure ⟨hseen, rfl⟩
    refine hsame.next fun row' h₁ h₂ hrow hs' => ?_
    obtain ⟨hseen', rfl⟩ := hrow
    exact Obeys.next (obey_advance (hseen'.mono hs') (hnext _ hphase hstaged) rfl nofun) fun _ =>
      after_pure

theorem always_verify : Always (verify site c) :=
  always_verifyRow.bind fun _ => .pure _

theorem always_observe : Always (observe c) := by
  refine fun h => obey_current.next fun row => ?_
  exact (always_context _).after fun _ => always_intentOf.after fun _ =>
    (always_tokens _ _).after fun _ => after_pure

theorem always_activate : Always (activate site c) :=
  always_verifyRow.bind fun _ => (Free.call fun _ => trivial).bind fun _ =>
    (Free.call fun _ => trivial).bind fun _ => .pure _

theorem always_cancel : Always (cancel site c) := by
  refine fun h => obey_current.next fun row => ?_
  refine after_lift fun _ hphase => ?_
  rw [raiseIf_eq_ok, not_not] at hphase
  rintro h₀ h ⟨hseen, -⟩ hs
  have hnext := (authenticated_mem_nextPhases hphase).2.2
  exact Obeys.next (obey_advance (hseen.mono hs) hnext rfl nofun) fun _ =>
    (Free.call fun _ => trivial).after fun _ => after_pure

theorem always_envCredential (intent : Intent) : Always (envCredential lib intent) :=
  (Free.call fun _ => trivial).bind fun _ => (free_lift _).bind fun _ =>
    (free_lift _).bind fun _ => (free_lift _).bind fun _ => .pure _

theorem always_importPlan : Always (importPlan lib site c) := by
  refine fun h => obey_current.next fun row => ?_
  refine always_intentOf.after fun intent => after_lift fun _ hphase => ?_
  rw [raiseIf_eq_ok, not_or, not_not, not_not] at hphase
  refine (always_envCredential _).after fun credential => ?_
  obtain ⟨tokenId, secret⟩ := credential
  rintro h₀ h ⟨hseen, -⟩ hs
  have hnext : ∀ p ∈ [Phase.prepared, .planned], Phase.planned ∈ nextPhases p := by decide
  exact Obeys.next (obey_advance (hseen.mono hs) (hnext _ hphase.2) rfl nofun) fun _ => after_pure

/-- The reply to a stored secret. -/
theorem possible_stageSecret {s : Site} {attemptId actorId : Str} {version : ℕ}
    {secret tokenId : Str}
    (hp : Possible (.transaction (.stageSecret s attemptId actorId version secret tokenId))
      (.ok row)) : row.attemptId = attemptId ∧ row.phase = .secretStaged := by
  obtain ⟨w, w', hexec⟩ := hp
  cases hexec with
  | done hends _ =>
      obtain ⟨u, hrun, -⟩ := hends
      obtain ⟨b, before, credential, -, howns, -, -, -, -, hr⟩ := stageSecret_ok hrun
      rw [hr]
      exact ⟨howns.id, rfl⟩

theorem obey_stageSecret {s : Site} {attemptId actorId : Str} {version : ℕ}
    {secret tokenId : Str} :
    Obey h (Send.stageSecret s attemptId actorId version secret tokenId) fun h' row =>
      Seen row h' ∧ row.phase = .secretStaged ∧ row.attemptId = attemptId ∧ Staged tokenId h' := by
  refine (Obeys.call trivial).mono fun h' row _ hcall => ?_
  obtain ⟨rfl, hpossible⟩ := hcall
  obtain ⟨hid, hphase⟩ := possible_stageSecret hpossible
  exact ⟨seen_cons rfl, hphase, hid, s, attemptId, actorId, version, secret, row,
    List.mem_cons_self⟩

/-- The verification of an imported token. -/
theorem always_importEnv (planDigest : Str) : Always (importEnv lib site c planDigest) := by
  refine fun h => obey_current.next fun row => ?_
  refine always_intentOf.after fun intent => after_lift fun _ hphase => ?_
  rw [raiseIf_eq_ok, not_or, not_or, not_not, not_not] at hphase
  refine (always_envCredential _).after fun credential => ?_
  obtain ⟨tokenId, secret⟩ := credential
  refine (free_lift _).after fun _ => (Free.call fun _ => trivial).after fun _ => ?_
  refine (free_verifyToken (fun _ _ => always_request rfl) _ _).after fun _ => ?_
  rintro h₀ h ⟨hseen, -⟩ hs
  have hseen := hseen.mono hs
  -- the import after its marker
  have hrest : ∀ (h : Past) (row : Attempt), Obey h (do
      let row ← Send.stageSecret (site 2) c.attemptId c.actorId row.version secret tokenId
      let row ← advance (site 3) c row
        { phase := .verifying, operationStatus := some .verifying }
      let row ← advance (site 4) c row { phase := .verified }
      return Answer.attempt row) fun _ _ => True := by
    intro h row
    have hverifying : Phase.verifying ∈ nextPhases .secretStaged := by decide
    have hverified : Phase.verified ∈ nextPhases .verifying := by decide
    refine Obeys.bind obey_stageSecret fun h₁ row₁ _ hrow₁ => ?_
    obtain ⟨hseen₁, hphase₁, -⟩ := hrow₁
    refine Obeys.bind (obey_advance hseen₁ (hphase₁ ▸ hverifying) rfl nofun)
      fun h₂ row₂ _ hrow₂ => ?_
    obtain ⟨-, hseen₂, hphase₂, -⟩ := hrow₂
    exact Obeys.next (obey_advance hseen₂ (hphase₂ ▸ hverified) rfl nofun) fun _ => after_pure
  dsimp only
  split
  · rename_i hplanned
    have hnext : Phase.importStaging ∈ nextPhases .planned := by decide
    exact Obeys.bind (obey_advance hseen (hplanned ▸ hnext) rfl nofun) fun h' row' _ _ =>
      hrest h' row'
  · exact Obeys.bind ((Free.pure row) h) fun h' row' _ _ => hrest h' row'

/-! ### Issue and revocation -/

theorem dropWhile_append {p : Char → Bool} {xs ys : Str} (h : ∀ c ∈ xs, p c = true) :
    (xs ++ ys).dropWhile p = ys.dropWhile p := by
  induction xs with
  | nil => rfl
  | cons x xs ih =>
      rw [List.forall_mem_cons] at h
      rw [List.cons_append, List.dropWhile_cons_of_pos h.1, ih h.2]

theorem upperHexDigit_ne_slash {n : ℕ} (hn : n < 16) : upperHexDigit n ≠ '/' := by
  have hall : ∀ n < 16, upperHexDigit n ≠ '/' := by decide
  exact hall n hn

/-- A quoted text has no slash. -/
theorem quote_ne_slash {s : Str} : ∀ x ∈ quote s, x ≠ '/' := by
  intro x hx
  obtain ⟨c, -, hx⟩ := List.mem_flatMap.mp hx
  split at hx
  · rename_i hplain
    rw [List.mem_singleton] at hx
    rintro rfl
    rw [← hx] at hplain
    exact absurd hplain (by decide)
  · obtain ⟨b, -, hx⟩ := List.mem_flatMap.mp hx
    have hb := b.toNat_lt
    simp only [List.mem_cons, List.not_mem_nil, or_false] at hx
    rcases hx with rfl | rfl | rfl
    · decide
    · exact upperHexDigit_ne_slash (by omega)
    · exact upperHexDigit_ne_slash (by omega)

theorem tokenSegment_eq :
    ("/token/gjallar-" : Str) = ("/token" : Str) ++ (("/" : Str) ++ ("gjallar-" : Str)) := by
  decide +kernel

theorem append_regroup (a b c d e f : Str) :
    a ++ b ++ c ++ d ++ (e ++ f) = a ++ (b ++ (c ++ (d ++ e) ++ f)) := by
  simp only [List.append_assoc]

/-- The path of a token names its attempt. -/
theorem tokenOf_tokenPath (owner attemptId : Str) :
    tokenOf (tokenPath owner attemptId) = some attemptId := by
  let users : Str := "/access/users/"
  let token : Str := "/token/gjallar-"
  have hpath : tokenPath owner attemptId = users ++ (quote owner ++ (token ++ attemptId)) := by
    have htoken : token = ("/token" : Str) ++ (("/" : Str) ++ ("gjallar-" : Str)) := tokenSegment_eq
    rw [htoken]
    exact append_regroup _ _ _ _ _ _
  have hslash : ∀ c ∈ quote owner, decide (c ≠ '/') = true :=
    fun c hc => decide_eq_true (quote_ne_slash c hc)
  have hrest : (quote owner ++ (token ++ attemptId)).dropWhile (fun c => decide (c ≠ '/')) =
      token ++ attemptId := by
    rw [dropWhile_append hslash]
    rfl
  have hstarts : ∀ xs ys : Str, xs.isPrefixOf (xs ++ ys) = true :=
    fun xs ys => List.isPrefixOf_iff_prefix.mpr (List.prefix_append xs ys)
  change (if users.isPrefixOf (tokenPath owner attemptId) = true then
    if token.isPrefixOf (((tokenPath owner attemptId).drop users.length).dropWhile
        fun c => decide (c ≠ '/')) = true then
      some ((((tokenPath owner attemptId).drop users.length).dropWhile
        fun c => decide (c ≠ '/')).drop token.length)
    else none else none) = some attemptId
  rw [hpath, if_pos (hstarts _ _), List.drop_left, hrest, if_pos (hstarts _ _), List.drop_left]

theorem obey_postRoles {tokenId : Str} (ref : ℕ) (roles : List Role) (hstaged : Staged tokenId h) :
    Obey h (postRoles ref roles) fun _ _ => True := by
  induction roles generalizing h with
  | nil => exact Obeys.pure trivial
  | cons role rest ih =>
      have hpost : Obey h (contextRequest ref .post "/access/roles"
          [("roleid", .str role.name), ("privs", .str (join " " role.privilegeNames))])
          fun _ _ => True :=
        obey_contextRequest fun between _ _ _ => .inr (.inl ⟨rfl, tokenId,
          hstaged.mono (List.suffix_append between h)⟩)
      exact hpost.bind fun h' _ hs _ => ih (hstaged.mono hs)

theorem obey_putAcls {tokenId : Str} (ref : ℕ) (acls : List Acl) (hstaged : Staged tokenId h) :
    Obey h (putAcls ref tokenId acls) fun _ _ => True := by
  induction acls generalizing h with
  | nil => exact Obeys.pure trivial
  | cons acl rest ih =>
      have hput : Obey h (contextRequest ref .put "/access/acl"
          [("path", .str acl.path), ("roles", .str acl.role.name), ("propagate", .int 1),
            ("tokens", .str tokenId)]) fun _ _ => True :=
        obey_contextRequest fun between _ _ _ => ⟨rfl, tokenId, rfl,
          hstaged.mono (List.suffix_append between h)⟩
      exact hput.bind fun h' _ hs _ => ih (hstaged.mono hs)

/-- Before the marker the attempt was seen with the plan that is confirmed. -/
theorem obey_confirmChecks (planDigest : Str) :
    Obey h (confirmChecks site c planDigest) fun h' checked => Seen checked.1 h' ∧
      checked.1.attemptId = c.attemptId ∧ checked.1.phase = .planned ∧
      checked.1.planDigest = planDigest := by
  refine Obeys.bind obey_current fun h₁ row _ hrow => ?_
  obtain ⟨hseen, hid⟩ := hrow
  refine Obeys.bind obey_lift fun h₂ _ hs₂ hphase => ?_
  obtain ⟨-, hphase⟩ := hphase
  rw [raiseIf_eq_ok, not_not] at hphase
  refine Obeys.bind (always_context false h₂) fun h₃ ref hs₃ _ => ?_
  refine Obeys.bind ((Free.call fun _ => trivial) h₃) fun h₄ ctx hs₄ _ => ?_
  refine Obeys.bind obey_lift fun h₅ plan hs₅ _ => ?_
  refine Obeys.bind obey_lift fun h₆ _ hs₆ hdigest => ?_
  obtain ⟨-, hdigest⟩ := hdigest
  rw [raiseIf_eq_ok, not_or, not_or, not_or, not_not, not_not] at hdigest
  refine Obeys.bind (always_intentOf h₆) fun h₇ intent hs₇ _ => ?_
  refine Obeys.bind (free_buildPlan (always_contextRequest ref) _ _ _ _ h₇) fun h₈ _ hs₈ _ => ?_
  refine Obeys.bind obey_lift fun h₉ _ hs₉ _ => ?_
  refine Obeys.bind ((Free.call fun _ => trivial) h₉) fun h₁₀ _ hs₁₀ _ => ?_
  refine Obeys.bind obey_lift fun h₁₁ _ hs₁₁ _ => ?_
  refine Obeys.bind (always_tokens intent ref h₁₁) fun h₁₂ rows hs₁₂ _ => ?_
  refine Obeys.bind obey_lift fun h₁₃ _ hs₁₃ _ => ?_
  have hsuffix := ((((((((((hs₂.trans hs₃).trans hs₄).trans hs₅).trans hs₆).trans hs₇).trans
    hs₈).trans hs₉).trans hs₁₀).trans hs₁₁).trans hs₁₂).trans hs₁₃
  exact Obeys.pure ⟨hseen.mono hsuffix, hid, hphase, hdigest.2.2.2⟩

/-- A confirmed attempt is marked, its token is requested, and roles and grants follow the stored
secret. -/
theorem obey_confirm {planDigest : Str}
    (hreceived : ⟨.receive (.confirm c planDigest), .ok ()⟩ ∈ h) :
    Obey h (confirm site c planDigest) fun _ _ => True := by
  refine Obeys.bind (obey_confirmChecks planDigest) fun h₁ checked hs₁ hchecked => ?_
  obtain ⟨row, ref, plan, intent⟩ := checked
  dsimp only at hchecked
  obtain ⟨hseen, hid, hphase, hdigest⟩ := hchecked
  have hnext : Phase.tokenDispatching ∈ nextPhases .planned := by decide
  have hconfirmed : ⟨.receive (.confirm c row.planDigest), .ok ()⟩ ∈ h₁ :=
    hs₁.subset (hdigest.symm ▸ hreceived)
  refine Obeys.bind (obey_advance hseen (hphase ▸ hnext) rfl
    fun _ => ⟨c, hid.symm, rfl, hconfirmed⟩) fun h₂ marked _ hmarked => ?_
  obtain ⟨⟨actorId, rfl⟩, -⟩ := hmarked
  -- no request is sent between the marker and the request of the token
  refine Obeys.bind (obey_contextRequest fun between _ _ hbetween => .inr (.inr
    ⟨c.attemptId, tokenOf_tokenPath _ _, between, _, _, rfl, ?_, hbetween⟩)) fun h₃ result _ _ => ?_
  · change (decide (row.attemptId = c.attemptId) && true) = true
    rw [decide_eq_true hid]
    rfl
  refine Obeys.bind obey_lift fun h₄ secret _ _ => ?_
  refine Obeys.bind obey_stageSecret fun h₅ staged _ hstaged => ?_
  obtain ⟨hseen₅, hphase₅, -, hsecret⟩ := hstaged
  have happlying : Phase.aclApplying ∈ nextPhases .secretStaged := by decide
  refine Obeys.bind (obey_advance hseen₅ (hphase₅ ▸ happlying) rfl nofun)
    fun h₆ applying hs₆ hrow => ?_
  obtain ⟨-, hseen₆, hphase₆, -⟩ := hrow
  refine Obeys.bind (obey_postRoles ref _ (hsecret.mono hs₆)) fun h₇ _ hs₇ _ => ?_
  refine Obeys.bind (obey_putAcls ref _ (hsecret.mono (hs₆.trans hs₇))) fun h₈ _ hs₈ _ => ?_
  have hverifying : Phase.verifying ∈ nextPhases .aclApplying := by decide
  refine Obeys.bind (obey_advance (hseen₆.mono (hs₇.trans hs₈)) (hphase₆ ▸ hverifying) rfl nofun)
    fun h₉ verifying _ _ => ?_
  exact Obeys.bind (always_verifyRow h₉) fun h₁₀ verified _ _ => Obeys.pure trivial

/-- A revocation is marked, and its token is deleted in the next request. -/
theorem always_revoke (tokenId : Str) : Always (revoke site c tokenId) := by
  refine fun h => obey_current.next fun row => ?_
  refine (always_context _).after fun ref => always_intentOf.after fun intent => ?_
  refine (free_lift _).after fun _ => (always_tokens _ _).after fun rows => ?_
  dsimp only
  split
  · exact (free_lift _).after fun _ => (Free.call fun _ => trivial).after fun _ => after_pure
  · refine (free_lift _).after fun _ h₀ h₁ _ _ => ?_
    refine Obeys.bind (Obeys.call trivial) fun h₂ begun _ hbegun => ?_
    obtain ⟨rfl, -⟩ := hbegun
    have hdelete : Obey (⟨.transaction (.beginRevoke (site 0) c.attemptId c.actorId row.version),
        .ok begun⟩ :: h₁) (contextRequest ref .delete (tokenPath intent.owner c.attemptId) [])
        fun _ _ => True :=
      obey_contextRequest fun between _ _ hbetween => ⟨c.attemptId, tokenOf_tokenPath _ _, between,
        _, _, rfl, decide_eq_true rfl, hbetween⟩
    refine hdelete.bind fun h₃ _ _ _ => Obeys.bind (always_tokens _ _ h₃) fun h₄ rows _ _ => ?_
    refine Obeys.bind obey_lift fun h₅ _ _ _ => ?_
    refine Obeys.bind ((Free.call fun _ => trivial) h₅) fun h₆ result _ _ => ?_
    exact Obeys.bind ((Free.call fun _ => trivial) h₆) fun h₇ _ _ _ => Obeys.pure trivial

theorem follows_programOf (call : Call) :
    (programOf lib site call).run.Follows Possible Allowed contract.ends [] := by
  have hobeys : Obey [] (programOf lib site call) fun _ _ => True := by
    refine Obeys.bind (Obeys.call rfl) fun h answer _ hreceive => ?_
    obtain ⟨rfl, -⟩ := hreceive
    cases call with
    | prepare q => exact Obeys.bind ((Free.call fun _ => trivial) _) fun _ _ _ _ => .pure trivial
    | status c => exact always_status _
    | login c password otp => exact always_login password otp _
    | mfa c otp => exact always_mfa otp _
    | plan c => exact always_plan _
    | confirm c planDigest => exact obey_confirm List.mem_cons_self
    | verify c => exact always_verify _
    | observe c => exact always_observe _
    | activate c => exact always_activate _
    | cancel c => exact always_cancel _
    | revoke c tokenId => exact always_revoke tokenId _
    | importPlan c => exact always_importPlan _
    | importEnv c planDigest => exact always_importEnv planDigest _
    | invalidateSession sessionId =>
        exact Obeys.bind ((Free.call fun _ => trivial) _) fun _ _ _ _ => .pure trivial
  exact Program.Follows.mono hobeys fun _ _ _ => trivial

theorem follows_of_entry {p : Program Command (fun c => Except Failure (Reply c))
    (Except Failure Answer)} (hp : (system lib).entry p) :
    p.Follows (system lib).possible contract.allowed contract.ends [] := by
  obtain ⟨site, call, rfl⟩ := hp
  exact follows_programOf call

end Follows

end Gjallar.RegistrationService

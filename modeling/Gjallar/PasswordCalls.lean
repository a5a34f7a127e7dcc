import Gjallar.AccountRuns

/-!
# Logins, password resets and password changes

Any number of concurrent `login`, `reset_password`, `change_own_password`, `disable_user` and
`actor_for_session_token` calls, and what each keeps to. A reset and the disabling of a user revoke
every session their statement sees; a change of the own password spares one.
-/
namespace Gjallar.PasswordReset

open Gjallar.Text Gjallar.Operation Gjallar.ReadCommitted Gjallar.Processes
  Gjallar.Processes.Fallible Gjallar.Accounts

inductive Entry (pw : Passwords) (tokens : Tokens) : Process → Prop
  | login (username password : Str) :
      Entry pw tokens (asProcess .issued (login pw tokens username password))
  | resetPassword (username password : Str) :
      Entry pw tokens (asProcess .operation (resetPassword pw username password))
  | changeOwnPassword (actor : AuthenticatedUser) (currentPassword newPassword : Str)
      (currentSessionId : Option Str) :
      Entry pw tokens (asProcess .operation
        (changeOwnPassword pw actor currentPassword newPassword currentSessionId))
  | disableUser (username : Str) : Entry pw tokens (asProcess .operation (disableUser username))
  | actorForSessionToken (token : Str) :
      Entry pw tokens (asProcess .actor (actorForSessionToken tokens token))

/-! ### What an event says -/

abbrev AccountEvent := Event Command fun c => Except AuthError (Reply c)

def asked : AccountEvent → Option Request
  | ⟨.receive r, _⟩ => some r
  | _ => none

def readClock : AccountEvent → Option Instant
  | ⟨.now, .ok n⟩ => some n
  | _ => none

/-- The user that was loaded by name. -/
def loaded : AccountEvent → Option UserRecord
  | ⟨.userNamed _ _, .ok (some row)⟩ => some row
  | _ => none

def loadedById : AccountEvent → Option UserRecord
  | ⟨.userWithId _ _, .ok (some row)⟩ => some row
  | _ => none

/-- The transaction that has selected sessions for a revocation, and their identifiers. -/
def scanned : AccountEvent → Option (ℕ × Revocation × List Str)
  | ⟨.scanSessions t r, .ok ids⟩ => some (t, r, ids)
  | _ => none

/-- The transaction that has revoked a session, unless it was not selected any more. -/
def revoked : AccountEvent → Option (ℕ × Revocation × Str)
  | ⟨.revokeSession t r id, .ok _⟩ => some (t, r, id)
  | _ => none

/-- The transaction that has added a session. -/
def inserted : AccountEvent → Option (ℕ × SessionRecord)
  | ⟨.insertSession t row, .ok _⟩ => some (t, row)
  | _ => none

def committed : AccountEvent → Option ℕ
  | ⟨.commit t, .ok _⟩ => some t
  | _ => none

/-- The session that was found by its token. -/
def found : AccountEvent → Option SessionRecord
  | ⟨.sessionWithHash _ _, .ok (some row)⟩ => some row
  | _ => none

section Inversion

variable {e : AccountEvent} {t : ℕ}

theorem eq_of_asked {r : Request} (h : asked e = some r) : e.command = .receive r := by
  unfold asked at h
  split at h
  · cases h
    rfl
  · cases h

theorem eq_of_readClock {n : Instant} (h : readClock e = some n) : e = ⟨.now, .ok n⟩ := by
  unfold readClock at h
  split at h
  · cases h
    rfl
  · cases h

theorem eq_of_scanned {r : Revocation} {ids : List Str} (h : scanned e = some (t, r, ids)) :
    e = ⟨.scanSessions t r, .ok ids⟩ := by
  unfold scanned at h
  split at h
  · cases h
    rfl
  · cases h

theorem eq_of_revoked {r : Revocation} {id : Str} (h : revoked e = some (t, r, id)) :
    ∃ b, e = ⟨.revokeSession t r id, .ok b⟩ := by
  unfold revoked at h
  split at h
  · cases h
    exact ⟨_, rfl⟩
  · cases h

theorem eq_of_inserted {row : SessionRecord} (h : inserted e = some (t, row)) :
    e = ⟨.insertSession t row, .ok ()⟩ := by
  unfold inserted at h
  split at h
  · cases h
    rfl
  · cases h

theorem eq_of_committed (h : committed e = some t) : e = ⟨.commit t, .ok ()⟩ := by
  unfold committed at h
  split at h
  · cases h
    rfl
  · cases h

theorem eq_of_found {row : SessionRecord} (h : found e = some row) :
    ∃ t hash, e = ⟨.sessionWithHash t hash, .ok (some row)⟩ := by
  unfold found at h
  split at h
  · cases h
    exact ⟨_, _, rfl⟩
  · cases h

end Inversion

/-- Is a request one after which no earlier session may remain? -/
def closes : Request → Bool
  | .resetPassword .. | .disableUser _ => true
  | _ => false

/-! ### The contract -/

/-- The call resets a password or disables a user. -/
def Closing (h : Past) : Prop := ∃ e ∈ h, (asked e).any closes = true

/-- The call resets the password of the user, or changes it and has verified this hash of it. -/
def Authorises (pw : Passwords) (h : Past) (userId passwordHash : Str) : Prop :=
  (∃ e ∈ h, ∃ f ∈ h, (∃ username password, asked e = some (.resetPassword username password)) ∧
    ∃ row ∈ loaded f, row.userId = userId) ∨
  ∃ e ∈ h, ∃ f ∈ h, ∃ actor current new sessionId,
    asked e = some (.changeOwnPassword actor current new sessionId) ∧
    pw.verify current passwordHash = true ∧
    ∃ row ∈ loadedById f, row.userId = userId ∧ row.passwordHash = passwordHash

/-- The call has revoked all the sessions it has selected, of the user it has loaded. -/
def Swept (h : Past) (t : ℕ) : Prop :=
  ∃ e ∈ h, ∃ r ids, scanned e = some (t, r, ids) ∧ r.spared = none ∧
    (∀ id ∈ ids, ∃ f ∈ h, revoked f = some (t, r, id)) ∧
    ∀ f ∈ h, ∀ row ∈ loaded f, row.userId = r.userId

def Allowed (pw : Passwords) (h : Past) (c : Command) : Prop :=
  (∀ t ∈ c.txn, Began h t) ∧
    match c with
    | .receive _ => h = []
    | .now => ∀ e ∈ h, found e = none
    | .updateUser _ id changes => changes.passwordHash.isSome = true →
        ∃ passwordHash, Authorises pw h id passwordHash
    | .insertUser .. => False
    | .scanSessions _ r => (∀ e ∈ h, scanned e = none) ∧
        (∃ e ∈ h, readClock e = some r.revokedAt) ∧ (Closing h →
          r.spared = none ∧ ∀ e ∈ h, ∀ row ∈ loaded e, row.userId = r.userId)
    | .insertSession .. => ¬ Closing h
    | .commit t => Closing h → Swept h t
    | _ => True

/-- A session that was accepted was neither revoked nor expired. -/
def Ends (h : Past) (r : Outcome) : Prop := ∀ actor, r = .ok (.actor (some actor)) →
  ∀ e ∈ h, ∀ f ∈ h, ∀ row ∈ found e, ∀ now ∈ readClock f,
    row.revokedAt = none ∧ now < row.expiresAt

def contract (pw : Passwords) : Contract Command (fun c => Except AuthError (Reply c)) Outcome :=
  ⟨Allowed pw, Ends⟩

section Programs

variable {pw : Passwords} {tokens : Tokens} {h : Past} {t : ℕ} {α : Type}

abbrev Keeps (pw : Passwords) (h : Past) (p : Prog α) (Q : Past → α → Prop) : Prop :=
  Obeys (fun _ _ => True) (Allowed pw) h p Q

theorem keeps_call {c : Command} (hc : Allowed pw h c) :
    Keeps pw h (call c) fun h' a => h' = ⟨c, .ok a⟩ :: h :=
  (Obeys.call hc).mono fun _ _ _ hq => hq.1

theorem began_of_none {c : Command} (hc : c.txn = none) : ∀ t ∈ c.txn, Began h t := by
  intro t ht
  rw [hc] at ht
  cases ht

theorem keeps_lift (x : Except AuthError α) :
    Keeps pw h (lift x) fun h' a => h' = h ∧ x = .ok a := by
  cases x with
  | ok a => exact Obeys.pure ⟨rfl, rfl⟩
  | error e => exact Obeys.throw e

/-! ### Events that say nothing of the request, the user, a token or a selection -/

structure Mute (e : AccountEvent) : Prop where
  asked : asked e = none
  loaded : loaded e = none
  found : found e = none
  scanned : scanned e = none

/-- The history has grown by such events. -/
def Mutely (h h' : Past) : Prop := ∃ new, h' = new ++ h ∧ ∀ e ∈ new, Mute e

theorem Mutely.refl (h : Past) : Mutely h h := ⟨[], rfl, fun _ he => absurd he List.not_mem_nil⟩

theorem Mutely.cons (h : Past) {e : AccountEvent} (he : Mute e) : Mutely h (e :: h) :=
  ⟨[e], rfl, fun _ hf => List.mem_singleton.mp hf ▸ he⟩

theorem Mutely.trans {h h' h'' : Past} (h₁ : Mutely h h') (h₂ : Mutely h' h'') : Mutely h h'' := by
  obtain ⟨new, rfl, hnew⟩ := h₁
  obtain ⟨new', rfl, hnew'⟩ := h₂
  refine ⟨new' ++ new, (List.append_assoc new' new h).symm, fun e he => ?_⟩
  exact (List.mem_append.mp he).elim (hnew' e) (hnew e)

theorem Mutely.subset {h' : Past} (hm : Mutely h h') : h ⊆ h' := by
  obtain ⟨new, rfl, -⟩ := hm
  exact List.subset_append_right new h

theorem Mutely.began {h' : Past} (hm : Mutely h h') (hb : Began h t) : Began h' t := hm.subset hb

/-- What holds of every event that is not mute. -/
theorem Mutely.forall {h' : Past} (hm : Mutely h h') {P : AccountEvent → Prop}
    (hP : ∀ e ∈ h, P e) (hmute : ∀ e, Mute e → P e) : ∀ e ∈ h', P e := by
  obtain ⟨new, rfl, hnew⟩ := hm
  intro e he
  exact (List.mem_append.mp he).elim (fun he => hmute e (hnew e he)) (hP e)

theorem keeps_mute {c : Command} (hc : Allowed pw h c)
    (hmute : ∀ r : Reply c, Mute ⟨c, .ok r⟩) :
    Keeps pw h (call c) fun h' a => Mutely h h' ∧ h' = ⟨c, .ok a⟩ :: h := by
  refine (keeps_call hc).mono ?_
  rintro _ a - rfl
  exact ⟨Mutely.cons h (hmute a), rfl⟩

theorem keeps_lockAdmins (ids : List Str) (hb : Began h t) :
    Keeps pw h (lockAdmins t ids) fun h' _ => Mutely h h' := by
  induction ids generalizing h with
  | nil =>
      refine (keeps_mute ⟨began_txn hb rfl, trivial⟩ fun _ => ⟨rfl, rfl, rfl, rfl⟩).mono ?_
      exact fun _ _ _ hq => hq.1
  | cons id ids ih =>
      refine (keeps_mute ⟨began_txn hb rfl, trivial⟩ fun _ => ⟨rfl, rfl, rfl, rfl⟩).bind ?_
      rintro h₁ ⟨⟩ - ⟨hm, -⟩
      exact (ih (hm.began hb)).mono fun _ _ _ hm' => hm.trans hm'

theorem keeps_guard (hb : Began h t) :
    Keeps pw h (serializeEnabledAdminGuard t) fun h' _ => Mutely h h' := by
  refine (keeps_mute ⟨began_txn hb rfl, trivial⟩ fun _ => ⟨rfl, rfl, rfl, rfl⟩).bind ?_
  rintro h₁ ids - ⟨hm, -⟩
  exact (keeps_lockAdmins ids (hm.began hb)).mono fun _ _ _ hm' => hm.trans hm'

theorem keeps_ensureNotLast {row : UserRecord} (action : Str) (hb : Began h t) :
    Keeps pw h (ensureNotLastEnabledAdmin t row action) fun h' _ => Mutely h h' := by
  unfold ensureNotLastEnabledAdmin
  split
  · refine (keeps_mute ⟨began_txn hb rfl, trivial⟩ fun _ => ⟨rfl, rfl, rfl, rfl⟩).bind ?_
    rintro h₁ n - ⟨hm, -⟩
    split
    · exact Obeys.throw _
    · exact Obeys.pure hm
  · exact Obeys.pure (Mutely.refl h)

theorem keeps_flush {old row : UserRecord} (hb : Began h t)
    (hauthorises : old.passwordHash ≠ row.passwordHash →
      ∃ passwordHash, Authorises pw h old.userId passwordHash) :
    Keeps pw h (flush t old row) fun h' _ => Mutely h h' := by
  unfold flush
  split
  · exact Obeys.pure (Mutely.refl h)
  · have hallowed : Allowed pw h (.updateUser t old.userId (.between old row)) := by
      refine ⟨began_txn hb rfl, fun hsome => hauthorises ?_⟩
      obtain ⟨_, hchanged⟩ := Option.isSome_iff_exists.mp hsome
      exact (changed_eq_some.mp hchanged).1
    exact (keeps_mute hallowed fun _ => ⟨rfl, rfl, rfl, rfl⟩).mono fun _ _ _ hq => hq.1

theorem keeps_revokeSessions (r : Revocation) (ids : List Str) (hb : Began h t) :
    Keeps pw h (revokeSessions t r ids) fun h' _ => Mutely h h' ∧
      ∀ id ∈ ids, ∃ e ∈ h', revoked e = some (t, r, id) := by
  induction ids generalizing h with
  | nil => exact Obeys.pure ⟨Mutely.refl h, fun _ hid => absurd hid List.not_mem_nil⟩
  | cons id ids ih =>
      refine (keeps_mute ⟨began_txn hb rfl, trivial⟩ fun _ => ⟨rfl, rfl, rfl, rfl⟩).bind ?_
      rintro _ b - ⟨hm, rfl⟩
      refine (ih (hm.began hb)).bind ?_
      rintro h₂ n - ⟨hm', hids⟩
      refine Obeys.pure ⟨hm.trans hm', List.forall_mem_cons.mpr ⟨?_, hids⟩⟩
      exact ⟨_, hm'.subset List.mem_cons_self, rfl⟩

theorem keeps_revokeActive {r : Revocation} (hb : Began h t)
    (hallowed : Allowed pw h (.scanSessions t r)) :
    Keeps pw h (revokeActiveSessions t r) fun h' _ => ∃ ids,
      Mutely (⟨.scanSessions t r, .ok ids⟩ :: h) h' ∧
        ∀ id ∈ ids, ∃ f ∈ h', revoked f = some (t, r, id) := by
  refine (keeps_call hallowed).bind ?_
  rintro _ ids - rfl
  refine (keeps_revokeSessions r ids (List.mem_cons_of_mem _ hb)).mono ?_
  exact fun h' _ _ hq => ⟨ids, hq⟩

/-- No user has been loaded yet and no session selected. -/
structure Unloaded (h : Past) : Prop where
  loaded : ∀ e ∈ h, loaded e = none
  scanned : ∀ e ∈ h, scanned e = none

/-- The user is updated and the sessions are revoked. -/
theorem keeps_sweep {old row : UserRecord} {now : Instant} {f : ℕ → α} (hb : Began h t)
    (hauthorises : old.passwordHash ≠ row.passwordHash →
      ∃ passwordHash, Authorises pw h old.userId passwordHash)
    (hnow : ∃ e ∈ h, readClock e = some now)
    (hloaded : ∀ e ∈ h, ∀ row ∈ loaded e, row.userId = old.userId)
    (hscanned : ∀ e ∈ h, scanned e = none) :
    Keeps pw h (do
      flush t old row
      let n ← revokeActiveSessions t ⟨old.userId, now, none⟩
      return f n) fun h' _ => Swept h' t := by
  refine (keeps_flush hb hauthorises).bind ?_
  rintro h₁ ⟨⟩ - hm₁
  have hloaded₁ : ∀ e ∈ h₁, ∀ row ∈ loaded e, row.userId = old.userId :=
    hm₁.forall hloaded fun e he row hrow => by rw [he.loaded] at hrow; cases hrow
  have hscanned₁ : ∀ e ∈ h₁, scanned e = none := hm₁.forall hscanned fun _ hmute => hmute.scanned
  obtain ⟨e, he, hread⟩ := hnow
  refine (keeps_revokeActive (hm₁.began hb) ⟨began_txn (hm₁.began hb) rfl, hscanned₁,
    ⟨e, hm₁.subset he, hread⟩, fun _ => ⟨rfl, hloaded₁⟩⟩).bind ?_
  rintro h₂ n - ⟨ids, hm₂, hids⟩
  refine Obeys.pure ⟨_, hm₂.subset List.mem_cons_self, _, ids, rfl, rfl, hids, ?_⟩
  refine hm₂.forall (List.forall_mem_cons.mpr ⟨fun row hrow => ?_, hloaded₁⟩) ?_
  · cases hrow
  · exact fun e he row hrow => by rw [he.loaded] at hrow; cases hrow

theorem keeps_getUserOrRaise (username : Str) (hb : Began h t) :
    Keeps pw h (getUserOrRaise t username) fun h' row =>
      ∃ name, h' = ⟨.userNamed t name, .ok (some row)⟩ :: h := by
  refine (keeps_lift _).bind ?_
  rintro _ name - ⟨rfl, -⟩
  refine (keeps_call ⟨began_txn hb rfl, trivial⟩).bind ?_
  rintro _ found - rfl
  cases found with
  | none => exact Obeys.throw _
  | some row => exact Obeys.pure ⟨name, rfl⟩

theorem keeps_reset {username passwordHash : Str} {now : Instant} (hb : Began h t)
    (hunloaded : Unloaded h) (hnow : ∃ e ∈ h, readClock e = some now)
    (hasked : ∃ e ∈ h, ∃ username password, asked e = some (.resetPassword username password)) :
    Keeps pw h (reset username passwordHash now t) fun h' _ => Swept h' t := by
  refine (keeps_getUserOrRaise username hb).bind ?_
  rintro _ row - ⟨name, rfl⟩
  obtain ⟨e, he, hread⟩ := hnow
  obtain ⟨f, hf, hrequest⟩ := hasked
  refine keeps_sweep (List.mem_cons_of_mem _ hb) (fun _ => ⟨[], .inl ?_⟩)
    ⟨e, List.mem_cons_of_mem _ he, hread⟩ ?_ (List.forall_mem_cons.mpr ⟨rfl, hunloaded.scanned⟩)
  · exact ⟨f, List.mem_cons_of_mem _ hf, _, List.mem_cons_self, hrequest, row, rfl, rfl⟩
  · refine List.forall_mem_cons.mpr ⟨fun v hv => ?_, fun g hg v hv => ?_⟩
    · cases hv
      rfl
    · rw [hunloaded.loaded g hg] at hv
      cases hv

theorem keeps_disable {username : Str} {now : Instant} (hb : Began h t) (hunloaded : Unloaded h)
    (hnow : ∃ e ∈ h, readClock e = some now) :
    Keeps pw h (disable username now t) fun h' _ => Swept h' t := by
  refine (keeps_guard hb).bind ?_
  rintro h₁ ⟨⟩ - hm₁
  refine (keeps_getUserOrRaise username (hm₁.began hb)).bind ?_
  rintro _ row - ⟨name, rfl⟩
  refine (keeps_ensureNotLast "disable" (List.mem_cons_of_mem _ (hm₁.began hb))).bind ?_
  rintro h₃ ⟨⟩ - hm₃
  obtain ⟨e, he, hread⟩ := hnow
  have hloaded : ∀ g ∈ h₃, ∀ v ∈ loaded g, v.userId = row.userId := by
    refine hm₃.forall (List.forall_mem_cons.mpr ⟨fun v hv => ?_, fun g hg v hv => ?_⟩)
      fun g hg v hv => ?_
    · cases hv
      rfl
    · have hnone : loaded g = none := hm₁.forall hunloaded.loaded (fun _ hmute => hmute.loaded) g hg
      rw [hnone] at hv
      cases hv
    · rw [hg.loaded] at hv
      cases hv
  have hscanned : ∀ g ∈ h₁, scanned g = none :=
    hm₁.forall hunloaded.scanned fun _ hmute => hmute.scanned
  refine keeps_sweep (hm₃.subset (List.mem_cons_of_mem _ (hm₁.began hb)))
    (fun hne => absurd rfl hne) ?_ hloaded
    (hm₃.forall (List.forall_mem_cons.mpr ⟨rfl, hscanned⟩) fun _ hmute => hmute.scanned)
  exact ⟨e, hm₃.subset (List.mem_cons_of_mem _ (hm₁.subset he)), hread⟩

/-- The call is neither a reset nor the disabling of a user. -/
def Plain (h : Past) : Prop := ∀ e ∈ h, (asked e).any closes = false

theorem Plain.not_closing (hp : Plain h) : ¬ Closing h := by
  rintro ⟨e, he, hcloses⟩
  rw [hp e he] at hcloses
  cases hcloses

theorem Plain.commits (hp : Plain h) : Closing h → Swept h t :=
  fun hclosing => absurd hclosing hp.not_closing

theorem Plain.mutely {h' : Past} (hp : Plain h) (hm : Mutely h h') : Plain h' :=
  hm.forall hp fun e he => by rw [he.asked]; rfl

theorem keeps_changePassword {actor : AuthenticatedUser} {current new : Str}
    {sessionId : Option Str} {now : Instant} (hb : Began h t) (hplain : Plain h)
    (hscanned : ∀ e ∈ h, scanned e = none)
    (hnow : ∃ e ∈ h, readClock e = some now)
    (hasked : ∃ e ∈ h, ∃ new, asked e = some (.changeOwnPassword actor current new sessionId)) :
    Keeps pw h (changePassword pw actor current new sessionId now t) fun h' _ => Plain h' := by
  refine (keeps_call ⟨began_txn hb rfl, trivial⟩).bind ?_
  rintro _ user - rfl
  refine (keeps_lift _).bind ?_
  rintro _ row - ⟨rfl, henabled⟩
  refine (keeps_lift _).bind ?_
  rintro _ ⟨⟩ - ⟨rfl, hverified⟩
  refine (keeps_mute ⟨began_of_none rfl, trivial⟩ fun _ => ⟨rfl, rfl, rfl, rfl⟩).bind ?_
  rintro h₂ salt - ⟨hm₂, -⟩
  refine (keeps_lift _).bind ?_
  rintro _ hash - ⟨rfl, -⟩
  cases user with
  | none => cases henabled
  | some user =>
      have huser : user = row := by
        unfold enabledUser at henabled
        split at henabled
        · rename_i heq
          split at henabled
          · cases heq
            exact Except.ok.inj henabled
          · cases henabled
        · cases henabled
      subst huser
      have hverify : pw.verify current user.passwordHash = true := by
        unfold verified at hverified
        split at hverified
        · assumption
        · cases hverified
      have hplain₂ : Plain _ := (Plain.mutely (List.forall_mem_cons.mpr ⟨rfl, hplain⟩) hm₂)
      have hb₂ : Began _ t := hm₂.began (List.mem_cons_of_mem _ hb)
      obtain ⟨e, he, hread⟩ := hnow
      obtain ⟨f, hf, new, hrequest⟩ := hasked
      refine (keeps_flush hb₂ fun _ => ⟨user.passwordHash, .inr ?_⟩).bind ?_
      · exact ⟨f, hm₂.subset (List.mem_cons_of_mem _ hf), _, hm₂.subset List.mem_cons_self, actor,
          current, new, sessionId, hrequest, hverify, user, rfl, rfl, rfl⟩
      · rintro h₃ ⟨⟩ - hm₃
        have hscanned₃ : ∀ e ∈ h₃, scanned e = none :=
          (hm₂.trans hm₃).forall (List.forall_mem_cons.mpr ⟨rfl, hscanned⟩)
            fun _ hmute => hmute.scanned
        refine (keeps_revokeActive (hm₃.began hb₂) ⟨began_txn (hm₃.began hb₂) rfl, hscanned₃,
          ⟨e, ?_, hread⟩, fun hclosing => ?_⟩).bind ?_
        · exact hm₃.subset (hm₂.subset (List.mem_cons_of_mem _ he))
        · exact absurd hclosing (hplain₂.mutely hm₃).not_closing
        · rintro h₄ n - ⟨ids, hm₄, -⟩
          have hplain₃ := hplain₂.mutely hm₃
          exact Obeys.pure (Plain.mutely (List.forall_mem_cons.mpr ⟨rfl, hplain₃⟩) hm₄)

theorem keeps_authenticate {username password : Str} (hb : Began h t) (hplain : Plain h)
    (hfound : ∀ e ∈ h, found e = none) :
    Keeps pw h (authenticate pw username password t) fun h' _ =>
      Plain h' ∧ ∀ e ∈ h', found e = none := by
  refine (keeps_call ⟨began_txn hb rfl, trivial⟩).bind ?_
  rintro h₁ user - rfl
  have hplain₁ : Plain (⟨.userNamed t username, .ok user⟩ :: h) :=
    List.forall_mem_cons.mpr ⟨rfl, hplain⟩
  have hfound₁ : ∀ e ∈ (⟨.userNamed t username, .ok user⟩ :: h : Past), found e = none :=
    List.forall_mem_cons.mpr ⟨rfl, hfound⟩
  cases user with
  | none => exact Obeys.pure ⟨hplain₁, hfound₁⟩
  | some row =>
      dsimp only
      split
      · refine (keeps_mute ⟨began_of_none rfl, hfound₁⟩ fun _ => ⟨rfl, rfl, rfl, rfl⟩).bind ?_
        rintro h₂ now - ⟨hm₂, -⟩
        refine (keeps_flush (hm₂.began (List.mem_cons_of_mem _ hb)) ?_).bind ?_
        · exact fun hne => absurd rfl hne
        rintro h₃ ⟨⟩ - hm₃
        have hm := hm₂.trans hm₃
        exact Obeys.pure ⟨hplain₁.mutely hm, hm.forall hfound₁ fun _ hmute => hmute.found⟩
      · exact Obeys.pure ⟨hplain₁, hfound₁⟩

theorem keeps_actorFor {tokenHash : Str} {now : Instant} (hb : Began h t) (hplain : Plain h)
    (hfound : ∀ e ∈ h, found e = none) (hnow : ∀ e ∈ h, ∀ n ∈ readClock e, n = now) :
    Keeps pw h (actorFor tokenHash now t) fun h' a => Plain h' ∧ (a.isSome = true →
      ∀ e ∈ h', ∀ f ∈ h', ∀ row ∈ found e, ∀ n ∈ readClock f,
        row.revokedAt = none ∧ n < row.expiresAt) := by
  refine (keeps_call ⟨began_txn hb rfl, trivial⟩).bind ?_
  rintro _ session - rfl
  have hplain₁ : Plain (⟨.sessionWithHash t tokenHash, .ok session⟩ :: h) :=
    List.forall_mem_cons.mpr ⟨rfl, hplain⟩
  cases session with
  | none => exact Obeys.pure ⟨hplain₁, nofun⟩
  | some row =>
      dsimp only
      split
      · exact Obeys.pure ⟨hplain₁, nofun⟩
      · rename_i hvalid
        rw [Bool.or_eq_true, not_or, decide_eq_true_eq] at hvalid
        have hvalid₁ : row.revokedAt = none ∧ now < row.expiresAt := by
          refine ⟨?_, Int.not_le.mp hvalid.2⟩
          rw [← Option.not_isSome_iff_eq_none]
          exact hvalid.1
        refine (keeps_mute ⟨began_txn (List.mem_cons_of_mem _ hb) rfl, trivial⟩
          fun _ => ⟨rfl, rfl, rfl, rfl⟩).bind ?_
        rintro _ user - ⟨hm₂, rfl⟩
        cases hfilter : user.filter UserRecord.enabled with
        | none =>
            dsimp only
            refine (keeps_mute ⟨began_txn (hm₂.began (List.mem_cons_of_mem _ hb)) rfl, trivial⟩
              fun _ => ⟨rfl, rfl, rfl, rfl⟩).bind ?_
            rintro h₃ ⟨⟩ - ⟨hm₃, -⟩
            exact Obeys.pure ⟨(hplain₁.mutely hm₂).mutely hm₃, nofun⟩
        | some user =>
            refine Obeys.pure ⟨hplain₁.mutely hm₂, fun _ e he f hf x hx n hn => ?_⟩
            have hsession : x = row := by
              rcases List.mem_cons.mp he with rfl | he
              · cases hx
              · rcases List.mem_cons.mp he with rfl | he
                · cases hx
                  rfl
                · rw [hfound e he] at hx
                  cases hx
            have hclock : n = now := by
              rcases List.mem_cons.mp hf with rfl | hf
              · cases hn
              · rcases List.mem_cons.mp hf with rfl | hf
                · cases hn
                · exact hnow f hf n hn
            rw [hsession, hclock]
            exact hvalid₁

/-! ### The calls -/

theorem allowed_of_txn {c : Command} (hb : Began h t) (hc : c = .rollback t) : Allowed pw h c := by
  subst hc
  exact ⟨began_txn hb rfl, trivial⟩

/-- The rule of a transaction. -/
theorem keeps_sessionScope {body : ℕ → Prog α} {Q : Past → α → Prop}
    (hbody : ∀ t, Keeps pw (⟨.start, .ok t⟩ :: h) (body t) fun h' a =>
      (Closing h' → Swept h' t) ∧ Q (⟨.commit t, .ok ()⟩ :: h') a) :
    Keeps pw h (sessionScope body) Q := by
  refine obeys_sessionScope ⟨began_of_none rfl, trivial⟩ (fun _ _ hb => allowed_of_txn hb rfl)
    fun t => (hbody t).mono fun h' a hsuffix hq => ?_
  exact ⟨⟨began_txn (hsuffix.subset List.mem_cons_self) rfl, hq.1⟩, hq.2⟩

/-- What is returned is no accepted session. -/
theorem follows_asProcess {f : α → Answer} {p : Prog α} {Q : Past → α → Prop}
    (hp : Keeps pw [] p Q) (hends : ∀ h a, Q h a → Ends h (.ok (f a))) :
    (asProcess f p).Follows (fun _ _ => True) (contract pw).allowed (contract pw).ends [] := by
  have hbind : Keeps pw [] (p >>= fun a => pure (f a)) fun h b => Ends h (.ok b) :=
    hp.bind fun h a _ hq => Obeys.pure (hends h a hq)
  refine Program.Follows.mono hbind ?_
  rintro h r ⟨-, hr⟩ actor rfl
  exact hr _ rfl actor rfl

theorem keeps_receive (r : Request) :
    Keeps pw [] (Call.receive r) fun h' _ => h' = [⟨.receive r, .ok ()⟩] :=
  keeps_call ⟨began_of_none rfl, rfl⟩

theorem keeps_now (hfound : ∀ e ∈ h, found e = none) :
    Keeps pw h Call.now fun h' now => h' = ⟨.now, .ok now⟩ :: h :=
  keeps_call ⟨began_of_none rfl, hfound⟩

theorem keeps_resetPassword (username password : Str) :
    Keeps pw [] (resetPassword pw username password) fun _ _ => True := by
  refine (keeps_receive _).bind ?_
  rintro _ ⟨⟩ - rfl
  refine (keeps_now (by simp [found])).bind ?_
  rintro _ now - rfl
  refine (keeps_call ⟨began_of_none rfl, trivial⟩).bind ?_
  rintro _ salt - rfl
  refine (keeps_lift _).bind ?_
  rintro _ hash - ⟨rfl, -⟩
  refine keeps_sessionScope fun t => (keeps_reset List.mem_cons_self ?_ ?_ ?_).mono ?_
  · constructor <;> simp [loaded, scanned]
  · exact ⟨⟨.now, .ok now⟩, by simp, rfl⟩
  · exact ⟨⟨.receive (.resetPassword username password), .ok ()⟩, by simp, username, password, rfl⟩
  · exact fun h' _ _ hswept => ⟨fun _ => hswept, trivial⟩

theorem keeps_disableUser (username : Str) :
    Keeps pw [] (disableUser username) fun _ _ => True := by
  refine (keeps_receive _).bind ?_
  rintro _ ⟨⟩ - rfl
  refine (keeps_now (by simp [found])).bind ?_
  rintro _ now - rfl
  refine keeps_sessionScope fun t => (keeps_disable List.mem_cons_self ?_ ?_).mono ?_
  · constructor <;> simp [loaded, scanned]
  · exact ⟨⟨.now, .ok now⟩, by simp, rfl⟩
  · exact fun h' _ _ hswept => ⟨fun _ => hswept, trivial⟩

theorem keeps_changeOwnPassword (actor : AuthenticatedUser) (current new : Str)
    (sessionId : Option Str) :
    Keeps pw [] (changeOwnPassword pw actor current new sessionId) fun _ _ => True := by
  refine (keeps_receive _).bind ?_
  rintro _ ⟨⟩ - rfl
  refine (keeps_now (by simp [found])).bind ?_
  rintro _ now - rfl
  refine (keeps_lift _).bind ?_
  rintro _ validated - ⟨rfl, -⟩
  refine keeps_sessionScope fun t => (keeps_changePassword List.mem_cons_self ?_ ?_ ?_ ?_).mono ?_
  · simp [Plain, asked, closes]
  · simp [scanned]
  · exact ⟨⟨.now, .ok now⟩, by simp, rfl⟩
  · exact ⟨⟨.receive (.changeOwnPassword actor current new sessionId), .ok ()⟩, by simp, new, rfl⟩
  · exact fun h' _ _ hplain => ⟨hplain.commits, trivial⟩

theorem keeps_createSession (actor : AuthenticatedUser) (hplain : Plain h)
    (hfound : ∀ e ∈ h, found e = none) :
    Keeps pw h (createSession tokens actor) fun _ _ => True := by
  refine (keeps_mute ⟨began_of_none rfl, trivial⟩ fun _ => ⟨rfl, rfl, rfl, rfl⟩).bind ?_
  rintro h₁ token - ⟨hm₁, -⟩
  refine (keeps_mute ⟨began_of_none rfl, hm₁.forall hfound fun _ hmute => hmute.found⟩
    fun _ => ⟨rfl, rfl, rfl, rfl⟩).bind ?_
  rintro h₂ now - ⟨hm₂, -⟩
  have hplain₂ : Plain h₂ := hplain.mutely (hm₁.trans hm₂)
  refine keeps_sessionScope fun t => ?_
  have hm₃ : Mutely h₂ (⟨.start, .ok t⟩ :: h₂) := Mutely.cons h₂ ⟨rfl, rfl, rfl, rfl⟩
  refine (keeps_mute ⟨began_of_none rfl, trivial⟩ fun _ => ⟨rfl, rfl, rfl, rfl⟩).bind ?_
  rintro h₄ id - ⟨hm₄, -⟩
  have hb : Began h₄ t := hm₄.subset List.mem_cons_self
  have hplain₄ : Plain h₄ := (hplain₂.mutely hm₃).mutely hm₄
  refine (keeps_mute ⟨began_txn hb rfl, hplain₄.not_closing⟩ fun _ => ⟨rfl, rfl, rfl, rfl⟩).bind ?_
  rintro h₅ ⟨⟩ - ⟨hm₅, -⟩
  exact Obeys.pure ⟨(hplain₄.mutely hm₅).commits, trivial⟩

theorem keeps_login (username password : Str) :
    Keeps pw [] (login pw tokens username password) fun _ _ => True := by
  refine (keeps_receive _).bind ?_
  rintro _ ⟨⟩ - rfl
  have hplain : Plain [⟨.receive (.login username password), .ok ()⟩] := by
    simp [Plain, asked, closes]
  split
  · exact Obeys.throw _
  · refine Obeys.bind (Q := fun h' _ => Plain h' ∧ ∀ e ∈ h', found e = none) ?_ ?_
    · unfold authenticateUser
      split
      · exact Obeys.pure ⟨hplain, by simp [found]⟩
      · refine keeps_sessionScope fun t => (keeps_authenticate List.mem_cons_self ?_ ?_).mono ?_
        · exact hplain.mutely (Mutely.cons _ ⟨rfl, rfl, rfl, rfl⟩)
        · simp [found]
        · rintro h' _ - ⟨hplain', hfound⟩
          exact ⟨hplain'.commits, hplain'.mutely (Mutely.cons h' ⟨rfl, rfl, rfl, rfl⟩),
            List.forall_mem_cons.mpr ⟨rfl, hfound⟩⟩
    · rintro h' actor - ⟨hplain', hfound⟩
      cases actor with
      | none => exact Obeys.throw _
      | some actor => exact keeps_createSession actor hplain' hfound

theorem keeps_actorForSessionToken (token : Str) :
    Keeps pw [] (actorForSessionToken tokens token) fun h a => a.isSome = true →
      ∀ e ∈ h, ∀ f ∈ h, ∀ row ∈ found e, ∀ n ∈ readClock f,
        row.revokedAt = none ∧ n < row.expiresAt := by
  refine (keeps_receive _).bind ?_
  rintro _ ⟨⟩ - rfl
  split
  · exact Obeys.pure nofun
  · refine (keeps_now (by simp [found])).bind ?_
    rintro _ now - rfl
    refine keeps_sessionScope fun t => (keeps_actorFor List.mem_cons_self ?_ ?_ ?_).mono ?_
    · simp [Plain, asked, closes]
    · simp [found]
    · simp [readClock]
    · rintro h' a - ⟨hplain, hends⟩
      refine ⟨hplain.commits, fun ha e he f hf row hrow n hn => ?_⟩
      rcases List.mem_cons.mp he with rfl | he
      · cases hrow
      · rcases List.mem_cons.mp hf with rfl | hf
        · cases hn
        · exact hends ha e he f hf row hrow n hn

theorem entry_follows {p : Process} (h : Entry pw tokens p) :
    p.Follows (fun _ _ => True) (contract pw).allowed (contract pw).ends [] := by
  cases h with
  | login username password =>
      exact follows_asProcess (keeps_login username password) fun _ _ _ _ hr => by cases hr
  | resetPassword username password =>
      exact follows_asProcess (keeps_resetPassword username password) fun _ _ _ _ hr => by cases hr
  | changeOwnPassword actor current new sessionId =>
      refine follows_asProcess (keeps_changeOwnPassword actor current new sessionId) ?_
      exact fun _ _ _ _ hr => by cases hr
  | disableUser username =>
      exact follows_asProcess (keeps_disableUser username) fun _ _ _ _ hr => by cases hr
  | actorForSessionToken token =>
      refine follows_asProcess (keeps_actorForSessionToken token) fun h a hq actor hr => ?_
      cases hr
      exact hq rfl

end Programs

end Gjallar.PasswordReset

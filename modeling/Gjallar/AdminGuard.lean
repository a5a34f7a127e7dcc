import Gjallar.AccountRuns

/-!
# The last enabled administrator

Any number of concurrent `create_user`, `set_user_role` and `disable_user` calls. The guard of a
demotion locks the administrators of one snapshot and counts them in another. As long as every
guard locks all the administrators there are when it returns, one remains.
-/
namespace Gjallar.AdminGuard

open Gjallar.Text Gjallar.Operation Gjallar.ReadCommitted Gjallar.Processes
  Gjallar.Processes.Fallible Gjallar.Accounts

/-- The calls that create users and change their roles. -/
inductive Entry (pw : Passwords) : Process → Prop
  | createUser (username password role : Str) (enabled : Bool) :
      Entry pw (asProcess .user (createUser pw username password role enabled))
  | setUserRole (username role : Str) : Entry pw (asProcess .user (setUserRole username role))
  | disableUser (username : Str) : Entry pw (asProcess .operation (disableUser username))

/-- The user is an enabled administrator. -/
def AdminAt (rows : AccountRows) (id : Str) : Prop :=
  ∃ row, userOf rows id = some row ∧ isEnabledAdmin row = true

def HasAdmin (w : World) : Prop := ∃ id, AdminAt w.store.rows id

/-- A guard returns only when it has locked every enabled administrator of that moment, and there
is one. -/
def Careful (w : World) : Command → Prop
  | .adminsLocked t => (users w.store.rows).any isEnabledAdmin = true ∧
      ∀ row ∈ users w.store.rows, isEnabledAdmin row = true →
        ∃ u ∈ w.store.txns t, Key.user row.userId ∈ u.locks
  | _ => True

instance (w : World) : DecidablePred (Careful w)
  | .adminsLocked t => inferInstanceAs (Decidable (_ ∧ ∀ row ∈ users w.store.rows,
      isEnabledAdmin row = true → ∃ u ∈ w.store.txns t, Key.user row.userId ∈ u.locks))
  | .receive _ | .now | .draw | .start | .commit _ | .rollback _ | .scanAdmins _ | .lockAdmin ..
  | .userNamed .. | .userWithId .. | .enabledAdminCount _ | .updateUser .. | .insertUser ..
  | .scanSessions .. | .revokeSession .. | .insertSession .. | .sessionWithHash ..
  | .markRevoked .. => isTrue trivial

/-! ### The contract -/

/-- Does an update take the rights of an administrator away? -/
def Demotes (c : UserChanges) : Prop := (∃ r ∈ c.role, r ≠ .admin) ∨ c.enabled = some false

theorem isEnabledAdmin_apply {c : UserChanges} {row : UserRecord} (h : ¬ Demotes c)
    (hrow : isEnabledAdmin row = true) : isEnabledAdmin (c.apply row) = true := by
  rw [Demotes, not_or] at h
  simp only [isEnabledAdmin, Bool.and_eq_true, decide_eq_true_eq] at hrow ⊢
  refine ⟨?_, ?_⟩
  · change c.enabled.getD row.enabled = true
    cases he : c.enabled with
    | none => exact hrow.1
    | some b =>
        cases b with
        | true => rfl
        | false => exact absurd he h.2
  · change c.role.getD row.role = .admin
    cases hr : c.role with
    | none => exact hrow.2
    | some r =>
        by_contra hne
        exact h.1 ⟨r, hr, hne⟩

/-- The transaction has issued no statement but those of a guard. -/
def Fresh (h : Past) (t : ℕ) : Prop := ∀ e ∈ h, e.command.txn = some t →
  e.command = .scanAdmins t ∨ ∃ id, e.command = .lockAdmin t id

/-- The transaction has written no user. -/
def Unwritten (h : Past) (t : ℕ) : Prop := ∀ e ∈ h, e.command.txn = some t →
  e.command.writesUser = false

/-- The guard has returned, the row was read after it, and if it is an enabled administrator then
there was another. -/
structure Checked (h : Past) (t : ℕ) (id : Str) : Prop where
  guarded : ⟨.adminsLocked t, .ok ()⟩ ∈ h
  loaded : ∃ name row, ⟨.userNamed t name, .ok (some row)⟩ ∈ h ∧ row.userId = id ∧
    (isEnabledAdmin row = true → ∃ n : ℕ, 2 ≤ n ∧ ⟨.enabledAdminCount t, .ok n⟩ ∈ h)

def Allowed (h : Past) (c : Command) : Prop :=
  (∀ t ∈ c.txn, Began h t) ∧
    match c with
    | .adminsLocked t => Fresh h t
    | .userNamed t _ => Unwritten h t
    | .enabledAdminCount t => Unwritten h t
    | .updateUser t id changes => Unwritten h t ∧ (Demotes changes → Checked h t id)
    | .insertUser t _ => Unwritten h t
    | _ => True

/-- A call that raises has committed nothing. -/
def Ends {α : Type} (h : Past) (r : Except AuthError α) : Prop :=
  ∀ e, r = .error e → ∀ t, ⟨.commit t, .ok ()⟩ ∉ h

def contract : Contract Command (fun c => Except AuthError (Reply c)) Outcome := ⟨Allowed, Ends⟩

/-- What is allowed before the commit. -/
def BodyAllowed (h : Past) (c : Command) : Prop := Allowed h c ∧ ∀ t, c ≠ .commit t

section Programs

variable {h : Past} {t : ℕ} {α : Type}

abbrev Keeps (h : Past) (p : Prog α) (Q : Past → α → Prop) : Prop :=
  Obeys (fun _ _ => True) BodyAllowed h p Q

theorem keeps_call {c : Command} (hc : BodyAllowed h c) :
    Keeps h (call c) fun h' a => h' = ⟨c, .ok a⟩ :: h :=
  (Obeys.call hc).mono fun _ _ _ hq => hq.1

theorem keeps_lift (x : Except AuthError α) : Keeps h (lift x) fun h' _ => h' = h := by
  cases x with
  | ok a => exact Obeys.pure rfl
  | error e => exact Obeys.throw e

theorem Fresh.cons {c : Command} {r : Except AuthError (Reply c)} (hf : Fresh h t)
    (hc : c = .scanAdmins t ∨ ∃ id, c = .lockAdmin t id) : Fresh (⟨c, r⟩ :: h) t := by
  intro e he htxn
  rcases List.mem_cons.mp he with rfl | he
  · exact hc
  · exact hf e he htxn

theorem Fresh.unwritten (hf : Fresh h t) : Unwritten h t := by
  intro e he htxn
  rcases hf e he htxn with hc | ⟨id, hc⟩ <;> rw [hc] <;> rfl

theorem Unwritten.cons {c : Command} {r : Except AuthError (Reply c)} (hu : Unwritten h t)
    (hc : c.writesUser = false) : Unwritten (⟨c, r⟩ :: h) t := by
  intro e he htxn
  rcases List.mem_cons.mp he with rfl | he
  · exact hc
  · exact hu e he htxn

/-- What is known of a transaction that has not written a user yet. -/
structure Reading (h : Past) (t : ℕ) : Prop where
  began : Began h t
  unwritten : Unwritten h t

theorem Reading.cons {c : Command} {r : Except AuthError (Reply c)} (hr : Reading h t)
    (hc : c.writesUser = false) : Reading (⟨c, r⟩ :: h) t :=
  ⟨List.mem_cons_of_mem _ hr.began, hr.unwritten.cons hc⟩

theorem keeps_lockAdmins (ids : List Str) (hb : Began h t) (hf : Fresh h t) :
    Keeps h (lockAdmins t ids) fun h' _ => Reading h' t ∧ ⟨.adminsLocked t, .ok ()⟩ ∈ h' := by
  induction ids generalizing h with
  | nil =>
      refine (keeps_call ⟨⟨began_txn hb rfl, hf⟩, by simp⟩).mono ?_
      rintro _ ⟨⟩ - rfl
      exact ⟨Reading.cons ⟨hb, hf.unwritten⟩ rfl, List.mem_cons_self⟩
  | cons id ids ih =>
      refine (keeps_call ⟨⟨began_txn hb rfl, trivial⟩, by simp⟩).bind ?_
      rintro _ ⟨⟩ - rfl
      exact ih (List.mem_cons_of_mem _ hb) (hf.cons (.inr ⟨id, rfl⟩))

theorem keeps_guard (hb : Began h t) (hf : Fresh h t) :
    Keeps h (serializeEnabledAdminGuard t) fun h' _ =>
      Reading h' t ∧ ⟨.adminsLocked t, .ok ()⟩ ∈ h' := by
  refine (keeps_call ⟨⟨began_txn hb rfl, trivial⟩, by simp⟩).bind ?_
  rintro _ ids - rfl
  exact keeps_lockAdmins ids (List.mem_cons_of_mem _ hb) (hf.cons (.inl rfl))

theorem keeps_getUserOrRaise (username : Str) (hr : Reading h t) :
    Keeps h (getUserOrRaise t username) fun h' row => Reading h' t ∧
      ∃ name, ⟨.userNamed t name, .ok (some row)⟩ ∈ h' := by
  refine (keeps_lift _).bind ?_
  rintro _ name - rfl
  refine (keeps_call ⟨⟨began_txn hr.began rfl, hr.unwritten⟩, by simp⟩).bind ?_
  rintro _ found - rfl
  cases found with
  | none => exact Obeys.throw _
  | some row => exact Obeys.pure ⟨hr.cons rfl, name, List.mem_cons_self⟩

theorem keeps_ensureNotLast {row : UserRecord} (action : Str) (hr : Reading h t) :
    Keeps h (ensureNotLastEnabledAdmin t row action) fun h' _ => Reading h' t ∧
      (isEnabledAdmin row = true → ∃ n : ℕ, 2 ≤ n ∧ ⟨.enabledAdminCount t, .ok n⟩ ∈ h') := by
  unfold ensureNotLastEnabledAdmin
  split
  · refine (keeps_call ⟨⟨began_txn hr.began rfl, hr.unwritten⟩, by simp⟩).bind ?_
    rintro _ n - rfl
    split
    · exact Obeys.throw _
    · rename_i hn
      exact Obeys.pure ⟨hr.cons rfl, fun _ => ⟨n, by omega, List.mem_cons_self⟩⟩
  · rename_i hadmin
    exact Obeys.pure ⟨hr, fun h => absurd h hadmin⟩

theorem keeps_flush {loaded row : UserRecord} (hr : Reading h t)
    (hchecked : Demotes (.between loaded row) → Checked h t loaded.userId) :
    Keeps h (flush t loaded row) fun h' _ => Began h' t := by
  unfold flush
  split
  · exact Obeys.pure hr.began
  · have hallowed : BodyAllowed h (.updateUser t loaded.userId (.between loaded row)) :=
      ⟨⟨began_txn hr.began rfl, hr.unwritten, hchecked⟩, by simp⟩
    refine (keeps_call hallowed).mono ?_
    rintro _ ⟨⟩ - rfl
    exact List.mem_cons_of_mem _ hr.began

theorem keeps_revokeSessions (r : Revocation) (ids : List Str) (hb : Began h t) :
    Keeps h (revokeSessions t r ids) fun _ _ => True := by
  induction ids generalizing h with
  | nil => exact Obeys.pure trivial
  | cons id ids ih =>
      refine (keeps_call ⟨⟨began_txn hb rfl, trivial⟩, by simp⟩).bind ?_
      rintro _ revoked - rfl
      refine (ih (List.mem_cons_of_mem _ hb)).bind ?_
      exact fun _ _ _ _ => Obeys.pure trivial

theorem keeps_unlessAdmin {role : Role} {p : Prog Unit} {Q : Past → Prop}
    (hp : role ≠ .admin → Keeps h p fun h' _ => Q h') :
    Keeps h (unlessAdmin role p) fun h' _ => (role = .admin ∧ h' = h) ∨ (role ≠ .admin ∧ Q h') := by
  unfold unlessAdmin
  split
  · rename_i hrole
    exact Obeys.pure (.inl ⟨hrole, rfl⟩)
  · rename_i hrole
    exact (hp hrole).mono fun _ _ _ hq => .inr ⟨hrole, hq⟩

theorem keeps_setRole (username : Str) (role : Role) (now : Instant) (hb : Began h t)
    (hf : Fresh h t) : Keeps h (setRole username role now t) fun _ _ => True := by
  refine (keeps_unlessAdmin (Q := fun h' => Reading h' t ∧ ⟨.adminsLocked t, .ok ()⟩ ∈ h')
    (fun _ => keeps_guard hb hf)).bind ?_
  rintro h₁ ⟨⟩ hh₁ hguard
  have hr₁ : Reading h₁ t := hguard.elim (fun hadmin => hadmin.2 ▸ ⟨hb, hf.unwritten⟩)
    fun hq => hq.2.1
  refine (keeps_getUserOrRaise username hr₁).bind ?_
  rintro h₂ row hh₂ ⟨hr₂, name, hloaded⟩
  refine (keeps_unlessAdmin (Q := fun h' => Reading h' t ∧ (isEnabledAdmin row = true →
    ∃ n : ℕ, 2 ≤ n ∧ ⟨.enabledAdminCount t, .ok n⟩ ∈ h'))
    (fun _ => keeps_ensureNotLast "demote" hr₂)).bind ?_
  rintro h₃ ⟨⟩ hh₃ hcheck
  have hr₃ : Reading h₃ t := hcheck.elim (fun hadmin => hadmin.2 ▸ hr₂) fun hq => hq.2.1
  refine (keeps_flush hr₃ fun hdemotes => ?_).bind fun _ _ _ _ => Obeys.pure trivial
  -- a promotion changes neither column to a lesser value
  have hrole : role ≠ .admin := by
    rintro rfl
    rcases hdemotes with ⟨r, hr, hne⟩ | he
    · exact hne (changed_eq_some.mp hr).2
    · exact (changed_eq_some.mp he).1 rfl
  obtain ⟨-, -, hguarded⟩ := hguard.resolve_left fun hadmin => hrole hadmin.1
  obtain ⟨-, -, hcounted⟩ := hcheck.resolve_left fun hadmin => hrole hadmin.1
  exact ⟨(hh₂.trans hh₃).subset hguarded, name, row, hh₃.subset hloaded, rfl, hcounted⟩

theorem keeps_disable (username : Str) (now : Instant) (hb : Began h t) (hf : Fresh h t) :
    Keeps h (disable username now t) fun _ _ => True := by
  refine (keeps_guard hb hf).bind ?_
  rintro h₁ ⟨⟩ - ⟨hr₁, hguarded⟩
  refine (keeps_getUserOrRaise username hr₁).bind ?_
  rintro h₂ row hh₂ ⟨hr₂, name, hloaded⟩
  refine (keeps_ensureNotLast "disable" hr₂).bind ?_
  rintro h₃ ⟨⟩ hh₃ ⟨hr₃, hcounted⟩
  refine (keeps_flush hr₃ fun _ => ⟨(hh₂.trans hh₃).subset hguarded, name, row,
    hh₃.subset hloaded, rfl, hcounted⟩).bind ?_
  rintro h₄ ⟨⟩ - hb₄
  refine Obeys.bind (Q := fun _ _ => True) ?_ fun _ _ _ _ => Obeys.pure trivial
  refine (keeps_call ⟨⟨began_txn hb₄ rfl, trivial⟩, by simp⟩).bind ?_
  rintro _ ids - rfl
  exact keeps_revokeSessions _ ids (List.mem_cons_of_mem _ hb₄)

/-! ### Transactions that raise -/

/-- No statement of the history belongs to a transaction. -/
def Outside (h : Past) : Prop := ∀ e ∈ h, e.command.txn = none

/-- No transaction has been committed. -/
def Uncommitted (h : Past) : Prop := ∀ t, ⟨.commit t, .ok ()⟩ ∉ h

theorem Outside.uncommitted (ho : Outside h) : Uncommitted h := by
  intro t hmem
  cases ho _ hmem

theorem Uncommitted.cons {c : Command} {r : Except AuthError (Reply c)} (hu : Uncommitted h)
    (hc : ∀ t, (⟨c, r⟩ : Event Command fun c => Except AuthError (Reply c)) ≠ ⟨.commit t, .ok ()⟩) :
    Uncommitted (⟨c, r⟩ :: h) := by
  intro t hmem
  rcases List.mem_cons.mp hmem with heq | hmem
  · exact hc t heq.symm
  · exact hu t hmem

/-- The handler of an exception rolls back and raises it again. -/
theorem follows_rollback {e : AuthError} (hb : Began h t) (hu : Uncommitted h) :
    Program.Follows (fun _ _ => True) Allowed Ends h
      (Call.rollback t >>= fun _ => (throw e : Prog α)).run := by
  refine ⟨⟨began_txn hb rfl, trivial⟩, fun r _ => ?_⟩
  have hu' : Uncommitted (⟨.rollback t, r⟩ :: h) := hu.cons fun _ heq => by cases heq
  cases r with
  | ok a => exact fun _ _ => hu'
  | error e => exact fun _ _ => hu'

theorem follows_sessionScope {body : ℕ → Prog α} (ho : Outside h)
    (hbody : ∀ h' t, Began h' t → Fresh h' t → Keeps h' (body t) fun _ _ => True) :
    Program.Follows (fun _ _ => True) Allowed Ends h (sessionScope body).run := by
  refine ⟨⟨by simp [Command.txn], trivial⟩, fun r _ => ?_⟩
  have hstart : Uncommitted (⟨.start, r⟩ :: h) := ho.uncommitted.cons fun _ heq => by cases heq
  cases r with
  | error e => exact fun _ _ => hstart
  | ok t =>
      have hb : Began (⟨.start, .ok t⟩ :: h) t := List.mem_cons_self
      have hf : Fresh (⟨.start, .ok t⟩ :: h) t := by
        intro e he htxn
        rcases List.mem_cons.mp he with rfl | he
        · cases htxn
        · rw [ho e he] at htxn
          cases htxn
      have hgrows := Program.Follows.grows (hbody _ t hb hf)
      refine follows_bind (Program.Follows.bind (follows_bind ?_))
      refine (hgrows.weaken fun _ _ hc => hc.1).mono ?_
      rintro h' r ⟨⟨new, rfl, hnew⟩, -⟩
      have hb' : Began (new ++ ⟨.start, .ok t⟩ :: h) t := List.mem_append_right _ hb
      have hu' : Uncommitted (new ++ ⟨.start, .ok t⟩ :: h) := by
        intro t' hmem
        rcases List.mem_append.mp hmem with hmem | hmem
        · obtain ⟨_, hc⟩ := hnew _ hmem
          exact hc.2 t' rfl
        · exact hstart t' hmem
      refine ⟨fun a _ => ⟨⟨began_txn hb' rfl, trivial⟩, fun r _ => ?_⟩, fun e _ => ?_⟩
      · cases r with
        | ok _ =>
            refine ⟨fun x hx => ?_, nofun⟩
            cases hx
            exact nofun
        | error e =>
            refine ⟨fun x hx => ?_, nofun⟩
            cases hx
            refine follows_rollback (List.mem_cons_of_mem _ hb') (hu'.cons fun t' heq => ?_)
            cases heq
      · refine ⟨fun x hx => ?_, nofun⟩
        cases hx
        exact follows_rollback hb' hu'

/-- A statement outside a transaction, and what follows it. -/
theorem follows_outside {c : Command} {f : Reply c → Prog α} (hc : c.txn = none)
    (hallowed : Allowed h c) (ho : Outside h)
    (hf : ∀ h' a, Outside h' → Program.Follows (fun _ _ => True) Allowed Ends h' (f a).run) :
    Program.Follows (fun _ _ => True) Allowed Ends h (call c >>= f).run := by
  refine ⟨hallowed, fun r _ => ?_⟩
  have ho' : Outside (⟨c, r⟩ :: h) := List.forall_mem_cons.mpr ⟨hc, ho⟩
  cases r with
  | error e => exact fun _ _ => ho'.uncommitted
  | ok a => exact hf _ a ho'

theorem follows_lift {β : Type} {x : Except AuthError β} {f : β → Prog α} (ho : Outside h)
    (hf : ∀ a, Program.Follows (fun _ _ => True) Allowed Ends h (f a).run) :
    Program.Follows (fun _ _ => True) Allowed Ends h (lift x >>= f).run := by
  cases x with
  | ok a => exact hf a
  | error e => exact fun _ _ => ho.uncommitted

theorem follows_asProcess {f : α → Answer} {p : Prog α}
    (hp : Program.Follows (fun _ _ => True) Allowed Ends h p.run) :
    Program.Follows (fun _ _ => True) Allowed Ends h (asProcess f p) :=
  follows_bind (hp.mono fun _ _ hends => ⟨fun _ _ => nofun, fun e he _ _ => hends e he⟩)

theorem entry_follows {pw : Passwords} {p : Process} (h : Entry pw p) :
    p.Follows (fun _ _ => True) contract.allowed contract.ends [] := by
  have hnil : Outside [] := fun _ he => by cases he
  have hlocal : ∀ {h : Past} {c : Command}, c.txn = none → Allowed h c := by
    intro h c hc
    refine ⟨by simp [hc], ?_⟩
    cases c <;> trivial
  cases h with
  | createUser username password role enabled =>
      refine follows_asProcess (follows_outside rfl (hlocal rfl) hnil fun h₁ _ ho₁ => ?_)
      refine follows_lift ho₁ fun name => follows_lift ho₁ fun role => ?_
      refine follows_outside rfl (hlocal rfl) ho₁ fun h₂ salt ho₂ => ?_
      refine follows_lift ho₂ fun hash => ?_
      refine follows_outside rfl (hlocal rfl) ho₂ fun h₃ now ho₃ => ?_
      refine follows_sessionScope ho₃ fun h' t hb hf => ?_
      have hr : Reading h' t := ⟨hb, hf.unwritten⟩
      refine (keeps_call ⟨⟨began_txn hb rfl, hr.unwritten⟩, by simp⟩).bind ?_
      rintro h₄ found - rfl
      cases found with
      | some row => exact Obeys.throw _
      | none =>
          refine (keeps_call ⟨hlocal rfl, by simp⟩).bind ?_
          rintro _ id - rfl
          have hr' := (hr.cons (c := .userNamed t name) (r := .ok none) rfl).cons
            (c := .draw) (r := .ok id) rfl
          refine (keeps_call ⟨⟨began_txn hr'.began rfl, hr'.unwritten⟩, by simp⟩).bind ?_
          exact fun _ _ _ _ => Obeys.pure trivial
  | setUserRole username role =>
      refine follows_asProcess (follows_outside rfl (hlocal rfl) hnil fun h₁ _ ho₁ => ?_)
      refine follows_lift ho₁ fun role => ?_
      refine follows_outside rfl (hlocal rfl) ho₁ fun h₂ now ho₂ => ?_
      exact follows_sessionScope ho₂ fun h' t hb hf => keeps_setRole username role now hb hf
  | disableUser username =>
      refine follows_asProcess (follows_outside rfl (hlocal rfl) hnil fun h₁ _ ho₁ => ?_)
      refine follows_outside rfl (hlocal rfl) ho₁ fun h₂ now ho₂ => ?_
      exact follows_sessionScope ho₂ fun h' t hb hf => keeps_disable username now hb hf

end Programs

end Gjallar.AdminGuard

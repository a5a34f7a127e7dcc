import Gjallar.Interleaving
import Gjallar.RegistrationStore

/-!
# What the registration transactions commit

The rows of the setup that each transaction of the registration repository reads and writes while
it holds the connection lock, whatever the transactions of others commit meanwhile.
-/
namespace Gjallar.RegistrationStore

open Gjallar.Text Gjallar.Data Gjallar.Tables Gjallar.Registration Gjallar.Operation
  Gjallar.Admission Gjallar.OperationStore Gjallar.TargetLocks Gjallar.Transactions
  Gjallar.Interleaving

/-- The rows of the setup. -/
@[ext] structure Setup where
  connection : Option ConnectionRow
  credentials : Str → Option CredentialRow
  attempts : Str → Option Attempt

namespace Setup

/-- The active credential retires. -/
def retire (v : Setup) (connection : ConnectionRow) : Setup :=
  { v with credentials := fun id => (v.credentials id).map fun c =>
      if connection.activeRevisionId = some id ∧ c.state = .active then
        { c with state := .retiring }
      else c }

/-- A credential loses its secret. -/
def revoke (v : Setup) (revisionId : Option Str) : Setup :=
  { v with credentials := fun id => (v.credentials id).map fun c =>
      if revisionId = some id then { c with state := .revoked, ciphertext := none } else c }

def putAttempt (v : Setup) (row : Attempt) : Setup :=
  { v with attempts := Function.update v.attempts row.attemptId (some row) }

def putCredential (v : Setup) (row : CredentialRow) : Setup :=
  { v with credentials := Function.update v.credentials row.revisionId (some row) }

def putConnection (v : Setup) (row : ConnectionRow) : Setup := { v with connection := some row }

@[simp] theorem connection_putAttempt (v : Setup) (row : Attempt) :
    (v.putAttempt row).connection = v.connection := rfl
@[simp] theorem credentials_putAttempt (v : Setup) (row : Attempt) :
    (v.putAttempt row).credentials = v.credentials := rfl
@[simp] theorem connection_putCredential (v : Setup) (row : CredentialRow) :
    (v.putCredential row).connection = v.connection := rfl
@[simp] theorem attempts_putCredential (v : Setup) (row : CredentialRow) :
    (v.putCredential row).attempts = v.attempts := rfl
@[simp] theorem credentials_putConnection (v : Setup) (row : ConnectionRow) :
    (v.putConnection row).credentials = v.credentials := rfl
@[simp] theorem attempts_putConnection (v : Setup) (row : ConnectionRow) :
    (v.putConnection row).attempts = v.attempts := rfl
@[simp] theorem connection_putConnection (v : Setup) (row : ConnectionRow) :
    (v.putConnection row).connection = some row := rfl

theorem credentials_putCredential (v : Setup) (row : CredentialRow) (id : Str) :
    (v.putCredential row).credentials id =
      if id = row.revisionId then some row else v.credentials id := Function.update_apply _ _ _ _

end Setup

def SetupDb.setup (s : SetupDb) : Setup := ⟨s.connection, s.credentials.get, s.attempts.get⟩

def SetupDb.locksOf (s : SetupDb) : Str → Option OperationLockRecord := s.coordination.locks.get

/-- A table as a function of its keys after a row is written back. -/
theorem get_put_eq {α κ : Type} [DecidableEq κ] {key : α → κ} {clash : α → α → Bool}
    {t t' : Table α κ key clash} {r old : α} (h : t.put r = some t')
    (hold : t.get (key r) = some old) : t'.get = Function.update t.get (key r) (some r) := by
  funext k
  rw [Table.get_put h, Function.update_apply]
  by_cases hk : key r = k
  · subst hk
    rw [if_pos rfl, if_pos rfl, hold, Option.map_some]
  · rw [if_neg hk, if_neg (Ne.symm hk)]

theorem get_insert_eq {α κ : Type} [DecidableEq κ] {key : α → κ} {clash : α → α → Bool}
    {t t' : Table α κ key clash} {r : α} (h : t.insert r = some t') :
    t'.get = Function.update t.get (key r) (some r) := by
  funext k
  rw [Table.get_insert h, Function.update_apply]
  exact if_congr eq_comm rfl rfl

/-! ### Other transactions -/

/-- No target lock is open. -/
def Idle (s : SetupDb) : Prop := ∀ id r, s.locksOf id = some r → r.isOpen = false

/-- Every target lock that is open was open before. -/
def OpensNone (s s' : SetupDb) : Prop := ∀ id r', s'.locksOf id = some r' → r'.isOpen = true →
  ∃ r, s.locksOf id = some r ∧ r.isOpen = true

/-- What is committed without the connection lock: the setup stays, and no target lock opens. -/
structure Quiet (s s' : SetupDb) : Prop where
  setup : s'.setup = s.setup
  locks : OpensNone s s'

/-- How a running transaction sees a commit of others. It may see any operations, events and
recovery items. -/
structure Sees (t t' : Txn SetupDb) : Prop where
  held : t'.held = t.held
  connection : Overlay (fun _ : Unit => t.base.connection) (fun _ => t.view.connection)
    (fun _ => t'.base.connection) (fun _ => t'.view.connection)
  credentials : Overlay t.base.setup.credentials t.view.setup.credentials
    t'.base.setup.credentials t'.view.setup.credentials
  attempts : Overlay t.base.setup.attempts t.view.setup.attempts t'.base.setup.attempts
    t'.view.setup.attempts
  locks : Overlay t.base.locksOf t.view.locksOf t'.base.locksOf t'.view.locksOf

/-- What other transactions do beside a running one. -/
structure Beside (t t' : Txn SetupDb) : Prop extends Sees t t' where
  quiet : t.held = true → Quiet t.base t'.base

section Others

variable {s s' s'' : SetupDb} {t u v : Txn SetupDb}

theorem OpensNone.refl (s : SetupDb) : OpensNone s s := fun _ r h hopen => ⟨r, h, hopen⟩

theorem OpensNone.trans (h : OpensNone s s') (h' : OpensNone s' s'') : OpensNone s s'' := by
  intro id r'' hr'' hopen
  obtain ⟨r', hr', hopen'⟩ := h' id r'' hr'' hopen
  exact h id r' hr' hopen'

theorem OpensNone.of_eq (h : s'.locksOf = s.locksOf) : OpensNone s s' :=
  fun _ r hr hopen => ⟨r, by rwa [← h], hopen⟩

theorem Idle.of_opensNone (h : Idle s) (hn : OpensNone s s') : Idle s' := by
  intro id r' hr'
  refine Bool.eq_false_iff.mpr fun hopen => ?_
  obtain ⟨r, hr, hopen'⟩ := hn id r' hr' hopen
  rw [h id r hr] at hopen'
  cases hopen'

theorem Idle.of_eq (h : Idle s) (heq : s'.locksOf = s.locksOf) : Idle s' :=
  h.of_opensNone (.of_eq heq)

theorem idle_of_openLock (h : openLock s.coordination = false) : Idle s := by
  intro id r hr
  rw [openLock, List.any_eq_false] at h
  exact Bool.eq_false_iff.mpr (h r (Table.mem_of_get hr))

theorem Quiet.refl (s : SetupDb) : Quiet s s := ⟨rfl, .refl s⟩

theorem Quiet.trans (h : Quiet s s') (h' : Quiet s' s'') : Quiet s s'' :=
  ⟨h'.setup.trans h.setup, h.locks.trans h'.locks⟩

theorem Sees.refl (t : Txn SetupDb) : Sees t t :=
  ⟨rfl, .refl _ _, .refl _ _, .refl _ _, .refl _ _⟩

theorem Sees.trans (h : Sees t u) (h' : Sees u v) : Sees t v :=
  ⟨h'.held.trans h.held, h.connection.trans h'.connection, h.credentials.trans h'.credentials,
    h.attempts.trans h'.attempts, h.locks.trans h'.locks⟩

theorem Beside.refl (t : Txn SetupDb) : Beside t t := ⟨.refl t, fun _ => .refl _⟩

theorem Beside.trans (h : Beside t u) (h' : Beside u v) : Beside t v :=
  ⟨h.toSees.trans h'.toSees, fun hheld =>
    (h.quiet hheld).trans (h'.quiet (h.held.trans hheld))⟩

/-- A transaction that sees what is committed sees what is committed later. -/
theorem Sees.setup_eq (h : Sees t u) (hv : t.view.setup = t.base.setup) :
    u.view.setup = u.base.setup := by
  have hconnection := congrArg Setup.connection hv
  have hcredentials := congrFun (congrArg Setup.credentials hv)
  have hattempts := congrFun (congrArg Setup.attempts hv)
  ext1
  · exact h.connection.seen () hconnection
  · funext id
    exact h.credentials.seen id (hcredentials id)
  · funext id
    exact h.attempts.seen id (hattempts id)

theorem Sees.locks_eq (h : Sees t u) (hv : t.view.locksOf = t.base.locksOf) :
    u.view.locksOf = u.base.locksOf :=
  funext fun id => h.locks.seen id (congrFun hv id)

/-- Under the connection lock a transaction sees its own setup. -/
theorem Beside.view_setup (h : Beside t u) (hheld : t.held = true) :
    u.view.setup = t.view.setup := by
  have hbase := (h.quiet hheld).setup
  ext1
  · exact congrFun (h.connection.view_eq (funext fun _ => congrArg Setup.connection hbase)) ()
  · exact h.credentials.view_eq (congrArg Setup.credentials hbase)
  · exact h.attempts.view_eq (congrArg Setup.attempts hbase)

/-- A lock that a transaction sees open while it opened none is open. -/
theorem Sees.opensNone (h : Sees t u) (hn : OpensNone t.base t.view) :
    OpensNone u.base u.view := by
  intro id r' hr' hopen
  by_cases hsame : t.view.locksOf id = t.base.locksOf id
  · exact ⟨r', by rwa [← h.locks.seen id hsame], hopen⟩
  · obtain ⟨hview, hbase⟩ := h.locks.kept id hsame
    rw [hview] at hr'
    obtain ⟨r, hr, hopen'⟩ := hn id r' hr' hopen
    exact ⟨r, hbase.trans hr, hopen'⟩

end Others

/-! ### Under the connection lock -/

/-- A transaction with the connection lock: the setup that is committed, the setup it has made of
it, and the target locks, which it leaves alone. -/
structure Holding (b v : Setup) (t : Txn SetupDb) : Prop where
  held : t.held = true
  base : t.base.setup = b
  view : t.view.setup = v
  locks : t.view.locksOf = t.base.locksOf

section Holding

variable {b v v' : Setup} {s : SetupDb} {t u : Txn SetupDb} {α : Type} {a : α}

theorem Holding.beside (h : Holding b v t) (henv : Beside t u) : Holding b v u :=
  ⟨henv.held.trans h.held, ((henv.quiet h.held).setup).trans h.base,
    (henv.view_setup h.held).trans h.view, henv.locks_eq h.locks⟩

theorem Holding.opensNone (h : Holding b v t) : OpensNone t.base t.view := .of_eq h.locks

theorem Holding.idle (h : Holding b v t) (henv : Beside t u) (hidle : Idle t.base) :
    Idle u.base := hidle.of_opensNone (henv.quiet h.held).locks

/-- The transaction has taken the lock as its first statement. -/
theorem holding_of_takeLock {x : Unit}
    (h : Runs Beside (Script.takeLock : Transaction Unit) (Txn.start s) (.ok x) t) :
    ∃ b, Holding b b t := by
  obtain ⟨w, henv, rfl⟩ := runs_takeLock_ok h
  exact ⟨w.base.setup, rfl, rfl, henv.setup_eq rfl, henv.locks_eq rfl⟩

theorem Holding.check {f : SetupDb → Except Failure α} (h : Holding b v t)
    (hrun : Runs Beside (Script.check f) t (.ok a) u) : Holding b v u ∧ f u.view = .ok a := by
  obtain ⟨henv, hf⟩ := runs_check_ok hrun
  exact ⟨h.beside henv, hf⟩

theorem Holding.query {f : SetupDb → α} (h : Holding b v t)
    (hrun : Runs Beside (Script.query f : Transaction α) t (.ok a) u) :
    Holding b v u ∧ f u.view = a := by
  obtain ⟨henv, hf⟩ := runs_query_ok hrun
  exact ⟨h.beside henv, hf⟩

/-- A statement that leaves the target locks alone. -/
theorem Holding.exec {f : SetupDb → Except Failure (α × SetupDb)} (v' : Setup)
    (h : Holding b v t)
    (hrun : Runs Beside (Script.exec f) t (.ok a) u)
    (hf : ∀ s s', s.setup = v → f s = .ok (a, s') → s'.setup = v' ∧ s'.locksOf = s.locksOf) :
    Holding b v' u := by
  obtain ⟨w, db, henv, hok, rfl⟩ := runs_exec_ok hrun
  have hw := h.beside henv
  obtain ⟨hsetup, hlocks⟩ := hf w.view db hw.view hok
  exact ⟨hw.held, hw.base, hsetup, hlocks.trans hw.locks⟩

theorem Holding.lift {x : Except Failure α} (h : Holding b v t)
    (hrun : Runs Beside (Script.lift x : Transaction α) t (.ok a) u) :
    Holding b v u ∧ x = .ok a := by
  obtain ⟨hx, rfl⟩ := runs_lift_ok hrun
  exact ⟨h, hx⟩

end Holding

/-! ### Statements -/

section Statements

variable {site : Site} {s s' : SetupDb} {i : ℕ}

theorem inSession_eq_ok {α : Type} {f : Db → Except StoreError (α × Db)} {a : α}
    (h : inSession f s = .ok (a, s')) :
    ∃ db, f s.coordination = .ok (a, db) ∧ s' = { s with coordination := db } := by
  unfold inSession fromStore at h
  cases hf : f s.coordination with
  | error e =>
      rw [hf] at h
      cases h
  | ok r =>
      rw [hf] at h
      cases h
      exact ⟨r.2, rfl, rfl⟩

/-- An event of an operation leaves the setup and the locks alone. -/
theorem append_eq_ok {draw : Draw} {operationId : Str} {a : Append} {row : OperationSnapshot}
    (h : inSession (appendInSession site.rt draw operationId a) s = .ok (row, s')) :
    s'.setup = s.setup ∧ s'.locksOf = s.locksOf := by
  obtain ⟨db, hf, rfl⟩ := inSession_eq_ok h
  obtain ⟨_, _, _, -, -, -, -, -, -, rfl⟩ := appendInSession_eq_ok hf
  exact ⟨rfl, rfl⟩

theorem owned_eq_ok {attemptId actorId : Str} {version : Option ℕ} {row : Attempt}
    (h : owned attemptId actorId version s = .ok row) :
    s.setup.attempts attemptId = some row ∧ row.actorId = actorId ∧
      ∀ n ∈ version, row.version = n := by
  simp only [owned, bind_eq_ok, orRaise_eq_ok, raiseIf_eq_ok, pure_eq_ok,
    Option.filter_eq_some_iff, decide_eq_true_eq] at h
  obtain ⟨_, ⟨hrow, hactor⟩, -, hversion, rfl⟩ := h
  refine ⟨hrow, hactor, fun n hn => ?_⟩
  by_contra hne
  exact hversion ⟨n, hn, hne⟩

theorem attemptId_of_attempts {id : Str} {row : Attempt} (h : s.setup.attempts id = some row) :
    row.attemptId = id := Table.key_of_get h

theorem putAttempt_eq_ok {row r : Attempt} (old : Attempt)
    (h : RegistrationStore.putAttempt row s = .ok (r, s'))
    (hold : s.setup.attempts row.attemptId = some old) :
    r = row ∧ s'.setup = s.setup.putAttempt row ∧ s'.locksOf = s.locksOf := by
  simp only [RegistrationStore.putAttempt, bind_eq_ok, orRaise_eq_ok, pure_eq_ok,
    Prod.mk.injEq] at h
  obtain ⟨attempts, hput, rfl, rfl⟩ := h
  refine ⟨rfl, ?_, rfl⟩
  ext1
  · rfl
  · rfl
  · exact get_put_eq hput hold

theorem advanceRow_eq_ok {row r : Attempt} {a : Advance} (old : Attempt)
    (h : advanceRow site i row a s = .ok (r, s'))
    (hold : s.setup.attempts row.attemptId = some old) :
    r = row.advanced a ∧ s'.setup = s.setup.putAttempt (row.advanced a) ∧
      s'.locksOf = s.locksOf := by
  simp only [advanceRow, bind_eq_ok] at h
  obtain ⟨⟨_, mid⟩, happend, hput⟩ := h
  obtain ⟨hsetup, hlocks⟩ := append_eq_ok happend
  obtain ⟨hr, hsetup', hlocks'⟩ := putAttempt_eq_ok old hput (by rw [hsetup]; exact hold)
  exact ⟨hr, hsetup ▸ hsetup', hlocks'.trans hlocks⟩

theorem insertAttempt_eq_ok {row r : Attempt} (h : insertAttempt row s = .ok (r, s')) :
    s.setup.attempts row.attemptId = none ∧ r = row ∧ s'.setup = s.setup.putAttempt row ∧
      s'.locksOf = s.locksOf := by
  simp only [insertAttempt, bind_eq_ok, raiseIf_eq_ok, orRaise_eq_ok, pure_eq_ok,
    Prod.mk.injEq] at h
  obtain ⟨_, -, attempts, hinsert, rfl, rfl⟩ := h
  refine ⟨Table.get_insert_key hinsert, rfl, ?_, rfl⟩
  ext1
  · rfl
  · rfl
  · exact get_insert_eq hinsert

theorem insertCredential_eq_ok {credential : CredentialRow} {x : Unit}
    (h : insertCredential credential s = .ok (x, s')) :
    s.setup.credentials credential.revisionId = none ∧
      s'.setup = s.setup.putCredential credential ∧ s'.locksOf = s.locksOf := by
  simp only [insertCredential, bind_eq_ok, orRaise_eq_ok, pure_eq_ok, Prod.mk.injEq] at h
  obtain ⟨credentials, hinsert, -, rfl⟩ := h
  refine ⟨Table.get_insert_key hinsert, ?_, rfl⟩
  ext1
  · rfl
  · exact get_insert_eq hinsert
  · rfl

theorem putCredential_eq_ok {credential : CredentialRow} {x : Unit} (old : CredentialRow)
    (h : RegistrationStore.putCredential credential s = .ok (x, s'))
    (hold : s.setup.credentials credential.revisionId = some old) :
    s'.setup = s.setup.putCredential credential ∧ s'.locksOf = s.locksOf := by
  simp only [RegistrationStore.putCredential, bind_eq_ok, orRaise_eq_ok, pure_eq_ok,
    Prod.mk.injEq] at h
  obtain ⟨credentials, hput, -, rfl⟩ := h
  refine ⟨?_, rfl⟩
  ext1
  · rfl
  · exact get_put_eq hput hold
  · rfl

theorem createInSession_eq_ok {spec : OperationSpec} {eventPayload : Dict} {x : Unit}
    (h : createInSession site i spec eventPayload s = .ok (x, s')) :
    s'.setup = s.setup ∧ s'.locksOf = s.locksOf := by
  unfold createInSession at h
  split at h
  · simp only [bind_eq_ok, pure_eq_ok, Prod.mk.injEq] at h
    obtain ⟨_, -, -, rfl⟩ := h
    exact ⟨rfl, rfl⟩
  · split at h
    · cases h
      exact ⟨rfl, rfl⟩
    · cases h

theorem revocationEvent_eq_ok {row : Attempt} {operationId eventType stage : Str}
    {status : OperationStatus} {x : Unit}
    (h : revocationEvent site i row operationId status eventType stage s = .ok (x, s')) :
    s'.setup = s.setup ∧ s'.locksOf = s.locksOf := by
  simp only [revocationEvent, bind_eq_ok, pure_eq_ok, Prod.mk.injEq] at h
  obtain ⟨⟨_, mid⟩, happend, -, rfl⟩ := h
  exact append_eq_ok happend

theorem retirePrevious_eq_ok {connection : ConnectionRow} {x : Unit}
    (h : retirePrevious connection s = .ok (x, s')) :
    s'.setup = s.setup.retire connection ∧ s'.locksOf = s.locksOf := by
  unfold retirePrevious at h
  cases hactive : connection.activeRevisionId with
  | none =>
      simp only [hactive] at h
      cases h
      refine ⟨?_, rfl⟩
      ext1
      · rfl
      · funext id
        simp [Setup.retire, hactive]
      · rfl
  | some revisionId =>
      simp only [hactive, bind_eq_ok, orRaise_eq_ok] at h
      obtain ⟨previous, hprevious, h⟩ := h
      have hprevious' : s.setup.credentials revisionId = some previous := hprevious
      have hid : previous.revisionId = revisionId := Table.key_of_get hprevious
      by_cases hstate : previous.state = .active
      · rw [if_pos hstate] at h
        obtain ⟨hsetup, hlocks⟩ := putCredential_eq_ok previous h (by
          rw [show ({ previous with state := .retiring } : CredentialRow).revisionId =
            previous.revisionId from rfl, hid]
          exact hprevious')
        refine ⟨hsetup.trans ?_, hlocks⟩
        ext1
        · rfl
        · funext id
          rw [Setup.credentials_putCredential]
          by_cases heq : id = revisionId
          · rw [if_pos (heq.trans hid.symm), Setup.retire, heq]
            simp [hprevious', hactive, hstate]
          · rw [if_neg (fun h => heq (h.trans hid))]
            simp [Setup.retire, hactive, Ne.symm heq]
        · rfl
      · rw [if_neg hstate] at h
        cases h
        refine ⟨?_, rfl⟩
        ext1
        · rfl
        · funext id
          by_cases heq : id = revisionId
          · rw [heq, Setup.retire]
            simp [hprevious', hstate]
          · simp [Setup.retire, hactive, Ne.symm heq]
        · rfl

theorem switchTo_eq_ok {connection : ConnectionRow} {credential : CredentialRow} {x : Unit}
    (old : CredentialRow)
    (h : switchTo connection credential s = .ok (x, s'))
    (hold : s.setup.credentials credential.revisionId = some old) :
    s'.setup = (s.setup.putCredential { credential with state := .active }).putConnection
        (connection.switched credential.revisionId) ∧ s'.locksOf = s.locksOf := by
  simp only [switchTo, bind_eq_ok, pure_eq_ok, Prod.mk.injEq] at h
  obtain ⟨⟨_, mid⟩, hput, -, rfl⟩ := h
  obtain ⟨hsetup, hlocks⟩ := putCredential_eq_ok old hput hold
  refine ⟨?_, hlocks⟩
  rw [← hsetup]
  rfl

theorem revokeCredential_eq_ok {revisionId : Option Str} {x : Unit}
    (h : revokeCredential revisionId s = .ok (x, s')) :
    s'.setup = s.setup.revoke revisionId ∧ s'.locksOf = s.locksOf := by
  cases revisionId with
  | none =>
      cases h
      refine ⟨?_, rfl⟩
      ext1
      · rfl
      · funext id
        simp [Setup.revoke]
      · rfl
  | some revisionId =>
      simp only [revokeCredential, bind_eq_ok, orRaise_eq_ok] at h
      obtain ⟨credential, hcredential, h⟩ := h
      have hcredential' : s.setup.credentials revisionId = some credential := hcredential
      have hid : credential.revisionId = revisionId := Table.key_of_get hcredential
      obtain ⟨hsetup, hlocks⟩ := putCredential_eq_ok credential h (by
        rw [show ({ credential with state := .revoked, ciphertext := none } :
          CredentialRow).revisionId = credential.revisionId from rfl, hid]
        exact hcredential')
      refine ⟨hsetup.trans ?_, hlocks⟩
      ext1
      · rfl
      · funext id
        rw [Setup.credentials_putCredential]
        by_cases heq : id = revisionId
        · rw [if_pos (heq.trans hid.symm), Setup.revoke, heq]
          simp [hcredential']
        · rw [if_neg (fun h => heq (h.trans hid))]
          simp [Setup.revoke, Ne.symm heq]
      · rfl

end Statements

/-! ### Transactions -/

/-- The attempt that a call of its owner reads at the version it expects. -/
structure Owns (b : Setup) (attemptId actorId : Str) (version : ℕ) (row : Attempt) : Prop where
  stored : b.attempts attemptId = some row
  id : row.attemptId = attemptId
  actor : row.actorId = actorId
  version : row.version = version

section Transactions

variable {site : Site} {s : SetupDb} {t u : Txn SetupDb} {b v : Setup} {attemptId actorId : Str}
  {version : ℕ} {r : Attempt}

theorem Holding.owned {row : Attempt} (h : Holding b v t) (hrun : Runs Beside
      (Script.check (owned attemptId actorId (some version))) t (.ok row) u) :
    Holding b v u ∧ Owns v attemptId actorId version row := by
  obtain ⟨hu, hok⟩ := h.check hrun
  obtain ⟨hrow, hactor, hversion⟩ := owned_eq_ok hok
  rw [hu.view] at hrow
  exact ⟨hu, hrow, attemptId_of_attempts (hu.view.symm ▸ hrow), hactor, hversion _ rfl⟩

theorem Holding.connection {connection : ConnectionRow} (h : Holding b v t)
    (hrun : Runs Beside (Script.check connectionRow) t (.ok connection) u) :
    Holding b v u ∧ v.connection = some connection := by
  obtain ⟨hu, hok⟩ := h.check hrun
  rw [connectionRow, orRaise_eq_ok] at hok
  exact ⟨hu, (congrArg Setup.connection hu.view).symm.trans hok⟩

/-- The scan for unfinished work under the connection lock finds no open target lock. -/
theorem Holding.finished {excluding : Str} {unfinished : Bool} (h : Holding b v t)
    (hrun : Runs Beside (hasUnfinishedCoordination excluding) t (.ok unfinished) u)
    (hnone : unfinished = false) : Holding b v u ∧ Idle u.base := by
  obtain ⟨operation, t₁, h₁, hrest⟩ := runs_bind_ok hrun
  obtain ⟨lock, t₂, h₂, hrest⟩ := runs_bind_ok hrest
  obtain ⟨recovery, t₃, h₃, hrest⟩ := runs_bind_ok hrest
  obtain ⟨hvalue, rfl⟩ := runs_pure_ok hrest
  obtain ⟨hold₂, hlock⟩ := (h.query h₁).1.query h₂
  obtain ⟨henv, -⟩ := runs_query_ok h₃
  have hlock' : lock = false := by
    rw [hnone, Bool.or_eq_false_iff, Bool.or_eq_false_iff] at hvalue
    exact hvalue.1.2
  have hidle : Idle t₂.base := (idle_of_openLock (hlock.trans hlock')).of_eq hold₂.locks.symm
  exact ⟨hold₂.beside henv, hold₂.idle henv hidle⟩

/-- `advance` moves an unresolved attempt of an expected phase. -/
theorem advance_ok {phases : List Phase} {a : Advance} (h : Runs Beside
      (advance site attemptId actorId version phases a) (Txn.start s) (.ok r) t) :
    ∃ b row, Holding b (b.putAttempt r) t ∧ Owns b attemptId actorId version row ∧
      row.phase ∈ phases ∧ row.resolved = false ∧ r = row.advanced a := by
  obtain ⟨_, t₁, h₁, hrest⟩ := runs_bind_ok h
  obtain ⟨b, hold⟩ := holding_of_takeLock h₁
  obtain ⟨row, t₂, h₂, hrest⟩ := runs_bind_ok hrest
  obtain ⟨hold, howns⟩ := hold.owned h₂
  obtain ⟨_, t₃, h₃, hrest⟩ := runs_bind_ok hrest
  obtain ⟨hold, hphase⟩ := hold.lift h₃
  rw [raiseIf_eq_ok, not_or, not_not, Bool.not_eq_true] at hphase
  obtain ⟨w, db, henv, hok, rfl⟩ := runs_exec_ok hrest
  have hw := hold.beside henv
  obtain ⟨hr, hsetup, hlocks⟩ := advanceRow_eq_ok row hok
    (by rw [hw.view, howns.id]; exact howns.stored)
  refine ⟨b, row, ⟨hw.held, hw.base, ?_, hlocks.trans hw.locks⟩, howns, hphase.1, hphase.2, hr⟩
  rw [hsetup, hw.view, hr]

/-- `stage_secret` stores the token of an attempt that is being issued or imported, once. -/
theorem stageSecret_ok {secret tokenId : Str} (h : Runs Beside
      (stageSecret site attemptId actorId version secret tokenId) (Txn.start s) (.ok r) t) :
    ∃ b row credential, Holding b ((b.putCredential credential).putAttempt r) t ∧
      Owns b attemptId actorId version row ∧ checkStaging row tokenId = .ok () ∧
      b.credentials credential.revisionId = none ∧ credential.state = .pending ∧
      credential.configuration.tokenId = tokenId ∧
      r = { row with revisionId := some credential.revisionId, phase := .secretStaged
                     resolved := false, version := row.version + 1 } := by
  obtain ⟨cipher, t₀, h₀, hrest⟩ := runs_bind_ok h
  obtain ⟨-, rfl⟩ := runs_lift_ok h₀
  obtain ⟨_, t₁, h₁, hrest⟩ := runs_bind_ok hrest
  obtain ⟨b, hold⟩ := holding_of_takeLock h₁
  obtain ⟨row, t₂, h₂, hrest⟩ := runs_bind_ok hrest
  obtain ⟨hold, howns⟩ := hold.owned h₂
  obtain ⟨_, t₃, h₃, hrest⟩ := runs_bind_ok hrest
  obtain ⟨hold, hstaging⟩ := hold.lift h₃
  obtain ⟨connection, t₄, h₄, hrest⟩ := runs_bind_ok hrest
  obtain ⟨hold, -⟩ := hold.connection h₄
  obtain ⟨ciphertext, t₅, h₅, hrest⟩ := runs_bind_ok hrest
  obtain ⟨hold, -⟩ := hold.lift h₅
  obtain ⟨_, t₆, h₆, hrest⟩ := runs_bind_ok hrest
  obtain ⟨w, db, henv, hinsert, rfl⟩ := runs_exec_ok h₆
  have hw := hold.beside henv
  obtain ⟨hnew, hsetup, hlocks⟩ := insertCredential_eq_ok hinsert
  rw [hw.view] at hnew hsetup
  obtain ⟨w', db', henv', hadvance, rfl⟩ := runs_exec_ok hrest
  have hmid : Holding b _ { w with view := db } := ⟨hw.held, hw.base, hsetup, hlocks.trans hw.locks⟩
  have hw' := hmid.beside henv'
  obtain ⟨hr, hsetup', hlocks'⟩ := advanceRow_eq_ok row hadvance
    (by rw [hw'.view, Setup.attempts_putCredential]; exact howns.id.symm ▸ howns.stored)
  refine ⟨b, row, _, ⟨hw'.held, hw'.base, ?_, hlocks'.trans hw'.locks⟩, howns, hstaging, hnew,
    rfl, rfl, hr⟩
  rw [hsetup', hw'.view, hr]

/-- The setup after an activation. -/
def Setup.activated (b : Setup) (connection : ConnectionRow) (credential : CredentialRow)
    (r : Attempt) : Setup :=
  (((b.retire connection).putCredential { credential with state := .active }).putConnection
    (connection.switched credential.revisionId)).putAttempt r

/-- `activate` switches the connection to the pending credential of a verified attempt, when no
target lock is open. -/
theorem activate_ok (h : Runs Beside (activate site attemptId actorId version) (Txn.start s)
      (.ok r) t) :
    ∃ b row connection credential, Holding b (b.activated connection credential r) t ∧
      Idle t.base ∧ Owns b attemptId actorId version row ∧ b.connection = some connection ∧
      row.phase = .verified ∧ connection.version = row.expectedConnectionVersion ∧
      row.revisionId = some credential.revisionId ∧
      b.credentials credential.revisionId = some credential ∧ credential.state = .pending ∧
      r = row.advanced
        { phase := .active, operationStatus := some .succeeded, resolved := true } := by
  obtain ⟨_, t₁, h₁, hrest⟩ := runs_bind_ok h
  obtain ⟨b, hold⟩ := holding_of_takeLock h₁
  obtain ⟨row, t₂, h₂, hrest⟩ := runs_bind_ok hrest
  obtain ⟨hold, howns⟩ := hold.owned h₂
  obtain ⟨connection, t₃, h₃, hrest⟩ := runs_bind_ok hrest
  obtain ⟨hold, hconnection⟩ := hold.connection h₃
  obtain ⟨_, t₄, h₄, hrest⟩ := runs_bind_ok hrest
  obtain ⟨hold, hphase⟩ := hold.lift h₄
  rw [raiseIf_eq_ok, not_or, not_not, not_not] at hphase
  obtain ⟨unfinished, t₅, h₅, hrest⟩ := runs_bind_ok hrest
  obtain ⟨_, t₆, h₆, hrest⟩ := runs_bind_ok hrest
  obtain ⟨hunfinished, ht₆⟩ := runs_lift_ok h₆
  rw [raiseIf_eq_ok, Bool.not_eq_true] at hunfinished
  rw [ht₆] at hrest
  obtain ⟨hold, hidle⟩ := hold.finished h₅ hunfinished
  obtain ⟨credential, t₇, h₇, hrest⟩ := runs_bind_ok hrest
  obtain ⟨henv₇, hcredential⟩ := runs_check_ok h₇
  have hidle := hold.idle henv₇ hidle
  have hold := hold.beside henv₇
  rw [orRaise_eq_ok, Option.filter_eq_some_iff, decide_eq_true_eq, Option.bind_eq_some_iff]
    at hcredential
  obtain ⟨⟨revisionId, hrevision, hget⟩, hpending⟩ := hcredential
  have hid : credential.revisionId = revisionId := Table.key_of_get hget
  have hstored : b.credentials credential.revisionId = some credential := by
    rw [hid, ← hold.view]
    exact hget
  obtain ⟨cipher, t₈, h₈, hrest⟩ := runs_bind_ok hrest
  obtain ⟨_, t₉, h₉, hrest⟩ := runs_bind_ok hrest
  obtain ⟨_, t₁₀, h₁₀, hrest⟩ := runs_bind_ok hrest
  rw [(runs_lift_ok h₁₀).2, (runs_lift_ok h₉).2, (runs_lift_ok h₈).2] at hrest
  -- the previous credential retires, the new one becomes active, and the attempt is resolved
  obtain ⟨_, t₁₁, h₁₁, hrest⟩ := runs_bind_ok hrest
  obtain ⟨w, db, henv, hok, rfl⟩ := runs_exec_ok h₁₁
  have hidle := hold.idle henv hidle
  have hw := hold.beside henv
  obtain ⟨hsetup, hlocks⟩ := retirePrevious_eq_ok hok
  rw [hw.view] at hsetup
  have hold : Holding b _ { w with view := db } := ⟨hw.held, hw.base, hsetup, hlocks.trans hw.locks⟩
  obtain ⟨_, t₁₂, h₁₂, hrest⟩ := runs_bind_ok hrest
  obtain ⟨w', db', henv', hok', rfl⟩ := runs_exec_ok h₁₂
  have hidle := hold.idle henv' hidle
  have hw' := hold.beside henv'
  have hkept : (b.retire connection).credentials credential.revisionId = some credential := by
    simp [Setup.retire, hstored, hpending]
  obtain ⟨hsetup', hlocks'⟩ := switchTo_eq_ok credential hok'
    (by rw [hw'.view]; exact hkept)
  rw [hw'.view] at hsetup'
  have hold : Holding b _ { w' with view := db' } :=
    ⟨hw'.held, hw'.base, hsetup', hlocks'.trans hw'.locks⟩
  obtain ⟨w'', db'', henv'', hok'', rfl⟩ := runs_exec_ok hrest
  have hw'' := hold.beside henv''
  obtain ⟨hr, hsetup'', hlocks''⟩ := advanceRow_eq_ok row hok''
    (by rw [hw''.view]; exact howns.id.symm ▸ howns.stored)
  have hidle := hold.idle henv'' hidle
  refine ⟨b, row, connection, credential, ⟨hw''.held, hw''.base, ?_, hlocks''.trans hw''.locks⟩,
    hidle, howns, hconnection, hphase.1, hphase.2, hid ▸ hrevision, hstored,
    hpending, hr⟩
  rw [hsetup'', hw''.view, hr]
  rfl

/-- The admission is closed for the revocation of the active credential, when no target lock is
open. -/
theorem closeIfActive_ok {row : Attempt} {connection : ConnectionRow} {x : Unit}
    (h : Runs Beside (closeIfActive row connection) t (.ok x) u) (hold : Holding b b t) :
    ∃ v, Holding b v u ∧
      ((v = b ∧ ¬ (row.revisionId.isSome ∧ row.revisionId = connection.activeRevisionId)) ∨
        (v = b.putConnection { connection with admissionOpen := false } ∧
          row.revisionId.isSome ∧ row.revisionId = connection.activeRevisionId ∧ Idle u.base)) := by
  unfold closeIfActive at h
  split at h
  · rename_i hactive
    obtain ⟨unfinished, t₁, h₁, hrest⟩ := runs_bind_ok h
    obtain ⟨_, t₂, h₂, hrest⟩ := runs_bind_ok hrest
    obtain ⟨hunfinished, ht₂⟩ := runs_lift_ok h₂
    rw [raiseIf_eq_ok, Bool.not_eq_true] at hunfinished
    rw [ht₂] at hrest
    obtain ⟨hold, hidle⟩ := hold.finished h₁ hunfinished
    obtain ⟨w, db, henv, hok, rfl⟩ := runs_exec_ok hrest
    have hidle := hold.idle henv hidle
    have hw := hold.beside henv
    cases hok
    refine ⟨_, ⟨hw.held, hw.base, ?_, hw.locks⟩, .inr ⟨rfl, hactive.1, hactive.2, hidle⟩⟩
    rw [← hw.view]
    rfl
  · rename_i hactive
    obtain ⟨-, rfl⟩ := runs_pure_ok h
    exact ⟨b, hold, .inl ⟨rfl, hactive⟩⟩

/-- `begin_revoke` marks the attempt, and closes the admission when its credential is active. -/
theorem beginRevoke_ok (h : Runs Beside (beginRevoke site attemptId actorId version)
      (Txn.start s) (.ok r) t) :
    ∃ b row connection v, Holding b (v.putAttempt r) t ∧ Owns b attemptId actorId version row ∧
      b.connection = some connection ∧ row.intent.mode ≠ .importEnv ∧ row.phase ∉ unrevocable ∧
      ((v = b ∧ ¬ (row.revisionId.isSome ∧ row.revisionId = connection.activeRevisionId)) ∨
        (v = b.putConnection { connection with admissionOpen := false } ∧
          row.revisionId.isSome ∧ row.revisionId = connection.activeRevisionId ∧
          Idle t.base)) ∧
      r = { row with revocationOperationId := some (revocationOperationId row.attemptId)
                     phase := .revocationPending, version := row.version + 1 } := by
  obtain ⟨_, t₁, h₁, hrest⟩ := runs_bind_ok h
  obtain ⟨b, hold⟩ := holding_of_takeLock h₁
  obtain ⟨row, t₂, h₂, hrest⟩ := runs_bind_ok hrest
  obtain ⟨hold, howns⟩ := hold.owned h₂
  obtain ⟨connection, t₃, h₃, hrest⟩ := runs_bind_ok hrest
  obtain ⟨hold, hconnection⟩ := hold.connection h₃
  obtain ⟨_, t₄, h₄, hrest⟩ := runs_bind_ok hrest
  obtain ⟨hold, hmode⟩ := hold.lift h₄
  obtain ⟨_, t₅, h₅, hrest⟩ := runs_bind_ok hrest
  obtain ⟨hold, hphase⟩ := hold.lift h₅
  rw [raiseIf_eq_ok] at hmode hphase
  obtain ⟨_, t₆, h₆, hrest⟩ := runs_bind_ok hrest
  obtain ⟨v, hold, hclose⟩ := closeIfActive_ok h₆ hold
  have hstored : v.attempts row.attemptId = some row := by
    have hrow : b.attempts row.attemptId = some row := howns.id.symm ▸ howns.stored
    rcases hclose with ⟨rfl, -⟩ | ⟨rfl, -⟩
    · exact hrow
    · exact hrow
  obtain ⟨_, t₇, h₇, hrest⟩ := runs_bind_ok hrest
  obtain ⟨w, db, henv, hok, rfl⟩ := runs_exec_ok h₇
  have hw := hold.beside henv
  obtain ⟨hsetup, hlocks⟩ := createInSession_eq_ok hok
  have hold₇ : Holding b v { w with view := db } :=
    ⟨hw.held, hw.base, hsetup.trans hw.view, hlocks.trans hw.locks⟩
  obtain ⟨_, t₈, h₈, hrest⟩ := runs_bind_ok hrest
  obtain ⟨w', db', henv', hok', rfl⟩ := runs_exec_ok h₈
  have hw' := hold₇.beside henv'
  obtain ⟨hsetup', hlocks'⟩ := revocationEvent_eq_ok hok'
  have hold₈ : Holding b v { w' with view := db' } :=
    ⟨hw'.held, hw'.base, hsetup'.trans hw'.view, hlocks'.trans hw'.locks⟩
  obtain ⟨w'', db'', henv'', hok'', rfl⟩ := runs_exec_ok hrest
  have hw'' := hold₈.beside henv''
  obtain ⟨hr, hsetup'', hlocks''⟩ := putAttempt_eq_ok row hok''
    (by rw [hw''.view]; exact hstored)
  refine ⟨b, row, connection, v, ⟨hw''.held, hw''.base, ?_, hlocks''.trans hw''.locks⟩, howns,
    hconnection, hmode, hphase, ?_, hr⟩
  · rw [hsetup'', hw''.view, hr]
  · rcases hclose with hkept | ⟨hv, hsome, heq, hidle⟩
    · exact .inl hkept
    · have hidle := hold.idle henv hidle
      have hidle := hold₇.idle henv' hidle
      have hidle := hold₈.idle henv'' hidle
      exact .inr ⟨hv, hsome, heq, hidle⟩

/-- `finish_revoke` resolves a revoked attempt and removes the secret of its credential. -/
theorem finishRevoke_ok (h : Runs Beside (finishRevoke site attemptId actorId version)
      (Txn.start s) (.ok r) t) :
    ∃ b row a, Holding b ((b.revoke row.revisionId).putAttempt r) t ∧
      Owns b attemptId actorId version row ∧ row.phase = .revocationPending ∧
      row.revocationOperationId.isSome ∧ a.phase = .revoked ∧ a.resolved = true ∧
      a.planDigest = none ∧ r = row.advanced a := by
  obtain ⟨_, t₁, h₁, hrest⟩ := runs_bind_ok h
  obtain ⟨b, hold⟩ := holding_of_takeLock h₁
  obtain ⟨row, t₂, h₂, hrest⟩ := runs_bind_ok hrest
  obtain ⟨hold, howns⟩ := hold.owned h₂
  obtain ⟨operationId, t₃, h₃, hrest⟩ := runs_bind_ok hrest
  obtain ⟨hold, hpending⟩ := hold.lift h₃
  rw [orRaise_eq_ok, Option.filter_eq_some_iff, decide_eq_true_eq] at hpending
  obtain ⟨_, t₄, h₄, hrest⟩ := runs_bind_ok hrest
  have hold := hold.exec b h₄ fun s s' hs hok =>
    ⟨(revocationEvent_eq_ok hok).1.trans hs, (revocationEvent_eq_ok hok).2⟩
  obtain ⟨_, t₅, h₅, hrest⟩ := runs_bind_ok hrest
  have hold := hold.exec b h₅ fun s s' hs hok =>
    ⟨(revocationEvent_eq_ok hok).1.trans hs, (revocationEvent_eq_ok hok).2⟩
  obtain ⟨_, t₆, h₆, hrest⟩ := runs_bind_ok hrest
  have hold := hold.exec b h₆ fun s s' hs hok =>
    ⟨(revocationEvent_eq_ok hok).1.trans hs, (revocationEvent_eq_ok hok).2⟩
  obtain ⟨_, t₇, h₇, hrest⟩ := runs_bind_ok hrest
  have hold := hold.exec (b.revoke row.revisionId) h₇ fun s s' hs hok =>
    ⟨hs ▸ (revokeCredential_eq_ok hok).1, (revokeCredential_eq_ok hok).2⟩
  obtain ⟨original, t₈, h₈, hrest⟩ := runs_bind_ok hrest
  obtain ⟨hold, -⟩ := hold.check h₈
  obtain ⟨w, db, henv, hok, rfl⟩ := runs_exec_ok hrest
  have hw := hold.beside henv
  obtain ⟨hr, hsetup, hlocks⟩ := advanceRow_eq_ok row hok
    (by rw [hw.view]; exact howns.id.symm ▸ howns.stored)
  refine ⟨b, row, _, ⟨hw.held, hw.base, ?_, hlocks.trans hw.locks⟩, howns, hpending.2,
    by rw [hpending.1]; rfl, rfl, rfl, rfl, hr⟩
  rw [hsetup, hw.view, hr]

/-! ### Preparation -/

theorem attemptOf_eq_some {connectionId identity : Str} {row : Attempt}
    (h : attemptOf connectionId identity s = some row) :
    s.setup.attempts row.attemptId = some row ∧ row.idempotencyDigest = identity := by
  have hfound := List.find?_some h
  rw [Bool.and_eq_true, decide_eq_true_eq, decide_eq_true_eq] at hfound
  exact ⟨Table.get_of_mem (List.mem_of_find?_eq_some h), hfound.2⟩

theorem unresolved_eq_false {connectionId : Str} (h : unresolved connectionId s = false)
    {id : Str} {row : Attempt} (hrow : s.setup.attempts id = some row)
    (hconnection : row.connectionId = connectionId) : row.resolved = true := by
  rw [unresolved, List.any_eq_false] at h
  have hnot := h row (Table.mem_of_get hrow)
  rw [Bool.and_eq_true, decide_eq_true_eq, Bool.not_eq_true', not_and, Bool.not_eq_false] at hnot
  exact hnot hconnection

/-- The connection that a preparation finds or makes. -/
structure Connects (b : Setup) (installationId clusterId : Str) (connection : ConnectionRow) :
    Prop where
  found : b.connection = some connection ∨ b.connection = none ∧
    ∃ id, connection = newConnection id installationId clusterId
  installation : connection.installationId = installationId
  cluster : connection.clusterId = clusterId

theorem putConnection_of_found {b : Setup} {connection : ConnectionRow}
    (h : b.connection = some connection) : b.putConnection connection = b := by
  ext1
  · exact h.symm
  · rfl
  · rfl

theorem ensureConnection_ok {connectionId installationId clusterId : Str}
    {connection : ConnectionRow} (h : Runs Beside
      (ensureConnection connectionId installationId clusterId) t (.ok connection) u)
    (hold : Holding b b t) : Holding b (b.putConnection connection) u ∧
      (b.connection = some connection ∨ b.connection = none ∧
        ∃ id, connection = newConnection id installationId clusterId) := by
  obtain ⟨found, t₁, h₁, hrest⟩ := runs_bind_ok h
  obtain ⟨hold, hfound⟩ := hold.query h₁
  have hconnection : b.connection = found := by
    rw [← hold.view]
    exact hfound
  cases found with
  | some existing =>
      obtain ⟨rfl, rfl⟩ := runs_pure_ok hrest
      rw [putConnection_of_found hconnection]
      exact ⟨hold, .inl hconnection⟩
  | none =>
      obtain ⟨_, t₂, h₂, hrest⟩ := runs_bind_ok hrest
      obtain ⟨rfl, rfl⟩ := runs_pure_ok hrest
      refine ⟨hold.exec _ h₂ fun s s' hs hok => ?_, .inr ⟨hconnection, _, rfl⟩⟩
      cases hok
      exact ⟨hs ▸ rfl, rfl⟩

/-- `prepare` answers with the attempt that was made for the key before, or makes the one that is
unresolved. -/
theorem prepare_ok {q : Preparation} (h : Runs Beside (prepare site q) (Txn.start s) (.ok r) t) :
    ∃ b installationId connection, Connects b installationId q.clusterId connection ∧
      r.idempotencyDigest = (site.rt.sha256 q.idempotencyKey).digits ∧
      r.intentDigest = site.digest (.dict q.intent.normalized) ∧ r.actorId = q.actor.userId ∧
      ((Holding b (b.putConnection connection) t ∧ b.attempts r.attemptId = some r) ∨
        (Holding b ((b.putConnection connection).putAttempt r) t ∧
          b.attempts r.attemptId = none ∧ r.phase = .prepared ∧ r.resolved = false ∧
          r.revisionId = none ∧ r.revocationOperationId = none ∧ r.intent = q.intent ∧
          r.connectionId = connection.connectionId ∧
          r.expectedConnectionVersion = connection.version ∧
          ∀ id row, b.attempts id = some row → row.connectionId = connection.connectionId →
            row.resolved = true)) := by
  obtain ⟨_, t₁, h₁, hrest⟩ := runs_bind_ok h
  obtain ⟨_, t₂, h₂, hrest⟩ := runs_bind_ok hrest
  obtain ⟨installationId, t₃, h₃, hrest⟩ := runs_bind_ok hrest
  obtain ⟨_, t₄, h₄, hrest⟩ := runs_bind_ok hrest
  rw [(runs_lift_ok h₄).2, (runs_lift_ok h₃).2, (runs_lift_ok h₂).2, (runs_lift_ok h₁).2] at hrest
  obtain ⟨_, t₅, h₅, hrest⟩ := runs_bind_ok hrest
  obtain ⟨b, hold⟩ := holding_of_takeLock h₅
  obtain ⟨connection, t₆, h₆, hrest⟩ := runs_bind_ok hrest
  obtain ⟨hold, hfound⟩ := ensureConnection_ok h₆ hold
  obtain ⟨_, t₇, h₇, hrest⟩ := runs_bind_ok hrest
  obtain ⟨hold, hidentity⟩ := hold.lift h₇
  rw [raiseIf_eq_ok, not_or, not_not, not_not] at hidentity
  have hconnects : Connects b installationId q.clusterId connection :=
    ⟨hfound, hidentity.1, hidentity.2⟩
  obtain ⟨known, t₈, h₈, hrest⟩ := runs_bind_ok hrest
  obtain ⟨hold, hknown⟩ := hold.query h₈
  cases known with
  | some existing =>
      obtain ⟨hstored, hkey⟩ := attemptOf_eq_some hknown
      rw [hold.view] at hstored
      obtain ⟨_, t₉, h₉, hrest⟩ := runs_bind_ok hrest
      obtain ⟨hold, hsame⟩ := hold.lift h₉
      obtain ⟨rfl, rfl⟩ := runs_pure_ok hrest
      rw [raiseIf_eq_ok, not_or, not_not, not_not] at hsame
      exact ⟨b, installationId, connection, hconnects, hkey, hsame.1, hsame.2,
        .inl ⟨hold, hstored⟩⟩
  | none =>
      obtain ⟨pending, t₉, h₉, hrest⟩ := runs_bind_ok hrest
      obtain ⟨hold₉, hpending⟩ := hold.query h₉
      obtain ⟨_, t₁₀, h₁₀, hrest⟩ := runs_bind_ok hrest
      obtain ⟨hnone, ht₁₀⟩ := runs_lift_ok h₁₀
      rw [raiseIf_eq_ok, Bool.not_eq_true] at hnone
      rw [ht₁₀] at hrest
      obtain ⟨_, t₁₁, h₁₁, hrest⟩ := runs_bind_ok hrest
      have hold := hold₉.exec _ h₁₁ fun s s' hs hok =>
        ⟨(createInSession_eq_ok hok).1.trans hs, (createInSession_eq_ok hok).2⟩
      obtain ⟨w, db, henv, hok, rfl⟩ := runs_exec_ok hrest
      have hw := hold.beside henv
      obtain ⟨hnew, rfl, hsetup, hlocks⟩ := insertAttempt_eq_ok hok
      rw [hw.view] at hnew hsetup
      refine ⟨b, installationId, connection, hconnects, rfl, rfl, rfl, .inr ⟨⟨hw.held, hw.base,
        hsetup, hlocks.trans hw.locks⟩, hnew, rfl, rfl, rfl, rfl, rfl, rfl, rfl, ?_⟩⟩
      intro id row hrow hconnection
      exact unresolved_eq_false (hpending.trans hnone) (by rw [hold₉.view]; exact hrow) hconnection

end Transactions

end Gjallar.RegistrationStore

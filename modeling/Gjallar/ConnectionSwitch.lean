import Gjallar.LockExclusion
import Gjallar.RegistrationSpecs

/-!
# Switching the connection

Registrations, revocations and the acquisitions of target locks, interleaved statement by
statement under the connection lock, with everything else that is committed meanwhile. The active
credential is replaced or closed only while no target lock is open, and none opens until the next
activation; a process that is pinned to a replaced selection acquires no lock again.
-/
namespace Gjallar.ConnectionSwitch

open Gjallar.Text Gjallar.Data Gjallar.Tables Gjallar.Registration Gjallar.Operation
  Gjallar.Admission Gjallar.OperationStore Gjallar.TargetLocks Gjallar.RecoveryStore
  Gjallar.VmAdmission Gjallar.Transactions Gjallar.Interleaving Gjallar.AdmissionAtomicity
  Gjallar.RegistrationStore
open Gjallar.LockExclusion hiding Phase

/-! ### Acquisitions -/

/-- The coordination tables with the connections that an admission reads. -/
def admissions (s : SetupDb) : Db := { s.coordination with connections := s.connections }

/-- A statement on the coordination tables. -/
def onAdmissions {α : Type} (f : Db → Except StoreError (α × Db)) (s : SetupDb) :
    Except Failure (α × SetupDb) := do
  let (a, db) ← fromStore (f (admissions s))
  return (a, { s with coordination := db })

/-- A transaction on the coordination tables. -/
def coordinated {α : Type} : Script Db StoreError α → Transaction α
  | .done a => .done a
  | .fail e => .fail (.store e)
  | .statement f k => .statement (onAdmissions f) fun b => coordinated (k b)
  | .lock k => .lock (coordinated k)

section Statements

variable (rt : Runtime) (process : Process) (draws : ℕ → Draw)

/-- `ConfigurationLockRepository.acquire`. -/
def acquireHostScript (draw : Draw) (a : HostAcquisition) :
    Script Db StoreError OperationLockRecord := do
  let (targetType, targetId, scopeKey) ← Script.lift (a.checked rt)
  Script.takeLock
  Script.check fun db => a.admission process db.connections scopeKey
  Script.check fun db => a.clusterCheck scopeKey db.locks
  Script.exec fun db => do
    let (row, locks) ← a.insert draw targetType targetId scopeKey db.locks
    return (row, { db with locks := locks })

/-- The operation of a host configuration change and its recovery item. -/
def createHost (spec : OperationSpec) (lock : OperationLockRecord) :
    Script Db StoreError (OperationSnapshot × Option RecoveryLease) := do
  let bound := HostAdmission.binding spec lock
  let created ← createScript rt (draws 1) { spec with details := Dict.merge spec.details bound }
  let recovery ← Script.lift (HostAdmission.recoverySpec spec bound)
  let owner := spec.operationType.name ++ (":" : Str) ++ ((draws 2).uuid 1).digits
  let lease ← Script.exec (prepareAndClaim (draws 2) recovery owner (Instant.seconds 60) none none)
  return (created.1, some lease)

/-- `HostConfigurationAdmission.prepare`. -/
def prepareHostScript (spec : OperationSpec) (clusterId : Str) :
    Script Db StoreError (OperationSnapshot × Option RecoveryLease) := do
  Script.lift (HostAdmission.checkIdentity spec)
  Script.takeLock
  match ← Script.query fun db => db.operations.get spec.operationId with
  | some existing =>
      Script.lift (raiseIf (existing.intentDigest ≠ spec.intentDigest)
        (.operationIntentConflict spec.operationId))
      return (existing, none)
  | none =>
      let lock ← acquireHostScript rt process (draws 0) (HostAdmission.acquisition spec clusterId)
      createHost rt draws spec lock

end Statements

/-! ### What an acquisition commits -/

/-- The stored selection. -/
def selectionOf (v : Setup) : Selection :=
  v.connection.elim (.legacyEnv, none) ConnectionRow.selection

def IsOpen (v : Setup) : Prop := ∀ c ∈ v.connection, c.admissionOpen = true

/-- A process may acquire locks: the admission is open, and what it pinned is what is stored. -/
structure Permits (process : Process) (v : Setup) : Prop where
  isOpen : IsOpen v
  pinned : ∀ selection ∈ process.pinned, selection = selectionOf v

theorem pinSelection_eq_ok {process : Process} {s : SetupDb}
    (h : pinSelection process s.connections.connection = .ok ()) :
    ∀ selection ∈ process.pinned, selection = selectionOf s.setup := by
  intro selection hmem
  rw [Option.mem_def] at hmem
  rw [pinSelection, raiseIf_eq_ok, not_not, hmem, Option.getD_some] at h
  rw [h]
  simp only [Admission.selectionOf, SetupDb.connections, selectionOf, SetupDb.setup]
  cases s.connection <;> rfl

theorem permits_of_connection {process : Process} {s : SetupDb}
    (hpin : pinSelection process s.connections.connection = .ok ())
    (hopen : ∀ c ∈ s.connections.connection, c.admissionOpen = true) : Permits process s.setup := by
  refine ⟨fun c hc => ?_, pinSelection_eq_ok hpin⟩
  exact hopen c.record (Option.mem_map_of_mem _ hc)

theorem permits_of_admitMutation {process : Process} {s : SetupDb} {clusterId : Str} {vmid : ℤ}
    {operationType : OperationType}
    (h : admitMutation process s.connections clusterId vmid operationType = .ok ()) :
    Permits process s.setup := by
  simp only [admitMutation, bind_eq_ok] at h
  obtain ⟨_, hpin, h⟩ := h
  refine permits_of_connection hpin fun c hc => ?_
  rw [Option.mem_def] at hc
  simp only [hc, bind_eq_ok, raiseIf_eq_ok] at h
  obtain ⟨_, hopen, -⟩ := h
  rw [not_or, Bool.not_eq_false] at hopen
  exact hopen.2

theorem permits_of_admitHostMutation {process : Process} {s : SetupDb} {clusterId : Str}
    {operationType : OperationType} {target : Value}
    (h : admitHostMutation process s.connections clusterId operationType target = .ok ()) :
    Permits process s.setup := by
  simp only [admitHostMutation, bind_eq_ok] at h
  obtain ⟨_, hpin, h⟩ := h
  refine permits_of_connection hpin fun c hc => ?_
  rw [Option.mem_def] at hc
  simp only [hc, bind_eq_ok, raiseIf_eq_ok] at h
  obtain ⟨_, hopen, -⟩ := h
  rw [not_or, Bool.not_eq_false] at hopen
  exact hopen.2

/-- An acquisition has opened no lock yet, or it may do so. -/
structure Acquiring (process : Process) (t : Txn SetupDb) : Prop where
  setup : t.view.setup = t.base.setup
  locks : (t.held = true ∧ Permits process t.base.setup) ∨ OpensNone t.base t.view

section Carries

variable {process : Process} {t u : Txn SetupDb} {α β : Type}

theorem acquiring_start (s : SetupDb) : Acquiring process (Txn.start s) := ⟨rfl, .inr (.refl s)⟩

theorem Acquiring.beside (h : Acquiring process t) (henv : Beside t u) : Acquiring process u := by
  refine ⟨henv.setup_eq h.setup, ?_⟩
  rcases h.locks with ⟨hheld, hpermits⟩ | hnone
  · exact .inl ⟨henv.held.trans hheld, (henv.quiet hheld).setup.symm ▸ hpermits⟩
  · exact .inr (henv.opensNone hnone)

/-- A part of an acquisition that keeps to this. -/
def Carries (process : Process) (s : Script Db StoreError α) : Prop :=
  ∀ t a u, Acquiring process t → Runs Beside (coordinated s) t (.ok a) u → Acquiring process u

theorem coordinated_bind (s : Script Db StoreError α) (f : α → Script Db StoreError β) :
    coordinated (s >>= f) = coordinated s >>= fun a => coordinated (f a) := by
  induction s with
  | done a => rfl
  | fail e => rfl
  | statement g k ih => exact congrArg (Script.statement (onAdmissions g)) (funext ih)
  | lock k ih => exact congrArg Script.lock ih

theorem Carries.bind {s : Script Db StoreError α} {f : α → Script Db StoreError β}
    (hs : Carries process s) (hf : ∀ a, Carries process (f a)) : Carries process (s >>= f) := by
  intro t b u ht hrun
  rw [coordinated_bind] at hrun
  obtain ⟨a, v, h₁, h₂⟩ := runs_bind_ok hrun
  exact hf a v b u (hs t a v ht h₁) h₂

theorem carries_pure (a : α) : Carries process (pure a) := by
  intro t b u ht hrun
  obtain ⟨-, rfl⟩ := runs_pure_ok hrun
  exact ht

theorem carries_lift (x : Except StoreError α) : Carries process (Script.lift x) := by
  cases x with
  | error e =>
      intro t b u _ hrun
      cases hrun
  | ok a => exact carries_pure a

theorem carries_takeLock : Carries process Script.takeLock := by
  intro t a u ht hrun
  obtain ⟨v, henv, rfl⟩ := runs_takeLock_ok hrun
  have hv := ht.beside henv
  exact ⟨hv.setup, hv.locks.imp (fun h => ⟨rfl, h.2⟩) id⟩

theorem onAdmissions_eq_ok {f : Db → Except StoreError (α × Db)} {s s' : SetupDb} {a : α}
    (h : onAdmissions f s = .ok (a, s')) :
    ∃ db, f (admissions s) = .ok (a, db) ∧ s' = { s with coordination := db } := by
  unfold onAdmissions fromStore at h
  cases hf : f (admissions s) with
  | error e =>
      rw [hf] at h
      cases h
  | ok r =>
      rw [hf] at h
      cases h
      exact ⟨r.2, rfl, rfl⟩

/-- The locks are rewritten in place, and none is opened again. -/
def Settles (f : Db → Except StoreError (α × Db)) : Prop :=
  ∀ db a db', f db = .ok (a, db') → db.locks.Rewrites Closes db'.locks

theorem opensNone_of_rewrites {s : SetupDb} {db : Db}
    (h : s.coordination.locks.Rewrites Closes db.locks) :
    OpensNone s { s with coordination := db } := by
  intro id r' hr' hopen
  obtain ⟨r, hr, hid, hcloses⟩ := h.exists_of_mem (Table.mem_of_get hr')
  refine ⟨r, ?_, hcloses.2.2.2.2 hopen⟩
  have hkey : r.operationLockId = id := hid.symm.trans (Table.key_of_get hr')
  exact hkey ▸ Table.get_of_mem hr

theorem settles_of_same {f : Db → Except StoreError (α × Db)}
    (h : ∀ db a db', f db = .ok (a, db') → db'.locks = db.locks) : Settles f :=
  fun db a db' hf => h db a db' hf ▸ .refl Closes.refl _

theorem carries_exec {f : Db → Except StoreError (α × Db)} (hf : Settles f) :
    Carries process (Script.exec f) := by
  intro t a u ht hrun
  obtain ⟨v, db, henv, hok, rfl⟩ := runs_exec_ok hrun
  have hv := ht.beside henv
  obtain ⟨db', hok', rfl⟩ := onAdmissions_eq_ok hok
  have hrewrites : v.view.coordination.locks.Rewrites Closes db'.locks :=
    hf (admissions v.view) a db' hok'
  exact ⟨hv.setup, hv.locks.imp_right fun hnone => hnone.trans (opensNone_of_rewrites hrewrites)⟩

theorem carries_check (f : Db → Except StoreError α) : Carries process (Script.check f) := by
  refine carries_exec (settles_of_same fun db a db' h => ?_)
  cases hf : f db with
  | error e =>
      rw [hf] at h
      cases h
  | ok b =>
      rw [hf] at h
      cases h
      rfl

theorem carries_query (f : Db → α) : Carries process (Script.query f) := carries_check _

/-- A transaction that has been admitted, whatever locks it opens. -/
structure Permitted (process : Process) (t : Txn SetupDb) : Prop where
  held : t.held = true
  setup : t.view.setup = t.base.setup
  permits : Permits process t.base.setup

theorem Permitted.acquiring (h : Permitted process t) : Acquiring process t :=
  ⟨h.setup, .inl ⟨h.held, h.permits⟩⟩

theorem Permitted.beside (h : Permitted process t) (henv : Beside t u) : Permitted process u :=
  ⟨henv.held.trans h.held, henv.setup_eq h.setup, (henv.quiet h.held).setup.symm ▸ h.permits⟩

/-- An admitted transaction stays admitted. -/
theorem Permitted.runs {s : Script Db StoreError α} {a : α} (h : Permitted process t)
    (hrun : Runs Beside (coordinated s) t (.ok a) u) : Permitted process u := by
  induction s generalizing t with
  | done b =>
      cases hrun with
      | done _ _ => exact h
  | fail e => cases hrun
  | statement f k ih =>
      cases hrun with
      | @statement _ _ _ _ v _ b db _ henv hok hrest =>
          have hv := h.beside henv
          obtain ⟨db', -, rfl⟩ := onAdmissions_eq_ok hok
          have hnext : Permitted process { v with view := { v.view with coordination := db' } } :=
            ⟨hv.held, hv.setup, hv.permits⟩
          exact ih b hnext hrest
  | lock k ih =>
      cases hrun with
      | @lock _ _ v _ _ henv hrest =>
          have hv := h.beside henv
          have hnext : Permitted process { v with held := true } := ⟨rfl, hv.setup, hv.permits⟩
          exact ih hnext hrest

/-- An admission under the connection lock permits what follows. -/
theorem carries_admission {f : Db → Except StoreError Unit} {s : Script Db StoreError α}
    (hf : ∀ x : SetupDb, f (admissions x) = .ok () → Permits process x.setup) :
    Carries process (do Script.takeLock; Script.check f; s) := by
  intro t a u ht hrun
  rw [coordinated_bind] at hrun
  obtain ⟨_, t₁, h₁, hrun⟩ := runs_bind_ok hrun
  have ht₁ := carries_takeLock t _ t₁ ht h₁
  rw [coordinated_bind] at hrun
  obtain ⟨_, t₂, h₂, hrun⟩ := runs_bind_ok hrun
  have ht₂ := carries_check f t₁ _ t₂ ht₁ h₂
  have hheld : t₁.held = true := by
    obtain ⟨v, -, rfl⟩ := runs_takeLock_ok h₁
    rfl
  obtain ⟨v, db, henv, hok, rfl⟩ := runs_exec_ok h₂
  obtain ⟨db', hok', rfl⟩ := onAdmissions_eq_ok hok
  have hv := ht₁.beside henv
  have hpermits : Permits process v.view.setup := by
    refine hf v.view ?_
    cases hadmitted : f (admissions v.view) with
    | error e =>
        rw [hadmitted] at hok'
        cases hok'
    | ok _ => rfl
  have hpermitted : Permitted process { v with view := { v.view with coordination := db' } } :=
    ⟨henv.held.trans hheld, hv.setup, hv.setup ▸ hpermits⟩
  exact (hpermitted.runs hrun).acquiring

theorem carries_acquire (rt : Runtime) (draw : Draw) (a : Acquisition) :
    Carries process (acquireScript rt process draw a) := by
  refine (carries_check _).bind fun _ => carries_admission fun x hx => ?_
  simp only [Acquisition.admission] at hx
  split at hx
  · rename_i hadmit
    exact permits_of_admitMutation hadmit
  · cases hx

theorem carries_acquireAll (rt : Runtime) (draws : ℕ → Draw) (q : AdmissionRequest) (i : ℕ)
    (vmids : List ℤ) : Carries process (acquireScripts rt process draws q i vmids) := by
  induction vmids generalizing i with
  | nil => exact carries_pure _
  | cons vmid vmids ih =>
      exact (carries_acquire rt _ _).bind fun _ => (ih (i + 1)).bind fun _ => carries_pure _

theorem carries_releases (draw : Draw) (reason : Str) (locks : List DurableTargetLock) :
    Carries process (releaseScripts draw reason locks) := by
  induction locks with
  | nil => exact carries_pure _
  | cons lock locks ih =>
      exact (carries_exec fun _ _ _ h => release_rewrites h).bind fun _ => ih

theorem carries_create (rt : Runtime) (draw : Draw) (spec : OperationSpec) :
    Carries process (createScript rt draw spec) := by
  refine (carries_query _).bind fun found => ?_
  cases found with
  | some existing => exact carries_lift _
  | none =>
      refine carries_exec (settles_of_same fun db a db' h => ?_)
      unfold AdmissionAtomicity.insertOperation at h
      split at h
      · cases h
        rfl
      · cases h

theorem carries_claim (draw : Draw) (recovery : RecoverySpec) (owner : Str) (time : Instant) :
    Carries process (Script.exec (prepareAndClaim draw recovery owner time none none)) := by
  refine carries_exec (settles_of_same fun db a db' h => ?_)
  obtain ⟨-, -, recoveryTable, rfl⟩ := prepareAndClaim_operation h
  rfl

theorem carries_prepare (rt : Runtime) (draws : ℕ → Draw) (q : AdmissionRequest) :
    Carries process (prepareScript rt process draws q) := by
  refine (carries_lift _).bind fun _ => (carries_query _).bind fun found => ?_
  cases found with
  | some existing => exact (carries_lift _).bind fun _ => carries_pure _
  | none =>
      refine (carries_acquireAll rt draws q 0 _).bind fun acquired => (carries_query _).bind
        fun late => ?_
      cases late with
      | some existing =>
          exact (carries_lift _).bind fun _ => (carries_releases _ _ _).bind fun _ =>
            carries_pure _
      | none =>
          exact (carries_lift _).bind fun _ => (carries_create rt _ _).bind fun _ =>
            (carries_lift _).bind fun _ => (carries_claim _ _ _ _).bind fun _ => carries_pure _

theorem carries_acquireHost (rt : Runtime) (draw : Draw) (a : HostAcquisition) :
    Carries process (acquireHostScript rt process draw a) := by
  refine (carries_lift _).bind fun checked => carries_admission fun x hx => ?_
  simp only [HostAcquisition.admission] at hx
  split at hx
  · rename_i hadmit
    exact permits_of_admitHostMutation hadmit
  · cases hx

theorem carries_prepareHost (rt : Runtime) (draws : ℕ → Draw) (spec : OperationSpec)
    (clusterId : Str) : Carries process (prepareHostScript rt process draws spec clusterId) := by
  refine (carries_lift _).bind fun _ => carries_takeLock.bind fun _ =>
    (carries_query _).bind fun found => ?_
  cases found with
  | some existing => exact (carries_lift _).bind fun _ => carries_pure _
  | none =>
      exact (carries_acquireHost rt _ _).bind fun lock => (carries_create rt _ _).bind fun _ =>
        (carries_lift _).bind fun _ => (carries_claim _ _ _ _).bind fun _ => carries_pure _

end Carries

/-! ### The system -/

/-- The transactions that take the connection lock. -/
inductive Request where
  | prepare (site : Site) (q : Preparation)
  | advance (site : Site) (attemptId actorId : Str) (version : ℕ) (phases : List Phase)
      (a : Advance)
  | stageSecret (site : Site) (attemptId actorId : Str) (version : ℕ) (tokenSecret tokenId : Str)
  | activate (site : Site) (attemptId actorId : Str) (version : ℕ)
  | beginRevoke (site : Site) (attemptId actorId : Str) (version : ℕ)
  | finishRevoke (site : Site) (attemptId actorId : Str) (version : ℕ)
  | acquire (rt : Runtime) (process : Process) (draw : Draw) (a : Acquisition)
  | admitVm (rt : Runtime) (process : Process) (draws : ℕ → Draw) (q : AdmissionRequest)
  | admitHost (rt : Runtime) (process : Process) (draws : ℕ → Draw) (spec : OperationSpec)
      (clusterId : Str)

namespace Request

def Result : Request → Type
  | acquire .. => DurableTargetLock
  | admitVm .. | admitHost .. => OperationSnapshot × Option RecoveryLease
  | _ => Attempt

def script : (q : Request) → Transaction q.Result
  | prepare site q => RegistrationStore.prepare site q
  | advance site attemptId actorId version phases a =>
      RegistrationStore.advance site attemptId actorId version phases a
  | stageSecret site attemptId actorId version tokenSecret tokenId =>
      RegistrationStore.stageSecret site attemptId actorId version tokenSecret tokenId
  | activate site attemptId actorId version =>
      RegistrationStore.activate site attemptId actorId version
  | beginRevoke site attemptId actorId version =>
      RegistrationStore.beginRevoke site attemptId actorId version
  | finishRevoke site attemptId actorId version =>
      RegistrationStore.finishRevoke site attemptId actorId version
  | acquire rt process draw a => coordinated (acquireScript rt process draw a)
  | admitVm rt process draws q => coordinated (prepareScript rt process draws q)
  | admitHost rt process draws spec clusterId =>
      coordinated (prepareHostScript rt process draws spec clusterId)

/-- The process of an acquisition. -/
def process : Request → Option Process
  | acquire _ process _ _ | admitVm _ process _ _ | admitHost _ process _ _ _ => some process
  | _ => none

end Request

/-- What is committed without the connection lock: releases, observations, and whatever leaves the
target locks alone. -/
inductive Elsewhere (rt : Runtime) (s : SetupDb) : SetupDb → Prop
  | release {b : Bool} {db : Db} (draw : Draw) (lock : DurableTargetLock) (reason : Str)
      (h : TargetLocks.release draw lock reason s.coordination = .ok (b, db)) :
      Elsewhere rt s { s with coordination := db }
  | releaseOwned {b : Bool} {db : Db} (draw : Draw) (clusterId : Str) (vmid : ℤ)
      (ownerId reason : Str)
      (h : TargetLocks.releaseOwned draw clusterId vmid ownerId reason s.coordination =
        .ok (b, db)) : Elsewhere rt s { s with coordination := db }
  | observation {r : OperationSnapshot × RecoveryItem} {db : Db} (draw : Draw)
      (lease : RecoveryLease) (o : Observation)
      (h : commitObservation rt draw lease o s.coordination = .ok (r, db)) :
      Elsewhere rt s { s with coordination := db }
  | other {db : Db} (h : db.locks = s.coordination.locks) :
      Elsewhere rt s { s with coordination := db }

theorem quiet_of_elsewhere {rt : Runtime} {s s' : SetupDb} (h : Elsewhere rt s s') :
    Quiet s s' := by
  cases h with
  | release draw lock reason h => exact ⟨rfl, opensNone_of_rewrites (release_rewrites h)⟩
  | releaseOwned draw clusterId vmid ownerId reason h =>
      exact ⟨rfl, opensNone_of_rewrites (releaseOwned_rewrites h)⟩
  | observation draw lease o h =>
      exact ⟨rfl, opensNone_of_rewrites (commitObservation_rewrites h)⟩
  | other h => exact ⟨rfl, opensNone_of_rewrites (h ▸ .refl Closes.refl _)⟩

def setting (rt : Runtime) : Setting SetupDb Failure Request where
  Result := Request.Result
  script := Request.script
  outside := Elsewhere rt
  sees := Sees

/-! ### What a registration commits -/

/-- What a transaction of the registration repository does to the connection and the
credentials. -/
inductive Change (b : Setup) (idle : Prop) : Setup → Prop
  | attempts {v : Setup} (hconnection : v.connection = b.connection)
      (hcredentials : v.credentials = b.credentials) : Change b idle v
  | connected {v : Setup} {id installationId clusterId : Str} (hnone : b.connection = none)
      (hconnection : v.connection = some (newConnection id installationId clusterId))
      (hcredentials : v.credentials = b.credentials) : Change b idle v
  | staged {v : Setup} {credential : CredentialRow}
      (hnew : b.credentials credential.revisionId = none) (hpending : credential.state = .pending)
      (hconnection : v.connection = b.connection)
      (hcredentials : v.credentials = (b.putCredential credential).credentials) : Change b idle v
  | activated {v : Setup} {connection : ConnectionRow} {credential : CredentialRow} {r : Attempt}
      (hidle : idle) (hconnection : b.connection = some connection)
      (hstored : b.credentials credential.revisionId = some credential)
      (hpending : credential.state = .pending)
      (hsetup : v = b.activated connection credential r) : Change b idle v
  | closed {v : Setup} {connection : ConnectionRow} (hidle : idle)
      (hconnection : b.connection = some connection)
      (hactive : connection.activeRevisionId.isSome = true)
      (hclosed : v.connection = some { connection with admissionOpen := false })
      (hcredentials : v.credentials = b.credentials) : Change b idle v
  | revoked {v : Setup} {revisionId : Option Str} (hconnection : v.connection = b.connection)
      (hcredentials : v.credentials = (b.revoke revisionId).credentials) : Change b idle v

/-- What a transaction commits. -/
inductive Commit : Request → SetupDb → SetupDb → Prop
  | acquisition {q : Request} {process : Process} {s s' : SetupDb} (hq : q.process = some process)
      (hsetup : s'.setup = s.setup) (hlocks : OpensNone s s' ∨ Permits process s.setup) :
      Commit q s s'
  | registration {q : Request} {s s' : SetupDb} (hq : q.process = none)
      (hlocks : OpensNone s s') (hchange : Change s.setup (Idle s') s'.setup) : Commit q s s'

/-- What a transaction guarantees to the others. -/
structure Guarantee (q : Request) (held : Bool) (s s' : SetupDb) : Prop where
  free : held = false → Quiet s s'
  commit : Commit q s s'

section Ends

variable {q : Request} {s : SetupDb} {t : Txn SetupDb} {b v : Setup}

theorem guarantee_of_holding (hq : q.process = none) (h : Holding b v t)
    (hchange : Change b (Idle t.base) v) : Guarantee q t.held t.base t.view := by
  refine ⟨fun hfree => ?_, .registration hq h.opensNone ?_⟩
  · rw [h.held] at hfree
    cases hfree
  · have hidle : Idle t.view ↔ Idle t.base :=
      ⟨fun hi => hi.of_eq h.locks.symm, fun hi => hi.of_eq h.locks⟩
    rw [h.base, h.view, propext hidle]
    exact hchange

theorem guarantee_of_acquiring {process : Process} (hq : q.process = some process)
    (h : Acquiring process t) : Guarantee q t.held t.base t.view := by
  refine ⟨fun hfree => ⟨h.setup, ?_⟩, .acquisition hq h.setup ?_⟩
  · rcases h.locks with ⟨hheld, -⟩ | hnone
    · rw [hfree] at hheld
      cases hheld
    · exact hnone
  · rcases h.locks with ⟨-, hpermits⟩ | hnone
    · exact .inr hpermits
    · exact .inl hnone

theorem guarantee_of_ends {result : q.Result}
    (h : Ends Beside q.script (Txn.start s) result t) :
    Guarantee q t.held t.base t.view := by
  obtain ⟨u, hrun, henv⟩ := h
  cases q with
  | acquire rt process draw a =>
      exact guarantee_of_acquiring rfl
        ((carries_acquire rt draw a _ _ _ (acquiring_start s) hrun).beside henv)
  | admitVm rt process draws q =>
      exact guarantee_of_acquiring rfl
        ((carries_prepare rt draws q _ _ _ (acquiring_start s) hrun).beside henv)
  | admitHost rt process draws spec clusterId =>
      exact guarantee_of_acquiring rfl
        ((carries_prepareHost rt draws spec clusterId _ _ _ (acquiring_start s) hrun).beside henv)
  | prepare site q =>
      obtain ⟨b, installationId, connection, hconnects, -, -, -, hcases⟩ := prepare_ok hrun
      have hchange : ∀ v : Setup, v.connection = some connection →
          v.credentials = b.credentials → Change b (Idle t.base) v := by
        intro v hv hcredentials
        rcases hconnects.found with hfound | ⟨hnone, id, rfl⟩
        · exact .attempts (hv.trans hfound.symm) hcredentials
        · exact .connected hnone hv hcredentials
      rcases hcases with ⟨hold, -⟩ | ⟨hold, -⟩
      · exact guarantee_of_holding rfl (hold.beside henv) (hchange _ rfl rfl)
      · exact guarantee_of_holding rfl (hold.beside henv) (hchange _ rfl rfl)
  | advance site attemptId actorId version phases a =>
      obtain ⟨b, row, hold, -⟩ := advance_ok hrun
      exact guarantee_of_holding rfl (hold.beside henv) (.attempts rfl rfl)
  | stageSecret site attemptId actorId version tokenSecret tokenId =>
      obtain ⟨b, row, credential, hold, -, -, hnew, hpending, -⟩ := stageSecret_ok hrun
      exact guarantee_of_holding rfl (hold.beside henv) (.staged hnew hpending rfl rfl)
  | activate site attemptId actorId version =>
      obtain ⟨b, row, connection, credential, hold, hidle, -, hconnection, -, -, -, hstored,
        hpending, -⟩ := activate_ok hrun
      exact guarantee_of_holding rfl (hold.beside henv)
        (.activated (hold.idle henv hidle) hconnection hstored hpending rfl)
  | beginRevoke site attemptId actorId version =>
      obtain ⟨b, row, connection, v, hold, -, hconnection, -, -, hclose, -⟩ := beginRevoke_ok hrun
      refine guarantee_of_holding rfl (hold.beside henv) ?_
      rcases hclose with ⟨rfl, -⟩ | ⟨rfl, hsome, heq, hidle⟩
      · exact .attempts rfl rfl
      · exact .closed (hold.idle henv hidle) hconnection (heq ▸ hsome) rfl rfl
  | finishRevoke site attemptId actorId version =>
      obtain ⟨b, row, a, hold, -⟩ := finishRevoke_ok hrun
      exact guarantee_of_holding rfl (hold.beside henv) (.revoked rfl rfl)

end Ends

/-- Every interleaving keeps to these guarantees. -/
theorem guaranteed (rt : Runtime) : Guaranteed (setting rt) Beside Guarantee where
  refl := Beside.refl
  trans := Beside.trans
  ends := guarantee_of_ends
  committed := by
    intro q held t t' hg hheld hsees
    refine ⟨hsees, fun ht => ?_⟩
    cases held with
    | false => exact hg.free rfl
    | true =>
        rw [hheld rfl] at ht
        cases ht
  outside := fun hout hsees => ⟨hsees, fun _ => quiet_of_elsewhere hout⟩

/-! ### Switching -/

/-- The states that a credential can have later. -/
def laterStates : CredentialState → List CredentialState
  | .pending => [.pending, .active, .retiring, .revoked]
  | .active => [.active, .retiring, .revoked]
  | .retiring => [.retiring, .revoked]
  | .revoked => [.revoked]

/-- The connection and its credentials belong together: an active credential is the one the
connection names, a managed connection names one that is no longer pending, no target lock is open
while the admission is closed, and a revoked credential holds no secret. -/
structure Consistent (s : SetupDb) : Prop where
  active : ∀ id c, s.setup.credentials id = some c → c.state = .active →
    ∃ k, s.setup.connection = some k ∧ k.activeRevisionId = some id
  current : ∀ k, s.setup.connection = some k →
    (k.source = .legacyEnv ∧ k.activeRevisionId = none) ∨
      (k.source = .managed ∧ ∃ id c, k.activeRevisionId = some id ∧
        s.setup.credentials id = some c ∧ c.state ≠ .pending)
  closed : ¬ IsOpen s.setup → Idle s
  revoked : ∀ id c, s.setup.credentials id = some c → c.state = .revoked → c.ciphertext = none

/-- What a commit may do to the selection, the admission, the target locks and the credentials. -/
structure Switches (s s' : SetupDb) : Prop where
  selection : selectionOf s'.setup = selectionOf s.setup ∨
    Idle s' ∧ IsOpen s'.setup ∧ ∃ credential : CredentialRow,
      s.setup.credentials credential.revisionId = some credential ∧ credential.state = .pending ∧
      selectionOf s'.setup = (.managed, some credential.revisionId)
  closes : IsOpen s.setup → ¬ IsOpen s'.setup → Idle s'
  reopens : ¬ IsOpen s.setup → IsOpen s'.setup → selectionOf s'.setup ≠ selectionOf s.setup
  acquires : OpensNone s s' ∨ IsOpen s.setup ∧ s'.setup = s.setup
  credentials : ∀ id c, s.setup.credentials id = some c → ∃ c', s'.setup.credentials id = some c' ∧
    c'.state ∈ laterStates c.state ∧ c'.configuration = c.configuration

section Change

variable {s s' s'' : SetupDb} {b v : Setup}

theorem revoked_mem_laterStates (state : CredentialState) :
    CredentialState.revoked ∈ laterStates state := by
  cases state <;> decide

theorem mem_laterStates_self (state : CredentialState) : state ∈ laterStates state := by
  cases state <;> decide

theorem pending_of_mem_laterStates {state : CredentialState}
    (h : CredentialState.pending ∈ laterStates state) : state = .pending := by
  revert h
  cases state <;> decide

/-- Every credential stays, in a later state. -/
theorem credentials_of_change {idle : Prop} (h : Change b idle v) (id : Str) (c : CredentialRow)
    (hc : b.credentials id = some c) : ∃ c', v.credentials id = some c' ∧
      c'.state ∈ laterStates c.state ∧ c'.configuration = c.configuration := by
  have hsame : v.credentials = b.credentials → ∃ c', v.credentials id = some c' ∧
      c'.state ∈ laterStates c.state ∧ c'.configuration = c.configuration :=
    fun heq => ⟨c, heq ▸ hc, mem_laterStates_self _, rfl⟩
  cases h with
  | attempts _ hcredentials => exact hsame hcredentials
  | connected _ _ hcredentials => exact hsame hcredentials
  | closed _ _ _ _ hcredentials => exact hsame hcredentials
  | @staged credential hnew _ _ hcredentials =>
      refine ⟨c, ?_, mem_laterStates_self _, rfl⟩
      rw [hcredentials, Setup.credentials_putCredential, if_neg, hc]
      rintro rfl
      rw [hnew] at hc
      cases hc
  | @activated connection credential r _ _ hstored hpending hsetup =>
      rw [hsetup, Setup.activated, Setup.credentials_putAttempt, Setup.credentials_putConnection,
        Setup.credentials_putCredential]
      by_cases heq : id = credential.revisionId
      · rw [if_pos heq]
        rw [heq, hstored, Option.some.injEq] at hc
        subst hc
        have hlater : CredentialState.active ∈ laterStates credential.state := by
          rw [hpending]
          decide
        exact ⟨_, rfl, hlater, rfl⟩
      · rw [if_neg heq]
        simp only [Setup.retire, hc, Option.map_some]
        split
        · rename_i hactive
          have hlater : CredentialState.retiring ∈ laterStates c.state := by
            rw [hactive.2]
            decide
          exact ⟨_, rfl, hlater, rfl⟩
        · exact ⟨c, rfl, mem_laterStates_self _, rfl⟩
  | @revoked revisionId _ hcredentials =>
      rw [hcredentials]
      simp only [Setup.revoke, hc, Option.map_some]
      split
      · exact ⟨_, rfl, revoked_mem_laterStates c.state, rfl⟩
      · exact ⟨c, rfl, mem_laterStates_self _, rfl⟩

theorem selectionOf_congr (h : v.connection = b.connection) : selectionOf v = selectionOf b := by
  rw [selectionOf, selectionOf, h]

theorem isOpen_congr (h : v.connection = b.connection) : IsOpen v ↔ IsOpen b := by
  rw [IsOpen, IsOpen, h]

theorem isOpen_of_none (h : b.connection = none) : IsOpen b := by
  intro c hc
  rw [h] at hc
  cases hc

/-- The credential that is being activated is not the one the connection names. -/
theorem Consistent.fresh (h : Consistent s) {connection : ConnectionRow}
    {credential : CredentialRow}
    (hconnection : s.setup.connection = some connection)
    (hstored : s.setup.credentials credential.revisionId = some credential)
    (hpending : credential.state = .pending) :
    connection.activeRevisionId ≠ some credential.revisionId := by
  intro heq
  rcases h.current connection hconnection with ⟨-, hnone⟩ | ⟨-, id, c, hid, hc, hstate⟩
  · rw [hnone] at heq
    cases heq
  · rw [hid, Option.some.injEq] at heq
    rw [heq, hstored, Option.some.injEq] at hc
    exact hstate (hc ▸ hpending)

theorem switches_of_change (h : Consistent s) (hlocks : OpensNone s s')
    (hchange : Change s.setup (Idle s') s'.setup) : Switches s s' := by
  have hcredentials := credentials_of_change hchange
  have hsame : s'.setup.connection = s.setup.connection → Switches s s' := fun heq =>
    ⟨.inl (selectionOf_congr heq),
      fun hopen hclosed => absurd ((isOpen_congr heq).mpr hopen) hclosed,
      fun hclosed hopen => absurd ((isOpen_congr heq).mp hopen) hclosed, .inl hlocks, hcredentials⟩
  cases hchange with
  | attempts hconnection => exact hsame hconnection
  | staged _ _ hconnection => exact hsame hconnection
  | revoked hconnection => exact hsame hconnection
  | connected hnone hconnection =>
      have hopen : IsOpen s'.setup := by
        intro c hc
        rw [hconnection] at hc
        cases hc
        rfl
      refine ⟨.inl ?_, fun _ hclosed => absurd hopen hclosed,
        fun hclosed => absurd (isOpen_of_none hnone) hclosed, .inl hlocks, hcredentials⟩
      rw [selectionOf, selectionOf, hnone, hconnection]
      rfl
  | closed hidle hconnection _ hclosed =>
      refine ⟨.inl ?_, fun _ _ => hidle, fun _ hopen => ?_, .inl hlocks, hcredentials⟩
      · rw [selectionOf, selectionOf, hconnection, hclosed]
        rfl
      · have hfalse := hopen _ hclosed
        cases hfalse
  | @activated connection credential r hidle hconnection hstored hpending hsetup =>
      have hswitched : s'.setup.connection = some (connection.switched credential.revisionId) := by
        rw [hsetup]
        rfl
      have hopen : IsOpen s'.setup := by
        intro c hc
        rw [hswitched] at hc
        cases hc
        rfl
      have hselection : selectionOf s'.setup = (.managed, some credential.revisionId) := by
        rw [selectionOf, hswitched]
        rfl
      refine ⟨.inr ⟨hidle, hopen, credential, hstored, hpending, hselection⟩,
        fun _ hclosed => absurd hopen hclosed, fun _ _ heq => ?_, .inl hlocks, hcredentials⟩
      rw [hselection, selectionOf, hconnection] at heq
      exact h.fresh hconnection hstored hpending (congrArg Prod.snd heq).symm

theorem consistent_of_change (h : Consistent s) (hlocks : OpensNone s s')
    (hchange : Change s.setup (Idle s') s'.setup) : Consistent s' := by
  have hlater := credentials_of_change hchange
  have hcurrent : s'.setup.connection = s.setup.connection → ∀ k,
      s'.setup.connection = some k → (k.source = .legacyEnv ∧ k.activeRevisionId = none) ∨
        (k.source = .managed ∧ ∃ id c, k.activeRevisionId = some id ∧
          s'.setup.credentials id = some c ∧ c.state ≠ .pending) := by
    intro heq k hk
    rcases h.current k (heq.symm.trans hk) with hlegacy | ⟨hsource, id, c, hid, hc, hstate⟩
    · exact .inl hlegacy
    · obtain ⟨c', hc', hstate', -⟩ := hlater id c hc
      refine .inr ⟨hsource, id, c', hid, hc', fun hpending => hstate ?_⟩
      exact pending_of_mem_laterStates (hpending ▸ hstate')
  have hclosed : s'.setup.connection = s.setup.connection → ¬ IsOpen s'.setup → Idle s' :=
    fun heq hnot => (h.closed fun hopen => hnot ((isOpen_congr heq).mpr hopen)).of_opensNone hlocks
  have hactive : s'.setup.connection = s.setup.connection →
      (∀ id c', s'.setup.credentials id = some c' → c'.state = .active →
        ∃ c, s.setup.credentials id = some c ∧ c.state = .active) →
      ∀ id c', s'.setup.credentials id = some c' → c'.state = .active →
        ∃ k, s'.setup.connection = some k ∧ k.activeRevisionId = some id := by
    intro heq hbefore id c' hc' hstate
    obtain ⟨c, hc, hstate'⟩ := hbefore id c' hc' hstate
    rw [heq]
    exact h.active id c hc hstate'
  cases hchange with
  | attempts hconnection hcredentials =>
      refine ⟨hactive hconnection fun id c' hc' hstate => ⟨c', hcredentials ▸ hc', hstate⟩,
        hcurrent hconnection, hclosed hconnection, ?_⟩
      rw [hcredentials]
      exact h.revoked
  | connected hnone hconnection hcredentials =>
      refine ⟨fun id c hc hstate => ?_, fun k hk => ?_, fun hnot => absurd ?_ hnot, ?_⟩
      · obtain ⟨k, hk, -⟩ := h.active id c (hcredentials ▸ hc) hstate
        rw [hnone] at hk
        cases hk
      · rw [hconnection] at hk
        cases hk
        exact .inl ⟨rfl, rfl⟩
      · intro c hc
        rw [hconnection] at hc
        cases hc
        rfl
      · rw [hcredentials]
        exact h.revoked
  | @staged credential hnew hpending hconnection hcredentials =>
      have hold : ∀ id c, s'.setup.credentials id = some c → c.state ≠ .pending →
          s.setup.credentials id = some c := by
        intro id c hc hstate
        rw [hcredentials, Setup.credentials_putCredential] at hc
        split at hc
        · cases hc
          exact absurd hpending hstate
        · exact hc
      refine ⟨hactive hconnection fun id c hc hstate => ⟨c, hold id c hc ?_, hstate⟩,
        hcurrent hconnection, hclosed hconnection, fun id c hc hstate => ?_⟩
      · rw [hstate]
        decide
      · refine h.revoked id c (hold id c hc ?_) hstate
        rw [hstate]
        decide
  | @closed connection hidle hconnection hsome hshut hcredentials =>
      refine ⟨fun id c hc hstate => ?_, fun k hk => ?_, fun _ => hidle, ?_⟩
      · obtain ⟨k, hk, hid⟩ := h.active id c (hcredentials ▸ hc) hstate
        rw [hconnection] at hk
        cases hk
        exact ⟨_, hshut, hid⟩
      · rw [hshut] at hk
        cases hk
        rw [hcredentials]
        exact h.current connection hconnection
      · rw [hcredentials]
        exact h.revoked
  | @revoked revisionId hconnection hcredentials =>
      refine ⟨hactive hconnection fun id c' hc' hstate => ?_, hcurrent hconnection,
        hclosed hconnection, fun id c' hc' hstate => ?_⟩
      · rw [hcredentials] at hc'
        obtain ⟨c, hc, rfl⟩ := Option.map_eq_some_iff.mp hc'
        refine ⟨c, hc, ?_⟩
        split at hstate
        · cases hstate
        · exact hstate
      · rw [hcredentials] at hc'
        obtain ⟨c, hc, rfl⟩ := Option.map_eq_some_iff.mp hc'
        split at hstate
        · rename_i heq
          rw [if_pos heq]
        · rename_i heq
          rw [if_neg heq]
          exact h.revoked id c hc hstate
  | @activated connection credential r hidle hconnection hstored hpending hsetup =>
      have hswitched : s'.setup.connection = some (connection.switched credential.revisionId) := by
        rw [hsetup]
        rfl
      have hother : ∀ id c, id ≠ credential.revisionId → s'.setup.credentials id = some c →
          ∃ old, s.setup.credentials id = some old ∧
            c = if connection.activeRevisionId = some id ∧ old.state = .active then
              { old with state := .retiring } else old := by
        intro id c hne hc
        rw [hsetup, Setup.activated, Setup.credentials_putAttempt, Setup.credentials_putConnection,
          Setup.credentials_putCredential, if_neg hne] at hc
        obtain ⟨old, hold, rfl⟩ := Option.map_eq_some_iff.mp hc
        exact ⟨old, hold, rfl⟩
      have hself : s'.setup.credentials credential.revisionId =
          some { credential with state := .active } := by
        rw [hsetup, Setup.activated, Setup.credentials_putAttempt, Setup.credentials_putConnection,
          Setup.credentials_putCredential]
        exact if_pos rfl
      refine ⟨fun id c hc hstate => ⟨_, hswitched, ?_⟩, fun k hk => ?_, fun hnot => absurd ?_ hnot,
        fun id c hc hstate => ?_⟩
      · by_contra hne
        obtain ⟨old, hold, rfl⟩ := hother id c (fun heq => hne (heq ▸ rfl)) hc
        split at hstate
        · cases hstate
        · rename_i hnot
          obtain ⟨k, hk, hid⟩ := h.active id old hold hstate
          rw [hconnection] at hk
          cases hk
          exact hnot ⟨hid, hstate⟩
      · rw [hswitched] at hk
        cases hk
        refine .inr ⟨rfl, _, _, rfl, hself, ?_⟩
        rintro ⟨⟩
      · intro c hc
        rw [hswitched] at hc
        cases hc
        rfl
      · by_cases heq : id = credential.revisionId
        · rw [heq, hself, Option.some.injEq] at hc
          subst hc
          cases hstate
        · obtain ⟨old, hold, rfl⟩ := hother id c heq hc
          split at hstate
          · cases hstate
          · rename_i hnot
            rw [if_neg hnot]
            exact h.revoked id old hold hstate

theorem switches_of_quiet (h : Quiet s s') : Switches s s' := by
  refine ⟨.inl (by rw [h.setup]), fun hopen hclosed => absurd (h.setup.symm ▸ hopen) hclosed,
    fun hclosed hopen => absurd (h.setup ▸ hopen) hclosed, .inl h.locks, fun id c hc => ?_⟩
  exact ⟨c, by rw [h.setup]; exact hc, mem_laterStates_self _, rfl⟩

theorem consistent_of_setup (h : Consistent s) (hsetup : s'.setup = s.setup)
    (hidle : ¬ IsOpen s.setup → Idle s') : Consistent s' := by
  refine ⟨?_, ?_, ?_, ?_⟩
  · rw [hsetup]
    exact h.active
  · rw [hsetup]
    exact h.current
  · rw [hsetup]
    exact hidle
  · rw [hsetup]
    exact h.revoked

theorem consistent_of_quiet (h : Consistent s) (hq : Quiet s s') : Consistent s' :=
  consistent_of_setup h hq.setup fun hnot => (h.closed hnot).of_opensNone hq.locks

theorem consistent_of_commit {q : Request} (h : Consistent s) (hc : Commit q s s') :
    Consistent s' ∧ Switches s s' := by
  cases hc with
  | registration _ hlocks hchange =>
      exact ⟨consistent_of_change h hlocks hchange, switches_of_change h hlocks hchange⟩
  | acquisition _ hsetup hlocks =>
      rcases hlocks with hnone | hpermits
      · have hq : Quiet s s' := ⟨hsetup, hnone⟩
        exact ⟨consistent_of_quiet h hq, switches_of_quiet hq⟩
      · refine ⟨consistent_of_setup h hsetup fun hnot => absurd hpermits.isOpen hnot, ?_⟩
        refine ⟨.inl (by rw [hsetup]), fun hopen hclosed => absurd (hsetup.symm ▸ hopen) hclosed,
          fun hclosed hopen => absurd (hsetup ▸ hopen) hclosed,
          .inr ⟨hpermits.isOpen, hsetup⟩, fun id c hc => ?_⟩
        exact ⟨c, by rw [hsetup]; exact hc, mem_laterStates_self _, rfl⟩

end Change

/-! ### A registration -/

/-- Identifiers that differ in their length. -/
def tally (n : ℕ) : Hex := ⟨List.replicate n 'a', fun c hc => by
  rw [List.eq_of_mem_replicate hc]
  decide⟩

def plainRuntime : Runtime := ⟨fun _ => tally 2, fun _ => tally 2, fun _ => [], fun _ => []⟩

/-- A call with draws of its own. -/
def callSite (n : ℕ) : Site where
  rt := plainRuntime
  asciiDigest := fun _ => tally 2
  uuid := some
  cipher := .ok ⟨"key-1", fun _ secret _ => .ok secret, fun _ text _ _ => .ok text⟩
  pinned := none
  draws := fun i => ⟨0, 0, fun j => tally (8 * n + 2 * i + j)⟩
  nonce := "nonce"

def clusterIntent : Intent where
  endpoint := "https://pve"
  caPem := []
  certificateSha256 := []
  owner := "gjallar@pve"
  selected := ⟨.cluster, [], {}⟩
  expiresAt := 0
  mode := .issue

def firstAttempt : Str := uuidText (tally 2)

def preparing : Request :=
  .prepare (callSite 0) ⟨clusterIntent, "key-00001", ⟨"u", "u", "admin"⟩, "inst", "lab"⟩

/-- From the login to the verification of the token. -/
def registering : List Request :=
  [.advance (callSite 1) firstAttempt "u" 1 [.prepared] { phase := .authenticated },
    .advance (callSite 2) firstAttempt "u" 2 [.authenticated]
      { phase := .planned, planDigest := some "plan" },
    .advance (callSite 3) firstAttempt "u" 3 [.planned]
      { phase := .tokenDispatching, operationStatus := some .dispatching },
    .stageSecret (callSite 4) firstAttempt "u" 4 "s" (issuedTokenId "gjallar@pve" firstAttempt),
    .advance (callSite 5) firstAttempt "u" 5 [.secretStaged]
      { phase := .verifying, operationStatus := some .verifying },
    .advance (callSite 6) firstAttempt "u" 6 [.verifying] { phase := .verified }]

def activating : Request := .activate (callSite 7) firstAttempt "u" 7

/-! ### Runs -/

/-- An installation without a connection. -/
def Fresh (s : SetupDb) : Prop := s.connection = none ∧ s.credentials = Table.empty

section Runs

variable {rt : Runtime} {w w' : World (setting rt)} {l : Option Request}

theorem consistent_of_fresh {s : SetupDb} (h : Fresh s) : Consistent s := by
  have hnone : s.setup.connection = none := h.1
  have hempty : ∀ id, s.setup.credentials id = none := by
    intro id
    rw [SetupDb.setup, h.2]
    rfl
  refine ⟨fun id c hc => ?_, fun k hk => ?_, fun hnot => absurd (isOpen_of_none hnone) hnot,
    fun id c hc => ?_⟩
  · rw [hempty] at hc
    cases hc
  · rw [hnone] at hk
    cases hk
  · rw [hempty] at hc
    cases hc

theorem consistent_of_reachable (h : Reachable Fresh w) : Consistent w.base :=
  invariant_of_reachable (guaranteed rt) (fun _ => consistent_of_fresh)
    (fun _ _ hc hout => consistent_of_quiet hc (quiet_of_elsewhere hout))
    (fun _ _ _ _ hc hg => (consistent_of_commit hc hg.commit).1) h

theorem switches_of_step (h : Reachable Fresh w) (hs : Step w l w') :
    Switches w.base w'.base := by
  have hc := consistent_of_reachable h
  rcases (explained_of_reachable (guaranteed rt) h).base (guaranteed rt) hs with
    ⟨heq, -⟩ | ⟨hout, -⟩ | ⟨q, held, -, hg⟩
  · rw [heq]
    exact switches_of_quiet (.refl _)
  · exact switches_of_quiet (quiet_of_elsewhere hout)
  · exact (consistent_of_commit hc hg.commit).2

/-- However registrations, revocations, acquisitions and other writers interleave: the connection
and its credentials belong together, the selection changes and the admission closes only while no
target lock is open, no lock opens until the next activation, and a credential never returns to an
earlier state. -/
theorem switch_exclusion (h : Reachable Fresh w) (hs : Step w l w') :
    Consistent w'.base ∧ Switches w.base w'.base :=
  ⟨consistent_of_reachable (.step h hs), switches_of_step h hs⟩

theorem reachable_of_serial {qs : List Request} {s : SetupDb}
    (h : serial (setting rt) qs {} = .ok s) :
    Reachable Fresh (⟨s, []⟩ : World (setting rt)) :=
  (Reachable.initial ⟨rfl, rfl⟩).steps (steps_of_serial h)

theorem switch_exclusion_of_activation : ∃ w w' : World (setting plainRuntime),
    Step w (some activating) w' ∧ (Consistent w'.base ∧ Switches w.base w'.base) ∧
    selectionOf w.base.setup = (.legacyEnv, none) ∧
    selectionOf w'.base.setup = (.managed, some (uuidText (tally 32))) := by
  have h : (do
      let s ← serial (setting plainRuntime) (preparing :: registering) {}
      let r ← activating.script.alone s
      return (selectionOf s.setup, selectionOf r.2.setup)) =
        Except.ok ((.legacyEnv, none), (.managed, some (uuidText (tally 32)))) := by
    decide +kernel
  simp only [bind_eq_ok, pure_eq_ok, Prod.mk.injEq] at h
  obtain ⟨s, hserial, r, halone, hbefore, hafter⟩ := h
  obtain ⟨w, hsteps, hbase, hcommit⟩ := commits_of_alone (S := setting plainRuntime)
    (i := activating) halone
  have hreachable : Reachable Fresh w := (reachable_of_serial hserial).steps hsteps
  exact ⟨w, _, hcommit, switch_exclusion hreachable hcommit, hbase ▸ hbefore, hafter⟩

/-- A selection that was stored once. -/
def Known (selection : Selection) (s : SetupDb) : Prop :=
  selection = (.legacyEnv, none) ∨ ∃ id c, selection = (.managed, some id) ∧
    s.setup.credentials id = some c ∧ c.state ≠ .pending

theorem known_selection {s : SetupDb} (h : Consistent s) : Known (selectionOf s.setup) s := by
  rw [selectionOf]
  cases hk : s.setup.connection with
  | none => exact .inl rfl
  | some k =>
      rcases h.current k hk with ⟨hsource, hnone⟩ | ⟨hsource, id, c, hid, hc, hstate⟩
      · refine .inl ?_
        rw [Option.elim_some, ConnectionRow.selection, hsource, hnone]
      · refine .inr ⟨id, c, ?_, hc, hstate⟩
        rw [Option.elim_some, ConnectionRow.selection, hsource, hid]

theorem Known.switches {selection : Selection} {s s' : SetupDb} (h : Known selection s)
    (hs : Switches s s') : Known selection s' := by
  rcases h with hlegacy | ⟨id, c, hid, hc, hstate⟩
  · exact .inl hlegacy
  · obtain ⟨c', hc', hlater, -⟩ := hs.credentials id c hc
    refine .inr ⟨id, c', hid, hc', fun hpending => hstate ?_⟩
    exact pending_of_mem_laterStates (hpending ▸ hlater)

/-- A selection that was replaced does not return. -/
theorem replaced_of_switches {selection : Selection} {s s' : SetupDb} (h : Known selection s)
    (hne : selectionOf s.setup ≠ selection) (hs : Switches s s') :
    selectionOf s'.setup ≠ selection := by
  rcases hs.selection with heq | ⟨-, -, credential, hstored, hpending, heq⟩
  · rwa [heq]
  · rw [heq]
    rintro rfl
    rcases h with hlegacy | ⟨id, c, hid, hc, hstate⟩
    · cases hlegacy
    · obtain rfl := Option.some.inj (congrArg Prod.snd hid)
      rw [hstored, Option.some.injEq] at hc
      exact hstate (hc ▸ hpending)

theorem known_of_steps {selection : Selection} (h : Reachable Fresh w) (hs : Steps w w')
    (hk : Known selection w.base) : Known selection w'.base ∧
      (selectionOf w.base.setup ≠ selection → selectionOf w'.base.setup ≠ selection) := by
  induction hs with
  | refl => exact ⟨hk, id⟩
  | step hrun hstep ih =>
      obtain ⟨hknown, hkept⟩ := ih
      have hswitches := switches_of_step (h.steps hrun) hstep
      exact ⟨hknown.switches hswitches, fun hne =>
        replaced_of_switches hknown (hkept hne) hswitches⟩

/-- Once the selection that a process has pinned is replaced, no acquisition of that process opens
a target lock or changes the setup again. -/
theorem stale_process_opens_nothing {v u u' : World (setting rt)} {q : Request} {process : Process}
    (h : Reachable Fresh w) (hbefore : Steps w v)
    (hreplaced : selectionOf v.base.setup ≠ selectionOf w.base.setup) (hafter : Steps v u)
    (hs : Step u (some q) u') (hq : q.process = some process)
    (hpin : process.pinned = some (selectionOf w.base.setup)) : Quiet u.base u'.base := by
  have hv := h.steps hbefore
  have hknown := (known_of_steps h hbefore (known_selection (consistent_of_reachable h))).1
  have hne := (known_of_steps hv hafter hknown).2 hreplaced
  rcases (explained_of_reachable (guaranteed rt) (hv.steps hafter)).base (guaranteed rt) hs with
    ⟨-, hl⟩ | ⟨-, hl⟩ | ⟨q', held, hl, hg⟩
  · cases hl
  · cases hl
  · obtain rfl := Option.some.inj hl
    cases hg.commit with
    | registration hnone => rw [hq] at hnone; cases hnone
    | @acquisition process' _ _ hq' hsetup hlocks =>
        obtain rfl := Option.some.inj (hq.symm.trans hq')
        rcases hlocks with hnone | hpermits
        · exact ⟨hsetup, hnone⟩
        · exact absurd (hpermits.pinned _ hpin).symm hne

/-- A replay of the registered operation by a process that still has the first selection. -/
def replaying : Request :=
  .admitHost plainRuntime ⟨some (.legacyEnv, none), fun _ => true⟩ (fun _ => ⟨0, 0, tally⟩)
    { HostAdmission.storageSpec "nfs-1" with
      operationId := operationIdOf firstAttempt, intentDigest := (tally 2).digits } "lab"

theorem stale_process_opens_nothing_after_activation :
    ∃ w v u u' : World (setting plainRuntime), Steps w v ∧
      selectionOf v.base.setup ≠ selectionOf w.base.setup ∧ Steps v u ∧
      Step u (some replaying) u' ∧ Quiet u.base u'.base := by
  have h : (do
      let first ← serial (setting plainRuntime) [preparing] {}
      let second ← serial (setting plainRuntime) (registering ++ [activating]) first
      let _ ← replaying.script.alone second
      return (selectionOf first.setup, selectionOf second.setup)) =
        Except.ok ((.legacyEnv, none), (.managed, some (uuidText (tally 32)))) := by
    decide +kernel
  simp only [bind_eq_ok, pure_eq_ok, Prod.mk.injEq] at h
  obtain ⟨first, hfirst, second, hsecond, r, halone, hbefore, hafter⟩ := h
  obtain ⟨u, hsteps, -, hcommit⟩ := commits_of_alone (S := setting plainRuntime)
    (i := replaying) halone
  have hreachable : Reachable Fresh (⟨first, []⟩ : World (setting plainRuntime)) :=
    reachable_of_serial hfirst
  have hne : selectionOf second.setup ≠ selectionOf first.setup := by
    rw [hbefore, hafter]
    decide
  have hpin : Process.pinned ⟨some (.legacyEnv, none), fun _ => true⟩ =
      some (selectionOf first.setup) := by rw [hbefore]
  exact ⟨_, _, u, _, steps_of_serial hsecond, hne, hsteps, hcommit,
    stale_process_opens_nothing hreachable (steps_of_serial hsecond) hne hsteps hcommit rfl hpin⟩

end Runs

end Gjallar.ConnectionSwitch

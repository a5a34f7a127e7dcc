import Gjallar.Marks
import Gjallar.RegistrationService

/-!
# The registration service as a system

Any number of calls of the registration service on one database and one memory, with the other
transactions on the database, restarts that lose the memory, and any answers of Proxmox. By the
contract of a call a phase is entered only from one that it may follow and at the version that was
seen, the token request is the first request after its durable marker, roles and grants follow the
stored secret, and the token is deleted in the first request after the durable revocation.
-/
namespace Gjallar.RegistrationService

open Gjallar.Text Gjallar.Data Gjallar.Operation Gjallar.Registration Gjallar.Transactions
  Gjallar.Interleaving Gjallar.RegistrationStore Gjallar.Planning Gjallar.Processes
  Gjallar.Processes.Fallible
open Gjallar.ConnectionSwitch (Request)

abbrev Past := History Command fun c => Except Failure (Reply c)

abbrev Step := Event Command fun c => Except Failure (Reply c)

abbrev Events := Trace Command fun c => Except Failure (Reply c)

/-! ### The world -/

structure World where
  db : SetupDb
  memory : Memory

def World.attempts (w : World) : Str → Option Attempt := w.db.setup.attempts

/-- A transaction commits what it does among others, whether or not its caller learns of it, or it
leaves no trace. -/
inductive Commits (q : Request) (w : World) : Except Failure q.Result → World → Prop
  | done {s : SetupDb} {t : Txn SetupDb} {a : q.Result}
      (h : Ends Beside q.script (Txn.start s) a t) (hbase : t.base = w.db) :
      Commits q w (.ok a) { w with db := t.view }
  | unconfirmed {s : SetupDb} {t : Txn SetupDb} {a : q.Result} (e : Failure)
      (h : Ends Beside q.script (Txn.start s) a t) (hbase : t.base = w.db) :
      Commits q w (.error e) { w with db := t.view }
  | failed (e : Failure) : Commits q w (.error e) w

/-- Every commit of interleaved transactions is such a commit. -/
theorem commits_of_reachable {rt : Runtime} {Start : SetupDb → Prop} {base view : SetupDb}
    {pre post : List (Running (ConnectionSwitch.setting rt))} {q : Request} {a : q.Result}
    {held : Bool} (memory : Memory)
    (h : Reachable Start (⟨base, pre ++ ⟨q, .done a, view, held⟩ :: post⟩ :
      Interleaving.World (ConnectionSwitch.setting rt))) :
    Commits q ⟨base, memory⟩ (.ok a) ⟨view, memory⟩ := by
  have hguaranteed := ConnectionSwitch.guaranteed rt
  obtain ⟨s, hs⟩ := (explained_of_reachable hguaranteed h).ends ⟨q, .done a, view, held⟩ (by simp)
  exact Commits.done (t := ⟨base, view, held⟩)
    (hs a ⟨base, view, held⟩ ⟨_, .done _ _, hguaranteed.refl _⟩) rfl

/-- How a command is executed. -/
def Exec (w : World) : (c : Command) → Except Failure (Reply c) → World → Prop
  | .receive _, r, w' => r = .ok () ∧ w' = w
  | .transaction q, r, w' => Commits q w r w'
  | .get attemptId actorId, r, w' =>
      (r = owned attemptId actorId none w.db ∨ ∃ e, r = .error e) ∧ w' = w
  | .pending site attemptId actorId, r, w' => (∀ a, r = .ok a → ∃ s t,
      Ends Beside (pendingCredential site attemptId actorId) (Txn.start s) a t ∧ t.base = w.db) ∧
        w' = w
  | .clock, r, w' | .time, r, w' => (∃ t, r = .ok t) ∧ w' = w
  | .lookup attemptId, r, w' => r = .ok (w.memory.contexts.lookup attemptId) ∧ w' = w
  | .load ref, r, w' => (∀ ctx ∈ w.memory.objects[ref]?, r = .ok ctx) ∧ w' = w
  | .publish attemptId ctx, r, w' =>
      r = .ok () ∧ w' = { w with memory := w.memory.publish attemptId ctx }
  | .setPlan ref plan, r, w' => r = .ok () ∧ w' = { w with memory := w.memory.setPlan ref plan }
  | .drop attemptId, r, w' => r = .ok () ∧ w' = { w with memory := w.memory.drop attemptId }
  | .invalidate sessionId, r, w' =>
      r = .ok () ∧ w' = { w with memory := w.memory.invalidate sessionId }
  | .limit actorId, r, w' => ∃ now, r = (w.memory.limit now actorId).1 ∧
      w' = { w with memory := (w.memory.limit now actorId).2 }
  | .connect _, _, w' | .request _, _, w' | .getenv, _, w' => w' = w

/-- What else happens: other transactions commit, which keep the setup, and a restart loses the
contexts. -/
inductive Drift (w : World) : World → Prop
  | database {db : SetupDb} (h : db.setup = w.db.setup) : Drift w { w with db := db }
  | restart : Drift w { w with memory := { w.memory with contexts := [], logins := [] } }

/-- The replies that a command can get. -/
def Possible (c : Command) (r : Except Failure (Reply c)) : Prop := ∃ w w', Exec w c r w'

/-- Some call at some site. -/
def Entry (lib : Library) (p : Program Command (fun c => Except Failure (Reply c))
    (Except Failure Answer)) : Prop := ∃ site call, p = (programOf lib site call).run

def system (lib : Library) :
    System Command (fun c => Except Failure (Reply c)) (Except Failure Answer) World where
  exec := Exec
  environment := Drift
  entry := Entry lib
  possible := Possible
  possible_of_exec := fun h => ⟨_, _, h⟩

/-! ### Phases -/

/-- The phases that can follow a phase. -/
def nextPhases : Phase → List Phase
  | .prepared => [.authenticated, .mfaRequired, .planned, .cancelled]
  | .authenticated => [.authenticated, .mfaRequired, .planned, .cancelled]
  | .mfaRequired => [.authenticated, .mfaRequired, .cancelled]
  | .planned =>
      [.authenticated, .mfaRequired, .planned, .cancelled, .tokenDispatching, .importStaging]
  | .tokenDispatching | .importStaging => [.secretStaged, .revocationPending]
  | .secretStaged => [.aclApplying, .verifying, .revocationPending]
  | .aclApplying | .aclUnknown => [.verifying, .revocationPending]
  | .verifying | .verificationFailed => [.verified, .revocationPending]
  | .verified => [.verified, .active, .revocationPending]
  | .issueUnknown | .active => [.revocationPending]
  | .revocationPending => [.revoked]
  | .cancelled | .revoked => []

/-- The phases after a token was requested. -/
def issued : List Phase :=
  [.tokenDispatching, .issueUnknown, .importStaging, .secretStaged, .aclApplying, .aclUnknown,
    .verifying, .verificationFailed, .verified, .active, .revocationPending, .revoked]

/-- The phases after a revocation was requested. -/
def revoking : List Phase := [.revocationPending, .revoked]

/-- No phase that follows one of these is another. -/
def Closed (phases : List Phase) : Prop := ∀ p ∈ phases, ∀ q ∈ nextPhases p, q ∈ phases

theorem closed_issued : Closed issued := by
  unfold Closed issued
  decide

theorem closed_revoking : Closed revoking := by
  unfold Closed revoking
  decide

/-- The phases of an attempt that is over. -/
def final : List Phase := [.cancelled, .active, .revoked]

/-- An attempt is resolved when it is over; while it is being revoked it may be either. -/
def Settled (row : Attempt) : Prop :=
  row.phase ≠ .revocationPending → (row.resolved = true ↔ row.phase ∈ final)

/-- What an attempt was made for. -/
def requestOf (row : Attempt) : Str × Str × Str × Str × Str × Intent × ℕ :=
  (row.connectionId, row.operationId, row.actorId, row.idempotencyDigest, row.intentDigest,
    row.intent, row.expectedConnectionVersion)

/-- One move of an attempt. -/
structure Moves (row row' : Attempt) : Prop where
  version : row'.version = row.version + 1
  phase : row'.phase ∈ nextPhases row.phase
  request : requestOf row' = requestOf row
  settled : Settled row → Settled row'

/-- What a transaction does to the attempts: none changes, one is made, or one moves. -/
inductive Turn (b v : Setup) : Prop
  | kept (h : v.attempts = b.attempts)
  | made {row : Attempt} (hnew : b.attempts row.attemptId = none) (hphase : row.phase = .prepared)
      (hsettled : Settled row)
      (h : v.attempts = Function.update b.attempts row.attemptId (some row))
  | moved (row row' : Attempt) (hrow : b.attempts row'.attemptId = some row)
      (hmoves : Moves row row')
      (h : v.attempts = Function.update b.attempts row'.attemptId (some row'))

/-! ### What a process has seen -/

/-- The attempt that a reply shows. -/
def seen : Step → Option Attempt
  | ⟨.get .., .ok row⟩ => some row
  | ⟨.transaction (.advance ..), .ok row⟩ => some row
  | ⟨.transaction (.stageSecret ..), .ok row⟩ => some row
  | _ => none

def Seen (row : Attempt) (h : Past) : Prop := ∃ e ∈ h, seen e = some row

def isRequest (e : Step) : Bool :=
  match e.command with
  | .request _ => true
  | _ => false

/-- The durable marker of a token request. -/
def marks (id : Str) : Step → Bool
  | ⟨.transaction (.advance _ attemptId _ _ _ a), .ok _⟩ =>
      attemptId = id && a.phase = .tokenDispatching
  | _ => false

/-- The durable marker of a revocation. -/
def revokes (id : Str) : Step → Bool
  | ⟨.transaction (.beginRevoke _ attemptId _ _), .ok _⟩ => attemptId = id
  | _ => false

/-- The attempt whose token a path names. -/
def tokenOf (path : Str) : Option Str :=
  let users : Str := "/access/users/"
  let token : Str := "/token/gjallar-"
  if users.isPrefixOf path then
    let rest := (path.drop users.length).dropWhile fun c => c ≠ '/'
    if token.isPrefixOf rest then some (rest.drop token.length) else none
  else none

/-- A request with this method to the token of an attempt. -/
def addresses (method : Method) (id : Str) (e : Step) : Bool :=
  match e.command with
  | .request r => r.method = method && tokenOf r.path = some id
  | _ => false

/-- The secret of a token was stored. -/
def Staged (tokenId : Str) (h : Past) : Prop := ∃ site attemptId actorId version secret row,
  ⟨.transaction (.stageSecret site attemptId actorId version secret tokenId), .ok row⟩ ∈ h

/-- A mark since which no request was sent. -/
def Since (mark : Step → Bool) (h : Past) : Prop :=
  ∃ between m past, h = between ++ m :: past ∧ mark m = true ∧ ∀ x ∈ between, isRequest x = false

/-! ### The contract -/

/-- An attempt moves as seen, and to the token request only with the plan that was confirmed. -/
def AdvanceAllowed (h : Past) (attemptId : Str) (version : ℕ) (phases : List Phase)
    (a : Advance) : Prop :=
  ∃ row, Seen row h ∧ row.attemptId = attemptId ∧ row.version = version ∧
    phases = [row.phase] ∧ a.phase ∈ nextPhases row.phase ∧
    a.resolved = decide (a.phase ∈ final) ∧
    (a.phase = .tokenDispatching → ∃ c : Caller, c.attemptId = attemptId ∧
      a.planDigest = none ∧ ⟨.receive (.confirm c row.planDigest), .ok ()⟩ ∈ h)

def RequestAllowed (h : Past) (r : HttpRequest) : Prop :=
  match r.method with
  | .get => True
  | .post => r.path = "/access/ticket" ∨
      (r.path = "/access/roles" ∧ ∃ tokenId, Staged tokenId h) ∨
      ∃ id, tokenOf r.path = some id ∧ Since (marks id) h
  | .put => r.path = "/access/acl" ∧
      ∃ tokenId, Dict.get r.data "tokens" = some (.str tokenId) ∧ Staged tokenId h
  | .delete => ∃ id, tokenOf r.path = some id ∧ Since (revokes id) h

/-- The commands that a call may issue after its history. -/
def Allowed (h : Past) : Command → Prop
  | .receive _ => h = []
  | .transaction (.advance _ attemptId _ version phases a) =>
      AdvanceAllowed h attemptId version phases a
  | .transaction (.acquire ..) | .transaction (.admitVm ..) | .transaction (.admitHost ..) => False
  | .request r => RequestAllowed h r
  | _ => True

def contract : Contract Command (fun c => Except Failure (Reply c)) (Except Failure Answer) where
  allowed := Allowed
  ends := fun _ _ => True

/-! ### What a transaction does -/

section Effects

variable {s : SetupDb} {t : Txn SetupDb} {w w' : World} {h : Past} {b : Setup} {r : Attempt}

/-- The setup before and after a commit. -/
theorem setup_of_ends {script : Transaction Attempt} {Q : Setup → Setup → Prop}
    (hends : Ends Beside script (Txn.start s) r t)
    (hok : ∀ u, Runs Beside script (Txn.start s) (.ok r) u → ∃ b v, Holding b v u ∧ Q b v) :
    Q t.base.setup t.view.setup := by
  obtain ⟨u, hrun, henv⟩ := hends
  obtain ⟨b, v, hold, hQ⟩ := hok u hrun
  have hold := hold.beside henv
  rw [hold.base, hold.view]
  exact hQ

/-- The rows around an `advance`. -/
structure Advanced (attemptId : Str) (version : ℕ) (phases : List Phase) (a : Advance)
    (r : Attempt) (b v : Setup) (row : Attempt) : Prop where
  stored : b.attempts attemptId = some row
  id : row.attemptId = attemptId
  version : row.version = version
  phase : row.phase ∈ phases
  result : r = row.advanced a
  attempts : v.attempts = Function.update b.attempts attemptId (some r)

theorem advanced_of_ends {site : Site} {attemptId actorId : Str} {version : ℕ}
    {phases : List Phase} {a : Advance}
    (hends : Ends Beside (RegistrationStore.advance site attemptId actorId version phases a)
      (Txn.start s) r t) :
    ∃ row, Advanced attemptId version phases a r t.base.setup t.view.setup row := by
  refine setup_of_ends (Q := fun b v => ∃ row, Advanced attemptId version phases a r b v row) hends
    fun u hrun => ?_
  obtain ⟨b, row, hold, howns, hphase, -, hr⟩ := advance_ok hrun
  have hid : r.attemptId = attemptId := by
    rw [hr]
    exact howns.id
  exact ⟨b, _, hold, row, howns.stored, howns.id, howns.version, hphase, hr, by
    rw [Setup.putAttempt, hid]⟩

theorem tokenDispatching_mem_nextPhases {p : Phase} (h : Phase.tokenDispatching ∈ nextPhases p) :
    p = .planned := by
  revert h
  cases p <;> decide

theorem secretStaged_mem_nextPhases {row : Attempt} {tokenId : Str}
    (h : checkStaging row tokenId = .ok ()) : Phase.secretStaged ∈ nextPhases row.phase := by
  simp only [checkStaging, bind_eq_ok, raiseIf_eq_ok] at h
  obtain ⟨_, hphase, -⟩ := h
  rw [not_or, not_not] at hphase
  rcases List.mem_pair.mp hphase.1 with hphase | hphase
  · rw [hphase]
    decide
  · rw [hphase]
    decide

theorem revocationPending_mem_nextPhases {p : Phase} (h : p ∉ unrevocable) :
    Phase.revocationPending ∈ nextPhases p := by
  revert h
  cases p <;> decide

/-- Every transaction of an allowed call makes an attempt or moves one to a next phase. -/
theorem turn_of_ends {q : Request} {a : q.Result} (hc : Allowed h (.transaction q))
    (hends : Ends Beside q.script (Txn.start s) a t) : Turn t.base.setup t.view.setup := by
  cases q with
  | acquire => exact hc.elim
  | admitVm => exact hc.elim
  | admitHost => exact hc.elim
  | prepare site q =>
      refine setup_of_ends (Q := Turn) hends fun u hrun => ?_
      obtain ⟨b, installationId, connection, -, -, -, -, hcases⟩ := prepare_ok hrun
      rcases hcases with ⟨hold, -⟩ | ⟨hold, hnew, hphase, hresolved, -⟩
      · exact ⟨b, _, hold, .kept rfl⟩
      · refine ⟨b, _, hold, .made hnew hphase (fun _ => ?_) rfl⟩
        rw [hphase, hresolved]
        decide
  | advance site attemptId actorId version phases move =>
      obtain ⟨row, hadvanced⟩ := advanced_of_ends hends
      obtain ⟨row₀, -, -, -, hphases, hnext, hresolved, -⟩ := hc
      have hphase : row.phase = row₀.phase := by
        have hmem := hadvanced.phase
        rw [hphases, List.mem_singleton] at hmem
        exact hmem
      have hresult := hadvanced.result
      have hid : attemptId = Attempt.attemptId a := by
        rw [hresult]
        exact hadvanced.id.symm
      refine .moved row a ?_ ⟨?_, ?_, ?_, fun _ _ => ?_⟩ (hid ▸ hadvanced.attempts)
      · rw [← hid]
        exact hadvanced.stored
      · rw [hresult]
        rfl
      · rw [hresult, hphase]
        exact hnext
      · rw [hresult]
        rfl
      · rw [hresult, Attempt.advanced, hresolved, decide_eq_true_eq]
  | stageSecret site attemptId actorId version secret tokenId =>
      refine setup_of_ends (Q := Turn) hends fun u hrun => ?_
      obtain ⟨b, row, credential, hold, howns, hstaging, -, -, -, hr⟩ := stageSecret_ok hrun
      refine ⟨b, _, hold, .moved row a ?_ ⟨by rw [hr], ?_, by rw [hr]; rfl, fun _ _ => ?_⟩ rfl⟩
      · rw [hr]
        exact howns.id.symm ▸ howns.stored
      · rw [hr]
        exact secretStaged_mem_nextPhases hstaging
      · rw [hr]
        simp [final]
  | activate site attemptId actorId version =>
      refine setup_of_ends (Q := Turn) hends fun u hrun => ?_
      obtain ⟨b, row, connection, credential, hold, -, howns, -, hphase, -, -, -, -, hr⟩ :=
        activate_ok hrun
      refine ⟨b, _, hold, .moved row a ?_ ⟨by rw [hr]; rfl, ?_, by rw [hr]; rfl, fun _ _ => ?_⟩
        rfl⟩
      · rw [hr]
        exact howns.id.symm ▸ howns.stored
      · have hnext : Phase.active ∈ nextPhases .verified := by decide
        rw [hr, hphase]
        exact hnext
      · rw [hr]
        simp [final, Attempt.advanced]
  | beginRevoke site attemptId actorId version =>
      refine setup_of_ends (Q := Turn) hends fun u hrun => ?_
      obtain ⟨b, row, connection, v, hold, howns, -, -, hphase, hclose, hr⟩ := beginRevoke_ok hrun
      have hattempts : v.attempts = b.attempts := by
        rcases hclose with ⟨rfl, -⟩ | ⟨rfl, -⟩
        · rfl
        · rfl
      refine ⟨b, _, hold, .moved row a ?_ ⟨by rw [hr], ?_, by rw [hr]; rfl, fun _ hnot => ?_⟩ ?_⟩
      · rw [hr]
        exact howns.id.symm ▸ howns.stored
      · rw [hr]
        exact revocationPending_mem_nextPhases hphase
      · rw [hr] at hnot
        exact absurd rfl hnot
      · rw [← hattempts]
        rfl
  | finishRevoke site attemptId actorId version =>
      refine setup_of_ends (Q := Turn) hends fun u hrun => ?_
      obtain ⟨b, row, move, hold, howns, hphase, -, hmove, hresolved, -, hr⟩ :=
        finishRevoke_ok hrun
      refine ⟨b, _, hold, .moved row a ?_ ⟨by rw [hr]; rfl, ?_, by rw [hr]; rfl, fun _ _ => ?_⟩
        rfl⟩
      · rw [hr]
        exact howns.id.symm ▸ howns.stored
      · have hnext : Phase.revoked ∈ nextPhases .revocationPending := by decide
        rw [hr, hphase, Attempt.advanced, hmove]
        exact hnext
      · rw [hr, Attempt.advanced, hresolved, hmove]
        simp [final]

end Effects

end Gjallar.RegistrationService

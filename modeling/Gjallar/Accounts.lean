import Gjallar.Operation
import Gjallar.ReadCommitted
import Gjallar.Runs

/-!
# User accounts and sessions

The users and sessions tables, the statements issued against them at read-committed isolation, and
the account functions as programs over these statements. Every function runs in one transaction;
a login runs in two. The lock that a foreign key takes on the user of a new session is left out, so
a session may be added sooner here than in the database.
-/
namespace Gjallar.Accounts

open Gjallar.Text Gjallar.Operation Gjallar.Regex Gjallar.Regex.Pattern Gjallar.ReadCommitted
  Gjallar.Processes Gjallar.Processes.Fallible

inductive Role where
  | viewer | operator | admin
  deriving DecidableEq, Repr

structure UserRecord where
  userId : Str
  username : Str
  passwordHash : Str
  role : Role
  enabled : Bool
  createdAt : Instant
  updatedAt : Instant
  lastLoginAt : Option Instant := none
  deriving DecidableEq

structure SessionRecord where
  sessionId : Str
  userId : Str
  sessionTokenHash : Str
  expiresAt : Instant
  createdAt : Instant
  revokedAt : Option Instant := none
  deriving DecidableEq

/-- A row of one of the two tables. -/
inductive Row where
  | user (r : UserRecord)
  | session (r : SessionRecord)
  deriving DecidableEq

inductive Key where
  | user (userId : Str)
  | session (sessionId : Str)
  deriving DecidableEq

def Row.key : Row → Key
  | .user r => .user r.userId
  | .session r => .session r.sessionId

def Row.asUser : Row → Option UserRecord
  | .user r => some r
  | .session _ => none

def Row.asSession : Row → Option SessionRecord
  | .user _ => none
  | .session r => some r

abbrev AccountRows := Rows Row Key Row.key

abbrev AccountStore := Store Row Key Row.key

def users (rows : AccountRows) : List UserRecord := rows.list.filterMap Row.asUser

def sessions (rows : AccountRows) : List SessionRecord := rows.list.filterMap Row.asSession

def userOf (rows : AccountRows) (userId : Str) : Option UserRecord :=
  (rows.get (.user userId)).bind Row.asUser

def sessionOf (rows : AccountRows) (sessionId : Str) : Option SessionRecord :=
  (rows.get (.session sessionId)).bind Row.asSession

structure AuthenticatedUser where
  userId : Str
  username : Str
  role : Role
  deriving DecidableEq

structure UserOperationResult where
  user : AuthenticatedUser
  revokedSessions : ℕ := 0
  currentSessionPreserved : Bool := false
  deriving DecidableEq

structure IssuedSession where
  token : Str
  expiresAt : Instant
  actor : AuthenticatedUser
  deriving DecidableEq

def actorFromUser (row : UserRecord) : AuthenticatedUser := ⟨row.userId, row.username, row.role⟩

/-- `_is_enabled_admin`. -/
def isEnabledAdmin (row : UserRecord) : Bool := row.enabled && row.role = .admin

inductive AuthError where
  | valueError (message : Str)
  | userNotFound (message : Str)
  | duplicateUser (message : Str)
  | lastEnabledAdmin (message : Str)
  | currentPasswordInvalid (message : Str)
  /-- The response `LOGIN_FAILED`. -/
  | loginFailed (message : Str)
  /-- An error of the database or of the connection to it. -/
  | database
  deriving DecidableEq

/-- `hash_password` with its salt, and `verify_password`. -/
structure Passwords where
  hash : Str → Str → Except AuthError Str
  verify : Str → Str → Bool

/-- `_token_hash` and `session_ttl_seconds`. -/
structure Tokens where
  tokenHash : Str → Str
  ttlSeconds : ℤ

/-! ### Statements -/

/-- The columns of a user that an update sets: those whose values differ from the loaded row. -/
structure UserChanges where
  passwordHash : Option Str := none
  role : Option Role := none
  enabled : Option Bool := none
  lastLoginAt : Option (Option Instant) := none
  updatedAt : Option Instant := none
  deriving DecidableEq

def changed {α : Type} [DecidableEq α] (old new : α) : Option α :=
  if old = new then none else some new

theorem changed_eq_some {α : Type} [DecidableEq α] {old new a : α} :
    changed old new = some a ↔ old ≠ new ∧ a = new := by
  unfold changed
  split
  · rename_i h
    simp [h]
  · rename_i h
    rw [Option.some.injEq]
    exact ⟨fun ha => ⟨h, ha.symm⟩, fun ha => ha.2.symm⟩

/-- What a flush writes for a loaded row whose attributes were set. -/
def UserChanges.between (loaded row : UserRecord) : UserChanges :=
  ⟨changed loaded.passwordHash row.passwordHash, changed loaded.role row.role,
    changed loaded.enabled row.enabled, changed loaded.lastLoginAt row.lastLoginAt,
    changed loaded.updatedAt row.updatedAt⟩

def UserChanges.apply (c : UserChanges) (row : UserRecord) : UserRecord :=
  { row with
    passwordHash := c.passwordHash.getD row.passwordHash
    role := c.role.getD row.role
    enabled := c.enabled.getD row.enabled
    lastLoginAt := c.lastLoginAt.getD row.lastLoginAt
    updatedAt := c.updatedAt.getD row.updatedAt }

/-- The sessions that a revocation selects. -/
structure Revocation where
  userId : Str
  revokedAt : Instant
  spared : Option Str := none
  deriving DecidableEq

def Revocation.selects (r : Revocation) (row : SessionRecord) : Bool :=
  row.userId = r.userId && row.revokedAt.isNone && r.revokedAt < row.expiresAt &&
    r.spared.all (· ≠ row.sessionId)

/-- What a process was asked to do. -/
inductive Request where
  | createUser (username password role : Str) (enabled : Bool)
  | setUserRole (username role : Str)
  | disableUser (username : Str)
  | resetPassword (username password : Str)
  | changeOwnPassword (actor : AuthenticatedUser) (currentPassword newPassword : Str)
      (currentSessionId : Option Str)
  | login (username password : Str)
  | actorForSessionToken (token : Str)
  deriving DecidableEq

/-- A statement of a numbered transaction, or a look at the clock or the random source. A
statement that locks several rows takes its snapshot first and then waits for one row at a time. -/
inductive Command where
  | receive (r : Request)
  | now
  | draw
  | start
  | commit (t : ℕ)
  | rollback (t : ℕ)
  /-- `SELECT … FOR UPDATE` of the enabled administrators takes its snapshot. -/
  | scanAdmins (t : ℕ)
  /-- It waits for one of the rows it has seen. -/
  | lockAdmin (t : ℕ) (userId : Str)
  /-- It returns. -/
  | adminsLocked (t : ℕ)
  | userNamed (t : ℕ) (username : Str)
  | userWithId (t : ℕ) (userId : Str)
  | enabledAdminCount (t : ℕ)
  | updateUser (t : ℕ) (userId : Str) (changes : UserChanges)
  | insertUser (t : ℕ) (row : UserRecord)
  /-- `UPDATE sessions` takes its snapshot. -/
  | scanSessions (t : ℕ) (r : Revocation)
  /-- It waits for one of the rows it has seen and writes it, if it is still selected. -/
  | revokeSession (t : ℕ) (r : Revocation) (sessionId : Str)
  | insertSession (t : ℕ) (row : SessionRecord)
  | sessionWithHash (t : ℕ) (tokenHash : Str)
  /-- Set `revoked_at` of a loaded session. -/
  | markRevoked (t : ℕ) (sessionId : Str) (revokedAt : Instant)

abbrev Reply : Command → Type
  | .now => Instant
  | .draw => Str
  | .start => ℕ
  | .scanAdmins _ => List Str
  | .userNamed .. => Option UserRecord
  | .userWithId .. => Option UserRecord
  | .enabledAdminCount _ => ℕ
  | .scanSessions .. => List Str
  | .revokeSession .. => Bool
  | .sessionWithHash .. => Option SessionRecord
  | _ => Unit

abbrev Prog (α : Type) := Fallible Command Reply AuthError α

namespace Call

abbrev receive (r : Request) : Prog Unit := call (Command.receive r)
abbrev now : Prog Instant := call Command.now
abbrev draw : Prog Str := call Command.draw
abbrev start : Prog ℕ := call Command.start
abbrev commit (t : ℕ) : Prog Unit := call (Command.commit t)
abbrev rollback (t : ℕ) : Prog Unit := call (Command.rollback t)
abbrev scanAdmins (t : ℕ) : Prog (List Str) := call (Command.scanAdmins t)
abbrev lockAdmin (t : ℕ) (userId : Str) : Prog Unit := call (Command.lockAdmin t userId)
abbrev adminsLocked (t : ℕ) : Prog Unit := call (Command.adminsLocked t)

abbrev userNamed (t : ℕ) (username : Str) : Prog (Option UserRecord) :=
  call (Command.userNamed t username)

abbrev userWithId (t : ℕ) (userId : Str) : Prog (Option UserRecord) :=
  call (Command.userWithId t userId)

abbrev enabledAdminCount (t : ℕ) : Prog ℕ := call (Command.enabledAdminCount t)

abbrev updateUser (t : ℕ) (userId : Str) (changes : UserChanges) : Prog Unit :=
  call (Command.updateUser t userId changes)

abbrev insertUser (t : ℕ) (row : UserRecord) : Prog Unit := call (Command.insertUser t row)

abbrev scanSessions (t : ℕ) (r : Revocation) : Prog (List Str) := call (Command.scanSessions t r)

abbrev revokeSession (t : ℕ) (r : Revocation) (sessionId : Str) : Prog Bool :=
  call (Command.revokeSession t r sessionId)

abbrev insertSession (t : ℕ) (row : SessionRecord) : Prog Unit :=
  call (Command.insertSession t row)

abbrev sessionWithHash (t : ℕ) (tokenHash : Str) : Prog (Option SessionRecord) :=
  call (Command.sessionWithHash t tokenHash)

abbrev markRevoked (t : ℕ) (sessionId : Str) (revokedAt : Instant) : Prog Unit :=
  call (Command.markRevoked t sessionId revokedAt)

end Call

/-! ### The account functions -/

/-- `with session_scope() as session`. -/
def sessionScope {α : Type} (body : ℕ → Prog α) : Prog α := do
  let t ← Call.start
  match ← attempt (do
      let a ← body t
      Call.commit t
      return a) with
  | .ok a => return a
  | .error e =>
      Call.rollback t
      throw e

def usernamePattern : Pattern Char :=
  seq (one (alnumOr "_.@-")) (upTo (one (alnumOr "_.@-")) 79)

def normalizeUsername (username : Str) : Except AuthError Str :=
  let normalized := strip username
  if (usernamePattern.fullmatch normalized).isSome then .ok normalized
  else .error (.valueError
    "Username must be 1-80 characters using letters, numbers, dot, dash, underscore, or @")

def normalizeRole (role : Str) : Except AuthError Role :=
  let normalized := lower (strip role)
  if normalized = ("viewer" : Str) then .ok .viewer
  else if normalized = ("operator" : Str) then .ok .operator
  else if normalized = ("admin" : Str) then .ok .admin
  else .error (.valueError "Unsupported Gjallar role")

/-- `hash_password(_validated_password(password))`. -/
def hashValidated (pw : Passwords) (salt password : Str) : Except AuthError Str :=
  if password.isEmpty then .error (.valueError "Password must not be empty")
  else pw.hash salt password

/-- Raise what a computation without the database raises. -/
def lift {α : Type} : Except AuthError α → Prog α
  | .ok a => pure a
  | .error e => throw e

/-- `_get_user_or_raise`. -/
def getUserOrRaise (t : ℕ) (username : Str) : Prog UserRecord := do
  let normalized ← lift (normalizeUsername username)
  match ← Call.userNamed t normalized with
  | some row => return row
  | none => throw (.userNotFound (("Unknown user: " : Str) ++ normalized))

def lockAdmins (t : ℕ) : List Str → Prog Unit
  | [] => Call.adminsLocked t
  | id :: ids => do
      Call.lockAdmin t id
      lockAdmins t ids

/-- `_serialize_enabled_admin_guard`. -/
def serializeEnabledAdminGuard (t : ℕ) : Prog Unit := do
  let ids ← Call.scanAdmins t
  lockAdmins t ids

/-- `_ensure_not_last_enabled_admin`. -/
def ensureNotLastEnabledAdmin (t : ℕ) (row : UserRecord) (action : Str) : Prog Unit := do
  if isEnabledAdmin row then
    let count ← Call.enabledAdminCount t
    if count ≤ 1 then
      throw (.lastEnabledAdmin (("Cannot " : Str) ++ action ++
        (" the last enabled admin user: " : Str) ++ row.username))

/-- Flush a loaded row whose attributes were set. -/
def flush (t : ℕ) (loaded row : UserRecord) : Prog Unit :=
  if UserChanges.between loaded row = {} then pure ()
  else Call.updateUser t loaded.userId (.between loaded row)

def revokeSessions (t : ℕ) (r : Revocation) : List Str → Prog ℕ
  | [] => return 0
  | id :: ids => do
      let revoked ← Call.revokeSession t r id
      let rest ← revokeSessions t r ids
      return (if revoked then 1 else 0) + rest

/-- `_revoke_active_sessions` and `_revoke_other_active_sessions`. -/
def revokeActiveSessions (t : ℕ) (r : Revocation) : Prog ℕ := do
  let ids ← Call.scanSessions t r
  revokeSessions t r ids

section Functions

variable (pw : Passwords)

def createUser (username password role : Str) (enabled : Bool) : Prog AuthenticatedUser := do
  Call.receive (.createUser username password role enabled)
  let normalizedUsername ← lift (normalizeUsername username)
  let normalizedRole ← lift (normalizeRole role)
  let salt ← Call.draw
  let passwordHash ← lift (hashValidated pw salt password)
  let now ← Call.now
  sessionScope fun t => do
    match ← Call.userNamed t normalizedUsername with
    | some _ => throw (.duplicateUser (("User already exists: " : Str) ++ normalizedUsername))
    | none =>
        let id ← Call.draw
        let row : UserRecord := ⟨("user_" : Str) ++ id, normalizedUsername, passwordHash,
          normalizedRole, enabled, now, now, none⟩
        Call.insertUser t row
        return actorFromUser row

/-- `if normalized_role != "admin"`. -/
def unlessAdmin (role : Role) (p : Prog Unit) : Prog Unit := if role = .admin then pure () else p

/-- The part of `set_user_role` in its transaction. -/
def setRole (username : Str) (role : Role) (now : Instant) (t : ℕ) : Prog AuthenticatedUser := do
  unlessAdmin role (serializeEnabledAdminGuard t)
  let row ← getUserOrRaise t username
  unlessAdmin role (ensureNotLastEnabledAdmin t row "demote")
  let row' : UserRecord := { row with role := role, updatedAt := now }
  flush t row row'
  return actorFromUser row'

def setUserRole (username role : Str) : Prog AuthenticatedUser := do
  Call.receive (.setUserRole username role)
  let normalizedRole ← lift (normalizeRole role)
  let now ← Call.now
  sessionScope (setRole username normalizedRole now)

/-- The part of `disable_user` in its transaction. -/
def disable (username : Str) (now : Instant) (t : ℕ) : Prog UserOperationResult := do
  serializeEnabledAdminGuard t
  let row ← getUserOrRaise t username
  ensureNotLastEnabledAdmin t row "disable"
  -- the update of the sessions flushes the user first
  flush t row { row with enabled := false, updatedAt := now }
  let revoked ← revokeActiveSessions t ⟨row.userId, now, none⟩
  return { user := actorFromUser row, revokedSessions := revoked }

def disableUser (username : Str) : Prog UserOperationResult := do
  Call.receive (.disableUser username)
  let now ← Call.now
  sessionScope (disable username now)

/-- The part of `reset_password` in its transaction. -/
def reset (username passwordHash : Str) (now : Instant) (t : ℕ) : Prog UserOperationResult := do
  let row ← getUserOrRaise t username
  flush t row { row with passwordHash := passwordHash, updatedAt := now }
  let revoked ← revokeActiveSessions t ⟨row.userId, now, none⟩
  return { user := actorFromUser row, revokedSessions := revoked }

def resetPassword (username password : Str) : Prog UserOperationResult := do
  Call.receive (.resetPassword username password)
  let now ← Call.now
  let salt ← Call.draw
  let passwordHash ← lift (hashValidated pw salt password)
  sessionScope (reset username passwordHash now)

/-- `_validated_password`. -/
def validatedPassword (password : Str) : Except AuthError Str :=
  if password.isEmpty then .error (.valueError "Password must not be empty") else .ok password

/-- The row of an enabled user. -/
def enabledUser : Option UserRecord → Except AuthError UserRecord
  | some row => if row.enabled then .ok row else .error (.userNotFound "Unknown user")
  | none => .error (.userNotFound "Unknown user")

def verified (password : Str) (row : UserRecord) : Except AuthError Unit :=
  if pw.verify password row.passwordHash then .ok ()
  else .error (.currentPasswordInvalid "Current password is invalid")

/-- The part of `change_own_password` in its transaction. -/
def changePassword (actor : AuthenticatedUser) (currentPassword newPassword : Str)
    (currentSessionId : Option Str) (now : Instant) (t : ℕ) : Prog UserOperationResult := do
  let found ← Call.userWithId t actor.userId
  let row ← lift (enabledUser found)
  lift (verified pw currentPassword row)
  let salt ← Call.draw
  let passwordHash ← lift (pw.hash salt newPassword)
  flush t row { row with passwordHash := passwordHash, updatedAt := now }
  let current := currentSessionId.filter fun id => !id.isEmpty
  let revoked ← revokeActiveSessions t ⟨row.userId, now, current⟩
  return ⟨actorFromUser row, revoked, current.isSome⟩

def changeOwnPassword (actor : AuthenticatedUser) (currentPassword newPassword : Str)
    (currentSessionId : Option Str) : Prog UserOperationResult := do
  Call.receive (.changeOwnPassword actor currentPassword newPassword currentSessionId)
  let now ← Call.now
  let validated ← lift (validatedPassword newPassword)
  sessionScope (changePassword pw actor currentPassword validated currentSessionId now)

/-- The part of `authenticate_user` in its transaction. -/
def authenticate (username password : Str) (t : ℕ) : Prog (Option AuthenticatedUser) := do
  match ← Call.userNamed t username with
  | none => return none
  | some row =>
      if row.enabled && pw.verify password row.passwordHash then
        let now ← Call.now
        flush t row { row with lastLoginAt := some now, updatedAt := now }
        return some (actorFromUser row)
      else return none

def authenticateUser (username password : Str) : Prog (Option AuthenticatedUser) :=
  match normalizeUsername username with
  | .error _ => return none
  | .ok normalized => sessionScope (authenticate pw normalized password)

variable (tokens : Tokens)

def createSession (actor : AuthenticatedUser) : Prog IssuedSession := do
  let token ← Call.draw
  let now ← Call.now
  let expiresAt := now + Instant.seconds tokens.ttlSeconds
  sessionScope fun t => do
    let id ← Call.draw
    Call.insertSession t ⟨("sess_" : Str) ++ id, actor.userId, tokens.tokenHash token, expiresAt,
      now, none⟩
    return ⟨token, expiresAt, actor⟩

def loginFailed : AuthError := .loginFailed "Invalid username or password"

def login (username password : Str) : Prog IssuedSession := do
  Call.receive (.login username password)
  if (strip username).isEmpty || password.isEmpty then throw loginFailed
  else
    match ← authenticateUser pw (strip username) password with
    | none => throw loginFailed
    | some actor => createSession tokens actor

/-- The part of `actor_for_session_token` in its transaction. -/
def actorFor (tokenHash : Str) (now : Instant) (t : ℕ) : Prog (Option AuthenticatedUser) := do
  match ← Call.sessionWithHash t tokenHash with
  | none => return none
  | some row =>
      if row.revokedAt.isSome || row.expiresAt ≤ now then return none
      else
        let user ← Call.userWithId t row.userId
        match user.filter UserRecord.enabled with
        | some user => return some (actorFromUser user)
        | none =>
            Call.markRevoked t row.sessionId now
            return none

def actorForSessionToken (token : Str) : Prog (Option AuthenticatedUser) := do
  Call.receive (.actorForSessionToken token)
  if (strip token).isEmpty then return none
  else
    let now ← Call.now
    sessionScope (actorFor (tokens.tokenHash (strip token)) now)

end Functions

/-- What a call returns. -/
inductive Answer where
  | user (a : AuthenticatedUser)
  | operation (r : UserOperationResult)
  | issued (s : IssuedSession)
  | actor (a : Option AuthenticatedUser)
  deriving DecidableEq

abbrev Outcome := Except AuthError Answer

abbrev Process := Program Command (fun c => Except AuthError (Reply c)) Outcome

/-- A call as a process of the system. -/
def asProcess {α : Type} (f : α → Answer) (p : Prog α) : Process :=
  (p >>= fun a => (pure (f a) : Prog Answer)).run

/-- The transaction of a statement. -/
def Command.txn : Command → Option ℕ
  | .receive _ | .now | .draw | .start => none
  | .commit t | .rollback t | .scanAdmins t | .lockAdmin t _ | .adminsLocked t | .userNamed t _
  | .userWithId t _ | .enabledAdminCount t | .updateUser t _ _ | .insertUser t _
  | .scanSessions t _ | .revokeSession t _ _ | .insertSession t _ | .sessionWithHash t _
  | .markRevoked t _ _ => some t

/-- Does a statement write a user? -/
def Command.writesUser : Command → Bool
  | .updateUser .. | .insertUser .. => true
  | _ => false

/-! ### The system -/

structure World where
  store : AccountStore
  clock : Instant

def World.withStore (w : World) (store : AccountStore) : World := { w with store := store }

/-- Is the transaction still running? -/
def World.runs (w : World) (t : ℕ) : Bool := (w.store.txns t).isSome

/-- No other running transaction has added a user of this name. -/
def nameFree (store : AccountStore) (t : ℕ) (username : Str) : Bool :=
  (List.range store.next).all fun i => i = t || (store.txns i).all fun u =>
    u.writes.all fun r => r.asUser.all fun row => row.username ≠ username

/-- No other running transaction has added a session with this token. -/
def tokenFree (store : AccountStore) (t : ℕ) (tokenHash : Str) : Bool :=
  (List.range store.next).all fun i => i = t || (store.txns i).all fun u =>
    u.writes.all fun r => r.asSession.all fun row => row.sessionTokenHash ≠ tokenHash

/-- What a statement that succeeds does. A statement that waits for a row has no effect until the
row is free. -/
def Performs (w : World) : (c : Command) → Reply c → World → Prop
  | .receive _, _, w' => w' = w
  | .now, r, w' => r = w.clock ∧ w' = w
  | .draw, _, w' => w' = w
  | .start, r, w' => r = w.store.next ∧ w' = w.withStore w.store.start
  | .commit t, _, w' => w.runs t = true ∧ w' = w.withStore (w.store.commit t)
  | .rollback t, _, w' => w' = w.withStore (w.store.abort t)
  | .scanAdmins t, ids, w' => w.runs t = true ∧ w' = w ∧
      ∀ id, id ∈ ids ↔ ∃ row ∈ users (w.store.visible t), isEnabledAdmin row = true ∧
        row.userId = id
  | .lockAdmin t id, _, w' => w.runs t = true ∧ w.store.isFree t (.user id) = true ∧
      w' = w.withStore (w.store.lock t (.user id))
  | .adminsLocked t, _, w' => w.runs t = true ∧ w' = w
  | .userNamed t username, r, w' => w.runs t = true ∧ w' = w ∧
      r = (users (w.store.visible t)).find? fun row => row.username = username
  | .userWithId t id, r, w' => w.runs t = true ∧ w' = w ∧ r = userOf (w.store.visible t) id
  | .enabledAdminCount t, n, w' => w.runs t = true ∧ w' = w ∧
      n = (users (w.store.visible t)).countP isEnabledAdmin
  | .updateUser t id changes, _, w' => w.runs t = true ∧ w.store.isFree t (.user id) = true ∧
      ∃ row, userOf (w.store.visible t) id = some row ∧
        w' = w.withStore (w.store.write t (.user (changes.apply row)))
  | .insertUser t row, _, w' => w.runs t = true ∧
      w.store.isFree t (.user row.userId) = true ∧ nameFree w.store t row.username = true ∧
      userOf (w.store.visible t) row.userId = none ∧
      (∀ r ∈ users (w.store.visible t), r.username ≠ row.username) ∧
      w' = w.withStore (w.store.write t (.user row))
  | .scanSessions t r, ids, w' => w.runs t = true ∧ w' = w ∧
      ∀ id, id ∈ ids ↔ ∃ row ∈ sessions (w.store.visible t), r.selects row = true ∧
        row.sessionId = id
  | .revokeSession t r id, revoked, w' => w.runs t = true ∧
      w.store.isFree t (.session id) = true ∧
      ∃ row, sessionOf (w.store.visible t) id = some row ∧ revoked = r.selects row ∧
        w' = w.withStore (if r.selects row then
            w.store.write t (.session { row with revokedAt := some r.revokedAt })
          else w.store.lock t (.session id))
  | .insertSession t row, _, w' => w.runs t = true ∧
      w.store.isFree t (.session row.sessionId) = true ∧
      tokenFree w.store t row.sessionTokenHash = true ∧
      sessionOf (w.store.visible t) row.sessionId = none ∧
      (∀ r ∈ sessions (w.store.visible t), r.sessionTokenHash ≠ row.sessionTokenHash) ∧
      (userOf (w.store.visible t) row.userId).isSome = true ∧
      w' = w.withStore (w.store.write t (.session row))
  | .sessionWithHash t tokenHash, r, w' => w.runs t = true ∧ w' = w ∧
      r = (sessions (w.store.visible t)).find? fun row => row.sessionTokenHash = tokenHash
  | .markRevoked t id revokedAt, _, w' => w.runs t = true ∧
      w.store.isFree t (.session id) = true ∧
      ∃ row, sessionOf (w.store.visible t) id = some row ∧
        w' = w.withStore (w.store.write t (.session { row with revokedAt := some revokedAt }))

/-- A statement succeeds, or the database refuses it and nothing changes. -/
def Exec (w : World) (c : Command) (r : Except AuthError (Reply c)) (w' : World) : Prop :=
  (∃ a, r = .ok a ∧ Performs w c a w') ∨ (r = .error .database ∧ w' = w)

/-- Time passes, and the database ends transactions whose connection is lost. -/
inductive Environment (w : World) : World → Prop
  | time (clock : Instant) (h : w.clock ≤ clock) : Environment w { w with clock := clock }
  | lost (t : ℕ) : Environment w (w.withStore (w.store.abort t))

abbrev Past := History Command fun c => Except AuthError (Reply c)

/-- No transaction is running. -/
def Quiescent (w : World) : Prop := ∀ t, w.store.txns t = none

abbrev AccountState := State Command (fun c => Except AuthError (Reply c)) Outcome World

def system (entry : Process → Prop) :
    System Command (fun c => Except AuthError (Reply c)) Outcome World where
  exec := Exec
  environment := Environment
  entry := entry
  possible := fun _ _ => True
  possible_of_exec := fun _ => trivial

/-! ### Rows -/

theorem userOf_eq_some {rows : AccountRows} {id : Str} {row : UserRecord} :
    userOf rows id = some row ↔ rows.get (.user id) = some (.user row) := by
  rw [userOf, Option.bind_eq_some_iff]
  constructor
  · rintro ⟨r, hr, hrow⟩
    cases r with
    | user r =>
        cases hrow
        exact hr
    | session r => cases hrow
  · exact fun h => ⟨.user row, h, rfl⟩

theorem userId_of_userOf {rows : AccountRows} {id : Str} {row : UserRecord}
    (h : userOf rows id = some row) : row.userId = id := by
  have hkey := Rows.get_key (userOf_eq_some.mp h)
  cases hkey
  rfl

theorem mem_users {rows : AccountRows} {row : UserRecord} :
    row ∈ users rows ↔ userOf rows row.userId = some row := by
  rw [userOf_eq_some, Rows.get_eq_some, users, List.mem_filterMap]
  constructor
  · rintro ⟨r, hr, hrow⟩
    cases r with
    | user r =>
        cases hrow
        exact ⟨hr, rfl⟩
    | session r => cases hrow
  · exact fun h => ⟨.user row, h.1, rfl⟩

theorem nodup_users (rows : AccountRows) : (users rows).Nodup := by
  refine List.Nodup.filterMap ?_ (List.Nodup.of_map _ rows.nodup)
  rintro (a | a) (b | b) row ha hb
  · cases ha
    cases hb
    rfl
  · cases hb
  · cases ha
  · cases ha

theorem sessionOf_eq_some {rows : AccountRows} {id : Str} {row : SessionRecord} :
    sessionOf rows id = some row ↔ rows.get (.session id) = some (.session row) := by
  rw [sessionOf, Option.bind_eq_some_iff]
  constructor
  · rintro ⟨r, hr, hrow⟩
    cases r with
    | user r => cases hrow
    | session r =>
        cases hrow
        exact hr
  · exact fun h => ⟨.session row, h, rfl⟩

theorem sessionId_of_sessionOf {rows : AccountRows} {id : Str} {row : SessionRecord}
    (h : sessionOf rows id = some row) : row.sessionId = id := by
  have hkey := Rows.get_key (sessionOf_eq_some.mp h)
  cases hkey
  rfl

theorem mem_sessions {rows : AccountRows} {row : SessionRecord} :
    row ∈ sessions rows ↔ sessionOf rows row.sessionId = some row := by
  rw [sessionOf_eq_some, Rows.get_eq_some, sessions, List.mem_filterMap]
  constructor
  · rintro ⟨r, hr, hrow⟩
    cases r with
    | user r => cases hrow
    | session r =>
        cases hrow
        exact ⟨hr, rfl⟩
  · exact fun h => ⟨.session row, h.1, rfl⟩

end Gjallar.Accounts

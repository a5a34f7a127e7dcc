import Gjallar.ConnectionSwitch
import Gjallar.Planning

/-!
# The registration service

`RegistrationService` as programs. Their commands are the transactions of the registration
repository, the requests of Proxmox, and the authentication contexts that the process keeps in
memory. Any number of calls run at once, each may crash between two commands, and every command may
fail.
-/
namespace Gjallar.RegistrationService

open Gjallar.Text Gjallar.Data Gjallar.Operation Gjallar.Registration Gjallar.Transactions
  Gjallar.Interleaving Gjallar.RegistrationStore Gjallar.Planning Gjallar.Processes
  Gjallar.Processes.Fallible
open Gjallar.ConnectionSwitch (Request)

/-! ### Memory -/

/-- A connection to an endpoint whose certificate is checked. -/
structure Transport where
  endpoint : Str
  caPem : Str
  certificateSha256 : Str
  deriving DecidableEq

/-- `AuthenticationContext`. -/
structure Context where
  actorId : Str
  sessionId : Str
  transport : Transport
  expires : ℚ
  ticket : Str
  csrf : Str
  challenge : Bool
  plan : Option Plan := none

/-- The contexts as objects, the object of each attempt, and the times of the last logins. -/
structure Memory where
  objects : List Context := []
  contexts : List (Str × ℕ) := []
  logins : List (Str × List ℚ) := []

namespace Memory

variable (m : Memory)

def publish (attemptId : Str) (ctx : Context) : Memory :=
  { m with objects := m.objects ++ [ctx]
           contexts := (attemptId, m.objects.length) ::
             m.contexts.filter fun entry => entry.1 ≠ attemptId }

def setPlan (ref : ℕ) (plan : Plan) : Memory :=
  { m with objects := m.objects.modify ref fun ctx => { ctx with plan := some plan } }

def drop (attemptId : Str) : Memory :=
  { m with contexts := m.contexts.filter fun entry => entry.1 ≠ attemptId }

/-- The contexts whose object has a property. -/
def keep (p : Context → Bool) : Memory :=
  { m with contexts := m.contexts.filter fun entry => (m.objects[entry.2]?).any p }

/-- `invalidate_session`. -/
def invalidate (sessionId : Str) : Memory :=
  let kept := m.keep fun ctx => ctx.sessionId ≠ sessionId
  let published (i : ℕ) : Bool := m.contexts.any fun entry => entry.2 = i
  { kept with objects := m.objects.mapIdx fun i ctx =>
      if published i && ctx.sessionId = sessionId then
        { ctx with expires := 0, ticket := [], csrf := [] }
      else ctx }

/-- `_rate_limit`. -/
def limit (now : ℚ) (actorId : Str) : Except Failure Unit × Memory :=
  let kept := m.keep fun ctx => now < ctx.expires
  let logins := m.logins.filter fun entry => (entry.2.getLast?).any fun last => now - 60 < last
  let recent := ((logins.lookup actorId).getD []).filter fun t => now - 60 < t
  if 5 ≤ recent.length then
    (.error (setupError "SETUP_LOGIN_RATE_LIMIT"
      "로그인 시도가 많습니다. 잠시 후 다시 시도하세요." 429), { kept with logins := logins })
  else (.ok (), { kept with
    logins := (actorId, recent ++ [now]) :: logins.filter fun entry => entry.1 ≠ actorId })

end Memory

/-! ### Commands -/

/-- Who calls, for which attempt, and the version of the attempt that the caller has seen. -/
structure Caller where
  attemptId : Str
  actorId : Str
  sessionId : Str
  version : ℕ

inductive Call where
  | prepare (q : Preparation)
  | status (c : Caller)
  | login (c : Caller) (password : Str) (otp : Option Str)
  | mfa (c : Caller) (otp : Str)
  | plan (c : Caller)
  | confirm (c : Caller) (planDigest : Str)
  | verify (c : Caller)
  | observe (c : Caller)
  | activate (c : Caller)
  | cancel (c : Caller)
  | revoke (c : Caller) (tokenId : Str)
  | importPlan (c : Caller)
  | importEnv (c : Caller) (planDigest : Str)
  | invalidateSession (sessionId : Str)

inductive Method where
  | get | post | put | delete
  deriving DecidableEq

/-- How a request is authenticated. -/
inductive Authority where
  | none
  | ticket (ticket csrf : Str)
  | token (tokenId secret : Str)

/-- `transport.request`. -/
structure HttpRequest where
  transport : Transport
  authority : Authority
  method : Method
  path : Str
  data : Dict

/-- The environment variables of the previous connection. -/
structure EnvVars where
  apiUrl : Str
  apiTokenId : Str
  apiTokenSecret : Str
  tlsInsecure : Str

inductive Command where
  | receive (call : Call)
  | transaction (q : Request)
  /-- The attempt with its intent. -/
  | get (attemptId actorId : Str)
  | pending (site : Site) (attemptId actorId : Str)
  | clock
  | time
  | lookup (attemptId : Str)
  | load (ref : ℕ)
  | publish (attemptId : Str) (ctx : Context)
  | setPlan (ref : ℕ) (plan : Plan)
  | drop (attemptId : Str)
  | invalidate (sessionId : Str)
  | limit (actorId : Str)
  /-- `transport_factory`. -/
  | connect (t : Transport)
  | request (r : HttpRequest)
  | getenv

abbrev Reply : Command → Type
  | .transaction q => q.Result
  | .get .. => Attempt
  | .pending .. => CredentialConfiguration × Str
  | .clock | .time => ℚ
  | .lookup _ => Option ℕ
  | .load _ => Context
  | .request _ => Value
  | .getenv => EnvVars
  | _ => Unit

abbrev Prog (α : Type) := Fallible Command Reply Failure α

/-- Functions of the standard library: `json.loads`, `unquote` and the origin of a checked
endpoint. -/
structure Library where
  loads : Str → Option Value
  unquote : Str → Str
  endpointOrigin : Str → Option Str

/-! ### Texts -/

def upperHexDigit (n : ℕ) : Char :=
  if n < 10 then Char.ofNat (48 + n) else Char.ofNat (55 + n)

/-- The characters that `quote` leaves alone. -/
def isUnreserved (c : Char) : Bool := alnumOr "_.-~" c

/-- `urllib.parse.quote` of everything that is reserved. -/
def quote (s : Str) : Str :=
  s.flatMap fun c => if isUnreserved c then [c]
    else (String.utf8EncodeChar c).flatMap fun b =>
      ['%', upperHexDigit (b.toNat / 16), upperHexDigit (b.toNat % 16)]

/-- `\d{6,8}`. -/
def isOtp (s : Str) : Bool :=
  6 ≤ s.length && s.length ≤ 8 && s.all fun c => (digitValue c).isSome

def tokenName (attemptId : Str) : Str := ("gjallar-" : Str) ++ attemptId

def tokenComment (attemptId : Str) : Str := ("Gjallar registration " : Str) ++ attemptId

def tokensPath (owner : Str) : Str := ("/access/users/" : Str) ++ quote owner ++ ("/token" : Str)

/-- `token_path`. -/
def tokenPath (owner attemptId : Str) : Str :=
  tokensPath owner ++ ("/" : Str) ++ tokenName attemptId

/-! ### Programs -/

section Programs

variable (lib : Library) (site : ℕ → Site)

namespace Send

abbrev receive (call : Call) : Prog Unit := Fallible.call (Command.receive call)
abbrev get (c : Caller) : Prog Attempt := Fallible.call (Command.get c.attemptId c.actorId)
abbrev pending (site : Site) (c : Caller) : Prog (CredentialConfiguration × Str) :=
  Fallible.call (Command.pending site c.attemptId c.actorId)
abbrev clock : Prog ℚ := Fallible.call Command.clock
abbrev time : Prog ℚ := Fallible.call Command.time
abbrev lookup (attemptId : Str) : Prog (Option ℕ) := Fallible.call (Command.lookup attemptId)
abbrev load (ref : ℕ) : Prog Context := Fallible.call (Command.load ref)
abbrev publish (attemptId : Str) (ctx : Context) : Prog Unit :=
  Fallible.call (Command.publish attemptId ctx)
abbrev setPlan (ref : ℕ) (plan : Plan) : Prog Unit := Fallible.call (Command.setPlan ref plan)
abbrev drop (attemptId : Str) : Prog Unit := Fallible.call (Command.drop attemptId)
abbrev invalidate (sessionId : Str) : Prog Unit := Fallible.call (Command.invalidate sessionId)
abbrev limit (actorId : Str) : Prog Unit := Fallible.call (Command.limit actorId)
abbrev connect (t : Transport) : Prog Unit := Fallible.call (Command.connect t)
abbrev request (r : HttpRequest) : Prog Value := Fallible.call (Command.request r)
abbrev getenv : Prog EnvVars := Fallible.call Command.getenv

abbrev prepare (site : Site) (q : Preparation) : Prog Attempt :=
  Fallible.call (Command.transaction (.prepare site q))
abbrev advance (site : Site) (attemptId actorId : Str) (version : ℕ) (phases : List Phase)
    (a : Advance) : Prog Attempt :=
  Fallible.call (Command.transaction (.advance site attemptId actorId version phases a))
abbrev stageSecret (site : Site) (attemptId actorId : Str) (version : ℕ)
    (tokenSecret tokenId : Str) : Prog Attempt :=
  Fallible.call
    (Command.transaction (.stageSecret site attemptId actorId version tokenSecret tokenId))
abbrev activate (site : Site) (attemptId actorId : Str) (version : ℕ) : Prog Attempt :=
  Fallible.call (Command.transaction (.activate site attemptId actorId version))
abbrev beginRevoke (site : Site) (attemptId actorId : Str) (version : ℕ) : Prog Attempt :=
  Fallible.call (Command.transaction (.beginRevoke site attemptId actorId version))
abbrev finishRevoke (site : Site) (attemptId actorId : Str) (version : ℕ) : Prog Attempt :=
  Fallible.call (Command.transaction (.finishRevoke site attemptId actorId version))

end Send

def reauthRequired : Failure :=
  setupError "SETUP_REAUTH_REQUIRED" "같은 Gjallar 세션에서 Proxmox에 다시 로그인하세요."

/-- `context`: the reference of the context. -/
def context (c : Caller) (allowChallenge : Bool) : Prog ℕ := do
  match ← Send.lookup c.attemptId with
  | none => throw reauthRequired
  | some ref =>
      let ctx ← Send.load ref
      let now ← Send.clock
      lift (raiseIf (ctx.expires ≤ now ∨ ctx.actorId ≠ c.actorId ∨ ctx.sessionId ≠ c.sessionId)
        reauthRequired)
      lift (raiseIf (ctx.challenge = true ∧ allowChallenge = false)
        (setupError "SETUP_MFA_REQUIRED" "TOTP 인증을 완료하세요."))
      return ref

/-- `AuthenticationContext.request`. -/
def contextRequest (ref : ℕ) (method : Method) (path : Str) (data : Dict) : Prog Value := do
  let expired := setupError "SETUP_REAUTH_REQUIRED"
    "Proxmox 인증이 만료·폐기됐습니다. 다시 로그인하세요."
  let ctx ← Send.load ref
  let now ← Send.clock
  lift (raiseIf (ctx.expires ≤ now) expired)
  -- The session may have been invalidated meanwhile.
  let ctx ← Send.load ref
  lift (raiseIf (ctx.ticket = []) expired)
  Send.request ⟨ctx.transport, .ticket ctx.ticket ctx.csrf, method, path, data⟩

/-- `current`. -/
def current (c : Caller) : Prog Attempt := do
  let row ← Send.get c
  lift (raiseIf (row.version ≠ c.version) versionConflict)
  return row

/-- `advance` of the service. -/
def advance (site : Site) (c : Caller) (row : Attempt) (a : Advance) : Prog Attempt :=
  Send.advance site row.attemptId c.actorId row.version [row.phase] a

/-- The intent of the attempt. -/
def intentOf (c : Caller) : Prog Intent := do
  let row ← Send.get c
  return row.intent

/-- The phases before a token is requested. -/
def early : List Phase := [.prepared, .authenticated, .mfaRequired, .planned]

def transportOf (intent : Intent) : Transport :=
  ⟨intent.endpoint, intent.caPem, intent.certificateSha256⟩

def mfaUnsupported (message : Str) : Failure := setupError "PROXMOX_MFA_UNSUPPORTED" message 422

/-- Does the ticket ask for a TOTP password? -/
def totpChallenge (ticket : Str) : Bool :=
  let payload := (splitAll ':' ticket)[1]?
  (payload.bind fun part => lib.loads (lib.unquote (part.drop 5))).any fun value =>
    value.asDict.any fun d => Dict.get d "totp" = some (.bool true)

/-- `_authentication`. -/
def authentication (result : Value) (owner : Str) (c : Caller) (t : Transport) : Prog Context := do
  let malformed := setupError "PROXMOX_AUTH_PROTOCOL_ERROR"
    "Proxmox 인증 응답 형식이 올바르지 않습니다." 502
  let d ← lift (orRaise result.asDict malformed)
  lift (raiseIf ((Dict.getD d "username" .null).eqv (.str owner) = false) malformed)
  let ticket ← lift (orRaise ((Dict.get d "ticket").bind Value.asStr) malformed)
  let csrf ← lift (orRaise ((Dict.get d "CSRFPreventionToken").bind Value.asStr) malformed)
  let challenge := ("PVE:!tfa!" : Str).isPrefixOf ticket
  lift (raiseIf (challenge = true ∧ totpChallenge lib ticket = false)
    (mfaUnsupported "현재 연결 절차는 pam/pve 비밀번호와 TOTP를 지원합니다."))
  lift (raiseIf (challenge = false ∧ ((Dict.getD d "NeedTFA" .null).truthy = true ∨
      ("PVE:" : Str).isPrefixOf ticket = false))
    (mfaUnsupported "지원하지 않는 인증 응답입니다."))
  let now ← Send.clock
  return { actorId := c.actorId, sessionId := c.sessionId, transport := t, expires := now + 300
           ticket := ticket, csrf := csrf, challenge := challenge }

/-- What a call returns. -/
inductive Answer where
  | attempt (row : Attempt)
  | status (row : Attempt) (reauthRequired manualReconciliationRequired : Bool)
  | login (row : Attempt) (mfaRequired : Bool)
  | plan (row : Attempt) (plan : Plan)
  | importPlan (row : Attempt) (document : Dict)
  | verified (row : Attempt) (observed : Dict)
  | observed (row : Attempt) (tokenExists tokenMatches secretRecoverable : Bool)
  | done

/-- `status`. -/
def status (c : Caller) : Prog Answer := do
  let row ← Send.get c
  let found ← attempt (context c true)
  let reauth ← match found with
    | .ok _ => pure false
    | .error (.setup _) => pure true
    | .error e => throw e
  return .status row (reauth && !row.resolved)
    (row.phase ∈ [Phase.tokenDispatching, .issueUnknown, .aclApplying, .aclUnknown,
      .revocationPending])

def invalidInput (message : Str) : Failure := setupError "SETUP_INVALID_INPUT" message 422

/-- `login`. -/
def login (c : Caller) (password : Str) (otp : Option Str) : Prog Answer := do
  let row ← current c
  lift (raiseIf (row.resolved = true ∧ row.phase ≠ .active)
    (setupError "SETUP_PHASE_CONFLICT" "종료된 등록입니다."))
  lift (raiseIf (password = [] ∨ 4096 < password.length) (invalidInput "비밀번호 입력이 필요합니다."))
  lift (raiseIf (otp.any (fun code => !isOtp code) = true)
    (invalidInput "OTP 형식이 올바르지 않습니다."))
  Send.limit c.actorId
  let intent ← intentOf c
  lift (raiseIf (intent.mode ≠ .issue) (setupError "SETUP_IMPORT_FLOW_REQUIRED"
    "환경변수 가져오기는 Proxmox 비밀번호 로그인을 사용하지 않습니다."))
  Send.connect (transportOf intent)
  let credentials : Dict :=
    [("username", .str intent.owner), ("password", .str password), ("new-format", .int 1)]
  let code : Dict := otp.elim [] fun code => [("otp", .str code)]
  let result ← Send.request
    ⟨transportOf intent, .none, .post, "/access/ticket", credentials ++ code⟩
  let ctx ← authentication lib result intent.owner c (transportOf intent)
  Send.publish c.attemptId ctx
  if row.phase ∈ early then
    let row ← advance (site 0) c row
      { phase := if ctx.challenge then .mfaRequired else .authenticated }
    return .login row ctx.challenge
  else return .login row ctx.challenge

/-- `mfa`. -/
def mfa (c : Caller) (otp : Str) : Prog Answer := do
  let row ← current c
  Send.limit c.actorId
  let ref ← context c true
  let ctx ← Send.load ref
  lift (raiseIf (ctx.challenge = false ∨ isOtp otp = false)
    (invalidInput "진행 중인 TOTP 인증과 올바른 OTP가 필요합니다."))
  let intent ← intentOf c
  let ctx ← Send.load ref
  let result ← Send.request ⟨ctx.transport, .none, .post, "/access/ticket",
    [("username", .str intent.owner), ("tfa-challenge", .str ctx.ticket),
      ("password", .str (("totp:" : Str) ++ otp)), ("new-format", .int 1)]⟩
  let authenticated ← authentication lib result intent.owner c ctx.transport
  lift (raiseIf (authenticated.challenge = true)
    (setupError "PROXMOX_MFA_REQUIRED" "TOTP 인증이 완료되지 않았습니다." 502))
  -- The original window of five minutes is not extended.
  let ctx ← Send.load ref
  Send.publish c.attemptId { authenticated with expires := ctx.expires }
  if row.phase = .mfaRequired then
    let row ← advance (site 0) c row { phase := .authenticated }
    return .attempt row
  else return .attempt row

/-- Is the account of the owner enabled until the token expires? -/
def ownerAvailable (owner : Value) (expiresAt : ℤ) : Except Failure Bool :=
  match owner with
  | .dict d => do
      let enable := Dict.getD d "enable" (.int 1)
      let enabled ← setOf "enable" [[("enable", enable)]]
      let expire := Dict.getD d "expire" (.int 0)
      if isAmong enabled (.int 1) = false then return false
      else if expire.truthy then
        let limit ← orRaise expire.number (.store (.typeError "'>' not supported"))
        return (expiresAt : ℚ) ≤ limit
      else return true
  | _ => return false

def planConflict (message : Str) : Failure := setupError "SETUP_PLAN_CONFLICT" message

/-- `plan`. -/
def plan (c : Caller) : Prog Answer := do
  let row ← current c
  lift (raiseIf (row.phase ∉ [Phase.authenticated, .planned])
    (setupError "SETUP_PHASE_CONFLICT" "인증 완료 후 권한 계획을 확인하세요."))
  let ref ← context c false
  let intent ← intentOf c
  let version ← contextRequest ref .get "/version" []
  lift (raiseIf (version.asDict.any (fun d =>
      (Dict.getD d "version" .null).eqv (.str "9.0.11")) = false)
    (setupError "PROXMOX_VERSION_UNVERIFIED"
      "현재 검증 대상은 pve-manager 9.0.11입니다. 다른 버전은 별도 검증이 필요합니다." 422))
  let expiryInvalid := setupError "SETUP_EXPIRY_INVALID"
    "token 만료를 현재부터 5분 초과·90일 이내로 설정하세요." 422
  let now ← Send.time
  lift (raiseIf ((intent.expiresAt : ℚ) ≤ now + 300) expiryInvalid)
  let now ← Send.time
  lift (raiseIf (now + 90 * 86400 < intent.expiresAt) expiryInvalid)
  let owner ← contextRequest ref .get (("/access/users/" : Str) ++ quote intent.owner) []
  let available ← lift (ownerAvailable owner intent.expiresAt)
  lift (raiseIf (available = false)
    (setupError "PROXMOX_OWNER_UNAVAILABLE" "계정 활성 상태와 만료일을 확인하세요." 422))
  let plan ← buildPlan (site 0).digest (contextRequest ref .get) intent c.attemptId
    row.expectedConnectionVersion
  Send.setPlan ref plan
  let row ← advance (site 1) c row { phase := .planned, planDigest := some plan.digest }
  return .plan row plan

/-- `tokens`. -/
def tokens (intent : Intent) (ref : ℕ) : Prog (List Dict) := do
  let result ← contextRequest ref .get (tokensPath intent.owner) []
  lift (listOfDicts result "token 목록 형식이 올바르지 않습니다.")

/-- The tokens with the name of the attempt. -/
def ownTokens (attemptId : Str) (rows : List Dict) : List Dict :=
  rows.filter fun row => (Dict.getD row "tokenid" .null).eqv (.str (tokenName attemptId))

/-- `verify`: the attempt and what was observed. -/
def verifyRow (c : Caller) : Prog (Attempt × Dict) := do
  let row ← current c
  lift (raiseIf (row.phase ∉ [Phase.secretStaged, .verifying, .verificationFailed, .aclApplying,
      .aclUnknown, .verified])
    (setupError "SETUP_PHASE_CONFLICT" "현재 상태에서 token을 검증할 수 없습니다."))
  let intent ← intentOf c
  let (configuration, secret) ← Send.pending (site 0) c
  Send.connect (transportOf intent)
  let observed ← verifyToken (site 0).rt.repr (fun path data => Send.request
    ⟨transportOf intent, .token configuration.tokenId secret, .get, path, data⟩) intent.selected
  let row ← if row.phase ∈ [Phase.secretStaged, .aclApplying, .aclUnknown] then
      advance (site 1) c row { phase := .verifying, operationStatus := some .verifying }
    else pure row
  let row ← advance (site 2) c row { phase := .verified }
  return (row, observed)

def verify (c : Caller) : Prog Answer := do
  let (row, observed) ← verifyRow site c
  return .verified row observed

/-- The roles that the plan creates. -/
def postRoles (ref : ℕ) : List Role → Prog Unit
  | [] => return
  | role :: rest => do
      let _ ← contextRequest ref .post "/access/roles"
        [("roleid", .str role.name), ("privs", .str (join " " role.privilegeNames))]
      postRoles ref rest

/-- The grants of the plan. -/
def putAcls (ref : ℕ) (tokenId : Str) : List Acl → Prog Unit
  | [] => return
  | acl :: rest => do
      let _ ← contextRequest ref .put "/access/acl"
        [("path", .str acl.path), ("roles", .str acl.role.name), ("propagate", .int 1),
          ("tokens", .str tokenId)]
      putAcls ref tokenId rest

/-- The checks of `confirm` before the durable marker: the row, the reference of the context, the
plan and the intent. -/
def confirmChecks (c : Caller) (planDigest : Str) : Prog (Attempt × ℕ × Plan × Intent) := do
  let row ← current c
  lift (raiseIf (row.phase ≠ .planned)
    (setupError "SETUP_PHASE_CONFLICT" "확인할 권한 계획이 없습니다."))
  let ref ← context c false
  let ctx ← Send.load ref
  let stale := planConflict "권한 계획을 다시 조회하고 확인하세요."
  let plan ← lift (orRaise ctx.plan stale)
  lift (raiseIf (plan.canConfirm = false ∨ plan.digest ≠ planDigest ∨ row.planDigest = [] ∨
    row.planDigest ≠ planDigest) stale)
  let intent ← intentOf c
  let refreshed ← buildPlan (site 0).digest (contextRequest ref .get) intent c.attemptId
    row.expectedConnectionVersion
  let changed := planConflict
    "실행 전 권한 또는 만료 조건이 변경됐습니다. 계획을 다시 확인하세요."
  lift (raiseIf (refreshed.digest ≠ planDigest ∨ refreshed.canConfirm = false) changed)
  let now ← Send.time
  lift (raiseIf ((intent.expiresAt : ℚ) ≤ now + 300) changed)
  let rows ← tokens intent ref
  lift (raiseIf (ownTokens c.attemptId rows ≠ []) (setupError "PROXMOX_TOKEN_COLLISION"
    "이미 존재하는 token ID입니다. 기존 token을 변경하지 않습니다."))
  return (row, ref, plan, intent)

/-- The token that Proxmox has issued. -/
def issuedSecret (plan : Plan) (result : Value) : Except Failure Str :=
  orRaise (result.asDict.bind fun d =>
      if (Dict.getD d "full-tokenid" .null).eqv (.str plan.tokenId) then
        ((Dict.get d "value").bind Value.asStr).filter fun value => value ≠ []
      else none)
    (setupError "PROXMOX_ISSUE_UNKNOWN"
      "발급 결과를 확인할 수 없습니다. 등록 상태에서 exact token을 관찰하세요." 502)

/-- `confirm`. The durable marker precedes every external change. -/
def confirm (c : Caller) (planDigest : Str) : Prog Answer := do
  let (row, ref, plan, intent) ← confirmChecks site c planDigest
  let row ← advance (site 1) c row
    { phase := .tokenDispatching, operationStatus := some .dispatching }
  let result ← contextRequest ref .post (tokenPath intent.owner c.attemptId)
    [("privsep", .int 1), ("expire", .int intent.expiresAt),
      ("comment", .str (tokenComment c.attemptId))]
  let secret ← lift (issuedSecret plan result)
  let row ← Send.stageSecret (site 2) c.attemptId c.actorId row.version secret plan.tokenId
  let row ← advance (site 3) c row { phase := .aclApplying }
  postRoles ref plan.createRoles
  putAcls ref plan.tokenId plan.acls
  let row ← advance (site 4) c row
    { phase := .verifying, operationStatus := some .verifying }
  let (row, observed) ← verifyRow (fun i => site (5 + i)) { c with version := row.version }
  return .verified row observed

/-- Is the only token of the attempt the one it has issued? -/
def issuedHere (attemptId : Str) (found : List Dict) : Bool :=
  (found.head?).any fun row =>
    (Dict.getD row "comment" .null).eqv (.str (tokenComment attemptId))

/-- `observe`. -/
def observe (c : Caller) : Prog Answer := do
  let row ← current c
  let ref ← context c false
  let intent ← intentOf c
  let rows ← tokens intent ref
  let found := ownTokens c.attemptId rows
  return .observed row (!found.isEmpty) (issuedHere c.attemptId found) row.revisionId.isSome

/-- `activate`. -/
def activate (c : Caller) : Prog Answer := do
  let (row, _) ← verifyRow site c
  let result ← Send.activate (site 3) c.attemptId c.actorId row.version
  Send.drop c.attemptId
  return .attempt result

/-- `cancel`. -/
def cancel (c : Caller) : Prog Answer := do
  let row ← current c
  lift (raiseIf (row.phase ∉ early) (setupError "SETUP_CLEANUP_REQUIRED"
    "발급 시도 후에는 취소로 token을 없앨 수 없습니다. exact token을 확인·폐기하세요."))
  let result ← advance (site 0) c row
    { phase := .cancelled, operationStatus := some .cancelled, resolved := true }
  Send.drop c.attemptId
  return .attempt result

def revocationUnfinished (message : Str) : Failure := setupError "SETUP_REVOCATION_PENDING" message

/-- `revoke`. -/
def revoke (c : Caller) (tokenId : Str) : Prog Answer := do
  let row ← current c
  let ref ← context c false
  let intent ← intentOf c
  lift (raiseIf (tokenId ≠ issuedTokenId intent.owner c.attemptId)
    (setupError "SETUP_TOKEN_ID_CONFLICT" "폐기할 exact token ID를 확인하세요."))
  let rows ← tokens intent ref
  let found := ownTokens c.attemptId rows
  if row.phase = .revocationPending then
    lift (raiseIf (found ≠ []) (revocationUnfinished
      "이전 폐기 요청의 결과가 아직 확인되지 않았습니다. 자동으로 다시 폐기하지 않습니다."))
    let result ← Send.finishRevoke (site 0) c.attemptId c.actorId row.version
    return .attempt result
  else
    lift (raiseIf (found.length ≠ 1 ∨ issuedHere c.attemptId found = false)
      (setupError "SETUP_TOKEN_OWNERSHIP_UNKNOWN"
        "이 등록에서 발급한 token인지 확인되지 않습니다. 수동 확인이 필요합니다."))
    let row ← Send.beginRevoke (site 0) c.attemptId c.actorId row.version
    let _ ← contextRequest ref .delete (tokenPath intent.owner c.attemptId) []
    let rows ← tokens intent ref
    lift (raiseIf (ownTokens c.attemptId rows ≠ [])
      (revocationUnfinished "token 부재를 확인하지 못했습니다."))
    let result ← Send.finishRevoke (site 1) c.attemptId c.actorId row.version
    Send.drop c.attemptId
    return .attempt result

/-- `[A-Za-z0-9_.-]+` after the owner and `!`. -/
def isTokenOf (owner tokenId : Str) : Bool :=
  let start := owner ++ ("!" : Str)
  start.isPrefixOf tokenId && (tokenId.drop start.length).all (alnumOr "_.-") &&
    start.length < tokenId.length

/-- `env_credential`. -/
def envCredential (intent : Intent) : Prog (Str × Str) := do
  let env ← Send.getenv
  let unavailable := setupError "SETUP_ENV_IMPORT_UNAVAILABLE"
    "기존 env 연결과 TLS 검증 설정을 확인하세요. insecure 연결은 가져오지 않습니다." 422
  lift (raiseIf (env.apiUrl = [] ∨ env.apiTokenSecret = [] ∨
    isTokenOf intent.owner env.apiTokenId = false ∨
    lower env.tlsInsecure ∈ ([("1" : Str), "true", "yes", "on"] : List Str)) unavailable)
  let normalized ← lift (orRaise (lib.endpointOrigin env.apiUrl)
    (setupError "SETUP_ENV_IMPORT_UNAVAILABLE"
      "기존 env endpoint가 HTTPS 등록 정책과 맞지 않습니다." 422))
  lift (raiseIf (normalized ≠ intent.endpoint) (setupError "SETUP_ENV_IMPORT_CONFLICT"
    "가져올 기존 endpoint가 입력한 대상과 다릅니다."))
  return (env.apiTokenId, env.apiTokenSecret)

/-- The plan of an import. -/
def importDocument (digest : Value → Str) (intent : Intent) (tokenId : Str)
    (connectionVersion : ℕ) : Dict :=
  let accessMode : Dict :=
    if intent.selected.accessMode = .cluster then [("access_mode", .str "cluster")] else []
  let document : Dict :=
    [("endpoint", .str intent.endpoint), ("token_id", .str tokenId),
      ("scope", .dict (scopeDump intent.selected.scope)),
      ("features", featureNames intent.selected.features),
      ("connection_version", .int connectionVersion),
      ("trust_digest", .str (digest (.str intent.caPem))), ("mode", .str "import_env"),
      ("upstream_changes", .bool false), ("expires_at", .null), ("can_confirm", .bool true),
      ("roles", .dict []), ("create_roles", .list []), ("acls", .list []),
      ("authority_warnings", texts (authorityWarnings intent.selected))]
  document ++ accessMode

/-- `import_plan`. -/
def importPlan (c : Caller) : Prog Answer := do
  let row ← current c
  let intent ← intentOf c
  lift (raiseIf (intent.mode ≠ .importEnv ∨ row.phase ∉ [Phase.prepared, .planned])
    (setupError "SETUP_PHASE_CONFLICT" "환경변수 가져오기 등록이 아닙니다."))
  let (tokenId, _) ← envCredential lib intent
  let document := importDocument (site 0).digest intent tokenId row.expectedConnectionVersion
  let row ← advance (site 1) c row
    { phase := .planned, planDigest := some ((site 0).digest (.dict document)) }
  return .importPlan row document

/-- `import_env`. -/
def importEnv (c : Caller) (planDigest : Str) : Prog Answer := do
  let row ← current c
  let intent ← intentOf c
  lift (raiseIf (intent.mode ≠ .importEnv ∨ row.phase ∉ [Phase.planned, .importStaging] ∨
    row.planDigest = [] ∨ row.planDigest ≠ planDigest)
    (planConflict "가져오기 계획을 다시 확인하세요."))
  let (tokenId, secret) ← envCredential lib intent
  let document := importDocument (site 0).digest intent tokenId row.expectedConnectionVersion
  lift (raiseIf ((site 0).digest (.dict document) ≠ planDigest)
    (planConflict "기존 연결이 변경됐습니다. 계획을 다시 확인하세요."))
  Send.connect (transportOf intent)
  let _ ← verifyToken (site 0).rt.repr (fun path data => Send.request
    ⟨transportOf intent, .token tokenId secret, .get, path, data⟩) intent.selected
  let row ← if row.phase = .planned then
      advance (site 1) c row
        { phase := .importStaging, operationStatus := some .dispatching }
    else pure row
  let row ← Send.stageSecret (site 2) c.attemptId c.actorId row.version secret tokenId
  let row ← advance (site 3) c row
    { phase := .verifying, operationStatus := some .verifying }
  let row ← advance (site 4) c row { phase := .verified }
  return .attempt row

/-- What a call does. -/
def answerTo : Call → Prog Answer
  | .prepare q => do
      let row ← Send.prepare (site 0) q
      return .attempt row
  | .status c => status c
  | .login c password otp => login lib site c password otp
  | .mfa c otp => mfa lib site c otp
  | .plan c => plan site c
  | .confirm c planDigest => confirm site c planDigest
  | .verify c => verify site c
  | .observe c => observe c
  | .activate c => activate site c
  | .cancel c => cancel site c
  | .revoke c tokenId => revoke site c tokenId
  | .importPlan c => importPlan lib site c
  | .importEnv c planDigest => importEnv lib site c planDigest
  | .invalidateSession sessionId => do
      Send.invalidate sessionId
      return .done

/-- The program of a call. -/
def programOf (call : Call) : Prog Answer := do
  Send.receive call
  answerTo lib site call

end Programs

end Gjallar.RegistrationService

import Gjallar.Installation
import Gjallar.Operation
import Gjallar.TextLines

/-!
# The bootstrap commands

`install`, `service start`, `service stop` and `upgrade` as programs over the installation
directory and the Docker engine.
-/
namespace Gjallar.Bootstrap

open Gjallar.Text Gjallar.Data Gjallar.Operation Gjallar.CrashPrograms Gjallar.Installation
  Gjallar.TextLines

/-! ### The world -/

inductive Secret where
  | postgresPassword | appPassword | credentialKey | databaseUrl
  deriving DecidableEq

inductive Script where
  | initPostgres | postgresEntrypoint
  deriving DecidableEq

/-- A `before-upgrade-*` directory. -/
structure Backup where
  manifest : Option Value := none
  compose : Option Value := none

/-- The files of the installation directory. `pending` and `secretPending` count the temporary
files of writes that were not finished; `readable` is the bit of a script's mode that lets others
than its owner read it. -/
structure Directory where
  manifest : Option Value := none
  compose : Option Value := none
  journal : Option Value := none
  candidate : Option Value := none
  scripts : Script → Option Str := fun _ => none
  readable : Script → Bool := fun _ => false
  secretsDir : Bool := false
  secrets : Secret → Option Str := fun _ => none
  pending : ℕ := 0
  secretPending : ℕ := 0
  backups : List Backup := []

/-- Is there any file besides the lock? -/
def Directory.occupied (d : Directory) : Bool :=
  d.manifest.isSome || d.compose.isSome || d.journal.isSome || d.candidate.isSome ||
    (d.scripts .initPostgres).isSome || (d.scripts .postgresEntrypoint).isSome || d.secretsDir ||
    decide (d.pending ≠ 0) || !d.backups.isEmpty

inductive Command where
  | composeVersion | contextInspect | info
  | pull (reference : Str) | imageInspect (reference : Str) | imageTag (image : Str)
  | volumeLs | volumeCreate (label name : Str) | volumeInspect (name : Str)
  /-- With the active Compose file or with the candidate one. -/
  | compose (project : Str) (candidate : Bool) (args : List Str) (input : Option Value)

/-- What a command printed, and what its JSON parses to. -/
structure Output where
  text : Str := []
  json : Option Value := none

/-- A command succeeds, or it fails and may have taken effect nevertheless. -/
inductive Answer where
  | success (output : Output)
  | failure (happened : Bool)

/-- `re.fullmatch(r"[0-9a-f]{64}", value)`. -/
def isToken (value : Str) : Bool := value.length == 64 && value.all isLowerHex

/-- `secrets.token_hex(32)`. -/
structure Token where
  text : Str
  isHex : isToken text = true

/-- What a step may learn from its surroundings. -/
structure Reply where
  platform : Bool
  docker : Command → Answer
  portFree : Bool
  /-- `uuid.uuid4()`. -/
  uuid : Identifier
  token : Token
  /-- How much of a file reached the disk before the rest of it. -/
  cut : ℕ
  /-- May others read a file that is created under this umask? -/
  umask : Bool
  /-- The administrator input, unless it is refused. -/
  administrator : Option Value

inductive Event where
  /-- A command took effect while the engine had these volumes. -/
  | ran (command : Command) (succeeded : Bool) (volumes : List (Str × Option Str))
  | journalRemoved

/-- The directory, the volumes of the Docker engine with their installation labels, and what has
happened, latest first. -/
structure World where
  directory : Directory := {}
  volumes : List (Str × Option Str) := []
  log : List Event := []

abbrev Prog := CrashPrograms.Prog World Reply ClientError

/-- The volumes after a command took effect. -/
def volumesAfter (command : Command) (volumes : List (Str × Option Str)) :
    List (Str × Option Str) :=
  match command with
  | .volumeCreate label name =>
      if (volumes.lookup name).isSome then volumes else (name, some label) :: volumes
  | _ => volumes

def World.record (w : World) (command : Command) (succeeded : Bool) : World :=
  { w with
    volumes := volumesAfter command w.volumes
    log := .ran command succeeded w.volumes :: w.log }

/-- The arguments that run the init script as `postgres`. -/
def roleArgs : List Str :=
  ["exec", "-T", "--user", "postgres", "postgres", "sh",
    "/docker-entrypoint-initdb.d/10-gjallar.sh"]

/-- The command fails. -/
def Answer.fail : Answer → Answer
  | .success _ => .failure true
  | answer => answer

/-- The answer of the engine to a command: whatever it is, `postgres` cannot run a script that only
its owner may read. -/
def World.answer (w : World) (r : Reply) (command : Command) : Answer :=
  match command with
  | .compose _ _ args _ =>
      if args = roleArgs ∧ w.directory.readable .initPostgres = false then
        (r.docker command).fail
      else r.docker command
  | _ => r.docker command

/-- The world after a command was answered. -/
def World.answered (w : World) (command : Command) : Answer → World
  | .success _ => w.record command true
  | .failure true => w.record command false
  | .failure false => w

/-- `self.runner`: what a command answers may depend on the engine. -/
def runner {α : Type} (command : Command) (answer : World → Output → α) : Prog α :=
  .step (fun w r => w.answered command (w.answer r command)) fun w r =>
    match w.answer r command with
    | .success output => .done (answer w output)
    | .failure _ => .raise .dockerFailed

/-- `parse_json`. -/
def parseJson (json : Option Value) : Prog Value := .orRaise json .dockerProtocol

/-- Change the directory in one step. -/
def change (f : Directory → Directory) : Prog Unit :=
  .write fun w => { w with directory := f w.directory }

/-- `atomic_json`: a temporary file, which then takes the place of the target. -/
def atomicJson (replace : Directory → Directory) : Prog Unit := do
  change fun d => { d with pending := d.pending + 1 }
  change fun d => replace { d with pending := d.pending - 1 }

/-! ### The engine -/

/-- Digits in front of a text, and the rest. -/
def leadingNumber (s : Str) : Option ℕ × Str :=
  let digits := s.takeWhile fun c => (digitValue c).isSome
  (if digits = [] then none else toInt digits, s.dropWhile fun c => (digitValue c).isSome)

/-- Does the text name Compose 2.20 or later? -/
def composeSupported (text : Str) : Bool :=
  match leadingNumber ((strip text).dropWhile (· = 'v')) with
  | (some major, '.' :: rest) =>
      match (leadingNumber rest).1 with
      | some minor => decide (2 < major) || (major == 2 && decide (20 ≤ minor))
      | none => false
  | _ => false

/-- `ARCHITECTURES.get`. -/
def architecture (name : Option Value) : Option Str :=
  if name = some (.str "aarch64") ∨ name = some (.str "arm64") then some "arm64"
  else if name = some (.str "x86_64") ∨ name = some (.str "amd64") then some "amd64"
  else none

/-- The architecture of a Linux engine. -/
def engineArchitecture (info : Value) : Option Str := do
  let d ← info.asDict
  if Dict.get d "OSType" = some (.str "linux") then architecture (Dict.get d "Architecture")
  else none

/-- `preflight`. -/
def preflight : Prog Str := do
  let platform ← .receive fun r => r.platform
  .raiseIf (platform = false) .unsupportedPlatform
  let version ← runner .composeVersion fun _ o => o.text
  .raiseIf (composeSupported version = false) .composeVersion
  let endpoint ← runner .contextInspect fun _ o => strip o.text
  .raiseIf (("unix://" : Str).isPrefixOf endpoint = false) .remoteDockerRejected
  let json ← runner .info fun _ o => o.json
  let info ← parseJson json
  .orRaise (engineArchitecture info) .dockerPlatform

/-- `[A-Za-z0-9][A-Za-z0-9._/@:-]{0,255}`. -/
def isReference : Str → Bool
  | [] => false
  | c :: s => isAlnum c && s.all (alnumOr "._/@:-") && decide (s.length ≤ 255)

/-- The identifier of an inspected image that the engine can run. -/
def imageIdOf (engine : Str) (d : Dict) : Option ImageId := do
  let id ← (textOf d "Id").bind ImageId.ofText
  if textOf d "Os" = some ("linux" : Str) ∧
      architecture (Dict.get d "Architecture") = some engine then
    some id
  else none

/-- `image`, without pulling. -/
def image (engine reference : Str) : Prog ImageId := do
  .raiseIf (isReference reference = false) .invalidImage
  let json ← runner (.imageInspect reference) fun _ o => o.json
  let result ← parseJson json
  let d ← .orRaise result.asDict .dockerProtocol
  let id ← .orRaise (imageIdOf engine d) .invalidImage
  runner (.imageTag id.text) fun _ _ => ()
  return id

/-- `image(reference, pull=True)`. -/
def pullImage (engine reference : Str) : Prog ImageId := do
  .raiseIf (isReference reference = false) .invalidImage
  runner (.pull reference) fun _ _ => ()
  image engine reference

/-- `manifest["volume"] in self.volumes()`. -/
def hasVolume (m : Manifest) : Prog Bool :=
  runner .volumeLs fun w _ => (w.volumes.lookup m.volume).isSome

/-- Create the volume when it is missing and may be created. -/
def createMissing (m : Manifest) (create : Bool) : Bool → Prog Unit
  | true => return ()
  | false => do
      .raiseIf (create = false) .volumeMissing
      runner (.volumeCreate m.id.text m.volume) fun _ _ => ()

/-- `volume`. -/
def volume (m : Manifest) (create : Bool) : Prog Unit := do
  let present ← hasVolume m
  createMissing m create present
  let label ← runner (.volumeInspect m.volume) fun w _ => (w.volumes.lookup m.volume).join
  .raiseIf (label ≠ some m.id.text) .volumeConflict

/-- `compose`. -/
def compose (m : Manifest) (args : List Str) (input : Option Value := none) : Prog Output :=
  runner (.compose m.project false args input) fun _ o => o

/-- The states that `maintenance` accepts. -/
def maintenanceStates : List Str :=
  ["initializing", "schema_ready", "ready", "created", "already_initialized"]

/-- The state in a maintenance result. -/
def maintenanceState (result : Value) : Option Str := do
  let d ← result.asDict
  let state ← (Dict.get d "state").bind Value.asStr
  if Dict.get d "ok" = some (.bool true) ∧ state ∈ maintenanceStates then some state else none

/-- `maintenance`. -/
def maintenance (m : Manifest) (command : Str) (payload : Option Value := none) : Prog Str := do
  let output ← compose m ["run", "--rm", "--no-deps", "-T", "maintenance", command] payload
  let result ← parseJson output.json
  .orRaise (maintenanceState result) .initializationFailed

def upArgs (service : Str) : List Str := ["up", "-d", "--wait", "--wait-timeout", "120", service]

/-! ### Files -/

/-- The files of the packaged assets. -/
abbrev Assets := Script → Str

/-- `_secret`: the text of a secret file, which is linked into place when there is none. -/
def secret (name : Secret) (value : Str) : Prog Str := do
  let existing ← .read fun w : World => w.directory.secrets name
  match existing with
  | some text => return text
  | none =>
      change fun d => { d with secretPending := d.secretPending + 1 }
      change fun d => { d with secrets := Function.update d.secrets name (some value) }
      change fun d => { d with secretPending := d.secretPending - 1 }
      return value

def databaseUrl (appPassword : Str) : Str :=
  ("postgresql+psycopg://gjallar:" : Str) ++ appPassword ++ ("@postgres:5432/gjallar" : Str)

/-- The credential key of a manifest from version 2 on. -/
def credentialKey (m : Manifest) : Prog (List Str) :=
  if 2 ≤ m.version.number then do
    let token ← .receive Reply.token
    let key ← secret .credentialKey token.text
    return [key]
  else return []

/-- The secrets of `prepare_files`. -/
def prepareSecrets (m : Manifest) : Prog Unit := do
  let postgresToken ← .receive Reply.token
  let postgresPassword ← secret .postgresPassword postgresToken.text
  let appToken ← .receive Reply.token
  let appPassword ← secret .appPassword appToken.text
  let key ← credentialKey m
  .raiseIf ((postgresPassword :: appPassword :: key).all isToken = false) .secretInvalid
  let url ← secret .databaseUrl (databaseUrl appPassword)
  .raiseIf (url ≠ databaseUrl appPassword) .secretConflict

/-- `script.write_text` and `script.chmod(0o644)`: the file is there before its text is, the text
arrives in parts, and until the mode is changed it is that of the umask. -/
def writeScript (name : Script) (text : Str) : Prog Unit := do
  let umask ← .receive Reply.umask
  change fun d => { d with
    scripts := Function.update d.scripts name (some [])
    readable := Function.update d.readable name umask }
  let cut ← .receive Reply.cut
  change fun d => { d with scripts := Function.update d.scripts name (some (text.take cut)) }
  change fun d => { d with scripts := Function.update d.scripts name (some text) }
  change fun d => { d with readable := Function.update d.readable name true }

/-- One script of `prepare_files`. -/
def prepareScript (assets : Assets) (name : Script) : Prog Unit := do
  let existing ← .read fun w : World => w.directory.scripts name
  match existing with
  | some text => .raiseIf (text ≠ assets name) .configConflict
  | none => writeScript name (assets name)

/-- Does a Compose file hold the configuration? -/
def holdsConfig (file : Value) (m : Manifest) : Bool := file.eqv (composeConfig m)

/-- `prepare_files`. -/
def prepareFiles (assets : Assets) (m : Manifest) : Prog Unit := do
  change fun d => { d with secretsDir := true }
  prepareSecrets m
  prepareScript assets .initPostgres
  prepareScript assets .postgresEntrypoint
  let existing ← .read fun w : World => w.directory.compose
  .raiseIf (existing.any (fun file => !holdsConfig file m) = true) .configConflict
  atomicJson fun d => { d with compose := some (composeConfig m) }
  atomicJson fun d => { d with manifest := some (m.withState .prepared).toJson }

/-- The secrets that a manifest needs. -/
def secretNames (m : Manifest) : List Secret :=
  [.postgresPassword, .appPassword, .databaseUrl] ++
    if 2 ≤ m.version.number then [.credentialKey] else []

/-- Is a file there, with a text in it? -/
def filled (text : Option Str) : Bool := text.any fun s => !s.isEmpty

/-- The checks of `validate_files`. -/
def checkFiles (assets : Assets) (m : Manifest) (d : Directory) : Except ClientError Unit := do
  Operation.raiseIf (d.secretsDir = false) .secretUnsafe
  Operation.raiseIf ((secretNames m).all (fun name => filled (d.secrets name)) = false)
    .secretMissing
  Operation.raiseIf (d.compose.any (fun file => holdsConfig file m) = false) .configConflict
  Operation.raiseIf (d.scripts .initPostgres ≠ some (assets .initPostgres) ∨
    d.scripts .postgresEntrypoint ≠ some (assets .postgresEntrypoint)) .configConflict

/-- Raise the error of a check. -/
def ensure (check : Except ClientError Unit) : Prog Unit :=
  match check with
  | .ok _ => return ()
  | .error e => .raise e

/-- `validate_files`. -/
def validateFiles (assets : Assets) (m : Manifest) : Prog Unit := do
  let d ← .read World.directory
  ensure (checkFiles assets m d)

/-- The manifest in the directory, when it is valid. -/
def Directory.loaded (d : Directory) : Option Manifest := d.manifest.bind validateManifest

/-- `load`. -/
def load : Prog Manifest := do
  let manifest ← .read fun w : World => w.directory.loaded
  .orRaise manifest .installationInvalid

/-! ### Starting -/

/-- What a command reports. -/
inductive Report where
  | running (bindAddress : Str) (port : ℤ)
  | stopped
  | unchanged
  deriving DecidableEq

/-- `check_port`. -/
def checkPort (number : ℤ) : Prog Port := do
  let port ← .orRaise (Port.ofNumber number) .invalidPort
  let free ← .receive Reply.portFree
  .raiseIf (free = false) .portInUse
  return port

/-- Is the application running? -/
def applicationRuns (m : Manifest) : Prog Bool := do
  let output ← compose m ["ps", "--status", "running", "--services"]
  return (splitLines output.text).contains "gjallar"

/-- The port belongs to the project only while the application runs. -/
def ensurePort (m : Manifest) : Bool → Prog Unit
  | true => return ()
  | false => do
      let _ ← checkPort m.port.number
      return ()

/-- The commands of `_start` behind its checks. -/
def bringUp (m : Manifest) : Prog Unit := do
  let runs ← applicationRuns m
  ensurePort m runs
  let _ ← compose m (upArgs "postgres")
  let _ ← maintenance m "check-ready"
  let _ ← compose m (upArgs "gjallar")
  return ()

/-- `_start`. -/
def start (assets : Assets) (m : Manifest) : Prog Report := do
  validateFiles assets m
  volume m false
  .raiseIf (m.state ≠ .ready) .initializationIncomplete
  bringUp m
  return .running m.bindAddress m.port.number

/-! ### Recovering an upgrade -/

/-- The journal of an upgrade. -/
def journalJson (before candidate : Manifest) : Value :=
  .dict [("before", before.toJson), ("candidate", candidate.toJson)]

/-- The manifests of a journal, when both are valid and they differ only in the image. -/
def journalOf (data : Value) : Option (Manifest × Manifest) := do
  let d ← data.asDict
  let before ← (Dict.get d "before").bind validateManifest
  let candidate ← (Dict.get d "candidate").bind validateManifest
  if before.withImage candidate.image = candidate then some (before, candidate) else none

/-- Remove the journal. -/
def removeJournal : Prog Unit :=
  .write fun w =>
    { w with directory := { w.directory with journal := none }, log := .journalRemoved :: w.log }

/-- `_start` and the removal of the journal. -/
def finishRecovery (assets : Assets) (candidate : Manifest) : Bool → Prog Unit
  | false => return ()
  | true => do
      let _ ← start assets candidate
      removeJournal

/-- The checks of `recover_upgrade`. -/
def checkJournal (data : Value) : Prog Manifest := do
  let (before, candidate) ← .orRaise (journalOf data) .upgradeConflict
  let current ← load
  .raiseIf (current ≠ before ∧ current ≠ candidate) .upgradeConflict
  let file ← .read fun w : World => w.directory.compose
  .raiseIf (file.any (fun f => holdsConfig f before || holdsConfig f candidate) = false)
    .upgradeConflict
  return candidate

/-- `recover_upgrade` behind its checks. -/
def moveToCandidate (assets : Assets) (starting : Bool) (candidate : Manifest) : Prog Unit := do
  volume candidate false
  atomicJson fun d => { d with compose := some (composeConfig candidate) }
  atomicJson fun d => { d with manifest := some candidate.toJson }
  validateFiles assets candidate
  finishRecovery assets candidate starting

/-- `recover_upgrade`. -/
def recoverUpgrade (assets : Assets) (starting : Bool) : Prog Unit := do
  let journal ← .read fun w : World => w.directory.journal
  match journal with
  | none => return ()
  | some data => do
      let candidate ← checkJournal data
      moveToCandidate assets starting candidate

/-! ### The commands -/

structure Options where
  image : Option Str
  port : ℤ
  bindAddress : Str
  /-- Is administrator input offered? -/
  administrator : Bool
  deriving DecidableEq

/-- `if image and self.image(image) != manifest["image"]`. -/
def checkImage (engine : Str) (m : Manifest) : Option Str → Prog Unit
  | none => return ()
  | some reference =>
      if reference = [] then return ()
      else do
        let id ← image engine reference
        .raiseIf (id ≠ m.image) .upgradeRequired

/-- The manifest of an installation that exists. -/
def existingManifest (engine : Str) (options : Options) : Prog Manifest := do
  let m ← load
  checkImage engine m options.image
  .raiseIf (m.port.number ≠ options.port) .installationExists
  .raiseIf (m.bindAddress ≠ options.bindAddress) .installationExists
  return m

/-- `image or "gjallar:local"`. -/
def Options.reference (options : Options) : Str :=
  match options.image with
  | some reference => if reference = [] then "gjallar:local" else reference
  | none => "gjallar:local"

/-- The manifest of a new installation. -/
def newManifest (engine : Str) (options : Options) : Prog Manifest := do
  let occupied ← .read fun w : World => w.directory.occupied
  .raiseIf (occupied = true) .pathNotEmpty
  let port ← checkPort options.port
  let id ← .receive Reply.uuid
  let application ← image engine options.reference
  let postgres ← pullImage engine "postgres:17-bookworm"
  let m : Manifest :=
    { version := if options.bindAddress = "0.0.0.0" then .three else .two, id := id, port := port,
      image := application, postgresImage := postgres, state := .preparing }
  let present ← hasVolume m
  .raiseIf (present = true) .volumeConflict
  atomicJson fun d => { d with manifest := some m.toJson }
  return m

/-- `prepare_files` for an installation that is not prepared yet. -/
def prepareIfNeeded (assets : Assets) (m : Manifest) : Prog Manifest :=
  if m.state = .preparing then do
    let present ← hasVolume m
    .raiseIf (present = true) .volumeConflict
    prepareFiles assets m
    return m.withState .prepared
  else return m

/-- Persist that the volume exists, before any process can write rows into it. -/
def persistStorage (m : Manifest) : Prog Manifest :=
  if m.state = .prepared then do
    atomicJson fun d => { d with manifest := some (m.withState .storageReady).toJson }
    return m.withState .storageReady
  else return m

/-- The role setup of a database that was never ready. -/
def setUpRoles (m : Manifest) : Prog Unit :=
  if m.state = .storageReady then do
    let _ ← compose m roleArgs
    return ()
  else return ()

/-- The first administrator, unless there is one. -/
def setUpAdministrator (m : Manifest) (offered : Bool) (state : Str) : Prog Unit :=
  if state = "ready" then return ()
  else do
    .raiseIf (offered = false) .adminRequired
    let input ← .receive Reply.administrator
    let payload ← .orRaise input .invalidInput
    let _ ← maintenance m "setup-admin" (some payload)
    return ()

/-- The steps of `install` from the volume to the ready state. -/
def completeInstall (assets : Assets) (options : Options) (m : Manifest) : Prog Report := do
  validateFiles assets m
  volume m (m.state = .prepared)
  let m ← persistStorage m
  let _ ← compose m (upArgs "postgres")
  setUpRoles m
  let _ ← maintenance m "init-schema"
  let state ← maintenance m "status"
  setUpAdministrator m options.administrator state
  let _ ← maintenance m "check-ready"
  atomicJson fun d => { d with manifest := some (m.withState .ready).toJson }
  start assets (m.withState .ready)

/-- `install` with the manifest at hand. -/
def installFrom (assets : Assets) (options : Options) (m : Manifest) : Prog Report := do
  let m ← prepareIfNeeded assets m
  completeInstall assets options m

/-- `install` on the locked directory. -/
def installLocked (assets : Assets) (options : Options) (engine : Str) : Prog Report := do
  recoverUpgrade assets true
  let known ← .read fun w : World => w.directory.manifest.isSome
  match known with
  | true => do
      let m ← existingManifest engine options
      if m.state = .ready then start assets m else installFrom assets options m
  | false => do
      let m ← newManifest engine options
      installFrom assets options m

/-- `install`. -/
def install (assets : Assets) (options : Options) : Prog Report := do
  .raiseIf (options.bindAddress ≠ "127.0.0.1" ∧ options.bindAddress ≠ "0.0.0.0")
    .invalidBindAddress
  let engine ← preflight
  installLocked assets options engine

inductive Action where
  | start | stop
  deriving DecidableEq

/-- The services of an installation after its checks. -/
def act (assets : Assets) (m : Manifest) : Action → Prog Report
  | .start => start assets m
  | .stop => do
      let _ ← compose m ["stop", "gjallar"]
      let _ ← compose m ["stop", "postgres"]
      return .stopped

/-- `service`. -/
def service (assets : Assets) (action : Action) : Prog Report := do
  let _ ← preflight
  recoverUpgrade assets (action = .start)
  let m ← load
  validateFiles assets m
  volume m false
  act assets m action

/-- `check-ready` in the running application, or in a container of its own. -/
def checkReady (m : Manifest) : Bool → Prog Unit
  | true => do
      let _ ← compose m ["exec", "-T", "gjallar", "python", "-m", "app.installation.maintenance",
        "check-ready"]
      return ()
  | false => do
      let _ ← compose m ["run", "--rm", "--no-deps", "-T", "--entrypoint", "python", "maintenance",
        "-m", "app.installation.maintenance", "check-ready"]
      return ()

/-- Save the files before an upgrade. -/
def saveBackup (m : Manifest) : Prog Unit := do
  change fun d => { d with backups := {} :: d.backups }
  change fun d => { d with backups := { manifest := some m.toJson } :: d.backups.drop 1 }
  change fun d => { d with
    backups := { manifest := some m.toJson, compose := some (composeConfig m) } ::
      d.backups.drop 1 }

/-- `upgrade` once another image is chosen. -/
def switchImage (assets : Assets) (m candidate : Manifest) : Prog Report := do
  atomicJson fun d => { d with candidate := some (composeConfig candidate) }
  runner (.compose m.project true
    ["run", "--rm", "--no-deps", "-T", "maintenance", "check-ready"] none) fun _ _ => ()
  saveBackup m
  let _ ← compose m ["stop", "gjallar"]
  atomicJson fun d => { d with journal := some (journalJson m candidate) }
  atomicJson fun d => { d with compose := some (composeConfig candidate) }
  atomicJson fun d => { d with manifest := some candidate.toJson }
  let report ← start assets candidate
  removeJournal
  return report

/-- `upgrade`. -/
def upgrade (assets : Assets) (reference : Str) : Prog Report := do
  let engine ← preflight
  recoverUpgrade assets true
  let m ← load
  validateFiles assets m
  volume m false
  let id ← image engine reference
  let runs ← applicationRuns m
  checkReady m runs
  if id = m.image then return .unchanged
  else switchImage assets m (m.withImage id)

inductive Run where
  | install (options : Options)
  | service (action : Action)
  | upgrade (reference : Str)

/-- The program of a run. -/
def program (assets : Assets) : Run → Prog Report
  | .install options => install assets options
  | .service action => service assets action
  | .upgrade reference => upgrade assets reference

end Gjallar.Bootstrap

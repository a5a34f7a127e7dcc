import Gjallar.DictEquality
import Gjallar.CrashPrograms

/-!
# The client installation

The manifest of a managed installation, the Compose configuration it determines, the files of the
installation directory and the Docker commands. Every file operation and every Docker command is a
step of its own; a file that is written in place passes through partial contents.
-/
namespace Gjallar.Installation

open Gjallar.Text Gjallar.Data Gjallar.CrashPrograms

/-- The codes of `ClientError`. -/
inductive ClientError where
  | unsupportedPlatform | dockerFailed | dockerProtocol | composeVersion | remoteDockerRejected
  | dockerPlatform | invalidImage | installationInvalid | volumeMissing | volumeConflict
  | secretInvalid | secretConflict | secretUnsafe | secretMissing | configConflict
  | initializationFailed | initializationIncomplete | invalidBindAddress | invalidPort | portInUse
  | upgradeRequired | installationExists | pathNotEmpty | adminRequired | invalidInput
  | upgradeConflict
  deriving DecidableEq

/-! ### Manifests -/

inductive State where
  | preparing | prepared | storageReady | ready
  deriving DecidableEq

def State.name : State → Str
  | .preparing => "preparing"
  | .prepared => "prepared"
  | .storageReady => "storage_ready"
  | .ready => "ready"

def State.ofName (name : Str) : Option State :=
  [.preparing, .prepared, .storageReady, .ready].find? fun s => s.name = name

@[simp] theorem State.ofName_name (s : State) : ofName s.name = some s := by cases s <;> decide

/-- Drop `skip` characters, then every occurrence of a part. -/
def removeFrom (part : Str) : ℕ → Str → Str
  | _, [] => []
  | skip + 1, _ :: s => removeFrom part skip s
  | 0, c :: s =>
      if part.isPrefixOf (c :: s) then removeFrom part (part.length - 1) s
      else c :: removeFrom part 0 s

/-- `s.replace(part, "")` for a part that is not empty. -/
def removeAll (part s : Str) : Str := removeFrom part 0 s

/-- `str(uuid.UUID(text))`. -/
def canonicalUuid (text : Str) : Option Str :=
  let bare := removeAll "uuid:" (removeAll "urn:" text)
  let isBrace : Char → Bool := fun c => ("\x7b\x7d" : Str).contains c
  let hex := (((bare.dropWhile isBrace).reverse.dropWhile isBrace).reverse).filter (· ≠ '-')
  if hex.length = 32 ∧ hex.all isHexDigit then
    let low := lower hex
    some (low.take 8 ++ '-' :: (low.drop 8).take 4 ++ '-' :: (low.drop 12).take 4 ++
      '-' :: (low.drop 16).take 4 ++ '-' :: low.drop 20)
  else none

/-- The text of an installation identifier with its canonical form. -/
structure Identifier where
  text : Str
  uid : Str
  isUuid : canonicalUuid text = some uid
  deriving DecidableEq

/-- `IMAGE_ID.fullmatch`. -/
def isImageId (s : Str) : Bool :=
  ("sha256:" : Str).isPrefixOf s && (s.drop 7).length == 64 && (s.drop 7).all isLowerHex

structure ImageId where
  text : Str
  isImage : isImageId text = true
  deriving DecidableEq

def ImageId.ofText (text : Str) : Option ImageId :=
  if h : isImageId text = true then some ⟨text, h⟩ else none

@[simp] theorem ImageId.ofText_text (i : ImageId) : ofText i.text = some i := dif_pos i.isImage

structure Port where
  number : ℤ
  isPort : 1024 ≤ number ∧ number ≤ 65535
  deriving DecidableEq

def Port.ofNumber (number : ℤ) : Option Port :=
  if h : 1024 ≤ number ∧ number ≤ 65535 then some ⟨number, h⟩ else none

@[simp] theorem Port.ofNumber_number (p : Port) : ofNumber p.number = some p := dif_pos p.isPort

inductive Version where
  | one | two | three
  deriving DecidableEq

def Version.number : Version → ℕ
  | .one => 1
  | .two => 2
  | .three => 3

/-- A manifest that `validate_manifest` accepts. The project and the volume are determined by the
identifier, and the bind address by the version. -/
structure Manifest where
  version : Version
  id : Identifier
  port : Port
  image : ImageId
  postgresImage : ImageId
  state : State
  deriving DecidableEq

/-- The project of an installation. -/
def projectName (uid : Str) : Str := ("gjallar-" : Str) ++ uid

/-- The volume of an installation. -/
def volumeName (uid : Str) : Str := ("gjallar-" : Str) ++ uid ++ ("-pgdata" : Str)

namespace Manifest

def project (m : Manifest) : Str := projectName m.id.uid

def volume (m : Manifest) : Str := volumeName m.id.uid

/-- `manifest.get("bind_address", "127.0.0.1")`. -/
def bindAddress (m : Manifest) : Str := if m.version = .three then "0.0.0.0" else "127.0.0.1"

/-- The keys of a manifest. -/
def keys (version : Version) : List Str :=
  ["version", "id", "project", "volume", "port", "image", "postgres_image", "state"] ++
    if version = .three then ["bind_address"] else []

/-- The manifest as it is written to its file. -/
def toDict (m : Manifest) : Dict :=
  let entries : Dict :=
    [("version", .int m.version.number), ("id", .str m.id.text), ("project", .str m.project),
      ("volume", .str m.volume), ("port", .int m.port.number), ("image", .str m.image.text),
      ("postgres_image", .str m.postgresImage.text), ("state", .str m.state.name)]
  if m.version = .three then entries ++ [(("bind_address" : Str), .str "0.0.0.0")] else entries

def toJson (m : Manifest) : Value := .dict m.toDict

/-- `manifest["state"] = state`. -/
def withState (m : Manifest) (state : State) : Manifest := { m with state := state }

/-- `{**manifest, "image": image}`. -/
def withImage (m : Manifest) (image : ImageId) : Manifest := { m with image := image }

@[simp] theorem withState_id (m : Manifest) (s : State) : (m.withState s).id = m.id := rfl
@[simp] theorem withState_port (m : Manifest) (s : State) : (m.withState s).port = m.port := rfl
@[simp] theorem withState_image (m : Manifest) (s : State) : (m.withState s).image = m.image := rfl
@[simp] theorem withState_state (m : Manifest) (s : State) : (m.withState s).state = s := rfl
@[simp] theorem withState_version (m : Manifest) (s : State) :
    (m.withState s).version = m.version := rfl
@[simp] theorem withState_volume (m : Manifest) (s : State) :
    (m.withState s).volume = m.volume := rfl
@[simp] theorem withState_project (m : Manifest) (s : State) :
    (m.withState s).project = m.project := rfl
@[simp] theorem withState_bindAddress (m : Manifest) (s : State) :
    (m.withState s).bindAddress = m.bindAddress := rfl
@[simp] theorem withImage_id (m : Manifest) (i : ImageId) : (m.withImage i).id = m.id := rfl
@[simp] theorem withImage_port (m : Manifest) (i : ImageId) : (m.withImage i).port = m.port := rfl
@[simp] theorem withImage_image (m : Manifest) (i : ImageId) : (m.withImage i).image = i := rfl
@[simp] theorem withImage_state (m : Manifest) (i : ImageId) :
    (m.withImage i).state = m.state := rfl
@[simp] theorem withImage_version (m : Manifest) (i : ImageId) :
    (m.withImage i).version = m.version := rfl
@[simp] theorem withImage_volume (m : Manifest) (i : ImageId) :
    (m.withImage i).volume = m.volume := rfl
@[simp] theorem withImage_project (m : Manifest) (i : ImageId) :
    (m.withImage i).project = m.project := rfl
@[simp] theorem withImage_bindAddress (m : Manifest) (i : ImageId) :
    (m.withImage i).bindAddress = m.bindAddress := rfl

end Manifest

/-- `data["version"]` as one of the supported versions. -/
def versionOf (d : Dict) : Option Version :=
  [.one, .two, .three].find? fun version =>
    (Dict.get d "version").any fun v => v.number = some (version.number : ℚ)

/-- `uuid.UUID(text)`. -/
def Identifier.ofText (text : Str) : Option Identifier :=
  match h : canonicalUuid text with
  | some uid => some ⟨text, uid, h⟩
  | none => none

@[simp] theorem Identifier.ofText_text (i : Identifier) : ofText i.text = some i := by
  unfold ofText
  split
  · next uid h =>
      rw [i.isUuid] at h
      cases h
      rfl
  · next h =>
      rw [i.isUuid] at h
      cases h

/-- A text entry. -/
def textOf (d : Dict) (key : Str) : Option Str := (Dict.get d key).bind Value.asStr

/-- `validate_manifest`. -/
def validateManifest (data : Value) : Option Manifest := do
  let d ← data.asDict
  let version ← versionOf d
  let id ← (textOf d "id").bind Identifier.ofText
  let port ← ((Dict.get d "port").bind Value.asInt).bind Port.ofNumber
  let image ← (textOf d "image").bind ImageId.ofText
  let postgresImage ← (textOf d "postgres_image").bind ImageId.ofText
  let state ← (textOf d "state").bind State.ofName
  if Dict.keysAre d (Manifest.keys version) = true ∧
      textOf d "project" = some (projectName id.uid) ∧
      textOf d "volume" = some (volumeName id.uid) ∧
      (version = .three → textOf d "bind_address" = some ("0.0.0.0" : Str)) then
    some ⟨version, id, port, image, postgresImage, state⟩
  else none

theorem Manifest.get_toDict (m : Manifest) {key : Str} (hkey : key ≠ "bind_address") :
    Dict.get m.toDict key = Dict.get
      [("version", .int m.version.number), ("id", .str m.id.text), ("project", .str m.project),
        ("volume", .str m.volume), ("port", .int m.port.number), ("image", .str m.image.text),
        ("postgres_image", .str m.postgresImage.text), ("state", .str m.state.name)] key := by
  unfold toDict
  dsimp only
  split_ifs
  · have hnone : Dict.get [("bind_address", .str "0.0.0.0")] key = none := by
      rw [Dict.get_cons, if_neg hkey, Dict.get_nil]
    rw [Dict.get_append, hnone, Option.or_none]
  · rfl

theorem versionOf_toDict (m : Manifest) : versionOf m.toDict = some m.version := by
  have hget : Dict.get m.toDict "version" = some (.int m.version.number) := by
    rw [m.get_toDict (by decide)]
    rfl
  rw [versionOf, hget]
  cases m.version <;> decide

theorem keysAre_toDict (m : Manifest) :
    Dict.keysAre m.toDict (Manifest.keys m.version) = true := by
  unfold Manifest.toDict Manifest.keys
  dsimp only
  split_ifs
  · rfl
  · rfl

/-- A manifest is read back from its file. -/
@[simp] theorem validateManifest_toJson (m : Manifest) : validateManifest m.toJson = some m := by
  have hid : Dict.get m.toDict "id" = some (.str m.id.text) := m.get_toDict (by decide)
  have hport : Dict.get m.toDict "port" = some (.int m.port.number) := m.get_toDict (by decide)
  have himage : Dict.get m.toDict "image" = some (.str m.image.text) := m.get_toDict (by decide)
  have hpostgres : Dict.get m.toDict "postgres_image" = some (.str m.postgresImage.text) :=
    m.get_toDict (by decide)
  have hstate : Dict.get m.toDict "state" = some (.str m.state.name) := m.get_toDict (by decide)
  have hproject : Dict.get m.toDict "project" = some (.str m.project) :=
    m.get_toDict (by decide)
  have hvolume : Dict.get m.toDict "volume" = some (.str m.volume) := m.get_toDict (by decide)
  have hbind : m.version = .three → textOf m.toDict "bind_address" = some ("0.0.0.0" : Str) := by
    intro h
    unfold Manifest.toDict
    dsimp only
    rw [if_pos h]
    rfl
  unfold validateManifest Manifest.toJson
  simp only [Value.asDict, Option.bind_eq_bind, Option.bind_some, versionOf_toDict, textOf, hid,
    hport, himage, hpostgres, hstate, hproject, hvolume, Value.asStr, Value.asInt,
    State.ofName_name, Identifier.ofText_text, Port.ofNumber_number, ImageId.ofText_text]
  exact if_pos ⟨keysAre_toDict m, rfl, rfl, hbind⟩

/-! ### The Compose configuration -/

def texts (xs : List Str) : Value := .list (xs.map .str)

/-- `["credential_key"]` from version 2 on. -/
def credentialSecrets (m : Manifest) : List Str :=
  if 2 ≤ m.version.number then ["credential_key"] else []

def loggingConfig : Value :=
  .dict [("driver", .str "json-file"),
    ("options", .dict [("max-size", .str "10m"), ("max-file", .str "3")])]

def environment (m : Manifest) : Dict :=
  let required : Dict :=
    [("GJALLAR_DATABASE_URL_FILE", .str "/run/secrets/database_url"),
      ("GJALLAR_INSTALLATION_ID", .str m.id.text),
      ("GJALLAR_ALLOWED_ORIGINS", .str (("http://127.0.0.1:" : Str) ++ ofInt m.port.number)),
      ("GJALLAR_SESSION_COOKIE_SECURE", .str "false"),
      ("GJALLAR_SESSION_COOKIE_SAMESITE", .str "lax"), ("GJALLAR_INVENTORY_MODE", .str "live")]
  let credential : Dict :=
    if 2 ≤ m.version.number then
      [("GJALLAR_CREDENTIAL_KEY_FILE", .str "/run/secrets/credential_key")]
    else []
  let origin : Dict :=
    if m.bindAddress = "0.0.0.0" then [("GJALLAR_ALLOW_SAME_ORIGIN", .str "true")] else []
  required ++ credential ++ origin

/-- What the maintenance and the application service share. -/
def common (m : Manifest) (entrypoint : Str) : Dict :=
  [("image", .str m.image.text), ("entrypoint", texts ["python", "-m", entrypoint]),
    ("environment", .dict (environment m)),
    ("secrets", texts ("database_url" :: credentialSecrets m)),
    ("depends_on", .dict [("postgres", .dict [("condition", .str "service_healthy")])]),
    ("logging", loggingConfig)]

def postgresService (m : Manifest) : Dict :=
  [("image", .str m.postgresImage.text), ("restart", .str "unless-stopped"),
    ("environment", .dict [("POSTGRES_USER", .str "postgres"), ("POSTGRES_DB", .str "gjallar"),
      ("POSTGRES_PASSWORD_FILE", .str "/run/gjallar/postgres_password")]),
    ("entrypoint", texts ["sh", "/opt/gjallar/postgres-entrypoint.sh"]),
    ("command", texts ["postgres"]), ("tmpfs", texts ["/run/gjallar"]),
    ("secrets", texts ["postgres_password", "app_password"]),
    ("volumes", texts ["pgdata:/var/lib/postgresql/data",
      "./init-postgres.sh:/docker-entrypoint-initdb.d/10-gjallar.sh:ro",
      "./postgres-entrypoint.sh:/opt/gjallar/postgres-entrypoint.sh:ro"]),
    ("healthcheck", .dict [("test", texts ["CMD", "pg_isready", "-h", "127.0.0.1", "-U",
        "postgres", "-d", "postgres"]), ("interval", .str "2s"), ("timeout", .str "5s"),
      ("retries", .int 30)]),
    ("logging", loggingConfig)]

def maintenanceService (m : Manifest) : Dict :=
  common m "app.installation.maintenance" ++
    [(("profiles" : Str), texts ["maintenance"]), ("command", texts ["status"])]

def gjallarService (m : Manifest) : Dict :=
  common m "app.installation.serve" ++
    [(("restart" : Str), .str "unless-stopped"),
      ("ports", texts [m.bindAddress ++ (":" : Str) ++ ofInt m.port.number ++ (":8000" : Str)]),
      ("healthcheck", .dict [("test", texts ["CMD", "python", "-c",
          "import urllib.request; urllib.request.urlopen('http://127.0.0.1:8000/health', timeout=3)"]),
        ("interval", .str "3s"), ("timeout", .str "5s"), ("retries", .int 30)])]

/-- `compose_config`. -/
def composeConfig (m : Manifest) : Value :=
  .dict
    [("services", .dict [("postgres", .dict (postgresService m)),
        ("maintenance", .dict (maintenanceService m)), ("gjallar", .dict (gjallarService m))]),
      ("volumes", .dict [("pgdata", .dict [("external", .bool true), ("name", .str m.volume)])]),
      ("secrets", .dict ((("database_url" : Str) :: "postgres_password" :: "app_password" ::
        credentialSecrets m).map fun name =>
          (name, .dict [("file", .str (("./secrets/" : Str) ++ name))])))]

/-- The configuration does not name the state of the installation. -/
@[simp] theorem composeConfig_withState (m : Manifest) (s : State) :
    composeConfig (m.withState s) = composeConfig m := rfl

/-! ### Equal JSON values -/

mutual

/-- No dictionary in the value has a key twice. -/
def tidy : Value → Bool
  | .list xs => tidyList xs
  | .tuple xs => tidyList xs
  | .dict kvs => decide (kvs.map Prod.fst).Nodup && tidyDict kvs
  | _ => true

def tidyList : List Value → Bool
  | [] => true
  | v :: vs => tidy v && tidyList vs

def tidyDict : List (Str × Value) → Bool
  | [] => true
  | (_, v) :: kvs => tidy v && tidyDict kvs

end

mutual

/-- A tidy value equals itself. -/
theorem eqv_self : ∀ v : Value, tidy v = true → Value.eqv v v = true
  | .null, _ => by simp
  | .bool b, _ => by simp [Value.eqv, Value.number]
  | .int n, _ => by simp
  | .float q, _ => by simp [Value.eqv, Value.number]
  | .str s, _ => by simp
  | .list xs, h => by
      rw [tidy] at h
      rw [Value.eqv]
      exact eqvList_self xs h
  | .tuple xs, h => by
      rw [tidy] at h
      rw [Value.eqv]
      exact eqvList_self xs h
  | .dict kvs, h => by
      rw [tidy, Bool.and_eq_true, decide_eq_true_eq] at h
      rw [Value.eqv, beq_self_eq_true, Bool.true_and]
      exact Value.eqvDict_iff.mpr fun kv hkv =>
        ⟨kv.2, Dict.get_of_mem h.1 hkv, eqv_self_of_mem kvs h.2 kv hkv⟩

theorem eqvList_self : ∀ vs : List Value, tidyList vs = true → Value.eqvList vs vs = true
  | [], _ => by simp [Value.eqvList]
  | v :: vs, h => by
      rw [tidyList, Bool.and_eq_true] at h
      rw [Value.eqvList, eqv_self v h.1, eqvList_self vs h.2]
      rfl

theorem eqv_self_of_mem : ∀ d : List (Str × Value), tidyDict d = true →
    ∀ kv ∈ d, Value.eqv kv.2 kv.2 = true
  | [], _, kv, hkv => by cases hkv
  | (k, v) :: d, h, kv, hkv => by
      rw [tidyDict, Bool.and_eq_true] at h
      rcases List.mem_cons.mp hkv with rfl | hkv
      · exact eqv_self v h.1
      · exact eqv_self_of_mem d h.2 kv hkv

end

theorem tidyDict_iff (d : Dict) : tidyDict d = true ↔ ∀ kv ∈ d, tidy kv.2 = true := by
  induction d with
  | nil => simp [tidyDict]
  | cons kv d ih =>
      obtain ⟨k, v⟩ := kv
      rw [tidyDict, Bool.and_eq_true, List.forall_mem_cons, ih]

theorem tidy_dict_iff (d : Dict) : tidy (.dict d) = true ↔
    (d.map Prod.fst).Nodup ∧ ∀ kv ∈ d, tidy kv.2 = true := by
  rw [tidy, Bool.and_eq_true, decide_eq_true_eq, tidyDict_iff]

@[simp] theorem tidy_texts (xs : List Str) : tidy (texts xs) = true := by
  rw [texts, tidy]
  induction xs with
  | nil => simp [tidyList]
  | cons x xs ih => simp [tidyList, tidy, ih]

@[simp] theorem tidy_str (s : Str) : tidy (.str s) = true := by simp [tidy]
@[simp] theorem tidy_int (n : ℤ) : tidy (.int n) = true := by simp [tidy]
@[simp] theorem tidy_bool (b : Bool) : tidy (.bool b) = true := by simp [tidy]

theorem tidy_loggingConfig : tidy loggingConfig = true := by decide

theorem tidy_environment (m : Manifest) : tidy (.dict (environment m)) = true := by
  rw [tidy_dict_iff]
  unfold environment
  dsimp only
  split_ifs <;> simp only [List.cons_append, List.nil_append, List.append_nil, List.map_cons,
    List.map_nil, List.forall_mem_cons, tidy_str] <;> decide

theorem tidy_common (m : Manifest) (entrypoint : Str) {rest : Dict}
    (hrest : ∀ kv ∈ rest, tidy kv.2 = true)
    (hkeys : (("image" : Str) :: "entrypoint" :: "environment" :: "secrets" :: "depends_on" ::
      "logging" :: rest.map Prod.fst).Nodup) :
    tidy (.dict (common m entrypoint ++ rest)) = true := by
  have hdepends : tidy (.dict [("postgres", .dict [("condition", .str "service_healthy")])]) =
      true := by decide
  rw [tidy_dict_iff]
  refine ⟨hkeys, ?_⟩
  unfold common
  simp only [List.cons_append, List.nil_append, List.forall_mem_cons, tidy_str, tidy_texts,
    tidy_environment, tidy_loggingConfig, hdepends, true_and]
  exact hrest

theorem tidy_postgresService (m : Manifest) : tidy (.dict (postgresService m)) = true := by
  have henvironment : tidy (.dict [("POSTGRES_USER", .str "postgres"),
      ("POSTGRES_DB", .str "gjallar"),
      ("POSTGRES_PASSWORD_FILE", .str "/run/gjallar/postgres_password")]) = true := by
    decide
  have hhealth : tidy (.dict [("test", texts ["CMD", "pg_isready", "-h", "127.0.0.1", "-U",
      "postgres", "-d", "postgres"]), ("interval", .str "2s"), ("timeout", .str "5s"),
      ("retries", .int 30)]) = true := by decide
  rw [tidy_dict_iff]
  unfold postgresService
  simp only [List.map_cons, List.map_nil, List.forall_mem_cons, tidy_str, tidy_texts, henvironment,
    hhealth, tidy_loggingConfig, List.not_mem_nil, false_implies, implies_true, and_true]
  decide

theorem tidy_maintenanceService (m : Manifest) :
    tidy (.dict (maintenanceService m)) = true := by
  refine tidy_common m _ ?_ (by decide)
  simp only [List.forall_mem_cons, tidy_texts, List.not_mem_nil, false_implies, implies_true,
    and_true]

theorem tidy_gjallarService (m : Manifest) : tidy (.dict (gjallarService m)) = true := by
  have hhealth : tidy (.dict [("test", texts ["CMD", "python", "-c",
      "import urllib.request; urllib.request.urlopen('http://127.0.0.1:8000/health', timeout=3)"]),
      ("interval", .str "3s"), ("timeout", .str "5s"), ("retries", .int 30)]) = true := by
    decide
  refine tidy_common m _ ?_ ?_
  · simp only [List.forall_mem_cons, tidy_str, tidy_texts, hhealth, List.not_mem_nil,
      false_implies, implies_true, and_true]
  · simp only [List.map_cons, List.map_nil]
    decide

theorem tidy_composeConfig (m : Manifest) : tidy (composeConfig m) = true := by
  have hservices : tidy (.dict [("postgres", .dict (postgresService m)),
      ("maintenance", .dict (maintenanceService m)), ("gjallar", .dict (gjallarService m))]) =
      true := by
    rw [tidy_dict_iff]
    simp only [List.map_cons, List.map_nil, List.forall_mem_cons, tidy_postgresService,
      tidy_maintenanceService, tidy_gjallarService, List.not_mem_nil, false_implies, implies_true,
      and_true]
    decide
  have hvolumes : tidy (.dict [("pgdata", .dict [("external", .bool true),
      ("name", .str m.volume)])]) = true := by
    simp only [tidy_dict_iff, List.map_cons, List.map_nil, List.forall_mem_cons, tidy_str,
      tidy_bool, List.not_mem_nil, false_implies, implies_true, and_true]
    decide
  have hsecrets : tidy (.dict ((("database_url" : Str) :: "postgres_password" ::
      "app_password" :: credentialSecrets m).map fun name =>
        (name, .dict [("file", .str (("./secrets/" : Str) ++ name))]))) = true := by
    rw [tidy_dict_iff]
    constructor
    · rw [List.map_map]
      unfold credentialSecrets
      split_ifs
      · decide
      · decide
    · intro kv hkv
      obtain ⟨name, -, rfl⟩ := List.mem_map.mp hkv
      simp [tidy_dict_iff]
  rw [composeConfig, tidy_dict_iff]
  have hkeys : [("services" : Str), "volumes", "secrets"].Nodup := by decide
  refine ⟨hkeys, ?_⟩
  rw [List.forall_mem_cons, List.forall_mem_cons, List.forall_mem_singleton]
  exact ⟨hservices, hvolumes, hsecrets⟩

/-- A written configuration is read back as the same one. -/
@[simp] theorem eqv_composeConfig (m : Manifest) :
    Value.eqv (composeConfig m) (composeConfig m) = true :=
  eqv_self _ (tidy_composeConfig m)

end Gjallar.Installation

import Gjallar.VmDelete

/-!
# The configuration in a backup archive

The text of an archive's configuration is read line by line into a configuration and a hint about
the root disk; the source policy of backups and the rules for a restore are then applied to it.
-/
namespace Gjallar.ArchiveConfig

open Gjallar.Text Gjallar.TextLines Gjallar.Data Gjallar.Operation Gjallar.Regex
  Gjallar.Regex.Pattern Gjallar.Registration Gjallar.VmDelete

/-- A character of a text: texts can have surrogates, which no encoding has. -/
abbrev CodePoint := Char ⊕ Fin 2048

structure BackupError where
  code : Str
  message : Str
  statusCode : ℕ := 409
  deriving DecidableEq

inductive Raised where
  | backup (e : BackupError)
  | unicodeEncodeError
  | valueError
  | typeError
  deriving DecidableEq

def backupError (code message : Str) (statusCode : ℕ := 409) : Raised :=
  .backup ⟨code, message, statusCode⟩

/-- `raw.encode('utf-8')`, the characters that it encodes. -/
def encode (raw : List CodePoint) : Except Raised Str :=
  orRaise (raw.mapM Sum.getLeft?) .unicodeEncodeError

def utf8Length (s : Str) : ℕ := (s.map Char.utf8Size).sum

/-- `int(digits)`. More digits than the interpreter's limit are a `ValueError`. -/
def intOf (digits : Str) : Except Raised ℕ := do
  raiseIf (4300 < digits.length) .valueError
  orRaise (toInt digits) .valueError

/-! ### Options -/

def optionsUnsupported : Raised :=
  backupError "VM_RESTORE_CONFIG_UNSUPPORTED" "archive 장치 옵션을 확인할 수 없습니다."

/-- The dictionary of the parts of an option list; each part is a key and a value. -/
def pairsOf (parts : List Str) (e : Raised) : Except Raised (List (Str × Str)) := do
  let pairs ← orRaise (parts.mapM readOption) e
  raiseIf (¬ (pairs.map Prod.fst).Nodup) e
  return pairs

/-- `options`. -/
def options (value : Value) : Except Raised (List (Str × Str)) := do
  let text ← orRaise value.asStr optionsUnsupported
  pairsOf (splitAll ',' text) optionsUnsupported

/-! ### Lines -/

structure Hint where
  storageId : Str
  format : Str
  deriving DecidableEq

def hintPrefix : Str := "#qmdump#map:"

/-- `#qmdump#map:(scsi0):(drive-scsi0):([A-Za-z0-9][A-Za-z0-9_.-]{0,63}):(raw|qcow2):`. -/
def hintLine : Pattern Char :=
  seq (lit (hintPrefix ++ ("scsi0:drive-scsi0:" : Str)))
    (seq (group 3 identifier) (seq (lit ":") (seq (group 4 (oneOf ["raw", "qcow2"])) (lit ":"))))

def readHint (line : Str) : Option Hint :=
  (hintLine.fullmatch line).map fun m => ⟨(m.group 3).getD [], (m.group 4).getD []⟩

/-- `[a-z0-9_-]`. -/
def isKeyChar (c : Char) : Bool := ('a' ≤ c && c ≤ 'z') || isAsciiDigit c || c == '_' || c == '-'

/-- `([a-z][a-z0-9_-]*):\s*(.*)` on a line, which has no line feed. -/
def readEntry (line : Str) : Option (Str × Str) :=
  let key := line.takeWhile isKeyChar
  match line.dropWhile isKeyChar with
  | ':' :: rest =>
      if key.head?.any fun c => 'a' ≤ c && c ≤ 'z' then some (key, rest.dropWhile isSpace) else none
  | _ => none

/-- `ALLOWED`. -/
def allowed : List Str :=
  ["agent", "balloon", "bios", "boot", "bootdisk", "ciuser", "cipassword", "sshkeys", "citype",
    "ciupgrade", "cores", "cpu", "description", "ide2", "ipconfig0", "machine", "memory", "meta",
    "name", "nameserver", "net0", "numa", "onboot", "ostype", "protection", "scsi0", "scsihw",
    "searchdomain", "serial0", "smbios1", "sockets", "startup", "tablet", "tags", "template", "vga",
    "vmgenid"]

/-- What the lines before a line say. -/
structure Reading where
  config : List (Str × Str) := []
  hint : Option Hint := none
  deriving DecidableEq

def mapInvalid : Raised := backupError "VM_RESTORE_ARCHIVE_MAP_INVALID"
  "첫 지원 root disk mapping만 있는 백업을 선택하세요."

def configUnsupported : Raised := backupError "VM_RESTORE_CONFIG_UNSUPPORTED"
  "지원하지 않는 설정·section·중복 key가 있는 백업입니다."

def readLine (r : Reading) (line : Str) : Except Raised Reading :=
  if hintPrefix.isPrefixOf line then
    match readHint line, r.hint with
    | some hint, none => .ok { r with hint := some hint }
    | _, _ => .error mapInvalid
  else if strip line = [] ∨ line.head? = some '#' then .ok r
  else
    match readEntry line with
    | some (key, value) =>
        if key ∈ allowed ∧ key ∉ r.config.map Prod.fst then
          .ok { r with config := r.config ++ [(key, value)] }
        else .error configUnsupported
    | none => .error configUnsupported

/-- The configuration with the placeholder of the digest that an archive does not have. -/
def Reading.archiveConfig (r : Reading) : Dict :=
  let placeholder : Dict := [("digest", .str (List.replicate 40 '0'))]
  r.config.map (fun kv => (kv.1, .str kv.2)) ++ placeholder

/-- The checks of the text and the reading of its lines. -/
def readArchive (raw : List CodePoint) : Except Raised Reading := do
  let invalid := backupError "VM_RESTORE_ARCHIVE_CONFIG_INVALID"
    "백업 설정 원문 형식·크기를 확인할 수 없습니다." 503
  raiseIf (raw = []) invalid
  let text ← encode raw
  raiseIf (262144 < utf8Length text ∨ Char.ofNat 0 ∈ text) invalid
  (splitLines text).foldlM readLine {}

/-! ### The source of a backup -/

structure Source where
  vmid : ℕ
  name : Str
  digest : Str
  root : Disk
  cloudInit : Disk
  configFingerprint : Str
  requiredFreeBytes : ℕ
  deriving DecidableEq

/-- The checks that come before the disks; the digest and the name. -/
def sourceIdentity (rt : Runtime) (config status : Dict) (pending snapshots : List Dict) :
    Except Raised (Str × Str) := do
  raiseIf (Dict.getD status "status" .null ≠ .str "stopped" ∨
      (Dict.getD config "lock" .null).truthy = true ∨
      (Dict.getD config "template" (.int 0)).toText rt.repr ≠ "0")
    (backupError "VM_BACKUP_NOT_STOPPED" "정지 상태이고 잠금이 없는 일반 VM만 백업합니다.")
  raiseIf ((∃ row ∈ pending, Dict.has row "pending" = true ∨
      (Dict.getD row "delete" .null).truthy = true) ∨
      snapshots.map (fun row => Dict.getD row "name" .null) ≠ [.str "current"])
    (backupError "VM_BACKUP_PENDING_OR_SNAPSHOTS" "대기 설정·snapshot이 없는 VM만 지원합니다.")
  let slots := (Dict.keys config).filter fun key => (diskSlot.fullmatch key).isSome
  let supported : List Str := ["scsi0", "ide2"]
  raiseIf ((Dict.keys config).any isUnsupportedKey = true ∨
      ¬ (slots ⊆ supported ∧ supported ⊆ slots))
    (backupError "VM_BACKUP_CONFIG_UNSUPPORTED"
      "첫 백업 범위는 외부 장치/스크립트 없이 scsi0와 ide2 cloud-init만 있는 VM입니다.")
  let unavailable := backupError "VM_BACKUP_IDENTITY_UNAVAILABLE"
    "원본 VM 이름·설정 digest를 확인할 수 없습니다." 503
  let digest ← orRaise ((Dict.getD config "digest" .null).asStr.filter fun s =>
    (configDigest.fullmatch s).isSome) unavailable
  let name ← orRaise ((Dict.getD config "name" .null).asStr.filter fun s =>
    !s.isEmpty && s.length ≤ 255) unavailable
  return (digest, name)

/-- A disk in its slot, with its options. -/
def sourceDisk (vmid : ℕ) (slot : Str) (suffix : Pattern Char) (config : Dict) :
    Except Raised (Disk × List (Str × Str)) := do
  let unreadable := backupError "VM_BACKUP_DISK_UNSUPPORTED" "disk 옵션을 확인할 수 없습니다."
  let text ← orRaise (Dict.getD config slot .null).asStr unreadable
  let opts ← pairsOf (splitAll ',' text).tail unreadable
  let volume := (splitAll ',' text).headD []
  let unsupported := backupError "VM_BACKUP_DISK_UNSUPPORTED"
    "정확한 VM 소유 disk와 백업 포함 설정을 확인하세요."
  let m ← orRaise ((ownedVolume vmid suffix).fullmatch volume) unsupported
  raiseIf ((opts.lookup ("shared" : Str)).getD "0" ≠ "0" ∨
      (opts.lookup ("backup" : Str)).getD "1" ≠ "1" ∨
      (slot = "scsi0" ∧ opts.lookup ("media" : Str) = some ("cdrom" : Str)) ∨
      (slot = "ide2" ∧ opts.lookup ("media" : Str) ≠ some ("cdrom" : Str))) unsupported
  return (⟨slot, volume, (m.group 1).getD [], (m.group 2).getD []⟩, opts)

/-- `([1-9][0-9]*)([MGT])`. -/
def diskSize : Pattern Char :=
  seq (group 1 (seq (one fun c => isAsciiDigit c && c != '0') (star (one isAsciiDigit))))
    (group 2 (one ("MGT" : Str).contains))

def readSize (s : Str) : Option (Str × Str) :=
  (diskSize.fullmatch s).map fun m => ((m.group 1).getD [], (m.group 2).getD [])

/-- The factor of a unit. -/
def unitBytes (unit : Str) : ℕ :=
  if unit = "M" then 1024 ^ 2 else if unit = "G" then 1024 ^ 3 else 1024 ^ 4

/-- Everything that comes before the conversion of the size: the digest, the name, the root disk,
the digits of its size and their unit. -/
def rootSize (rt : Runtime) (config status : Dict) (pending snapshots : List Dict) (vmid : ℕ) :
    Except Raised ((Str × Str) × Disk × Str × Str) := do
  let identity ← sourceIdentity rt config status pending snapshots
  let (root, opts) ← sourceDisk vmid "scsi0" (seq (lit "disk-") (plus (one isAsciiDigit))) config
  let size ← orRaise (readSize ((opts.lookup ("size" : Str)).getD []))
    (backupError "VM_BACKUP_SIZE_UNAVAILABLE" "원본 disk의 가상 용량을 확인할 수 없습니다.")
  return (identity, root, size)

/-- `source`. -/
def source (rt : Runtime) (config status : Dict) (pending snapshots : List Dict) (vmid : ℕ) :
    Except Raised Source := do
  let ((digest, name), root, digits, unit) ← rootSize rt config status pending snapshots vmid
  let n ← intOf digits
  let (cloudInit, _) ← sourceDisk vmid "ide2" (lit "cloudinit") config
  let sizeBytes := n * unitBytes unit
  let fingerprint := rt.operationDigest (.dict (config.filter fun kv => kv.1 ≠ "digest"))
  return ⟨vmid, name, digest, root, cloudInit, fingerprint,
    sizeBytes + max (1024 ^ 3) (sizeBytes / 10)⟩

/-! ### The rules for a restore -/

/-- The options of a disk without the format, which the restore chooses. -/
def slotOptions (config : Dict) (slot : Str) : Except Raised Dict := do
  let text ← orRaise (Dict.getD config slot .null).asStr
    (backupError "VM_RESTORE_HARDWARE_UNCONFIRMED" "복원 disk 구성을 확인할 수 없습니다." 503)
  let parts := splitAll ',' text
  let opts ← if 1 < parts.length then options (.str (join "," parts.tail)) else .ok []
  return (opts.filter fun kv => kv.1 ≠ ("format" : Str)).map fun kv => (kv.1, .str kv.2)

/-- The options of `smbios1` without the identifier, when it is there. -/
def smbiosOptions (config : Dict) : Except Raised Dict :=
  match Dict.get config "smbios1" with
  | none => .ok []
  | some value => do
      let opts ← options value
      let kept := opts.filter fun kv => kv.1 ≠ ("uuid" : Str)
      return [("smbios1", .dict (kept.map fun kv => (kv.1, .str kv.2)))]

/-- `hardware_fingerprint`. -/
def hardwareFingerprint (rt : Runtime) (config : Dict) : Except Raised Str := do
  let excluded : List Str :=
    ["digest", "name", "description", "net0", "onboot", "vmgenid", "lock"]
  let normalized : Dict := (config.filter fun kv => kv.1 ∉ excluded).map fun kv =>
    (kv.1, .str (kv.2.toText rt.repr))
  let scsi0 ← slotOptions config "scsi0"
  let ide2 ← slotOptions config "ide2"
  let smbios ← smbiosOptions config
  let patch : Dict := [("scsi0", .dict scsi0), ("ide2", .dict ide2)]
  return rt.operationDigest (.dict (Dict.merge normalized (patch ++ smbios)))

/-- `(?:[0-9A-Fa-f]{2}:){5}[0-9A-Fa-f]{2}`. -/
def macAddress : Pattern Char :=
  seq (times (seq (times (one isHexDigit) 2) (lit ":")) 5) (times (one isHexDigit) 2)

/-- `nic.get(key, '0') in {'0', '1'}`. -/
def isFlag (nic : List (Str × Str)) (key : Str) : Bool :=
  let value := (nic.lookup key).getD "0"
  value = "0" || value = "1"

def supportedNic (nic : List (Str × Str)) : Bool :=
  let keys := nic.map Prod.fst
  keys.contains "virtio" && keys.contains "bridge" &&
    keys.all (["virtio", "bridge", "firewall", "link_down"] : List Str).contains &&
    (macAddress.fullmatch ((nic.lookup ("virtio" : Str)).getD [])).isSome &&
    isIdentifier ((nic.lookup ("bridge" : Str)).getD []) && isFlag nic "firewall" &&
    isFlag nic "link_down"

/-- `(?:^|,)size=([1-9][0-9]*)([MGT])(?:,|$)` in the value of `scsi0`, which has no line feed. -/
def searchSize (value : Str) : Option (Str × Str) :=
  (splitAll ',' value).findSome? fun part =>
    if ("size=" : Str).isPrefixOf part then readSize (part.drop 5) else none

structure Manifest extends Source where
  sizeBytes : ℕ
  smbiosUuid : Option Str
  vmgenid : Option Value
  archiveConfigFingerprint : Str
  hardwareFingerprint : Str
  sourceMac : Str
  sourceBridge : Str
  firewall : Str

/-- `options(config['smbios1']).get('uuid')`, when there is one. -/
def smbiosUuid (config : Dict) : Except Raised (Option Str) :=
  let value := Dict.getD config "smbios1" .null
  if value.truthy then (options value).map fun opts => opts.lookup ("uuid" : Str) else .ok none

/-- The rules for the devices. -/
def checkDevices (config : Dict) : Except Raised (List (Str × Str)) := do
  let nic ← options (Dict.getD config "net0" .null)
  raiseIf (supportedNic nic = false) (backupError "VM_RESTORE_NETWORK_UNSUPPORTED"
    "첫 복원은 VLAN/trunk/추가 옵션 없는 virtio net0 하나를 지원합니다.")
  raiseIf (Dict.getD config "serial0" (.str "socket") ≠ .str "socket" ∨
      Dict.getD config "vga" (.str "std") ∉
        ([.str "std", .str "serial0", .str "qxl", .str "virtio", .str "none"] : List Value))
    (backupError "VM_RESTORE_DEVICE_UNSUPPORTED"
      "host 장치 경로가 없는 표준 화면/serial만 지원합니다.")
  raiseIf (Dict.getD config "bios" (.str "seabios") ≠ .str "seabios")
    (backupError "VM_RESTORE_DEVICE_UNSUPPORTED"
      "첫 복원은 별도 EFI disk가 없는 SeaBIOS VM입니다.")
  return nic

/-- `source` of the configuration of an archive. -/
def archiveSource (rt : Runtime) (config : Dict) (vmid : ℕ) : Except Raised Source :=
  source rt config [("status", .str "stopped")] [] [[("name", .str "current")]] vmid

/-- What `parse_archive_config` makes of a configuration. -/
def manifest (rt : Runtime) (text : Str) (config : Dict) (identity : Source)
    (nic : List (Str × Str)) : Except Raised Manifest := do
  let (digits, unit) ← orRaise (searchSize (((Dict.getD config "scsi0" .null).asStr).getD []))
    .typeError
  let n ← intOf digits
  let uuid ← smbiosUuid config
  let hardware ← hardwareFingerprint rt config
  let fingerprint := rt.operationDigest (.dict [("archive_config", .str text)])
  return { identity with
    sizeBytes := n * unitBytes unit
    smbiosUuid := uuid
    vmgenid := Dict.get config "vmgenid"
    archiveConfigFingerprint := fingerprint
    hardwareFingerprint := hardware
    sourceMac := upperAscii ((nic.lookup ("virtio" : Str)).getD [])
    sourceBridge := (nic.lookup ("bridge" : Str)).getD []
    firewall := (nic.lookup ("firewall" : Str)).getD "0" }

/-- `parse_archive_config` of a text. -/
def parseArchiveConfig (rt : Runtime) (raw : List CodePoint) (vmid : ℕ) :
    Except Raised (Dict × Manifest) := do
  let reading ← readArchive raw
  let config := reading.archiveConfig
  let identity ← archiveSource rt config vmid
  raiseIf (reading.hint ≠ some ⟨identity.root.storageId, identity.root.format⟩)
    (backupError "VM_RESTORE_ARCHIVE_MAP_INVALID"
      "백업 root disk와 archive mapping이 일치하지 않습니다.")
  let nic ← checkDevices config
  let text ← encode raw
  let result ← manifest rt text config identity nic
  return (config, result)

end Gjallar.ArchiveConfig

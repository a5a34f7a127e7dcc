import Gjallar.Operation
import Gjallar.Registration
import Gjallar.TextLines
import Gjallar.Traversals

/-!
# Deletion of a stopped VM

The review of a deletion observes the VM and the volumes it owns; the manifest says which of them
are deleted and which are preserved. The verification compares a later listing with the manifest.

The manifest is an argument of the verification. The workflow reads it back from the details of its
operation, in which the ledger has masked every text with a secret marker: a storage with such a
name is then asked for under a name that it does not have, and a preserved volume with such a name
is never confirmed.
-/
namespace Gjallar.VmDelete

open Gjallar.Text Gjallar.TextLines Gjallar.Data Gjallar.Operation Gjallar.Regex
  Gjallar.Regex.Pattern Gjallar.Registration Gjallar.Traversals

structure DeleteError where
  code : Str
  message : Str
  statusCode : ℕ := 409
  deriving DecidableEq

/-- What a step of an observation raises: `ProxmoxMutationError` of a request, or a refusal. -/
inductive Failure where
  | proxmox
  | refused (e : DeleteError)
  deriving DecidableEq

def refuse {α : Type} (code message : Str) (statusCode : ℕ := 409) : Except Failure α :=
  .error (.refused ⟨code, message, statusCode⟩)

/-- The caller's reading of a failed request. -/
def Failure.asError (unavailable : DeleteError) : Failure → DeleteError
  | .proxmox => unavailable
  | .refused e => e

/-- The answers to the requests of one observation; a missing answer is a `ProxmoxMutationError`. -/
structure Client where
  vmPermissions : Option (List Str)
  config : Option Dict
  status : Option Dict
  pending : Option (List Dict)
  snapshots : Option (List Dict)
  storages : Option (List Dict)
  storagePermissions : Str → Option (List Str)
  images : Str → Option (List Dict)
  volumeInfo : Str → Str → Option Dict
  vmidUnused : Option Bool

def request {α : Type} (answer : Option α) : Except Failure α := orRaise answer .proxmox

/-! ### The VM -/

/-- A volume that the configuration refers to. -/
structure Disk where
  slot : Str
  volumeId : Str
  storageId : Str
  format : Str
  deriving DecidableEq

structure Identity where
  vmid : ℤ
  name : Str
  digest : Str
  deletedVolumes : List Disk
  deriving DecidableEq

def configUnsupported (message : Str) : Failure :=
  .refused ⟨"VM_DELETE_CONFIG_UNSUPPORTED", message, 409⟩

/-- `(?:unused|hostpci|usb|virtiofs)[0-9]+`. -/
def externalKey : Pattern Char :=
  seq (oneOf ["unused", "hostpci", "usb", "virtiofs"]) (plus (one isAsciiDigit))

def isUnsupportedKey (key : Str) : Bool :=
  (externalKey.fullmatch key).isSome ||
    (["args", "hookscript", "efidisk0", "tpmstate0", "ivshmem", "cicustom"] : List Str).contains key

/-- `(?:scsi|virtio|sata|ide)[0-9]+`. -/
def diskSlot : Pattern Char :=
  seq (oneOf ["scsi", "virtio", "sata", "ide"]) (plus (one isAsciiDigit))

/-- `[a-fA-F0-9]{40}`. -/
def configDigest : Pattern Char := times (one isHexDigit) 40

/-- `part.split('=', 1)`, of two parts that are not empty. -/
def readOption (part : Str) : Option (Str × Str) :=
  match splitOnce '=' part with
  | (key, some value) => if key ≠ [] ∧ value ≠ [] then some (key, value) else none
  | (_, none) => none

/-- What the name of a supported volume ends with, before its format. -/
def volumeSuffix (slot : Str) (options : List (Str × Str)) : Option (Pattern Char) :=
  let cdrom := options.lookup ("media" : Str) = some ("cdrom" : Str)
  if slot = "scsi0" ∧ ¬ cdrom ∧ (options.lookup ("shared" : Str)).getD "0" = "0" then
    some (seq (lit "disk-") (plus (one isAsciiDigit)))
  else if slot = "ide2" ∧ cdrom then some (lit "cloudinit")
  else none

/-- The pattern of a volume that the VM owns. -/
def ownedVolume (vmid : ℤ) (suffix : Pattern Char) : Pattern Char :=
  seq (group 1 identifier)
    (seq (lit ((":" : Str) ++ ofInt vmid ++ ("/vm-" : Str) ++ ofInt vmid ++ ("-" : Str)))
      (seq suffix (seq (lit ".") (group 2 (oneOf ["raw", "qcow2"])))))

def ownedDisk (vmid : ℤ) (slot volume : Str) (options : List (Str × Str)) :
    Except Failure (Option Disk) := do
  let suffix ← orRaise (volumeSuffix slot options)
    (configUnsupported "scsi0와 선택적 ide2 cloud-init만 지원합니다. 추가 disk·외부 ISO·공유 disk를 확인하세요.")
  let m ← orRaise ((ownedVolume vmid suffix).fullmatch volume)
    (.refused ⟨"VM_DELETE_VOLUME_OWNERSHIP",
      "삭제할 volume이 이 VM 소유의 raw/qcow2인지 확인할 수 없습니다.", 409⟩)
  return some ⟨slot, volume, (m.group 1).getD [], (m.group 2).getD []⟩

/-- The disk in one slot, none for an empty drive. -/
def readDisk (vmid : ℤ) (slot : Str) (value : Value) : Except Failure (Option Disk) := do
  let text ← orRaise value.asStr (configUnsupported "디스크 설정을 확인할 수 없습니다.")
  let parts := splitAll ',' text
  let volume := parts.headD []
  let options ← orRaise (parts.tail.mapM readOption)
    (configUnsupported "중복·불명확한 disk 옵션은 지원하지 않습니다.")
  raiseIf (¬ (options.map Prod.fst).Nodup)
    (configUnsupported "중복·불명확한 disk 옵션은 지원하지 않습니다.")
  if slot = "ide2" ∧ volume = "none" ∧ options.lookup ("media" : Str) = some ("cdrom" : Str) then
    return none
  else ownedDisk vmid slot volume options

/-- `sorted` of texts. -/
def sortTexts (texts : List Str) : List Str := texts.insertionSort fun a b => textLe a b = true

/-- `deletion_identity`. -/
def deletionIdentity (rt : Runtime) (config status : Dict) (pending snapshots : List Dict)
    (vmid : ℤ) : Except Failure Identity := do
  let flag := fun key => (Dict.getD config key (.int 0)).toText rt.repr
  raiseIf (Dict.getD status "status" .null ≠ .str "stopped") (.refused ⟨"VM_DELETE_NOT_STOPPED",
    "정지된 VM만 삭제할 수 있습니다. 강제 종료하지 않습니다.", 409⟩)
  raiseIf (flag "template" ≠ "0" ∨ (Dict.getD config "lock" .null).truthy = true)
    (.refused ⟨"VM_DELETE_LOCKED_OR_TEMPLATE", "템플릿 또는 잠긴 VM은 삭제하지 않습니다.", 409⟩)
  raiseIf (flag "protection" ≠ "0") (.refused ⟨"VM_DELETE_PROTECTED",
    "삭제 보호가 설정된 VM입니다. 보호를 자동 해제하지 않습니다.", 409⟩)
  raiseIf (∃ row ∈ pending, Dict.has row "pending" = true ∨
      (Dict.getD row "delete" .null).truthy = true)
    (.refused ⟨"VM_DELETE_PENDING_CONFIG", "대기 중 설정 변경을 먼저 확인하세요.", 409⟩)
  raiseIf (snapshots.map (fun row => Dict.getD row "name" .null) ≠ [.str "current"])
    (.refused ⟨"VM_DELETE_SNAPSHOT_UNCONFIRMED",
      "snapshot이 있거나 snapshot 목록을 확인할 수 없습니다. 첫 범위에서는 삭제하지 않습니다.", 409⟩)
  raiseIf ((Dict.keys config).any isUnsupportedKey = true) (configUnsupported
    "미사용 disk·외부 장치/스크립트·EFI/TPM·custom cloud-init은 첫 삭제 범위에서 제외합니다.")
  let digest ← orRaise ((Dict.getD config "digest" .null).asStr.filter fun s =>
      (configDigest.fullmatch s).isSome)
    (.refused ⟨"VM_DELETE_DIGEST_UNAVAILABLE", "현재 설정 변경 감지값을 확인할 수 없습니다.", 503⟩)
  let name ← orRaise ((Dict.getD config "name" .null).asStr.filter fun s =>
      !s.isEmpty && s.length ≤ 255)
    (.refused ⟨"VM_DELETE_NAME_UNAVAILABLE", "삭제 확인에 사용할 VM 이름을 확인할 수 없습니다.", 503⟩)
  let slots := sortTexts ((Dict.keys config).filter fun key => (diskSlot.fullmatch key).isSome)
  let disks ← slots.mapM fun slot => readDisk vmid slot (Dict.getD config slot .null)
  let deleted := disks.reduceOption
  raiseIf (∀ disk ∈ deleted, disk.slot ≠ "scsi0")
    (configUnsupported "첫 삭제 범위는 NFS scsi0가 있는 VM입니다.")
  return ⟨vmid, name, digest, deleted⟩

/-! ### The volumes -/

/-- `v in (1, '1')`. -/
def isOne (v : Value) : Bool := v.eqv (.int 1) || v.eqv (.str "1")

/-- `validate_storage`. -/
def validateStorage (rt : Runtime) (storages : List Dict) (storageId : Str) :
    Except Failure Unit :=
  let usable := fun row : Dict =>
    Dict.getD row "type" .null = .str "nfs" ∧ isOne (Dict.getD row "active" .null) = true ∧
      isOne (Dict.getD row "enabled" .null) = true ∧
      ("images" : Str) ∈ splitAll ',' ((Dict.getD row "content" (.str [])).toText rt.repr)
  match storages.find? fun row => Dict.getD row "storage" .null = .str storageId with
  | some row =>
      raiseIf (¬ usable row) (.refused ⟨"VM_DELETE_STORAGE_UNAVAILABLE",
        "선택한 NFS images storage의 활성 상태를 확인할 수 없습니다.", 503⟩)
  | none => refuse "VM_DELETE_STORAGE_UNAVAILABLE"
      "선택한 NFS images storage의 활성 상태를 확인할 수 없습니다." 503

/-- A volume as it was observed. -/
structure VolumeRow where
  volumeId : Str
  storageId : Str
  sizeBytes : ℤ
  format : Str
  deriving DecidableEq

/-- `{storage}:{vmid}/[^/]+`. -/
def vmVolume (storageId : Str) (vmid : ℤ) : Pattern Char :=
  seq (lit (storageId ++ (":" : Str) ++ ofInt vmid ++ ("/" : Str))) (plus (one (· != '/')))

/-- One row of a listing. -/
def volumeRow (storageId : Str) (vmid : ℤ) (row : Dict) : Except Failure VolumeRow :=
  match Dict.getD row "volid" .null, Dict.getD row "vmid" .null, Dict.getD row "size" .null,
      Dict.getD row "format" .null with
  | .str volid, .int owner, .int size, .str format =>
      if ((vmVolume storageId vmid).fullmatch volid).isSome = true ∧ owner = vmid ∧ 0 < size then
        .ok ⟨volid, storageId, size, format⟩
      else refuse "VM_DELETE_VOLUME_OBSERVATION_UNCONFIRMED"
        "정확한 VM 소유 volume 목록·용량을 확인할 수 없습니다." 503
  | _, _, _, _ => refuse "VM_DELETE_VOLUME_OBSERVATION_UNCONFIRMED"
      "정확한 VM 소유 volume 목록·용량을 확인할 수 없습니다." 503

/-- Sorted by their ids. -/
def sortRows (rows : List VolumeRow) : List VolumeRow :=
  rows.insertionSort fun a b => textLe a.volumeId b.volumeId = true

/-- `volume_rows`. -/
def volumeRows (storageId : Str) (vmid : ℤ) (rows : List Dict) :
    Except Failure (List VolumeRow) := do
  let result ← rows.mapM (volumeRow storageId vmid)
  raiseIf (¬ (result.map VolumeRow.volumeId).Nodup)
    (.refused ⟨"VM_DELETE_VOLUME_OBSERVATION_UNCONFIRMED",
      "중복 volume 목록을 삭제 근거로 사용할 수 없습니다.", 503⟩)
  return sortRows result

/-- `{a, b} <= permissions`. -/
def permits (permissions : List Str) (needed : List Str) : Bool := needed.all permissions.contains

/-- The volumes of one storage. -/
def storageVolumes (rt : Runtime) (client : Client) (vmid : ℤ) (storages : List Dict)
    (storageId : Str) : Except Failure (List VolumeRow) := do
  validateStorage rt storages storageId
  let permissions ← request (client.storagePermissions storageId)
  raiseIf (permits permissions ["Datastore.Audit", "Datastore.Allocate"] = false)
    (.refused ⟨"VM_DELETE_PERMISSION_DENIED", "VM ACL 삭제 뒤에도 volume 부재를 확인할 storage Audit·Allocate 권한이 필요합니다. 선택 storage의 더 넓은 권한을 검토하세요.", 403⟩)
  let images ← request (client.images storageId)
  volumeRows storageId vmid images

/-- `storage_rows`. -/
def storageRows (rt : Runtime) (client : Client) (vmid : ℤ) (storageIds : List Str) :
    Except Failure (List VolumeRow) := do
  let storages ← request client.storages
  let rows ← (sortTexts storageIds.dedup).mapM (storageVolumes rt client vmid storages)
  return sortRows rows.flatten

/-! ### The manifest -/

/-- A volume that the deletion removes. -/
structure DeletedVolume extends Disk where
  sizeBytes : ℤ
  deriving DecidableEq

structure Manifest where
  vmid : ℤ
  name : Str
  digest : Str
  deletedVolumes : List DeletedVolume
  preservedVolumes : List VolumeRow
  resourcesDigest : Str
  deriving DecidableEq

/-- The entry of a dictionary of rows by their ids; a later row replaces an earlier one. -/
def present (rows : List VolumeRow) (id : Str) : Option VolumeRow :=
  (rows.filter fun row => row.volumeId = id).getLast?

/-- A disk with the size that two observations agree on. -/
def deletedVolume (rows : List VolumeRow) (info : Str → Dict) (disk : Disk) :
    Except Failure DeletedVolume :=
  let mismatch : Except Failure DeletedVolume := refuse "VM_DELETE_VOLUME_OBSERVATION_UNCONFIRMED"
    "삭제할 volume의 실제 크기·형식을 확인할 수 없습니다." 503
  match present rows disk.volumeId, Dict.getD (info disk.volumeId) "size" .null with
  | some row, .int size =>
      if 0 < size ∧ size = row.sizeBytes ∧
          Dict.getD (info disk.volumeId) "format" .null = .str disk.format ∧
            row.format = disk.format then
        .ok ⟨disk, size⟩
      else mismatch
  | _, _ => mismatch

def DeletedVolume.toValue (v : DeletedVolume) : Value :=
  .dict [("slot", .str v.slot), ("volume_id", .str v.volumeId), ("storage_id", .str v.storageId),
    ("format", .str v.format), ("size_bytes", .int v.sizeBytes)]

def VolumeRow.toValue (row : VolumeRow) : Value :=
  .dict [("volume_id", .str row.volumeId), ("storage_id", .str row.storageId),
    ("size_bytes", .int row.sizeBytes), ("format", .str row.format)]

/-- `manifest`. -/
def manifest (rt : Runtime) (identity : Identity) (observedRows : List VolumeRow)
    (info : Str → Dict) : Except Failure Manifest := do
  let deleted ← identity.deletedVolumes.mapM (deletedVolume observedRows info)
  let ids := deleted.map fun v => v.volumeId
  let preserved := observedRows.filter fun row => row.volumeId ∉ ids
  let resources : Dict := [("deleted_volumes", .list (deleted.map DeletedVolume.toValue)),
    ("preserved_volumes", .list (preserved.map VolumeRow.toValue))]
  return ⟨identity.vmid, identity.name, identity.digest, deleted, preserved,
    rt.operationDigest (.dict resources)⟩

/-! ### The observations -/

/-- The answers about the volumes of the disks, in their order. -/
def diskInfo (client : Client) (disks : List Disk) : Except Failure (List (Str × Dict)) :=
  disks.mapM fun disk => do
    let answer ← request (client.volumeInfo disk.storageId disk.volumeId)
    return (disk.volumeId, answer)

/-- `read`, with its failures. -/
def observe (rt : Runtime) (client : Client) (vmid : ℤ) : Except Failure Manifest := do
  let permissions ← request client.vmPermissions
  raiseIf (permits permissions ["VM.Audit", "VM.Allocate"] = false)
    (.refused ⟨"VM_DELETE_PERMISSION_DENIED", "선택한 VM의 Audit·Allocate 권한을 확인하세요.", 403⟩)
  let config ← request client.config
  let status ← request client.status
  let pending ← request client.pending
  let snapshots ← request client.snapshots
  let identity ← deletionIdentity rt config status pending snapshots vmid
  let rows ← storageRows rt client vmid (identity.deletedVolumes.map Disk.storageId)
  let info ← diskInfo client identity.deletedVolumes
  manifest rt identity rows fun id => (info.lookup id).getD []

/-- `DeleteClient.read`. -/
def read (rt : Runtime) (client : Client) (vmid : ℤ) : Except DeleteError Manifest :=
  (observe rt client vmid).mapError (Failure.asError ⟨"VM_DELETE_OBSERVATION_UNAVAILABLE",
    "삭제 대상·실제 disk·snapshot·권한을 확인하지 못했습니다.", 503⟩)

structure DeletionResult where
  vmidUnused : Bool
  deletedVolumes : List Str
  remainingVolumes : List Str
  preservedVolumes : List Str
  preservationUnconfirmed : List Str
  deriving DecidableEq

/-- `deletion_result`. -/
def deletionResult (before : Manifest) (rows : List VolumeRow) (vmidUnused : Bool) :
    DeletionResult :=
  let ids := before.deletedVolumes.map fun v => v.volumeId
  let kept := fun row : VolumeRow => decide (present rows row.volumeId = some row)
  ⟨vmidUnused, ids.filter fun id => (present rows id).isNone,
    ids.filter fun id => (present rows id).isSome,
    (before.preservedVolumes.filter kept).map VolumeRow.volumeId,
    (before.preservedVolumes.filter fun row => !kept row).map VolumeRow.volumeId⟩

/-- The storages of the deleted volumes. -/
def Manifest.storageIds (before : Manifest) : List Str :=
  before.deletedVolumes.map fun v => v.storageId

/-- `observe_deletion`, with its failures. -/
def observeAbsence (rt : Runtime) (client : Client) (vmid : ℤ) (before : Manifest) :
    Except Failure DeletionResult := do
  let rows ← storageRows rt client vmid before.storageIds
  let free ← request client.vmidUnused
  return deletionResult before rows free

/-- `DeleteClient.observe_deletion`. -/
def observeDeletion (rt : Runtime) (client : Client) (vmid : ℤ) (before : Manifest) :
    Except DeleteError DeletionResult :=
  (observeAbsence rt client vmid before).mapError (Failure.asError
    ⟨"VM_DELETE_ABSENCE_UNCONFIRMED", "VMID 미사용 또는 실제 volume 부재를 확인하지 못했습니다. 조회 실패를 삭제 성공으로 처리하지 않습니다.", 503⟩)

/-- `set(a) == set(b)`. -/
def sameSet (a b : List Str) : Bool := a.all b.contains && b.all a.contains

/-- `DeleteService.matches`. -/
def resultMatches (after : DeletionResult) (before : Manifest) : Bool :=
  after.vmidUnused && after.remainingVolumes.isEmpty && after.preservationUnconfirmed.isEmpty &&
    sameSet after.deletedVolumes (before.deletedVolumes.map fun v => v.volumeId) &&
    sameSet after.preservedVolumes (before.preservedVolumes.map VolumeRow.volumeId)

/-! ### Listings -/

/-- A row of the listing of a storage has the id. -/
def Listed (client : Client) (storageIds : List Str) (id : Str) : Prop :=
  ∃ storage ∈ storageIds, ∃ images, client.images storage = some images ∧
    ∃ row ∈ images, Dict.get row "volid" = some (.str id)

/-- A row of the listing of its storage is the record. -/
structure Records (row : Dict) (v : VolumeRow) : Prop where
  volid : Dict.get row "volid" = some (.str v.volumeId)
  size : Dict.get row "size" = some (.int v.sizeBytes)
  format : Dict.get row "format" = some (.str v.format)

/-- The listing of its storage has the volume with an unchanged record. -/
def Recorded (client : Client) (storageIds : List Str) (v : VolumeRow) : Prop :=
  v.storageId ∈ storageIds ∧ ∃ images, client.images v.storageId = some images ∧
    ∃ row ∈ images, Records row v

/-- A listed row is one record of a storage. -/
theorem Records.eq_of_records {row : Dict} {v w : VolumeRow} (hv : Records row v)
    (hw : Records row w) (hstorage : v.storageId = w.storageId) : v = w := by
  obtain ⟨id, storage, size, format⟩ := v
  obtain ⟨id', storage', size', format'⟩ := w
  have hid := hv.volid.symm.trans hw.volid
  have hsize := hv.size.symm.trans hw.size
  have hformat := hv.format.symm.trans hw.format
  cases hid
  cases hsize
  cases hformat
  cases hstorage
  rfl

theorem get_of_getD {d : Dict} {key : Str} {v : Value} (h : Dict.getD d key .null = v)
    (hv : v ≠ .null) : Dict.get d key = some v := by
  unfold Dict.getD at h
  cases hget : Dict.get d key with
  | none =>
      rw [hget] at h
      exact absurd h.symm hv
  | some w =>
      rw [hget] at h
      exact congrArg some h

/-- The id of a volume starts with its storage and has one name after its VMID. -/
theorem volumeRow_eq_ok {storageId : Str} {vmid : ℤ} {row : Dict} {v : VolumeRow}
    (h : volumeRow storageId vmid row = .ok v) : v.storageId = storageId ∧ Records row v ∧
      ∃ name : Str, '/' ∉ name ∧
        v.volumeId = storageId ++ (":" : Str) ++ ofInt vmid ++ ("/" : Str) ++ name := by
  unfold volumeRow at h
  split at h
  · rename_i volid owner size format hvolid howner hsize hformat
    split at h
    · rename_i hguards
      cases h
      refine ⟨rfl, ⟨get_of_getD hvolid (by simp), get_of_getD hsize (by simp),
        get_of_getD hformat (by simp)⟩, ?_⟩
      obtain ⟨g, hg⟩ := (fullmatch_isSome_iff _ _).mp hguards.1
      obtain ⟨u, name, _, _, rfl, -, hlit, hname⟩ := (matches_seq ..).mp hg
      obtain ⟨rfl, -⟩ := (matches_lit ..).mp hlit
      refine ⟨name, fun hslash => ?_, rfl⟩
      have := ((matches_plus_one ..).mp hname).2.1 '/' hslash
      simp at this
    · cases h
  · cases h

/-- The storage can be read off the id of a volume. -/
theorem storage_of_volumeId {a b name name' : Str} (middle : Str) (hname : '/' ∉ name)
    (hname' : '/' ∉ name') (h : a ++ middle ++ ("/" : Str) ++ name =
      b ++ middle ++ ("/" : Str) ++ name') : a = b := by
  have hreverse := congrArg List.reverse h
  simp only [List.reverse_append, List.append_assoc] at hreverse
  have hsame : name.reverse = name'.reverse := by
    have htake : ∀ {n r : Str}, '/' ∉ n →
        (n.reverse ++ (("/" : Str).reverse ++ r)).takeWhile (· != '/') = n.reverse := by
      intro n r hn
      rw [List.takeWhile_append_of_pos fun c hc => ?_]
      · simp
      · rw [List.mem_reverse] at hc
        have hne : c ≠ '/' := ne_of_mem_of_not_mem hc hn
        simpa using hne
    rw [← htake hname, ← htake hname', hreverse]
  rw [hsame, List.append_cancel_left_eq, List.append_cancel_left_eq,
    List.append_cancel_left_eq] at hreverse
  exact List.reverse_injective hreverse

theorem mem_sortRows {rows : List VolumeRow} {row : VolumeRow} : row ∈ sortRows rows ↔ row ∈ rows :=
  (List.perm_insertionSort _ rows).mem_iff

theorem mem_sortTexts {texts : List Str} {t : Str} : t ∈ sortTexts texts ↔ t ∈ texts :=
  (List.perm_insertionSort _ texts).mem_iff

/-- The rows of one storage are its listing, with different ids. -/
theorem volumeRows_eq_ok {storageId : Str} {vmid : ℤ} {images : List Dict} {rows : List VolumeRow}
    (h : volumeRows storageId vmid images = .ok rows) :
    (rows.map VolumeRow.volumeId).Nodup ∧
      (∀ v ∈ rows, v.storageId = storageId ∧ ∃ name : Str, '/' ∉ name ∧
        v.volumeId = storageId ++ (":" : Str) ++ ofInt vmid ++ ("/" : Str) ++ name) ∧
      (∀ v, v ∈ rows ↔ v.storageId = storageId ∧ ∃ row ∈ images, Records row v) ∧
      ∀ row ∈ images, ∃ v ∈ rows, Records row v := by
  simp only [volumeRows, bind_eq_ok, mapM_eq_ok, raiseIf_eq_ok, pure_eq_ok, not_not] at h
  obtain ⟨result, hresult, -, hnodup, rfl⟩ := h
  have hread : ∀ row ∈ images, ∃ v ∈ result, volumeRow storageId vmid row = .ok v :=
    fun row hrow => exists_right_of_mem hresult hrow
  have hfrom : ∀ v ∈ result, ∃ row ∈ images, volumeRow storageId vmid row = .ok v :=
    fun v hv => exists_left_of_mem hresult hv
  refine ⟨?_, fun v hv => ?_, fun v => ⟨fun hv => ?_, ?_⟩, fun row hrow => ?_⟩
  · exact ((List.perm_insertionSort _ result).map _).nodup_iff.mpr hnodup
  · obtain ⟨row, -, hrow⟩ := hfrom v (mem_sortRows.mp hv)
    obtain ⟨hstorage, -, hname⟩ := volumeRow_eq_ok hrow
    exact ⟨hstorage, hname⟩
  · obtain ⟨row, hmem, hrow⟩ := hfrom v (mem_sortRows.mp hv)
    obtain ⟨hstorage, hrecords, -⟩ := volumeRow_eq_ok hrow
    exact ⟨hstorage, row, hmem, hrecords⟩
  · rintro ⟨hstorage, row, hmem, hrecords⟩
    obtain ⟨w, hw, hrow⟩ := hread row hmem
    obtain ⟨hstorage', hrecords', -⟩ := volumeRow_eq_ok hrow
    have heq := hrecords.eq_of_records hrecords' (hstorage.trans hstorage'.symm)
    exact mem_sortRows.mpr (heq ▸ hw)
  · obtain ⟨v, hv, hrow'⟩ := hread row hrow
    exact ⟨v, mem_sortRows.mpr hv, (volumeRow_eq_ok hrow').2.1⟩

/-- The rows that an observation reads are the listings of the storages, with different ids. -/
structure Lists (client : Client) (storageIds : List Str) (rows : List VolumeRow) : Prop where
  nodup : (rows.map VolumeRow.volumeId).Nodup
  mem_iff : ∀ v, v ∈ rows ↔ Recorded client storageIds v
  listed_iff : ∀ id, Listed client storageIds id ↔ ∃ v ∈ rows, v.volumeId = id

/-- Listings of different storages have different ids. -/
theorem nodup_of_storages (vmid : ℤ) {storages : List Str} {lists : List (List VolumeRow)}
    (hstorages : storages.Nodup) (h : storages.Forall₂ (fun storage rows =>
      (rows.map VolumeRow.volumeId).Nodup ∧ ∀ v ∈ rows, ∃ name : Str, '/' ∉ name ∧
        v.volumeId = storage ++ (":" : Str) ++ ofInt vmid ++ ("/" : Str) ++ name) lists) :
    (lists.flatten.map VolumeRow.volumeId).Nodup := by
  induction h with
  | nil => exact List.nodup_nil
  | @cons storage rows storages lists hrows hlists ih =>
      rw [List.nodup_cons] at hstorages
      rw [List.flatten_cons, List.map_append, List.nodup_append]
      refine ⟨hrows.1, ih hstorages.2, ?_⟩
      rintro id hid id' hid' rfl
      obtain ⟨v, hv, rfl⟩ := List.mem_map.mp hid
      obtain ⟨w, hw, heq⟩ := List.mem_map.mp hid'
      obtain ⟨rows', hrows', hw⟩ := List.mem_flatten.mp hw
      obtain ⟨storage', hstorage', -, hnames⟩ := exists_left_of_mem hlists hrows'
      obtain ⟨name, hname, hv⟩ := hrows.2 v hv
      obtain ⟨name', hname', hw⟩ := hnames w hw
      rw [hv, hw] at heq
      simp only [List.append_assoc] at heq
      have hsame : storage' = storage := by
        refine storage_of_volumeId ((":" : Str) ++ ofInt vmid) hname' hname ?_
        simpa only [List.append_assoc] using heq
      exact hstorages.1 (hsame ▸ hstorage')

theorem storageRows_eq_ok {rt : Runtime} {client : Client} {vmid : ℤ} {storageIds : List Str}
    {rows : List VolumeRow} (h : storageRows rt client vmid storageIds = .ok rows) :
    Lists client storageIds rows := by
  simp only [storageRows, bind_eq_ok, mapM_eq_ok, pure_eq_ok] at h
  obtain ⟨storages, -, lists, hlists, rfl⟩ := h
  have hread : ∀ storage rows', storageVolumes rt client vmid storages storage = .ok rows' →
      ∃ images, client.images storage = some images ∧
        volumeRows storage vmid images = .ok rows' := by
    intro storage rows' hrows'
    simp only [storageVolumes, bind_eq_ok, request, orRaise_eq_ok] at hrows'
    obtain ⟨-, -, -, -, -, -, images, himages, hrows'⟩ := hrows'
    exact ⟨images, himages, hrows'⟩
  have hof : ∀ storage ∈ storageIds, ∃ rows' ∈ lists, ∃ images,
      client.images storage = some images ∧ volumeRows storage vmid images = .ok rows' := by
    intro storage hstorage
    have hmem : storage ∈ sortTexts storageIds.dedup :=
      mem_sortTexts.mpr (List.mem_dedup.mpr hstorage)
    obtain ⟨rows', hmem', hrows'⟩ := exists_right_of_mem hlists hmem
    exact ⟨rows', hmem', hread storage rows' hrows'⟩
  have hfrom : ∀ rows' ∈ lists, ∃ storage ∈ storageIds, ∃ images,
      client.images storage = some images ∧ volumeRows storage vmid images = .ok rows' := by
    intro rows' hmem
    obtain ⟨storage, hstorage, hrows'⟩ := exists_left_of_mem hlists hmem
    exact ⟨storage, List.mem_dedup.mp (mem_sortTexts.mp hstorage), hread storage rows' hrows'⟩
  have hnodup : (lists.flatten.map VolumeRow.volumeId).Nodup := by
    refine nodup_of_storages vmid
      ((List.perm_insertionSort _ _).nodup_iff.mpr (List.nodup_dedup storageIds))
      (hlists.imp fun storage rows' hrows' => ?_)
    obtain ⟨images, -, hvolumes⟩ := hread storage rows' hrows'
    obtain ⟨hnodup, hnames, -⟩ := volumeRows_eq_ok hvolumes
    exact ⟨hnodup, fun v hv => (hnames v hv).2⟩
  refine ⟨((List.perm_insertionSort _ _).map _).nodup_iff.mpr hnodup, fun v => ?_, fun id => ?_⟩
  · rw [mem_sortRows, List.mem_flatten]
    constructor
    · rintro ⟨rows', hmem, hv⟩
      obtain ⟨storage, hstorage, images, himages, hvolumes⟩ := hfrom rows' hmem
      obtain ⟨rfl, hrecorded⟩ := ((volumeRows_eq_ok hvolumes).2.2.1 v).mp hv
      exact ⟨hstorage, images, himages, hrecorded⟩
    · rintro ⟨hstorage, images, himages, hrecorded⟩
      obtain ⟨rows', hmem, images', himages', hvolumes⟩ := hof _ hstorage
      obtain rfl := Option.some.inj (himages.symm.trans himages')
      exact ⟨rows', hmem, ((volumeRows_eq_ok hvolumes).2.2.1 v).mpr ⟨rfl, hrecorded⟩⟩
  · constructor
    · rintro ⟨storage, hstorage, images, himages, row, hrow, hid⟩
      obtain ⟨rows', hmem, images', himages', hvolumes⟩ := hof storage hstorage
      obtain rfl := Option.some.inj (himages.symm.trans himages')
      obtain ⟨v, hv, hrecords⟩ := (volumeRows_eq_ok hvolumes).2.2.2 row hrow
      refine ⟨v, mem_sortRows.mpr (List.mem_flatten.mpr ⟨rows', hmem, hv⟩), ?_⟩
      rw [hrecords.volid, Option.some.injEq, Value.str.injEq] at hid
      exact hid
    · rintro ⟨v, hv, rfl⟩
      obtain ⟨rows', hmem, hv⟩ := List.mem_flatten.mp (mem_sortRows.mp hv)
      obtain ⟨storage, hstorage, images, himages, hvolumes⟩ := hfrom rows' hmem
      obtain ⟨-, row, hrow, hrecords⟩ := ((volumeRows_eq_ok hvolumes).2.2.1 v).mp hv
      exact ⟨storage, hstorage, images, himages, row, hrow, hrecords.volid⟩

/-! ### The split of the volumes -/

theorem mem_of_present {rows : List VolumeRow} {id : Str} {v : VolumeRow}
    (h : present rows id = some v) : v ∈ rows ∧ v.volumeId = id := by
  have hmem := List.mem_of_getLast? h
  rw [List.mem_filter, decide_eq_true_eq] at hmem
  exact hmem

theorem present_isSome {rows : List VolumeRow} {id : Str} :
    (present rows id).isSome = true ↔ ∃ v ∈ rows, v.volumeId = id := by
  constructor
  · intro h
    obtain ⟨v, hv⟩ := Option.isSome_iff_exists.mp h
    exact ⟨v, mem_of_present hv⟩
  · rintro ⟨v, hv, rfl⟩
    rw [Option.isSome_iff_ne_none, present, ne_eq, List.getLast?_eq_none_iff]
    exact List.ne_nil_of_mem (List.mem_filter.mpr ⟨hv, decide_eq_true rfl⟩)

theorem present_eq_some {rows : List VolumeRow} (hnodup : (rows.map VolumeRow.volumeId).Nodup)
    {v : VolumeRow} : present rows v.volumeId = some v ↔ v ∈ rows := by
  constructor
  · intro h
    exact (mem_of_present h).1
  · intro h
    obtain ⟨w, hw⟩ := Option.isSome_iff_exists.mp (present_isSome.mpr ⟨v, h, rfl⟩)
    obtain ⟨hmem, hid⟩ := mem_of_present hw
    rw [hw, List.inj_on_of_nodup_map hnodup hmem h hid]

def Manifest.deletedIds (before : Manifest) : List Str :=
  before.deletedVolumes.map fun v => v.volumeId

def Manifest.preservedIds (before : Manifest) : List Str :=
  before.preservedVolumes.map VolumeRow.volumeId

/-- The deleted volumes of a manifest are observed, the others are preserved. -/
theorem manifest_eq_ok {rt : Runtime} {identity : Identity} {rows : List VolumeRow}
    {info : Str → Dict} {before : Manifest} (h : manifest rt identity rows info = .ok before) :
    before.deletedVolumes.map DeletedVolume.toDisk = identity.deletedVolumes ∧
      (∀ id ∈ before.deletedIds, ∃ v ∈ rows, v.volumeId = id) ∧
      before.preservedVolumes = rows.filter fun row => row.volumeId ∉ before.deletedIds := by
  simp only [manifest, bind_eq_ok, mapM_eq_ok, pure_eq_ok] at h
  obtain ⟨deleted, hdeleted, rfl⟩ := h
  have hdisk : ∀ disk v, deletedVolume rows info disk = .ok v →
      v.toDisk = disk ∧ ∃ row ∈ rows, row.volumeId = disk.volumeId := by
    intro disk v hv
    unfold deletedVolume at hv
    dsimp only at hv
    split at hv
    · rename_i row size hrow hsize
      split at hv
      · cases hv
        exact ⟨rfl, row, mem_of_present hrow⟩
      · cases hv
    · cases hv
  refine ⟨?_, fun id hid => ?_, rfl⟩
  · change deleted.map DeletedVolume.toDisk = identity.deletedVolumes
    generalize identity.deletedVolumes = disks at hdeleted
    induction hdeleted with
    | nil => rfl
    | cons hv _ ih => rw [List.map_cons, ih, (hdisk _ _ hv).1]
  · obtain ⟨v, hv, rfl⟩ := List.mem_map.mp hid
    obtain ⟨disk, -, hdeletes⟩ := exists_left_of_mem hdeleted hv
    obtain ⟨rfl, hrow⟩ := hdisk disk v hdeletes
    exact hrow

/-- A review observes the volumes that its manifest splits. -/
structure Reviewed (client : Client) (before : Manifest) (rows : List VolumeRow) : Prop where
  lists : Lists client before.storageIds rows
  deleted : ∀ id ∈ before.deletedIds, ∃ v ∈ rows, v.volumeId = id
  preserved : before.preservedVolumes = rows.filter fun row => row.volumeId ∉ before.deletedIds

theorem read_eq_ok {rt : Runtime} {client : Client} {vmid : ℤ} {before : Manifest}
    (h : read rt client vmid = .ok before) : ∃ rows, Reviewed client before rows := by
  unfold read at h
  cases hobserve : observe rt client vmid with
  | error e =>
      rw [hobserve] at h
      cases h
  | ok before' =>
      rw [hobserve] at h
      cases h
      simp only [observe, bind_eq_ok] at hobserve
      obtain ⟨-, -, -, -, -, -, -, -, -, -, -, -, identity, -, rows, hrows, info, -, hmanifest⟩ :=
        hobserve
      obtain ⟨hdisks, hdeleted, hpreserved⟩ := manifest_eq_ok hmanifest
      have hstorages : before.storageIds = identity.deletedVolumes.map Disk.storageId := by
        rw [← hdisks, List.map_map]
        rfl
      exact ⟨rows, hstorages ▸ storageRows_eq_ok hrows, hdeleted, hpreserved⟩

theorem sameSet_iff {a b : List Str} : sameSet a b = true ↔ ∀ id, id ∈ a ↔ id ∈ b := by
  simp only [sameSet, Bool.and_eq_true, List.all_eq_true, List.contains_iff_mem]
  exact ⟨fun h id => ⟨h.1 id, h.2 id⟩, fun h => ⟨fun id => (h id).mp, fun id => (h id).mpr⟩⟩

/-- A result matches when no deleted volume and every preserved row is listed. -/
theorem resultMatches_iff {before : Manifest} {rows : List VolumeRow} {vmidUnused : Bool} :
    resultMatches (deletionResult before rows vmidUnused) before = true ↔ vmidUnused = true ∧
      (∀ id ∈ before.deletedIds, ¬ ∃ v ∈ rows, v.volumeId = id) ∧
      ∀ v ∈ before.preservedVolumes, present rows v.volumeId = some v := by
  have hsome : ∀ id, ¬ (∃ v ∈ rows, v.volumeId = id) ↔ (present rows id).isSome = false := by
    intro id
    rw [← present_isSome, Bool.not_eq_true]
  simp only [resultMatches, Bool.and_eq_true, List.isEmpty_iff, sameSet_iff, deletionResult,
    List.filter_eq_nil_iff, List.map_eq_nil_iff, hsome, Bool.not_eq_true, Bool.not_eq_false',
    decide_eq_true_eq, Manifest.deletedIds]
  constructor
  · rintro ⟨⟨⟨⟨hunused, hremaining⟩, hunconfirmed⟩, -⟩, -⟩
    exact ⟨hunused, hremaining, by simpa using hunconfirmed⟩
  · rintro ⟨hunused, hremaining, hkept⟩
    refine ⟨⟨⟨⟨hunused, hremaining⟩, by simpa using hkept⟩, fun id => ?_⟩, fun id => ?_⟩
    · rw [List.mem_filter]
      exact ⟨fun h => h.1, fun h => ⟨h, by simpa using hremaining id h⟩⟩
    · rw [List.filter_eq_self.mpr fun v hv => decide_eq_true (hkept v hv)]

/-! ### The verification -/

end Gjallar.VmDelete

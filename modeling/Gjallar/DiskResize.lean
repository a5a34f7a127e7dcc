import Gjallar.Binary64
import Gjallar.FloatText
import Gjallar.Operation
import Gjallar.TextLines
import Mathlib.Data.List.Sort

/-!
# The resize of a cloned disk

The disk of a cloned VM is read from its configuration; a resize is needed when its size, in GiB
and rounded to two decimals, is smaller than the requested one. The disk operation reads the same
size texts in bytes.
-/
namespace Gjallar.DiskResize

open Gjallar.Text Gjallar.TextLines Gjallar.Data Gjallar.FloatText Gjallar.Operation Gjallar.Regex
  Gjallar.Regex.Pattern Gjallar.Rounding Gjallar.Binary64

/-! ### The size of a disk -/

/-- The letters of `size=` with the characters that are equal to them without their case. -/
def sizeName : List Str := ["sSſ", "iIİı", "zZ", "eE", "="]

/-- The text after a name of which each letter has several forms. -/
def stripName : List Str → Str → Option Str
  | [], s => some s
  | _ :: _, [] => none
  | letter :: name, c :: s => if letter.contains c then stripName name s else none

/-- `\d`. -/
def isDecimal (c : Char) : Bool := (digitValue c).isSome

/-- `\d+(?:\.\d+)?` and the rest of the text. -/
def readAmount (s : Str) : Option (Str × Str) :=
  let whole := s.takeWhile isDecimal
  if whole = [] then none
  else
    match s.dropWhile isDecimal with
    | '.' :: t =>
        let fraction := t.takeWhile isDecimal
        if fraction = [] then some (whole, '.' :: t)
        else some (whole ++ '.' :: fraction, t.dropWhile isDecimal)
    | rest => some (whole, rest)

/-- `[KMGTP]` without its case; the last one is the Kelvin sign. -/
def isUnit (c : Char) : Bool := ("KMGTPkmgtp\u212a" : Str).contains c

/-- `[KMGTP]?`. -/
def readUnit (s : Str) : Str := (s.takeWhile isUnit).take 1

/-- The amount and the unit after `size=` at the beginning of a part. -/
def readSize (part : Str) : Option (Str × Str) := do
  let s ← stripName sizeName part
  let (amount, rest) ← readAmount s
  return (amount, readUnit rest)

/-- The exponent of the factor of a unit, zero for those that `unit_map` does not have. -/
def unitExponent (unit : Str) : ℤ :=
  if unit = "K" ∨ unit = "k" then -20
  else if unit = "M" ∨ unit = "m" then -10
  else if unit = "T" ∨ unit = "t" then 10
  else if unit = "P" ∨ unit = "p" then 20
  else 0

/-- The product of a double and a power of two. -/
def scaleDouble : Double → ℤ → Double
  | some q, k => toDouble (q * 2 ^ k)
  | none, _ => ⊤

/-- `_parse_disk_size_gb` of a text. A match of the pattern begins a part between commas. -/
def parseDiskSizeGb (value : Str) : Option Double := do
  let (amount, unit) ← (splitAll ',' (strip value)).findSome? readSize
  let a ← mantissa amount
  return roundDouble 2 (scaleDouble (toDouble a) (unitExponent unit))

/-! ### The disk of a clone -/

structure DiskEntry where
  device : Str
  bus : Str
  index : ℕ
  sizeGb : Option Double
  volumeId : Str
  rawConfig : Str

/-- `(ide|sata|scsi|virtio)(\d+)`. -/
def diskConfigKey : Pattern Char :=
  seq (group 1 (oneOf ["ide", "sata", "scsi", "virtio"])) (group 2 (plus (one isDecimal)))

/-- The parts between commas that are not blank. -/
def configParts (value : Str) : List Str :=
  ((splitAll ',' value).map strip).filter fun part => !part.isEmpty

/-- One entry of `_disk_config_params`. -/
def configParam (part : Str) : Str × Str :=
  match splitOnce '=' part with
  | (key, some value) => (strip key, strip value)
  | (key, none) => (strip key, "true")

/-- An entry of `_disk_config_params`; a later one replaces an earlier one. -/
def diskConfigParam (value key : Str) : Option Str :=
  ((((configParts value).tail.map configParam).filter fun kv => kv.1 = key).getLast?).map Prod.snd

/-- `_disk_entry_from_config`. -/
def diskEntryFromConfig (device : Str) (value : Value) : Option DiskEntry := do
  let m ← diskConfigKey.fullmatch device
  let raw ← value.asStr
  let volume ← (configParts raw).head?
  let index ← toInt ((m.group 2).getD [])
  if lower (strip ((diskConfigParam raw "media").getD [])) = "cdrom" ∨ lower volume = "none" then
    none
  else
    return ⟨device, (m.group 1).getD [], index, parseDiskSizeGb raw, volume, raw⟩

/-- `str(value or "")`. -/
def textOf (repr : Value → Str) (v : Value) : Str := if v.truthy then v.toText repr else []

/-- The devices of the boot order. -/
def bootOrder (boot : Str) : List Str :=
  (splitAll ',' boot).flatMap fun part =>
    match splitOnce '=' part with
    | (key, some value) => if strip key = "order" then splitAll ';' value else []
    | (_, none) => []

/-- `_extract_boot_disk_devices`. -/
def extractBootDiskDevices (repr : Value → Str) (config : Dict) : List Str :=
  let named := textOf repr (Dict.getD config "bootdisk" .null) ::
    bootOrder (textOf repr (Dict.getD config "boot" .null))
  ((named.map strip).filter fun device => (diskConfigKey.fullmatch device).isSome).eraseDups

/-- `_DISK_BUS_ORDER`. -/
def busOrder (bus : Str) : ℕ :=
  if bus = "scsi" then 0 else if bus = "virtio" then 1 else if bus = "sata" then 2
  else if bus = "ide" then 3 else 99

/-- The order of `_disk_sort_key`. -/
def sortsBefore (a b : DiskEntry) : Prop :=
  busOrder a.bus < busOrder b.bus ∨ busOrder a.bus = busOrder b.bus ∧
    (a.index < b.index ∨ a.index = b.index ∧ textLe a.device b.device = true)

instance : DecidableRel sortsBefore := fun a b => by unfold sortsBefore; infer_instance

def diskEntries (config : Dict) : List DiskEntry :=
  config.filterMap fun kv => diskEntryFromConfig kv.1 kv.2

def entryOf (entries : List DiskEntry) (device : Str) : Option DiskEntry :=
  entries.find? fun entry => entry.device = device

/-- `_select_cloned_boot_disk`, with how it was selected. -/
def selectClonedBootDisk (repr : Value → Str) (config : Dict) : Option (DiskEntry × Str) :=
  let entries := diskEntries config
  match entryOf entries "scsi0" with
  | some entry => some (entry, "scsi0")
  | none =>
      match (extractBootDiskDevices repr config).findSome? (entryOf entries) with
      | some entry => some (entry, "boot_order")
      | none => ((entries.insertionSort sortsBefore).head?).map fun entry => (entry, "first_disk")

/-! ### The decision -/

/-- `_requested_disk_gb`. -/
def requestedDiskGb (hardware : Dict) : Option ℕ :=
  let v := Dict.getD hardware "disk_gb" .null
  match if v.truthy then v.toInteger else some 0 with
  | some n => if 0 < n then some n.toNat else none
  | none => none

inductive ResizeAction where
  | skipped | resizeRequired | notNeeded
  deriving DecidableEq

structure ResizeDecision where
  requested : Option ℕ
  action : ResizeAction
  reason : Str
  selected : Option (DiskEntry × Str)
  success : Option Bool
  size : Option Str := none

/-- The comparison of a requested size with the current one; a request beyond the doubles raises an
`OverflowError`. -/
def decideResize (n : ℕ) (selected : DiskEntry × Str) : Except Unit ResizeDecision :=
  let unknown : ResizeDecision :=
    ⟨some n, .skipped, "current_disk_size_unknown", some selected, some false, none⟩
  match selected.1.sizeGb with
  | none => .ok unknown
  | some current =>
      if current ≤ 0 then .ok unknown
      else if toDouble n = ⊤ then .error ()
      else if current < toDouble n then
        .ok ⟨some n, .resizeRequired, "requested_larger_than_current", some selected, none,
          some (ofNat n ++ ("G" : Str))⟩
      else
        .ok ⟨some n, .notNeeded, "requested_not_larger_than_current", some selected, some true,
          none⟩

/-- `_resize_decision_from_config`. -/
def resizeDecisionFromConfig (repr : Value → Str) (hardware config : Dict) :
    Except Unit ResizeDecision :=
  match requestedDiskGb hardware with
  | none => .ok ⟨none, .skipped, "disk_gb_not_requested", none, some true, none⟩
  | some n =>
      match selectClonedBootDisk repr config with
      | none => .ok ⟨some n, .skipped, "boot_disk_not_found", none, some false, none⟩
      | some selected => decideResize n selected

/-! ### The size in bytes -/

/-- A product in the context of `Decimal`: 28 significant digits. -/
def significant (q : ℚ) : ℚ :=
  let e := Int.log 10 q - 27
  halfEven (q / 10 ^ e) * 10 ^ e

/-- `([0-9]+(?:\.[0-9]+)?)([KMGT]?)`. -/
def diskSize : Pattern Char :=
  seq (group 1 (seq (plus (one isAsciiDigit)) (opt (seq (lit ".") (plus (one isAsciiDigit))))))
    (group 2 (opt (one ("KMGT" : Str).contains)))

/-- The exponent of 1024 for a unit. -/
def byteExponent (unit : Str) : ℕ :=
  if unit = "K" then 1 else if unit = "M" then 2 else if unit = "G" then 3
  else if unit = "T" then 4 else 0

/-- The bytes that the disk operations read from the size option; none is an error. -/
def diskSizeBytes (s : Str) : Option ℕ := do
  let m ← diskSize.fullmatch s
  let a ← mantissa ((m.group 1).getD [])
  let size := significant (a * 1024 ^ byteExponent ((m.group 2).getD []))
  if size ≤ 0 ∨ size ≠ ⌊size⌋ then none else return ⌊size⌋.toNat

end Gjallar.DiskResize

import Gjallar.Regex
import Gjallar.Text
import Mathlib.Data.List.Dedup
import Mathlib.Data.List.Sort
import Mathlib.Data.Char
import Mathlib.Order.Basic

/-!
# Connection configurations

The scope lists, features and access mode of a Proxmox connection, as `RegistrationIntent` leaves
them.
-/
namespace Gjallar.Registration

open Gjallar.Text Gjallar.Regex Gjallar.Regex.Pattern

inductive Feature where
  | read | power | compute | create | disk | network | clone | delete | console | template
  | imageBuild | imageCleanup | backup | restore | migrate | hostStorage | hostNetwork
  deriving DecidableEq, Repr

/-- `FEATURES`. -/
def Feature.all : List Feature :=
  [.read, .power, .compute, .create, .disk, .network, .clone, .delete, .console, .template,
    .imageBuild, .imageCleanup, .backup, .restore, .migrate, .hostStorage, .hostNetwork]

inductive AccessMode where
  | scoped | cluster
  deriving DecidableEq, Repr

structure Scope where
  nodes : List Str := []
  vmids : List ℤ := []
  templateVmids : List ℤ := []
  restoreVmids : List ℤ := []
  imageVmids : List ℤ := []
  cloneVmids : List ℤ := []
  createVmids : List ℤ := []
  storages : List Str := []
  hostStorages : List Str := []
  hostBridges : List Str := []
  restoreStorages : List Str := []
  backupStorages : List Str := []
  imageCleanupStorages : List Str := []
  bridges : List Str := []
  deriving DecidableEq

/-- The part of a stored configuration that decides what a connection may do. The features are
read as a set. -/
structure Configuration where
  accessMode : AccessMode
  features : List Feature
  scope : Scope
  deriving DecidableEq

/-- `[A-Za-z0-9][A-Za-z0-9_.-]{0,63}`. -/
def identifier : Pattern Char := seq (one isAlnum) (upTo (one (alnumOr "_.-")) 63)

def isIdentifier (s : Str) : Bool := (identifier.fullmatch s).isSome

/-- `vmbr[0-9]{1,4}`. -/
def hostBridge : Pattern Char :=
  seq (lit "vmbr") (seq (one isAsciiDigit) (upTo (one isAsciiDigit) 3))

def isHostBridge (s : Str) : Bool := (hostBridge.fullmatch s).isSome

theorem isIdentifier_iff (s : Str) : isIdentifier s = true ↔
    ∃ c w, s = c :: w ∧ isAlnum c = true ∧ w.length ≤ 63 ∧ ∀ d ∈ w, alnumOr "_.-" d = true := by
  simp only [isIdentifier, fullmatch_isSome_iff, identifier, matches_seq, matches_one,
    matches_upTo_one]
  constructor
  · rintro ⟨_, _, w, _, _, rfl, -, ⟨⟨c, hc, rfl⟩, -⟩, hlen, hw, -⟩
    exact ⟨c, w, rfl, hc, hlen, hw⟩
  · rintro ⟨c, w, rfl, hc, hlen, hw⟩
    exact ⟨[], [c], w, [], [], rfl, rfl, ⟨⟨c, hc, rfl⟩, rfl⟩, hlen, hw, rfl⟩

/-- Every character of an identifier is a letter, a digit or one of `_.-`. -/
theorem alnumOr_of_mem_identifier {s : Str} (h : isIdentifier s = true) {c : Char} (hc : c ∈ s) :
    alnumOr "_.-" c = true := by
  obtain ⟨d, w, rfl, hd, -, hw⟩ := (isIdentifier_iff s).mp h
  rcases List.mem_cons.mp hc with rfl | hc
  · simp [alnumOr, hd]
  · exact hw c hc

/-! ### Sets -/

/-- `sorted(set(values))`. -/
def sortedSet {α : Type} [DecidableEq α] (le : α → α → Bool) (values : List α) : List α :=
  values.dedup.mergeSort le

@[simp] theorem mem_sortedSet {α : Type} [DecidableEq α] {le : α → α → Bool} {values : List α}
    {a : α} : a ∈ sortedSet le values ↔ a ∈ values := by
  simp [sortedSet, List.mem_mergeSort]

/-- `set(a) & set(b)` is not empty. -/
def meets {α : Type} [DecidableEq α] (a b : List α) : Bool := a.any fun x => decide (x ∈ b)

/-- `set(a) <= set(b)`. -/
def within {α : Type} [DecidableEq α] (a b : List α) : Bool := a.all fun x => decide (x ∈ b)

end Gjallar.Registration

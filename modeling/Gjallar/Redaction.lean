import Gjallar.Data
import Gjallar.Regex

/-!
# Secret redaction

`redact_secrets` as it is applied to everything the operation and recovery ledgers store: values
under secret-looking keys are replaced whole, texts are masked by `_redact_string`. A set is given
as the tuple of its items: both are masked item by item.
-/
namespace Gjallar.Redaction

open Gjallar.Text Gjallar.Data Gjallar.Regex Gjallar.Regex.Pattern

def redacted : Str := "[REDACTED]"

def secretKeyMarkers : List Str :=
  ["secret", "token", "password", "passwd", "private_key", "credential", "database_url",
    "connection_string"]

def secretExactKeys : List Str :=
  ["sshkeys", "sshkey", "ssh_public_key", "sshpublickey", "public_key", "publickey"]

def safeKeys : List Str := ["password_login"]

def isSecretKey (key : Str) : Bool :=
  let normalized := lower (replaceChar '-' '_' key)
  let compact := normalized.filter (· ≠ '_')
  if normalized ∈ safeKeys then false
  else if normalized ∈ secretExactKeys ∨ compact ∈ secretExactKeys then true
  else secretKeyMarkers.any (contains normalized)

/-- `_SSH_PUBLIC_KEY_VALUE_PATTERN`. -/
def sshPublicKeyValuePattern : Pattern Char :=
  seq (alt (behind fun b => b.head?.all (· = '\n')) (one isSpace))
    (group 1 (seq
      (alt
        (oneOf ["sk-ssh-ed25519@openssh.com", "sk-ecdsa-sha2-nistp256@openssh.com", "ssh-ed25519",
          "ssh-rsa", "rsa-sha2-256", "rsa-sha2-512"])
        (seq (lit "ecdsa-sha2-") (plus (one (alnumOr "@._+-")))))
      (seq (plus (one isSpace))
        (seq (plus (one (alnumOr "+/=")))
          (opt (seq (plus (one isSpace)) (plus (one fun c => c ≠ '\r' && c ≠ '\n'))))))))

/-- `(://[^:/@]+:)[^@]+(@)`. -/
def urlCredentialPattern : Pattern Char :=
  seq (group 1 (seq (lit "://")
      (seq (plus (one fun c => c ≠ ':' && c ≠ '/' && c ≠ '@')) (lit ":"))))
    (seq (plus (one fun c => c ≠ '@')) (group 2 (lit "@")))

/-- Mask credential material embedded in URLs or key/value-like strings. -/
def redactString (value : Str) : Str :=
  let value := sshPublicKeyValuePattern.sub (fun _ => "[REDACTED_SSH_PUBLIC_KEY]") value
  if contains value "://" && contains value "@" then
    urlCredentialPattern.sub
      (fun m => (m.group 1).getD [] ++ redacted ++ (m.group 2).getD []) value
  else if secretKeyMarkers.any (contains (lower value)) then redacted
  else value

mutual

def redactSecrets : Value → Value
  | .dict kvs => .dict (redactDict kvs)
  | .tuple xs => .tuple (redactList xs)
  | .list xs => .list (redactList xs)
  | .str s => .str (redactString s)
  | v => v

def redactList : List Value → List Value
  | [] => []
  | v :: vs => redactSecrets v :: redactList vs

def redactDict : List (Str × Value) → List (Str × Value)
  | [] => []
  | (k, v) :: kvs =>
      (k, if isSecretKey k then .str redacted else redactSecrets v) :: redactDict kvs

end

/-- `_sanitized` of the recovery repository and `_sanitized_mapping` of the operation store. -/
def sanitized (payload : Dict) : Dict := redactDict payload

theorem sanitized_eq_map (d : Dict) : sanitized d =
    d.map fun kv => (kv.1, if isSecretKey kv.1 then .str redacted else redactSecrets kv.2) := by
  induction d with
  | nil => simp [sanitized, redactDict]
  | cons kv d ih =>
      obtain ⟨k, v⟩ := kv
      simp only [sanitized, redactDict, List.map_cons] at ih ⊢
      rw [ih]

@[simp] theorem get_sanitized (d : Dict) (key : Str) :
    Dict.get (sanitized d) key = (Dict.get d key).map fun v =>
      if isSecretKey key then .str redacted else redactSecrets v := by
  rw [sanitized_eq_map]
  exact Dict.get_map_value (fun k v => if isSecretKey k then .str redacted else redactSecrets v)
    d key

/-- Sanitising changes no key. -/
@[simp] theorem keys_sanitized (d : Dict) : Dict.keys (sanitized d) = Dict.keys d := by
  simp [sanitized_eq_map, Dict.keys, Function.comp_def]

@[simp] theorem redactSecrets_dict (d : Dict) :
    redactSecrets (.dict d) = .dict (sanitized d) := rfl
@[simp] theorem redactSecrets_null : redactSecrets .null = .null := rfl
@[simp] theorem redactSecrets_bool (b : Bool) : redactSecrets (.bool b) = .bool b := rfl
@[simp] theorem redactSecrets_int (n : ℤ) : redactSecrets (.int n) = .int n := rfl
@[simp] theorem redactSecrets_str (s : Str) :
    redactSecrets (.str s) = .str (redactString s) := rfl

/-! ### Texts without white space and without `://` -/

/-- Every way to match a public key consumes a white space character. -/
theorem exists_space_of_match {b s : List Char} {m : Match Char}
    (h : m ∈ sshPublicKeyValuePattern.run b s) : ∃ c ∈ s, isSpace c = true := by
  obtain ⟨hs, hm⟩ := (mem_run _ _ _ _).mp h
  simp only [sshPublicKeyValuePattern, matches_seq, matches_group, matches_plus_one] at hm
  obtain ⟨_, v, _, _, ht, -, -, _, ⟨_, w, _, _, hv, -, -, x, y, _, _, hw, -, ⟨hne, hx, -⟩, -⟩, -⟩ :=
    hm
  obtain ⟨c, x', rfl⟩ := List.exists_cons_of_ne_nil hne
  refine ⟨c, ?_, hx c (by simp)⟩
  rw [hs, ht, hv, hw]
  simp

theorem sub_ssh_of_no_space {s : Str} (h : ∀ c ∈ s, isSpace c = false) (f : Match Char → Str) :
    sshPublicKeyValuePattern.sub f s = s := by
  refine sub_of_no_match fun b' u m ⟨v, hv⟩ hm => ?_
  obtain ⟨c, hc, hsp⟩ := exists_space_of_match hm
  rw [h c (by simp [hv, hc])] at hsp
  exact absurd hsp Bool.false_ne_true

/-- Does a text name a secret, once lowered? -/
def hasMarker (s : Str) : Bool := secretKeyMarkers.any (contains (lower s))

theorem redactString_of_plain {s : Str} (hspace : ∀ c ∈ s, isSpace c = false)
    (hslash : '/' ∉ s) : redactString s = if hasMarker s then redacted else s := by
  have hurl : contains s "://" = false := by
    rw [Bool.eq_false_iff, ne_eq, contains_iff]
    rintro ⟨u, v, huv⟩
    apply hslash
    rw [← huv]
    simp
  simp only [redactString, sub_ssh_of_no_space hspace, hurl, Bool.false_and, Bool.false_eq_true,
    if_false, hasMarker]
  rfl

@[simp] theorem redactString_redacted : redactString redacted = redacted := by
  rw [redactString_of_plain (forall_mem_of_all (by decide)) (by decide)]
  exact ite_self redacted

@[simp] theorem redactString_nil : redactString [] = [] := by decide

end Gjallar.Redaction

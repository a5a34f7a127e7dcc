import Gjallar.Redaction
import Gjallar.RegexMaps

/-!
# Where redacted texts come from

The characters of a text are marked, and redaction carries the marks along: what it writes itself
has none. The output then shows which marked characters remain.
-/
namespace Gjallar.RedactionTraces

open Gjallar.Text Gjallar.Data Gjallar.Redaction Gjallar.Regex Gjallar.Regex.Pattern

abbrev Marked := Char × Bool

/-- A text without marks. -/
def plain (s : Str) : List Marked := s.map fun c => (c, false)

def shown (t : List Marked) : Str := t.map Prod.fst

def sshKeys : Pattern Marked := sshPublicKeyValuePattern.comap Prod.fst

def urlCredentials : Pattern Marked := urlCredentialPattern.comap Prod.fst

def keyMask : Str := "[REDACTED_SSH_PUBLIC_KEY]"

/-- The masking of the public keys. -/
def maskKeys (t : List Marked) : List Marked := sshKeys.sub (fun _ => plain keyMask) t

/-- What takes the place of a credential. -/
def maskedCredential (m : Match Marked) : List Marked :=
  (m.group 1).getD [] ++ plain redacted ++ (m.group 2).getD []

/-- The masking of the credentials in URLs. -/
def maskUrls (t : List Marked) : List Marked := urlCredentials.sub maskedCredential t

/-- `_redact_string` of a marked text. -/
def trace (t : List Marked) : List Marked :=
  let value := maskKeys t
  if contains (shown value) "://" && contains (shown value) "@" then maskUrls value
  else if hasMarker (shown value) then plain redacted
  else value

/-- Nothing marked is left. -/
def Clean (t : List Marked) : Prop := ∀ x ∈ t, x.2 = false

@[simp] theorem shown_plain (s : Str) : shown (plain s) = s := by
  simp [shown, plain, Function.comp_def]

@[simp] theorem shown_append (t u : List Marked) : shown (t ++ u) = shown t ++ shown u :=
  List.map_append

theorem clean_plain (s : Str) : Clean (plain s) := by
  intro x hx
  obtain ⟨c, -, rfl⟩ := List.mem_map.mp hx
  rfl

theorem clean_append {t u : List Marked} : Clean (t ++ u) ↔ Clean t ∧ Clean u :=
  List.forall_mem_append

theorem clean_cons {x : Marked} {t : List Marked} : Clean (x :: t) ↔ x.2 = false ∧ Clean t :=
  List.forall_mem_cons

theorem shown_maskKeys (t : List Marked) :
    shown (maskKeys t) = sshPublicKeyValuePattern.sub (fun _ => keyMask) (shown t) := by
  refine sub_comap (fun m => ?_) t
  exact shown_plain keyMask

theorem shown_maskUrls (t : List Marked) : shown (maskUrls t) = urlCredentialPattern.sub
    (fun m => (m.group 1).getD [] ++ redacted ++ (m.group 2).getD []) (shown t) := by
  refine sub_comap (fun m => ?_) t
  have hgroup : ∀ n, ((m.map Prod.fst).group n).getD [] = shown ((m.group n).getD []) := by
    intro n
    rw [Match.map_group]
    cases m.group n <;> rfl
  rw [hgroup, hgroup]
  change shown (maskedCredential m) = _
  rw [maskedCredential, shown_append, shown_append, shown_plain]

/-- The text with its public keys masked. -/
def keysMasked (s : Str) : Str := sshPublicKeyValuePattern.sub (fun _ => keyMask) s

/-- Is a text taken for one with a URL and its credentials? -/
def hasUrl (s : Str) : Bool := contains s "://" && contains s "@"

theorem redactString_eq (s : Str) : redactString s =
    if hasUrl (keysMasked s) then
      urlCredentialPattern.sub (fun m => (m.group 1).getD [] ++ redacted ++ (m.group 2).getD [])
        (keysMasked s)
    else if hasMarker (keysMasked s) then redacted else keysMasked s := rfl

theorem trace_eq (t : List Marked) : trace t =
    if hasUrl (keysMasked (shown t)) then maskUrls (maskKeys t)
    else if hasMarker (keysMasked (shown t)) then plain redacted else maskKeys t := by
  rw [keysMasked, ← shown_maskKeys]
  rfl

/-- The marks are only carried along. -/
theorem shown_trace (t : List Marked) : shown (trace t) = redactString (shown t) := by
  rw [trace_eq, redactString_eq]
  split
  · rw [shown_maskUrls, shown_maskKeys]
    rfl
  · split
    · rw [shown_plain]
    · rw [shown_maskKeys]
      rfl

end Gjallar.RedactionTraces

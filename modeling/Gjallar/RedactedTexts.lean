import Gjallar.Registration
import Gjallar.TaskIdentity

/-!
# Texts that survive redaction

When `_redact_string` keeps a text: identifiers, and texts assembled from identifiers with
separators that no secret marker contains.
-/
namespace Gjallar.RedactedTexts

open Gjallar.Text Gjallar.Data Gjallar.Redaction Gjallar.Registration Gjallar.Regex
  Gjallar.Regex.Pattern Gjallar.RecoveryBinding Gjallar.TaskIdentity

theorem hasMarker_iff (s : Str) : hasMarker s = true ↔ ∃ w ∈ secretKeyMarkers, w <:+: lower s := by
  simp only [hasMarker, List.any_eq_true, contains_iff]

/-! ### Separators -/

/-- A word without the separator lies on one side of it. -/
theorem infix_of_sep {α : Type} {w u v : List α} {c : α} (hc : c ∉ w) (h : w <:+: u ++ c :: v) :
    w <:+: u ∨ w <:+: v := by
  have hbefore : ∀ x : List α, x <+: c :: v → c ∉ x → x = [] := by
    intro x hx hmem
    rcases List.prefix_cons_iff.mp hx with rfl | ⟨t, rfl, -⟩
    · rfl
    · exact absurd List.mem_cons_self hmem
  rcases List.infix_append_iff.mp h with h | h | ⟨x, y, rfl, hx, hy⟩
  · exact .inl h
  · rcases List.infix_cons_iff.mp h with h | h
    · rw [hbefore w h hc]
      exact .inl List.nil_infix
    · exact .inr h
  · have hnil : y = [] := hbefore y hy fun hmem => hc (List.mem_append_right x hmem)
    rw [hnil, List.append_nil]
    exact .inl hx.isInfix

/-- A character that lowering keeps and that no marker contains. -/
structure IsSeparator (c : Char) : Prop where
  kept : lowerChar c = [c]
  absent : ∀ w ∈ secretKeyMarkers, c ∉ w

theorem isSeparator_colon : IsSeparator ':' := ⟨rfl, by decide⟩

theorem isSeparator_slash : IsSeparator '/' := ⟨rfl, by decide⟩

/-- A text names a secret when a part of it does. -/
theorem hasMarker_sep {c : Char} (hc : IsSeparator c) (u v : Str) :
    hasMarker (u ++ c :: v) = (hasMarker u || hasMarker v) := by
  have hlower : lower (u ++ c :: v) = lower u ++ c :: lower v := by
    simp only [lower, List.flatMap_append, List.flatMap_cons, hc.kept, List.singleton_append]
  rw [Bool.eq_iff_iff, Bool.or_eq_true, hasMarker_iff, hasMarker_iff, hasMarker_iff, hlower]
  constructor
  · rintro ⟨w, hw, h⟩
    rcases infix_of_sep (hc.absent w hw) h with h | h
    · exact .inl ⟨w, hw, h⟩
    · exact .inr ⟨w, hw, h⟩
  · rintro (⟨w, hw, h⟩ | ⟨w, hw, h⟩)
    · exact ⟨w, hw, List.infix_append_of_infix_left h⟩
    · exact ⟨w, hw, List.infix_append_of_infix_right (List.infix_cons h)⟩

/-! ### Texts without credentials -/

/-- Redaction of a text without white space and without `@`. -/
theorem redactString_of_no_at {s : Str} (hspace : ∀ c ∈ s, isSpace c = false) (hat : '@' ∉ s) :
    redactString s = if hasMarker s then redacted else s := by
  have hno : contains s "@" = false := by
    rw [Bool.eq_false_iff, ne_eq, contains_iff]
    intro h
    exact hat (h.subset List.mem_cons_self)
  simp only [redactString, sub_ssh_of_no_space hspace, hno, Bool.and_false, Bool.false_eq_true,
    if_false, hasMarker]
  rfl

/-! ### Identifiers -/

theorem isSpace_of_alnumOr {c : Char} (h : alnumOr "_.-" c = true) : isSpace c = false := by
  refine isSpace_of_isUpidChar ?_
  simp only [isUpidChar, alnumOr, Bool.or_eq_true, List.contains_iff_mem] at h ⊢
  refine h.imp id fun hmem => ?_
  have hall : ∀ d ∈ ("_.-" : Str), ("_.:@!+-" : Str).contains d = true := forall_mem_of_all rfl
  exact List.contains_iff_mem.mp (hall c hmem)

theorem not_mem_identifier {s : Str} (h : isIdentifier s = true) {c : Char}
    (hc : alnumOr "_.-" c = false) : c ∉ s := by
  intro hmem
  rw [alnumOr_of_mem_identifier h hmem] at hc
  cases hc

theorem redactString_identifier {s : Str} (h : isIdentifier s = true) :
    redactString s = if hasMarker s then redacted else s :=
  redactString_of_no_at (fun _ hc => isSpace_of_alnumOr (alnumOr_of_mem_identifier h hc))
    (not_mem_identifier h rfl)

theorem isIdentifier_redacted : isIdentifier redacted = false := by decide

/-- Redaction keeps an identifier an identifier only when it keeps it whole. -/
theorem hasMarker_of_isIdentifier {s : Str} (h : isIdentifier s = true)
    (hkept : isIdentifier (redactString s) = true) : hasMarker s = false := by
  by_contra hmarker
  rw [redactString_identifier h, if_pos (by simpa using hmarker), isIdentifier_redacted] at hkept
  cases hkept

/-- A bridge name is an identifier. -/
theorem isIdentifier_of_isHostBridge {s : Str} (h : isHostBridge s = true) :
    isIdentifier s = true := by
  simp only [isHostBridge, fullmatch_isSome_iff, hostBridge, matches_seq, matches_one, matches_lit,
    matches_upTo_one] at h
  obtain ⟨_, u, v, _, _, rfl, -, ⟨rfl, -⟩, x, y, _, _, rfl, -, ⟨⟨d, hd, rfl⟩, -⟩, hlen, hy, -⟩ := h
  have halnum : ∀ c, isAsciiDigit c = true → alnumOr "_.-" c = true := by
    intro c hc
    simp only [alnumOr, isAlnum, hc, Bool.or_true, Bool.true_or]
  refine (isIdentifier_iff _).mpr ⟨'v', ("mbr" : Str) ++ ([d] ++ y), rfl, rfl, ?_, ?_⟩
  · have hmbr : ("mbr" : Str).length = 3 := rfl
    simp only [List.length_append, hmbr, List.length_singleton]
    omega
  · intro c hc
    rcases List.mem_append.mp hc with hc | hc
    · have hall : ∀ c ∈ ("mbr" : Str), alnumOr "_.-" c = true := forall_mem_of_all rfl
      exact hall c hc
    · rcases List.mem_append.mp hc with hc | hc
      · rw [List.mem_singleton.mp hc]
        exact halnum d hd
      · exact halnum c (hy c hc)

end Gjallar.RedactedTexts

import Gjallar.RegexMaps

/-!
# What a substitution by one text keeps

The outline of a text has a gap in place of each match. A substitution by a fixed mask fills the
gaps. When the places where the text reads like the mask are gaps as well, and the first character
of the mask is not in the rest of it, the filled text shows where its gaps are.
-/
namespace Gjallar.Regex

variable {α : Type}

/-- A text with gaps, filled with a mask. -/
def fill (mask : List α) : List (Option α) → List α
  | [] => []
  | some c :: x => c :: fill mask x
  | none :: x => mask ++ fill mask x

@[simp] theorem fill_nil (mask : List α) : fill mask [] = [] := rfl
@[simp] theorem fill_some (mask : List α) (c : α) (x : List (Option α)) :
    fill mask (some c :: x) = c :: fill mask x := rfl
@[simp] theorem fill_none (mask : List α) (x : List (Option α)) :
    fill mask (none :: x) = mask ++ fill mask x := rfl

@[simp] theorem fill_append (mask : List α) (x y : List (Option α)) :
    fill mask (x ++ y) = fill mask x ++ fill mask y := by
  induction x with
  | nil => rfl
  | cons c x ih => cases c <;> simp [ih]

@[simp] theorem fill_map_some (mask w : List α) : fill mask (w.map some) = w := by
  induction w with
  | nil => rfl
  | cons c w ih => simp [ih]

theorem map_fill {β : Type} (f : α → β) (mask : List α) (x : List (Option α)) :
    (fill mask x).map f = fill (mask.map f) (x.map (Option.map f)) := by
  induction x with
  | nil => rfl
  | cons c x ih => cases c <;> simp [ih]

/-- A text before the first gap stands in the filled text, and no text without the first character
of the mask reaches beyond. -/
theorem prefix_of_fill {mask : List α} {a : α} {tail : List α} (hmask : mask = a :: tail)
    {w : List α} (ha : a ∉ w) {x : List (Option α)} (h : w <+: fill mask x) :
    w.map some <+: x := by
  induction w generalizing x with
  | nil => exact List.nil_prefix
  | cons c w ih =>
      rw [List.mem_cons, not_or] at ha
      cases x with
      | nil => cases List.prefix_nil.mp h
      | cons y x =>
          cases y with
          | none =>
              rw [fill_none, hmask, List.cons_append, List.cons_prefix_cons] at h
              exact absurd h.1.symm ha.1
          | some d =>
              rw [fill_some, List.cons_prefix_cons] at h
              rw [List.map_cons, h.1]
              exact (List.prefix_cons_inj _).mpr (ih ha.2 h.2)

/-- A character that is not in the mask is one of the gapped text. -/
theorem split_of_fill {mask : List α} {x : List (Option α)} {u v : List α} {c : α}
    (hc : c ∉ mask) (h : fill mask x = u ++ c :: v) :
    ∃ y z, x = y ++ some c :: z ∧ fill mask y = u ∧ fill mask z = v := by
  induction x generalizing u with
  | nil => simp at h
  | cons d x ih =>
      cases d with
      | some d =>
          cases u with
          | nil =>
              cases h
              exact ⟨[], x, rfl, rfl, rfl⟩
          | cons e u =>
              obtain ⟨rfl, hrest⟩ := List.cons.inj h
              obtain ⟨y, z, rfl, hy, hz⟩ := ih hrest
              exact ⟨some d :: y, z, rfl, congrArg (d :: ·) hy, hz⟩
      | none =>
          rw [fill_none] at h
          rcases List.append_eq_append_iff.mp h with ⟨w, rfl, hw⟩ | ⟨w, hw, hrest⟩
          · obtain ⟨y, z, rfl, hy, hz⟩ := ih hw
            exact ⟨none :: y, z, rfl, congrArg (mask ++ ·) hy, hz⟩
          · cases w with
            | nil =>
                obtain ⟨y, z, rfl, hy, hz⟩ := ih (u := []) hrest.symm
                refine ⟨none :: y, z, rfl, ?_, hz⟩
                rw [fill_none, hy, hw]
                simp
            | cons e w =>
                cases hrest
                exact absurd (by rw [hw]; simp) hc

theorem mem_fill {mask : List α} {x : List (Option α)} {c : α} :
    c ∈ fill mask x ↔ some c ∈ x ∨ none ∈ x ∧ c ∈ mask := by
  induction x with
  | nil => simp
  | cons d x ih => cases d <;> simp [ih] <;> tauto

theorem fill_eq_nil {mask : List α} (hne : mask ≠ []) {x : List (Option α)} :
    fill mask x = [] ↔ x = [] := by
  cases x with
  | nil => simp
  | cons d x => cases d <;> simp [hne]

/-- Gapped texts in which the mask is not written out are known from the filled texts. -/
theorem fill_injective {mask : List α} {a : α} {tail : List α} (hmask : mask = a :: tail)
    (ha : a ∉ tail) {x y : List (Option α)} (hx : ¬ mask.map some <:+: x)
    (hy : ¬ mask.map some <:+: y) (h : fill mask x = fill mask y) : x = y := by
  -- a gap on one side only would be written out on the other
  have hgap : ∀ {c : α} {u v : List (Option α)}, ¬ mask.map some <:+: some c :: u →
      c :: fill mask u ≠ mask ++ fill mask v := by
    intro c u v hu heq
    have hcons : c :: fill mask u = a :: (tail ++ fill mask v) := by
      rw [heq, ← List.cons_append, ← hmask]
    obtain ⟨rfl, hrest⟩ := List.cons.inj hcons
    refine hu (List.IsPrefix.isInfix ?_)
    rw [hmask, List.map_cons]
    exact (List.prefix_cons_inj _).mpr (prefix_of_fill hmask ha ⟨fill mask v, hrest.symm⟩)
  have htail : ∀ {c : Option α} {u : List (Option α)}, ¬ mask.map some <:+: c :: u →
      ¬ mask.map some <:+: u := fun hu hinfix => hu (List.infix_cons hinfix)
  induction x generalizing y with
  | nil =>
      cases y with
      | nil => rfl
      | cons d y => cases d <;> simp [hmask] at h
  | cons c x ih =>
      cases y with
      | nil => cases c <;> simp [hmask] at h
      | cons d y =>
          cases c with
          | none =>
              cases d with
              | none =>
                  rw [fill_none, fill_none] at h
                  rw [ih (htail hx) (htail hy) (List.append_cancel_left h)]
              | some d => exact absurd h.symm (hgap hy)
          | some c =>
              cases d with
              | none => exact absurd h (hgap hx)
              | some d =>
                  rw [fill_some, fill_some, List.cons.injEq] at h
                  rw [h.1, ih (htail hx) (htail hy) h.2]

namespace Pattern

/-- The character of a token, or a gap. -/
def Token.kept : Token α → Option α
  | .skipped c => some c
  | .found _ => none

/-- The rest of a text with a gap in place of each match. -/
def outlineFrom (p : Pattern α) (b s : List α) : List (Option α) := (scan p 0 b s).map Token.kept

/-- A text with a gap in place of each match. -/
def outline (p : Pattern α) (s : List α) : List (Option α) := outlineFrom p [] s

section Outline

variable {p : Pattern α}

theorem outlineFrom_of_found {b s : List α} {m : Match α} (h : found p b s = some m) :
    outlineFrom p b s = none :: outlineFrom p (m.text.reverse ++ b) m.rest := by
  rw [outlineFrom, scan_of_found h]
  rfl

theorem outlineFrom_of_not_found {b : List α} {c : α} {s : List α}
    (h : found p b (c :: s) = none) :
    outlineFrom p b (c :: s) = some c :: outlineFrom p (c :: b) s := by
  rw [outlineFrom, scan_of_not_found h]
  rfl

theorem rewritten_const (mask b s : List α) :
    rewritten (fun _ => mask) (scan p 0 b s) = fill mask (outlineFrom p b s) := by
  induction b, s using scan_induction (p := p) with
  | nil b => rfl
  | skipped b c s h ih => rw [outlineFrom_of_not_found h, scan_of_not_found h, rewritten_skipped,
      ih, fill_some]
  | matched b s m h ih => rw [outlineFrom_of_found h, scan_of_found h, rewritten_found, ih,
      fill_none]

/-- A substitution by one text fills the gaps of the outline. -/
theorem sub_const (mask s : List α) : p.sub (fun _ => mask) s = fill mask (outline p s) :=
  rewritten_const mask [] s

/-- Before its first gap the outline is the text. -/
theorem prefix_of_outline {w b s : List α} (h : w.map some <+: outlineFrom p b s) : w <+: s := by
  induction w generalizing b s with
  | nil => exact List.nil_prefix
  | cons c w ih =>
      cases s with
      | nil =>
          have hnil : (c :: w).map some = [] := List.prefix_nil.mp h
          cases hnil
      | cons d s =>
          cases hfound : found p b (d :: s) with
          | some m =>
              rw [outlineFrom_of_found hfound, List.map_cons, List.cons_prefix_cons] at h
              cases h.1
          | none =>
              rw [outlineFrom_of_not_found hfound, List.map_cons, List.cons_prefix_cons] at h
              cases h.1
              exact (List.prefix_cons_inj _).mpr (ih h.2)

/-- Only a text without matches is its own outline. -/
theorem eq_of_outlineFrom {w b s : List α} (h : outlineFrom p b s = w.map some) : s = w := by
  induction w generalizing b s with
  | nil =>
      cases s with
      | nil => rfl
      | cons d s =>
          cases hfound : found p b (d :: s) with
          | some m => simp [outlineFrom_of_found hfound] at h
          | none => simp [outlineFrom_of_not_found hfound] at h
  | cons c w ih =>
      cases s with
      | nil =>
          have hnil : [] = (c :: w).map some := h
          cases hnil
      | cons d s =>
          cases hfound : found p b (d :: s) with
          | some m => simp [outlineFrom_of_found hfound] at h
          | none =>
              rw [outlineFrom_of_not_found hfound, List.map_cons, List.cons.injEq,
                Option.some.injEq] at h
              rw [h.1, ih h.2]

end Outline

/-! ### Matches, and what reads like the mask -/

theorem found_alt (p q : Pattern α) (b s : List α) :
    found (alt p q) b s = (found p b s).or (found q b s) := by
  rw [found, run, List.find?_append]
  rfl

/-- A stretch in which no match begins is left in place. -/
theorem rewritten_through {p : Pattern α} {f : Match α → List α} {u b t : List α}
    (h : ∀ v w, u = v ++ w → w ≠ [] → found p (v.reverse ++ b) (w ++ t) = none) :
    rewritten f (scan p 0 b (u ++ t)) = u ++ rewritten f (scan p 0 (u.reverse ++ b) t) := by
  induction u generalizing b with
  | nil => rfl
  | cons c u ih =>
      have hfirst : found p b (c :: (u ++ t)) = none := h [] (c :: u) rfl (List.cons_ne_nil _ _)
      rw [List.cons_append, scan_of_not_found hfirst, rewritten_skipped, ih ?_, List.reverse_cons,
        List.append_assoc]
      · rfl
      · intro v w hu hw
        have hnext := h (c :: v) w (by rw [hu, List.cons_append]) hw
        rwa [List.reverse_cons, List.append_assoc] at hnext

section Literal

variable [DecidableEq α] {p : Pattern α} {mask : List α}

theorem text_of_found_lit {b s : List α} {m : Match α} (h : found (lit mask) b s = some m) :
    m.text = mask ∧ s = mask ++ m.rest := by
  obtain ⟨hmem, -, hs⟩ := found_eq_some h
  have htext : m.text = mask := ((matches_lit _ _ _ _ _).mp ((mem_run _ _ _ _).mp hmem).2).1
  exact ⟨htext, by rw [← htext]; exact hs⟩

theorem found_lit_of_prefix (hne : mask ≠ []) {s : List α} (h : mask <+: s) (b : List α) :
    (found (lit mask) b s).isSome = true := by
  obtain ⟨r, rfl⟩ := h
  rw [found, List.find?_isSome]
  exact ⟨⟨mask, r, []⟩, (mem_run _ _ _ _).mpr ⟨rfl, (matches_lit _ _ _ _ _).mpr ⟨rfl, rfl⟩⟩,
    by simpa using hne⟩

/-- The outline with gaps also where the text reads like the mask: filled, it is what the
substitution makes of the text. -/
theorem fill_outline_alt
    (hmask : ∀ b t v w, mask = v ++ w → w ≠ [] → found p (v.reverse ++ b) (w ++ t) = none)
    (b s : List α) : fill mask (outlineFrom (alt p (lit mask)) b s) =
      rewritten (fun _ => mask) (scan p 0 b s) := by
  induction b, s using scan_induction (p := alt p (lit mask)) with
  | nil b => rfl
  | skipped b c s h ih =>
      have hp : found p b (c :: s) = none := by
        rw [found_alt, Option.or_eq_none_iff] at h
        exact h.1
      rw [outlineFrom_of_not_found h, scan_of_not_found hp, fill_some, rewritten_skipped, ih]
  | matched b s m h ih =>
      rw [outlineFrom_of_found h, fill_none, ih]
      rw [found_alt] at h
      cases hp : found p b s with
      | some m' =>
          rw [hp, Option.some_or, Option.some.injEq] at h
          rw [scan_of_found hp, rewritten_found, h]
      | none =>
          rw [hp, Option.none_or] at h
          obtain ⟨htext, hs⟩ := text_of_found_lit h
          rw [hs, rewritten_through (hmask b m.rest), htext]

/-- The mask is not written out in the outline. -/
theorem no_mask_in_outline (hne : mask ≠ []) (b s : List α) :
    ¬ mask.map some <:+: outlineFrom (alt p (lit mask)) b s := by
  induction b, s using scan_induction (p := alt p (lit mask)) with
  | nil b =>
      intro h
      exact hne (List.map_eq_nil_iff.mp (List.infix_nil.mp h))
  | skipped b c s h ih =>
      intro hinfix
      have hall := outlineFrom_of_not_found h
      rw [hall] at hinfix
      rcases List.infix_cons_iff.mp hinfix with hprefix | hrest
      · rw [← hall] at hprefix
        have hlit := found_lit_of_prefix hne (prefix_of_outline hprefix) b
        rw [found_alt, Option.or_eq_none_iff] at h
        rw [h.2] at hlit
        cases hlit
      · exact ih hrest
  | matched b s m h ih =>
      rw [outlineFrom_of_found h]
      intro hinfix
      rcases List.infix_cons_iff.mp hinfix with hprefix | hrest
      · obtain ⟨c, w, rfl⟩ := List.exists_cons_of_ne_nil hne
        rw [List.map_cons, List.cons_prefix_cons] at hprefix
        cases hprefix.1
      · exact ih hrest

end Literal

end Pattern

end Gjallar.Regex

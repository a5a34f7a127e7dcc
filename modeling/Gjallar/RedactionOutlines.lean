import Gjallar.RedactedTexts
import Gjallar.RedactionFixpoints
import Gjallar.RegexGaps

/-!
# Texts that redaction does not tell apart

Two texts have one redacted form when each of them is withheld, or when they are the same outside
their public keys and the passwords of their URLs.
-/
namespace Gjallar.RedactionTraces

open Gjallar.Text Gjallar.Redaction Gjallar.Regex Gjallar.Regex.Pattern Gjallar.RedactedTexts

/-! ### Public keys -/

/-- A text with a gap for each public key, and for each place that reads like a masked one. -/
def openText (s : Str) : List (Option Char) :=
  outline (alt sshPublicKeyValuePattern (lit keyMask)) s

/-- What a gap counts as where words and URLs are looked for: a letter that is in none of them. -/
def letter {α : Type} (f : α → Char) (c : Option α) : Char := (c.map f).getD '*'

def letters (x : List (Option Char)) : Str := x.map (letter id)

theorem keyMask_eq : keyMask = '[' :: (("REDACTED_SSH_PUBLIC_KEY" : Str) ++ ']' :: []) := rfl

theorem no_key_in_mask (b t v w : Str) (h : keyMask = v ++ w) (hw : w ≠ []) :
    found sshPublicKeyValuePattern (v.reverse ++ b) (w ++ t) = none := by
  obtain ⟨c, w, rfl⟩ := List.exists_cons_of_ne_nil hw
  rcases List.eq_nil_or_concat' v with rfl | ⟨v, d, rfl⟩
  · rw [← Option.not_isSome_iff_eq_none, found_key_iff]
    rintro ⟨u, hu, hstart⟩
    have hbracket := bracket_notMem_keyStart hstart
    rw [List.nil_append] at h
    rw [← h] at hu
    cases u with
    | nil => exact not_keyStart_nil _ hstart
    | cons e u =>
        rw [keyMask_eq, List.cons_append, List.cons_prefix_cons] at hu
        rw [hu.1] at hbracket
        exact hbracket List.mem_cons_self
  · have hmask : ∀ e ∈ keyMask, e ≠ '\n' ∧ isSpace e = false := forall_mem_of_all (by decide)
    rw [List.reverse_append, List.cons_append]
    exact no_key_at (hmask d (by rw [h]; simp)).1 (hmask c (by rw [h]; simp)).2 _ _

/-- The masking of the public keys fills the gaps. -/
theorem keysMasked_eq_fill (s : Str) : keysMasked s = fill keyMask (openText s) := by
  rw [openText, outline, fill_outline_alt no_key_in_mask]
  exact sub_eq_rewritten _ s

theorem no_mask_in_openText (s : Str) : ¬ keyMask.map some <:+: openText s :=
  no_mask_in_outline (by decide) [] s

/-- What is looked for on both sides of a bracket alone is not looked for in a mask. -/
theorem letters_eq {p : Str → Bool}
    (hsep : ∀ c ∈ ("[]*" : Str), ∀ u v, p (u ++ c :: v) = (p u || p v))
    (hmask : p "REDACTED_SSH_PUBLIC_KEY" = false) (u : Str) (x : List (Option Char)) :
    p (u ++ fill keyMask x) = p (u ++ letters x) := by
  induction x generalizing u with
  | nil => rfl
  | cons c x ih =>
      cases c with
      | some c =>
          have hnext := ih (u ++ [c])
          rw [List.append_assoc, List.append_assoc] at hnext
          exact hnext
      | none =>
          have hrest := ih []
          rw [List.nil_append, List.nil_append] at hrest
          calc p (u ++ fill keyMask (none :: x))
              = p (u ++ '[' :: (("REDACTED_SSH_PUBLIC_KEY" : Str) ++ ']' :: fill keyMask x)) := rfl
            _ = (p u || p (fill keyMask x)) := by
                rw [hsep '[' (by decide), hsep ']' (by decide), hmask, Bool.false_or]
            _ = p (u ++ '*' :: letters x) := by rw [hsep '*' (by decide), hrest]

theorem contains_sep {w : Str} {c : Char} (hc : c ∉ w) (u v : Str) :
    contains (u ++ c :: v) w = (contains u w || contains v w) := by
  rw [Bool.eq_iff_iff, Bool.or_eq_true, contains_iff, contains_iff, contains_iff]
  constructor
  · exact infix_of_sep hc
  · rintro (h | h)
    · exact List.infix_append_of_infix_left h
    · exact List.infix_append_of_infix_right (List.infix_cons h)

theorem hasMarker_letters (s : Str) :
    hasMarker (keysMasked s) = hasMarker (letters (openText s)) := by
  rw [keysMasked_eq_fill]
  refine letters_eq (p := hasMarker) (fun c hc => hasMarker_sep ⟨?_, ?_⟩) (by decide) []
    (openText s)
  · exact forall_mem_of_all (p := fun c => lowerChar c = [c]) (by decide) c hc
  · exact forall_mem_of_all (p := fun c => ∀ w ∈ secretKeyMarkers, c ∉ w) (by decide) c hc

theorem hasUrl_letters (s : Str) : hasUrl (keysMasked s) = hasUrl (letters (openText s)) := by
  have hall : ∀ c ∈ ("[]*" : Str), ∀ w ∈ (["://", "@"] : List Str), c ∉ w :=
    forall_mem_of_all (by decide)
  have hword : ∀ w ∈ (["://", "@"] : List Str), contains (keysMasked s) w =
      contains (letters (openText s)) w := by
    intro w hw
    rw [keysMasked_eq_fill]
    refine letters_eq (p := fun u => contains u w)
      (fun c hc => contains_sep (hall c hc w hw)) ?_ [] (openText s)
    rcases List.mem_pair.mp hw with rfl | rfl <;> decide
  rw [hasUrl, hasUrl, hword _ List.mem_cons_self, hword _ (List.mem_cons_of_mem _ (by simp))]

/-! ### Passwords -/

section Outline

variable {α γ : Type}

/-- What is kept of a token: all of it, or of a credential what stands around the password. -/
def urlPieces (keep : α → γ) (gap : γ) : Token α → List γ
  | .skipped c => [keep c]
  | .found m => ((m.group 1).getD []).map keep ++ [gap] ++ ((m.group 2).getD []).map keep

/-- A text with a gap for each password of a URL. -/
def urlOutline (f : α → Char) (keep : α → γ) (gap : γ) (b t : List α) : List γ :=
  (scan (urlCredentialPattern.comap f) 0 b t).flatMap (urlPieces keep gap)

variable {f : α → Char} {keep : α → γ} {gap : γ}

theorem urlOutline_of_found {b t front password : List α} {sign : α} {u : Str} {m : Match α}
    (h : found (urlCredentialPattern.comap f) b t = some m)
    (hm : UrlMatch f m front password sign u) : urlOutline f keep gap b t =
      front.map keep ++ gap :: keep sign :: urlOutline f keep gap (m.text.reverse ++ b) m.rest := by
  rw [urlOutline, scan_of_found h, List.flatMap_cons, urlPieces, hm.first, hm.second]
  simp [urlOutline]

theorem urlOutline_of_not_found {b t : List α} {c : α}
    (h : found (urlCredentialPattern.comap f) b (c :: t) = none) :
    urlOutline f keep gap b (c :: t) = keep c :: urlOutline f keep gap (c :: b) t := by
  rw [urlOutline, scan_of_not_found h]
  rfl

/-- A credential begins with a colon. -/
theorem no_url_at {b t : List α} {c : α} (hc : f c ≠ ':') :
    found (urlCredentialPattern.comap f) b (c :: t) = none := by
  by_contra hsome
  obtain ⟨m, hm⟩ := Option.ne_none_iff_exists'.mp hsome
  obtain ⟨-, -, heq⟩ := found_eq_some hm
  obtain ⟨front, password, sign, u, hmatch⟩ := urlMatch_of_found hm
  have hhead := congrArg (List.map f) heq
  simp only [hmatch.text, List.map_append, hmatch.front_map, opening, List.append_assoc] at hhead
  exact hc (List.cons.inj hhead).1

theorem urlOutline_through {u : List α} (hu : ∀ c ∈ u, f c ≠ ':') (b t : List α) :
    urlOutline f keep gap b (u ++ t) =
      u.map keep ++ urlOutline f keep gap (u.reverse ++ b) t := by
  induction u generalizing b with
  | nil => rfl
  | cons c u ih =>
      rw [List.forall_mem_cons] at hu
      rw [List.cons_append, urlOutline_of_not_found (no_url_at hu.1), ih hu.2, List.reverse_cons,
        List.append_assoc]
      rfl

theorem prefix_of_sep {w u v : List γ} {c : γ} (hc : c ∉ w) (h : w <+: u ++ c :: v) : w <+: u := by
  rcases List.prefix_or_prefix_of_prefix h (List.prefix_append u (c :: v)) with hw | ⟨r, rfl⟩
  · exact hw
  · cases r with
    | nil => rw [List.append_nil]
    | cons d r =>
        rw [List.prefix_append_right_inj, List.cons_prefix_cons] at h
        rw [h.1] at hc
        exact absurd (by simp) hc

theorem gap_notMem (hgap : ∀ c, keep c ≠ gap) {w : List α} : gap ∉ w.map keep := by
  intro h
  obtain ⟨c, -, hc⟩ := List.mem_map.mp h
  exact hgap c hc

/-- What is kept of a text is kept of its image. -/
theorem urlOutline_comap {β : Type} (g : β → α) (b t : List β) :
    urlOutline (f ∘ g) (keep ∘ g) gap b t = urlOutline f keep gap (b.map g) (t.map g) := by
  have hcomap : urlCredentialPattern.comap (f ∘ g) = (urlCredentialPattern.comap f).comap g := rfl
  rw [urlOutline, urlOutline, hcomap, ← scan_comap, List.flatMap_map]
  refine List.flatMap_congr fun token _ => ?_
  cases token with
  | skipped c => rfl
  | found m =>
      have hgroup : ∀ n, ((m.map g).group n).getD [] = ((m.group n).getD []).map g := by
        intro n
        rw [Match.map_group]
        cases m.group n <;> rfl
      simp only [urlPieces, Token.map, hgroup, List.map_map]

theorem map_urlOutline {δ : Type} (h : γ → δ) (b t : List α) :
    (urlOutline f keep gap b t).map h = urlOutline f (h ∘ keep) (h gap) b t := by
  rw [urlOutline, urlOutline, List.map_flatMap]
  refine List.flatMap_congr fun token _ => ?_
  cases token with
  | skipped c => rfl
  | found m => simp [urlPieces]

/-- What is kept without a gap stands in the text. -/
theorem prefix_of_urlOutline (hkeep : keep.Injective) (hgap : ∀ c, keep c ≠ gap) {w b t : List α}
    (h : w.map keep <+: urlOutline f keep gap b t) : w <+: t := by
  induction b, t using scan_induction (p := urlCredentialPattern.comap f) generalizing w with
  | nil b =>
      rw [List.map_eq_nil_iff.mp (List.prefix_nil.mp h)]
  | skipped b c t hfound ih =>
      rw [urlOutline_of_not_found hfound] at h
      cases w with
      | nil => exact List.nil_prefix
      | cons d w =>
          rw [List.map_cons, List.cons_prefix_cons] at h
          rw [hkeep h.1]
          exact (List.prefix_cons_inj _).mpr (ih h.2)
  | matched b t m hfound ih =>
      obtain ⟨front, password, sign, u, hm⟩ := urlMatch_of_found hfound
      obtain ⟨-, -, heq⟩ := found_eq_some hfound
      rw [urlOutline_of_found hfound hm] at h
      have hw : w <+: front :=
        (List.prefix_map_iff_of_injective hkeep).mp (prefix_of_sep (gap_notMem hgap) h)
      rw [heq, hm.text, List.append_assoc, List.append_assoc]
      exact hw.trans (List.prefix_append _ _)

theorem infix_of_urlOutline (hkeep : keep.Injective) (hgap : ∀ c, keep c ≠ gap) {w b t : List α}
    (h : w.map keep <:+: urlOutline f keep gap b t) : w <:+: t := by
  induction b, t using scan_induction (p := urlCredentialPattern.comap f) with
  | nil b => rw [List.map_eq_nil_iff.mp (List.infix_nil.mp h)]
  | skipped b c t hfound ih =>
      have hall : urlOutline f keep gap b (c :: t) = keep c :: urlOutline f keep gap (c :: b) t :=
        urlOutline_of_not_found hfound
      rw [hall] at h
      rcases List.infix_cons_iff.mp h with hprefix | hrest
      · rw [← hall] at hprefix
        exact (prefix_of_urlOutline hkeep hgap hprefix).isInfix
      · exact List.infix_cons (ih hrest)
  | matched b t m hfound ih =>
      obtain ⟨front, password, sign, u, hm⟩ := urlMatch_of_found hfound
      obtain ⟨-, -, heq⟩ := found_eq_some hfound
      rw [urlOutline_of_found hfound hm] at h
      have hsign : w <:+: sign :: m.rest → w <:+: t := by
        intro hw
        rw [heq, hm.text, List.append_assoc]
        exact hw.trans (List.suffix_append _ _).isInfix
      rcases infix_of_sep (gap_notMem hgap) h with hfront | hrest
      · obtain ⟨v, hv, hw⟩ := List.infix_map_iff.mp hfront
        rw [List.map_injective_iff.mpr hkeep hw, heq, hm.text, List.append_assoc, List.append_assoc]
        exact List.infix_append_of_infix_left hv
      · rcases List.infix_cons_iff.mp hrest with hprefix | hinfix
        · cases w with
          | nil => exact List.nil_infix
          | cons c w =>
              rw [List.map_cons, List.cons_prefix_cons] at hprefix
              refine hsign (List.IsPrefix.isInfix ?_)
              rw [hkeep hprefix.1]
              exact (List.prefix_cons_inj _).mpr (prefix_of_urlOutline hkeep hgap hprefix.2)
        · exact hsign (List.infix_cons (ih hinfix))

end Outline

/-! ### Passwords behind public keys -/

section Fill

variable {α : Type} {f : α → Char} {mask : List α}

/-- A text with gaps for its public keys, without what is a password there: `none` is a public key
and `some none` a password. -/
def closedFrom (f : α → Char) (b x : List (Option α)) : List (Option (Option α)) :=
  urlOutline (letter f) (Option.map some) (some none) b x

/-- The passwords of a masked text as gaps. -/
def passwordGaps (f : α → Char) (b t : List α) : List (Option α) := urlOutline f some none b t

theorem letter_eq {c : Option α} {d : Char} (hd : d ≠ '*') (h : letter f c = d) :
    ∃ a, c = some a ∧ f a = d := by
  cases c with
  | none => exact absurd h.symm hd
  | some a => exact ⟨a, rfl, h⟩

theorem map_letter_eq {x : List (Option α)} {w : Str} (hw : '*' ∉ w)
    (h : x.map (letter f) = w) : ∃ v : List α, x = v.map some ∧ v.map f = w := by
  induction x generalizing w with
  | nil => exact ⟨[], rfl, h⟩
  | cons c x ih =>
      rw [← h, List.map_cons, List.mem_cons, not_or] at hw
      obtain ⟨a, rfl, ha⟩ := letter_eq (Ne.symm hw.1) rfl
      obtain ⟨v, rfl, hv⟩ := ih hw.2 rfl
      refine ⟨a :: v, rfl, ?_⟩
      rw [← h, List.map_cons, List.map_cons, ha, hv]

/-- A character that is neither in the mask nor the letter of a gap. -/
theorem mem_letters_iff {d : Char} (hmask : ∀ a ∈ mask, f a ≠ d) (hd : d ≠ '*')
    {x : List (Option α)} : d ∈ (fill mask x).map f ↔ d ∈ x.map (letter f) := by
  rw [List.mem_map, List.mem_map]
  constructor
  · rintro ⟨a, ha, rfl⟩
    rcases mem_fill.mp ha with h | ⟨-, h⟩
    · exact ⟨some a, h, rfl⟩
    · exact absurd rfl (hmask a h)
  · rintro ⟨c, hc, hletter⟩
    obtain ⟨a, rfl, ha⟩ := letter_eq hd hletter
    exact ⟨a, mem_fill.mpr (.inl hc), ha⟩

/-- The mask has none of the characters that part a URL. -/
structure Undelimited (f : α → Char) (mask : List α) : Prop where
  nonempty : mask ≠ []
  colon : ∀ a ∈ mask, f a ≠ ':'
  slash : ∀ a ∈ mask, f a ≠ '/'
  sign : ∀ a ∈ mask, f a ≠ '@'

theorem isName_iff {u : Str} : IsName u ↔ u ≠ [] ∧ ':' ∉ u ∧ '/' ∉ u ∧ '@' ∉ u := by
  refine and_congr_right fun _ => ⟨fun h => ⟨fun hc => (h _ hc).1 rfl, fun hc => (h _ hc).2.1 rfl,
    fun hc => (h _ hc).2.2 rfl⟩, ?_⟩
  rintro ⟨h₁, h₂, h₃⟩ c hc
  exact ⟨fun heq => h₁ (heq ▸ hc), fun heq => h₂ (heq ▸ hc), fun heq => h₃ (heq ▸ hc)⟩

theorem isName_letters (hmask : Undelimited f mask) {x : List (Option α)} :
    IsName ((fill mask x).map f) ↔ IsName (x.map (letter f)) := by
  rw [isName_iff, isName_iff, ne_eq, ne_eq, List.map_eq_nil_iff, List.map_eq_nil_iff,
    fill_eq_nil hmask.nonempty, mem_letters_iff hmask.colon (by decide),
    mem_letters_iff hmask.slash (by decide), mem_letters_iff hmask.sign (by decide)]

/-- A character that parts a URL is one of the text with gaps. -/
theorem split_of_letters {d : Char} (hmask : ∀ a ∈ mask, f a ≠ d) {x : List (Option α)}
    {u v : Str} (h : (fill mask x).map f = u ++ d :: v) : ∃ y a z, x = y ++ some a :: z ∧
      f a = d ∧ (fill mask y).map f = u ∧ (fill mask z).map f = v := by
  obtain ⟨front, rest, hfill, rfl, hrest⟩ := List.map_eq_append_iff.mp h
  obtain ⟨a, rest, rfl, rfl, rfl⟩ := List.map_eq_cons_iff.mp hrest
  obtain ⟨y, z, rfl, hy, hz⟩ := split_of_fill (fun ha => hmask a ha rfl) hfill
  exact ⟨y, a, z, rfl, rfl, by rw [hy], by rw [hz]⟩

/-- A credential of the masked text is one of the text with gaps. -/
theorem found_of_fill (hmask : Undelimited f mask) {b x : List (Option α)} {u r w : Str}
    (hname : IsName u) (hne : r ≠ []) (hr : '@' ∉ r)
    (h : (fill mask x).map f = opening u ++ (r ++ '@' :: w)) :
    ∃ m, found (urlCredentialPattern.comap (letter f)) b x = some m := by
  have hsplit : ∀ {d : Char} {y : List (Option α)} {t : Str}, (∀ a ∈ mask, f a ≠ d) →
      (fill mask y).map f = d :: t →
        ∃ a z, y = some a :: z ∧ f a = d ∧ (fill mask z).map f = t := by
    intro d y t hd hy
    obtain ⟨front, a, z, rfl, ha, hfront, hz⟩ := split_of_letters (u := []) hd hy
    rw [(fill_eq_nil hmask.nonempty).mp (List.map_eq_nil_iff.mp hfront)]
    exact ⟨a, z, rfl, ha, hz⟩
  obtain ⟨a₁, x₁, rfl, ha₁, h₁⟩ := hsplit hmask.colon h
  obtain ⟨a₂, x₂, rfl, ha₂, h₂⟩ := hsplit hmask.slash h₁
  obtain ⟨a₃, x₃, rfl, ha₃, h₃⟩ := hsplit hmask.slash h₂
  change (fill mask x₃).map f = (u ++ (":" : Str)) ++ (r ++ '@' :: w) at h₃
  rw [List.append_assoc] at h₃
  obtain ⟨y, a₄, x₄, rfl, ha₄, hy, h₄⟩ := split_of_letters hmask.colon h₃
  obtain ⟨z, a₅, x₅, rfl, ha₅, hz, -⟩ := split_of_letters hmask.sign h₄
  refine found_url_of_opening (u := y.map (letter f)) (r := z.map (letter f))
    (w := x₅.map (letter f)) ((isName_letters hmask).mp (hy ▸ hname)) ?_ ?_ ?_
  · intro hnil
    rw [List.map_eq_nil_iff.mp hnil] at hz
    exact hne hz.symm
  · rwa [← mem_letters_iff hmask.sign (by decide), hz]
  · simp [opening, letter, ha₁, ha₂, ha₃, ha₄, ha₅]

/-- Gaps for the passwords of the masked text, and gaps for the passwords of the text with gaps for
its public keys. -/
theorem passwordGaps_fill (hmask : Undelimited f mask) (b x : List (Option α)) (b' : List α) :
    passwordGaps f b' (fill mask x) = fill (mask.map some) (closedFrom f b x) := by
  induction b, x using scan_induction (p := urlCredentialPattern.comap (letter f))
    generalizing b' with
  | nil b => rfl
  | skipped b c x hfound ih =>
      rw [closedFrom, urlOutline_of_not_found hfound]
      cases c with
      | some c =>
          have hnone : found (urlCredentialPattern.comap f) b' (c :: fill mask x) = none := by
            by_contra hsome
            obtain ⟨m, hm⟩ := Option.ne_none_iff_exists'.mp hsome
            obtain ⟨-, -, heq⟩ := found_eq_some hm
            obtain ⟨front, password, sign, u, hc⟩ := urlMatch_of_found hm
            have hmap : (fill mask (some c :: x)).map f =
                opening u ++ (password.map f ++ '@' :: m.rest.map f) := by
              rw [fill_some, heq, hc.text, ← hc.front_map, ← hc.sign_at]
              simp
            obtain ⟨m', hm'⟩ := found_of_fill hmask (b := b) hc.name
              (fun hnil => hc.password_ne (List.map_eq_nil_iff.mp hnil)) hc.password_at hmap
            rw [hfound] at hm'
            cases hm'
          exact (urlOutline_of_not_found hnone).trans (congrArg (some c :: ·) (ih _))
      | none =>
          rw [fill_none, passwordGaps, urlOutline_through hmask.colon]
          exact congrArg _ (ih _)
  | matched b x m hfound ih =>
      obtain ⟨front, password, sign, u, hm⟩ := urlMatch_of_found hfound
      obtain ⟨-, -, heq⟩ := found_eq_some hfound
      obtain ⟨a, rfl, ha⟩ := letter_eq (by decide) hm.sign_at
      obtain ⟨v, y, v', hfront, hv, hy, hv'⟩ : ∃ (v : List α) (y : List (Option α)) (v' : List α),
          front = v.map some ++ (y ++ v'.map some) ∧ v.map f = "://" ∧ y.map (letter f) = u ∧
            v'.map f = ":" := by
        obtain ⟨slashes, rest, rfl, hslashes, hrest⟩ := List.map_eq_append_iff.mp hm.front_map
        obtain ⟨y, colon, rfl, hy, hcolon⟩ := List.map_eq_append_iff.mp hrest
        obtain ⟨v, rfl, hv⟩ := map_letter_eq (by decide) hslashes
        obtain ⟨v', rfl, hv'⟩ := map_letter_eq (by decide) hcolon
        exact ⟨v, y, v', rfl, hv, hy, hv'⟩
      have hname : IsName ((fill mask y).map f) := (isName_letters hmask).mpr (hy ▸ hm.name)
      have hopening : (fill mask front).map f = opening ((fill mask y).map f) := by
        rw [hfront, fill_append, fill_append, fill_map_some, fill_map_some, List.map_append,
          List.map_append, hv, hv']
        rfl
      have hne : fill mask password ≠ [] := fun hnil =>
        hm.password_ne ((fill_eq_nil hmask.nonempty).mp hnil)
      have hat : '@' ∉ (fill mask password).map f := by
        rw [mem_letters_iff hmask.sign (by decide)]
        exact hm.password_at
      obtain ⟨m', hm', hmatch, hrest⟩ :=
        found_credential (fill mask m.rest) hopening hname hne hat ha b'
      have hfill : fill mask x =
          fill mask front ++ fill mask password ++ [a] ++ fill mask m.rest := by
        rw [heq, hm.text]
        simp
      rw [hfill, passwordGaps, urlOutline_of_found hm' hmatch, hrest, closedFrom,
        urlOutline_of_found hfound hm, fill_append, map_fill]
      exact congrArg (_ ++ none :: some a :: ·) (ih _)

end Fill

/-! ### The redacted form -/

/-- What stands outside the public keys and the passwords of a text. -/
def closedText (s : Str) : List (Option (Option Char)) := closedFrom id [] (openText s)

/-- The text reads like a withheld one, or it has a marker word and is not taken for a URL. -/
def Withheld (s : Str) : Prop :=
  s = redacted ∨
    hasMarker (letters (openText s)) = true ∧ hasUrl (letters (openText s)) = false

instance (s : Str) : Decidable (Withheld s) := inferInstanceAs (Decidable (_ ∨ _))

/-- Both texts are withheld, or they are the same outside their public keys and passwords. -/
def Indistinct (s t : Str) : Prop := Withheld s ∧ Withheld t ∨ closedText s = closedText t

/-- The masking of the passwords fills their gaps. -/
theorem urlScan_eq_fill (b t : List Marked) :
    urlScan b t = fill (plain redacted) (passwordGaps Prod.fst b t) := by
  induction b, t using scan_induction (p := urlCredentials) with
  | nil b => rfl
  | skipped b x t hfound ih =>
      rw [urlScan_of_not_found hfound, passwordGaps, urlOutline_of_not_found hfound]
      exact congrArg (x :: ·) ih
  | matched b t m hfound ih =>
      obtain ⟨front, password, sign, u, hm⟩ := urlMatch_of_found hfound
      rw [urlScan_of_found hfound, hm.credentials.masked, passwordGaps,
        urlOutline_of_found hfound hm, fill_append, fill_map_some, ih, List.append_assoc,
        List.append_assoc]
      rfl

/-- A masked password is a gap again. -/
theorem gaps_urlScan (b t b' : List Marked) :
    urlOutline Prod.fst (some ∘ Prod.fst) none b' (urlScan b t) =
      urlOutline Prod.fst (some ∘ Prod.fst) none b t := by
  induction b, t using scan_induction (p := urlCredentials) generalizing b' with
  | nil b => rfl
  | skipped b x t hfound ih =>
      rw [urlScan_of_not_found hfound, urlOutline_of_not_found hfound,
        urlOutline_of_not_found (no_credential hfound b'), ih]
  | matched b t m hfound ih =>
      obtain ⟨front, password, sign, u, hm⟩ := urlMatch_of_found hfound
      obtain ⟨m', hm', hmatch, hrest⟩ := found_masked (urlScan (m.text.reverse ++ b) m.rest)
        hm.front_map hm.name hm.sign_at b'
      rw [urlScan_of_found hfound, hm.credentials.masked, urlOutline_of_found hfound hm,
        urlOutline_of_found hm' hmatch, hrest, ih]

theorem gaps_eq (b t : List Marked) : urlOutline Prod.fst (some ∘ Prod.fst) none b t =
    passwordGaps id (b.map Prod.fst) (shown t) :=
  urlOutline_comap (f := id) Prod.fst b t

theorem shown_urlScan (s : Str) :
    shown (urlScan [] (plain s)) = fill redacted (passwordGaps id [] s) := by
  have hgaps := gaps_eq [] (plain s)
  rw [shown_plain, List.map_nil] at hgaps
  rw [urlScan_eq_fill, ← hgaps, ← shown_plain redacted, shown, map_fill, passwordGaps,
    map_urlOutline]
  rfl

/-- The passwords are where the masked texts have them. -/
theorem passwordGaps_injective {s t : Str}
    (h : shown (urlScan [] (plain s)) = shown (urlScan [] (plain t))) :
    passwordGaps id [] s = passwordGaps id [] t := by
  have hmasked : ∀ u : Str, passwordGaps id [] (shown (urlScan [] (plain u))) =
      passwordGaps id [] u := by
    intro u
    have hgaps := gaps_urlScan [] (plain u) []
    rwa [gaps_eq, gaps_eq, shown_plain] at hgaps
  rw [← hmasked s, ← hmasked t, h]

theorem no_mask_in_closedText (s : Str) :
    ¬ (keyMask.map some).map some <:+: closedText s := by
  intro h
  have hgap : ∀ c : Option Char, c.map some ≠ some none := by
    intro c
    cases c <;> simp
  have hkept : (keyMask.map some).map (Option.map some) = (keyMask.map some).map some := by
    rw [List.map_map, List.map_map]
    rfl
  rw [← hkept] at h
  exact no_mask_in_openText s
    (infix_of_urlOutline (Option.map_injective (Option.some_injective _)) hgap h)

theorem undelimited_keyMask : Undelimited id keyMask :=
  ⟨by decide, forall_mem_of_all (by decide), forall_mem_of_all (by decide),
    forall_mem_of_all (by decide)⟩

/-- The passwords of a text with masked keys, and the passwords behind its keys. -/
theorem passwordGaps_keysMasked (s : Str) :
    passwordGaps id [] (keysMasked s) = fill (keyMask.map some) (closedText s) := by
  rw [keysMasked_eq_fill, passwordGaps_fill undelimited_keyMask [] (openText s)]
  rfl

theorem closedText_injective {s t : Str}
    (h : passwordGaps id [] (keysMasked s) = passwordGaps id [] (keysMasked t)) :
    closedText s = closedText t := by
  rw [passwordGaps_keysMasked, passwordGaps_keysMasked] at h
  exact fill_injective (congrArg (List.map some) keyMask_eq) (by decide) (no_mask_in_closedText s)
    (no_mask_in_closedText t) h

/-- Without a URL there is no password. -/
theorem urlScan_of_no_url (b t : List Marked) (h : hasUrl (shown t) = false) :
    urlScan b t = t := by
  induction b, t using scan_induction (p := urlCredentials) with
  | nil b => rfl
  | skipped b x t hfound ih =>
      rw [urlScan_of_not_found hfound, ih]
      rw [hasUrl, Bool.and_eq_false_iff] at h ⊢
      simp only [← Bool.not_eq_true, contains_iff] at h ⊢
      exact h.imp (fun h hinfix => h (List.infix_cons hinfix))
        fun h hinfix => h (List.infix_cons hinfix)
  | matched b t m hfound ih =>
      obtain ⟨-, -, heq⟩ := found_eq_some hfound
      obtain ⟨front, password, sign, u, hm⟩ := credentials_of_found hfound
      have hurl : hasUrl (shown t) = true := by
        have hshown : shown t = opening u ++ (shown password ++ ('@' :: shown m.rest)) := by
          rw [heq, hm.text, ← hm.sign_at, ← hm.front_shown]
          simp [shown]
        rw [hshown, hasUrl, Bool.and_eq_true, contains_iff, contains_iff]
        constructor
        · exact ⟨[], (u ++ (":" : Str)) ++ (shown password ++ ('@' :: shown m.rest)), rfl⟩
        · exact ⟨opening u ++ shown password, shown m.rest, by simp⟩
      rw [hurl] at h
      cases h

/-- The redacted form of a text. -/
theorem redactString_cases (s : Str) : redactString s =
    if hasMarker (keysMasked s) = true ∧ hasUrl (keysMasked s) = false then redacted
    else shown (urlScan [] (plain (keysMasked s))) := by
  have hsub := shown_maskUrls (plain (keysMasked s))
  rw [shown_plain, maskUrls_eq] at hsub
  rw [redactString_eq, ← hsub]
  cases hurl : hasUrl (keysMasked s) with
  | true => simp
  | false =>
      rw [urlScan_of_no_url [] _ (by rw [shown_plain]; exact hurl), shown_plain]
      simp

theorem redactString_of_withheld {s : Str} (h : Withheld s) : redactString s = redacted := by
  rcases h with rfl | h
  · exact redactString_redacted
  · rw [← hasMarker_letters, ← hasUrl_letters] at h
    rw [redactString_cases, if_pos h]

/-- Only a withheld text is masked whole. -/
theorem withheld_of_redacted {s : Str} (h : redactString s = redacted) : Withheld s := by
  have hurl : hasUrl (keysMasked s) = false := by
    rw [Bool.eq_false_iff]
    exact fun hurl => redactString_ne_redacted hurl h
  by_cases hmarker : hasMarker (keysMasked s) = true
  · rw [hasMarker_letters] at hmarker
    rw [hasUrl_letters] at hurl
    exact .inr ⟨hmarker, hurl⟩
  · rw [redactString_eq, hurl, if_neg Bool.false_ne_true, if_neg hmarker, keysMasked_eq_fill,
      ← fill_map_some keyMask redacted] at h
    have hopen : openText s = redacted.map some :=
      fill_injective keyMask_eq (by decide) (no_mask_in_openText s) (by decide) h
    exact .inl (eq_of_outlineFrom hopen)

/-- Redaction gives two texts one form exactly when it does not tell them apart. -/
theorem redactString_eq_iff (s t : Str) : redactString s = redactString t ↔ Indistinct s t := by
  constructor
  · intro h
    by_cases hs : Withheld s
    · rw [redactString_of_withheld hs] at h
      exact .inl ⟨hs, withheld_of_redacted h.symm⟩
    · have ht : ¬ Withheld t := fun ht => hs (withheld_of_redacted (by
        rw [h, redactString_of_withheld ht]))
      have hshown : ∀ {u : Str}, ¬ Withheld u →
          redactString u = shown (urlScan [] (plain (keysMasked u))) := by
        intro u hu
        rw [redactString_cases, if_neg]
        rw [hasMarker_letters, hasUrl_letters]
        exact fun hmarker => hu (.inr hmarker)
      rw [hshown hs, hshown ht] at h
      exact .inr (closedText_injective (passwordGaps_injective h))
  · rintro (⟨hs, ht⟩ | h)
    · rw [redactString_of_withheld hs, redactString_of_withheld ht]
    · have hscan : shown (urlScan [] (plain (keysMasked s))) =
          shown (urlScan [] (plain (keysMasked t))) := by
        rw [shown_urlScan, shown_urlScan, passwordGaps_keysMasked, passwordGaps_keysMasked, h]
      have hpasswords : ∀ {v : Str}, hasUrl v = false → shown (urlScan [] (plain v)) = v := by
        intro v hv
        rw [urlScan_of_no_url [] _ (by rw [shown_plain]; exact hv), shown_plain]
      have hurls : ∀ {v : Str}, hasUrl v = true → hasUrl (shown (urlScan [] (plain v))) = true :=
        fun {v} hv => hasUrl_urlScan [] _ (by rw [shown_plain]; exact hv)
      cases hs : hasUrl (keysMasked s) with
      | true =>
          cases ht : hasUrl (keysMasked t) with
          | true => rw [redactString_cases, redactString_cases, hs, ht, hscan]; simp
          | false =>
              have hboth := hurls hs
              rw [hscan, hpasswords ht, ht] at hboth
              cases hboth
      | false =>
          cases ht : hasUrl (keysMasked t) with
          | true =>
              have hboth := hurls ht
              rw [← hscan, hpasswords hs, hs] at hboth
              cases hboth
          | false =>
              rw [hpasswords hs, hpasswords ht] at hscan
              rw [redactString_eq, redactString_eq, hscan]

end Gjallar.RedactionTraces

import Gjallar.KeyMasks
import Gjallar.UrlMasks

/-!
# Redacting a redacted text

A mask begins with a bracket, which neither a public key nor the front of a credential contains.
So what stands before a mask reads as it did before the masking, and nothing new is found there.
-/
namespace Gjallar.RedactionTraces

open Gjallar.Text Gjallar.Redaction Gjallar.Regex Gjallar.Regex.Pattern

/-! ### Where a public key begins -/

/-- A public key may begin without white space in front of it. -/
def StartsLine (b : Str) : Prop := b.head?.all (· = '\n') = true

def IsKind (kind : Str) : Prop :=
  kind ∈ (["sk-ssh-ed25519@openssh.com", "sk-ecdsa-sha2-nistp256@openssh.com", "ssh-ed25519",
    "ssh-rsa", "rsa-sha2-256", "rsa-sha2-512"] : List Str) ∨
    ∃ v, kind = "ecdsa-sha2-" ++ v ∧ v ≠ [] ∧ ∀ c ∈ v, alnumOr "@._+-" c = true

/-- A public key up to the first character of its body. -/
def KeyStart (b w : Str) : Prop :=
  ∃ lead kind gap c, w = lead ++ (kind ++ (gap ++ [c])) ∧
    ((StartsLine b ∧ lead = []) ∨ ∃ d, isSpace d = true ∧ lead = [d]) ∧ IsKind kind ∧
    (gap ≠ [] ∧ ∀ d ∈ gap, isSpace d = true) ∧ alnumOr "+/=" c = true

theorem KeyStart.mono {b b' w : Str} (h : KeyStart b w) (hline : StartsLine b → StartsLine b') :
    KeyStart b' w := by
  obtain ⟨lead, kind, gap, c, hw, hlead, hrest⟩ := h
  exact ⟨lead, kind, gap, c, hw, hlead.imp_left fun hb => ⟨hline hb.1, hb.2⟩, hrest⟩

theorem not_keyStart_nil (b : Str) : ¬ KeyStart b [] := by
  rintro ⟨lead, kind, gap, c, h, -⟩
  simp at h

theorem bracket_notMem_kind {kind : Str} (h : IsKind kind) : '[' ∉ kind := by
  rcases h with h | ⟨v, rfl, -, hv⟩
  · have hall : ∀ w ∈ (["sk-ssh-ed25519@openssh.com", "sk-ecdsa-sha2-nistp256@openssh.com",
        "ssh-ed25519", "ssh-rsa", "rsa-sha2-256", "rsa-sha2-512"] : List Str), '[' ∉ w := by decide
    exact hall kind h
  · rw [List.mem_append, not_or]
    refine ⟨by decide, fun hmem => ?_⟩
    have hbracket := hv '[' hmem
    exact absurd hbracket (by decide)

theorem bracket_notMem_keyStart {b w : Str} (h : KeyStart b w) : '[' ∉ w := by
  obtain ⟨lead, kind, gap, c, rfl, hlead, hkind, hgap, hc⟩ := h
  have hspace : ∀ d, isSpace d = true → d ≠ '[' := by
    rintro d hd rfl
    exact absurd hd (by decide)
  simp only [List.mem_append, not_or, List.mem_singleton]
  refine ⟨?_, bracket_notMem_kind hkind, fun hmem => hspace _ (hgap.2 _ hmem) rfl, ?_⟩
  · rcases hlead with ⟨-, rfl⟩ | ⟨d, hd, rfl⟩
    · exact List.not_mem_nil
    · exact fun hmem => hspace d hd (List.mem_singleton.mp hmem).symm
  · rintro rfl
    exact absurd hc (by decide)

/-- A public key is found exactly where one begins. -/
theorem found_key_iff (b s : Str) : (found sshPublicKeyValuePattern b s).isSome = true ↔
    ∃ w, w <+: s ∧ KeyStart b w := by
  constructor
  · intro h
    obtain ⟨m, hm⟩ := Option.isSome_iff_exists.mp h
    obtain ⟨hmem, -, -⟩ := found_eq_some hm
    obtain ⟨hs, hmatch⟩ := (mem_run _ _ _ _).mp hmem
    simp only [sshPublicKeyValuePattern, matches_seq, matches_group, matches_alt, matches_behind,
      matches_one, matches_oneOf, matches_lit, matches_plus_one] at hmatch
    obtain ⟨lead, _, _, _, htext, -, hlead, _, ⟨kind, _, _, _, rfl, -, hkind, gap, _, _, _, rfl, -,
      ⟨hgap, hspaces, -⟩, body, _, _, _, rfl, -, ⟨hne, hbody, -⟩, -⟩, -⟩ := hmatch
    obtain ⟨c, body, rfl⟩ := List.exists_cons_of_ne_nil hne
    refine ⟨lead ++ (kind ++ (gap ++ [c])), ?_, lead, kind, gap, c, rfl, ?_, ?_, ⟨hgap, hspaces⟩,
      hbody c List.mem_cons_self⟩
    · rw [hs, htext]
      simp
    · exact hlead.imp (fun h => ⟨h.1, h.2.1⟩) fun h => h.1
    · refine hkind.imp And.left ?_
      rintro ⟨u, v, _, _, rfl, -, ⟨rfl, -⟩, hv, hall, -⟩
      exact ⟨v, rfl, hv, hall⟩
  · rintro ⟨w, ⟨r, rfl⟩, lead, kind, gap, c, rfl, hlead, hkind, hgap, hc⟩
    have hmatch : sshPublicKeyValuePattern.Matches b (lead ++ (kind ++ (gap ++ [c]))) r
        [(1, kind ++ (gap ++ [c]))] := by
      simp only [sshPublicKeyValuePattern, matches_seq, matches_group, matches_alt, matches_behind,
        matches_one, matches_oneOf, matches_lit, matches_plus_one, matches_opt]
      refine ⟨lead, kind ++ (gap ++ [c]), [], [(1, kind ++ (gap ++ [c]))], rfl, rfl, ?_, [],
        ⟨kind, gap ++ [c], [], [], rfl, rfl, ?_, gap, [c], [], [], rfl, rfl, ⟨hgap.1, hgap.2, rfl⟩,
          [c], [], [], [], rfl, rfl, ⟨by simp, by simpa using hc, rfl⟩, .inr ⟨rfl, rfl⟩⟩, rfl⟩
      · exact hlead.imp (fun h => ⟨h.1, h.2, rfl⟩) fun h => ⟨h, rfl⟩
      · refine hkind.imp (fun h => ⟨h, rfl⟩) ?_
        rintro ⟨v, rfl, hv, hall⟩
        exact ⟨_, v, [], [], rfl, rfl, ⟨rfl, rfl⟩, hv, hall, rfl⟩
    have hmem := (mem_run sshPublicKeyValuePattern b _ ⟨_, r, _⟩).mpr ⟨rfl, hmatch⟩
    rw [found, List.find?_isSome]
    exact ⟨_, hmem, by simp⟩

/-! ### Texts without public keys -/

/-- No public key begins in a text. -/
def Keyless : List Marked → List Marked → Prop
  | _, [] => True
  | b, x :: t => found sshKeys b (x :: t) = none ∧ Keyless (x :: b) t

theorem keyScan_of_keyless {b t : List Marked} (h : Keyless b t) : keyScan 0 b t = t := by
  induction t generalizing b with
  | nil => rfl
  | cons x t ih => rw [keyScan_of_not_found h.1, ih h.2]

theorem keyless_of_append {b u t : List Marked} (h : Keyless b (u ++ t)) :
    Keyless (u.reverse ++ b) t := by
  induction u generalizing b with
  | nil => exact h
  | cons x u ih =>
      rw [List.reverse_cons, List.append_assoc]
      exact ih h.2

theorem no_key_iff {b t : List Marked} :
    found sshKeys b t = none ↔ ∀ w, w <+: shown t → ¬ KeyStart (shown b) w := by
  have hfound := found_key_iff (shown b) (shown t)
  rw [found_sshKeys, Option.isSome_map] at hfound
  rw [← Option.not_isSome_iff_eq_none, hfound, not_exists]
  exact forall_congr' fun w => not_and

/-- What a text has before its first bracket, the other text has as well. -/
def Carries (t t' : List Marked) : Prop := ∀ w, w <+: shown t' → '[' ∉ w → w <+: shown t

theorem carries_refl (t : List Marked) : Carries t t := fun _ h _ => h

theorem carries_bracket {t t' : List Marked} (h : (shown t').head? = some '[') :
    Carries t t' := by
  intro w hw hbracket
  cases w with
  | nil => exact List.nil_prefix
  | cons c w =>
      obtain ⟨r, hr⟩ := hw
      rw [← hr] at h
      cases h
      exact absurd List.mem_cons_self hbracket

theorem carries_cons {t t' : List Marked} (x : Marked) (h : Carries t t') :
    Carries (x :: t) (x :: t') := by
  intro w hw hbracket
  cases w with
  | nil => exact List.nil_prefix
  | cons c w =>
      change c :: w <+: x.1 :: shown t' at hw
      rw [List.cons_prefix_cons] at hw
      rw [List.mem_cons, not_or] at hbracket
      change c :: w <+: x.1 :: shown t
      rw [List.cons_prefix_cons]
      exact ⟨hw.1, h w hw.2 hbracket.2⟩

theorem carries_append {t t' : List Marked} (f : List Marked) (h : Carries t t') :
    Carries (f ++ t) (f ++ t') := by
  induction f with
  | nil => exact h
  | cons x f ih => exact carries_cons x ih

/-- Where nothing was found, nothing is found in a text that reads the same up to a bracket. -/
theorem no_key_of_carries {b b' t t' : List Marked} (h : found sshKeys b t = none)
    (hline : StartsLine (shown b') → StartsLine (shown b)) (hcarries : Carries t t') :
    found sshKeys b' t' = none := by
  rw [no_key_iff] at h ⊢
  intro w hw hstart
  exact h w (hcarries w hw (bracket_notMem_keyStart hstart)) (hstart.mono hline)

theorem not_startsLine {d : Char} (hd : d ≠ '\n') (b : Str) : ¬ StartsLine (d :: b) := by
  simpa [StartsLine] using hd

/-- No public key begins in a stretch without white space inside a line. -/
theorem keyless_region {d : Marked} (hd : d.1 ≠ '\n') {region : List Marked}
    (hregion : ∀ x ∈ region, isSpace x.1 = false) {b t : List Marked}
    (h : Keyless (region.reverse ++ d :: b) t) : Keyless (d :: b) (region ++ t) := by
  induction region generalizing d b with
  | nil => exact h
  | cons x region ih =>
      rw [List.forall_mem_cons] at hregion
      have hx : x.1 ≠ '\n' := by
        intro heq
        rw [heq] at hregion
        exact absurd hregion.1 (by decide)
      rw [List.reverse_cons, List.append_assoc] at h
      exact ⟨no_marked_key_at hd hregion.1 b _, ih hx hregion.2 h⟩

/-- Nor does one begin in a mask. -/
theorem keyless_mask {l : Str} (hl : ∀ c ∈ l, isSpace c = false) {b t : List Marked}
    (h : Keyless ((plain ('[' :: l)).reverse ++ b) t) : Keyless b (plain ('[' :: l) ++ t) := by
  refine ⟨?_, keyless_region (by decide) ?_ ?_⟩
  · rw [no_key_iff]
    intro w hw hstart
    have hnil := carries_bracket (t := []) rfl w hw (bracket_notMem_keyStart hstart)
    rw [List.prefix_nil.mp hnil] at hstart
    exact not_keyStart_nil _ hstart
  · intro x hx
    obtain ⟨c, hc, rfl⟩ := List.mem_map.mp hx
    exact hl c hc
  · rw [plain, List.map_cons, List.reverse_cons, List.append_assoc] at h
    exact h

/-- In front of a mask nothing new is found. -/
theorem keyless_front {b b' f q q' : List Marked} (h : Keyless b (f ++ q))
    (hline : StartsLine (shown b') → StartsLine (shown b)) (hq : (shown q').head? = some '[')
    (hrest : Keyless (f.reverse ++ b') q') : Keyless b' (f ++ q') := by
  induction f generalizing b b' with
  | nil => exact hrest
  | cons x f ih =>
      rw [List.reverse_cons, List.append_assoc] at hrest
      refine ⟨no_key_of_carries h.1 hline ?_, ih h.2 (fun hx => hx) hrest⟩
      exact carries_append (x :: f) (carries_bracket hq)

/-! ### The output of the masking -/

theorem carries_keyScan (b t : List Marked) : Carries t (keyScan 0 b t) := by
  induction b, t using scan_induction (p := sshKeys) with
  | nil b => exact carries_refl []
  | skipped b x t hfound ih =>
      rw [keyScan_of_not_found hfound]
      exact carries_cons x ih
  | matched b t m hfound ih =>
      rw [keyScan_of_found hfound]
      exact carries_bracket rfl

theorem keyMask_tail : ∀ c ∈ keyMask.tail, isSpace c = false := forall_mem_of_all (by decide)

theorem redacted_tail : ∀ c ∈ redacted.tail, isSpace c = false := forall_mem_of_all (by decide)

/-- The masking of the public keys leaves none. -/
theorem keyless_keyScan (b t b' : List Marked)
    (hline : StartsLine (shown b') → StartsLine (shown b)) : Keyless b' (keyScan 0 b t) := by
  induction b, t using scan_induction (p := sshKeys) generalizing b' with
  | nil b => exact trivial
  | skipped b x t hfound ih =>
      rw [keyScan_of_not_found hfound]
      exact ⟨no_key_of_carries hfound hline (carries_cons x (carries_keyScan (x :: b) t)),
        ih (x :: b') fun hx => hx⟩
  | matched b t m hfound ih =>
      rw [keyScan_of_found hfound]
      refine keyless_mask keyMask_tail (ih _ fun hx => ?_)
      -- the text behind a mask does not begin a line
      exact absurd hx (not_startsLine (d := ']') (by decide) _)

theorem carries_urlScan (b t : List Marked) : Carries t (urlScan b t) := by
  induction b, t using scan_induction (p := urlCredentials) with
  | nil b => exact carries_refl []
  | skipped b x t hfound ih =>
      rw [urlScan_of_not_found hfound]
      exact carries_cons x ih
  | matched b t m hfound ih =>
      obtain ⟨-, -, heq⟩ := found_eq_some hfound
      obtain ⟨front, password, sign, u, hm⟩ := credentials_of_found hfound
      rw [urlScan_of_found hfound, hm.masked, heq, hm.text]
      simp only [List.append_assoc]
      exact carries_append front (carries_bracket rfl)

/-- The masking of the credentials makes no public key. -/
theorem keyless_urlScan (b t b' : List Marked) (h : Keyless b t)
    (hline : StartsLine (shown b') → StartsLine (shown b)) : Keyless b' (urlScan b t) := by
  induction b, t using scan_induction (p := urlCredentials) generalizing b' with
  | nil b => exact trivial
  | skipped b x t hfound ih =>
      rw [urlScan_of_not_found hfound]
      exact ⟨no_key_of_carries h.1 hline (carries_cons x (carries_urlScan (x :: b) t)),
        ih (x :: b') h.2 fun hx => hx⟩
  | matched b t m hfound ih =>
      obtain ⟨-, -, heq⟩ := found_eq_some hfound
      obtain ⟨front, password, sign, u, hm⟩ := credentials_of_found hfound
      rw [heq] at h
      have hsign : sign.1 ≠ '\n' := by
        rw [hm.sign_at]
        decide
      have hspace : isSpace sign.1 = false := by
        rw [hm.sign_at]
        decide
      have htail := ih (sign :: ((plain redacted).reverse ++ (front.reverse ++ b')))
        (keyless_of_append h) fun hx => absurd hx (not_startsLine hsign _)
      rw [urlScan_of_found hfound, hm.masked]
      rw [hm.text] at h
      simp only [List.append_assoc] at h ⊢
      refine keyless_front h hline rfl (keyless_mask redacted_tail ⟨?_, htail⟩)
      exact no_marked_key_at (d := (']', false)) (by decide) hspace _ _

/-! ### Credentials in the output -/

/-- A text has one stretch before its first separator. -/
theorem first_unique {α : Type} {p : α → Prop} {u v s w : List α} {a c : α} (ha : p a) (hc : p c)
    (hu : ∀ x ∈ u, ¬ p x) (hv : ∀ x ∈ v, ¬ p x) (h : u ++ a :: s = v ++ c :: w) :
    u = v ∧ a = c ∧ s = w := by
  rcases List.append_eq_append_iff.mp h with ⟨l, rfl, hl⟩ | ⟨l, rfl, hl⟩
  · cases l with
    | nil =>
        cases hl
        exact ⟨by rw [List.append_nil], rfl, rfl⟩
    | cons x l =>
        cases hl
        exact absurd ha (hv a (by simp))
  · cases l with
    | nil =>
        cases hl
        exact ⟨by rw [List.append_nil], rfl, rfl⟩
    | cons x l =>
        cases hl
        exact absurd hc (hu c (by simp))

theorem at_notMem_redacted {u : Str} (h : IsName u) : '@' ∉ opening u ++ redacted := by
  rw [List.mem_append, not_or]
  exact ⟨at_notMem_opening h, by decide⟩

/-- Up to the first at sign the output is the text, or a password is masked there. -/
theorem before_at {b t : List Marked} {v w : Str} (h : shown (urlScan b t) = v ++ '@' :: w)
    (hv : '@' ∉ v) : ∃ v' w', shown t = v' ++ '@' :: w' ∧ '@' ∉ v' ∧
      (v' = v ∨ ∃ y u z, IsName u ∧ z ≠ [] ∧ v = y ++ (opening u ++ redacted) ∧
        v' = y ++ (opening u ++ z)) := by
  induction b, t using scan_induction (p := urlCredentials) generalizing v with
  | nil b =>
      have hlength := congrArg List.length h
      rw [List.length_append, List.length_cons] at hlength
      exact absurd hlength.symm (Nat.succ_ne_zero _)
  | skipped b x t hfound ih =>
      rw [urlScan_of_not_found hfound] at h
      cases v with
      | nil =>
          have hx : x.1 = '@' := (List.cons.inj h).1
          refine ⟨[], shown t, ?_, List.not_mem_nil, .inl rfl⟩
          rw [← hx]
          rfl
      | cons c v =>
          obtain ⟨hc, htail⟩ := List.cons.inj h
          rw [List.mem_cons, not_or] at hv
          obtain ⟨v', w', ht, hv', hor⟩ := ih htail hv.2
          refine ⟨c :: v', w', ?_, ?_, ?_⟩
          · exact congrArg₂ List.cons hc ht
          · rw [List.mem_cons, not_or]
            exact ⟨hv.1, hv'⟩
          · refine hor.imp (congrArg (c :: ·)) ?_
            rintro ⟨y, u, z, hname, hz, rfl, rfl⟩
            exact ⟨c :: y, u, z, hname, hz, rfl, rfl⟩
  | matched b t m hfound ih =>
      obtain ⟨-, -, heq⟩ := found_eq_some hfound
      obtain ⟨front, password, sign, u, hm⟩ := credentials_of_found hfound
      rw [urlScan_of_found hfound, hm.masked] at h
      simp only [shown_append, shown_plain, hm.front_shown, List.append_assoc] at h
      change opening u ++ (redacted ++ sign.1 :: shown (urlScan _ m.rest)) = _ at h
      rw [hm.sign_at, ← List.append_assoc] at h
      have hmasked := at_notMem_redacted hm.name
      have hfirst : v = opening u ++ redacted :=
        (first_unique (p := (· = '@')) rfl rfl (fun _ hx heq => hv (heq ▸ hx))
          (fun _ hx heq => hmasked (heq ▸ hx)) h.symm).1
      refine ⟨opening u ++ shown password, shown m.rest, ?_, ?_, .inr ⟨[], u, shown password,
        hm.name, ?_, hfirst, rfl⟩⟩
      · rw [heq, hm.text]
        simp only [shown_append, hm.front_shown]
        rw [List.append_assoc]
        change _ ++ ([sign.1] ++ _) = _
        rw [hm.sign_at]
        rfl
      · rw [List.mem_append, not_or]
        exact ⟨at_notMem_opening hm.name, hm.password_at⟩
      · intro hnil
        exact hm.password_ne (List.map_eq_nil_iff.mp hnil)

/-- Where no credential was found, none is found before the masked text. -/
theorem no_credential {b b' t : List Marked} {x : Marked}
    (h : found urlCredentials b (x :: t) = none) (b₁ : List Marked) :
    found urlCredentials b₁ (x :: urlScan b' t) = none := by
  by_contra hsome
  obtain ⟨m, hm⟩ := Option.ne_none_iff_exists'.mp hsome
  obtain ⟨-, -, heq⟩ := found_eq_some hm
  obtain ⟨front, password, sign, u, hc⟩ := credentials_of_found hm
  have hne : shown password ≠ [] := fun hnil => hc.password_ne (List.map_eq_nil_iff.mp hnil)
  have hshown : x.1 :: shown (urlScan b' t) =
      (opening u ++ shown password) ++ '@' :: shown m.rest := by
    have hmap := congrArg shown heq
    rw [hc.text] at hmap
    simp only [shown_append, hc.front_shown] at hmap
    rw [List.append_assoc] at hmap
    change _ = _ ++ ([sign.1] ++ _) at hmap
    rw [hc.sign_at] at hmap
    exact hmap
  have hat : '@' ∉ opening u ++ shown password := by
    rw [List.mem_append, not_or]
    exact ⟨at_notMem_opening hc.name, hc.password_at⟩
  -- then the text before the masking has a credential there as well
  have hfound : ∀ {r w : Str}, r ≠ [] → '@' ∉ opening u ++ r →
      shown (x :: t) = (opening u ++ r) ++ '@' :: w → False := by
    intro r w hr hat' ht
    rw [List.mem_append, not_or] at hat'
    rw [List.append_assoc] at ht
    obtain ⟨m', hm'⟩ := found_of_opening (b := b) hc.name hr hat'.2 ht
    rw [h] at hm'
    cases hm'
  obtain ⟨v, hv, hx⟩ : ∃ v, opening u ++ shown password = x.1 :: v ∧
      shown (urlScan b' t) = v ++ '@' :: shown m.rest :=
    ⟨_, by
      rw [opening] at hshown ⊢
      obtain ⟨hx, -⟩ := List.cons.inj hshown
      rw [hx]
      rfl, (List.cons.inj hshown).2⟩
  rw [hv, List.mem_cons, not_or] at hat
  obtain ⟨v', w', ht, hat', rfl | ⟨y, u', z, hname, hz, rfl, rfl⟩⟩ := before_at hx hat.2
  · refine hfound hne (w := w') ?_ ?_
    · rw [hv, List.mem_cons, not_or]
      exact hat
    · rw [hv]
      exact congrArg (x.1 :: ·) ht
  · have hopened : Opened (x.1 :: (y ++ opening u')) :=
      ⟨x.1 :: y, u', [], by simp, hname, List.not_mem_nil⟩
    have hsplit : opening u ++ shown password = (x.1 :: (y ++ opening u')) ++ redacted := by
      rw [hv]
      simp
    obtain ⟨l, hl⟩ : ∃ l, x.1 :: (y ++ opening u') = opening u ++ l := by
      rcases List.append_eq_append_iff.mp hsplit with ⟨l, hl, -⟩ | ⟨l, hl, -⟩
      · exact ⟨l, hl⟩
      · cases l with
        | nil => exact ⟨[], by rw [hl, List.append_nil, List.append_nil]⟩
        | cons c l =>
            exact absurd hopened (not_opened_of_append hl.symm hc.name (List.cons_ne_nil c l))
    have htext : x.1 :: (y ++ (opening u' ++ z)) = opening u ++ (l ++ z) := by
      have hcongr := congrArg (· ++ z) hl
      simpa using hcongr
    refine hfound (r := l ++ z) (w := w') (by simp [hz]) ?_ ?_
    · rw [← htext, List.mem_cons, not_or]
      exact ⟨hat.1, hat'⟩
    · rw [← htext]
      exact congrArg (x.1 :: ·) ht

theorem opening_injective {u u' r r' : Str} (hu : IsName u) (hu' : IsName u')
    (h : opening u ++ r = opening u' ++ r') : u = u' := by
  simp only [opening, List.append_assoc] at h
  have htail := List.append_cancel_left h
  exact (first_unique (p := (· = ':')) rfl rfl (fun c hc => (hu.2 c hc).1)
    (fun c hc => (hu'.2 c hc).1) htail).1

/-- A credential is found with its parts. -/
theorem found_credential {α : Type} {f : α → Char} (rest : List α) {front password : List α}
    {sign : α} {u : Str} (hfront : front.map f = opening u) (hname : IsName u)
    (hne : password ≠ []) (hpassword : '@' ∉ password.map f) (hsign : f sign = '@')
    (b : List α) : ∃ m, found (urlCredentialPattern.comap f) b
      (front ++ password ++ [sign] ++ rest) = some m ∧ UrlMatch f m front password sign u ∧
        m.rest = rest := by
  have hmap : (front ++ password ++ [sign] ++ rest).map f =
      opening u ++ (password.map f ++ '@' :: rest.map f) := by
    simp only [List.map_append, hfront, List.append_assoc]
    change _ ++ (_ ++ f sign :: rest.map f) = _
    rw [hsign]
  obtain ⟨m, hm⟩ := found_url_of_opening (b := b) hname
    (fun hnil => hne (List.map_eq_nil_iff.mp hnil)) hpassword hmap
  obtain ⟨-, -, heq⟩ := found_eq_some hm
  obtain ⟨front', password', sign', u', hc⟩ := urlMatch_of_found hm
  have hat : ∀ {l : List α}, '@' ∉ l.map f → ∀ x ∈ l, ¬ f x = '@' := fun hl x hx hxat =>
    hl (List.mem_map.mpr ⟨x, hx, hxat⟩)
  have hleft : '@' ∉ (front ++ password).map f := by
    rw [List.map_append, hfront, List.mem_append, not_or]
    exact ⟨at_notMem_opening hname, hpassword⟩
  have hright : '@' ∉ (front' ++ password').map f := by
    rw [List.map_append, hc.front_map, List.mem_append, not_or]
    exact ⟨at_notMem_opening hc.name, hc.password_at⟩
  rw [hc.text] at heq
  simp only [List.append_assoc, List.singleton_append] at heq
  rw [← List.append_assoc, ← List.append_assoc] at heq
  obtain ⟨hpair, rfl, hrest⟩ := first_unique (p := (f · = '@')) hsign hc.sign_at (hat hleft)
    (hat hright) heq
  have hmaps := congrArg (List.map f) hpair
  rw [List.map_append, List.map_append, hfront, hc.front_map] at hmaps
  obtain rfl : u = u' := opening_injective hname hc.name hmaps
  have hlength : front.length = front'.length := by
    have hlength := congrArg List.length (hfront.trans hc.front_map.symm)
    rwa [List.length_map, List.length_map] at hlength
  obtain ⟨rfl, rfl⟩ := List.append_inj hpair hlength
  exact ⟨m, hm, hc, hrest.symm⟩

/-- A masked credential is found and masked again. -/
theorem found_masked (rest : List Marked) {front : List Marked} {sign : Marked} {u : Str}
    (hfront : shown front = opening u) (hname : IsName u) (hsign : sign.1 = '@')
    (b : List Marked) : ∃ m, found urlCredentials b (front ++ plain redacted ++ [sign] ++ rest) =
      some m ∧ UrlMatch Prod.fst m front (plain redacted) sign u ∧ m.rest = rest :=
  found_credential rest hfront hname (by decide) (by decide) hsign b

/-- The masking of the credentials leaves a masked text as it is. -/
theorem urlScan_urlScan (b t b' : List Marked) : urlScan b' (urlScan b t) = urlScan b t := by
  induction b, t using scan_induction (p := urlCredentials) generalizing b' with
  | nil b => rfl
  | skipped b x t hfound ih =>
      rw [urlScan_of_not_found hfound, urlScan_of_not_found (no_credential hfound b'), ih]
  | matched b t m hfound ih =>
      obtain ⟨front, password, sign, u, hm⟩ := credentials_of_found hfound
      obtain ⟨m', hm', hmatch, hrest⟩ :=
        found_masked (urlScan (m.text.reverse ++ b) m.rest) hm.front_shown hm.name
          hm.sign_at b'
      rw [urlScan_of_found hfound, hm.masked, urlScan_of_found hm', hmatch.credentials.masked,
        hrest, ih]

/-- A text that is taken for a URL still is one when its credentials are masked. -/
theorem hasUrl_urlScan (b t : List Marked) (h : hasUrl (shown t) = true) :
    hasUrl (shown (urlScan b t)) = true := by
  rw [hasUrl, Bool.and_eq_true, contains_iff, contains_iff] at h ⊢
  have hslashes : urlScan b t = t ∨ ("://" : Str) <:+: shown (urlScan b t) := by
    clear h
    induction b, t using scan_induction (p := urlCredentials) with
    | nil b => exact .inl rfl
    | skipped b x t hfound ih =>
        rw [urlScan_of_not_found hfound]
        exact ih.imp (congrArg (x :: ·)) List.infix_cons
    | matched b t m hfound ih =>
        obtain ⟨front, password, sign, u, hm⟩ := credentials_of_found hfound
        rw [urlScan_of_found hfound, hm.masked]
        simp only [shown_append, hm.front_shown, opening, List.append_assoc]
        exact .inr ⟨[], _, rfl⟩
  refine ⟨?_, ?_⟩
  · rcases hslashes with hsame | hwithin
    · rw [hsame]
      exact h.1
    · exact hwithin
  · obtain ⟨x, hx, hat⟩ := List.mem_map.mp (h.2.subset (List.mem_singleton.mpr rfl))
    have hmem : '@' ∈ shown (urlScan b t) :=
      List.mem_map.mpr ⟨x, at_mem_urlScan b t hx hat, hat⟩
    obtain ⟨u, v, huv⟩ := List.append_of_mem hmem
    exact ⟨u, v, by rw [huv, List.append_assoc]; rfl⟩

/-! ### Texts -/

/-- Redacting a redacted text changes nothing, marks included. -/
theorem trace_trace (t : List Marked) : trace (trace t) = trace t := by
  have hkeyless : Keyless [] (maskKeys t) := keyless_keyScan [] t [] fun h => h
  have hkeys : ∀ {s : List Marked}, Keyless [] s → maskKeys s = s := fun h => keyScan_of_keyless h
  have hmasked : ∀ s : List Marked, keysMasked (shown s) = shown (maskKeys s) := fun s =>
    (shown_maskKeys s).symm
  have ht := trace_eq t
  rw [hmasked] at ht
  split at ht
  · rename_i hurl
    rw [ht, maskUrls_eq, trace_eq, hmasked,
      hkeys (keyless_urlScan [] (maskKeys t) [] hkeyless fun h => h),
      if_pos (hasUrl_urlScan [] (maskKeys t) hurl), maskUrls_eq, urlScan_urlScan]
  · rename_i hurl
    split at ht
    · rw [ht]
      decide
    · rename_i hmarker
      rw [ht, trace_eq, hmasked, hkeys hkeyless, if_neg hurl, if_neg hmarker]

theorem redactString_redactString (s : Str) : redactString (redactString s) = redactString s := by
  have h := congrArg shown (trace_trace (plain s))
  rw [shown_trace, shown_trace, shown_plain] at h
  exact h

end Gjallar.RedactionTraces

import Gjallar.RedactionTraces

/-!
# The masking of credentials in URLs

Between two at signs the masking begins behind the first `://name:` and goes on to the next at
sign. At signs themselves always remain.
-/
namespace Gjallar.RedactionTraces

open Gjallar.Text Gjallar.Redaction Gjallar.Regex Gjallar.Regex.Pattern

/-- The name of a user in a URL. -/
def IsName (u : Str) : Prop := u ≠ [] ∧ ∀ c ∈ u, c ≠ ':' ∧ c ≠ '/' ∧ c ≠ '@'

/-- What comes before a password. -/
def opening (u : Str) : Str := ("://" : Str) ++ (u ++ (":" : Str))

/-- Behind the last at sign a text has a name and a colon after `://`. -/
def Opened (s : Str) : Prop := ∃ y u z, s = y ++ (opening u ++ z) ∧ IsName u ∧ '@' ∉ z

theorem at_notMem_opening {u : Str} (h : IsName u) : '@' ∉ opening u := by
  have hu : '@' ∉ u := fun hat => (h.2 '@' hat).2.2 rfl
  have hslashes : '@' ∉ ("://" : Str) := by decide
  have hcolon : '@' ∉ (":" : Str) := by decide
  rw [opening, List.mem_append, List.mem_append, not_or, not_or]
  exact ⟨hslashes, hu, hcolon⟩

theorem not_opened_nil : ¬ Opened [] := by
  rintro ⟨y, u, z, h, -, -⟩
  have hlength := congrArg List.length h
  have hslashes : ("://" : Str).length = 3 := rfl
  simp only [opening, List.length_append, List.length_nil, hslashes] at hlength
  omega

/-- Only the text behind an at sign counts. -/
theorem opened_after_at (s t : Str) : Opened (s ++ '@' :: t) ↔ Opened t := by
  constructor
  · rintro ⟨y, u, z, h, hname, hz⟩
    have hat : '@' ∉ opening u ++ z := by
      rw [List.mem_append, not_or]
      exact ⟨at_notMem_opening hname, hz⟩
    rcases List.append_eq_append_iff.mp h with ⟨v, rfl, hv⟩ | ⟨v, -, hv⟩
    · cases v with
      | nil =>
          rw [List.nil_append] at hv
          rw [← hv] at hat
          exact absurd List.mem_cons_self hat
      | cons c v =>
          cases hv
          exact ⟨v, u, z, rfl, hname, hz⟩
    · rw [hv] at hat
      exact absurd (List.mem_append_right v List.mem_cons_self) hat
  · rintro ⟨y, u, z, rfl, hname, hz⟩
    exact ⟨s ++ '@' :: y, u, z, by simp, hname, hz⟩

/-! ### One credential -/

/-- What a match consists of, on texts over any alphabet. -/
structure UrlMatch {α : Type} (f : α → Char) (m : Match α) (front password : List α) (sign : α)
    (u : Str) : Prop where
  text : m.text = front ++ password ++ [sign]
  first : m.group 1 = some front
  second : m.group 2 = some [sign]
  front_map : front.map f = opening u
  name : IsName u
  password_ne : password ≠ []
  password_at : '@' ∉ password.map f
  sign_at : f sign = '@'

theorem urlMatch_of_found {α : Type} {f : α → Char} {b t : List α} {m : Match α}
    (h : found (urlCredentialPattern.comap f) b t = some m) :
    ∃ front password sign u, UrlMatch f m front password sign u := by
  obtain ⟨hmem, -, -⟩ := found_eq_some h
  obtain ⟨-, hm⟩ := (mem_run _ _ _ _).mp hmem
  simp only [urlCredentialPattern, comap, matches_seq, matches_group] at hm
  obtain ⟨front, tail, _, _, htext, hgroups, ⟨g, ⟨slashes, x, g₁, _, rfl, rfl, hslashes, name,
    colon, g₂, g₃, rfl, rfl, hname, hcolon⟩, rfl⟩, password, sign, g₄, _, rfl, rfl, hpassword,
    ⟨g₅, hsign, rfl⟩⟩ := hm
  have hs := (matches_lit _ _ _ _ _).mp (matches_comap hslashes)
  have hn := (matches_plus_one _ _ _ _ _).mp (matches_comap hname)
  have hc := (matches_lit _ _ _ _ _).mp (matches_comap hcolon)
  have hp := (matches_plus_one _ _ _ _ _).mp (matches_comap hpassword)
  have ha := (matches_lit _ _ _ _ _).mp (matches_comap hsign)
  obtain ⟨a, rfl, ha'⟩ : ∃ a : α, sign = [a] ∧ f a = '@' := by
    have hsign' : sign.map f = ['@'] := ha.1
    obtain ⟨a, rfl, h1⟩ := List.map_eq_singleton_iff.mp hsign'
    exact ⟨a, rfl, h1⟩
  have hg₄ : g₄ = [] := List.map_eq_nil_iff.mp hp.2.2
  have hg₅ : g₅ = [] := List.map_eq_nil_iff.mp ha.2
  have hgroup : ∀ n, m.group n = ([(2, [a]), (1, slashes ++ (name ++ colon))] ++
      (g₁ ++ (g₂ ++ g₃)).reverse).lookup n := by
    intro n
    rw [Match.group, hgroups, hg₄, hg₅]
    simp
  refine ⟨slashes ++ (name ++ colon), password, a, name.map f, ?_, (hgroup 1).trans rfl,
    (hgroup 2).trans rfl, ?_, ?_, ?_, ?_, ha'⟩
  · simp only [htext, List.append_assoc]
  · rw [List.map_append, List.map_append, opening]
    exact congrArg₂ _ hs.1 (congrArg (name.map f ++ ·) hc.1)
  · refine ⟨hn.1, fun c hc => ?_⟩
    have hall := hn.2.1 c hc
    simp only [ne_eq, decide_not, Bool.and_eq_true, Bool.not_eq_true',
      decide_eq_false_iff_not] at hall
    exact ⟨hall.1.1, hall.1.2, hall.2⟩
  · rintro rfl
    exact hp.1 rfl
  · intro hat
    have hall := hp.2.1 '@' hat
    simp at hall

/-- A credential at the beginning of a text is found. -/
theorem found_url_of_opening {α : Type} {f : α → Char} {b t : List α} {u r w : Str}
    (hname : IsName u) (hne : r ≠ []) (hr : '@' ∉ r)
    (ht : t.map f = opening u ++ (r ++ '@' :: w)) :
    ∃ m, found (urlCredentialPattern.comap f) b t = some m := by
  have hmatch : urlCredentialPattern.Matches (b.map f) (opening u ++ (r ++ ['@'])) w
      ([(1, opening u)] ++ [(2, ['@'])]) := by
    simp only [urlCredentialPattern, matches_seq, matches_group, matches_lit, matches_plus_one]
    refine ⟨opening u, r ++ ['@'], [(1, opening u)], [(2, ['@'])], rfl, rfl, ⟨[], ?_, rfl⟩,
      ⟨r, ['@'], [], [(2, ['@'])], rfl, rfl, ⟨hne, ?_, rfl⟩, ⟨[], ⟨rfl, rfl⟩, rfl⟩⟩⟩
    · refine ⟨_, _, [], [], rfl, rfl, ⟨rfl, rfl⟩, ⟨u, _, [], [], rfl, rfl, ⟨hname.1, ?_, rfl⟩,
        ⟨rfl, rfl⟩⟩⟩
      intro c hc
      simpa [and_assoc] using hname.2 c hc
    · intro c hc
      have hat : c ≠ '@' := fun heq => hr (heq ▸ hc)
      simpa using hat
  have hmem := (mem_run urlCredentialPattern (b.map f) _ ⟨_, w, _⟩).mpr ⟨rfl, hmatch⟩
  have hshown : opening u ++ (r ++ ['@']) ++ w = t.map f := by
    rw [ht]
    simp
  rw [hshown] at hmem
  have hsome : (found urlCredentialPattern (b.map f) (t.map f)).isSome = true := by
    rw [found, List.find?_isSome]
    exact ⟨_, hmem, by simp [opening]⟩
  rw [found_comap, Option.isSome_map] at hsome
  exact Option.isSome_iff_exists.mp hsome

/-- What a match in a marked text consists of. -/
structure Credentials (m : Match Marked) (front password : List Marked) (sign : Marked)
    (u : Str) : Prop where
  text : m.text = front ++ password ++ [sign]
  masked : maskedCredential m = front ++ plain redacted ++ [sign]
  front_shown : shown front = opening u
  name : IsName u
  password_ne : password ≠ []
  password_at : '@' ∉ shown password
  sign_at : sign.1 = '@'

theorem UrlMatch.credentials {m : Match Marked} {front password : List Marked} {sign : Marked}
    {u : Str} (h : UrlMatch Prod.fst m front password sign u) :
    Credentials m front password sign u := by
  refine ⟨h.text, ?_, h.front_map, h.name, h.password_ne, h.password_at, h.sign_at⟩
  rw [maskedCredential, h.first, h.second]
  rfl

theorem credentials_of_found {b t : List Marked} {m : Match Marked}
    (h : found urlCredentials b t = some m) :
    ∃ front password sign u, Credentials m front password sign u := by
  obtain ⟨front, password, sign, u, hm⟩ := urlMatch_of_found h
  exact ⟨front, password, sign, u, hm.credentials⟩

/-- A credential at the beginning of a marked text is found. -/
theorem found_of_opening {b t : List Marked} {u r w : Str} (hname : IsName u) (hne : r ≠ [])
    (hr : '@' ∉ r) (ht : shown t = opening u ++ (r ++ '@' :: w)) :
    ∃ m, found urlCredentials b t = some m := found_url_of_opening hname hne hr ht

/-! ### A text -/

/-- What a scan for credentials makes of a text. -/
def urlScan (b t : List Marked) : List Marked :=
  rewritten maskedCredential (scan urlCredentials 0 b t)

theorem maskUrls_eq (t : List Marked) : maskUrls t = urlScan [] t := rfl

theorem urlScan_of_found {b t : List Marked} {m : Match Marked}
    (h : found urlCredentials b t = some m) :
    urlScan b t = maskedCredential m ++ urlScan (m.text.reverse ++ b) m.rest := by
  rw [urlScan, scan_of_found h, rewritten_found]
  rfl

theorem urlScan_of_not_found {b : List Marked} {x : Marked} {t : List Marked}
    (h : found urlCredentials b (x :: t) = none) :
    urlScan b (x :: t) = x :: urlScan (x :: b) t := by
  rw [urlScan, scan_of_not_found h, rewritten_skipped]
  rfl

theorem clean_urlScan (b t : List Marked) (ht : Clean t) : Clean (urlScan b t) := by
  induction b, t using scan_induction (p := urlCredentials) with
  | nil b => exact fun x hx => by cases hx
  | skipped b x t hfound ih =>
      rw [clean_cons] at ht
      rw [urlScan_of_not_found hfound, clean_cons]
      exact ⟨ht.1, ih ht.2⟩
  | matched b t m hfound ih =>
      obtain ⟨-, -, heq⟩ := found_eq_some hfound
      obtain ⟨front, password, sign, u, hm⟩ := credentials_of_found hfound
      rw [heq, hm.text] at ht
      simp only [clean_append] at ht
      rw [urlScan_of_found hfound, hm.masked]
      simp only [clean_append]
      exact ⟨⟨⟨ht.1.1.1, clean_plain redacted⟩, ht.1.2⟩, ih ht.2⟩

/-- At signs remain, with their marks. -/
theorem at_mem_urlScan (b t : List Marked) {x : Marked} (hx : x ∈ t) (hat : x.1 = '@') :
    x ∈ urlScan b t := by
  induction b, t using scan_induction (p := urlCredentials) with
  | nil b => cases hx
  | skipped b y t hfound ih =>
      rw [urlScan_of_not_found hfound]
      rcases List.mem_cons.mp hx with rfl | hx
      · exact List.mem_cons_self
      · exact List.mem_cons_of_mem y (ih hx)
  | matched b t m hfound ih =>
      obtain ⟨-, -, heq⟩ := found_eq_some hfound
      obtain ⟨front, password, sign, u, hm⟩ := credentials_of_found hfound
      have hshown : ∀ {l : List Marked}, x ∈ l → '@' ∈ shown l := fun hl =>
        List.mem_map.mpr ⟨x, hl, hat⟩
      rw [urlScan_of_found hfound, hm.masked]
      rw [heq, hm.text] at hx
      rcases List.mem_append.mp hx with hx | hx
      · rcases List.mem_append.mp hx with hx | hx
        · rcases List.mem_append.mp hx with hx | hx
          · have hfront := hshown hx
            rw [hm.front_shown] at hfront
            exact absurd hfront (at_notMem_opening hm.name)
          · exact absurd (hshown hx) hm.password_at
        · exact List.mem_append_left _ (List.mem_append_right _ hx)
      · exact List.mem_append_right _ (ih hx)

/-- A text with a URL is never masked whole. -/
theorem redactString_ne_redacted {s : Str} (h : hasUrl (keysMasked s) = true) :
    redactString s ≠ redacted := by
  intro heq
  have hat : '@' ∈ shown (maskKeys (plain s)) := by
    rw [shown_maskKeys, shown_plain]
    rw [hasUrl, Bool.and_eq_true, contains_iff, contains_iff] at h
    exact h.2.subset (List.mem_singleton.mpr rfl)
  obtain ⟨x, hx, hxat⟩ := List.mem_map.mp hat
  have hmem : '@' ∈ shown (trace (plain s)) := by
    rw [trace_eq, shown_plain, if_pos h, maskUrls_eq]
    exact List.mem_map.mpr ⟨x, at_mem_urlScan [] _ hx hxat, hxat⟩
  rw [shown_trace, shown_plain, heq] at hmem
  exact absurd hmem (by decide)

/-! ### A password -/

theorem count_colon_opening (u : Str) : (opening u).count ':' = u.count ':' + 2 := by
  have hslashes : ("://" : Str).count ':' = 1 := by decide
  have hcolon : (":" : Str).count ':' = 1 := by decide
  rw [opening, List.count_append, List.count_append, hslashes, hcolon]
  omega

/-- A text is not opened before the colon that opens it. -/
theorem not_opened_of_append {s t u : Str} (h : s ++ t = opening u) (hname : IsName u)
    (ht : t ≠ []) : ¬ Opened s := by
  rintro ⟨y, u', z, rfl, -, -⟩
  have hlast : ':' ∈ t := by
    have hend := congrArg List.getLast? h
    rw [List.getLast?_append_of_ne_nil _ ht, opening, ← List.append_assoc,
      List.getLast?_append_of_ne_nil _ (by decide)] at hend
    exact List.mem_of_mem_getLast? hend
  have hcount := congrArg (List.count ':') h
  have hu : u.count ':' = 0 := List.count_eq_zero.mpr fun hc => (hname.2 ':' hc).1 rfl
  have ht' : 0 < t.count ':' := List.count_pos_iff.mpr hlast
  simp only [List.count_append, count_colon_opening] at hcount
  omega

section Password

variable {password : List Marked} (hne : password ≠ []) (hmarked : ∀ x ∈ password, x.2 = true)
  (hat : '@' ∉ shown password) {sign : Marked} (hsign : sign = ('@', false))
  {after : List Marked} (hafter : Clean after)

include hne hmarked in
theorem not_clean_password (t : List Marked) : ¬ Clean (password ++ t) := by
  obtain ⟨x, l, rfl⟩ := List.exists_cons_of_ne_nil hne
  intro h
  have hx := h x (by simp)
  rw [hmarked x (by simp)] at hx
  cases hx

include hat hsign in
/-- Without an at sign in the password the first at sign behind it ends a credential. -/
theorem credential_end {front password' tail : List Marked} {a : Marked} (ha : a.1 = '@')
    (hfront : '@' ∉ shown password')
    (h : password' ++ a :: tail = front ++ (password ++ sign :: after)) :
    (∃ rest, front = password' ++ a :: rest ∧ tail = rest ++ (password ++ sign :: after)) ∨
      (password' = front ++ password ∧ a = sign ∧ tail = after) := by
  have hpassword : a ∉ password := fun hmem => hat (List.mem_map.mpr ⟨a, hmem, ha⟩)
  rcases List.append_eq_append_iff.mp h with ⟨u, rfl, hu⟩ | ⟨u, rfl, hu⟩
  · cases u with
    | nil =>
        cases password with
        | nil =>
            cases hu
            exact .inr ⟨by simp, rfl, rfl⟩
        | cons x l =>
            cases hu
            exact absurd List.mem_cons_self hpassword
    | cons x u =>
        cases hu
        exact .inl ⟨u, rfl, rfl⟩
  · rcases List.append_eq_append_iff.mp hu with ⟨v, rfl, hv⟩ | ⟨v, rfl, hv⟩
    · cases v with
      | nil =>
          cases hv
          exact .inr ⟨by simp, rfl, rfl⟩
      | cons x v =>
          -- the at sign behind the password would stand before the end of the match
          cases hv
          rw [hsign, shown_append, shown_append] at hfront
          exact absurd (List.mem_append_right _ (List.mem_append_right _ List.mem_cons_self)) hfront
    · cases v with
      | nil =>
          cases hv
          exact .inr ⟨by simp, rfl, rfl⟩
      | cons x v =>
          cases hv
          exact absurd (List.mem_append_right u List.mem_cons_self) hpassword

include hne hmarked hat hsign hafter in
/-- A password is hidden exactly when the text before it is opened. -/
theorem clean_urlScan_iff (b front : List Marked) (hfront : Clean front) :
    Clean (urlScan b (front ++ (password ++ sign :: after))) ↔ Opened (shown front) := by
  generalize hn : front.length = n
  induction n using Nat.strong_induction_on generalizing b front with
  | _ n ih =>
  cases hfound : found urlCredentials b (front ++ (password ++ sign :: after)) with
  | none =>
      cases front with
      | nil =>
          obtain ⟨x, l, rfl⟩ := List.exists_cons_of_ne_nil hne
          rw [List.nil_append, List.cons_append] at hfound ⊢
          rw [urlScan_of_not_found hfound, clean_cons, hmarked x List.mem_cons_self]
          exact ⟨fun h => absurd h.1 (by decide), fun h => absurd h not_opened_nil⟩
      | cons x front =>
          rw [clean_cons] at hfront
          rw [List.length_cons] at hn
          have hrest := ih front.length (by omega) (x :: b) front hfront.2 rfl
          have hskip : Clean (urlScan b (x :: front ++ (password ++ sign :: after))) ↔
              Clean (urlScan (x :: b) (front ++ (password ++ sign :: after))) := by
            rw [List.cons_append] at hfound ⊢
            rw [urlScan_of_not_found hfound, clean_cons]
            exact and_iff_right hfront.1
          rw [hskip, hrest]
          constructor
          · rintro ⟨y, u, z, h, hname, hz⟩
            exact ⟨x.1 :: y, u, z, congrArg (x.1 :: ·) h, hname, hz⟩
          · rintro ⟨y, u, z, h, hname, hz⟩
            cases y with
            | nil =>
                -- a credential would begin here
                have hmatch := found_of_opening (b := b) (r := z ++ shown password)
                  (t := x :: front ++ (password ++ sign :: after)) (w := shown after) hname ?_ ?_ ?_
                · obtain ⟨m, hm⟩ := hmatch
                  rw [hfound] at hm
                  cases hm
                · intro hnil
                  exact hne (List.map_eq_nil_iff.mp (List.append_eq_nil_iff.mp hnil).2)
                · rw [List.mem_append, not_or]
                  exact ⟨hz, hat⟩
                · rw [shown_append, h, hsign, shown_append]
                  simp [shown]
            | cons c y =>
                exact ⟨y, u, z, (List.cons.inj h).2, hname, hz⟩
  | some m =>
      obtain ⟨-, -, heq⟩ := found_eq_some hfound
      obtain ⟨first, hidden, a, u, hm⟩ := credentials_of_found hfound
      have hscan : Clean (urlScan b (front ++ (password ++ sign :: after))) ↔
          (Clean first ∧ a.2 = false) ∧ Clean (urlScan (m.text.reverse ++ b) m.rest) := by
        rw [urlScan_of_found hfound, hm.masked, clean_append, clean_append, clean_append]
        have ha : Clean [a] ↔ a.2 = false := List.forall_mem_singleton
        rw [ha]
        simp only [clean_plain, and_true]
      have hbefore : '@' ∉ shown (first ++ hidden) := by
        rw [shown_append, List.mem_append, not_or, hm.front_shown]
        exact ⟨at_notMem_opening hm.name, hm.password_at⟩
      have htext : first ++ hidden ++ a :: m.rest = front ++ (password ++ sign :: after) := by
        rw [heq, hm.text]
        simp
      rw [hscan]
      rcases credential_end hat hsign hm.sign_at hbefore htext with
        ⟨rest, hinside, hrest⟩ | ⟨hwhole, rfl, hrest⟩
      · -- a credential before the password
        rw [hinside] at hfront hn ⊢
        simp only [clean_append, clean_cons] at hfront
        simp only [List.length_append, List.length_cons] at hn
        rw [hrest, ih rest.length (by omega) _ rest hfront.2.2 rfl, shown_append]
        change _ ↔ Opened (_ ++ a.1 :: shown rest)
        rw [hm.sign_at, opened_after_at]
        exact and_iff_right ⟨hfront.1.1, hfront.2.1⟩
      · -- the credential ends with the password
        rw [hrest]
        have hsigned : a.2 = false := by rw [hsign]
        have htail : Clean (urlScan (m.text.reverse ++ b) after) := clean_urlScan _ _ hafter
        simp only [hsigned, htail, and_true]
        rcases List.append_eq_append_iff.mp hwhole with ⟨v, rfl, hv⟩ | ⟨v, rfl, hv⟩
        · refine iff_of_true (clean_append.mp hfront).1 ⟨[], u, shown v, ?_, hm.name, ?_⟩
          · rw [shown_append, hm.front_shown, List.nil_append]
          · have hinside := hm.password_at
            rw [hv, shown_append, List.mem_append, not_or] at hinside
            exact hinside.1
        · cases v with
          | nil =>
              rw [List.append_nil] at hm ⊢
              exact iff_of_true hfront ⟨[], u, [], by simp [hm.front_shown], hm.name, by simp⟩
          | cons x v =>
              refine iff_of_false (fun hclean => ?_) ?_
              · rw [clean_append, clean_cons] at hclean
                have hx := hmarked x (by rw [hv]; simp)
                rw [hclean.2.1] at hx
                cases hx
              · refine not_opened_of_append (s := shown front) (t := shown (x :: v)) ?_ hm.name
                  (by simp [shown])
                rw [← shown_append, hm.front_shown]

end Password

end Gjallar.RedactionTraces

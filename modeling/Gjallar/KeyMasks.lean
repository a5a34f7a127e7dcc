import Gjallar.RedactionTraces

/-!
# The masking of public keys

A public key ends before a colon or at the end of its line, and it begins at a line or at white
space. So the masking takes a stretch of a line that has no white space and begins with a colon
either whole or not at all.
-/
namespace Gjallar.RedactionTraces

open Gjallar.Text Gjallar.Redaction Gjallar.Regex Gjallar.Regex.Pattern

/-! ### One public key -/

theorem text_of_keyMatch {b s : Str} {m : Match Char} (h : m ∈ sshPublicKeyValuePattern.run b s) :
    m.text ≠ [] := by
  obtain ⟨-, hm⟩ := (mem_run _ _ _ _).mp h
  simp only [sshPublicKeyValuePattern, matches_seq, matches_group, matches_plus_one] at hm
  obtain ⟨_, v, _, _, ht, -, -, _, ⟨_, w, _, _, hv, -, -, x, y, _, _, hw, -, ⟨hne, -, -⟩, -⟩, -⟩ :=
    hm
  rw [ht, hv, hw]
  simp [hne]

/-- The first match of the pattern is the one that a scan finds. -/
theorem head_of_found {p : Pattern Char} (hp : ∀ b s, ∀ m ∈ p.run b s, m.text ≠ []) {b s : Str}
    {m : Match Char} (h : found p b s = some m) : (p.run b s).head? = some m := by
  unfold found at h
  cases hrun : p.run b s with
  | nil =>
      rw [hrun] at h
      cases h
  | cons m' ms =>
      have hne : m'.text ≠ [] := hp b s m' (by rw [hrun]; exact List.mem_cons_self)
      rw [hrun, List.find?_cons_of_pos (by simpa using hne)] at h
      exact h

theorem no_colon_of_matches {p : Pattern Char} {b s : Str} {m : Match Char} (h : m ∈ p.run b s)
    (hp : ∀ b w a g, p.Matches b w a g → ':' ∉ w) : ':' ∉ m.text :=
  hp _ _ _ _ ((mem_run p b s m).mp h).2

theorem no_colon_of_all {p : Char → Bool} (hcolon : p ':' = false) {w : Str}
    (h : ∀ c ∈ w, p c = true) : ':' ∉ w := by
  intro hc
  rw [h ':' hc] at hcolon
  cases hcolon

/-- A public key has no colon, or it goes on to the end of the line. -/
theorem end_of_keyMatch {b s : Str} {m : Match Char}
    (h : (sshPublicKeyValuePattern.run b s).head? = some m) :
    ':' ∉ m.text ∨ ∀ c ∈ m.rest.head?, c = '\r' ∨ c = '\n' := by
  obtain ⟨m₁, hm₁, m₂, hm₂, rfl⟩ := head_seq h
  rw [run, List.head?_map] at hm₂
  obtain ⟨m₃, hm₃, rfl⟩ := Option.map_eq_some_iff.mp hm₂
  obtain ⟨kind, hkind, m₄, hm₄, rfl⟩ := head_seq hm₃
  obtain ⟨gap, hgap, m₅, hm₅, rfl⟩ := head_seq hm₄
  obtain ⟨body, hbody, comment, hcomment, rfl⟩ := head_seq hm₅
  rw [opt, run, List.head?_append] at hcomment
  cases hfirst : ((seq (plus (one isSpace)) (plus (one fun c => c ≠ '\r' && c ≠ '\n'))).run
      (body.text.reverse ++ (gap.text.reverse ++ (kind.text.reverse ++ (m₁.text.reverse ++ b))))
      body.rest).head? with
  | some comment' =>
      rw [hfirst] at hcomment
      cases hcomment
      obtain ⟨space, -, line, hline, rfl⟩ := head_seq hfirst
      refine .inr fun c hc => ?_
      have hend := head_plus_one hline c hc
      by_contra hno
      rw [not_or] at hno
      simp [hno.1, hno.2] at hend
  | none =>
      rw [hfirst] at hcomment
      cases hcomment
      refine .inl ?_
      have hbefore : ':' ∉ m₁.text := no_colon_of_matches hm₁ fun b w a g hw => by
        rw [matches_alt, matches_behind, matches_one] at hw
        rcases hw with ⟨-, rfl, -⟩ | ⟨⟨c, hc, rfl⟩, -⟩
        · simp
        · exact no_colon_of_all (p := isSpace) (by decide) (by simpa using hc)
      have hkind' : ':' ∉ kind.text := no_colon_of_matches hkind fun b w a g hw => by
        simp only [matches_alt, matches_oneOf, matches_seq, matches_lit, matches_plus_one] at hw
        rcases hw with ⟨hw, -⟩ | ⟨u, v, _, _, rfl, -, ⟨rfl, -⟩, ⟨-, hv, -⟩⟩
        · have hall : ∀ w ∈ (["sk-ssh-ed25519@openssh.com", "sk-ecdsa-sha2-nistp256@openssh.com",
              "ssh-ed25519", "ssh-rsa", "rsa-sha2-256", "rsa-sha2-512"] : List Str),
              ':' ∉ w := by decide
          exact hall w hw
        · rw [List.mem_append, not_or]
          exact ⟨by decide, no_colon_of_all (by decide) hv⟩
      have hgap' : ':' ∉ gap.text := no_colon_of_matches hgap fun b w a g hw =>
        no_colon_of_all (by decide) ((matches_plus_one _ _ _ _ _).mp hw).2.1
      have hbody' : ':' ∉ body.text := no_colon_of_matches hbody fun b w a g hw =>
        no_colon_of_all (by decide) ((matches_plus_one _ _ _ _ _).mp hw).2.1
      simp only [Match.append_text, List.mem_append, not_or]
      exact ⟨hbefore, hkind', hgap', hbody', List.not_mem_nil⟩

/-- No public key begins inside a line at a character that is not white space. -/
theorem no_key_at {d : Char} (hd : d ≠ '\n') {c : Char} (hc : isSpace c = false) (b s : Str) :
    found sshPublicKeyValuePattern (d :: b) (c :: s) = none := by
  have hrun : sshPublicKeyValuePattern.run (d :: b) (c :: s) = [] := by
    simp [sshPublicKeyValuePattern, run, hd, hc]
  rw [found, hrun]
  rfl

/-! ### Marked texts -/

theorem found_sshKeys (b t : List Marked) : found sshPublicKeyValuePattern (shown b) (shown t) =
    (found sshKeys b t).map (Match.map Prod.fst) := found_comap Prod.fst _ b t

theorem no_marked_key_at {d : Marked} (hd : d.1 ≠ '\n') {x : Marked} (hx : isSpace x.1 = false)
    (b t : List Marked) : found sshKeys (d :: b) (x :: t) = none := by
  have h := found_sshKeys (d :: b) (x :: t)
  change found _ (d.1 :: shown b) (x.1 :: shown t) = _ at h
  rw [no_key_at hd hx] at h
  exact Option.map_eq_none_iff.mp h.symm

theorem end_of_marked_key {b t : List Marked} {m : Match Marked}
    (h : found sshKeys b t = some m) :
    (∀ x ∈ m.text, x.1 ≠ ':') ∨ ∀ x ∈ m.rest.head?, x.1 = '\r' ∨ x.1 = '\n' := by
  have hfound := found_sshKeys b t
  rw [h] at hfound
  have hend := end_of_keyMatch (head_of_found (fun _ _ _ => text_of_keyMatch) hfound)
  refine hend.imp (fun hcolon x hx heq => ?_) fun hline x hx => ?_
  · exact hcolon (List.mem_map.mpr ⟨x, hx, heq⟩)
  · refine hline x.1 ?_
    rw [Match.map_rest, List.head?_map]
    exact Option.mem_map_of_mem _ hx

/-- What a scan for public keys makes of a text. -/
def keyScan (k : ℕ) (b t : List Marked) : List Marked :=
  rewritten (fun _ => plain keyMask) (scan sshKeys k b t)

theorem keyScan_of_found {b t : List Marked} {m : Match Marked} (h : found sshKeys b t = some m) :
    keyScan 0 b t = plain keyMask ++ keyScan 0 (m.text.reverse ++ b) m.rest := by
  rw [keyScan, scan_of_found h, rewritten_found]
  rfl

theorem keyScan_of_not_found {b : List Marked} {x : Marked} {t : List Marked}
    (h : found sshKeys b (x :: t) = none) : keyScan 0 b (x :: t) = x :: keyScan 0 (x :: b) t := by
  rw [keyScan, scan_of_not_found h, rewritten_skipped]
  rfl

theorem clean_keyScan (b t : List Marked) (ht : Clean t) : Clean (keyScan 0 b t) := by
  induction b, t using scan_induction (p := sshKeys) with
  | nil b => exact fun x hx => by cases hx
  | skipped b x t hfound ih =>
      rw [clean_cons] at ht
      rw [keyScan_of_not_found hfound, clean_cons]
      exact ⟨ht.1, ih ht.2⟩
  | matched b t m hfound ih =>
      obtain ⟨-, -, heq⟩ := found_eq_some hfound
      rw [heq, clean_append] at ht
      rw [keyScan_of_found hfound, clean_append]
      exact ⟨clean_plain keyMask, ih ht.2⟩

/-- A stretch inside a line without white space is left in place where no key has begun. -/
theorem keyScan_region {d : Marked} (hd : d.1 ≠ '\n') {region : List Marked}
    (hregion : ∀ x ∈ region, isSpace x.1 = false) (b t : List Marked) :
    ∃ b', keyScan 0 (d :: b) (region ++ t) = region ++ keyScan 0 b' t := by
  induction region generalizing d b with
  | nil => exact ⟨d :: b, rfl⟩
  | cons x region ih =>
      rw [List.forall_mem_cons] at hregion
      have hx : x.1 ≠ '\n' := by
        intro heq
        rw [heq] at hregion
        exact absurd hregion.1 (by decide)
      obtain ⟨b', hb'⟩ := ih hx hregion.2 (d :: b)
      refine ⟨b', ?_⟩
      rw [List.cons_append, keyScan_of_not_found (no_marked_key_at hd hregion.1 b _), hb',
        List.cons_append]

/-- The masking takes the region whole or leaves it in place. -/
theorem keyScan_cases {region : List Marked} (hregion : ∀ x ∈ region, isSpace x.1 = false)
    {first : Marked} (hfirst : region.head? = some first) (hcolon : first.1 = ':')
    {after : List Marked} (hafter : Clean after) (b before : List Marked) (hbefore : Clean before)
    {d : Marked} (hd : (before.reverse ++ b).head? = some d) (hd' : d.1 ≠ '\n') :
    Clean (keyScan 0 b (before ++ region ++ after)) ∨
      ∃ front rest, keyScan 0 b (before ++ region ++ after) = front ++ region ++ rest ∧
        Clean front ∧ Clean rest := by
  generalize hn : before.length = n
  induction n using Nat.strong_induction_on generalizing b before with
  | _ n ih =>
  cases before with
  | nil =>
      obtain ⟨b, rfl⟩ : ∃ b', b = d :: b' := by
        cases b with
        | nil => cases hd
        | cons e b =>
            cases hd
            exact ⟨b, rfl⟩
      obtain ⟨b', hb'⟩ := keyScan_region hd' hregion b after
      exact .inr ⟨[], keyScan 0 b' after, hb', fun x hx => (by cases hx),
        clean_keyScan b' after hafter⟩
  | cons x before =>
      cases hfound : found sshKeys b (x :: before ++ region ++ after) with
      | none =>
          rw [clean_cons] at hbefore
          rw [List.reverse_cons, List.append_assoc] at hd
          have hrest := ih before.length (by rw [← hn, List.length_cons]; omega) (x :: b) before
            hbefore.2 hd rfl
          rw [List.cons_append, List.cons_append] at hfound ⊢
          rw [keyScan_of_not_found hfound]
          rcases hrest with hclean | ⟨front, rest, heq, hfront, hrest⟩
          · exact .inl (clean_cons.mpr ⟨hbefore.1, hclean⟩)
          · refine .inr ⟨x :: front, rest, ?_, clean_cons.mpr ⟨hbefore.1, hfront⟩, hrest⟩
            rw [heq]
            rfl
      | some m =>
          obtain ⟨-, hne, heq⟩ := found_eq_some hfound
          have hclean : Clean m.rest → Clean (keyScan 0 b (x :: before ++ region ++ after)) := by
            intro hrest
            rw [keyScan_of_found hfound, clean_append]
            exact ⟨clean_plain keyMask, clean_keyScan _ _ hrest⟩
          -- a key that ends before the region
          have hinside : ∀ u, x :: before = m.text ++ u → m.rest = u ++ region ++ after →
              Clean (keyScan 0 b (x :: before ++ region ++ after)) ∨
                ∃ front rest, keyScan 0 b (x :: before ++ region ++ after) =
                  front ++ region ++ rest ∧ Clean front ∧ Clean rest := by
            intro u hu hrest
            have hlength := congrArg List.length hu
            have hpos := List.length_pos_iff.mpr hne
            rw [List.length_append] at hlength
            rw [hu, clean_append] at hbefore
            rw [hu, List.reverse_append, List.append_assoc] at hd
            rw [keyScan_of_found hfound, hrest]
            rcases ih u.length (by omega) (m.text.reverse ++ b) u hbefore.2 hd rfl with
              hcl | ⟨front, rest, heq', hfront, hrest'⟩
            · exact .inl (clean_append.mpr ⟨clean_plain keyMask, hcl⟩)
            · refine .inr ⟨plain keyMask ++ front, rest, ?_,
                clean_append.mpr ⟨clean_plain keyMask, hfront⟩, hrest'⟩
              rw [heq']
              simp only [List.append_assoc]
          rw [List.append_assoc] at heq
          rcases List.append_eq_append_iff.mp heq with ⟨u, htext, hrest⟩ | ⟨u, hu, hrest⟩
          · rcases List.append_eq_append_iff.mp hrest with ⟨v, rfl, hafter'⟩ | ⟨v, hv, hrest'⟩
            · rw [hafter', clean_append] at hafter
              exact .inl (hclean hafter.2)
            · cases u with
              | nil =>
                  rw [List.append_nil] at htext
                  refine hinside [] (by rw [List.append_nil, htext]) ?_
                  rw [hrest', hv]
                  rfl
              | cons y u =>
                  cases v with
                  | nil => exact .inl (hclean (by rwa [hrest', List.nil_append]))
                  -- a key with a colon does not end inside the region
                  | cons z v =>
                      rw [hv] at hfirst hregion
                      cases hfirst
                      rcases end_of_marked_key hfound with hno | hline
                      · exact absurd hcolon (hno first (by rw [htext]; simp))
                      · have hz : isSpace z.1 = false := hregion z (by simp)
                        rcases hline z (by rw [hrest']; rfl) with heq' | heq'
                        · rw [heq'] at hz
                          exact absurd hz (by decide)
                        · rw [heq'] at hz
                          exact absurd hz (by decide)
          · exact hinside u hu (by rw [hrest, List.append_assoc])

end Gjallar.RedactionTraces

import Gjallar.CanonicalJson
import Gjallar.HostNetwork

/-!
# The pending diff

What `assert_pending_diff` accepts, said of the lines it reads: a unified diff of hunks with
correct line counts, in which every changed line is blank or a permitted directive. The lines are
those of `str.splitlines`, which ends a line also at characters that are no newlines, also inside
of a line of the diff.
-/
namespace Gjallar.HostNetwork

open Gjallar.Text Gjallar.TextLines Gjallar.Data Gjallar.Operation Gjallar.CanonicalJson
  Gjallar.Regex Gjallar.Regex.Pattern

/-! ### Reviewed diffs -/

structure Hunk where
  header : Str
  body : List Str

def Hunk.lines (h : Hunk) : List Str := h.header :: h.body

/-- The lines of the old file in the body of a hunk. -/
def oldLines (body : List Str) : ℕ := body.countP fun line => line.head? ≠ some '+'

/-- The lines of the new file in the body of a hunk. -/
def newLines (body : List Str) : ℕ := body.countP fun line => line.head? ≠ some '-'

/-- A context line, or a changed line that is blank or a permitted directive. -/
def Admitted (review : Review) (line : Str) : Prop :=
  ∃ sign value, line = sign :: value ∧ sign ∈ [' ', '+', '-'] ∧
    (sign ≠ ' ' → allowedDiffLine value sign review = true)

structure Hunk.WellFormed (review : Review) (h : Hunk) : Prop where
  counts : declaredCounts h.header = some (oldLines h.body, newLines h.body)
  admitted : ∀ line ∈ h.body, Admitted review line

/-- A changed line that is not blank. -/
def isChange : Str → Bool
  | [] => false
  | sign :: value => sign ≠ ' ' && strip value ≠ []

/-- The lines are a unified diff of the network configuration with permitted changes only. -/
structure ReviewedDiff (review : Review) (lines : List Str) : Prop where
  exists_hunks : ∃ old new, ∃ hunks : List Hunk, lines = old :: new :: hunks.flatMap Hunk.lines ∧
    ("--- /etc/network/interfaces\t" : Str).isPrefixOf old = true ∧
    ("+++ /etc/network/interfaces.new\t" : Str).isPrefixOf new = true ∧
    (∀ h ∈ hunks, h.WellFormed review) ∧ ∃ h ∈ hunks, h.body.any isChange = true

/-! ### One line -/

section Line

variable {review : Review} {s t : DiffState} {line : Str}

theorem isPrefixOf_of_declaredCounts {counts : ℕ × ℕ} (h : declaredCounts line = some counts) :
    ("@@" : Str).isPrefixOf line = true := by
  simp only [declaredCounts, Option.bind_eq_bind, Option.bind_eq_some_iff] at h
  obtain ⟨header, hmatch, -⟩ := h
  obtain ⟨-, -, hm⟩ := fullmatch_eq_some hmatch
  simp only [hunkHeader, matches_seq, matches_lit] at hm
  obtain ⟨_, v, _, _, rfl, -, ⟨rfl, -⟩, -⟩ := hm
  rfl

theorem not_isPrefixOf_of_admitted (h : Admitted review line) :
    ("@@" : Str).isPrefixOf line = false := by
  obtain ⟨sign, value, rfl, hsign, -⟩ := h
  rcases List.mem_cons.mp hsign with rfl | hsign
  · rfl
  rcases List.mem_cons.mp hsign with rfl | hsign
  · rfl
  · rw [List.mem_singleton.mp hsign]
    rfl

/-- The loop variables after a line of the body. -/
def DiffState.afterBody (s : DiffState) (body : List Str) : DiffState :=
  { remainingOld := s.remainingOld - oldLines body, remainingNew := s.remainingNew - newLines body,
    changed := s.changed || body.any isChange, hunks := s.hunks }

theorem diffLine_header {old new : ℕ} (hcounts : declaredCounts line = some (old, new)) :
    diffLine review s line = .ok t ↔ s.remainingOld = 0 ∧ s.remainingNew = 0 ∧
      t = { s with remainingOld := old, remainingNew := new, hunks := s.hunks + 1 } := by
  rw [diffLine, if_pos (isPrefixOf_of_declaredCounts hcounts), headerLine, hcounts]
  dsimp only
  split
  · rename_i h
    constructor
    · intro hok
      cases hok
    · rintro ⟨hold, hnew, -⟩
      rcases h with h | h
      · exact absurd hold h
      · exact absurd hnew h
  · rename_i h
    rw [not_or, not_not, not_not] at h
    rw [Except.ok.injEq]
    exact ⟨fun heq => ⟨h.1, h.2, heq.symm⟩, fun ⟨_, _, heq⟩ => heq.symm⟩

theorem afterBody_singleton (sign : Char) (value : Str) :
    s.afterBody [sign :: value] =
      { remainingOld := if sign = '+' then s.remainingOld else s.remainingOld - 1
        remainingNew := if sign = '-' then s.remainingNew else s.remainingNew - 1
        changed := s.changed || isChange (sign :: value)
        hunks := s.hunks } := by
  by_cases hplus : sign = '+'
  · subst hplus
    simp [DiffState.afterBody, oldLines, newLines]
  · by_cases hminus : sign = '-'
    · subst hminus
      simp [DiffState.afterBody, oldLines, newLines]
    · simp [DiffState.afterBody, oldLines, newLines, hplus, hminus]

theorem bodyLine_cons {sign : Char} {value : Str} (hhunks : s.hunks ≠ 0)
    (hsign : sign ∈ [' ', '+', '-']) :
    bodyLine review s (sign :: value) = .ok t ↔
      (sign ≠ ' ' → allowedDiffLine value sign review = true) ∧
        0 ≤ (s.afterBody [sign :: value]).remainingOld ∧
        0 ≤ (s.afterBody [sign :: value]).remainingNew ∧ t = s.afterBody [sign :: value] := by
  rw [bodyLine, if_neg (by rw [not_or, not_not]; exact ⟨hhunks, hsign⟩), afterBody_singleton]
  dsimp only
  generalize (if sign = '+' then s.remainingOld else s.remainingOld - 1) = remainingOld
  generalize (if sign = '-' then s.remainingNew else s.remainingNew - 1) = remainingNew
  by_cases hmin : min remainingOld remainingNew < 0
  · rw [if_pos hmin]
    constructor
    · intro h
      cases h
    · rintro ⟨-, hold, hnew, -⟩
      omega
  have hold : 0 ≤ remainingOld := by omega
  have hnew : 0 ≤ remainingNew := by omega
  rw [if_neg hmin]
  by_cases hspace : sign = ' '
  · rw [if_pos hspace, Except.ok.injEq, hspace]
    simp only [ne_eq, not_true_eq_false, false_implies, true_and, hold, hnew, isChange,
      decide_false, Bool.false_and, Bool.or_false]
    exact eq_comm
  rw [if_neg hspace]
  by_cases hallowed : allowedDiffLine value sign review = true
  · rw [if_pos hallowed, Except.ok.injEq]
    simp only [ne_eq, hspace, not_false_eq_true, hallowed, implies_true, true_and, hold, hnew,
      isChange, decide_true, Bool.true_and]
    exact eq_comm
  · rw [if_neg hallowed]
    constructor
    · intro h
      cases h
    · rintro ⟨h, -⟩
      exact absurd (h hspace) hallowed

theorem diffLine_body (hline : ("@@" : Str).isPrefixOf line = false) :
    diffLine review s line = .ok t ↔ s.hunks ≠ 0 ∧ Admitted review line ∧
      0 ≤ (s.afterBody [line]).remainingOld ∧ 0 ≤ (s.afterBody [line]).remainingNew ∧
      t = s.afterBody [line] := by
  rw [diffLine, hline, if_neg Bool.false_ne_true]
  cases line with
  | nil =>
      simp only [bodyLine, reduceCtorEq, false_iff]
      rintro ⟨-, ⟨sign, value, hnil, -⟩, -⟩
      cases hnil
  | cons sign value =>
      have hadmitted : Admitted review (sign :: value) ↔ sign ∈ [' ', '+', '-'] ∧
          (sign ≠ ' ' → allowedDiffLine value sign review = true) := by
        constructor
        · rintro ⟨_, _, heq, hsign, hallowed⟩
          cases heq
          exact ⟨hsign, hallowed⟩
        · rintro ⟨hsign, hallowed⟩
          exact ⟨sign, value, rfl, hsign, hallowed⟩
      rw [hadmitted]
      by_cases hgood : s.hunks ≠ 0 ∧ sign ∈ [' ', '+', '-']
      · rw [bodyLine_cons hgood.1 hgood.2]
        tauto
      · rw [bodyLine, if_pos (by tauto)]
        constructor
        · intro h
          cases h
        · rintro ⟨hhunks, ⟨hsign, -⟩, -⟩
          exact absurd ⟨hhunks, hsign⟩ hgood

end Line

/-! ### All lines -/

section Lines

variable {review : Review}

theorem oldLines_cons (line : Str) (body : List Str) :
    oldLines (line :: body) = oldLines [line] + oldLines body := by
  rw [← List.singleton_append, oldLines, List.countP_append]
  rfl

theorem newLines_cons (line : Str) (body : List Str) :
    newLines (line :: body) = newLines [line] + newLines body := by
  rw [← List.singleton_append, newLines, List.countP_append]
  rfl

theorem exists_declaredCounts {s t : DiffState} {line : Str}
    (hline : ("@@" : Str).isPrefixOf line = true) (h : diffLine review s line = .ok t) :
    ∃ old new, declaredCounts line = some (old, new) := by
  rw [diffLine, if_pos hline, headerLine] at h
  cases hcounts : declaredCounts line with
  | none =>
      rw [hcounts] at h
      cases h
  | some counts => exact ⟨counts.1, counts.2, rfl⟩

/-- The end of the loop over the rest of a hunk and the hunks after it. -/
def DiffState.afterHunks (s : DiffState) (body : List Str) (hunks : List Hunk) : DiffState :=
  { remainingOld := 0, remainingNew := 0,
    changed := s.changed || body.any isChange || hunks.any fun h => h.body.any isChange,
    hunks := s.hunks + hunks.length }

theorem afterHunks_cons (s : DiffState) (old new : ℤ) (h : Hunk) (hunks : List Hunk) :
    ({ s with remainingOld := old, remainingNew := new, hunks := s.hunks + 1 } :
      DiffState).afterHunks h.body hunks = s.afterHunks [] (h :: hunks) := by
  have hlength : s.hunks + 1 + hunks.length = s.hunks + (hunks.length + 1) := by omega
  simp [DiffState.afterHunks, Bool.or_assoc, hlength]

theorem afterHunks_afterBody (s : DiffState) (line : Str) (body : List Str) (hunks : List Hunk) :
    (s.afterBody [line]).afterHunks body hunks = s.afterHunks (line :: body) hunks := by
  simp [DiffState.afterHunks, DiffState.afterBody, Bool.or_assoc]

/-- The loop accepts lines exactly when they are the rest of the hunk it is in, with as many lines
as are left of it, and well-formed hunks after it. -/
theorem foldlM_diffLine {lines : List Str} {s t : DiffState} (hhunks : s.hunks ≠ 0)
    (hold : 0 ≤ s.remainingOld) (hnew : 0 ≤ s.remainingNew) :
    (lines.foldlM (diffLine review) s = .ok t ∧ t.remainingOld = 0 ∧ t.remainingNew = 0) ↔
      ∃ body, ∃ hunks : List Hunk, lines = body ++ hunks.flatMap Hunk.lines ∧
        (∀ line ∈ body, Admitted review line) ∧ s.remainingOld = oldLines body ∧
        s.remainingNew = newLines body ∧ (∀ h ∈ hunks, h.WellFormed review) ∧
        t = s.afterHunks body hunks := by
  induction lines generalizing s t with
  | nil =>
      rw [List.foldlM_nil, pure_eq_ok]
      constructor
      · rintro ⟨rfl, h₁, h₂⟩
        refine ⟨[], [], rfl, by simp, h₁, h₂, by simp, ?_⟩
        obtain ⟨remainingOld, remainingNew, changed, n⟩ := s
        obtain rfl : remainingOld = 0 := h₁
        obtain rfl : remainingNew = 0 := h₂
        simp [DiffState.afterHunks]
      · rintro ⟨body, hunks, hnil, -, h₁, h₂, -, rfl⟩
        obtain ⟨rfl, hflat⟩ := List.append_eq_nil_iff.mp hnil.symm
        have hunks_nil : hunks = [] := by
          cases hunks with
          | nil => rfl
          | cons h hunks => cases hflat
        subst hunks_nil
        obtain ⟨remainingOld, remainingNew, changed, n⟩ := s
        obtain rfl : remainingOld = 0 := h₁
        obtain rfl : remainingNew = 0 := h₂
        simp [DiffState.afterHunks]
  | cons line lines ih =>
      rw [List.foldlM_cons, bind_eq_ok]
      constructor
      · rintro ⟨⟨s', hline, hrest⟩, h₁, h₂⟩
        by_cases hheader : ("@@" : Str).isPrefixOf line = true
        · obtain ⟨old, new, hcounts⟩ := exists_declaredCounts hheader hline
          obtain ⟨hs₁, hs₂, rfl⟩ := (diffLine_header hcounts).mp hline
          obtain ⟨body, hunks, rfl, hbody, hbold, hbnew, hwf, rfl⟩ :=
            (ih (Nat.succ_ne_zero _) (Int.natCast_nonneg old) (Int.natCast_nonneg new)).mp
              ⟨hrest, h₁, h₂⟩
          have hold' : old = oldLines body := Int.ofNat_inj.mp hbold
          have hnew' : new = newLines body := Int.ofNat_inj.mp hbnew
          refine ⟨[], ⟨line, body⟩ :: hunks, rfl, by simp, hs₁, hs₂, ?_, ?_⟩
          · rw [List.forall_mem_cons]
            exact ⟨⟨by rw [hcounts, hold', hnew'], hbody⟩, hwf⟩
          · exact afterHunks_cons s old new ⟨line, body⟩ hunks
        · rw [Bool.not_eq_true] at hheader
          obtain ⟨-, hadmitted, h₃, h₄, rfl⟩ := (diffLine_body hheader).mp hline
          obtain ⟨body, hunks, rfl, hbody, hbold, hbnew, hwf, rfl⟩ :=
            (ih (s := s.afterBody [line]) hhunks h₃ h₄).mp ⟨hrest, h₁, h₂⟩
          refine ⟨line :: body, hunks, rfl, ?_, ?_, ?_, hwf, ?_⟩
          · rw [List.forall_mem_cons]
            exact ⟨hadmitted, hbody⟩
          · rw [oldLines_cons]
            simp only [DiffState.afterBody] at hbold
            push_cast
            omega
          · rw [newLines_cons]
            simp only [DiffState.afterBody] at hbnew
            push_cast
            omega
          · exact afterHunks_afterBody s line body hunks
      · rintro ⟨body, hunks, hlines, hbody, hbold, hbnew, hwf, rfl⟩
        refine ⟨?_, rfl, rfl⟩
        cases body with
        | nil =>
            cases hunks with
            | nil => cases hlines
            | cons h hunks =>
                obtain ⟨rfl, rfl⟩ := List.cons.inj hlines
                rw [List.forall_mem_cons] at hwf
                refine ⟨_, (diffLine_header hwf.1.counts).mpr ⟨hbold, hbnew, rfl⟩, ?_⟩
                exact ((ih (Nat.succ_ne_zero _) (Int.natCast_nonneg _) (Int.natCast_nonneg _)).mpr
                  ⟨h.body, hunks, rfl, hwf.1.admitted, rfl, rfl, hwf.2,
                    (afterHunks_cons s _ _ h hunks).symm⟩).1
        | cons l body =>
            obtain ⟨rfl, rfl⟩ := List.cons.inj hlines
            rw [List.forall_mem_cons] at hbody
            rw [oldLines_cons] at hbold
            rw [newLines_cons] at hbnew
            push_cast at hbold hbnew
            have h₃ : (s.afterBody [line]).remainingOld = oldLines body := by
              simp only [DiffState.afterBody]
              omega
            have h₄ : (s.afterBody [line]).remainingNew = newLines body := by
              simp only [DiffState.afterBody]
              omega
            have hposOld : 0 ≤ (s.afterBody [line]).remainingOld := by omega
            have hposNew : 0 ≤ (s.afterBody [line]).remainingNew := by omega
            refine ⟨_, (diffLine_body (not_isPrefixOf_of_admitted hbody.1)).mpr
              ⟨hhunks, hbody.1, hposOld, hposNew, rfl⟩, ?_⟩
            exact ((ih (s := s.afterBody [line]) hhunks hposOld hposNew).mpr
              ⟨body, hunks, rfl, hbody.2, h₃, h₄, hwf,
                (afterHunks_afterBody s line body hunks).symm⟩).1

/-- The loop from the first line after the file names. -/
theorem foldlM_diffLine_start {lines : List Str} {t : DiffState} :
    (lines.foldlM (diffLine review) {} = .ok t ∧ t.hunks ≠ 0 ∧ t.remainingOld = 0 ∧
        t.remainingNew = 0) ↔
      ∃ hunks : List Hunk, hunks ≠ [] ∧ lines = hunks.flatMap Hunk.lines ∧
        (∀ h ∈ hunks, h.WellFormed review) ∧ t = DiffState.afterHunks {} [] hunks := by
  constructor
  · rintro ⟨hfold, hne, h₁, h₂⟩
    cases lines with
    | nil =>
        rw [List.foldlM_nil, pure_eq_ok] at hfold
        subst hfold
        exact absurd rfl hne
    | cons line lines =>
        rw [List.foldlM_cons, bind_eq_ok] at hfold
        obtain ⟨s', hline, hrest⟩ := hfold
        by_cases hheader : ("@@" : Str).isPrefixOf line = true
        · obtain ⟨old, new, hcounts⟩ := exists_declaredCounts hheader hline
          obtain ⟨-, -, rfl⟩ := (diffLine_header hcounts).mp hline
          obtain ⟨body, hunks, rfl, hbody, hbold, hbnew, hwf, rfl⟩ :=
            (foldlM_diffLine (Nat.succ_ne_zero _) (Int.natCast_nonneg old)
              (Int.natCast_nonneg new)).mp ⟨hrest, h₁, h₂⟩
          have hold : old = oldLines body := Int.ofNat_inj.mp hbold
          have hnew : new = newLines body := Int.ofNat_inj.mp hbnew
          refine ⟨⟨line, body⟩ :: hunks, List.cons_ne_nil _ _, rfl, ?_,
            afterHunks_cons {} old new ⟨line, body⟩ hunks⟩
          rw [List.forall_mem_cons]
          exact ⟨⟨by rw [hcounts, hold, hnew], hbody⟩, hwf⟩
        · rw [Bool.not_eq_true] at hheader
          exact absurd rfl ((diffLine_body hheader).mp hline).1
  · rintro ⟨hunks, hne, rfl, hwf, rfl⟩
    cases hunks with
    | nil => exact absurd rfl hne
    | cons h hunks =>
        rw [List.forall_mem_cons] at hwf
        have hrest := ((@foldlM_diffLine review _ _ _ (Nat.succ_ne_zero 0)
          (Int.natCast_nonneg (oldLines h.body)) (Int.natCast_nonneg (newLines h.body))).mpr
          ⟨h.body, hunks, rfl, hwf.1.admitted, rfl, rfl, hwf.2,
            (afterHunks_cons {} _ _ h hunks).symm⟩).1
        refine ⟨?_, Nat.add_one_ne_zero _, rfl, rfl⟩
        exact bind_eq_ok.mpr ⟨_, (diffLine_header hwf.1.counts).mpr ⟨rfl, rfl, rfl⟩, hrest⟩

/-- The checks accept exactly the lines of a reviewed diff. -/
theorem checkDiffLines_eq_ok_iff {lines : List Str} :
    checkDiffLines review lines = .ok () ↔ ReviewedDiff review lines := by
  constructor
  · intro h
    unfold checkDiffLines at h
    split at h
    · rename_i old new first rest
      split at h
      · rename_i hnames
        simp only [bind_eq_ok, raiseIf_eq_ok, not_or, not_not, Bool.not_eq_false] at h
        obtain ⟨t, hfold, hhunks, hchanged, h₁, h₂⟩ := h
        obtain ⟨hunks, hne, hlines, hwf, rfl⟩ :=
          foldlM_diffLine_start.mp ⟨hfold, hhunks, h₁, h₂⟩
        refine ⟨old, new, hunks, by rw [hlines], hnames.1, hnames.2, hwf, ?_⟩
        simpa [DiffState.afterHunks] using hchanged
      · cases h
    · cases h
  · rintro ⟨old, new, hunks, rfl, hold, hnew, hwf, h, hmem, hchange⟩
    have hne : hunks ≠ [] := List.ne_nil_of_mem hmem
    obtain ⟨hfold, hhunks, h₁, h₂⟩ := foldlM_diffLine_start.mpr ⟨hunks, hne, rfl, hwf, rfl⟩
    cases hunks with
    | nil => exact absurd rfl hne
    | cons g hunks =>
        change checkDiffLines review (old :: new :: g.header :: (g.body ++ _)) = _
        rw [checkDiffLines, if_pos ⟨hold, hnew⟩]
        refine bind_eq_ok.mpr ⟨_, hfold, ?_⟩
        have hany : (g :: hunks).any (fun h => h.body.any isChange) = true :=
          List.any_eq_true.mpr ⟨h, hmem, hchange⟩
        simp only [raiseIf_eq_ok, not_or, not_not, Bool.not_eq_false]
        exact ⟨hhunks, by simp only [DiffState.afterHunks, hany, Bool.or_true], h₁, h₂⟩

/-- `assert_pending_diff` reads the lines of `str.splitlines`. -/
theorem assertPendingDiff_eq_ok_iff {changes : Str} :
    assertPendingDiff changes review = .ok () ↔
      changes.length ≤ 262144 ∧ ReviewedDiff review (splitLines changes) := by
  unfold assertPendingDiff
  by_cases hlength : 262144 < changes.length
  · rw [if_pos hlength]
    constructor
    · intro h
      cases h
    · rintro ⟨h, -⟩
      omega
  · rw [if_neg hlength, checkDiffLines_eq_ok_iff]
    exact ⟨fun h => ⟨by omega, h⟩, fun h => h.2⟩

end Lines

/-! ### Characters that end a line without being newlines -/

/-- The review of some change against some snapshot. -/
def IsReview (review : Review) : Prop :=
  ∃ rt nodeId bridgeId change snapshot, makeReview rt nodeId bridgeId change snapshot = .ok review

def lineBoundaries : List Char :=
  ['\n', '\x0b', '\x0c', '\r', '\x1c', '\x1d', '\x1e', '\u0085', '\u2028', '\u2029']

theorem mem_lineBoundaries {c : Char} (h : isLineBoundary c = true) : c ∈ lineBoundaries := by
  have hnat : c.toNat ∈ lineBoundaries.map Char.toNat := by
    simp only [isLineBoundary, Bool.or_eq_true, Bool.and_eq_true, decide_eq_true_eq,
      beq_iff_eq] at h
    have hvalues : lineBoundaries.map Char.toNat =
        [10, 11, 12, 13, 28, 29, 30, 133, 8232, 8233] := by decide
    rw [hvalues]
    simp only [List.mem_cons, List.not_mem_nil, or_false]
    omega
  obtain ⟨d, hd, heq⟩ := List.mem_map.mp hnat
  rw [← Char.toNat_inj.mp heq]
  exact hd

/-- The creation of a bridge on a node without interfaces. -/
def bridgeCreation : Except BridgeError Review :=
  makeReview printing "node1" "vmbr40" (.plain .create true)
    (.dict [("interfaces", .list []), ("changes", .str [])])

/-- A diff that adds one permitted line, with `c` at the end of each line. -/
def additionDiff (c : Char) : Str :=
  join [c] ["--- /etc/network/interfaces\tbefore", "+++ /etc/network/interfaces.new\tafter",
    "@@ -0,0 +1 @@", "+auto vmbr40"]

/-- A line boundary other than a newline stands inside a line, with more of the line behind it. -/
def Cut (changes : Str) : Prop :=
  ∃ line ∈ trimmedLines changes, ∃ c ∈ line, isLineBoundary c = true

/-- A text that is cut inside a line, and that is a reviewed diff only when it is read so. -/
structure Misread (review : Review) (changes : Str) : Prop where
  short : changes.length ≤ 262144
  cut : Cut changes
  split : ReviewedDiff review (splitLines changes)
  unreviewed : ¬ ReviewedDiff review (trimmedLines changes)

theorem ReviewedDiff.ne_nil {review : Review} {lines : List Str} (h : ReviewedDiff review lines) :
    ∀ line ∈ lines, line ≠ [] := by
  obtain ⟨old, new, hunks, rfl, hold, hnew, hwf, -⟩ := h
  rw [List.forall_mem_cons, List.forall_mem_cons]
  refine ⟨?_, ?_, fun line hline => ?_⟩
  · rintro rfl
    cases hold
  · rintro rfl
    cases hnew
  · obtain ⟨hunk, hmem, hline⟩ := List.mem_flatMap.mp hline
    rcases List.mem_cons.mp hline with rfl | hline
    · intro hnil
      have hheader := isPrefixOf_of_declaredCounts (hwf hunk hmem).counts
      rw [hnil] at hheader
      cases hheader
    · obtain ⟨sign, value, rfl, -⟩ := (hwf hunk hmem).admitted line hline
      exact List.cons_ne_nil sign value

/-- Every line boundary but the newline cuts a text that is misread. -/
theorem misread_additionDiff {c : Char} (hboundary : isLineBoundary c = true) (hc : c ≠ '\n') :
    ∃ review, IsReview review ∧ Misread review (additionDiff c) := by
  obtain ⟨review, hreview⟩ := exists_eq_ok (show bridgeCreation.isOk = true by decide)
  refine ⟨review, ⟨_, _, _, _, _, hreview⟩, ?_⟩
  have haccepted : ∀ d ∈ lineBoundaries,
      (bridgeCreation >>= assertPendingDiff (additionDiff d)).isOk = true :=
    forall_mem_of_all (by decide)
  have hd := haccepted c (mem_lineBoundaries hboundary)
  rw [hreview] at hd
  obtain ⟨_, hok⟩ := exists_eq_ok (x := assertPendingDiff (additionDiff c) review) hd
  obtain ⟨hshort, hsplit⟩ := assertPendingDiff_eq_ok_iff.mp hok
  have hall : ∀ d ∈ lineBoundaries, d ≠ '\n' → trimmedLines (additionDiff d) = [additionDiff d] ∧
      d ∈ additionDiff d := forall_mem_of_all (by decide +kernel)
  obtain ⟨hlines, hmem⟩ := hall c (mem_lineBoundaries hboundary) hc
  refine ⟨hshort, ⟨additionDiff c, ?_, c, hmem, hboundary⟩, hsplit, ?_⟩
  · rw [hlines]
    exact List.mem_singleton_self _
  · rintro ⟨old, new, hunks, hdiff, -⟩
    rw [hlines] at hdiff
    exact List.cons_ne_nil _ _ (List.cons.inj hdiff).2.symm

/-- The diff whose added line goes on behind a form feed. -/
def directiveDiff : Str :=
  join "\n" ["--- /etc/network/interfaces\tbefore", "+++ /etc/network/interfaces.new\tafter",
    "@@ -0,0 +1 @@", "+auto vmbr40\x0c@@ -9,0 +9,0 @@ post-up private-command"]

end Gjallar.HostNetwork
